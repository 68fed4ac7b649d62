import HerdrBoard.Events.Stream

/-!
# No event is lost

While every read ends between two characters, the polls of a stream return the events of the lines
that were sent. -/

open Lib HerdrBoard.Core

namespace HerdrBoard.Events

/-! ## Text that is left to read -/

/-- The text of some lines, each with its newline. -/
def textOf (lines : List String) : List Char := lines.flatMap fun line => line.toList ++ ['\n']

/-- The events among some lines. -/
def eventsOf (serde : Serde) (lines : List String) : List HerdrEvent :=
  lines.filterMap fun line => parseEventLine serde (line ++ "\n")

/-- The partial line and what the source still delivers are the lines left to read. -/
structure Assembles (lines : List String) (pending : String) (source : Source) : Prop where
  text : ∃ texts : List (List Char), source.chunks = texts.map utf8 ∧
    pending.toList ++ texts.flatten = textOf lines
  unended : '\n' ∉ pending.toList
  single : ∀ line ∈ lines, '\n' ∉ line.toList

variable {lines : List String} {pending : String} {source : Source}

theorem textOf_cons (line : String) (lines : List String) :
    textOf (line :: lines) = line.toList ++ '\n' :: textOf lines := by
  simp [textOf]

/-- The first newline of the lines left ends the first of them. -/
theorem first_line {a b : List Char} (hsingle : ∀ line ∈ lines, '\n' ∉ line.toList) (ha : '\n' ∉ a)
    (h : a ++ '\n' :: b = textOf lines) :
    ∃ line rest, lines = line :: rest ∧ line.toList = a ∧ textOf rest = b := by
  cases lines with
  | nil => simp [textOf] at h
  | cons line rest =>
      rw [textOf_cons] at h
      have hline := hsingle line (by simp)
      obtain ⟨heq, hrest⟩ := split_at_first ha hline h
      exact ⟨line, rest, rfl, heq.symm, hrest.symm⟩

theorem no_lines_of_text {a : List Char} (ha : '\n' ∉ a) (h : a = textOf lines) : lines = [] := by
  cases lines with
  | nil => rfl
  | cons line rest =>
      rw [textOf_cons] at h
      exact absurd (by rw [h]; simp) ha

/-! ## One read -/

theorem Assembles.chunks_nil (h : Assembles lines pending source) (hchunks : source.chunks = []) :
    lines = [] := by
  obtain ⟨texts, htexts, htext⟩ := h.text
  rw [hchunks, eq_comm, List.map_eq_nil_iff] at htexts
  rw [htexts, List.flatten_nil, List.append_nil] at htext
  exact no_lines_of_text h.unended htext

/-- What a read does to the lines left: it ends the first one, or takes a chunk that
ends inside it. -/
inductive Reads (lines : List String) (source : Source) : ReadLine → String → Source → Prop where
  | line {pending' source'} (line : String) (rest : List String) (hlines : lines = line :: rest)
      (hpending : pending' = line ++ "\n")
      (hrest : Assembles rest "" source') (hchunks : source'.chunks.length = source.chunks.length) :
      Reads lines source .read pending' source'
  | chunk {outcome pending' source'} (houtcome : outcome = .wouldBlock ∨ outcome = .read)
      (hrest : Assembles lines pending' source')
      (hchunks : source'.chunks.length < source.chunks.length) :
      Reads lines source outcome pending' source'
  | blocked {pending'} (hlines : lines = []) (hrest : Assembles lines pending' source)
      (hchunks : source.chunks = []) : Reads lines source .wouldBlock pending' source
  | eof {pending' source'} (hlines : lines = []) (hrest : Assembles lines pending' source')
      (hchunks : source'.chunks = []) : Reads lines source .eof pending' source'

theorem eq_of_toList {s t : String} (h : s.toList = t.toList) : s = t := String.toList_inj.mp h

theorem Assembles.readLine (h : Assembles lines pending source) :
    Reads lines source (readLine pending source).1 (readLine pending source).2.1
      (readLine pending source).2.2 := by
  obtain ⟨texts, htexts, htext⟩ := h.text
  cases texts with
  | nil =>
      have hchunks : source.chunks = [] := htexts
      have hlines := h.chunks_nil hchunks
      unfold Events.readLine
      rw [hchunks]
      dsimp only
      cases source.closed with
      | true => exact .eof hlines h hchunks
      | false => exact .blocked hlines h hchunks
  | cons text texts =>
      rw [List.map_cons] at htexts
      rw [List.flatten_cons] at htext
      unfold Events.readLine
      rw [htexts]
      by_cases hnewline : '\n' ∈ text
      · obtain ⟨a, b, rfl, ha⟩ := List.eq_append_cons_of_mem hnewline
        have hpartial : '\n' ∉ pending.toList ++ a := List.not_mem_append h.unended ha
        have hsplit : (pending.toList ++ a) ++ '\n' :: (b ++ texts.flatten) = textOf lines := by
          simpa using htext
        obtain ⟨line, rest, hlines, hline, hrest⟩ := first_line h.single hpartial hsplit
        simp only [takeLine_utf8 ha, decodeUtf8_utf8]
        refine .line line rest hlines (eq_of_toList ?_) ⟨⟨b :: texts, rfl, ?_⟩, by simp, ?_⟩
          (by simp [htexts])
        · simp [hline]
        · simp [hrest]
        · intro l hl
          exact h.single l (hlines ▸ List.mem_cons_of_mem _ hl)
      · have hpartial : '\n' ∉ (pending ++ String.ofList text).toList := by
          simpa using ⟨h.unended, hnewline⟩
        have hrest : Assembles lines (pending ++ String.ofList text)
            { source with chunks := texts.map utf8 } :=
          ⟨⟨texts, rfl, by simpa using htext⟩, hpartial, h.single⟩
        have hless : ({ source with chunks := texts.map utf8 } : Source).chunks.length <
            source.chunks.length := by
          simp [htexts]
        simp only [takeLine_utf8_none hnewline, decodeUtf8_utf8]
        cases hend : source.closed && (texts.map utf8).isEmpty with
        | false => exact .chunk (.inl rfl) hrest hless
        | true =>
            have hnil : texts.map utf8 = [] := by simpa using (Bool.and_eq_true_iff.mp hend).2
            cases hempty : (utf8 text).isEmpty with
            | true => exact .eof (hrest.chunks_nil hnil) hrest hnil
            | false => exact .chunk (.inr rfl) hrest hless

theorem endsLine_line (line : String) : endsLine (line ++ "\n") = true := by
  simp [endsLine]

theorem endsLine_unended (h : '\n' ∉ pending.toList) : endsLine pending = false := by
  unfold endsLine
  rw [beq_eq_false_iff_ne]
  intro hlast
  exact h (List.mem_of_getLast? hlast)

/-! ## Polls -/

variable {serde : Serde} {s s' : HerdrEvents}

/-- What a poll returned. -/
def eventOf (result : Except StreamError (Option HerdrEvent)) : Option HerdrEvent :=
  result.toOption.join

/-- Chunks and lines that are left. -/
def left (lines : List String) (source : Source) : Nat := lines.length + source.chunks.length

/-- A poll that read: it returned the first event of what it consumed, and left at most `n`. -/
structure Polled (serde : Serde) (lines : List String) (queue : List HerdrEvent) (n : Nat)
    (answer : Except StreamError (Option HerdrEvent) × HerdrEvents) : Prop where
  queue : answer.2.pendingEvents = queue
  rest : ∃ rest, Assembles rest answer.2.pending answer.2.source ∧
    eventsOf serde lines = (eventOf answer.1).toList ++ eventsOf serde rest ∧
    left rest answer.2.source ≤ n

variable {queue : List HerdrEvent} {n m : Nat}

theorem eventsOf_cons (line : String) (rest : List String) :
    eventsOf serde (line :: rest) = (parseEventLine serde (line ++ "\n")).toList ++
      eventsOf serde rest := by
  cases h : parseEventLine serde (line ++ "\n") <;> simp [eventsOf, h]

theorem Polled.weaken {answer} (h : Polled serde lines queue n answer) (hle : n ≤ m) :
    Polled serde lines queue m answer := by
  obtain ⟨rest, hrest, hevents, hleft⟩ := h.rest
  exact ⟨h.queue, rest, hrest, hevents, hleft.trans hle⟩

/-- A turn that consumed a line without an event goes on with the lines after it. -/
theorem Polled.after {answer} {rest : List String} (h : Polled serde rest queue n answer)
    (hevents : eventsOf serde lines = eventsOf serde rest) : Polled serde lines queue n answer := by
  obtain ⟨rest', hrest, hmore, hleft⟩ := h.rest
  exact ⟨h.queue, rest', hrest, hevents.trans hmore, hleft⟩

theorem pollTurn_polled {s : HerdrEvents}
    {next : HerdrEvents → Except StreamError (Option HerdrEvent) × HerdrEvents}
    (h : Assembles lines s.pending s.source)
    (hnext : ∀ rest (t : HerdrEvents), Assembles rest t.pending t.source →
      Polled serde rest t.pendingEvents (left rest t.source) (next t)) :
    Polled serde lines s.pendingEvents (left lines s.source - 1) (pollTurn serde s next) := by
  have hread := h.readLine
  unfold pollTurn
  generalize readLine s.pending s.source = r at hread
  obtain ⟨outcome, pending, source⟩ := r
  dsimp only at hread ⊢
  cases hread with
  | line line rest hlines hpending hrest hchunks =>
      subst hlines hpending
      have hleft : left rest source ≤ left (line :: rest) s.source - 1 := by
        simp only [left, hchunks, List.length_cons]
        omega
      simp only [endsLine_line, if_true]
      cases hparse : parseEventLine serde (line ++ "\n") with
      | some event =>
          refine ⟨rfl, rest, hrest, ?_, hleft⟩
          rw [eventsOf_cons, hparse]
          rfl
      | none =>
          have hmore := (hnext rest { s with pending := "", source } hrest).weaken hleft
          refine hmore.after ?_
          rw [eventsOf_cons, hparse]
          rfl
  | chunk houtcome hrest hchunks =>
      have hmore := hnext lines { s with pending, source } hrest
      have hleft : left lines source ≤ left lines s.source - 1 := by
        simp only [left]
        omega
      rcases houtcome with rfl | rfl
      · exact hmore.weaken hleft
      · simp only [endsLine_unended hrest.unended, Bool.false_eq_true, if_false]
        exact hmore.weaken hleft
  | blocked hlines hrest hchunks =>
      have hmore := hnext lines { s with pending } hrest
      have hleft : left lines s.source = 0 := by simp [left, hlines, hchunks]
      exact hmore.weaken (hleft ▸ Nat.zero_le _)
  | eof hlines hrest hchunks =>
      refine ⟨rfl, lines, hrest, rfl, ?_⟩
      simp [left, hlines, hchunks]

theorem pollLoop_polled (ready : List Bool) {s : HerdrEvents}
    (h : Assembles lines s.pending s.source) :
    Polled serde lines s.pendingEvents (left lines s.source - 1) (pollLoop serde s ready) := by
  have hstop : ∀ rest (t : HerdrEvents), Assembles rest t.pending t.source →
      Polled serde rest t.pendingEvents (left rest t.source) (.ok none, t) :=
    fun rest t hrest => ⟨rfl, rest, hrest, rfl, Nat.le_refl _⟩
  induction ready generalizing s lines with
  | nil => exact pollTurn_polled h hstop
  | cons goes ready ih =>
      cases goes with
      | false => exact pollTurn_polled h hstop
      | true => exact pollTurn_polled h fun rest t hrest => (ih hrest).weaken (Nat.sub_le _ _)

/-- The events a stream still returns, after at most `n` polls. -/
structure Carries (serde : Serde) (events : List HerdrEvent) (n : Nat) (s : HerdrEvents) :
    Prop where
  lines : ∃ lines, Assembles lines s.pending s.source ∧
    events = s.pendingEvents ++ eventsOf serde lines ∧
    s.pendingEvents.length + left lines s.source ≤ n

variable {events : List HerdrEvent}

theorem pollEvent_carries (h : Carries serde events n s) (ready : List Bool) :
    ∃ rest, events = (eventOf (pollEvent serde s ready).1).toList ++ rest ∧
      Carries serde rest (n - 1) (pollEvent serde s ready).2 := by
  obtain ⟨lines, hlines, rfl, hle⟩ := h.lines
  unfold pollEvent
  cases hqueue : s.pendingEvents with
  | nil =>
      have hpolled : Polled serde lines s.pendingEvents _ (pollLoop serde s ready) :=
        pollLoop_polled ready hlines
      obtain ⟨hsame, rest, hrest, hevents, hleft⟩ := hpolled
      rw [hqueue] at hsame hle
      refine ⟨eventsOf serde rest, hevents, rest, hrest, by simp [hsame], ?_⟩
      simp only [hsame, List.length_nil] at hle ⊢
      omega
  | cons event queue =>
      refine ⟨queue ++ eventsOf serde lines, rfl, lines, hlines, rfl, ?_⟩
      simp only [hqueue, List.length_cons] at hle ⊢
      omega

theorem polls_carries (rounds : List (List Bool)) (h : Carries serde events n s) :
    ∃ rest, events = returned (polls serde s rounds).1 ++ rest ∧
      Carries serde rest (n - rounds.length) (polls serde s rounds).2 := by
  induction rounds generalizing s events n with
  | nil => exact ⟨events, rfl, h⟩
  | cons ready rounds ih =>
      obtain ⟨rest, hfirst, hcarries⟩ := pollEvent_carries h ready
      obtain ⟨rest', hlater, hcarries'⟩ := ih hcarries
      refine ⟨rest', ?_, ?_⟩
      · rw [hfirst, hlater]
        simp only [polls, returned, eventOf]
        cases hevent : (pollEvent serde s ready).1.toOption.join <;> simp [hevent]
      · rw [List.length_cons, Nat.add_comm, ← Nat.sub_sub]
        exact hcarries'

theorem Carries.nothing (h : Carries serde events 0 s) : events = [] := by
  obtain ⟨lines, -, rfl, hle⟩ := h.lines
  have hqueue : s.pendingEvents = [] := List.length_eq_zero_iff.mp (by omega)
  have hlines : lines = [] := List.length_eq_zero_iff.mp (by simp only [left] at hle; omega)
  simp [hqueue, hlines, eventsOf]

/-! ## The handshake -/

theorem ackLine_event {expectedId line : String} {event : HerdrEvent}
    (h : ackLine serde expectedId line = .event event) :
    parseEventLine serde line = some event := by
  unfold ackLine at h
  split at h
  · cases h
  · split at h
    · next hparse =>
        cases h
        exact hparse
    · split at h
      · cases h
      · split at h
        · cases h
        · split at h
          · cases h
          · split at h <;> cases h

/-- A line that the handshake skips, or ends on, is no event. -/
theorem parseEventLine_of_ackLine {expectedId line : String}
    (h : ackLine serde expectedId line = .skip ∨ ackLine serde expectedId line = .started) :
    parseEventLine serde line = none := by
  by_cases hblank : trim line = ""
  · simp [parseEventLine, hblank]
  · cases hparse : parseEventLine serde line with
    | none => rfl
    | some event => simp [ackLine, hblank, hparse] at h

/-- A handshake that succeeds leaves the events of the lines it was given. -/
def Acked (serde : Serde) (lines : List String) (s : HerdrEvents)
    (answer : Except StreamError Unit × HerdrEvents) : Prop :=
  answer.1 = .ok () →
    Carries serde (s.pendingEvents ++ eventsOf serde lines)
      (s.pendingEvents.length + left lines s.source) answer.2

theorem Acked.after {rest : List String} {t : HerdrEvents} {answer} (h : Acked serde rest t answer)
    (hevents : s.pendingEvents ++ eventsOf serde lines = t.pendingEvents ++ eventsOf serde rest)
    (hleft : t.pendingEvents.length + left rest t.source ≤ s.pendingEvents.length +
      left lines s.source) :
    Acked serde lines s answer := by
  intro hok
  obtain ⟨rest', hrest, heq, hle⟩ := (h hok).lines
  exact ⟨rest', hrest, hevents.trans heq, hle.trans hleft⟩

theorem ackTurn_acked {expectedId pending : String}
    {skipped next : String → HerdrEvents → Except StreamError Unit × HerdrEvents}
    (h : Assembles lines pending s.source) (hs : s.pending = "")
    (hskipped : ∀ rest (t : HerdrEvents), Assembles rest "" t.source → t.pending = "" →
      Acked serde rest t (skipped "" t))
    (hnext : ∀ pending (t : HerdrEvents), Assembles lines pending t.source → t.pending = "" →
      Acked serde lines t (next pending t)) :
    Acked serde lines s (ackTurn serde expectedId pending s skipped next) := by
  have hread := h.readLine
  unfold ackTurn
  generalize readLine pending s.source = r at hread
  obtain ⟨outcome, pending', source⟩ := r
  dsimp only at hread ⊢
  cases hread with
  | line line rest hlines hpending hrest hchunks =>
      subst hlines hpending
      have hleft : left rest source + 1 = left (line :: rest) s.source := by
        simp only [left, hchunks, List.length_cons]
        omega
      simp only [endsLine_line, if_true]
      cases hack : ackLine serde expectedId (line ++ "\n") with
      | skip =>
          refine (hskipped rest { s with source } hrest hs).after ?_ (by simp only; omega)
          rw [eventsOf_cons, parseEventLine_of_ackLine (.inl hack)]
          rfl
      | event event =>
          refine (hskipped rest { s with source, pendingEvents := s.pendingEvents ++ [event] } hrest
            hs).after ?_ ?_
          · rw [eventsOf_cons, ackLine_event hack]
            simp
          · simp only [List.length_append, List.length_singleton]
            omega
      | failed e => exact fun hok => nomatch hok
      | started =>
          intro _
          refine ⟨rest, hs ▸ hrest, ?_, by simp only; omega⟩
          rw [eventsOf_cons, parseEventLine_of_ackLine (.inr hack)]
          rfl
  | chunk houtcome hrest hchunks =>
      have hmore := hnext pending' { s with source } hrest hs
      have hleft : s.pendingEvents.length + left lines source ≤ s.pendingEvents.length +
          left lines s.source := by
        simp only [left]
        omega
      rcases houtcome with rfl | rfl
      · exact hmore.after rfl hleft
      · simp only [endsLine_unended hrest.unended, Bool.false_eq_true, if_false]
        exact hmore.after rfl hleft
  | blocked hlines hrest hchunks => exact hnext pending' s hrest hs
  | eof hlines hrest hchunks => exact fun hok => nomatch hok

theorem ackLoop_acked {expectedId pending : String} (ready : List Bool)
    (h : Assembles lines pending s.source)
    (hs : s.pending = "") : Acked serde lines s (ackLoop serde expectedId pending s ready) := by
  induction ready generalizing s lines pending with
  | nil => exact ackTurn_acked h hs (fun _ _ _ _ hok => nomatch hok) fun _ _ _ _ hok => nomatch hok
  | cons goes ready ih =>
      refine ackTurn_acked h hs (fun rest t hrest ht => ih hrest ht) fun pending t hrest ht => ?_
      cases goes with
      | true => exact ih hrest ht
      | false => exact fun hok => nomatch hok

/-! ## Runs -/

theorem decoded_chunks {chunks : List (List UInt8)}
    (h : ∀ chunk ∈ chunks, (decodeUtf8 chunk).isSome) :
    ∃ texts : List (List Char), chunks = texts.map utf8 := by
  induction chunks with
  | nil => exact ⟨[], rfl⟩
  | cons chunk chunks ih =>
      obtain ⟨text, htext⟩ := Option.isSome_iff_exists.mp (h chunk (by simp))
      obtain ⟨texts, htexts⟩ := ih fun c hc => h c (List.mem_cons_of_mem _ hc)
      exact ⟨text.toList :: texts, by rw [List.map_cons, ← eq_utf8_of_decodeUtf8 htext, htexts]⟩

theorem utf8_flatten (texts : List (List Char)) :
    (texts.map utf8).flatten = utf8 texts.flatten := by
  induction texts with
  | nil => rfl
  | cons text texts ih => rw [List.map_cons, List.flatten_cons, ih, List.flatten_cons, utf8_append]

theorem Assembles.start (hsingle : ∀ line ∈ lines, '\n' ∉ line.toList)
    (hsent : source.chunks.flatten = utf8 (textOf lines))
    (hwhole : ∀ chunk ∈ source.chunks, (decodeUtf8 chunk).isSome) : Assembles lines "" source := by
  obtain ⟨texts, htexts⟩ := decoded_chunks hwhole
  rw [htexts, utf8_flatten] at hsent
  exact ⟨⟨texts, htexts, by simpa using utf8_injective hsent⟩, by simp, hsingle⟩

/-- While every read ends between two characters, the polls return the events of the lines sent, in
order and once each: a part of them after any polls, and all of them after as many polls as there
are lines and reads. -/
theorem polls_return_every_event (serde : Serde) (lines : List String) (source : Source)
    (acks : List Bool)
    (rounds : List (List Bool)) (s : HerdrEvents) (hsingle : ∀ line ∈ lines, '\n' ∉ line.toList)
    (hsent : source.chunks.flatten = utf8 (textOf lines))
    (hwhole : ∀ chunk ∈ source.chunks, (decodeUtf8 chunk).isSome)
    (hconnect : connect serde source acks = (.ok (), s)) :
    returned (polls serde s rounds).1 <+: eventsOf serde lines ∧
      (lines.length + source.chunks.length ≤ rounds.length →
        returned (polls serde s rounds).1 = eventsOf serde lines) := by
  have hacked : Acked serde lines { source, pending := "", pendingEvents := [] }
      (connect serde source acks) :=
    ackLoop_acked acks (Assembles.start hsingle hsent hwhole) rfl
  have hcarries := hacked (congrArg Prod.fst hconnect)
  rw [hconnect] at hcarries
  obtain ⟨rest, hevents, hrest⟩ := polls_carries rounds hcarries
  refine ⟨⟨rest, hevents.symm⟩, fun hlong => ?_⟩
  have hnone : rest = [] := by
    have hzero : ([] : List HerdrEvent).length + left lines source - rounds.length = 0 := by
      simp only [List.length_nil, left]
      omega
    exact Carries.nothing (hzero ▸ hrest)
  rw [hnone, List.append_nil] at hevents
  exact hevents.symm

def sampleAck : String :=
  "\x7b\"id\":\"subscribe\",\"result\":\x7b\"type\":\"subscription_started\"\x7d\x7d"

def sampleExit : String := "\x7b\"event\":\"pane_exited\",\"pane_id\":\"é\"\x7d"

/-- The decoders, on the two sample lines. -/
def sampleSerde : Serde where
  value text :=
    if text = sampleExit
      then some (.object [("event", .string "pane_exited"), ("pane_id", .string "é")])
    else if text = sampleAck then
      some (.object [("id", .string "subscribe"),
        ("result", .object [("type", .string "subscription_started")])])
    else none
  statusFields data := some ⟨(data.get "pane_id").bind Value.asStr, none, none, none⟩
  paneFields data := some ⟨(data.get "pane_id").bind Value.asStr, none⟩
  response text :=
    if text = sampleAck then some
      ⟨"subscribe", some (.object [("type", .string "subscription_started")]), none⟩ else none
  subscriptionStarted result := (result.get "type").bind Value.asStr == some "subscription_started"

/-- The sample lines in two reads, the second of `n` bytes. -/
def sampleSource (n : Nat) : Source :=
  let bytes := utf8 (textOf [sampleAck, sampleExit])
  { chunks := [bytes.take (bytes.length - n), bytes.drop (bytes.length - n)], closed := false }

/-- A call that returned `r` ended in its own second part. -/
theorem eq_of_fst {α β : Type} {p : α × β} {r : α} (h : p.1 = r) : p = (r, p.2) := Prod.ext h rfl

theorem polls_return_sample_exit :
    ∃ s, connect sampleSerde (sampleSource 5) [] = (.ok (), s) ∧
      returned (polls sampleSerde s [[true], [], [], []]).1 =
        eventsOf sampleSerde [sampleAck, sampleExit] := by
  have hsample : (connect sampleSerde (sampleSource 5) []).1 = .ok () ∧
      (∀ line ∈ [sampleAck, sampleExit], '\n' ∉ line.toList) ∧
      (sampleSource 5).chunks.flatten = utf8 (textOf [sampleAck, sampleExit]) ∧
      (∀ chunk ∈ (sampleSource 5).chunks, (decodeUtf8 chunk).isSome) ∧
        (sampleSource 5).chunks.length = 2 := by
    decide +kernel
  obtain ⟨hconnect, hsingle, hsent, hwhole, hlength⟩ := hsample
  exact ⟨(connect sampleSerde (sampleSource 5) []).2, eq_of_fst hconnect,
    (polls_return_every_event sampleSerde [sampleAck, sampleExit] (sampleSource 5) []
      [[true], [], [], []]
      (connect sampleSerde (sampleSource 5) []).2 hsingle hsent hwhole (eq_of_fst hconnect)).2
        (by simp [hlength])⟩

/-- A poll whose deadline falls inside the `é` drops the bytes of the line before it, and the
line with them. -/
theorem split_character_loses_exit :
    ¬ ∀ (serde : Serde) (lines : List String) (source : Source) (acks : List Bool)
      (rounds : List (List Bool))
        (s : HerdrEvents), (∀ line ∈ lines, '\n' ∉ line.toList) →
          source.chunks.flatten = utf8 (textOf lines) →
      connect serde source acks = (.ok (), s) →
      returned (polls serde s rounds).1 <+: eventsOf serde lines ∧
        (lines.length + source.chunks.length ≤ rounds.length →
          returned (polls serde s rounds).1 = eventsOf serde lines) := by
  intro hclaim
  have hsample : (connect sampleSerde (sampleSource 4) []).1 = .ok () ∧
      (∀ line ∈ [sampleAck, sampleExit], '\n' ∉ line.toList) ∧
      (sampleSource 4).chunks.flatten = utf8 (textOf [sampleAck, sampleExit]) ∧
      (sampleSource 4).chunks.length = 2 ∧
      (eventsOf sampleSerde [sampleAck, sampleExit]).length = 1 ∧
      (returned (polls sampleSerde (connect sampleSerde (sampleSource 4) []).2
        [[], [], [], []]).1).length = 0 := by
    decide +kernel
  obtain ⟨hconnect, hsingle, hwhole, hlength, hsent, hlost⟩ := hsample
  have hall := (hclaim sampleSerde [sampleAck, sampleExit] (sampleSource 4) [] [[], [], [], []]
    (connect sampleSerde (sampleSource 4) []).2 hsingle hwhole (eq_of_fst hconnect)).2
      (by simp [hlength])
  rw [hall, hsent] at hlost
  cases hlost

end HerdrBoard.Events
