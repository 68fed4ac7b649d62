import HerdrBoard.Spawner.Prompting
import Mathlib.Data.List.DropRight
import Mathlib.Data.List.Chain
import Mathlib.Data.Nat.Notation

/-!
# Names of run panes

The names of launches, and the marker by which a rescue knows the panes of its own run again, are
texts with dashes between user text, card ids and run ids. Which column names keep them apart is
read off the slug of the column. -/

open Lib HerdrBoard.Core HerdrBoard.Daemon

namespace HerdrBoard.Spawner

/-! ## Rescuing a run pane -/

/-- Stable identity only: nothing that a user renames on the board changes it. -/
def rescueMarker (cardId runId : Int) : String := s!"card-{cardId}-r{runId}-rescue"

/-- A listed pane with its label. -/
structure LabeledPane extends PaneInfo where
  label : Option String
  deriving DecidableEq

/-- Only the own label proves which run a pane belongs to. -/
def rescuedPaneIsLive (pane : LabeledPane) (markerName : String) (managed : Bool) : Bool :=
  if pane.label ≠ some markerName then false
  else if pane.agentStatus = .done then false
  else !managed || pane.agent.isSome

def findRescuedPane (panes : List LabeledPane) (workspaceId markerName : String) :
    List LabeledPane :=
  panes.filter fun pane => pane.workspaceId == workspaceId && pane.label == some markerName

/-- The pane a rescue goes on with, or else those it closes before it makes one. -/
def rescueCandidates (panes : List LabeledPane) (workspaceId markerName : String) (managed : Bool) :
    Option LabeledPane × List LabeledPane :=
  let candidates := findRescuedPane panes workspaceId markerName
  match candidates.find? fun pane => rescuedPaneIsLive pane markerName managed with
  | some live => (some live, [])
  | none => (none, candidates.filter fun pane => !AgentStatus.isBusy pane.agentStatus)

/-! ## Ids as text -/

/-- A row id of the database. -/
def IsRowId (id : Int) : Prop := -9223372036854775808 ≤ id ∧ id ≤ 9223372036854775807

def idText (id : Int) : List Char := (toString id).toList

def digits (n : Nat) : List Char := Nat.toDigits 10 n

theorem idText_ofNat (n : Nat) : idText (Int.ofNat n) = digits n := by
  simp [idText, digits, toString, Int.repr, Nat.toList_repr]

theorem idText_negSucc (n : Nat) : idText (Int.negSucc n) = '-' :: digits (n + 1) := by
  simp [idText, digits, toString, Int.repr, Nat.toList_repr]

theorem isDigit_of_mem_digits {n : Nat} {c : Char} (h : c ∈ digits n) : c.isDigit = true :=
  Nat.isDigit_of_mem_toDigits (by decide) (by decide) h

theorem dash_not_mem_digits (n : Nat) : '-' ∉ digits n := fun h => by
  have := isDigit_of_mem_digits h
  simp at this

theorem digits_inj {m n : Nat} (h : digits m = digits n) : m = n := by
  have := congrArg (fun ds => Nat.ofDigitChars 10 ds 0) h
  simpa [digits] using this

theorem digits_ne_nil (n : Nat) : digits n ≠ [] := Nat.toDigits_ne_nil

/-- The text up to the first dash, or the whole of it. -/
theorem append_dash_inj {u v s t : List Char} (hu : '-' ∉ u) (hv : '-' ∉ v)
    (hs : s = [] ∨ s.head? = some '-')
    (ht : t = [] ∨ t.head? = some '-') (h : u ++ s = v ++ t) : u = v ∧ s = t := by
  induction u generalizing v with
  | nil =>
      cases v with
      | nil => exact ⟨rfl, by simpa using h⟩
      | cons c v =>
          rcases hs with rfl | hs
          · cases h
          · rw [List.nil_append] at h
            rw [h] at hs
            simp only [List.cons_append, List.head?_cons, Option.some.injEq] at hs
            exact absurd (hs ▸ List.mem_cons_self) hv
  | cons c u ih =>
      cases v with
      | nil =>
          rcases ht with rfl | ht
          · cases h
          · rw [List.nil_append] at h
            rw [← h] at ht
            simp only [List.cons_append, List.head?_cons, Option.some.injEq] at ht
            exact absurd (ht ▸ List.mem_cons_self) hu
      | cons d v =>
          obtain ⟨rfl, hrest⟩ := List.cons.inj h
          obtain ⟨rfl, rfl⟩ := ih (fun hm => hu (List.mem_cons_of_mem _ hm))
            (fun hm => hv (List.mem_cons_of_mem _ hm)) hrest
          exact ⟨rfl, rfl⟩

/-- The text after the last dash. -/
theorem dash_append_inj {u v s t : List Char} (hs : '-' ∉ s) (ht : '-' ∉ t)
    (h : u ++ '-' :: s = v ++ '-' :: t) : s = t := by
  have hrev := congrArg List.reverse h
  simp only [List.reverse_append, List.reverse_cons, List.append_assoc, List.singleton_append]
    at hrev
  obtain ⟨heq, -⟩ := append_dash_inj (by simpa using hs) (by simpa using ht) (.inr rfl)
    (.inr rfl) hrev
  simpa using congrArg List.reverse heq

/-- An id is read back from a text that goes on with a dash. -/
theorem idText_append_inj {i j : Int} {s t : List Char} (hs : s = [] ∨ s.head? = some '-')
    (ht : t = [] ∨ t.head? = some '-') (h : idText i ++ s = idText j ++ t) : i = j ∧ s = t := by
  cases i with
  | ofNat m =>
      cases j with
      | ofNat n =>
          rw [idText_ofNat, idText_ofNat] at h
          obtain ⟨hdigits, hrest⟩ :=
            append_dash_inj (dash_not_mem_digits m) (dash_not_mem_digits n) hs ht h
          exact ⟨congrArg Int.ofNat (digits_inj hdigits), hrest⟩
      | negSucc n =>
          rw [idText_ofNat, idText_negSucc] at h
          obtain ⟨c, ds, hds⟩ := List.exists_cons_of_ne_nil (digits_ne_nil m)
          rw [hds] at h
          exact absurd ((List.cons.inj h).1 ▸ hds ▸ List.mem_cons_self) (dash_not_mem_digits m)
  | negSucc m =>
      cases j with
      | ofNat n =>
          rw [idText_ofNat, idText_negSucc] at h
          obtain ⟨c, ds, hds⟩ := List.exists_cons_of_ne_nil (digits_ne_nil n)
          rw [hds] at h
          exact absurd ((List.cons.inj h).1 ▸ hds ▸ List.mem_cons_self) (dash_not_mem_digits n)
      | negSucc n =>
          rw [idText_negSucc, idText_negSucc] at h
          obtain ⟨hdigits, hrest⟩ :=
            append_dash_inj (dash_not_mem_digits (m + 1))
              (dash_not_mem_digits (n + 1)) hs ht (List.cons.inj h).2
          exact ⟨congrArg Int.negSucc (Nat.succ.inj (digits_inj hdigits)), hrest⟩

/-- A suffix that names a run is read back. -/
theorem run_suffix_inj {u v : List Char} {i j : Int}
    (h : u ++ '-' :: 'r' :: idText i = v ++ '-' :: 'r' :: idText j) :
    i = j := by
  have hr (n : Nat) : '-' ∉ 'r' :: digits n := by
    simpa using dash_not_mem_digits n
  have hrdigit (m n : Nat) : 'r' :: digits m ≠ digits n := fun heq => by
    have := isDigit_of_mem_digits (heq ▸ List.mem_cons_self : 'r' ∈ digits n)
    simp at this
  cases i with
  | ofNat m =>
      cases j with
      | ofNat n =>
          rw [idText_ofNat, idText_ofNat] at h
          exact congrArg Int.ofNat (digits_inj (List.cons.inj (dash_append_inj (hr m) (hr n) h)).2)
      | negSucc n =>
          have hmove : v ++ '-' :: 'r' :: '-' :: digits (n + 1) = (v ++ ['-', 'r']) ++ '-' ::
              digits (n + 1) := by simp
          rw [idText_ofNat, idText_negSucc, hmove] at h
          exact absurd (dash_append_inj (hr m) (dash_not_mem_digits _) h) (hrdigit m (n + 1))
  | negSucc m =>
      have hmove : u ++ '-' :: 'r' :: '-' :: digits (m + 1) = (u ++ ['-', 'r']) ++ '-' ::
          digits (m + 1) := by simp
      rw [idText_negSucc, hmove] at h
      cases j with
      | ofNat n =>
          rw [idText_ofNat] at h
          exact absurd (dash_append_inj (dash_not_mem_digits _) (hr n) h).symm (hrdigit n (m + 1))
      | negSucc n =>
          have hmove' : v ++ '-' :: 'r' :: '-' :: digits (n + 1) = (v ++ ['-', 'r']) ++ '-' ::
              digits (n + 1) := by simp
          rw [idText_negSucc, hmove'] at h
          exact congrArg Int.negSucc
            (Nat.succ.inj (digits_inj
              (dash_append_inj (dash_not_mem_digits _) (dash_not_mem_digits _) h)))

/-! ## Slugs -/

/-- Characters that a slug keeps. -/
def IsWordChar (c : Char) : Prop := c.isAlphanum = true ∧ c.toLower = c

/-- Words of lowercase letters and digits with one dash between two of them. -/
structure IsSlug (s : List Char) : Prop where
  chars : ∀ c ∈ s, c = '-' ∨ IsWordChar c
  single : s.IsChain fun a b => ¬(a = '-' ∧ b = '-')
  first : s.head? ≠ some '-'
  last : s.getLast? ≠ some '-'
  short : s.length ≤ SLUG_MAX

theorem isWordChar_toLower {c : Char} (h : c.isAlphanum = true) : IsWordChar c.toLower := by
  refine ⟨?_, toLower_toLower c⟩
  exact toLower_induction (p := fun c => c.isAlphanum = true → c.toLower.isAlphanum = true)
    (by decide +kernel) (fun c hsame halnum => by rwa [hsame]) c h

theorem IsWordChar.ne_dash {c : Char} (h : IsWordChar c) : c ≠ '-' := by
  rintro rfl
  exact absurd h.1 (by decide)

/-- What the loop over a column name leaves, before it is trimmed. -/
theorem slugChars_spec (prevDash : Bool) (cs : List Char) :
    (∀ c ∈ slugChars prevDash cs, c = '-' ∨ IsWordChar c) ∧
      (slugChars prevDash cs).IsChain (fun a b => ¬(a = '-' ∧ b = '-')) ∧
      (prevDash = true → (slugChars prevDash cs).head? ≠ some '-') := by
  induction cs generalizing prevDash with
  | nil => simp [slugChars]
  | cons ch rest ih =>
      simp only [slugChars]
      split
      · rename_i halnum
        obtain ⟨hchars, hchain, -⟩ := ih false
        have hword := isWordChar_toLower halnum
        refine ⟨?_, ?_, ?_⟩
        · simpa using ⟨.inr hword, hchars⟩
        · exact List.isChain_cons.mpr ⟨fun _ _ hdash => hword.ne_dash hdash.1, hchain⟩
        · simpa using fun _ => hword.ne_dash
      · obtain ⟨hchars, hchain, hhead⟩ := ih true
        split
        · rename_i hprev
          exact ⟨hchars, hchain, fun _ => hhead rfl⟩
        · rename_i hprev
          refine ⟨?_, ?_, fun h => absurd h hprev⟩
          · simpa using hchars
          · refine List.isChain_cons.mpr ⟨fun b hb hdash => hhead rfl ?_, hchain⟩
            rw [Option.mem_def.mp hb, hdash.2]

theorem head?_dropDashes (s : List Char) : (dropDashes s).head? ≠ some '-' := by
  intro h
  have := List.head?_dropWhile_not (· == '-') s
  simp only [dropDashes] at h
  simp [h] at this

/-- Dashes are trimmed at the end. -/
def trimDashes (s : List Char) : List Char := (dropDashes s.reverse).reverse

theorem trimDashes_isPrefix (s : List Char) : trimDashes s <+: s := List.rdropWhile_prefix _ s

theorem getLast?_trimDashes (s : List Char) : (trimDashes s).getLast? ≠ some '-' := by
  rw [trimDashes, List.getLast?_reverse]
  exact head?_dropDashes s.reverse

theorem head?_of_prefix {s t : List Char} (h : s <+: t) (ht : t.head? ≠ some '-') :
    s.head? ≠ some '-' := by
  obtain ⟨rest, rfl⟩ := h
  cases s with
  | nil => simp
  | cons c s => simpa using ht

theorem columnSlug_toList (column : String) : (columnSlug column).toList =
    trimDashes ((trimDashes (dropDashes (slugChars false column.toList))).take SLUG_MAX) := by
  simp [columnSlug, trimDashes]

theorem isSlug_columnSlug (column : String) : IsSlug (columnSlug column).toList := by
  obtain ⟨hchars, hchain, -⟩ := slugChars_spec false column.toList
  rw [columnSlug_toList]
  have hfront : dropDashes (slugChars false column.toList) <:+ slugChars false column.toList :=
    List.dropWhile_suffix _
  have hcut := (trimDashes_isPrefix
    ((trimDashes (dropDashes (slugChars false column.toList))).take SLUG_MAX))
  have hstart := hcut.trans ((List.take_prefix _ _).trans (trimDashes_isPrefix _))
  have hpart := hstart.isInfix.trans hfront.isInfix
  exact
    { chars := fun c hc => hchars c (hpart.subset hc)
      single := hchain.infix hpart
      first := head?_of_prefix hstart (head?_dropDashes _)
      last := getLast?_trimDashes _
      short := hcut.length_le.trans (List.length_take_le ..) }

theorem dropDashes_of_first {s : List Char} (h : s.head? ≠ some '-') : dropDashes s = s := by
  cases s with
  | nil => rfl
  | cons c s =>
      have hne : c ≠ '-' := by simpa using h
      simp [dropDashes, hne]

theorem trimDashes_of_last {s : List Char} (h : s.getLast? ≠ some '-') : trimDashes s = s := by
  rw [trimDashes, dropDashes_of_first (by rwa [List.head?_reverse]), List.reverse_reverse]

theorem slugChars_of_words {s : List Char} {prevDash : Bool}
    (hchars : ∀ c ∈ s, c = '-' ∨ IsWordChar c)
    (hchain : s.IsChain fun a b => ¬(a = '-' ∧ b = '-'))
    (hfirst : prevDash = true → s.head? ≠ some '-') : slugChars prevDash s = s := by
  induction s generalizing prevDash with
  | nil => rfl
  | cons c s ih =>
      obtain ⟨hnext, hrest⟩ := List.isChain_cons.mp hchain
      have htail (p : Bool) : (p = true → s.head? ≠ some '-') → slugChars p s = s :=
        ih (fun d hd => hchars d (List.mem_cons_of_mem _ hd)) hrest
      rcases hchars c List.mem_cons_self with rfl | hword
      · have hprev : prevDash = false := by simpa using mt hfirst
        have hhead : s.head? ≠ some '-' := fun hdash => hnext _ hdash ⟨rfl, rfl⟩
        rw [slugChars, if_neg (by decide), hprev, htail true fun _ => hhead]
        rfl
      · rw [slugChars, if_pos hword.1, hword.2, htail false (by simp)]

/-- A slug is its own slug. -/
theorem columnSlug_of_isSlug {s : List Char} (h : IsSlug s) :
    columnSlug (String.ofList s) = String.ofList s := by
  have hchars : slugChars false s = s := slugChars_of_words h.chars h.single (by simp)
  apply String.toList_inj.mp
  rw [columnSlug_toList, String.toList_ofList, hchars, dropDashes_of_first h.first,
    trimDashes_of_last h.last, List.take_of_length_le h.short, trimDashes_of_last h.last]

/-- What stands before a dash in a slug is a slug. -/
theorem IsSlug.before_dash {s t : List Char} (h : IsSlug (s ++ '-' :: t)) : IsSlug s where
  chars c hc := h.chars c (List.mem_append_left _ hc)
  single := h.single.prefix (List.prefix_append _ _)
  first := head?_of_prefix (List.prefix_append _ _) h.first
  last hlast := by
    obtain ⟨u, rfl⟩ : ∃ u, s = u ++ ['-'] := List.getLast?_eq_some_iff.mp hlast
    have hpair : ['-', '-'] <:+: (u ++ ['-']) ++ '-' :: t := ⟨u, t, by simp⟩
    simpa using h.single.infix hpair
  short := (List.prefix_append s ('-' :: t)).length_le.trans h.short

/-! ## Names -/

variable {card card' run run' : Int} {column column' name : String}

/-- What follows the card id in a stable name. -/
def nameTail (column : String) : List Char :=
  if columnSlug column = "" then [] else '-' :: (columnSlug column).toList

theorem nameTail_dash (column : String) :
    nameTail column = [] ∨ (nameTail column).head? = some '-' := by
  unfold nameTail
  split
  · exact .inl rfl
  · exact .inr rfl

theorem runPaneName_toList (card : Int) (column : String) :
    (runPaneName card column).toList = "card-".toList ++ (idText card ++ nameTail column) := by
  unfold runPaneName nameTail
  split
  · show ("card-" ++ toString card).toList = _
    simp only [String.toList_append, List.append_nil]
    rfl
  · show ("card-" ++ toString card ++ "-" ++ columnSlug column).toList = _
    simp only [String.toList_append, List.append_assoc]
    rfl

theorem runPaneNameUnique_toList (card : Int) (column : String) (run : Int) :
    (runPaneNameUnique card column run).toList =
      "card-".toList ++ (idText card ++ (nameTail column ++ '-' :: 'r' :: idText run)) := by
  show (runPaneName card column ++ "-r" ++ toString run).toList = _
  simp only [String.toList_append, runPaneName_toList, List.append_assoc]
  rfl

theorem rescueMarker_toList (card run : Int) : (rescueMarker card run).toList =
    "card-".toList ++ (idText card ++ '-' :: 'r' :: (idText run ++ "-rescue".toList)) := by
  show ("card-" ++ toString card ++ "-r" ++ toString run ++ "-rescue").toList = _
  simp only [String.toList_append, List.append_assoc]
  rfl

theorem tail_of_names {s t : List Char} (hs : s = [] ∨ s.head? = some '-')
    (ht : t = [] ∨ t.head? = some '-')
    (h : "card-".toList ++ (idText card ++ s) = "card-".toList ++ (idText card' ++ t)) :
    card = card' ∧ s = t :=
  idText_append_inj hs ht (List.append_cancel_left h)

/-- A name that a launch for the card in the column may use. -/
def IsLaunchName (card : Int) (column name : String) : Prop :=
  name = runPaneName card column ∨ ∃ run, name = runPaneNameUnique card column run

theorem IsLaunchName.toList (h : IsLaunchName card column name) :
    ∃ s, (s = [] ∨ s.head? = some '-') ∧ name.toList = "card-".toList ++ (idText card ++ s) := by
  rcases h with hname | ⟨run, hname⟩
  · exact ⟨_, nameTail_dash column, hname ▸ runPaneName_toList card column⟩
  · refine ⟨_, ?_, hname ▸ runPaneNameUnique_toList card column run⟩
    rcases nameTail_dash column with htail | htail
    · simp [htail]
    · obtain ⟨rest, hrest⟩ := List.head?_eq_some_iff.mp htail
      simp [hrest]

theorem card_of_launchName (h : IsLaunchName card column name)
    (h' : IsLaunchName card' column' name) : card = card' := by
  obtain ⟨s, hs, htext⟩ := h.toList
  obtain ⟨t, ht, htext'⟩ := h'.toList
  exact (tail_of_names hs ht (htext.symm.trans htext')).1

theorem unique_inj (h : runPaneNameUnique card column run = runPaneNameUnique card column' run') :
    run = run' := by
  have htext := congrArg String.toList h
  rw [runPaneNameUnique_toList, runPaneNameUnique_toList] at htext
  exact run_suffix_inj (List.append_cancel_left (List.append_cancel_left htext))

theorem getLast?_idText (id : Int) : ∃ c, (idText id).getLast? = some c ∧ c.isDigit = true := by
  have hdigits (n : Nat) : ∃ c, (digits n).getLast? = some c ∧ c.isDigit = true :=
    ⟨_, List.getLast?_eq_some_getLast (digits_ne_nil n), isDigit_of_mem_digits (List.getLast_mem _)⟩
  cases id with
  | ofNat n => exact idText_ofNat n ▸ hdigits n
  | negSucc n =>
      obtain ⟨c, hc, hdigit⟩ := hdigits (n + 1)
      exact ⟨c, by rw [idText_negSucc, List.getLast?_cons, hc]; rfl, hdigit⟩

/-- A fallback name ends in a digit. -/
theorem unique_ne_marker : runPaneNameUnique card column run ≠ rescueMarker card' run' := by
  intro h
  have htext := congrArg (fun name => name.toList.getLast?) h
  simp only [runPaneNameUnique_toList, rescueMarker_toList] at htext
  obtain ⟨c, hc, hdigit⟩ := getLast?_idText run
  have hleft : ("card-".toList ++
      (idText card ++ (nameTail column ++ '-' :: 'r' :: idText run))).getLast? = some c := by
    simp [List.getLast?_append, List.getLast?_cons, hc]
  have hright : ("card-".toList ++
      (idText card' ++ '-' :: 'r' :: (idText run' ++ "-rescue".toList))).getLast? =
      some 'e' := by
    simp [List.getLast?_append, List.getLast?_cons]
  rw [hleft, hright] at htext
  cases htext
  cases hdigit

/-! ## Slugs that read as a run -/

/-- The slug is one that a rescue marker or a fallback name may end with. -/
inductive ReadsAsRun (slug : String) : Prop
  | rescue (run : Int) (hrun : IsRowId run) (h : slug = s!"r{run}-rescue")
  | whole (run : Int) (hrun : IsRowId run) (h : slug = s!"r{run}")
  | ending (words : String) (run : Int) (hrun : IsRowId run) (h : slug = s!"{words}-r{run}")

/-- The names of launches in the column are told apart from rescue markers, from those of other
cards and runs, and from each other. -/
structure KeepsNamesApart (column : String) : Prop where
  marker : ∀ card name, IsLaunchName card column name → ∀ card' run, IsRowId run →
    name ≠ rescueMarker card' run
  rescue : ∀ card name, IsLaunchName card column name → ∀ card' run, IsRowId run →
    ∀ panes workspaceId managed pane,
    (rescueCandidates panes workspaceId (rescueMarker card' run) managed).1 = some pane ∨
      pane ∈ (rescueCandidates panes workspaceId (rescueMarker card' run) managed).2 →
      pane.label ≠ some name
  cards : ∀ card card' column' name, IsLaunchName card column name →
    IsLaunchName card' column' name → card = card'
  runs : ∀ card column' run run', runPaneNameUnique card column run = runPaneNameUnique card column'
    run' → run = run'
  fallback : ∀ card column' run, IsRowId run →
    runPaneNameUnique card column' run ≠ runPaneName card column

/-- A rescue touches only panes with its marker. -/
theorem label_of_candidate {panes : List LabeledPane} {workspaceId marker : String} {managed : Bool}
    {pane : LabeledPane} (h : (rescueCandidates panes workspaceId marker managed).1 = some pane ∨
      pane ∈ (rescueCandidates panes workspaceId marker managed).2) : pane.label = some marker := by
  have hlabel : pane ∈ findRescuedPane panes workspaceId marker := by
    unfold rescueCandidates at h
    cases hlive : (findRescuedPane panes workspaceId marker).find? fun pane =>
        rescuedPaneIsLive pane marker managed with
    | some live =>
        simp only [hlive, List.not_mem_nil, or_false, Option.some.injEq] at h
        exact h ▸ List.mem_of_find?_eq_some hlive
    | none =>
        simp only [hlive, reduceCtorEq, false_or] at h
        exact List.mem_of_mem_filter h
  have hpane := (List.mem_filter.mp hlabel).2
  simp only [Bool.and_eq_true, beq_iff_eq] at hpane
  exact hpane.2

theorem nameTail_eq_cons {s : List Char} (hs : s ≠ []) :
    nameTail column = '-' :: s ↔ columnSlug column = String.ofList s := by
  unfold nameTail
  constructor
  · split
    · intro h
      cases h
    · intro h
      rw [← (List.cons.inj h).2, String.ofList_toList]
  · intro h
    rw [if_neg (by rw [h]; simpa using hs), h, String.toList_ofList]

theorem runPaneName_eq_marker : runPaneName card column = rescueMarker card' run ↔
    card = card' ∧ columnSlug column = s!"r{run}-rescue" := by
  have htext : (s!"r{run}-rescue" : String) =
      String.ofList ('r' :: (idText run ++ "-rescue".toList)) := by
    apply String.toList_inj.mp
    show ("r" ++ toString run ++ "-rescue").toList = _
    simp only [String.toList_append, String.toList_ofList]
    rfl
  rw [htext, ← nameTail_eq_cons (by simp), ← String.toList_inj, runPaneName_toList,
    rescueMarker_toList]
  constructor
  · exact tail_of_names (nameTail_dash column) (.inr rfl)
  · rintro ⟨rfl, htail⟩
    rw [htail]

theorem unique_eq_runPaneName : runPaneNameUnique card column' run = runPaneName card column ↔
    nameTail column = nameTail column' ++ '-' :: 'r' :: idText run := by
  rw [← String.toList_inj, runPaneName_toList, runPaneNameUnique_toList]
  constructor
  · intro h
    exact (List.append_cancel_left (List.append_cancel_left h)).symm
  · intro h
    rw [h]

theorem readsAsRun_of_fallback (hrun : IsRowId run)
    (h : runPaneNameUnique card column' run = runPaneName card column) :
    ReadsAsRun (columnSlug column) := by
  have htail := unique_eq_runPaneName.mp h
  by_cases hempty : columnSlug column' = ""
  · rw [nameTail.eq_def column', if_pos hempty, List.nil_append, nameTail_eq_cons (by simp)]
      at htail
    refine .whole run hrun (htail.trans (String.toList_inj.mp ?_))
    show _ = ("r" ++ toString run).toList
    simp only [String.toList_append, String.toList_ofList]
    rfl
  · rw [nameTail.eq_def column', if_neg hempty, List.cons_append, nameTail_eq_cons (by simp)]
      at htail
    refine .ending (columnSlug column') run hrun (htail.trans (String.toList_inj.mp ?_))
    show _ = (columnSlug column' ++ "-r" ++ toString run).toList
    simp only [String.toList_append, String.toList_ofList, List.append_assoc]
    rfl

theorem fallback_of_whole (h : columnSlug column = s!"r{run}") :
    runPaneNameUnique card "" run = runPaneName card column := by
  have hempty : columnSlug "" = "" := by decide
  have htext : (s!"r{run}" : String) = String.ofList ('r' :: idText run) := by
    apply String.toList_inj.mp
    show ("r" ++ toString run).toList = _
    simp only [String.toList_append, String.toList_ofList]
    rfl
  rw [htext, ← nameTail_eq_cons (by simp)] at h
  rw [unique_eq_runPaneName, h, nameTail.eq_def "", if_pos hempty, List.nil_append]

theorem fallback_of_ending {words : String} (h : columnSlug column = s!"{words}-r{run}") :
    runPaneNameUnique card words run = runPaneName card column := by
  have htext : (s!"{words}-r{run}" : String) =
      String.ofList (words.toList ++ '-' :: 'r' :: idText run) := by
    apply String.toList_inj.mp
    show (words ++ "-r" ++ toString run).toList = _
    simp only [String.toList_append, String.toList_ofList, List.append_assoc]
    rfl
  have hslug := isSlug_columnSlug column
  rw [h, htext, String.toList_ofList] at hslug
  have hwords : columnSlug words = words := by
    have hself := columnSlug_of_isSlug hslug.before_dash
    rwa [String.ofList_toList] at hself
  have hne : words ≠ "" := by
    rintro rfl
    exact hslug.first rfl
  rw [htext, ← nameTail_eq_cons (by simp)] at h
  rw [unique_eq_runPaneName, h, nameTail.eq_def words, hwords, if_neg hne, List.cons_append]

/-- The names are told apart exactly when the slug of the column does not read as a run. -/
theorem pane_names_apart_iff (column : String) :
    KeepsNamesApart column ↔ ¬ReadsAsRun (columnSlug column) := by
  constructor
  · rintro happart (⟨run, hrun, hslug⟩ | ⟨run, hrun, hslug⟩ | ⟨words, run, hrun, hslug⟩)
    · exact happart.marker 1 _ (.inl rfl) 1 run hrun (runPaneName_eq_marker.mpr ⟨rfl, hslug⟩)
    · exact happart.fallback 1 "" run hrun (fallback_of_whole hslug)
    · exact happart.fallback 1 words run hrun (fallback_of_ending hslug)
  · intro hslug
    have hmarker : ∀ card name, IsLaunchName card column name → ∀ card' run, IsRowId run →
        name ≠ rescueMarker card' run := by
      intro card name hname card' run hrun heq
      rcases hname with hstable | ⟨run', hfallback⟩
      · exact hslug (.rescue run hrun (runPaneName_eq_marker.mp (hstable.symm.trans heq)).2)
      · exact unique_ne_marker (hfallback.symm.trans heq)
    exact
      { marker := hmarker
        rescue :=
          fun card name hname card' run hrun panes workspaceId managed pane hpane hlabel => by
          have hmarked := label_of_candidate hpane
          exact hmarker card name hname card' run hrun (Option.some.inj (hlabel.symm.trans hmarked))
        cards := fun card card' column' name => card_of_launchName
        runs := fun card column' run run' => unique_inj
        fallback := fun card column' run hrun heq => hslug (readsAsRun_of_fallback hrun heq) }

/-- The run pane of a launch in a column that is named like a rescue. -/
def namedAsRescue : LabeledPane where
  paneId := "p1"
  workspaceId := "w1"
  tabId := "t1"
  agent := none
  agentStatus := .idle
  label := some (runPaneName 7 "r5 rescue")

/-- A column named like a rescue: the run pane of its launches is taken for the rescued one, and
closed when its agent is not known. A column named like a run: its stable name is the fallback of
another column. -/
theorem names_read_as_runs :
    ¬KeepsNamesApart "r5 rescue" ∧ runPaneName 7 "r5 rescue" = rescueMarker 7 5 ∧
    (rescueCandidates [namedAsRescue] "w1" (rescueMarker 7 5) true).2 = [namedAsRescue] ∧
    (rescueCandidates [namedAsRescue] "w1" (rescueMarker 7 5) false).1 = some namedAsRescue ∧
    runPaneNameUnique 7 "Build" 5 = runPaneName 7 "Build r5" := by
  have hmarker : runPaneName 7 "r5 rescue" = rescueMarker 7 5 := by decide +kernel
  refine ⟨fun happart => ?_, hmarker, by decide +kernel, by decide +kernel, by decide +kernel⟩
  exact happart.marker 7 _ (.inl rfl) 7 5 (by unfold IsRowId; omega) hmarker

end HerdrBoard.Spawner
