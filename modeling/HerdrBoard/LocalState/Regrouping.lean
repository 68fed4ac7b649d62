import HerdrBoard.LocalState.Ordered

/-!
# Changes of the stored grouping

A change that a request or the import asks of the stored config, in any order, against the book
it describes. -/

open Lib HerdrBoard.Core

namespace HerdrBoard.LocalState

variable (out : Outside) {db t : LinearDb}

/-! ## Requests -/

/-- What a request asks, once its text is read. -/
def LinearGroupingSetParams.change? (p : LinearGroupingSetParams) : Option GroupingChange :=
  match p.space, p.text with
  | none, none => none
  | none, some text => (parseConfig out text).toOption.map .replace
  | some space, some text => (parseMapping out text).toOption.map (.setSpace space)
  | some space, none => some (.removeSpace space)

/-- The book a request asks for; unlike the store's own statement it refuses to remove a space
without a mapping. -/
def LinearGroupingSetParams.ask (p : LinearGroupingSetParams) (book : Option GroupingBook) :
    Option GroupingBook :=
  match p.change? out with
  | none => none
  | some (.removeSpace space) =>
      (book.filter fun b => decide (space ∈ b.spaces.keys)).map fun b => b.removeSpace space
  | some change => (change.ask book).join

theorem replaceFirst_pairs {space : String} {m : GroupingMapping}
    {entries : List (String × GroupingMapping)} (hdistinct : (entries.map Prod.fst).Nodup) :
    putSpace.replaceFirst space m (entries.map fun e => { space := e.1, mapping := e.2 }) =
      (OrderedMap.revalue space m entries).map fun e => { space := e.1, mapping := e.2 } := by
  induction entries with
  | nil => rfl
  | cons e entries ih =>
      obtain ⟨hnew, hrest⟩ := List.nodup_cons.mp hdistinct
      by_cases h : e.1 = space
      · have hother : OrderedMap.revalue space m entries = entries := by
          unfold OrderedMap.revalue
          conv_rhs => rw [← List.map_id entries]
          apply List.map_congr_left
          intro e' he'
          have hne : e'.1 ≠ space := fun heq => hnew (List.mem_map.mpr ⟨e', he', heq.trans h.symm⟩)
          simp [hne]
        simp only [OrderedMap.revalue, List.map_cons] at hother ⊢
        simp [putSpace.replaceFirst, h, hother]
      · have hih := ih hrest
        simp only [OrderedMap.revalue, List.map_cons] at hih ⊢
        simp [putSpace.replaceFirst, h, hih]

theorem putSpace_pairs (book : GroupingBook) (space : String) (m : GroupingMapping) :
    putSpace space m book.toConfig.spaces =
      (book.spaces.put space m).entries.map fun e => { space := e.1, mapping := e.2 } := by
  unfold putSpace GroupingBook.toConfig
  by_cases h : space ∈ book.spaces.keys
  · obtain ⟨e, he, heq⟩ := List.mem_map.mp h
    rw [OrderedMap.entries_put_of_mem h, if_pos]
    · exact replaceFirst_pairs book.spaces.distinct
    · simp only [List.any_map, List.any_eq_true]
      exact ⟨e, he, by simp [heq]⟩
  · rw [OrderedMap.entries_put_of_not_mem h, if_neg]
    · simp
    · simp only [List.any_map, List.any_eq_true, not_exists, not_and]
      intro e he heq
      exact h (List.mem_map.mpr ⟨e, he, by simpa using heq⟩)

/-- The result is the book asked for, or a fault, or a config that no validation accepts. -/
def Answers (result : Except LocalStateError GroupingConfig) : Option GroupingBook → Prop
  | some after => result = .ok after.toConfig
  | none => ∀ config, result = .ok config → ¬config.Accepted

theorem answers_error {e : LocalStateError} : Answers (.error e) none := by
  intro config h
  cases h

theorem answers_replace (config : GroupingConfig) (book : Option GroupingBook) :
    Answers (.ok config) ((GroupingChange.replace config).ask book).join := by
  by_cases h : config.Accepted
  · simp only [GroupingChange.ask, dif_pos h, Option.join_some]
    exact congrArg _ (GroupingBook.toConfig_ofConfig h).symm
  · simp only [GroupingChange.ask, dif_neg h, Option.join_none]
    intro config' heq
    cases heq
    exact h

/-- The book's config with a mapping put, before it is validated. -/
def GroupingBook.putConfig (b : GroupingBook) (space : String) (m : GroupingMapping) :
    GroupingConfig :=
  { b.toConfig with spaces := putSpace space m b.toConfig.spaces }

theorem putConfig_not_accepted {book : GroupingBook} {space : String} {m : GroupingMapping}
    (hm : ¬m.Accepted) : ¬(book.putConfig space m).Accepted := by
  intro h
  have hmem : (space, m) ∈ (book.spaces.put space m).entries := by
    by_cases hkey : space ∈ book.spaces.keys
    · obtain ⟨e, he, heq⟩ := List.mem_map.mp hkey
      rw [OrderedMap.entries_put_of_mem hkey]
      exact List.mem_map.mpr ⟨e, he, by simp [heq]⟩
    · simp [OrderedMap.entries_put_of_not_mem hkey]
  have hspaces := h.spaces ⟨space, m⟩
  rw [GroupingBook.putConfig, putSpace_pairs] at hspaces
  exact hm (hspaces (List.mem_map_of_mem hmem)).2

theorem answers_setSpace {space : String} {m : GroupingMapping} (book : GroupingBook)
    (hspace : textOk space = true) :
    Answers (.ok (book.putConfig space m))
      ((GroupingChange.setSpace space m).ask (some book)).join := by
  by_cases hm : m.Accepted
  · simp only [GroupingChange.ask, dif_pos (And.intro hspace hm), Option.join_some, Answers]
    rw [GroupingBook.putConfig, putSpace_pairs]
    rfl
  · have hno : ¬(textOk space = true ∧ m.Accepted) := fun h => hm h.2
    simp only [GroupingChange.ask, dif_neg hno, Option.join_none]
    intro config heq
    cases heq
    exact putConfig_not_accepted hm

/-- What a request makes of the book's config is what it asks of the book. -/
theorem changedGrouping_answers (p : LinearGroupingSetParams) (book : Option GroupingBook) :
    Answers (changedGrouping out (book.map GroupingBook.toConfig) p) (p.ask out book) := by
  unfold LinearGroupingSetParams.ask LinearGroupingSetParams.change? changedGrouping
  cases p.space with
  | none =>
      cases p.text with
      | none => exact answers_error
      | some text =>
          dsimp only
          cases parseConfig out text with
          | error e => exact answers_error
          | ok config => exact answers_replace config book
  | some space =>
      cases p.text with
      | none =>
          dsimp only
          cases book with
          | none => exact answers_error
          | some book =>
              have hkey : (book.toConfig.spaces.any fun e => e.space == space) =
                  decide (space ∈ book.spaces.keys) := by
                rw [Bool.eq_iff_iff, decide_eq_true_iff, GroupingBook.toConfig, List.any_map,
                  List.any_eq_true]
                constructor
                · rintro ⟨e, he, heq⟩
                  exact List.mem_map.mpr ⟨e, he, by simpa using heq⟩
                · intro h
                  obtain ⟨e, he, heq⟩ := List.mem_map.mp h
                  exact ⟨e, he, by simp [heq]⟩
              rw [Option.map_some, Option.filter_some, Option.filter_some, hkey]
              by_cases h : space ∈ book.spaces.keys
              · simp only [h, decide_true, if_true, Option.map_some, Answers]
                rw [GroupingBook.toConfig, GroupingBook.toConfig, List.filter_map]
                congr 3
                apply List.filter_congr
                intro e _
                simp [bne, beq_eq_decide]
              · simp only [h, decide_false, Bool.false_eq_true, if_false, Option.map_none]
                exact answers_error
      | some text =>
          dsimp only
          unfold checkSpace
          by_cases hspace : textOk space = true
          · rw [if_pos hspace]
            cases parseMapping out text with
            | error e => exact answers_error
            | ok mapping =>
                cases book with
                | none => exact answers_error
                | some book => exact answers_setSpace book hspace
          · rw [if_neg hspace]
            have hask (m : GroupingMapping) :
                ((GroupingChange.setSpace space m).ask book).join = none := by
              cases book with
              | none => rfl
              | some book => simp [GroupingChange.ask, hspace]
            cases parseMapping out text with
            | error e => exact answers_error
            | ok mapping =>
                simp only [Except.toOption, Option.map_some, hask]
                exact answers_error

theorem replaceGrouping_run (db : LinearDb) (book : GroupingBook) :
    ∃ t, replaceGrouping book.toConfig db = .ok () t ∧ t.Holds (some book) := by
  have hreplace : Realises (replaceGrouping book.toConfig) db
      ((GroupingChange.replace book.toConfig).ask none) :=
    replaceGrouping_realises none book.toConfig
  simp only [GroupingChange.ask, dif_pos book.toConfig_accepted, GroupingBook.ofConfig_toConfig]
    at hreplace
  obtain ⟨_, t, ht, hholds⟩ := hreplace
  exact ⟨t, ht, hholds⟩

theorem linearGroupingChange_run {book : Option GroupingBook} (h : db.Holds book)
    (p : LinearGroupingSetParams) (write : Bool) :
    match p.ask out book with
    | some after => ∃ t,
        linearGroupingChange out p write db =
          .ok { before := book.map GroupingBook.toConfig, after := some after.toConfig } t ∧
        (if write then t.Holds (some after) else t = db)
    | none => ∃ e, linearGroupingChange out p write db = .error e db := by
  have hanswers := changedGrouping_answers out p book
  have hstart : linearGroupingChange out p write db = (do
      let after ← fromExcept (changedGrouping out (book.map GroupingBook.toConfig) p)
      fromExcept (after.validate.mapError LocalStateError.store)
      if write then
        ofStore (replaceGrouping after)
        let db ← get
        pure { before := book.map GroupingBook.toConfig, after := db.groupingConfig }
      else pure { before := book.map GroupingBook.toConfig, after := some after } : LsM _) db := by
    rw [← h.groupingConfig]
    rfl
  rw [hstart]
  cases hask : p.ask out book with
  | some after =>
      rw [hask] at hanswers
      dsimp only
      have hvalid : (after.toConfig.validate.mapError LocalStateError.store) = .ok () := by
        rw [GroupingConfig.validate_accepts.mpr after.toConfig_accepted]
        rfl
      rw [fromExcept_bind_ok hanswers, fromExcept_bind_ok hvalid]
      cases write with
      | false => exact ⟨db, rfl, rfl⟩
      | true =>
          obtain ⟨t, ht, hholds⟩ := replaceGrouping_run db after
          refine ⟨t, bind_ok.mpr ⟨(), t, ?_, ?_⟩, hholds⟩
          · simp [ofStore, ht]
          · exact congrArg (fun after => EStateM.Result.ok (LinearChange.mk _ after) t)
              hholds.groupingConfig
  | none =>
      rw [hask] at hanswers
      dsimp only
      cases hchanged : changedGrouping out (book.map GroupingBook.toConfig) p with
      | error e => exact ⟨e, rfl⟩
      | ok config =>
          obtain ⟨e, he⟩ := error_of_not_ok
            (mt GroupingConfig.validate_accepts.mp (hanswers config hchanged))
          have hmap : (config.validate.mapError LocalStateError.store) = .error (.store e) := by
            rw [he]
            rfl
          refine ⟨.store e, ?_⟩
          rw [fromExcept_bind_ok rfl, fromExcept_bind_error hmap]

/-! ## Runs -/

/-- One of the ways the stored config is changed. -/
inductive GroupingOp where
  | setGlobal (mapping : GroupingMapping)
  | setSpace (space : String) (mapping : GroupingMapping)
  | removeSpace (space : String)
  | replace (config : GroupingConfig)
  | change (p : LinearGroupingSetParams) (write : Bool)

namespace GroupingOp

def run : GroupingOp → LsM Unit
  | .setGlobal m => ofStore (setGroupingGlobal m)
  | .setSpace space m => ofStore (setGroupingSpace space m)
  | .removeSpace space => do
      let _ ← ofStore (removeGroupingSpace space)
  | .replace config => ofStore (replaceGrouping config)
  | .change p write => do
      let _ ← linearGroupingChange out p write

/-- What the operation asks of the book; a preview leaves it. -/
def ask : GroupingOp → Option GroupingBook → Option (Option GroupingBook)
  | .setGlobal m, book => (GroupingChange.setGlobal m).ask book
  | .setSpace space m, book => (GroupingChange.setSpace space m).ask book
  | .removeSpace space, book => (GroupingChange.removeSpace space).ask book
  | .replace config, book => (GroupingChange.replace config).ask book
  | .change p write, book => (p.ask out book).map fun after => if write then some after else book

end GroupingOp

theorem Realises.ofStore {α : Type} {x : LinearM α} {asked : Option (Option GroupingBook)}
    (h : Realises x db asked) : Realises (ofStore x) db asked := by
  cases asked with
  | some book =>
      obtain ⟨a, t, ht, hholds⟩ := h
      exact ⟨a, t, by simp [LocalState.ofStore, ht], hholds⟩
  | none =>
      obtain ⟨e, he⟩ := h
      exact ⟨.store e, by simp [LocalState.ofStore, he]⟩

theorem Realises.discard {α : Type} {x : LsM α} {asked : Option (Option GroupingBook)}
    (h : Realises x db asked) : Realises (do let _ ← x) db asked := by
  cases asked with
  | some book =>
      obtain ⟨a, t, ht, hholds⟩ := h
      exact ⟨(), t, bind_ok.mpr ⟨a, t, ht, rfl⟩, hholds⟩
  | none =>
      obtain ⟨e, he⟩ := h
      exact ⟨e, by simp [run_bind, he]⟩

/-- One operation does to the store what it asks of the book. -/
theorem GroupingOp.realises {book : Option GroupingBook} (h : db.Holds book) (op : GroupingOp) :
    Realises (op.run out) db (op.ask out book) := by
  cases op with
  | setGlobal m => exact (setGroupingGlobal_realises h m).ofStore
  | setSpace space m => exact (setGroupingSpace_realises h space m).ofStore
  | removeSpace space => exact (removeGroupingSpace_realises h space).ofStore.discard
  | replace config => exact (replaceGrouping_realises book config).ofStore
  | change p write =>
      apply Realises.discard
      have hrun := linearGroupingChange_run out h p write
      cases hask : p.ask out book with
      | none =>
          rw [hask] at hrun
          simp only [GroupingOp.ask, hask, Option.map_none]
          exact hrun
      | some after =>
          rw [hask] at hrun
          obtain ⟨t, ht, hholds⟩ := hrun
          simp only [GroupingOp.ask, hask, Option.map_some]
          refine ⟨_, t, ht, ?_⟩
          cases write with
          | false => exact hholds ▸ h
          | true => exact hholds

/-- The store after the operations, from an empty one. -/
def groupingRun (ops : List GroupingOp) : LinearDb :=
  ops.foldl (fun db op => finalState (op.run out db)) .fresh

/-- The book after the operations; what is refused changes nothing. -/
def bookRun (ops : List GroupingOp) : Option GroupingBook :=
  ops.foldl (fun book op => (op.ask out book).getD book) none

theorem GroupingOp.holds {book : Option GroupingBook} (h : db.Holds book) (op : GroupingOp) :
    (finalState (op.run out db)).Holds ((op.ask out book).getD book) := by
  have hreal := op.realises out h
  cases hask : op.ask out book with
  | none =>
      rw [hask] at hreal
      obtain ⟨e, he⟩ := hreal
      rw [he]
      exact h
  | some after =>
      rw [hask] at hreal
      obtain ⟨a, t, ht, hholds⟩ := hreal
      rw [ht]
      exact hholds

theorem holds_run (ops : List GroupingOp) : (groupingRun out ops).Holds (bookRun out ops) := by
  unfold groupingRun bookRun
  generalize hdb : LinearDb.fresh = db
  generalize hbook : (none : Option GroupingBook) = book
  have h : db.Holds book := by
    subst hdb hbook
    rfl
  clear hdb hbook
  induction ops generalizing db book with
  | nil => exact h
  | cons op ops ih => exact ih _ _ (op.holds out h)

/-! ## The mapping in force -/

/-- The mapping a chosen grouping shows, as the store reports it for the space. -/
def BoardGrouping.resolved (space : String) : BoardGrouping → Option ResolvedGrouping
  | .configured mapping none => some { space := some space, mapping }
  | .configured mapping (some _) => some { space := none, mapping }
  | .view _ _ => none
  | .team _ => none

theorem groupingForSpace_resolved (db : LinearDb) {book : Option GroupingBook} (h : db.Holds book)
    (space : String) (view : Option ViewPreferences) (states : List WorkflowState) :
    db.groupingForSpace space = (choose db.groupingConfig space view states).resolved space := by
  cases hglobal : db.groupingRow? none with
  | none =>
      have hbook : book.isNone = true := by rw [← h.global_isNone, hglobal]; rfl
      cases book with
      | none =>
          have hrows : db.grouping.rows = [] := h
          have hown : db.groupingRow? (some space) = none := by simp [LinearDb.groupingRow?, hrows]
          simp only [LinearDb.groupingForSpace, LinearDb.groupingConfig, hglobal, hown,
            Option.map_none]
          cases view <;> rfl
      | some book => cases hbook
  | some row =>
      simp only [LinearDb.groupingForSpace, LinearDb.groupingConfig, hglobal, Option.map_some,
        choose, find?_overrides]
      cases db.groupingRow? (some space) <;> rfl

/-- The stored config is the ordered map the operations describe, and it is always valid. -/
theorem stored_grouping_is_ordered (ops : List GroupingOp) :
    (groupingRun out ops).groupingConfig = (bookRun out ops).map GroupingBook.toConfig ∧
    (∀ config, (groupingRun out ops).groupingConfig = some config → config.validate = .ok ()) ∧
    (∀ op e t, GroupingOp.run out op (groupingRun out ops) = .error e t → t = groupingRun out ops) ∧
    (∀ p write change t, linearGroupingChange out p write (groupingRun out ops) = .ok change t →
      linearGroupingChange out p false (groupingRun out ops) = .ok change (groupingRun out ops) ∧
      ∃ t', linearGroupingChange out p true (groupingRun out ops) = .ok change t' ∧
        t'.groupingConfig = change.after) ∧
    (∀ space view states, (groupingRun out ops).groupingForSpace space =
      (choose (groupingRun out ops).groupingConfig space view states).resolved space) := by
  have h := holds_run out ops
  refine ⟨h.groupingConfig, ?_, ?_, ?_, groupingForSpace_resolved _ h⟩
  · intro config hconfig
    rw [h.groupingConfig, Option.map_eq_some_iff] at hconfig
    obtain ⟨book, -, rfl⟩ := hconfig
    exact GroupingConfig.validate_accepts.mpr book.toConfig_accepted
  · intro op e t hop
    have hreal := op.realises out h
    cases hask : op.ask out (bookRun out ops) with
    | none =>
        rw [hask] at hreal
        obtain ⟨e', he'⟩ := hreal
        rw [hop] at he'
        cases he'
        rfl
    | some after =>
        rw [hask] at hreal
        obtain ⟨a, t', ht', -⟩ := hreal
        rw [hop] at ht'
        cases ht'
  · intro p write change t hchange
    have hrun := linearGroupingChange_run out h p
    cases hask : p.ask out (bookRun out ops) with
    | none =>
        obtain ⟨e, he⟩ : ∃ e, _ = _ := by simpa only [hask] using hrun write
        rw [hchange] at he
        cases he
    | some after =>
        simp only [hask] at hrun
        obtain ⟨t₀, ht₀, -⟩ := hrun write
        obtain ⟨t₁, ht₁, hleft⟩ := hrun false
        obtain ⟨t₂, ht₂, hholds⟩ := hrun true
        rw [hchange] at ht₀
        cases ht₀
        have hstored : t₂.Holds (some after) := hholds
        exact ⟨hleft ▸ ht₁, t₂, ht₂, hstored.groupingConfig⟩

end HerdrBoard.LocalState
