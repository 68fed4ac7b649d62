import HerdrBoard.Lib.Retention
import HerdrBoard.LocalState.Marks

/-!
# How long activity is kept

Each space of each session keeps its newest rows, whatever is recorded for the others in between.
-/

open Lib HerdrBoard.Core

namespace HerdrBoard.LocalState

/-- The rows of a session and space; no space is one of its own. -/
def ofSpace (session : String) (space : Option String) (r : Activity) : Bool :=
  r.herdrSession == session && r.space == space

/-- The row of a call, under its id. -/
def NewActivity.row (a : NewActivity) (now : String) (id : Int) : Activity :=
  { id, herdrSession := a.session, space := a.space, toolName := a.toolName,
    issue := a.issue, claims := a.claims, createdAt := now }

theorem NewActivity.key_row (a : NewActivity) (now : String) (id : Int) :
    Keyed.key (a.row now id) = id := rfl

/-- The store after the call wrote its row. -/
def LinearDb.recorded (db : LinearDb) (now : String) (a : NewActivity) : LinearDb :=
  { db with
    activity := (db.activity.insert (a.row now) (a.key_row now)).keepNewest
      (ofSpace a.session a.space) LINEAR_ACTIVITY_KEEP_PER_SPACE }

variable {now : String} {a : NewActivity} {r : Activity} {db db' : LinearDb} {session : String}
    {space : Option String}

theorem recordActivity_eq (now : String) (a : NewActivity) (db : LinearDb) :
    recordActivity now a db =
    match a.check with
    | .ok () => .ok (a.row now db.activity.nextKey) (db.recorded now a)
    | .error e => .error e db := by
  simp only [recordActivity]
  cases hcheck : a.check with
  | error e => rfl
  | ok u => rfl

theorem recordActivity_ok (h : recordActivity now a db = .ok r db') :
    r = a.row now db.activity.nextKey ∧ db' = db.recorded now a := by
  rw [recordActivity_eq] at h
  cases hcheck : a.check with
  | error e => simp [hcheck] at h
  | ok u =>
      simp only [hcheck, EStateM.Result.ok.injEq] at h
      exact ⟨h.1.symm, h.2.symm⟩

theorem recordActivity_error {e : Error} (h : recordActivity now a db = .error e db') :
    db' = db := by
  rw [recordActivity_eq] at h
  cases hcheck : a.check with
  | error e =>
      simp only [hcheck, EStateM.Result.error.injEq] at h
      exact h.2.symm
  | ok u => simp [hcheck] at h

/-- A call is refused for what it carries only. -/
theorem recordActivity_accepts : (∃ r db', recordActivity now a db = .ok r db') ↔
    a.check = .ok () := by
  rw [recordActivity_eq]
  cases a.check <;> simp

/-! ## One call -/

theorem ofSpace_iff : ofSpace session space r = true ↔
    r.herdrSession = session ∧ r.space = space := by simp [ofSpace]

theorem ofSpace_row (id : Int) : ofSpace a.session a.space (a.row now id) = true :=
  ofSpace_iff.mpr ⟨rfl, rfl⟩

theorem select_recorded_self : (db.recorded now a).activity.select (ofSpace a.session a.space) =
    (db.activity.select (ofSpace a.session a.space) ++ [a.row now db.activity.nextKey]).rtake
      LINEAR_ACTIVITY_KEEP_PER_SPACE := by
  rw [LinearDb.recorded, Table.select_keepNewest, Table.select_insert, if_pos (ofSpace_row _)]

theorem select_recorded_other (h : ¬(session = a.session ∧ space = a.space)) :
    (db.recorded now a).activity.select (ofSpace session space) =
      db.activity.select (ofSpace session space) := by
  have hdisjoint : ∀ r, ofSpace session space r = true → ofSpace a.session a.space r = false := by
    intro r hr
    obtain ⟨rfl, rfl⟩ := ofSpace_iff.mp hr
    exact Bool.eq_false_iff.mpr (mt ofSpace_iff.mp h)
  have hrow : ¬ofSpace session space (a.row now db.activity.nextKey) = true := fun hr =>
    h ⟨(ofSpace_iff.mp hr).1.symm, (ofSpace_iff.mp hr).2.symm⟩
  rw [LinearDb.recorded, Table.select_keepNewest_of_disjoint hdisjoint, Table.select_insert,
    if_neg hrow, List.append_nil]

theorem nextKey_recorded : (db.recorded now a).activity.nextKey = db.activity.nextKey + 1 :=
  Table.nextKey_keepNewest_insert (by decide) (ofSpace_row _)

/-- What a call that wrote its row leaves. -/
structure Records (a : NewActivity) (r : Activity) (db db' : LinearDb) : Prop where
  newest : db'.activity.select (ofSpace a.session a.space) =
    (db.activity.select (ofSpace a.session a.space) ++ [r]).rtake LINEAR_ACTIVITY_KEEP_PER_SPACE
  written : r ∈ db'.activity.select (ofSpace a.session a.space)
  others : ∀ session space, ¬(session = a.session ∧ space = a.space) →
    db'.activity.select (ofSpace session space) = db.activity.select (ofSpace session space)

theorem records_of_ok (h : recordActivity now a db = .ok r db') : Records a r db db' := by
  obtain ⟨rfl, rfl⟩ := recordActivity_ok h
  exact
    { newest := select_recorded_self
      written := by
        rw [select_recorded_self]
        exact mem_rtake_concat (by decide)
      others := fun _ _ => select_recorded_other }

/-! ## Any calls -/

/-- The rows that calls write one after the other, and the store they leave. -/
def recordAll : List (String × NewActivity) → LinearDb → List Activity × LinearDb
  | [], db => ([], db)
  | (now, a) :: calls, db =>
      match recordActivity now a db with
      | .ok r db' => (r :: (recordAll calls db').1, (recordAll calls db').2)
      | .error _ db' => recordAll calls db'

/-- Each session and space keeps the newest of what was written, in the order of the ids. -/
structure KeepsNewest (log : List Activity) (db : LinearDb) : Prop where
  ascending : log.Pairwise fun a b => a.id < b.id
  next : ∀ r ∈ log, r.id < db.activity.nextKey
  newest : ∀ session space, db.activity.select (ofSpace session space) =
    (log.filter (ofSpace session space)).rtake LINEAR_ACTIVITY_KEEP_PER_SPACE

theorem KeepsNewest.record {log : List Activity} (h : KeepsNewest log db)
    (hrun : recordActivity now a db = .ok r db') : KeepsNewest (log ++ [r]) db' := by
  have hrecords := records_of_ok hrun
  obtain ⟨hr, rfl⟩ := recordActivity_ok hrun
  have hid : r.id = db.activity.nextKey := by rw [hr]; rfl
  refine ⟨?_, ?_, fun session space => ?_⟩
  · refine List.pairwise_append.mpr ⟨h.ascending, List.pairwise_singleton _ _, fun s hs t ht => ?_⟩
    rw [List.mem_singleton.mp ht, hid]
    exact h.next s hs
  · intro s hs
    rw [nextKey_recorded]
    rcases List.mem_append.mp hs with hs | hs
    · exact (h.next s hs).trans (Int.lt_succ _)
    · rw [List.mem_singleton.mp hs, hid]
      exact Int.lt_succ _
  · rw [List.filter_append, List.filter_singleton]
    by_cases hsame : session = a.session ∧ space = a.space
    · obtain ⟨rfl, rfl⟩ := hsame
      have hown : ofSpace a.session a.space r = true := hr ▸ ofSpace_row _
      rw [hrecords.newest, h.newest, rtake_rtake_concat, hown, cond_true]
    · have hother : ofSpace session space r = false := by
        refine Bool.eq_false_iff.mpr fun hown => ?_
        obtain ⟨hsession, hspace⟩ := ofSpace_iff.mp hown
        exact hsame ⟨(hr ▸ hsession).symm, (hr ▸ hspace).symm⟩
      rw [hrecords.others session space hsame, h.newest, hother, cond_false, List.append_nil]

theorem keepsNewest_recordAll {log : List Activity} (calls : List (String × NewActivity))
    (h : KeepsNewest log db) :
    KeepsNewest (log ++ (recordAll calls db).1) (recordAll calls db).2 := by
  induction calls generalizing db log with
  | nil => simpa [recordAll] using h
  | cons call calls ih =>
      obtain ⟨now, a⟩ := call
      cases hrun : recordActivity now a db with
      | error e db' =>
          simp only [recordAll, hrun]
          exact ih (recordActivity_error hrun ▸ h)
      | ok r db' =>
          simp only [recordAll, hrun]
          rw [List.append_cons]
          exact ih (h.record hrun)

theorem keepsNewest_fresh : KeepsNewest [] .fresh where
  ascending := List.Pairwise.nil
  next r hr := by cases hr
  newest session space := by simp [LinearDb.fresh, Table.select, Table.empty]

theorem activity_keeps_newest :
    (∀ calls, KeepsNewest (recordAll calls .fresh).1 (recordAll calls .fresh).2) ∧
    (∀ now a db, (∃ r db', recordActivity now a db = .ok r db') ↔ a.check = .ok ()) ∧
    (∀ now a db r db', recordActivity now a db = .ok r db' → Records a r db db') ∧
    ∀ now a db e db', recordActivity now a db = .error e db' → db' = db :=
  ⟨fun calls => keepsNewest_recordAll calls keepsNewest_fresh, fun _ _ _ => recordActivity_accepts,
    fun _ _ _ _ _ => records_of_ok, fun _ _ _ _ _ => recordActivity_error⟩

/-- A call of a tool in a space of a session. -/
def toolCall (space : Option String) : NewActivity where
  session := "default"
  space := space
  toolName := "save_issue"
  issue := some "X-9"
  claims := { herdrSocket := none, herdrPaneId := none, herdrWorkspaceId := none }

/-- The row of a space is written, and the row without a space stays. -/
theorem activity_keeps_newest_two :
    ∃ r db', recordActivity "2026-01-01 00:00:00" (toolCall (some "w1"))
      (recordAll [("2026-01-01 00:00:00", toolCall none)] .fresh).2 = .ok r db' ∧
    r ∈ db'.activity.select (ofSpace "default" (some "w1")) ∧
    (db'.activity.select (ofSpace "default" none)).map Activity.id = [1] := by
  obtain ⟨-, haccepts, hrecords, -⟩ := activity_keeps_newest
  obtain ⟨r, db', hcall⟩ := (haccepts "2026-01-01 00:00:00" (toolCall (some "w1"))
    (recordAll [("2026-01-01 00:00:00", toolCall none)] .fresh).2).mpr (by decide +kernel)
  have hrecorded := hrecords _ _ _ _ _ hcall
  refine ⟨r, db', hcall, hrecorded.written, ?_⟩
  rw [hrecorded.others "default" none (by decide)]
  decide +kernel

end HerdrBoard.LocalState
