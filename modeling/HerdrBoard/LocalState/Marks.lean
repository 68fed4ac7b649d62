import HerdrBoard.LocalState.Writes
import HerdrBoard.Lib.Slots

/-!
# Who owns marks and notes

A set replaces what stands in its own slot, and nothing else goes.
-/

open Lib HerdrBoard.Core

namespace HerdrBoard.LocalState

variable (out : Outside) {db db' : LinearDb}

/-! ## Slots -/

/-- What tells apart the marks of different callers: the session, the space, the issue, the kind
and the owner. -/
def Mark.slot (m : Mark) : String × String × String × MarkKind × LinearOwner :=
  (m.herdrSession, m.space, m.issue, m.kind, m.owner)

/-- What tells apart the notes of different authors. -/
def Note.slot (n : Note) : String × String × String × String :=
  (n.herdrSession, n.space, n.issue, n.author)

def NewMark.slot (m : NewMark) : String × String × String × MarkKind × LinearOwner :=
  (m.session, m.space, m.issue, m.kind, m.owner)

def LinearDb.withMarks (db : LinearDb) (t : Table Mark) : LinearDb := { db with marks := t }

def LinearDb.withNotes (db : LinearDb) (t : Table Note) : LinearDb := { db with notes := t }

theorem removeMarks_ok {marks : List Mark} {u : Unit} (h : removeMarks marks db = .ok u db') :
    db' = db.withMarks db'.marks ∧ ∀ m, m ∈ db'.marks ↔
      m ∈ db.marks ∧ ∀ r ∈ marks, m.id ≠ r.id := by
  induction marks generalizing db with
  | nil =>
      obtain rfl := (pure_ok.mp h).2
      exact ⟨rfl, fun m => by simp⟩
  | cons mark marks ih =>
      obtain ⟨_, mid, hdelete, hrest⟩ := bind_ok.mp h
      obtain rfl := modify_ok.mp hdelete
      obtain ⟨hdb, hmarks⟩ := ih hrest
      refine ⟨hdb, fun m => (hmarks m).trans ?_⟩
      simp [and_assoc]

theorem removeNotes_ok {notes : List Note} {u : Unit} (h : removeNotes notes db = .ok u db') :
    db' = db.withNotes db'.notes ∧ ∀ n, n ∈ db'.notes ↔
      n ∈ db.notes ∧ ∀ r ∈ notes, n.id ≠ r.id := by
  induction notes generalizing db with
  | nil =>
      obtain rfl := (pure_ok.mp h).2
      exact ⟨rfl, fun n => by simp⟩
  | cons note notes ih =>
      obtain ⟨_, mid, hdelete, hrest⟩ := bind_ok.mp h
      obtain rfl := modify_ok.mp hdelete
      obtain ⟨hdb, hnotes⟩ := ih hrest
      refine ⟨hdb, fun n => (hnotes n).trans ?_⟩
      simp [and_assoc]

/-! ## Replacing -/

theorem addMark_ok {now : String} {m : NewMark} {row : Mark} (h : addMark now m db = .ok row db') :
    db' = db.withMarks db'.marks ∧ row.slot = m.slot ∧ row.text = m.text ∧ ∀ r, r ∈ db'.marks ↔
      r ∈ db.marks ∨ r = row := by
  obtain ⟨_, _, hcheck, h⟩ := bind_ok.mp h
  obtain ⟨-, rfl⟩ := fromExcept_ok.mp hcheck
  obtain ⟨_, _, hget, h⟩ := bind_ok.mp h
  obtain ⟨rfl, rfl⟩ := get_ok.mp hget
  obtain ⟨_, _, hmodify, h⟩ := bind_ok.mp h
  obtain rfl := modify_ok.mp hmodify
  obtain ⟨rfl, rfl⟩ := pure_ok.mp h
  exact ⟨rfl, rfl, rfl, fun r => Table.mem_insert⟩

theorem mem_spaceIssueMarks {session space issue : String} {m : Mark} :
    m ∈ db.spaceIssueMarks session space issue ↔
      m ∈ db.marks ∧ m.herdrSession = session ∧ m.space = space ∧ m.issue = issue := by
  simp [LinearDb.spaceIssueMarks, and_assoc]

theorem mem_listNotes {session space issue : String} {n : Note} :
    n ∈ db.listNotes session space (some issue) ↔
      n ∈ db.notes ∧ n.herdrSession = session ∧ n.space = space ∧ n.issue = issue := by
  simp [LinearDb.listNotes, and_assoc, @eq_comm _ issue]

theorem replaceMark_atomic (m : NewMark) : Atomic (replaceMark out m) := atomic_transaction _

theorem replaceMark_ok {m : NewMark} {before : List Mark} {after : Mark}
    (h : replaceMark out m db = .ok (before, after) db') :
    db' = db.withMarks db'.marks ∧ Replaced Mark.slot m.slot before after db.marks db'.marks ∧
    after.text = m.text := by
  obtain ⟨_, _, hget, h⟩ := bind_ok.mp (transaction_ok.mp h)
  obtain ⟨rfl, rfl⟩ := get_ok.mp hget
  obtain ⟨_, cleared, hremoved, h⟩ := bind_ok.mp h
  obtain ⟨row, _, hadd, h⟩ := bind_ok.mp h
  obtain ⟨hpair, rfl⟩ := pure_ok.mp h
  obtain ⟨rfl, rfl⟩ := Prod.mk.inj hpair
  obtain ⟨hdb', hslot, htext, hadded⟩ := addMark_ok (ofStore_ok.mp hadd)
  obtain ⟨hdb, hmarks⟩ := removeMarks_ok (ofStore_ok.mp hremoved)
  have hbefore (r : Mark) : r ∈ (db.spaceIssueMarks m.session m.space m.issue).filter
      (fun old => old.kind == m.kind && old.owner == m.owner) ↔ r ∈ db.marks ∧ r.slot = m.slot := by
    simp [mem_spaceIssueMarks, Mark.slot, NewMark.slot, and_assoc]
  exact ⟨by rw [hdb', hdb]; rfl, .of_removed hbefore hmarks hslot hadded, htext⟩

theorem addNote_ok {now : String} {n : NewNote} {row : Note} (h : addNote now n db = .ok row db') :
    db' = db.withNotes db'.notes ∧ row.slot = (n.session, n.space, n.issue, n.author) ∧
      row.body = n.body ∧ row.owner = n.owner ∧ ∀ r, r ∈ db'.notes ↔ r ∈ db.notes ∨ r = row := by
  obtain ⟨_, _, hcheck, h⟩ := bind_ok.mp h
  obtain ⟨-, rfl⟩ := fromExcept_ok.mp hcheck
  obtain ⟨_, _, hget, h⟩ := bind_ok.mp h
  obtain ⟨rfl, rfl⟩ := get_ok.mp hget
  obtain ⟨_, _, hmodify, h⟩ := bind_ok.mp h
  obtain rfl := modify_ok.mp hmodify
  obtain ⟨rfl, rfl⟩ := pure_ok.mp h
  exact ⟨rfl, rfl, rfl, rfl, fun r => Table.mem_insert⟩

/-! ## Requests -/

section

variable {known : Bool} {before : List Mark} {after : Mark}

theorem linearMarkSet_atomic (p : LinearMarkSetParams) (known : Bool) :
    Atomic (linearMarkSet out p known) :=
  (readOnly_refuse _ _).bind_atomic fun _ => readOnly_requireKnown.bind_atomic fun _ =>
    replaceMark_atomic out _

theorem linearMarkSet_ok {p : LinearMarkSetParams}
    (h : linearMarkSet out p known db = .ok (before, after) db') :
    p.kind ≠ .suggestion ∧ db' = db.withMarks db'.marks ∧
    after.text = p.text.map stripControlKeepLines ∧
      Replaced Mark.slot (herdrSession (cleanOwner p.owner).herdrSocket, p.space, p.issue, p.kind,
        cleanOwner p.owner) before after db.marks db'.marks := by
  obtain ⟨_, _, hrefused, hchecked⟩ := bind_ok.mp h
  obtain ⟨hkind, rfl⟩ := refuse_ok.mp hrefused
  obtain ⟨_, _, hknown, hrun⟩ := bind_ok.mp hchecked
  obtain rfl := (readOnly_requireKnown.ok hknown).symm
  obtain ⟨hdb, hreplaced, htext⟩ := replaceMark_ok out hrun
  exact ⟨hkind, hdb, htext, hreplaced⟩

theorem requireOwner_ok {o owner : LinearOwner} {what : String}
    (h : requireOwner o what = .ok owner) :
    (cleanOwner o).isAnonymous = false ∧ cleanOwner o = owner := by
  unfold requireOwner at h
  split at h
  · cases h
  · next hnamed => exact ⟨Bool.eq_false_iff.mpr hnamed, Except.ok.inj h⟩

theorem linearMarkUnmark_atomic (p : LinearMarkUnmarkParams) : Atomic (linearMarkUnmark p) :=
  (readOnly_fromExcept _).bind_atomic fun _ => (readOnly_fromExcept _).bind_atomic fun _ =>
    (readOnly_fromExcept _).bind_atomic fun _ => atomic_transaction _

/-- The marks an unmark is about. -/
def LinearMarkUnmarkParams.Covers (p : LinearMarkUnmarkParams) (m : Mark) : Prop :=
  m.owner = cleanOwner p.owner ∧ m.herdrSession = herdrSession (cleanOwner p.owner).herdrSocket ∧
    m.space = p.space ∧ m.issue = p.issue ∧ ∀ k, p.kind = some k → m.kind = k

theorem linearMarkUnmark_ok {p : LinearMarkUnmarkParams} {removed : List Mark}
    (h : linearMarkUnmark p db = .ok removed db') :
    (cleanOwner p.owner).isAnonymous = false ∧ db' = db.withMarks db'.marks ∧
    (∀ m, m ∈ removed ↔ m ∈ db.marks ∧ p.Covers m) ∧
      ∀ m, m ∈ db'.marks ↔ m ∈ db.marks ∧ ¬ p.Covers m := by
  obtain ⟨_, _, hspace, hchecked⟩ := bind_ok.mp h
  obtain ⟨-, rfl⟩ := fromExcept_ok.mp hspace
  obtain ⟨_, _, hissue, hasked⟩ := bind_ok.mp hchecked
  obtain ⟨-, rfl⟩ := fromExcept_ok.mp hissue
  obtain ⟨owner, _, hrequired, hrun⟩ := bind_ok.mp hasked
  obtain ⟨howner, rfl⟩ := fromExcept_ok.mp hrequired
  obtain ⟨hnamed, rfl⟩ := requireOwner_ok howner
  obtain ⟨_, _, hget, hbody⟩ := bind_ok.mp (transaction_ok.mp hrun)
  obtain ⟨rfl, rfl⟩ := get_ok.mp hget
  obtain ⟨_, _, hremoved, hpure⟩ := bind_ok.mp hbody
  obtain ⟨rfl, rfl⟩ := pure_ok.mp hpure
  obtain ⟨hdb, hmarks⟩ := removeMarks_ok (ofStore_ok.mp hremoved)
  have hcovers (m : Mark) :
      m ∈ (db.spaceIssueMarks (herdrSession (cleanOwner p.owner).herdrSocket) p.space
        p.issue).filter
      (fun m => (p.kind.all fun k => k == m.kind) && m.owner == cleanOwner p.owner) ↔
        m ∈ db.marks ∧ p.Covers m := by
    simp only [List.mem_filter, mem_spaceIssueMarks, LinearMarkUnmarkParams.Covers,
      Bool.and_eq_true, beq_iff_eq]
    cases p.kind <;> simp <;> grind
  refine ⟨hnamed, hdb, hcovers, fun m => (hmarks m).trans ?_⟩
  exact (mem_without (fun b hb => ((hcovers b).mp hb).1) m).trans
    (and_congr_right fun hm => not_congr ((hcovers m).trans (and_iff_right hm)))

end

theorem linearNoteSet_atomic (p : LinearNoteSetParams) (known : Bool) :
    Atomic (linearNoteSet out p known) :=
  readOnly_requireKnown.bind_atomic fun _ => atomic_transaction _

theorem linearNoteSet_ok {p : LinearNoteSetParams} {known : Bool} {before : List Note}
    {after : Note} (h : linearNoteSet out p known db = .ok (before, after) db') :
    db' = db.withNotes db'.notes ∧ after.body = stripControlKeepLines p.body ∧
    after.owner = cleanOwner p.owner ∧
      Replaced Note.slot (herdrSession (cleanOwner p.owner).herdrSocket, p.space, p.issue,
        stripControlAndFormat p.author) before after db.notes db'.notes := by
  obtain ⟨_, _, hknown, hrun⟩ := bind_ok.mp h
  obtain rfl := (readOnly_requireKnown.ok hknown).symm
  obtain ⟨_, _, hget, hset⟩ := bind_ok.mp (transaction_ok.mp hrun)
  obtain ⟨rfl, rfl⟩ := get_ok.mp hget
  obtain ⟨_, cleared, hremoved, hrest⟩ := bind_ok.mp hset
  obtain ⟨row, _, hadd, hpure⟩ := bind_ok.mp hrest
  obtain ⟨hpair, rfl⟩ := pure_ok.mp hpure
  obtain ⟨rfl, rfl⟩ := Prod.mk.inj hpair
  obtain ⟨hdb', hslot, hbody, howner, hadded⟩ := addNote_ok (ofStore_ok.mp hadd)
  obtain ⟨hdb, hnotes⟩ := removeNotes_ok (ofStore_ok.mp hremoved)
  have hbefore (r : Note) :
      r ∈ (db.listNotes (herdrSession (cleanOwner p.owner).herdrSocket) p.space
        (some p.issue)).filter
      (fun n => n.author == stripControlAndFormat p.author) ↔
        r ∈ db.notes ∧ r.slot = (herdrSession (cleanOwner p.owner).herdrSocket,
        p.space, p.issue, stripControlAndFormat p.author) := by
    simp [mem_listNotes, Note.slot, and_assoc]
  exact ⟨by rw [hdb', hdb]; rfl, hbody, howner, .of_removed hbefore hnotes hslot hadded⟩

/-! ## Activity -/

/-- The marks and the notes of the store. -/
def LinearDb.annotations (db : LinearDb) : Table Mark × Table Note := (db.marks, db.notes)

theorem keeps_activity (f : LinearDb → Table Activity) :
    Respects (SameBy LinearDb.annotations)
      (modify fun db => { db with activity := f db } : LinearM PUnit) := fun _ => rfl

theorem keeps_recordActivity (now : String) (a : NewActivity) :
    Respects (SameBy LinearDb.annotations) (recordActivity now a) := by
  refine (readOnly_fromExcept _).respects.bind fun _ => Respects.transaction ?_
  exact readOnly_get.respects.bind fun db => (keeps_activity _).bind fun _ =>
    (keeps_activity _).bind fun _ => respects_pure _

theorem keeps_setWorktreeBinding (b : WorktreeBinding) :
    Respects (SameBy LinearDb.annotations) (setWorktreeBinding b) :=
  (readOnly_fromExcept _).respects.bind fun _ => fun _ => rfl

theorem clearSuggestionsNaming_ok {issue worktree : String} {cleared : List Mark}
    (h : clearSuggestionsNaming issue worktree db = .ok cleared db') :
    db'.notes = db.notes ∧ (∀ m ∈ cleared, m ∈ db.marks ∧ m.kind = .suggestion ∧ m.issue = issue) ∧
      ∀ m, m ∈ db'.marks ↔ m ∈ db.marks ∧ m ∉ cleared := by
  obtain ⟨_, _, hget, hrest⟩ := bind_ok.mp h
  obtain ⟨rfl, rfl⟩ := get_ok.mp hget
  rcases ite_ok.mp hrest with ⟨-, hremove⟩ | ⟨-, hnone⟩
  · obtain ⟨_, _, hremoved, hpure⟩ := bind_ok.mp hremove
    obtain ⟨rfl, rfl⟩ := pure_ok.mp hpure
    obtain ⟨hdb, hmarks⟩ := removeMarks_ok hremoved
    have hcleared : ∀ m ∈ (db.issueMarks issue).filter fun m => m.kind == .suggestion,
        m ∈ db.marks ∧ m.kind = .suggestion ∧ m.issue = issue := by
      intro m hm
      simp only [LinearDb.issueMarks, List.mem_filter, Table.mem_select, beq_iff_eq] at hm
      exact ⟨hm.1.1, hm.2, hm.1.2⟩
    exact ⟨by rw [hdb]; rfl, hcleared,
      fun m => (hmarks m).trans (mem_without (fun b hb => (hcleared b hb).1) m)⟩
  · obtain ⟨rfl, rfl⟩ := pure_ok.mp hnone
    exact ⟨rfl, by simp, by simp⟩

theorem linearBind_atomic (p : LinearBindParams) : Atomic (linearBind out p) :=
  (readOnly_fromExcept _).bind_atomic fun _ => (readOnly_fromExcept _).bind_atomic fun _ =>
    atomic_transaction _

/-- A bind that went through: the free issue, the binding it wrote, and the
suggestions it cleared. -/
theorem linearBind_parts {p : LinearBindParams} {bound : LinearBound}
    (h : linearBind out p db = .ok bound db') :
    ∃ path mid, out.resolveWorktree p.cwd = .ok path ∧ db.issueHolder p.issue path = none ∧
      setWorktreeBinding (boundWorktree p path (db.worktreeBinding path)) db = .ok () mid ∧
      clearSuggestionsNaming p.issue path mid = .ok bound.clearedSuggestions db' := by
  obtain ⟨_, _, hissue, hresolve⟩ := bind_ok.mp h
  obtain ⟨-, rfl⟩ := fromExcept_ok.mp hissue
  obtain ⟨path, _, hpath, hrun⟩ := bind_ok.mp hresolve
  obtain ⟨hpath, rfl⟩ := fromExcept_ok.mp hpath
  obtain ⟨_, _, hget, hbody⟩ := bind_ok.mp (transaction_ok.mp hrun)
  obtain ⟨rfl, rfl⟩ := get_ok.mp hget
  cases hholder : db.issueHolder p.issue path with
  | some holder =>
      rw [hholder] at hbody
      cases hbody
  | none =>
      rw [hholder] at hbody
      obtain ⟨_, mid, hset, hrest⟩ := bind_ok.mp hbody
      obtain ⟨_, _, hget', hrest'⟩ := bind_ok.mp hrest
      obtain ⟨rfl, rfl⟩ := get_ok.mp hget'
      obtain ⟨cleared, _, hclear, hpure⟩ := bind_ok.mp hrest'
      obtain ⟨rfl, rfl⟩ := pure_ok.mp hpure
      refine ⟨path, mid, ?_, hholder, ofStore_ok.mp hset, ofStore_ok.mp hclear⟩
      cases hresolved : out.resolveWorktree p.cwd with
      | ok found =>
          rw [hresolved] at hpath
          cases hpath
          rfl
      | error e =>
          rw [hresolved] at hpath
          cases hpath

theorem linearBind_ok {p : LinearBindParams} {bound : LinearBound}
    (h : linearBind out p db = .ok bound db') :
    db'.notes = db.notes ∧
    (∀ m ∈ bound.clearedSuggestions, m ∈ db.marks ∧ m.kind = .suggestion ∧ m.issue = p.issue) ∧
      ∀ m, m ∈ db'.marks ↔ m ∈ db.marks ∧ m ∉ bound.clearedSuggestions := by
  obtain ⟨path, mid, -, -, hset, hclear⟩ := linearBind_parts out h
  obtain ⟨hmarks, hnotes⟩ := Prod.mk.inj (show (mid.marks, mid.notes) = (db.marks, db.notes) from
    (keeps_setWorktreeBinding _).ok hset)
  obtain ⟨hnotes', hcleared, hrows⟩ := clearSuggestionsNaming_ok hclear
  rw [hmarks] at hcleared hrows
  exact ⟨hnotes'.trans hnotes, hcleared, hrows⟩

/-- What a recorded activity does to the marks. -/
inductive Suggests (p : LinearActivityRecordParams) (result : LinearActivityRecordResult)
    (t t' : Table Mark) : Prop
  | recorded (houtcome : result.outcome = .recorded) (hsame : t' = t)
  | linked (houtcome : result.outcome = .linked) (issue : String) (hissue : p.issue = some issue)
      (hcleared : ∀ m ∈ result.clearedSuggestions, m ∈ t ∧ m.kind = .suggestion ∧ m.issue = issue)
      (hrows : ∀ m, m ∈ t' ↔ m ∈ t ∧ m ∉ result.clearedSuggestions)
  | suggested (houtcome : result.outcome = .suggested) (issue space : String) (before : List Mark)
      (after : Mark)
      (hissue : p.issue = some issue)
      (hspace : claimedSpace p.space (cleanClaims p.claims) = some space)
      (hmark : result.mark = some (before, after))
      (hreplaced : Replaced Mark.slot (herdrSession (cleanClaims p.claims).herdrSocket, space,
        issue, .suggestion, {}) before after t t')

theorem linkOrSuggest_ok {p : LinearActivityRecordParams} {issue space : String}
    {activity : Activity} {result : LinearActivityRecordResult} (hissue : p.issue = some issue)
    (hspace : claimedSpace p.space (cleanClaims p.claims) = some space)
    (h : linkOrSuggest out p issue space (cleanClaims p.claims) activity db = .ok result db') :
    db'.notes = db.notes ∧ Suggests p result db.marks db'.marks := by
  obtain ⟨_, _, hget, hrest⟩ := bind_ok.mp h
  obtain ⟨rfl, rfl⟩ := get_ok.mp hget
  rcases ite_ok.mp hrest with ⟨-, hnamed⟩ | ⟨-, hrun⟩
  · obtain ⟨rfl, rfl⟩ := pure_ok.mp hnamed
    exact ⟨rfl, .recorded rfl rfl⟩
  · generalize Option.filter _ _ = path at hrun
    cases path with
    | some path =>
        obtain ⟨bound, _, hbind, hpure⟩ := bind_ok.mp hrun
        obtain ⟨rfl, rfl⟩ := pure_ok.mp hpure
        obtain ⟨hnotes, hcleared, hrows⟩ := linearBind_ok out hbind
        exact ⟨hnotes, .linked rfl issue hissue hcleared hrows⟩
    | none =>
        obtain ⟨⟨before, after⟩, _, hmark, hpure⟩ := bind_ok.mp hrun
        obtain ⟨rfl, rfl⟩ := pure_ok.mp hpure
        obtain ⟨hdb, hreplaced, -⟩ := replaceMark_ok out hmark
        exact ⟨by rw [hdb]; rfl,
          .suggested rfl issue space before after hissue hspace rfl hreplaced⟩

theorem linkOrSuggest_atomic (p : LinearActivityRecordParams) (issue space : String)
    (claims : ActivityClaims) (activity : Activity) :
    Atomic (linkOrSuggest out p issue space claims activity) := by
  refine readOnly_get.bind_atomic fun db => atomic_ite (total_pure _).atomic ?_
  split
  · exact (linearBind_atomic out _).bind_total fun _ => total_pure _
  · exact (replaceMark_atomic out _).bind_total fun _ => total_pure _

/-- What follows the record of an activity. -/
def followActivity (p : LinearActivityRecordParams) (activity : Activity) :
    LsM LinearActivityRecordResult :=
  let recorded : LinearActivityRecordResult :=
    { activity, outcome := .recorded, binding := none, mark := none, clearedSuggestions := [] }
  match p.issue, claimedSpace p.space (cleanClaims p.claims) with
  | some issue, some space =>
      if isSaveIssue p.toolName then linkOrSuggest out p issue space (cleanClaims p.claims) activity
        else pure recorded
  | _, _ => pure recorded

def checkActivityIssue (issue : Option String) : LsM Unit :=
  match issue with
  | some issue => fromExcept (checkIssue issue)
  | none => pure ()

theorem linearActivityRecord_eq (p : LinearActivityRecordParams) : linearActivityRecord out p =
    (checkActivityIssue p.issue >>= fun _ => ofStore (recordActivity out.sqlNow
      { session := herdrSession (cleanClaims p.claims).herdrSocket,
        space := claimedSpace p.space (cleanClaims p.claims),
        toolName := p.toolName, issue := p.issue, claims := cleanClaims p.claims }) >>=
          followActivity out p) := by
  cases hissue : p.issue with
  | none =>
      simp only [linearActivityRecord, checkActivityIssue, hissue, pure_bind]
      refine congrArg (fun follow => ofStore _ >>= follow) (funext fun activity => ?_)
      rw [followActivity, hissue]
  | some issue =>
      simp only [linearActivityRecord, checkActivityIssue, hissue]
      refine congrArg (fun follow => fromExcept (checkIssue issue) >>= fun _ => ofStore _ >>=
        follow) (funext fun activity => ?_)
      cases hspace : claimedSpace p.space (cleanClaims p.claims) <;>
          simp only [followActivity, hissue, hspace]

theorem readOnly_checkActivityIssue (issue : Option String) :
    ReadOnly (checkActivityIssue issue) := by
  cases issue with
  | none => exact readOnly_pure _
  | some issue => exact readOnly_fromExcept _

theorem followActivity_ok {p : LinearActivityRecordParams} {activity : Activity}
    {result : LinearActivityRecordResult}
    (h : followActivity out p activity db = .ok result db') : db'.notes = db.notes ∧
    Suggests p result db.marks db'.marks := by
  cases hissue : p.issue with
  | none =>
      rw [followActivity, hissue] at h
      obtain ⟨rfl, rfl⟩ := pure_ok.mp h
      exact ⟨rfl, .recorded rfl rfl⟩
  | some issue =>
      cases hspace : claimedSpace p.space (cleanClaims p.claims) with
      | none =>
          rw [followActivity, hissue, hspace] at h
          obtain ⟨rfl, rfl⟩ := pure_ok.mp h
          exact ⟨rfl, .recorded rfl rfl⟩
      | some space =>
          rw [followActivity, hissue, hspace] at h
          rcases ite_ok.mp h with ⟨-, hlink⟩ | ⟨-, hpure⟩
          · exact linkOrSuggest_ok out hissue hspace hlink
          · obtain ⟨rfl, rfl⟩ := pure_ok.mp hpure
            exact ⟨rfl, .recorded rfl rfl⟩

theorem followActivity_atomic (p : LinearActivityRecordParams) (activity : Activity) :
    Atomic (followActivity out p activity) := by
  unfold followActivity
  split
  · exact atomic_ite (linkOrSuggest_atomic out _ _ _ _ _) (total_pure _).atomic
  · exact (total_pure _).atomic

theorem linearActivityRecord_ok {p : LinearActivityRecordParams}
    {result : LinearActivityRecordResult}
    (h : linearActivityRecord out p db = .ok result db') : db'.notes = db.notes ∧
    Suggests p result db.marks db'.marks := by
  rw [linearActivityRecord_eq] at h
  obtain ⟨_, _, hissue, hrun⟩ := bind_ok.mp h
  obtain rfl := ((readOnly_checkActivityIssue _).ok hissue).symm
  obtain ⟨activity, mid, hrecord, hfollow⟩ := bind_ok.mp hrun
  obtain ⟨hmarks, hnotes⟩ := Prod.mk.inj (show (mid.marks, mid.notes) = (db.marks, db.notes) from
    (keeps_recordActivity _ _).ok (ofStore_ok.mp hrecord))
  rw [← hmarks, ← hnotes]
  exact followActivity_ok out hfollow

/-- A refused record leaves what a record of activity leaves. -/
theorem linearActivityRecord_atomicBy {γ : Type} {π : LinearDb → γ}
    (hkeeps : ∀ now a, Keeps π (recordActivity now a))
    (p : LinearActivityRecordParams) : AtomicBy π (linearActivityRecord out p) := by
  rw [linearActivityRecord_eq]
  exact (readOnly_checkActivityIssue _).respects.bind_atomicBy fun _ =>
    (respects_ofStore (hkeeps _ _)).bind_atomicBy fun _ => (followActivity_atomic out p _).by

end HerdrBoard.LocalState
