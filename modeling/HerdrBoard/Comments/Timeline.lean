import HerdrBoard.Comments.Quiet
import HerdrBoard.Lib.Sorting

/-!
# The audit trail of a comment

What each statement on comments does to the trail of every comment.
-/

open Lib HerdrBoard.Core

namespace HerdrBoard.Comments

variable {conn : Conn} {db db' db'' : Db} {id : Int} {m m' : Comment} {bodies : List String}
    {trail : List CommentHistory}

/-- `SELECT * FROM comment_history WHERE comment_id=?1 ORDER BY id`. -/
def listCommentHistory (t : Tables) (commentId : Int) : List CommentHistory :=
  t.commentHistory.select fun h => h.commentId == commentId

/-- The trail lists the bodies of the comment, oldest first, and only the last entry can be
marked deleted. -/
structure Tells (m : Comment) (trail : List CommentHistory) (bodies : List String) : Prop where
  lists : trail.map CommentHistory.body = bodies
  current : bodies.getLast? = some m.body
  owner : ∀ h ∈ trail, h.author = m.author ∧ h.cardId = m.cardId
  marks : trail.map (fun h => h.deletedAt.isSome) = List.replicate (bodies.length - 1) false ++
    [m.deletedAt.isSome]

/-- The comments and their trails. -/
def talk (t : Tables) : Table Comment × Table CommentHistory := (t.comments, t.commentHistory)

theorem workBlind_talk : WorkBlind talk := fun _ _ _ => rfl

theorem columnBlind_talk : ColumnBlind talk := fun _ _ => rfl

theorem siteBlind_talk : SiteBlind talk := ⟨fun _ _ _ => rfl, fun _ _ _ _ _ => rfl⟩

/-- A comment that is not there has no trail. -/
theorem trail_eq_nil (h : db.comments.find? id = none) :
    listCommentHistory db.toTables id = [] := by
  refine List.filter_eq_nil_iff.mpr fun r hr hid => ?_
  have hfound : db.hasComment r.commentId = true := (db.foreignKeysOk.2.2.2.2.1 r hr).1
  rw [beq_iff_eq.mp hid, Tables.hasComment, h] at hfound
  cases hfound

/-! ## Adding -/

/-- Comments have been added, each with its first entry; nothing else has changed. -/
structure Adds (t t' : Tables) : Prop where
  kept : ∀ id m, t.comments.find? id = some m → t'.comments.find? id = some m
  trail : ∀ id, (t.comments.find? id).isSome → listCommentHistory t' id = listCommentHistory t id
  fresh : ∀ id m, t.comments.find? id = none → t'.comments.find? id = some m →
    m.deletedAt = none ∧ Tells m (listCommentHistory t' id) [m.body] ∧
    ∀ k, (t.comments.find? k).isSome → k < id

theorem Adds.of_talk {t t' : Tables} (h : talk t' = talk t) : Adds t t' := by
  obtain ⟨hcomments, hhistory⟩ :=
    Prod.mk.inj (show (t'.comments, t'.commentHistory) = (t.comments, t.commentHistory) from h)
  have htrail (id : Int) : listCommentHistory t' id = listCommentHistory t id := by
    rw [listCommentHistory, hhistory]
    rfl
  refine ⟨fun id m hm => hcomments ▸ hm, fun id _ => htrail id, fun id m hnone hsome => ?_⟩
  rw [hcomments, hnone] at hsome
  cases hsome

theorem Adds.refl (t : Tables) : Adds t t := .of_talk rfl

theorem Adds.trans {t t' t'' : Tables} (h : Adds t t') (h' : Adds t' t'') : Adds t t'' where
  kept id m hm := h'.kept id m (h.kept id m hm)
  trail id hsome := by
    obtain ⟨m, hm⟩ := Option.isSome_iff_exists.mp hsome
    rw [h'.trail id (Option.isSome_iff_exists.mpr ⟨m, h.kept id m hm⟩), h.trail id hsome]
  fresh id m hnone hsome := by
    cases hmid : t'.comments.find? id with
    | none =>
        obtain ⟨hdeleted, htells, hbelow⟩ := h'.fresh id m hmid hsome
        refine ⟨hdeleted, htells, fun k hk => hbelow k ?_⟩
        obtain ⟨r, hr⟩ := Option.isSome_iff_exists.mp hk
        exact Option.isSome_iff_exists.mpr ⟨r, h.kept k r hr⟩
    | some m₁ =>
        rw [h'.kept id m₁ hmid, Option.some.injEq] at hsome
        subst hsome
        rw [h'.trail id (by rw [hmid]; rfl)]
        exact h.fresh id m₁ hnone hmid

/-- Comments have been added to the store. -/
def AddsDb (db db' : Db) : Prop := Adds db.toTables db'.toTables

instance : Std.Refl AddsDb := ⟨fun db => .refl db.toTables⟩

instance : IsTrans Db AddsDb := ⟨fun _ _ _ h h' => h.trans h'⟩

theorem adds_keeps {α : Type} {x : StoreM α} (h : KeepsTables talk x) : Respects AddsDb x :=
  h.mono fun _ _ hst => .of_talk hst

/-- The row of a new comment. -/
def newComment (conn : Conn) (cardId : Int) (author body : String) (id : Int) : Comment :=
  { id, cardId, author, body, createdAt := conn.now, deletedAt := none }

/-- What `comments_audit_insert` records of a new comment. -/
def firstEntry (conn : Conn) (commentId cardId : Int) (author body : String) (id : Int) :
    CommentHistory :=
  { id, commentId, cardId, author, body, createdAt := conn.now, deletedAt := none }

theorem insertComment_ok {cardId : Int} {author body : String} {k : Int}
    (h : insertComment conn cardId author body db = .ok k db') :
    k = db.comments.nextKey ∧ db'.toTables = { db.toTables with
      comments := db.comments.insert (newComment conn cardId author body)
      commentHistory := db.commentHistory.insert
        (firstEntry conn db.comments.nextKey cardId author body) } := by
  simp only [insertComment, bind_ok, get_ok, exec_ok, pure_ok] at h
  obtain ⟨_, _, ⟨rfl, rfl⟩, _, _, htables, rfl, rfl⟩ := h
  exact ⟨rfl, htables⟩

theorem trail_insert {t : Tables} {row : Int → CommentHistory} {hkey}
    {comments : Table Comment} (id : Int) :
    listCommentHistory { t with
      comments := comments, commentHistory := t.commentHistory.insert row hkey } id =
      listCommentHistory t id ++ [row t.commentHistory.nextKey].filter fun h =>
        h.commentId == id := by
  simp only [listCommentHistory, Table.select, Table.insert, List.filter_append]

theorem insertComment_atomic (cardId : Int) (author body : String) :
    Atomic (insertComment conn cardId author body) :=
  readOnly_get.bind_atomic fun _ => (exec_atomic _).bind_total fun _ => total_pure _

theorem adds_insertComment (conn : Conn) (cardId : Int) (author body : String) :
    Respects AddsDb (insertComment conn cardId author body) := by
  refine (insertComment_atomic cardId author body).respects fun db k db' h => ?_
  obtain ⟨-, htables⟩ := insertComment_ok h
  have hnext : db.comments.find? db.comments.nextKey = none := Table.find?_nextKey db.comments
  have hfind (id : Int) : db'.comments.find? id = if id = db.comments.nextKey then
      some (newComment conn cardId author body db.comments.nextKey) else db.comments.find? id := by
    rw [htables]
    exact @Table.find?_insert _ _ db.comments (newComment conn cardId author body) (fun _ => rfl) id
  have htrail (id : Int) : listCommentHistory db'.toTables id = listCommentHistory db.toTables id ++
      [firstEntry conn db.comments.nextKey cardId author body db.commentHistory.nextKey].filter
        fun h => h.commentId == id := by
    rw [htables]
    exact trail_insert id
  have hnew (id : Int) (hsome : (db.comments.find? id).isSome) : id ≠ db.comments.nextKey := by
    rintro rfl
    rw [hnext] at hsome
    cases hsome
  constructor
  · intro id m hm
    rw [hfind, if_neg (hnew id (hm ▸ rfl)), hm]
  · intro id hsome
    rw [htrail]
    simp [firstEntry, (hnew id hsome).symm]
  · intro id m hnone hsome
    rw [hfind, hnone] at hsome
    obtain ⟨rfl, rfl⟩ : id = db.comments.nextKey ∧
        newComment conn cardId author body db.comments.nextKey = m := by
      split at hsome
      · next heq => exact ⟨heq, Option.some.inj hsome⟩
      · cases hsome
    refine ⟨rfl, ?_, fun k hk => ?_⟩
    · rw [htrail, trail_eq_nil hnext]
      constructor <;> simp [firstEntry, newComment]
    · obtain ⟨r, hr⟩ := Option.isSome_iff_exists.mp hk
      exact Table.key_of_find? hr ▸ Table.lt_nextKey (Table.mem_of_find? hr)

theorem adds_addComment (conn : Conn) (cardId : Int) (author body : String) :
    Respects AddsDb (addComment conn cardId author body) :=
  (readOnly_requireCard cardId).respects.bind fun _ =>
    (adds_insertComment conn cardId author body).bind fun _ =>
    (readOnly_lookup _ _).respects

theorem adds_insertComments (conn : Conn) (cardId : Int) (comments : List (String × String)) :
    Respects AddsDb (insertComments conn cardId comments) := by
  induction comments with
  | nil => exact respects_pure ()
  | cons comment comments ih =>
      exact (adds_insertComment conn cardId comment.1 comment.2).bind fun _ => ih

theorem adds_finalizeRunUow (p : FinalizeRun) : Respects AddsDb (finalizeRunUow conn p) := by
  refine Respects.bind (Respects.transaction ?_) fun ids =>
    (readOnly_requireCard _).respects.bind fun _ =>
    (readOnly_getRun _).respects.bind fun _ => (readOnly_getNextRun _).respects.bind fun _ =>
      respects_pure _
  refine readOnly_get.respects.bind fun db => (readOnly_okOr _ _).respects.bind fun run => ?_
  refine (readOnly_checkNext _ _).respects.bind fun _ =>
    (adds_keeps (keeps_updateRuns workBlind_talk)).bind fun _ => ?_
  refine (readOnly_lifecycleFault conn _).respects.bind fun _ =>
    (adds_insertComments conn _ _).bind fun _ => ?_
  refine (adds_keeps (keeps_applyTransition (placeBlind_of_workBlind workBlind_talk) _ _)).bind
    fun _ => ?_
  refine (adds_keeps (keeps_writeCards workBlind_talk)).bind fun _ => ?_
  exact (adds_keeps (keeps_insertNext workBlind_talk _ _)).bind fun _ => respects_pure _

/-! ## Editing and deleting -/

/-- One comment has another body, and one more entry. -/
structure Edits (id : Int) (body : String) (t t' : Tables) : Prop where
  there : ∃ m h, t.comments.find? id = some m ∧ m.author ≠ "system" ∧ m.deletedAt = none ∧
    t'.comments.find? id = some { m with body := body } ∧
    listCommentHistory t' id = listCommentHistory t id ++ [h] ∧
    h.body = body ∧ h.author = m.author ∧ h.cardId = m.cardId ∧ h.deletedAt = none
  others : ∀ k, k ≠ id → t'.comments.find? k = t.comments.find? k ∧
    listCommentHistory t' k = listCommentHistory t k

/-- One comment is marked deleted, and so is its last entry. -/
structure Marks (id : Int) (t t' : Tables) : Prop where
  there : ∃ m now, t.comments.find? id = some m ∧ m.author ≠ "system" ∧ m.deletedAt = none ∧
    t'.comments.find? id = some { m with deletedAt := some now } ∧
    ∀ l h, listCommentHistory t id = l ++ [h] →
      listCommentHistory t' id = l ++ [{ h with deletedAt := some now }]
  others : ∀ k, k ≠ id → t'.comments.find? k = t.comments.find? k ∧
    listCommentHistory t' k = listCommentHistory t k

theorem edits_updateComment {body : String} (h : updateComment conn id body db = .ok m db') :
    Edits id body db.toTables db'.toTables := by
  simp only [updateComment, bind_ok, requireComment_ok, refuse_ok, transaction_ok, get_ok, exec_ok]
    at h
  obtain ⟨current, _, ⟨hcurrent, rfl⟩, _, _, ⟨hauthor, rfl⟩, _, _, ⟨hdeleted, rfl⟩, _, logged,
    ⟨_, _, ⟨rfl, rfl⟩, _, edited, hedited, _, _, ⟨-, rfl⟩, hlogged⟩, -, rfl⟩ := h
  have hid : current.id = id := Table.key_of_find? hcurrent
  have hlive : current.deletedAt = none := by simpa using hdeleted
  have hcomments : logged.comments =
      db.comments.update (fun m => m.id == id && m.deletedAt.isNone) fun m =>
        { m with body := body } := by
    rw [hlogged, hedited]
  have htrail (k : Int) : listCommentHistory logged.toTables k = listCommentHistory db.toTables k ++
      [(⟨edited.commentHistory.nextKey, id, current.cardId, current.author, body, conn.now, none⟩ :
        CommentHistory)].filter fun h => h.commentId == k := by
    rw [hlogged, hedited]
    exact trail_insert k
  refine ⟨⟨current, ⟨edited.commentHistory.nextKey, id, current.cardId, current.author, body,
    conn.now, none⟩, hcurrent, hauthor, hlive, ?_, ?_, rfl, rfl, rfl, rfl⟩, fun k hk => ⟨?_, ?_⟩⟩
  · simp [hcomments, Table.find?_update, hcurrent, hid, hlive]
  · simp [htrail]
  · rw [hcomments, Table.find?_update]
    cases hfound : db.comments.find? k with
    | none => rfl
    | some r =>
        have hkey : r.id = k := Table.key_of_find? hfound
        simp [hkey, hk]
  · simp [htrail, hk.symm]

/-- The entries of one comment, and of two comments, have different ids. -/
theorem trail_ids {t : Tables} {l : List CommentHistory} {h : CommentHistory}
    (hlast : listCommentHistory t id = l ++ [h]) :
    (∀ r ∈ l, r.id ≠ h.id) ∧ ∀ k, k ≠ id → ∀ r ∈ listCommentHistory t k, r.id ≠ h.id := by
  have hmem : h ∈ listCommentHistory t id := by simp [hlast]
  obtain ⟨hin, hcomment⟩ := Table.mem_select.mp hmem
  constructor
  · intro r hr heq
    have hascending : (listCommentHistory t id).Pairwise fun a b => Keyed.key a < Keyed.key b :=
      t.commentHistory.ascending.sublist List.filter_sublist
    rw [hlast, List.pairwise_append] at hascending
    exact absurd heq (hascending.2.2 r hr h (by simp)).ne
  · intro k hk r hr heq
    obtain ⟨hin', hcomment'⟩ := Table.mem_select.mp hr
    cases Table.eq_of_key_eq hin' hin heq
    exact hk ((beq_iff_eq.mp hcomment').symm.trans (beq_iff_eq.mp hcomment))

theorem marks_softDeleteComment (h : softDeleteComment conn id db = .ok m db') :
    Marks id db.toTables db'.toTables := by
  simp only [softDeleteComment, bind_ok, requireComment_ok, refuse_ok, transaction_ok, get_ok,
    exec_ok] at h
  obtain ⟨current, _, ⟨hcurrent, rfl⟩, _, _, ⟨hauthor, rfl⟩, _, _, ⟨hdeleted, rfl⟩, _, logged,
    ⟨_, marked, hmarked, _, _, ⟨rfl, rfl⟩, hlogged⟩, -, rfl⟩ := h
  have hid : current.id = id := Table.key_of_find? hcurrent
  have hlive : current.deletedAt = none := by simpa using hdeleted
  have hcomments : logged.comments = db.comments.update (fun m => m.id == id) fun m =>
      { m with deletedAt := some conn.now } := by
    rw [hlogged, hmarked]
  have htrail (k : Int) :
      listCommentHistory logged.toTables k = (listCommentHistory db.toTables k).map fun h =>
      if some h.id == (listCommentHistory db.toTables id).getLast?.map CommentHistory.id then
        { h with deletedAt := some conn.now } else h := by
    have hhistory : logged.commentHistory = db.commentHistory.update
        (fun h => some h.id == (listCommentHistory db.toTables id).getLast?.map CommentHistory.id)
        fun h => { h with deletedAt := some conn.now } := by
      rw [hlogged, hmarked]
      rfl
    rw [listCommentHistory, hhistory]
    exact Table.select_update (f :=
      fun h : CommentHistory => { h with deletedAt := some conn.now }) fun _ => rfl
  refine ⟨⟨current, conn.now, hcurrent, hauthor, hlive, ?_, fun l h hlast => ?_⟩,
    fun k hk => ⟨?_, ?_⟩⟩
  · simp [hcomments, Table.find?_update, hcurrent, hid]
  · have hfresh := (trail_ids hlast).1
    rw [htrail, hlast, List.map_append]
    congr 1
    · refine (List.map_congr_left fun r hr => if_neg ?_).trans (List.map_id l)
      simpa using hfresh r hr
    · simp
  · rw [hcomments, Table.find?_update]
    cases hfound : db.comments.find? k with
    | none => rfl
    | some r =>
        have hkey : r.id = k := Table.key_of_find? hfound
        simp [hkey, hk]
  · rw [htrail]
    rcases List.eq_nil_or_concat (listCommentHistory db.toTables id) with hnil | ⟨l, h, hlast⟩
    · simp [hnil]
    · rw [List.concat_eq_append] at hlast
      refine (List.map_congr_left fun r hr => if_neg ?_).trans (List.map_id _)
      simpa [hlast] using (trail_ids hlast).2 k hk r hr

/-! ## Deleting the card -/

/-- The comments of one card are gone. -/
structure Drops (cardId : Int) (t t' : Tables) : Prop where
  comments : ∀ k, t'.comments.find? k = (t.comments.find? k).filter fun m => m.cardId != cardId
  trail : ∀ k m, t.comments.find? k = some m → m.cardId ≠ cardId →
    listCommentHistory t' k = (listCommentHistory t k).filter fun h => h.cardId != cardId

theorem drops_deleteCardRow {cardId : Int} {u : Unit} (h : deleteCardRow cardId db = .ok u db') :
    Drops cardId db.toTables db'.toTables := by
  have htables := exec_ok.mp h
  constructor
  · intro k
    have hcomments : db'.comments = db.comments.delete fun m => m.cardId == cardId := by
      rw [htables]
    rw [hcomments]
    exact Table.find?_delete k
  · intro k m hm hcard
    have hhistory : db'.commentHistory = db.commentHistory.delete fun h =>
        h.cardId == cardId || (db.comments.select fun m => m.cardId == cardId).any fun m =>
          m.id == h.commentId := by
      rw [htables]
    rw [listCommentHistory, hhistory]
    show List.filter _ (List.filter _ _) = List.filter _ (List.filter _ _)
    rw [List.filter_filter, List.filter_filter]
    refine List.filter_congr fun r _ => ?_
    cases hk : r.commentId == k with
    | false => simp
    | true =>
      -- no comment of the deleted card has the id of this one
      have hother : ((db.comments.select fun m => m.cardId == cardId).any fun m =>
          m.id == r.commentId) = false := by
        refine List.any_eq_false.mpr fun m' hm' hid => ?_
        obtain ⟨hin, hcard'⟩ := Table.mem_select.mp hm'
        have hsame : m' = m := Table.eq_of_key_eq hin (Table.mem_of_find? hm)
          ((beq_iff_eq.mp hid).trans ((beq_iff_eq.mp hk).trans (Table.key_of_find? hm).symm))
        exact hcard (hsame ▸ beq_iff_eq.mp hcard')
      simp [hother, bne]

/-! ## One step of a conversation -/

/-- What a step has done to the comments, and which comment it gave a body by an edit. -/
inductive Speaks (t t' : Tables) : Option Int → Prop
  | adds (h : Adds t t') : Speaks t t' none
  | edits {id : Int} {body : String} (h : Edits id body t t') : Speaks t t' (some id)
  | marks {id : Int} (h : Marks id t t') : Speaks t t' none
  | drops {cardId : Int} (h : Drops cardId t t') : Speaks t t' none

/-- The bodies a comment has had, once a step has been taken. -/
def bodiesAfter (edited : Bool) (before after : Option Comment) (bodies : List String) :
    List String :=
  match before, after with
  | none, some m => [m.body]
  | some old, some m => if edited || m.body != old.body then bodies ++ [m.body] else bodies
  | _, none => []

variable {t t' : Tables} {e : Option Int}

/-- A comment keeps its owner; a comment of the system, or a deleted one, is left as it is. -/
theorem Speaks.keeps (h : Speaks t t' e) (hm : t.comments.find? id = some m)
    (hm' : t'.comments.find? id = some m') :
    m'.author = m.author ∧ m'.cardId = m.cardId ∧
    (m.author = "system" ∨ m.deletedAt.isSome → m' = m) := by
  have hsame (heq : t'.comments.find? id = t.comments.find? id) : m' = m := by
    rw [hm, hm', Option.some.injEq] at heq
    exact heq
  cases h with
  | adds h =>
      rw [hsame ((h.kept id m hm).trans hm.symm)]
      exact ⟨rfl, rfl, fun _ => rfl⟩
  | @edits id' body h =>
      by_cases hid : id = id'
      · subst hid
        obtain ⟨m₁, _, hbefore, hauthor, hlive, hafter, -⟩ := h.there
        rw [hm, Option.some.injEq] at hbefore
        rw [hm', Option.some.injEq] at hafter
        subst hbefore hafter
        exact ⟨rfl, rfl, fun hfixed => by simp [hauthor, hlive] at hfixed⟩
      · rw [hsame (h.others id hid).1]
        exact ⟨rfl, rfl, fun _ => rfl⟩
  | @marks id' h =>
      by_cases hid : id = id'
      · subst hid
        obtain ⟨m₁, _, hbefore, hauthor, hlive, hafter, -⟩ := h.there
        rw [hm, Option.some.injEq] at hbefore
        rw [hm', Option.some.injEq] at hafter
        subst hbefore hafter
        exact ⟨rfl, rfl, fun hfixed => by simp [hauthor, hlive] at hfixed⟩
      · rw [hsame (h.others id hid).1]
        exact ⟨rfl, rfl, fun _ => rfl⟩
  | drops h =>
      have hkept := h.comments id
      rw [hm, hm'] at hkept
      have heq : m' = m := (Option.filter_eq_some_iff.mp hkept.symm).1 |> Option.some.inj |> Eq.symm
      rw [heq]
      exact ⟨rfl, rfl, fun _ => rfl⟩

/-- A new comment has an id above all that are in use. -/
theorem Speaks.above (h : Speaks t t' e) (hm : t.comments.find? id = none)
    (hm' : t'.comments.find? id = some m') {k : Int}
    (hk : (t.comments.find? k).isSome) : k < id := by
  have hnot (heq : t'.comments.find? id = t.comments.find? id) : False := by
    rw [hm, hm'] at heq
    cases heq
  cases h with
  | adds h => exact (h.fresh id m' hm hm').2.2 k hk
  | @edits id' body h =>
      by_cases hid : id = id'
      · subst hid
        obtain ⟨_, _, hbefore, -⟩ := h.there
        rw [hm] at hbefore
        cases hbefore
      · exact absurd (h.others id hid).1 hnot
  | @marks id' h =>
      by_cases hid : id = id'
      · subst hid
        obtain ⟨_, _, hbefore, -⟩ := h.there
        rw [hm] at hbefore
        cases hbefore
      · exact absurd (h.others id hid).1 hnot
  | drops h => exact absurd (by rw [h.comments, hm, Option.filter_none]) hnot

theorem bodiesAfter_same (m : Comment) (bodies : List String) :
    bodiesAfter false (some m) (some m) bodies = bodies := by
  simp [bodiesAfter]

theorem Tells.edited {entry : CommentHistory} {body : String} (h : Tells m trail bodies)
    (hlive : m.deletedAt = none) (hbody : entry.body = body) (hauthor : entry.author = m.author)
    (hcard : entry.cardId = m.cardId) (hentry : entry.deletedAt = none) :
    Tells { m with body := body } (trail ++ [entry]) (bodies ++ [body]) where
  lists := by simp [h.lists, hbody]
  current := by simp
  owner r hr := by
    rcases List.mem_append.mp hr with hr | hr
    · exact h.owner r hr
    · rw [List.mem_singleton.mp hr]
      exact ⟨hauthor, hcard⟩
  marks := by
    have hpos : 0 < bodies.length := by
      rw [List.length_pos_iff]
      rintro rfl
      cases h.current
    have hmarks := h.marks
    rw [hlive] at hmarks
    rw [List.map_append, hmarks]
    have hreplicate : List.replicate (bodies.length - 1) false ++ [false] =
        List.replicate bodies.length false := by
      rw [← List.replicate_succ', Nat.sub_add_cancel hpos]
    simp [hentry, hlive, hreplicate]

theorem Tells.marked {now : String} {l : List CommentHistory} {entry : CommentHistory}
    (h : Tells m (l ++ [entry]) bodies) (hlive : m.deletedAt = none) :
    Tells { m with deletedAt := some now }
      (l ++ [{ entry with deletedAt := some now }]) bodies where
  lists := by simpa using h.lists
  current := h.current
  owner r hr := by
    rcases List.mem_append.mp hr with hr | hr
    · exact h.owner r (List.mem_append_left _ hr)
    · rw [List.mem_singleton.mp hr]
      exact h.owner entry (by simp)
  marks := by
    have hmarks := h.marks
    rw [List.map_append, hlive] at hmarks
    have hinit := (List.append_inj' hmarks rfl).1
    simp [hinit]

/-- The trails still tell the bodies of their comments. -/
theorem Speaks.tells (h : Speaks t t' e) (htells : ∀ m, t.comments.find? id = some m →
    Tells m (listCommentHistory t id) bodies) (hm' : t'.comments.find? id = some m') :
    Tells m' (listCommentHistory t' id)
      (bodiesAfter (e == some id) (t.comments.find? id) (t'.comments.find? id) bodies) := by
  have hsame (hfind : t'.comments.find? id = t.comments.find? id)
      (htrail : listCommentHistory t' id = listCommentHistory t id)
      (he : (e == some id) = false) : Tells m' (listCommentHistory t' id)
        (bodiesAfter (e == some id) (t.comments.find? id) (t'.comments.find? id) bodies) := by
    rw [hfind] at hm' ⊢
    rw [htrail, he, hm', bodiesAfter_same]
    exact htells m' hm'
  cases h with
  | adds h =>
      cases hbefore : t.comments.find? id with
      | none =>
          rw [hm']
          exact (h.fresh id m' hbefore hm').2.1
      | some m =>
          have hkept := h.kept id m hbefore
          rw [← hbefore]
          exact hsame (hkept.trans hbefore.symm) (h.trail id (by rw [hbefore]; rfl)) (by simp)
  | @edits id' body h =>
      by_cases hid : id = id'
      · subst hid
        obtain ⟨m, entry, hbefore, -, hlive, hafter, htrail, hbody, hauthor, hcard, hentry⟩ :=
          h.there
        rw [hm', Option.some.injEq] at hafter
        subst hafter
        have hbodies : bodiesAfter (some id == some id) (t.comments.find? id)
            (t'.comments.find? id) bodies = bodies ++ [body] := by
          simp [hbefore, hm', bodiesAfter]
        rw [hbodies, htrail]
        exact (htells m hbefore).edited hlive hbody hauthor hcard hentry
      · exact hsame (h.others id hid).1 (h.others id hid).2 (by simpa using fun heq => hid heq.symm)
  | @marks id' h =>
      by_cases hid : id = id'
      · subst hid
        obtain ⟨m, now, hbefore, -, hlive, hafter, htrail⟩ := h.there
        rw [hm', Option.some.injEq] at hafter
        subst hafter
        have htold := htells m hbefore
        rcases List.eq_nil_or_concat (listCommentHistory t id) with hnil | ⟨l, entry, hlast⟩
        · have hempty := htold.lists
          rw [hnil] at hempty
          rw [← hempty] at htold
          cases htold.current
        · rw [List.concat_eq_append] at hlast
          rw [hlast] at htold
          rw [htrail l entry hlast]
          have hbodies : bodiesAfter ((none : Option Int) == some id) (t.comments.find? id)
              (t'.comments.find? id) bodies =
              bodies := by simp [hbefore, hm', bodiesAfter]
          rw [hbodies]
          exact htold.marked hlive
      · exact hsame (h.others id hid).1 (h.others id hid).2 (by simp)
  | @drops cardId h =>
      have hkept := h.comments id
      rw [hm'] at hkept
      obtain ⟨hbefore, hcard⟩ := Option.filter_eq_some_iff.mp hkept.symm
      have hcard : m'.cardId ≠ cardId := by simpa using hcard
      refine hsame (hm'.trans hbefore.symm) ((h.trail id m' hbefore hcard).trans ?_) (by simp)
      refine List.filter_eq_self.mpr fun r hr => ?_
      rw [((htells m' hbefore).owner r hr).2]
      simpa using hcard

end HerdrBoard.Comments
