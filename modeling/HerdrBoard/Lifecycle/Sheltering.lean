import HerdrBoard.Lifecycle.Shelter
import HerdrBoard.Lifecycle.Launches

/-!
# What keeps open runs sheltered

Archiving looks for open runs first, and whatever enqueues a run looks at the card, its board and
its project in the same lock scope, except the creation of a card. -/

open Lib HerdrBoard.Core HerdrBoard.Daemon HerdrBoard.Projects

namespace HerdrBoard.Lifecycle

variable {C : Int → Prop} {conn : Conn} {db db' : Db} {c b P : Int}

def KeepsShelter (db db' : Db) : Prop := AllSheltered db.toTables → AllSheltered db'.toTables

instance : Std.Refl KeepsShelter := ⟨fun _ => id⟩

instance : IsTrans Db KeepsShelter := ⟨fun _ _ _ h h' hs => h' (h hs)⟩

theorem keepsShelter_of_calm (h : CalmDb C db db') (hC : ∀ c, C c → Sheltered db.toTables c) :
    KeepsShelter db db' :=
  h.allSheltered hC

theorem keepsShelter_of_idle (h : CalmDb (fun _ => False) db db') : KeepsShelter db db' :=
  keepsShelter_of_calm h fun _ h => h.elim

theorem openOn_iff_openRunForCard : OpenOn db.toTables c ↔ (db.openRunForCard c).isSome := by
  rw [openOn_iff, Db.openRunForCard, List.getLast?_isSome]
  constructor
  · rintro ⟨r, hr, hcard, hopen⟩
    exact List.ne_nil_of_mem (Table.mem_select.mpr ⟨hr, by simp [hcard, hopen]⟩)
  · intro hne
    obtain ⟨r, hr⟩ := List.exists_mem_of_ne_nil _ hne
    obtain ⟨hr, hmatch⟩ := Table.mem_select.mp hr
    exact ⟨r, hr, by simpa using hmatch⟩

/-! ## Archiving -/

theorem calm_setCardArchived {id : Int} {archived : Bool}
    (hclosed : archived = true → ¬OpenOn db.toTables id) :
    CalmDb (fun _ => False) db (finalState (setCardArchived conn id archived db)) := by
  refine (readOnly_requireCard id).bind_at fun _ _ => ?_
  refine bind_at (updateCards_atomic.at fun _ mid h => ?_) fun _ mid _ =>
    (readOnly_requireCard id).respects mid
  obtain ⟨htab, -⟩ := updateCards_ok.mp h
  unfold CalmDb
  rw [htab]
  refine ⟨fun c hc => .inl hc, fun c hc hs => ?_⟩
  obtain ⟨b, P, hhome, hboard, hproject⟩ := hs
  obtain ⟨card, hcard, hid, hb, hactive⟩ := mem_homes.mp hhome
  have hkept := mem_homes_update (t := db.toTables) (p := fun c => c.id == id)
    (f := fun c =>
        { c with archivedAt := if archived then some conn.now else none, updatedAt := conn.now })
    (fun _ => rfl) hcard
  refine ⟨b, P, ?_, hboard, hproject⟩
  by_cases heq : card.id = id
  · cases archived with
    | true => exact absurd (hc.resolve_right not_false) (hid.symm.trans heq ▸ hclosed rfl)
    | false => simpa [heq, hid.symm, hb] using hkept
  · have hne : c ≠ id := hid ▸ heq
    simpa [hne, hid, hb, hactive] using hkept

/-- Writing the picker and archiving or restoring boards and projects leaves the cards
where they are. -/
theorem calm_of_sites {t t' : Tables} (hhomes : t'.homes = t.homes)
    (hruns : t'.occupants = t.occupants)
    (hboards : ∀ c b P, OpenOn t c → (c, b, false) ∈ t.homes → t.BoardIs b P false →
      t'.BoardIs b P false)
    (hprojects : ∀ b P, t.BoardIs b P false → t.ProjectIs P false → t'.ProjectIs P false) :
    Calm (fun _ => False) t t' := by
  have hopen : ∀ c, OpenOn t' c → OpenOn t c := by
    intro c hc
    unfold OpenOn at hc ⊢
    rwa [hruns] at hc
  refine ⟨fun c hc => .inl (hopen c hc), fun c hc hs => ?_⟩
  obtain ⟨b, P, hhome, hboard, hproject⟩ := hs
  have hc := hopen c (hc.resolve_right not_false)
  exact ⟨b, P, hhomes ▸ hhome, hboards c b P hc hhome hboard, hprojects b P hboard hproject⟩

theorem boardHasOpenRun_of_open (hopen : OpenOn db.toTables c) {a : Bool}
    (hhome : (c, b, a) ∈ db.homes) : db.boardHasOpenRun b = true := by
  obtain ⟨r, hr, rfl, hropen⟩ := openOn_iff.mp hopen
  obtain ⟨card, hcard, hid, rfl, -⟩ := mem_homes.mp hhome
  have hfind : db.card? r.cardId = some card := hid ▸ Table.find?_key hcard
  exact List.any_eq_true.mpr ⟨r, hr, by simp [hropen, hfind]⟩

theorem calm_setBoardArchived (b : Int) (archived : Bool) :
    CalmDb (fun _ => False) db (finalState (setBoardArchived conn b archived db)) := by
  cases hb : db.board? b with
  | none =>
      have hsame : finalState (setBoardArchived conn b archived db) = db :=
        (readOnly_getBoard b).finalState_bind_of_fails fun board h => by simp [hb] at h
      exact hsame.symm ▸ refl_of (CalmDb _) db
  | some board =>
      cases (show board.id = b from Table.key_of_find? hb)
      by_cases hstays : BoardStays db board archived
      · rw [board_stays hb hstays]
        exact refl_of (CalmDb _) db
      · obtain ⟨db₁, h₁, hfinal⟩ := board_archives conn hb hstays
        unfold CalmDb
        rw [hfinal, h₁]
        refine calm_of_sites rfl rfl (fun c b' P hopen hhome hboard => ?_) fun b P _ hproject =>
          hproject
        refine boardIs_archiveBoard.mpr ⟨false, hboard, ?_⟩
        split
        next heq =>
          cases archived with
          | false => rfl
          | true =>
              have hrun := boardHasOpenRun_of_open hopen (heq ▸ hhome)
              exact absurd (boardStays_iff.mpr (.inr ⟨rfl, hrun⟩)) hstays
        · rfl

theorem calm_setProjectArchived (scopePath : String) (archived : Bool) :
    CalmDb (fun _ => False) db (finalState (setProjectArchived conn scopePath archived db)) := by
  cases hp : db.projectByScope scopePath with
  | none =>
      have hsame : finalState (setProjectArchived conn scopePath archived db) = db :=
        (readOnly_requireProjectByScope scopePath).finalState_bind_of_fails fun project h => by
          simp [requireProjectByScope, hp] at h
      exact hsame.symm ▸ refl_of (CalmDb _) db
  | some project =>
      by_cases hstays : ProjectStays db project archived
      · rw [project_stays hp hstays]
        exact refl_of (CalmDb _) db
      · obtain ⟨db₁, h₁, hfinal⟩ := project_archives conn hp hstays
        unfold CalmDb
        rw [hfinal, h₁]
        refine calm_of_sites rfl rfl (fun _ _ _ _ _ hboard => hboard) fun b P hboard hproject => ?_
        refine projectIs_archiveProject.mpr ⟨false, hproject, ?_⟩
        split
        next heq =>
          cases archived with
          | false => rfl
          | true =>
              exact absurd (activeBoards_of_archives hstays)
                (heq ▸ boardIs_iff_mem_activeBoards.mp ⟨b, hboard⟩)
        · rfl

theorem calm_of_enters {α : Type} {x : StoreM α} (hwork : KeepsTables Tables.work x)
    (h : Respects EntersDb x) : Respects (CalmDb (fun _ => False)) x := by
  intro db
  have hsame := hwork db
  have henters := h db
  simp only [SameBy, Tables.work, Prod.mk.injEq] at hsame
  have hhomes : (finalState (x db)).homes = db.homes := by simp only [Tables.homes, hsame.1]
  have hruns : (finalState (x db)).occupants = db.occupants := by
    simp only [Tables.occupants, hsame.2]
  exact calm_of_sites hhomes hruns (fun _ _ _ _ _ => henters.boards) fun _ _ _ => henters.projects

/-! ## Where a run may start -/

/-- Neither the board nor its project is archived. -/
def ActiveSite (t : Tables) (b : Int) : Prop := ∃ P, t.BoardIs b P false ∧ t.ProjectIs P false

theorem activeSite_of_rows {board : Board} {project : Project} (hboard : db.board? b = some board)
    (hb : board.archivedAt.isSome = false) (hproject : db.project? board.projectId = some project)
    (hP : project.archivedAt.isSome = false) : ActiveSite db.toTables b :=
  ⟨board.projectId,
    Tables.boardIs_iff.mpr ⟨board, Table.mem_of_find? hboard, Table.key_of_find? hboard, rfl, hb⟩,
    Tables.projectIs_iff.mpr
      ⟨project, Table.mem_of_find? hproject, Table.key_of_find? hproject, hP⟩⟩

theorem sheltered_of_site {card : Card} (hcard : db.card? c = some card)
    (hactive : card.archivedAt.isSome = false)
    (hsite : ActiveSite db.toTables card.boardId) : Sheltered db.toTables c := by
  obtain ⟨P, hboard, hproject⟩ := hsite
  exact ⟨card.boardId, P,
    mem_homes.mpr ⟨card, Table.mem_of_find? hcard, Table.key_of_find? hcard, rfl, hactive⟩,
    hboard, hproject⟩

theorem activeSite_of_checkNotArchived {card : Card} {columnId : Int} {u : Unit}
    (h : checkNotArchived card columnId db = .ok u db') : ActiveSite db.toTables card.boardId := by
  simp only [checkNotArchived, bind_ok, getBoard_ok, getProject_ok, refuse_ok] at h
  obtain ⟨board, _, ⟨hboard, rfl⟩, _, _, ⟨hb, rfl⟩, project, _, ⟨hproject, rfl⟩, _, _, ⟨hP, rfl⟩,
    -⟩ := h
  exact activeSite_of_rows hboard (by simpa using hb) hproject (by simpa using hP)

variable {cfg : Config} {env : Env}

/-- A retried run starts on a sheltered card. -/
theorem keepsShelter_enqueueRun (cardId columnId : Int) (isRetry : Bool) (d : DaemonState) :
    KeepsShelter d.db (finalState (enqueueRun cfg env cardId columnId isRetry d)).db := by
  unfold enqueueRun
  rw [store, finalState_zoom]
  refine (readOnly_requireCard cardId).bind_at fun card hcard =>
    (readOnly_refuse _ _).bind_at fun _ harchived => ?_
  have hfind := (requireCard_ok.mp hcard).1
  refine (readOnly_checkNotArchived card columnId).bind_at fun _ hsite =>
    readOnly_get.bind_at fun _ _ => ?_
  refine (readOnly_refuse _ _).bind_at fun _ _ => (readOnly_refuse _ _).bind_at fun _ _ => ?_
  refine (readOnly_prepareEnqueueValues _ _ _).bind_at fun prepared hprepared => ?_
  have hid : prepared.cardId = cardId :=
    (prepared_columnId hprepared).2.trans (Table.key_of_find? hfind)
  refine keepsShelter_of_calm (calm_enqueueRunUow (C := fun c => c = cardId) _ hid d.db) fun c hc =>
    ?_
  have hactive : card.archivedAt.isSome = false := by simpa using (refuse_ok.mp harchived).1
  exact hc ▸ sheltered_of_site hfind hactive (activeSite_of_checkNotArchived hsite)

/-! ## Moving -/

/-- What the guards of a move find: the card, the target column, and active boards and projects. -/
structure MoveAllowed (db : Db) (current : Card) (columnId : Int) (target : Column) : Prop where
  active : current.archivedAt.isSome = false
  column : db.column? columnId = some target
  site : ActiveSite db.toTables target.boardId

theorem moveTarget_ok {current : Card} {columnId : Int} {target : Column}
    (h : moveTarget current columnId db = .ok target db') :
    MoveAllowed db current columnId target := by
  simp only [moveTarget, bind_ok, refuse_ok, getBoard_ok, getProject_ok, requireColumn_ok, pure_ok]
    at h
  obtain ⟨_, _, ⟨hactive, rfl⟩, _, _, ⟨-, rfl⟩, _, _, ⟨-, rfl⟩, column, _, ⟨hcolumn, rfl⟩, board, _,
    ⟨hboard, rfl⟩, _, _, ⟨hb, rfl⟩, project, _, ⟨hproject, rfl⟩, _, _, ⟨hP, rfl⟩, rfl, -⟩ := h
  exact ⟨by simpa using hactive, hcolumn,
    activeSite_of_rows hboard (by simpa using hb) hproject (by simpa using hP)⟩

/-- The card arrives on a board that is not archived, in a project that is not. -/
theorem rehomed {id board column : Int} {n : Nat} (hsite : ActiveSite db.toTables board)
    (h : updateCards (fun c => c.id == id)
      (fun c => { c with boardId := board, columnId := column, updatedAt := conn.now })
      (fun _ => rfl) db = .ok n db') :
    CalmDb C db db' ∧ ∀ card, db.card? id = some card → card.archivedAt.isSome = false →
      Sheltered db'.toTables id := by
  obtain ⟨htab, -⟩ := updateCards_ok.mp h
  obtain ⟨P, hboard, hproject⟩ := hsite
  unfold CalmDb
  rw [htab]
  have hhome := fun {card : Card} (hcard : card ∈ db.cards) =>
    mem_homes_update (t := db.toTables) (p := fun c => c.id == id)
      (f := fun c => { c with boardId := board, columnId := column, updatedAt := conn.now })
        (fun _ => rfl) hcard
  refine ⟨⟨fun c hc => .inl hc, fun c _ hs => ?_⟩, fun card hcard hactive => ?_⟩
  · obtain ⟨b', P', hold, hboard', hproject'⟩ := hs
    obtain ⟨card, hcard, hid, hb, hactive⟩ := mem_homes.mp hold
    have hnew := hhome hcard
    by_cases heq : card.id = id
    · exact ⟨board, P, by simpa [heq, hid.symm, hactive] using hnew, hboard, hproject⟩
    · have hne : c ≠ id := hid ▸ heq
      exact ⟨b', P', by simpa [hne, hid, hb, hactive] using hnew, hboard', hproject'⟩
  · have hnew := hhome (Table.mem_of_find? hcard)
    have hid : card.id = id := Table.key_of_find? hcard
    exact ⟨board, P, by simpa [hid, hactive] using hnew, hboard, hproject⟩

theorem keepsShelter_transferCard {id board column : Int} {position : Option Int}
    (hsite : ActiveSite db.toTables board) :
    KeepsShelter db (finalState (transferCard conn id board column position db)) := by
  refine bind_at ((atomic_transaction _).at fun _ t h => ?_) fun _ t _ =>
    (readOnly_requireCard id).respects t
  obtain ⟨card, _, hcard, h⟩ := bind_ok.mp (transaction_ok.mp h)
  obtain ⟨-, rfl⟩ := requireCard_ok.mp hcard
  obtain ⟨_, _, hboard, h⟩ := bind_ok.mp h
  obtain ⟨-, rfl⟩ := getBoard_ok.mp hboard
  obtain ⟨_, _, hcolumn, h⟩ := bind_ok.mp h
  obtain ⟨-, rfl⟩ := requireColumn_ok.mp hcolumn
  obtain ⟨_, _, hrefuse, h⟩ := bind_ok.mp h
  obtain ⟨-, rfl⟩ := refuse_ok.mp hrefuse
  obtain ⟨_, db₁, hupdate, h⟩ := bind_ok.mp h
  have hrest : KeepsTables tenancy (do
      placeCardInColumnTx id column position
      renumberColumnCardsTx card.columnId) :=
    (keeps_placeCardInColumnTx placeBlind_tenancy _ _ _).bind fun _ =>
      keeps_renumberColumnCardsTx placeBlind_tenancy _
  exact trans_of KeepsShelter (keepsShelter_of_idle (rehomed hsite hupdate).1)
    (keepsShelter_of_idle ((respects_calm hrest).ok h))

/-- A card only moves between columns of its board, unless it is transferred. -/
theorem keepsShelter_moveCardAndEnqueueUow {id column : Int} {position : Option Int}
    (run : EnqueueRun) {current : Card} {target : Column} (hcurrent : db.card? id = some current)
    (hallowed : MoveAllowed db current column target) :
    KeepsShelter db (finalState (moveCardAndEnqueueUow conn id column position run db)) := by
  refine (readOnly_requireCard id).bind_at fun card hcard =>
    (readOnly_requireColumn column).bind_at fun _ hcolumn => ?_
  refine (readOnly_refuse _ _).bind_at fun _ hboard => (readOnly_refuse _ _).bind_at fun _ _ => ?_
  refine readOnly_get.bind_at fun _ _ => (readOnly_refuse _ _).bind_at fun _ _ => ?_
  cases hcurrent.symm.trans (requireCard_ok.mp hcard).1
  cases hallowed.column.symm.trans (requireColumn_ok.mp hcolumn).1
  have hsite : ActiveSite db.toTables current.boardId :=
    not_not.mp (refuse_ok.mp hboard).1 ▸ hallowed.site
  have hanswer (runId : Int) : ReadOnly (do
      let card ← requireCard id
      let run ← getRun runId
      pure (card, run) : StoreM (Card × Run)) :=
    (readOnly_requireCard id).bind fun _ => (readOnly_getRun runId).bind fun _ => readOnly_pure _
  have hrun : Respects (CalmDb fun c => c = id) (enqueueRunTx conn id run) :=
    calm_enqueueRunTx run rfl
  rw [finalState_bind_readOnly hanswer]
  have hsheltered : ∀ c, c = id → Sheltered db.toTables c := by
    rintro c rfl
    exact sheltered_of_site hcurrent hallowed.active hsite
  refine keepsShelter_of_calm (Respects.transaction ?_ db) hsheltered
  refine Respects.bind (respects_calm (keeps_tenancy_updateCards fun _ => ⟨rfl, rfl⟩)) fun _ => ?_
  refine (respects_calm (keeps_placeCardInColumnTx placeBlind_tenancy _ _ _)).bind fun _ => ?_
  refine respects_ite (fun _ => ?_) fun _ => hrun
  exact (respects_calm (keeps_renumberColumnCardsTx placeBlind_tenancy _)).bind fun _ => hrun

/-- The card must be where the move found it, not archived. -/
theorem keepsShelter_transferCardAndEnqueueUow {id board column : Int} {position : Option Int}
    {run : EnqueueRun} {current : Card} (hcurrent : db.card? id = some current)
    (hactive : current.archivedAt.isSome = false) (hsite : ActiveSite db.toTables board) :
    KeepsShelter db (finalState
      (transferCardAndEnqueueUow conn id board column position run db)) := by
  refine (readOnly_requireCard id).bind_at fun card _ =>
    (readOnly_getBoard board).bind_at fun _ _ => ?_
  refine (readOnly_requireColumn column).bind_at fun _ _ =>
    (readOnly_refuse _ _).bind_at fun _ _ => ?_
  refine (readOnly_refuse _ _).bind_at fun _ _ => readOnly_get.bind_at fun _ _ => ?_
  refine (readOnly_refuse _ _).bind_at fun _ _ => ?_
  have hanswer (runId : Int) : ReadOnly (do
      let card ← requireCard id
      let run ← getRun runId
      pure (card, run) : StoreM (Card × Run)) :=
    (readOnly_requireCard id).bind fun _ => (readOnly_getRun runId).bind fun _ => readOnly_pure _
  refine bind_at ((atomic_transaction _).at fun _ t h => ?_) fun runId t _ =>
    (hanswer runId).respects t
  obtain ⟨_, db₁, hupdate, h⟩ := bind_ok.mp (transaction_ok.mp h)
  have harrived := rehomed (C := fun _ => False) hsite hupdate
  have hrest : Respects (CalmDb fun c => c = id) (do
      placeCardInColumnTx id column position
      renumberColumnCardsTx card.columnId
      enqueueRunTx conn id run) :=
    (respects_calm (keeps_placeCardInColumnTx placeBlind_tenancy _ _ _)).bind fun _ =>
      (respects_calm (keeps_renumberColumnCardsTx placeBlind_tenancy _)).bind fun _ =>
        calm_enqueueRunTx (C := fun c => c = id) run rfl
  exact trans_of KeepsShelter (keepsShelter_of_idle harrived.1)
    (keepsShelter_of_calm (hrest.ok h) fun c hc => hc ▸ harrived.2 current hcurrent hactive)

theorem checkTransfer_board {current : Card} {target : Column} {board : Int} {u : Unit}
    (h : checkTransfer env current target (some board) db = .ok u db') :
    target.boardId = board := by
  simp only [checkTransfer, bind_ok, getBoard_ok, refuse_ok] at h
  obtain ⟨_, _, ⟨-, rfl⟩, _, _, ⟨hboard, rfl⟩, -⟩ := h
  exact not_not.mp hboard

theorem keepsShelter_moveEntering {p : CardMoveParams} {current : Card} {target : Column}
    (hcurrent : db.card? p.id = some current) (hallowed : MoveAllowed db current p.columnId target)
    (hdeclared : ∀ board, crossBoard p current = some board → target.boardId = board) :
    KeepsShelter db (finalState (moveEntering cfg env p current target db)) := by
  unfold moveEntering
  split
  · refine (readOnly_prepareEnqueueValues _ _ _).bind_at fun prepared _ => ?_
    cases hcross : crossBoard p current with
    | none =>
        rw [finalState_bind_readOnly fun _ => readOnly_pure _]
        exact keepsShelter_moveCardAndEnqueueUow _ hcurrent hallowed
    | some board =>
        rw [finalState_bind_readOnly fun _ => readOnly_pure _]
        exact keepsShelter_transferCardAndEnqueueUow hcurrent hallowed.active
          (hdeclared board hcross ▸ hallowed.site)
  · cases hcross : crossBoard p current with
    | none =>
        exact ((respects_calm (keeps_moveCard placeBlind_tenancy _ _ _ _)).bind fun _ =>
          respects_pure _).mono (fun _ _ => keepsShelter_of_idle) db
    | some board =>
        rw [finalState_bind_readOnly fun _ => readOnly_pure _]
        exact keepsShelter_transferCard (hdeclared board hcross ▸ hallowed.site)

theorem keepsShelter_cardMove (p : CardMoveParams) (d : DaemonState) :
    KeepsShelter d.db (finalState (cardMove cfg env p d)).db := by
  have hafter : ∀ moved d,
      (finalState ((do modify (forgetHops moved); pure moved.1 : DaemonM Card) d)).db = d.db :=
    fun moved d => forgetHops_db moved d
  rw [cardMove, db_store_bind hafter]
  refine (readOnly_requireCard _).bind_at fun current hcurrent => ?_
  have hfind := (requireCard_ok.mp hcurrent).1
  refine (readOnly_moveTarget _ _).bind_at fun target htarget => ?_
  split
  · exact ((respects_calm (keeps_moveCard placeBlind_tenancy _ _ _ _)).bind fun _ =>
      respects_pure _).mono (fun _ _ => keepsShelter_of_idle) d.db
  · refine (readOnly_checkTransfer _ _ _).bind_at fun _ hcheck => ?_
    refine keepsShelter_moveEntering hfind (moveTarget_ok htarget) fun board hcross => ?_
    rw [hcross] at hcheck
    exact checkTransfer_board hcheck

end HerdrBoard.Lifecycle
