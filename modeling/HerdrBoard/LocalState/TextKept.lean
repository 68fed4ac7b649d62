import HerdrBoard.LocalState.GroupingText
import Mathlib.Data.List.Perm.Basic

/-!
# Texts that stay whole

A text is kept when no two keys of one object become equal in the cleaning, and only then.
-/

open Lib HerdrBoard.Core

namespace HerdrBoard.LocalState

/-! ## Collecting fields -/

theorem insertField_perm {key : String} {value : Value} {fields : List (String × Value)}
    (h : key ∉ fields.map Prod.fst) :
    (Value.insertField key value fields).Perm ((key, value) :: fields) := by
  induction fields with
  | nil => exact .refl _
  | cons f fields ih =>
      obtain ⟨k, v⟩ := f
      obtain ⟨hne, hrest⟩ :=
        not_or.mp (mt List.mem_cons.mpr (show key ∉ k :: fields.map Prod.fst from h))
      rw [Value.insertField, if_neg hne]
      split
      · exact .refl _
      · exact ((ih hrest).cons _).trans (.swap _ _ _)

theorem foldl_insertField_perm {pairs : List (String × Value)} (out : List (String × Value))
    (h : (out.map Prod.fst ++ pairs.map Prod.fst).Nodup) :
    (pairs.foldl (fun fields kv => Value.insertField kv.1 kv.2 fields) out).Perm
      (out ++ pairs) := by
  induction pairs generalizing out with
  | nil => simp
  | cons pair pairs ih =>
      obtain ⟨hnew, hrest⟩ := List.nodup_cons.mp (List.perm_middle.nodup_iff.mp h)
      have hfirst : pair.1 ∉ out.map Prod.fst := fun hmem => hnew (List.mem_append_left _ hmem)
      have hinsert : (Value.insertField pair.1 pair.2 out).Perm (pair :: out) :=
        insertField_perm hfirst
      have hkeys :
          ((Value.insertField pair.1 pair.2 out).map Prod.fst ++ pairs.map Prod.fst).Nodup :=
        (((hinsert.map Prod.fst).append_right _).nodup_iff).mpr (List.nodup_cons.mpr ⟨hnew, hrest⟩)
      exact (ih _ hkeys).trans ((hinsert.append_right pairs).trans List.perm_middle.symm)

theorem collectFields_perm {pairs : List (String × Value)} (h : (pairs.map Prod.fst).Nodup) :
    (Value.collectFields pairs).Perm pairs := foldl_insertField_perm [] h

theorem sanitiseFields_eq (fields : List (String × Value)) :
    sanitiseFields fields = fields.map fun f => (stripControlKeepLines f.1, sanitiseJson f.2) := by
  induction fields with
  | nil => rfl
  | cons f fields ih => simp [sanitiseFields, ih]

/-! ## Kept texts -/

theorem KeepsFields.keys : {fields : List (String × JsonText)} → {kept : List (String × Value)} →
    KeepsFields fields kept → kept.map Prod.fst = fields.map fun f => stripControlKeepLines f.1
  | [], kept, h => by
      rw [KeepsFields] at h
      simp [h]
  | (key, item) :: fields, kept, h => by
      rw [KeepsFields] at h
      obtain ⟨v, rest, rfl, -, hrest⟩ := h
      simp [hrest.keys]

mutual

theorem keeps_of_distinct :
    (tree : JsonText) → {v : Value} → strictValue tree = .ok v → tree.StaysDistinct →
    Keeps tree (sanitiseJson v)
  | .null, v, h, _ => by
      cases h
      simp [Keeps, sanitiseJson]
  | .bool b, v, h, _ => by
      cases h
      simp [Keeps, sanitiseJson]
  | .number n, v, h, _ => by
      cases h
      simp [Keeps, sanitiseJson]
  | .string s, v, h, _ => by
      cases h
      simp [Keeps, sanitiseJson]
  | .array items, v, h, hdistinct => by
      rw [strictValue] at h
      obtain ⟨values, hvalues, h⟩ := except_bind_ok.mp h
      cases h
      rw [Keeps]
      exact ⟨_, by rw [sanitiseJson], keepsItems_of_distinct items hvalues hdistinct⟩
  | .object fields, v, h, hdistinct => by
      rw [strictValue] at h
      obtain ⟨values, hvalues, h⟩ := except_bind_ok.mp h
      cases h
      obtain ⟨hkeys, hfields⟩ := hdistinct
      obtain ⟨added, hperm, hkept⟩ := keepsFields_of_distinct fields hvalues hfields
      -- the cleaned fields of the value are those of the text, in another order
      have hclean : (sanitiseFields values).Perm (sanitiseFields added) := by
        rw [sanitiseFields_eq, sanitiseFields_eq]
        exact hperm.map _
      have hnodup : ((sanitiseFields values).map Prod.fst).Nodup := by
        rw [(hclean.map Prod.fst).nodup_iff, hkept.keys]
        exact hkeys
      have hcollect := collectFields_perm hnodup
      rw [Keeps]
      exact ⟨_, sanitiseFields added, by rw [sanitiseJson],
        ((hcollect.map Prod.fst).nodup_iff).mpr hnodup, hcollect.trans hclean, hkept⟩

theorem keepsItems_of_distinct :
    (items : List JsonText) → {values : List Value} → strictItems items = .ok values →
    ItemsStayDistinct items → KeepsItems items (sanitiseItems values)
  | [], values, h, _ => by
      cases h
      simp [KeepsItems, sanitiseItems]
  | item :: items, values, h, hdistinct => by
      rw [strictItems] at h
      obtain ⟨v, hv, h⟩ := except_bind_ok.mp h
      obtain ⟨rest, hrest, h⟩ := except_bind_ok.mp h
      cases h
      rw [KeepsItems]
      exact ⟨_, _, by rw [sanitiseItems], keeps_of_distinct item hv hdistinct.1,
        keepsItems_of_distinct items hrest hdistinct.2⟩

theorem keepsFields_of_distinct :
    (fields : List (String × JsonText)) → {out values : List (String × Value)} →
    strictFields out fields = .ok values → FieldsStayDistinct fields →
    ∃ added, values.Perm (out ++ added) ∧ KeepsFields fields (sanitiseFields added)
  | [], out, values, h, _ => by
      cases h
      exact ⟨[], by simp, by simp [KeepsFields, sanitiseFields]⟩
  | (key, item) :: fields, out, values, h, hdistinct => by
      rw [strictFields] at h
      split at h
      · cases h
      · next hnew =>
          obtain ⟨v, hv, h⟩ := except_bind_ok.mp h
          obtain ⟨added, hperm, hkept⟩ := keepsFields_of_distinct fields h hdistinct.2
          have hkey : key ∉ out.map Prod.fst := by simpa using hnew
          refine ⟨(key, v) :: added, ?_, ?_⟩
          · exact hperm.trans (((insertField_perm hkey).append_right added).trans
              List.perm_middle.symm)
          · rw [KeepsFields]
            exact ⟨_, _, by rw [sanitiseFields], keeps_of_distinct item hv hdistinct.1, hkept⟩

end

mutual

theorem Keeps.distinct : {tree : JsonText} → {v : Value} → Keeps tree v → tree.StaysDistinct
  | .null, _, _ => trivial
  | .bool _, _, _ => trivial
  | .number _, _, _ => trivial
  | .string _, _, _ => trivial
  | .array items, v, h => by
      rw [Keeps] at h
      obtain ⟨values, -, hitems⟩ := h
      exact hitems.distinct
  | .object fields, v, h => by
      rw [Keeps] at h
      obtain ⟨values, kept, -, hnodup, hperm, hfields⟩ := h
      exact ⟨hfields.keys ▸ ((hperm.map Prod.fst).nodup_iff).mp hnodup, hfields.distinct⟩

theorem KeepsItems.distinct : {items : List JsonText} → {values : List Value} →
    KeepsItems items values → ItemsStayDistinct items
  | [], _, _ => trivial
  | item :: items, values, h => by
      rw [KeepsItems] at h
      obtain ⟨v, rest, -, hitem, hitems⟩ := h
      exact ⟨hitem.distinct, hitems.distinct⟩

theorem KeepsFields.distinct : {fields : List (String × JsonText)} →
    {kept : List (String × Value)} → KeepsFields fields kept → FieldsStayDistinct fields
  | [], _, _ => trivial
  | (key, item) :: fields, kept, h => by
      rw [KeepsFields] at h
      obtain ⟨v, rest, -, hitem, hfields⟩ := h
      exact ⟨hitem.distinct, hfields.distinct⟩

end

/-! ## What is said -/

theorem mem_valueFieldsTexts {s : String} {fields : List (String × Value)} :
    s ∈ valueFieldsTexts fields ↔ ∃ f ∈ fields, s = f.1 ∨ s ∈ valueTexts f.2 := by
  induction fields with
  | nil => simp [valueFieldsTexts]
  | cons f fields ih => simp [valueFieldsTexts, ih, or_assoc]

mutual

/-- Every key and every string of a kept text is in the value, cleaned. -/
theorem Keeps.texts : {tree : JsonText} → {v : Value} → Keeps tree v →
    ∀ s ∈ tree.texts, stripControlKeepLines s ∈ valueTexts v
  | .null, _, _, s, hs => by simp [JsonText.texts] at hs
  | .bool _, _, _, s, hs => by simp [JsonText.texts] at hs
  | .number _, _, _, s, hs => by simp [JsonText.texts] at hs
  | .string _, v, h, s, hs => by
      rw [Keeps] at h
      rw [JsonText.texts, List.mem_singleton] at hs
      simp [h, hs, valueTexts]
  | .array items, v, h, s, hs => by
      rw [Keeps] at h
      obtain ⟨values, rfl, hitems⟩ := h
      rw [valueTexts]
      exact hitems.texts s hs
  | .object fields, v, h, s, hs => by
      rw [Keeps] at h
      obtain ⟨values, kept, rfl, -, hperm, hfields⟩ := h
      rw [valueTexts, mem_valueFieldsTexts]
      obtain ⟨f, hf, hsf⟩ := mem_valueFieldsTexts.mp (hfields.texts s hs)
      exact ⟨f, hperm.mem_iff.mpr hf, hsf⟩

theorem KeepsItems.texts :
    {items : List JsonText} → {values : List Value} → KeepsItems items values →
    ∀ s ∈ itemsTexts items, stripControlKeepLines s ∈ valueItemsTexts values
  | [], _, _, s, hs => by simp [itemsTexts] at hs
  | item :: items, values, h, s, hs => by
      rw [KeepsItems] at h
      obtain ⟨v, rest, rfl, hitem, hitems⟩ := h
      rw [valueItemsTexts]
      rcases List.mem_append.mp hs with hs | hs
      · exact List.mem_append_left _ (hitem.texts s hs)
      · exact List.mem_append_right _ (hitems.texts s hs)

theorem KeepsFields.texts : {fields : List (String × JsonText)} → {kept : List (String × Value)} →
    KeepsFields fields kept →
    ∀ s ∈ fieldsTexts fields, stripControlKeepLines s ∈ valueFieldsTexts kept
  | [], _, _, s, hs => by simp [fieldsTexts] at hs
  | (key, item) :: fields, kept, h, s, hs => by
      rw [KeepsFields] at h
      obtain ⟨v, rest, rfl, hitem, hfields⟩ := h
      rw [valueFieldsTexts]
      rcases List.mem_append.mp hs with hs | hs
      · rcases List.mem_cons.mp hs with rfl | hs
        · exact List.mem_append_left _ (List.mem_cons_self ..)
        · exact List.mem_append_left _ (List.mem_cons_of_mem _ (hitem.texts s hs))
      · exact List.mem_append_right _ (hfields.texts s hs)

end

/-! ## Typed values -/

section

variable {α β γ : Type} {first second : String} {readFirst : Value → Option α}
    {readSecond : Value → Option β}
  {missing : Option β} {make : α → β → γ} {textsA : α → List String} {textsB : β → List String}

/-- What has been read stays, and every text of the fields is a name of a field or in
what is read. -/
theorem readFields_texts (hfirst : ∀ v a, readFirst v = some a → ∀ s ∈ valueTexts v, s ∈ textsA a)
    (hsecond : ∀ v b, readSecond v = some b → ∀ s ∈ valueTexts v, s ∈ textsB b)
    {fields : List (String × Value)} {a a' : Option α} {b b' : Option β}
    (h : readFields first second readFirst readSecond a b fields = some (a', b')) :
    (∀ x, a = some x → a' = some x) ∧ (∀ y, b = some y → b' = some y) ∧
      ∀ s ∈ valueFieldsTexts fields,
      s = first ∨ s = second ∨ (∃ x, a' = some x ∧ s ∈ textsA x) ∨ ∃ y, b' = some y ∧
        s ∈ textsB y := by
  induction fields generalizing a b with
  | nil =>
      cases h
      exact ⟨fun _ => id, fun _ => id, fun s hs => by simp [valueFieldsTexts] at hs⟩
  | cons field fields ih =>
      obtain ⟨key, value⟩ := field
      have hsplit {s : String} (hs : s ∈ valueFieldsTexts ((key, value) :: fields)) :
          s = key ∨ s ∈ valueTexts value ∨ s ∈ valueFieldsTexts fields := by
            simpa [valueFieldsTexts, or_assoc] using hs
      rw [readFields] at h
      split at h
      · next hkey =>
          split at h
          · cases h
          · next hnone =>
              obtain ⟨x, hx, h⟩ := Option.bind_eq_some_iff.mp h
              obtain ⟨ha, hb, htexts⟩ := ih h
              refine ⟨fun y hy => by simp [hy] at hnone, hb, fun s hs => ?_⟩
              rcases hsplit hs with rfl | hs | hs
              · exact .inl hkey
              · exact .inr (.inr (.inl ⟨x, ha x rfl, hfirst value x hx s hs⟩))
              · exact htexts s hs
      · split at h
        · next hkey =>
            split at h
            · cases h
            · next hnone =>
                obtain ⟨y, hy, h⟩ := Option.bind_eq_some_iff.mp h
                obtain ⟨ha, hb, htexts⟩ := ih h
                refine ⟨ha, fun z hz => by simp [hz] at hnone, fun s hs => ?_⟩
                rcases hsplit hs with rfl | hs | hs
                · exact .inr (.inl hkey)
                · exact .inr (.inr (.inr ⟨y, hb y rfl, hsecond value y hy s hs⟩))
                · exact htexts s hs
        · cases h

theorem readStruct_texts (hfirst : ∀ v a, readFirst v = some a → ∀ s ∈ valueTexts v, s ∈ textsA a)
    (hsecond : ∀ v b, readSecond v = some b → ∀ s ∈ valueTexts v, s ∈ textsB b) {v : Value} {c : γ}
    (h : readStruct first second readFirst readSecond missing make v = some c) :
    ∃ a b, c = make a b ∧ ∀ s ∈ valueTexts v, s = first ∨ s = second ∨ s ∈ textsA a ∨
      s ∈ textsB b := by
  unfold readStruct at h
  split at h
  · next fields =>
      obtain ⟨⟨a', b'⟩, hread, h⟩ := Option.bind_eq_some_iff.mp h
      obtain ⟨a, ha, h⟩ := Option.bind_eq_some_iff.mp h
      obtain ⟨b, hb, h⟩ := Option.bind_eq_some_iff.mp h
      cases h
      refine ⟨a, b, rfl, fun s hs => ?_⟩
      rw [valueTexts] at hs
      rcases (readFields_texts hfirst hsecond hread).2.2 s hs with h | h | ⟨x, hx, h⟩ | ⟨y, hy, h⟩
      · exact .inl h
      · exact .inr (.inl h)
      · rw [show a' = some a from ha, Option.some.injEq] at hx
        exact .inr (.inr (.inl (hx ▸ h)))
      · rw [hy] at hb
        cases hb
        exact .inr (.inr (.inr h))
  · next value =>
      obtain ⟨a, ha, h⟩ := Option.bind_eq_some_iff.mp h
      obtain ⟨b, -, h⟩ := Option.bind_eq_some_iff.mp h
      cases h
      refine ⟨a, b, rfl, fun s hs => .inr (.inr (.inl (hfirst value a ha s ?_)))⟩
      simpa [valueTexts, valueItemsTexts] using hs
  · next value value' =>
      obtain ⟨a, ha, h⟩ := Option.bind_eq_some_iff.mp h
      obtain ⟨b, hb, h⟩ := Option.bind_eq_some_iff.mp h
      cases h
      refine ⟨a, b, rfl, fun s hs => ?_⟩
      have hs : s ∈ valueTexts value ∨ s ∈ valueTexts value' := by
        simpa [valueTexts, valueItemsTexts] using hs
      rcases hs with hs | hs
      · exact .inr (.inr (.inl (hfirst value a ha s hs)))
      · exact .inr (.inr (.inr (hsecond value' b hb s hs)))
  · cases h

end

theorem asStr_texts (v : Value) (name : String) (h : v.asStr = some name) :
    ∀ s ∈ valueTexts v, s ∈ [name] := by
  cases v with
  | string text =>
      cases h
      intro s hs
      simpa [valueTexts] using hs
  | _ => cases h

theorem readLevels_texts (v : Value) (levels : List (String × String))
    (h : readLevels v = some levels) :
    ∀ s ∈ valueTexts v, s ∈ levels.flatMap fun l => [l.1, l.2] := by
  cases v with
  | object fields =>
      rw [valueTexts]
      rw [readLevels] at h
      induction fields generalizing levels with
      | nil => simp [valueFieldsTexts]
      | cons f fields ih =>
          rw [List.mapM_cons] at h
          obtain ⟨l, hl, h⟩ := Option.bind_eq_some_iff.mp h
          obtain ⟨rest, hrest, h⟩ := Option.bind_eq_some_iff.mp h
          cases h
          obtain ⟨kind, hkind, rfl⟩ := Option.map_eq_some_iff.mp hl
          intro s hs
          have hs : s = f.1 ∨ s ∈ valueTexts f.2 ∨ s ∈ valueFieldsTexts fields := by
            simpa [valueFieldsTexts, or_assoc] using hs
          rcases hs with rfl | hs | hs
          · simp
          · have := asStr_texts f.2 kind hkind s hs
            simp_all
          · have := ih rest hrest s hs
            simp_all
  | _ => cases h

theorem readFilter_texts (v : Value) (filter : List (String × Value))
    (h : readFilter v = some filter) : ∀ s ∈ valueTexts v, s ∈ valueFieldsTexts filter := by
  cases v with
  | object fields =>
      cases h
      rw [valueTexts]
      exact fun s hs => hs
  | _ => cases h

theorem readMapping_texts (v : Value) (m : GroupingMapping) (h : readMapping v = some m) :
    ∀ s ∈ valueTexts v, s ∈ m.texts := by
  obtain ⟨levels, filter, rfl, htexts⟩ := readStruct_texts readLevels_texts readFilter_texts h
  intro s hs
  rcases htexts s hs with rfl | rfl | hs | hs
  · simp [GroupingMapping.texts]
  · simp [GroupingMapping.texts]
  · exact List.mem_append_left _ (List.mem_cons_of_mem _ hs)
  · exact List.mem_append_right _ (List.mem_cons_of_mem _ hs)

theorem readSpace_texts (v : Value) (e : SpaceGrouping) (h : readSpace v = some e) :
    ∀ s ∈ valueTexts v, s ∈ e.texts := by
  obtain ⟨space, mapping, rfl, htexts⟩ := readStruct_texts asStr_texts readMapping_texts h
  intro s hs
  rcases htexts s hs with rfl | rfl | hs | hs
  · simp [SpaceGrouping.texts]
  · simp [SpaceGrouping.texts]
  · simp_all [SpaceGrouping.texts]
  · simp_all [SpaceGrouping.texts]

theorem readSpaces_texts (v : Value) (entries : List SpaceGrouping)
    (h : readSpaces v = some entries) :
    ∀ s ∈ valueTexts v, s ∈ entries.flatMap SpaceGrouping.texts := by
  cases v with
  | array items =>
      rw [valueTexts]
      rw [readSpaces] at h
      induction items generalizing entries with
      | nil => simp [valueItemsTexts]
      | cons item items ih =>
          rw [List.mapM_cons] at h
          obtain ⟨e, he, h⟩ := Option.bind_eq_some_iff.mp h
          obtain ⟨rest, hrest, h⟩ := Option.bind_eq_some_iff.mp h
          cases h
          intro s hs
          rcases List.mem_append.mp hs with hs | hs
          · exact List.mem_append_left _ (readSpace_texts item e he s hs)
          · exact List.mem_append_right _ (ih rest hrest s hs)
  | _ => cases h

theorem readConfig_texts (v : Value) (c : GroupingConfig) (h : readConfig v = some c) :
    ∀ s ∈ valueTexts v, s ∈ c.texts := by
  obtain ⟨global, entries, rfl, htexts⟩ := readStruct_texts readMapping_texts readSpaces_texts h
  intro s hs
  rcases htexts s hs with rfl | rfl | hs | hs
  · simp [GroupingConfig.texts]
  · simp [GroupingConfig.texts]
  · exact List.mem_append_left _ (List.mem_cons_of_mem _ hs)
  · exact List.mem_append_right _ (List.mem_cons_of_mem _ hs)

/-! ## What is stored -/

variable {out : Outside} {reader : JsonReader} {db db' : LinearDb} {text : String} {tree : JsonText}

/-- The config says the text: it, or its mapping of the space, is read from a value that keeps the
text, and all keys and strings of the text are in it. -/
def Says (config : GroupingConfig) (tree : JsonText) : Option String → Prop
  | none => ∃ v, Keeps tree v ∧ readConfig v = some config ∧
      ∀ s ∈ tree.texts, stripControlKeepLines s ∈ config.texts
  | some space => ∃ v mapping, Keeps tree v ∧ readMapping v = some mapping ∧
      ⟨space, mapping⟩ ∈ config.spaces ∧ ∀ s ∈ tree.texts, stripControlKeepLines s ∈ mapping.texts

theorem Says.distinct {config : GroupingConfig} {space : Option String}
    (h : Says config tree space) : tree.StaysDistinct := by
  cases space with
  | none =>
      obtain ⟨v, hkeeps, -⟩ := h
      exact hkeeps.distinct
  | some space =>
      obtain ⟨v, mapping, hkeeps, -⟩ := h
      exact hkeeps.distinct

theorem stored_of_accepted {p : LinearGroupingSetParams} {change : LinearChange GroupingConfig}
    (h : linearGroupingChange out p true db = .ok change db') :
    ∃ config, changedGrouping out db.groupingConfig p = .ok config ∧
      db'.groupingConfig = some config := by
  obtain ⟨_, _, hget, hchange⟩ := bind_ok.mp h
  obtain ⟨rfl, rfl⟩ := get_ok.mp hget
  obtain ⟨config, _, hasked, hchecked⟩ := bind_ok.mp hchange
  obtain ⟨hconfig, rfl⟩ := fromExcept_ok.mp hasked
  obtain ⟨_, _, hvalidated, hwrite⟩ := bind_ok.mp hchecked
  obtain ⟨hvalid, rfl⟩ := fromExcept_ok.mp hvalidated
  obtain ⟨_, t, hreplace, hread⟩ :=
    bind_ok.mp (show (ofStore (replaceGrouping config) >>= fun _ => do
    let db' ← get
    pure { before := db.groupingConfig, after := db'.groupingConfig }) db =
      .ok change db' from hwrite)
  obtain ⟨_, _, hget', hpure⟩ := bind_ok.mp hread
  obtain ⟨rfl, rfl⟩ := get_ok.mp hget'
  obtain ⟨-, rfl⟩ := pure_ok.mp hpure
  have haccepted : config.Accepted := GroupingConfig.validate_accepts.mp (mapError_ok.mp hvalid)
  have hrealises : Realises (replaceGrouping config) db _ := replaceGrouping_realises none config
  simp only [GroupingChange.ask, dif_pos haccepted] at hrealises
  obtain ⟨_, t', hrun, hholds⟩ := hrealises
  rw [ofStore_ok.mp hreplace] at hrun
  cases hrun
  refine ⟨config, hconfig, ?_⟩
  rw [hholds.groupingConfig]
  exact congrArg some (GroupingBook.toConfig_ofConfig haccepted)

theorem groupingValue_ok {what : String} {value : Value} (htree : reader.tree text = .ok tree)
    (h : groupingValue (out.reading reader) what text = .ok value) :
    ∃ v, strictValue tree = .ok v ∧ value = sanitiseJson v := by
  have hparse : (out.reading reader).parseJson text = (strictValue tree).mapError
      (reader.located text) := by
    show (reader.tree text >>= fun tree => (strictValue tree).mapError (reader.located text)) = _
    rw [htree]
    rfl
  rw [groupingValue, hparse] at h
  cases hv : strictValue tree with
  | error e =>
      rw [hv] at h
      cases h
  | ok v =>
      rw [hv] at h
      cases h
      exact ⟨v, rfl, rfl⟩

theorem parseConfig_ok {config : GroupingConfig} (htree : reader.tree text = .ok tree)
    (h : parseConfig (out.reading reader) text = .ok config) :
    ∃ v, strictValue tree = .ok v ∧ readConfig (sanitiseJson v) = some config := by
  obtain ⟨value, hvalue, h⟩ := except_bind_ok.mp h
  obtain ⟨v, hv, rfl⟩ := groupingValue_ok htree hvalue
  refine ⟨v, hv, ?_⟩
  have hread : (out.reading reader).configOfValue (sanitiseJson v) =
      (readConfig (sanitiseJson v)).elim (.error (reader.mismatch (sanitiseJson v))) .ok := rfl
  rw [hread] at h
  cases hconfig : readConfig (sanitiseJson v) with
  | none =>
      rw [hconfig] at h
      cases h
  | some config =>
      rw [hconfig] at h
      cases h
      rfl

theorem parseMapping_ok {mapping : GroupingMapping} (htree : reader.tree text = .ok tree)
    (h : parseMapping (out.reading reader) text = .ok mapping) :
    ∃ v, strictValue tree = .ok v ∧ readMapping (sanitiseJson v) = some mapping := by
  obtain ⟨value, hvalue, h⟩ := except_bind_ok.mp h
  obtain ⟨v, hv, rfl⟩ := groupingValue_ok htree hvalue
  refine ⟨v, hv, ?_⟩
  have hread : (out.reading reader).mappingOfValue (sanitiseJson v) =
      (readMapping (sanitiseJson v)).elim (.error (reader.mismatch (sanitiseJson v))) .ok := rfl
  rw [hread] at h
  cases hmapping : readMapping (sanitiseJson v) with
  | none =>
      rw [hmapping] at h
      cases h
  | some mapping =>
      rw [hmapping] at h
      cases h
      rfl

theorem mem_putSpace (space : String) (mapping : GroupingMapping) (entries : List SpaceGrouping) :
    ⟨space, mapping⟩ ∈ putSpace space mapping entries := by
  unfold putSpace
  split
  · next hany =>
      induction entries with
      | nil => simp at hany
      | cons e entries ih =>
          unfold putSpace.replaceFirst
          split
          · next heq =>
              obtain rfl : e.space = space := beq_iff_eq.mp heq
              exact List.mem_cons_self ..
          · next hne =>
              exact List.mem_cons_of_mem _ (ih (by simpa [hne] using hany))
  · exact List.mem_append_right _ (List.mem_singleton_self _)

/-- An accepted text whose keys stay distinct is what the stored config says. -/
theorem says_of_distinct {space : Option String} {config : GroupingConfig}
    {before : Option GroupingConfig}
    (htree : reader.tree text = .ok tree) (hdistinct : tree.StaysDistinct)
    (h : changedGrouping (out.reading reader) before { space, text := some text } = .ok config) :
    Says config tree space := by
  cases space with
  | none =>
      obtain ⟨v, hv, hread⟩ := parseConfig_ok htree h
      have hkeeps := keeps_of_distinct tree hv hdistinct
      exact ⟨_, hkeeps, hread, fun s hs => readConfig_texts _ _ hread _ (hkeeps.texts s hs)⟩
  | some space =>
      cases before with
      | none =>
          obtain ⟨_, -, hrest⟩ := except_bind_ok.mp (show (checkSpace space >>= fun _ =>
            parseMapping (out.reading reader) text >>= fun _ => refused _) = .ok config from h)
          obtain ⟨mapping, -, hrefused⟩ := except_bind_ok.mp hrest
          cases hrefused
      | some before =>
          obtain ⟨_, -, hrest⟩ := except_bind_ok.mp (show (checkSpace space >>= fun _ =>
            parseMapping (out.reading reader) text >>= fun mapping =>
              .ok { before with spaces := putSpace space mapping before.spaces }) =
                .ok config from h)
          obtain ⟨mapping, hmapping, hstored⟩ := except_bind_ok.mp hrest
          obtain ⟨v, hv, hread⟩ := parseMapping_ok htree hmapping
          have hkeeps := keeps_of_distinct tree hv hdistinct
          cases hstored
          exact ⟨_, mapping, hkeeps, hread, mem_putSpace space mapping before.spaces,
            fun s hs => readMapping_texts _ _ hread _ (hkeeps.texts s hs)⟩

/-- The stored config says an accepted text just when no two keys of one object become equal in
the cleaning. -/
theorem grouping_text_kept_iff (out : Outside) (reader : JsonReader) (space : Option String)
    (text : String) (tree : JsonText)
    (db db' : LinearDb) (change : LinearChange GroupingConfig) (htree : reader.tree text = .ok tree)
    (h : linearGroupingChange (out.reading reader)
      { space, text := some text } true db = .ok change db') :
    (∃ config, db'.groupingConfig = some config ∧ Says config tree space) ↔ tree.StaysDistinct := by
  constructor
  · rintro ⟨config, -, hsays⟩
    exact hsays.distinct
  · intro hdistinct
    obtain ⟨config, hchanged, hstored⟩ := stored_of_accepted h
    exact ⟨config, hstored, says_of_distinct htree hdistinct hchanged⟩

/-! ## Two texts -/

/-- A reader of one text. -/
def readerOf (text : String) (tree : JsonText) : JsonReader where
  tree t := if t = text then .ok tree else .error "expected value at line 1 column 1"
  located fault _ := fault
  mismatch _ := "invalid type"

/-- A config with the given levels. -/
def configTree (levels : List (String × JsonText)) : JsonText :=
  .object [("global", .object
    [("levels", .object levels), ("filter", .object [("team", .string "WEB")])])]

def plainConfigText : String :=
  "\x7b\"global\":\x7b\"levels\":\x7b\"space\":\"team\"\x7d,\"filter\":\x7b\"team\":\"WEB\"\x7d\x7d\x7d"

def plainReader : JsonReader := readerOf plainConfigText (configTree [("space", .string "team")])

theorem grouping_text_kept_iff_plain :
    ∃ (db' : LinearDb) (config : GroupingConfig), db'.groupingConfig = some config ∧
    Says config (configTree [("space", .string "team")]) none := by
  have haccepted : succeeded (linearGroupingChange (Outside.silent.reading plainReader)
      { space := none, text := some plainConfigText } true .fresh) = true := by decide +kernel
  have hlevels : stripControlKeepLines "levels" ≠ stripControlKeepLines "filter" := by
    decide +kernel
  obtain ⟨change, db', h⟩ := ok_of_succeeded haccepted
  refine ⟨db', (grouping_text_kept_iff Outside.silent plainReader none plainConfigText
    (configTree [("space", .string "team")]) .fresh db' change rfl h).mpr ?_⟩
  simp [configTree, JsonText.StaysDistinct, FieldsStayDistinct, hlevels]

def hiddenConfigText : String :=
  "\x7b\"global\":\x7b\"levels\":\x7b\"space\":\"team\",\"spa\u200bce\":\"project\"\x7d," ++
  "\"filter\":\x7b\"team\":\"WEB\"\x7d\x7d\x7d"

def hiddenTree : JsonText :=
  configTree [("space", .string "team"), ("spa\u200bce", .string "project")]

/-- A zero-width space in a key: the text is accepted, the level under the plain key is gone. -/
theorem hidden_key_overwrites : ¬ hiddenTree.StaysDistinct ∧ "team" ∈ hiddenTree.texts ∧
    (finalState (linearGroupingChange
      (Outside.silent.reading (readerOf hiddenConfigText hiddenTree))
      { space := none, text := some hiddenConfigText } true .fresh)).groupingConfig.map
        (fun c => c.global.levels) = some [("space", "project")] := by
  refine ⟨fun h => ?_, by decide +kernel, by decide +kernel⟩
  have hlevels : (["space", "spa\u200bce"].map stripControlKeepLines).Nodup := h.2.1.2.1.1
  exact absurd hlevels (by decide +kernel)

end HerdrBoard.LocalState
