import HerdrBoard.Core.Capability
import HerdrBoard.Core.Prompt
import HerdrBoard.Harness.Sessions
import HerdrBoard.Lib.Outcome

/-!
# Accepted settings

What the validation of a card and a column says of the settings a run resolves them to.
-/

namespace HerdrBoard.Core

open Lib

theorem rejectIf_ok {c : Bool} {e : ValidationError} : rejectIf c e = .ok () ↔ c = false := by
  cases c <;> simp [rejectIf]

/-- The values fit the capabilities. -/
structure Fits (caps : HarnessCapabilities) (model : Option String) (effort : Option Effort)
    (permission : Option String) : Prop where
  models : ∀ m, model = some m → caps.modelFreeform = true ∨ ∃ known ∈ caps.models, known.id = m
  efforts : ∀ e, effort = some e → e ∈ effortsFor caps model
  permissions : ∀ p, permission = some p → p ∈ caps.permissionModes

/-- What is offered for a model is on the ladder, if the efforts of every model and the
defaults are. -/
theorem mem_of_effortsFor {caps : HarnessCapabilities} {ladder : List Effort}
    {model : Option String} {effort : Effort}
    (hmodels : ∀ m ∈ caps.models, ∀ e ∈ m.efforts, e ∈ ladder)
    (hdefaults : ∀ e ∈ caps.defaultEfforts, e ∈ ladder)
    (h : effort ∈ effortsFor caps model) : effort ∈ ladder := by
  simp only [effortsFor, List.mem_filter] at h
  obtain ⟨-, h⟩ := h
  split at h
  · next known hknown =>
      obtain ⟨id, -, hfound⟩ := Option.bind_eq_some_iff.mp hknown
      exact hmodels known (List.mem_of_find?_eq_some hfound) effort (by simpa using h)
  · rcases Bool.or_eq_true_iff.mp h with h | h
    · exact hdefaults effort (by simpa using h)
    · simp only [Bool.and_eq_true, List.any_eq_true] at h
      obtain ⟨-, m, hm, heffort⟩ := h
      exact hmodels m hm effort (by simpa using heffort)

variable {capabilities : CapabilitiesFor} {harness : String} {model : Option String}
  {effort : Option Effort} {permission : Option String} {context : PermissionContext}

theorem rejectIf_then {c : Bool} {e : ValidationError} {f : Unit → Except ValidationError Unit} :
    (rejectIf c e >>= f) = .ok () ↔ c = false ∧ f () = .ok () := by
  rw [except_bind_ok]
  constructor
  · rintro ⟨_, hc, hf⟩
    exact ⟨rejectIf_ok.mp hc, hf⟩
  · rintro ⟨hc, hf⟩
    exact ⟨(), rejectIf_ok.mpr hc, hf⟩

theorem fits_of_validate
    (h : validateSettingsValues capabilities harness model effort permission context = .ok ()) :
    ∃ caps, capabilities harness = some caps ∧ Fits caps model effort permission := by
  unfold validateSettingsValues at h
  split at h
  · cases h
  · next caps hcaps =>
      have hok {f : Unit → Except ValidationError Unit} : ((Except.ok () >>= f) = .ok ()) ↔
          f () = .ok () := Iff.rfl
      cases model <;> cases effort <;> cases permission <;>
        simp only [rejectIf_then, rejectIf_ok, hok] at h <;>
        exact ⟨caps, hcaps, by constructor <;> simp_all [or_iff_not_imp_left]⟩

/-- An accepted pair resolves to settings that fit the capabilities of their harness. -/
theorem settings_of_accepted {card : Card} {column : Column}
    (h : validateEffectiveSettings capabilities card column = .ok ()) :
    ∃ settings caps, effectiveSettings card column = .ok settings ∧
      capabilities settings.harness = some caps ∧
      Fits caps settings.model settings.effort settings.permissionMode := by
  unfold validateEffectiveSettings at h
  obtain ⟨_, hpermission, h⟩ := except_bind_ok.mp h
  have heffective (effort : Option Effort)
      (hvalues : validateSettingsValues capabilities (effectiveHarness card column)
        (column.modelOverride <|> card.model)
        effort (column.permissionOverride <|> card.permissionMode) .card = .ok ())
      (hsome : ∀ value, column.effortOverride = some value → Effort.parseStr value = effort)
      (hnone : column.effortOverride = none → card.effort = effort) :
      ∃ settings caps, effectiveSettings card column = .ok settings ∧
        capabilities settings.harness = some caps ∧
        Fits caps settings.model settings.effort settings.permissionMode := by
    obtain ⟨caps, hcaps, hfits⟩ := fits_of_validate hvalues
    refine ⟨_, caps, except_bind_ok.mpr ⟨(), hpermission, rfl⟩, hcaps, ?_⟩
    cases hcolumn : column.effortOverride with
    | none => simpa only [hnone hcolumn] using hfits
    | some value => simpa only [hsome value hcolumn] using hfits
  cases hcolumn : column.effortOverride with
  | none =>
      simp only [hcolumn] at h
      obtain ⟨effort, ⟨⟩, h⟩ := except_bind_ok.mp h
      exact heffective card.effort (except_bind_ok.mp h).choose_spec.1 (by simp [hcolumn]) fun _ =>
        rfl
  | some value =>
      simp only [hcolumn] at h
      obtain ⟨effort, hparsed, h⟩ := except_bind_ok.mp h
      refine heffective effort (except_bind_ok.mp h).choose_spec.1 ?_ (by simp [hcolumn])
      rintro _ hsame
      obtain rfl := Option.some.inj (hcolumn.symm.trans hsame)
      unfold parseEffort at hparsed
      cases hvalue : Effort.parseStr value <;> simp_all

end HerdrBoard.Core
