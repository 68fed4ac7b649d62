import HerdrBoard.Lib.Table

/-!
# References that agree

A row of one table may refer to a row of another by key. References agree when the two rows carry
the same value, as a composite foreign key would demand. -/

namespace Lib.Table

variable {ρ σ γ : Type} [Keyed ρ] [Keyed σ] {t t' : Table ρ} {u u' : Table σ}
  {refs : ρ → Int → Prop} {own : ρ → γ} {theirs : σ → γ}

/-- A row and every row it refers to carry the same value. -/
def Agree (t : Table ρ) (u : Table σ) (refs : ρ → Int → Prop) (own : ρ → γ) (theirs : σ → γ) :
    Prop :=
  ∀ r ∈ t, ∀ s ∈ u, refs r (Keyed.key s) → own r = theirs s

/-- Every row refers to rows that are there. -/
def Present (t : Table ρ) (u : Table σ) (refs : ρ → Int → Prop) : Prop :=
  ∀ r ∈ t, ∀ k, refs r k → k ∈ u.keys

/-- Rows that come from earlier rows with the same references and values. -/
theorem Agree.of_forall {own' : ρ → γ} (h : t.Agree u refs own theirs)
    (hrows : ∀ r ∈ t', ∃ r₀ ∈ t, (∀ k, refs r k → refs r₀ k) ∧ own' r = own r₀)
    (htheirs : ∀ s ∈ u', ∃ s₀ ∈ u, Keyed.key s = Keyed.key s₀ ∧ theirs s = theirs s₀) :
    t'.Agree u' refs own' theirs := by
  intro r hr s hs hrs
  obtain ⟨r₀, hr₀, hrefs, hown⟩ := hrows r hr
  obtain ⟨s₀, hs₀, hkey, hsame⟩ := htheirs s hs
  rw [hown, hsame]
  exact h r₀ hr₀ s₀ hs₀ (hkey ▸ hrefs _ hrs)

theorem Agree.delete (h : t.Agree u refs own theirs) (p : ρ → Bool) :
    (t.delete p).Agree u refs own theirs :=
  fun r hr => h r (mem_delete.mp hr).1

theorem Agree.delete_referred (h : t.Agree u refs own theirs) (p : σ → Bool) :
    t.Agree (u.delete p) refs own theirs :=
  fun r hr s hs => h r hr s (mem_delete.mp hs).1

theorem Agree.insert (h : t.Agree u refs own theirs) {row : Int → ρ} (hkey)
    (hnew : ∀ s ∈ u, refs (row t.nextKey) (Keyed.key s) → own (row t.nextKey) = theirs s) :
    (t.insert row hkey).Agree u refs own theirs := by
  intro r hr s hs hrs
  rcases mem_insert.mp hr with hr | rfl
  · exact h r hr s hs hrs
  · exact hnew s hs hrs

/-- Nothing refers to a row that was not there. -/
theorem Agree.insert_referred (h : t.Agree u refs own theirs) (hpresent : t.Present u refs)
    {row : Int → σ} (hkey) : t.Agree (u.insert row hkey) refs own theirs := by
  intro r hr s hs hrs
  rcases mem_insert.mp hs with hs | rfl
  · exact h r hr s hs hrs
  · rw [hkey] at hrs
    obtain ⟨s, hs, hsame⟩ := mem_keys.mp (hpresent r hr _ hrs)
    exact absurd (hsame ▸ lt_nextKey hs) (lt_irrefl _)

theorem Agree.update (h : t.Agree u refs own theirs) {p : ρ → Bool} {f : ρ → ρ} (hkey)
    (hf : ∀ r ∈ t, p r = true → ∀ s ∈ u, refs (f r) (Keyed.key s) → own (f r) = theirs s) :
    (t.update p f hkey).Agree u refs own theirs := by
  intro r hr s hs hrs
  obtain ⟨r₀, hr₀, rfl⟩ := mem_update.mp hr
  cases hp : p r₀ with
  | true =>
      rw [if_pos hp] at hrs
      exact hf r₀ hr₀ hp s hs hrs
  | false =>
      rw [if_neg (by simp [hp])] at hrs
      exact h r₀ hr₀ s hs hrs

/-- A rewriting of the rows referred to that keeps the value. -/
theorem Agree.update_referred (h : t.Agree u refs own theirs) {p : σ → Bool} {f : σ → σ} (hkey)
    (hf : ∀ s, theirs (f s) = theirs s) : t.Agree (u.update p f hkey) refs own theirs := by
  refine h.of_forall (fun r hr => ⟨r, hr, fun _ => id, rfl⟩) fun s hs => ?_
  obtain ⟨s₀, hs₀, rfl⟩ := mem_update.mp hs
  refine ⟨s₀, hs₀, ?_, ?_⟩
  · split
    · exact hkey s₀
    · rfl
  · split
    · exact hf s₀
    · rfl

/-- The row that a row of a table whose references agree refers to. -/
theorem Agree.find? (h : t.Agree u refs own theirs) (hpresent : t.Present u refs) {r : ρ}
    (hr : r ∈ t) {k : Int} (hk : refs r k) : ∃ s, u.find? k = some s ∧ theirs s = own r := by
  obtain ⟨s, hs, rfl⟩ := mem_keys.mp (hpresent r hr k hk)
  exact ⟨s, find?_key hs, (h r hr s hs hk).symm⟩

end Lib.Table
