/-!
# While loops with a bound on their rounds
-/

namespace LiteosM.Lib.While

/-- `while (cond) body`, for at most `fuel` rounds; `none` when that is not enough. -/
def whileLoop {σ : Type} (cond : σ → Bool) (body : σ → σ) : Nat → σ → Option σ
  | 0, s => if cond s then none else some s
  | fuel + 1, s => if cond s then whileLoop cond body fuel (body s) else some s

variable {σ : Type} {cond : σ → Bool} {body : σ → σ}

theorem whileLoop_exit {s : σ} (h : cond s = false) (fuel : Nat) :
    whileLoop cond body fuel s = some s := by
  cases fuel with
  | zero => simp [whileLoop, h]
  | succ fuel => simp [whileLoop, h]

theorem whileLoop_round {s : σ} (h : cond s = true) (fuel : Nat) :
    whileLoop cond body (fuel + 1) s = whileLoop cond body fuel (body s) := by
  simp [whileLoop, h]

theorem whileLoop_mono {fuel fuel' : Nat} {s t : σ} (h : whileLoop cond body fuel s = some t)
    (hle : fuel ≤ fuel') : whileLoop cond body fuel' s = some t := by
  induction fuel generalizing fuel' s with
  | zero =>
    cases hc : cond s with
    | true => simp [whileLoop, hc] at h
    | false =>
      rw [whileLoop_exit hc] at h ⊢
      exact h
  | succ fuel ih =>
    cases hc : cond s with
    | true =>
      obtain ⟨k, rfl⟩ := Nat.exists_eq_add_of_le' (Nat.le_trans (Nat.succ_le_succ (Nat.zero_le fuel)) hle)
      rw [whileLoop_round hc] at h ⊢
      exact ih h (Nat.le_of_succ_le_succ hle)
    | false =>
      rw [whileLoop_exit hc] at h ⊢
      exact h

theorem whileLoop_invariant (I : σ → Prop) (hround : ∀ s, I s → cond s = true → I (body s)) {fuel : Nat} {s t : σ}
    (h : whileLoop cond body fuel s = some t) (hs : I s) : I t := by
  induction fuel generalizing s with
  | zero =>
    cases hc : cond s with
    | true => simp [whileLoop, hc] at h
    | false =>
      rw [whileLoop_exit hc] at h
      cases h
      exact hs
  | succ fuel ih =>
    cases hc : cond s with
    | true =>
      rw [whileLoop_round hc] at h
      exact ih h (hround s hs hc)
    | false =>
      rw [whileLoop_exit hc] at h
      cases h
      exact hs

/-- Total correctness. The measure need not go down in the last round. -/
theorem whileLoop_total (cond : σ → Bool) (body : σ → σ) (I : σ → Prop) (measure : σ → Nat)
    (hround : ∀ s, I s → cond s = true →
      I (body s) ∧ (cond (body s) = true → measure (body s) < measure s))
    {s : σ} (hs : I s) :
    ∃ t, (∀ fuel > measure s, whileLoop cond body fuel s = some t) ∧ I t ∧ cond t = false := by
  generalize hn : measure s = n
  induction n using Nat.strongRecOn generalizing s with
  | ind n ih =>
    cases hc : cond s with
    | false => exact ⟨s, fun fuel _ => whileLoop_exit hc fuel, hs, hc⟩
    | true =>
      obtain ⟨hI, hless⟩ := hround s hs hc
      cases hc' : cond (body s) with
      | false =>
        refine ⟨body s, fun fuel hf => ?_, hI, hc'⟩
        obtain ⟨k, rfl⟩ : ∃ k, fuel = k + 1 := ⟨fuel - 1, by omega⟩
        rw [whileLoop_round hc]
        exact whileLoop_exit hc' k
      | true =>
        obtain ⟨t, ht, hIt, hct⟩ := ih _ (hn ▸ hless hc') hI rfl
        refine ⟨t, fun fuel hf => ?_, hIt, hct⟩
        obtain ⟨k, rfl⟩ : ∃ k, fuel = k + 1 := ⟨fuel - 1, by omega⟩
        rw [whileLoop_round hc]
        exact ht k (by have := hless hc'; omega)

end LiteosM.Lib.While
