import Mathlib.Tactic.TypeStar

/-!
# Runs of a labelled transition system
-/

namespace LiteosM.Lib.Transition

variable {σ α : Type*} {step : σ → α → σ → Prop} {s t u : σ} {as bs : List α}

/-- `Run step s as t`: the labels `as` lead from `s` to `t`. -/
inductive Run (step : σ → α → σ → Prop) (s : σ) : List α → σ → Prop
  | nil : Run step s [] s
  | snoc {t u : σ} {as : List α} {a : α} (run : Run step s as t) (last : step t a u) :
      Run step s (as ++ [a]) u

theorem run_single {a : α} (h : step s a t) : Run step s [a] t := Run.snoc Run.nil h

theorem run_append (h₁ : Run step s as t) (h₂ : Run step t bs u) : Run step s (as ++ bs) u := by
  induction h₂ with
  | nil => simpa using h₁
  | snoc _ last ih =>
    rw [← List.append_assoc]
    exact Run.snoc ih last

/-- The labels of the run satisfy what another step relation asks for besides. -/
theorem run_mono_mem {step' : σ → α → σ → Prop} (hrun : Run step s as t)
    (h : ∀ s t, ∀ a ∈ as, step s a t → step' s a t) : Run step' s as t := by
  induction hrun with
  | nil => exact Run.nil
  | snoc _ last ih =>
    refine Run.snoc (ih fun s t a ha => h s t a (List.mem_append_left _ ha)) (h _ _ _ ?_ last)
    exact List.mem_append_right _ (List.mem_singleton_self _)

theorem run_mono {step' : σ → α → σ → Prop} (h : ∀ s a t, step s a t → step' s a t)
    (hrun : Run step s as t) : Run step' s as t :=
  run_mono_mem hrun fun s t a _ => h s a t

theorem run_of_foldlM {f : σ → α → Option σ} (h : as.foldlM f s = some t) :
    Run (fun s a t => f s a = some t) s as t := by
  induction as generalizing s with
  | nil =>
    rw [List.foldlM_nil] at h
    cases h
    exact Run.nil
  | cons a as ih =>
    rw [List.foldlM_cons] at h
    cases hf : f s a with
    | none =>
      rw [hf] at h
      cases h
    | some u =>
      rw [hf] at h
      exact run_append (run_single hf) (ih h)

def guarded (ok : σ → α → Prop) [∀ s a, Decidable (ok s a)] (f : σ → α → Option σ) (s : σ) (a : α) : Option σ :=
  if ok s a then f s a else none

theorem run_of_guarded {ok : σ → α → Prop} [∀ s a, Decidable (ok s a)] {f : σ → α → Option σ}
    (h : as.foldlM (guarded ok f) s = some t) : Run (fun s a t => f s a = some t ∧ ok s a) s as t := by
  refine run_mono (fun s a t h => ?_) (run_of_foldlM h)
  obtain ⟨hok, h⟩ := Option.ite_none_right_eq_some.mp h
  exact ⟨h, hok⟩

theorem run_invariant (I : σ → Prop) (hstep : ∀ s a t, I s → step s a t → I t)
    (hrun : Run step s as t) (hs : I s) : I t := by
  induction hrun with
  | nil => exact hs
  | snoc _ last ih => exact hstep _ _ _ ih last

theorem run_results {β : Type*} {step : σ → α × β → σ → Prop} (hrun : Run (fun s a t => ∃ b, step s (a, b) t) s as t) :
    ∃ xs : List (α × β), xs.map Prod.fst = as ∧ Run step s xs t := by
  induction hrun with
  | nil => exact ⟨[], rfl, Run.nil⟩
  | @snoc t u as a run last ih =>
    obtain ⟨xs, rfl, hxs⟩ := ih
    obtain ⟨b, hb⟩ := last
    exact ⟨xs ++ [(a, b)], List.map_append, Run.snoc hxs hb⟩

end LiteosM.Lib.Transition
