/-!
# The least of a list, found by one pass
-/

namespace LiteosM.Lib.OnePass

variable {α : Type} {P : α → Prop} {f : α → Nat} {bound val : Nat} {l : List α} {o : Option α} {c : α}

/-- After a pass over `l`: the one that has `P` and the least `f`, and its `f`. -/
def Nearest (P : α → Prop) (f : α → Nat) (bound : Nat) (l : List α) : Option α → Nat → Prop
  | none, val => val = bound ∧ ∀ c ∈ l, ¬P c
  | some c, val => (c ∈ l ∧ P c ∧ val = f c) ∧ ∀ d ∈ l, P d → f c ≤ f d

theorem nearest_nil : Nearest P f bound [] none bound := ⟨rfl, nofun⟩

theorem Nearest.skip (h : Nearest P f bound l o val) (hc : ¬P c) : Nearest P f bound (l ++ [c]) o val := by
  have hin : ∀ d ∈ l ++ [c], P d → d ∈ l := by
    intro d hd hp
    rcases List.mem_append.mp hd with hd | hd
    · exact hd
    · exact absurd (List.mem_singleton.mp hd ▸ hp) hc
  cases o with
  | none => exact ⟨h.1, fun d hd hp => h.2 d (hin d hd hp) hp⟩
  | some b =>
    obtain ⟨⟨hmem, hb⟩, hleast⟩ := h
    exact ⟨⟨List.mem_append_left _ hmem, hb⟩, fun d hd hp => hleast d (hin d hd hp) hp⟩

theorem Nearest.take (h : Nearest P f bound l o val) (hc : P c) (hless : f c < val) :
    Nearest P f bound (l ++ [c]) (some c) (f c) := by
  refine ⟨⟨List.mem_append_right _ List.mem_cons_self, hc, rfl⟩, fun d hd hp => ?_⟩
  rcases List.mem_append.mp hd with hd | hd
  · cases o with
    | none => exact absurd hp (h.2 d hd)
    | some b =>
      obtain ⟨⟨_, _, rfl⟩, hleast⟩ := h
      exact Nat.le_trans (Nat.le_of_lt hless) (hleast d hd hp)
  · exact List.mem_singleton.mp hd ▸ Nat.le_refl _

theorem Nearest.keep (h : Nearest P f bound l o val) (hc : f c < bound) (hmore : val ≤ f c) :
    Nearest P f bound (l ++ [c]) o val := by
  cases o with
  | none =>
    obtain ⟨rfl, _⟩ := h
    exact absurd hc (Nat.not_lt.mpr hmore)
  | some b =>
    obtain ⟨⟨hmem, hb, rfl⟩, hleast⟩ := h
    refine ⟨⟨List.mem_append_left _ hmem, hb, rfl⟩, fun d hd hp => ?_⟩
    rcases List.mem_append.mp hd with hd | hd
    · exact hleast d hd hp
    · exact List.mem_singleton.mp hd ▸ hmore

end LiteosM.Lib.OnePass
