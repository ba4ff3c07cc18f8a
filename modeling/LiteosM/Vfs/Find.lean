import LiteosM.Vfs.Steps

/-!
# The search for a mount point

`los_mp_find` finds the mount point of a path by its components.
-/

namespace LiteosM.Vfs

open LiteosM.Lib.Path

variable {s : VfsState} {mPath iPath path rest : List Char} {count n m : Nat}

theorem drop_headName {p : List Char} : p.drop (headName p).length = afterName p := by
  have h : (headName p ++ afterName p).drop (headName p).length = afterName p := List.drop_left
  rwa [headName_append_afterName] at h

theorem mpMatches_nil (h : skipSlashes mPath = []) :
    mpMatches mPath iPath count = some (count, skipSlashes iPath) := by
  rw [mpMatches, dif_pos ((headName_nil_iff skipSlashes_head).mpr h)]

theorem mpMatches_cons (h : skipSlashes mPath ≠ []) :
    mpMatches mPath iPath count =
      if skipSlashes iPath ≠ [] ∧ headName (skipSlashes iPath) = headName (skipSlashes mPath) then
        if afterName (skipSlashes mPath) = [] then
          some (count + (headName (skipSlashes mPath)).length, afterName (skipSlashes iPath))
        else mpMatches (afterName (skipSlashes mPath)) (afterName (skipSlashes iPath))
          (count + (headName (skipSlashes mPath)).length)
      else none := by
  have hname : headName (skipSlashes mPath) ≠ [] := fun heq =>
    h ((headName_nil_iff skipSlashes_head).mp heq)
  rw [mpMatches, dif_neg hname, drop_headName]
  by_cases hpre : headName (skipSlashes mPath) <+: skipSlashes iPath
  · obtain ⟨tail, htail⟩ := hpre
    rw [if_neg (not_not.mpr ⟨tail, htail⟩)]
    have hdrop : (skipSlashes iPath).drop (headName (skipSlashes mPath)).length = tail := by
      rw [← htail]
      exact List.drop_left
    have hne : skipSlashes iPath ≠ [] := by
      rw [← htail]
      exact fun heq => hname (List.append_eq_nil_iff.mp heq).1
    rw [hdrop]
    by_cases hend : tail ≠ [] ∧ tail.head? ≠ some '/'
    · rw [if_pos hend, if_neg]
      rintro ⟨_, heq⟩
      -- the first component of the path would be longer
      have hsplit := headName_append_afterName (p := skipSlashes iPath)
      rw [heq, ← htail] at hsplit
      have htl := List.append_cancel_left hsplit
      obtain hnil | hslash := afterName_head (p := headName (skipSlashes mPath) ++ tail)
      · rw [hnil] at htl
        exact hend.1 htl.symm
      · rw [htl] at hslash
        exact hend.2 hslash
    · have hcut : tail = [] ∨ tail.head? = some '/' := by
        by_cases hnil : tail = []
        · exact Or.inl hnil
        · exact Or.inr (not_not.mp fun hh => hend ⟨hnil, hh⟩)
      obtain ⟨h1, h2⟩ := headName_append headName_no_slash hcut
      have hcond : skipSlashes iPath ≠ [] ∧
          headName (skipSlashes iPath) = headName (skipSlashes mPath) := ⟨hne, by rw [← htail, h1]⟩
      have hafter : afterName (skipSlashes iPath) = tail := by rw [← htail, h2]
      rw [if_neg hend, if_pos hcond, hafter]
  · rw [if_pos hpre, if_neg]
    rintro ⟨_, heq⟩
    exact hpre ⟨afterName (skipSlashes iPath), by rw [← heq]; exact headName_append_afterName⟩

/-- A mount point that matches has the first components of the path, and `i_path` has the others. The
induction is on the length of `m_path`. -/
theorem mpMatches_sound (k : Nat) : ∀ (mPath iPath : List Char) (count : Nat), mPath.length ≤ k →
    mpMatches mPath iPath count = some (n, rest) →
      components mPath ++ components rest = components iPath ∧ n = count + size (components mPath) := by
  have hbase : ∀ (mPath iPath : List Char) (count : Nat), skipSlashes mPath = [] →
      mpMatches mPath iPath count = some (n, rest) →
      components mPath ++ components rest = components iPath ∧ n = count + size (components mPath) := by
    intro mPath iPath count hnil h
    rw [mpMatches_nil hnil] at h
    cases h
    rw [components_nil_iff.mpr hnil, List.nil_append]
    exact ⟨components_skipSlashes, rfl⟩
  induction k with
  | zero =>
    intro mPath iPath count hlen h
    rw [List.length_eq_zero_iff.mp (Nat.le_zero.mp hlen)] at h ⊢
    exact hbase [] iPath count rfl h
  | succ k ih =>
    intro mPath iPath count hlen h
    by_cases hnil : skipSlashes mPath = []
    · exact hbase mPath iPath count hnil h
    · have hshort := afterName_shorter hnil
      rw [mpMatches_cons hnil] at h
      split at h
      · rename_i hcond
        rw [components_of_ne hnil, components_of_ne hcond.1, hcond.2]
        split at h
        · rename_i hend
          cases h
          rw [hend, components_nil_iff.mpr rfl]
          exact ⟨rfl, rfl⟩
        · obtain ⟨h1, h2⟩ := ih _ _ _ (by omega) h
          rw [List.cons_append, h1]
          refine ⟨rfl, ?_⟩
          rw [h2, Nat.add_assoc]
          rfl
      · cases h

theorem mpMatches_complete (k : Nat) : ∀ (mPath iPath : List Char) (count : Nat), mPath.length ≤ k →
    components mPath <+: components iPath → (mpMatches mPath iPath count).isSome = true := by
  induction k with
  | zero =>
    intro mPath iPath count hlen _
    rw [List.length_eq_zero_iff.mp (Nat.le_zero.mp hlen), mpMatches_nil rfl]
    rfl
  | succ k ih =>
    intro mPath iPath count hlen hpre
    by_cases hnil : skipSlashes mPath = []
    · rw [mpMatches_nil hnil]
      rfl
    · have hshort := afterName_shorter hnil
      rw [components_of_ne hnil] at hpre
      have hne : skipSlashes iPath ≠ [] := fun heq => by
        rw [components_nil_iff.mpr heq] at hpre
        exact absurd (List.prefix_nil.mp hpre) (List.cons_ne_nil _ _)
      rw [components_of_ne hne] at hpre
      obtain ⟨hhead, htail⟩ := List.cons_prefix_cons.mp hpre
      rw [mpMatches_cons hnil, if_pos ⟨hne, hhead.symm⟩]
      split
      · rfl
      · exact ih _ _ _ (by omega) htail

theorem mpMatches_size (h : mpMatches mPath path 0 = some (n, rest)) :
    n ≤ size (components path) ∧ (n = size (components path) → components mPath = components path ∧
      skipSlashes rest = []) := by
  obtain ⟨h1, h2⟩ := mpMatches_sound _ mPath path 0 (Nat.le_refl _) h
  have hsize : size (components path) = size (components mPath) + size (components rest) := by
    rw [← h1, size_append]
  refine ⟨by omega, fun heq => ?_⟩
  have hnil : components rest = [] := by
    by_contra hne
    have hpos := size_pos hne components_ne_nil
    omega
  rw [hnil, List.append_nil] at h1
  exact ⟨h1, components_nil_iff.mp hnil⟩

/-- The path of a mount point that has a component finds it, if no other has the same components. -/
theorem losMpFind_self (hm : m ∈ s.mountPoints) (hpath : components path = components (s.mp m).mPath)
    (hne : components path ≠ [])
    (hunique : ∀ k ∈ s.mountPoints, components (s.mp k).mPath = components path → k = m) :
    losMpFind s path = some (m, []) := by
  have hpos : 0 < size (components path) := size_pos hne components_ne_nil
  -- up to `m` the best match is shorter, and from there on it is `m`
  have hfold : ∀ (l : List Nat) (best : Nat × Option (Nat × List Char)),
      (∀ k ∈ l, k ∈ s.mountPoints) →
      (best.1 < size (components path) ∧ m ∈ l ∨ best = (size (components path), some (m, []))) →
      (l.foldl (bestMatch s path) best).2 = some (m, []) := by
    intro l
    induction l with
    | nil =>
      intro best _ hbest
      obtain ⟨_, h⟩ | rfl := hbest
      · cases h
      · rfl
    | cons k l ih =>
      intro best hl hbest
      rw [List.foldl_cons]
      refine ih _ (fun x hx => hl x (List.mem_cons_of_mem _ hx)) ?_
      unfold bestMatch
      cases hmatch : mpMatches (s.mp k).mPath path 0 with
      | none =>
        obtain ⟨hlt, hmem⟩ | hdone := hbest
        · obtain rfl | hin := List.mem_cons.mp hmem
          · have hprefix : components (s.mp m).mPath <+: components path := hpath ▸ List.prefix_rfl
            have hsome := mpMatches_complete _ (s.mp m).mPath path 0 (Nat.le_refl _) hprefix
            rw [hmatch] at hsome
            cases hsome
          · exact Or.inl ⟨hlt, hin⟩
        · exact Or.inr hdone
      | some x =>
        obtain ⟨n, rest⟩ := x
        obtain ⟨hle, heq⟩ := mpMatches_size hmatch
        dsimp only
        by_cases hfull : n = size (components path)
        · obtain ⟨hcomp, hrest⟩ := heq hfull
          have hkm := hunique k (hl k List.mem_cons_self) hcomp
          subst hkm
          obtain ⟨hlt, _⟩ | rfl := hbest
          · rw [if_pos (by omega), hfull, hrest]
            exact Or.inr rfl
          · rw [if_neg (by omega)]
            exact Or.inr rfl
        · have hkm : k ≠ m := by
            rintro rfl
            obtain ⟨_, h2⟩ := mpMatches_sound _ _ _ _ (Nat.le_refl _) hmatch
            rw [← hpath] at h2
            omega
          obtain ⟨hlt, hmem⟩ | rfl := hbest
          · have hin : m ∈ l := by
              obtain rfl | hin := List.mem_cons.mp hmem
              · exact absurd rfl hkm
              · exact hin
            split
            · exact Or.inl ⟨show n < _ by omega, hin⟩
            · exact Or.inl ⟨hlt, hin⟩
          · rw [if_neg (by omega)]
            exact Or.inr rfl
  rw [losMpFind_eq]
  exact hfold s.mountPoints (0, none) (fun k hk => hk) (Or.inl ⟨hpos, hm⟩)

end LiteosM.Vfs
