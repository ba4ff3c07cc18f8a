import Mathlib.Data.List.Chain
import Mathlib.Data.List.Nodup

/-!
# Doubly linked lists behind a head cell

`Links P nx pv h l`: starting from the cell `h` the forward pointers visit `l`
and come back to `h`, and every visited cell that satisfies `P` points back.
With `P` always true this is a circular list with an embedded head; with
`P b := b ≠ h` it is a null-terminated list whose head pointer is `nx h`.
-/

namespace LiteosM.Lib.LinkedList

variable {ν : Type} {P : ν → Prop} {nx pv nx' pv' : ν → ν} {h x : ν} {l l₁ l₂ : List ν}

def Links (P : ν → Prop) (nx pv : ν → ν) (h : ν) (l : List ν) : Prop :=
  List.IsChain (fun a b => nx a = b ∧ (P b → pv b = a)) (h :: (l ++ [h]))

/-- A chain survives a change of relation on the pairs it really contains. -/
theorem isChain_imp_ends {R S : ν → ν → Prop} (hc : List.IsChain R l)
    (hi : ∀ c d, c ∈ l.dropLast → d ∈ l.tail → R c d → S c d) : List.IsChain S l := by
  induction l with
  | nil => exact List.isChain_nil
  | cons c l ih =>
    cases l with
    | nil => exact List.isChain_singleton c
    | cons d l =>
      rw [List.isChain_cons_cons] at hc ⊢
      refine ⟨hi c d (by simp) (by simp) hc.1, ih hc.2 fun a b ha hb hr => ?_⟩
      exact hi a b (by simp [ha]) (by simpa using List.mem_of_mem_tail hb) hr

theorem cons_eq_append_last (h : ν) (l : List ν) : ∃ u, h :: l = u ++ [l.getLastD h] := by
  rcases List.eq_nil_or_concat l with rfl | ⟨u, a, rfl⟩
  · exact ⟨[], rfl⟩
  · exact ⟨h :: u, by simp⟩

theorem append_eq_head_cons (h : ν) (l : List ν) : ∃ w, l ++ [h] = l.headD h :: w := by
  cases l with
  | nil => exact ⟨[], rfl⟩
  | cons a w => exact ⟨w ++ [h], rfl⟩

theorem links_nil : Links P nx pv h [] ↔ nx h = h ∧ (P h → pv h = h) := by
  simp [Links]

theorem isChain_unique (hc : List.IsChain (fun a b => nx a = b) (x :: (l₁ ++ [h])))
    (hc' : List.IsChain (fun a b => nx a = b) (x :: (l₂ ++ [h]))) (hh : h ∉ l₁) (hh' : h ∉ l₂) : l₁ = l₂ := by
  induction l₁ generalizing x l₂ with
  | nil =>
    cases l₂ with
    | nil => rfl
    | cons b l₂ =>
      have hb : h = b := (List.isChain_cons_cons.mp hc).1.symm.trans (List.isChain_cons_cons.mp hc').1
      exact absurd (hb ▸ List.mem_cons_self) hh'
  | cons a l₁ ih =>
    obtain ⟨ha, hc⟩ := List.isChain_cons_cons.mp hc
    cases l₂ with
    | nil =>
      have hah : h = a := (List.isChain_cons_cons.mp hc').1.symm.trans ha
      exact absurd (hah ▸ List.mem_cons_self) hh
    | cons b l₂ =>
      obtain ⟨hb, hc'⟩ := List.isChain_cons_cons.mp hc'
      obtain rfl : a = b := ha.symm.trans hb
      rw [ih hc hc' (fun hm => hh (List.mem_cons_of_mem a hm)) fun hm => hh' (List.mem_cons_of_mem a hm)]

theorem links_append : Links P nx pv h (l₁ ++ l₂) ↔
    List.IsChain (fun a b => nx a = b ∧ (P b → pv b = a)) (h :: l₁) ∧
    (nx (l₁.getLastD h) = l₂.headD h ∧ (P (l₂.headD h) → pv (l₂.headD h) = l₁.getLastD h)) ∧
    List.IsChain (fun a b => nx a = b ∧ (P b → pv b = a)) (l₂ ++ [h]) := by
  obtain ⟨u, hu⟩ := cons_eq_append_last h l₁
  obtain ⟨w, hw⟩ := append_eq_head_cons h l₂
  have he : h :: ((l₁ ++ l₂) ++ [h]) = u ++ l₁.getLastD h :: l₂.headD h :: w := by
    rw [List.append_assoc, hw, ← List.cons_append, hu, List.append_assoc]
    rfl
  unfold Links
  rw [he, List.isChain_append_cons_cons, ← hu, ← hw]

theorem links_cell (hl : Links P nx pv h (l₁ ++ x :: l₂)) :
    nx x = l₂.headD h ∧ (P x → pv x = l₁.getLastD h) ∧ nx (l₁.getLastD h) = x ∧
      (P (l₂.headD h) → pv (l₂.headD h) = x) := by
  have h1 := (links_append.mp hl).2.1
  have hl' : Links P nx pv h ((l₁ ++ [x]) ++ l₂) := by simpa using hl
  have h2 := links_append.mp hl'
  simp only [List.headD_cons] at h1
  have h3 := h2.2.1
  rw [List.getLastD_concat] at h3
  exact ⟨h3.1, h1.2, h1.1, h3.2⟩

theorem links_head (hl : Links P nx pv h l) : nx h = l.headD h := by
  have hl' : Links P nx pv h ([] ++ l) := hl
  have h1 := links_append.mp hl'
  exact h1.2.1.1

theorem links_next_mem (hl : Links P nx pv h l) (hx : x ∈ l) : nx x = h ∨ nx x ∈ l := by
  obtain ⟨l₁, l₂, rfl⟩ := List.append_of_mem hx
  rw [(links_cell hl).1]
  cases l₂ with
  | nil => exact Or.inl rfl
  | cons a l₂ => exact Or.inr (by simp)

theorem getLastD_mem (h : ν) (l : List ν) : l.getLastD h ∈ h :: l := by
  obtain ⟨u, hu⟩ := cons_eq_append_last h l
  simp [hu]

theorem headD_mem (h : ν) (l : List ν) : l.headD h ∈ h :: l := by
  cases l <;> simp

theorem links_congr (hl : Links P nx pv h l) (hn : ∀ a ∈ h :: l, nx' a = nx a)
    (hp : ∀ a ∈ h :: l, P a → pv' a = pv a) : Links P nx' pv' h l := by
  refine isChain_imp_ends hl fun c d hc hd hr => ?_
  have hc' : c ∈ h :: l := by
    rw [show h :: (l ++ [h]) = (h :: l) ++ [h] from rfl, List.dropLast_concat] at hc
    exact hc
  have hd' : d ∈ h :: l := by
    simp only [List.tail_cons, List.mem_append, List.mem_singleton] at hd
    rcases hd with hd | rfl
    · exact List.mem_cons_of_mem _ hd
    · exact List.mem_cons_self
  exact ⟨(hn c hc').trans hr.1, fun hP => (hp d hd' hP).trans (hr.2 hP)⟩

theorem ends_congr (hnd : (h :: (l₁ ++ l₂)).Nodup)
    (hn : ∀ a ∈ h :: (l₁ ++ l₂), a ≠ l₁.getLastD h → nx' a = nx a)
    (hp : ∀ a ∈ h :: (l₁ ++ l₂), P a → a ≠ l₂.headD h → pv' a = pv a) :
    (List.IsChain (fun a b => nx a = b ∧ (P b → pv b = a)) (h :: l₁) →
      List.IsChain (fun a b => nx' a = b ∧ (P b → pv' b = a)) (h :: l₁)) ∧
    (List.IsChain (fun a b => nx a = b ∧ (P b → pv b = a)) (l₂ ++ [h]) →
      List.IsChain (fun a b => nx' a = b ∧ (P b → pv' b = a)) (l₂ ++ [h])) := by
  have hnd' : (h :: l₁ ++ l₂).Nodup := hnd
  obtain ⟨hn1, hn2, hdisj⟩ := List.nodup_append.mp hnd'
  constructor
  · intro hc
    refine isChain_imp_ends hc fun c d hcm hdm hr => ?_
    obtain ⟨u, hu⟩ := cons_eq_append_last h l₁
    have hcl : c ≠ l₁.getLastD h := by
      rw [hu, List.dropLast_concat] at hcm
      rw [hu] at hn1
      intro he
      exact (List.nodup_append.mp hn1).2.2 c hcm _ (List.mem_singleton_self _) he
    have hd1 : d ∈ l₁ := hdm
    have hdh : d ≠ l₂.headD h := by
      cases l₂ with
      | nil =>
        intro he
        have he : d = h := he
        exact (List.nodup_cons.mp hn1).1 (he ▸ hd1)
      | cons b l₂ => exact hdisj d (List.mem_cons_of_mem _ hd1) b List.mem_cons_self
    have hc1 : c ∈ h :: l₁ := (List.dropLast_sublist _).mem hcm
    have hcm' : c ∈ h :: (l₁ ++ l₂) := List.mem_append_left l₂ hc1
    exact ⟨(hn c hcm' hcl).trans hr.1,
      fun hP => (hp d (by simp [hd1]) hP hdh).trans (hr.2 hP)⟩
  · intro hc
    refine isChain_imp_ends hc fun c d hcm hdm hr => ?_
    rw [List.dropLast_concat] at hcm
    have hcl : c ≠ l₁.getLastD h := fun he => hdisj _ (getLastD_mem h l₁) c hcm he.symm
    have hdm' : d ∈ h :: (l₁ ++ l₂) ∧ d ≠ l₂.headD h := by
      cases l₂ with
      | nil => cases hdm
      | cons b l₂ =>
        have hd : d ∈ l₂ ++ [h] := hdm
        rcases List.mem_append.mp hd with hd | hd
        · refine ⟨by simp [hd], ?_⟩
          rintro rfl
          exact (List.nodup_cons.mp hn2).1 hd
        · rw [List.mem_singleton.mp hd]
          exact ⟨List.mem_cons_self, hdisj h List.mem_cons_self b List.mem_cons_self⟩
    exact ⟨(hn c (by simp [hcm]) hcl).trans hr.1,
      fun hP => (hp d hdm'.1 hP hdm'.2).trans (hr.2 hP)⟩

theorem links_insert (hl : Links P nx pv h (l₁ ++ l₂)) (hnd : (h :: (l₁ ++ l₂)).Nodup)
    (ha : nx' (l₁.getLastD h) = x) (hx : nx' x = l₂.headD h)
    (hpx : P x → pv' x = l₁.getLastD h) (hb : P (l₂.headD h) → pv' (l₂.headD h) = x)
    (hn : ∀ a ∈ h :: (l₁ ++ l₂), a ≠ l₁.getLastD h → nx' a = nx a)
    (hp : ∀ a ∈ h :: (l₁ ++ l₂), P a → a ≠ l₂.headD h → pv' a = pv a) :
    Links P nx' pv' h (l₁ ++ x :: l₂) := by
  obtain ⟨h1, _, h2⟩ := links_append.mp hl
  obtain ⟨e1, e2⟩ := ends_congr hnd hn hp
  obtain ⟨w, hw⟩ := append_eq_head_cons h l₂
  refine links_append.mpr ⟨e1 h1, ⟨ha, hpx⟩, ?_⟩
  have h3 := e2 h2
  rw [List.cons_append, hw, List.isChain_cons_cons, ← hw]
  exact ⟨⟨hx, hb⟩, h3⟩

theorem links_remove (hl : Links P nx pv h (l₁ ++ x :: l₂)) (hnd : (h :: (l₁ ++ x :: l₂)).Nodup)
    (ha : nx' (l₁.getLastD h) = l₂.headD h)
    (hb : P (l₂.headD h) → pv' (l₂.headD h) = l₁.getLastD h)
    (hn : ∀ a ∈ h :: (l₁ ++ l₂), a ≠ l₁.getLastD h → nx' a = nx a)
    (hp : ∀ a ∈ h :: (l₁ ++ l₂), P a → a ≠ l₂.headD h → pv' a = pv a) :
    Links P nx' pv' h (l₁ ++ l₂) := by
  have hnd' : (h :: (l₁ ++ l₂)).Nodup :=
    hnd.sublist ((List.Sublist.append_left (List.sublist_cons_self x l₂) l₁).cons_cons h)
  obtain ⟨h1, _, h2⟩ := links_append.mp hl
  obtain ⟨e1, e2⟩ := ends_congr hnd' hn hp
  refine links_append.mpr ⟨e1 h1, ⟨ha, hb⟩, e2 ?_⟩
  rw [List.cons_append] at h2
  exact h2.tail

end LiteosM.Lib.LinkedList
