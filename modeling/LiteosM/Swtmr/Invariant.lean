import LiteosM.Lib.SortedList
import LiteosM.Swtmr.Source

/-!
# The timers and their lists

A timer that is not in use is on the free list, one that ticks on the sort link, in the order
of the response times.
-/

namespace LiteosM.Swtmr

open LiteosM.Lib.SortedList

section

variable {s s' : SwtmrState} {t u : Nat} {f : SwtmrCtrl → SwtmrCtrl} {info : SwtmrAlignData}

theorem modify_self (s : SwtmrState) (t : Nat) (f : SwtmrCtrl → SwtmrCtrl) :
    (s.modify t f).gSwtmrCBArray t = f (s.gSwtmrCBArray t) := Function.update_self ..

theorem modify_of_ne (h : u ≠ t) : (s.modify t f).gSwtmrCBArray u = s.gSwtmrCBArray u :=
  Function.update_of_ne h ..

theorem modify_same (h : f (s.gSwtmrCBArray t) = s.gSwtmrCBArray t) : s.modify t f = s := by
  unfold SwtmrState.modify
  rw [h, Function.update_eq_self]

theorem responseTime_of_ne (h : u ≠ t) : (s.modify t f).responseTime u = s.responseTime u :=
  congrArg SwtmrCtrl.responseTime (modify_of_ne h)

variable [SwtmrConfig]

/-- What a timer in use has been set up with. -/
structure TimerOk (cb : SwtmrCtrl) : Prop where
  pos : 1 ≤ cb.uwInterval
  word : cb.uwInterval < 2 ^ 32
  mode : cb.ucMode ≠ .opp
  handler : cb.pfnHandler.isSome

/-- `out` is a timer that is between the lists. -/
structure Fits (s : SwtmrState) (out : Option Nat) : Prop where
  ids : ∀ t < SwtmrConfig.swtmrLimit, s.alignIndex t = t
  freeOnce : s.gSwtmrFreeList.Nodup
  free : ∀ t, t ∈ s.gSwtmrFreeList ↔
    out ≠ some t ∧ t < SwtmrConfig.swtmrLimit ∧ (s.gSwtmrCBArray t).ucState = .unused
  once : s.gSwtmrSortLink.Nodup
  linked : ∀ t, t ∈ s.gSwtmrSortLink ↔
    out ≠ some t ∧ t < SwtmrConfig.swtmrLimit ∧ (s.gSwtmrCBArray t).ucState = .ticking
  sorted : s.gSwtmrSortLink.Pairwise fun a b => s.responseTime a ≤ s.responseTime b
  timer : ∀ t < SwtmrConfig.swtmrLimit, out ≠ some t → (s.gSwtmrCBArray t).ucState ≠ .unused →
    TimerOk (s.gSwtmrCBArray t)
  time : ∀ t ∈ s.gSwtmrSortLink, s.responseTime t ≠ ⊤
  aligned : SwtmrConfig.align = true → ∀ t ∈ s.gSwtmrSortLink, (s.alignInfo t).canAlign = true →
    (s.alignInfo t).isAligned = true

def SwtmrInv (s : SwtmrState) : Prop := Fits s none

theorem Fits.congr {out : Option Nat} (h : Fits s out) (hcb : s'.gSwtmrCBArray = s.gSwtmrCBArray)
    (hfree : s'.gSwtmrFreeList = s.gSwtmrFreeList) (hlink : s'.gSwtmrSortLink = s.gSwtmrSortLink)
    (halign : s'.gSwtmrAlignID = s.gSwtmrAlignID) : Fits s' out := by
  obtain ⟨cb, free, link, align, written, reads⟩ := s
  obtain ⟨cb', free', link', align', written', reads'⟩ := s'
  dsimp only at hcb hfree hlink halign
  subst hcb hfree hlink halign
  exact ⟨h.ids, h.freeOnce, h.free, h.once, h.linked, h.sorted, h.timer, h.time, h.aligned⟩

theorem Fits.not_linked (h : Fits s (some t)) : t ∉ s.gSwtmrSortLink := fun hmem =>
  ((h.linked t).mp hmem).1 rfl

theorem Fits.not_free (h : Fits s (some t)) : t ∉ s.gSwtmrFreeList := fun hmem =>
  ((h.free t).mp hmem).1 rfl

theorem Fits.modify (h : Fits s (some t)) (hid : (f (s.gSwtmrCBArray t)).usTimerID % SwtmrConfig.swtmrLimit =
    (s.gSwtmrCBArray t).usTimerID % SwtmrConfig.swtmrLimit) : Fits (s.modify t f) (some t) := by
  have hindex : ∀ u, (s.modify t f).alignIndex u = s.alignIndex u := by
    intro u
    unfold SwtmrState.alignIndex
    by_cases hu : u = t
    · rw [hu, modify_self, hid]
    · rw [modify_of_ne hu]
  have hinfo : ∀ u, (s.modify t f).alignInfo u = s.alignInfo u := fun u =>
    congrArg s.gSwtmrAlignID (hindex u)
  have hne : ∀ u, some t ≠ some u → u ≠ t := fun u hu he => hu (congrArg some he.symm)
  have hlink : ∀ u ∈ s.gSwtmrSortLink, u ≠ t := fun u hu he => h.not_linked (he ▸ hu)
  refine ⟨fun u hu => (hindex u).trans (h.ids u hu), h.freeOnce, fun u => ?_, h.once, fun u => ?_, ?_,
    fun u hu ho hs => ?_, fun u hu => ?_, fun ha u hu hc => ?_⟩
  · refine (h.free u).trans (and_congr_right fun ho => ?_)
    rw [modify_of_ne (hne u ho)]
  · refine (h.linked u).trans (and_congr_right fun ho => ?_)
    rw [modify_of_ne (hne u ho)]
  · refine h.sorted.imp_of_mem fun ha hb hab => ?_
    rw [responseTime_of_ne (hlink _ ha), responseTime_of_ne (hlink _ hb)]
    exact hab
  · rw [modify_of_ne (hne u ho)] at hs ⊢
    exact h.timer u hu ho hs
  · rw [responseTime_of_ne (hlink u hu)]
    exact h.time u hu
  · rw [hinfo] at hc ⊢
    exact h.aligned ha u hu hc

theorem alignInfo_setAlign (s : SwtmrState) (t : Nat) (info : SwtmrAlignData) :
    (s.setAlign t info).alignInfo t = info := Function.update_self ..

theorem alignInfo_of_ne {out : Option Nat} (h : Fits s out) (ht : t < SwtmrConfig.swtmrLimit)
    (hu : u < SwtmrConfig.swtmrLimit) (hne : u ≠ t) : (s.setAlign t info).alignInfo u = s.alignInfo u := by
  refine Function.update_of_ne ?_ ..
  show s.alignIndex u ≠ s.alignIndex t
  rw [h.ids u hu, h.ids t ht]
  exact hne

theorem Fits.setAlign (h : Fits s (some t)) (ht : t < SwtmrConfig.swtmrLimit) (info : SwtmrAlignData) :
    Fits (s.setAlign t info) (some t) := by
  refine ⟨h.ids, h.freeOnce, h.free, h.once, h.linked, h.sorted, h.timer, h.time, fun ha u hu hc => ?_⟩
  have hne : u ≠ t := fun he => h.not_linked (he ▸ hu)
  rw [alignInfo_of_ne h ht ((h.linked u).mp hu).2.1 hne] at hc ⊢
  exact h.aligned ha u hu hc

theorem osDeleteNodeSortLink_fits (h : SwtmrInv s) (ht : t ∈ s.gSwtmrSortLink) :
    Fits (osDeleteNodeSortLink s t) (some t) := by
  have hrest : Fits { s with gSwtmrSortLink := s.gSwtmrSortLink.erase t } (some t) := by
    have hmem : ∀ u, u ∈ s.gSwtmrSortLink.erase t ↔ u ≠ t ∧ u ∈ s.gSwtmrSortLink := fun u =>
      h.once.mem_erase_iff
    have hstate := (h.linked t).mp ht
    refine ⟨h.ids, h.freeOnce, fun u => (h.free u).trans ?_, h.once.erase t, fun u => (hmem u).trans ?_,
      h.sorted.sublist List.erase_sublist, fun u hu _ => h.timer u hu nofun,
      fun u hu => h.time u (List.mem_of_mem_erase hu), fun ha u hu => h.aligned ha u (List.mem_of_mem_erase hu)⟩
    · refine and_congr_left fun hu => iff_of_true nofun fun he => ?_
      obtain rfl : t = u := Option.some.inj he
      exact absurd (hu.2.symm.trans hstate.2.2) nofun
    · rw [h.linked u]
      constructor
      · intro ⟨hne, _, hu⟩
        exact ⟨fun he => hne (Option.some.inj he).symm, hu⟩
      · intro ⟨hne, hu⟩
        exact ⟨fun he => hne (congrArg some he.symm), nofun, hu⟩
  exact hrest.modify rfl

theorem SwtmrInv.take (h : SwtmrInv s) (hs : (s.gSwtmrCBArray t).ucState = .created) : Fits s (some t) := by
  refine ⟨h.ids, h.freeOnce, fun u => (h.free u).trans ?_, h.once, fun u => (h.linked u).trans ?_, h.sorted,
    fun u hu _ => h.timer u hu nofun, h.time, h.aligned⟩
  · refine and_congr_left fun hu => iff_of_true nofun fun he => ?_
    obtain rfl : t = u := Option.some.inj he
    exact absurd (hu.2.symm.trans hs) nofun
  · refine and_congr_left fun hu => iff_of_true nofun fun he => ?_
    obtain rfl : t = u := Option.some.inj he
    exact absurd (hu.2.symm.trans hs) nofun

theorem Fits.settle (h : Fits s (some t)) (hs : (s.gSwtmrCBArray t).ucState = .created)
    (hok : TimerOk (s.gSwtmrCBArray t)) : SwtmrInv s := by
  have hmove : ∀ st : SwtmrStatus, st ≠ .created → ∀ u, (some t ≠ some u ∧ u < SwtmrConfig.swtmrLimit ∧
      (s.gSwtmrCBArray u).ucState = st) ↔ (none ≠ some u ∧ u < SwtmrConfig.swtmrLimit ∧
      (s.gSwtmrCBArray u).ucState = st) := by
    intro st hst u
    refine and_congr_left fun hu => iff_of_true (fun he => ?_) nofun
    obtain rfl : t = u := Option.some.inj he
    exact hst (hu.2.symm.trans hs)
  refine ⟨h.ids, h.freeOnce, fun u => (h.free u).trans (hmove .unused nofun u), h.once,
    fun u => (h.linked u).trans (hmove .ticking nofun u), h.sorted, fun u hu _ hst => ?_, h.time, h.aligned⟩
  by_cases he : t = u
  · exact he ▸ hok
  · exact h.timer u hu (fun h' => he (Option.some.inj h')) hst

theorem Fits.release (h : Fits s (some t)) (ht : t < SwtmrConfig.swtmrLimit)
    (hs : (s.gSwtmrCBArray t).ucState = .unused) :
    SwtmrInv { s with gSwtmrFreeList := t :: s.gSwtmrFreeList } := by
  refine ⟨h.ids, List.nodup_cons.mpr ⟨h.not_free, h.freeOnce⟩, fun u => ?_, h.once, fun u => (h.linked u).trans ?_,
    h.sorted, fun u hu _ hst => ?_, h.time, h.aligned⟩
  · rw [List.mem_cons, h.free u]
    constructor
    · rintro (rfl | ⟨_, hu⟩)
      · exact ⟨nofun, ht, hs⟩
      · exact ⟨nofun, hu⟩
    · intro ⟨_, hu⟩
      by_cases he : u = t
      · exact .inl he
      · exact .inr ⟨fun h' => he (Option.some.inj h').symm, hu⟩
  · refine and_congr_left fun hu => iff_of_true (fun he => ?_) nofun
    obtain rfl : t = u := Option.some.inj he
    exact absurd (hs.symm.trans hu.2) nofun
  · refine h.timer u hu (fun he => ?_) hst
    obtain rfl : t = u := Option.some.inj he
    exact hst hs

omit [SwtmrConfig] in
theorem osAddNode2SortLink_place {responseTime : Nat → WithTop Nat} {l : List Nat}
    (h : l.Pairwise fun a b => responseTime a ≤ responseTime b) (t : Nat) :
    ∃ l₁ l₂, l = l₁ ++ l₂ ∧ osAddNode2SortLink responseTime l t = l₁ ++ t :: l₂ ∧
      (∀ u ∈ l₁, responseTime u ≤ responseTime t) ∧ ∀ u ∈ l₂, responseTime t ≤ responseTime u := by
  unfold osAddNode2SortLink
  cases l with
  | nil => exact ⟨[], [], rfl, rfl, nofun, nofun⟩
  | cons head rest =>
    dsimp only
    split
    · next hfirst =>
      refine ⟨[], head :: rest, rfl, rfl, nofun, fun u hu => ?_⟩
      rcases List.mem_cons.mp hu with rfl | hu
      · exact hfirst
      · exact hfirst.trans ((List.pairwise_cons.mp h).1 u hu)
    · obtain ⟨hbefore, hbehind⟩ := insert_place (responseTime t) h
      exact ⟨_, _, List.rdropWhile_append_rtakeWhile.symm, rfl, hbefore, fun u hu => (hbehind u hu).le⟩

/-- A timer is on the sort link again, before the later ones. -/
structure Linked (s s' : SwtmrState) (t : Nat) : Prop where
  inv : SwtmrInv s'
  place : ∃ l₁ l₂, s.gSwtmrSortLink = l₁ ++ l₂ ∧ s'.gSwtmrSortLink = l₁ ++ t :: l₂ ∧
    (∀ u ∈ l₁, s'.responseTime u ≤ s'.responseTime t) ∧ ∀ u ∈ l₂, s'.responseTime t ≤ s'.responseTime u
  others : ∀ u, u ≠ t → s'.gSwtmrCBArray u = s.gSwtmrCBArray u
  written : s'.written = s.written

theorem osAdd2SortLink_linked (h : Fits s (some t)) (ht : t < SwtmrConfig.swtmrLimit)
    (hs : (s.gSwtmrCBArray t).ucState = .ticking) (hok : TimerOk (s.gSwtmrCBArray t))
    (ha : SwtmrConfig.align = true → (s.alignInfo t).canAlign = true → (s.alignInfo t).isAligned = true)
    (startTime waitTicks : Nat) : Linked s (osAdd2SortLink s t startTime waitTicks) t := by
  have h1 : Fits (s.modify t fun cb => { cb with
      responseTime := ↑(startTime + waitTicks * osCyclePerTick) }) (some t) := h.modify rfl
  unfold osAdd2SortLink
  generalize hr : ((startTime + waitTicks * osCyclePerTick : Nat) : WithTop Nat) = r at h1 ⊢
  have hcb : (s.modify t fun cb => { cb with responseTime := r }).gSwtmrCBArray t =
      { s.gSwtmrCBArray t with responseTime := r } := modify_self ..
  have hlink : (s.modify t fun cb => { cb with responseTime := r }).gSwtmrSortLink = s.gSwtmrSortLink := rfl
  have hinfo : (s.modify t fun cb => { cb with responseTime := r }).alignInfo t = s.alignInfo t := by
    unfold SwtmrState.alignInfo SwtmrState.alignIndex
    rw [hcb]
    rfl
  have hothers : ∀ u, u ≠ t → (s.modify t fun cb => { cb with responseTime := r }).gSwtmrCBArray u =
      s.gSwtmrCBArray u := fun u hu => modify_of_ne hu
  have hwritten : (s.modify t fun cb => { cb with responseTime := r }).written = s.written := rfl
  generalize (s.modify t fun cb => { cb with responseTime := r }) = s₁ at *
  obtain ⟨l₁, l₂, hl, heq, hbefore, hbehind⟩ := osAddNode2SortLink_place h1.sorted t
  have hperm : (l₁ ++ t :: l₂).Perm (t :: s₁.gSwtmrSortLink) := by
    rw [hl]
    exact List.perm_middle
  dsimp only
  rw [heq]
  refine ⟨⟨h1.ids, h1.freeOnce, fun u => (h1.free u).trans ?_, ?_, fun u => ?_, ?_, fun u hu _ hst => ?_,
    fun u hu => ?_, fun hal u hu hc => ?_⟩, ⟨l₁, l₂, hlink.symm.trans hl, rfl, hbefore, hbehind⟩, hothers, hwritten⟩
  · refine and_congr_left fun hu => iff_of_true (fun he => ?_) nofun
    obtain rfl : t = u := Option.some.inj he
    rw [hcb] at hu
    exact absurd (hs.symm.trans hu.2) nofun
  · exact hperm.nodup_iff.mpr (List.nodup_cons.mpr ⟨h1.not_linked, h1.once⟩)
  · rw [hperm.mem_iff, List.mem_cons, h1.linked u]
    constructor
    · rintro (rfl | ⟨_, hu⟩)
      · exact ⟨nofun, ht, by rw [hcb]; exact hs⟩
      · exact ⟨nofun, hu⟩
    · intro ⟨_, hu⟩
      by_cases he : u = t
      · exact .inl he
      · exact .inr ⟨fun h' => he (Option.some.inj h').symm, hu⟩
  · have hp := h1.sorted
    rw [hl] at hp
    refine pairwise_insert (fun _ _ _ => le_trans) hp (fun y l hy => hbefore y ?_) fun y l hy => hbehind y ?_
    · rw [hy]
      exact List.mem_append_right _ (List.mem_singleton_self _)
    · rw [hy]
      exact List.mem_cons_self
  · by_cases he : u = t
    · rw [he, hcb]
      exact ⟨hok.pos, hok.word, hok.mode, hok.handler⟩
    · exact h1.timer u hu (fun h' => he (Option.some.inj h').symm) hst
  · rcases List.mem_cons.mp (hperm.mem_iff.mp hu) with rfl | hu
    · show (s₁.gSwtmrCBArray u).responseTime ≠ ⊤
      rw [hcb, ← hr]
      exact WithTop.coe_ne_top
    · exact h1.time u hu
  · rcases List.mem_cons.mp (hperm.mem_iff.mp hu) with rfl | hu
    · show (s₁.alignInfo u).isAligned = true
      rw [hinfo]
      exact ha hal (hinfo ▸ hc)
    · exact h1.aligned hal u hu hc

end

end LiteosM.Swtmr
