import LiteosM.Swtmr.Run

/-!
# What a call does to the timers that it does not name

The intervals of the timers may be anything here, 0 as well.
-/

namespace LiteosM.Swtmr

open LiteosM.Lib.While

section

variable [SwtmrConfig] {clock : Nat → Nat} {s s' s'' : SwtmrState} {t u n : Nat} {running : Bool}

/-- What the two lists say of their timers. -/
structure Listed (s : SwtmrState) : Prop where
  ids : ∀ u < SwtmrConfig.swtmrLimit, s.alignIndex u = u
  freeOnce : s.gSwtmrFreeList.Nodup
  free : ∀ u ∈ s.gSwtmrFreeList, u < SwtmrConfig.swtmrLimit ∧ (s.gSwtmrCBArray u).ucState = .unused
  once : s.gSwtmrSortLink.Nodup
  linked : ∀ u ∈ s.gSwtmrSortLink, u < SwtmrConfig.swtmrLimit ∧ (s.gSwtmrCBArray u).ucState = .ticking ∧
    s.responseTime u ≠ ⊤

/-- Of the timers only `t` has changed. -/
structure OnlyTimer (s s' : SwtmrState) (t : Nat) : Prop where
  others : ∀ u, u ≠ t → s'.gSwtmrCBArray u = s.gSwtmrCBArray u
  align : ∀ u < SwtmrConfig.swtmrLimit, u ≠ t → s'.gSwtmrAlignID u = s.gSwtmrAlignID u
  index : s'.alignIndex t = s.alignIndex t
  free : ∀ u, u ≠ t → (u ∈ s'.gSwtmrFreeList ↔ u ∈ s.gSwtmrFreeList)
  link : ∀ u, u ≠ t → (u ∈ s'.gSwtmrSortLink ↔ u ∈ s.gSwtmrSortLink)
  reads : s.reads ≤ s'.reads

theorem OnlyTimer.trans (h : OnlyTimer s s' t) (h' : OnlyTimer s' s'' t) : OnlyTimer s s'' t where
  others u hu := (h'.others u hu).trans (h.others u hu)
  align u hlt hu := (h'.align u hlt hu).trans (h.align u hlt hu)
  index := h'.index.trans h.index
  free u hu := (h'.free u hu).trans (h.free u hu)
  link u hu := (h'.link u hu).trans (h.link u hu)
  reads := h.reads.trans h'.reads

theorem OnlyTimer.listed (h : OnlyTimer s s' t) (hl : Listed s) (ht : t < SwtmrConfig.swtmrLimit)
    (hfreeOnce : s'.gSwtmrFreeList.Nodup) (hfree : t ∈ s'.gSwtmrFreeList → (s'.gSwtmrCBArray t).ucState = .unused)
    (honce : s'.gSwtmrSortLink.Nodup)
    (hlink : t ∈ s'.gSwtmrSortLink → (s'.gSwtmrCBArray t).ucState = .ticking ∧ s'.responseTime t ≠ ⊤) :
    Listed s' := by
  refine ⟨fun u hu => ?_, hfreeOnce, fun u hu => ?_, honce, fun u hu => ?_⟩
  · by_cases hut : u = t
    · rw [hut, h.index]
      exact hl.ids t ht
    · unfold SwtmrState.alignIndex
      rw [h.others u hut]
      exact hl.ids u hu
  · by_cases hut : u = t
    · rw [hut] at hu ⊢
      exact ⟨ht, hfree hu⟩
    · rw [h.others u hut]
      exact hl.free u ((h.free u hut).mp hu)
  · by_cases hut : u = t
    · rw [hut] at hu ⊢
      exact ⟨ht, hlink hu⟩
    · unfold SwtmrState.responseTime
      rw [h.others u hut]
      exact hl.linked u ((h.link u hut).mp hu)

theorem onlyTimer_modify {f : SwtmrCtrl → SwtmrCtrl}
    (hf : (f (s.gSwtmrCBArray t)).usTimerID % SwtmrConfig.swtmrLimit =
      (s.gSwtmrCBArray t).usTimerID % SwtmrConfig.swtmrLimit) : OnlyTimer s (s.modify t f) t where
  others _ hu := modify_of_ne hu
  align _ _ _ := rfl
  index := by
    unfold SwtmrState.alignIndex
    rw [modify_self, hf]
  free _ _ := Iff.rfl
  link _ _ := Iff.rfl
  reads := Nat.le_refl _

theorem Listed.modify {f : SwtmrCtrl → SwtmrCtrl} (hl : Listed s) (ht : t < SwtmrConfig.swtmrLimit)
    (hf : (f (s.gSwtmrCBArray t)).usTimerID % SwtmrConfig.swtmrLimit =
      (s.gSwtmrCBArray t).usTimerID % SwtmrConfig.swtmrLimit)
    (hfree : t ∉ s.gSwtmrFreeList) (hlink : t ∉ s.gSwtmrSortLink) : Listed (s.modify t f) :=
  (onlyTimer_modify hf).listed hl ht hl.freeOnce (fun h => absurd h hfree) hl.once fun h => absurd h hlink

theorem onlyTimer_setAlign (hid : s.alignIndex t = t) (info : SwtmrAlignData) : OnlyTimer s (s.setAlign t info) t where
  others _ _ := rfl
  align u _ hu := by
    refine Function.update_of_ne ?_ ..
    rw [hid]
    exact hu
  index := rfl
  free _ _ := Iff.rfl
  link _ _ := Iff.rfl
  reads := Nat.le_refl _

theorem Listed.setAlign (hl : Listed s) (t : Nat) (info : SwtmrAlignData) : Listed (s.setAlign t info) :=
  ⟨hl.ids, hl.freeOnce, hl.free, hl.once, hl.linked⟩

theorem Listed.read (hl : Listed s) (n : Nat) : Listed { s with reads := n } :=
  ⟨hl.ids, hl.freeOnce, hl.free, hl.once, hl.linked⟩

theorem onlyTimer_read (hn : s.reads ≤ n) (t : Nat) : OnlyTimer s { s with reads := n } t :=
  ⟨fun _ _ => rfl, fun _ _ _ => rfl, rfl, fun _ _ => Iff.rfl, fun _ _ => Iff.rfl, hn⟩

theorem Listed.not_free (hl : Listed s) (hs : (s.gSwtmrCBArray t).ucState ≠ .unused) : t ∉ s.gSwtmrFreeList :=
  fun h => hs (hl.free t h).2

theorem Listed.not_linked (hl : Listed s) (hs : (s.gSwtmrCBArray t).ucState ≠ .ticking) : t ∉ s.gSwtmrSortLink :=
  fun h => hs (hl.linked t h).2.1

/-! ### The parts of the calls -/

theorem osDeleteNodeSortLink_only (hl : Listed s) (ht : t < SwtmrConfig.swtmrLimit) :
    OnlyTimer s (osDeleteNodeSortLink s t) t ∧ Listed (osDeleteNodeSortLink s t) ∧
      t ∉ (osDeleteNodeSortLink s t).gSwtmrSortLink ∧
      (osDeleteNodeSortLink s t).gSwtmrCBArray t = { s.gSwtmrCBArray t with responseTime := ⊤ } := by
  have hcb : (osDeleteNodeSortLink s t).gSwtmrCBArray t = { s.gSwtmrCBArray t with responseTime := ⊤ } :=
    modify_self ..
  have hoff : t ∉ (osDeleteNodeSortLink s t).gSwtmrSortLink := hl.once.not_mem_erase
  have honly : OnlyTimer s (osDeleteNodeSortLink s t) t := by
    refine ⟨fun u hu => modify_of_ne hu, fun _ _ _ => rfl, ?_, fun _ _ => Iff.rfl, fun u hu => ?_, Nat.le_refl _⟩
    · unfold SwtmrState.alignIndex
      rw [hcb]
    · exact List.mem_erase_of_ne hu
  have hfree : t ∈ (osDeleteNodeSortLink s t).gSwtmrFreeList →
      ((osDeleteNodeSortLink s t).gSwtmrCBArray t).ucState = .unused := by
    intro h
    rw [hcb]
    exact (hl.free t h).2
  have hlisted := honly.listed hl ht hl.freeOnce hfree (hl.once.erase t) fun h => absurd h hoff
  exact ⟨honly, hlisted, hoff, hcb⟩

theorem osSwtmrStop_only (hl : Listed s) (ht : t < SwtmrConfig.swtmrLimit)
    (hs : (s.gSwtmrCBArray t).ucState ≠ .unused) (running : Bool) :
    OnlyTimer s (osSwtmrStop s running t) t ∧ Listed (osSwtmrStop s running t) ∧
      t ∉ (osSwtmrStop s running t).gSwtmrSortLink ∧ ∃ r, (osSwtmrStop s running t).gSwtmrCBArray t =
        { s.gSwtmrCBArray t with ucState := .created, responseTime := r } := by
  obtain ⟨s₁, hs₁, honly, hl₁, hoff, r, hcb⟩ : ∃ s₁, s₁ = osDeleteSortLink s t ∧ OnlyTimer s s₁ t ∧ Listed s₁ ∧
      t ∉ s₁.gSwtmrSortLink ∧ ∃ r, s₁.gSwtmrCBArray t = { s.gSwtmrCBArray t with responseTime := r } := by
    refine ⟨_, rfl, ?_⟩
    unfold osDeleteSortLink
    split
    · obtain ⟨honly, hl₁, hoff, hcb⟩ := osDeleteNodeSortLink_only hl ht
      exact ⟨honly, hl₁, hoff, _, hcb⟩
    · next htop =>
      refine ⟨onlyTimer_read (Nat.le_refl _) t, hl, fun h => ?_, _, rfl⟩
      exact htop (hl.linked t h).2.2
  have hfree : t ∉ s₁.gSwtmrFreeList := hl₁.not_free (by rw [hcb]; exact hs)
  have hcb₂ : (s₁.modify t fun cb => { cb with ucState := .created }).gSwtmrCBArray t =
      { s.gSwtmrCBArray t with ucState := .created, responseTime := r } := by rw [modify_self, hcb]
  have honly₂ : OnlyTimer s (s₁.modify t fun cb => { cb with ucState := .created }) t :=
    honly.trans (onlyTimer_modify rfl)
  have hl₂ : Listed (s₁.modify t fun cb => { cb with ucState := .created }) := hl₁.modify ht rfl hfree hoff
  unfold osSwtmrStop
  dsimp only
  rw [← hs₁]
  split
  · exact ⟨honly₂.trans (onlyTimer_setAlign (hl₂.ids t ht) _), hl₂.setAlign t _, hoff, r, hcb₂⟩
  · exact ⟨honly₂, hl₂, hoff, r, hcb₂⟩

omit [SwtmrConfig] in
theorem osAddNode2SortLink_perm (responseTime : Nat → WithTop Nat) (l : List Nat) (t : Nat) :
    (osAddNode2SortLink responseTime l t).Perm (t :: l) := by
  unfold osAddNode2SortLink
  cases l with
  | nil => exact List.Perm.refl _
  | cons head rest =>
    dsimp only
    split
    · exact List.Perm.refl _
    · refine List.perm_middle.trans ?_
      rw [List.rdropWhile_append_rtakeWhile]

theorem osAdd2SortLink_only (hl : Listed s) (ht : t < SwtmrConfig.swtmrLimit)
    (hs : (s.gSwtmrCBArray t).ucState = .ticking) (hoff : t ∉ s.gSwtmrSortLink) (startTime waitTicks : Nat) :
    OnlyTimer s (osAdd2SortLink s t startTime waitTicks) t ∧ Listed (osAdd2SortLink s t startTime waitTicks) ∧
      t ∈ (osAdd2SortLink s t startTime waitTicks).gSwtmrSortLink ∧
      (osAdd2SortLink s t startTime waitTicks).gSwtmrCBArray t = { s.gSwtmrCBArray t with
        responseTime := ((startTime + waitTicks * osCyclePerTick : Nat) : WithTop Nat) } := by
  obtain ⟨s₁, hs₁⟩ : ∃ s₁, s₁ = s.modify t fun cb => { cb with
      responseTime := ((startTime + waitTicks * osCyclePerTick : Nat) : WithTop Nat) } := ⟨_, rfl⟩
  have hcb : s₁.gSwtmrCBArray t = { s.gSwtmrCBArray t with
      responseTime := ((startTime + waitTicks * osCyclePerTick : Nat) : WithTop Nat) } := by
    rw [hs₁]
    exact modify_self ..
  have honly : OnlyTimer s s₁ t := by
    rw [hs₁]
    exact onlyTimer_modify rfl
  have hrest : s₁.gSwtmrSortLink = s.gSwtmrSortLink ∧ s₁.gSwtmrFreeList = s.gSwtmrFreeList := by
    rw [hs₁]
    exact ⟨rfl, rfl⟩
  have hperm := osAddNode2SortLink_perm s₁.responseTime s₁.gSwtmrSortLink t
  have hadd : osAdd2SortLink s t startTime waitTicks =
      { s₁ with gSwtmrSortLink := osAddNode2SortLink s₁.responseTime s₁.gSwtmrSortLink t } := by
    rw [hs₁]
    rfl
  rw [hadd]
  generalize osAddNode2SortLink s₁.responseTime s₁.gSwtmrSortLink t = link at hperm ⊢
  rw [hrest.1] at hperm
  have honly₂ : OnlyTimer s { s₁ with gSwtmrSortLink := link } t := by
    refine ⟨honly.others, honly.align, honly.index, honly.free, fun u hu => ?_, honly.reads⟩
    refine hperm.mem_iff.trans (List.mem_cons.trans ?_)
    exact ⟨fun h => h.resolve_left hu, .inr⟩
  have hfree : t ∉ s₁.gSwtmrFreeList := by
    rw [hrest.2]
    exact hl.not_free (by rw [hs]; nofun)
  have hmem : t ∈ link := hperm.mem_iff.mpr List.mem_cons_self
  have hlisted : Listed { s₁ with gSwtmrSortLink := link } := by
    refine honly₂.listed hl ht ?_ (fun h => absurd h hfree) ?_ fun _ => ⟨?_, ?_⟩
    · dsimp only
      rw [hrest.2]
      exact hl.freeOnce
    · exact hperm.nodup_iff.mpr (List.nodup_cons.mpr ⟨hoff, hl.once⟩)
    · dsimp only
      rw [hcb]
      exact hs
    · unfold SwtmrState.responseTime
      dsimp only
      rw [hcb]
      exact WithTop.coe_ne_top
  exact ⟨honly₂, hlisted, hmem, hcb⟩

theorem osSwtmrStart_only (clock : Nat → Nat) (hl : Listed s) (ht : t < SwtmrConfig.swtmrLimit)
    (hs : (s.gSwtmrCBArray t).ucState ≠ .unused) (hoff : t ∉ s.gSwtmrSortLink) :
    OnlyTimer s (osSwtmrStart clock s t) t ∧ Listed (osSwtmrStart clock s t) ∧
      t ∈ (osSwtmrStart clock s t).gSwtmrSortLink ∧ (osSwtmrStart clock s t).reads = s.reads + 1 ∧
      ∃ n, (osSwtmrStart clock s t).gSwtmrCBArray t = { s.gSwtmrCBArray t with
        ucState := .ticking
        uwCount := n
        responseTime := ((clock s.reads + n * osCyclePerTick : Nat) : WithTop Nat) } := by
  obtain ⟨s₁, hs₁⟩ : ∃ s₁, s₁ = { s with reads := s.reads + 1 }.modify t fun cb =>
      { cb with uwCount := cb.uwInterval, ucState := .ticking } := ⟨_, rfl⟩
  have hcb : s₁.gSwtmrCBArray t = { s.gSwtmrCBArray t with
      uwCount := (s.gSwtmrCBArray t).uwInterval
      ucState := .ticking } := by
    rw [hs₁]
    exact modify_self ..
  have hfree : t ∉ s.gSwtmrFreeList := hl.not_free hs
  have honly₁ : OnlyTimer s s₁ t := by
    rw [hs₁]
    exact (onlyTimer_read (Nat.le_succ _) t).trans (onlyTimer_modify rfl)
  have hl₁ : Listed s₁ := by
    rw [hs₁]
    exact (hl.read _).modify ht rfl hfree hoff
  have hrest : s₁.gSwtmrSortLink = s.gSwtmrSortLink ∧ s₁.gSwtmrFreeList = s.gSwtmrFreeList ∧
      s₁.reads = s.reads + 1 := by
    rw [hs₁]
    exact ⟨rfl, rfl, rfl⟩
  obtain ⟨hlink, hfreeList, hreads⟩ := hrest
  -- whatever count comes out of the alignment
  have hadd : ∀ s₂ n, OnlyTimer s₁ s₂ t → Listed s₂ → s₂.gSwtmrSortLink = s₁.gSwtmrSortLink →
      s₂.reads = s₁.reads → s₂.gSwtmrCBArray t = { s.gSwtmrCBArray t with uwCount := n, ucState := .ticking } →
      OnlyTimer s (osAdd2SortLink s₂ t (clock s.reads) (s₂.gSwtmrCBArray t).uwCount) t ∧
      Listed (osAdd2SortLink s₂ t (clock s.reads) (s₂.gSwtmrCBArray t).uwCount) ∧
      t ∈ (osAdd2SortLink s₂ t (clock s.reads) (s₂.gSwtmrCBArray t).uwCount).gSwtmrSortLink ∧
      (osAdd2SortLink s₂ t (clock s.reads) (s₂.gSwtmrCBArray t).uwCount).reads = s.reads + 1 ∧
      ∃ n, (osAdd2SortLink s₂ t (clock s.reads) (s₂.gSwtmrCBArray t).uwCount).gSwtmrCBArray t =
        { s.gSwtmrCBArray t with
          ucState := .ticking
          uwCount := n
          responseTime := ((clock s.reads + n * osCyclePerTick : Nat) : WithTop Nat) } := by
    intro s₂ n honly₂ hl₂ hlink₂ hreads₂ hcb₂
    have hoff₂ : t ∉ s₂.gSwtmrSortLink := by
      rw [hlink₂, hlink]
      exact hoff
    obtain ⟨honly₃, hl₃, hmem, hcb₃⟩ := osAdd2SortLink_only hl₂ ht (by rw [hcb₂]) hoff₂ (clock s.reads)
      (s₂.gSwtmrCBArray t).uwCount
    refine ⟨(honly₁.trans honly₂).trans honly₃, hl₃, hmem, hreads₂.trans hreads, n, ?_⟩
    rw [hcb₃, hcb₂]
  unfold osSwtmrStart
  dsimp only
  rw [← hs₁]
  split
  · have halign := onlyTimer_setAlign (hl₁.ids t ht) { s₁.alignInfo t with isAligned := true }
    have hl₂ := hl₁.setAlign t { s₁.alignInfo t with isAligned := true }
    have hsame : (s₁.setAlign t { s₁.alignInfo t with isAligned := true }).gSwtmrCBArray = s₁.gSwtmrCBArray ∧
        (s₁.setAlign t { s₁.alignInfo t with isAligned := true }).gSwtmrSortLink = s₁.gSwtmrSortLink ∧
        (s₁.setAlign t { s₁.alignInfo t with isAligned := true }).gSwtmrFreeList = s₁.gSwtmrFreeList ∧
        (s₁.setAlign t { s₁.alignInfo t with isAligned := true }).reads = s₁.reads := ⟨rfl, rfl, rfl, rfl⟩
    generalize s₁.setAlign t { s₁.alignInfo t with isAligned := true } = s₂ at *
    obtain ⟨hcbs, hlinks, hfrees, hreads₂⟩ := hsame
    obtain ⟨n, hn⟩ := osSwtmrFindAlignPos_eq s₂ (clock s.reads) t
    rw [hn]
    have hfree₂ : t ∉ s₂.gSwtmrFreeList := by
      rw [hfrees, hfreeList]
      exact hfree
    have hoff₂ : t ∉ s₂.gSwtmrSortLink := by
      rw [hlinks, hlink]
      exact hoff
    refine hadd (s₂.modify t fun cb => { cb with uwCount := n }) n (halign.trans (onlyTimer_modify rfl))
      (hl₂.modify ht rfl hfree₂ hoff₂) hlinks hreads₂ ?_
    rw [modify_self, hcbs, hcb]
  · exact hadd s₁ _ (onlyTimer_read (Nat.le_refl _) t) hl₁ rfl rfl hcb

theorem osSwtmrDelete_only (hl : Listed s) (ht : t < SwtmrConfig.swtmrLimit)
    (hs : (s.gSwtmrCBArray t).ucState ≠ .unused) (hoff : t ∉ s.gSwtmrSortLink) :
    OnlyTimer s (osSwtmrDelete s t) t ∧ Listed (osSwtmrDelete s t) ∧ t ∉ (osSwtmrDelete s t).gSwtmrSortLink ∧
      (osSwtmrDelete s t).gSwtmrCBArray t = { s.gSwtmrCBArray t with ucState := .unused } := by
  obtain ⟨s₁, hs₁⟩ : ∃ s₁, s₁ = { s with gSwtmrFreeList := t :: s.gSwtmrFreeList }.modify t fun cb =>
      { cb with ucState := .unused } := ⟨_, rfl⟩
  have hcb : s₁.gSwtmrCBArray t = { s.gSwtmrCBArray t with ucState := .unused } := by
    rw [hs₁]
    exact modify_self ..
  have hrest : s₁.gSwtmrSortLink = s.gSwtmrSortLink ∧ s₁.gSwtmrFreeList = t :: s.gSwtmrFreeList := by
    rw [hs₁]
    exact ⟨rfl, rfl⟩
  obtain ⟨hlink, hfree⟩ := hrest
  have honly : OnlyTimer s s₁ t := by
    have hcons : OnlyTimer s { s with gSwtmrFreeList := t :: s.gSwtmrFreeList } t :=
      ⟨fun _ _ => rfl, fun _ _ _ => rfl, rfl, fun u hu => List.mem_cons.trans ⟨fun h => h.resolve_left hu, .inr⟩,
        fun _ _ => Iff.rfl, Nat.le_refl _⟩
    rw [hs₁]
    exact hcons.trans (onlyTimer_modify rfl)
  have hoff₁ : t ∉ s₁.gSwtmrSortLink := by
    rw [hlink]
    exact hoff
  have hl₁ : Listed s₁ := by
    refine honly.listed hl ht ?_ (fun _ => by rw [hcb]) ?_ fun h => absurd h hoff₁
    · rw [hfree]
      exact List.nodup_cons.mpr ⟨hl.not_free hs, hl.freeOnce⟩
    · rw [hlink]
      exact hl.once
  unfold osSwtmrDelete
  dsimp only
  rw [← hs₁]
  split
  · exact ⟨honly.trans (onlyTimer_setAlign (hl₁.ids t ht) _), hl₁.setAlign t _, hoff₁, hcb⟩
  · exact ⟨honly, hl₁, hoff₁, hcb⟩

/-- What a call does whose ID is `swtmrId`. -/
structure CallOn (s s' : SwtmrState) (swtmrId : Nat) : Prop where
  listed : Listed s'
  reads : s.reads ≤ s'.reads
  named : (s'.gSwtmrCBArray = s.gSwtmrCBArray ∧ s'.gSwtmrAlignID = s.gSwtmrAlignID) ∨
    (s.gSwtmrCBArray (swtmrId % SwtmrConfig.swtmrLimit)).usTimerID = swtmrId ∧
      OnlyTimer s s' (swtmrId % SwtmrConfig.swtmrLimit)

theorem callOn_refused (hl : Listed s) (swtmrId : Nat) : CallOn s s swtmrId :=
  ⟨hl, Nat.le_refl _, .inl ⟨rfl, rfl⟩⟩

theorem index_lt {swtmrId : Nat} (h : swtmrId < osSwtmrMaxTimerid) :
    swtmrId % SwtmrConfig.swtmrLimit < SwtmrConfig.swtmrLimit := by
  apply Nat.mod_lt
  apply Nat.pos_of_ne_zero
  intro hzero
  unfold osSwtmrMaxTimerid at h
  rw [hzero, Nat.mul_zero] at h
  exact absurd h (Nat.not_lt_zero _)

theorem setCanAlign_only (hl : Listed s) (ht : t < SwtmrConfig.swtmrLimit) :
    OnlyTimer s (setCanAlign s t) t ∧ Listed (setCanAlign s t) ∧
      (setCanAlign s t).gSwtmrCBArray = s.gSwtmrCBArray ∧ (setCanAlign s t).gSwtmrSortLink = s.gSwtmrSortLink ∧
      (setCanAlign s t).reads = s.reads := by
  obtain ⟨info, h⟩ := setCanAlign_eq s t
  rw [h]
  exact ⟨onlyTimer_setAlign (hl.ids t ht) info, hl.setAlign t info, rfl, rfl, rfl⟩

theorem losSwtmrStart_created (clock : Nat → Nat) (hl : Listed s) {swtmrId : Nat} (hid : swtmrId < osSwtmrMaxTimerid)
    (hname : (s.gSwtmrCBArray (swtmrId % SwtmrConfig.swtmrLimit)).usTimerID = swtmrId)
    (hs : (s.gSwtmrCBArray (swtmrId % SwtmrConfig.swtmrLimit)).ucState = .created) (running : Bool) :
    losSwtmrStart clock s running swtmrId =
      (osSwtmrStart clock (setCanAlign s (swtmrId % SwtmrConfig.swtmrLimit)) (swtmrId % SwtmrConfig.swtmrLimit),
        .losOk) := by
  obtain ⟨_, _, hcbs, _⟩ := setCanAlign_only hl (index_lt hid)
  unfold losSwtmrStart
  rw [if_neg (Nat.not_le.mpr hid)]
  dsimp only
  rw [if_neg (not_ne_iff.mpr hname), hcbs, hs]

theorem losSwtmrStart_only (clock : Nat → Nat) (hl : Listed s) (running : Bool) (swtmrId : Nat) :
    CallOn s (losSwtmrStart clock s running swtmrId).1 swtmrId := by
  unfold losSwtmrStart
  split
  · exact callOn_refused hl swtmrId
  next hid =>
  have hlt := index_lt (Nat.not_le.mp hid)
  dsimp only
  split
  · exact callOn_refused hl swtmrId
  next hname =>
  have hname := Decidable.not_not.mp hname
  obtain ⟨honly, hl₁, hcbs, hlink, _⟩ := setCanAlign_only hl hlt
  split
  · exact ⟨hl₁, honly.reads, .inr ⟨hname, honly⟩⟩
  · next hs =>
    obtain ⟨hstop, hl₂, hoff, r, hcb⟩ := osSwtmrStop_only hl₁ hlt (by rw [hs]; nofun) running
    obtain ⟨hstart, hl₃, _⟩ := osSwtmrStart_only clock hl₂ hlt (by rw [hcb]; nofun) hoff
    have hall := (honly.trans hstop).trans hstart
    exact ⟨hl₃, hall.reads, .inr ⟨hname, hall⟩⟩
  · next hs =>
    have hoff := hl₁.not_linked (t := swtmrId % SwtmrConfig.swtmrLimit) (by rw [hs]; nofun)
    obtain ⟨hstart, hl₂, _⟩ := osSwtmrStart_only clock hl₁ hlt (by rw [hs]; nofun) hoff
    have hall := honly.trans hstart
    exact ⟨hl₂, hall.reads, .inr ⟨hname, hall⟩⟩

theorem losSwtmrStop_stopped (hl : Listed s) (running : Bool) (swtmrId : Nat) :
    ((losSwtmrStop s running swtmrId).2 ≠ .losOk ∧ (losSwtmrStop s running swtmrId).2 ≠ .notStarted ∧
      (losSwtmrStop s running swtmrId).1 = s) ∨
    ¬((losSwtmrStop s running swtmrId).2 ≠ .losOk ∧ (losSwtmrStop s running swtmrId).2 ≠ .notStarted) ∧
      swtmrId < osSwtmrMaxTimerid ∧
      (s.gSwtmrCBArray (swtmrId % SwtmrConfig.swtmrLimit)).usTimerID = swtmrId ∧
      OnlyTimer s (losSwtmrStop s running swtmrId).1 (swtmrId % SwtmrConfig.swtmrLimit) ∧
      Listed (losSwtmrStop s running swtmrId).1 ∧
      swtmrId % SwtmrConfig.swtmrLimit ∉ (losSwtmrStop s running swtmrId).1.gSwtmrSortLink ∧
      ∃ r, (losSwtmrStop s running swtmrId).1.gSwtmrCBArray (swtmrId % SwtmrConfig.swtmrLimit) =
        { s.gSwtmrCBArray (swtmrId % SwtmrConfig.swtmrLimit) with ucState := .created, responseTime := r } := by
  unfold losSwtmrStop
  split
  · exact .inl ⟨nofun, nofun, rfl⟩
  next hid =>
  have hid := Nat.not_le.mp hid
  have hlt := index_lt hid
  dsimp only
  split
  · exact .inl ⟨nofun, nofun, rfl⟩
  next hname =>
  have hname := Decidable.not_not.mp hname
  split
  · exact .inl ⟨nofun, nofun, rfl⟩
  · next hs =>
    refine .inr ⟨fun h => h.2 rfl, hid, hname, onlyTimer_read (Nat.le_refl _) _, hl, ?_,
      (s.gSwtmrCBArray (swtmrId % SwtmrConfig.swtmrLimit)).responseTime, ?_⟩
    · exact hl.not_linked (by rw [hs]; nofun)
    · rw [← hs]
  · next hs =>
    obtain ⟨hstop, hl₁, hoff, hcb⟩ := osSwtmrStop_only hl hlt (by rw [hs]; nofun) running
    exact .inr ⟨fun h => h.1 rfl, hid, hname, hstop, hl₁, hoff, hcb⟩

theorem losSwtmrStop_only (hl : Listed s) (running : Bool) (swtmrId : Nat) :
    CallOn s (losSwtmrStop s running swtmrId).1 swtmrId := by
  obtain ⟨_, _, heq⟩ | ⟨_, _, hname, honly, hl', _⟩ := losSwtmrStop_stopped hl running swtmrId
  · rw [heq]
    exact callOn_refused hl swtmrId
  · exact ⟨hl', honly.reads, .inr ⟨hname, honly⟩⟩

theorem losSwtmrDelete_only (hl : Listed s) (running : Bool) (swtmrId : Nat) :
    CallOn s (losSwtmrDelete s running swtmrId).1 swtmrId := by
  unfold losSwtmrDelete
  split
  · exact callOn_refused hl swtmrId
  next hid =>
  have hlt := index_lt (Nat.not_le.mp hid)
  dsimp only
  split
  · exact callOn_refused hl swtmrId
  next hname =>
  have hname := Decidable.not_not.mp hname
  split
  · exact callOn_refused hl swtmrId
  · next hs =>
    obtain ⟨hstop, hl₁, hoff, r, hcb⟩ := osSwtmrStop_only hl hlt (by rw [hs]; nofun) running
    obtain ⟨hdel, hl₂, _⟩ := osSwtmrDelete_only hl₁ hlt (by rw [hcb]; nofun) hoff
    have hall := hstop.trans hdel
    exact ⟨hl₂, hall.reads, .inr ⟨hname, hall⟩⟩
  · next hs =>
    have hoff := hl.not_linked (t := swtmrId % SwtmrConfig.swtmrLimit) (by rw [hs]; nofun)
    obtain ⟨hdel, hl₁, _⟩ := osSwtmrDelete_only hl hlt (by rw [hs]; nofun) hoff
    exact ⟨hl₁, hdel.reads, .inr ⟨hname, hdel⟩⟩

/-! ### The scan -/

theorem osSwtmrStart_reads (clock : Nat → Nat) (s : SwtmrState) (t : Nat) :
    (osSwtmrStart clock s t).reads = s.reads + 1 := by
  unfold osSwtmrStart
  dsimp only
  split
  · obtain ⟨n, hn⟩ := osSwtmrFindAlignPos_eq (SwtmrState.setAlign _ t _) (clock s.reads) t
    rw [hn]
    rfl
  · rfl

theorem osSwtmrStart_plain (clock : Nat → Nat)
    (h : (SwtmrConfig.align && (s.alignInfo t).canAlign && !(s.alignInfo t).isAligned) = false) :
    (osSwtmrStart clock s t).gSwtmrCBArray t = { s.gSwtmrCBArray t with
      ucState := .ticking
      uwCount := (s.gSwtmrCBArray t).uwInterval
      responseTime := ((clock s.reads + (s.gSwtmrCBArray t).uwInterval * osCyclePerTick : Nat) : WithTop Nat) } ∧
    (osSwtmrStart clock s t).gSwtmrAlignID = s.gSwtmrAlignID := by
  obtain ⟨s₁, hs₁⟩ : ∃ s₁, s₁ = { s with reads := s.reads + 1 }.modify t fun cb =>
      { cb with uwCount := cb.uwInterval, ucState := .ticking } := ⟨_, rfl⟩
  have hcb : s₁.gSwtmrCBArray t = { s.gSwtmrCBArray t with
      uwCount := (s.gSwtmrCBArray t).uwInterval
      ucState := .ticking } := by
    rw [hs₁]
    exact modify_self ..
  have hinfo : s₁.alignInfo t = s.alignInfo t := by
    unfold SwtmrState.alignInfo SwtmrState.alignIndex
    rw [hcb, hs₁]
    rfl
  unfold osSwtmrStart
  dsimp only
  rw [← hs₁, hinfo, h, if_neg Bool.false_ne_true]
  constructor
  · have hself := modify_self s₁ t fun cb => { cb with
      responseTime := ((clock s.reads + (s₁.gSwtmrCBArray t).uwCount * osCyclePerTick : Nat) : WithTop Nat) }
    refine Eq.trans hself ?_
    rw [hcb]
  · rw [hs₁]
    rfl

theorem osSwtmrStart_aligned (clock : Nat → Nat) (hid : s.alignIndex t = t) :
    (SwtmrConfig.align && ((osSwtmrStart clock s t).gSwtmrAlignID t).canAlign &&
      !((osSwtmrStart clock s t).gSwtmrAlignID t).isAligned) = false := by
  obtain ⟨s₁, hs₁⟩ : ∃ s₁, s₁ = { s with reads := s.reads + 1 }.modify t fun cb =>
      { cb with uwCount := cb.uwInterval, ucState := .ticking } := ⟨_, rfl⟩
  have hindex : s₁.alignIndex t = t := by
    unfold SwtmrState.alignIndex
    rw [hs₁, modify_self]
    exact hid
  unfold osSwtmrStart
  dsimp only
  rw [← hs₁]
  split
  · obtain ⟨n, hn⟩ := osSwtmrFindAlignPos_eq (s₁.setAlign t { s₁.alignInfo t with isAligned := true })
      (clock s.reads) t
    rw [hn]
    have halign : (s₁.setAlign t { s₁.alignInfo t with isAligned := true }).gSwtmrAlignID t =
        { s₁.alignInfo t with isAligned := true } := by
      unfold SwtmrState.setAlign
      dsimp only
      rw [hindex, Function.update_self]
    change (SwtmrConfig.align && ((s₁.setAlign t { s₁.alignInfo t with isAligned := true }).gSwtmrAlignID t).canAlign &&
      !((s₁.setAlign t { s₁.alignInfo t with isAligned := true }).gSwtmrAlignID t).isAligned) = false
    rw [halign]
    exact Bool.and_false _
  · next hplain =>
    rw [Bool.not_eq_true] at hplain
    unfold SwtmrState.alignInfo at hplain
    rw [hindex] at hplain
    exact hplain

theorem osSwtmrTimeoutHandle_only (clock : Nat → Nat) (hl : Listed s) (ht : t < SwtmrConfig.swtmrLimit)
    (hs : (s.gSwtmrCBArray t).ucState ≠ .unused) (hoff : t ∉ s.gSwtmrSortLink) :
    OnlyTimer s (osSwtmrTimeoutHandle clock s t) t ∧ Listed (osSwtmrTimeoutHandle clock s t) := by
  obtain ⟨s₁, hs₁⟩ : ∃ s₁, s₁ = { s with written := s.written ++
      [(t, SwtmrHandlerItem.mk (s.gSwtmrCBArray t).pfnHandler (s.gSwtmrCBArray t).uwArg)] } := ⟨_, rfl⟩
  have honly : OnlyTimer s s₁ t := by
    rw [hs₁]
    exact ⟨fun _ _ => rfl, fun _ _ _ => rfl, rfl, fun _ _ => Iff.rfl, fun _ _ => Iff.rfl, Nat.le_refl _⟩
  have hl₁ : Listed s₁ := by
    rw [hs₁]
    exact ⟨hl.ids, hl.freeOnce, hl.free, hl.once, hl.linked⟩
  have hsame : s₁.gSwtmrCBArray = s.gSwtmrCBArray ∧ s₁.gSwtmrSortLink = s.gSwtmrSortLink := by
    rw [hs₁]
    exact ⟨rfl, rfl⟩
  rw [← hsame.1] at hs
  rw [← hsame.2] at hoff
  unfold osSwtmrTimeoutHandle
  dsimp only
  rw [← hs₁]
  cases (s.gSwtmrCBArray t).ucMode with
  | once =>
    dsimp only
    obtain ⟨hdel, hl₂, hoff₂, hcb⟩ := osSwtmrDelete_only hl₁ ht hs hoff
    have hnew := onlyTimer_modify (s := osSwtmrDelete s₁ t) (t := t)
      (f := fun cb => { cb with usTimerID := nextTimerId cb.usTimerID }) (nextTimerId_mod _)
    refine ⟨(honly.trans hdel).trans hnew, hnew.listed hl₂ ht hl₂.freeOnce (fun _ => ?_) hl₂.once fun h => ?_⟩
    · rw [modify_self, hcb]
    · exact absurd h hoff₂
  | period =>
    dsimp only
    obtain ⟨hstart, hl₂, _⟩ := osSwtmrStart_only clock hl₁ ht hs hoff
    exact ⟨honly.trans hstart, hl₂⟩
  | noSelfdelete =>
    dsimp only
    exact ⟨honly.trans (onlyTimer_modify rfl), hl₁.modify ht rfl (hl₁.not_free hs) hoff⟩
  | opp => exact ⟨honly, hl₁⟩

theorem osSwtmrTimeoutHandle_period (clock : Nat → Nat) (hid : s.alignIndex t = t)
    (hmode : (s.gSwtmrCBArray t).ucMode = .period)
    (h : (SwtmrConfig.align && (s.gSwtmrAlignID t).canAlign && !(s.gSwtmrAlignID t).isAligned) = false) :
    (osSwtmrTimeoutHandle clock s t).gSwtmrCBArray t = { s.gSwtmrCBArray t with
      ucState := .ticking
      uwCount := (s.gSwtmrCBArray t).uwInterval
      responseTime := ((clock s.reads + (s.gSwtmrCBArray t).uwInterval * osCyclePerTick : Nat) : WithTop Nat) } ∧
    (osSwtmrTimeoutHandle clock s t).gSwtmrAlignID t = s.gSwtmrAlignID t ∧
    s.reads < (osSwtmrTimeoutHandle clock s t).reads := by
  obtain ⟨s₁, hs₁⟩ : ∃ s₁, s₁ = { s with written := s.written ++
      [(t, SwtmrHandlerItem.mk (s.gSwtmrCBArray t).pfnHandler (s.gSwtmrCBArray t).uwArg)] } := ⟨_, rfl⟩
  have hsame : s₁.gSwtmrCBArray = s.gSwtmrCBArray ∧ s₁.gSwtmrAlignID = s.gSwtmrAlignID ∧ s₁.reads = s.reads := by
    rw [hs₁]
    exact ⟨rfl, rfl, rfl⟩
  obtain ⟨hcb, halign, hreads⟩ := hsame
  have hinfo : s₁.alignInfo t = s.gSwtmrAlignID t := by
    unfold SwtmrState.alignInfo SwtmrState.alignIndex
    rw [halign, hcb]
    exact congrArg s.gSwtmrAlignID hid
  rw [← hinfo] at h
  obtain ⟨hself, hrest⟩ := osSwtmrStart_plain clock h
  have hread : (osSwtmrStart clock s₁ t).reads = s₁.reads + 1 := osSwtmrStart_reads clock s₁ t
  rw [hcb, hreads] at hself
  have hstart : osSwtmrTimeoutHandle clock s t = osSwtmrStart clock s₁ t := by
    unfold osSwtmrTimeoutHandle
    dsimp only
    rw [← hs₁, hmode]
  rw [hstart, hself, hrest, halign, hread, hreads]
  exact ⟨rfl, rfl, Nat.lt_succ_self _⟩

/-- What happens to a timer in a call that does not name it: nothing, or it was due; a periodic one then starts
again, and counts from the moment of its expiry. -/
structure Unnamed (clock : Nat → Nat) (s s' : SwtmrState) (t : Nat) : Prop where
  listed : Listed s'
  reads : s.reads ≤ s'.reads
  timer : (s'.gSwtmrCBArray t = s.gSwtmrCBArray t ∧ s'.gSwtmrAlignID t = s.gSwtmrAlignID t) ∨
    s.responseTime t ≤ (clock s.reads : WithTop Nat) ∧
      ((s.gSwtmrCBArray t).ucMode = .period →
        (SwtmrConfig.align && (s.gSwtmrAlignID t).canAlign && !(s.gSwtmrAlignID t).isAligned) = false →
        ∃ k, s.reads ≤ k ∧ k < s'.reads ∧ s'.gSwtmrCBArray t = { s.gSwtmrCBArray t with
          ucState := .ticking
          uwCount := (s.gSwtmrCBArray t).uwInterval
          responseTime := ((clock k + (s.gSwtmrCBArray t).uwInterval * osCyclePerTick : Nat) : WithTop Nat) } ∧
        s'.gSwtmrAlignID t = s.gSwtmrAlignID t)

theorem unnamed_refl (clock : Nat → Nat) (hl : Listed s) (t : Nat) : Unnamed clock s s t :=
  ⟨hl, Nat.le_refl _, .inl ⟨rfl, rfl⟩⟩

theorem OnlyTimer.unnamed (clock : Nat → Nat) (h : OnlyTimer s s' u) (hl : Listed s') (ht : t < SwtmrConfig.swtmrLimit)
    (hne : t ≠ u) : Unnamed clock s s' t := ⟨hl, h.reads, .inl ⟨h.others t hne, h.align t ht hne⟩⟩

theorem CallOn.unnamed {swtmrId : Nat} (clock : Nat → Nat) (h : CallOn s s' swtmrId) (ht : t < SwtmrConfig.swtmrLimit)
    (hne : swtmrId ≠ (s.gSwtmrCBArray t).usTimerID) : Unnamed clock s s' t := by
  obtain ⟨hcb, halign⟩ | ⟨hname, honly⟩ := h.named
  · exact ⟨h.listed, h.reads, .inl ⟨congrFun hcb t, congrFun halign t⟩⟩
  · refine honly.unnamed clock h.listed ht fun heq => hne ?_
    rw [heq, hname]

theorem Unnamed.round {s₀ : SwtmrState} {head : Nat} {rest : List Nat} (h : Unnamed clock s₀ s t)
    (ht : t < SwtmrConfig.swtmrLimit) (hlink : s.gSwtmrSortLink = head :: rest)
    (hdue : s.responseTime head ≤ (clock s₀.reads : WithTop Nat)) :
    Unnamed clock s₀ (osSwtmrTimeoutHandle clock (osDeleteNodeSortLink s head) head) t := by
  obtain ⟨hlt, hticking, _⟩ := h.listed.linked head (by rw [hlink]; exact List.mem_cons_self)
  obtain ⟨hdel, hl₁, hoff, hcb⟩ := osDeleteNodeSortLink_only h.listed hlt
  have hs : ((osDeleteNodeSortLink s head).gSwtmrCBArray head).ucState ≠ .unused := by
    rw [hcb, hticking]
    nofun
  obtain ⟨hhandle, hl₂⟩ := osSwtmrTimeoutHandle_only clock hl₁ hlt hs hoff
  have hall := hdel.trans hhandle
  refine ⟨hl₂, h.reads.trans hall.reads, ?_⟩
  by_cases hne : t = head
  · obtain rfl := hne
    have hwas : s₀.responseTime t ≤ (clock s₀.reads : WithTop Nat) := by
      obtain ⟨hsame, _⟩ | ⟨hwas, _⟩ := h.timer
      · unfold SwtmrState.responseTime
        rw [← hsame]
        exact hdue
      · exact hwas
    refine .inr ⟨hwas, fun hmode hplain => ?_⟩
    -- the timer is as it was, but for its count and its response time
    obtain ⟨count, response, hkeep, hinfo⟩ : ∃ count response, (osDeleteNodeSortLink s t).gSwtmrCBArray t =
        { s₀.gSwtmrCBArray t with ucState := .ticking, uwCount := count, responseTime := response } ∧
        (osDeleteNodeSortLink s t).gSwtmrAlignID t = s₀.gSwtmrAlignID t := by
      rw [hcb]
      obtain ⟨hsame, hinfo⟩ | ⟨_, hrestart⟩ := h.timer
      · refine ⟨(s.gSwtmrCBArray t).uwCount, ⊤, ?_, hinfo⟩
        rw [← hsame, ← hticking]
      · obtain ⟨k, _, _, hsame, hinfo⟩ := hrestart hmode hplain
        refine ⟨(s.gSwtmrCBArray t).uwCount, ⊤, ?_, hinfo⟩
        rw [hsame]
    obtain ⟨hself, halign, hreads⟩ := osSwtmrTimeoutHandle_period clock (hl₁.ids t ht)
      (by rw [hkeep]; exact hmode) (by rw [hinfo]; exact hplain)
    refine ⟨s.reads, h.reads, hreads, ?_, halign.trans hinfo⟩
    rw [hself, hkeep]
    rfl
  · have hsame := hall.others t hne
    have halign := hall.align t ht hne
    rw [hsame, halign]
    obtain hone | ⟨hwas, hrestart⟩ := h.timer
    · exact .inl hone
    · refine .inr ⟨hwas, fun hmode hplain => ?_⟩
      obtain ⟨k, hk, hlt, hrest⟩ := hrestart hmode hplain
      exact ⟨k, hk, Nat.lt_of_lt_of_le hlt hall.reads, hrest⟩

theorem osSwtmrScan_unnamed {fuel : Nat} {needSchedule : Bool} (hl : Listed s) (ht : t < SwtmrConfig.swtmrLimit)
    (hrun : osSwtmrScan clock fuel s = some (s', needSchedule)) : Unnamed clock s s' t := by
  unfold osSwtmrScan at hrun
  split at hrun
  · cases hrun
    exact unnamed_refl clock hl t
  · refine whileLoop_invariant (fun r => Unnamed clock s r.1 t) ?_ hrun
      ((onlyTimer_read (Nat.le_succ _) (t + 1)).unnamed clock (hl.read _) ht (Nat.ne_of_lt (Nat.lt_succ_self t)))
    intro r h hcond
    unfold firstDue at hcond
    unfold handleFirst
    split at hcond
    · cases hcond
    · next head rest hlink => exact h.round ht hlink (of_decide_eq_true hcond)

theorem losSwtmrCreate_only (hl : Listed s) (interval : Nat) (mode : SwtmrMode) (handler : Option Nat)
    (swtmrId : Bool) (arg rouses sensitive : Nat) :
    (losSwtmrCreate s interval mode handler swtmrId arg rouses sensitive).1 = s ∨
      ∃ u, (s.gSwtmrCBArray u).ucState = .unused ∧
        OnlyTimer s (losSwtmrCreate s interval mode handler swtmrId arg rouses sensitive).1 u ∧
        Listed (losSwtmrCreate s interval mode handler swtmrId arg rouses sensitive).1 := by
  unfold losSwtmrCreate
  split
  · exact .inl rfl
  split
  · exact .inl rfl
  split
  · exact .inl rfl
  split
  · exact .inl rfl
  split
  · exact .inl rfl
  split
  · exact .inl rfl
  split
  · exact .inl rfl
  · next u rest hfree =>
    obtain ⟨hlt, hunused⟩ := hl.free u (by rw [hfree]; exact List.mem_cons_self)
    have honce := hl.freeOnce
    rw [hfree] at honce
    obtain ⟨hnew, hrest⟩ := List.nodup_cons.mp honce
    have hoff : u ∉ s.gSwtmrSortLink := hl.not_linked (by rw [hunused]; nofun)
    have htake : OnlyTimer s { s with gSwtmrFreeList := rest } u := by
      refine ⟨fun _ _ => rfl, fun _ _ _ => rfl, rfl, fun v hv => ?_, fun _ _ => Iff.rfl, Nat.le_refl _⟩
      rw [hfree, List.mem_cons]
      exact ⟨.inr, fun h => h.resolve_left hv⟩
    have hl₁ : Listed { s with gSwtmrFreeList := rest } :=
      htake.listed hl hlt hrest (fun h => absurd h hnew) hl.once fun h => absurd h hoff
    dsimp only
    exact .inr ⟨u, hunused, htake.trans (onlyTimer_modify rfl), hl₁.modify hlt rfl hnew hoff⟩

theorem losSwtmrTimeGet_read (clock : Nat → Nat) (s : SwtmrState) (swtmrId : Nat) (tick : Bool) :
    ∃ n ≥ s.reads, (losSwtmrTimeGet clock s swtmrId tick).1 = { s with reads := n } := by
  unfold losSwtmrTimeGet
  split
  · exact ⟨s.reads, Nat.le_refl _, rfl⟩
  split
  · exact ⟨s.reads, Nat.le_refl _, rfl⟩
  dsimp only
  split
  · exact ⟨s.reads, Nat.le_refl _, rfl⟩
  split
  · exact ⟨s.reads, Nat.le_refl _, rfl⟩
  · exact ⟨s.reads, Nat.le_refl _, rfl⟩
  · exact ⟨s.reads + 1, Nat.le_succ _, rfl⟩

theorem unnamed_read (clock : Nat → Nat) (hl : Listed s) (hn : s.reads ≤ n) (t : Nat) :
    Unnamed clock s { s with reads := n } t := ⟨hl.read n, hn, .inl ⟨rfl, rfl⟩⟩

def Names (swtmrId : Nat) : SwtmrCall → Prop
  | .start _ swtmrId' => swtmrId' = swtmrId
  | .stop _ swtmrId' => swtmrId' = swtmrId
  | .delete _ swtmrId' => swtmrId' = swtmrId
  | _ => False

theorem swtmrStep_unnamed {call : SwtmrCall} (hl : Listed s) (ht : t < SwtmrConfig.swtmrLimit)
    (hs : (s.gSwtmrCBArray t).ucState ≠ .unused) (hcall : ¬Names (s.gSwtmrCBArray t).usTimerID call)
    (hstep : swtmrStep clock s call s') : Unnamed clock s s' t := by
  cases hstep with
  | create word =>
    obtain heq | ⟨u, hunused, honly, hl'⟩ := losSwtmrCreate_only hl _ _ _ _ _ _ _
    · rw [heq]
      exact unnamed_refl clock hl t
    · refine honly.unnamed clock hl' ht fun heq => hs ?_
      rw [heq, hunused]
  | start => exact (losSwtmrStart_only clock hl _ _).unnamed clock ht hcall
  | stop => exact (losSwtmrStop_only hl _ _).unnamed clock ht hcall
  | delete => exact (losSwtmrDelete_only hl _ _).unnamed clock ht hcall
  | timeGet =>
    obtain ⟨n, hn, heq⟩ := losSwtmrTimeGet_read clock s _ _
    rw [heq]
    exact unnamed_read clock hl hn t
  | scan run => exact osSwtmrScan_unnamed hl ht run

theorem swtmrStep_listed {call : SwtmrCall} (hl : Listed s) (hlimit : 0 < SwtmrConfig.swtmrLimit)
    (hstep : swtmrStep clock s call s') : Listed s' ∧ s.reads ≤ s'.reads := by
  have hcall : ∀ {swtmrId : Nat}, CallOn s s' swtmrId → Listed s' ∧ s.reads ≤ s'.reads := fun h => ⟨h.listed, h.reads⟩
  cases hstep with
  | create word =>
    obtain heq | ⟨u, _, honly, hl'⟩ := losSwtmrCreate_only hl _ _ _ _ _ _ _
    · rw [heq]
      exact ⟨hl, Nat.le_refl _⟩
    · exact ⟨hl', honly.reads⟩
  | start => exact hcall (losSwtmrStart_only clock hl _ _)
  | stop => exact hcall (losSwtmrStop_only hl _ _)
  | delete => exact hcall (losSwtmrDelete_only hl _ _)
  | timeGet =>
    obtain ⟨n, hn, heq⟩ := losSwtmrTimeGet_read clock s _ _
    rw [heq]
    exact ⟨hl.read n, hn⟩
  | scan run =>
    have h := osSwtmrScan_unnamed hl hlimit run
    exact ⟨h.listed, h.reads⟩

theorem swtmrBooted_listed (hb : SwtmrBooted s) : Listed s := by
  have h := swtmrBooted_inv hb
  refine ⟨h.ids, h.freeOnce, fun u hu => ((h.free u).mp hu).2, h.once, fun u hu => ?_⟩
  obtain ⟨_, hlt, hs⟩ := (h.linked u).mp hu
  exact ⟨hlt, hs, h.time u hu⟩

end

end LiteosM.Swtmr
