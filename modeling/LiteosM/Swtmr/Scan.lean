import LiteosM.Swtmr.Invariant

/-!
# The scan of the timers

What is due when the scan starts is handled once. A periodic timer that is set again comes later
than that time, so that the scan does not meet it again.
-/

namespace LiteosM.Swtmr

open LiteosM.Lib.While LiteosM.Lib.Transition

variable [SwtmrConfig]

section

variable {clock : Nat → Nat} {s s' : SwtmrState} {t u now : Nat}

theorem osSwtmrFindAlignPos_eq (s : SwtmrState) (currTime t : Nat) :
    ∃ n, osSwtmrFindAlignPos s currTime t = s.modify t fun cb => { cb with uwCount := n } := by
  have hsame : s = s.modify t fun cb => { cb with uwCount := (s.gSwtmrCBArray t).uwCount } :=
    (modify_same rfl).symm
  unfold osSwtmrFindAlignPos
  split
  · exact ⟨0, rfl⟩
  · exact ⟨_, hsame⟩
  · exact ⟨osSwtmrCalcAlignCount s currTime (s.gSwtmrCBArray t).uwInterval _, rfl⟩
  · exact ⟨_, rfl⟩
  · exact ⟨_, hsame⟩

theorem osSwtmrStart_linked (clock : Nat → Nat) (h : Fits s (some t)) (ht : t < SwtmrConfig.swtmrLimit)
    (hok : TimerOk (s.gSwtmrCBArray t)) :
    Linked s (osSwtmrStart clock s t) t ∧ (osSwtmrStart clock s t).reads = s.reads + 1 ∧
    ∃ n, (osSwtmrStart clock s t).gSwtmrCBArray t =
        { s.gSwtmrCBArray t with
          ucState := .ticking
          uwCount := n
          responseTime := ((clock s.reads + n * osCyclePerTick : Nat) : WithTop Nat) } ∧
      ((SwtmrConfig.align = true → (s.alignInfo t).canAlign = true → (s.alignInfo t).isAligned = true) →
        n = (s.gSwtmrCBArray t).uwInterval) := by
  obtain ⟨s₁, hs₁⟩ : ∃ s₁, s₁ = { s with reads := s.reads + 1 }.modify t fun cb =>
      { cb with uwCount := cb.uwInterval, ucState := .ticking } := ⟨_, rfl⟩
  have h₁ : Fits s₁ (some t) := by
    have h₀ : Fits { s with reads := s.reads + 1 } (some t) := h.congr rfl rfl rfl rfl
    rw [hs₁]
    exact h₀.modify rfl
  have hcb : s₁.gSwtmrCBArray t = { s.gSwtmrCBArray t with
      uwCount := (s.gSwtmrCBArray t).uwInterval
      ucState := .ticking } := by
    rw [hs₁]
    exact modify_self ..
  have hothers : ∀ u, u ≠ t → s₁.gSwtmrCBArray u = s.gSwtmrCBArray u := by
    intro u hu
    rw [hs₁]
    exact modify_of_ne hu
  have hinfo : s₁.alignInfo t = s.alignInfo t := by
    unfold SwtmrState.alignInfo SwtmrState.alignIndex
    rw [hcb, hs₁]
    rfl
  have hrest : s₁.gSwtmrSortLink = s.gSwtmrSortLink ∧ s₁.written = s.written ∧ s₁.reads = s.reads + 1 := by
    rw [hs₁]
    exact ⟨rfl, rfl, rfl⟩
  -- whatever count comes out of the alignment
  have hlink : ∀ s₂ : SwtmrState, Fits s₂ (some t) → (∀ u, u ≠ t → s₂.gSwtmrCBArray u = s.gSwtmrCBArray u) →
      s₂.gSwtmrSortLink = s.gSwtmrSortLink → s₂.written = s.written → s₂.reads = s.reads + 1 → ∀ n,
      s₂.gSwtmrCBArray t = { s.gSwtmrCBArray t with uwCount := n, ucState := .ticking } →
      (SwtmrConfig.align = true → (s₂.alignInfo t).canAlign = true → (s₂.alignInfo t).isAligned = true) →
      Linked s (osAdd2SortLink s₂ t (clock s.reads) (s₂.gSwtmrCBArray t).uwCount) t ∧
      (osAdd2SortLink s₂ t (clock s.reads) (s₂.gSwtmrCBArray t).uwCount).reads = s.reads + 1 ∧
      (osAdd2SortLink s₂ t (clock s.reads) (s₂.gSwtmrCBArray t).uwCount).gSwtmrCBArray t =
        { s.gSwtmrCBArray t with
          ucState := .ticking
          uwCount := n
          responseTime := ((clock s.reads + n * osCyclePerTick : Nat) : WithTop Nat) } := by
    intro s₂ hf ho hl hw hr n hn ha
    have hk := osAdd2SortLink_linked hf ht (by rw [hn]) (by rw [hn]; exact ⟨hok.pos, hok.word, hok.mode, hok.handler⟩) ha
      (clock s.reads) (s₂.gSwtmrCBArray t).uwCount
    refine ⟨⟨hk.inv, ?_, fun u hu => (hk.others u hu).trans (ho u hu), hk.written.trans hw⟩, hr, ?_⟩
    · rw [← hl]
      exact hk.place
    · show (s₂.modify t fun cb => { cb with responseTime :=
        ((clock s.reads + (s₂.gSwtmrCBArray t).uwCount * osCyclePerTick : Nat) : WithTop Nat) }).gSwtmrCBArray t = _
      rw [modify_self, hn]
  obtain ⟨hl, hw, hr⟩ := hrest
  unfold osSwtmrStart
  dsimp only
  rw [← hs₁]
  split
  · next hal =>
    have halign : (s₁.setAlign t { s₁.alignInfo t with isAligned := true }).gSwtmrCBArray = s₁.gSwtmrCBArray := rfl
    have h₂ := h₁.setAlign ht { s₁.alignInfo t with isAligned := true }
    have hinfo₂ := alignInfo_setAlign s₁ t { s₁.alignInfo t with isAligned := true }
    have hrest₂ : (s₁.setAlign t { s₁.alignInfo t with isAligned := true }).gSwtmrSortLink = s₁.gSwtmrSortLink ∧
        (s₁.setAlign t { s₁.alignInfo t with isAligned := true }).written = s₁.written ∧
        (s₁.setAlign t { s₁.alignInfo t with isAligned := true }).reads = s₁.reads := ⟨rfl, rfl, rfl⟩
    generalize s₁.setAlign t { s₁.alignInfo t with isAligned := true } = s₂ at *
    obtain ⟨n, hn⟩ := osSwtmrFindAlignPos_eq s₂ (clock s.reads) t
    rw [hn]
    have hinfo₃ : (s₂.modify t fun cb => { cb with uwCount := n }).alignInfo t = s₂.alignInfo t := by
      unfold SwtmrState.alignInfo SwtmrState.alignIndex
      rw [modify_self]
      rfl
    obtain ⟨hk, hr', hcb'⟩ := hlink (s₂.modify t fun cb => { cb with uwCount := n }) (h₂.modify rfl)
      (fun u hu => by rw [modify_of_ne hu, halign, hothers u hu]) (hrest₂.1.trans hl) (hrest₂.2.1.trans hw)
      (hrest₂.2.2.trans hr) n (by rw [modify_self, halign, hcb]) (fun _ _ => by rw [hinfo₃, hinfo₂])
    refine ⟨hk, hr', n, hcb', fun hall => ?_⟩
    rw [hinfo] at hal
    simp only [Bool.and_eq_true, Bool.not_eq_true'] at hal
    rw [hall hal.1.1 hal.1.2] at hal
    cases hal.2
  · next hal =>
    obtain ⟨hk, hr', hcb'⟩ := hlink s₁ h₁ hothers hl hw hr _ hcb fun ha hc => by
      cases hi : (s₁.alignInfo t).isAligned with
      | true => rfl
      | false => exact absurd (by rw [ha, hc, hi]; rfl) hal
    exact ⟨hk, hr', _, hcb', fun _ => rfl⟩

theorem SwtmrInv.renumber {f : SwtmrCtrl → SwtmrCtrl} (h : SwtmrInv s) (ht : t < SwtmrConfig.swtmrLimit)
    (hs : (s.gSwtmrCBArray t).ucState = .unused)
    (hf : (f (s.gSwtmrCBArray t)).ucState = (s.gSwtmrCBArray t).ucState)
    (hid : (f (s.gSwtmrCBArray t)).usTimerID % SwtmrConfig.swtmrLimit =
      (s.gSwtmrCBArray t).usTimerID % SwtmrConfig.swtmrLimit) : SwtmrInv (s.modify t f) := by
  have hindex : ∀ u, (s.modify t f).alignIndex u = s.alignIndex u := by
    intro u
    unfold SwtmrState.alignIndex
    by_cases hu : u = t
    · rw [hu, modify_self, hid]
    · rw [modify_of_ne hu]
  have hinfo : ∀ u, (s.modify t f).alignInfo u = s.alignInfo u := fun u =>
    congrArg s.gSwtmrAlignID (hindex u)
  have hstate : ∀ u, ((s.modify t f).gSwtmrCBArray u).ucState = (s.gSwtmrCBArray u).ucState := by
    intro u
    by_cases hu : u = t
    · rw [hu, modify_self, hf]
    · rw [modify_of_ne hu]
  have hlink : ∀ u ∈ s.gSwtmrSortLink, u ≠ t := by
    rintro u hu rfl
    exact absurd (((h.linked u).mp hu).2.2.symm.trans hs) nofun
  refine ⟨fun u hu => (hindex u).trans (h.ids u hu), h.freeOnce, fun u => ?_, h.once, fun u => ?_, ?_,
    fun u hu ho hst => ?_, fun u hu => ?_, fun ha u hu hc => ?_⟩
  · rw [hstate]
    exact h.free u
  · rw [hstate]
    exact h.linked u
  · refine h.sorted.imp_of_mem fun ha hb hab => ?_
    rw [responseTime_of_ne (hlink _ ha), responseTime_of_ne (hlink _ hb)]
    exact hab
  · rw [hstate] at hst
    by_cases hut : u = t
    · rw [hut] at hst
      exact absurd hs hst
    · rw [modify_of_ne hut]
      exact h.timer u hu ho hst
  · rw [responseTime_of_ne (hlink u hu)]
    exact h.time u hu
  · rw [hinfo] at hc ⊢
    exact h.aligned ha u hu hc

theorem osSwtmrDelete_spec (h : Fits s (some t)) (ht : t < SwtmrConfig.swtmrLimit) :
    SwtmrInv (osSwtmrDelete s t) ∧
      (osSwtmrDelete s t).gSwtmrCBArray = Function.update s.gSwtmrCBArray t
        { s.gSwtmrCBArray t with ucState := .unused } ∧
      (osSwtmrDelete s t).gSwtmrSortLink = s.gSwtmrSortLink ∧ (osSwtmrDelete s t).written = s.written ∧
      (osSwtmrDelete s t).reads = s.reads := by
  have h₁ : Fits (s.modify t fun cb => { cb with ucState := .unused }) (some t) := h.modify rfl
  have hs : ((s.modify t fun cb => { cb with ucState := .unused }).gSwtmrCBArray t).ucState = .unused := by
    rw [modify_self]
  have h₂ := h₁.release ht hs
  unfold osSwtmrDelete
  dsimp only
  split
  · have h₃ := (h₁.setAlign ht noAlign).release ht hs
    exact ⟨h₃, rfl, rfl, rfl, rfl⟩
  · exact ⟨h₂, rfl, rfl, rfl, rfl⟩

/-- What the handling of one timer does. -/
structure Handled (clock : Nat → Nat) (s s' : SwtmrState) (t : Nat) : Prop where
  inv : SwtmrInv s'
  others : ∀ u, u ≠ t → s'.gSwtmrCBArray u = s.gSwtmrCBArray u
  written : s'.written = s.written ++ [(t, ⟨(s.gSwtmrCBArray t).pfnHandler, (s.gSwtmrCBArray t).uwArg⟩)]
  reads : s.reads ≤ s'.reads
  period : (s.gSwtmrCBArray t).ucMode = .period →
    s'.responseTime t = ((clock s.reads + (s.gSwtmrCBArray t).uwInterval * osCyclePerTick : Nat) : WithTop Nat) ∧
    ∃ l₁ l₂, s.gSwtmrSortLink = l₁ ++ l₂ ∧ s'.gSwtmrSortLink = l₁ ++ t :: l₂
  stopped : (s.gSwtmrCBArray t).ucMode ≠ .period → s'.gSwtmrSortLink = s.gSwtmrSortLink
  once : (s.gSwtmrCBArray t).ucMode = .once → (s'.gSwtmrCBArray t).ucState = .unused
  kept : (s.gSwtmrCBArray t).ucMode = .noSelfdelete → (s'.gSwtmrCBArray t).ucState = .created
  renewed : (s.gSwtmrCBArray t).ucMode = .once →
    (s'.gSwtmrCBArray t).usTimerID = nextTimerId (s.gSwtmrCBArray t).usTimerID
  named : (s.gSwtmrCBArray t).ucMode ≠ .once → (s'.gSwtmrCBArray t).usTimerID = (s.gSwtmrCBArray t).usTimerID

theorem nextTimerId_mod (id : Nat) : nextTimerId id % SwtmrConfig.swtmrLimit = id % SwtmrConfig.swtmrLimit := by
  unfold nextTimerId
  split
  · exact Nat.add_mod_right ..
  · exact Nat.mod_mod ..

theorem osSwtmrTimeoutHandle_handled (clock : Nat → Nat) (h : Fits s (some t)) (ht : t < SwtmrConfig.swtmrLimit)
    (hok : TimerOk (s.gSwtmrCBArray t))
    (ha : SwtmrConfig.align = true → (s.alignInfo t).canAlign = true → (s.alignInfo t).isAligned = true) :
    Handled clock s (osSwtmrTimeoutHandle clock s t) t := by
  have hw : Fits { s with written := s.written ++
      [(t, ⟨(s.gSwtmrCBArray t).pfnHandler, (s.gSwtmrCBArray t).uwArg⟩)] } (some t) := h.congr rfl rfl rfl rfl
  unfold osSwtmrTimeoutHandle
  dsimp only
  cases hmode : (s.gSwtmrCBArray t).ucMode with
  | once =>
    dsimp only
    obtain ⟨hinv, hcb, hlink, hwritten, hreads⟩ := osSwtmrDelete_spec hw ht
    generalize osSwtmrDelete _ t = s₁ at *
    have hself : s₁.gSwtmrCBArray t = { s.gSwtmrCBArray t with ucState := .unused } := by
      rw [hcb]
      exact Function.update_self ..
    refine ⟨hinv.renumber ht (by rw [hself]) rfl (nextTimerId_mod _), fun u hu => ?_, hwritten, le_of_eq hreads.symm,
      fun hp => ?_, fun _ => hlink, fun _ => ?_, fun hk => ?_, fun _ => ?_, fun hne => absurd hmode hne⟩
    · rw [modify_of_ne hu, hcb]
      exact Function.update_of_ne hu ..
    · cases hmode.symm.trans hp
    · rw [modify_self, hself]
    · cases hmode.symm.trans hk
    · rw [modify_self, hself]
  | period =>
    dsimp only
    obtain ⟨hlinked, hreads, n, hcb, hn⟩ := osSwtmrStart_linked clock hw ht hok
    rw [hn ha] at hcb
    refine ⟨hlinked.inv, hlinked.others, hlinked.written, ?_, fun _ => ⟨?_, ?_⟩, fun hne => absurd hmode hne,
      fun h1 => ?_, fun h1 => ?_, fun h1 => ?_, fun _ => ?_⟩
    · rw [hreads]
      exact Nat.le_succ _
    · exact congrArg SwtmrCtrl.responseTime hcb
    · obtain ⟨l₁, l₂, hl, hl', _⟩ := hlinked.place
      exact ⟨l₁, l₂, hl, hl'⟩
    · cases hmode.symm.trans h1
    · cases hmode.symm.trans h1
    · cases hmode.symm.trans h1
    · rw [hcb]
  | noSelfdelete =>
    dsimp only
    have h₁ := hw.modify (f := fun cb => { cb with ucState := .created }) rfl
    refine ⟨h₁.settle ?_ ?_, fun u hu => modify_of_ne hu, rfl, le_refl _, fun h1 => ?_, fun _ => rfl,
      fun h1 => ?_, fun _ => ?_, fun h1 => ?_, fun _ => ?_⟩
    · rw [modify_self]
    · rw [modify_self]
      exact ⟨hok.pos, hok.word, hok.mode, hok.handler⟩
    · cases hmode.symm.trans h1
    · cases hmode.symm.trans h1
    · rw [modify_self]
    · cases hmode.symm.trans h1
    · rw [modify_self]
  | opp => exact absurd hmode hok.mode

def due (s : SwtmrState) (now : Nat) : List Nat :=
  s.gSwtmrSortLink.filter fun t => decide (s.responseTime t ≤ now)

def handlerItem (s : SwtmrState) (t : Nat) : Nat × SwtmrHandlerItem :=
  (t, ⟨(s.gSwtmrCBArray t).pfnHandler, (s.gSwtmrCBArray t).uwArg⟩)

/-- What a scan has done once it has handled the timers `hs`, in this order. -/
structure Scanned (s₀ : SwtmrState) (now : Nat) (hs : List Nat) (s : SwtmrState) : Prop where
  inv : SwtmrInv s
  written : s.written = s₀.written ++ hs.map (handlerItem s₀)
  others : ∀ t, t ∉ hs → s.gSwtmrCBArray t = s₀.gSwtmrCBArray t ∧
    (t ∈ s.gSwtmrSortLink ↔ t ∈ s₀.gSwtmrSortLink)
  period : ∀ t ∈ hs, (s₀.gSwtmrCBArray t).ucMode = .period →
    t ∈ s.gSwtmrSortLink ∧ s₀.responseTime t < s.responseTime t ∧ (now : WithTop Nat) < s.responseTime t
  stopped : ∀ t ∈ hs, (s₀.gSwtmrCBArray t).ucMode ≠ .period → t ∉ s.gSwtmrSortLink
  once : ∀ t ∈ hs, (s₀.gSwtmrCBArray t).ucMode = .once → (s.gSwtmrCBArray t).ucState = .unused
  kept : ∀ t ∈ hs, (s₀.gSwtmrCBArray t).ucMode = .noSelfdelete → (s.gSwtmrCBArray t).ucState = .created
  renewed : ∀ t ∈ hs, (s₀.gSwtmrCBArray t).ucMode = .once →
    (s.gSwtmrCBArray t).usTimerID = nextTimerId (s₀.gSwtmrCBArray t).usTimerID
  named : ∀ t ∈ hs, (s₀.gSwtmrCBArray t).ucMode ≠ .once →
    (s.gSwtmrCBArray t).usTimerID = (s₀.gSwtmrCBArray t).usTimerID

/-- The loop of the scan, between two rounds. -/
structure Scanning (s₀ : SwtmrState) (now : Nat) (hs : List Nat) (s : SwtmrState) : Prop
    extends Scanned s₀ now hs s where
  rest : hs ++ due s now = due s₀ now
  reads : s₀.reads < s.reads

theorem SwtmrInv.due_cons {l : List Nat} (h : SwtmrInv s) (hl : s.gSwtmrSortLink = t :: l) :
    (s.responseTime t ≤ (now : WithTop Nat) → due s now = t :: l.filter fun u => decide (s.responseTime u ≤ now)) ∧
      (¬s.responseTime t ≤ (now : WithTop Nat) → due s now = []) := by
  unfold due
  rw [hl]
  constructor
  · intro hdue
    exact List.filter_cons_of_pos (by simpa using hdue)
  · intro hlate
    have hsorted := h.sorted
    rw [hl] at hsorted
    refine List.filter_eq_nil_iff.mpr fun u hu hd => hlate ?_
    have hu' := of_decide_eq_true hd
    rcases List.mem_cons.mp hu with rfl | hu
    · exact hu'
    · exact ((List.pairwise_cons.mp hsorted).1 u hu).trans hu'

theorem Scanning.round {s₀ : SwtmrState} {hs l : List Nat} (hclock : Monotone clock) (hcycle : 0 < osCyclePerTick)
    (h : Scanning s₀ (clock s₀.reads) hs s) (h₀ : SwtmrInv s₀) (hl : s.gSwtmrSortLink = t :: l)
    (hdue : s.responseTime t ≤ (clock s₀.reads : WithTop Nat)) :
    Scanning s₀ (clock s₀.reads) (hs ++ [t]) (osSwtmrTimeoutHandle clock (osDeleteNodeSortLink s t) t) := by
  have hinv := h.inv
  have ht : t ∈ s.gSwtmrSortLink := by
    rw [hl]
    exact List.mem_cons_self
  have hbound := ((hinv.linked t).mp ht).2.1
  have htl : t ∉ l := by
    have honce := hinv.once
    rw [hl] at honce
    exact (List.nodup_cons.mp honce).1
  have hdues := (hinv.due_cons hl).1 hdue
  have hnodup : (hs ++ due s (clock s₀.reads)).Nodup := by
    rw [h.rest]
    exact h₀.once.filter _
  have hnew : t ∉ hs := fun hmem => by
    refine (List.nodup_append.mp hnodup).2.2 t hmem t ?_ rfl
    rw [hdues]
    exact List.mem_cons_self
  have hcb₀ := (h.others t hnew).1
  have hdue₀ : s₀.responseTime t ≤ (clock s₀.reads : WithTop Nat) := by
    unfold SwtmrState.responseTime
    rw [← hcb₀]
    exact hdue
  -- the timer off the sort link
  have hfits := osDeleteNodeSortLink_fits hinv ht
  have hself : (osDeleteNodeSortLink s t).gSwtmrCBArray t = { s.gSwtmrCBArray t with responseTime := ⊤ } :=
    modify_self ..
  have hother : ∀ u, u ≠ t → (osDeleteNodeSortLink s t).gSwtmrCBArray u = s.gSwtmrCBArray u := fun u hu =>
    modify_of_ne hu
  have hlink : (osDeleteNodeSortLink s t).gSwtmrSortLink = l := by
    show s.gSwtmrSortLink.erase t = l
    rw [hl, List.erase_cons_head]
  have hinfo : (osDeleteNodeSortLink s t).alignInfo t = s.alignInfo t := by
    unfold SwtmrState.alignInfo SwtmrState.alignIndex
    rw [hself]
    rfl
  have hrest : (osDeleteNodeSortLink s t).written = s.written ∧ (osDeleteNodeSortLink s t).reads = s.reads :=
    ⟨rfl, rfl⟩
  have hok := hinv.timer t hbound nofun (by rw [((hinv.linked t).mp ht).2.2]; nofun)
  generalize osDeleteNodeSortLink s t = s₁ at *
  have hhand := osSwtmrTimeoutHandle_handled clock hfits hbound (by rw [hself]; exact ⟨hok.pos, hok.word, hok.mode, hok.handler⟩)
    (by rw [hinfo]; exact fun ha => hinv.aligned ha t ht)
  generalize osSwtmrTimeoutHandle clock s₁ t = s' at *
  have hcb : ∀ u, u ≠ t → s'.gSwtmrCBArray u = s.gSwtmrCBArray u := fun u hu =>
    (hhand.others u hu).trans (hother u hu)
  have hmem : ∀ u, u ≠ t → (u ∈ s'.gSwtmrSortLink ↔ u ∈ s.gSwtmrSortLink) := by
    intro u hu
    rw [hhand.inv.linked u, hinv.linked u, hcb u hu]
  have hresp : ∀ u, u ≠ t → s'.responseTime u = s.responseTime u := fun u hu =>
    congrArg SwtmrCtrl.responseTime (hcb u hu)
  have hmode : (s₁.gSwtmrCBArray t).ucMode = (s₀.gSwtmrCBArray t).ucMode := by rw [hself, hcb₀]
  have hlater : (s₀.gSwtmrCBArray t).ucMode = .period → (clock s₀.reads : WithTop Nat) < s'.responseTime t := by
    intro hp
    rw [(hhand.period (hmode.trans hp)).1, hself, hrest.2]
    have hreads : clock s₀.reads ≤ clock s.reads := hclock h.reads.le
    have hmul : 0 < (s.gSwtmrCBArray t).uwInterval * osCyclePerTick := Nat.mul_pos hok.pos hcycle
    exact WithTop.coe_lt_coe.mpr (Nat.lt_of_le_of_lt hreads (Nat.lt_add_of_pos_right hmul))
  have hin : ∀ u, u ∈ hs ++ [t] → (u ∈ hs ∧ u ≠ t) ∨ u = t := by
    intro u hu
    rcases List.mem_append.mp hu with hu | hu
    · exact .inl ⟨hu, fun he => hnew (he ▸ hu)⟩
    · exact .inr (List.mem_singleton.mp hu)
  have hid : (s₁.gSwtmrCBArray t).usTimerID = (s₀.gSwtmrCBArray t).usTimerID := by rw [hself, hcb₀]
  refine ⟨⟨hhand.inv, ?_, fun u hu => ?_, fun u hu hp => ?_, fun u hu hp => ?_, fun u hu hp => ?_,
    fun u hu hp => ?_, fun u hu hp => ?_, fun u hu hp => ?_⟩, ?_, ?_⟩
  · rw [hhand.written, hrest.1, h.written, List.map_append, List.append_assoc, hself, hcb₀]
    rfl
  · obtain ⟨hu, hut⟩ := not_or.mp (mt List.mem_append.mpr hu)
    have hne : u ≠ t := fun he => hut (List.mem_singleton.mpr he)
    obtain ⟨h1, h2⟩ := h.others u hu
    exact ⟨(hcb u hne).trans h1, (hmem u hne).trans h2⟩
  · rcases hin u hu with ⟨hu, hne⟩ | rfl
    · rw [hmem u hne, hresp u hne]
      exact h.period u hu hp
    · obtain ⟨_, l₁, l₂, _, hl'⟩ := hhand.period (hmode.trans hp)
      refine ⟨?_, hdue₀.trans_lt (hlater hp), hlater hp⟩
      rw [hl']
      exact List.mem_append_right _ List.mem_cons_self
  · rcases hin u hu with ⟨hu, hne⟩ | rfl
    · rw [hmem u hne]
      exact h.stopped u hu hp
    · rw [hhand.stopped (hmode ▸ hp), hlink]
      exact htl
  · rcases hin u hu with ⟨hu, hne⟩ | rfl
    · rw [hcb u hne]
      exact h.once u hu hp
    · exact hhand.once (hmode.trans hp)
  · rcases hin u hu with ⟨hu, hne⟩ | rfl
    · rw [hcb u hne]
      exact h.kept u hu hp
    · exact hhand.kept (hmode.trans hp)
  · rcases hin u hu with ⟨hu, hne⟩ | rfl
    · rw [hcb u hne]
      exact h.renewed u hu hp
    · rw [hhand.renewed (hmode.trans hp), hid]
  · rcases hin u hu with ⟨hu, hne⟩ | rfl
    · rw [hcb u hne]
      exact h.named u hu hp
    · exact (hhand.named (hmode ▸ hp)).trans hid
  · have hfilter : ∀ l' : List Nat, t ∉ l' → l'.filter (fun u => decide (s'.responseTime u ≤ clock s₀.reads)) =
        l'.filter fun u => decide (s.responseTime u ≤ clock s₀.reads) := fun l' hl' =>
      List.filter_congr fun u hu => by rw [hresp u fun he => hl' (he ▸ hu)]
    have hleft : due s' (clock s₀.reads) = l.filter fun u => decide (s.responseTime u ≤ clock s₀.reads) := by
      unfold due
      by_cases hp : (s₀.gSwtmrCBArray t).ucMode = .period
      · obtain ⟨_, l₁, l₂, hl₁, hl'⟩ := hhand.period (hmode.trans hp)
        rw [hlink] at hl₁
        rw [hl₁] at htl ⊢
        obtain ⟨h1, h2⟩ := not_or.mp (mt List.mem_append.mpr htl)
        rw [hl', List.filter_append, List.filter_append, List.filter_cons_of_neg (by simpa using hlater hp),
          hfilter l₁ h1, hfilter l₂ h2]
      · rw [hhand.stopped (hmode ▸ hp), hlink, hfilter l htl]
    rw [hleft, List.append_assoc, ← h.rest, hdues]
    rfl
  · have hreads := hhand.reads
    rw [hrest.2] at hreads
    exact Nat.lt_of_lt_of_le h.reads hreads

theorem osSwtmrScan_mono {fuel fuel' : Nat} {r : SwtmrState × Bool} (h : osSwtmrScan clock fuel s = some r)
    (hle : fuel ≤ fuel') : osSwtmrScan clock fuel' s = some r := by
  unfold osSwtmrScan at h ⊢
  split at h
  · next hempty =>
    rw [if_pos hempty]
    exact h
  · next hempty =>
    rw [if_neg hempty]
    exact whileLoop_mono h hle

/-- The loop ends, when all that was due has been handled. -/
theorem osSwtmrScan_scanned (hclock : Monotone clock) (hcycle : 0 < osCyclePerTick) (h : SwtmrInv s) :
    ∃ s' needSchedule bound, (∀ fuel ≥ bound, osSwtmrScan clock fuel s = some (s', needSchedule)) ∧
      Scanned s (clock s.reads) (due s (clock s.reads)) s' := by
  unfold osSwtmrScan
  cases hempty : s.gSwtmrSortLink.isEmpty with
  | true =>
    have hnil : s.gSwtmrSortLink = [] := List.isEmpty_iff.mp hempty
    have hdue : due s (clock s.reads) = [] := by
      unfold due
      rw [hnil]
      rfl
    rw [hdue]
    exact ⟨s, false, 0, fun _ _ => if_pos rfl, h, (List.append_nil _).symm, fun _ _ => ⟨rfl, Iff.rfl⟩, nofun, nofun,
      nofun, nofun, nofun, nofun⟩
  | false =>
    have hstart : Scanning s (clock s.reads) [] { s with reads := s.reads + 1 } :=
      ⟨⟨h.congr rfl rfl rfl rfl, (List.append_nil _).symm, fun _ _ => ⟨rfl, Iff.rfl⟩, nofun, nofun, nofun, nofun,
        nofun, nofun⟩, rfl, Nat.lt_succ_self _⟩
    -- each round takes the first of those that are left
    obtain ⟨r, hr, ⟨hs, hI⟩, hexit⟩ := whileLoop_total (firstDue (clock s.reads)) (handleFirst clock)
      (fun r => ∃ hs, Scanning s (clock s.reads) hs r.1) (fun r => (due r.1 (clock s.reads)).length)
      (fun r hI hc => by
        obtain ⟨hs, hI⟩ := hI
        unfold firstDue at hc
        cases hl : r.1.gSwtmrSortLink with
        | nil =>
          rw [hl] at hc
          cases hc
        | cons t l =>
          rw [hl] at hc
          have hdue : r.1.responseTime t ≤ (clock s.reads : WithTop Nat) := of_decide_eq_true hc
          have hround := hI.round hclock hcycle h hl hdue
          have hbody : (handleFirst clock r).1 = osSwtmrTimeoutHandle clock (osDeleteNodeSortLink r.1 t) t := by
            unfold handleFirst
            rw [hl]
          rw [← hbody] at hround
          refine ⟨⟨_, hround⟩, fun _ => ?_⟩
          have hlen := congrArg List.length (hround.rest.trans hI.rest.symm)
          simp only [List.length_append, List.length_cons, List.length_nil] at hlen
          omega)
      (s := ({ s with reads := s.reads + 1 }, false)) ⟨[], hstart⟩
    have hdone : due r.1 (clock s.reads) = [] := by
      unfold firstDue at hexit
      cases hl : r.1.gSwtmrSortLink with
      | nil =>
        unfold due
        rw [hl]
        rfl
      | cons t l =>
        rw [hl] at hexit
        exact (hI.inv.due_cons hl).2 (of_decide_eq_false hexit)
    have hall := hI.rest
    rw [hdone, List.append_nil] at hall
    rw [← hall]
    exact ⟨r.1, r.2, _, fun fuel hf => (if_neg Bool.false_ne_true).trans (hr fuel hf), hI.toScanned⟩

end

end LiteosM.Swtmr
