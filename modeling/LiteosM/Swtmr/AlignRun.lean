import LiteosM.Swtmr.Align

/-!
# Alignment through every sequence of timer calls

The record of a timer in `g_swtmrAlignID` goes with its interval as long as nobody starts a timer
that has been deleted.
-/

namespace LiteosM.Swtmr

open LiteosM.Lib.Transition LiteosM.Lib.While

section

variable [SwtmrConfig] {clock : Nat → Nat} {s s' : SwtmrState} {t u now n : Nat}

theorem alignInfo_eq {out : Option Nat} (h : Fits s out) (ht : t < SwtmrConfig.swtmrLimit) :
    s.alignInfo t = s.gSwtmrAlignID t := congrArg s.gSwtmrAlignID (h.ids t ht)

theorem Tied.congr {c : Nat} (h : Tied s c) (hinfo : s'.alignInfo c = s.alignInfo c) : Tied s' c := by
  unfold Tied
  rw [hinfo]
  exact h

theorem Larger.congr {c : Nat} (h : Larger s t c) (hinfo : s'.alignInfo c = s.alignInfo c)
    (hinterval : ∀ u, s'.interval u = s.interval u) : Larger s' t c := by
  obtain ⟨htied, htens, hless, hdiv⟩ := h
  rw [← hinterval t, ← hinterval c] at hless hdiv
  rw [← hinterval t] at htens
  exact ⟨htied.congr hinfo, htens, hless, hdiv⟩

theorem Smaller.congr {c : Nat} (h : Smaller s t c) (hinfo : s'.alignInfo c = s.alignInfo c)
    (hinterval : ∀ u, s'.interval u = s.interval u) : Smaller s' t c := by
  obtain ⟨htied, htens, hless, hdiv⟩ := h
  rw [← hinterval t, ← hinterval c] at hless hdiv
  rw [← hinterval c] at htens
  exact ⟨htied.congr hinfo, htens, hless, hdiv⟩

theorem FirstExpiry.congr (hlink : s'.gSwtmrSortLink = s.gSwtmrSortLink)
    (hinterval : ∀ u, s'.interval u = s.interval u)
    (hinfo : ∀ c ∈ s.gSwtmrSortLink, s'.alignInfo c = s.alignInfo c)
    (hresponse : ∀ c ∈ s.gSwtmrSortLink, s'.responseTime c = s.responseTime c) (h : FirstExpiry s' now t n) :
    FirstExpiry s now t n := by
  have hremaining : ∀ c ∈ s.gSwtmrSortLink, s'.remaining now c = s.remaining now c := fun c hc =>
    congrArg (osSortLinkGetTargetExpireTime now) (hresponse c hc)
  have hlarger : ∀ c ∈ s.gSwtmrSortLink, Larger s' t c ↔ Larger s t c := fun c hc =>
    ⟨fun hl => hl.congr (hinfo c hc).symm fun u => (hinterval u).symm, fun hl => hl.congr (hinfo c hc) hinterval⟩
  have hsmaller : ∀ c ∈ s.gSwtmrSortLink, Smaller s' t c ↔ Smaller s t c := fun c hc =>
    ⟨fun hs => hs.congr (hinfo c hc).symm fun u => (hinterval u).symm, fun hs => hs.congr (hinfo c hc) hinterval⟩
  cases h with
  | larger c hc hl hleast range meet =>
    rw [hlink] at hc
    rw [hinterval] at range meet
    rw [hremaining c hc] at meet
    refine .larger c hc ((hlarger c hc).mp hl) (fun d hd hld => ?_) range meet
    have hle := hleast d (hlink ▸ hd) ((hlarger d hd).mpr hld)
    rw [hinterval, hinterval] at hle
    exact hle
  | smaller c hc hs hnone hleast range meet =>
    rw [hlink] at hc hnone
    rw [hinterval] at range
    rw [hremaining c hc] at meet
    refine .smaller c hc ((hsmaller c hc).mp hs) (fun d hd hld => hnone d hd ((hlarger d hd).mpr hld))
      (fun d hd hsd => ?_) range meet
    have hle := hleast d (hlink ▸ hd) ((hsmaller d hd).mpr hsd)
    rw [hinterval, hinterval] at hle
    exact hle
  | alone hnl hns own =>
    rw [hlink] at hnl hns
    rw [hinterval] at own
    exact .alone (fun d hd hld => hnl d hd ((hlarger d hd).mpr hld))
      (fun d hd hsd => hns d hd ((hsmaller d hd).mpr hsd)) own

/-- What is known of a timer, when the clock will read `now` at the earliest. -/
structure TimerNoted (now : Nat) (cb : SwtmrCtrl) (info : SwtmrAlignData) : Prop where
  bare : cb.ucState = .unused → info.canAlign = false
  recorded : Recorded cb.uwInterval info
  small : cb.ucState ≠ .unused → cb.ucSensitive = osSwtmrAlignInsensitive → cb.ucMode = .period →
    cb.uwInterval < losCommonDivisor * 2 ^ 24
  early : cb.ucState = .ticking → cb.responseTime ≤ ((now + cb.uwInterval * osCyclePerTick : Nat) : WithTop Nat)

theorem TimerNoted.later {now' : Nat} {cb : SwtmrCtrl} {info : SwtmrAlignData} (h : TimerNoted now cb info)
    (hle : now ≤ now') : TimerNoted now' cb info :=
  ⟨h.bare, h.recorded, h.small, fun hs => (h.early hs).trans (WithTop.coe_le_coe.mpr (Nat.add_le_add_right hle _))⟩

/-- Every timer but `out`, of which only the set-up is known. -/
structure Noted (clock : Nat → Nat) (s : SwtmrState) (out : Option Nat) : Prop where
  each : ∀ t < SwtmrConfig.swtmrLimit, out ≠ some t →
    TimerNoted (clock s.reads) (s.gSwtmrCBArray t) (s.gSwtmrAlignID t)
  setUp : ∀ t < SwtmrConfig.swtmrLimit, out = some t → Recorded (s.interval t) (s.gSwtmrAlignID t) ∧
    ((s.gSwtmrCBArray t).ucSensitive = osSwtmrAlignInsensitive → (s.gSwtmrCBArray t).ucMode = .period →
      s.interval t < losCommonDivisor * 2 ^ 24)

omit [SwtmrConfig] in
theorem recorded_isAligned {interval : Nat} {info : SwtmrAlignData} (h : Recorded interval info) (b : Bool) :
    Recorded interval { info with isAligned := b } := ⟨h.bare, h.multiple, h.times, h.single⟩

theorem Fits.set_up {out : Option Nat} (h : Fits s out) {c : Nat} (hc : c ∈ s.gSwtmrSortLink) :
    c < SwtmrConfig.swtmrLimit ∧ out ≠ some c ∧ (s.gSwtmrCBArray c).ucState = .ticking ∧
      TimerOk (s.gSwtmrCBArray c) := by
  obtain ⟨hout, hlt, hs⟩ := (h.linked c).mp hc
  exact ⟨hlt, hout, hs, h.timer c hlt hout (by rw [hs]; nofun)⟩

theorem osSwtmrStart_count (hn : Noted clock s (some t)) (h : Fits s (some t)) (ht : t < SwtmrConfig.swtmrLimit)
    (hok : TimerOk (s.gSwtmrCBArray t)) :
    (SwtmrConfig.align = true ∧ (s.alignInfo t).canAlign = true ∧ (s.alignInfo t).isAligned = false ∧
      (((osSwtmrStart clock s t).gSwtmrCBArray t).uwCount = 0 ∧
          (∃ c ∈ s.gSwtmrSortLink, Tied s c ∧ s.interval c = s.interval t) ∨
        FirstExpiry s (clock s.reads) t ((osSwtmrStart clock s t).gSwtmrCBArray t).uwCount)) ∨
    (¬(SwtmrConfig.align = true ∧ (s.alignInfo t).canAlign = true ∧ (s.alignInfo t).isAligned = false) ∧
      ((osSwtmrStart clock s t).gSwtmrCBArray t).uwCount = s.interval t) := by
  obtain ⟨s₁, hs₁⟩ : ∃ s₁, s₁ = { s with reads := s.reads + 1 }.modify t fun cb =>
      { cb with uwCount := cb.uwInterval, ucState := .ticking } := ⟨_, rfl⟩
  have hcb : s₁.gSwtmrCBArray t = { s.gSwtmrCBArray t with
      uwCount := (s.gSwtmrCBArray t).uwInterval
      ucState := .ticking } := by
    rw [hs₁]
    exact modify_self ..
  have hothers : ∀ u, u ≠ t → s₁.gSwtmrCBArray u = s.gSwtmrCBArray u := by
    intro u hu
    rw [hs₁]
    exact modify_of_ne hu
  have hrest : s₁.gSwtmrSortLink = s.gSwtmrSortLink ∧ s₁.gSwtmrAlignID = s.gSwtmrAlignID := by
    rw [hs₁]
    exact ⟨rfl, rfl⟩
  have hadd : ∀ s₂ : SwtmrState, ∀ start wait,
      ((osAdd2SortLink s₂ t start wait).gSwtmrCBArray t).uwCount = (s₂.gSwtmrCBArray t).uwCount := by
    intro s₂ start wait
    have hself := congrArg SwtmrCtrl.uwCount
      (modify_self s₂ t fun cb => { cb with responseTime := ((start + wait * osCyclePerTick : Nat) : WithTop Nat) })
    exact hself
  unfold osSwtmrStart
  dsimp only
  rw [← hs₁, hadd]
  have hinfo : s₁.alignInfo t = s.alignInfo t := by
    unfold SwtmrState.alignInfo SwtmrState.alignIndex
    rw [hcb, hrest.2]
  have hinterval : ∀ u, s₁.interval u = s.interval u := by
    intro u
    unfold SwtmrState.interval
    by_cases hu : u = t
    · rw [hu, hcb]
    · rw [hothers u hu]
  split
  · next hal =>
    simp only [Bool.and_eq_true, Bool.not_eq_true'] at hal
    obtain ⟨⟨halign, hcan⟩, hloose⟩ := hal
    have hself := alignInfo_setAlign s₁ t { s₁.alignInfo t with isAligned := true }
    have hlink : ∀ c ∈ s.gSwtmrSortLink, c ≠ t := fun c hc he => h.not_linked (he ▸ hc)
    have hindex : ∀ u, s₁.alignIndex u = s.alignIndex u := by
      intro u
      unfold SwtmrState.alignIndex
      by_cases hu : u = t
      · rw [hu, hcb]
      · rw [hothers u hu]
    have hkeep : ∀ c ∈ s.gSwtmrSortLink,
        (s₁.setAlign t { s₁.alignInfo t with isAligned := true }).alignInfo c = s.alignInfo c := by
      intro c hc
      have hlt := (h.set_up hc).1
      refine (Function.update_of_ne ?_ ..).trans ?_
      · show s₁.alignIndex c ≠ s₁.alignIndex t
        rw [hindex, hindex, h.ids c hlt, h.ids t ht]
        exact hlink c hc
      · show s₁.gSwtmrAlignID (s₁.alignIndex c) = s.alignInfo c
        rw [hindex, hrest.2]
        rfl
    have hsame : (s₁.setAlign t { s₁.alignInfo t with isAligned := true }).gSwtmrCBArray = s₁.gSwtmrCBArray ∧
        (s₁.setAlign t { s₁.alignInfo t with isAligned := true }).gSwtmrSortLink = s₁.gSwtmrSortLink ∧
        ∀ u, (s₁.setAlign t { s₁.alignInfo t with isAligned := true }).alignIndex u = s₁.alignIndex u :=
      ⟨rfl, rfl, fun _ => rfl⟩
    generalize s₁.setAlign t { s₁.alignInfo t with isAligned := true } = s₂ at *
    rw [hinfo] at hcan hloose hself
    obtain ⟨hcbs, hlinks, hindices⟩ := hsame
    have hinterval₂ : ∀ u, s₂.interval u = s.interval u := by
      intro u
      unfold SwtmrState.interval
      rw [hcbs]
      exact hinterval u
    have hresponse₂ : ∀ c ∈ s.gSwtmrSortLink, s₂.responseTime c = s.responseTime c := by
      intro c hc
      unfold SwtmrState.responseTime
      rw [hcbs, hothers c (hlink c hc)]
    have hset := hn.setUp t ht rfl
    rw [← alignInfo_eq h ht] at hset
    have hsearched : Searched s₂ t := by
      refine ⟨by rw [hself]; exact hcan, ?_, ?_, ?_, fun c hc => ?_⟩
      · rw [hself, hinterval₂]
        exact recorded_isAligned hset.1 true
      · rw [hinterval₂]
        exact hok.pos
      · rw [hinterval₂]
        exact hok.word
      · rw [hlinks, hrest.1] at hc
        obtain ⟨hlt, hout, _, hcok⟩ := h.set_up hc
        rw [hkeep c hc, hinterval₂, alignInfo_eq h hlt]
        exact ⟨(hn.each c hlt hout).recorded, hcok.pos, hcok.word⟩
    have hids : ∀ c ∈ s₂.gSwtmrSortLink, s₂.alignIndex c = c := by
      intro c hc
      rw [hlinks, hrest.1] at hc
      rw [hindices, hindex]
      exact h.ids c (h.set_up hc).1
    have hearly : ∀ c ∈ s₂.gSwtmrSortLink,
        s₂.responseTime c ≤ ((clock s.reads + s₂.interval c * osCyclePerTick : Nat) : WithTop Nat) := by
      intro c hc
      rw [hlinks, hrest.1] at hc
      obtain ⟨hlt, hout, hticking, _⟩ := h.set_up hc
      rw [hresponse₂ c hc, hinterval₂]
      exact (hn.each c hlt hout).early hticking
    obtain ⟨n, heq, hfirst⟩ := osSwtmrFindAlignPos_count hsearched hids hearly (by
      rw [hinterval₂, hcbs, hcb]
      rfl)
    have hcount : (s₂.modify t (fun cb => { cb with uwCount := n })).gSwtmrCBArray t =
        { s₂.gSwtmrCBArray t with uwCount := n } := modify_self ..
    rw [heq, hcount]
    refine .inl ⟨halign, hcan, hloose, ?_⟩
    rcases hfirst with ⟨hzero, c, hc, htied, hcs⟩ | hfirst
    · rw [hlinks, hrest.1] at hc
      rw [hinterval₂, hinterval₂] at hcs
      exact .inl ⟨hzero, c, hc, htied.congr (hkeep c hc).symm, hcs⟩
    · exact .inr (hfirst.congr (hlinks.trans hrest.1) hinterval₂ hkeep hresponse₂)
  · next hal =>
    rw [hcb]
    refine .inr ⟨fun hc => hal ?_, rfl⟩
    rw [hinfo, hc.1, hc.2.1, hc.2.2]
    rfl

/-! ### What the calls do to the records -/

theorem osSwtmrStart_alignID (clock : Nat → Nat) (hid : s.alignIndex t = t) :
    ∃ b, (osSwtmrStart clock s t).gSwtmrAlignID =
      Function.update s.gSwtmrAlignID t { s.gSwtmrAlignID t with isAligned := b } := by
  have hstart : ({ s with reads := s.reads + 1 }.modify t fun cb =>
      { cb with uwCount := cb.uwInterval, ucState := .ticking }).alignIndex t = t := by
    unfold SwtmrState.alignIndex
    rw [modify_self]
    exact hid
  have halign : ({ s with reads := s.reads + 1 }.modify t fun cb =>
      { cb with uwCount := cb.uwInterval, ucState := .ticking }).gSwtmrAlignID = s.gSwtmrAlignID := rfl
  unfold osSwtmrStart
  dsimp only
  generalize SwtmrState.modify _ t _ = s₁ at *
  split
  · obtain ⟨n, hn⟩ := osSwtmrFindAlignPos_eq (s₁.setAlign t { s₁.alignInfo t with isAligned := true })
      (clock s.reads) t
    rw [hn]
    refine ⟨true, ?_⟩
    show Function.update s₁.gSwtmrAlignID (s₁.alignIndex t)
      { s₁.gSwtmrAlignID (s₁.alignIndex t) with isAligned := true } = _
    rw [hstart, halign]
  · exact ⟨(s.gSwtmrAlignID t).isAligned, halign.trans (Function.update_eq_self ..).symm⟩

omit [SwtmrConfig] in
theorem osDeleteSortLink_rest (s : SwtmrState) (t : Nat) :
    (osDeleteSortLink s t).gSwtmrAlignID = s.gSwtmrAlignID ∧ (osDeleteSortLink s t).reads = s.reads ∧
    (∀ u, u ≠ t → (osDeleteSortLink s t).gSwtmrCBArray u = s.gSwtmrCBArray u) ∧
    ∃ r, (osDeleteSortLink s t).gSwtmrCBArray t = { s.gSwtmrCBArray t with responseTime := r } := by
  unfold osDeleteSortLink
  split
  · exact ⟨rfl, rfl, fun u hu => modify_of_ne hu, ⊤, modify_self ..⟩
  · exact ⟨rfl, rfl, fun _ _ => rfl, (s.gSwtmrCBArray t).responseTime, rfl⟩

theorem osSwtmrStop_rest (running : Bool) (hid : s.alignIndex t = t) :
    (∃ b, (osSwtmrStop s running t).gSwtmrAlignID =
      Function.update s.gSwtmrAlignID t { s.gSwtmrAlignID t with isAligned := b }) ∧
    (osSwtmrStop s running t).reads = s.reads ∧
    (∀ u, u ≠ t → (osSwtmrStop s running t).gSwtmrCBArray u = s.gSwtmrCBArray u) ∧
    ∃ r, (osSwtmrStop s running t).gSwtmrCBArray t =
      { s.gSwtmrCBArray t with ucState := .created, responseTime := r } := by
  obtain ⟨halign, hreads, hothers, r, hcb⟩ := osDeleteSortLink_rest s t
  unfold osSwtmrStop
  dsimp only
  generalize osDeleteSortLink s t = s₁ at *
  have hself : (s₁.modify t fun cb => { cb with ucState := .created }).gSwtmrCBArray t =
      { s.gSwtmrCBArray t with ucState := .created, responseTime := r } := by rw [modify_self, hcb]
  have hindex : (s₁.modify t fun cb => { cb with ucState := .created }).alignIndex t = t := by
    unfold SwtmrState.alignIndex
    rw [hself]
    exact hid
  have hother : ∀ u, u ≠ t → (s₁.modify t fun cb => { cb with ucState := .created }).gSwtmrCBArray u =
      s.gSwtmrCBArray u := fun u hu => (modify_of_ne hu).trans (hothers u hu)
  have hrest : (s₁.modify t fun cb => { cb with ucState := .created }).gSwtmrAlignID = s.gSwtmrAlignID ∧
      (s₁.modify t fun cb => { cb with ucState := .created }).reads = s.reads := ⟨halign, hreads⟩
  generalize s₁.modify t (fun cb => { cb with ucState := .created }) = s₂ at *
  split
  · refine ⟨⟨false, ?_⟩, hrest.2, hother, r, hself⟩
    show Function.update s₂.gSwtmrAlignID (s₂.alignIndex t)
      { s₂.gSwtmrAlignID (s₂.alignIndex t) with isAligned := false } = _
    rw [hindex, hrest.1]
  · exact ⟨⟨(s.gSwtmrAlignID t).isAligned, hrest.1.trans (Function.update_eq_self ..).symm⟩, hrest.2, hother, r, hself⟩

theorem osSwtmrDelete_alignID (halign : SwtmrConfig.align = true) (hid : s.alignIndex t = t) :
    (osSwtmrDelete s t).gSwtmrAlignID = Function.update s.gSwtmrAlignID t noAlign := by
  have hindex : ({ s with gSwtmrFreeList := t :: s.gSwtmrFreeList }.modify t fun cb =>
      { cb with ucState := .unused }).alignIndex t = t := by
    unfold SwtmrState.alignIndex
    rw [modify_self]
    exact hid
  unfold osSwtmrDelete
  dsimp only
  rw [if_pos halign]
  show Function.update s.gSwtmrAlignID (SwtmrState.alignIndex _ t) noAlign = _
  rw [hindex]

/-! ### The records go with the intervals -/

theorem Noted.others {out : Option Nat} (h : Noted clock s out) (hout : out = none ∨ out = some t) :
    ∀ u < SwtmrConfig.swtmrLimit, u ≠ t → TimerNoted (clock s.reads) (s.gSwtmrCBArray u) (s.gSwtmrAlignID u) := by
  intro u hu hne
  refine h.each u hu ?_
  rcases hout with rfl | rfl
  · exact nofun
  · exact fun he => hne (Option.some.inj he).symm

theorem Noted.close {out : Option Nat} (hclock : Monotone clock) (h : Noted clock s out)
    (hout : out = none ∨ out = some t) (hcb : ∀ u, u ≠ t → s'.gSwtmrCBArray u = s.gSwtmrCBArray u)
    (halign : ∀ u, u ≠ t → s'.gSwtmrAlignID u = s.gSwtmrAlignID u) (hreads : s.reads ≤ s'.reads)
    (ht : TimerNoted (clock s'.reads) (s'.gSwtmrCBArray t) (s'.gSwtmrAlignID t)) : Noted clock s' none := by
  refine ⟨fun u hu _ => ?_, nofun⟩
  by_cases hne : u = t
  · rw [hne]
    exact ht
  · rw [hcb u hne, halign u hne]
    exact (h.others hout u hu hne).later (hclock hreads)

theorem Noted.open {out : Option Nat} (hclock : Monotone clock) (h : Noted clock s out)
    (hout : out = none ∨ out = some t) (hcb : ∀ u, u ≠ t → s'.gSwtmrCBArray u = s.gSwtmrCBArray u)
    (halign : ∀ u, u ≠ t → s'.gSwtmrAlignID u = s.gSwtmrAlignID u) (hreads : s.reads ≤ s'.reads)
    (hrec : Recorded (s'.interval t) (s'.gSwtmrAlignID t))
    (hsmall : (s'.gSwtmrCBArray t).ucSensitive = osSwtmrAlignInsensitive → (s'.gSwtmrCBArray t).ucMode = .period →
      s'.interval t < losCommonDivisor * 2 ^ 24) : Noted clock s' (some t) := by
  refine ⟨fun u hu hne => ?_, fun u _ he => ?_⟩
  · have hne : u ≠ t := fun he => hne (congrArg some he.symm)
    rw [hcb u hne, halign u hne]
    exact (h.others hout u hu hne).later (hclock hreads)
  · cases he
    exact ⟨hrec, hsmall⟩

theorem osSwtmrStart_noted (hclock : Monotone clock) (hn : Noted clock s (some t)) (h : Fits s (some t))
    (ht : t < SwtmrConfig.swtmrLimit) (hok : TimerOk (s.gSwtmrCBArray t)) :
    Noted clock (osSwtmrStart clock s t) none := by
  obtain ⟨hlinked, hreads, n, hcb, _⟩ := osSwtmrStart_linked clock h ht hok
  obtain ⟨b, halign⟩ := osSwtmrStart_alignID clock (h.ids t ht)
  have hcount := osSwtmrStart_count hn h ht hok
  have hle : n ≤ s.interval t := by
    have huw : ((osSwtmrStart clock s t).gSwtmrCBArray t).uwCount = n := by rw [hcb]
    rw [huw] at hcount
    rcases hcount with ⟨_, _, _, ⟨hzero, _⟩ | hfirst⟩ | ⟨_, hown⟩
    · exact hzero ▸ Nat.zero_le _
    · exact hfirst.le
    · exact hown.le
  obtain ⟨hrec, hsmall⟩ := hn.setUp t ht rfl
  refine hn.close hclock (.inr rfl) hlinked.others (fun u hu => ?_) (hreads ▸ Nat.le_succ _) ?_
  · rw [halign]
    exact Function.update_of_ne hu ..
  · rw [halign, Function.update_self, hcb]
    refine ⟨nofun, recorded_isAligned hrec b, fun _ => hsmall, fun _ => WithTop.coe_le_coe.mpr ?_⟩
    rw [hreads]
    exact Nat.add_le_add (hclock (Nat.le_succ _)) (Nat.mul_le_mul_right _ hle)

theorem osSwtmrDelete_noted (halign : SwtmrConfig.align = true) (hclock : Monotone clock)
    (hn : Noted clock s (some t)) (h : Fits s (some t)) (ht : t < SwtmrConfig.swtmrLimit) :
    Noted clock (osSwtmrDelete s t) none := by
  obtain ⟨_, hcb, _, _, hreads⟩ := osSwtmrDelete_spec h ht
  have hid := osSwtmrDelete_alignID halign (h.ids t ht)
  refine hn.close hclock (.inr rfl) (fun u hu => ?_) (fun u hu => ?_) hreads.ge ?_
  · rw [hcb]
    exact Function.update_of_ne hu ..
  · rw [hid]
    exact Function.update_of_ne hu ..
  · rw [hid, hcb, Function.update_self, Function.update_self]
    exact ⟨fun _ => rfl, ⟨fun _ => rfl, nofun, nofun, fun _ => rfl⟩, fun hne => absurd rfl hne, nofun⟩

theorem setCanAlign_noted (hn : Noted clock s none) (h : SwtmrInv s) (ht : t < SwtmrConfig.swtmrLimit)
    (hs : (s.gSwtmrCBArray t).ucState ≠ .unused) : Noted clock (setCanAlign s t) none := by
  unfold setCanAlign
  dsimp only
  split
  · next hal =>
    simp only [Bool.and_eq_true, decide_eq_true_eq] at hal
    obtain ⟨_, hsens, hmode⟩ := hal
    have hnt := hn.each t ht nofun
    have hsmall := hnt.small hs hsens hmode
    have hset : ∀ info, Recorded (s.interval t) info → Noted clock (s.setAlign t info) none := by
      intro info hrec
      have hid : (s.setAlign t info).gSwtmrAlignID = Function.update s.gSwtmrAlignID t info := by
        unfold SwtmrState.setAlign
        rw [h.ids t ht]
      refine ⟨fun u hu _ => ?_, nofun⟩
      rw [hid]
      by_cases hne : u = t
      · rw [hne, Function.update_self]
        exact ⟨fun hu => absurd hu hs, hrec, hnt.small, hnt.early⟩
      · rw [Function.update_of_ne hne]
        exact hn.each u hu nofun
    have hrec := hnt.recorded
    rw [← alignInfo_eq h ht] at hrec
    apply hset
    have hdvd : losCommonDivisor ∣ s.interval t ↔ (s.gSwtmrCBArray t).uwInterval % losCommonDivisor = 0 :=
      Nat.dvd_iff_mod_eq_zero
    split
    · next hten =>
      refine ⟨nofun, fun _ => iff_of_true rfl (hdvd.mpr hten), fun _ => ?_, nofun⟩
      have hdiv : (s.gSwtmrCBArray t).uwInterval / losCommonDivisor < 2 ^ 24 := Nat.div_lt_of_lt_mul hsmall
      dsimp only
      rw [Nat.mod_eq_of_lt hdiv]
      exact Nat.mul_div_cancel' (hdvd.mpr hten)
    · next hten =>
      have hsingle : (s.alignInfo t).canMultiple = false := by
        cases hc : (s.alignInfo t).canAlign with
        | false => exact hrec.bare hc
        | true => exact Bool.eq_false_iff.mpr fun hm => hten (hdvd.mp ((hrec.multiple hc).mp hm))
      refine ⟨nofun, fun _ => iff_of_false ?_ (mt hdvd.mp hten), fun hm => ?_, fun _ => hrec.single hsingle⟩
      · exact Bool.eq_false_iff.mp hsingle
      · exact absurd hm (Bool.eq_false_iff.mp hsingle)
  · exact hn

theorem Noted.take (hclock : Monotone clock) (h : Noted clock s none) (ht : t < SwtmrConfig.swtmrLimit)
    (hs : (s.gSwtmrCBArray t).ucState ≠ .unused) : Noted clock s (some t) := by
  have hnt := h.each t ht nofun
  exact h.open hclock (.inl rfl) (fun _ _ => rfl) (fun _ _ => rfl) (le_refl _) hnt.recorded (hnt.small hs)

theorem osSwtmrStop_noted (hclock : Monotone clock) (hn : Noted clock s none) (hid : s.alignIndex t = t)
    (ht : t < SwtmrConfig.swtmrLimit) (hs : (s.gSwtmrCBArray t).ucState ≠ .unused) (running : Bool) :
    Noted clock (osSwtmrStop s running t) (some t) ∧ Noted clock (osSwtmrStop s running t) none := by
  obtain ⟨⟨b, halign⟩, hreads, hothers, r, hcb⟩ := osSwtmrStop_rest running hid
  have hnt := hn.each t ht nofun
  have hkeep : ∀ u, u ≠ t → (osSwtmrStop s running t).gSwtmrAlignID u = s.gSwtmrAlignID u := by
    intro u hu
    rw [halign]
    exact Function.update_of_ne hu ..
  have hinterval : (osSwtmrStop s running t).interval t = s.interval t := by
    unfold SwtmrState.interval
    rw [hcb]
  constructor
  · refine hn.open hclock (.inl rfl) hothers hkeep hreads.ge ?_ ?_
    · rw [hinterval, halign, Function.update_self]
      exact recorded_isAligned hnt.recorded b
    · rw [hinterval, hcb]
      exact hnt.small hs
  · refine hn.close hclock (.inl rfl) hothers hkeep hreads.ge ?_
    rw [halign, Function.update_self, hcb]
    exact ⟨nofun, recorded_isAligned hnt.recorded b, fun _ => hnt.small hs, nofun⟩

/-- What `LOS_SwtmrStart` hands to `OsSwtmrStart`. -/
def startEntry (s : SwtmrState) (losTaskIsRunning : Bool) (t : Nat) : SwtmrState :=
  if (s.gSwtmrCBArray t).ucState = .ticking then osSwtmrStop (setCanAlign s t) losTaskIsRunning t
  else setCanAlign s t

theorem losSwtmrStart_eq {swtmrId : Nat} (clock : Nat → Nat) (running : Bool) (hrange : swtmrId < osSwtmrMaxTimerid)
    (hid : s.timerId (swtmrId % SwtmrConfig.swtmrLimit) = swtmrId)
    (hs : (s.gSwtmrCBArray (swtmrId % SwtmrConfig.swtmrLimit)).ucState ≠ .unused) :
    losSwtmrStart clock s running swtmrId =
      (osSwtmrStart clock (startEntry s running (swtmrId % SwtmrConfig.swtmrLimit)) (swtmrId % SwtmrConfig.swtmrLimit),
        .losOk) := by
  unfold losSwtmrStart startEntry
  rw [if_neg (Nat.not_le.mpr hrange)]
  dsimp only
  have hcurrent : ¬(s.gSwtmrCBArray (swtmrId % SwtmrConfig.swtmrLimit)).usTimerID ≠ swtmrId := not_not.mpr hid
  rw [if_neg hcurrent]
  generalize swtmrId % SwtmrConfig.swtmrLimit = t at *
  have hkeep : ((setCanAlign s t).gSwtmrCBArray t).ucState = (s.gSwtmrCBArray t).ucState := by
    obtain ⟨info, hinfo⟩ := setCanAlign_eq s t
    rw [hinfo]
    rfl
  rw [hkeep]
  cases hstate : (s.gSwtmrCBArray t).ucState with
  | unused => exact absurd hstate hs
  | created => rfl
  | ticking => rfl

theorem startEntry_ready (hclock : Monotone clock) (hn : Noted clock s none) (h : SwtmrInv s)
    (ht : t < SwtmrConfig.swtmrLimit) (hs : (s.gSwtmrCBArray t).ucState ≠ .unused) (running : Bool) :
    Noted clock (startEntry s running t) (some t) ∧ Fits (startEntry s running t) (some t) ∧
      TimerOk ((startEntry s running t).gSwtmrCBArray t) := by
  have hok := h.timer t ht nofun hs
  have hnoted := setCanAlign_noted hn h ht hs
  obtain ⟨info, hinfo⟩ := setCanAlign_eq s t
  unfold startEntry
  rw [hinfo] at hnoted ⊢
  split
  · next hticking =>
    have hlinked := (h.linked t).mpr ⟨nofun, ht, hticking⟩
    obtain ⟨hf, hcb⟩ := osSwtmrStop_fits h hlinked info running
    refine ⟨(osSwtmrStop_noted hclock hnoted (h.ids t ht) ht hs running).1, hf, ?_⟩
    rw [hcb]
    exact ⟨hok.pos, hok.word, hok.mode, hok.handler⟩
  · next hidle =>
    have hcreated : (s.gSwtmrCBArray t).ucState = .created := by
      cases hst : (s.gSwtmrCBArray t).ucState with
      | unused => exact absurd hst hs
      | created => rfl
      | ticking => exact absurd hst hidle
    exact ⟨hnoted.take hclock ht hs, (h.take hcreated).setAlign ht info, hok⟩

/-! ### Runs -/

/-- No deleted timer is started, and what is to be aligned has an interval that `times` has room for. -/
def Proper (s : SwtmrState) : SwtmrCall → Prop
  | .create interval mode _ _ _ _ sensitive =>
    sensitive = osSwtmrAlignInsensitive → mode = .period → interval < losCommonDivisor * 2 ^ 24
  | .start _ swtmrId => s.timerId (swtmrId % SwtmrConfig.swtmrLimit) = swtmrId →
    (s.gSwtmrCBArray (swtmrId % SwtmrConfig.swtmrLimit)).ucState ≠ .unused
  | _ => True

def properStep (clock : Nat → Nat) (s : SwtmrState) (call : SwtmrCall) (s' : SwtmrState) : Prop :=
  swtmrStep clock s call s' ∧ Proper s call

theorem losSwtmrCreate_noted (halign : SwtmrConfig.align = true) (hn : Noted clock s none) (h : SwtmrInv s)
    (interval : Nat) (mode : SwtmrMode) (handler : Option Nat) (swtmrId : Bool) (arg rouses sensitive : Nat)
    (hsmall : sensitive = osSwtmrAlignInsensitive → mode = .period → interval < losCommonDivisor * 2 ^ 24) :
    Noted clock (losSwtmrCreate s interval mode handler swtmrId arg rouses sensitive).1 none := by
  unfold losSwtmrCreate
  split
  · exact hn
  split
  · exact hn
  split
  · exact hn
  split
  · exact hn
  split
  · exact hn
  split
  · exact hn
  split
  · exact hn
  · next t rest hl =>
    have hfree := (h.free t).mp (hl ▸ List.mem_cons_self)
    have hnt := hn.each t hfree.2.1 nofun
    have hbare := hnt.bare hfree.2.2
    have hsingle := hnt.recorded.bare hbare
    refine ⟨fun u hu _ => ?_, nofun⟩
    by_cases hne : u = t
    · rw [hne]
      rw [modify_self]
      refine ⟨nofun, ⟨hnt.recorded.bare, fun hc => ?_, fun hm => ?_, hnt.recorded.single⟩, fun _ => hsmall, nofun⟩
      · exact absurd (hbare.symm.trans hc) nofun
      · exact absurd (hsingle.symm.trans hm) nofun
    · rw [modify_of_ne hne]
      exact hn.each u hu nofun

theorem osSwtmrTimeoutHandle_noted (halign : SwtmrConfig.align = true) (hclock : Monotone clock)
    (hn : Noted clock s (some t)) (h : Fits s (some t)) (ht : t < SwtmrConfig.swtmrLimit)
    (hok : TimerOk (s.gSwtmrCBArray t)) : Noted clock (osSwtmrTimeoutHandle clock s t) none := by
  have hn : Noted clock { s with written := s.written ++
      [(t, ⟨(s.gSwtmrCBArray t).pfnHandler, (s.gSwtmrCBArray t).uwArg⟩)] } (some t) := ⟨hn.each, hn.setUp⟩
  have hw : Fits { s with written := s.written ++
      [(t, ⟨(s.gSwtmrCBArray t).pfnHandler, (s.gSwtmrCBArray t).uwArg⟩)] } (some t) := h.congr rfl rfl rfl rfl
  have hmodes : (s.gSwtmrCBArray t).ucMode ≠ .opp := hok.mode
  unfold osSwtmrTimeoutHandle
  dsimp only
  cases hmode : (s.gSwtmrCBArray t).ucMode with
  | once =>
    have hdelete := osSwtmrDelete_noted halign hclock hn hw ht
    obtain ⟨_, hcb, _⟩ := osSwtmrDelete_spec hw ht
    generalize osSwtmrDelete _ t = s₁ at *
    have hnt := hdelete.each t ht nofun
    refine hdelete.close hclock (.inl rfl) (fun u hu => modify_of_ne hu) (fun _ _ => rfl) (le_refl _) ?_
    rw [modify_self]
    exact ⟨hnt.bare, hnt.recorded, hnt.small, hnt.early⟩
  | period => exact osSwtmrStart_noted hclock hn hw ht hok
  | noSelfdelete =>
    obtain ⟨hrec, hsmall⟩ := hn.setUp t ht rfl
    refine hn.close hclock (.inr rfl) (fun u hu => modify_of_ne hu) (fun _ _ => rfl) (le_refl _) ?_
    rw [modify_self]
    exact ⟨nofun, hrec, fun _ => hsmall, nofun⟩
  | opp => exact absurd hmode hmodes

theorem handleFirst_noted {r : SwtmrState × Bool} (halign : SwtmrConfig.align = true) (hclock : Monotone clock)
    (hn : Noted clock r.1 none) (h : SwtmrInv r.1) :
    Noted clock (handleFirst clock r).1 none ∧ SwtmrInv (handleFirst clock r).1 := by
  unfold handleFirst
  cases hl : r.1.gSwtmrSortLink with
  | nil => exact ⟨hn, h⟩
  | cons t l =>
    have ht : t ∈ r.1.gSwtmrSortLink := hl ▸ List.mem_cons_self
    obtain ⟨hlt, _, hticking, hok⟩ := h.set_up ht
    have hnt := hn.each t hlt nofun
    have hself : (osDeleteNodeSortLink r.1 t).gSwtmrCBArray t = { r.1.gSwtmrCBArray t with responseTime := ⊤ } :=
      modify_self ..
    have hfits := osDeleteNodeSortLink_fits h ht
    have hok' : TimerOk ((osDeleteNodeSortLink r.1 t).gSwtmrCBArray t) := by
      rw [hself]
      exact ⟨hok.pos, hok.word, hok.mode, hok.handler⟩
    have hout : Noted clock (osDeleteNodeSortLink r.1 t) (some t) := by
      refine hn.open hclock (.inl rfl) (fun u hu => modify_of_ne hu) (fun _ _ => rfl) (le_refl _) ?_ ?_
      · unfold SwtmrState.interval
        rw [hself]
        exact hnt.recorded
      · unfold SwtmrState.interval
        rw [hself]
        exact hnt.small (by rw [hticking]; nofun)
    have hinfo : (osDeleteNodeSortLink r.1 t).alignInfo t = r.1.alignInfo t := by
      unfold SwtmrState.alignInfo SwtmrState.alignIndex
      rw [hself]
      rfl
    dsimp only
    refine ⟨osSwtmrTimeoutHandle_noted halign hclock hout hfits hlt hok', ?_⟩
    refine (osSwtmrTimeoutHandle_handled clock hfits hlt hok' ?_).inv
    rw [hinfo]
    exact fun ha => h.aligned ha t ht

theorem losSwtmrStart_noted (hclock : Monotone clock) (hlimit : 0 < SwtmrConfig.swtmrLimit)
    (hn : Noted clock s none) (h : SwtmrInv s) (running : Bool) (swtmrId : Nat)
    (hproper : Proper s (.start running swtmrId)) : Noted clock (losSwtmrStart clock s running swtmrId).1 none := by
  by_cases hrange : swtmrId < osSwtmrMaxTimerid
  · by_cases hid : s.timerId (swtmrId % SwtmrConfig.swtmrLimit) = swtmrId
    · have ht := Nat.mod_lt swtmrId hlimit
      obtain ⟨hn', hf, hok⟩ := startEntry_ready hclock hn h ht (hproper hid) running
      rw [losSwtmrStart_eq clock running hrange hid (hproper hid)]
      exact osSwtmrStart_noted hclock hn' hf ht hok
    · rw [(rejected_of_ne clock hrange hid).start running]
      exact hn
  · unfold losSwtmrStart
    rw [if_pos (Nat.not_lt.mp hrange)]
    exact hn

theorem losSwtmrStop_noted (hclock : Monotone clock) (hlimit : 0 < SwtmrConfig.swtmrLimit)
    (hn : Noted clock s none) (h : SwtmrInv s) (running : Bool) (swtmrId : Nat) :
    Noted clock (losSwtmrStop s running swtmrId).1 none := by
  have ht := Nat.mod_lt swtmrId hlimit
  unfold losSwtmrStop
  split
  · exact hn
  dsimp only
  split
  · exact hn
  cases hs : (s.gSwtmrCBArray (swtmrId % SwtmrConfig.swtmrLimit)).ucState with
  | unused => exact hn
  | created => exact hn
  | ticking => exact (osSwtmrStop_noted hclock hn (h.ids _ ht) ht (by rw [hs]; nofun) running).2

theorem losSwtmrDelete_noted (halign : SwtmrConfig.align = true) (hclock : Monotone clock)
    (hlimit : 0 < SwtmrConfig.swtmrLimit) (hn : Noted clock s none) (h : SwtmrInv s) (running : Bool)
    (swtmrId : Nat) : Noted clock (losSwtmrDelete s running swtmrId).1 none := by
  have ht := Nat.mod_lt swtmrId hlimit
  unfold losSwtmrDelete
  split
  · exact hn
  dsimp only
  split
  · exact hn
  generalize swtmrId % SwtmrConfig.swtmrLimit = t at *
  cases hs : (s.gSwtmrCBArray t).ucState with
  | unused => exact hn
  | created => exact osSwtmrDelete_noted halign hclock (hn.take hclock ht (by rw [hs]; nofun)) (h.take hs) ht
  | ticking =>
    have hf := (osSwtmrStop_fits h ((h.linked t).mpr ⟨nofun, ht, hs⟩) (s.alignInfo t) running).1
    rw [setAlign_same] at hf
    have hn' := (osSwtmrStop_noted hclock hn (h.ids _ ht) ht (by rw [hs]; nofun) running).1
    exact osSwtmrDelete_noted halign hclock hn' hf ht

theorem osSwtmrScan_noted {fuel : Nat} {needSchedule : Bool} (halign : SwtmrConfig.align = true)
    (hclock : Monotone clock) (hn : Noted clock s none) (h : SwtmrInv s)
    (hrun : osSwtmrScan clock fuel s = some (s', needSchedule)) : Noted clock s' none := by
  unfold osSwtmrScan at hrun
  split at hrun
  · cases hrun
    exact hn
  · have hstart : Noted clock { s with reads := s.reads + 1 } none :=
      ⟨fun t ht hout => (hn.each t ht hout).later (hclock (Nat.le_succ _)), nofun⟩
    exact (whileLoop_invariant (fun r => Noted clock r.1 none ∧ SwtmrInv r.1)
      (fun r hI _ => handleFirst_noted halign hclock hI.1 hI.2) hrun ⟨hstart, h.congr rfl rfl rfl rfl⟩).1

theorem losSwtmrTimeGet_noted (hclock : Monotone clock) (hn : Noted clock s none) (swtmrId : Nat) (tick : Bool) :
    Noted clock (losSwtmrTimeGet clock s swtmrId tick).1 none := by
  unfold losSwtmrTimeGet
  split
  · exact hn
  split
  · exact hn
  dsimp only
  split
  · exact hn
  split
  · exact hn
  · exact hn
  · exact ⟨fun t ht hout => (hn.each t ht hout).later (hclock (Nat.le_succ _)), nofun⟩

theorem properStep_noted {call : SwtmrCall} (halign : SwtmrConfig.align = true) (hclock : Monotone clock)
    (hlimit : 0 < SwtmrConfig.swtmrLimit) (hn : Noted clock s none) (h : SwtmrInv s)
    (hstep : properStep clock s call s') : Noted clock s' none := by
  obtain ⟨hstep, hproper⟩ := hstep
  cases hstep with
  | create => exact losSwtmrCreate_noted halign hn h _ _ _ _ _ _ _ hproper
  | start => exact losSwtmrStart_noted hclock hlimit hn h _ _ hproper
  | stop => exact losSwtmrStop_noted hclock hlimit hn h ..
  | delete => exact losSwtmrDelete_noted halign hclock hlimit hn h ..
  | timeGet => exact losSwtmrTimeGet_noted hclock hn ..
  | scan run => exact osSwtmrScan_noted halign hclock hn h run

theorem swtmrBooted_noted (hb : SwtmrBooted s) : Noted clock s none := by
  refine ⟨fun t ht _ => ?_, nofun⟩
  rw [hb.align t ht]
  refine ⟨fun _ => rfl, ⟨fun _ => rfl, nofun, nofun, fun _ => rfl⟩, fun hs => absurd (hb.unused t ht) hs, fun hs => ?_⟩
  exact absurd ((hb.unused t ht).symm.trans hs) nofun

theorem properRun_noted {calls : List SwtmrCall} (halign : SwtmrConfig.align = true) (hclock : Monotone clock)
    (hcycle : 0 < osCyclePerTick) (hlimit : 0 < SwtmrConfig.swtmrLimit) (hb : SwtmrBooted s)
    (hrun : Run (properStep clock) s calls s') : Noted clock s' none ∧ SwtmrInv s' :=
  run_invariant (fun s => Noted clock s none ∧ SwtmrInv s)
    (fun _ _ _ hI hstep => ⟨properStep_noted halign hclock hlimit hI.1 hI.2 hstep,
      swtmrStep_inv hclock hcycle hlimit hI.2 hstep.1⟩) hrun ⟨swtmrBooted_noted hb, swtmrBooted_inv hb⟩

/-- The first expiry of a timer that is to be aligned, unless there is one of the same interval. -/
theorem losSwtmrStart_aligned {calls : List SwtmrCall} {swtmrId : Nat} (halign : SwtmrConfig.align = true)
    (hclock : Monotone clock) (hcycle : 0 < osCyclePerTick) (hlimit : 0 < SwtmrConfig.swtmrLimit)
    (hb : SwtmrBooted s) (hrun : Run (properStep clock) s calls s') (running : Bool)
    (hrange : swtmrId < osSwtmrMaxTimerid) (ht : swtmrId % SwtmrConfig.swtmrLimit = t)
    (hid : s'.timerId t = swtmrId) (hs : (s'.gSwtmrCBArray t).ucState ≠ .unused)
    (hcan : ((startEntry s' running t).alignInfo t).canAlign = true)
    (hloose : ((startEntry s' running t).alignInfo t).isAligned = false)
    (hother : ∀ c ∈ (startEntry s' running t).gSwtmrSortLink, Tied (startEntry s' running t) c →
      (startEntry s' running t).interval c ≠ (startEntry s' running t).interval t) :
    ∃ s'' n, losSwtmrStart clock s' running swtmrId = (s'', .losOk) ∧
      (s''.gSwtmrCBArray t).uwCount = n ∧
      s''.responseTime t = ((clock s'.reads + n * osCyclePerTick : Nat) : WithTop Nat) ∧
      FirstExpiry (startEntry s' running t) (clock s'.reads) t n := by
  obtain ⟨hn, h⟩ := properRun_noted halign hclock hcycle hlimit hb hrun
  have hlt : t < SwtmrConfig.swtmrLimit := ht ▸ Nat.mod_lt swtmrId hlimit
  obtain ⟨hn', hf, hok⟩ := startEntry_ready hclock hn h hlt hs running
  have hreads : (startEntry s' running t).reads = s'.reads := by
    obtain ⟨info, hinfo⟩ := setCanAlign_eq s' t
    unfold startEntry
    rw [hinfo]
    split
    · exact (osSwtmrStop_rest (s := s'.setAlign t info) running (h.ids t hlt)).2.1
    · rfl
  subst ht
  have heq := losSwtmrStart_eq clock running hrange hid hs
  obtain ⟨_, _, n, hcb, _⟩ := osSwtmrStart_linked clock hf hlt hok
  have hcount := osSwtmrStart_count hn' hf hlt hok
  have huw : ((osSwtmrStart clock (startEntry s' running (swtmrId % SwtmrConfig.swtmrLimit))
    (swtmrId % SwtmrConfig.swtmrLimit)).gSwtmrCBArray (swtmrId % SwtmrConfig.swtmrLimit)).uwCount = n := by rw [hcb]
  refine ⟨_, n, heq, huw, ?_, ?_⟩
  · rw [← hreads]
    exact congrArg SwtmrCtrl.responseTime hcb
  · rw [huw, hreads] at hcount
    rcases hcount with ⟨_, _, _, ⟨_, c, hc, htied, hsame⟩ | hfirst⟩ | ⟨hnot, _⟩
    · exact absurd hsame (hother c hc htied)
    · exact hfirst
    · exact absurd ⟨halign, hcan, hloose⟩ hnot

end

/-- A timer of `v` ticks is ticking, and one of `w` ticks has been created. Both are to be aligned. -/
def twoTimers (clock : Nat → Nat) (v w : Nat) : SwtmrState :=
  letI := smallTimers
  let s := (losSwtmrCreate timersBooted v .period (some 5) true 7 0 1).1
  let s := (losSwtmrStart clock s true 0).1
  (losSwtmrCreate s w .period (some 5) true 7 0 1).1

theorem twoTimers_run (clock : Nat → Nat) {v w : Nat} (hv : v < losCommonDivisor * 2 ^ 24)
    (hw : w < losCommonDivisor * 2 ^ 24) (hs : letI := smallTimers;
      ((losSwtmrCreate timersBooted v .period (some 5) true 7 0 1).1.gSwtmrCBArray 0).ucState ≠ .unused) :
    letI := smallTimers; Run (properStep clock) timersBooted
      [.create v .period (some 5) true 7 0 1, .start true 0, .create w .period (some 5) true 7 0 1]
      (twoTimers clock v w) := by
  let _ := smallTimers
  have hword : losCommonDivisor * 2 ^ 24 < 2 ^ 32 := by decide
  exact run_append (run_append (run_single ⟨swtmrStep.create (hv.trans hword), fun _ _ => hv⟩)
    (run_single ⟨swtmrStep.start, fun _ => hs⟩)) (run_single ⟨swtmrStep.create (hw.trans hword), fun _ _ => hw⟩)

/-- 60 ticks of which 50 are left, and 20 ticks: the first expiry is in 10 ticks. -/
theorem losSwtmrStart_aligned_sixty : letI := smallTimers
    ∃ s n, losSwtmrStart (fun k => k * 100) (twoTimers (fun k => k * 100) 60 20) true 1 = (s, .losOk) ∧
      (s.gSwtmrCBArray 1).uwCount = n ∧ s.responseTime 1 = ((100 + n * 10 : Nat) : WithTop Nat) ∧
      FirstExpiry (startEntry (twoTimers (fun k => k * 100) 60 20) true 1) 100 1 n := by
  let _ := smallTimers
  have hrun := twoTimers_run (fun k => k * 100) (v := 60) (w := 20) (by decide) (by decide) (by decide +kernel)
  have hlink : (startEntry (twoTimers (fun k => k * 100) 60 20) true 1).gSwtmrSortLink = [0] := by decide +kernel
  have hrange : 1 < osSwtmrMaxTimerid := by decide
  have ht : 1 % SwtmrConfig.swtmrLimit = 1 := by decide
  have hreads : (twoTimers (fun k => k * 100) 60 20).reads = 1 := by decide +kernel
  have hstart := losSwtmrStart_aligned rfl (fun _ _ h => Nat.mul_le_mul_right 100 h) (by decide) (by decide)
    timersBooted_booted hrun true hrange ht (by decide +kernel) (by decide +kernel) (by decide +kernel)
    (by decide +kernel) fun c hc _ => by
      rw [hlink] at hc
      rw [List.mem_singleton.mp hc]
      decide +kernel
  have hcycle : osCyclePerTick = 10 := by decide
  rw [hreads, hcycle, Nat.one_mul] at hstart
  exact hstart

/-- 6 ticks of which 4 are left, and 3 ticks: the first expiry is in 3 ticks, between two of the other's. -/
theorem losSwtmrStart_not_aligned : letI := smallTimers
    let clock := fun k => k * 20
    let s := startEntry (twoTimers clock 6 3) true 1
    Run (properStep clock) timersBooted
      [.create 6 .period (some 5) true 7 0 1, .start true 0, .create 3 .period (some 5) true 7 0 1]
      (twoTimers clock 6 3) ∧
    (s.alignInfo 1).canAlign = true ∧ (s.alignInfo 1).isAligned = false ∧
    0 ∈ s.gSwtmrSortLink ∧ (s.alignInfo 0).isAligned = true ∧ (s.alignInfo 0).canAlign = true ∧
    s.interval 0 = 6 ∧ s.interval 1 = 3 ∧
    ((losSwtmrStart clock (twoTimers clock 6 3) true 1).1.gSwtmrCBArray 1).uwCount = 3 ∧
    ¬3 % s.interval 1 = s.remaining (clock s.reads) 0 % s.interval 1 := by
  let _ := smallTimers
  exact ⟨twoTimers_run _ (by decide) (by decide) (by decide +kernel), by decide +kernel⟩

end LiteosM.Swtmr
