import LiteosM.Lib.OnePass
import LiteosM.Swtmr.Table
import Mathlib.Data.Nat.ModEq

/-!
# The search for a timer to align with

Intervals are compared in multiples of `LOS_COMMON_DIVISOR` ticks. The timer with the next larger
multiple is preferred to the one with the next smaller divisor.
-/

namespace LiteosM.Swtmr

open LiteosM.Lib.OnePass LiteosM.Lib.Word32 LiteosM.Lib.Transition LiteosM.Lib.While

section

variable [SwtmrConfig] {clock : Nat → Nat} {s s' : SwtmrState} {t c now : Nat}

def SwtmrState.interval (s : SwtmrState) (t : Nat) : Nat := (s.gSwtmrCBArray t).uwInterval

def SwtmrState.remaining (s : SwtmrState) (now t : Nat) : Nat := osSortLinkGetTargetExpireTime now (s.responseTime t)

theorem osSortLinkGetTargetExpireTime_le {n : Nat} {r : WithTop Nat}
    (hr : r ≤ ((now + n * osCyclePerTick : Nat) : WithTop Nat)) : osSortLinkGetTargetExpireTime now r ≤ n := by
  unfold osSortLinkGetTargetExpireTime
  split
  · exact Nat.zero_le n
  · obtain ⟨k, rfl⟩ := WithTop.ne_top_iff_exists.mp (ne_top_of_le_ne_top WithTop.coe_ne_top hr)
    have hk : k ≤ now + n * osCyclePerTick := WithTop.coe_le_coe.mp hr
    rw [WithTop.untopD_coe]
    have htick : osCyclePerTick * SwtmrConfig.tickPerSecond ≤ SwtmrConfig.osSysClock := Nat.div_mul_le_self ..
    have hcycles : (k - now) * SwtmrConfig.tickPerSecond ≤ SwtmrConfig.osSysClock * n := by
      calc (k - now) * SwtmrConfig.tickPerSecond
          ≤ n * osCyclePerTick * SwtmrConfig.tickPerSecond :=
            Nat.mul_le_mul_right _ (Nat.sub_le_iff_le_add'.mpr hk)
        _ = n * (osCyclePerTick * SwtmrConfig.tickPerSecond) := Nat.mul_assoc ..
        _ ≤ n * SwtmrConfig.osSysClock := Nat.mul_le_mul_left n htick
        _ = SwtmrConfig.osSysClock * n := Nat.mul_comm ..
    exact (Nat.mod_le ..).trans (Nat.div_le_of_le_mul ((Nat.mod_le ..).trans hcycles))

omit [SwtmrConfig] in
/-- An interval `n` that is a multiple of `v`, of which `r` ticks are left, is divided in parts of `v` ticks. -/
theorem alignCount_spec {v n r : Nat} (hv : 0 < v) (hword : n < 2 ^ 32) (hmul : v ∣ n) (hpos : 0 < n) (hr : r ≤ n) :
    0 < sub32 v (sub32 n r % v) ∧ sub32 v (sub32 n r % v) ≤ v ∧ sub32 v (sub32 n r % v) % v = r % v := by
  have hle : v ≤ n := Nat.le_of_dvd hpos hmul
  have hpart : (n - r) % v < v := Nat.mod_lt _ hv
  rw [sub32_of_le n r hr hword, sub32_of_le v _ hpart.le (Nat.lt_of_le_of_lt hle hword)]
  refine ⟨Nat.sub_pos_of_lt hpart, Nat.sub_le .., ?_⟩
  obtain ⟨k, rfl⟩ := hmul
  -- both are what is missing from a multiple of `v`
  have hleft : (v - (v * k - r) % v + (v * k - r)) % v = 0 := by
    have hsplit := Nat.div_add_mod (v * k - r) v
    have hsum : v - (v * k - r) % v + (v * k - r) = v + v * ((v * k - r) / v) := by omega
    rw [hsum, Nat.add_mul_mod_self_left, Nat.mod_self]
  have hright : (r + (v * k - r)) % v = 0 := by
    rw [Nat.add_sub_cancel' hr]
    exact Nat.mul_mod_right ..
  exact Nat.ModEq.add_right_cancel' (v * k - r) (hleft.trans hright.symm)

/-- What `g_swtmrAlignID` says of a timer goes with its interval. -/
structure Recorded (interval : Nat) (info : SwtmrAlignData) : Prop where
  bare : info.canAlign = false → info.canMultiple = false
  multiple : info.canAlign = true → (info.canMultiple = true ↔ losCommonDivisor ∣ interval)
  times : info.canMultiple = true → losCommonDivisor * info.times = interval
  single : info.canMultiple = false → info.times = 0

/-- A timer that others are aligned with. -/
def Tied (s : SwtmrState) (c : Nat) : Prop := (s.alignInfo c).isAligned = true ∧ (s.alignInfo c).canAlign = true

/-- The interval of `c` is a larger multiple of that of `t`. -/
structure Larger (s : SwtmrState) (t c : Nat) : Prop where
  tied : Tied s c
  tens : losCommonDivisor ∣ s.interval t
  less : s.interval t < s.interval c
  divides : s.interval t ∣ s.interval c

/-- The interval of `c` is a smaller divisor of that of `t`. -/
structure Smaller (s : SwtmrState) (t c : Nat) : Prop where
  tied : Tied s c
  tens : losCommonDivisor ∣ s.interval c
  less : s.interval c < s.interval t
  divides : s.interval c ∣ s.interval t

def SwtmrState.times (s : SwtmrState) (t : Nat) : Nat := (s.alignInfo t).times

theorem larger_iff (htens : losCommonDivisor * s.times t = s.interval t) (htied : Tied s c)
    (hc : losCommonDivisor * s.times c = s.interval c) (hne : s.interval c ≠ s.interval t) :
    s.times t ≤ s.times c ∧ s.times c % s.times t = 0 ↔ Larger s t c := by
  rw [← htens, ← hc] at hne
  have hten : 0 < losCommonDivisor := by decide
  constructor
  · intro ⟨hle, hmod⟩
    refine ⟨htied, Dvd.intro _ htens, ?_, ?_⟩
    · rw [← htens, ← hc]
      exact Nat.lt_of_le_of_ne (Nat.mul_le_mul_left _ hle) hne.symm
    · rw [← htens, ← hc]
      exact Nat.mul_dvd_mul_left _ (Nat.dvd_of_mod_eq_zero hmod)
  · intro h
    have hless := h.less
    have hdiv := h.divides
    rw [← htens, ← hc] at hless hdiv
    exact ⟨(Nat.lt_of_mul_lt_mul_left hless).le, Nat.mod_eq_zero_of_dvd (Nat.dvd_of_mul_dvd_mul_left hten hdiv)⟩

theorem smaller_iff (htens : losCommonDivisor * s.times t = s.interval t) (htied : Tied s c)
    (hc : losCommonDivisor * s.times c = s.interval c) :
    s.times c < s.times t ∧ s.times t % s.times c = 0 ↔ Smaller s t c := by
  have hten : 0 < losCommonDivisor := by decide
  constructor
  · intro ⟨hlt, hmod⟩
    refine ⟨htied, Dvd.intro _ hc, ?_, ?_⟩
    · rw [← htens, ← hc]
      exact Nat.mul_lt_mul_of_pos_left hlt hten
    · rw [← htens, ← hc]
      exact Nat.mul_dvd_mul_left _ (Nat.dvd_of_mod_eq_zero hmod)
  · intro h
    have hless := h.less
    have hdiv := h.divides
    rw [← htens, ← hc] at hless hdiv
    exact ⟨Nat.lt_of_mul_lt_mul_left hless, Nat.mod_eq_zero_of_dvd (Nat.dvd_of_mul_dvd_mul_left hten hdiv)⟩

/-- The timers of the search have been set up. -/
structure Searched (s : SwtmrState) (t : Nat) : Prop where
  able : (s.alignInfo t).canAlign = true
  recorded : Recorded (s.interval t) (s.alignInfo t)
  pos : 0 < s.interval t
  word : s.interval t < 2 ^ 32
  others : ∀ c ∈ s.gSwtmrSortLink, Recorded (s.interval c) (s.alignInfo c) ∧ 0 < s.interval c ∧ s.interval c < 2 ^ 32

/-- The loop over the rest of the sort link, once it has been over `pre`. -/
theorem osSwtmrFindAlignPosLoop_spec (h : Searched s t) (rest : List Nat) :
    ∀ pre va vb a b, (∀ c ∈ rest, c ∈ s.gSwtmrSortLink) →
      Nearest (Larger s t) (fun c => s.times c / s.times t) osNullInt pre a va →
      Nearest (Smaller s t) (fun c => s.times t / s.times c) osNullInt pre b vb →
      (osSwtmrFindAlignPosLoop s t rest va vb a b = .same ∧ ∃ c ∈ rest, Tied s c ∧ s.interval c = s.interval t) ∨
      ∃ a' b' va' vb', osSwtmrFindAlignPosLoop s t rest va vb a b = .found a' b' ∧
        Nearest (Larger s t) (fun c => s.times c / s.times t) osNullInt (pre ++ rest) a' va' ∧
        Nearest (Smaller s t) (fun c => s.times t / s.times c) osNullInt (pre ++ rest) b' vb' := by
  induction rest with
  | nil =>
    intro pre va vb a b _ ha hb
    refine .inr ⟨a, b, va, vb, rfl, ?_, ?_⟩
    · rw [List.append_nil]
      exact ha
    · rw [List.append_nil]
      exact hb
  | cons c rest ih =>
    intro pre va vb a b hin ha hb
    obtain ⟨hrec, hpos, hword⟩ := h.others c (hin c List.mem_cons_self)
    -- what the rest of the loop gives, once it has been over `c` too
    have hnext : ∀ va vb a b,
        Nearest (Larger s t) (fun c => s.times c / s.times t) osNullInt (pre ++ [c]) a va →
        Nearest (Smaller s t) (fun c => s.times t / s.times c) osNullInt (pre ++ [c]) b vb →
        (osSwtmrFindAlignPosLoop s t rest va vb a b = .same ∧
          ∃ c' ∈ c :: rest, Tied s c' ∧ s.interval c' = s.interval t) ∨
        ∃ a' b' va' vb', osSwtmrFindAlignPosLoop s t rest va vb a b = .found a' b' ∧
          Nearest (Larger s t) (fun c => s.times c / s.times t) osNullInt (pre ++ c :: rest) a' va' ∧
          Nearest (Smaller s t) (fun c => s.times t / s.times c) osNullInt (pre ++ c :: rest) b' vb' := by
      intro va vb a b ha hb
      rcases ih (pre ++ [c]) va vb a b (fun d hd => hin d (List.mem_cons_of_mem _ hd)) ha hb with
        ⟨hs, d, hd, hsame⟩ | ⟨a', b', va', vb', hf, ha', hb'⟩
      · exact .inl ⟨hs, d, List.mem_cons_of_mem _ hd, hsame⟩
      · rw [List.append_assoc] at ha' hb'
        exact .inr ⟨a', b', va', vb', hf, ha', hb'⟩
    have hskip : ¬Larger s t c → ¬Smaller s t c → _ := fun hl hs => hnext va vb a b (ha.skip hl) (hb.skip hs)
    unfold osSwtmrFindAlignPosLoop
    dsimp only
    split
    · next hloose =>
      refine hskip (fun hl => ?_) fun hs => ?_
      · rw [hl.tied.1, hl.tied.2] at hloose
        cases hloose
      · rw [hs.tied.1, hs.tied.2] at hloose
        cases hloose
    next hfast =>
    have htied : Tied s c := by
      simp only [Bool.or_eq_true, Bool.not_eq_true', not_or, Bool.not_eq_false] at hfast
      exact hfast
    split
    · next hsame => exact .inl ⟨rfl, c, List.mem_cons_self, htied, hsame⟩
    next hne =>
    have hne : s.interval c ≠ s.interval t := hne
    split
    · next hnone =>
      simp only [Bool.or_eq_true, Bool.not_eq_true', decide_eq_true_eq] at hnone
      have hout : ¬(losCommonDivisor ∣ s.interval t ∧ losCommonDivisor ∣ s.interval c) := by
        intro ⟨ht, hc⟩
        rcases hnone with hnone | hnone
        · rw [(h.recorded.multiple h.able).mpr ht] at hnone
          cases hnone
        · have htimes := hrec.times ((hrec.multiple htied.2).mpr hc)
          rw [hnone, Nat.mul_zero] at htimes
          exact absurd htimes.symm (Nat.ne_of_gt hpos)
      refine hskip (fun hl => ?_) fun hs => ?_
      · exact hout ⟨hl.tens, hl.tens.trans hl.divides⟩
      · exact hout ⟨hs.tens.trans hs.divides, hs.tens⟩
    next hmany =>
    simp only [Bool.or_eq_true, Bool.not_eq_true', decide_eq_true_eq, not_or, Bool.not_eq_false] at hmany
    have htens : losCommonDivisor * s.times t = s.interval t := h.recorded.times hmany.1
    have hctens : losCommonDivisor * s.times c = s.interval c := by
      cases hm : (s.alignInfo c).canMultiple with
      | true => exact hrec.times hm
      | false => exact absurd (hrec.single hm) hmany.2
    have hlarger := larger_iff htens htied hctens hne
    have hsmaller := smaller_iff htens htied hctens
    split
    · next hzero =>
      rw [show s.times t = 0 from hzero, Nat.mul_zero] at htens
      exact absurd htens.symm (Nat.ne_of_gt h.pos)
    have hbound : ∀ a b, losCommonDivisor * a < 2 ^ 32 → a / b < osNullInt := by
      intro a b ha
      have ha : 10 * a < 2 ^ 32 := ha
      have hnull : a < 0xFFFFFFFF := by omega
      exact Nat.lt_of_le_of_lt (Nat.div_le_self a b) hnull
    split
    · next hl =>
      have hl := hlarger.mp hl
      have hb' := hb.skip fun hs => Nat.lt_asymm hs.less hl.less
      split
      · next hless => exact hnext _ _ _ _ (ha.take hl hless) hb'
      · next hmore => exact hnext _ _ _ _ (ha.keep (hbound _ _ (hctens ▸ hword)) (Nat.not_lt.mp hmore)) hb'
    next hnl =>
    have ha' := ha.skip (mt hlarger.mpr hnl)
    split
    · next hs =>
      have hs := hsmaller.mp hs
      split
      · next hless => exact hnext _ _ _ _ ha' (hb.take hs hless)
      · next hmore => exact hnext _ _ _ _ ha' (hb.keep (hbound _ _ (htens ▸ h.word)) (Nat.not_lt.mp hmore))
    · next hns => exact hnext _ _ _ _ ha' (hb.skip (mt hsmaller.mpr hns))

/-- The ticks `n` that a timer first waits. -/
inductive FirstExpiry (s : SwtmrState) (now t n : Nat) : Prop
  | larger (c : Nat) (linked : c ∈ s.gSwtmrSortLink) (rel : Larger s t c)
      (nearest : ∀ d ∈ s.gSwtmrSortLink, Larger s t d → s.interval c ≤ s.interval d)
      (range : 0 < n ∧ n ≤ s.interval t) (meet : n % s.interval t = s.remaining now c % s.interval t)
  | smaller (c : Nat) (linked : c ∈ s.gSwtmrSortLink) (rel : Smaller s t c)
      (none : ∀ d ∈ s.gSwtmrSortLink, ¬Larger s t d)
      (nearest : ∀ d ∈ s.gSwtmrSortLink, Smaller s t d → s.interval d ≤ s.interval c)
      (range : n ≤ s.interval t) (meet : n = s.remaining now c)
  | alone (noLarger : ∀ d ∈ s.gSwtmrSortLink, ¬Larger s t d) (noSmaller : ∀ d ∈ s.gSwtmrSortLink, ¬Smaller s t d)
      (own : n = s.interval t)

theorem FirstExpiry.le {n : Nat} (h : FirstExpiry s now t n) : n ≤ s.interval t := by
  cases h with
  | larger _ _ _ _ range => exact range.2
  | smaller _ _ _ _ _ range => exact range
  | alone _ _ own => exact own.le

theorem larger_le {d : Nat} (h : Searched s t) (hc : c ∈ s.gSwtmrSortLink) (hd : d ∈ s.gSwtmrSortLink)
    (hlc : Larger s t c) (hld : Larger s t d) (hle : s.times c / s.times t ≤ s.times d / s.times t) :
    s.interval c ≤ s.interval d := by
  have htens : ∀ u ∈ s.gSwtmrSortLink, Larger s t u → losCommonDivisor * s.times u = s.interval u := by
    intro u hu hl
    obtain ⟨hrec, _⟩ := h.others u hu
    exact hrec.times ((hrec.multiple hl.tied.2).mpr (hl.tens.trans hl.divides))
  have ht : losCommonDivisor * s.times t = s.interval t :=
    h.recorded.times ((h.recorded.multiple h.able).mpr hlc.tens)
  have hdvd : ∀ u ∈ s.gSwtmrSortLink, Larger s t u → s.times t ∣ s.times u := by
    intro u hu hl
    have hdiv := hl.divides
    rw [← ht, ← htens u hu hl] at hdiv
    exact Nat.dvd_of_mul_dvd_mul_left (by decide) hdiv
  rw [← htens c hc hlc, ← htens d hd hld]
  refine Nat.mul_le_mul_left _ ?_
  calc s.times c = s.times c / s.times t * s.times t := (Nat.div_mul_cancel (hdvd c hc hlc)).symm
    _ ≤ s.times d / s.times t * s.times t := Nat.mul_le_mul_right _ hle
    _ = s.times d := Nat.div_mul_cancel (hdvd d hd hld)

theorem smaller_le {d : Nat} (h : Searched s t) (hc : c ∈ s.gSwtmrSortLink) (hd : d ∈ s.gSwtmrSortLink)
    (hsc : Smaller s t c) (hsd : Smaller s t d) (hle : s.times t / s.times c ≤ s.times t / s.times d) :
    s.interval d ≤ s.interval c := by
  have htens : ∀ u ∈ s.gSwtmrSortLink, Smaller s t u → losCommonDivisor * s.times u = s.interval u := by
    intro u hu hl
    obtain ⟨hrec, _⟩ := h.others u hu
    exact hrec.times ((hrec.multiple hl.tied.2).mpr hl.tens)
  have ht : losCommonDivisor * s.times t = s.interval t :=
    h.recorded.times ((h.recorded.multiple h.able).mpr (hsc.tens.trans hsc.divides))
  have hdvd : ∀ u ∈ s.gSwtmrSortLink, Smaller s t u → s.times u ∣ s.times t := by
    intro u hu hl
    have hdiv := hl.divides
    rw [← ht, ← htens u hu hl] at hdiv
    exact Nat.dvd_of_mul_dvd_mul_left (by decide) hdiv
  have hpos : 0 < s.times t := by
    have hp := h.pos
    rw [← ht] at hp
    exact Nat.pos_of_mul_pos_left hp
  rw [← htens c hc hsc, ← htens d hd hsd]
  refine Nat.mul_le_mul_left _ ?_
  have hq : 0 < s.times t / s.times c :=
    Nat.div_pos (Nat.le_of_dvd hpos (hdvd c hc hsc)) (Nat.pos_of_dvd_of_pos (hdvd c hc hsc) hpos)
  suffices hprod : s.times t / s.times c * s.times d ≤ s.times t / s.times c * s.times c from
    Nat.le_of_mul_le_mul_left hprod hq
  calc s.times t / s.times c * s.times d
      ≤ s.times t / s.times d * s.times d := Nat.mul_le_mul_right _ hle
    _ = s.times t := Nat.div_mul_cancel (hdvd d hd hsd)
    _ = s.times t / s.times c * s.times c := (Nat.div_mul_cancel (hdvd c hc hsc)).symm

theorem osSwtmrCalcAlignCount_eq {v : Nat} (hv : 0 < v) (hid : s.alignIndex c = c) :
    osSwtmrCalcAlignCount s now v (s.gSwtmrCBArray c).usTimerID =
      sub32 v (sub32 (s.interval c) (s.remaining now c) % v) := by
  have hid : (s.gSwtmrCBArray c).usTimerID % SwtmrConfig.swtmrLimit = c := hid
  unfold osSwtmrCalcAlignCount
  rw [if_neg (Nat.ne_of_gt hv)]
  dsimp only
  rw [hid]
  rfl

theorem osSwtmrFindAlignPos_count (h : Searched s t) (hids : ∀ c ∈ s.gSwtmrSortLink, s.alignIndex c = c)
    (hearly : ∀ c ∈ s.gSwtmrSortLink,
      s.responseTime c ≤ ((now + s.interval c * osCyclePerTick : Nat) : WithTop Nat))
    (hcount : (s.gSwtmrCBArray t).uwCount = s.interval t) :
    ∃ n, osSwtmrFindAlignPos s now t = s.modify t (fun cb => { cb with uwCount := n }) ∧
      ((n = 0 ∧ ∃ c ∈ s.gSwtmrSortLink, Tied s c ∧ s.interval c = s.interval t) ∨ FirstExpiry s now t n) := by
  unfold osSwtmrFindAlignPos
  rcases osSwtmrFindAlignPosLoop_spec h s.gSwtmrSortLink [] osNullInt osNullInt none none (fun _ hc => hc)
    nearest_nil nearest_nil with ⟨hsame, hc⟩ | ⟨a, b, va, vb, hfound, ha, hb⟩
  · rw [hsame]
    exact ⟨0, rfl, .inl ⟨rfl, hc⟩⟩
  · rw [hfound]
    rw [List.nil_append] at ha hb
    cases a with
    | some c =>
      obtain ⟨⟨hmem, hlarge, _⟩, hleast⟩ := ha
      have hle : s.remaining now c ≤ s.interval c := osSortLinkGetTargetExpireTime_le (hearly c hmem)
      obtain ⟨_, hpos, hword⟩ := h.others c hmem
      obtain ⟨hn, hv, hmod⟩ := alignCount_spec h.pos hword hlarge.divides hpos hle
      rw [← osSwtmrCalcAlignCount_eq h.pos (hids c hmem)] at hn hv hmod
      exact ⟨_, rfl, .inr (.larger c hmem hlarge
        (fun d hd hl => larger_le h hmem hd hlarge hl (hleast d hd hl)) ⟨hn, hv⟩ hmod)⟩
    | none =>
      obtain ⟨_, hnone⟩ := ha
      cases b with
      | some c =>
        obtain ⟨⟨hmem, hsmall, _⟩, hleast⟩ := hb
        have hle : s.remaining now c ≤ s.interval c := osSortLinkGetTargetExpireTime_le (hearly c hmem)
        exact ⟨_, rfl, .inr (.smaller c hmem hsmall hnone
          (fun d hd hs => smaller_le h hmem hd hsmall hs (hleast d hd hs)) (hle.trans hsmall.less.le) rfl)⟩
      | none => exact ⟨s.interval t, (modify_same (by rw [← hcount])).symm, .inr (.alone hnone hb.2 rfl)⟩

end

end LiteosM.Swtmr
