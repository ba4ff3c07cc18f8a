import LiteosM.Swtmr.Run

/-!
# The timer IDs

An ID is the number of a timer plus a multiple of `LOSCFG_BASE_CORE_SWTMR_LIMIT`. The multiple
goes up each time that the timer has deleted itself, and starts again at 0 when the IDs run out.
-/

namespace LiteosM.Swtmr

open LiteosM.Lib.Transition

section

variable {s s' : SwtmrState} {t u : Nat}

def SwtmrState.timerId (s : SwtmrState) (t : Nat) : Nat := (s.gSwtmrCBArray t).usTimerID

theorem timerId_modify {f : SwtmrCtrl → SwtmrCtrl} (hf : ∀ cb, (f cb).usTimerID = cb.usTimerID)
    (s : SwtmrState) (t u : Nat) : (s.modify t f).timerId u = s.timerId u := by
  unfold SwtmrState.timerId
  by_cases hu : u = t
  · rw [hu, modify_self, hf]
  · rw [modify_of_ne hu]

theorem osDeleteSortLink_timerId (s : SwtmrState) (t u : Nat) : (osDeleteSortLink s t).timerId u = s.timerId u := by
  unfold osDeleteSortLink
  split
  · apply timerId_modify (f := fun cb => { cb with responseTime := ⊤ })
    intro cb
    rfl
  · rfl

theorem add_mod_ne_self {g m n : Nat} (hg : g < n) (hm : 0 < m) (hmn : m < n) : (g + m) % n ≠ g := by
  intro he
  rcases Nat.lt_or_ge (g + m) n with h | h
  · rw [Nat.mod_eq_of_lt h] at he
    omega
  · rw [Nat.mod_eq_sub_mod h, Nat.mod_eq_of_lt (by omega)] at he
    omega

variable [SwtmrConfig] {clock : Nat → Nat}

theorem setCanAlign_timerId (s : SwtmrState) (t u : Nat) : (setCanAlign s t).timerId u = s.timerId u := by
  obtain ⟨info, h⟩ := setCanAlign_eq s t
  rw [h]
  rfl

theorem osSwtmrStop_timerId (s : SwtmrState) (running : Bool) (t u : Nat) :
    (osSwtmrStop s running t).timerId u = s.timerId u := by
  have h : ((osDeleteSortLink s t).modify t fun cb => { cb with ucState := .created }).timerId u = s.timerId u := by
    rw [timerId_modify (by intro cb; rfl), osDeleteSortLink_timerId]
  unfold osSwtmrStop
  dsimp only
  split
  · exact h
  · exact h

theorem osSwtmrDelete_timerId (s : SwtmrState) (t u : Nat) : (osSwtmrDelete s t).timerId u = s.timerId u := by
  unfold osSwtmrDelete
  dsimp only
  have h : (s.modify t fun cb => { cb with ucState := .unused }).timerId u = s.timerId u := by
    apply timerId_modify
    intro cb
    rfl
  split
  · exact h
  · exact h

theorem osSwtmrStart_timerId (clock : Nat → Nat) (s : SwtmrState) (t u : Nat) :
    (osSwtmrStart clock s t).timerId u = s.timerId u := by
  have h₁ : ({ s with reads := s.reads + 1 }.modify t fun cb =>
      { cb with uwCount := cb.uwInterval, ucState := .ticking }).timerId u = s.timerId u := by
    apply timerId_modify
    intro cb
    rfl
  unfold osSwtmrStart
  dsimp only
  generalize SwtmrState.modify _ t _ = s₁ at *
  have hadd : ∀ s₂ : SwtmrState, ∀ start wait, s₂.timerId u = s.timerId u →
      (osAdd2SortLink s₂ t start wait).timerId u = s.timerId u := by
    intro s₂ start wait h
    refine Eq.trans ?_ h
    apply timerId_modify (f := fun cb => { cb with responseTime := ↑(start + wait * osCyclePerTick) })
    intro cb
    rfl
  split
  · obtain ⟨n, hn⟩ := osSwtmrFindAlignPos_eq (s₁.setAlign t { s₁.alignInfo t with isAligned := true })
      (clock s.reads) t
    rw [hn]
    apply hadd
    rw [timerId_modify (by intro cb; rfl)]
    exact h₁
  · exact hadd _ _ _ h₁

theorem losSwtmrCreate_timerId (s : SwtmrState) (interval : Nat) (mode : SwtmrMode) (handler : Option Nat)
    (swtmrId : Bool) (arg rouses sensitive u : Nat) :
    (losSwtmrCreate s interval mode handler swtmrId arg rouses sensitive).1.timerId u = s.timerId u := by
  unfold losSwtmrCreate
  split
  · rfl
  split
  · rfl
  split
  · rfl
  split
  · rfl
  split
  · rfl
  split
  · rfl
  split
  · rfl
  · rw [timerId_modify (by intro cb; rfl)]
    rfl

theorem losSwtmrStart_timerId (clock : Nat → Nat) (s : SwtmrState) (running : Bool) (swtmrId u : Nat) :
    (losSwtmrStart clock s running swtmrId).1.timerId u = s.timerId u := by
  unfold losSwtmrStart
  split
  · rfl
  dsimp only
  split
  · rfl
  have h := setCanAlign_timerId s (swtmrId % SwtmrConfig.swtmrLimit) u
  split
  · exact h
  · exact (osSwtmrStart_timerId ..).trans ((osSwtmrStop_timerId ..).trans h)
  · exact (osSwtmrStart_timerId ..).trans h

theorem losSwtmrStop_timerId (s : SwtmrState) (running : Bool) (swtmrId u : Nat) :
    (losSwtmrStop s running swtmrId).1.timerId u = s.timerId u := by
  unfold losSwtmrStop
  split
  · rfl
  dsimp only
  split
  · rfl
  split
  · rfl
  · rfl
  · exact osSwtmrStop_timerId ..

theorem losSwtmrDelete_timerId (s : SwtmrState) (running : Bool) (swtmrId u : Nat) :
    (losSwtmrDelete s running swtmrId).1.timerId u = s.timerId u := by
  unfold losSwtmrDelete
  split
  · rfl
  dsimp only
  split
  · rfl
  split
  · rfl
  · exact (osSwtmrDelete_timerId ..).trans (osSwtmrStop_timerId ..)
  · exact osSwtmrDelete_timerId ..

theorem losSwtmrTimeGet_timerId (clock : Nat → Nat) (s : SwtmrState) (swtmrId u : Nat) (tick : Bool) :
    (losSwtmrTimeGet clock s swtmrId tick).1.timerId u = s.timerId u := by
  unfold losSwtmrTimeGet
  split
  · rfl
  split
  · rfl
  dsimp only
  split
  · rfl
  split
  · rfl
  · rfl
  · rfl

theorem Scanned.timerId {now : Nat} (h : Scanned s now (due s now) s') (t : Nat) :
    s'.timerId t = if t ∈ due s now ∧ (s.gSwtmrCBArray t).ucMode = .once then nextTimerId (s.timerId t)
      else s.timerId t := by
  by_cases hdue : t ∈ due s now
  · by_cases hmode : (s.gSwtmrCBArray t).ucMode = .once
    · rw [if_pos ⟨hdue, hmode⟩]
      exact h.renewed t hdue hmode
    · rw [if_neg fun hc => hmode hc.2]
      exact h.named t hdue hmode
  · rw [if_neg fun hc => hdue hc.1]
    exact congrArg SwtmrCtrl.usTimerID (h.others t hdue).1

theorem swtmrStep_timerId {call : SwtmrCall} (hclock : Monotone clock) (hcycle : 0 < osCyclePerTick)
    (h : SwtmrInv s) (hstep : swtmrStep clock s call s') (t : Nat) :
    s'.timerId t = s.timerId t ∨ s'.timerId t = nextTimerId (s.timerId t) := by
  cases hstep with
  | create => exact .inl (losSwtmrCreate_timerId ..)
  | start => exact .inl (losSwtmrStart_timerId ..)
  | stop => exact .inl (losSwtmrStop_timerId ..)
  | delete => exact .inl (losSwtmrDelete_timerId ..)
  | timeGet => exact .inl (losSwtmrTimeGet_timerId ..)
  | scan run =>
    have hid := (osSwtmrScan_scanned_of_some hclock hcycle h run).timerId t
    split at hid
    · exact .inr hid
    · exact .inl hid

def idsPerTimer : Nat := 0xFFFFFFFF / SwtmrConfig.swtmrLimit

theorem nextTimerId_lt {id : Nat} (h : id < osSwtmrMaxTimerid) :
    nextTimerId id < osSwtmrMaxTimerid := by
  unfold nextTimerId
  split
  · omega
  · exact Nat.lt_of_le_of_lt (Nat.mod_le ..) h

theorem nextTimerId_div (hlimit : 0 < SwtmrConfig.swtmrLimit) {id : Nat} (h : id < osSwtmrMaxTimerid) :
    nextTimerId id / SwtmrConfig.swtmrLimit = (id / SwtmrConfig.swtmrLimit + 1) % idsPerTimer := by
  have hmax : osSwtmrMaxTimerid = idsPerTimer * SwtmrConfig.swtmrLimit := rfl
  have hgen : id / SwtmrConfig.swtmrLimit < idsPerTimer := Nat.div_lt_of_lt_mul (by rwa [Nat.mul_comm, ← hmax])
  have hlast : osSwtmrMaxTimerid - SwtmrConfig.swtmrLimit = (idsPerTimer - 1) * SwtmrConfig.swtmrLimit := by
    rw [hmax, Nat.sub_mul, Nat.one_mul]
  unfold nextTimerId
  split
  · next hlt =>
    rw [hlast] at hlt
    have hbelow : id / SwtmrConfig.swtmrLimit < idsPerTimer - 1 := Nat.div_lt_of_lt_mul (by rwa [Nat.mul_comm])
    rw [Nat.add_div_right _ hlimit, Nat.mod_eq_of_lt (Nat.add_lt_of_lt_sub hbelow)]
  · next hge =>
    rw [hlast, Nat.not_lt] at hge
    have habove : idsPerTimer - 1 ≤ id / SwtmrConfig.swtmrLimit := (Nat.le_div_iff_mul_le hlimit).mpr hge
    have hend : id / SwtmrConfig.swtmrLimit + 1 = idsPerTimer := by omega
    rw [hend, Nat.mod_self, Nat.div_eq_of_lt (Nat.mod_lt id hlimit)]

theorem swtmrBooted_timerId (hword : SwtmrConfig.swtmrLimit ≤ 0xFFFF) (hb : SwtmrBooted s) :
    ∀ t < SwtmrConfig.swtmrLimit, s.timerId t < osSwtmrMaxTimerid := by
  intro t ht
  have hone : 1 ≤ 0xFFFFFFFF / SwtmrConfig.swtmrLimit :=
    (Nat.le_div_iff_mul_le (Nat.zero_lt_of_lt ht)).mpr (by omega)
  have hle := Nat.mul_le_mul_right SwtmrConfig.swtmrLimit hone
  rw [Nat.one_mul] at hle
  unfold SwtmrState.timerId osSwtmrMaxTimerid
  rw [hb.ids t ht]
  exact Nat.lt_of_lt_of_le ht hle

/-- The timers are where they belong, and their IDs are in range. -/
structure Table (s : SwtmrState) : Prop where
  inv : SwtmrInv s
  range : ∀ t < SwtmrConfig.swtmrLimit, s.timerId t < osSwtmrMaxTimerid

theorem swtmrStep_table {call : SwtmrCall} (hclock : Monotone clock) (hcycle : 0 < osCyclePerTick)
    (hlimit : 0 < SwtmrConfig.swtmrLimit) (h : Table s) (hstep : swtmrStep clock s call s') : Table s' := by
  refine ⟨swtmrStep_inv hclock hcycle hlimit h.inv hstep, fun t ht => ?_⟩
  rcases swtmrStep_timerId hclock hcycle h.inv hstep t with hid | hid
  · rw [hid]
    exact h.range t ht
  · rw [hid]
    exact nextTimerId_lt (h.range t ht)

theorem swtmrRun_table {calls : List SwtmrCall} (hclock : Monotone clock) (hcycle : 0 < osCyclePerTick)
    (hlimit : 0 < SwtmrConfig.swtmrLimit) (hword : SwtmrConfig.swtmrLimit ≤ 0xFFFF) (hb : SwtmrBooted s)
    (hrun : Run (swtmrStep clock) s calls s') : Table s' :=
  run_invariant Table (fun _ _ _ h hstep => swtmrStep_table hclock hcycle hlimit h hstep) hrun
    ⟨swtmrBooted_inv hb, swtmrBooted_timerId hword hb⟩

/-- Calls that have given the timer `t` a new ID `n` times. -/
inductive Renewed (clock : Nat → Nat) (t : Nat) (s : SwtmrState) : Nat → SwtmrState → Prop
  | none : Renewed clock t s 0 s
  | same {n call s' s''} (before : Renewed clock t s n s') (last : swtmrStep clock s' call s'')
      (keep : s''.timerId t = s'.timerId t) : Renewed clock t s n s''
  | next {n call s' s''} (before : Renewed clock t s n s') (last : swtmrStep clock s' call s'')
      (renew : s''.timerId t ≠ s'.timerId t) : Renewed clock t s (n + 1) s''

theorem Renewed.table {n : Nat} (hclock : Monotone clock) (hcycle : 0 < osCyclePerTick)
    (hlimit : 0 < SwtmrConfig.swtmrLimit) (h : Renewed clock t s n s') (hs : Table s) : Table s' := by
  induction h with
  | none => exact hs
  | same _ last _ ih => exact swtmrStep_table hclock hcycle hlimit ih last
  | next _ last _ ih => exact swtmrStep_table hclock hcycle hlimit ih last

theorem Renewed.turn {n : Nat} (hclock : Monotone clock) (hcycle : 0 < osCyclePerTick)
    (hlimit : 0 < SwtmrConfig.swtmrLimit) (h : Renewed clock t s n s') (hs : Table s)
    (ht : t < SwtmrConfig.swtmrLimit) :
    s'.timerId t / SwtmrConfig.swtmrLimit = (s.timerId t / SwtmrConfig.swtmrLimit + n) % idsPerTimer := by
  induction h with
  | none =>
    refine (Nat.mod_eq_of_lt (Nat.div_lt_of_lt_mul ?_)).symm
    rw [Nat.mul_comm]
    exact hs.range t ht
  | same _ _ keep ih => rw [keep, ih]
  | next before last renew ih =>
    have hbefore := before.table hclock hcycle hlimit hs
    have hid := (swtmrStep_timerId hclock hcycle hbefore.inv last t).resolve_left renew
    rw [hid, nextTimerId_div hlimit (hbefore.range t ht), ih, Nat.mod_add_mod, Nat.add_assoc]

/-- No call accepts the ID. -/
structure Rejected (clock : Nat → Nat) (s : SwtmrState) (swtmrId : Nat) : Prop where
  start : ∀ running, losSwtmrStart clock s running swtmrId = (s, .idInvalid)
  stop : ∀ running, losSwtmrStop s running swtmrId = (s, .idInvalid)
  delete : ∀ running, losSwtmrDelete s running swtmrId = (s, .idInvalid)
  timeGet : losSwtmrTimeGet clock s swtmrId true = (s, .idInvalid, none)

theorem rejected_of_ne (clock : Nat → Nat) {swtmrId : Nat} (hrange : swtmrId < osSwtmrMaxTimerid)
    (h : s.timerId (swtmrId % SwtmrConfig.swtmrLimit) ≠ swtmrId) : Rejected clock s swtmrId := by
  have hin := Nat.not_le.mpr hrange
  constructor
  · intro running
    unfold losSwtmrStart
    rw [if_neg hin]
    exact if_pos h
  · intro running
    unfold losSwtmrStop
    rw [if_neg hin]
    exact if_pos h
  · intro running
    unfold losSwtmrDelete
    rw [if_neg hin]
    exact if_pos h
  · unfold losSwtmrTimeGet
    rw [if_neg hin, if_neg (by decide)]
    exact if_pos h

/-- A timer is on the list that its state asks for, and on no other. -/
inductive InPlace (s : SwtmrState) (t : Nat) : Prop
  | unused (state : (s.gSwtmrCBArray t).ucState = .unused) (free : t ∈ s.gSwtmrFreeList)
      (idle : t ∉ s.gSwtmrSortLink)
  | created (state : (s.gSwtmrCBArray t).ucState = .created) (taken : t ∉ s.gSwtmrFreeList)
      (idle : t ∉ s.gSwtmrSortLink)
  | ticking (state : (s.gSwtmrCBArray t).ucState = .ticking) (taken : t ∉ s.gSwtmrFreeList)
      (linked : t ∈ s.gSwtmrSortLink)

theorem SwtmrInv.inPlace (h : SwtmrInv s) (ht : t < SwtmrConfig.swtmrLimit) : InPlace s t := by
  have hfree := h.free t
  have hlink := h.linked t
  cases hs : (s.gSwtmrCBArray t).ucState with
  | unused =>
    refine .unused hs (hfree.mpr ⟨nofun, ht, hs⟩) fun hm => ?_
    exact absurd (hs.symm.trans (hlink.mp hm).2.2) nofun
  | created =>
    refine .created hs (fun hm => ?_) fun hm => ?_
    · exact absurd (hs.symm.trans (hfree.mp hm).2.2) nofun
    · exact absurd (hs.symm.trans (hlink.mp hm).2.2) nofun
  | ticking =>
    refine .ticking hs (fun hm => ?_) (hlink.mpr ⟨nofun, ht, hs⟩)
    exact absurd (hs.symm.trans (hfree.mp hm).2.2) nofun

/-- The ID of a timer that has deleted itself does not come back until all its IDs have had their turn. -/
theorem Table.rejected {fuel n : Nat} {needSchedule : Bool} {s'' : SwtmrState} (hclock : Monotone clock)
    (hcycle : 0 < osCyclePerTick) (hlimit : 0 < SwtmrConfig.swtmrLimit) (h : Table s)
    (hscan : osSwtmrScan clock fuel s = some (s', needSchedule)) (hdue : t ∈ due s (clock s.reads))
    (hmode : (s.gSwtmrCBArray t).ucMode = .once) (hmore : Renewed clock t s' n s'') (hn : n + 1 < idsPerTimer) :
    Rejected clock s'' (s.timerId t) := by
  have ht : t < SwtmrConfig.swtmrLimit := ((h.inv.linked t).mp (List.mem_of_mem_filter hdue)).2.1
  have hnext := (osSwtmrScan_scanned_of_some hclock hcycle h.inv hscan).timerId t
  rw [if_pos ⟨hdue, hmode⟩] at hnext
  have hturn := hmore.turn hclock hcycle hlimit
    (swtmrStep_table hclock hcycle hlimit h (swtmrStep.scan hscan)) ht
  rw [hnext, nextTimerId_div hlimit (h.range t ht), Nat.mod_add_mod, Nat.add_assoc] at hturn
  have hindex : s.timerId t % SwtmrConfig.swtmrLimit = t := h.inv.ids t ht
  refine rejected_of_ne clock (h.range t ht) fun he => ?_
  rw [hindex] at he
  rw [he] at hturn
  refine add_mod_ne_self ?_ (by omega) (by omega : 1 + n < idsPerTimer) hturn.symm
  refine Nat.div_lt_of_lt_mul ?_
  rw [Nat.mul_comm]
  exact h.range t ht

/-- Through every sequence of calls and scans. -/
theorem swtmrTable_kept {calls : List SwtmrCall} (hclock : Monotone clock) (hcycle : 0 < osCyclePerTick)
    (hlimit : 0 < SwtmrConfig.swtmrLimit) (hword : SwtmrConfig.swtmrLimit ≤ 0xFFFF) (hb : SwtmrBooted s)
    (hrun : Run (swtmrStep clock) s calls s') :
    s'.gSwtmrFreeList.Nodup ∧ s'.gSwtmrSortLink.Nodup ∧
      (∀ t < SwtmrConfig.swtmrLimit,
        InPlace s' t ∧ s'.timerId t % SwtmrConfig.swtmrLimit = t ∧ s'.timerId t < osSwtmrMaxTimerid) ∧
      ∀ t fuel needSchedule s₁ n s₂, osSwtmrScan clock fuel s' = some (s₁, needSchedule) →
        t ∈ due s' (clock s'.reads) → (s'.gSwtmrCBArray t).ucMode = .once →
        Renewed clock t s₁ n s₂ → n + 1 < idsPerTimer → Rejected clock s₂ (s'.timerId t) := by
  have h := swtmrRun_table hclock hcycle hlimit hword hb hrun
  refine ⟨h.inv.freeOnce, h.inv.once, fun t ht => ⟨h.inv.inPlace ht, h.inv.ids t ht, h.range t ht⟩, ?_⟩
  intro t fuel need s₁ n s₂ hscan hdue hmode hmore hn
  exact h.rejected hclock hcycle hlimit hscan hdue hmode hmore hn

end

def onceTicking : SwtmrState :=
  letI := smallTimers
  (losSwtmrStart (fun n => n * 100) (losSwtmrCreate timersBooted 1 .once (some 5) true 7 0 0).1 false 0).1

theorem onceTicking_run : letI := smallTimers; Run (swtmrStep fun n => n * 100) timersBooted
    [.create 1 .once (some 5) true 7 0 0, .start false 0] onceTicking :=
  letI := smallTimers
  run_append (run_single (swtmrStep.create (by decide))) (run_single swtmrStep.start)

theorem swtmrTable_kept_once : letI := smallTimers
    ∃ s' needSchedule fuel, osSwtmrScan (fun n => n * 100) fuel onceTicking = some (s', needSchedule) ∧
      Rejected (fun n => n * 100) s' 0 := by
  let _ := smallTimers
  have hclock : Monotone fun n => n * 100 := fun _ _ h => Nat.mul_le_mul_right 100 h
  obtain ⟨s', need, bound, hscan, _⟩ := osSwtmrScan_scanned hclock (by decide)
    (swtmrRun_inv hclock (by decide) (by decide) timersBooted_booted onceTicking_run)
  obtain ⟨_, _, _, h⟩ := swtmrTable_kept hclock (by decide) (by decide) (by decide) timersBooted_booted onceTicking_run
  exact ⟨s', need, bound, hscan bound (le_refl bound),
    h 0 bound need s' 0 s' (hscan bound (le_refl bound)) (by decide +kernel) (by decide +kernel) .none (by decide)⟩

end LiteosM.Swtmr
