import LiteosM.Swtmr.Scan

/-!
# Every sequence of timer calls
-/

namespace LiteosM.Swtmr

open LiteosM.Lib.Transition

section

variable [SwtmrConfig] {clock : Nat → Nat} {s s' : SwtmrState} {t u : Nat} {info : SwtmrAlignData}

theorem setAlign_same (s : SwtmrState) (t : Nat) : s.setAlign t (s.alignInfo t) = s := by
  unfold SwtmrState.setAlign SwtmrState.alignInfo
  rw [Function.update_eq_self]

theorem setCanAlign_eq (s : SwtmrState) (t : Nat) : ∃ info, setCanAlign s t = s.setAlign t info := by
  unfold setCanAlign
  dsimp only
  split
  · exact ⟨_, rfl⟩
  · exact ⟨s.alignInfo t, (setAlign_same s t).symm⟩

theorem SwtmrInv.setAlign (h : SwtmrInv s) (ht : t < SwtmrConfig.swtmrLimit) (hoff : t ∉ s.gSwtmrSortLink)
    (info : SwtmrAlignData) : SwtmrInv (s.setAlign t info) := by
  refine ⟨h.ids, h.freeOnce, h.free, h.once, h.linked, h.sorted, h.timer, h.time, fun ha u hu hc => ?_⟩
  have hne : u ≠ t := fun he => hoff (he ▸ hu)
  rw [alignInfo_of_ne h ht ((h.linked u).mp hu).2.1 hne] at hc ⊢
  exact h.aligned ha u hu hc

theorem SwtmrInv.allocate {rest : List Nat} (h : SwtmrInv s) (hl : s.gSwtmrFreeList = t :: rest) :
    Fits { s with gSwtmrFreeList := rest } (some t) := by
  have honce := h.freeOnce
  rw [hl] at honce
  have hstate : t < SwtmrConfig.swtmrLimit ∧ (s.gSwtmrCBArray t).ucState = .unused := by
    refine ((h.free t).mp ?_).2
    rw [hl]
    exact List.mem_cons_self
  refine ⟨h.ids, (List.nodup_cons.mp honce).2, fun u => ?_, h.once, fun u => (h.linked u).trans ?_, h.sorted,
    fun u hu _ => h.timer u hu nofun, h.time, h.aligned⟩
  · have hfree := h.free u
    rw [hl, List.mem_cons] at hfree
    constructor
    · intro hu
      refine ⟨fun he => ?_, (hfree.mp (.inr hu)).2⟩
      obtain rfl : t = u := Option.some.inj he
      exact (List.nodup_cons.mp honce).1 hu
    · intro ⟨hne, hu⟩
      exact (hfree.mpr ⟨nofun, hu⟩).resolve_left fun he => hne (congrArg some he.symm)
  · refine and_congr_left fun hu => iff_of_true nofun fun he => ?_
    obtain rfl : t = u := Option.some.inj he
    exact absurd (hstate.2.symm.trans hu.2) nofun

theorem losSwtmrCreate_inv (h : SwtmrInv s) {interval : Nat} (hword : interval < 2 ^ 32) (mode : SwtmrMode)
    (handler : Option Nat) (swtmrId : Bool) (arg rouses sensitive : Nat) :
    SwtmrInv (losSwtmrCreate s interval mode handler swtmrId arg rouses sensitive).1 := by
  unfold losSwtmrCreate
  split
  · exact h
  next hpos =>
  split
  · exact h
  next hmode =>
  split
  · exact h
  next hhandler =>
  split
  · exact h
  split
  · exact h
  split
  · exact h
  split
  · exact h
  · next t rest hl =>
    have h₁ := h.allocate hl
    refine Fits.settle (t := t) (h₁.modify (f := fun cb => { cb with
      pfnHandler := handler
      ucMode := mode
      uwInterval := interval
      uwCount := 0
      uwArg := arg
      ucSensitive := if SwtmrConfig.align then sensitive else cb.ucSensitive
      ucState := .created
      responseTime := ⊤ }) rfl) ?_ ?_
    · rw [modify_self]
    · rw [modify_self]
      refine ⟨Nat.pos_of_ne_zero hpos, hword, fun hopp => ?_,
        Option.isSome_iff_ne_none.mpr (mt Option.isNone_iff_eq_none.mpr hhandler)⟩
      obtain rfl : mode = .opp := hopp
      exact hmode ⟨nofun, nofun, nofun⟩

theorem osSwtmrStop_fits (h : SwtmrInv s) (ht : t ∈ s.gSwtmrSortLink) (info : SwtmrAlignData) (running : Bool) :
    Fits (osSwtmrStop (s.setAlign t info) running t) (some t) ∧
      (osSwtmrStop (s.setAlign t info) running t).gSwtmrCBArray t =
        { s.gSwtmrCBArray t with ucState := .created, responseTime := ⊤ } := by
  have hbound := ((h.linked t).mp ht).2.1
  have hdelete : osDeleteSortLink (s.setAlign t info) t = (osDeleteNodeSortLink s t).setAlign t info := by
    unfold osDeleteSortLink
    refine (if_pos (h.time t ht)).trans ?_
    unfold osDeleteNodeSortLink SwtmrState.setAlign SwtmrState.alignIndex
    rw [modify_self]
    rfl
  have h₁ := (osDeleteNodeSortLink_fits h ht).setAlign hbound info
  have hself : (osDeleteNodeSortLink s t).gSwtmrCBArray t = { s.gSwtmrCBArray t with responseTime := ⊤ } :=
    modify_self ..
  have hcb : ((osDeleteNodeSortLink s t).setAlign t info).gSwtmrCBArray t =
      { s.gSwtmrCBArray t with responseTime := ⊤ } := hself
  rw [← hdelete] at h₁ hcb
  unfold osSwtmrStop
  dsimp only
  generalize osDeleteSortLink (s.setAlign t info) t = s₁ at *
  have h₂ := h₁.modify (f := fun cb => { cb with ucState := .created }) rfl
  have hcb₂ : (s₁.modify t fun cb => { cb with ucState := .created }).gSwtmrCBArray t =
      { s.gSwtmrCBArray t with ucState := .created, responseTime := ⊤ } := by rw [modify_self, hcb]
  split
  · exact ⟨h₂.setAlign hbound _, hcb₂⟩
  · exact ⟨h₂, hcb₂⟩

theorem SwtmrInv.not_ticking (h : SwtmrInv s) (hs : (s.gSwtmrCBArray t).ucState ≠ .ticking) :
    t ∉ s.gSwtmrSortLink := fun ht => hs ((h.linked t).mp ht).2.2

theorem losSwtmrStart_inv (clock : Nat → Nat) (hlimit : 0 < SwtmrConfig.swtmrLimit) (h : SwtmrInv s)
    (running : Bool) (swtmrId : Nat) : SwtmrInv (losSwtmrStart clock s running swtmrId).1 := by
  unfold losSwtmrStart
  split
  · exact h
  dsimp only
  split
  · exact h
  have hbound := Nat.mod_lt swtmrId hlimit
  generalize swtmrId % SwtmrConfig.swtmrLimit = t at *
  obtain ⟨info, hinfo⟩ := setCanAlign_eq s t
  rw [hinfo]
  cases hs : (s.gSwtmrCBArray t).ucState with
  | unused =>
    rw [show ((s.setAlign t info).gSwtmrCBArray t).ucState = .unused from hs]
    exact h.setAlign hbound (h.not_ticking (by rw [hs]; nofun)) info
  | ticking =>
    rw [show ((s.setAlign t info).gSwtmrCBArray t).ucState = .ticking from hs]
    have ht := (h.linked t).mpr ⟨nofun, hbound, hs⟩
    obtain ⟨hf, hcb⟩ := osSwtmrStop_fits h ht info running
    have hok := h.timer t hbound nofun (by rw [hs]; nofun)
    exact (osSwtmrStart_linked clock hf hbound (by rw [hcb]; exact ⟨hok.pos, hok.word, hok.mode, hok.handler⟩)).1.inv
  | created =>
    rw [show ((s.setAlign t info).gSwtmrCBArray t).ucState = .created from hs]
    have hok := h.timer t hbound nofun (by rw [hs]; nofun)
    have hf := (h.take hs).setAlign hbound info
    exact (osSwtmrStart_linked clock hf hbound hok).1.inv

theorem losSwtmrStop_inv (hlimit : 0 < SwtmrConfig.swtmrLimit) (h : SwtmrInv s)
    (running : Bool) (swtmrId : Nat) : SwtmrInv (losSwtmrStop s running swtmrId).1 := by
  unfold losSwtmrStop
  split
  · exact h
  dsimp only
  split
  · exact h
  have hbound := Nat.mod_lt swtmrId hlimit
  generalize swtmrId % SwtmrConfig.swtmrLimit = t at *
  cases hs : (s.gSwtmrCBArray t).ucState with
  | unused => exact h
  | created => exact h
  | ticking =>
    obtain ⟨hf, hcb⟩ := osSwtmrStop_fits h ((h.linked t).mpr ⟨nofun, hbound, hs⟩) (s.alignInfo t) running
    have hok := h.timer t hbound nofun (by rw [hs]; nofun)
    rw [setAlign_same] at hf hcb
    exact hf.settle (by rw [hcb]) (by rw [hcb]; exact ⟨hok.pos, hok.word, hok.mode, hok.handler⟩)

theorem losSwtmrDelete_inv (hlimit : 0 < SwtmrConfig.swtmrLimit) (h : SwtmrInv s)
    (running : Bool) (swtmrId : Nat) : SwtmrInv (losSwtmrDelete s running swtmrId).1 := by
  unfold losSwtmrDelete
  split
  · exact h
  dsimp only
  split
  · exact h
  have hbound := Nat.mod_lt swtmrId hlimit
  generalize swtmrId % SwtmrConfig.swtmrLimit = t at *
  cases hs : (s.gSwtmrCBArray t).ucState with
  | unused => exact h
  | created => exact (osSwtmrDelete_spec (h.take hs) hbound).1
  | ticking =>
    obtain ⟨hf, _⟩ := osSwtmrStop_fits h ((h.linked t).mpr ⟨nofun, hbound, hs⟩) (s.alignInfo t) running
    rw [setAlign_same] at hf
    exact (osSwtmrDelete_spec hf hbound).1

/-- Whatever the bound on the rounds, a scan that ends has handled what was due. -/
theorem osSwtmrScan_scanned_of_some {fuel : Nat} {needSchedule : Bool} (hclock : Monotone clock)
    (hcycle : 0 < osCyclePerTick) (h : SwtmrInv s) (hrun : osSwtmrScan clock fuel s = some (s', needSchedule)) :
    Scanned s (clock s.reads) (due s (clock s.reads)) s' := by
  obtain ⟨s₁, need₁, bound, hbound, hscanned⟩ := osSwtmrScan_scanned hclock hcycle h
  have hmore := osSwtmrScan_mono hrun (Nat.le_max_left fuel bound)
  rw [hbound _ (Nat.le_max_right fuel bound)] at hmore
  cases hmore
  exact hscanned

theorem losSwtmrTimeGet_inv (clock : Nat → Nat) (h : SwtmrInv s) (swtmrId : Nat) (tick : Bool) :
    SwtmrInv (losSwtmrTimeGet clock s swtmrId tick).1 := by
  unfold losSwtmrTimeGet
  split
  · exact h
  split
  · exact h
  dsimp only
  split
  · exact h
  split
  · exact h
  · exact h
  · exact h.congr rfl rfl rfl rfl

theorem swtmrStep_inv {call : SwtmrCall} (hclock : Monotone clock) (hcycle : 0 < osCyclePerTick)
    (hlimit : 0 < SwtmrConfig.swtmrLimit) (h : SwtmrInv s) (hstep : swtmrStep clock s call s') : SwtmrInv s' := by
  cases hstep with
  | create word => exact losSwtmrCreate_inv h word ..
  | start => exact losSwtmrStart_inv clock hlimit h ..
  | stop => exact losSwtmrStop_inv hlimit h ..
  | delete => exact losSwtmrDelete_inv hlimit h ..
  | timeGet => exact losSwtmrTimeGet_inv clock h ..
  | scan run => exact (osSwtmrScan_scanned_of_some hclock hcycle h run).inv

theorem swtmrBooted_inv (hb : SwtmrBooted s) : SwtmrInv s := by
  refine ⟨fun t ht => ?_, ?_, fun t => ?_, ?_, fun t => ?_, ?_, fun t ht _ hs => absurd (hb.unused t ht) hs, ?_, ?_⟩
  · unfold SwtmrState.alignIndex
    rw [hb.ids t ht, Nat.mod_eq_of_lt ht]
  · rw [hb.free]
    exact List.nodup_range
  · rw [hb.free, List.mem_range]
    exact ⟨fun ht => ⟨nofun, ht, hb.unused t ht⟩, fun ht => ht.2.1⟩
  · rw [hb.idle]
    exact List.nodup_nil
  · rw [hb.idle]
    refine iff_of_false List.not_mem_nil fun ht => ?_
    exact absurd ((hb.unused t ht.2.1).symm.trans ht.2.2) nofun
  · rw [hb.idle]
    exact List.Pairwise.nil
  · rw [hb.idle]
    exact nofun
  · rw [hb.idle]
    exact nofun

theorem swtmrRun_inv (hclock : Monotone clock) (hcycle : 0 < osCyclePerTick) (hlimit : 0 < SwtmrConfig.swtmrLimit)
    {calls : List SwtmrCall} (hb : SwtmrBooted s) (hrun : Run (swtmrStep clock) s calls s') : SwtmrInv s' :=
  run_invariant SwtmrInv (fun _ _ _ h hstep => swtmrStep_inv hclock hcycle hlimit h hstep) hrun (swtmrBooted_inv hb)

/-- The scan at `now` has handled the timers that were due, each once, and no other. -/
structure ScanDone (s : SwtmrState) (now : Nat) (s' : SwtmrState) : Prop where
  once : (due s now).Nodup
  written : s'.written = s.written ++ (due s now).map (handlerItem s)
  others : ∀ t, t ∉ due s now → s'.gSwtmrCBArray t = s.gSwtmrCBArray t ∧
    (t ∈ s'.gSwtmrSortLink ↔ t ∈ s.gSwtmrSortLink)
  period : ∀ t ∈ due s now, (s.gSwtmrCBArray t).ucMode = .period →
    t ∈ s'.gSwtmrSortLink ∧ s.responseTime t < s'.responseTime t
  stopped : ∀ t ∈ due s now, (s.gSwtmrCBArray t).ucMode ≠ .period → t ∉ s'.gSwtmrSortLink
  sorted : s'.gSwtmrSortLink.Pairwise fun a b => s'.responseTime a ≤ s'.responseTime b

/-- In every state that calls can lead to, the scan ends and has done what it is for. -/
theorem osSwtmrScan_done {calls : List SwtmrCall} (hclock : Monotone clock) (hcycle : 0 < osCyclePerTick)
    (hlimit : 0 < SwtmrConfig.swtmrLimit) (hb : SwtmrBooted s) (hrun : Run (swtmrStep clock) s calls s') :
    ∃ s'' needSchedule bound, (∀ fuel ≥ bound, osSwtmrScan clock fuel s' = some (s'', needSchedule)) ∧
      ScanDone s' (clock s'.reads) s'' := by
  have hinv := swtmrRun_inv hclock hcycle hlimit hb hrun
  obtain ⟨s'', need, bound, hscan, h⟩ := osSwtmrScan_scanned hclock hcycle hinv
  exact ⟨s'', need, bound, hscan, hinv.once.filter _, h.written, h.others,
    fun t ht hp => ⟨(h.period t ht hp).1, (h.period t ht hp).2.1⟩, h.stopped, h.inv.sorted⟩

end

@[reducible]
def smallTimers : SwtmrConfig where
  swtmrLimit := 2
  align := true
  osSysClock := 1000
  tickPerSecond := 100

def timersBooted : SwtmrState where
  gSwtmrCBArray := fun t => ⟨.unused, .once, 0, t, 0, 0, 0, none, ⊤⟩
  gSwtmrFreeList := [0, 1]
  gSwtmrSortLink := []
  gSwtmrAlignID := fun _ => noAlign
  written := []
  reads := 0

theorem timersBooted_booted : letI := smallTimers; SwtmrBooted timersBooted :=
  letI := smallTimers
  ⟨fun _ _ => rfl, fun _ _ => rfl, rfl, rfl, fun _ _ => rfl⟩

def oneTicking : SwtmrState :=
  letI := smallTimers
  (losSwtmrStart (fun n => n * 100) (losSwtmrCreate timersBooted 1 .period (some 5) true 7 0 0).1 false 0).1

theorem oneTicking_run : letI := smallTimers; Run (swtmrStep fun n => n * 100) timersBooted
    [.create 1 .period (some 5) true 7 0 0, .start false 0] oneTicking :=
  letI := smallTimers
  run_append (run_single (swtmrStep.create (by decide))) (run_single swtmrStep.start)

theorem osSwtmrScan_done_period : letI := smallTimers
    due oneTicking 100 = [0] ∧ ∃ s' needSchedule bound,
      (∀ fuel ≥ bound, osSwtmrScan (fun n => n * 100) fuel oneTicking = some (s', needSchedule)) ∧
        ScanDone oneTicking 100 s' := by
  let _ := smallTimers
  refine ⟨by decide +kernel, ?_⟩
  exact osSwtmrScan_done (fun _ _ h => Nat.mul_le_mul_right 100 h) (by decide) (by decide) timersBooted_booted
    oneTicking_run

end LiteosM.Swtmr
