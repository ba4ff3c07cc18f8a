import LiteosM.Cpup.Source
import LiteosM.Lib.Metering

/-!
# The table against a meter

`g_cpup` has for every task what a meter would have, apart from the interval that is still open:
the running task has its start in `startTime` instead.
-/

namespace LiteosM.Cpup

open LiteosM.Kernel LiteosM.Lib.Metering LiteosM.Lib.Word64

/-- The position of the reading number `j`, the newest having number 0. -/
def hisIndex (gHisPos j : Nat) : Nat := (gHisPos + 9 - j) % 10

variable [Config]

/-- No interval is open. -/
structure Closed (c : CpupState) (m : Meter Nat) : Prop where
  init : c.gCpupInitFlg = true
  time : ∀ i < gTaskMaxNum, (c.gCpup i).allTime = m.time i
  start : ∀ i < gTaskMaxNum, (c.gCpup i).startTime = 0
  id : ∀ i < gTaskMaxNum, (c.gCpup i).status ≠ noStatus → (c.gCpup i).cpupID = i
  pos : c.gHisPos < osCpupHistoryRecordNum
  history : ∀ i < gTaskMaxNum, ∀ j < osCpupHistoryRecordNum,
    (c.gCpup i).historyTime (hisIndex c.gHisPos j) = m.reading j i
  last : c.gLastRecordTime = m.lastReading

/-- The interval of the running task is open since `startTime`, if it is metered. -/
structure Reads (c : CpupState) (m : Meter Nat) : Prop where
  init : c.gCpupInitFlg = true
  time : ∀ i < gTaskMaxNum, (i = m.running → m.metered = false) → (c.gCpup i).allTime = m.time i
  rest : ∀ i < gTaskMaxNum, (i = m.running → m.metered = false) → (c.gCpup i).startTime = 0
  start : m.running < gTaskMaxNum → m.metered = true → 0 < (c.gCpup m.running).startTime ∧
    (c.gCpup m.running).startTime ≤ m.now ∧
    (c.gCpup m.running).allTime + (m.now - (c.gCpup m.running).startTime) = m.time m.running
  id : ∀ i < gTaskMaxNum, (c.gCpup i).status ≠ noStatus → (c.gCpup i).cpupID = i
  pos : c.gHisPos < osCpupHistoryRecordNum
  history : ∀ i < gTaskMaxNum, ∀ j < osCpupHistoryRecordNum,
    (c.gCpup i).historyTime (hisIndex c.gHisPos j) = m.reading j i
  last : c.gLastRecordTime = m.lastReading

section

variable {k : KernelState} {c : CpupState} {m : Meter Nat} {i : Nat}

omit [Config] in
theorem modify_self (c : CpupState) (i : Nat) (f : OsCpupCB → OsCpupCB) :
    (c.modify i f).gCpup i = f (c.gCpup i) := Function.update_self _ _ _

omit [Config] in
theorem modify_of_ne (c : CpupState) {i u : Nat} (hu : u ≠ i) (f : OsCpupCB → OsCpupCB) :
    (c.modify i f).gCpup u = c.gCpup u := Function.update_of_ne hu _ _

theorem Closed.reads (h : Closed c m) (hm : m.metered = false) : Reads c m :=
  ⟨h.init, fun i hi _ => h.time i hi, fun i hi _ => h.start i hi,
    fun _ hmet => absurd hmet (by simp [hm]), h.id, h.pos, h.history, h.last⟩

variable [CpupConfig]

omit [Config] in
theorem wrapped_eq {cb : OsCpupCB} {now : Nat} (h : cb.startTime ≤ now) : wrapped cb now = now :=
  if_neg (Nat.not_lt.mpr h)

theorem osTskCycleEnd_closed (h : Reads c m) (hnow : losSysCycleGet k = m.now) (hrun : runID k = m.running)
    (hlt : m.running < gTaskMaxNum) (hbig : m.now < 2 ^ 64) (htime : m.time m.running < 2 ^ 64) :
    Closed (osTskCycleEnd k c) m := by
  unfold osTskCycleEnd
  rw [h.init, if_neg (by simp), hrun]
  cases hm : m.metered with
  | false =>
    rw [if_pos (h.rest _ hlt fun _ => hm)]
    exact ⟨h.init, fun i hi => h.time i hi fun _ => hm, fun i hi => h.rest i hi fun _ => hm, h.id, h.pos,
      h.history, h.last⟩
  | true =>
    obtain ⟨hpos, hle, hsum⟩ := h.start hlt hm
    rw [if_neg (Nat.ne_of_gt hpos)]
    have hadd : add64 (c.gCpup m.running).allTime
        (sub64 (wrapped (c.gCpup m.running) (losSysCycleGet k)) (c.gCpup m.running).startTime) =
        m.time m.running := by
      rw [hnow, wrapped_eq hle, sub64_of_le hle hbig, add64_of_lt (by rw [hsum]; exact htime), hsum]
    have hne : ∀ i, i ≠ m.running → i = m.running → m.metered = false := fun i hi he => absurd he hi
    refine ⟨h.init, fun i hi => ?_, fun i hi => ?_, fun i hi => ?_, h.pos, fun i hi => ?_, h.last⟩
    all_goals by_cases hir : i = m.running
    · rw [hir, modify_self]
      exact hadd
    · rw [modify_of_ne _ hir]
      exact h.time i hi (hne i hir)
    · rw [hir, modify_self]
    · rw [modify_of_ne _ hir]
      exact h.rest i hi (hne i hir)
    · rw [hir, modify_self]
      exact h.id _ hlt
    · rw [modify_of_ne _ hir]
      exact h.id i hi
    · rw [hir, modify_self]
      exact h.history _ hlt
    · rw [modify_of_ne _ hir]
      exact h.history i hi

omit [CpupConfig] in
theorem Closed.start_reads (h : Closed c m) (hnow : losSysCycleGet k = m.now) (hpos : 0 < m.now)
    (hnew : newID k = m.running) (hlt : m.running < gTaskMaxNum) :
    Reads (osTskCycleStart k c) { m with metered := true } := by
  unfold osTskCycleStart
  rw [h.init, if_neg (by simp), hnew, hnow]
  have hcase : ∀ i, ((i : Nat) = m.running → true = false) → i ≠ m.running := by
    rintro i hi rfl
    cases hi rfl
  refine ⟨h.init, fun i hi hne => ?_, fun i hi hne => ?_, fun _ _ => ?_, fun i hi => ?_, h.pos,
    fun i hi => ?_, h.last⟩
  · rw [modify_of_ne _ (hcase i hne)]
    exact h.time i hi
  · rw [modify_of_ne _ (hcase i hne)]
    exact h.start i hi
  · rw [modify_self]
    refine ⟨hpos, Nat.le_refl _, ?_⟩
    dsimp only
    rw [Nat.sub_self, Nat.add_zero]
    exact h.time _ hlt
  · by_cases hir : i = m.running
    · rw [hir, modify_self]
      exact fun _ => rfl
    · rw [modify_of_ne _ hir]
      exact h.id i hi
  · by_cases hir : i = m.running
    · rw [hir, modify_self]
      exact h.history _ hlt
    · rw [modify_of_ne _ hir]
      exact h.history i hi

omit [Config] [CpupConfig] in
theorem osCpupRecord_spec (c : CpupState) (n : Nat) :
    let c' := (List.range n).foldl (fun c loopNum => c.modify loopNum fun cb =>
      { cb with historyTime := Function.update cb.historyTime c.gHisPos cb.allTime }) c
    c'.gCpupInitFlg = c.gCpupInitFlg ∧ c'.gHisPos = c.gHisPos ∧ c'.gLastRecordTime = c.gLastRecordTime ∧
      ∀ i, c'.gCpup i = if i < n then { c.gCpup i with
        historyTime := Function.update (c.gCpup i).historyTime c.gHisPos (c.gCpup i).allTime } else c.gCpup i := by
  induction n with
  | zero => exact ⟨rfl, rfl, rfl, fun i => (if_neg (Nat.not_lt_zero i)).symm⟩
  | succ n ih =>
    dsimp only at ih ⊢
    rw [List.range_succ, List.foldl_append, List.foldl_cons, List.foldl_nil]
    generalize (List.range n).foldl (fun c loopNum => c.modify loopNum fun cb =>
      { cb with historyTime := Function.update cb.historyTime c.gHisPos cb.allTime }) c = c₁ at ih ⊢
    obtain ⟨hinit, hpos, hlast, hcb⟩ := ih
    refine ⟨hinit, hpos, hlast, fun i => ?_⟩
    by_cases hi : i = n
    · rw [hi, modify_self, hcb, if_neg (Nat.lt_irrefl n), if_pos (Nat.lt_succ_self n), hpos]
    · rw [modify_of_ne _ hi, hcb]
      by_cases hlt : i < n
      · rw [if_pos hlt, if_pos (Nat.lt_succ_of_lt hlt)]
      · rw [if_neg hlt, if_neg (by omega)]

omit [CpupConfig] in
theorem Reads.record (h : Reads c m) (htime : ∀ i < gTaskMaxNum, (c.gCpup i).allTime = m.time i) :
    Reads { osCpupRecord { c with gLastRecordTime := m.now } with
        gHisPos := if c.gHisPos = osCpupHistoryRecordNum - 1 then 0 else c.gHisPos + 1 }
      { m with readings := m.time :: m.readings, lastReading := m.now } := by
  obtain ⟨hinit, hpos, hlast, hcb⟩ := osCpupRecord_spec { c with gLastRecordTime := m.now } gTaskMaxNum
  unfold osCpupRecord
  generalize (List.range gTaskMaxNum).foldl _ _ = c₁ at hinit hpos hlast hcb ⊢
  dsimp only at hinit hpos hlast hcb
  have hp := h.pos
  have hcb' : ∀ i < gTaskMaxNum, c₁.gCpup i = { c.gCpup i with
      historyTime := Function.update (c.gCpup i).historyTime c.gHisPos (c.gCpup i).allTime } := fun i hi => by
    rw [hcb, if_pos hi]
  unfold osCpupHistoryRecordNum at hp ⊢
  refine ⟨hinit.trans h.init, fun i hi hne => ?_, fun i hi hne => ?_, fun hlt hm => ?_, fun i hi => ?_, ?_,
    fun i hi j hj => ?_, hlast⟩
  · dsimp only
    rw [hcb' i hi]
    exact h.time i hi hne
  · dsimp only
    rw [hcb' i hi]
    exact h.rest i hi hne
  · dsimp only at hlt ⊢
    rw [hcb' _ hlt]
    exact h.start hlt hm
  · dsimp only
    rw [hcb' i hi]
    exact h.id i hi
  · show (if c.gHisPos = 10 - 1 then 0 else c.gHisPos + 1) < 10
    split <;> omega
  · unfold osCpupHistoryRecordNum at hj
    dsimp only
    rw [hcb' i hi]
    dsimp only
    cases j with
    | zero =>
      have hidx : hisIndex (if c.gHisPos = 10 - 1 then 0 else c.gHisPos + 1) 0 = c.gHisPos := by
        unfold hisIndex
        split <;> omega
      rw [hidx, Function.update_self]
      exact htime i hi
    | succ j =>
      have hidx : hisIndex (if c.gHisPos = 10 - 1 then 0 else c.gHisPos + 1) (j + 1) = hisIndex c.gHisPos j := by
        unfold hisIndex
        split <;> omega
      have hne : hisIndex c.gHisPos j ≠ c.gHisPos := by
        unfold hisIndex
        omega
      rw [hidx, Function.update_of_ne hne]
      exact h.history i hi j (by unfold osCpupHistoryRecordNum; omega)

theorem osTskCycleEndStart_eq (hinit : c.gCpupInitFlg = true)
    (hle : (c.gCpup (runID k)).startTime ≤ losSysCycleGet k) :
    osTskCycleEndStart k c =
      let c' := osTskCycleStart k (osTskCycleEnd k c)
      if CpupConfig.gSysClock < sub64 (losSysCycleGet k) c'.gLastRecordTime then
        let c'' := osCpupRecord { c' with gLastRecordTime := losSysCycleGet k }
        { c'' with gHisPos := if c''.gHisPos = osCpupHistoryRecordNum - 1 then 0 else c''.gHisPos + 1 }
      else c' := by
  have hend : osTskCycleEnd k c = if (c.gCpup (runID k)).startTime ≠ 0 then
      c.modify (runID k) fun cb => { cb with
        allTime := add64 cb.allTime (sub64 (losSysCycleGet k) cb.startTime), startTime := 0 } else c := by
    unfold osTskCycleEnd
    rw [hinit, if_neg (by simp), ite_not]
    have hcongr : (c.modify (runID k) fun cb => { cb with
        allTime := add64 cb.allTime (sub64 (wrapped cb (losSysCycleGet k)) cb.startTime), startTime := 0 }) =
        c.modify (runID k) fun cb => { cb with
        allTime := add64 cb.allTime (sub64 (losSysCycleGet k) cb.startTime), startTime := 0 } := by
      unfold CpupState.modify
      dsimp only
      rw [wrapped_eq hle]
    rw [hcongr]
  have hnow : (if (c.gCpup (runID k)).startTime ≠ 0 then wrapped (c.gCpup (runID k)) (losSysCycleGet k)
      else losSysCycleGet k) = losSysCycleGet k := by
    rw [wrapped_eq hle, ite_self]
  have hflag : (osTskCycleEnd k c).gCpupInitFlg = true := by
    rw [hend]
    split <;> exact hinit
  have hstart : osTskCycleStart k (osTskCycleEnd k c) = (osTskCycleEnd k c).modify (newID k) fun cb =>
      { cb with cpupID := newID k, startTime := losSysCycleGet k } := by
    unfold osTskCycleStart
    rw [hflag]
    rfl
  have hno : ¬(!true) = true := by decide
  unfold osTskCycleEndStart
  rw [hinit, hstart, if_neg hno]
  dsimp only
  rw [hnow, ← hend]

omit [Config] [CpupConfig] in
theorem modify_status (c : CpupState) (i u : Nat) {f : OsCpupCB → OsCpupCB} (hf : ∀ cb, (f cb).status = cb.status) :
    ((c.modify i f).gCpup u).status = (c.gCpup u).status := by
  by_cases hu : u = i
  · rw [hu, modify_self, hf]
  · rw [modify_of_ne _ hu]

omit [Config] [CpupConfig] in
theorem osTskCycleStart_status (k : KernelState) (c : CpupState) (i : Nat) :
    ((osTskCycleStart k c).gCpup i).status = (c.gCpup i).status := by
  unfold osTskCycleStart
  split
  · rfl
  · exact modify_status c _ i fun _ => rfl

omit [Config] in
theorem osTskCycleEnd_status (k : KernelState) (c : CpupState) (i : Nat) :
    ((osTskCycleEnd k c).gCpup i).status = (c.gCpup i).status := by
  unfold osTskCycleEnd
  split
  · rfl
  · split
    · rfl
    · exact modify_status c _ i fun _ => rfl

theorem osTskCycleEndStart_status (k : KernelState) (c : CpupState) (i : Nat) :
    ((osTskCycleEndStart k c).gCpup i).status = (c.gCpup i).status := by
  have hrecord : ∀ c : CpupState, ((osCpupRecord c).gCpup i).status = (c.gCpup i).status := by
    intro c
    unfold osCpupRecord
    rw [(osCpupRecord_spec c gTaskMaxNum).2.2.2 i]
    split <;> rfl
  have hopen : ∀ (c : CpupState) (now : Nat), ((c.modify (newID k) fun cb =>
      { cb with cpupID := newID k, startTime := now }).gCpup i).status = (c.gCpup i).status :=
    fun c now => modify_status c _ i fun _ => rfl
  have hlast : ∀ (c : CpupState) (now : Nat), ((if CpupConfig.gSysClock < sub64 now c.gLastRecordTime then
      let c := osCpupRecord { c with gLastRecordTime := now }
      { c with gHisPos := if c.gHisPos = osCpupHistoryRecordNum - 1 then 0 else c.gHisPos + 1 }
      else c).gCpup i).status = (c.gCpup i).status := by
    intro c now
    split
    · exact hrecord _
    · rfl
  unfold osTskCycleEndStart
  split
  · rfl
  · refine (hlast _ _).trans ((hopen _ _).trans ?_)
    split
    · exact modify_status c _ i fun _ => rfl
    · rfl

omit [CpupConfig] in
theorem Reads.pass (h : Reads c m) {now : Nat} (hnow : m.now ≤ now) : Reads c (m.pass now) := by
  have htime : ∀ i, (i = m.running → m.metered = false) → (m.pass now).time i = m.time i := by
    intro i hi
    unfold Meter.pass
    dsimp only
    split
    · next hm =>
      refine Function.update_of_ne (fun he => ?_) _ _
      rw [hi he] at hm
      cases hm
    · rfl
  refine ⟨h.init, fun i hi hne => (h.time i hi hne).trans (htime i hne).symm, h.rest, fun hlt hm => ?_, h.id, h.pos,
    h.history, h.last⟩
  obtain ⟨hpos, hle, hsum⟩ := h.start hlt hm
  have hself : (m.pass now).time m.running = m.time m.running + (now - m.now) := by
    unfold Meter.pass
    rw [if_pos (show m.metered = true from hm)]
    exact Function.update_self _ _ _
  refine ⟨hpos, Nat.le_trans hle hnow, ?_⟩
  show _ + (now - _) = (m.pass now).time m.running
  rw [hself]
  change (c.gCpup m.running).startTime ≤ m.now at hle
  change (c.gCpup m.running).allTime + (m.now - (c.gCpup m.running).startTime) = m.time m.running at hsum
  change (c.gCpup m.running).allTime + (now - (c.gCpup m.running).startTime) = _
  omega

omit [CpupConfig] in
theorem Reads.create (h : Reads c m) (id : Nat) (status : TaskStatus) : Reads (cpupTaskCreate c id status) m := by
  have hsame : ∀ i, ((cpupTaskCreate c id status).gCpup i).allTime = (c.gCpup i).allTime ∧
      ((cpupTaskCreate c id status).gCpup i).startTime = (c.gCpup i).startTime ∧
      ((cpupTaskCreate c id status).gCpup i).historyTime = (c.gCpup i).historyTime := by
    intro i
    unfold cpupTaskCreate
    by_cases hi : i = id
    · rw [hi, modify_self]
      exact ⟨rfl, rfl, rfl⟩
    · rw [modify_of_ne _ hi]
      exact ⟨rfl, rfl, rfl⟩
  refine ⟨h.init, fun i hi hne => (hsame i).1.trans (h.time i hi hne), fun i hi hne => (hsame i).2.1.trans
    (h.rest i hi hne), fun hlt hm => ?_, fun i hi => ?_, h.pos, fun i hi j hj => ?_, h.last⟩
  · rw [(hsame _).1, (hsame _).2.1]
    exact h.start hlt hm
  · unfold cpupTaskCreate
    by_cases he : i = id
    · rw [he, modify_self]
      exact fun _ => rfl
    · rw [modify_of_ne _ he]
      exact h.id i hi
  · rw [(hsame i).2.2]
    exact h.history i hi j hj

omit [CpupConfig] in
theorem Reads.delete (h : Reads c m) (id : Nat) : Reads (cpupTaskDelete c id) (m.reset id) := by
  unfold cpupTaskDelete
  have hother : ∀ i, i ≠ id → ((i : Nat) = m.running → (m.metered && decide (m.running ≠ id)) = false) →
      i = m.running → m.metered = false := by
    intro i hi hne he
    have hrun := hne he
    rw [he] at hi
    simpa [hi] using hrun
  have htime : ∀ i, i ≠ id → (m.reset id).time i = m.time i := fun i hi => Function.update_of_ne hi _ _
  refine ⟨h.init, fun i hi hne => ?_, fun i hi hne => ?_, fun hlt hm => ?_, fun i hi => ?_, h.pos,
    fun i hi j hj => ?_, h.last⟩
  · by_cases he : i = id
    · rw [he, modify_self]
      exact (Function.update_self id 0 m.time).symm
    · rw [modify_of_ne _ he, htime i he]
      exact h.time i hi (hother i he hne)
  · by_cases he : i = id
    · rw [he, modify_self]
      rfl
    · rw [modify_of_ne _ he]
      exact h.rest i hi (hother i he hne)
  · obtain ⟨hmet, hne⟩ := Bool.and_eq_true_iff.mp hm
    have hne' : m.running ≠ id := of_decide_eq_true hne
    change 0 < ((c.modify id _).gCpup m.running).startTime ∧ ((c.modify id _).gCpup m.running).startTime ≤ m.now ∧
      ((c.modify id _).gCpup m.running).allTime + (m.now - ((c.modify id _).gCpup m.running).startTime) =
        (m.reset id).time m.running
    rw [modify_of_ne _ hne', htime _ hne']
    exact h.start hlt hmet
  · by_cases he : i = id
    · rw [he, modify_self]
      exact fun hs => absurd rfl hs
    · rw [modify_of_ne _ he]
      exact h.id i hi
  · show ((c.modify id _).gCpup i).historyTime (hisIndex c.gHisPos j) = _
    by_cases he : i = id
    · rw [he, modify_self, Meter.reset_reading_self]
      rfl
    · rw [modify_of_ne _ he, Meter.reset_reading_of_ne m he]
      exact h.history i hi j hj

theorem Reads.switch (h : Reads c m) (hnow : losSysCycleGet k = m.now) (hpos : 0 < m.now) (hbig : m.now < 2 ^ 64)
    (hrun : runID k = m.running) (hlt : m.running < gTaskMaxNum) (htime : m.time m.running < 2 ^ 64)
    (hlast : m.lastReading ≤ m.now) (hnew : newID k < gTaskMaxNum) :
    Reads (osTskCycleEndStart k c) (m.dispatch CpupConfig.gSysClock (newID k)) := by
  have hclosed := osTskCycleEnd_closed h hnow hrun hlt hbig htime
  have hmoved : Closed (osTskCycleEnd k c) { m with running := newID k } :=
    ⟨hclosed.init, hclosed.time, hclosed.start, hclosed.id, hclosed.pos, hclosed.history, hclosed.last⟩
  have hopen := hmoved.start_reads hnow hpos rfl hnew
  have hle : (c.gCpup (runID k)).startTime ≤ losSysCycleGet k := by
    rw [hrun, hnow]
    cases hm : m.metered with
    | true => exact (h.start hlt hm).2.1
    | false =>
      rw [h.rest _ hlt fun _ => hm]
      exact Nat.zero_le _
  have htaken : ∀ i < gTaskMaxNum, ((osTskCycleStart k (osTskCycleEnd k c)).gCpup i).allTime = m.time i := by
    intro i hi
    unfold osTskCycleStart
    rw [hclosed.init, if_neg (by simp)]
    by_cases he : i = newID k
    · rw [he, modify_self]
      exact hclosed.time _ hnew
    · rw [modify_of_ne _ he]
      exact hclosed.time i hi
  rw [osTskCycleEndStart_eq h.init hle]
  dsimp only
  have hlast' : (osTskCycleStart k (osTskCycleEnd k c)).gLastRecordTime = m.lastReading := hopen.last
  have hpos' := hopen.pos
  unfold Meter.dispatch
  dsimp only
  rw [hlast', hnow, sub64_of_le hlast hbig]
  have hrec : (osCpupRecord { osTskCycleStart k (osTskCycleEnd k c) with gLastRecordTime := m.now }).gHisPos =
      (osTskCycleStart k (osTskCycleEnd k c)).gHisPos := (osCpupRecord_spec _ gTaskMaxNum).2.1
  split
  · rw [hrec]
    exact hopen.record htaken
  · exact hopen

end

end LiteosM.Cpup
