import LiteosM.Heap.DoubleFree
import LiteosM.Swtmr.Init

/-!
# What a failed `OsSwtmrInit` leaves

The pointer that is given back is the one behind the last control block. The heap finds no used
node in front of it and refuses it.
-/

namespace LiteosM.SwtmrInit

open LiteosM.Kernel LiteosM.Heap LiteosM.TaskCreate LiteosM.Swtmr LiteosM.Lib.ByteMemory LiteosM.Lib.Word32
  LiteosM.Lib.DlList

section

theorem initRecords_end (rounds : Nat) :
    ∀ m index swtmr temp, (initRecords rounds m index swtmr temp).2 = swtmr + swtmrCtrlSize * rounds := by
  induction rounds with
  | zero =>
    intro m index swtmr temp
    rfl
  | succ rounds ih =>
    intro m index swtmr temp
    unfold initRecords
    rw [ih, Nat.mul_succ]
    omega

theorem initRecords_outside (rounds x : Nat) : ∀ m index swtmr temp,
    x < temp ∧ x < swtmr ∨ temp + 4 ≤ x ∧ swtmr + 48 * rounds ≤ x + 36 →
    (initRecords rounds m index swtmr temp).1 x = m x := by
  induction rounds with
  | zero =>
    intro m index swtmr temp _
    rfl
  | succ rounds ih =>
    intro m index swtmr temp hx
    have hsize : swtmrCtrlSize = 48 := rfl
    unfold initRecords
    rw [ih _ _ _ _ (by omega)]
    unfold setPstNext setUsTimerID
    rw [store32_outside _ _ _ _ (by omega), store32_outside _ _ _ _ (by omega)]

variable [StackConfig] [SwtmrConfig] {size p n : Nat} {m : Memory}

/-- The array as it has been set up: `p` is where it starts. -/
structure ArraySet (m m' : Memory) (p : Nat) : Prop where
  outside : ∀ x, x < p ∨ p + 48 * SwtmrConfig.swtmrLimit ≤ x → m' x = m x
  last : load32 m' (p + 48 * SwtmrConfig.swtmrLimit - 4) = 0

omit [StackConfig] in
theorem initArray_set (hlimit : 0 < SwtmrConfig.swtmrLimit) (m : Memory) (p : Nat) :
    ArraySet m (initArray m p).1 p ∧ (initArray m p).2 = p + 48 * SwtmrConfig.swtmrLimit := by
  have hsize : swtmrCtrlSize = 48 := rfl
  have hkeep : ∀ x, x < p ∨ p + 48 * SwtmrConfig.swtmrLimit ≤ x + 36 ∧ p + 12 ≤ x →
      (initArray m p).1 x = fillBytes m p 0 (48 * SwtmrConfig.swtmrLimit) x := by
    intro x hx
    unfold initArray
    dsimp only
    rw [initRecords_outside _ _ _ _ _ _ (by omega)]
    unfold setUsTimerID
    exact store32_outside _ _ _ _ (by omega)
  refine ⟨⟨fun x hx => ?_, ?_⟩, ?_⟩
  · rw [hkeep x (by omega)]
    exact fillBytes_outside _ _ _ _ _ hx
  · rw [load32_congr (fillBytes m p 0 (48 * SwtmrConfig.swtmrLimit)) _ _ fun x hlo hhi => hkeep x (by omega)]
    exact load32_fillBytes_zero _ _ _ _ (by omega)
  · unfold initArray
    dsimp only
    rw [initRecords_end, hsize]
    omega

/-- The array at `p` is in the block `b`, and the last word of it is zero. -/
structure HeldIn (size : Nat) (m : Memory) (p : Nat) (v : Arena) (b : Block) : Prop where
  rep : Rep sysMem0 size m v []
  mem : b ∈ v.blocks
  owner : b.owner = some p
  room : p + 48 * SwtmrConfig.swtmrLimit ≤ b.addr + b.size
  last : load32 m (p + 48 * SwtmrConfig.swtmrLimit - 4) = 0

/-- The heap gives `p` out to somebody. -/
def InUse (size : Nat) (m : Memory) (p : Nat) : Prop :=
  ∃ v, Rep sysMem0 size m v [] ∧ ∃ b ∈ v.blocks, b.owner = some p

theorem HeldIn.behind {v : Arena} {b : Block} (h : HeldIn size m p v b) (hlimit : 0 < SwtmrConfig.swtmrLimit) :
    losMemFree m sysMem0 (p + 48 * SwtmrConfig.swtmrLimit) = (m, losNok) := by
  have hbounds := h.rep.layout.bounds b h.mem
  have hregion := h.rep.layout.region
  have hend := hregion.inside
  have hsize := hregion.room
  have hroom := h.room
  refine losMemFree_stale m sysMem0 _ (by omega) (by omega) ?_
  unfold sizeAndFlag
  rw [show p + 48 * SwtmrConfig.swtmrLimit - 8 + 4 = p + 48 * SwtmrConfig.swtmrLimit - 4 by omega, h.last]
  decide

theorem HeldIn.keeps {Q : Nat → Prop} {m' : Memory} {v v' : Arena} {b : Block} (h : HeldIn size m p v b)
    (hlimit : 0 < SwtmrConfig.swtmrLimit) (hQ : ¬Q p) (hkeeps : Keeps sysMem0 size Q v m v' m')
    (hrep : Rep sysMem0 size m' v' []) : HeldIn size m' p v' b := by
  obtain ⟨hb, hbytes⟩ := hkeeps.stay b h.mem p h.owner hQ
  have hin := b.inside p h.owner
  have hroom := h.room
  refine ⟨hrep, hb, h.owner, hroom, ?_⟩
  rw [load32_congr m m' _ fun x hlo hhi => hbytes x (by omega) (by omega)]
  exact h.last

omit [SwtmrConfig] in
theorem sysMem0_alloc {v : Arena} (h : Rep sysMem0 size m v []) (hn : n < 2 ^ 28) :
    Allocated sysMem0 size m v n (losMemAlloc m sysMem0 n) := by
  have hbounds := allocSizeOf_bounds n
  exact losMemAlloc_spec h n (by omega) (Or.inl (by omega))

theorem losQueueCreate_held (hlimit : 0 < SwtmrConfig.swtmrLimit) {s : InitState} {v : Arena} {b : Block}
    (h : HeldIn size s.mem p v b) {len maxMsgSize : Nat} (hsize : len * (maxMsgSize + 4) < 2 ^ 28) (queueID : Bool) :
    ∃ v', HeldIn size (losQueueCreate s len queueID maxMsgSize).1.mem p v' b := by
  unfold losQueueCreate
  split
  · exact ⟨v, h⟩
  split
  · exact ⟨v, h⟩
  split
  · exact ⟨v, h⟩
  dsimp only
  have halloc := sysMem0_alloc h.rep hsize
  generalize losMemAlloc s.mem sysMem0 (len * (maxMsgSize + 4)) = r at halloc ⊢
  rcases halloc with rfl | ⟨v', c, hrep, hkeeps, hc, hco, _, ⟨a, ha, hac, hafree, hle⟩, _⟩
  · rw [if_pos rfl]
    exact ⟨v, h⟩
  · have hin := c.inside _ hco
    have hfresh := h.rep.layout.fresh_owner ha hafree r.2 (by omega)
    have hne : ¬p = r.2 := fun he => hfresh b h.mem (h.owner.trans (congrArg some he))
    have hheld := h.keeps hlimit hne hkeeps hrep
    rw [if_neg (by omega)]
    split
    · obtain ⟨hsame, _⟩ | ⟨v'', hfreed, _⟩ := losMemFree_spec hrep r.2 hc hco
      · refine ⟨v', ?_⟩
        show HeldIn size (losMemFree r.1 sysMem0 r.2).1 p v' b
        rw [hsame]
        exact hheld
      · exact ⟨v'', hheld.keeps hlimit hne hfreed.keeps hfreed.rep⟩
    · exact ⟨v', hheld⟩

theorem withArray_held (hlimit : 0 < SwtmrConfig.swtmrLimit) (hword : SwtmrConfig.swtmrLimit ≤ 0xFFFF)
    {s : InitState} {v : Arena} (h : Rep sysMem0 size s.mem v []) (hne : (arrayAlloc s).2 ≠ 0) :
    (∃ v' b, HeldIn size (withArray s).mem (arrayAlloc s).2 v' b) ∧ ¬InUse size s.mem (arrayAlloc s).2 := by
  have hbytes : swtmrCtrlSize * SwtmrConfig.swtmrLimit < 2 ^ 28 := by
    have hsize : swtmrCtrlSize = 48 := rfl
    rw [hsize]
    omega
  constructor
  · have halloc := sysMem0_alloc h hbytes
    rcases halloc with hz | ⟨v', b, hrep, hkeeps, hb, hown, hroom, _⟩
    · exact absurd (congrArg Prod.snd hz) hne
    · change Rep sysMem0 size (arrayAlloc s).1 v' [] at hrep
      change b.owner = some (arrayAlloc s).2 at hown
      change (arrayAlloc s).2 + 48 * SwtmrConfig.swtmrLimit ≤ b.addr + b.size at hroom
      obtain ⟨hset, _⟩ := initArray_set hlimit (arrayAlloc s).1 (arrayAlloc s).2
      have hal := (b.inside _ hown).2.2
      have htouch : Touches (fun a => (arrayAlloc s).2 ≤ a ∧ a < b.addr + b.size) (arrayAlloc s).1
          (initArray (arrayAlloc s).1 (arrayAlloc s).2).1 := fun x hx => hset.outside x (by omega)
      exact ⟨v', b, (hrep.write_payload hb _ hown htouch fun a ha => ha).1, hb, hown, hroom, hset.last⟩
  · rintro ⟨w, hw, c, hc, hco⟩
    rcases sysMem0_alloc hw hbytes with hz | ⟨v', b, _, _, _, hown, _, ⟨a, ha, hac, hafree, hle⟩, _⟩
    · exact absurd (congrArg Prod.snd hz) hne
    · have hin := b.inside _ hown
      exact hw.layout.fresh_owner ha hafree (arrayAlloc s).2
        (show a.addr ≤ (arrayAlloc s).2 ∧ (arrayAlloc s).2 < a.addr + a.size by
          change b.addr + 8 ≤ (arrayAlloc s).2 ∧ (arrayAlloc s).2 + 4 ≤ b.addr + b.size ∧ _ at hin
          omega) c hc hco

omit [SwtmrConfig] in
theorem losQueueCreate_kernel (s : InitState) (len : Nat) (queueID : Bool) (maxMsgSize : Nat) :
    (losQueueCreate s len queueID maxMsgSize).1.create.kernel = s.create.kernel := by
  unfold losQueueCreate
  split
  · rfl
  split
  · rfl
  split
  · rfl
  dsimp only
  split
  · rfl
  split
  · rfl
  · rfl

omit [StackConfig] [SwtmrConfig] in
theorem withQueue_create (r : InitState × Ipc.QueueErrno × Option Nat) : (withQueue r).create = r.1.create := by
  unfold withQueue
  split
  · rfl
  · rfl

variable [Config] {V : View Node} {v : Arena}

omit [SwtmrConfig] in
theorem losTaskCreate_failed {s s' : CreateState} {param : TskInitParam} {ret : Errno} {taskID : Option Nat}
    (hc : StackConfigOk size) (hi : KernelInv s.kernel V) (h : Rep StackConfig.osTaskStackAddr size s.mem v [])
    (hidle : losListEmpty s.kernel .gTaskRecyleList = true)
    (hrun : losTaskCreate s true (some param) = some (s', ret, taskID)) (hret : ret ≠ .losOk) :
    s'.mem = s.mem := by
  have hrecycle : TaskCreate.osRecyleFinishedTask s = some s := by
    unfold TaskCreate.osRecyleFinishedTask TaskCreate.osRecyleLoop
    exact if_pos hidle
  have hnone : ∀ s₁ e, TaskCreate.losTaskCreateOnly s true (some param) = some (s₁, e, none) → s₁.mem = s.mem →
      s'.mem = s.mem := by
    intro s₁ e hcreate hmem
    unfold losTaskCreate at hrun
    rw [hcreate] at hrun
    cases hrun
    exact hmem
  by_cases hparam : osTaskInitParamCheck (some param) = .losOk
  · have hpassed := losTaskCreateOnly_passed (s := s) hparam
    rw [hrecycle, Option.bind_some] at hpassed
    have hn := uwStackSize_bounds hc hparam
    cases hfree : losListEmpty s.kernel .gLosFreeTask with
    | true => exact hnone s _ (hpassed.trans (createRecycled_unavailable hfree)) rfl
    | false =>
      by_cases hdenied : (stackAlloc s.mem (uwStackSize param)).2 = 0 ∧ StackConfig.excHradwareStackProtection = false
      · obtain ⟨s₁, heq, hsame⟩ := createRecycled_denied hc hi h hn hfree hdenied.1 hdenied.2
        exact hnone s₁ _ (hpassed.trans heq) hsame.mem
      · have hgot : (stackAlloc s.mem (uwStackSize param)).2 ≠ 0 ∨ StackConfig.excHradwareStackProtection = true := by
          rcases not_and_or.mp hdenied with hgot | hon
          · exact .inl hgot
          · exact .inr (Bool.not_eq_false _ ▸ hon)
        obtain ⟨t, l, _, heq⟩ := createRecycled_ok hc hi h hn hfree hgot
        unfold losTaskCreate at hrun
        rw [hpassed, heq, Option.bind_eq_bind, Option.bind_some] at hrun
        obtain ⟨k, _, hk⟩ := Option.bind_eq_some_iff.mp hrun
        cases hk
        exact absurd rfl hret
  · refine hnone s (osTaskInitParamCheck (some param)) ?_ rfl
    unfold TaskCreate.losTaskCreateOnly
    rw [if_neg (by decide), if_pos hparam]

omit [SwtmrConfig] in
theorem osSwtmrTaskCreate_failed {s : InitState} {r : InitState × Errno} {entry stackSize : Nat}
    (hc : StackConfigOk size) (hi : KernelInv s.create.kernel V) (h : Rep sysMem0 size s.mem v [])
    (hidle : losListEmpty s.create.kernel .gTaskRecyleList = true)
    (hrun : osSwtmrTaskCreate entry stackSize s = some r) (hret : r.2 ≠ .losOk) : r.1.mem = s.mem := by
  unfold osSwtmrTaskCreate at hrun
  obtain ⟨⟨s', ret, taskID⟩, hcreate, hr⟩ := Option.bind_eq_some_iff.mp hrun
  cases taskID with
  | none =>
    cases hr
    exact losTaskCreate_failed hc hi h hidle hcreate hret
  | some taskID =>
    cases hr
    have hmem := losTaskCreate_failed hc hi h hidle hcreate hret
    exact hmem

/-- What an error is to leave: the heap gives out what it did, and the globals do not point elsewhere. -/
structure InitAtomic (size : Nat) (s s' : InitState) : Prop where
  heap : ∀ p, InUse size s'.mem p ↔ InUse size s.mem p
  array : s'.gSwtmrCBArray = s.gSwtmrCBArray ∨ s'.gSwtmrCBArray = 0
  free : s'.gSwtmrFreeList = s.gSwtmrFreeList ∨ s'.gSwtmrFreeList = 0

def NoneRefused (entry stackSize : Nat) (s : InitState) : Prop :=
  (arrayAlloc s).2 = 0 ∨
  (handlerQueueCreate (withArray s)).2.1 = .losOk ∧
    ∀ r, osSwtmrTaskCreate entry stackSize (withQueue (handlerQueueCreate (withArray s))) = some r → r.2 = .losOk

theorem osSwtmrInit_queue {s : InitState} (entry stackSize : Nat) (hne : (arrayAlloc s).2 ≠ 0)
    (hqueue : (handlerQueueCreate (withArray s)).2.1 ≠ .losOk) :
    osSwtmrInit entry stackSize s = some (freeSwtmr (withQueue (handlerQueueCreate (withArray s)))
      (initArray (arrayAlloc s).1 (arrayAlloc s).2).2, .swtmrQueueCreateFailed) := by
  unfold osSwtmrInit
  rw [if_neg hne]
  exact if_pos hqueue

theorem osSwtmrInit_leaks {s s' : InitState} {ret : SwtmrInitErrno} {entry stackSize : Nat} (hc : StackConfigOk size)
    (hlimit : 0 < SwtmrConfig.swtmrLimit) (hword : SwtmrConfig.swtmrLimit ≤ 0xFFFF)
    (hi : KernelInv s.create.kernel V) (h : Rep sysMem0 size s.mem v [])
    (hidle : losListEmpty s.create.kernel .gTaskRecyleList = true)
    (hrun : osSwtmrInit entry stackSize s = some (s', ret)) (hne : (arrayAlloc s).2 ≠ 0) (hret : ret ≠ .losOk) :
    InUse size s'.mem (arrayAlloc s).2 ∧ ¬InUse size s.mem (arrayAlloc s).2 := by
  obtain ⟨⟨v₁, b, hheld⟩, hnew⟩ := withArray_held hlimit hword h hne
  refine ⟨?_, hnew⟩
  have hqueue : SwtmrConfig.swtmrLimit * (swtmrHandlerItemSize + 4) < 2 ^ 28 := by
    have hsize : swtmrHandlerItemSize = 8 := rfl
    rw [hsize]
    omega
  obtain ⟨v₂, hheld₂⟩ := losQueueCreate_held hlimit hheld hqueue true
  have hend := (initArray_set hlimit (arrayAlloc s).1 (arrayAlloc s).2).2
  have hfreed : ∀ s₁ : InitState, ∀ w, HeldIn size s₁.mem (arrayAlloc s).2 w b →
      InUse size (freeSwtmr s₁ (initArray (arrayAlloc s).1 (arrayAlloc s).2).2).mem (arrayAlloc s).2 := by
    intro s₁ w hw
    rw [hend]
    refine ⟨w, ?_, b, hw.mem, hw.owner⟩
    show Rep sysMem0 size (losMemFree s₁.mem sysMem0 _).1 w []
    rw [hw.behind hlimit]
    exact hw.rep
  have hwith : (withQueue (handlerQueueCreate (withArray s))).mem = (handlerQueueCreate (withArray s)).1.mem :=
    congrArg CreateState.mem (withQueue_create _)
  have hheld₃ : HeldIn size (withQueue (handlerQueueCreate (withArray s))).mem (arrayAlloc s).2 v₂ b := by
    rw [hwith]
    exact hheld₂
  unfold osSwtmrInit at hrun
  rw [if_neg hne] at hrun
  dsimp only at hrun
  split at hrun
  · cases hrun
    exact hfreed _ v₂ hheld₃
  obtain ⟨task, htask, hrun⟩ := Option.bind_eq_some_iff.mp hrun
  split at hrun
  · next hfail =>
    cases hrun
    have hkernel : (withQueue (handlerQueueCreate (withArray s))).create.kernel = s.create.kernel := by
      rw [withQueue_create]
      exact losQueueCreate_kernel ..
    have hmem := osSwtmrTaskCreate_failed hc (V := V) (by rw [hkernel]; exact hi) hheld₃.rep
      (by rw [hkernel]; exact hidle) htask hfail
    refine hfreed task.1 v₂ ?_
    rw [hmem]
    exact hheld₃
  split at hrun
  · next hnone => cases hnone
  split at hrun
  · next hsort => exact absurd rfl hsort
  split at hrun
  · next hscan => exact absurd rfl hscan
  · cases hrun
    exact absurd rfl hret

omit [Config] [SwtmrConfig] in
theorem losMemAlloc_null (h : Rep sysMem0 size m v []) (hn : n < 2 ^ 28)
    (hnull : (losMemAlloc m sysMem0 n).2 = 0) : (losMemAlloc m sysMem0 n).1 = m := by
  rcases sysMem0_alloc h hn with hz | ⟨v', b, _, _, _, hown, _⟩
  · rw [hz]
  · have hin := b.inside _ hown
    omega

/-- An error of `OsSwtmrInit` is atomic exactly when there was no array to give back. -/
theorem osSwtmrInit_atomic_iff {s s' : InitState} {ret : SwtmrInitErrno} {entry stackSize : Nat}
    (hc : StackConfigOk size) (hlimit : 0 < SwtmrConfig.swtmrLimit) (hword : SwtmrConfig.swtmrLimit ≤ 0xFFFF)
    (hi : KernelInv s.create.kernel V) (h : Rep sysMem0 size s.mem v [])
    (hidle : losListEmpty s.create.kernel .gTaskRecyleList = true)
    (hrun : osSwtmrInit entry stackSize s = some (s', ret)) :
    (ret ≠ .losOk → InitAtomic size s s') ↔ NoneRefused entry stackSize s := by
  constructor
  · intro hatomic
    by_cases hnull : (arrayAlloc s).2 = 0
    · exact .inl hnull
    · by_cases hret : ret = .losOk
      · subst hret
        refine .inr ?_
        unfold osSwtmrInit at hrun
        rw [if_neg hnull] at hrun
        dsimp only at hrun
        split at hrun
        · cases hrun
        next hqueue =>
        obtain ⟨task, htask, hrun⟩ := Option.bind_eq_some_iff.mp hrun
        split at hrun
        · cases hrun
        next hok =>
        refine ⟨not_not.mp hqueue, fun r hr => ?_⟩
        cases htask.symm.trans hr
        exact not_not.mp hok
      · obtain ⟨hafter, hbefore⟩ := osSwtmrInit_leaks hc hlimit hword hi h hidle hrun hnull hret
        exact absurd (((hatomic hret).heap _).mp hafter) hbefore
  · intro hnone hret
    by_cases hnull : (arrayAlloc s).2 = 0
    · have hbytes : swtmrCtrlSize * SwtmrConfig.swtmrLimit < 2 ^ 28 := by
        have hsize : swtmrCtrlSize = 48 := rfl
        rw [hsize]
        omega
      unfold osSwtmrInit at hrun
      rw [if_pos hnull] at hrun
      cases hrun
      have hmem : ((clearAlign s).setMem (arrayAlloc s).1).mem = s.mem := losMemAlloc_null h hbytes hnull
      refine ⟨fun p => ?_, .inl rfl, .inl rfl⟩
      rw [hmem]
    · obtain ⟨hqueue, htask⟩ := hnone.resolve_left hnull
      unfold osSwtmrInit at hrun
      rw [if_neg hnull] at hrun
      dsimp only at hrun
      rw [if_neg (not_not.mpr hqueue)] at hrun
      obtain ⟨task, heq, hrun⟩ := Option.bind_eq_some_iff.mp hrun
      rw [if_neg (not_not.mpr (htask task heq))] at hrun
      cases hrun
      exact absurd rfl hret

end

@[reducible]
def oneTimer : SwtmrConfig where
  swtmrLimit := 1
  align := true
  osSysClock := 1000
  tickPerSecond := 100

/-- The small system before `OsSwtmrInit`: its heap has 72 bytes. -/
def beforeInit : InitState where
  create := smallCreate
  gFreeQueueList := [0]
  gAllQueue := fun _ => ⟨0, 0, 0, false, 0, 0, 0, 0⟩
  gSwtmrHandlerQueue := 0
  gSwtmrAlignID := fun _ => noAlign
  gSwtmrCBArray := 0
  gSwtmrFreeList := 0
  gSwtmrSortLinkList := none
  gSwtmrSortLink := []
  gSwtmrScan := false

theorem beforeInit_refused :
    letI := smallConfig
    letI := smallStackConfig false
    letI := oneTimer
    (arrayAlloc beforeInit).2 ≠ 0 ∧ (handlerQueueCreate (withArray beforeInit)).2.1 = .queueCreateNoMemory := by
  decide +kernel

theorem beforeInit_ok :
    letI := smallConfig
    letI := smallStackConfig false
    ∃ V v, KernelInv beforeInit.create.kernel V ∧ Rep sysMem0 1024 beforeInit.mem v [] ∧
      losListEmpty beforeInit.create.kernel .gTaskRecyleList = true := by
  let _ := smallConfig
  let _ := smallStackConfig false
  obtain ⟨V, v, hi, hs, _⟩ := smallCreate_ok false
  exact ⟨V, v, hi, hs.rep, smallCreate_recyle⟩

/-- There is room for the array but not for the queue. The array is not given back. -/
theorem osSwtmrInit_not_atomic :
    letI := smallConfig
    letI := smallStackConfig false
    letI := oneTimer
    ∃ s', osSwtmrInit 7 64 beforeInit = some (s', .swtmrQueueCreateFailed) ∧ ¬InitAtomic 1024 beforeInit s' := by
  let _ := smallConfig
  let _ := smallStackConfig false
  let _ := oneTimer
  obtain ⟨hne, hqueue⟩ := beforeInit_refused
  have hrun := osSwtmrInit_queue 7 64 hne (by rw [hqueue]; nofun)
  obtain ⟨V, v, hi, hrep, hidle⟩ := beforeInit_ok
  obtain ⟨hafter, hbefore⟩ := osSwtmrInit_leaks (smallStackConfig_ok false) (by decide) (by decide) hi hrep hidle hrun
    hne nofun
  exact ⟨_, hrun, fun hatomic => hbefore ((hatomic.heap _).mp hafter)⟩

theorem osSwtmrInit_atomic_iff_small :
    letI := smallConfig
    letI := smallStackConfig false
    letI := oneTimer
    ∃ s', osSwtmrInit 7 64 beforeInit = some (s', .swtmrQueueCreateFailed) ∧
      ((SwtmrInitErrno.swtmrQueueCreateFailed ≠ .losOk → InitAtomic 1024 beforeInit s') ↔
        NoneRefused 7 64 beforeInit) := by
  let _ := smallConfig
  let _ := smallStackConfig false
  let _ := oneTimer
  obtain ⟨hne, hqueue⟩ := beforeInit_refused
  have hrun := osSwtmrInit_queue 7 64 hne (by rw [hqueue]; nofun)
  obtain ⟨V, v, hi, hrep, hidle⟩ := beforeInit_ok
  exact ⟨_, hrun, osSwtmrInit_atomic_iff (smallStackConfig_ok false) (by decide) (by decide) hi hrep hidle hrun⟩

end LiteosM.SwtmrInit
