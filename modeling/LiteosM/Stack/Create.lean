import LiteosM.Heap.Aligned
import LiteosM.Kernel.Boot
import LiteosM.Kernel.WaitList

/-!
# Task creation on the heap

`LOS_TaskCreateOnly` once more, with the heap its stacks come from. With
`LOSCFG_EXC_HRADWARE_STACK_PROTECTION` a guard area stands in front of every stack.
-/

namespace LiteosM.TaskCreate

open LiteosM.Kernel LiteosM.Heap LiteosM.Lib.ByteMemory LiteosM.Lib.Word32 LiteosM.Lib.DlList

class StackConfig where
  /-- `OS_TASK_STACK_ADDR` -/
  osTaskStackAddr : Nat
  excHradwareStackProtection : Bool
  osTaskStackProtectSize : Nat
  stackPointAlignSize : Nat
  /-- What the port writes into a new stack: task, size, top. The result is the stack pointer. -/
  halTskStackInit : Memory → Nat → Nat → Nat → Memory × Nat

/-- The kernel, the memory, and what the control blocks say about the stacks. -/
structure CreateState where
  kernel : KernelState
  mem : Memory
  topOfStack : Nat → Nat
  stackSize : Nat → Nat
  stackPointer : Nat → Nat

variable [Config] [StackConfig]

/-- The block that the stack of a task is in. -/
def CreateState.stackPtr (s : CreateState) (taskCB : Nat) : Nat :=
  if StackConfig.excHradwareStackProtection then
    sub32 (s.topOfStack taskCB) StackConfig.osTaskStackProtectSize
  else s.topOfStack taskCB

def osRecyleLoop : Nat → CreateState → Option CreateState
  | 0, _ => none
  | fuel + 1, s =>
    if losListEmpty s.kernel .gTaskRecyleList then some s
    else do
      let taskCB ← osTcbFromPendList (losDlListFirst s.kernel .gTaskRecyleList)
      let k := losListDelete s.kernel (losDlListFirst s.kernel .gTaskRecyleList)
      let k := losListAdd k .gLosFreeTask (.pendList taskCB)
      let m := (losMemFree s.mem StackConfig.osTaskStackAddr (s.stackPtr taskCB)).1
      osRecyleLoop fuel
        { s with kernel := k, mem := m, topOfStack := Function.update s.topOfStack taskCB 0 }

def osRecyleFinishedTask (s : CreateState) : Option CreateState := osRecyleLoop (gTaskMaxNum + 1) s

/-- `uwStackSize` as `OsTaskInitParamCheck` leaves it. -/
def uwStackSize (p : TskInitParam) : Nat :=
  let stackSize := if p.uwStackSize = 0 then Config.tskDefaultStackSize else p.uwStackSize
  let align := Config.osTaskStackAddrAlign
  (stackSize + align - 1) / align * align

def stackRequest (stackSize : Nat) : Nat × Nat :=
  if StackConfig.excHradwareStackProtection then
    (add32 stackSize StackConfig.osTaskStackProtectSize, StackConfig.osTaskStackProtectSize)
  else (stackSize, StackConfig.stackPointAlignSize)

def stackAlloc (m : Memory) (stackSize : Nat) : Memory × Nat :=
  losMemAllocAlign m StackConfig.osTaskStackAddr (stackRequest stackSize).1 (stackRequest stackSize).2

/-- `topOfStack` as `LOS_TaskCreateOnly` computes it from the pointer. -/
def topOfStackOf (stackPtr : Nat) : Nat :=
  if StackConfig.excHradwareStackProtection then
    add32 stackPtr StackConfig.osTaskStackProtectSize
  else stackPtr

def osNewTaskInit (s : CreateState) (taskCB usTaskPrio stackSize topOfStack : Nat) : CreateState :=
  let r := StackConfig.halTskStackInit s.mem (s.kernel.gTaskCBArray taskCB).taskID stackSize topOfStack
  { kernel := Kernel.osNewTaskInit s.kernel taskCB usTaskPrio
    mem := r.1
    topOfStack := Function.update s.topOfStack taskCB topOfStack
    stackSize := Function.update s.stackSize taskCB stackSize
    stackPointer := Function.update s.stackPointer taskCB r.2 }

/-- `LOS_TaskCreateOnly` behind `OsRecyleFinishedTask`. -/
def createRecycled (s : CreateState) (p : TskInitParam) : Option (CreateState × Errno × Option Nat) := do
  if losListEmpty s.kernel .gLosFreeTask then some (s, .tskTcbUnavailable, none)
  else
    let taskCB ← osTcbFromPendList (losDlListFirst s.kernel .gLosFreeTask)
    let k := losListDelete s.kernel (losDlListFirst s.kernel .gLosFreeTask)
    let r := stackAlloc s.mem (uwStackSize p)
    let topOfStack := topOfStackOf r.2
    if topOfStack = 0 then
      some ({ s with kernel := losListAdd k .gLosFreeTask (.pendList taskCB), mem := r.1 }, .tskNoMemory, none)
    else
      let s := osNewTaskInit { s with kernel := k, mem := r.1 } taskCB p.usTaskPrio (uwStackSize p) topOfStack
      some (s, .losOk, some (s.kernel.gTaskCBArray taskCB).taskID)

def losTaskCreateOnly (s : CreateState) (taskID : Bool) (taskInitParam : Option TskInitParam) :
    Option (CreateState × Errno × Option Nat) :=
  if !taskID then some (s, .tskIdInvalid, none)
  else if osTaskInitParamCheck taskInitParam ≠ .losOk then
    some (s, osTaskInitParamCheck taskInitParam, none)
  else
    match taskInitParam with
    | none => none
    | some p => (osRecyleFinishedTask s).bind fun s => createRecycled s p

/-- What the build promises. The heap is the pool of `size` bytes, and it does not end where
addresses do. -/
structure StackConfigOk (size : Nat) : Prop where
  heap : Config.sysHeapSize ≤ size
  default : Config.tskDefaultStackSize ≤ size
  align : Config.osTaskStackAddrAlign = 8
  guard : 0 < StackConfig.osTaskStackProtectSize
  protect : StackConfig.osTaskStackAddr + size + 2 * StackConfig.osTaskStackProtectSize < 4294967296
  point : StackConfig.osTaskStackAddr + size + 2 * StackConfig.stackPointAlignSize < 4294967296
  frame : ∀ m t n top, Config.tskMinStackSize ≤ n → ∀ x, x < top ∨ top + n ≤ x →
    (StackConfig.halTskStackInit m t n top).1 x = m x

/-- The heap is well formed, and each finished task has a block of its own to give back. The
block may be missing when a failed allocation went unnoticed. -/
structure StacksOk (size : Nat) (s : CreateState) (v : Arena) : Prop where
  rep : Rep StackConfig.osTaskStackAddr size s.mem v []
  top : ∀ t, OnList s.kernel.links .gTaskRecyleList (.pendList t) → s.topOfStack t ≠ 0
  block : ∀ t, OnList s.kernel.links .gTaskRecyleList (.pendList t) → s.stackPtr t ≠ 0 →
    ∃ b ∈ v.blocks, b.owner = some (s.stackPtr t)
  apart : ∀ t u, OnList s.kernel.links .gTaskRecyleList (.pendList t) →
    OnList s.kernel.links .gTaskRecyleList (.pendList u) → s.stackPtr t = s.stackPtr u →
    s.stackPtr t ≠ 0 → t = u

/-- The stack of `t` is in a live block of the heap, with room for `n` bytes. -/
def StackLive (size : Nat) (s : CreateState) (t n : Nat) : Prop :=
  s.stackSize t = n ∧ ∃ v, Rep StackConfig.osTaskStackAddr size s.mem v [] ∧
    ∃ b ∈ v.blocks, b.owner = some (s.stackPtr t) ∧ s.stackPtr t ≤ s.topOfStack t ∧
      s.topOfStack t + n ≤ b.addr + b.size

/-- A successful call took `t` from the free list of `s` and left the other tasks alone. -/
structure Took (size n : Nat) (s s' : CreateState) (t : Nat) : Prop where
  was : OnList s.kernel.links .gLosFreeTask (.pendList t)
  gone : ¬OnList s'.kernel.links .gLosFreeTask (.pendList t)
  live : StackLive size s' t n
  others : ∀ u, u ≠ t → s'.kernel.gTaskCBArray u = s.kernel.gTaskCBArray u ∧
    s'.topOfStack u = s.topOfStack u ∧ s'.stackSize u = s.stackSize u ∧
    s'.stackPointer u = s.stackPointer u

/-- Neither the heap nor a task was changed; the free list may be in another order. -/
structure Untouched (s s' : CreateState) : Prop where
  mem : s'.mem = s.mem
  free : ∀ x, OnList s'.kernel.links .gLosFreeTask x ↔ OnList s.kernel.links .gLosFreeTask x
  tasks : s'.kernel.gTaskCBArray = s.kernel.gTaskCBArray
  top : s'.topOfStack = s.topOfStack
  size : s'.stackSize = s.stackSize
  pointer : s'.stackPointer = s.stackPointer

/-- There is a control block but no stack for it. -/
def StackDenied (s : CreateState) (n : Nat) : Prop :=
  losListEmpty s.kernel .gLosFreeTask = false ∧ (stackAlloc s.mem n).2 = 0

/-- The call started in `s`; behind the recycling it was in `s₁`. -/
structure FailureAtomic (size n : Nat) (s s₁ : CreateState) (r : CreateState × Errno × Option Nat) :
    Prop where
  ok : r.2.1 = .losOk → ∃ t, r.2.2 = some t ∧ Took size n s₁ r.1 t
  error : r.2.1 ≠ .losOk → r.2.2 = none ∧ Untouched s r.1
  denied : StackDenied s₁ n → r.2.1 = .tskNoMemory

/-- Either there is no control block, or the stack that is found has room, or none is found, which
the call can tell, and nothing was recycled. -/
def Recognised (s s₁ : CreateState) (n : Nat) : Prop :=
  losListEmpty s₁.kernel .gLosFreeTask = true ∨
  ((stackAlloc s₁.mem n).2 ≠ 0 ∧
    AlignFits s₁.mem StackConfig.osTaskStackAddr (stackRequest n).1 (stackRequest n).2) ∨
  ((stackAlloc s₁.mem n).2 = 0 ∧ StackConfig.excHradwareStackProtection = false ∧
    losListEmpty s.kernel .gTaskRecyleList = true)

/-! ### Recycling -/

/-- `StacksOk` for the finished tasks of a list. -/
structure Finished (size : Nat) (s : CreateState) (v : Arena) (l : List Node) : Prop where
  rep : Rep StackConfig.osTaskStackAddr size s.mem v []
  top : ∀ t, Node.pendList t ∈ l → s.topOfStack t ≠ 0
  block : ∀ t, Node.pendList t ∈ l → s.stackPtr t ≠ 0 → ∃ b ∈ v.blocks, b.owner = some (s.stackPtr t)
  apart : ∀ t u, Node.pendList t ∈ l → Node.pendList u ∈ l → s.stackPtr t = s.stackPtr u →
    s.stackPtr t ≠ 0 → t = u

section

variable {size n t : Nat} {s s' : CreateState} {V V' : View Node} {v : Arena} {l : List Node}

omit [Config] in
theorem stackPtr_of_ne (k : KernelState) (m : Memory) (f g : Nat → Nat) {u : Nat} (hu : u ≠ t) :
    CreateState.stackPtr ⟨k, m, Function.update s.topOfStack t n, f, g⟩ u = s.stackPtr u := by
  unfold CreateState.stackPtr
  dsimp only
  rw [Function.update_of_ne hu]

omit [Config] in
theorem Finished.freed (h : Finished size s v (.pendList t :: l)) (ht : Node.pendList t ∉ l)
    (k : KernelState) :
    ∃ v', Finished size
      { s with
        kernel := k
        mem := (losMemFree s.mem StackConfig.osTaskStackAddr (s.stackPtr t)).1
        topOfStack := Function.update s.topOfStack t 0 } v' l := by
  have hne : ∀ u, Node.pendList u ∈ l → u ≠ t := by
    rintro u hu rfl
    exact ht hu
  have hkeep : ∀ m v', Rep StackConfig.osTaskStackAddr size m v' [] →
      (∀ u, Node.pendList u ∈ l → s.stackPtr u ≠ 0 → ∃ b ∈ v'.blocks, b.owner = some (s.stackPtr u)) →
      Finished size { s with kernel := k, mem := m, topOfStack := Function.update s.topOfStack t 0 } v' l := by
    intro m v' hrep hblock
    refine ⟨hrep, fun u hu => ?_, fun u hu => ?_, fun u w hu hw => ?_⟩
    · show Function.update s.topOfStack t 0 u ≠ 0
      rw [Function.update_of_ne (hne u hu)]
      exact h.top u (List.mem_cons_of_mem _ hu)
    · rw [stackPtr_of_ne k m _ _ (hne u hu)]
      exact hblock u hu
    · rw [stackPtr_of_ne k m _ _ (hne u hu), stackPtr_of_ne k m _ _ (hne w hw)]
      exact h.apart u w (List.mem_cons_of_mem _ hu) (List.mem_cons_of_mem _ hw)
  by_cases h0 : s.stackPtr t = 0
  · have hnull : losMemFree s.mem StackConfig.osTaskStackAddr (s.stackPtr t) = (s.mem, losNok) := by
      unfold losMemFree
      rw [if_pos (Or.inr (Or.inl h0))]
    rw [hnull]
    exact ⟨v, hkeep s.mem v h.rep fun u hu => h.block u (List.mem_cons_of_mem _ hu)⟩
  · obtain ⟨b, hb, ho⟩ := h.block t List.mem_cons_self h0
    obtain ⟨hm, _⟩ | ⟨v', hf, _⟩ := losMemFree_spec h.rep (s.stackPtr t) hb ho
    · rw [hm]
      exact ⟨v, hkeep s.mem v h.rep fun u hu => h.block u (List.mem_cons_of_mem _ hu)⟩
    · refine ⟨v', hkeep _ v' hf.rep fun u hu hu0 => ?_⟩
      obtain ⟨c, hc, hco⟩ := h.block u (List.mem_cons_of_mem _ hu) hu0
      have happart : s.stackPtr u ≠ s.stackPtr t := fun he =>
        hne u hu (h.apart u t (List.mem_cons_of_mem _ hu) List.mem_cons_self he hu0)
      exact ⟨c, (hf.keeps.stay c hc _ hco happart).1, hco⟩

/-- What the recycling of the finished tasks does. -/
structure Recycled (s : CreateState) (V : View Node) (s' : CreateState) (V' : View Node) : Prop where
  inv : KernelInv s'.kernel V'
  tasks : s'.kernel.gTaskCBArray = s.kernel.gTaskCBArray
  free : V.content .gLosFreeTask ≠ [] → V'.content .gLosFreeTask ≠ []
  zero : ∀ t, s.topOfStack t = 0 → s'.topOfStack t = 0
  idle : V.content .gTaskRecyleList = [] → s' = s
  busy : V.content .gTaskRecyleList ≠ [] → V'.content .gLosFreeTask ≠ [] ∧
    ∃ t, s.topOfStack t ≠ 0 ∧ s'.topOfStack t = 0

theorem osRecyleLoop_recycled (fuel : Nat) : ∀ (s : CreateState) (V : View Node) (v : Arena),
    KernelInv s.kernel V → Finished size s v (V.content .gTaskRecyleList) →
    (V.content .gTaskRecyleList).length < fuel →
    ∃ s' V' v', osRecyleLoop fuel s = some s' ∧ Recycled s V s' V' ∧
      Rep StackConfig.osTaskStackAddr size s'.mem v' [] := by
  induction fuel with
  | zero => exact fun s V v _ _ h => absurd h (Nat.not_lt_zero _)
  | succ fuel ih =>
    intro s V v hi hfin hlen
    have hhead := hi.core.system .gTaskRecyleList (.inr (.inl rfl))
    unfold osRecyleLoop
    cases hcon : V.content .gTaskRecyleList with
    | nil =>
      rw [if_pos ((hi.core.ready.listEmpty_iff hhead).mpr hcon)]
      exact ⟨s, V, v, rfl, ⟨hi, rfl, id, fun _ h => h, fun _ => rfl, fun h => absurd hcon h⟩, hfin.rep⟩
    | cons y l =>
      have hne : ¬ losListEmpty s.kernel .gTaskRecyleList = true := by
        rw [hi.core.ready.listEmpty_iff hhead, hcon]
        exact List.cons_ne_nil _ _
      rw [if_neg hne]
      obtain ⟨t, ht, rfl⟩ := hi.core.mem_pendList (show y ∈ V.content .gTaskRecyleList by simp [hcon])
        (.inr (.inl rfl))
      have hfirst : losDlListFirst s.kernel .gTaskRecyleList = .pendList t :=
        hi.core.ready.forest.next_first hhead hcon
      rw [hfirst]
      simp only [osTcbFromPendList, Option.bind_eq_bind, Option.bind_some]
      obtain ⟨V1, hi1, hm1, _, hcon1, hrole1⟩ := refree_one hi (.inr rfl) hcon
      have hcon1 := hcon1 rfl
      have hfree1 : Node.pendList t ∈ V1.content .gLosFreeTask :=
        (hi1.core.ready.forest.mem _ _).mpr hrole1
      have hnd := hi.core.ready.forest.nodup .gTaskRecyleList
      rw [hcon] at hlen hfin hnd
      rw [List.length_cons] at hlen
      obtain ⟨v1, hfin1⟩ := hfin.freed (List.nodup_cons.mp hnd).1
        (losListAdd (losListDelete s.kernel (.pendList t)) .gLosFreeTask (.pendList t))
      rw [← hcon1] at hfin1 hlen
      obtain ⟨s', V', v', heq, hr, hrep⟩ := ih _ V1 v1 hi1 hfin1 (by omega)
      have hzero : ∀ u, s.topOfStack u = 0 → s'.topOfStack u = 0 := by
        intro u hu
        apply hr.zero
        by_cases hut : u = t
        · rw [hut]
          exact Function.update_self ..
        · exact (Function.update_of_ne hut ..).trans hu
      refine ⟨s', V', v', heq, ⟨hr.inv, hr.tasks, fun _ => hr.free (List.ne_nil_of_mem hfree1), hzero,
        fun h => absurd h (by rw [hcon]; exact List.cons_ne_nil _ _),
        fun _ => ⟨hr.free (List.ne_nil_of_mem hfree1), t, hfin.top t List.mem_cons_self,
          hr.zero t (Function.update_self ..)⟩⟩, hrep⟩

theorem osRecyleFinishedTask_recycled (hi : KernelInv s.kernel V) (hs : StacksOk size s v) :
    ∃ s' V' v', osRecyleFinishedTask s = some s' ∧ Recycled s V s' V' ∧
      Rep StackConfig.osTaskStackAddr size s'.mem v' [] := by
  have hlen : (V.content .gTaskRecyleList).length ≤ gTaskMaxNum :=
    hi.core.length_le Node.pendList fun y hy => hi.core.mem_pendList hy (.inr (.inl rfl))
  have hhead := hi.core.system .gTaskRecyleList (.inr (.inl rfl))
  have hon : ∀ x, x ∈ V.content .gTaskRecyleList → OnList s.kernel.links .gTaskRecyleList x :=
    fun x hx => onList_of_content hi.core.ready.forest hhead ((hi.core.ready.forest.mem _ _).mp hx)
  exact osRecyleLoop_recycled _ s V v hi ⟨hs.rep, fun t ht => hs.top t (hon _ ht),
    fun t ht => hs.block t (hon _ ht), fun t u ht hu => hs.apart t u (hon _ ht) (hon _ hu)⟩ (by omega)

/-! ### The request -/

omit [StackConfig] in
theorem osTaskInitParamCheck_size {p : TskInitParam} (hok : osTaskInitParamCheck (some p) = .losOk) :
    p.uwStackSize ≤ Config.sysHeapSize ∧ Config.tskMinStackSize ≤ uwStackSize p := by
  have heq : osTaskInitParamCheck (some p) =
      if p.pcName = none then .tskNameEmpty
      else if p.pfnTaskEntry = none then .tskEntryNull
      else if osTaskPriorityLowest < p.usTaskPrio then .tskPriorError
      else if p.usTaskPrio = osTaskPriorityLowest ∧ p.pfnTaskEntry ≠ some Config.osIdleTaskEntry then
        .tskPriorError
      else if Config.sysHeapSize < p.uwStackSize then .tskStkszTooLarge
      else if uwStackSize p < Config.tskMinStackSize then .tskStkszTooSmall else .losOk := rfl
  rw [heq] at hok
  split at hok
  · cases hok
  split at hok
  · cases hok
  split at hok
  · cases hok
  split at hok
  · cases hok
  split at hok
  · cases hok
  · rename_i hlarge
    split at hok
    · cases hok
    · rename_i hmin
      exact ⟨not_lt.mp hlarge, not_lt.mp hmin⟩

theorem uwStackSize_bounds (hc : StackConfigOk size) {p : TskInitParam}
    (hok : osTaskInitParamCheck (some p) = .losOk) : uwStackSize p ≤ size + 7 := by
  have hheap := hc.heap
  have hdefault := hc.default
  have hsize := (osTaskInitParamCheck_size hok).1
  unfold uwStackSize
  dsimp only
  rw [hc.align]
  split <;> omega

omit [Config] [StackConfig] in
theorem osMemAlign_inside {pool m : Nat} (hreq : AlignRequest n m) (r : Nat) (h4 : r % 4 = 0)
    (hr : r ≤ pool + size) (hend : pool + size + 2 * m < 4294967296) :
    r ≤ osMemAlign r m ∧ osMemAlign r m + 4 ≤ r + m := by
  have hround := round_up_bounds r m hreq.least hreq.word h4
  obtain ⟨k, hk, hbk⟩ := hreq.pow
  have heq : osMemAlign r m = (r + m - 1) / m * m := by
    rw [hbk] at hend ⊢
    exact osMemAlign_pow r k hk (by omega)
  rw [heq]
  exact ⟨hround.1, hround.2.1⟩

omit [Config] [StackConfig] in
theorem losMemAllocAlign_null {pool boundary : Nat} {m : Memory} (h : Rep pool size m v [])
    (hn : n < 4294967296) (hend : pool + size + 2 * boundary < 4294967296) :
    ((losMemAllocAlign m pool n boundary).2 = 0 → (losMemAllocAlign m pool n boundary).1 = m) ∧
      (losMemAllocAlign m pool n boundary).2 ≤ pool + size + boundary := by
  obtain ⟨hz, _⟩ | ⟨hreq, r, v', a, b, ht, heq⟩ := losMemAllocAlign_base h n boundary hn (by omega)
  · rw [hz]
    exact ⟨fun _ => rfl, Nat.zero_le _⟩
  · have hptr := ht.ptr
    have hba := b.aligned
    have hbr := b.room
    have hbb := ht.rep.layout.bounds b ht.mem
    have hround := osMemAlign_inside hreq r.2 (by omega) (show r.2 ≤ pool + size by omega) hend
    have hval : (losMemAllocAlign m pool n boundary).2 = osMemAlign r.2 boundary := by
      rw [heq]
      split
      · next hp => exact hp
      · rfl
    rw [hval]
    exact ⟨fun h0 => by omega, by omega⟩

/-- The request in numbers. -/
structure RequestOk (size n : Nat) : Prop where
  bytes : (stackRequest n).1 < 4294967296
  last : StackConfig.osTaskStackAddr + size + 2 * (stackRequest n).2 < 4294967296
  guard : ∀ r, r ≤ StackConfig.osTaskStackAddr + size + (stackRequest n).2 →
    r ≤ topOfStackOf r ∧ topOfStackOf r + n = r + (stackRequest n).1 ∧
      (topOfStackOf r = 0 ↔ r = 0 ∧ StackConfig.excHradwareStackProtection = false)
  back : ∀ r, r ≤ StackConfig.osTaskStackAddr + size + (stackRequest n).2 → ∀ s : CreateState, ∀ t,
    s.topOfStack t = topOfStackOf r → s.stackPtr t = r

theorem stackRequest_ok (hc : StackConfigOk size) (h : Rep StackConfig.osTaskStackAddr size s.mem v [])
    (hn : n ≤ size + 7) : RequestOk size n := by
  have hlimit := h.layout.region.limit
  have hguard := hc.guard
  have hprotect := hc.protect
  have hpoint := hc.point
  by_cases hp : StackConfig.excHradwareStackProtection = true
  · have hreq : stackRequest n =
        (n + StackConfig.osTaskStackProtectSize, StackConfig.osTaskStackProtectSize) := by
      unfold stackRequest
      rw [if_pos hp, add32_of_lt _ _ (by omega)]
    have htop : ∀ r, r ≤ StackConfig.osTaskStackAddr + size + StackConfig.osTaskStackProtectSize →
        topOfStackOf r = r + StackConfig.osTaskStackProtectSize := by
      intro r hr
      unfold topOfStackOf
      rw [if_pos hp, add32_of_lt _ _ (by omega)]
    constructor <;> rw [hreq]
    case bytes => show n + _ < _; omega
    case last => exact hprotect
    case guard =>
      intro r hr
      rw [htop r hr, hp]
      exact ⟨by omega, by show _ = r + (n + _); omega, by simp; omega⟩
    case back =>
      intro r hr s t heq
      rw [htop r hr] at heq
      unfold CreateState.stackPtr
      rw [if_pos hp, heq, sub32_of_le _ _ (by omega) (by have : r ≤ _ + size + _ := hr; omega)]
      omega
  · have hreq : stackRequest n = (n, StackConfig.stackPointAlignSize) := by
      unfold stackRequest
      rw [if_neg hp]
    have htop : ∀ r, topOfStackOf r = r := by
      intro r
      unfold topOfStackOf
      rw [if_neg hp]
    constructor <;> rw [hreq]
    case bytes => show n < _; omega
    case last => exact hpoint
    case guard =>
      intro r _
      rw [htop r]
      exact ⟨le_refl r, rfl, by simp [hp]⟩
    case back =>
      intro r _ s t heq
      rw [htop r] at heq
      unfold CreateState.stackPtr
      rw [if_neg hp, heq]

omit [Config] in
theorem RequestOk.null (hreq : RequestOk size n) {m : Memory}
    (h : Rep StackConfig.osTaskStackAddr size m v []) :
    ((stackAlloc m n).2 = 0 → (stackAlloc m n).1 = m) ∧
      (stackAlloc m n).2 ≤ StackConfig.osTaskStackAddr + size + (stackRequest n).2 :=
  losMemAllocAlign_null h hreq.bytes hreq.last

/-! ### The call behind the recycling -/

theorem losTaskCreateOnly_passed {p : TskInitParam} (hok : osTaskInitParamCheck (some p) = .losOk) :
    losTaskCreateOnly s true (some p) =
      (osRecyleFinishedTask s).bind fun s => createRecycled s p := by
  unfold losTaskCreateOnly
  rw [if_neg (by simp), if_neg (by simp [hok])]

theorem createRecycled_unavailable {p : TskInitParam}
    (hempty : losListEmpty s.kernel .gLosFreeTask = true) :
    createRecycled s p = some (s, .tskTcbUnavailable, none) := by
  unfold createRecycled
  rw [if_pos hempty]

theorem createRecycled_first (hi : KernelInv s.kernel V) (p : TskInitParam)
    (hfree : losListEmpty s.kernel .gLosFreeTask = false) :
    ∃ t l, V.content .gLosFreeTask = .pendList t :: l ∧ t < gTaskMaxNum ∧
      createRecycled s p =
        let k := losListDelete s.kernel (.pendList t)
        let r := stackAlloc s.mem (uwStackSize p)
        if topOfStackOf r.2 = 0 then
          some ({ s with kernel := losListAdd k .gLosFreeTask (.pendList t), mem := r.1 }, .tskNoMemory, none)
        else
          some (osNewTaskInit { s with kernel := k, mem := r.1 } t p.usTaskPrio (uwStackSize p)
            (topOfStackOf r.2), .losOk, some t) := by
  have hhead := hi.core.system .gLosFreeTask (.inl rfl)
  have hne : V.content .gLosFreeTask ≠ [] := by
    intro hnil
    rw [(hi.core.ready.listEmpty_iff hhead).mpr hnil] at hfree
    cases hfree
  obtain ⟨y, l, hcon⟩ := List.exists_cons_of_ne_nil hne
  obtain ⟨t, ht, rfl⟩ := hi.core.mem_pendList (show y ∈ V.content .gLosFreeTask by simp [hcon]) (.inl rfl)
  have hfirst : losDlListFirst s.kernel .gLosFreeTask = .pendList t :=
    hi.core.ready.forest.next_first hhead hcon
  have hid : ∀ st sz top, ((osNewTaskInit { s with
      kernel := losListDelete s.kernel (.pendList t)
      mem := (stackAlloc s.mem st).1 } t p.usTaskPrio sz top).kernel.gTaskCBArray t).taskID = t := by
    intro st sz top
    show ((Kernel.osNewTaskInit _ t p.usTaskPrio).gTaskCBArray t).taskID = t
    rw [osNewTaskInit_self]
    exact (hi.task t ht).id
  refine ⟨t, l, hcon, ht, ?_⟩
  unfold createRecycled
  rw [if_neg (by simp [hfree]), hfirst]
  simp only [osTcbFromPendList, Option.bind_eq_bind, Option.bind_some, hid]

omit [Config] [StackConfig] in
theorem onList_iff {st : Store Node} {h x : Node} (hf : Forest st V) (hh : V.role h = .head) :
    OnList st h x ↔ x ∈ V.content h :=
  ⟨fun hx => hx.mem_content hf hh, fun hx => onList_of_content hf hh ((hf.mem _ _).mp hx)⟩

omit [StackConfig] in
theorem freeTask_readded {k : KernelState} (hi : KernelInv k V)
    (hcon : V.content .gLosFreeTask = .pendList t :: l) (x : Node) :
    OnList (losListAdd (losListDelete k (.pendList t)) .gLosFreeTask (.pendList t)).links
      .gLosFreeTask x ↔ OnList k.links .gLosFreeTask x := by
  have hhead := hi.core.system .gLosFreeTask (.inl rfl)
  have hf := hi.core.ready.forest
  have hrole : V.role (.pendList t) = .member .gLosFreeTask := (hf.mem _ _).mp (by simp [hcon])
  have hhead' : (V.remove (.pendList t)).role .gLosFreeTask = .head := by simpa using hhead
  have hloose : (V.remove (.pendList t)).role (.pendList t) = .loose := by simp
  have hf' := (hf.listDelete .null hrole).listAdd hhead' hloose
  refine (onList_iff hf' (by simpa using hhead)).trans (Iff.trans ?_ (onList_iff hf hhead).symm)
  rw [View.put_content, if_pos rfl, View.remove_content, hcon, List.erase_cons_head]

omit [StackConfig] in
theorem freeTask_taken {k : KernelState} (hi : KernelInv k V)
    (hcon : V.content .gLosFreeTask = .pendList t :: l) :
    OnList k.links .gLosFreeTask (.pendList t) ∧
      ¬OnList (losListDelete k (.pendList t)).links .gLosFreeTask (.pendList t) := by
  have hhead := hi.core.system .gLosFreeTask (.inl rfl)
  have hf := hi.core.ready.forest
  have hmem : Node.pendList t ∈ V.content .gLosFreeTask := by simp [hcon]
  have hf' := hf.listDelete .null ((hf.mem _ _).mp hmem)
  refine ⟨(onList_iff hf hhead).mpr hmem, fun hon => ?_⟩
  have hgone := (onList_iff hf' (by simpa using hhead)).mp hon
  rw [View.remove_content] at hgone
  exact (hf.nodup _).not_mem_erase hgone

theorem createRecycled_denied (hc : StackConfigOk size) (hi : KernelInv s.kernel V)
    (h : Rep StackConfig.osTaskStackAddr size s.mem v []) {p : TskInitParam}
    (hn : uwStackSize p ≤ size + 7) (hfree : losListEmpty s.kernel .gLosFreeTask = false)
    (hnull : (stackAlloc s.mem (uwStackSize p)).2 = 0)
    (hoff : StackConfig.excHradwareStackProtection = false) :
    ∃ s', createRecycled s p = some (s', .tskNoMemory, none) ∧ Untouched s s' := by
  obtain ⟨t, l, hcon, _, heq⟩ := createRecycled_first hi p hfree
  have hreq := stackRequest_ok hc h hn
  have hmem := (hreq.null h).1 hnull
  have htop : topOfStackOf (stackAlloc s.mem (uwStackSize p)).2 = 0 := by
    rw [hnull]
    exact (hreq.guard 0 (Nat.zero_le _)).2.2.mpr ⟨rfl, hoff⟩
  rw [heq]
  dsimp only
  rw [if_pos htop]
  exact ⟨_, rfl, hmem, freeTask_readded hi hcon, rfl, rfl, rfl, rfl⟩

theorem createRecycled_ok (hc : StackConfigOk size) (hi : KernelInv s.kernel V)
    (h : Rep StackConfig.osTaskStackAddr size s.mem v []) {p : TskInitParam}
    (hn : uwStackSize p ≤ size + 7) (hfree : losListEmpty s.kernel .gLosFreeTask = false)
    (hpass : (stackAlloc s.mem (uwStackSize p)).2 ≠ 0 ∨
      StackConfig.excHradwareStackProtection = true) :
    ∃ t l, V.content .gLosFreeTask = .pendList t :: l ∧ createRecycled s p =
      some (osNewTaskInit
        { s with
          kernel := losListDelete s.kernel (.pendList t)
          mem := (stackAlloc s.mem (uwStackSize p)).1 } t p.usTaskPrio (uwStackSize p)
        (topOfStackOf (stackAlloc s.mem (uwStackSize p)).2), .losOk, some t) := by
  obtain ⟨t, l, hcon, _, heq⟩ := createRecycled_first hi p hfree
  have hreq := stackRequest_ok hc h hn
  have hle := (hreq.null h).2
  have htop : topOfStackOf (stackAlloc s.mem (uwStackSize p)).2 ≠ 0 := by
    rw [Ne, (hreq.guard _ hle).2.2]
    rintro ⟨h0, hoff⟩
    obtain hne | hon := hpass
    · exact hne h0
    · rw [hon] at hoff
      cases hoff
  refine ⟨t, l, hcon, heq.trans ?_⟩
  dsimp only
  rw [if_neg htop]

theorem createRecycled_live (hc : StackConfigOk size) (hend : StackConfig.osTaskStackAddr + size < 4294967296)
    {m : Memory} (h : Rep StackConfig.osTaskStackAddr size m v []) (hreq : RequestOk size n)
    (hmin : Config.tskMinStackSize ≤ n) (hne : (stackAlloc m n).2 ≠ 0)
    (hfits : AlignFits m StackConfig.osTaskStackAddr (stackRequest n).1 (stackRequest n).2)
    (s' : CreateState) (task : Nat) (hsize : s'.stackSize t = n)
    (htop : s'.topOfStack t = topOfStackOf (stackAlloc m n).2)
    (hmem : s'.mem = (StackConfig.halTskStackInit (stackAlloc m n).1 task n
      (topOfStackOf (stackAlloc m n).2)).1) : StackLive size s' t n := by
  have hle := (hreq.null h).2
  have hlast := hreq.last
  have hbase := losMemAllocAlign_base h (stackRequest n).1 (stackRequest n).2 hreq.bytes (by omega)
  obtain ⟨hz, _⟩ | ⟨halign, _⟩ := hbase
  · exfalso
    apply hne
    unfold stackAlloc
    rw [hz]
  obtain ⟨v', b, hptr⟩ := losMemAllocAlign_sound h hend (stackRequest n).1 (stackRequest n).2 hreq.bytes
    (by omega) halign hfits hne
  have hrep : Rep StackConfig.osTaskStackAddr size (stackAlloc m n).1 v' [] := hptr.rep
  have hown : b.owner = some (stackAlloc m n).2 := hptr.owner
  have hinside : b.addr + 8 ≤ (stackAlloc m n).2 ∧
      (stackAlloc m n).2 + (stackRequest n).1 ≤ b.addr + b.size := hptr.inside
  obtain ⟨hguard, hsum, _⟩ := hreq.guard _ hle
  have hback := hreq.back _ hle s' t htop
  generalize (stackAlloc m n).1 = m₁ at hrep hmem
  generalize (stackAlloc m n).2 = r at hown hinside hguard hsum hback hmem htop
  have hin := b.inside r hown
  have hba := b.aligned
  have hbw := b.whole
  have htouch : Touches (fun a => r ≤ a ∧ a < b.addr + b.size) m₁ s'.mem := by
    intro x hx
    rw [hmem]
    apply hc.frame _ _ _ _ hmin
    omega
  refine ⟨hsize, v', (hrep.write_payload hptr.mem r hown htouch fun a ha => ha).1, b, hptr.mem, ?_, ?_, ?_⟩
  · rw [hback]
    exact hown
  · rw [hback, htop]
    exact hguard
  · rw [htop, hsum]
    exact hinside.2

/-- A stack without room is not live: the words in front of it still lead to the block. -/
theorem createRecycled_short (hc : StackConfigOk size) {m : Memory}
    (h : Rep StackConfig.osTaskStackAddr size m v []) (hreq : RequestOk size n)
    (hmin : Config.tskMinStackSize ≤ n) (hne : (stackAlloc m n).2 ≠ 0)
    (hshort : ¬AlignFits m StackConfig.osTaskStackAddr (stackRequest n).1 (stackRequest n).2)
    (s' : CreateState) (task : Nat) (htop : s'.topOfStack t = topOfStackOf (stackAlloc m n).2)
    (hmem : s'.mem = (StackConfig.halTskStackInit (stackAlloc m n).1 task n
      (topOfStackOf (stackAlloc m n).2)).1) : ¬StackLive size s' t n := by
  rintro ⟨_, v₂, hrep, c, hcm, hown, _, hroom⟩
  have hle := (hreq.null h).2
  have hlast := hreq.last
  obtain ⟨hz, _⟩ | ⟨halign, r, v', a, b, ht, heq⟩ := losMemAllocAlign_base h (stackRequest n).1
    (stackRequest n).2 hreq.bytes (by omega)
  · apply hne
    unfold stackAlloc
    rw [hz]
  obtain ⟨hguard, hsum, _⟩ := hreq.guard _ hle
  have hback := hreq.back _ hle s' t htop
  have hnot := (alignFits_taken h ht).not.mp hshort
  rw [not_or] at hnot
  obtain ⟨hptr, hreal, hword⟩ := losMemAllocAlign_head _ _ halign ht heq hnot.1
  change (stackAlloc m n).2 = _ at hptr
  change osGetRealPtr (stackAlloc m n).1 _ (stackAlloc m n).2 = _ at hreal
  change osMemNodeGetSize (sizeAndFlag (stackAlloc m n).1 b.addr) = _ at hword
  have hrb := ht.ptr
  have hba := b.aligned
  have hbr := b.room
  have hbb := ht.rep.layout.bounds b ht.mem
  have hbase := osMemAlign_inside halign r.2 (by omega)
    (show r.2 ≤ StackConfig.osTaskStackAddr + size by omega) hlast
  rw [← hptr] at hnot hbase
  generalize (stackAlloc m n).1 = m₁ at hmem hreal hword
  generalize (stackAlloc m n).2 = q at hmem hreal htop hnot hbase hguard hsum hback hle
  have hsame : ∀ x, x < q → s'.mem x = m₁ x := by
    intro x hx
    rw [hmem]
    exact hc.frame _ _ _ _ hmin x (Or.inl (by omega))
  have hload : ∀ x, x + 4 ≤ q → load32 s'.mem x = load32 m₁ x := fun x hx =>
    load32_congr _ _ x fun y _ hy => hsame y (by omega)
  have hgap : sub32 q 4 = q - 4 := sub32_of_le q 4 (by omega) (by omega)
  have hreal' : osGetRealPtr s'.mem StackConfig.osTaskStackAddr q = b.addr + 8 := by
    rw [← hreal]
    unfold osGetRealPtr
    rw [hgap, hload (q - 4) (by omega)]
  rw [hback] at hown
  have hca := (osGetRealPtr_owned hrep q hcm hown).symm.trans hreal'
  have hcs : c.size = b.size := by
    refine (hrep.node_flags hcm).1.symm.trans (Eq.trans ?_ hword)
    rw [show c.addr = b.addr by omega]
    unfold sizeAndFlag
    rw [hload (b.addr + 4) (by omega)]
  have hcut := ht.size_le
  have haddr := ht.addr
  rw [htop, hsum] at hroom
  omega

theorem createRecycled_took (hc : StackConfigOk size) (hi : KernelInv s.kernel V)
    (h : Rep StackConfig.osTaskStackAddr size s.mem v []) {p : TskInitParam}
    (hok : osTaskInitParamCheck (some p) = .losOk) (hfree : losListEmpty s.kernel .gLosFreeTask = false)
    (hne : (stackAlloc s.mem (uwStackSize p)).2 ≠ 0) :
    ∃ s' t, createRecycled s p = some (s', .losOk, some t) ∧
      (Took size (uwStackSize p) s s' t ↔ AlignFits s.mem StackConfig.osTaskStackAddr
        (stackRequest (uwStackSize p)).1 (stackRequest (uwStackSize p)).2) := by
  have hn := uwStackSize_bounds hc hok
  have hmin := (osTaskInitParamCheck_size hok).2
  have hreq := stackRequest_ok hc h hn
  have hend : StackConfig.osTaskStackAddr + size < 4294967296 :=
    lt_of_le_of_lt (Nat.le_add_right _ _) hc.protect
  obtain ⟨t, l, hcon, heq⟩ := createRecycled_ok hc hi h hn hfree (Or.inl hne)
  obtain ⟨hwas, hgone⟩ := freeTask_taken hi hcon
  refine ⟨_, t, heq, fun htook => ?_, fun hfits => ⟨hwas, hgone, ?_, fun u hu => ⟨?_, ?_, ?_, ?_⟩⟩⟩
  · by_contra hshort
    exact createRecycled_short hc h hreq hmin hne hshort _ _ (Function.update_self ..) rfl htook.live
  · exact createRecycled_live hc hend h hreq hmin hne hfits _ _ (Function.update_self ..)
      (Function.update_self ..) rfl
  · exact Function.update_of_ne hu ..
  · exact Function.update_of_ne hu ..
  · exact Function.update_of_ne hu ..
  · exact Function.update_of_ne hu ..

end

variable {size : Nat} {s : CreateState} {V : View Node} {v : Arena}

/-- `LOS_TaskCreateOnly` is failure-atomic exactly when it can tell what became of its stack
and had no finished task to recycle before a refusal. -/
theorem losTaskCreateOnly_atomic (hc : StackConfigOk size) (hi : KernelInv s.kernel V)
    (hs : StacksOk size s v) (p : TskInitParam) (hok : osTaskInitParamCheck (some p) = .losOk) :
    ∃ s₁ r, osRecyleFinishedTask s = some s₁ ∧ losTaskCreateOnly s true (some p) = some r ∧
      (FailureAtomic size (uwStackSize p) s s₁ r ↔ Recognised s s₁ (uwStackSize p)) := by
  obtain ⟨s₁, V₁, v₁, hrec, hr, hrep⟩ := osRecyleFinishedTask_recycled hi hs
  have hcall : losTaskCreateOnly s true (some p) = createRecycled s₁ p := by
    rw [losTaskCreateOnly_passed hok, hrec, Option.bind_some]
  have hn := uwStackSize_bounds hc hok
  have hlist := hi.core.ready.listEmpty_iff (hi.core.system .gTaskRecyleList (.inr (.inl rfl)))
  have hidle : losListEmpty s.kernel .gTaskRecyleList = true → s₁ = s := fun h =>
    hr.idle (hlist.mp h)
  rw [hcall]
  cases hfree : losListEmpty s₁.kernel .gLosFreeTask with
  | true =>
    have hnil := (hr.inv.core.ready.listEmpty_iff (hr.inv.core.system .gLosFreeTask (.inl rfl))).mp hfree
    have hsame : s₁ = s := by
      apply hr.idle
      by_contra hbusy
      exact (hr.busy hbusy).1 hnil
    rw [hsame] at hfree ⊢
    refine ⟨s, _, by rw [hrec, hsame], createRecycled_unavailable hfree, fun _ => Or.inl hfree, fun _ => ?_⟩
    refine ⟨nofun, fun _ => ⟨rfl, rfl, fun _ => Iff.rfl, rfl, rfl, rfl, rfl⟩, fun h => ?_⟩
    rw [h.1] at hfree
    cases hfree
  | false =>
    by_cases hnull : (stackAlloc s₁.mem (uwStackSize p)).2 = 0
    · by_cases hon : StackConfig.excHradwareStackProtection = true
      · obtain ⟨t, l, _, heq⟩ := createRecycled_ok hc hr.inv hrep hn hfree (Or.inr hon)
        refine ⟨s₁, _, hrec, heq, fun ha => ?_, fun hr => ?_⟩
        · have hret := ha.denied ⟨hfree, hnull⟩
          cases hret
        · rcases hr with h | ⟨h, _⟩ | ⟨_, h, _⟩
          · rw [h] at hfree
            cases hfree
          · exact absurd hnull h
          · rw [h] at hon
            cases hon
      · rw [Bool.not_eq_true] at hon
        obtain ⟨s', heq, hsame⟩ := createRecycled_denied hc hr.inv hrep hn hfree hnull hon
        refine ⟨s₁, _, hrec, heq, fun ha => ?_, fun hr => ?_⟩
        · refine Or.inr (Or.inr ⟨hnull, hon, ?_⟩)
          rw [hlist]
          by_contra hbusy
          obtain ⟨_, t, hwas, hnow⟩ := hr.busy hbusy
          have hunt := (ha.error nofun).2
          apply hwas
          rw [← hunt.top, hsame.top, hnow]
        · rcases hr with h | ⟨h, _⟩ | ⟨_, _, h⟩
          · rw [h] at hfree
            cases hfree
          · exact absurd hnull h
          · rw [hidle h] at hsame
            exact ⟨nofun, fun _ => ⟨rfl, hsame⟩, fun _ => rfl⟩
    · obtain ⟨s', t, heq, htook⟩ := createRecycled_took hc hr.inv hrep hok hfree hnull
      refine ⟨s₁, _, hrec, heq, fun ha => ?_, fun hr => ?_⟩
      · obtain ⟨u, hu, hlive⟩ := ha.ok rfl
        cases hu
        exact Or.inr (Or.inl ⟨hnull, htook.mp hlive⟩)
      · rcases hr with h | ⟨_, h⟩ | ⟨h, _⟩
        · rw [h] at hfree
          cases hfree
        · exact ⟨fun _ => ⟨t, rfl, htook.mpr h⟩, fun h => absurd rfl h, fun h => absurd h.2 hnull⟩
        · exact absurd h hnull

/-- The first pool as the heap of the small system. -/
@[reducible]
def smallStackConfig (excHradwareStackProtection : Bool) : StackConfig where
  osTaskStackAddr := 4096
  excHradwareStackProtection := excHradwareStackProtection
  osTaskStackProtectSize := 32
  stackPointAlignSize := 8
  halTskStackInit m _ stackSize topStack := (fillBytes m topStack 202 stackSize, topStack + stackSize - 16)

def smallCreate : CreateState where
  kernel := smallKernel
  mem := firstPool.mem
  topOfStack _ := 0
  stackSize _ := 0
  stackPointer _ := 0

def largeParam : TskInitParam :=
  { pfnTaskEntry := some 7, usTaskPrio := 10, uwStackSize := 128, pcName := some "task" }

omit [Config] [StackConfig] in
theorem smallStackConfig_ok (on : Bool) : @StackConfigOk smallConfig (smallStackConfig on) 1024 := by
  let := smallConfig
  let := smallStackConfig on
  refine ⟨?_, ?_, rfl, ?_, ?_, ?_, fun m _ n top _ x hx => fillBytes_outside m top 202 n x hx⟩
  · show 1024 ≤ 1024
    omega
  · show 64 ≤ 1024
    omega
  · show 0 < 32
    omega
  · show 4096 + 1024 + 2 * 32 < 4294967296
    omega
  · show 4096 + 1024 + 2 * 8 < 4294967296
    omega

omit [Config] [StackConfig] in
theorem smallCreate_recyle : losListEmpty smallCreate.kernel .gTaskRecyleList = true := by
  decide +kernel

omit [Config] [StackConfig] in
theorem smallCreate_free : losListEmpty smallCreate.kernel .gLosFreeTask = false := by
  decide +kernel

omit [Config] [StackConfig] in
theorem smallCreate_ok (on : Bool) :
    ∃ V v, @KernelInv smallConfig smallCreate.kernel V ∧
      @StacksOk (smallStackConfig on) 1024 smallCreate v ∧ ∀ b ∈ v.blocks, b.owner = none := by
  let := smallConfig
  let := smallStackConfig on
  obtain ⟨V, hm, -⟩ := booted_machine (by decide) smallKernel_booted
  obtain ⟨v, hv, hfree⟩ := losMemInit_rep 1 zeroState firstPool (by omega) (by omega) (by omega)
    (fun q hq => (zeroState_registered q hq).elim) losMemInit_firstPool
  have hi : KernelInv smallCreate.kernel V := hm.inv
  have hhead := hi.core.system .gTaskRecyleList (.inr (.inl rfl))
  have hnil := (hi.core.ready.listEmpty_iff hhead).mp smallCreate_recyle
  have hnone : ∀ x, ¬OnList smallCreate.kernel.links .gTaskRecyleList x := by
    intro x hx
    have hmem := hx.mem_content hi.core.ready.forest hhead
    rw [hnil] at hmem
    cases hmem
  exact ⟨V, v, hi, ⟨hv, fun t ht => (hnone _ ht).elim, fun t ht => (hnone _ ht).elim,
    fun t _ ht => (hnone _ ht).elim⟩, hfree⟩

omit [Config] [StackConfig] in
theorem smallCreate_denied (on : Bool) : (@stackAlloc (smallStackConfig on) smallCreate.mem 128).2 = 0 := by
  let := smallStackConfig on
  obtain ⟨_, v, _, hs, _⟩ := smallCreate_ok on
  have hrep : Rep 4096 1024 smallCreate.mem v [] := hs.rep
  have hnone : ∀ n boundary, 128 ≤ n → n < 4294967296 → 4 ≤ boundary → boundary < 4294967296 →
      (losMemAllocAlign smallCreate.mem 4096 n boundary).2 = 0 := by
    intro n boundary h128 hn h4 hbd
    obtain ⟨hz, _⟩ | ⟨_, r, v', a, b, ht, _⟩ := losMemAllocAlign_base hrep n boundary hn hbd
    · rw [hz]
    · have hge := ht.fits (Or.inr (by omega))
      have hbds := allocSizeOf_bounds (max n 8 + boundary - 4)
      have hin := hrep.layout.bounds a ht.was
      omega
  cases on with
  | false => exact hnone 128 8 (by omega) (by omega) (by omega) (by omega)
  | true =>
    have hreq : @stackRequest (smallStackConfig true) 128 = (160, 32) := by decide +kernel
    unfold stackAlloc
    rw [hreq]
    exact hnone 160 32 (by omega) (by omega) (by omega) (by omega)

omit [Config] [StackConfig] in
/-- Without stack protection the refusal leaves everything as it was. -/
theorem losTaskCreateOnly_atomic_small :
    letI := smallConfig
    letI := smallStackConfig false
    ∃ s₁ r, losTaskCreateOnly smallCreate true (some largeParam) = some r ∧
      FailureAtomic 1024 128 smallCreate s₁ r := by
  let := smallConfig
  let := smallStackConfig false
  obtain ⟨V, v, hi, hs, _⟩ := smallCreate_ok false
  obtain ⟨s₁, r, hrec, hcall, hiff⟩ :=
    losTaskCreateOnly_atomic (smallStackConfig_ok false) hi hs largeParam (by decide)
  have hsame : osRecyleFinishedTask smallCreate = some smallCreate := by
    unfold osRecyleFinishedTask osRecyleLoop
    rw [if_pos smallCreate_recyle]
  rw [hsame] at hrec
  cases hrec
  exact ⟨_, r, hcall, hiff.mpr (Or.inr (Or.inr ⟨smallCreate_denied false, rfl, smallCreate_recyle⟩))⟩

omit [Config] [StackConfig] in
/-- With it the task is made, and its stack is behind address 32. -/
theorem losTaskCreateOnly_unnoticed :
    letI := smallConfig
    letI := smallStackConfig true
    osTaskInitParamCheck (some largeParam) = .losOk ∧
    osRecyleFinishedTask smallCreate = some smallCreate ∧ StackDenied smallCreate 128 ∧
    ∃ s' t, losTaskCreateOnly smallCreate true (some largeParam) = some (s', .losOk, some t) ∧
      s'.topOfStack t = 32 ∧ ¬FailureAtomic 1024 128 smallCreate smallCreate (s', .losOk, some t) := by
  let := smallConfig
  let := smallStackConfig true
  obtain ⟨V, v, hi, hs, _⟩ := smallCreate_ok true
  have hsame : osRecyleFinishedTask smallCreate = some smallCreate := by
    unfold osRecyleFinishedTask osRecyleLoop
    rw [if_pos smallCreate_recyle]
  have hdenied : StackDenied smallCreate 128 := ⟨smallCreate_free, smallCreate_denied true⟩
  obtain ⟨t, l, _, heq⟩ := createRecycled_ok (smallStackConfig_ok true) hi hs.rep
    (p := largeParam) (by decide) smallCreate_free (Or.inr rfl)
  have htop : topOfStackOf (stackAlloc smallCreate.mem 128).2 = 32 := by
    rw [smallCreate_denied true]
    decide +kernel
  obtain ⟨s', hs', hmade⟩ : ∃ s', createRecycled smallCreate largeParam = some (s', .losOk, some t) ∧
      s'.topOfStack t = 32 := ⟨_, heq, (Function.update_self ..).trans htop⟩
  have hparam : osTaskInitParamCheck (some largeParam) = .losOk := by decide
  refine ⟨hparam, hsame, hdenied, s', t, ?_, hmade, fun ha => ?_⟩
  · rw [losTaskCreateOnly_passed hparam, hsame, Option.bind_some]
    exact hs'
  · have hret := ha.denied hdenied
    cases hret

end LiteosM.TaskCreate
