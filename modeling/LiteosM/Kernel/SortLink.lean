import LiteosM.Kernel.Places
import LiteosM.Lib.SortedList

/-!
# The sort link

Tasks with a timeout are on one list in the order of their response times. Adding keeps
the order, and the scan of a tick takes the expired ones from the front.
-/

namespace LiteosM.Kernel

open LiteosM.Lib.DlList LiteosM.Lib.SortedList LiteosM.Lib.Transition

def nodeTime (k : KernelState) : Node → WithTop Nat
  | .sortLinkNode t => (k.gTaskCBArray t).responseTime
  | _ => ⊤

@[simp]
theorem nodeTime_sortLinkNode (k : KernelState) (t : Nat) :
    nodeTime k (.sortLinkNode t) = (k.gTaskCBArray t).responseTime := rfl

inductive SortLinkOp
  | add (taskCB startTime waitTicks : Nat)
  | delete (taskCB : Nat)

variable [Config]

/-- A task that has been created is added when it is not linked, or taken off. -/
inductive SortLinkStep (k : KernelState) : SortLinkOp → KernelState → Prop
  | add (taskCB startTime waitTicks : Nat) {k' : KernelState} (ht : taskCB < gTaskMaxNum)
      (hlive : (k.gTaskCBArray taskCB).taskStatus.unused = false)
      (hnot : ¬OnList k.links .gTaskSortLink (.sortLinkNode taskCB))
      (heq : osAdd2SortLink k taskCB startTime waitTicks = some k') :
      SortLinkStep k (.add taskCB startTime waitTicks) k'
  | delete (taskCB : Nat) (ht : taskCB < gTaskMaxNum)
      (hlive : (k.gTaskCBArray taskCB).taskStatus.unused = false) :
      SortLinkStep k (.delete taskCB) (osDeleteSortLink k taskCB)

structure SortLinkInv (k : KernelState) (V : View Node) : Prop where
  core : Core k V
  sorted : (V.content .gTaskSortLink).Pairwise fun x y => nodeTime k x ≤ nodeTime k y
  once : (V.content .gTaskSortLink).Nodup
  node : ∀ t < gTaskMaxNum, (k.gTaskCBArray t).taskStatus.unused = false →
    ((k.gTaskCBArray t).responseTime = ⊤ ↔ V.role (.sortLinkNode t) = .loose) ∧
    (V.role (.sortLinkNode t) = .loose ∨ V.role (.sortLinkNode t) = .member .gTaskSortLink)

/-- What a scan at the time `now` has done, with the tasks `due` that it took off. -/
structure ScanResult (now : Nat) (k : KernelState) (V : View Node) (k' : KernelState)
    (V' : View Node) (b : Bool) (due : List Nat) : Prop where
  rounds : due.foldlM scanRound (k, false) = some (k', b)
  content : V.content .gTaskSortLink = due.map .sortLinkNode ++ V'.content .gTaskSortLink
  once : due.Nodup
  exact : ∀ t, .sortLinkNode t ∈ V.content .gTaskSortLink →
    (t ∈ due ↔ (k.gTaskCBArray t).responseTime ≤ (now : WithTop Nat))
  status : ∀ t ∈ due, (k'.gTaskCBArray t).taskStatus =
    if (k.gTaskCBArray t).taskStatus.suspend then expired (k.gTaskCBArray t).taskStatus
    else readied (expired (k.gTaskCBArray t).taskStatus)
  place : ∀ t ∈ due, V'.role (.pendList t) =
    if (k.gTaskCBArray t).taskStatus.suspend then .loose
    else .member (.gPriQueueList (k.gTaskCBArray t).priority)
  others : ∀ t < gTaskMaxNum, t ∉ due → k'.gTaskCBArray t = k.gTaskCBArray t ∧
    V'.role (.pendList t) = V.role (.pendList t) ∧
    V'.role (.sortLinkNode t) = V.role (.sortLinkNode t)
  need : b = due.any fun t => !(k.gTaskCBArray t).taskStatus.suspend

section
variable {k k' : KernelState} {V V' : View Node} {t : Nat}

theorem SortLinkInv.linked_iff (h : SortLinkInv k V) :
    OnList k.links .gTaskSortLink (.sortLinkNode t) ↔
      V.role (.sortLinkNode t) = .member .gTaskSortLink := by
  have hf := h.core.ready.forest
  have hhead := h.core.system .gTaskSortLink (.inr (.inr rfl))
  constructor
  · intro hon
    exact (hf.mem _ _).mp (hon.mem_content hf hhead)
  · exact onList_of_content hf hhead

theorem SortLinkInv.loose (h : SortLinkInv k V) (ht : t < gTaskMaxNum)
    (hlive : (k.gTaskCBArray t).taskStatus.unused = false)
    (hnot : ¬OnList k.links .gTaskSortLink (.sortLinkNode t)) :
    V.role (.sortLinkNode t) = .loose :=
  (h.node t ht hlive).2.resolve_right fun hmem => hnot (h.linked_iff.mpr hmem)

theorem osAdd2SortLink_inv (h : SortLinkInv k V) (ht : t < gTaskMaxNum)
    (hlive : (k.gTaskCBArray t).taskStatus.unused = false)
    (hnot : ¬OnList k.links .gTaskSortLink (.sortLinkNode t)) (startTime waitTicks : Nat) :
    ∃ k' V', osAdd2SortLink k t startTime waitTicks = some k' ∧ SortLinkInv k' V' ∧
      ∃ a b, V.content .gTaskSortLink = a ++ b ∧
        V'.content .gTaskSortLink = a ++ .sortLinkNode t :: b := by
  have hx := h.loose ht hlive hnot
  have hf := h.core.ready.forest
  unfold osAdd2SortLink
  obtain ⟨k₁, hk₁⟩ : ∃ k₁, k₁ = k.modifyTask t fun cb => { cb with
    responseTime := ((startTime + waitTicks * Config.osCyclePerTick : Nat) : WithTop Nat) } := ⟨_, rfl⟩
  have hc₁ : Core k₁ V := by
    rw [hk₁]
    exact h.core.modifyTask t _
  have hself : (k₁.gTaskCBArray t).responseTime ≠ ⊤ := by
    rw [hk₁, modifyTask_self]
    exact WithTop.coe_ne_top
  have hlive₁ : (k₁.gTaskCBArray t).taskStatus.unused = false := by
    rw [hk₁, modifyTask_self]
    exact hlive
  have hother : ∀ u, u ≠ t → k₁.gTaskCBArray u = k.gTaskCBArray u := by
    intro u hu
    rw [hk₁]
    exact Function.update_of_ne hu _ _
  dsimp only
  rw [← hk₁]
  obtain ⟨k', V', heq, hc', hm', hcb', -, hsl', a, b, hab, hplace, hcon'⟩ :=
    osAddNode2SortLink_spec hc₁ ht hx
  refine ⟨k', V', heq, ⟨hc', ?_, hc'.ready.forest.nodup _, fun u hu hul => ?_⟩, a, b, hab, hcon'⟩
  · have hnode : ∀ y ∈ a ++ b, ∃ u, u ≠ t ∧ y = .sortLinkNode u := by
      intro y hy
      rw [← hab] at hy
      obtain ⟨u, _, rfl⟩ := h.core.mem_sortLink hy
      refine ⟨u, fun heq => ?_, rfl⟩
      rw [hf.mem, heq, hx] at hy
      cases hy
    have hsorted := h.sorted
    rw [hab] at hsorted
    rw [hcon']
    refine @pairwise_insert _ (fun x y => nodeTime k' x ≤ nodeTime k' y) _ _ _
      (fun _ _ _ => le_trans) ?_ ?_ ?_
    · apply hsorted.imp_of_mem
      intro x y hxin hyin hle
      obtain ⟨u, hu, rfl⟩ := hnode x hxin
      obtain ⟨v, hv, rfl⟩ := hnode y hyin
      rw [nodeTime_sortLinkNode, nodeTime_sortLinkNode] at hle ⊢
      rw [hcb', hother u hu, hother v hv]
      exact hle
    · intro y l hl
      obtain ⟨u, _, rfl⟩ := hnode y (by simp [hl])
      rw [nodeTime_sortLinkNode, nodeTime_sortLinkNode, hcb']
      exact hplace.1 u l hl
    · intro y l hl
      obtain ⟨u, _, rfl⟩ := hnode y (by simp [hl])
      rw [nodeTime_sortLinkNode, nodeTime_sortLinkNode, hcb']
      exact hplace.2 u l hl
  · by_cases hut : u = t
    · rw [hut, hcb']
      exact ⟨iff_of_false hself (by rw [hsl']; simp), Or.inr hsl'⟩
    · rw [hcb', hother u hut] at hul ⊢
      rw [hm'.role _ (by simp) (by simpa using hut)]
      exact h.node u hu hul

theorem osDeleteSortLink_inv (h : SortLinkInv k V) (ht : t < gTaskMaxNum)
    (hlive : (k.gTaskCBArray t).taskStatus.unused = false) :
    ∃ V', SortLinkInv (osDeleteSortLink k t) V' ∧
      V'.content .gTaskSortLink = (V.content .gTaskSortLink).erase (.sortLinkNode t) := by
  have hf := h.core.ready.forest
  obtain ⟨htime, hrole⟩ := h.node t ht hlive
  unfold osDeleteSortLink
  by_cases htop : (k.gTaskCBArray t).responseTime = ⊤
  · rw [if_neg (not_not.mpr htop)]
    refine ⟨V, h, (List.erase_of_not_mem ?_).symm⟩
    rw [hf.mem, htime.mp htop]
    exact fun heq => by cases heq
  · rw [if_pos htop]
    have hmem := hrole.resolve_left fun hl => htop (htime.mpr hl)
    obtain ⟨V', hc', hm', hcb', -, hsl', hcon'⟩ := osDeleteNodeSortLink_spec h.core hmem
    refine ⟨V', ⟨hc', ?_, hc'.ready.forest.nodup _, fun u hu hul => ?_⟩, hcon'⟩
    · rw [hcon']
      apply (h.sorted.sublist List.erase_sublist).imp_of_mem
      intro x y hx hy hle
      have hnode : ∀ z ∈ (V.content .gTaskSortLink).erase (.sortLinkNode t),
          nodeTime (osDeleteNodeSortLink k t) z = nodeTime k z := by
        intro z hz
        obtain ⟨hne, hz⟩ := (hf.nodup _).mem_erase_iff.mp hz
        obtain ⟨u, _, rfl⟩ := h.core.mem_sortLink hz
        rw [nodeTime_sortLinkNode, nodeTime_sortLinkNode, hm'.task u (by simpa using hne)]
      rw [hnode x hx, hnode y hy]
      exact hle
    · by_cases hut : u = t
      · rw [hut, hsl', hcb']
        exact ⟨iff_of_true rfl rfl, Or.inl rfl⟩
      · rw [hm'.task u hut] at hul ⊢
        rw [hm'.role _ (by simp) (by simpa using hut)]
        exact h.node u hu hul

theorem osDeleteSortLink_unlinked (h : SortLinkInv k V) (ht : t < gTaskMaxNum)
    (hlive : (k.gTaskCBArray t).taskStatus.unused = false)
    (hnot : ¬OnList k.links .gTaskSortLink (.sortLinkNode t)) : osDeleteSortLink k t = k := by
  have htop := (h.node t ht hlive).1.mpr (h.loose ht hlive hnot)
  unfold osDeleteSortLink
  rw [if_neg (not_not.mpr htop)]

theorem sortLinkStep_inv (op : SortLinkOp) (h : SortLinkInv k V) (hstep : SortLinkStep k op k') :
    ∃ V', SortLinkInv k' V' := by
  cases hstep with
  | add t startTime waitTicks ht hlive hnot heq =>
    obtain ⟨k₁, V₁, heq₁, h₁, -⟩ := osAdd2SortLink_inv h ht hlive hnot startTime waitTicks
    rw [heq] at heq₁
    cases heq₁
    exact ⟨V₁, h₁⟩
  | delete t ht hlive =>
    obtain ⟨V₁, h₁, -⟩ := osDeleteSortLink_inv h ht hlive
    exact ⟨V₁, h₁⟩

theorem KernelInv.scanResult (hi : KernelInv k V) (h : SortLinkInv k V) :
    ∃ k' V' b due, osSchedScanTimerList k = some (k', b) ∧ KernelInv k' V' ∧
      ScanResult (osGetCurrSchedTimeCycle k) k V k' V' b due := by
  have hf := hi.core.ready.forest
  obtain ⟨k', V', b, due, heq, hi', hs, hscan⟩ := osSchedScanTimerList_scan hi
  have hf' := hi'.core.ready.forest
  have hnd := h.once
  rw [hscan.content] at hnd
  have hsorted := h.sorted
  rw [hscan.content] at hsorted
  have hlinked : ∀ t ∈ due, .sortLinkNode t ∈ V.content .gTaskSortLink := by
    intro t ht
    rw [hscan.content]
    exact List.mem_append_left _ (List.mem_map.mpr ⟨t, ht, rfl⟩)
  refine ⟨k', V', b, due, heq, hi', hscan.rounds, hscan.content,
    List.Nodup.of_map _ (List.nodup_append.mp hnd).1, fun t ht => ⟨hscan.early t, fun hle => ?_⟩,
    fun t ht => (hscan.fired t ht).status, fun t ht => ?_, fun t hlt ht => ?_, hscan.need⟩
  · -- a task behind those that were taken is not due, since the first one is not
    rw [hscan.content] at ht
    obtain hmem | hrest := List.mem_append.mp ht
    · obtain ⟨u, hu, heq⟩ := List.mem_map.mp hmem
      cases heq
      exact hu
    · exfalso
      obtain ⟨y, l, hcon⟩ := List.exists_cons_of_ne_nil (List.ne_nil_of_mem hrest)
      obtain ⟨u, _, rfl⟩ := hi'.core.mem_sortLink (show y ∈ V'.content .gTaskSortLink by simp [hcon])
      have hlate := hscan.late u l hcon
      have hrest' := (List.pairwise_append.mp hsorted).2.1
      rw [hcon] at hrest hrest'
      cases hrest with
      | head => exact absurd hle (not_le.mpr hlate)
      | tail _ hl =>
        have hut := (List.pairwise_cons.mp hrest').1 _ hl
        exact absurd (hut.trans hle) (not_le.mpr hlate)
  · have ht' : t < gTaskMaxNum := (hi.core.fits _ _ ((hf.mem _ _).mp (hlinked t ht))).1
    have ho' := hi'.task t ht'
    have hfired := hscan.fired t ht
    have hlive := ((hi.task t ht').of_timed hfired.timed)
    have hne : t ≠ k'.gIdleTaskID := by
      rw [hs.gIdleTaskID]
      exact (hi.task t ht').not_idle_of_timed hfired.timed
    have hstatus := hfired.status
    split at hstatus
    · next hsusp =>
      rw [if_pos hsusp]
      apply ho'.off
      · rw [hstatus]
        exact hlive.1
      · rw [hstatus]
        intro hready
        rw [show (expired (k.gTaskCBArray t).taskStatus).ready =
          (k.gTaskCBArray t).taskStatus.ready from rfl, hlive.2] at hready
        cases hready
      · rw [hstatus]
        rfl
    · next hsusp =>
      rw [if_neg hsusp, ← hfired.priority]
      apply ho'.queued _ hne
      rw [hstatus]
      rfl
  · obtain ⟨hcb, hpl⟩ := hscan.others t ht
    refine ⟨hcb, hpl, ?_⟩
    have hiff : V'.role (.sortLinkNode t) = .member .gTaskSortLink ↔
        V.role (.sortLinkNode t) = .member .gTaskSortLink := by
      rw [← hf'.mem, ← hf.mem, hscan.content, List.mem_append]
      refine (or_iff_right fun hmem => ?_).symm
      obtain ⟨u, hu, heq⟩ := List.mem_map.mp hmem
      cases heq
      exact ht hu
    cases (hi.task t hlt).sortNode with
    | inr hmem => rw [hmem, hiff.mpr hmem]
    | inl hl =>
      cases (hi'.task t hlt).sortNode with
      | inl hl' => rw [hl, hl']
      | inr hmem' =>
        rw [hiff.mp hmem'] at hl
        cases hl

/-- The order is all that the invariant of the kernel leaves open. -/
theorem KernelInv.sortLink_ordered (hi : KernelInv k V)
    (hsorted : (V.content .gTaskSortLink).Pairwise fun x y => nodeTime k x ≤ nodeTime k y) : SortLinkInv k V :=
  ⟨hi.core, hsorted, hi.core.ready.forest.nodup _,
    fun t ht hlive => ⟨(hi.task t ht).response hlive, (hi.task t ht).sortNode⟩⟩

theorem KernelInv.sortLink_nil (hi : KernelInv k V)
    (hnone : ∀ t < gTaskMaxNum, (k.gTaskCBArray t).taskStatus.delay = false ∧
      (k.gTaskCBArray t).taskStatus.pendTime = false) : SortLinkInv k V := by
  have hloose : ∀ t < gTaskMaxNum, V.role (.sortLinkNode t) = .loose := by
    intro t ht
    apply (hi.task t ht).untimed
    rw [(hnone t ht).1, (hnone t ht).2]
    intro htimed
    cases htimed with
    | inl h => cases h
    | inr h => cases h
  have hnil : V.content .gTaskSortLink = [] := by
    apply List.eq_nil_iff_forall_not_mem.mpr
    intro x hx
    obtain ⟨u, hu, rfl⟩ := hi.core.mem_sortLink hx
    rw [hi.core.ready.forest.mem, hloose u hu] at hx
    cases hx
  refine hi.sortLink_ordered ?_
  rw [hnil]
  exact List.Pairwise.nil

end

/-- Any sequence of additions and removals keeps the sort link in order and every node at
most once, no addition gets stuck, and the removal of a node that is not linked
changes nothing; the scan of a sort link in order takes off exactly the tasks that
are due, one after the other. -/
theorem osSchedScanTimerList_sorted (k : KernelState) (V : View Node) (h : SortLinkInv k V) :
    (∀ ops k', Run SortLinkStep k ops k' → ∃ V', SortLinkInv k' V' ∧
      ∀ t < gTaskMaxNum, (k'.gTaskCBArray t).taskStatus.unused = false →
        ¬OnList k'.links .gTaskSortLink (.sortLinkNode t) → osDeleteSortLink k' t = k' ∧
          ∀ startTime waitTicks, ∃ k'', osAdd2SortLink k' t startTime waitTicks = some k'') ∧
    (KernelInv k V → ∃ k' V' b due, osSchedScanTimerList k = some (k', b) ∧ KernelInv k' V' ∧
      ScanResult (osGetCurrSchedTimeCycle k) k V k' V' b due) := by
  constructor
  · intro ops k' hrun
    have hinv : ∃ V', SortLinkInv k' V' := by
      apply run_invariant (fun k => ∃ V, SortLinkInv k V) _ hrun ⟨V, h⟩
      intro s op s' hs hstep
      obtain ⟨V₁, h₁⟩ := hs
      exact sortLinkStep_inv op h₁ hstep
    obtain ⟨V', h'⟩ := hinv
    refine ⟨V', h', fun t ht hlive hnot => ⟨osDeleteSortLink_unlinked h' ht hlive hnot, fun a b => ?_⟩⟩
    obtain ⟨k'', _, heq, -⟩ := osAdd2SortLink_inv h' ht hlive hnot a b
    exact ⟨k'', heq⟩
  · intro hi
    exact hi.scanResult h

def sortLinkNext (k : KernelState) : SortLinkOp → Option KernelState
  | .add taskCB startTime waitTicks =>
    if taskCB < gTaskMaxNum ∧ (k.gTaskCBArray taskCB).taskStatus.unused = false ∧
      (k.gTaskCBArray taskCB).responseTime = ⊤ then osAdd2SortLink k taskCB startTime waitTicks
    else none
  | .delete taskCB =>
    if taskCB < gTaskMaxNum ∧ (k.gTaskCBArray taskCB).taskStatus.unused = false then
      some (osDeleteSortLink k taskCB)
    else none

theorem sortLinkNext_step {k k' : KernelState} {V : View Node} {op : SortLinkOp} (h : SortLinkInv k V)
    (hstep : sortLinkNext k op = some k') : SortLinkStep k op k' := by
  cases op with
  | add taskCB startTime waitTicks =>
    obtain ⟨⟨ht, hlive, htop⟩, heq⟩ := Option.ite_none_right_eq_some.mp hstep
    refine .add taskCB startTime waitTicks ht hlive (fun hon => ?_) heq
    have hrole := h.linked_iff.mp hon
    rw [(h.node taskCB ht hlive).1.mp htop] at hrole
    cases hrole
  | delete taskCB =>
    obtain ⟨⟨ht, hlive⟩, heq⟩ := Option.ite_none_right_eq_some.mp hstep
    cases heq
    exact .delete taskCB ht hlive

theorem sortLinkNext_run {ops : List SortLinkOp} {k k' : KernelState} {V : View Node} (h : SortLinkInv k V)
    (hrun : ops.foldlM sortLinkNext k = some k') : Run SortLinkStep k ops k' := by
  induction ops generalizing k V with
  | nil =>
    cases hrun
    exact Run.nil
  | cons op ops ih =>
    obtain ⟨k₁, hstep, hrun⟩ := Option.bind_eq_some_iff.mp hrun
    have hfirst := sortLinkNext_step h hstep
    obtain ⟨V₁, h₁⟩ := sortLinkStep_inv op h hfirst
    exact run_append (run_single hfirst) (ih h₁ hrun)

def bothReady : List WaitEvent := [.setUp (.semList 0), .kernel (smallTask 10), .kernel (smallTask 11), .kernel .start]

/-- The first task waits with a timeout of five ticks and is suspended there, the second one delays itself for three. -/
def bothTimed (cycles : Nat) : List WaitEvent :=
  bothReady ++ [.wait (.semList 0) 5, .kernel (.delay 3), .kernel (.suspend 1), .kernel (.elapse cycles)]

omit [Config] in
/-- Two tasks are added, one is taken off and added again in front. After four ticks the scan takes off the one
with three ticks and leaves the one with five, and after five ticks it takes off both. -/
theorem osSchedScanTimerList_sorted_small :
    letI := smallConfig
    (∃ s k V, Run WholeStep smallWaits bothReady s ∧
      Run SortLinkStep s.kernel [.add 1 0 5, .add 2 0 3, .delete 1, .delete 1, .add 1 0 2] k ∧ SortLinkInv k V ∧
      V.content .gTaskSortLink = [.sortLinkNode 1, .sortLinkNode 2]) ∧
    ∀ cycles, cycles = 40 ∨ cycles = 50 → ∃ s V k' V' b due, Run WholeStep smallWaits (bothTimed cycles) s ∧
      V.content .gTaskSortLink = [.sortLinkNode 2, .sortLinkNode 1] ∧
      osSchedScanTimerList s.kernel = some (k', b) ∧ ScanResult cycles s.kernel V k' V' b due ∧
      (k'.status 2).ready ∧ 2 ∈ due ∧ (1 ∈ due ↔ cycles = 50) ∧ b = true := by
  let := smallConfig
  have hb : WaitBooted smallWaits := ⟨smallKernel_booted, fun _ => rfl⟩
  refine ⟨?_, fun cycles hcycles => ?_⟩
  · have hready : (bothReady.foldlM wholeNext smallWaits).bind (fun s =>
        ([.add 1 0 5, .add 2 0 3, .delete 1, .delete 1, .add 1 0 2].foldlM sortLinkNext s.kernel).map fun k =>
          (decide (∀ t < gTaskMaxNum, (s.kernel.status t).delay = false ∧ (s.kernel.status t).pendTime = false),
            k.links.next .gTaskSortLink, k.links.next (.sortLinkNode 1), k.links.next (.sortLinkNode 2))) =
        some (true, .sortLinkNode 1, .sortLinkNode 2, .gTaskSortLink) := by decide +kernel
    obtain ⟨s, hs, hops⟩ := Option.bind_eq_some_iff.mp hready
    obtain ⟨k, hk, hval⟩ := Option.map_eq_some_iff.mp hops
    simp only [Prod.mk.injEq, decide_eq_true_eq] at hval
    obtain ⟨hnone, hfirst, hsecond, hlast⟩ := hval
    obtain ⟨V₀, hi, -⟩ := wholeRun_inv (by decide) hb (wholeNext_run hs)
    have hstart := hi.machine.inv.sortLink_nil hnone
    have hrun := sortLinkNext_run hstart hk
    obtain ⟨V, h, -⟩ := (osSchedScanTimerList_sorted s.kernel V₀ hstart).1 _ _ hrun
    refine ⟨s, k, V, wholeNext_run hs, hrun, h, ?_⟩
    exact h.core.ready.forest.content_of_next (h.core.system _ (.inr (.inr rfl))) (by simp)
      (by simp [hfirst, hsecond, hlast])
  · have htimed : ∀ cycles, cycles = 40 ∨ cycles = 50 → ((bothTimed cycles).foldlM wholeNext smallWaits).map
        (fun s => ((s.kernel.links.next .gTaskSortLink, s.kernel.links.next (.sortLinkNode 2),
          s.kernel.links.next (.sortLinkNode 1)), decide ((s.kernel.gTaskCBArray 2).responseTime = ((30 : Nat) : WithTop Nat)),
          decide ((s.kernel.gTaskCBArray 1).responseTime = ((50 : Nat) : WithTop Nat)), (s.kernel.gTaskCBArray 2).taskStatus.suspend,
          osGetCurrSchedTimeCycle s.kernel)) =
        some ((.sortLinkNode 2, .sortLinkNode 1, .gTaskSortLink), true, true, false, cycles) := by
      rintro cycles (rfl | rfl)
      · decide +kernel
      · decide +kernel
    obtain ⟨s, hs, hval⟩ := Option.map_eq_some_iff.mp (htimed cycles hcycles)
    simp only [Prod.mk.injEq, decide_eq_true_eq] at hval
    obtain ⟨⟨hfirst, hsecond, hlast⟩, htwo, hone, hsusp, hnow⟩ := hval
    obtain ⟨V, hi, -⟩ := wholeRun_inv (by decide) hb (wholeNext_run hs)
    have hki := hi.machine.inv
    have hcon : V.content .gTaskSortLink = [.sortLinkNode 2, .sortLinkNode 1] :=
      hki.core.ready.forest.content_of_next (hki.core.system _ (.inr (.inr rfl))) (by simp)
        (by simp [hfirst, hsecond, hlast])
    have hsorted : SortLinkInv s.kernel V := by
      refine hki.sortLink_ordered ?_
      rw [hcon]
      exact List.pairwise_pair.mpr (by simp only [nodeTime_sortLinkNode, htwo, hone]; exact WithTop.coe_le_coe.mpr (by decide))
    obtain ⟨k', V', b, due, heq, -, hscan⟩ := (osSchedScanTimerList_sorted s.kernel V hsorted).2 hki
    rw [hnow] at hscan
    have hlate : 30 ≤ cycles := by omega
    have hdue : 2 ∈ due := (hscan.exact 2 (by simp [hcon])).mpr (by rw [htwo]; exact WithTop.coe_le_coe.mpr hlate)
    have hstatus := hscan.status 2 hdue
    rw [hsusp] at hstatus
    refine ⟨s, V, k', V', b, due, wholeNext_run hs, hcon, heq, hscan, ?_, hdue, ?_, ?_⟩
    · show (k'.gTaskCBArray 2).taskStatus.ready = true
      rw [hstatus]
      rfl
    · have hle : ((50 : Nat) : WithTop Nat) ≤ (cycles : WithTop Nat) ↔ 50 ≤ cycles := WithTop.coe_le_coe
      rw [hscan.exact 1 (by simp [hcon]), hone, hle]
      omega
    · rw [hscan.need]
      exact List.any_eq_true.mpr ⟨2, hdue, by rw [hsusp]; rfl⟩

end LiteosM.Kernel
