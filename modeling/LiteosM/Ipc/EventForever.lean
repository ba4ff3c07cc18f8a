import LiteosM.Ipc.Blocking

/-!
# What a wait for events comes to

A write makes a reader ready, and the reader looks at the bits again when it runs. What it
was woken for is there until another call clears it.
-/

namespace LiteosM.Ipc

open LiteosM.Kernel LiteosM.Lib.DlList LiteosM.Lib.LinkedList LiteosM.Lib.Transition

/-- The events that a read asks for: some of them, or all. -/
structure EventMet (eventMask mode bits : BitVec 32) : Prop where
  some : bits ≠ 0#32
  subset : bits &&& ~~~eventMask = 0#32
  all : mode &&& losWaitmodeAnd ≠ 0#32 → bits = eventMask

/-- `cleared t`: since `t` stopped waiting, a bit that it reads for has been cleared. -/
structure NotedEvents extends EventState where
  cleared : Nat → Bool

def noteCleared (s : NotedEvents) (s' : EventState) (t : Nat) : Bool :=
  match s'.reading t with
  | none => false
  | some (e, mask, _) => !(s'.kernel.status t).pend &&
      (s.cleared t || decide (s.uwEventID e &&& mask &&& ~~~s'.uwEventID e ≠ 0#32))

section

variable {id id' eventMask mode : BitVec 32}

theorem and_eq_self_of_lost {x y : BitVec 32} (h : x &&& ~~~y = 0#32) : x &&& y = x := by
  have hsplit : x &&& (y ||| ~~~y) = x &&& y ||| x &&& ~~~y := BitVec.and_or_distrib_left
  rw [BitVec.or_not_self, BitVec.and_allOnes, h, BitVec.or_zero] at hsplit
  exact hsplit.symm

theorem losEventPoll_kept (hmask : eventMask ≠ 0#32) (h : (losEventPoll id eventMask mode).1 ≠ 0#32)
    (hkept : id &&& eventMask &&& ~~~id' = 0#32) : (losEventPoll id' eventMask mode).1 ≠ 0#32 := by
  have hsame := and_eq_self_of_lost hkept
  rw [Ne, losEventPoll_eq_zero hmask] at h ⊢
  split at h
  · next ho =>
    rw [if_pos ho]
    intro hzero
    apply h
    rw [← hsame, BitVec.and_assoc, BitVec.and_comm eventMask, hzero, BitVec.and_zero]
  · next ho =>
    rw [if_neg ho]
    have hall : eventMask = id &&& eventMask := not_not.mp h
    rw [← hall, BitVec.and_comm] at hsame
    exact fun hne => hne hsame.symm

theorem losEventPoll_met (hwait : EventWait eventMask mode)
    (h : (losEventPoll id eventMask mode).1 ≠ 0#32) :
    EventMet eventMask mode (losEventPoll id eventMask mode).1 := by
  have htaken := losEventPoll_taken rfl h
  refine ⟨h, ?_, fun hand => htaken.all ?_⟩
  · rw [htaken.found, BitVec.and_assoc, BitVec.and_not_self]
    exact BitVec.and_zero
  · by_contra hor
    exact hand (hwait.one hor)

end

variable [Config]

def notedEventStep (s : NotedEvents) (step : EventStep) (s' : NotedEvents) : Prop :=
  eventStep s.toEventState step s'.toEventState ∧ s'.cleared = noteCleared s s'.toEventState

/-- A reader that left the list finds what it was woken for, unless bits were cleared. -/
structure ReaderOk (s : EventState) (V : View Node) (cleared : Bool) (t : Nat) : Prop where
  live : (s.reading t).isSome → (s.kernel.gTaskCBArray t).taskStatus.unused = false
  waiting : ∀ l, V.role (.pendList t) = .member (.wait l) →
    ∃ e, l = .stEventList e ∧ s.reading t = some (e, s.eventMask t, s.eventMode t)
  wait : ∀ e eventMask mode, s.reading t = some (e, eventMask, mode) → EventWait eventMask mode
  woken : ∀ e eventMask mode, s.reading t = some (e, eventMask, mode) →
    (∀ l, V.role (.pendList t) ≠ .member (.wait l)) →
      (s.kernel.gTaskCBArray t).taskStatus.timeout = true ∨ cleared = true ∨
        (losEventPoll (s.uwEventID e) eventMask mode).1 ≠ 0#32
  calm : s.reading t = none → (s.kernel.gTaskCBArray t).taskStatus.timeout = false

structure ForeverInv (s : NotedEvents) (V : View Node) : Prop where
  events : EventInv s.toEventState V
  reader : ∀ t < gTaskMaxNum, ReaderOk s.toEventState V (s.cleared t) t

section

variable {s : NotedEvents} {s' : EventState} {V V' : View Node} {k : KernelState} {t e : Nat}
  {eventMask mode : BitVec 32}

omit [Config] in
theorem noteCleared_of_reading (hpend : (s'.kernel.gTaskCBArray t).taskStatus.pend = false)
    (hread : s'.reading t = some (e, eventMask, mode))
    (h : s.cleared t = true ∨ s.uwEventID e &&& eventMask &&& ~~~s'.uwEventID e ≠ 0#32) :
    noteCleared s s' t = true := by
  unfold noteCleared KernelState.status
  rw [hread, hpend]
  rcases h with h | h <;> simp [h]

theorem not_pend_of_off (hi : KernelInv k V) (ht : t < gTaskMaxNum)
    (hoff : ∀ l, V.role (.pendList t) ≠ .member (.wait l)) :
    (k.gTaskCBArray t).taskStatus.pend = false := by
  by_contra hp
  obtain ⟨l, hl⟩ := (hi.task t ht).blocked (by simpa using hp)
  exact hoff l hl

/-- A reader that is woken finds its events, and then they stay or their loss is noted. -/
theorem ReaderOk.kept (h : ReaderOk s.toEventState V (s.cleared t) t) (hi : KernelInv s'.kernel V')
    (ht : t < gTaskMaxNum) (hk : ReaderKept s.toEventState V s' V' t) :
    ReaderOk s' V' (noteCleared s s' t) t := by
  have hread := hk.reading
  refine ⟨fun hr => ?_, fun l hl => ?_, fun e m md hr => ?_, fun e m md hr hoff => ?_, fun hr => ?_⟩
  · rw [hk.ended.unused]
    exact h.live (hread ▸ hr)
  · rw [hread, hk.eventMask, hk.eventMode]
    exact h.waiting l (hk.place l hl)
  · exact h.wait e m md (hread ▸ hr)
  · have hpend := not_pend_of_off hi ht hoff
    have hr' := hread.symm.trans hr
    rw [hk.ended.timeout]
    by_cases hon : ∃ l, V.role (.pendList t) = .member (.wait l)
    · obtain ⟨l, hl⟩ := hon
      obtain ⟨e', rfl, hr''⟩ := h.waiting l hl
      rw [hr'] at hr''
      injection hr'' with hr''
      obtain ⟨rfl, rfl, rfl⟩ : e = e' ∧ m = s.eventMask t ∧ md = s.eventMode t := by simpa using hr''
      rcases hk.woken _ hl with hl' | ⟨e', he, hpoll⟩
      · exact absurd hl' (hoff _)
      · injection he with he
        exact .inr (.inr (he ▸ hpoll))
    · rcases h.woken e m md hr' fun l hl => hon ⟨l, hl⟩ with htime | hc | hpoll
      · exact .inl htime
      · exact .inr (.inl (noteCleared_of_reading hpend hr (.inl hc)))
      · by_cases hlost : s.uwEventID e &&& m &&& ~~~s'.uwEventID e = 0#32
        · exact .inr (.inr (losEventPoll_kept (h.wait e m md hr').mask hpoll hlost))
        · exact .inr (.inl (noteCleared_of_reading hpend hr (.inr hlost)))
  · rw [hk.ended.timeout]
    exact h.calm (hread.symm.trans hr)

theorem ReaderOk.waits (hi : EventInv s' V') {cleared : Bool} (hw : ReaderWaits s' V' t e) :
    ReaderOk s' V' cleared t := by
  refine ⟨fun _ => hw.live, fun l hl => ?_, fun e' m md hr => ?_, fun _ _ _ _ hoff => absurd hw.place (hoff _),
    fun hr => ?_⟩
  · rw [hw.place] at hl
    injection hl with hl
    injection hl with hl
    exact ⟨e, hl.symm, hw.reading⟩
  · rw [hw.reading] at hr
    injection hr with hr
    obtain ⟨rfl, rfl, rfl⟩ : e = e' ∧ s'.eventMask t = m ∧ s'.eventMode t = md := by simpa using hr
    exact (hi.unmet e t hw.place).1
  · rw [hw.reading] at hr
    cases hr

omit [Config] in
theorem ReaderOk.idle {cleared : Bool} (hread : s'.reading t = none)
    (htime : (s'.kernel.gTaskCBArray t).taskStatus.timeout = false)
    (hoff : ∀ l, V'.role (.pendList t) ≠ .member (.wait l)) : ReaderOk s' V' cleared t := by
  refine ⟨fun hr => ?_, fun l hl => absurd hl (hoff l), fun _ _ _ hr => ?_, fun _ _ _ hr _ => ?_, fun _ => htime⟩
  · rw [hread] at hr
    cases hr
  · rw [hread] at hr
    cases hr
  · rw [hread] at hr
    cases hr

theorem ReaderOk.settle (h : ReaderOk s.toEventState V (s.cleared t) t) (hinv : KernelInv s.kernel V)
    (hi : KernelInv k V') (ht : t < gTaskMaxNum) {event : KernelEvent}
    (hq : Quieted event s.kernel V k V') :
    ReaderOk (s.settle k) V' (noteCleared s (s.settle k) t) t := by
  have hkeep : (k.gTaskCBArray t).taskStatus.unused = (s.kernel.gTaskCBArray t).taskStatus.unused →
      (s.settle k).reading t = s.reading t := by
    intro hun
    show (if (k.status t).unused then none else s.reading t) = s.reading t
    split
    · next hgone =>
      cases hr : s.reading t with
      | none => rfl
      | some r =>
        have hlive := h.live (by rw [hr]; rfl)
        rw [← hun, show (k.gTaskCBArray t).taskStatus.unused = true from hgone] at hlive
        cases hlive
    · rfl
  rcases hq.waiter hinv ht with ⟨h1, h2, h3⟩ | ⟨h1, h2, ⟨l, h3⟩, h4⟩ | ⟨h1, h2, h3⟩
  · exact h.kept hi ht ⟨hkeep h2, rfl, rfl, ⟨h1, h2⟩, fun l hl => (h3 l).mp hl, fun l hl => .inl ((h3 l).mpr hl)⟩
  · -- a reader times out
    refine ⟨fun hr => ?_, fun l' hl => absurd hl (h4 l'), fun e m md hr => ?_, fun _ _ _ _ _ => .inl h1, fun hr => ?_⟩
    · rw [hkeep h2] at hr
      exact h2.trans (h.live hr)
    · rw [hkeep h2] at hr
      exact h.wait e m md hr
    · obtain ⟨_, _, hr'⟩ := h.waiting l h3
      rw [hkeep h2, hr'] at hr
      cases hr
  · refine ReaderOk.idle ?_ h1 h3
    show (if (k.status t).unused then none else s.reading t) = none
    rcases h2 with h2 | h2
    · cases hr : s.reading t with
      | none => split <;> rfl
      | some r =>
        have hlive := h.live (by rw [hr]; rfl)
        rw [h2] at hlive
        cases hlive
    · exact if_pos h2

omit [Config] in
theorem losEventReadResume_kept (s : EventState) (V : View Node) (e : Nat) (eventMask mode : BitVec 32)
    (hne : t ≠ s.kernel.runTask) : ReaderKept s V (losEventReadResume s e eventMask mode).1 V t := by
  unfold losEventReadResume
  dsimp only
  split
  · refine ⟨Function.update_of_ne hne _ _, rfl, rfl, ?_, fun _ h => h, fun _ h => .inl h⟩
    show SameEnd _ (Function.update s.kernel.gTaskCBArray s.kernel.runTask _ t).taskStatus
    rw [Function.update_of_ne hne]
    exact ⟨rfl, rfl⟩
  · exact ⟨Function.update_of_ne hne _ _, rfl, rfl, ⟨rfl, rfl⟩, fun _ h => h, fun _ h => .inl h⟩

omit [Config] in
theorem losEventReadResume_idle (s : EventState) (e : Nat) (eventMask mode : BitVec 32) :
    (losEventReadResume s e eventMask mode).1.reading s.kernel.runTask = none ∧
      ((losEventReadResume s e eventMask mode).1.kernel.gTaskCBArray s.kernel.runTask).taskStatus.timeout = false := by
  unfold losEventReadResume
  dsimp only
  split
  · refine ⟨Function.update_self _ _ _, ?_⟩
    show (Function.update s.kernel.gTaskCBArray s.kernel.runTask _ s.kernel.runTask).taskStatus.timeout = false
    rw [Function.update_self]
  · next h => exact ⟨Function.update_self _ _ _, Bool.eq_false_iff.mpr h⟩

theorem eventStep_reader {step : EventStep} (hinv : ForeverInv s V)
    (hstep : eventStep s.toEventState step s') :
    ∃ V', EventInv s' V' ∧ ∀ t < gTaskMaxNum, ReaderOk s' V' (noteCleared s s' t) t := by
  have hall : ∀ {V'}, EventInv s' V' → (∀ t, ReaderKept s.toEventState V s' V' t) →
      ∃ V', EventInv s' V' ∧ ∀ t < gTaskMaxNum, ReaderOk s' V' (noteCleared s s' t) t := fun hi hk =>
    ⟨_, hi, fun t ht => (hinv.reader t ht).kept hi.machine.inv ht (hk t)⟩
  cases hstep with
  | init fresh =>
    obtain ⟨V', hi, hk⟩ := losEventInit_inv hinv.events fresh
    exact hall hi hk
  | destroy =>
    obtain ⟨V', hi, hk⟩ := losEventDestroy_inv hinv.events _
    exact hall hi hk
  | read caller =>
    obtain ⟨V', hi, hk⟩ := losEventRead_inv hinv.events _ _ _ _ _ fun h => (caller h).1
    refine ⟨V', hi, fun t ht => ?_⟩
    rcases hk t with hk | ⟨_, e, hw⟩
    · exact (hinv.reader t ht).kept hi.machine.inv ht hk
    · exact ReaderOk.waits hi hw
  | resume caller reading =>
    have hi := hinv.events.resume
    refine ⟨V, hi _ _ _, fun t ht => ?_⟩
    by_cases hne : t = s.kernel.runTask
    · obtain ⟨hread, htime⟩ := losEventReadResume_idle s.toEventState _ _ _
      rw [hne]
      exact ReaderOk.idle hread htime (hinv.events.machine.caller_gone caller)
    · exact (hinv.reader t ht).kept (hi _ _ _).machine.inv ht (losEventReadResume_kept _ V _ _ _ hne)
  | poll => exact hall (hinv.events.poll _ _ _) fun t =>
      ⟨rfl, rfl, rfl, ⟨rfl, rfl⟩, fun _ h => h, fun _ h => .inl h⟩
  | write run =>
    obtain ⟨s₂, V', r, heq, hi, hk, _⟩ := losEventWrite_spec hinv.events _ _
    rw [heq] at run
    injection run with run
    injection run with run
    subst run
    exact hall hi hk
  | @clear eventCB events =>
    cases eventCB with
    | none => exact hall hinv.events (ReaderKept.refl _ _)
    | some e => exact hall (hinv.events.clear e ⟨events, rfl⟩) fun t =>
        ⟨rfl, rfl, rfl, ⟨rfl, rfl⟩, fun _ h => h, fun _ h => .inl h⟩
  | kernel caller run =>
    obtain ⟨V', hi, hq⟩ := hinv.events.settle run
    exact ⟨V', hi, fun t ht => (hinv.reader t ht).settle hinv.events.machine.inv hi.machine.inv ht hq⟩

theorem notedRun_inv {s₀ s : NotedEvents} {steps : List EventStep} (hmax : gTaskMaxNum ≤ osInvalid)
    (hb : EventBooted s₀.toEventState) (hrun : Run notedEventStep s₀ steps s) : ∃ V, ForeverInv s V := by
  refine run_invariant (fun s => ∃ V, ForeverInv s V) ?_ hrun ?_
  · rintro s step s' ⟨V, hinv⟩ ⟨hstep, hnote⟩
    obtain ⟨V', hi, hr⟩ := eventStep_reader hinv hstep
    refine ⟨V', hi, fun t ht => ?_⟩
    rw [hnote]
    exact hr t ht
  · obtain ⟨V, hm, hloose, _, htime⟩ := booted_machine hmax hb.1
    obtain ⟨hi, hoff⟩ := EventInv.booted hb hm hloose
    exact ⟨V, hi, fun t ht => ReaderOk.idle (hb.2.2 t) (htime t ht) (hoff t)⟩

/-- A wait without a timeout that comes back without an error has what it asked for. Otherwise
it has nothing, and what it was woken for was cleared before it ran. -/
theorem losEventRead_forever {s₀ s : NotedEvents} {steps : List EventStep} (hmax : gTaskMaxNum ≤ osInvalid)
    (hb : EventBooted s₀.toEventState) (hrun : Run notedEventStep s₀ steps s) (hcall : s.kernel.calling) :
    (∀ eventCB eventMask mode s' bits, s.reading s.kernel.runTask = none →
      losEventRead s.toEventState false eventCB eventMask mode losWaitForever = (s', .value bits) →
        EventMet eventMask mode bits) ∧
    ∀ e eventMask mode s' bits, s.reading s.kernel.runTask = some (e, eventMask, mode) →
      losEventReadResume s.toEventState e eventMask mode = (s', .value bits) →
        EventMet eventMask mode bits ∨ bits = 0#32 ∧ s.cleared s.kernel.runTask = true := by
  obtain ⟨V, hinv⟩ := notedRun_inv hmax hb hrun
  refine ⟨fun eventCB eventMask mode s' bits _ heq => ?_, fun e eventMask mode s' bits hread heq => ?_⟩
  · unfold losEventRead at heq
    dsimp only at heq
    split at heq
    · cases (Prod.mk.inj heq).2
    next hcheck =>
    cases eventCB with
    | none => cases (Prod.mk.inj heq).2
    | some e =>
      have hwait := (osEventReadParamCheck_ok (not_not.mp hcheck)).2
      simp only [Bool.false_eq_true, if_false] at heq
      split at heq
      · rw [if_neg (by decide)] at heq
        split at heq
        · cases (Prod.mk.inj heq).2
        · cases (Prod.mk.inj heq).2
      · next hsome =>
        have hbits := EventRet.value.inj (Prod.mk.inj heq).2
        rw [← hbits]
        exact losEventPoll_met hwait hsome
  · have hcaller := hinv.events.machine.calling_caller hcall
    have hr := hinv.reader _ hcaller.bound
    unfold losEventReadResume at heq
    dsimp only at heq
    split at heq
    · cases (Prod.mk.inj heq).2
    · next htime =>
      have hbits : (losEventPoll (s.uwEventID e) eventMask mode).1 = bits :=
        EventRet.value.inj (Prod.mk.inj heq).2
      rw [← hbits]
      by_cases hpoll : (losEventPoll (s.uwEventID e) eventMask mode).1 = 0#32
      · rcases hr.woken e eventMask mode hread (hinv.events.machine.caller_gone hcall) with h | h | h
        · exact absurd h htime
        · exact .inr ⟨hpoll, h⟩
        · exact absurd hpoll h
      · exact .inl (losEventPoll_met (hr.wait e eventMask mode hread) hpoll)

end

def notedNext (s : NotedEvents) (step : EventStep) : Option NotedEvents :=
  (eventNext s.toEventState step).map fun s' => ⟨s', noteCleared s s'⟩

theorem notedNext_step {s s' : NotedEvents} {step : EventStep} (h : notedNext s step = some s') :
    notedEventStep s step s' := by
  obtain ⟨t, ht, rfl⟩ := Option.map_eq_some_iff.mp h
  exact ⟨eventNext_step ht, rfl⟩

def smallNoted : NotedEvents := ⟨smallEvents, fun _ => false⟩

/-- Two tasks wait for the same bit. A write wakes both, and the more urgent one takes the bit and
sleeps. -/
def twoReaders : List EventStep :=
  [.init 0, .kernel (smallTask 10), .kernel (smallTask 11), .kernel .start,
    .read false (some 0) 1#32 orClr losWaitForever, .kernel .pendSV,
    .read false (some 0) 1#32 orClr losWaitForever, .kernel .pendSV,
    .write (some 0) 1#32, .kernel .pendSV,
    .resume, .kernel (.delay 5), .kernel .pendSV]


omit [Config] in
/-- The other one comes back from its wait with nothing. -/
theorem losEventRead_forever_nothing :
    letI := smallConfig
    ∃ s s' : EventState, EventBooted smallEvents ∧ Run eventStep smallEvents twoReaders s ∧ s.kernel.calling ∧
      s.reading s.kernel.runTask = some (0, 1#32, orClr) ∧
      losEventReadResume s 0 1#32 orClr = (s', .value 0#32) ∧ ¬ EventMet 1#32 orClr 0#32 := by
  let := smallConfig
  have hrun : (twoReaders.foldlM eventNext smallEvents).map (fun s => (s.kernel.calling,
      s.reading s.kernel.runTask, (losEventReadResume s 0 1#32 orClr).2)) =
      some (true, some (0, 1#32, orClr), .value 0#32) := by decide +kernel
  rw [Option.map_eq_some_iff] at hrun
  obtain ⟨s, hs, hval⟩ := hrun
  simp only [Prod.mk.injEq] at hval
  obtain ⟨hcall, hread, hret⟩ := hval
  have hb : EventBooted smallEvents := ⟨smallKernel_booted, fun _ => rfl, fun _ => rfl⟩
  exact ⟨s, _, hb, run_mono (fun _ _ _ => eventNext_step) (run_of_foldlM hs), hcall, hread,
    Prod.ext rfl hret, fun h => h.some rfl⟩

omit [Config] in
/-- The one that runs first has the bit, and the loss is noted for the other one. -/
theorem losEventRead_forever_twoReaders :
    letI := smallConfig
    ∃ s s' : NotedEvents, Run notedEventStep smallNoted (twoReaders.take 10) s ∧
      (losEventReadResume s.toEventState 0 1#32 orClr).2 = .value 1#32 ∧ EventMet 1#32 orClr 1#32 ∧
      Run notedEventStep smallNoted twoReaders s' ∧ s'.cleared s'.kernel.runTask = true := by
  let := smallConfig
  have hb : EventBooted smallNoted.toEventState := ⟨smallKernel_booted, fun _ => rfl, fun _ => rfl⟩
  have hval : ∀ bits : BitVec 32, ∀ steps : List EventStep, (steps.foldlM notedNext smallNoted).map (fun s =>
      (s.kernel.calling, s.reading s.kernel.runTask, (losEventReadResume s.toEventState 0 1#32 orClr).2)) =
      some (true, some (0, 1#32, orClr), .value bits) →
    ∃ s, Run notedEventStep smallNoted steps s ∧
      (losEventReadResume s.toEventState 0 1#32 orClr).2 = .value bits ∧
      (EventMet 1#32 orClr bits ∨ bits = 0#32 ∧ s.cleared s.kernel.runTask = true) := by
    intro bits steps hrun
    rw [Option.map_eq_some_iff] at hrun
    obtain ⟨s, hs, hval⟩ := hrun
    simp only [Prod.mk.injEq] at hval
    obtain ⟨hcall, hread, hret⟩ := hval
    have hr : Run notedEventStep smallNoted steps s :=
      run_mono (fun _ _ _ => notedNext_step) (run_of_foldlM hs)
    exact ⟨s, hr, hret, (losEventRead_forever (by decide) hb hr hcall).2 _ _ _ _ _ hread (Prod.ext rfl hret)⟩
  obtain ⟨s, hs, hret, hmet | ⟨h, _⟩⟩ := hval 1#32 (twoReaders.take 10) (by decide +kernel)
  · obtain ⟨s', hs', _, hmet' | ⟨_, hc⟩⟩ := hval 0#32 twoReaders (by decide +kernel)
    · exact absurd rfl hmet'.some
    · exact ⟨s, s', hs, hret, hmet, hs', hc⟩
  · cases h

end LiteosM.Ipc
