import LiteosM.Ipc.Event

/-!
# No event is missed

`EventInv` relates the bits that are set to every task on the list: the condition a
waiter reads for does not hold. A write wakes exactly those for which it comes to hold,
and every other step can only clear bits.
-/

namespace LiteosM.Ipc

open LiteosM.Kernel LiteosM.Lib.DlList LiteosM.Lib.LinkedList LiteosM.Lib.Transition

/-- What `OsEventReadParamCheck` lets through. -/
structure EventWait (eventMask mode : BitVec 32) : Prop where
  mask : eventMask ≠ 0#32
  one : mode &&& losWaitmodeOr ≠ 0#32 → mode &&& losWaitmodeAnd = 0#32
  some : mode &&& losWaitmodeOr = 0#32 → mode &&& losWaitmodeAnd ≠ 0#32

section

variable {s : EventState} {id id' eventMask mode events : BitVec 32} {e : Nat}

theorem osEventReadParamCheck_ok (h : osEventReadParamCheck s (some e) eventMask mode = .losOk) :
    s.initialized e = true ∧ EventWait eventMask mode := by
  unfold osEventReadParamCheck at h
  dsimp only at h
  split at h
  · cases h
  · next hinit =>
    split at h
    · cases h
    · next hmask =>
      split at h
      · cases h
      · split at h
        · cases h
        · next hmode =>
          obtain ⟨h1, h2⟩ := not_or.mp hmode
          have h3 := (not_or.mp h2).2
          refine ⟨by simpa using hinit, hmask, fun ho => ?_, fun ho ha => ?_⟩
          · exact not_not.mp fun ha => h1 ⟨ho, ha⟩
          · apply h3
            rw [BitVec.and_or_distrib_left, ho, ha]
            rfl

theorem losEventPoll_eq_zero (hmask : eventMask ≠ 0#32) :
    (losEventPoll id eventMask mode).1 = 0#32 ↔
      if mode &&& losWaitmodeOr ≠ 0#32 then id &&& eventMask = 0#32
      else eventMask ≠ id &&& eventMask := by
  unfold losEventPoll
  dsimp only
  by_cases ho : mode &&& losWaitmodeOr ≠ 0#32
  · rw [if_pos ho, if_pos ho]
    by_cases h : id &&& eventMask ≠ 0#32
    · rw [if_pos h]
    · rw [if_neg h]
      exact iff_of_true rfl (not_not.mp h)
  · rw [if_neg ho, if_neg ho]
    by_cases h : eventMask = id &&& eventMask
    · rw [if_pos ⟨hmask, h⟩, ← h]
      exact iff_of_false hmask (not_not.mpr rfl)
    · rw [if_neg fun h' => h h'.2]
      exact iff_of_true rfl h

theorem losEventPoll_clear (hmask : eventMask ≠ 0#32)
    (h : (losEventPoll id eventMask mode).1 = 0#32) (x : BitVec 32) :
    (losEventPoll (id &&& x) eventMask mode).1 = 0#32 := by
  rw [losEventPoll_eq_zero hmask] at h ⊢
  split at h
  · next ho =>
    rw [if_pos ho, BitVec.and_assoc, BitVec.and_comm x, ← BitVec.and_assoc, h, BitVec.zero_and]
  · next ho =>
    rw [if_neg ho]
    intro he
    apply h
    have h1 : id &&& (id &&& x &&& eventMask) = id &&& x &&& eventMask := by
      rw [BitVec.and_assoc id x, ← BitVec.and_assoc id id, BitVec.and_self]
    rw [← he] at h1
    exact h1.symm

theorem losEventPoll_value (id eventMask mode : BitVec 32) :
    (∃ x, (losEventPoll id eventMask mode).2 = id &&& x) ∧
      ((losEventPoll id eventMask mode).1 = 0#32 → (losEventPoll id eventMask mode).2 = id) := by
  unfold losEventPoll
  dsimp only
  generalize (if mode &&& losWaitmodeOr ≠ 0#32 then
    if id &&& eventMask ≠ 0#32 then id &&& eventMask else 0#32
    else if eventMask ≠ 0#32 ∧ eventMask = id &&& eventMask then id &&& eventMask else 0#32) = ret
  constructor
  · split
    · exact ⟨_, rfl⟩
    · exact ⟨BitVec.allOnes 32, BitVec.and_allOnes.symm⟩
  · intro h
    rw [if_neg fun h' => h'.1 h]

theorem eventWakes_iff {t : Nat} (hw : EventWait (s.eventMask t) (s.eventMode t))
    (hold : (losEventPoll id (s.eventMask t) (s.eventMode t)).1 = 0#32)
    (hid : s.uwEventID e = id ||| events) :
    eventWakes s e events t = true ↔
      (losEventPoll (s.uwEventID e) (s.eventMask t) (s.eventMode t)).1 ≠ 0#32 := by
  rw [Ne, losEventPoll_eq_zero hw.mask]
  rw [losEventPoll_eq_zero hw.mask] at hold
  unfold eventWakes
  by_cases ho : s.eventMode t &&& losWaitmodeOr ≠ 0#32
  · rw [if_pos ho] at hold ⊢
    have hnew : s.uwEventID e &&& s.eventMask t = s.eventMask t &&& events := by
      rw [hid, BitVec.and_comm, BitVec.and_or_distrib_left, BitVec.and_comm _ id, hold, BitVec.zero_or]
    rw [hnew]
    simp [ho, hw.one ho]
  · rw [if_neg ho]
    have ho' := not_not.mp ho
    simp only [ho', hw.some ho', ne_eq, not_true_eq_false, decide_false, Bool.false_and, Bool.false_or,
      not_false_eq_true, decide_true, Bool.true_and, decide_eq_true_eq, not_not]
    rw [BitVec.and_comm]
    exact eq_comm

end

/-- Waking neither reports a timeout nor ends a task. -/
structure SameEnd (st st' : TaskStatus) : Prop where
  timeout : st'.timeout = st.timeout
  unused : st'.unused = st.unused

theorem SameEnd.trans {st₁ st₂ st₃ : TaskStatus} (h₁ : SameEnd st₁ st₂) (h₂ : SameEnd st₂ st₃) :
    SameEnd st₁ st₃ :=
  ⟨h₂.timeout.trans h₁.timeout, h₂.unused.trans h₁.unused⟩

variable [Config]

structure EventInv (s : EventState) (V : View Node) : Prop where
  machine : Machine s.kernel V
  head : ∀ e, s.initialized e = true → V.role (.wait (.stEventList e)) = .head
  loose : ∀ e, s.initialized e = false → V.role (.wait (.stEventList e)) = .loose
  unmet : ∀ e t, V.role (.pendList t) = .member (.wait (.stEventList e)) →
    EventWait (s.eventMask t) (s.eventMode t) ∧
      (losEventPoll (s.uwEventID e) (s.eventMask t) (s.eventMode t)).1 = 0#32

/-- A reader goes on waiting, unless what it waits for is there. -/
structure ReaderKept (s : EventState) (V : View Node) (s' : EventState) (V' : View Node) (t : Nat) : Prop where
  reading : s'.reading t = s.reading t
  eventMask : s'.eventMask t = s.eventMask t
  eventMode : s'.eventMode t = s.eventMode t
  ended : SameEnd (s.kernel.gTaskCBArray t).taskStatus (s'.kernel.gTaskCBArray t).taskStatus
  place : ∀ l, V'.role (.pendList t) = .member (.wait l) → V.role (.pendList t) = .member (.wait l)
  woken : ∀ l, V.role (.pendList t) = .member (.wait l) → V'.role (.pendList t) = .member (.wait l) ∨
    ∃ e, l = .stEventList e ∧ (losEventPoll (s'.uwEventID e) (s.eventMask t) (s.eventMode t)).1 ≠ 0#32

/-- A reader starts to wait. -/
structure ReaderWaits (s : EventState) (V : View Node) (t e : Nat) : Prop where
  live : (s.kernel.gTaskCBArray t).taskStatus.unused = false
  reading : s.reading t = some (e, s.eventMask t, s.eventMode t)
  place : V.role (.pendList t) = .member (.wait (.stEventList e))

section

variable {s s' : EventState} {V V' : View Node} {k : KernelState} {e t : Nat} {events : BitVec 32}

omit [Config] in
theorem ReaderKept.refl (s : EventState) (V : View Node) (t : Nat) : ReaderKept s V s V t :=
  ⟨rfl, rfl, rfl, ⟨rfl, rfl⟩, fun _ h => h, fun _ h => .inl h⟩

/-- The scan of `LOS_EventWrite` over the rest of the list. The induction is on that rest; what
lies before it has been looked at. -/
theorem losEventWriteLoop_spec (events : BitVec 32) (rest : List Node) : ∀ {s : EventState} {V : View Node}
    {before : List Node} {fuel : Nat} (exitFlag : Bool), Machine s.kernel V →
    V.role (.wait (.stEventList e)) = .head →
    V.content (.wait (.stEventList e)) = before ++ rest → rest.length < fuel →
    ∃ k' V' b, losEventWriteLoop e events fuel s (rest.headD (.wait (.stEventList e))) exitFlag =
        some ({ s with kernel := k' }, b) ∧
      Machine k' V' ∧ (∀ w, V'.role (.wait w) = V.role (.wait w)) ∧
      (∀ t w, V'.role (.pendList t) = .member (.wait w) ↔
        V.role (.pendList t) = .member (.wait w) ∧
          ¬(.pendList t ∈ rest ∧ eventWakes s e events t = true)) ∧
      (∀ t, SameEnd (s.kernel.gTaskCBArray t).taskStatus (k'.gTaskCBArray t).taskStatus) ∧
      ∀ t, (s.kernel.gTaskCBArray t).taskStatus.pend = true →
        (k'.gTaskCBArray t).taskStatus.pend = false →
          .pendList t ∈ rest ∧ eventWakes s e events t = true := by
  induction rest with
  | nil =>
    intro s V before fuel exitFlag hm hh hc hlen
    obtain ⟨fuel, rfl⟩ := Nat.exists_eq_add_one.mpr hlen
    refine ⟨s.kernel, V, exitFlag, ?_, hm, fun _ => rfl, fun t w => ?_, fun t => ⟨rfl, rfl⟩, fun t h h' => ?_⟩
    · unfold losEventWriteLoop
      exact if_pos rfl
    · simp
    · rw [h] at h'
      cases h'
  | cons x rest ih =>
    intro s V before fuel exitFlag hm hh hc hlen
    obtain ⟨fuel, rfl⟩ := Nat.exists_eq_add_one.mpr (Nat.lt_of_le_of_lt (Nat.zero_le _) hlen)
    have hf := hm.inv.core.ready.forest
    have hx : x ∈ V.content (.wait (.stEventList e)) := by
      rw [hc]
      exact List.mem_append_right _ List.mem_cons_self
    obtain ⟨u, hu, rfl⟩ := hm.inv.core.mem_pendList hx (.inr (.inr (.inr ⟨_, rfl⟩)))
    have hrole := (hf.mem _ _).mp hx
    have hnd := hf.nodup (.wait (.stEventList e))
    rw [hc] at hnd
    have hnot : Node.pendList u ∉ rest := (List.nodup_cons.mp (List.nodup_append.mp hnd).2.1).1
    have hnext : s.kernel.links.next (.pendList u) = rest.headD (.wait (.stEventList e)) :=
      (hf.cell hh hc).1
    have hlen' : rest.length < fuel := Nat.lt_of_succ_lt_succ hlen
    have hpend : (s.kernel.gTaskCBArray u).taskStatus.pend = true := hm.inv.pend_of_wait hu hrole
    unfold losEventWriteLoop
    rw [List.headD_cons, if_neg (by simp)]
    simp only [osTcbFromPendList, Option.bind_eq_bind, Option.bind_some, hnext]
    by_cases hwk : eventWakes s e events u = true
    · -- `u` leaves the list, and its successor was read before
      obtain ⟨k1, V1, heq, hm1, hmv, hgone, hcont, hs1, _, _⟩ := hm.wake hu hpend
      have hc1 : V1.content (.wait (.stEventList e)) = before ++ rest := by
        rw [hcont, hc, List.erase_append_right]
        · rw [List.erase_cons_head]
        · intro hb
          exact (List.nodup_append.mp hnd).2.2 _ hb _ List.mem_cons_self rfl
      have hw1 : ∀ w, V1.role (.wait w) = V.role (.wait w) := fun w => hmv.role _ (by simp) (by simp)
      obtain ⟨k2, V2, b, heq2, hm2, hr2, hp2, he2, hs2⟩ := ih (s := { s with kernel := k1 }) true hm1
        ((hw1 _).trans hh) hc1 hlen'
      have he1 : ∀ t, SameEnd (s.kernel.gTaskCBArray t).taskStatus (k1.gTaskCBArray t).taskStatus := by
        intro t
        by_cases htu : t = u
        · rw [htu, hs1]
          split <;> exact ⟨rfl, rfl⟩
        · rw [hmv.task t htu]
          exact ⟨rfl, rfl⟩
      rw [if_pos hwk, heq]
      refine ⟨k2, V2, b, heq2, hm2, fun w => (hr2 w).trans (hw1 w), fun t w => ?_,
        fun t => (he1 t).trans (he2 t), fun t h h' => ?_⟩
      · rw [hp2]
        by_cases htu : t = u
        · rw [htu]
          refine iff_of_false (fun h => hgone w h.1) fun h => h.2 ⟨List.mem_cons_self, hwk⟩
        · have hne : Node.pendList t ≠ .pendList u := by simpa using htu
          rw [hmv.role _ hne (by simp), List.mem_cons, or_iff_right hne]
          exact Iff.rfl
      · by_cases htu : t = u
        · rw [htu]
          exact ⟨List.mem_cons_self, hwk⟩
        · have h1 : (k1.gTaskCBArray t).taskStatus.pend = true := by
            rw [hmv.task t htu]
            exact h
          obtain ⟨hmem, hwt⟩ := hs2 t h1 h'
          exact ⟨List.mem_cons_of_mem _ hmem, hwt⟩
    · rw [if_neg hwk]
      have hc1 : V.content (.wait (.stEventList e)) = (before ++ [.pendList u]) ++ rest := by
        rw [hc, List.append_assoc]
        rfl
      obtain ⟨k2, V2, b, heq2, hm2, hr2, hp2, he2, hs2⟩ := ih exitFlag hm hh hc1 hlen'
      refine ⟨k2, V2, b, heq2, hm2, hr2, fun t w => ?_, he2, fun t h h' => ?_⟩
      · rw [hp2]
        by_cases htu : t = u
        · rw [htu]
          exact and_congr_right fun _ => iff_of_true (fun h => hwk h.2) fun h => hwk h.2
        · rw [List.mem_cons, or_iff_right (show Node.pendList t ≠ .pendList u by simpa using htu)]
      · obtain ⟨hmem, hwt⟩ := hs2 t h h'
        exact ⟨List.mem_cons_of_mem _ hmem, hwt⟩

theorem losEventWrite_eq (hinv : EventInv s V) (hinit : s.initialized e = true)
    (hev : events &&& losErrtypeError = 0#32) (s₁ : EventState) (hs₁ : s₁ = { s with
      uwEventID := Function.update s.uwEventID e (s.uwEventID e ||| events) }) :
    ∃ k' V', losEventWrite s (some e) events = some ({ s₁ with kernel := k' }, .losOk) ∧
      Machine k' V' ∧ (∀ w, V'.role (.wait w) = V.role (.wait w)) ∧
      (∀ t w, V'.role (.pendList t) = .member (.wait w) ↔ V.role (.pendList t) = .member (.wait w) ∧
        ¬(V.role (.pendList t) = .member (.wait (.stEventList e)) ∧ eventWakes s₁ e events t = true)) ∧
      (∀ t, SameEnd (s.kernel.gTaskCBArray t).taskStatus (k'.gTaskCBArray t).taskStatus) ∧
      ∀ t, (s.kernel.gTaskCBArray t).taskStatus.pend = true →
        (k'.gTaskCBArray t).taskStatus.pend = false →
          V.role (.pendList t) = .member (.wait (.stEventList e)) ∧ eventWakes s₁ e events t = true := by
  have hm := hinv.machine
  have hf := hm.inv.core.ready.forest
  have hh := hinv.head e hinit
  have hk : s₁.kernel = s.kernel := by rw [hs₁]
  unfold losEventWrite
  dsimp only
  rw [if_neg (by simp [hinit]), if_neg (by simp [hev])]
  simp only [← hs₁]
  cases hempty : losListEmpty s.kernel (.wait (.stEventList e)) with
  | true =>
    have hnil := (hf.listEmpty_iff hh).mp hempty
    have hno : ∀ t, V.role (.pendList t) ≠ .member (.wait (.stEventList e)) := by
      intro t ht
      have hmem := (hf.mem _ _).mpr ht
      rw [hnil] at hmem
      cases hmem
    rw [if_neg (by simp)]
    refine ⟨s.kernel, V, ?_, hm, fun _ => rfl, fun t w => ?_, fun t => ⟨rfl, rfl⟩, fun t h h' => ?_⟩
    · rw [← hk]
    · rw [iff_self_and]
      exact fun _ h => hno t h.1
    · rw [h] at h'
      cases h'
  | false =>
    rw [if_pos (by simp)]
    have hnext : s.kernel.links.next (.wait (.stEventList e)) =
        (V.content (.wait (.stEventList e))).headD (.wait (.stEventList e)) := links_head (hf.links _ hh)
    have hlen : (V.content (.wait (.stEventList e))).length < gTaskMaxNum + 1 :=
      Nat.lt_succ_of_le (hm.inv.core.length_le Node.pendList fun y hy =>
        hm.inv.core.mem_pendList hy (.inr (.inr (.inr ⟨_, rfl⟩))))
    have hc : V.content (.wait (.stEventList e)) = [] ++ V.content (.wait (.stEventList e)) := rfl
    have hm₁ : Machine s₁.kernel V := by
      rw [hk]
      exact hm
    obtain ⟨k', V', b, heq, hm', hw', hp', he', hs'⟩ := losEventWriteLoop_spec events _ false hm₁ hh hc hlen
    rw [hk] at he'
    rw [hnext, heq]
    simp only [Option.bind_eq_bind, Option.bind_some]
    have hp : ∀ t w, V'.role (.pendList t) = .member (.wait w) ↔
        V.role (.pendList t) = .member (.wait w) ∧
        ¬(V.role (.pendList t) = .member (.wait (.stEventList e)) ∧ eventWakes s₁ e events t = true) := by
      intro t w
      rw [hp', hf.mem]
    have hs : ∀ t, (s.kernel.gTaskCBArray t).taskStatus.pend = true →
        (k'.gTaskCBArray t).taskStatus.pend = false →
          V.role (.pendList t) = .member (.wait (.stEventList e)) ∧ eventWakes s₁ e events t = true := by
      intro t h h'
      rw [← hf.mem]
      exact hs' t (by rw [hk]; exact h) h'
    cases b with
    | true =>
      obtain ⟨c, hc⟩ := losSchedule_eq k'
      refine ⟨losSchedule k', V', rfl, hm'.losSchedule, hw', hp, fun t => ?_, fun t h h' => hs t h ?_⟩
      · rw [hc]
        exact he' t
      · rw [hc] at h'
        exact h'
    | false => exact ⟨k', V', rfl, hm', hw', hp, he', hs⟩

theorem losEventWrite_spec (hinv : EventInv s V) (eventCB : Option Nat) (events : BitVec 32) :
    ∃ s' V' r, losEventWrite s eventCB events = some (s', r) ∧ EventInv s' V' ∧
      (∀ t, ReaderKept s V s' V' t) ∧ ∀ t, (s.kernel.gTaskCBArray t).taskStatus.pend = true →
        (s'.kernel.gTaskCBArray t).taskStatus.pend = false → ∃ e, eventCB = some e ∧
          (losEventPoll (s'.uwEventID e) (s'.eventMask t) (s'.eventMode t)).1 ≠ 0#32 := by
  by_cases hok : ∃ e, eventCB = some e ∧ s.initialized e = true ∧ events &&& losErrtypeError = 0#32
  · obtain ⟨e, rfl, hinit, hev⟩ := hok
    obtain ⟨s₁, hs₁⟩ : ∃ s₁, s₁ = { s with
        uwEventID := Function.update s.uwEventID e (s.uwEventID e ||| events) } := ⟨_, rfl⟩
    obtain ⟨k', V', heq, hm', hw', hp', hend, hs'⟩ := losEventWrite_eq hinv hinit hev s₁ hs₁
    have hwait : ∀ t, V.role (.pendList t) = .member (.wait (.stEventList e)) →
        EventWait (s₁.eventMask t) (s₁.eventMode t) ∧ (eventWakes s₁ e events t = true ↔
          (losEventPoll (s₁.uwEventID e) (s₁.eventMask t) (s₁.eventMode t)).1 ≠ 0#32) := by
      intro t ht
      obtain ⟨hw, hold⟩ := hinv.unmet e t ht
      have hid : s₁.uwEventID e = s.uwEventID e ||| events := by
        rw [hs₁]
        exact Function.update_self e _ _
      rw [show s.eventMask = s₁.eventMask by rw [hs₁], show s.eventMode = s₁.eventMode by rw [hs₁]]
        at hw hold
      exact ⟨hw, eventWakes_iff hw hold hid⟩
    have hkept : ∀ t, ReaderKept s V { s₁ with kernel := k' } V' t := by
      intro t
      refine ⟨by rw [hs₁], by rw [hs₁], by rw [hs₁], hend t, fun l hl => ((hp' t l).mp hl).1, fun l hl => ?_⟩
      by_cases hwk : V.role (.pendList t) = .member (.wait (.stEventList e)) ∧ eventWakes s₁ e events t = true
      · refine .inr ⟨e, ?_, ?_⟩
        · rw [hl] at hwk
          injection hwk.1 with h
          injection h
        · rw [show s.eventMask = s₁.eventMask by rw [hs₁], show s.eventMode = s₁.eventMode by rw [hs₁]]
          exact (hwait t hwk.1).2.mp hwk.2
      · exact .inl ((hp' t l).mpr ⟨hl, hwk⟩)
    refine ⟨_, V', _, heq, ⟨hm', fun e' he' => ?_, fun e' he' => ?_, fun e' t ht => ?_⟩, hkept, fun t h h' => ?_⟩
    · rw [hw']
      apply hinv.head
      rw [hs₁] at he'
      exact he'
    · rw [hw']
      apply hinv.loose
      rw [hs₁] at he'
      exact he'
    · obtain ⟨ht, hno⟩ := (hp' t _).mp ht
      by_cases he : e' = e
      · rw [he] at ht ⊢
        obtain ⟨hw, hiff⟩ := hwait t ht
        refine ⟨hw, ?_⟩
        by_contra hne
        exact hno ⟨ht, hiff.mpr hne⟩
      · have h := hinv.unmet e' t ht
        have hid : s.uwEventID e' = s₁.uwEventID e' := by
          rw [hs₁]
          exact (Function.update_of_ne he _ _).symm
        rw [hid, show s.eventMask = s₁.eventMask by rw [hs₁],
          show s.eventMode = s₁.eventMode by rw [hs₁]] at h
        exact h
    · obtain ⟨ht, hwk⟩ := hs' t h h'
      exact ⟨e, rfl, (hwait t ht).2.mp hwk⟩
  · have hsame : ∃ r, losEventWrite s eventCB events = some (s, r) := by
      unfold losEventWrite
      cases eventCB with
      | none => exact ⟨_, rfl⟩
      | some e =>
        dsimp only
        split
        · exact ⟨_, rfl⟩
        · next hinit =>
          split
          · exact ⟨_, rfl⟩
          · next hev =>
            exact absurd ⟨e, rfl, by simpa using hinit, not_not.mp hev⟩ hok
    obtain ⟨r, hr⟩ := hsame
    refine ⟨s, V, r, hr, hinv, ReaderKept.refl s V, fun t h h' => ?_⟩
    rw [h] at h'
    cases h'

theorem EventInv.clear (hinv : EventInv s V) (e : Nat) {id : BitVec 32}
    (hid : ∃ x, id = s.uwEventID e &&& x) :
    EventInv { s with uwEventID := Function.update s.uwEventID e id } V := by
  obtain ⟨x, rfl⟩ := hid
  refine ⟨hinv.machine, hinv.head, hinv.loose, fun e' t ht => ?_⟩
  obtain ⟨hw, hold⟩ := hinv.unmet e' t ht
  refine ⟨hw, ?_⟩
  by_cases he : e' = e
  · rw [he] at hold ⊢
    show (losEventPoll (Function.update s.uwEventID e (s.uwEventID e &&& x) e) _ _).1 = 0#32
    rw [Function.update_self]
    exact losEventPoll_clear hw.mask hold x
  · show (losEventPoll (Function.update s.uwEventID e (s.uwEventID e &&& x) e') _ _).1 = 0#32
    rw [Function.update_of_ne he]
    exact hold

theorem EventInv.poll (hinv : EventInv s V) (e : Nat) (eventMask mode : BitVec 32) :
    EventInv (s.poll e eventMask mode).1 V :=
  hinv.clear e (losEventPoll_value _ _ _).1

theorem EventInv.resume (hinv : EventInv s V) (e : Nat) (eventMask mode : BitVec 32) :
    EventInv (losEventReadResume s e eventMask mode).1 V := by
  have hr : EventInv { s with reading := Function.update s.reading s.kernel.runTask none } V :=
    ⟨hinv.machine, hinv.head, hinv.loose, hinv.unmet⟩
  unfold losEventReadResume
  dsimp only
  split
  · exact ⟨hinv.machine.clearTimeout _, hinv.head, hinv.loose, hinv.unmet⟩
  · exact hr.poll _ _ _

theorem losEventInit_inv (hinv : EventInv s V) (hfresh : s.initialized e = false) :
    ∃ V', EventInv (losEventInit s (some e)).1 V' ∧ ∀ t, ReaderKept s V (losEventInit s (some e)).1 V' t := by
  have hloose := hinv.loose e hfresh
  have hf := hinv.machine.inv.core.ready.forest.listInit hloose
  have hrole : ∀ y, y ≠ .wait (.stEventList e) →
      (V.setRole (.wait (.stEventList e)) .head).role y = V.role y := fun y hy => by
    rw [View.setRole_role, if_neg hy]
  have hkept : ∀ t, ReaderKept s V (losEventInit s (some e)).1 (V.setRole (.wait (.stEventList e)) .head) t :=
    fun t => ⟨rfl, rfl, rfl, ⟨rfl, rfl⟩, fun l hl => (hrole _ (by simp)).symm.trans hl,
      fun l hl => .inl ((hrole _ (by simp)).trans hl)⟩
  refine ⟨_, ⟨hinv.machine.setRole (by simp) hf, fun e' he' => ?_, fun e' he' => ?_, fun e' t ht => ?_⟩, hkept⟩
  · by_cases he : e' = e
    · rw [he, View.setRole_role, if_pos rfl]
    · rw [hrole _ (by simpa using he)]
      apply hinv.head
      rw [← he']
      exact (Function.update_of_ne he _ _).symm
  · by_cases he : e' = e
    · rw [he] at he'
      have h := he'.symm.trans (Function.update_self e _ _)
      cases h
    · rw [hrole _ (by simpa using he)]
      apply hinv.loose
      rw [← he']
      exact (Function.update_of_ne he _ _).symm
  · rw [hrole _ (by simp)] at ht
    have he : e' ≠ e := by
      intro he
      have h := hinv.machine.inv.core.ready.forest.owner _ _ ht
      rw [he, hloose] at h
      cases h
    obtain ⟨hw, hold⟩ := hinv.unmet e' t ht
    refine ⟨hw, ?_⟩
    show (losEventPoll (Function.update s.uwEventID e 0#32 e') _ _).1 = 0#32
    rw [Function.update_of_ne he]
    exact hold

theorem losEventDestroy_inv (hinv : EventInv s V) (eventCB : Option Nat) :
    ∃ V', EventInv (losEventDestroy s eventCB).1 V' ∧
      ∀ t, ReaderKept s V (losEventDestroy s eventCB).1 V' t := by
  unfold losEventDestroy
  cases eventCB with
  | none => exact ⟨V, hinv, ReaderKept.refl s V⟩
  | some e =>
    dsimp only
    split
    · exact ⟨V, hinv, ReaderKept.refl s V⟩
    · next h =>
      have h' : s.initialized e = true ∧ losListEmpty s.kernel (.wait (.stEventList e)) = true := by
        simpa using h
      have hf := hinv.machine.inv.core.ready.forest
      have hh := hinv.head e h'.1
      have hrole : ∀ y, y ≠ .wait (.stEventList e) →
          (V.setRole (.wait (.stEventList e)) .loose).role y = V.role y := fun y hy => by
        rw [View.setRole_role, if_neg hy]
      have hm := hinv.machine.setRole (by simp) (hf.retire hh ((hf.listEmpty_iff hh).mp h'.2))
      refine ⟨_, ⟨hm, fun e' he' => ?_, fun e' he' => ?_, fun e' t ht => ?_⟩, fun t => ⟨rfl, rfl, rfl, ⟨rfl, rfl⟩,
        fun l hl => (hrole _ (by simp)).symm.trans hl, fun l hl => .inl ((hrole _ (by simp)).trans hl)⟩⟩
      · by_cases he : e' = e
        · rw [he] at he'
          have h := he'.symm.trans (Function.update_self e _ _)
          cases h
        · rw [hrole _ (by simpa using he)]
          apply hinv.head
          rw [← he']
          exact (Function.update_of_ne he _ _).symm
      · by_cases he : e' = e
        · rw [he, View.setRole_role, if_pos rfl]
        · rw [hrole _ (by simpa using he)]
          apply hinv.loose
          rw [← he']
          exact (Function.update_of_ne he _ _).symm
      · rw [hrole _ (by simp)] at ht
        exact hinv.unmet e' t ht

/-- A reader that blocks has looked at the word with interrupts off. -/
theorem losEventRead_inv (hinv : EventInv s V) (intActive : Bool) (eventCB : Option Nat)
    (eventMask mode : BitVec 32) (timeOut : Nat) (hcall : intActive = false → s.kernel.calling) :
    ∃ V', EventInv (losEventRead s intActive eventCB eventMask mode timeOut).1 V' ∧
      ∀ t, ReaderKept s V (losEventRead s intActive eventCB eventMask mode timeOut).1 V' t ∨
        t = s.kernel.runTask ∧
          ∃ e, ReaderWaits (losEventRead s intActive eventCB eventMask mode timeOut).1 V' t e := by
  have hsame : ∀ t, ReaderKept s V s V t ∨ t = s.kernel.runTask ∧ ∃ e, ReaderWaits s V t e := fun t =>
    .inl (ReaderKept.refl s V t)
  unfold losEventRead
  dsimp only
  split
  · exact ⟨V, hinv, hsame⟩
  · next hcheck =>
    cases eventCB with
    | none => exact ⟨V, hinv, hsame⟩
    | some e =>
      obtain ⟨hinit, hwait⟩ := osEventReadParamCheck_ok (not_not.mp hcheck)
      cases intActive with
      | true => exact ⟨V, hinv, hsame⟩
      | false =>
        have hp := hinv.poll e eventMask mode
        have hpoll : ∀ t, ReaderKept s V (s.poll e eventMask mode).1 V t := fun t =>
          ⟨rfl, rfl, rfl, ⟨rfl, rfl⟩, fun _ h => h, fun _ h => .inl h⟩
        have hzero := (losEventPoll_value (s.uwEventID e) eventMask mode).2
        simp only [Bool.false_eq_true, if_false]
        split
        · next hret =>
          split
          · exact ⟨V, hp, fun t => .inl (hpoll t)⟩
          split
          · exact ⟨V, hp, fun t => .inl (hpoll t)⟩
          next hlock =>
          obtain ⟨V', hV, hm', ht', hst, _⟩ := hp.machine.wait (l := .stEventList e) (hcall rfl)
            (not_not.mp hlock) (hp.head e hinit) timeOut
          have hpl : ∀ w, V.role (.pendList s.kernel.runTask) ≠ .member (.wait w) := by
            intro w hw
            have hcaller := hinv.machine.calling_caller (hcall rfl)
            have hpend := hinv.machine.inv.pend_of_wait hcaller.bound hw
            rw [hcaller.clean.pend] at hpend
            cases hpend
          refine ⟨V', ⟨hm', fun e' he' => ?_, fun e' he' => ?_, fun e' t ht => ?_⟩, fun t => ?_⟩
          · rw [ht'.role _ (by simp) (by simp)]
            exact hinv.head e' he'
          · rw [ht'.role _ (by simp) (by simp)]
            exact hinv.loose e' he'
          · by_cases htr : t = s.kernel.runTask
            · rw [hV, htr, show (s.poll e eventMask mode).1.kernel = s.kernel from rfl, View.put_role,
                if_pos rfl] at ht
              injection ht with ht
              injection ht with ht
              injection ht with ht
              subst ht
              subst htr
              show EventWait (Function.update s.eventMask s.kernel.runTask eventMask s.kernel.runTask)
                (Function.update s.eventMode s.kernel.runTask mode s.kernel.runTask) ∧
                (losEventPoll (Function.update s.uwEventID e
                    (losEventPoll (s.uwEventID e) eventMask mode).2 e)
                  (Function.update s.eventMask s.kernel.runTask eventMask s.kernel.runTask)
                  (Function.update s.eventMode s.kernel.runTask mode s.kernel.runTask)).1 = 0#32
              rw [Function.update_self, Function.update_self, Function.update_self, hzero hret]
              exact ⟨hwait, hret⟩
            · have hne : Node.pendList t ≠ .pendList (s.poll e eventMask mode).1.kernel.runTask :=
                fun h => htr (Node.pendList.inj h)
              rw [ht'.role _ hne (by simp)] at ht
              have hu := hp.unmet e' t ht
              show EventWait (Function.update s.eventMask s.kernel.runTask eventMask t)
                (Function.update s.eventMode s.kernel.runTask mode t) ∧
                (losEventPoll ((s.poll e eventMask mode).1.uwEventID e')
                  (Function.update s.eventMask s.kernel.runTask eventMask t)
                  (Function.update s.eventMode s.kernel.runTask mode t)).1 = 0#32
              rw [Function.update_of_ne htr, Function.update_of_ne htr]
              exact hu
          · obtain ⟨b, hb⟩ := losSchedule_eq
              (osSchedTaskWait (s.poll e eventMask mode).1.kernel (.stEventList e) timeOut)
            by_cases htr : t = s.kernel.runTask
            · refine .inr ⟨htr, e, ?_, ?_, ?_⟩
              · rw [hb, htr]
                refine (congrArg TaskStatus.unused hst).trans ?_
                exact (hinv.machine.calling_caller (hcall rfl)).clean.unused
              · rw [htr]
                show Function.update s.reading s.kernel.runTask (some (e, eventMask, mode)) s.kernel.runTask =
                  some (e, Function.update s.eventMask s.kernel.runTask eventMask s.kernel.runTask,
                    Function.update s.eventMode s.kernel.runTask mode s.kernel.runTask)
                rw [Function.update_self, Function.update_self, Function.update_self]
              · rw [hV, htr]
                exact (View.put_role ..).trans (if_pos rfl)
            · have hne : Node.pendList t ≠ .pendList (s.poll e eventMask mode).1.kernel.runTask :=
                fun h => htr (Node.pendList.inj h)
              have hrole := ht'.role _ hne (by simp)
              refine .inl ⟨Function.update_of_ne htr _ _, Function.update_of_ne htr _ _,
                Function.update_of_ne htr _ _, ?_, fun l hl => hrole.symm.trans hl, fun l hl => .inl (hrole.trans hl)⟩
              rw [hb]
              show SameEnd _ ((osSchedTaskWait (s.poll e eventMask mode).1.kernel
                (.stEventList e) timeOut).gTaskCBArray t).taskStatus
              rw [ht'.task t htr]
              exact ⟨rfl, rfl⟩
        · exact ⟨V, hp, fun t => .inl (hpoll t)⟩

theorem EventInv.settle (hinv : EventInv s V) {event : KernelEvent}
    (hstep : kernelStep s.kernel event = some k) :
    ∃ V', EventInv (s.settle k) V' ∧ Quieted event s.kernel V k V' := by
  obtain ⟨V', hm', hq, _⟩ := kernelStep_spec hinv.machine hstep
  have hrole : ∀ w, V'.role (.wait w) = V.role (.wait w) := fun w => hq.role _ (by simp) (by simp)
  refine ⟨V', ⟨hm', fun e he => (hrole _).trans (hinv.head e he),
    fun e he => (hrole _).trans (hinv.loose e he), fun e t ht => hinv.unmet e t ?_⟩, hq⟩
  have hmem := (hm'.inv.core.ready.forest.mem _ _).mpr ht
  exact (hinv.machine.inv.core.ready.forest.mem _ _).mp ((hq.wait _).subset hmem)

theorem eventStep_inv {step : EventStep} (hinv : EventInv s V) (hstep : eventStep s step s') :
    ∃ V', EventInv s' V' := by
  cases hstep with
  | init fresh =>
    obtain ⟨V', hinv', _⟩ := losEventInit_inv hinv fresh
    exact ⟨V', hinv'⟩
  | destroy =>
    obtain ⟨V', hinv', _⟩ := losEventDestroy_inv hinv _
    exact ⟨V', hinv'⟩
  | read caller =>
    obtain ⟨V', hinv', _⟩ := losEventRead_inv hinv _ _ _ _ _ fun h => (caller h).1
    exact ⟨V', hinv'⟩
  | resume => exact ⟨V, hinv.resume _ _ _⟩
  | poll => exact ⟨V, hinv.poll _ _ _⟩
  | write run =>
    obtain ⟨s₂, V', r, heq, hinv', _, _⟩ := losEventWrite_spec hinv _ _
    rw [heq] at run
    injection run with run
    injection run with run
    rw [← run]
    exact ⟨V', hinv'⟩
  | @clear eventCB events =>
    cases eventCB with
    | none => exact ⟨V, hinv⟩
    | some e => exact ⟨V, hinv.clear e ⟨events, rfl⟩⟩
  | kernel caller run =>
    obtain ⟨V', hinv', _⟩ := hinv.settle run
    exact ⟨V', hinv'⟩

theorem EventInv.booted (hb : EventBooted s) (hm : Machine s.kernel V)
    (hloose : ∀ y : Node, y.isObject = true → V.role y = .loose) :
    EventInv s V ∧ ∀ t l, V.role (.pendList t) ≠ .member (.wait l) := by
  have hoff : ∀ t l, V.role (.pendList t) ≠ .member (.wait l) := by
    intro t l ht
    have h := hm.inv.core.ready.forest.owner _ _ ht
    rw [hloose _ rfl] at h
    cases h
  refine ⟨⟨hm, fun e he => ?_, fun e _ => hloose _ rfl, fun e t ht => absurd ht (hoff t _)⟩, hoff⟩
  rw [hb.2.1] at he
  cases he

theorem eventBooted_inv (hmax : gTaskMaxNum ≤ osInvalid) (hb : EventBooted s) :
    ∃ V, EventInv s V := by
  obtain ⟨V, hm, hloose, _⟩ := booted_machine hmax hb.1
  exact ⟨V, (EventInv.booted hb hm hloose).1⟩

/-- No task waits for events that are there, and a write wakes only those it satisfies. -/
theorem losEventWrite_no_lost_wakeup {s₀ : EventState} {steps : List EventStep}
    (hmax : gTaskMaxNum ≤ osInvalid) (hb : EventBooted s₀) (hrun : Run eventStep s₀ steps s) :
    (∀ e t, s.initialized e = true →
      OnList s.kernel.links (.wait (.stEventList e)) (.pendList t) →
        (losEventPoll (s.uwEventID e) (s.eventMask t) (s.eventMode t)).1 = 0#32) ∧
    ∀ eventCB events, ∃ s' r, losEventWrite s eventCB events = some (s', r) ∧
      ∀ t, (s.kernel.status t).pend = true → (s'.kernel.status t).pend = false →
        ∃ e, eventCB = some e ∧
          (losEventPoll (s'.uwEventID e) (s'.eventMask t) (s'.eventMode t)).1 ≠ 0#32 := by
  have hinv : ∃ V, EventInv s V := run_invariant (fun s => ∃ V, EventInv s V)
    (fun _ _ _ ⟨_, h⟩ hstep => eventStep_inv h hstep) hrun (eventBooted_inv hmax hb)
  obtain ⟨V, hinv⟩ := hinv
  constructor
  · intro e t he ht
    have hf := hinv.machine.inv.core.ready.forest
    exact (hinv.unmet e t ((hf.mem _ _).mp (ht.mem_content hf (hinv.head e he)))).2
  · intro eventCB events
    obtain ⟨s', _, r, heq, _, _, hwoken⟩ := losEventWrite_spec hinv eventCB events
    exact ⟨s', r, heq, hwoken⟩

end

def eventNext (s : EventState) : EventStep → Option EventState
  | .init e => if s.initialized e then none else some (losEventInit s (some e)).1
  | .destroy eventCB => some (losEventDestroy s eventCB).1
  | .read intActive eventCB eventMask mode timeOut =>
    if intActive || s.kernel.calling && (s.reading s.kernel.runTask).isNone then
      some (losEventRead s intActive eventCB eventMask mode timeOut).1
    else none
  | .resume =>
    if s.kernel.calling then
      (s.reading s.kernel.runTask).map fun r => (losEventReadResume s r.1 r.2.1 r.2.2).1
    else none
  | .poll e eventMask mode => some (s.poll e eventMask mode).1
  | .write eventCB events => (losEventWrite s eventCB events).map Prod.fst
  | .clear eventCB events => some (losEventClear s eventCB events).1
  | .kernel event =>
    if event.own && (s.reading s.kernel.runTask).isSome then none
    else (kernelStep s.kernel event).map s.settle

theorem eventNext_step {s s' : EventState} {step : EventStep} (h : eventNext s step = some s') :
    eventStep s step s' := by
  cases step with
  | init e =>
    rw [eventNext, Option.ite_none_left_eq_some] at h
    obtain ⟨hfresh, h⟩ := h
    injection h with h
    exact h ▸ .init (Bool.eq_false_iff.mpr hfresh)
  | destroy eventCB =>
    injection h with h
    exact h ▸ .destroy
  | read intActive eventCB eventMask mode timeOut =>
    rw [eventNext, Option.ite_none_right_eq_some] at h
    obtain ⟨hcall, h⟩ := h
    injection h with h
    refine h ▸ .read fun hint => ?_
    simpa [hint] using hcall
  | resume =>
    rw [eventNext, Option.ite_none_right_eq_some, Option.map_eq_some_iff] at h
    obtain ⟨hcall, ⟨e, eventMask, mode⟩, hread, h⟩ := h
    exact h ▸ .resume hcall hread
  | poll e eventMask mode =>
    injection h with h
    exact h ▸ .poll
  | write eventCB events =>
    rw [eventNext, Option.map_eq_some_iff] at h
    obtain ⟨⟨_, r⟩, hrun, rfl⟩ := h
    exact .write hrun
  | clear eventCB events =>
    injection h with h
    exact h ▸ .clear
  | kernel event =>
    rw [eventNext, Option.ite_none_left_eq_some, Option.map_eq_some_iff] at h
    obtain ⟨hown, k, hrun, rfl⟩ := h
    exact .kernel (fun ho => by simpa [ho] using hown) hrun

def smallEvents : EventState where
  kernel := smallKernel
  uwEventID := fun _ => 0#32
  initialized := fun _ => false
  eventMask := fun _ => 0#32
  eventMode := fun _ => 0#32
  reading := fun _ => none

def orClr : BitVec 32 := losWaitmodeOr ||| losWaitmodeClr

/-- One task waits for bit 0, the other one for bits 1 and 2 together. Bit 1 is written. -/
def twoMasks : List EventStep :=
  [.init 0, .kernel (smallTask 10), .kernel (smallTask 11), .kernel .start,
    .read false (some 0) 1#32 orClr losWaitForever, .kernel .pendSV,
    .read false (some 0) 6#32 (losWaitmodeAnd ||| losWaitmodeClr) losWaitForever, .kernel .pendSV,
    .write (some 0) 2#32]

omit [Config] in
/-- Both go on waiting, and a write of bit 2 wakes the second one alone. -/
theorem losEventWrite_no_lost_wakeup_small :
    letI := smallConfig
    ∃ s s' r, Run eventStep smallEvents twoMasks s ∧ s.uwEventID 0 = 2#32 ∧
      (∀ t, t = 1 ∨ t = 2 → OnList s.kernel.links (.wait (.stEventList 0)) (.pendList t) ∧
        (losEventPoll (s.uwEventID 0) (s.eventMask t) (s.eventMode t)).1 = 0#32) ∧
      losEventWrite s (some 0) 4#32 = some (s', r) ∧ (s'.kernel.status 1).pend = true ∧
      (s'.kernel.status 2).pend = false ∧
      (losEventPoll (s'.uwEventID 0) (s'.eventMask 2) (s'.eventMode 2)).1 ≠ 0#32 := by
  let := smallConfig
  have hrun : (twoMasks.foldlM eventNext smallEvents).bind (fun s => (losEventWrite s (some 0) 4#32).map fun r =>
      ((s.uwEventID 0, s.initialized 0, s.kernel.links.next (.wait (.stEventList 0)), s.kernel.links.next (.pendList 1)),
        (s.kernel.status 2).pend, (r.1.kernel.status 1).pend, (r.1.kernel.status 2).pend)) =
      some ((2#32, true, .pendList 1, .pendList 2), true, true, false) := by decide +kernel
  obtain ⟨s, hs, hwrite⟩ := Option.bind_eq_some_iff.mp hrun
  obtain ⟨⟨s', r⟩, hwrite, hval⟩ := Option.map_eq_some_iff.mp hwrite
  simp only [Prod.mk.injEq] at hval
  obtain ⟨⟨hbits, hinit, hfirst, hsecond⟩, hpend, hone, htwo⟩ := hval
  have hb : EventBooted smallEvents := ⟨smallKernel_booted, fun _ => rfl, fun _ => rfl⟩
  have hsteps : Run eventStep smallEvents twoMasks s := run_mono (fun _ _ _ => eventNext_step) (run_of_foldlM hs)
  obtain ⟨hunmet, hwrites⟩ := losEventWrite_no_lost_wakeup (by decide) hb hsteps
  refine ⟨s, s', r, hsteps, hbits, fun t ht => ?_, hwrite, hone, htwo, ?_⟩
  · have hon : OnList s.kernel.links (.wait (.stEventList 0)) (.pendList t) := by
      rcases ht with rfl | rfl
      · exact ⟨by simp, 1, hfirst⟩
      · refine ⟨by simp, 2, ?_⟩
        show s.kernel.links.next (s.kernel.links.next _) = _
        rw [hfirst, hsecond]
    exact ⟨hon, hunmet 0 t hinit hon⟩
  · obtain ⟨_, _, heq, hwoken⟩ := hwrites (some 0) 4#32
    obtain ⟨rfl, rfl⟩ := Prod.mk.inj (Option.some.inj (hwrite.symm.trans heq))
    obtain ⟨e, he, hmet⟩ := hwoken 2 hpend htwo
    obtain rfl := Option.some.inj he
    exact hmet

end LiteosM.Ipc
