import LiteosM.Posix.MqueueCalls

/-!
# The names of the message queues

To its users a queue is a name with the descriptors that are open for it, and a mark that the name is to go
with the last of them. The table refines this over whole runs. The queue of the kernel goes with the name if
nobody uses it, and is lost otherwise.
-/

namespace LiteosM.Mqueue

open LiteosM.Kernel LiteosM.Ipc LiteosM.Lib.DlList LiteosM.Lib.ByteMemory LiteosM.Lib.Transition

/-- A message queue as its users know it. -/
structure Named where
  unlinked : Bool
  descriptors : List Nat

abbrev Directory := List Byte → Option Named

def noNames : Directory := fun _ => none

def Named.close (o : Named) (p : Nat) : Option Named :=
  if p ∈ o.descriptors then
    if o.unlinked ∧ o.descriptors.erase p = [] then none else some { o with descriptors := o.descriptors.erase p }
  else some o

def Named.unlink (o : Named) : Option Named :=
  if o.descriptors = [] then none else some { o with unlinked := true }

def Named.join (p : Nat) : Option Named → Named
  | none => ⟨false, [p]⟩
  | some o => { o with descriptors := p :: o.descriptors }

/-- The directory after a call, by what the call has returned. -/
def Directory.after (d : Directory) : MqEvent → MqResult → Directory
  | .mqOpen (some n) _ _ _ _ _, .opened (.ok p) => Function.update d n (some (Named.join p (d n)))
  | .mqClose p, _ => fun n => (d n).bind fun o => o.close p
  | .mqUnlink (some n), _ => Function.update d n ((d n).bind Named.unlink)
  | _, _ => d

/-- What a call may return. -/
inductive Answer (d : Directory) : MqEvent → MqResult → Prop
  | created (n : List Byte) (openFlag : Nat) (attr : Option MqAttr) (queue name personal : Option Block) (p : Nat)
      (unknown : d n = none) (flag : openFlag &&& oCreat ≠ 0) (fresh : ∀ m o, d m = some o → p ∉ o.descriptors) :
      Answer d (.mqOpen (some n) openFlag attr queue name personal) (.opened (.ok p))
  | joined (n : List Byte) (openFlag : Nat) (attr : Option MqAttr) (queue name personal : Option Block) (p : Nat) (o : Named)
      (known : d n = some o) (live : o.unlinked = false) (flag : openFlag &&& oCreat = 0 ∨ openFlag &&& oExcl = 0)
      (fresh : ∀ m o, d m = some o → p ∉ o.descriptors) :
      Answer d (.mqOpen (some n) openFlag attr queue name personal) (.opened (.ok p))
  | refused (mqName : Option (List Byte)) (openFlag : Nat) (attr : Option MqAttr) (queue name personal : Option Block)
      (errno : MqErrno) (why : ∀ n o, mqName = some n → d n = some o →
        o.unlinked = true ∨ (openFlag &&& oCreat ≠ 0 ∧ openFlag &&& oExcl ≠ 0) ∨ personal = none) :
      Answer d (.mqOpen mqName openFlag attr queue name personal) (.opened (.error errno))
  | closed (p : Nat) (n : List Byte) (o : Named) (known : d n = some o) (linked : p ∈ o.descriptors)
      (kept : o.close p ≠ none) : Answer d (.mqClose p) (.returned ⟨0, none⟩)
  | lastClosed (p : Nat) (n : List Byte) (o : Named) (known : d n = some o) (linked : p ∈ o.descriptors)
      (gone : o.close p = none) (ret : MqReturn) (hret : ret = ⟨0, none⟩ ∨ ret = ⟨-1, some .eagain⟩) :
      Answer d (.mqClose p) (.returned ret)
  | unlinked (n : List Byte) (o : Named) (known : d n = some o) (kept : o.unlink ≠ none) :
      Answer d (.mqUnlink (some n)) (.returned ⟨0, none⟩)
  | removed (n : List Byte) (o : Named) (known : d n = some o) (gone : o.unlink = none) (ret : MqReturn)
      (hret : ret = ⟨0, none⟩ ∨ ret = ⟨-1, some .eagain⟩) : Answer d (.mqUnlink (some n)) (.returned ret)
  | unknown (mqName : Option (List Byte)) (unknown : ∀ n, mqName = some n → d n = none) (ret : MqReturn) (hret : ret.ret = -1) :
      Answer d (.mqUnlink mqName) (.returned ret)
  | ipc (event : QueueEvent) (r : QueueReturn) : Answer d (.ipc event) (.ipc r)

def namesStep (d : Directory) (x : MqEvent × MqResult) (d' : Directory) : Prop := Answer d x.1 x.2 ∧ d' = d.after x.1 x.2

def directory (s : MqState) : Directory := fun n =>
  (getMqueueCBByName s n).map fun i => ⟨(s.gQueueTable i).unlinkflag, (s.gQueueTable i).mqPersonal⟩

section

variable [Config] {s s' : MqState} {i a p : Nat} {n m : List Byte} {o : Named} {e : MqArray}

def properStep (s : MqState) (x : MqEvent × MqResult) (s' : MqState) : Prop :=
  Proper s x.1 ∧ mqStep s x.1 = some (s', x.2)

theorem directory_of_name (hi : TableInv s.toQueueState s.gQueueTable s.personal)
    (hname : (s.gQueueTable i).mqName = some (a, n)) :
    directory s n = some ⟨(s.gQueueTable i).unlinkflag, (s.gQueueTable i).mqPersonal⟩ := by
  unfold directory
  rw [(getMqueueCBByName_iff hi).mpr (by rw [hname]; rfl)]
  rfl

theorem directory_some (hi : TableInv s.toQueueState s.gQueueTable s.personal) (h : directory s n = some o) :
    ∃ i a, (s.gQueueTable i).mqName = some (a, n) ∧ o = ⟨(s.gQueueTable i).unlinkflag, (s.gQueueTable i).mqPersonal⟩ := by
  obtain ⟨i, hfound, rfl⟩ := Option.map_eq_some_iff.mp h
  obtain ⟨⟨a, n'⟩, hname, hn⟩ := Option.map_eq_some_iff.mp ((getMqueueCBByName_iff hi).mp hfound)
  obtain rfl : n' = n := hn
  exact ⟨i, a, hname, rfl⟩

omit [Config] in
theorem directory_none : directory s n = none ↔ getMqueueCBByName s n = none := Option.map_eq_none_iff

theorem directory_congr (hi : TableInv s.toQueueState s.gQueueTable s.personal)
    (hi' : TableInv s'.toQueueState s'.gQueueTable s'.personal)
    (h : ∀ i, (s.gQueueTable i).mqName.map Prod.snd = some n ∨ (s'.gQueueTable i).mqName.map Prod.snd = some n →
      s'.gQueueTable i = s.gQueueTable i) : directory s' n = directory s n := by
  cases hfound : getMqueueCBByName s n with
  | some i =>
    have hname := (getMqueueCBByName_iff hi).mp hfound
    have hsame := h i (.inl hname)
    unfold directory
    rw [hfound, (getMqueueCBByName_iff hi').mpr (by rw [hsame]; exact hname), Option.map_some, hsame, Option.map_some]
  | none =>
    rw [directory_none.mpr hfound, directory_none, getMqueueCBByName_none hi']
    intro i hname
    have hsame := h i (.inr hname)
    rw [hsame] at hname
    exact (getMqueueCBByName_none hi).mp hfound i hname

theorem directory_update (hi : TableInv s.toQueueState s.gQueueTable s.personal)
    (hi' : TableInv s'.toQueueState s'.gQueueTable s'.personal)
    (htable : s'.gQueueTable = Function.update s.gQueueTable i e)
    (hold : (s.gQueueTable i).mqName.map Prod.snd = some n ∨
      (s.gQueueTable i).mqName = none ∧ getMqueueCBByName s n = none)
    (hnew : e.mqName.map Prod.snd = some n ∨ e.mqName = none) :
    directory s' = Function.update (directory s) n (e.mqName.map fun _ => ⟨e.unlinkflag, e.mqPersonal⟩) := by
  have hself : s'.gQueueTable i = e := by rw [htable, Function.update_self]
  have hother : ∀ j, j ≠ i → s'.gQueueTable j = s.gQueueTable j := fun j hj => by rw [htable, Function.update_of_ne hj]
  funext m
  by_cases hm : m = n
  · rw [hm, Function.update_self]
    rcases hnew with hnew | hnew
    · obtain ⟨⟨a, n'⟩, hname, hn⟩ := Option.map_eq_some_iff.mp hnew
      obtain rfl : n' = n := hn
      rw [directory_of_name hi' (i := i) (a := a) (by rw [hself]; exact hname), hself, hname]
      rfl
    · rw [hnew, directory_none.mpr ((getMqueueCBByName_none hi').mpr fun j hj => ?_)]
      · rfl
      · by_cases hji : j = i
        · rw [hji, hself, hnew] at hj
          cases hj
        · rw [hother j hji] at hj
          rcases hold with hold | ⟨_, hnone⟩
          · exact hji (hi.names j i n hj hold)
          · exact (getMqueueCBByName_none hi).mp hnone j hj
  · rw [Function.update_of_ne hm]
    refine directory_congr hi hi' fun j hj => hother j fun hji => ?_
    rw [hji, hself] at hj
    rcases hj with hj | hj
    · rcases hold with hold | ⟨hold, _⟩
      · exact hm (Option.some.inj (hj.symm.trans hold))
      · rw [hold] at hj
        cases hj
    · rcases hnew with hnew | hnew
      · exact hm (Option.some.inj (hj.symm.trans hnew))
      · rw [hnew] at hj
        cases hj

omit [Config] in
theorem close_of_not_mem (h : p ∉ o.descriptors) : o.close p = some o := if_neg h

omit [Config] in
theorem close_of_mem (h : p ∈ o.descriptors) : o.close p =
    if o.unlinked ∧ o.descriptors.erase p = [] then none else some { o with descriptors := o.descriptors.erase p } :=
  if_pos h

theorem directory_close (hi : TableInv s.toQueueState s.gQueueTable s.personal)
    (hname : (s.gQueueTable i).mqName = some (a, n)) (hp : p ∈ (s.gQueueTable i).mqPersonal) :
    (fun m => (directory s m).bind fun o => o.close p) =
      Function.update (directory s) n (Named.close ⟨(s.gQueueTable i).unlinkflag, (s.gQueueTable i).mqPersonal⟩ p) := by
  funext m
  by_cases hm : m = n
  · rw [hm, Function.update_self, directory_of_name hi hname, Option.bind_some]
  · rw [Function.update_of_ne hm]
    cases hd : directory s m with
    | none => rfl
    | some o =>
      obtain ⟨j, b, hname', rfl⟩ := directory_some hi hd
      refine close_of_not_mem fun hmem => hm ?_
      rw [hi.personal_unique hmem hp, hname] at hname'
      injection hname' with h
      injection h with _ h
      exact h.symm

theorem fresh_of_free (hi : TableInv s.toQueueState s.gQueueTable s.personal) (hp : s.heap p = none) (m : List Byte) (o : Named)
    (hd : directory s m = some o) : p ∉ o.descriptors := by
  obtain ⟨j, b, _, rfl⟩ := directory_some hi hd
  exact hi.personal_fresh hp

theorem mqOpen_names {openFlag : Nat} {attr : Option MqAttr} {mqName : Option (List Byte)} {queue name personal : Option Block}
    {ret : Except MqErrno Nat} (hi : MqInv s) (hkept : OpenKept s s') (hopening : Opening s mqName openFlag personal s' ret) :
    Answer (directory s) (.mqOpen mqName openFlag attr queue name personal) (.opened ret) ∧
      directory s' = (directory s).after (.mqOpen mqName openFlag attr queue name personal) (.opened ret) := by
  cases hopening with
  | refused errno why table =>
    refine ⟨.refused _ _ _ _ _ _ _ fun n o hn hd => ?_, ?_⟩
    · obtain ⟨i, a, hname, rfl⟩ := directory_some hi.table hd
      exact why i n hn (by rw [hname]; rfl)
    · have hsame : directory s' = directory s := by
        funext n
        refine directory_congr hi.table hkept.table fun i hname => (table i).resolve_right fun hv => ?_
        rcases hname with hname | hname
        · rw [hv.1.mqName] at hname
          cases hname
        · rw [hv.2.mqName] at hname
          cases hname
      rw [hsame]
      cases mqName <;> rfl
  | attached i a n p hn name live flag free state =>
    subst hn
    have hknown := directory_of_name hi.table name
    refine ⟨.joined n openFlag _ _ _ _ p _ hknown live flag (fresh_of_free hi.table free), ?_⟩
    rw [directory_update (i := i) (n := n) hi.table hkept.table (by rw [state]; rfl) (.inl (by rw [name]; rfl))
      (.inl (by rw [name]; rfl)), name]
    show _ = Function.update (directory s) n (some (Named.join p (directory s n)))
    rw [hknown]
    rfl
  | created q a n p hn valid unknown flag vacant unused free table =>
    subst hn
    have hnone := directory_none.mpr unknown
    refine ⟨.created n openFlag _ _ _ _ p hnone flag (fresh_of_free hi.table free), ?_⟩
    rw [directory_update hi.table hkept.table table (.inr ⟨vacant.mqName, unknown⟩) (.inl rfl)]
    show _ = Function.update (directory s) n (some (Named.join p (directory s n)))
    rw [hnone]
    rfl

theorem Deleted.ret {ret : MqReturn} (h : Deleted s i a s' ret) : ret = ⟨0, none⟩ ∨ ret = ⟨-1, some .eagain⟩ := by
  rcases h.queue with ⟨_, hret, _⟩ | ⟨_, hret, _⟩
  · exact .inl hret
  · exact .inr hret

theorem mqClose_names {ret : MqReturn} (hi : MqInv s) (hp : p ∈ (s.gQueueTable i).mqPersonal)
    (hrun : mqClose s p = some (s', ret)) (hi' : MqInv s') : Answer (directory s) (.mqClose p) (.returned ret) ∧
      directory s' = (directory s).after (.mqClose p) (.returned ret) := by
  have ht := Taken.of_personal (hi.table.entry i) hp
  obtain ⟨⟨a, n⟩, hname⟩ := Option.ne_none_iff_exists'.mp ht.named
  have hknown := directory_of_name hi.table hname
  obtain ⟨s₂, ret₂, hrun₂, hout⟩ := mqClose_spec hi hp
  obtain ⟨rfl, rfl⟩ := Prod.mk.inj (Option.some.inj (hrun.symm.trans hrun₂))
  show _ ∧ directory s' = fun m => (directory s m).bind fun o => o.close p
  rw [directory_close hi.table hname hp]
  rcases hout with ⟨hnot, rfl, rfl⟩ | ⟨hlast, a', n', hname', hdel⟩
  · have hclose : Named.close ⟨(s.gQueueTable i).unlinkflag, (s.gQueueTable i).mqPersonal⟩ p =
        some ⟨(s.gQueueTable i).unlinkflag, (s.gQueueTable i).mqPersonal.erase p⟩ :=
      (close_of_mem hp).trans (if_neg hnot)
    refine ⟨.closed p n _ hknown hp (by rw [hclose]; exact Option.some_ne_none _), ?_⟩
    rw [hclose, directory_update (i := i) (n := n) hi.table hi'.table rfl (.inl (by rw [hname]; rfl))
      (.inl (by rw [hname]; rfl)), hname]
    rfl
  · have hclose : Named.close ⟨(s.gQueueTable i).unlinkflag, (s.gQueueTable i).mqPersonal⟩ p = none :=
      (close_of_mem hp).trans (if_pos hlast)
    refine ⟨.lastClosed p n _ hknown hp hclose _ hdel.ret, ?_⟩
    rw [hclose, directory_update (i := i) (n := n) (e := ((s.detach i p).gQueueTable i).vacated) hi.table hi'.table ?_
      (.inl (by rw [hname]; rfl)) (.inr rfl)]
    · rfl
    · rw [hdel.table]
      exact Function.update_idem ..

theorem mqUnlink_names (hi : MqInv s) (mqName : Option (List Byte)) (hi' : MqInv (mqUnlink s mqName).1) :
    Answer (directory s) (.mqUnlink mqName) (.returned (mqUnlink s mqName).2) ∧
      directory (mqUnlink s mqName).1 = (directory s).after (.mqUnlink mqName) (.returned (mqUnlink s mqName).2) := by
  rcases mqUnlink_cases hi mqName with ⟨hsame, hret, hunknown⟩ | ⟨i, a, n, rfl, hname, hout⟩
  · rw [hsame]
    refine ⟨.unknown mqName (fun n hn => directory_none.mpr (hunknown n hn)) _ hret, ?_⟩
    cases mqName with
    | none => rfl
    | some n =>
      show _ = Function.update (directory s) n ((directory s n).bind Named.unlink)
      rw [directory_none.mpr (hunknown n rfl), Option.bind_none]
      exact (Function.update_eq_self_iff.mpr (directory_none.mpr (hunknown n rfl)).symm).symm
  · have hknown := directory_of_name hi.table hname
    show _ ∧ _ = Function.update (directory s) n ((directory s n).bind Named.unlink)
    rw [hknown, Option.bind_some]
    rcases hout with ⟨hopen, heq⟩ | ⟨hnil, hdel⟩
    · have hunlink : Named.unlink ⟨(s.gQueueTable i).unlinkflag, (s.gQueueTable i).mqPersonal⟩ =
          some ⟨true, (s.gQueueTable i).mqPersonal⟩ := if_neg hopen
      rw [heq] at hi' ⊢
      refine ⟨.unlinked n _ hknown (by rw [hunlink]; exact Option.some_ne_none _), ?_⟩
      rw [hunlink, directory_update (i := i) (n := n) hi.table hi'.table rfl (.inl (by rw [hname]; rfl))
        (.inl (by rw [hname]; rfl)), hname]
      rfl
    · have hunlink : Named.unlink ⟨(s.gQueueTable i).unlinkflag, (s.gQueueTable i).mqPersonal⟩ = none := if_pos hnil
      refine ⟨.removed n _ hknown hunlink _ hdel.ret, ?_⟩
      rw [hunlink, directory_update (i := i) (n := n) hi.table hi'.table hdel.table (.inl (by rw [hname]; rfl)) (.inr rfl)]
      rfl

theorem mqStep_names {event : MqEvent} {r : MqResult} (hlimit : Config.queueLimit ≤ 2 ^ 16) (hi : MqInv s)
    (hproper : Proper s event) (hstep : mqStep s event = some (s', r)) :
    Answer (directory s) event r ∧ directory s' = (directory s).after event r := by
  have hi' := mqStep_inv hlimit hi hproper hstep
  cases event with
  | mqOpen mqName openFlag attr queue name personal =>
    obtain ⟨⟨s₁, ret⟩, hrun, hr⟩ := Option.map_eq_some_iff.mp hstep
    obtain ⟨rfl, rfl⟩ := Prod.mk.inj hr
    obtain ⟨hkept, hopening⟩ := mqOpen_spec hlimit hi hrun
    exact mqOpen_names hi hkept hopening
  | mqClose p =>
    obtain ⟨⟨s₁, ret⟩, hrun, hr⟩ := Option.map_eq_some_iff.mp hstep
    obtain ⟨rfl, rfl⟩ := Prod.mk.inj hr
    obtain ⟨i, hp⟩ := hproper
    exact mqClose_names hi hp hrun hi'
  | mqUnlink mqName =>
    obtain ⟨rfl, rfl⟩ := Prod.mk.inj (Option.some.inj hstep)
    exact mqUnlink_names hi mqName hi'
  | ipc event =>
    obtain ⟨⟨Q, r'⟩, hrun, hr⟩ := Option.map_eq_some_iff.mp hstep
    obtain ⟨rfl, rfl⟩ := Prod.mk.inj hr
    exact ⟨.ipc event r', rfl⟩

/-! ### Runs -/

/-- After the start of the kernel, with the table cleared. -/
structure MqBooted (s : MqState) : Prop where
  queues : QueueBooted s.toQueueState
  table : ∀ i, s.gQueueTable i = ⟨0, false, none, none, []⟩

theorem mqBooted_inv (hmax : gTaskMaxNum ≤ osInvalid) (hb : MqBooted s) : MqInv s := by
  obtain ⟨V, hq⟩ := queueBooted_inv (fun _ => []) hmax hb.queues
  have hunused : ∀ q, (s.queue q).queueState = false := by
    obtain ⟨s₀, _, _, hs⟩ := hb.queues
    intro q
    rw [hs]
    rfl
  refine ⟨⟨⟨_, _, V, hq⟩, ⟨fun o x howns => ?_, fun o o' x howns => ?_⟩, fun i => .inl ?_, fun i j n hi => ?_⟩, fun i hcb => ?_,
    fun i n hn => ?_⟩
  · cases howns with
    | queue bound used addr => cases (hunused _).symm.trans used
    | name addr =>
      rw [hb.table] at addr
      cases addr
    | personal linked =>
      rw [hb.table] at linked
      cases linked
  · cases howns with
    | queue bound used addr => cases (hunused _).symm.trans used
    | name addr =>
      rw [hb.table] at addr
      cases addr
    | personal linked =>
      rw [hb.table] at linked
      cases linked
  · rw [hb.table]
    exact ⟨rfl, rfl, rfl⟩
  · rw [hb.table] at hi
    cases hi
  · rw [hb.table] at hcb
    exact absurd rfl hcb
  · rw [hb.table] at hn
    cases hn

theorem properRun_inv {s₀ : MqState} {steps : List (MqEvent × MqResult)} (hlimit : Config.queueLimit ≤ 2 ^ 16)
    (hmax : gTaskMaxNum ≤ osInvalid) (hb : MqBooted s₀) (hrun : Run properStep s₀ steps s) : MqInv s :=
  run_invariant MqInv (fun _ _ _ hi hstep => mqStep_inv hlimit hi hstep.1 hstep.2) hrun (mqBooted_inv hmax hb)

/-- What stands behind the names. -/
structure Sound (s : MqState) : Prop where
  queue : ∀ n o, directory s n = some o → ∃ q, getMqueueCBByName s n = some q ∧ (s.queue q).queueState = true ∧
    ∀ p ∈ o.descriptors, s.personal p = ⟨q, (s.personal p).mqFlags, true⟩ ∧ s.heap p ≠ none
  apart : ∀ m n q, getMqueueCBByName s m = some q → getMqueueCBByName s n = some q → m = n

theorem MqInv.sound (hi : MqInv s) : Sound s := by
  refine ⟨fun n o hd => ?_, fun m n q hm hn => ?_⟩
  · obtain ⟨i, a, hname, rfl⟩ := directory_some hi.table hd
    have ht := Taken.of_name (hi.table.entry i) (by rw [hname]; exact Option.some_ne_none _)
    refine ⟨i, (getMqueueCBByName_iff hi.table).mpr (by rw [hname]; rfl), ht.used, fun p hp => ⟨?_, ?_⟩⟩
    · obtain ⟨hdes, hstatus⟩ := ht.linked p hp
      rw [← hdes, ← hstatus]
    · exact hi.table.held.live _ _ (.personal hp)
  · have hm := (getMqueueCBByName_iff hi.table).mp hm
    exact Option.some.inj (hm.symm.trans ((getMqueueCBByName_iff hi.table).mp hn))

/-- A run of the table is a run of the directory, with the same results. -/
theorem mqueue_names {s₀ : MqState} {steps : List (MqEvent × MqResult)} (hlimit : Config.queueLimit ≤ 2 ^ 16)
    (hmax : gTaskMaxNum ≤ osInvalid) (hb : MqBooted s₀) (hrun : Run properStep s₀ steps s) :
    Run namesStep noNames steps (directory s) ∧ Sound s := by
  refine ⟨?_, (properRun_inv hlimit hmax hb hrun).sound⟩
  induction hrun with
  | nil =>
    have hnone : directory s₀ = noNames := by
      funext n
      refine directory_none.mpr ((getMqueueCBByName_none (mqBooted_inv hmax hb).table).mpr fun i => ?_)
      rw [hb.table]
      exact Option.some_ne_none n |>.symm
    rw [hnone]
    exact Run.nil
  | snoc run last ih => exact Run.snoc ih (mqStep_names hlimit (properRun_inv hlimit hmax hb run) last.1 last.2)

end

/-! ### A small run -/

/-- The descriptor that is closed is one of the first entry. -/
def properly (s : MqState) : MqEvent → Bool
  | .mqClose p => decide (p ∈ (s.gQueueTable 0).mqPersonal)
  | .ipc (.delete _) => false
  | .ipc (.mailAlloc ..) => false
  | _ => true

theorem properly_proper [Config] {s : MqState} {event : MqEvent} (h : properly s event = true) : Proper s event := by
  cases event with
  | mqOpen => trivial
  | mqUnlink => trivial
  | mqClose p => exact ⟨0, of_decide_eq_true h⟩
  | ipc event =>
    cases event with
    | delete q => cases h
    | mailAlloc => cases h
    | _ =>
      rintro ⟨_, _, he, _⟩
      cases he

def checkedStep [Config] (s : MqState) (event : MqEvent) : Option MqState :=
  if properly s event then (mqStep s event).map Prod.fst else none

theorem checkedRun_proper [Config] {s s' : MqState} {events : List MqEvent} (h : events.foldlM checkedStep s = some s') :
    ∃ steps, steps.map Prod.fst = events ∧ Run properStep s steps s' := by
  refine run_results (run_mono (fun s event s' hstep => ?_) (run_of_foldlM h))
  unfold checkedStep at hstep
  split at hstep
  · next hproperly =>
    obtain ⟨⟨s₁, r⟩, hmq, rfl⟩ := Option.map_eq_some_iff.mp hstep
    exact ⟨r, properly_proper hproperly, hmq⟩
  · cases hstep

theorem smallMqueue_booted : @MqBooted smallConfig smallMqueue :=
  @MqBooted.mk smallConfig _ smallQueue_booted fun _ => rfl

/-- The name "q" is created, opened once more, and unlinked. -/
def openTwice : List MqEvent :=
  [.mqOpen (some [113]) oCreat none (some ⟨4096, atNull⟩) (some ⟨8192, atNull⟩) (some ⟨12288, atNull⟩),
    .mqOpen (some [113]) 0 none none none (some ⟨16384, atNull⟩), .mqUnlink (some [113]), .mqClose 12288]

/-- The name stays until the second descriptor is closed. -/
theorem mqueue_names_twice : letI := smallConfig
    ∃ steps s, steps.map Prod.fst = openTwice ∧ Run namesStep noNames steps (directory s) ∧ Sound s ∧
      directory s [113] = some ⟨true, [16384]⟩ := by
  let _ := smallConfig
  have hrun : (openTwice.foldlM checkedStep smallMqueue).map (fun s => (directory s [113]).map fun o =>
      (o.unlinked, o.descriptors)) = some (some (true, [16384])) := by decide +kernel
  obtain ⟨s, hs, hval⟩ := Option.map_eq_some_iff.mp hrun
  obtain ⟨o, hd, ho⟩ := Option.map_eq_some_iff.mp hval
  obtain ⟨steps, hevents, hproper⟩ := checkedRun_proper hs
  obtain ⟨hnames, hsound⟩ := mqueue_names (by decide) (by decide) smallMqueue_booted hproper
  refine ⟨steps, s, hevents, hnames, hsound, ?_⟩
  rw [hd]
  cases o
  cases ho
  rfl

end LiteosM.Mqueue
