import LiteosM.Ipc.Sem
import LiteosM.Kernel.Waits

/-!
# What a semaphore counts

`taken` counts the pends that succeeded since the creation of a semaphore, those of waiters that
a post has woken included, and `posted` the posts that succeeded.
-/

namespace LiteosM.Ipc

open LiteosM.Kernel LiteosM.Lib.DlList LiteosM.Lib.Transition

/-- `granted` is whether a post has woken a task since it blocked, `since` when it blocked. -/
structure CountedSem extends SemState where
  initial : Nat → Nat
  taken : Nat → Nat
  posted : Nat → Nat
  granted : Nat → Bool
  clock : Nat
  since : Nat → Nat

def SemEvent.count : SemEvent → Nat
  | .create count _ => count.val
  | .binaryCreate count _ => count.val
  | _ => 0

def fresh (s s' : SemState) (m : Nat) : Bool := !(s.sem m).semStat && (s'.sem m).semStat

/-- A post that leaves the count as it is has woken a waiter. -/
def takes (s s' : SemState) (m : Nat) : SemEvent → SemErrno → Nat
  | .pend _ m' _, .losOk => if m' = m then 1 else 0
  | .post m', .losOk => if m' = m ∧ (s'.sem m).semCount = (s.sem m).semCount then 1 else 0
  | _, _ => 0

def posts (m : Nat) : SemEvent → SemErrno → Nat
  | .post m', .losOk => if m' = m then 1 else 0
  | _, _ => 0

def noteGranted (s : CountedSem) (s' : SemState) : SemEvent → SemErrno → Nat → Bool
  | .pend _ _ _, .blocked => Function.update s.granted s.kernel.runTask false
  | .post _, .losOk => fun t => s.granted t || ((s.kernel.status t).pend && !(s'.kernel.status t).pend)
  | _, _ => s.granted

def noteBlocked (s : CountedSem) : SemEvent → SemErrno → Nat → Nat
  | .pend _ _ _, .blocked => Function.update s.since s.kernel.runTask s.clock
  | _, _ => s.since

def CountedSem.note (s : CountedSem) (event : SemEvent) (s' : SemState) (r : SemErrno) : CountedSem :=
  { s' with
    initial := fun m => if fresh s.toSemState s' m then event.count else s.initial m
    taken := fun m => if fresh s.toSemState s' m then 0 else s.taken m + takes s.toSemState s' m event r
    posted := fun m => if fresh s.toSemState s' m then 0 else s.posted m + posts m event r
    granted := noteGranted s s' event r
    clock := s.clock + 1
    since := noteBlocked s event r }

def BlockedAt (s : SemState) (m t : Nat) : Prop :=
  OnList s.kernel.links (.wait (.semList m)) (.pendList t)

/-- Task `w` blocked at semaphore `m` before all others that are blocked there. -/
def LongestBlocked (s : CountedSem) (m w : Nat) : Prop :=
  BlockedAt s.toSemState m w ∧ ∀ t, BlockedAt s.toSemState m t → t ≠ w → s.since w < s.since t

variable [Config]

def countedSemStep (s : CountedSem) (event : SemEvent) : Option CountedSem :=
  (semStep s.toSemState event).map fun r => s.note event r.1 r.2

structure SemaphoreSafe (s : CountedSem) : Prop where
  bounded : ∀ m < Config.semLimit, (s.sem m).semStat = true → (s.sem m).semCount ≤ (s.sem m).maxSemCount
  waiting : ∀ m < Config.semLimit, (s.sem m).semStat = true →
    ¬ losListEmpty s.kernel (.wait (.semList m)) → (s.sem m).semCount = 0
  conserved : ∀ m < Config.semLimit, (s.sem m).semStat = true →
    s.taken m + (s.sem m).semCount = s.initial m + s.posted m
  timedOut : ∀ m t, s.pending t = some m → (s.kernel.status t).timeout = true → s.granted t = false ∧
    ∀ m' < Config.semLimit, (s.sem m').semStat = true → ¬ BlockedAt s.toSemState m' t
  returns : ∀ m s' r, s.pending s.kernel.runTask = some m → semStep s.toSemState .resume = some (s', r) →
    (r = .losOk ∧ s.granted s.kernel.runTask = true) ∨
      (r = .semTimeout ∧ s.granted s.kernel.runTask = false)
  total : ∀ m, ∃ s' r, semStep s.toSemState (.post m) = some (s', r)
  failed : ∀ m s' r, semStep s.toSemState (.post m) = some (s', r) → r ≠ .losOk → s' = s.toSemState
  counted : ∀ m s', semStep s.toSemState (.post m) = some (s', .losOk) →
    (∀ t, ¬ BlockedAt s.toSemState m t) → (s'.sem m).semCount = (s.sem m).semCount + 1 ∧
      (s.note (.post m) s' .losOk).granted = s.granted
  woken : ∀ m s', semStep s.toSemState (.post m) = some (s', .losOk) →
    (∃ t, BlockedAt s.toSemState m t) → (s'.sem m).semCount = (s.sem m).semCount ∧
      ∃ w, LongestBlocked s m w ∧ s.granted w = false ∧ ¬ BlockedAt s' m w ∧
        (s.note (.post m) s' .losOk).granted = Function.update s.granted w true
  delete : ∀ m < Config.semLimit, (s.sem m).semStat = true → (∃ t, BlockedAt s.toSemState m t) →
    losSemDelete s.toSemState m = (s.toSemState, .semPended)

structure SemInv (s : CountedSem) (V : View Node) : Prop where
  waits : Waits s.kernel V (fun t => (s.pending t).map .semList) s.granted s.since s.clock
  pool : PoolInv .gUnusedSemList .semList Config.semLimit (fun m => (s.sem m).semStat) s.kernel V
  count : ∀ m < Config.semLimit, (s.sem m).semStat = true →
    (s.sem m).semCount ≤ (s.sem m).maxSemCount ∧ (s.sem m).maxSemCount < 65536
  idle : ∀ m < Config.semLimit, (s.sem m).semStat = true → (s.sem m).semCount ≠ 0 →
    V.content (.wait (.semList m)) = []
  tally : ∀ m < Config.semLimit, (s.sem m).semStat = true →
    s.taken m + (s.sem m).semCount = s.initial m + s.posted m

section

variable {s : CountedSem} {s' : SemState} {V V' : View Node} {event : SemEvent} {r : SemErrno}
  {m m' t w : Nat} {k : KernelState} {cb : LosSemCB}

omit [Config] in
theorem semList_inj (a b : Nat) (h : WaitList.semList a = .semList b) : a = b := by
  injection h

omit [Config] in
theorem setSem_self : (s.setSem m cb).sem m = cb := by
  simp [SemState.setSem]

omit [Config] in
theorem setSem_of_ne (h : m' ≠ m) : (s.setSem m cb).sem m' = s.sem m' := by
  simp [SemState.setSem, h]

omit [Config] in
@[simp]
theorem note_toSemState : (s.note event s' r).toSemState = s' := rfl

omit [Config] in
theorem fresh_of_stat (h : (s'.sem m).semStat = (s.sem m).semStat) : fresh s.toSemState s' m = false := by
  unfold fresh
  rw [h, Bool.not_and_self]

theorem SemInv.blocked_iff (hi : SemInv s V) (hm : m < Config.semLimit) (hst : (s.sem m).semStat = true) :
    BlockedAt s.toSemState m t ↔ V.role (.pendList t) = .member (.wait (.semList m)) := by
  have hf := hi.waits.machine.inv.core.ready.forest
  have hh := hi.pool.taken m hm hst
  constructor
  · exact fun h => (hf.mem _ _).mp (OnList.mem_content h hf hh)
  · exact onList_of_content hf hh

theorem SemInv.blocked_exists (hi : SemInv s V) (hm : m < Config.semLimit)
    (hst : (s.sem m).semStat = true) :
    (∃ t, BlockedAt s.toSemState m t) ↔ losListEmpty s.kernel (.wait (.semList m)) = false := by
  have hf := hi.waits.machine.inv.core.ready.forest
  have hh := hi.pool.taken m hm hst
  constructor
  · rintro ⟨t, ht⟩
    cases he : losListEmpty s.kernel (.wait (.semList m)) with
    | false => rfl
    | true =>
      have hnil := (hf.listEmpty_iff hh).mp he
      have hmem := (hf.mem _ _).mpr ((hi.blocked_iff hm hst).mp ht)
      rw [hnil] at hmem
      cases hmem
  · intro he
    obtain ⟨w, _, _, hw, _⟩ := hi.waits.first hh he
    exact ⟨w, (hi.blocked_iff hm hst).mpr hw⟩

omit [Config] in
theorem note_counts (s : CountedSem) (event : SemEvent) (r : SemErrno)
    (h : (s'.sem m).semStat = (s.sem m).semStat) :
    (s.note event s' r).taken m = s.taken m + takes s.toSemState s' m event r ∧
      (s.note event s' r).initial m = s.initial m ∧
      (s.note event s' r).posted m = s.posted m + posts m event r := by
  refine ⟨?_, ?_, ?_⟩ <;> exact if_neg (by rw [fresh_of_stat h]; exact Bool.false_ne_true)

theorem SemInv.keep (hi : SemInv s V) (hsem : s'.sem = s.sem)
    (hwaits : Waits s'.kernel V' (fun t => (s'.pending t).map .semList) (noteGranted s s' event r)
      (noteBlocked s event r) (s.clock + 1))
    (hrole : ∀ y, (∀ t, y ≠ .pendList t) → (∀ t, y ≠ .sortLinkNode t) → V'.role y = V.role y)
    (hidle : ∀ m < Config.semLimit, (s.sem m).semStat = true → (s.sem m).semCount ≠ 0 →
      V'.content (.wait (.semList m)) = [])
    (hnote : ∀ m, takes s.toSemState s' m event r = posts m event r) :
    SemInv (s.note event s' r) V' := by
  refine ⟨hwaits, ?_, fun m hm hst => ?_, fun m hm hst hc => ?_, fun m hm hst => ?_⟩
  · rw [note_toSemState, hsem]
    exact hi.pool.kernel .sem hwaits.machine hrole
  · rw [note_toSemState, hsem] at hst ⊢
    exact hi.count m hm hst
  · rw [note_toSemState, hsem] at hst hc
    exact hidle m hm hst hc
  · rw [note_toSemState, hsem] at hst
    obtain ⟨h1, h2, h3⟩ := note_counts s event r
      (congrArg (fun f => (f m).semStat) hsem)
    rw [h1, h2, h3, hnote, note_toSemState, hsem]
    have h := hi.tally m hm hst
    omega

theorem SemInv.setCount (hi : SemInv s V) {n : Nat}
    (hgranted : noteGranted s (s.setSem m { s.sem m with semCount := n }) event r = s.granted)
    (hblocked : noteBlocked s event r = s.since)
    (hn : n ≤ (s.sem m).maxSemCount) (hnil : V.content (.wait (.semList m)) = [])
    (hother : ∀ m', m' ≠ m → takes s.toSemState (s.setSem m { s.sem m with semCount := n }) m' event r =
      posts m' event r)
    (hself : takes s.toSemState (s.setSem m { s.sem m with semCount := n }) m event r + n =
      posts m event r + (s.sem m).semCount) :
    SemInv (s.note event (s.setSem m { s.sem m with semCount := n }) r) V := by
  have hstat : ∀ m', ((s.setSem m { s.sem m with semCount := n }).sem m').semStat = (s.sem m').semStat := by
    intro m'
    by_cases hmm : m' = m
    · rw [hmm, setSem_self]
    · rw [setSem_of_ne hmm]
  refine ⟨?_, ?_, fun m' hm hst => ?_, fun m' hm hst hc => ?_, fun m' hm hst => ?_⟩
  · have hq := hi.waits.quiet hi.waits.machine (fun _ => rfl) (fun _ => rfl) (fun _ => rfl)
      (Nat.le_succ s.clock)
    rw [← hgranted, ← hblocked] at hq
    exact hq
  · have hfun : (fun m' => ((s.setSem m { s.sem m with semCount := n }).sem m').semStat) =
        fun m' => (s.sem m').semStat := funext hstat
    rw [note_toSemState, hfun]
    exact hi.pool
  · rw [note_toSemState] at hst ⊢
    rw [hstat] at hst
    by_cases hmm : m' = m
    · rw [hmm] at hst hm ⊢
      rw [setSem_self]
      exact ⟨hn, (hi.count m hm hst).2⟩
    · rw [setSem_of_ne hmm]
      exact hi.count m' hm hst
  · rw [note_toSemState] at hst hc
    rw [hstat] at hst
    by_cases hmm : m' = m
    · rw [hmm]
      exact hnil
    · rw [setSem_of_ne hmm] at hc
      exact hi.idle m' hm hst hc
  · obtain ⟨h1, h2, h3⟩ := note_counts s event r (hstat m')
    rw [note_toSemState, hstat] at hst
    have h := hi.tally m' hm hst
    rw [h1, h2, h3, note_toSemState]
    by_cases hmm : m' = m
    · rw [hmm] at h ⊢
      rw [setSem_self]
      show s.taken m + takes s.toSemState _ m event r + n = _
      omega
    · rw [setSem_of_ne hmm, hother m' hmm]
      omega

theorem SemInv.refused (hi : SemInv s V) (hgranted : noteGranted s s.toSemState event r = s.granted)
    (hblocked : noteBlocked s event r = s.since)
    (hnote : ∀ m, takes s.toSemState s.toSemState m event r = posts m event r) :
    SemInv (s.note event s.toSemState r) V := by
  refine hi.keep rfl ?_ (fun _ _ _ => rfl) hi.idle hnote
  rw [hgranted, hblocked]
  exact hi.waits.quiet hi.waits.machine (fun _ => rfl) (fun _ => rfl) (fun _ => rfl) (Nat.le_succ _)

omit [Config] in
theorem update_semStat : (fun m' => (Function.update s.sem m cb m').semStat) =
    Function.update (fun m' => (s.sem m').semStat) m cb.semStat := by
  funext m'
  by_cases hmm : m' = m
  · rw [hmm, Function.update_self, Function.update_self]
  · rw [Function.update_of_ne hmm, Function.update_of_ne hmm]

theorem osSemCreate_spec (hi : SemInv s V) (count maxCount : Fin 65536) (semHandle : Bool) :
    ∃ s' r o, osSemCreate s.toSemState count maxCount semHandle = some (s', r, o) ∧
      ((s' = s.toSemState ∧ r ≠ .losOk) ∨ (r = .losOk ∧ ∃ m < Config.semLimit, o = some m ∧
        (s.sem m).semStat = false ∧ count.val ≤ maxCount.val ∧ s'.pending = s.pending ∧
        s'.sem = Function.update s.sem m ⟨true, count.val, maxCount.val⟩ ∧
        V.content (.wait (.semList m)) = [] ∧ ∃ V', Relinked s.kernel V s'.kernel V' ∧
        PoolInv .gUnusedSemList .semList Config.semLimit (fun m => (s'.sem m).semStat) s'.kernel V')) := by
  unfold osSemCreate
  split
  · exact ⟨_, _, _, rfl, .inl ⟨rfl, by decide⟩⟩
  · split
    · exact ⟨_, _, _, rfl, .inl ⟨rfl, by decide⟩⟩
    · next hle =>
      split
      · exact ⟨_, _, _, rfl, .inl ⟨rfl, by decide⟩⟩
      · next hne =>
        obtain ⟨m, hlt, hst, hfirst, hnil, V', hpool, hrel, _⟩ := hi.pool.take .sem semList_inj hne
        rw [hfirst]
        simp only [getSemList, Option.bind_eq_bind, Option.bind_some]
        refine ⟨_, _, _, rfl, .inr ⟨rfl, m, hlt, rfl, hst, not_lt.mp hle, rfl, rfl, hnil, V', hrel, ?_⟩⟩
        show PoolInv .gUnusedSemList .semList Config.semLimit
          (fun m' => (Function.update s.sem m _ m').semStat) _ V'
        rw [update_semStat]
        exact hpool

theorem SemInv.created (hi : SemInv s V) {count maxCount : Nat}
    (hst : (s.sem m).semStat = false) (hle : count ≤ maxCount) (hmax : maxCount < 65536)
    (hpend : s'.pending = s.pending) (hsem : s'.sem = Function.update s.sem m ⟨true, count, maxCount⟩)
    (hnil : V.content (.wait (.semList m)) = []) (hrel : Relinked s.kernel V s'.kernel V')
    (hpool : PoolInv .gUnusedSemList .semList Config.semLimit (fun m => (s'.sem m).semStat) s'.kernel V')
    (hcount : event.count = count) (hgranted : noteGranted s s' event .losOk = s.granted)
    (hblocked : noteBlocked s event .losOk = s.since)
    (hnote : ∀ m, takes s.toSemState s' m event .losOk = posts m event .losOk) :
    SemInv (s.note event s' .losOk) V' := by
  have hself : s'.sem m = ⟨true, count, maxCount⟩ := by rw [hsem, Function.update_self]
  have hother : ∀ m', m' ≠ m → s'.sem m' = s.sem m' := fun m' hmm => by
    rw [hsem, Function.update_of_ne hmm]
  refine ⟨?_, hpool, fun m' hm' hst' => ?_, fun m' hm' hst' hc => ?_, fun m' hm' hst' => ?_⟩
  · show Waits s'.kernel V' (fun t => (s'.pending t).map .semList) (noteGranted s s' event .losOk)
      (noteBlocked s event .losOk) (s.clock + 1)
    rw [hgranted, hblocked, hpend]
    exact hi.waits.relinked hpool.machine hrel
  · rw [note_toSemState] at hst' ⊢
    by_cases hmm : m' = m
    · rw [hmm, hself]
      exact ⟨hle, hmax⟩
    · rw [hother m' hmm] at hst' ⊢
      exact hi.count m' hm' hst'
  · rw [note_toSemState] at hst' hc
    rw [hrel.content]
    by_cases hmm : m' = m
    · rw [hmm]
      exact hnil
    · rw [hother m' hmm] at hst' hc
      exact hi.idle m' hm' hst' hc
  · rw [note_toSemState] at hst'
    by_cases hmm : m' = m
    · have hfresh : fresh s.toSemState s' m = true := by
        unfold fresh
        rw [hst, hself]
        rfl
      rw [hmm, note_toSemState, hself]
      show (if fresh s.toSemState s' m then 0 else _) + count =
        (if fresh s.toSemState s' m then event.count else _) + if fresh s.toSemState s' m then 0 else _
      rw [hfresh, if_pos rfl, if_pos rfl, if_pos rfl, hcount]
      omega
    · obtain ⟨h1, h2, h3⟩ := note_counts s event .losOk
        (congrArg LosSemCB.semStat (hother m' hmm))
      rw [hother m' hmm] at hst'
      have h := hi.tally m' hm' hst'
      rw [h1, h2, h3, hnote, note_toSemState, hother m' hmm]
      omega

theorem losSemDelete_inv (hi : SemInv s V) (m : Nat) :
    ∃ V', SemInv (s.note (.delete m) (losSemDelete s.toSemState m).1 (losSemDelete s.toSemState m).2)
      V' := by
  have herr : ∀ r : SemErrno, ∃ V', SemInv (s.note (.delete m) s.toSemState r) V' :=
    fun r => ⟨V, hi.refused rfl rfl fun _ => rfl⟩
  unfold losSemDelete
  split
  · exact herr _
  · next hlim =>
    split
    · exact herr _
    · next hst =>
      split
      · exact herr _
      · next hempty =>
        have hm := Nat.lt_of_not_le hlim
        have hst : (s.sem m).semStat = true := by simpa using hst
        have hnil := (hi.waits.machine.inv.core.ready.forest.listEmpty_iff (hi.pool.taken m hm hst)).mp
          (show losListEmpty s.kernel (.wait (.semList m)) = true by simpa using hempty)
        obtain ⟨V', hpool, hrel, _⟩ := hi.pool.give .sem semList_inj hm hst hnil
        dsimp only
        have hother : ∀ m', m' ≠ m → Function.update s.sem m { s.sem m with semStat := false } m' =
            s.sem m' := fun m' hmm => Function.update_of_ne hmm _ _
        have hold : ∀ m', (Function.update s.sem m { s.sem m with semStat := false } m').semStat = true →
            m' ≠ m := by
          rintro m' h rfl
          rw [Function.update_self] at h
          cases h
        refine ⟨V', hi.waits.relinked hpool.machine hrel, ?_, fun m' hm' hst' => ?_,
          fun m' hm' hst' hc => ?_, fun m' hm' hst' => ?_⟩
        · show PoolInv .gUnusedSemList .semList Config.semLimit
            (fun m' => (Function.update s.sem m _ m').semStat) _ V'
          rw [update_semStat]
          exact hpool
        · have hmm := hold m' hst'
          change (Function.update s.sem m _ m').semStat = true at hst'
          show (Function.update s.sem m _ m').semCount ≤ (Function.update s.sem m _ m').maxSemCount ∧
            (Function.update s.sem m _ m').maxSemCount < 65536
          rw [hother m' hmm] at hst' ⊢
          exact hi.count m' hm' hst'
        · have hmm := hold m' hst'
          change (Function.update s.sem m _ m').semStat = true at hst'
          change (Function.update s.sem m _ m').semCount ≠ 0 at hc
          rw [hother m' hmm] at hst' hc
          rw [hrel.content]
          exact hi.idle m' hm' hst' hc
        · have hmm := hold m' hst'
          change (Function.update s.sem m _ m').semStat = true at hst'
          rw [hother m' hmm] at hst'
          have h := hi.tally m' hm' hst'
          have hkept : (({ s.toSemState with
              kernel := losListAdd s.kernel .gUnusedSemList (.wait (.semList m)) }.setSem m
                { s.sem m with semStat := false }).sem m').semStat = (s.sem m').semStat :=
            congrArg LosSemCB.semStat (hother m' hmm)
          obtain ⟨h1, h2, h3⟩ := note_counts s (.delete m) .losOk hkept
          exact (congrArg₂ (· + ·) h1 (congrArg LosSemCB.semCount (hother m' hmm))).trans
            (h.trans (congrArg₂ (· + ·) h2 h3).symm)

/-- The call of a task or of an interrupt, up to the point where a caller that has to wait is switched
away. -/
theorem losSemPend_inv (hi : SemInv s V) {intActive : Bool} (hcall : intActive = true ∨ s.free = true)
    (m timeout : Nat) :
    ∃ V', SemInv (s.note (.pend intActive m timeout) (losSemPend s.toSemState intActive m timeout).1
      (losSemPend s.toSemState intActive m timeout).2) V' := by
  have herr : ∀ r : SemErrno, r ≠ .losOk → r ≠ .blocked →
      ∃ V', SemInv (s.note (.pend intActive m timeout) s.toSemState r) V' := by
    intro r h1 h2
    refine ⟨V, hi.refused ?_ ?_ fun _ => ?_⟩
    all_goals cases r <;> first | rfl | exact absurd rfl h1 | exact absurd rfl h2
  unfold losSemPend
  split
  · exact herr _ (by simp) (by simp)
  next hlim =>
  have hm := Nat.lt_of_not_le hlim
  dsimp only
  split
  · next hcheck =>
    refine herr _ hcheck ?_
    unfold osSemValidCheck
    split
    · simp
    · split
      · simp
      · split <;> simp
  next hcheck =>
  obtain ⟨hst, hint, hlock⟩ : (s.sem m).semStat = true ∧ intActive = false ∧ s.kernel.gLosTaskLock = 0 := by
    simpa [osSemValidCheck, ite_eq_iff] using hcheck
  split
  · next hpos =>
    refine ⟨V, hi.setCount rfl rfl ?_ (hi.idle m hm hst (by omega)) (fun m' hmm => ?_) ?_⟩
    · have h := (hi.count m hm hst).1
      omega
    · exact if_neg fun h => hmm h.symm
    · show (if m = m then 1 else 0) + ((s.sem m).semCount - 1) = 0 + (s.sem m).semCount
      rw [if_pos rfl]
      omega
  next hzero =>
  split
  · exact herr _ (by simp) (by simp)
  -- the caller waits
  have hfree : s.free = true := by
    rcases hcall with h | h
    · rw [hint] at h
      cases h
    · exact h
  simp only [SemState.free, Bool.and_eq_true, Option.isNone_iff_eq_none] at hfree
  have hcaller := hi.waits.machine.calling_caller hfree.1
  have hw0 := hi.waits.setTaskSem hcaller.bound (some m)
  have hhead := hi.pool.taken m hm hst
  obtain ⟨V', hw, hrole, hcontent⟩ := hw0.block (l := .semList m) hfree.1
    (by show (s.pending s.kernel.runTask).map _ = none; rw [hfree.2]; rfl) hlock hhead timeout
  refine ⟨V', hi.keep rfl ?_ hrole (fun m' hm' hst' hc => ?_) fun _ => rfl⟩
  · show Waits _ V' (fun t => (Function.update s.pending s.kernel.runTask (some m) t).map .semList)
      (Function.update s.granted s.kernel.runTask false)
      (Function.update s.since s.kernel.runTask s.clock) (s.clock + 1)
    have hfun : (fun t => (Function.update s.pending s.kernel.runTask (some m) t).map .semList) =
        Function.update (fun t => (s.pending t).map WaitList.semList) s.kernel.runTask
          (some (.semList m)) := by
      funext t
      by_cases ht : t = s.kernel.runTask
      · rw [ht, Function.update_self, Function.update_self]
        rfl
      · rw [Function.update_of_ne ht, Function.update_of_ne ht]
    rw [hfun]
    exact hw
  · have hmm : m' ≠ m := by
      rintro rfl
      omega
    rw [hcontent _ fun h => hmm (semList_inj _ _ h)]
    exact hi.idle m' hm' hst' hc

theorem losSemPendResume_inv (hi : SemInv s V) (hcall : s.kernel.calling) :
    SemInv (s.note .resume (losSemPendResume s.toSemState).1 (losSemPendResume s.toSemState).2) V := by
  have hw := hi.waits.resume hcall
  have hfun : Function.update (fun t => (s.pending t).map WaitList.semList) s.kernel.runTask none =
      fun t => (Function.update s.pending s.kernel.runTask none t).map .semList := by
    funext t
    by_cases ht : t = s.kernel.runTask
    · rw [ht, Function.update_self, Function.update_self]
      rfl
    · rw [Function.update_of_ne ht, Function.update_of_ne ht]
  rw [hfun] at hw
  unfold losSemPendResume
  dsimp only
  split
  · next ht =>
    rw [if_pos ht] at hw
    exact hi.keep rfl hw (fun _ _ _ => rfl) hi.idle fun _ => rfl
  · next ht =>
    rw [if_neg ht] at hw
    exact hi.keep rfl hw (fun _ _ _ => rfl) hi.idle fun _ => rfl

/-- What a post comes to. -/
inductive SemPosted (s : CountedSem) (m : Nat) : SemState → SemErrno → Prop
  | refused {r : SemErrno} (h : r ≠ .losOk) : SemPosted s m s.toSemState r
  | counted (hm : m < Config.semLimit) (hst : (s.sem m).semStat = true)
      (hnone : losListEmpty s.kernel (.wait (.semList m)) = true) :
      SemPosted s m (s.setSem m { s.sem m with semCount := (s.sem m).semCount + 1 }) .losOk
  | woken {s' : SemState} {w : Nat} (hm : m < Config.semLimit) (hst : (s.sem m).semStat = true)
      (hsome : losListEmpty s.kernel (.wait (.semList m)) = false) (hw : LongestBlocked s m w)
      (hgranted : s.granted w = false) (hgone : ¬ BlockedAt s' m w) (hsem : s'.sem = s.sem)
      (hnote : noteGranted s s' (.post m) .losOk = Function.update s.granted w true) :
      SemPosted s m s' .losOk

theorem losSemPost_spec (hi : SemInv s V) (m : Nat) :
    ∃ s' r, losSemPost s.toSemState m = some (s', r) ∧ SemPosted s m s' r ∧
      ∃ V', SemInv (s.note (.post m) s' r) V' := by
  have herr : ∀ r : SemErrno, r ≠ .losOk → ∃ s' r', (some (s.toSemState, r) : Option _) = some (s', r') ∧
      SemPosted s m s' r' ∧ ∃ V', SemInv (s.note (.post m) s' r') V' := by
    intro r h
    refine ⟨_, _, rfl, .refused h, V, hi.refused ?_ ?_ fun _ => ?_⟩
    all_goals cases r <;> first | rfl | exact absurd rfl h
  unfold losSemPost
  split
  · exact herr _ (by decide)
  next hlim =>
  have hm := Nat.lt_of_not_le hlim
  dsimp only
  split
  · exact herr _ (by decide)
  next hst =>
  have hst : (s.sem m).semStat = true := by simpa using hst
  split
  · exact herr _ (by decide)
  next hfull =>
  have hhead := hi.pool.taken m hm hst
  cases hempty : losListEmpty s.kernel (.wait (.semList m)) with
  | true =>
    rw [if_neg (by simp)]
    obtain ⟨hle, hmax⟩ := hi.count m hm hst
    have hmod : ((s.sem m).semCount + 1) % 2 ^ 16 = (s.sem m).semCount + 1 := Nat.mod_eq_of_lt (by omega)
    rw [hmod]
    have hnil := (hi.waits.machine.inv.core.ready.forest.listEmpty_iff hhead).mp hempty
    refine ⟨_, _, rfl, .counted hm hst hempty, V, hi.setCount ?_ rfl (by omega) hnil (fun m' hmm => ?_) ?_⟩
    · funext t
      show (s.granted t || ((s.kernel.status t).pend && !(s.kernel.status t).pend)) = s.granted t
      rw [Bool.and_not_self, Bool.or_false]
    · show (if m = m' ∧ _ then 1 else 0) = if m = m' then 1 else 0
      rw [if_neg fun h => hmm h.1.symm, if_neg fun h => hmm h.symm]
    · show (if m = m ∧ ((s.setSem m _).sem m).semCount = (s.sem m).semCount then 1 else 0) +
        ((s.sem m).semCount + 1) = (if m = m then 1 else 0) + (s.sem m).semCount
      rw [setSem_self, if_neg fun h => Nat.succ_ne_self _ h.2, if_pos rfl]
      omega
  | false =>
    rw [if_pos (by simp)]
    obtain ⟨w, hw, hfirst, hon, hlong⟩ := hi.waits.first hhead hempty
    rw [hfirst]
    simp only [osTcbFromPendList, Option.bind_eq_bind, Option.bind_some]
    have hw0 := hi.waits.setTaskSem hw none
    obtain ⟨k', V', heq, hw', hrole, hcontent, hwoken⟩ := hw0.wake hw hon
    rw [heq, Option.bind_some]
    have hg := (hi.waits.task w hw).waiting _ hon
    have hstatus : ∀ t, ((s.kernel.modifyTask w fun cb => { cb with taskSem := none }).status t).pend =
        (s.kernel.status t).pend := by
      intro t
      unfold KernelState.status
      by_cases htw : t = w
      · rw [htw, modifyTask_self]
      · rw [(Moved.modifyTask w s.kernel V _).task t htw]
    have hnote : noteGranted s { s.toSemState with kernel := losSchedule k' } (.post m) .losOk =
        fun t => s.granted t || decide (t = w) := by
      funext t
      show (s.granted t || ((s.kernel.status t).pend && !((losSchedule k').status t).pend)) = _
      rw [← hstatus, hwoken]
    have hi' : SemInv (s.note (.post m) { s.toSemState with kernel := losSchedule k' } .losOk) V' := by
      refine hi.keep rfl ?_ hrole (fun m' hm' hst' hc => ?_) fun m' => ?_
      · rw [hnote]
        exact hw'
      · rw [hcontent, hi.idle m' hm' hst' hc]
        rfl
      · show (if m = m' ∧ _ then 1 else 0) = if m = m' then 1 else 0
        by_cases hmm : m = m'
        · rw [if_pos ⟨hmm, rfl⟩, if_pos hmm]
        · rw [if_neg fun h => hmm h.1, if_neg hmm]
    refine ⟨_, _, rfl, .woken (w := w) hm hst hempty ⟨(hi.blocked_iff hm hst).mpr hon, fun t ht hne =>
      hlong t ((hi.blocked_iff hm hst).mp ht) hne⟩ hg.2.2 (fun hb => ?_) rfl ?_, V', hi'⟩
    · have hb' := (hi'.blocked_iff hm hst).mp hb
      have hmem := (hi'.waits.machine.inv.core.ready.forest.mem _ _).mpr hb'
      rw [hcontent] at hmem
      exact (List.Nodup.not_mem_erase (hi.waits.machine.inv.core.ready.forest.nodup _)) hmem
    · rw [hnote]
      funext t
      by_cases htw : t = w
      · rw [htw, Function.update_self, decide_eq_true rfl, Bool.or_true]
      · rw [Function.update_of_ne htw, decide_eq_false htw, Bool.or_false]

theorem SemInv.settle (hi : SemInv s V) {e : KernelEvent} (hstep : kernelStep s.kernel e = some k) :
    ∃ V', SemInv (s.note (.kernel e) (s.settle k) .losOk) V' := by
  obtain ⟨V', hw, hq⟩ := hi.waits.kernel hstep
  refine ⟨V', hi.keep rfl ?_ hq.role (fun m hm hst hc => ?_) fun _ => rfl⟩
  · have hfun : (fun t => ((s.settle k).pending t).map WaitList.semList) =
        fun t => if (k.status t).unused then none else (s.pending t).map .semList := by
      funext t
      show (if (k.status t).unused then none else s.pending t).map _ = _
      split <;> rfl
    rw [hfun]
    exact hw
  · have hsl := hq.wait (.semList m)
    rw [hi.idle m hm hst hc] at hsl
    exact List.sublist_nil.mp hsl

theorem semStep_inv (hi : SemInv s V) (hstep : semStep s.toSemState event = some (s', r)) :
    ∃ V', SemInv (s.note event s' r) V' := by
  have hcreate : ∀ (event : SemEvent) (count maxCount : Fin 65536) (semHandle : Bool),
      event.count = count.val → (∀ s' r, noteGranted s s' event r = s.granted) →
      (∀ r, noteBlocked s event r = s.since) →
      (∀ s' m r, takes s.toSemState s' m event r = 0 ∧ posts m event r = 0) →
      (osSemCreate s.toSemState count maxCount semHandle).map (fun r => (r.1, r.2.1)) = some (s', r) →
      ∃ V', SemInv (s.note event s' r) V' := by
    intro event count maxCount semHandle hcount hgranted hblocked hnote hstep
    obtain ⟨s1, r1, o, heq, hout⟩ := osSemCreate_spec hi count maxCount semHandle
    rw [heq, Option.map_some, Option.some.injEq, Prod.mk.injEq] at hstep
    rw [← hstep.1, ← hstep.2]
    have hz : ∀ s' r m, takes s.toSemState s' m event r = posts m event r := fun s' r m =>
      (hnote s' m r).1.trans (hnote s' m r).2.symm
    rcases hout with ⟨rfl, _⟩ | ⟨rfl, m, _, _, hst, hle, hpend, hsem, hnil, V', hrel, hpool⟩
    · exact ⟨V, hi.refused (hgranted _ _) (hblocked _) (hz _ _)⟩
    · exact ⟨V', hi.created hst hle maxCount.isLt hpend hsem hnil hrel hpool hcount (hgranted _ _)
        (hblocked _) (hz _ _)⟩
  cases event with
  | create count semHandle =>
    exact hcreate _ count _ semHandle rfl (fun _ _ => rfl) (fun _ => rfl) (fun _ _ _ => ⟨rfl, rfl⟩) hstep
  | binaryCreate count semHandle =>
    exact hcreate _ count _ semHandle rfl (fun _ _ => rfl) (fun _ => rfl) (fun _ _ _ => ⟨rfl, rfl⟩) hstep
  | delete m =>
    obtain ⟨V', hi'⟩ := losSemDelete_inv hi m
    simp only [semStep, Option.some.injEq] at hstep
    rw [hstep] at hi'
    exact ⟨V', hi'⟩
  | pend intActive m timeout =>
    simp only [semStep] at hstep
    split at hstep
    · next hcall =>
      obtain ⟨V', hi'⟩ := losSemPend_inv hi hcall m timeout
      rw [Option.some.injEq] at hstep
      rw [hstep] at hi'
      exact ⟨V', hi'⟩
    · cases hstep
  | resume =>
    simp only [semStep] at hstep
    split at hstep
    · next hc =>
      have hi' := losSemPendResume_inv hi hc.1
      rw [Option.some.injEq] at hstep
      rw [hstep] at hi'
      exact ⟨V, hi'⟩
    · cases hstep
  | post m =>
    obtain ⟨s1, r1, heq, _, hi'⟩ := losSemPost_spec hi m
    simp only [semStep, heq, Option.some.injEq, Prod.mk.injEq] at hstep
    rw [hstep.1, hstep.2] at hi'
    exact hi'
  | kernel e =>
    simp only [semStep] at hstep
    split at hstep
    · cases hstep
    · simp only [Option.map_eq_some_iff, Prod.mk.injEq] at hstep
      obtain ⟨k, heq, hs, hr⟩ := hstep
      rw [← hs, ← hr]
      exact hi.settle heq

theorem SemInv.posted (hi : SemInv s V) (hstep : semStep s.toSemState (.post m) = some (s', r)) :
    SemPosted s m s' r := by
  obtain ⟨s1, r1, heq, hout, _⟩ := losSemPost_spec hi m
  simp only [semStep, heq, Option.some.injEq, Prod.mk.injEq] at hstep
  rw [hstep.1, hstep.2] at hout
  exact hout

theorem SemInv.ended (hi : SemInv s V) (hpend : s.pending t = some m)
    (hoff : ∀ l, V.role (.pendList t) ≠ .member (.wait l)) :
    (s.kernel.status t).timeout = !s.granted t := by
  have hsome : ((s.pending t).map WaitList.semList).isSome = true := by
    rw [hpend]
    rfl
  exact (hi.waits.task t (hi.waits.bound t hsome)).woken hsome hoff

theorem SemInv.safe (hi : SemInv s V) : SemaphoreSafe s := by
  have hf := hi.waits.machine.inv.core.ready.forest
  constructor
  case bounded => exact fun m hm hst => (hi.count m hm hst).1
  case conserved => exact hi.tally
  case waiting =>
    intro m hm hst hne
    by_contra hc
    exact hne ((hf.listEmpty_iff (hi.pool.taken m hm hst)).mpr (hi.idle m hm hst hc))
  case timedOut =>
    intro m t hpend htime
    have hoff : ∀ l, V.role (.pendList t) ≠ .member (.wait l) := by
      intro l hl
      have hlt : t < gTaskMaxNum := (hi.waits.machine.inv.core.fits _ _ hl).1
      have h := ((hi.waits.task t hlt).waiting l hl).2.1
      rw [show (s.kernel.gTaskCBArray t).taskStatus.timeout = true from htime] at h
      cases h
    refine ⟨?_, fun m' hm hst hb => hoff _ ((hi.blocked_iff hm hst).mp hb)⟩
    have h := hi.ended hpend hoff
    rw [htime] at h
    simpa using h.symm
  case returns =>
    intro m s' r hpend hstep
    simp only [semStep] at hstep
    split at hstep
    · next hc =>
      have h := hi.ended hpend (hi.waits.machine.caller_gone hc.1)
      rw [Option.some.injEq] at hstep
      unfold losSemPendResume at hstep
      dsimp only at hstep
      rw [h] at hstep
      cases hg : s.granted s.kernel.runTask with
      | true =>
        rw [hg] at hstep
        exact .inl ⟨(Prod.mk.inj hstep).2.symm, rfl⟩
      | false =>
        rw [hg] at hstep
        exact .inr ⟨(Prod.mk.inj hstep).2.symm, rfl⟩
    · cases hstep
  case total =>
    intro m
    obtain ⟨s', r, heq, _⟩ := losSemPost_spec hi m
    exact ⟨s', r, heq⟩
  case failed =>
    intro m s' r hstep hr
    cases hi.posted hstep with
    | refused => rfl
    | counted => exact absurd rfl hr
    | woken => exact absurd rfl hr
  case counted =>
    intro m s' hstep hnone
    cases hi.posted hstep with
    | refused h => exact absurd rfl h
    | counted hm hst _ =>
      refine ⟨congrArg LosSemCB.semCount setSem_self, funext fun t => ?_⟩
      show (s.granted t || ((s.kernel.status t).pend && !(s.kernel.status t).pend)) = s.granted t
      rw [Bool.and_not_self, Bool.or_false]
    | woken _ _ _ hw => exact absurd hw.1 (hnone _)
  case woken =>
    intro m s' hstep hsome
    cases hi.posted hstep with
    | refused h => exact absurd rfl h
    | counted hm hst hnone =>
      have h := (hi.blocked_exists hm hst).mp hsome
      rw [hnone] at h
      cases h
    | woken hm hst _ hw hgranted hgone hsem hnote =>
      exact ⟨by rw [hsem], _, hw, hgranted, hgone, hnote⟩
  case delete =>
    intro m hm hst hsome
    have hne := (hi.blocked_exists hm hst).mp hsome
    unfold losSemDelete
    rw [if_neg (by omega), if_neg (by simp [hst]), if_pos (by simp [hne])]

omit [Config] in
theorem osSemInit_fold (s : SemState) (n : Nat) :
    ((List.range n).foldl (fun s index =>
      { s with
        sem := Function.update s.sem index { s.sem index with semStat := false }
        kernel := losListTailInsert s.kernel .gUnusedSemList (.wait (.semList index)) }) s).kernel =
      (List.range n).foldl (fun k index =>
        losListTailInsert k .gUnusedSemList (.wait (.semList index))) s.kernel ∧
    ((List.range n).foldl (fun s index =>
      { s with
        sem := Function.update s.sem index { s.sem index with semStat := false }
        kernel := losListTailInsert s.kernel .gUnusedSemList (.wait (.semList index)) }) s).pending =
      s.pending ∧
    ∀ m < n, (((List.range n).foldl (fun s index =>
      { s with
        sem := Function.update s.sem index { s.sem index with semStat := false }
        kernel := losListTailInsert s.kernel .gUnusedSemList (.wait (.semList index)) }) s).sem
          m).semStat = false := by
  induction n with
  | zero => exact ⟨rfl, rfl, fun m hm => absurd hm (Nat.not_lt_zero m)⟩
  | succ n ih =>
    obtain ⟨hk, hp, hst⟩ := ih
    simp only [List.range_succ, List.foldl_append, List.foldl_cons, List.foldl_nil]
    refine ⟨by rw [hk], hp, fun m hm => ?_⟩
    by_cases hmn : m = n
    · rw [hmn, Function.update_self]
    · rw [Function.update_of_ne hmn]
      exact hst m (by omega)

theorem semBooted_inv {s : CountedSem} (hmax : gTaskMaxNum ≤ osInvalid) (hb : SemBooted s.toSemState) :
    ∃ V, SemInv s V := by
  obtain ⟨s₀, hk, hpend, hs⟩ := hb
  obtain ⟨h1, h2, h3⟩ := osSemInit_fold { s₀ with kernel := losListInit s₀.kernel .gUnusedSemList }
    Config.semLimit
  have hkernel : s.kernel = _ := (congrArg SemState.kernel hs).trans h1
  have hnone : s.pending = s₀.pending := (congrArg SemState.pending hs).trans h2
  have hstat : ∀ m < Config.semLimit, (s.sem m).semStat = false := fun m hm =>
    (congrArg (fun s : SemState => (s.sem m).semStat) hs).trans (h3 m hm)
  have hpool := @PoolInv.init _ _ _ Config.semLimit _ hk hmax .sem semList_inj
    (fun m => (s.sem m).semStat) hstat
  obtain ⟨V, hpool, hoff, _, htime⟩ := hpool
  rw [← hkernel] at hpool htime
  have hno : ∀ m < Config.semLimit, (s.sem m).semStat ≠ true := fun m hm h =>
    Bool.false_ne_true ((hstat m hm).symm.trans h)
  refine ⟨V, ?_, hpool, fun m hm hst => absurd hst (hno m hm), fun m hm hst => absurd hst (hno m hm),
    fun m hm hst => absurd hst (hno m hm)⟩
  have hfun : (fun t => (s.pending t).map WaitList.semList) = fun _ => none := by
    funext t
    rw [hnone, hpend]
    rfl
  rw [hfun]
  exact Waits.init hpool.machine hoff htime

/-- Every semaphore keeps its count in every run from the start of the kernel. -/
theorem semRun_inv {s₀ : CountedSem} {events : List SemEvent} (hmax : gTaskMaxNum ≤ osInvalid)
    (hb : SemBooted s₀.toSemState)
    (hrun : Run (fun s event s' => countedSemStep s event = some s') s₀ events s) : ∃ V, SemInv s V := by
  refine run_invariant (fun s => ∃ V, SemInv s V) ?_ hrun (semBooted_inv hmax hb)
  rintro s event s₁ ⟨V, hi⟩ hstep
  unfold countedSemStep at hstep
  rw [Option.map_eq_some_iff] at hstep
  obtain ⟨⟨s', r⟩, hsem, rfl⟩ := hstep
  exact semStep_inv hi hsem

theorem losSem_safe {s₀ : CountedSem} {events : List SemEvent} (hmax : gTaskMaxNum ≤ osInvalid)
    (hb : SemBooted s₀.toSemState)
    (hrun : Run (fun s event s' => countedSemStep s event = some s') s₀ events s) : SemaphoreSafe s := by
  obtain ⟨V, hi⟩ := semRun_inv hmax hb hrun
  exact hi.safe

end

def smallCountedSem : CountedSem :=
  ⟨smallSem, fun _ => 0, fun _ => 0, fun _ => 0, fun _ => false, 0, fun _ => 0⟩

/-- A task takes the one count, waits until its time is over, waits again and is woken by an interrupt, and posts. -/
def semEvents : List SemEvent :=
  [.create 1 true, .kernel (smallTask 10), .kernel .start, .pend false 0 0, .pend false 0 2, .kernel .pendSV,
    .kernel (.elapse 20), .kernel (.tick true), .kernel .pendSV, .resume, .pend false 0 losWaitForever,
    .kernel .pendSV, .post 0, .kernel .pendSV, .resume, .post 0]

omit [Config] in
/-- After the time-out, in the second wait, after the post that ends it, and at the end: what was taken and posted, the
count, whether the post was granted to the task and whether the task waits. -/
theorem losSem_safe_small :
    letI := smallConfig
    SemBooted smallCountedSem.toSemState ∧
      ∀ x ∈ [(10, 1, 0, 0, false, false), (12, 1, 0, 0, false, true), (13, 2, 1, 0, true, false),
        (16, 2, 2, 1, true, false)], ∃ s,
      Run (fun s event s' => countedSemStep s event = some s') smallCountedSem (semEvents.take x.1) s ∧
      s.taken 0 = x.2.1 ∧ s.posted 0 = x.2.2.1 ∧ (s.sem 0).semCount = x.2.2.2.1 ∧ s.granted 1 = x.2.2.2.2.1 ∧
      (s.kernel.status 1).pend = x.2.2.2.2.2 ∧ SemaphoreSafe s := by
  let := smallConfig
  refine ⟨smallSem_booted, fun x hx => ?_⟩
  have hrun : ((semEvents.take x.1).foldlM countedSemStep smallCountedSem).map (fun s => (s.taken 0, s.posted 0,
      (s.sem 0).semCount, s.granted 1, (s.kernel.status 1).pend)) =
      some (x.2.1, x.2.2.1, x.2.2.2.1, x.2.2.2.2.1, x.2.2.2.2.2) := by
    simp only [List.mem_cons, List.not_mem_nil, or_false] at hx
    rcases hx with rfl | rfl | rfl | rfl
    · decide +kernel
    · decide +kernel
    · decide +kernel
    · decide +kernel
  obtain ⟨s, hs, hval⟩ := Option.map_eq_some_iff.mp hrun
  simp only [Prod.mk.injEq] at hval
  obtain ⟨htaken, hposted, hcount, hgranted, hpend⟩ := hval
  have hsteps := run_of_foldlM hs
  exact ⟨s, hsteps, htaken, hposted, hcount, hgranted, hpend, losSem_safe (by decide) smallSem_booted hsteps⟩

end LiteosM.Ipc
