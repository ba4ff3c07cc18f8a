import LiteosM.Fat.Source

/-!
# Truncation

`fatfs_ftruncate` compares the length with the bytes of the clusters of the file, as a 32-bit
product.
-/

namespace LiteosM.Fat

/-- The result of a call of FatFs in an `fatfs_ftruncate`. -/
def FatCall.failed : FatCall → Bool
  | .fGetclustinfo _ res => res ≠ .ok
  | .fExpand _ _ _ res => res ≠ .ok
  | .fTruncate _ _ _ res => res ≠ .ok
  | _ => false

def FatCall.expands : FatCall → Bool
  | .fExpand _ _ _ _ => true
  | _ => false

def FatCall.truncates : FatCall → Bool
  | .fTruncate _ _ _ _ => true
  | _ => false

/-- The size is set and the file is marked as modified, or neither the size nor the flags have
changed. The file has `clusterBytes` bytes in its clusters. -/
structure TruncatedTo (s : FatState) (env : FatEnv) (fd length clusterBytes : Nat) (o : FatOutcome) :
    Prop where
  expands : env.fGetclustinfo = .ok → (o.calls.any FatCall.expands = true ↔ clusterBytes < length)
  truncates : env.fGetclustinfo = .ok → (o.calls.any FatCall.truncates = true ↔ length < clusterBytes)
  done : o.calls.any FatCall.failed = false → o.ret = 0 ∧ (o.state.gHandle fd).fil.objsize = length ∧
    hasFlag (o.state.gHandle fd).fil.flag faModified = true
  fails : o.calls.any FatCall.failed = true → o.ret = -1 ∧
    (o.state.gHandle fd).fil.objsize = (s.gHandle fd).fil.objsize ∧
    (o.state.gHandle fd).fil.flag = (s.gHandle fd).fil.flag

variable [FatConfig] in
/-- The call is right, whatever is in the memory of its variables. -/
def TruncatesExactly (s : FatState) (env : FatEnv) (fd fs length : Nat) : Prop :=
  ∃ o, (∀ garbage, fatfsFtruncate s fd length { env with garbage := garbage } = some o) ∧
    TruncatedTo s env fd length ((s.gFatfs fs).clusterSize * env.count) o

/-- `f_truncate` fails after it has changed the file. -/
def TornTruncate (fp : Fil) (length : Nat) (env : FatEnv) : Prop :=
  env.fValidate = .ok ∧ hasFlag fp.flag faWrite = true ∧ fp.fptr ≤ fp.objsize ∧
    (env.fChain ≠ .ok ∧ fp.flag ||| faModified ≠ fp.flag ∨
      env.fChain = .ok ∧ hasFlag (fp.flag ||| faModified) faDirty = true ∧ env.fFlush ≠ .ok ∧
        (length ≠ fp.objsize ∨ fp.flag ||| faModified ≠ fp.flag))

/-- The bytes of the clusters fit into 32 bits, the length is not just as many, and a truncation
fails before it changes the file if it fails. -/
def TruncateSafe (s : FatState) (env : FatEnv) (fd fs length : Nat) : Prop :=
  env.fGetclustinfo ≠ .ok ∨
    (s.gFatfs fs).clusterSize * env.count < 2 ^ 32 ∧ length ≠ (s.gFatfs fs).clusterSize * env.count ∧
      (length < (s.gFatfs fs).clusterSize * env.count → ¬TornTruncate (s.gHandle fd).fil length env)

section

variable {s : FatState} {env : FatEnv} {fd fs length allocated : Nat} {fp : Fil}

theorem hasFlag_or (flag bit : Nat) (h : bit ≠ 0) : hasFlag (flag ||| bit) bit = true := by
  unfold hasFlag
  refine decide_eq_true fun hzero => h ?_
  rw [Nat.and_or_distrib_right, Nat.and_self, Nat.or_eq_zero_iff] at hzero
  exact hzero.2

theorem fExpand_failed (h : (fExpand fp length allocated env).2 ≠ .ok) :
    (fExpand fp length allocated env).1 = fp := by
  unfold fExpand at h ⊢
  split
  · rfl
  · split
    · rfl
    · split
      · rfl
      · split
        · rfl
        · rename_i h1 h2 h3 h4
          rw [if_neg h1, if_neg h2, if_neg h3, if_neg h4] at h
          exact absurd rfl h

theorem fTruncate_early (h : ¬(env.fValidate = .ok ∧ hasFlag fp.flag faWrite = true ∧ fp.fptr ≤ fp.objsize)) :
    (fTruncate fp length env).1 = fp := by
  unfold fTruncate
  split
  · rfl
  · rename_i hvalid
    split
    · rfl
    · rename_i hwrite
      rw [Bool.not_eq_true, Bool.not_eq_false'] at hwrite
      split
      · rfl
      · rename_i hptr
        exact absurd ⟨not_not.mp hvalid, hwrite, Nat.not_lt.mp hptr⟩ h

theorem fTruncate_chain (hvalid : env.fValidate = .ok) (hwrite : hasFlag fp.flag faWrite = true)
    (hptr : fp.fptr ≤ fp.objsize) (hchain : env.fChain ≠ .ok) :
    fTruncate fp length env = ({ fp with flag := fp.flag ||| faModified }, env.fChain) := by
  simp [fTruncate, hvalid, hwrite, Nat.not_lt.mpr hptr, hchain]

theorem fTruncate_cut (hvalid : env.fValidate = .ok) (hwrite : hasFlag fp.flag faWrite = true)
    (hptr : fp.fptr ≤ fp.objsize) (hchain : env.fChain = .ok) :
    fTruncate fp length env =
      if hasFlag (fp.flag ||| faModified) faDirty = true ∧ env.fFlush ≠ .ok then
        ({ fp with objsize := length, fptr := min fp.fptr length, flag := fp.flag ||| faModified }, env.fFlush)
      else
        ({ fp with
            objsize := length
            fptr := min fp.fptr length
            flag := if hasFlag (fp.flag ||| faModified) faDirty then (fp.flag ||| faModified) ^^^ faDirty
              else fp.flag ||| faModified }, .ok) := by
  cases hdirty : hasFlag (fp.flag ||| faModified) faDirty with
  | false => simp [fTruncate, hvalid, hwrite, Nat.not_lt.mpr hptr, hchain, hdirty]
  | true =>
    by_cases hflush : env.fFlush = .ok
    · simp [fTruncate, hvalid, hwrite, Nat.not_lt.mpr hptr, hchain, hdirty, hflush]
    · simp [fTruncate, hvalid, hwrite, Nat.not_lt.mpr hptr, hchain, hdirty, hflush]

theorem fTruncate_failed_iff :
    ((fTruncate fp length env).2 ≠ .ok → (fTruncate fp length env).1.objsize = fp.objsize ∧
      (fTruncate fp length env).1.flag = fp.flag) ↔ ¬TornTruncate fp length env := by
  unfold TornTruncate
  by_cases hcut : env.fValidate = .ok ∧ hasFlag fp.flag faWrite = true ∧ fp.fptr ≤ fp.objsize
  · obtain ⟨hvalid, hwrite, hptr⟩ := hcut
    by_cases hchain : env.fChain = .ok
    · rw [fTruncate_cut hvalid hwrite hptr hchain]
      split
      · rename_i hflush
        constructor
        · intro h htorn
          obtain ⟨hsize, hflag⟩ := h hflush.2
          obtain ⟨_, _, _, hchain' | ⟨_, _, _, hother⟩⟩ := htorn
          · exact hchain'.1 hchain
          · exact hother.elim (fun hne => hne hsize) fun hne => hne hflag
        · intro h _
          refine ⟨Decidable.byContradiction fun hne => h ?_, Decidable.byContradiction fun hne => h ?_⟩
          · exact ⟨hvalid, hwrite, hptr, .inr ⟨hchain, hflush.1, hflush.2, .inl hne⟩⟩
          · exact ⟨hvalid, hwrite, hptr, .inr ⟨hchain, hflush.1, hflush.2, .inr hne⟩⟩
      · rename_i hflush
        refine iff_of_true (fun h => absurd rfl h) fun htorn => ?_
        obtain ⟨_, _, _, hchain' | ⟨_, hdirty, hfails, _⟩⟩ := htorn
        · exact hchain'.1 hchain
        · exact hflush ⟨hdirty, hfails⟩
    · rw [fTruncate_chain hvalid hwrite hptr hchain]
      constructor
      · intro h htorn
        obtain ⟨_, _, _, hchain' | ⟨hok, _⟩⟩ := htorn
        · exact hchain'.2 (h hchain).2
        · exact hchain hok
      · intro h _
        refine ⟨rfl, Decidable.byContradiction fun hne => h ?_⟩
        exact ⟨hvalid, hwrite, hptr, .inl ⟨hchain, hne⟩⟩
  · rw [fTruncate_early hcut]
    exact iff_of_true (fun _ => ⟨rfl, rfl⟩) fun htorn => hcut ⟨htorn.1, htorn.2.1, htorn.2.2.1⟩

def truncated (s : FatState) (fd length : Nat) (fil : Fil) (res : FResult) (calls : List FatCall) : FatOutcome :=
  if res ≠ .ok then ⟨s.setHandle fd { s.gHandle fd with fil := fil }, -1, calls⟩
  else
    ⟨s.setHandle fd
      { s.gHandle fd with fil := { fil with objsize := length, flag := fil.flag ||| 0x40 } }, 0, calls⟩

theorem truncated_calls {fil : Fil} {res : FResult} {calls : List FatCall} :
    (truncated s fd length fil res calls).calls = calls := by
  unfold truncated
  split <;> rfl

theorem truncated_done {fil : Fil} {res : FResult} {calls : List FatCall} (h : res = .ok) :
    (truncated s fd length fil res calls).ret = 0 ∧
      ((truncated s fd length fil res calls).state.gHandle fd).fil.objsize = length ∧
      hasFlag ((truncated s fd length fil res calls).state.gHandle fd).fil.flag faModified = true := by
  unfold truncated FatState.setHandle
  rw [if_neg (not_not.mpr h)]
  dsimp only
  rw [Function.update_self]
  exact ⟨rfl, rfl, hasFlag_or _ _ (by decide)⟩

theorem truncated_fails (s : FatState) (fd length : Nat) (fil : Fil) (calls : List FatCall) {res : FResult} (h : res ≠ .ok) :
    (truncated s fd length fil res calls).ret = -1 ∧
      ((truncated s fd length fil res calls).state.gHandle fd).fil = fil := by
  unfold truncated FatState.setHandle
  rw [if_pos h]
  dsimp only
  rw [Function.update_self]
  exact ⟨rfl, rfl⟩

end

section

variable [FatConfig] {s : FatState} {env : FatEnv} {fd fs length : Nat} {garbage : FResult}

theorem fatfsFtruncate_eq (length : Nat) (garbage : FResult) (hlock : env.fsLock = true) (hfs : s.volume fd = some fs)
    (hwrite : fsCheckByID s (s.gFatfs fs).id = true) :
    fatfsFtruncate s fd length { env with garbage := garbage } =
      if env.fGetclustinfo ≠ .ok then some (s.fails [.fGetclustinfo fd env.fGetclustinfo])
      else if (s.gFatfs fs).clusterSize * env.count % 2 ^ 32 < length then
        let r := fExpand (s.gHandle fd).fil length ((s.gFatfs fs).clusterSize * env.count % 2 ^ 32) env
        some (truncated s fd length r.1 r.2 [.fGetclustinfo fd .ok, .fExpand fd fs length r.2])
      else if length < (s.gFatfs fs).clusterSize * env.count % 2 ^ 32 then
        let r := fTruncate (s.gHandle fd).fil length env
        some (truncated s fd length r.1 r.2 [.fGetclustinfo fd .ok, .fTruncate fd fs length r.2])
      else some (truncated s fd length (s.gHandle fd).fil garbage [.fGetclustinfo fd .ok]) := by
  unfold fatfsFtruncate
  simp only [hlock, hfs, hwrite, Bool.not_true, Bool.false_eq_true, if_false, Option.bind_eq_bind,
    Option.bind_some]
  split
  · rfl
  · unfold doTruncate
    simp only [hfs, Option.bind_eq_bind, Option.bind_some]
    split
    · unfold truncated
      change (Option.bind (if (fExpand (s.gHandle fd).fil length _ env).2 ≠ .ok then _ else _) _) = _
      split <;> rfl
    · split
      · unfold truncated
        change (Option.bind (if (fTruncate (s.gHandle fd).fil length env).2 ≠ .ok then _ else _) _) = _
        split <;> rfl
      · unfold truncated
        change (Option.bind (if garbage ≠ .ok then _ else _) _) = _
        split <;> rfl

/-- A call with the same outcome whatever is in the memory is right if the outcome is. -/
theorem truncatesExactly_iff {o : FatOutcome}
    (h : ∀ garbage, fatfsFtruncate s fd length { env with garbage := garbage } = some o) :
    TruncatesExactly s env fd fs length ↔
      TruncatedTo s env fd length ((s.gFatfs fs).clusterSize * env.count) o := by
  constructor
  · intro ⟨o', hall, hto⟩
    have hsame : o = o' := Option.some.inj ((h .ok).symm.trans (hall .ok))
    exact hsame ▸ hto
  · intro hto
    exact ⟨o, h, hto⟩

omit [FatConfig] in
theorem truncatedTo_fails {clusterBytes : Nat} (h : env.fGetclustinfo ≠ .ok) :
    TruncatedTo s env fd length clusterBytes (s.fails [.fGetclustinfo fd env.fGetclustinfo]) where
  expands := fun hok => absurd hok h
  truncates := fun hok => absurd hok h
  done := fun hdone => by simp [FatState.fails, FatCall.failed, h] at hdone
  fails := fun _ => ⟨rfl, rfl, rfl⟩

omit [FatConfig] in
theorem truncatedTo_expand {fil : Fil} {res : FResult} {clusterBytes : Nat} (hinfo : env.fGetclustinfo = .ok)
    (hkeeps : res ≠ .ok → fil = (s.gHandle fd).fil) :
    TruncatedTo s env fd length clusterBytes
        (truncated s fd length fil res [.fGetclustinfo fd .ok, .fExpand fd fs length res]) ↔
      clusterBytes < length := by
  constructor
  · intro hto
    refine (hto.expands hinfo).mp ?_
    rw [truncated_calls]
    rfl
  · intro hlt
    constructor
    · intro _
      rw [truncated_calls]
      exact iff_of_true rfl hlt
    · intro _
      rw [truncated_calls]
      exact iff_of_false (by simp [FatCall.truncates]) (Nat.not_lt.mpr hlt.le)
    · intro hdone
      rw [truncated_calls] at hdone
      have hok : res = .ok := by simpa [FatCall.failed] using hdone
      exact truncated_done hok
    · intro hfails
      rw [truncated_calls] at hfails
      have hres : res ≠ .ok := by simpa [FatCall.failed] using hfails
      obtain ⟨hret, hfil⟩ := truncated_fails s fd length fil
        [.fGetclustinfo fd .ok, .fExpand fd fs length res] hres
      rw [hfil]
      exact ⟨hret, by rw [hkeeps hres], by rw [hkeeps hres]⟩

omit [FatConfig] in
theorem truncatedTo_truncate {fil : Fil} {res : FResult} {clusterBytes : Nat} (hlt : length < clusterBytes) :
    TruncatedTo s env fd length clusterBytes
        (truncated s fd length fil res [.fGetclustinfo fd .ok, .fTruncate fd fs length res]) ↔
      (res ≠ .ok → fil.objsize = (s.gHandle fd).fil.objsize ∧ fil.flag = (s.gHandle fd).fil.flag) := by
  constructor
  · intro hto hres
    obtain ⟨_, hsize, hflag⟩ := hto.fails (by rw [truncated_calls]; simp [FatCall.failed, hres])
    obtain ⟨_, hfil⟩ := truncated_fails s fd length fil
      [.fGetclustinfo fd .ok, .fTruncate fd fs length res] hres
    rw [hfil] at hsize hflag
    exact ⟨hsize, hflag⟩
  · intro hkeeps
    constructor
    · intro _
      rw [truncated_calls]
      exact iff_of_false (by simp [FatCall.expands]) (Nat.not_lt.mpr hlt.le)
    · intro _
      rw [truncated_calls]
      exact iff_of_true rfl hlt
    · intro hdone
      rw [truncated_calls] at hdone
      have hok : res = .ok := by simpa [FatCall.failed] using hdone
      exact truncated_done hok
    · intro hfails
      rw [truncated_calls] at hfails
      have hres : res ≠ .ok := by simpa [FatCall.failed] using hfails
      obtain ⟨hret, hfil⟩ := truncated_fails s fd length fil
        [.fGetclustinfo fd .ok, .fTruncate fd fs length res] hres
      rw [hfil]
      exact ⟨hret, hkeeps hres⟩

theorem not_truncatesExactly (calls : List FatCall)
    (h : ∀ garbage, fatfsFtruncate s fd length { env with garbage := garbage } =
      some (truncated s fd length (s.gHandle fd).fil garbage calls)) :
    ¬TruncatesExactly s env fd fs length := by
  intro ⟨o, hall, _⟩
  have hdone : truncated s fd length (s.gHandle fd).fil .ok calls = o :=
    Option.some.inj ((h .ok).symm.trans (hall .ok))
  have hfails : truncated s fd length (s.gHandle fd).fil .denied calls = o :=
    Option.some.inj ((h .denied).symm.trans (hall .denied))
  have hzero : o.ret = 0 := hdone ▸ (truncated_done rfl).1
  have hone : o.ret = -1 := hfails ▸ (truncated_fails s fd length _ calls (by decide)).1
  rw [hzero] at hone
  exact absurd hone (by decide)

/-- `fatfs_ftruncate` is right if and only if the bytes of the clusters fit into 32 bits, the length is
not just as many, and no truncation fails after it has changed the file. -/
theorem fatfsFtruncate_exact (s : FatState) (env : FatEnv) (fd fs length : Nat) (hlock : env.fsLock = true)
    (hfs : s.volume fd = some fs) (hwrite : fsCheckByID s (s.gFatfs fs).id = true)
    (hlength : length < 2 ^ 32) (hcount : (s.gFatfs fs).clusterSize * env.count ≤ 2 ^ 32) :
    TruncatesExactly s env fd fs length ↔ TruncateSafe s env fd fs length := by
  have hcall := fun garbage => fatfsFtruncate_eq length garbage hlock hfs hwrite
  unfold TruncateSafe
  by_cases hinfo : env.fGetclustinfo = .ok
  · rw [or_iff_right (not_not.mpr hinfo)]
    simp only [if_neg (not_not.mpr hinfo)] at hcall
    generalize hbytes : (s.gFatfs fs).clusterSize * env.count = bytes at hcount hcall ⊢
    -- the product is as it is, or it is 0
    have hwrap : bytes < 2 ^ 32 ∧ bytes % 2 ^ 32 = bytes ∨ bytes = 2 ^ 32 ∧ bytes % 2 ^ 32 = 0 := by omega
    rcases Nat.lt_trichotomy (bytes % 2 ^ 32) length with hlt | heq | hgt
    · simp only [hlt, if_true] at hcall
      rw [truncatesExactly_iff hcall, hbytes,
        truncatedTo_expand hinfo fun hres => fExpand_failed hres]
      constructor
      · intro hless
        exact ⟨by omega, by omega, fun h => absurd hless (Nat.not_lt.mpr h.le)⟩
      · intro ⟨hsmall, _, _⟩
        omega
    · simp only [heq, Nat.lt_irrefl, if_false] at hcall
      refine iff_of_false (not_truncatesExactly _ hcall) fun ⟨hsmall, hne, _⟩ => hne ?_
      omega
    · simp only [Nat.not_lt.mpr hgt.le, hgt, if_true, if_false] at hcall
      have hless : length < bytes := by omega
      rw [truncatesExactly_iff hcall, hbytes, truncatedTo_truncate hless, fTruncate_failed_iff]
      constructor
      · intro htorn
        exact ⟨by omega, by omega, fun _ => htorn⟩
      · intro ⟨_, _, htorn⟩
        exact htorn hless
  · refine iff_of_true ?_ (.inl hinfo)
    simp only [if_pos hinfo] at hcall
    exact (truncatesExactly_iff hcall).mpr (truncatedTo_fails hinfo)

end

theorem fatfsFtruncate_exact_more : @TruncatesExactly smallFat (openedFat false) fatAnswers 0 0 5000 := by
  let _ := smallFat
  refine (fatfsFtruncate_exact (openedFat false) fatAnswers 0 0 5000 (by decide) (by decide) (by decide)
    (by decide) (by decide)).mpr (.inr ⟨by decide, by decide, fun h => ?_⟩)
  exact absurd h (by decide)

/-- The size is to be that of the one cluster, and the outcome is left to a variable without a value. -/
theorem fatfsFtruncate_allocation : fatAnswers.fsLock = true ∧ (openedFat false).volume 0 = some 0 ∧
    @fsCheckByID smallFat (openedFat false) ((openedFat false).gFatfs 0).id = true ∧
      ((openedFat false).gFatfs 0).clusterSize * fatAnswers.count = 4096 ∧
        ¬@TruncatesExactly smallFat (openedFat false) fatAnswers 0 0 4096 := by
  let _ := smallFat
  refine ⟨by decide, by decide, by decide, by decide, not_truncatesExactly [.fGetclustinfo 0 .ok] fun garbage => ?_⟩
  exact fatfsFtruncate_eq (s := openedFat false) 4096 garbage (by decide) (by decide : _ = some 0) (by decide)

end LiteosM.Fat
