import LiteosM.Vfs.Accounts

/-!
# The longest mount point

`los_mp_find` counts the characters that match, and a mount point without a component has none. The
root is never found; among the others the one with the longest components is.
-/

namespace LiteosM.Vfs

open LiteosM.Lib.Path LiteosM.Lib.Transition

/-- The components of the mount point start the path. -/
def MountsPrefix (s : VfsState) (path : List Char) (m : Nat) : Prop :=
  m ∈ s.mountPoints ∧ components (s.mp m).mPath <+: components path

/-- What `los_mp_find` is to return, with `path_in_mp`. -/
def FindsLongest (s : VfsState) (path : List Char) : Option (Nat × List Char) → Prop
  | none => ∀ m, ¬MountsPrefix s path m
  | some (m, rest) =>
    MountsPrefix s path m ∧
      (∀ k, MountsPrefix s path k →
        (components (s.mp k).mPath).length ≤ (components (s.mp m).mPath).length) ∧
      components (s.mp m).mPath ++ components rest = components path ∧
      rest <:+ path ∧ rest.head? ≠ some '/'

/-- No mount point is the root, or another one is a prefix as well. -/
def RootAside (s : VfsState) (path : List Char) : Prop :=
  (∀ m ∈ s.mountPoints, components (s.mp m).mPath ≠ []) ∨
    ∃ m, MountsPrefix s path m ∧ components (s.mp m).mPath ≠ []

def MountsApart (s : VfsState) : Prop :=
  ∀ m ∈ s.mountPoints, ∀ n ∈ s.mountPoints,
    components (s.mp m).mPath = components (s.mp n).mPath → m = n

/-- `los_fs_unmount` takes away the mount point of these components, if it has no references, and
nothing else. -/
def UnmountsExactly (s : VfsState) (t : Nat) (path : List Char) : Prop :=
  (∀ m ∈ s.mountPoints, components (s.mp m).mPath = components path → (s.mp m).mRefs = 0 →
    (losFsUnmountEnter s t path).2 = some 0 ∧
      (losFsUnmountEnter s t path).1.mountPoints = s.mountPoints.erase m) ∧
  ((∀ m ∈ s.mountPoints, components (s.mp m).mPath = components path → (s.mp m).mRefs ≠ 0) →
    (losFsUnmountEnter s t path).2 = some 1 ∧
      (losFsUnmountEnter s t path).1.mountPoints = s.mountPoints)

section

variable {s : VfsState} {mPath iPath path rest : List Char} {count n m t : Nat}

theorem skipSlashes_suffix : skipSlashes path <:+ path := List.dropWhile_suffix _

theorem afterName_suffix : afterName path <:+ path := List.dropWhile_suffix _

/-- `i_path` only moves on. The induction is on the length of `m_path`. -/
theorem mpMatches_suffix (k : Nat) : ∀ (mPath iPath : List Char) (count : Nat), mPath.length ≤ k →
    mpMatches mPath iPath count = some (n, rest) → rest <:+ iPath := by
  induction k with
  | zero =>
    intro mPath iPath count hlen h
    rw [List.length_eq_zero_iff.mp (Nat.le_zero.mp hlen), mpMatches_nil rfl] at h
    cases h
    exact skipSlashes_suffix
  | succ k ih =>
    intro mPath iPath count hlen h
    by_cases hnil : skipSlashes mPath = []
    · rw [mpMatches_nil hnil] at h
      cases h
      exact skipSlashes_suffix
    · have hshort := afterName_shorter hnil
      have hstep : afterName (skipSlashes iPath) <:+ iPath :=
        afterName_suffix.trans skipSlashes_suffix
      rw [mpMatches_cons hnil] at h
      split at h
      · split at h
        · cases h
          exact hstep
        · exact (ih _ _ _ (by omega) h).trans hstep
      · cases h

theorem mpMatches_rest (h : mpMatches mPath path 0 = some (n, rest)) :
    components mPath ++ components (skipSlashes rest) = components path ∧
      n = size (components mPath) ∧ skipSlashes rest <:+ path := by
  obtain ⟨hcomp, hsize⟩ := mpMatches_sound _ mPath path 0 (Nat.le_refl _) h
  refine ⟨?_, by omega, skipSlashes_suffix.trans (mpMatches_suffix _ mPath path 0 (Nat.le_refl _) h)⟩
  rw [components_skipSlashes]
  exact hcomp

theorem length_le_of_size_le {xs ys zs : List (List Char)} (hx : xs <+: zs) (hy : ys <+: zs)
    (hall : ∀ name ∈ zs, name ≠ []) (h : size xs ≤ size ys) : xs.length ≤ ys.length := by
  obtain hle | hlt := Nat.lt_or_ge ys.length xs.length
  · obtain ⟨more, rfl⟩ := List.prefix_of_prefix_length_le hy hx (Nat.le_of_lt hle)
    have hne : more ≠ [] := by
      intro hnil
      rw [hnil, List.append_nil] at hle
      exact Nat.lt_irrefl _ hle
    have hpos := size_pos hne fun name hn => hall name (hx.subset (List.mem_append_right _ hn))
    rw [size_append] at h
    omega
  · exact hlt

/-- What the loop has found among the mount points `l`. -/
def BestOf (s : VfsState) (path : List Char) (l : List Nat) (best : Nat × Option (Nat × List Char)) : Prop :=
  (∀ k ∈ l, components (s.mp k).mPath <+: components path → size (components (s.mp k).mPath) ≤ best.1) ∧
    (best = (0, none) ∨ ∃ m ∈ l, ∃ rest, best = (size (components (s.mp m).mPath), some (m, rest)) ∧
      0 < best.1 ∧ components (s.mp m).mPath ++ components rest = components path ∧ rest <:+ path ∧
      rest.head? ≠ some '/')

theorem bestOf_round {l : List Nat} {best : Nat × Option (Nat × List Char)} (h : BestOf s path l best)
    (k : Nat) :
    BestOf s path (l ++ [k])
      (match mpMatches (s.mp k).mPath path 0 with
        | none => best
        | some (count, iPath) =>
          if best.1 < count then (count, some (k, skipSlashes iPath)) else best) := by
  obtain ⟨hmax, hfound⟩ := h
  have hold : ∀ b, (∀ j ∈ l, components (s.mp j).mPath <+: components path →
      size (components (s.mp j).mPath) ≤ b) → (components (s.mp k).mPath <+: components path →
      size (components (s.mp k).mPath) ≤ b) → ∀ j ∈ l ++ [k], components (s.mp j).mPath <+: components path →
      size (components (s.mp j).mPath) ≤ b := by
    intro b hl hk j hj
    obtain hj | hj := List.mem_append.mp hj
    · exact hl j hj
    · rw [List.mem_singleton.mp hj]
      exact hk
  have hkeep : best = (0, none) ∨ ∃ m ∈ l ++ [k], ∃ rest,
      best = (size (components (s.mp m).mPath), some (m, rest)) ∧ 0 < best.1 ∧
      components (s.mp m).mPath ++ components rest = components path ∧ rest <:+ path ∧
      rest.head? ≠ some '/' := by
    obtain hnone | ⟨m, hm, hrest⟩ := hfound
    · exact .inl hnone
    · exact .inr ⟨m, List.mem_append_left _ hm, hrest⟩
  cases hmatch : mpMatches (s.mp k).mPath path 0 with
  | none =>
    refine ⟨hold best.1 hmax fun hpre => ?_, hkeep⟩
    have hsome := mpMatches_complete _ (s.mp k).mPath path 0 (Nat.le_refl _) hpre
    rw [hmatch] at hsome
    cases hsome
  | some found =>
    obtain ⟨count, iPath⟩ := found
    obtain ⟨hcomp, hcount, hsuffix⟩ := mpMatches_rest hmatch
    dsimp only
    split
    · rename_i hlt
      refine ⟨hold count (fun j hj hpre => ?_) fun _ => Nat.le_of_eq hcount.symm, .inr ?_⟩
      · exact Nat.le_trans (hmax j hj hpre) (Nat.le_of_lt hlt)
      · refine ⟨k, List.mem_append_right _ (List.mem_singleton_self k), skipSlashes iPath, ?_, ?_, hcomp, hsuffix,
          skipSlashes_head⟩
        · rw [hcount]
        · exact Nat.lt_of_le_of_lt (Nat.zero_le _) hlt
    · rename_i hge
      exact ⟨hold best.1 hmax fun _ => by omega, hkeep⟩

theorem bestOf_foldl (l : List Nat) {seen : List Nat} {best : Nat × Option (Nat × List Char)}
    (h : BestOf s path seen best) :
    BestOf s path (seen ++ l)
      (l.foldl (fun best m =>
        match mpMatches (s.mp m).mPath path 0 with
        | none => best
        | some (count, iPath) => if best.1 < count then (count, some (m, skipSlashes iPath)) else best)
        best) := by
  induction l generalizing seen best with
  | nil =>
    rw [List.append_nil]
    exact h
  | cons k l ih =>
    rw [List.foldl_cons, List.append_cons]
    exact ih (bestOf_round h k)

theorem losMpFind_cases (s : VfsState) (path : List Char) :
    (losMpFind s path = none ∧ ∀ m, MountsPrefix s path m → components (s.mp m).mPath = []) ∨
      ∃ m rest, losMpFind s path = some (m, rest) ∧ components (s.mp m).mPath ≠ [] ∧
        FindsLongest s path (some (m, rest)) := by
  have hstart : BestOf s path [] (0, none) := ⟨fun k hk => (by cases hk), .inl rfl⟩
  obtain ⟨hmax, hfound⟩ := bestOf_foldl s.mountPoints hstart
  rw [List.nil_append] at hmax hfound
  unfold losMpFind
  generalize s.mountPoints.foldl _ (0, none) = best at hmax hfound
  obtain rfl | ⟨m, hm, rest, rfl, hpos, hcomp, hsuffix, hhead⟩ := hfound
  · refine .inl ⟨rfl, fun m hm => ?_⟩
    by_contra hne
    have hle := hmax m hm.1 hm.2
    have hpos := size_pos hne components_ne_nil
    omega
  · refine .inr ⟨m, rest, rfl, fun hnil => ?_, ⟨hm, ⟨_, hcomp⟩⟩, fun k hk => ?_, hcomp, hsuffix, hhead⟩
    · rw [hnil] at hpos
      exact absurd hpos (Nat.lt_irrefl 0)
    · exact length_le_of_size_le hk.2 ⟨_, hcomp⟩ components_ne_nil (hmax k hk.1 hk.2)

theorem losMpFind_iff (s : VfsState) (path : List Char) :
    FindsLongest s path (losMpFind s path) ↔ RootAside s path := by
  obtain ⟨hnone, hroot⟩ | ⟨m, rest, hsome, hne, hlongest⟩ := losMpFind_cases s path
  · rw [hnone]
    constructor
    · intro h
      refine .inl fun m hm hnil => h m ⟨hm, ?_⟩
      rw [hnil]
      exact List.nil_prefix
    · rintro (h | ⟨m, hm, hne⟩) k hk
      · exact h k hk.1 (hroot k hk)
      · exact hne (hroot m hm)
  · rw [hsome]
    exact iff_of_true hlongest (.inr ⟨m, hlongest.1, hne⟩)

theorem PathInv.unmountsExactly (hi : PathInv s) : UnmountsExactly s t path := by
  have hfails : losFsUnmounts s path = none → (losFsUnmountEnter s t path).2 = some 1 ∧
      (losFsUnmountEnter s t path).1.mountPoints = s.mountPoints := by
    intro h
    unfold losFsUnmountEnter
    rw [h]
    exact ⟨rfl, rfl⟩
  constructor
  · intro m hm hcomp hrefs
    have hne : components path ≠ [] := hcomp ▸ hi.named m hm
    have hfind : losMpFind s path = some (m, []) :=
      losMpFind_self hm hcomp.symm hne fun k hk h => hi.unique k hk m hm (h.trans hcomp.symm)
    have hunmounts : losFsUnmounts s path = some m := by
      unfold losFsUnmounts
      rw [hfind]
      exact if_neg fun h => h.elim (fun h => h rfl) fun h => h hrefs
    unfold losFsUnmountEnter
    rw [hunmounts]
    exact ⟨rfl, rfl⟩
  · intro hrefs
    apply hfails
    unfold losFsUnmounts
    obtain ⟨hnone, _⟩ | ⟨m, rest, hsome, _, hlongest⟩ := losMpFind_cases s path
    · rw [hnone]
    · rw [hsome]
      apply if_pos
      by_cases hrest : rest = []
      · obtain ⟨hm, _, hcomp, _, _⟩ := hlongest
        have hnil : components [] = [] := components_nil_iff.mpr rfl
        rw [hrest, hnil, List.append_nil] at hcomp
        exact .inr (hrefs m hm.1 hcomp)
      · exact .inl hrest

end

/-- A mount point that is not the root is found where it is the longest, and as long as no root is
mounted the mount points stay apart. -/
theorem losMpFind_longest (s₀ s : VfsState) (events : List VfsEvent) (t : Nat) (path : List Char) :
    (FindsLongest s path (losMpFind s path) ↔ RootAside s path) ∧
    (VfsBooted s₀ →
      Run (VfsStep MountsNamed) s₀ events s →
      MountsApart s ∧ UnmountsExactly s t path) := by
  refine ⟨losMpFind_iff s path, ?_⟩
  intro hb hrun
  have hi : LockInv s ∧ PathInv s := by
    refine run_invariant (fun s => LockInv s ∧ PathInv s) ?_ hrun ⟨vfsBooted_lockInv hb, ?_, ?_⟩
    · rintro s event s' hi ⟨hfree, hnamed, hstep⟩
      have hmove := vfsNext_move hstep
      have hturn : Turn s event := ⟨vfsNext_runs hstep, hfree⟩
      exact ⟨hmove.lockInv hi.1 hturn, hmove.pathInv hi.1 hi.2 hnamed⟩
    · intro m hm
      rw [hb.mountPoints] at hm
      cases hm
    · intro m hm
      rw [hb.mountPoints] at hm
      cases hm
  exact ⟨hi.2.unique, hi.2.unmountsExactly⟩

/-- A second mount point below `/a`, a refused mount of `/a`, and the second one is taken away. -/
def smallNested : List VfsEvent :=
  smallMount ++
    [.call 1 (.mount (some "ramfs".toList) (some "/a/b".toList)), .run 1 (some 2),
      .call 2 (.mount (some "ramfs".toList) (some "//a/".toList)), .run 2 (some 3),
      .call 2 (.unmount (some "/a/b/".toList)), .run 2 none]

theorem losMpFind_longest_small :
    VfsBooted smallVfs ∧ ∀ x ∈ [(8, [1, 0], some (1, "f".toList)), (10, [0], some (0, "b/f".toList))],
      ∃ s, Run (VfsStep MountsNamed) smallVfs (smallNested.take x.1) s ∧ s.mountPoints = x.2.1 ∧
        losMpFind s "/a/b/f".toList = x.2.2 ∧
        FindsLongest s "/a/b/f".toList (losMpFind s "/a/b/f".toList) ∧
        MountsApart s ∧ UnmountsExactly s 1 "/a/b".toList := by
  refine ⟨smallVfs_booted, fun x hx => ?_⟩
  have hrun : ((smallNested.take x.1).foldlM (guarded (fun s event =>
      quietStep s event = true ∧ carefulStep s event = true) vfsNext) smallVfs).map
      (fun s => (s.mountPoints, losMpFind s "/a/b/f".toList,
        s.mountPoints.all fun m => components (s.mp m).mPath ≠ [])) = some (x.2.1, x.2.2, true) := by
    simp only [List.mem_cons, List.not_mem_nil, or_false] at hx
    rcases hx with rfl | rfl <;> decide +kernel
  obtain ⟨s, hs, hval⟩ := Option.map_eq_some_iff.mp hrun
  simp only [Prod.mk.injEq, List.all_eq_true, decide_eq_true_eq] at hval
  obtain ⟨hmounts, hfound, hnamed⟩ := hval
  have hsteps : Run (VfsStep MountsNamed) smallVfs (smallNested.take x.1) s :=
    run_mono (fun _ _ _ h => ⟨quietStep_fsFree h.2.1, carefulStep_mountsNamed h.2.2, h.1⟩)
      (run_of_guarded hs)
  obtain ⟨hfind, _⟩ := losMpFind_longest smallVfs s [] 1 "/a/b/f".toList
  obtain ⟨_, hapart⟩ := losMpFind_longest smallVfs s (smallNested.take x.1) 1 "/a/b".toList
  exact ⟨s, hsteps, hmounts, hfound, hfind.mpr (.inl hnamed), hapart smallVfs_booted hsteps⟩

def smallRoot : List VfsEvent :=
  [.call 1 (.register 0), .run 1 none, .call 1 (.mount (some "ramfs".toList) (some "/".toList)),
    .run 1 (some 1), .call 1 (.mount (some "ramfs".toList) (some "//".toList)), .run 1 (some 2)]

/-- Both calls succeed, and then neither mount point can be found or unmounted. -/
theorem losFsMount_root :
    ∃ s, Run (fun s event s' => vfsNext s event = some s') smallVfs smallRoot s ∧
      s.mountPoints = [1, 0] ∧ losMpFind s "/f".toList = none ∧
      ¬FindsLongest s "/f".toList (losMpFind s "/f".toList) ∧ ¬MountsApart s ∧
      ¬UnmountsExactly s 1 "/".toList := by
  have hrun : (smallRoot.foldlM vfsNext smallVfs).map (fun s => (s.mountPoints, (s.mp 0).mPath,
      (s.mp 1).mPath, (s.mp 0).mRefs, (losFsUnmountEnter s 1 "/".toList).2)) =
      some ([1, 0], "/".toList, "//".toList, 0, some 1) := by
    decide +kernel
  have hnone : (smallRoot.foldlM vfsNext smallVfs).map (fun s => (losMpFind s "/f".toList).isNone) =
      some true := by
    decide +kernel
  rw [Option.map_eq_some_iff] at hrun
  obtain ⟨s, hs, hval⟩ := hrun
  rw [hs, Option.map_some, Option.some.injEq, Option.isNone_iff_eq_none] at hnone
  rw [Prod.mk.injEq, Prod.mk.injEq, Prod.mk.injEq, Prod.mk.injEq] at hval
  obtain ⟨hmounts, hpath0, hpath1, hrefs, hunmount⟩ := hval
  have hroot : components "/".toList = [] ∧ components "//".toList = [] :=
    ⟨components_nil_iff.mpr rfl, components_nil_iff.mpr rfl⟩
  have h0 : 0 ∈ s.mountPoints := by
    rw [hmounts]
    decide
  have h1 : 1 ∈ s.mountPoints := by
    rw [hmounts]
    decide
  refine ⟨s, run_of_foldlM hs, hmounts, hnone, ?_, ?_, ?_⟩
  · rw [hnone]
    intro h
    refine h 0 ⟨h0, ?_⟩
    rw [hpath0, hroot.1]
    exact List.nil_prefix
  · intro h
    have := h 0 h0 1 h1 (by rw [hpath0, hpath1, hroot.1, hroot.2])
    cases this
  · intro h
    obtain ⟨hret, _⟩ := h.1 0 h0 (by rw [hpath0]) hrefs
    rw [hunmount] at hret
    cases hret

end LiteosM.Vfs
