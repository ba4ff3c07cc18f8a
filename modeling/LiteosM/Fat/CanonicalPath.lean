import LiteosM.Lib.Lexical
import Mathlib.Data.List.Induction

/-!
# Canonical paths

`GetCanonicalPath` of `fs.c`. It works on a copy of the path with three loops, one after the other.
-/

namespace LiteosM.Fat

open LiteosM.Lib.Lexical

/-- The inner loop for `/../`: back from `start` to the character after a slash. -/
def backToSlash (tmpBuf : List Char) : Nat → Nat
  | 0 => 0
  | start + 1 => if tmpBuf[start]? = some '/' then start + 1 else backToSlash tmpBuf start

/-- `while ((p = strstr(tmpBuf, "/name/")) != NULL)`, with a `memmove_s` of what is behind the name to
`start`. -/
def replaceLoop (name : List Char) (start : List Char → Nat → Nat) (tmpBuf : List Char) : List Char :=
  match _h : strstr ('/' :: (name ++ ['/'])) tmpBuf with
  | none => tmpBuf
  | some p =>
    replaceLoop name start ((tmpBuf.take p).take (start tmpBuf p) ++ tmpBuf.drop (p + (name.length + 1)))
termination_by tmpBuf.length
decreasing_by
  have hle := strstr_bound _h
  simp only [List.length_append, List.length_take, List.length_drop, List.length_cons] at hle ⊢
  omega

def replaceDot (tmpBuf : List Char) : List Char := replaceLoop ['.'] (fun _ p => p) tmpBuf

def replaceSlashes (tmpBuf : List Char) : List Char := replaceLoop [] (fun _ p => p) tmpBuf

/-- `/../` goes with the name before it. -/
def handleDotdot (tmpBuf : List Char) : List Char := replaceLoop ['.', '.'] backToSlash tmpBuf

def stripSlash (tmpBuf : List Char) : List Char :=
  if 1 < tmpBuf.length ∧ tmpBuf.getLast? = some '/' then tmpBuf.dropLast else tmpBuf

/-- The strings that are joined, with `NULL` pointers taken into account. -/
def pathArgs (cwd path : Option (List Char)) : List Char × List Char :=
  let path := path.getD []
  (if path.head? = some '/' then [] else cwd.getD [], path)

/-- The path that is built in `tmpBuf`. -/
def canonicalText (cwd path : Option (List Char)) : List Char :=
  let args := pathArgs cwd path
  stripSlash (handleDotdot (replaceSlashes (replaceDot ('/' :: args.1 ++ '/' :: args.2 ++ ['/']))))

/-- `memcpy_s` to a buffer of `bufSize` bytes, and a null character at its end. A `bufSize` above 0x7fffffff,
which `memcpy_s` refuses, is left out. -/
def copyOut (buf tmpBuf : List Char) : List Char :=
  let bufSize := buf.length
  let count := if bufSize < tmpBuf.length + 1 then bufSize else tmpBuf.length + 1
  ((tmpBuf ++ [Char.ofNat 0]).take count ++ buf.drop count).set (bufSize - 1) (Char.ofNat 0)

/-- The result, and what is in the buffer afterwards. A buffer of no bytes stands for `NULL` too. -/
def getCanonicalPath (malloc : Bool) (cwd path : Option (List Char)) (buf : List Char) : Nat × List Char :=
  if !malloc then (0, buf)
  else
    let tmpBuf := canonicalText cwd path
    if buf = [] then (tmpBuf.length, buf) else (tmpBuf.length, copyOut buf tmpBuf)

def pathNames (cwd path : Option (List Char)) : List (List Char) :=
  let args := pathArgs cwd path
  args.1.splitOn '/' ++ args.2.splitOn '/'

def lexicalPath (cwd path : Option (List Char)) : List Char :=
  render '/' (normalNames ['.'] ['.', '.'] (pathNames cwd path))

/-- What the function is to give: a buffer of `buf.length` bytes gets as much of the normal form as it
holds with a null character behind it, and the result is the length of all of it. -/
structure Canonicalised (cwd path : Option (List Char)) (buf : List Char) (o : Nat × List Char) : Prop where
  canonical : IsCanonical '/' ['.'] ['.', '.'] (lexicalPath cwd path)
  unchanged : ∀ text, path = some text → IsCanonical '/' ['.'] ['.', '.'] text → lexicalPath cwd path = text
  length : o.1 = (lexicalPath cwd path).length
  text : buf ≠ [] → (lexicalPath cwd path).take (buf.length - 1) ++ [Char.ofNat 0] <+: o.2
  size : o.2.length = buf.length

/-- A step up in the loop leaves an empty name in the place of the name before. -/
def climb (names : List (List Char)) (name : List Char) : List (List Char) :=
  if name = ['.', '.'] then if names = [] then [] else names.dropLast ++ [[]] else names ++ [name]

/-- No `..` comes after an ordinary name, or there is only one of these. -/
def UpsFirst (names : List (List Char)) : Prop :=
  ['.', '.'] ∉ names.dropWhile (· = ['.', '.']) ∨ (names.filter (· ≠ ['.', '.'])).length = 1

instance (names : List (List Char)) : Decidable (UpsFirst names) := inferInstanceAs (Decidable (_ ∨ _))

section Loops

variable {start : List Char → Nat → Nat} {name rest : List Char} {names l r : List (List Char)}

theorem replaceLoop_none (hname : '/' ∉ name) (hsep : ∀ n ∈ names, '/' ∉ n) (h : name ∉ names) :
    replaceLoop name start (joined '/' names ++ ['/']) = joined '/' names ++ ['/'] := by
  rw [replaceLoop]
  split
  · rfl
  · rename_i hsome
    rw [strstr_joined_none hname hsep h] at hsome
    cases hsome

theorem replaceLoop_some (hname : '/' ∉ name) (hsep : ∀ n ∈ l, '/' ∉ n) (h : name ∉ l) :
    replaceLoop name start (joined '/' (l ++ name :: r) ++ ['/']) =
      replaceLoop name start ((joined '/' l).take (start (joined '/' (l ++ name :: r) ++ ['/'])
        (joined '/' l).length) ++ (joined '/' r ++ ['/'])) := by
  rw [replaceLoop]
  split
  · rename_i hnone
    rw [strstr_joined_some hname hsep h] at hnone
    cases hnone
  · rename_i p hsome
    rw [strstr_joined_some hname hsep h] at hsome
    cases hsome
    have hbefore : (joined '/' (l ++ name :: r) ++ ['/']).take (joined '/' l).length = joined '/' l := by
      rw [joined_append, List.append_assoc, List.take_left]
    have hbehind : (joined '/' (l ++ name :: r) ++ ['/']).drop ((joined '/' l).length + (name.length + 1)) =
        joined '/' r ++ ['/'] := by
      rw [joined_append, List.append_assoc, ← List.drop_drop, List.drop_left, joined, List.cons_append,
        List.append_assoc, List.drop_succ_cons, List.drop_left]
    rw [hbefore, hbehind]

theorem replaceLoop_filter (name : List Char) (hname : '/' ∉ name) (hl : ∀ n ∈ l, '/' ∉ n) (hr : ∀ n ∈ r, '/' ∉ n)
    (h : name ∉ l) :
    replaceLoop name (fun _ p => p) (joined '/' (l ++ r) ++ ['/']) =
      joined '/' (l ++ r.filter (· ≠ name)) ++ ['/'] := by
  induction r generalizing l with
  | nil =>
    rw [List.append_nil, List.filter_nil, List.append_nil]
    exact replaceLoop_none hname hl h
  | cons n ns ih =>
    obtain ⟨hn, hns⟩ := List.forall_mem_cons.mp hr
    by_cases heq : n = name
    · rw [heq, replaceLoop_some hname hl h, List.take_length, ← List.append_assoc, ← joined_append,
        ih hl hns h, List.filter_cons_of_neg (by simp)]
    · have hkept : ∀ m ∈ l ++ [n], '/' ∉ m :=
        List.forall_mem_append.mpr ⟨hl, List.forall_mem_singleton.mpr hn⟩
      have hstill : name ∉ l ++ [n] := fun hmem => (List.mem_append.mp hmem).elim h fun hmem =>
        heq (List.mem_singleton.mp hmem).symm
      have happ := ih hkept hns hstill
      rw [List.append_assoc, List.append_assoc, List.singleton_append, List.singleton_append] at happ
      rw [happ, List.filter_cons_of_pos (by simpa using heq)]

theorem backToSlash_name (before rest : List Char) (h : '/' ∉ name) :
    backToSlash (before ++ '/' :: (name ++ rest)) (before.length + 1 + name.length) = before.length + 1 := by
  induction name using List.reverseRecOn generalizing rest with
  | nil => simp [backToSlash]
  | append_singleton name c ih =>
    obtain ⟨hname, hc⟩ := not_or.mp (List.mem_append.not.mp h)
    have hne : c ≠ '/' := fun heq => hc (List.mem_singleton.mpr heq.symm)
    have hback := ih (c :: rest) hname
    rw [List.append_assoc, List.singleton_append, List.length_append, List.length_singleton, ← Nat.add_assoc,
      backToSlash, if_neg]
    · exact hback
    · have hget : (before ++ '/' :: (name ++ c :: rest))[before.length + 1 + name.length]? = some c := by
        rw [List.getElem?_append_right (by omega)]
        have hindex : before.length + 1 + name.length - before.length = name.length + 1 := by omega
        rw [hindex, List.getElem?_cons_succ, List.getElem?_append_right (Nat.le_refl _), Nat.sub_self]
        rfl
      rw [hget]
      simpa using hne

theorem backToSlash_joined (rest : List Char) (h : ∀ n ∈ l, '/' ∉ n) :
    (joined '/' l).take (backToSlash (joined '/' l ++ rest) (joined '/' l).length) =
      joined '/' (if l = [] then [] else l.dropLast ++ [[]]) := by
  induction l using List.reverseRecOn with
  | nil => rfl
  | append_singleton l name _ =>
    have hname : '/' ∉ name := h name (List.mem_append_right _ List.mem_cons_self)
    have hsplit : joined '/' (l ++ [name]) = joined '/' l ++ '/' :: name := by
      rw [joined_append, joined, joined, List.append_nil]
    have hback := backToSlash_name (joined '/' l) rest hname
    rw [if_neg (by simp), List.dropLast_concat, hsplit, joined_append, List.append_assoc, List.cons_append,
      List.length_append, List.length_cons, Nat.add_comm name.length, ← Nat.add_assoc, hback,
      List.take_append, Nat.add_sub_cancel_left, List.take_of_length_le (Nat.le_add_right _ 1)]
    rfl

theorem handleDotdot_climb (hl : ∀ n ∈ l, '/' ∉ n) (hr : ∀ n ∈ r, '/' ∉ n) (h : ['.', '.'] ∉ l) :
    handleDotdot (joined '/' (l ++ r) ++ ['/']) = joined '/' (r.foldl climb l) ++ ['/'] := by
  have hname : '/' ∉ ['.', '.'] := by decide
  unfold handleDotdot
  induction r generalizing l with
  | nil =>
    rw [List.append_nil, List.foldl_nil]
    exact replaceLoop_none hname hl h
  | cons n ns ih =>
    obtain ⟨hn, hns⟩ := List.forall_mem_cons.mp hr
    rw [List.foldl_cons]
    by_cases heq : n = ['.', '.']
    · have hback := backToSlash_joined (joined '/' (['.', '.'] :: ns) ++ ['/']) hl
      rw [← List.append_assoc, ← joined_append] at hback
      rw [heq, replaceLoop_some hname hl h, hback, ← List.append_assoc, ← joined_append, climb, if_pos rfl]
      by_cases hnil : l = []
      · rw [if_pos hnil]
        exact ih (by simp) hns (by simp)
      · rw [if_neg hnil]
        refine ih (fun m hm => ?_) hns fun hmem => ?_
        · obtain hm | hm := List.mem_append.mp hm
          · exact hl m (List.dropLast_subset _ hm)
          · rw [List.mem_singleton.mp hm]
            exact List.not_mem_nil
        · obtain hm | hm := List.mem_append.mp hmem
          · exact h (List.dropLast_subset _ hm)
          · cases List.mem_singleton.mp hm
    · have hkept : ∀ m ∈ l ++ [n], '/' ∉ m :=
        List.forall_mem_append.mpr ⟨hl, List.forall_mem_singleton.mpr hn⟩
      have hstill : ['.', '.'] ∉ l ++ [n] := fun hmem => (List.mem_append.mp hmem).elim h fun hmem =>
        heq (List.mem_singleton.mp hmem).symm
      have happ := ih hkept hns hstill
      rw [List.append_assoc, List.singleton_append] at happ
      rw [happ, climb, if_neg heq]

theorem stripSlash_joined : stripSlash (joined '/' names ++ ['/']) = render '/' names := by
  unfold stripSlash render
  cases names with
  | nil => rfl
  | cons n ns =>
    have hlong : 1 < (joined '/' (n :: ns) ++ ['/']).length := by
      rw [joined, List.length_append, List.length_cons, List.length_append, List.length_singleton]
      omega
    rw [if_pos ⟨hlong, List.getLast?_concat⟩, List.dropLast_concat, if_neg (List.cons_ne_nil _ _)]

end Loops

/-- The names that are neither empty nor dots. -/
def namesKept (cwd path : Option (List Char)) : List (List Char) :=
  (pathNames cwd path).filter fun name => name ≠ [] ∧ name ≠ ['.']

section Text

variable {cwd path : Option (List Char)}

theorem pathNames_no_slash : ∀ n ∈ pathNames cwd path, '/' ∉ n :=
  List.forall_mem_append.mpr ⟨sep_not_mem_splitOn _, sep_not_mem_splitOn _⟩

theorem lexicalPath_eq : lexicalPath cwd path = render '/' ((namesKept cwd path).foldl (down ['.', '.']) []) := rfl

theorem canonicalText_eq : canonicalText cwd path = render '/' ((namesKept cwd path).foldl climb []) := by
  have hstart : '/' :: (pathArgs cwd path).1 ++ '/' :: (pathArgs cwd path).2 ++ ['/'] =
      joined '/' (pathNames cwd path) ++ ['/'] := by
    unfold pathNames
    rw [joined_append, joined_splitOn, joined_splitOn]
  have hdots := replaceLoop_filter ['.'] (l := []) (r := pathNames cwd path) (by decide) (by simp)
    pathNames_no_slash (by simp)
  have hslashes := replaceLoop_filter [] (l := []) (r := (pathNames cwd path).filter (· ≠ ['.']))
    (by decide) (by simp) (fun n hn => pathNames_no_slash n (List.mem_of_mem_filter hn)) (by simp)
  have hkept : ((pathNames cwd path).filter (· ≠ ['.'])).filter (· ≠ []) = namesKept cwd path := by
    rw [List.filter_filter]
    refine List.filter_congr fun n _ => ?_
    simp
  have hups := handleDotdot_climb (l := []) (r := namesKept cwd path) (by simp)
    (fun n hn => pathNames_no_slash n (List.mem_of_mem_filter hn)) (by simp)
  rw [List.nil_append, List.nil_append] at hdots hslashes
  rw [List.nil_append] at hups
  unfold canonicalText replaceSlashes replaceDot
  dsimp only
  rw [hstart, hdots, hslashes, hkept, hups, stripSlash_joined]

end Text

section Compare

variable {names l r : List (List Char)}

theorem foldl_climb (h : ['.', '.'] ∉ r) : r.foldl climb l = l ++ r := by
  induction r generalizing l with
  | nil => rw [List.append_nil]; rfl
  | cons name names ih =>
    have hne : name ≠ ['.', '.'] := fun heq => h (heq ▸ List.mem_cons_self)
    rw [List.foldl_cons, climb, if_neg hne, ih fun hmem => h (List.mem_cons_of_mem name hmem), List.append_assoc,
      List.singleton_append]

theorem foldl_dropWhile {f : List (List Char) → List Char → List (List Char)} (hroot : f [] ['.', '.'] = []) :
    names.foldl f [] = (names.dropWhile (· = ['.', '.'])).foldl f [] := by
  induction names with
  | nil => rfl
  | cons name names ih =>
    by_cases heq : name = ['.', '.']
    · rw [List.dropWhile_cons_of_pos (by simpa using heq), List.foldl_cons, heq, hroot, ih]
    · rw [List.dropWhile_cons_of_neg (by simpa using heq)]

theorem filter_dropWhile : (names.dropWhile (· = ['.', '.'])).filter (· ≠ ['.', '.']) = names.filter (· ≠ ['.', '.']) := by
  induction names with
  | nil => rfl
  | cons name names ih =>
    by_cases heq : name = ['.', '.']
    · rw [List.dropWhile_cons_of_pos (by simpa using heq), List.filter_cons_of_neg (by simpa using heq), ih]
    · rw [List.dropWhile_cons_of_neg (by simpa using heq)]

theorem foldl_climb_length : (r.foldl climb l).length = l.length + (r.filter (· ≠ ['.', '.'])).length := by
  induction r generalizing l with
  | nil => rfl
  | cons name names ih =>
    rw [List.foldl_cons, ih]
    unfold climb
    by_cases heq : name = ['.', '.']
    · rw [if_pos heq, List.filter_cons_of_neg (by simpa using heq)]
      cases l with
      | nil => rfl
      | cons n ns => simp
    · rw [if_neg heq, List.filter_cons_of_pos (by simpa using heq), List.length_append, List.length_cons,
        List.length_cons, List.length_nil]
      omega

theorem climb_nil_mem {name : List Char} (h : [] ∈ l) : [] ∈ climb l name := by
  unfold climb
  split
  · rw [if_neg (List.ne_nil_of_mem h)]
    exact List.mem_append_right _ List.mem_cons_self
  · exact List.mem_append_left _ h

theorem foldl_climb_nil_mem (h : [] ∈ l ∨ l ≠ [] ∧ ['.', '.'] ∈ r) : [] ∈ r.foldl climb l := by
  induction r generalizing l with
  | nil =>
    obtain hmem | ⟨_, hmem⟩ := h
    · exact hmem
    · cases hmem
  | cons name names ih =>
    refine ih ?_
    obtain hmem | ⟨hne, hmem⟩ := h
    · exact .inl (climb_nil_mem hmem)
    · unfold climb
      by_cases heq : name = ['.', '.']
      · rw [if_pos heq, if_neg hne]
        exact .inl (List.mem_append_right _ List.mem_cons_self)
      · rw [if_neg heq]
        refine .inr ⟨by simp, ?_⟩
        exact (List.mem_cons.mp hmem).resolve_left fun h => heq h.symm

theorem foldl_down_sublist {s : List (List Char)} (hr : ∀ n ∈ r, n ≠ []) (h : s.Sublist (l.filter (· ≠ []))) :
    (r.foldl (down ['.', '.']) s).Sublist ((r.foldl climb l).filter (· ≠ [])) := by
  induction r generalizing l s with
  | nil => exact h
  | cons name names ih =>
    obtain ⟨hname, hnames⟩ := List.forall_mem_cons.mp hr
    refine ih hnames ?_
    unfold down climb
    by_cases heq : name = ['.', '.']
    · rw [if_pos heq, if_pos heq]
      obtain rfl | ⟨l, last, rfl⟩ := List.eq_nil_or_concat' l
      · rw [List.sublist_nil.mp h]
        exact List.Sublist.refl _
      · rw [if_neg (by simp), List.dropLast_concat, List.filter_append, List.filter_cons_of_neg (by simp),
          List.filter_nil, List.append_nil]
        have hdrop : s.dropLast.Sublist ((l ++ [last]).filter (· ≠ [])).dropLast := by
          have htail := (List.reverse_sublist.mpr h).tail
          rwa [List.tail_reverse, List.tail_reverse, List.reverse_sublist] at htail
        by_cases hlast : last = []
        · rw [List.filter_append, List.filter_cons_of_neg (by simpa using hlast), List.filter_nil,
            List.append_nil] at h
          exact (List.dropLast_sublist s).trans h
        · rwa [List.filter_append, List.filter_cons_of_pos (by simpa using hlast), List.filter_nil,
            List.dropLast_concat] at hdrop
    · rw [if_neg heq, if_neg heq, List.filter_append, List.filter_cons_of_pos (by simpa using hname),
        List.filter_nil]
      exact List.Sublist.append_right h [name]

theorem foldl_climb_up (hup : ['.', '.'] ∈ names.dropWhile (· = ['.', '.'])) :
    [] ∈ names.foldl climb [] ∧ 1 ≤ (names.filter (· ≠ ['.', '.'])).length := by
  have hhead := List.head?_dropWhile_not (fun name => decide (name = ['.', '.'])) names
  rw [foldl_dropWhile (f := climb) rfl, ← filter_dropWhile]
  cases hcs : names.dropWhile (· = ['.', '.']) with
  | nil =>
    rw [hcs] at hup
    cases hup
  | cons c cs =>
    rw [hcs] at hup hhead
    have hc : c ≠ ['.', '.'] := by simpa using hhead
    constructor
    · rw [List.foldl_cons, climb, if_neg hc, List.nil_append]
      exact foldl_climb_nil_mem (.inr ⟨List.cons_ne_nil _ _, (List.mem_cons.mp hup).resolve_left hc.symm⟩)
    · rw [List.filter_cons_of_pos (by simpa using hc), List.length_cons]
      omega

/-- The loop gives the normal form where each step up has an empty name or the root before it. -/
theorem render_climb (hnames : ∀ n ∈ names, n ≠ []) (h : UpsFirst names) :
    render '/' (names.foldl climb []) = render '/' (names.foldl (down ['.', '.']) []) := by
  by_cases hup : ['.', '.'] ∈ names.dropWhile (· = ['.', '.'])
  · have hone := h.resolve_left (not_not.mpr hup)
    obtain ⟨hmem, _⟩ := foldl_climb_up hup
    have hlength := foldl_climb_length (r := names) (l := [])
    rw [hone, List.length_nil] at hlength
    have hsub := foldl_down_sublist (l := []) (s := []) hnames (List.Sublist.refl _)
    obtain ⟨name, hname⟩ := List.length_eq_one_iff.mp hlength
    rw [hname] at hmem hsub
    rw [hname, ← List.mem_singleton.mp hmem]
    rw [← List.mem_singleton.mp hmem, List.filter_cons_of_neg (by simp), List.filter_nil] at hsub
    rw [List.sublist_nil.mp hsub]
    rfl
  · rw [foldl_dropWhile (f := climb) rfl, foldl_dropWhile (f := down ['.', '.']) rfl, foldl_climb hup,
      foldl_down hup]

/-- Otherwise what the loop gives is longer. -/
theorem render_climb_longer (hnames : ∀ n ∈ names, n ≠ []) (h : ¬UpsFirst names) :
    (render '/' (names.foldl (down ['.', '.']) [])).length < (render '/' (names.foldl climb [])).length := by
  obtain ⟨hup, hone⟩ := not_or.mp h
  obtain ⟨hmem, hpos⟩ := foldl_climb_up (not_not.mp hup)
  have hlength := foldl_climb_length (r := names) (l := [])
  have hless := joined_length_filter '/' hmem
  have hsub := joined_length_sublist '/'
    (foldl_down_sublist (l := []) (s := []) hnames (List.Sublist.refl _))
  have hlong := length_le_joined '/' (names.foldl climb [])
  have hclimb : render '/' (names.foldl climb []) = joined '/' (names.foldl climb []) :=
    if_neg (List.ne_nil_of_mem hmem)
  rw [List.length_nil] at hlength
  rw [hclimb]
  unfold render
  split
  · rw [List.length_singleton]
    omega
  · omega

end Compare

theorem set_last {xs : List Char} {x y : Char} {i : Nat} (h : i = xs.length) : (xs ++ [x]).set i y = xs ++ [y] := by
  rw [h, List.set_append_right _ _ (Nat.le_refl _), Nat.sub_self]
  rfl

theorem copyOut_text {buf tmpBuf : List Char} (h : buf ≠ []) :
    tmpBuf.take (buf.length - 1) ++ [Char.ofNat 0] <+: copyOut buf tmpBuf ∧
      (copyOut buf tmpBuf).length = buf.length := by
  have hpos : 0 < buf.length := List.length_pos_iff.mpr h
  unfold copyOut
  dsimp only
  split
  · rename_i hshort
    obtain ⟨n, hn⟩ := Nat.exists_eq_add_of_lt hpos
    rw [Nat.zero_add] at hn
    have htake : tmpBuf.take (n + 1) = tmpBuf.take n ++ [tmpBuf[n]] := List.take_succ_eq_append_getElem (by omega)
    have hlength : (tmpBuf.take n).length = n := List.length_take_of_le (by omega)
    rw [List.drop_length, List.append_nil, List.take_append_of_le_length (by omega), hn, Nat.add_sub_cancel,
      htake, set_last hlength.symm]
    refine ⟨List.prefix_refl _, ?_⟩
    rw [List.length_append, hlength, List.length_singleton]
  · rename_i hlong
    rw [List.take_of_length_le (by omega),
      List.take_of_length_le (by rw [List.length_append, List.length_singleton])]
    constructor
    · obtain hlast | hmore := Nat.eq_or_lt_of_le (Nat.le_sub_one_of_lt (Nat.lt_of_succ_le (Nat.not_lt.mp hlong)))
      · rw [List.set_append_left _ _ (by rw [List.length_append, List.length_singleton]; omega),
          set_last hlast.symm]
        exact List.prefix_append _ _
      · rw [List.set_append_right _ _ (by rw [List.length_append, List.length_singleton]; omega)]
        exact List.prefix_append _ _
    · rw [List.length_set, List.length_append, List.length_append, List.length_singleton, List.length_drop]
      omega

theorem getCanonicalPath_eq {cwd path : Option (List Char)} {buf : List Char} :
    getCanonicalPath true cwd path buf =
      ((canonicalText cwd path).length, if buf = [] then buf else copyOut buf (canonicalText cwd path)) := by
  unfold getCanonicalPath
  dsimp only
  rw [if_neg (by decide)]
  split <;> rfl

section Claims

variable {cwd path : Option (List Char)}

theorem namesKept_ne_nil : ∀ n ∈ namesKept cwd path, n ≠ [] := fun _ hn =>
  (of_decide_eq_true (List.mem_filter.mp hn).2).1

theorem lexicalPath_canonical : IsCanonical '/' ['.'] ['.', '.'] (lexicalPath cwd path) :=
  normalNames_canonical pathNames_no_slash

theorem lexicalPath_unchanged {text : List Char} (h : IsCanonical '/' ['.'] ['.', '.'] text) :
    lexicalPath cwd (some text) = text := by
  have hslash : text.head? = some '/' := by
    obtain ⟨names, rfl, _⟩ := h
    unfold render
    cases names with
    | nil => rfl
    | cons name names => rfl
  unfold lexicalPath pathNames pathArgs
  dsimp only [Option.getD_some]
  rw [if_pos hslash, List.splitOn_nil, List.singleton_append, normalNames_nil_cons]
  exact h.normal

/-- `GetCanonicalPath` gives the normal form if and only if no `..` comes after an ordinary name, or there
is only one ordinary name. -/
theorem getCanonicalPath_canonical (cwd path : Option (List Char)) (buf : List Char) :
    Canonicalised cwd path buf (getCanonicalPath true cwd path buf) ↔ UpsFirst (namesKept cwd path) := by
  rw [getCanonicalPath_eq]
  constructor
  · intro h
    refine Decidable.byContradiction fun hups => ?_
    have hlonger := render_climb_longer namesKept_ne_nil hups
    rw [← canonicalText_eq, ← lexicalPath_eq] at hlonger
    exact hlonger.ne h.length.symm
  · intro hups
    have htext : canonicalText cwd path = lexicalPath cwd path := by
      rw [canonicalText_eq, lexicalPath_eq, render_climb namesKept_ne_nil hups]
    rw [htext]
    constructor
    · exact lexicalPath_canonical
    · rintro text rfl hcanonical
      exact lexicalPath_unchanged hcanonical
    · rfl
    · intro hbuf
      dsimp only
      rw [if_neg hbuf]
      exact (copyOut_text hbuf).1
    · dsimp only
      split
      · rfl
      · rename_i hbuf
        exact (copyOut_text hbuf).2

/-- `/a/../x` becomes `//x`. -/
theorem getCanonicalPath_two_slashes :
    ¬Canonicalised none (some "/a/../x".toList) (List.replicate 8 'z')
      (getCanonicalPath true none (some "/a/../x".toList) (List.replicate 8 'z')) := by
  intro h
  have hlength := h.length
  rw [getCanonicalPath_eq, canonicalText_eq, lexicalPath_eq] at hlength
  exact absurd hlength (by decide)

end Claims

end LiteosM.Fat
