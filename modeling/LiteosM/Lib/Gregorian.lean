import Mathlib.Algebra.BigOperators.Group.List.Basic
import Mathlib.Algebra.GroupWithZero.Nat
import Mathlib.Algebra.Ring.Int.Defs
import Mathlib.Data.Int.Init

/-!
# The proleptic Gregorian calendar

Years are astronomical: the year before 1 is 0. Days are counted from 1970-01-01 on,
months from 0 and the days of a month from 1.
-/

namespace LiteosM.Lib.Gregorian

def isLeap (year : Int) : Bool := year % 4 = 0 && (year % 100 ≠ 0 || year % 400 = 0)

def daysInYear (year : Int) : Int := if isLeap year then 366 else 365

/-- The first day of a year: the years in between follow each other. -/
def yearStart (year : Int) : Int :=
  if 1970 ≤ year then ((List.range (year - 1970).toNat).map fun i : Nat => daysInYear (1970 + i)).sum
  else -((List.range (1970 - year).toNat).map fun i : Nat => daysInYear (1969 - i)).sum

def daysInMonth (leap : Bool) (month : Nat) : Nat :=
  match month with
  | 1 => if leap then 29 else 28
  | 3 | 5 | 8 | 10 => 30
  | _ => 31

def monthStart (leap : Bool) (month : Nat) : Nat := ((List.range month).map (daysInMonth leap)).sum

/-- From Sunday on; the first day was a Thursday. -/
def weekday (n : Int) : Int := (4 + n) % 7

/-- Day number `n` is the day `mday` of a month of a year. -/
structure IsDate (n year : Int) (month mday : Nat) : Prop where
  inYear : month < 12
  first : 1 ≤ mday
  last : mday ≤ daysInMonth (isLeap year) month
  day : n = yearStart year + (monthStart (isLeap year) month + mday - 1 : Nat)

/-- The leap years from year 1 to the end of a year, and less those after it before year 1. -/
def leapsThrough (year : Int) : Int := year / 4 - year / 100 + year / 400

theorem yearStart_epoch : yearStart 1970 = 0 := rfl

theorem yearStart_succ (year : Int) : yearStart (year + 1) = yearStart year + daysInYear year := by
  unfold yearStart
  by_cases h : 1970 ≤ year
  · have hn : (year + 1 - 1970).toNat = (year - 1970).toNat + 1 := by omega
    have hy : (1970 : Int) + ((year - 1970).toNat : Int) = year := by omega
    rw [if_pos h, if_pos (by omega), hn, List.range_succ, List.map_append, List.sum_append,
      List.map_singleton, List.sum_singleton, hy]
  · rw [if_neg h]
    have hn : (1970 - year).toNat = (1970 - (year + 1)).toNat + 1 := by omega
    have hy : (1969 : Int) - ((1970 - (year + 1)).toNat : Int) = year := by omega
    rw [hn, List.range_succ, List.map_append, List.sum_append, List.map_singleton,
      List.sum_singleton, hy]
    by_cases h' : 1970 ≤ year + 1
    · obtain rfl : year = 1969 := by omega
      rfl
    · rw [if_neg h']
      omega

theorem leapsThrough_succ (year : Int) :
    leapsThrough (year + 1) = leapsThrough year + (if isLeap (year + 1) then 1 else 0) := by
  unfold leapsThrough isLeap
  split
  · next h =>
    simp only [Bool.and_eq_true, decide_eq_true_eq, Bool.or_eq_true] at h
    omega
  · next h =>
    simp only [Bool.and_eq_true, decide_eq_true_eq, Bool.or_eq_true] at h
    omega

theorem yearStart_eq (year : Int) :
    yearStart year = 365 * (year - 1970) + leapsThrough (year - 1) - leapsThrough 1969 := by
  have hstep : ∀ y : Int, yearStart (y + 1) - (365 * (y + 1 - 1970) + leapsThrough (y + 1 - 1)) =
      yearStart y - (365 * (y - 1970) + leapsThrough (y - 1)) := by
    intro y
    have hl := leapsThrough_succ (y - 1)
    rw [yearStart_succ, daysInYear, show y + 1 - 1 = y - 1 + 1 by omega, hl,
      show y - 1 + 1 = y by omega]
    split <;> omega
  have hconst : ∀ y : Int, yearStart y - (365 * (y - 1970) + leapsThrough (y - 1)) =
      -leapsThrough 1969 := by
    intro y
    induction y using Int.inductionOn' (b := 1970) with
    | zero => rfl
    | succ k _ ih => rw [hstep, ih]
    | pred k _ ih =>
      have h := hstep (k - 1)
      rw [show k - 1 + 1 = k by omega] at h
      rw [← h, ih]
  have h := hconst year
  omega

theorem leapsThrough_le (year : Int) (k : Nat) :
    leapsThrough year ≤ leapsThrough (year + k) ∧ leapsThrough (year + k) ≤ leapsThrough year + k := by
  induction k with
  | zero => simp
  | succ k ih =>
    have hs := leapsThrough_succ (year + k)
    rw [Int.natCast_add, Int.natCast_one, ← Int.add_assoc, hs]
    split <;> omega

theorem leapsThrough_two (year : Int) : leapsThrough (year + 2) ≤ leapsThrough year + 1 := by
  have h1 := leapsThrough_succ year
  have h2 := leapsThrough_succ (year + 1)
  rw [show year + 1 + 1 = year + 2 by omega] at h2
  rw [h2, h1]
  unfold isLeap
  simp only [Bool.and_eq_true, decide_eq_true_eq, Bool.or_eq_true]
  split_ifs <;> omega

theorem daysInYear_pos (year : Int) : 365 ≤ daysInYear year := by
  unfold daysInYear
  split <;> omega

theorem yearStart_mono {year year' : Int} (h : year ≤ year') : yearStart year ≤ yearStart year' := by
  obtain ⟨k, rfl⟩ : ∃ k : Nat, year' = year + k := ⟨(year' - year).toNat, by omega⟩
  induction k with
  | zero => simp
  | succ k ih =>
    have hs := yearStart_succ (year + k)
    have hpos := daysInYear_pos (year + k)
    have hle := ih (by omega)
    rw [Int.natCast_add, Int.natCast_one, ← Int.add_assoc, hs]
    omega

theorem monthStart_succ (leap : Bool) (month : Nat) :
    monthStart leap (month + 1) = monthStart leap month + daysInMonth leap month := by
  unfold monthStart
  rw [List.range_succ, List.map_append, List.sum_append]
  simp

theorem monthStart_mono (leap : Bool) {month month' : Nat} (h : month ≤ month') :
    monthStart leap month ≤ monthStart leap month' := by
  induction h with
  | refl => exact Nat.le_refl _
  | step _ ih =>
    rw [monthStart_succ]
    exact Nat.le_trans ih (Nat.le_add_right _ _)

theorem monthStart_twelve (year : Int) : (monthStart (isLeap year) 12 : Int) = daysInYear year := by
  unfold daysInYear
  cases isLeap year <;> rfl

theorem IsDate.inside {n year : Int} {month mday : Nat} (h : IsDate n year month mday) :
    yearStart year ≤ n ∧ n < yearStart (year + 1) := by
  have hm := monthStart_mono (isLeap year) (show month + 1 ≤ 12 from h.inYear)
  have hs := monthStart_succ (isLeap year) month
  have ht := monthStart_twelve year
  have hy := yearStart_succ year
  have h1 := h.first
  have h2 := h.last
  have h3 := h.day
  omega

theorem isDate_unique {n year year' : Int} {month month' mday mday' : Nat}
    (h : IsDate n year month mday) (h' : IsDate n year' month' mday') :
    year = year' ∧ month = month' ∧ mday = mday' := by
  have hi := h.inside
  have hi' := h'.inside
  obtain rfl : year = year' := by
    rcases Int.lt_trichotomy year year' with hlt | heq | hgt
    · have hmono := yearStart_mono (show year + 1 ≤ year' by omega)
      omega
    · exact heq
    · have hmono := yearStart_mono (show year' + 1 ≤ year by omega)
      omega
  have h1 := h.first
  have h2 := h.last
  have h3 := h.day
  have h1' := h'.first
  have h2' := h'.last
  have h3' := h'.day
  have hs := monthStart_succ (isLeap year) month
  have hs' := monthStart_succ (isLeap year) month'
  obtain rfl : month = month' := by
    rcases Nat.lt_trichotomy month month' with hlt | heq | hgt
    · have hmono := monthStart_mono (isLeap year) (show month + 1 ≤ month' from hlt)
      omega
    · exact heq
    · have hmono := monthStart_mono (isLeap year) (show month' + 1 ≤ month from hgt)
      omega
  exact ⟨rfl, rfl, by omega⟩

end LiteosM.Lib.Gregorian
