import LiteosM.Lib.Gregorian
import LiteosM.Lib.TruncDiv
import LiteosM.Lib.While
import Mathlib.Tactic.IntervalCases

/-!
# Seconds to broken-down time

`ConvertSecs2Utc` of `time.c`. No value in it is further from zero than `t`, so that only the
conversion to `int` can lose something.
-/

namespace LiteosM.Posix

open Lib.While Lib.Gregorian Lib.TruncDiv

/-- `struct tm` -/
structure Tm where
  tmSec : Int
  tmMin : Int
  tmHour : Int
  tmMday : Int
  tmMon : Int
  tmYear : Int
  tmWday : Int
  tmYday : Int
  tmIsdst : Int
  tmGmtoff : Int
deriving DecidableEq

/-- The conversion to `int`. -/
def i32 (x : Int) : Int := (x + 2147483648) % 4294967296 - 2147483648

def isLeapYear (year : Int) : Bool :=
  year.tmod 4 = 0 && (year.tmod 100 ≠ 0 || year.tmod 400 = 0)

def div (a b : Int) : Int := a.tdiv b - (if a.tmod b < 0 then 1 else 0)

def leapsThruEndOf (y : Int) : Int := div y 4 - div y 100 + div y 400

def gDaysInMonth (leap : Bool) : List Int :=
  if leap then [0, 31, 60, 91, 121, 152, 182, 213, 244, 274, 305, 335, 366]
  else [0, 31, 59, 90, 120, 151, 181, 212, 243, 273, 304, 334, 365]

/-- The states of the loops are `(rem, days)` and `(year, days)`. -/
def remNegative (s : Int × Int) : Bool := s.1 < 0
def remAddDay (s : Int × Int) : Int × Int := (s.1 + 86400, s.2 - 1)
def remOverDay (s : Int × Int) : Bool := 86400 ≤ s.1
def remSubDay (s : Int × Int) : Int × Int := (s.1 - 86400, s.2 + 1)

def outOfYear (s : Int × Int) : Bool := s.2 < 0 || (if isLeapYear s.1 then 366 else 365) ≤ s.2

/-- Guess a corrected year, and adjust days and year to match it. -/
def guessYear (s : Int × Int) : Int × Int :=
  let yearGuess := s.1 + s.2.tdiv 365 - (if s.2.tmod 365 < 0 then 1 else 0)
  (yearGuess, s.2 - ((yearGuess - s.1) * 365 + leapsThruEndOf (yearGuess - 1) -
    leapsThruEndOf (s.1 - 1)))

def beforeMonth (daysInMonth : List Int) (days month : Int) : Bool :=
  days < daysInMonth.getD month.toNat 0

/-- What is stored at `tp`, and the result. Every loop makes at most `fuel` rounds. -/
def convertSecs2Utc (fuel : Nat) (t offset : Int) (tp : Tm) : Option (Tm × Int) := do
  let (rem, days) ← whileLoop remNegative remAddDay fuel (t.tmod 86400 + offset, t.tdiv 86400)
  let (rem, days) ← whileLoop remOverDay remSubDay fuel (rem, days)
  let tp := { tp with tmHour := rem.tdiv 3600 }
  let rem := rem.tmod 3600
  let tp := { tp with tmMin := rem.tdiv 60, tmSec := rem.tmod 60 }
  let tmWday := (4 + days).tmod 7
  let tp := { tp with tmWday := if tmWday < 0 then tmWday + 7 else tmWday }
  let (year, days) ← whileLoop outOfYear guessYear fuel (1970, days)
  let tp := { tp with tmYear := i32 (year - 1900) }
  if tp.tmYear ≠ year - 1900 then some (tp, 0)
  else
    let tp := { tp with tmYday := days }
    let daysInMonth := gDaysInMonth (isLeapYear year)
    let month ← whileLoop (beforeMonth daysInMonth days) (· - 1) fuel 11
    let days := days - daysInMonth.getD month.toNat 0
    some ({ tp with tmMon := month, tmMday := days + 1, tmGmtoff := -offset, tmIsdst := 0 }, 1)

/-- The fields of the instant `t` in a zone `offset` seconds east of UTC, where its date is given. -/
def civilTm (t offset year : Int) (month mday : Nat) : Tm where
  tmSec := (t + offset) % 60
  tmMin := (t + offset) % 3600 / 60
  tmHour := (t + offset) % 86400 / 3600
  tmMday := mday
  tmMon := month
  tmYear := year - 1900
  tmWday := weekday ((t + offset) / 86400)
  tmYday := (t + offset) / 86400 - yearStart year
  tmIsdst := 0
  tmGmtoff := -offset

theorem isLeapYear_eq (year : Int) : isLeapYear year = isLeap year := by
  unfold isLeapYear isLeap
  simp only [ne_eq, tmod_eq_zero_iff]

theorem leapsThruEndOf_eq (y : Int) : leapsThruEndOf y = leapsThrough y := by
  unfold leapsThruEndOf leapsThrough div
  rw [tdiv_sub_eq y (by decide), tdiv_sub_eq y (by decide), tdiv_sub_eq y (by decide)]

theorem gDaysInMonth_eq (leap : Bool) {month : Nat} (h : month ≤ 12) :
    (gDaysInMonth leap).getD month 0 = monthStart leap month := by
  revert leap
  interval_cases month <;> decide

theorem convertSecs2Utc_day (rem days : Int) :
    ∃ s bound, (∀ fuel ≥ bound, whileLoop remNegative remAddDay fuel (rem, days) = some s) ∧
      ∀ fuel ≥ bound, whileLoop remOverDay remSubDay fuel s =
        some ((days * 86400 + rem) % 86400, (days * 86400 + rem) / 86400) := by
  obtain ⟨s, hs, hsI, hsc⟩ := whileLoop_total remNegative remAddDay
    (fun s => s.2 * 86400 + s.1 = days * 86400 + rem) (fun s => (-s.1).toNat)
    (fun s hI hc => by
      have hc : s.1 < 0 := of_decide_eq_true hc
      exact ⟨by dsimp only [remAddDay]; omega, fun _ => by dsimp only [remAddDay]; omega⟩)
    (s := (rem, days)) rfl
  have hsc : ¬s.1 < 0 := of_decide_eq_false hsc
  obtain ⟨s', hs', hsI', hsc'⟩ := whileLoop_total remOverDay remSubDay
    (fun s => s.2 * 86400 + s.1 = days * 86400 + rem ∧ 0 ≤ s.1) (fun s => s.1.toNat)
    (fun s hI hc => by
      have hc : 86400 ≤ s.1 := of_decide_eq_true hc
      exact ⟨by dsimp only [remSubDay]; omega, fun _ => by dsimp only [remSubDay]; omega⟩)
    (s := s) ⟨hsI, by omega⟩
  have hsc' : ¬86400 ≤ s'.1 := of_decide_eq_false hsc'
  have heq : s' = ((days * 86400 + rem) % 86400, (days * 86400 + rem) / 86400) :=
    Prod.ext (by dsimp only; omega) (by dsimp only; omega)
  rw [heq] at hs'
  exact ⟨s, max ((-rem).toNat + 1) (s.1.toNat + 1), fun fuel h => hs fuel (by dsimp only; omega),
    fun fuel h => hs' fuel (by omega)⟩

theorem outOfYear_iff (s : Int × Int) : outOfYear s = true ↔ s.2 < 0 ∨ daysInYear s.1 ≤ s.2 := by
  unfold outOfYear daysInYear
  rw [isLeapYear_eq, Bool.or_eq_true, decide_eq_true_eq, decide_eq_true_eq]

theorem guessYear_eq (s : Int × Int) :
    guessYear s = (s.1 + s.2 / 365, s.2 - (yearStart (s.1 + s.2 / 365) - yearStart s.1)) := by
  have hk := tdiv_sub_eq s.2 (show (0 : Int) < 365 by decide)
  unfold guessYear
  rw [Int.add_sub_assoc, hk]
  dsimp only
  rw [leapsThruEndOf_eq, leapsThruEndOf_eq, yearStart_eq, yearStart_eq]
  refine Prod.ext rfl ?_
  dsimp only
  omega

/-- A guess that is not the last one is closer: forward it goes too far by the leap years it did
not count, back by less than a year and these. -/
theorem guessYear_closer (s : Int × Int) (h : outOfYear s = true)
    (h' : outOfYear (guessYear s) = true) : (guessYear s).2.natAbs < s.2.natAbs := by
  obtain ⟨year, days⟩ := s
  rw [guessYear_eq] at h' ⊢
  rw [outOfYear_iff] at h h'
  dsimp only at h h' ⊢
  have hin := daysInYear_pos year
  have hin' := daysInYear_pos (year + days / 365)
  have hg := yearStart_eq (year + days / 365)
  have hy := yearStart_eq year
  rcases Int.lt_or_le days 0 with hneg | hpos
  · obtain ⟨j, hj⟩ : ∃ j : Nat, days / 365 = -j := ⟨(-(days / 365)).toNat, by omega⟩
    have hleaps := leapsThrough_le (year - j - 1) j
    rw [show year - j - 1 + (j : Int) = year - 1 by omega] at hleaps
    rw [hj, show year + -(j : Int) = year - j by omega] at hg hin' h' ⊢
    rcases Nat.lt_or_ge j 3 with hlt | hge
    · interval_cases j
      · omega
      · -- a day of the year before is reached with the first guess
        have hs := yearStart_succ (year - 1)
        rw [show year - 1 + 1 = year by omega] at hs
        simp only [Nat.cast_one] at *
        omega
      · have htwo := leapsThrough_two (year - 2 - 1)
        rw [show year - 2 - 1 + 2 = year - 1 by omega] at htwo
        simp only [Nat.cast_ofNat] at *
        omega
    · omega
  · obtain ⟨k, hk⟩ : ∃ k : Nat, days / 365 = k := ⟨(days / 365).toNat, by omega⟩
    have hleaps := leapsThrough_le (year - 1) k
    rw [show year - 1 + (k : Int) = year + k - 1 by omega] at hleaps
    rw [hk] at hg hin' h' ⊢
    omega

theorem convertSecs2Utc_year (n : Int) :
    ∃ year days bound, (∀ fuel ≥ bound, whileLoop outOfYear guessYear fuel (1970, n) =
      some (year, days)) ∧ yearStart year + days = n ∧ 0 ≤ days ∧ days < daysInYear year := by
  obtain ⟨s, hs, hsI, hsc⟩ := whileLoop_total outOfYear guessYear
    (fun s => yearStart s.1 + s.2 = n) (fun s => s.2.natAbs)
    (fun s hI hc => ⟨by rw [guessYear_eq]; dsimp only; omega, guessYear_closer s hc⟩)
    (s := (1970, n)) (by rw [yearStart_epoch, Int.zero_add])
  have hin : ¬(s.2 < 0 ∨ daysInYear s.1 ≤ s.2) := fun h => by
    rw [(outOfYear_iff s).mpr h] at hsc
    cases hsc
  exact ⟨s.1, s.2, n.natAbs + 1, fun fuel h => hs fuel h, hsI, by omega, by omega⟩

theorem convertSecs2Utc_month (leap : Bool) {days : Int} (h0 : 0 ≤ days)
    (h12 : days < monthStart leap 12) :
    ∃ month : Nat, month < 12 ∧
      (∀ fuel ≥ 12, whileLoop (beforeMonth (gDaysInMonth leap) days) (· - 1) fuel 11 =
        some (month : Int)) ∧
      (monthStart leap month : Int) ≤ days ∧ days < monthStart leap (month + 1) := by
  have htable : ∀ m : Int, 0 ≤ m → m ≤ 12 →
      (gDaysInMonth leap).getD m.toNat 0 = monthStart leap m.toNat := fun m hm hm' =>
    gDaysInMonth_eq leap (by omega)
  obtain ⟨m, hm, hmI, hmc⟩ := whileLoop_total
    (beforeMonth (gDaysInMonth leap) days) (· - 1)
    (fun m => 0 ≤ m ∧ m ≤ 11 ∧ days < monthStart leap (m.toNat + 1)) (fun m => m.toNat)
    (fun m hI hc => by
      obtain ⟨hm0, hm11, _⟩ := hI
      have hc : days < (gDaysInMonth leap).getD m.toNat 0 := of_decide_eq_true hc
      rw [htable m hm0 (by omega)] at hc
      have hpos : 0 < m := by
        rcases Int.lt_or_eq_of_le hm0 with hlt | heq
        · exact hlt
        · rw [← heq] at hc
          exact absurd hc (Int.not_lt.mpr h0)
      refine ⟨⟨by omega, by omega, ?_⟩, fun _ => by omega⟩
      rw [show (m - 1).toNat + 1 = m.toNat by omega]
      exact hc)
    (s := 11) ⟨by decide, by decide, h12⟩
  obtain ⟨hm0, hm11, hlt⟩ := hmI
  have hmc : ¬days < (gDaysInMonth leap).getD m.toNat 0 := of_decide_eq_false hmc
  rw [htable m hm0 (by omega)] at hmc
  refine ⟨m.toNat, by omega, fun fuel hf => ?_, Int.not_lt.mp hmc, hlt⟩
  rw [Int.toNat_of_nonneg hm0]
  exact hm fuel hf

theorem i32_eq_iff (x : Int) : i32 x = x ↔ -2147483648 ≤ x ∧ x < 2147483648 := by
  unfold i32
  omega

theorem convertSecs2Utc_spec (t offset : Int) (tp : Tm) :
    ∃ year month mday bound, IsDate ((t + offset) / 86400) year month mday ∧
      ∀ fuel ≥ bound, ∃ tm ret, convertSecs2Utc fuel t offset tp = some (tm, ret) ∧
        ((-2147483648 ≤ year - 1900 ∧ year - 1900 < 2147483648) ∧ ret = 1 ∧
            tm = civilTm t offset year month mday ∨
          ¬(-2147483648 ≤ year - 1900 ∧ year - 1900 < 2147483648) ∧ ret = 0) := by
  obtain ⟨⟨rem, day⟩, bound1, hloop1, hloop2⟩ :=
    convertSecs2Utc_day (t.tmod 86400 + offset) (t.tdiv 86400)
  have ht := Int.mul_tdiv_add_tmod t 86400
  rw [show t.tdiv 86400 * 86400 + (t.tmod 86400 + offset) = t + offset by omega] at hloop2
  obtain ⟨year, days, bound2, hloop3, hday, h0, hlast⟩ :=
    convertSecs2Utc_year ((t + offset) / 86400)
  have htwelve := monthStart_twelve year
  obtain ⟨month, hmonth, hloop4, hfrom, hto⟩ :=
    convertSecs2Utc_month (isLeap year) h0 (by omega)
  have hstart : (gDaysInMonth (isLeap year)).getD (month : Int).toNat 0 =
      monthStart (isLeap year) month := by
    rw [Int.toNat_natCast]
    exact gDaysInMonth_eq _ (by omega)
  have hsucc := monthStart_succ (isLeap year) month
  have hwday : (if (4 + (t + offset) / 86400).tmod 7 < 0 then (4 + (t + offset) / 86400).tmod 7 + 7
      else (4 + (t + offset) / 86400).tmod 7) = weekday ((t + offset) / 86400) := by
    have hmod := Int.tmod_eq_emod (a := 4 + (t + offset) / 86400) (b := 7)
    unfold weekday
    split_ifs at hmod ⊢ <;> omega
  have hhour := tdiv_of_nonneg (show 0 ≤ (t + offset) % 86400 by omega) 3600
  have hrem : ((t + offset) % 86400).tmod 3600 = (t + offset) % 3600 := by
    rw [tmod_of_nonneg (by omega)]
    omega
  have hmin := tdiv_of_nonneg (show 0 ≤ (t + offset) % 3600 by omega) 60
  have hsec : ((t + offset) % 3600).tmod 60 = (t + offset) % 60 := by
    rw [tmod_of_nonneg (by omega)]
    omega
  refine ⟨year, month, (days - monthStart (isLeap year) month + 1).toNat, max (max bound1 bound2) 12,
    ⟨hmonth, by omega, by omega, by omega⟩, fun fuel hf => ?_⟩
  unfold convertSecs2Utc
  rw [hloop1 fuel (by omega)]
  simp only [Option.bind_eq_bind, Option.bind_some]
  rw [hloop2 fuel (by omega)]
  simp only [Option.bind_some]
  rw [hloop3 fuel (by omega)]
  simp only [Option.bind_some]
  by_cases hfits : -2147483648 ≤ year - 1900 ∧ year - 1900 < 2147483648
  · rw [if_neg (not_not_intro ((i32_eq_iff _).mpr hfits)), isLeapYear_eq, hloop4 fuel (by omega)]
    refine ⟨_, _, rfl, .inl ⟨hfits, rfl, ?_⟩⟩
    rw [hstart, hwday, (i32_eq_iff _).mpr hfits, hhour, hrem, hmin, hsec]
    unfold civilTm
    congr 1 <;> omega
  · rw [if_pos (fun h => hfits ((i32_eq_iff _).mp h))]
    exact ⟨_, _, rfl, .inr ⟨hfits, rfl⟩⟩

/-- The conversion ends for every time and zone. It is 0 exactly when the year does not fit, and
else gives the fields of the one Gregorian date of the day. -/
theorem convertSecs2Utc_gregorian (t offset : Int) (tp : Tm) :
    ∃ year month mday bound, IsDate ((t + offset) / 86400) year month mday ∧
      ∀ fuel ≥ bound, ∃ tm ret, convertSecs2Utc fuel t offset tp = some (tm, ret) ∧
        (ret = 0 ↔ ¬(-2147483648 ≤ year - 1900 ∧ year - 1900 < 2147483648)) ∧
        (ret ≠ 0 → tm = civilTm t offset year month mday) := by
  obtain ⟨year, month, mday, bound, hdate, hrun⟩ := convertSecs2Utc_spec t offset tp
  refine ⟨year, month, mday, bound, hdate, fun fuel hf => ?_⟩
  obtain ⟨tm, ret, hret, hcase⟩ := hrun fuel hf
  refine ⟨tm, ret, hret, ?_⟩
  rcases hcase with ⟨hfits, rfl, heq⟩ | ⟨hfits, rfl⟩
  · exact ⟨⟨fun h => absurd h (by decide), fun h => absurd hfits h⟩, fun _ => heq⟩
  · exact ⟨⟨fun _ => hfits, fun _ => rfl⟩, fun h => absurd rfl h⟩

/-- The second before the epoch, eight hours east. -/
example : (convertSecs2Utc 12 (-1) 28800 ⟨0, 0, 0, 0, 0, 0, 0, 0, 0, 0⟩).map (·.1) =
    some ⟨59, 59, 7, 1, 0, 70, 4, 0, 0, -28800⟩ := by decide

end LiteosM.Posix
