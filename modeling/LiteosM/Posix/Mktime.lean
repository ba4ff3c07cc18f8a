import LiteosM.Posix.Calendar
import Mathlib.Tactic.Ring

/-!
# Broken-down time and back

`gmtime_r`, `localtime_r` and `mktime` of `time.c`.
-/

namespace LiteosM.Posix

open Lib.While Lib.Gregorian Lib.TruncDiv

inductive TimeErrno
  | efault
  | einval
  | eoverflow
deriving DecidableEq

/-- The value of an expression of type `int`, whose overflow is undefined. -/
def int32 (x : Int) : Option Int := if -2147483648 ≤ x ∧ x < 2147483648 then some x else none

/-- What is then in `*result`, and the error. -/
def gmtimeR (fuel : Nat) (timep : Option Int) (result : Option Tm) :
    Option (Option Tm × Option TimeErrno) :=
  match timep, result with
  | some t, some result => do
    let (tm, ret) ← convertSecs2Utc fuel t 0 result
    if ret = 0 then some (some tm, some .einval) else some (some tm, none)
  | _, result => some (result, some .efault)

def localtimeR (fuel : Nat) (timezone : Int) (timep : Option Int) (result : Option Tm) :
    Option (Option Tm × Option TimeErrno) :=
  match timep, result with
  | some t, some result => do
    let (tm, ret) ← convertSecs2Utc fuel t (-timezone) result
    if ret = 0 then some (some tm, some .einval) else some (some tm, none)
  | _, result => some (result, some .efault)

def gMontbl : List Int := [31, 28, 31, 30, 31, 30, 31, 31, 30, 31, 30, 31]

/-- The states of the loops are `(year, seconds)` and `(month, seconds)`. -/
def beforeYear (tmYear : Int) (s : Int × Int) : Bool := s.1 < tmYear
def addYear (s : Int × Int) : Int × Int :=
  (s.1 + 1, s.2 + 31536000 + (if isLeapYear (s.1 + 1900) then 86400 else 0))
def beforeTmMon (tmMon : Int) (s : Int × Int) : Bool := s.1 < tmMon
def addMonth (leap : Bool) (s : Int × Int) : Int × Int :=
  (s.1 + 1, if s.1 = 1 ∧ leap then s.2 + (gMontbl.getD s.1.toNat 0 + 1) * 86400
    else s.2 + gMontbl.getD s.1.toNat 0 * 86400)

def convertUtc2Secs (fuel : Nat) (tm : Tm) : Option Int := do
  let (_, seconds) ← whileLoop (beforeYear tm.tmYear) addYear fuel (70, 0)
  let leap := isLeapYear (← int32 (tm.tmYear + 1900))
  let (_, seconds) ← whileLoop (beforeTmMon tm.tmMon) (addMonth leap) fuel (0, seconds)
  let seconds := seconds + (tm.tmMday - 1) * 86400
  let seconds := seconds + (tm.tmHour * 3600 + tm.tmMin * 60 + tm.tmSec)
  some (seconds + tm.tmGmtoff)

/-- What `mktime` returns, what is then in `*tmptr`, and the error. -/
structure MktimeReturn where
  time : Int
  tm : Option Tm
  errno : Option TimeErrno
deriving DecidableEq

def mktime (fuel : Nat) (tmptr : Option Tm) : Option MktimeReturn :=
  match tmptr with
  | none => some ⟨-1, none, some .efault⟩
  | some tm =>
    if tm.tmYear < 70 ∨ tm.tmGmtoff > 720 * 60 ∨ tm.tmGmtoff < -840 * 60 ∨ tm.tmSec > 60 ∨ tm.tmSec < 0 ∨
        tm.tmMin > 59 ∨ tm.tmMin < 0 ∨ tm.tmHour > 23 ∨ tm.tmHour < 0 ∨ tm.tmMday > 31 ∨ tm.tmMday < 1 ∨
        tm.tmMon > 11 ∨ tm.tmMon < 0 then
      some ⟨-1, some tm, some .eoverflow⟩
    else do
      let timeInSeconds ← convertUtc2Secs fuel tm
      let (tm, _) ← convertSecs2Utc fuel timeInSeconds (-tm.tmGmtoff) tm
      some ⟨timeInSeconds, some tm, none⟩

/-- The fields pass the checks of `mktime`. -/
structure TmOk (tm : Tm) : Prop where
  year : 70 ≤ tm.tmYear
  gmtoff : -50400 ≤ tm.tmGmtoff ∧ tm.tmGmtoff ≤ 43200
  sec : 0 ≤ tm.tmSec ∧ tm.tmSec ≤ 60
  min : 0 ≤ tm.tmMin ∧ tm.tmMin ≤ 59
  hour : 0 ≤ tm.tmHour ∧ tm.tmHour ≤ 23
  mday : 1 ≤ tm.tmMday ∧ tm.tmMday ≤ 31
  mon : 0 ≤ tm.tmMon ∧ tm.tmMon ≤ 11

def civilSecs (tm : Tm) : Int :=
  (yearStart (tm.tmYear + 1900) + monthStart (isLeap (tm.tmYear + 1900)) tm.tmMon.toNat +
      (tm.tmMday - 1)) * 86400 + tm.tmHour * 3600 + tm.tmMin * 60 + tm.tmSec + tm.tmGmtoff

theorem gMontbl_eq (leap : Bool) {month : Nat} (h : month < 12) :
    (if (month : Int) = 1 ∧ leap = true then gMontbl.getD month 0 + 1 else gMontbl.getD month 0) =
      daysInMonth leap month := by
  revert leap
  interval_cases month <;> decide

theorem convertUtc2Secs_years {tmYear : Int} (h : 70 ≤ tmYear) :
    ∃ bound, ∀ fuel ≥ bound, whileLoop (beforeYear tmYear) addYear fuel (70, 0) =
      some (tmYear, yearStart (tmYear + 1900) * 86400) := by
  obtain ⟨s, hs, hsI, hsc⟩ := whileLoop_total (beforeYear tmYear) addYear
    (fun s => s.1 ≤ tmYear ∧ s.2 = yearStart (s.1 + 1900) * 86400) (fun s => (tmYear - s.1).toNat)
    (fun s hI hc => by
      have hc : s.1 < tmYear := of_decide_eq_true hc
      have hsucc := yearStart_succ (s.1 + 1900)
      rw [show s.1 + 1900 + 1 = s.1 + 1 + 1900 by omega, daysInYear] at hsucc
      refine ⟨⟨by dsimp only [addYear]; omega, ?_⟩, fun _ => by dsimp only [addYear]; omega⟩
      dsimp only [addYear]
      rw [hsucc, hI.2, isLeapYear_eq]
      split <;> ring)
    (s := (70, 0)) ⟨h, rfl⟩
  have hsc : ¬s.1 < tmYear := of_decide_eq_false hsc
  have hyear : s.1 = tmYear := by omega
  rw [hyear] at hsI
  exact ⟨_, fun fuel hf => (hs fuel hf).trans (congrArg some (Prod.ext hyear hsI.2))⟩

theorem convertUtc2Secs_months (leap : Bool) {tmMon : Int} (h0 : 0 ≤ tmMon) (h11 : tmMon ≤ 11)
    (seconds : Int) :
    ∃ bound, ∀ fuel ≥ bound, whileLoop (beforeTmMon tmMon) (addMonth leap) fuel (0, seconds) =
      some (tmMon, seconds + monthStart leap tmMon.toNat * 86400) := by
  obtain ⟨s, hs, hsI, hsc⟩ := whileLoop_total (beforeTmMon tmMon) (addMonth leap)
    (fun s => 0 ≤ s.1 ∧ s.1 ≤ tmMon ∧ s.2 = seconds + monthStart leap s.1.toNat * 86400)
    (fun s => (tmMon - s.1).toNat)
    (fun s hI hc => by
      obtain ⟨hs0, _, hsec⟩ := hI
      have hc : s.1 < tmMon := of_decide_eq_true hc
      have hsucc := monthStart_succ leap s.1.toNat
      have hlen := gMontbl_eq leap (show s.1.toNat < 12 by omega)
      rw [Int.toNat_of_nonneg hs0] at hlen
      refine ⟨⟨by dsimp only [addMonth]; omega, by dsimp only [addMonth]; omega, ?_⟩,
        fun _ => by dsimp only [addMonth]; omega⟩
      dsimp only [addMonth]
      rw [show (s.1 + 1).toNat = s.1.toNat + 1 by omega, hsucc, hsec, Int.natCast_add, ← hlen]
      split <;> ring)
    (s := (0, seconds)) ⟨by omega, h0, by simp [monthStart]⟩
  have hsc : ¬s.1 < tmMon := of_decide_eq_false hsc
  have hmon : s.1 = tmMon := by omega
  rw [hmon] at hsI
  exact ⟨_, fun fuel hf => (hs fuel hf).trans (congrArg some (Prod.ext hmon hsI.2.2))⟩

theorem int32_eq_some {x : Int} (h : -2147483648 ≤ x) (h' : x < 2147483648) : int32 x = some x :=
  if_pos ⟨h, h'⟩

theorem convertUtc2Secs_eq {tm : Tm} (h : TmOk tm) (hyear : tm.tmYear ≤ 2147481747) :
    ∃ bound, ∀ fuel ≥ bound, convertUtc2Secs fuel tm = some (civilSecs tm) := by
  have hlow := h.year
  obtain ⟨bound, hyears⟩ := convertUtc2Secs_years h.year
  obtain ⟨bound', hmonths⟩ := convertUtc2Secs_months (isLeap (tm.tmYear + 1900)) h.mon.1 h.mon.2
    (yearStart (tm.tmYear + 1900) * 86400)
  refine ⟨max bound bound', fun fuel hf => ?_⟩
  unfold convertUtc2Secs
  rw [hyears fuel (by omega), int32_eq_some (by omega) (by omega)]
  simp only [Option.bind_eq_bind, Option.bind_some, isLeapYear_eq]
  rw [hmonths fuel (by omega)]
  refine congrArg some ?_
  unfold civilSecs
  ring

theorem mktime_of_ok {tm : Tm} (h : TmOk tm) (fuel : Nat) :
    mktime fuel (some tm) = (convertUtc2Secs fuel tm).bind fun timeInSeconds =>
      (convertSecs2Utc fuel timeInSeconds (-tm.tmGmtoff) tm).bind fun r =>
        some ⟨timeInSeconds, some r.1, none⟩ := by
  obtain ⟨h1, h2, h3, h4, h5, h6, h7⟩ := h
  unfold mktime
  dsimp only
  rw [if_neg (by omega)]
  rfl

theorem monthStart_last (leap : Bool) {month : Nat} (h : month < 12) :
    monthStart leap month + 31 ≤ monthStart leap 12 := by
  revert leap
  interval_cases month <;> decide

/-- The normalised year is that of the civil time, or the next one after a 60th second. -/
theorem civilSecs_year {tm : Tm} (h : TmOk tm) {year : Int} {month mday : Nat}
    (hdate : IsDate ((civilSecs tm - tm.tmGmtoff) / 86400) year month mday) :
    tm.tmYear + 1900 ≤ year ∧ year ≤ tm.tmYear + 1901 := by
  obtain ⟨_, _, hsec, hmin, hhour, hmday, hmon⟩ := h
  have hlast := monthStart_last (isLeap (tm.tmYear + 1900)) (show tm.tmMon.toNat < 12 by omega)
  have htwelve := monthStart_twelve (tm.tmYear + 1900)
  have hnext := yearStart_succ (tm.tmYear + 1900)
  have hafter := yearStart_succ (tm.tmYear + 1900 + 1)
  have hpos := daysInYear_pos (tm.tmYear + 1900 + 1)
  obtain ⟨hfrom, hto⟩ := hdate.inside
  unfold civilSecs at hfrom hto
  constructor
  · by_contra hlt
    have hmono := yearStart_mono (show year + 1 ≤ tm.tmYear + 1900 by omega)
    omega
  · by_contra hgt
    have hmono := yearStart_mono (show tm.tmYear + 1900 + 1 + 1 ≤ year by omega)
    omega

theorem mktime_spec {tm : Tm} (h : TmOk tm) (hyear : tm.tmYear ≤ 2147481747) :
    ∃ year month mday bound, IsDate ((civilSecs tm - tm.tmGmtoff) / 86400) year month mday ∧
      ∀ fuel ≥ bound, mktime fuel (some tm) = some
        ⟨civilSecs tm, some (civilTm (civilSecs tm) (-tm.tmGmtoff) year month mday), none⟩ := by
  have hlow := h.year
  obtain ⟨bound, hsecs⟩ := convertUtc2Secs_eq h hyear
  obtain ⟨year, month, mday, bound', hdate, hfields⟩ :=
    convertSecs2Utc_spec (civilSecs tm) (-tm.tmGmtoff) tm
  rw [← Int.sub_eq_add_neg] at hdate
  have hin := civilSecs_year h hdate
  refine ⟨year, month, mday, max bound bound', hdate, fun fuel hf => ?_⟩
  obtain ⟨tm', ret, hret, ⟨_, _, rfl⟩ | ⟨hnot, _⟩⟩ := hfields fuel (by omega)
  · rw [mktime_of_ok h, hsecs fuel (by omega), Option.bind_some, hret]
    rfl
  · exact absurd ⟨by omega, by omega⟩ hnot

theorem civilSecs_civilTm {t offset year : Int} {month mday : Nat}
    (hdate : IsDate ((t + offset) / 86400) year month mday) :
    civilSecs (civilTm t offset year month mday) = t := by
  have hfirst := hdate.first
  have hday := hdate.day
  unfold civilSecs civilTm
  rw [show year - 1900 + 1900 = year by omega, Int.toNat_natCast]
  dsimp only
  omega

theorem tmOk_civilTm {t offset year : Int} {month mday : Nat}
    (hdate : IsDate ((t + offset) / 86400) year month mday) (hyear : 1970 ≤ year)
    (hoffset : -43200 ≤ offset ∧ offset ≤ 50400) : TmOk (civilTm t offset year month mday) := by
  have hfirst := hdate.first
  have hlast := hdate.last
  have hmonth := hdate.inYear
  have hlen : daysInMonth (isLeap year) month ≤ 31 := by
    unfold daysInMonth
    split <;> [split; skip; skip; skip; skip; skip] <;> decide
  unfold civilTm
  constructor <;> dsimp only <;> omega

theorem mktime_civilTm {t offset year : Int} {month mday : Nat}
    (hdate : IsDate ((t + offset) / 86400) year month mday) (hyear : 1970 ≤ year)
    (hlast : year ≤ 2147483647) (hoffset : -43200 ≤ offset ∧ offset ≤ 50400) :
    ∃ bound, ∀ fuel ≥ bound, mktime fuel (some (civilTm t offset year month mday)) =
      some ⟨t, some (civilTm t offset year month mday), none⟩ := by
  have hok := tmOk_civilTm hdate hyear hoffset
  have hsecs := civilSecs_civilTm hdate
  have hgmtoff : (civilTm t offset year month mday).tmGmtoff = -offset := rfl
  have htmYear : (civilTm t offset year month mday).tmYear = year - 1900 := rfl
  obtain ⟨year', month', mday', bound, hdate', hrun⟩ := mktime_spec hok (by omega)
  rw [hsecs, hgmtoff, Int.sub_neg] at hdate'
  obtain ⟨rfl, rfl, rfl⟩ := isDate_unique hdate hdate'
  rw [hsecs, hgmtoff, Int.neg_neg] at hrun
  exact ⟨bound, hrun⟩

theorem localtimeR_spec (timezone t : Int) (result : Tm) {year : Int} {month mday : Nat}
    (hdate : IsDate ((t - timezone) / 86400) year month mday) (hyear : 1970 ≤ year)
    (hlast : year ≤ 2147483647) :
    ∃ bound, ∀ fuel ≥ bound, localtimeR fuel timezone (some t) (some result) =
      some (some (civilTm t (-timezone) year month mday), none) := by
  obtain ⟨year', month', mday', bound, hdate', hrun⟩ := convertSecs2Utc_spec t (-timezone) result
  rw [← Int.sub_eq_add_neg] at hdate'
  obtain ⟨rfl, rfl, rfl⟩ := isDate_unique hdate hdate'
  refine ⟨bound, fun fuel hf => ?_⟩
  obtain ⟨tm', ret, hret, ⟨_, rfl, rfl⟩ | ⟨hnot, _⟩⟩ := hrun fuel hf
  · unfold localtimeR
    dsimp only
    rw [hret]
    rfl
  · exact absurd ⟨by omega, by omega⟩ hnot

/-- `mktime` takes back what `localtime_r` and `gmtime_r` store, as long as the year is not before
the epoch, and normalises every civil time it accepts, once and for all. -/
theorem mktime_localtimeR :
    (∀ timezone t : Int, -50400 ≤ timezone → timezone ≤ 43200 → ∀ result year month mday,
      IsDate ((t - timezone) / 86400) year month mday → 1970 ≤ year → year ≤ 2147483647 →
      ∃ bound tm, ∀ fuel ≥ bound,
        localtimeR fuel timezone (some t) (some result) = some (some tm, none) ∧
          mktime fuel (some tm) = some ⟨t, some tm, none⟩) ∧
    (∀ t : Int, ∀ result year month mday,
      IsDate (t / 86400) year month mday → 1970 ≤ year → year ≤ 2147483647 →
      ∃ bound tm, ∀ fuel ≥ bound, gmtimeR fuel (some t) (some result) = some (some tm, none) ∧
        mktime fuel (some tm) = some ⟨t, some tm, none⟩) ∧
    ∀ tm, TmOk tm → tm.tmYear ≤ 2147481747 →
      ∃ bound year month mday, IsDate ((civilSecs tm - tm.tmGmtoff) / 86400) year month mday ∧
        ∀ fuel ≥ bound,
          mktime fuel (some tm) = some
            ⟨civilSecs tm, some (civilTm (civilSecs tm) (-tm.tmGmtoff) year month mday), none⟩ ∧
          (year ≤ 2147483647 →
            mktime fuel (some (civilTm (civilSecs tm) (-tm.tmGmtoff) year month mday)) = some
              ⟨civilSecs tm, some (civilTm (civilSecs tm) (-tm.tmGmtoff) year month mday), none⟩) := by
  have hlocal : ∀ timezone t : Int, -50400 ≤ timezone → timezone ≤ 43200 → ∀ result year month mday,
      IsDate ((t - timezone) / 86400) year month mday → 1970 ≤ year → year ≤ 2147483647 →
      ∃ bound tm, ∀ fuel ≥ bound,
        localtimeR fuel timezone (some t) (some result) = some (some tm, none) ∧
          mktime fuel (some tm) = some ⟨t, some tm, none⟩ := by
    intro timezone t hlow hhigh result year month mday hdate hyear hlast
    obtain ⟨bound, hto⟩ := localtimeR_spec timezone t result hdate hyear hlast
    rw [Int.sub_eq_add_neg] at hdate
    obtain ⟨bound', hback⟩ := mktime_civilTm hdate hyear hlast ⟨by omega, by omega⟩
    exact ⟨max bound bound', _, fun fuel hf => ⟨hto fuel (by omega), hback fuel (by omega)⟩⟩
  refine ⟨hlocal, fun t result year month mday hdate hyear hlast => ?_, fun tm htm hyear => ?_⟩
  · rw [← Int.sub_zero t] at hdate
    exact hlocal 0 t (by decide) (by decide) result year month mday hdate hyear hlast
  · have hlow := htm.year
    have hgmtoff := htm.gmtoff
    obtain ⟨year, month, mday, bound, hdate, hrun⟩ := mktime_spec htm hyear
    have hfrom := (civilSecs_year htm hdate).1
    by_cases hlast : year ≤ 2147483647
    · have hdate' := hdate
      rw [Int.sub_eq_add_neg] at hdate'
      obtain ⟨bound', hagain⟩ := mktime_civilTm hdate' (by omega) hlast ⟨by omega, by omega⟩
      exact ⟨max bound bound', year, month, mday, hdate, fun fuel hf =>
        ⟨hrun fuel (by omega), fun _ => hagain fuel (by omega)⟩⟩
    · exact ⟨bound, year, month, mday, hdate, fun fuel hf =>
        ⟨hrun fuel hf, fun h => absurd h hlast⟩⟩

/-- The last of February 2024, which is the first of March eight hours east, and the last second of
"31 February" 2023, which is the fourth of March. -/
theorem mktime_localtimeR_leap :
    (∃ bound tm, ∀ fuel ≥ bound,
      localtimeR fuel (-28800) (some 1709249400) (some ⟨0, 0, 0, 0, 0, 0, 0, 0, 0, 0⟩) = some (some tm, none) ∧
        mktime fuel (some tm) = some ⟨1709249400, some tm, none⟩) ∧
    (∃ bound tm, ∀ fuel ≥ bound,
      gmtimeR fuel (some 1709249400) (some ⟨0, 0, 0, 0, 0, 0, 0, 0, 0, 0⟩) = some (some tm, none) ∧
        mktime fuel (some tm) = some ⟨1709249400, some tm, none⟩) ∧
    civilSecs ⟨60, 59, 23, 31, 1, 123, 0, 0, 0, 0⟩ = 1677888000 ∧
    ∃ bound year month mday, IsDate (1677888000 / 86400) year month mday ∧ ∀ fuel ≥ bound,
      mktime fuel (some ⟨60, 59, 23, 31, 1, 123, 0, 0, 0, 0⟩) =
        some ⟨1677888000, some (civilTm 1677888000 0 year month mday), none⟩ := by
  obtain ⟨hlocal, hutc, hcivil⟩ := mktime_localtimeR
  have hdate : IsDate ((1709249400 - -28800) / 86400) 2024 2 1 := by constructor <;> decide
  have hdate' : IsDate (1709249400 / 86400) 2024 1 29 := by constructor <;> decide
  refine ⟨hlocal (-28800) 1709249400 (by decide) (by decide) _ 2024 2 1 hdate (by decide) (by decide),
    hutc 1709249400 _ 2024 1 29 hdate' (by decide) (by decide), by decide, ?_⟩
  have hok : TmOk ⟨60, 59, 23, 31, 1, 123, 0, 0, 0, 0⟩ := by constructor <;> decide
  obtain ⟨bound, year, month, mday, hday, hrun⟩ := hcivil _ hok (by decide)
  exact ⟨bound, year, month, mday, hday, fun fuel hf => (hrun fuel hf).1⟩

/-- Eight hours east, 1000 seconds before the epoch it is 1970 already, but in UTC it is not. And
a year that passes the checks may be too large to be added to. -/
theorem mktime_gmtimeR_before :
    IsDate ((-1000 - -28800) / 86400) 1970 0 1 ∧
      (∃ tm, gmtimeR 12 (some (-1000)) (some ⟨0, 0, 0, 0, 0, 0, 0, 0, 0, 0⟩) = some (some tm, none) ∧
        ∀ fuel, mktime fuel (some tm) = some ⟨-1, some tm, some .eoverflow⟩) ∧
      TmOk ⟨0, 0, 0, 1, 0, 2147483647, 0, 0, 0, 0⟩ ∧
      ∀ fuel, mktime fuel (some ⟨0, 0, 0, 1, 0, 2147483647, 0, 0, 0, 0⟩) = none := by
  have hok : TmOk ⟨0, 0, 0, 1, 0, 2147483647, 0, 0, 0, 0⟩ := by
    constructor <;> decide
  refine ⟨by constructor <;> decide, ⟨⟨20, 43, 23, 31, 11, 69, 3, 364, 0, 0⟩, by decide, fun fuel => ?_⟩,
    hok, fun fuel => ?_⟩
  · rfl
  · rw [mktime_of_ok hok]
    unfold convertUtc2Secs
    cases whileLoop (beforeYear 2147483647) addYear fuel (70, 0) <;> rfl

end LiteosM.Posix
