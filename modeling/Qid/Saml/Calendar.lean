/-
The calendar of the SAML timestamps.

A day number is turned into a date by the arithmetic of eras of 400 years that begin in March.
-/
import Mathlib.Tactic.IntervalCases

namespace Qid.Saml

/-- Divisions round towards zero. -/
def civilFromDays (days : Int) : Int × Int × Int :=
  let z := days + 719468
  let era := (if z ≥ 0 then z else z - 146096).tdiv 146097
  let doe := z - era * 146097
  let yoe := (doe - doe.tdiv 1460 + doe.tdiv 36524 - doe.tdiv 146096).tdiv 365
  let y := yoe + era * 400
  let doy := doe - (365 * yoe + yoe.tdiv 4 - yoe.tdiv 100)
  let mp := (5 * doy + 2).tdiv 153
  let d := doy - (153 * mp + 2).tdiv 5 + 1
  let m := if mp < 10 then mp + 3 else mp - 9
  let y := if m ≤ 2 then y + 1 else y
  (y, m, d)

structure IsoFields where
  date : Int × Int × Int
  h : Nat
  m : Nat
  s : Nat

def isoFields (secs : Nat) : IsoFields :=
  let timeSecs := secs % 86400
  { date := civilFromDays (secs / 86400 : Nat)
    h := timeSecs / 3600
    m := timeSecs % 3600 / 60
    s := timeSecs % 60 }

def padded (width : Nat) (n : Int) : String :=
  "".pushn '0' (width - (toString n).length) ++ toString n

def isoNowUtc : Option (Nat × Nat) → String
  | none => ""
  | some (secs, nanos) =>
    let { date := (y, mo, d), h, m, s } := isoFields secs
    padded 4 y ++ "-" ++ padded 2 mo ++ "-" ++ padded 2 d ++ "T" ++ padded 2 h ++ ":" ++
      padded 2 m ++ ":" ++ padded 2 s ++ "." ++ padded 3 (nanos / 1000000 : Nat) ++ "Z"

abbrev IsLeap (y : Int) : Prop := y % 4 = 0 ∧ (y % 100 ≠ 0 ∨ y % 400 = 0)

def daysInMonth (y m : Int) : Int :=
  if m = 2 then if IsLeap y then 29 else 28
  else if m = 4 ∨ m = 6 ∨ m = 9 ∨ m = 11 then 30 else 31

def IsDate : Int × Int × Int → Prop
  | (y, m, d) => (1 ≤ m ∧ m ≤ 12) ∧ 1 ≤ d ∧ d ≤ daysInMonth y m

def nextDate : Int × Int × Int → Int × Int × Int
  | (y, m, d) =>
    if d < daysInMonth y m then (y, m, d + 1)
    else if m < 12 then (y, m + 1, 1)
    else (y + 1, 1, 1)

def dateAfter : Nat → Int × Int × Int
  | 0 => (1970, 1, 1)
  | n + 1 => nextDate (dateAfter n)

theorem isDate_nextDate {date : Int × Int × Int} (h : IsDate date) : IsDate (nextDate date) := by
  obtain ⟨y, m, d⟩ := date
  obtain ⟨hm, hd⟩ := h
  have hlength : ∀ y m, 1 ≤ daysInMonth y m := by
    intro y m
    rw [daysInMonth]
    split_ifs <;> decide
  rw [nextDate]
  split_ifs with hday hmonth
  · exact ⟨hm, by omega, hday⟩
  · exact ⟨by omega, le_rfl, hlength ..⟩
  · exact ⟨by decide, le_rfl, hlength ..⟩

/-- The date on a day of a year that begins in March. -/
def dateOf (year day : Int) : Int × Int × Int :=
  let mp := (5 * day + 2) / 153
  let m := if mp < 10 then mp + 3 else mp - 9
  (if m ≤ 2 then year + 1 else year, m, day - (153 * mp + 2) / 5 + 1)

structure Parts (days era yoe doy : Int) : Prop where
  nonneg : 0 ≤ era
  year : 0 ≤ yoe ∧ yoe < 400
  day : 0 ≤ doy ∧ doy ≤ 365
  leap : doy < 365 ∨ IsLeap (yoe + 1)
  sum : days + 719468 = 146097 * era + (365 * yoe + yoe / 4 - yoe / 100 + doy)

variable {days era yoe doy doe year : Int}

/-- The three corrections leave as many times 365 days as years have passed. -/
theorem Parts.yearOfEra (h : Parts days era yoe doy)
    (hdoe : 365 * yoe + yoe / 4 - yoe / 100 + doy = doe) :
    (doe - doe / 1460 + doe / 36524 - doe / 146096) / 365 = yoe := by
  obtain ⟨-, hyear, hday, hleap, -⟩ := h
  obtain ⟨a, b, c, ha, hb, hc, rfl⟩ : ∃ a b c : Int, (0 ≤ a ∧ a ≤ 3) ∧ (0 ≤ b ∧ b ≤ 24) ∧
      (0 ≤ c ∧ c ≤ 3) ∧ yoe = 100 * a + 4 * b + c :=
    ⟨yoe / 100, yoe % 100 / 4, yoe % 4, by omega⟩
  replace hdoe : doe = 36524 * a + 1461 * b + 365 * c + doy := by omega
  replace hleap : doy < 365 ∨ c = 3 ∧ (b < 24 ∨ a = 3) := by omega
  clear hyear
  by_cases hlast : doe = 146096
  · subst hlast
    omega
  have hcentury : doe / 36524 = a := by omega
  have hera : doe / 146096 = 0 := by omega
  rw [hcentury, hera]
  -- the fourth year of a cycle may reach into the next 1460 days
  by_cases hcarry : 24 * a + b + 365 * c + doy < 1460
  · have hcycle : doe / 1460 = 25 * a + b := by omega
    rw [hcycle]
    omega
  · have hcycle : doe / 1460 = 25 * a + b + 1 := by omega
    rw [hcycle]
    omega

theorem Parts.civilFromDays_eq (h : Parts days era yoe doy) :
    civilFromDays days = dateOf (yoe + era * 400) doy := by
  have hdiv : ∀ {m n : Int}, 0 ≤ m → m.tdiv n = m / n := Int.tdiv_eq_ediv_of_nonneg
  have hyear := h.yearOfEra rfl
  obtain ⟨hera, hyoe, hdoy, -, hsum⟩ := h
  generalize hdoe : 365 * yoe + yoe / 4 - yoe / 100 + doy = doe at hyear hsum
  revert hyear
  have hz : 0 ≤ days + 719468 := by omega
  have hquot : (days + 719468) / 146097 = era := by omega
  have hrest : days + 719468 - era * 146097 = doe := by omega
  have hpos : 0 ≤ doe := by omega
  have hcorrected : 0 ≤ doe - doe / 1460 + doe / 36524 - doe / 146096 := by omega
  have hday : doe - (365 * yoe + yoe / 4 - yoe / 100) = doy := by omega
  have hmonth : 0 ≤ 5 * doy + 2 := by omega
  have hmonths : 0 ≤ 153 * ((5 * doy + 2) / 153) + 2 := by omega
  intro hyear
  simp only [civilFromDays, if_pos hz, hdiv hz, hquot, hrest, hdiv hpos,
    hdiv hcorrected, hyear, hdiv hyoe.1, hday, hdiv hmonth, hdiv hmonths, dateOf]

theorem nextDate_dateOf (hdoy : 0 ≤ doy ∧ doy < 365) (hleap : doy < 364 ∨ IsLeap (year + 1)) :
    nextDate (dateOf year doy) = dateOf year (doy + 1) := by
  obtain ⟨k, hk, hmonth⟩ : ∃ k : Nat, k < 12 ∧ (5 * doy + 2) / 153 = k :=
    ⟨((5 * doy + 2) / 153).toNat, by omega⟩
  have hnext : (5 * (doy + 1) + 2) / 153 = k ∨ (5 * (doy + 1) + 2) / 153 = k + 1 := by omega
  rcases hnext with hnext | hnext
  all_goals
    simp only [dateOf, hmonth, hnext, nextDate]
    interval_cases k <;> simp [daysInMonth] <;> grind

theorem nextDate_dateOf_last (h : doy = 365 ∨ doy = 364 ∧ ¬ IsLeap (year + 1)) :
    nextDate (dateOf year doy) = dateOf (year + 1) 0 := by
  rcases h with rfl | ⟨rfl, hleap⟩
  · simp [dateOf, nextDate, daysInMonth]
    grind
  · simp [dateOf, nextDate, daysInMonth, hleap]

theorem parts_dateAfter (n : Nat) :
    ∃ era yoe doy, Parts n era yoe doy ∧ dateAfter n = dateOf (yoe + era * 400) doy := by
  induction n with
  | zero => exact ⟨4, 369, 306, by constructor <;> decide, by decide⟩
  | succ n ih =>
    obtain ⟨era, yoe, doy, ⟨hera, hyoe, hdoy, hleap, hsum⟩, hdate⟩ := ih
    rw [dateAfter, hdate]
    by_cases hlast : doy < 364 ∨ doy = 364 ∧ IsLeap (yoe + 1)
    · exact ⟨era, yoe, doy + 1, ⟨hera, hyoe, by omega, by omega, by omega⟩,
        nextDate_dateOf (by omega) (by omega)⟩
    rw [nextDate_dateOf_last (by omega)]
    by_cases hyear : yoe < 399
    · refine ⟨era, yoe + 1, 0, by constructor <;> omega, congrArg (dateOf · 0) ?_⟩
      omega
    · refine ⟨era + 1, 0, 0, by constructor <;> omega, congrArg (dateOf · 0) ?_⟩
      omega

/-- The day numbers are exactly the days of the calendar, and the fields of a timestamp are those
of its instant. -/
theorem timestamps_exact (n secs : Nat) :
    IsDate (civilFromDays n) ∧ civilFromDays n = dateAfter n ∧
    civilFromDays (n + 1) = nextDate (civilFromDays n) ∧
    let time := isoFields secs
    time.date = dateAfter (secs / 86400) ∧ time.h < 24 ∧ time.m < 60 ∧ time.s < 60 ∧
      secs / 86400 * 86400 + time.h * 3600 + time.m * 60 + time.s = secs := by
  have hcivil : ∀ n : Nat, civilFromDays n = dateAfter n := by
    intro n
    obtain ⟨era, yoe, doy, hparts, hdate⟩ := parts_dateAfter n
    rw [hparts.civilFromDays_eq, hdate]
  have hdate : ∀ n, IsDate (dateAfter n) := by
    intro n
    induction n with
    | zero => exact ⟨by decide, by decide⟩
    | succ n ih => exact isDate_nextDate ih
  refine ⟨hcivil n ▸ hdate n, hcivil n, ?_, hcivil _, ?_⟩
  · rw [hcivil]
    exact hcivil (n + 1)
  · simp only [isoFields]
    omega

end Qid.Saml
