import NeurOS.Foundation.Calendar
import NeurOS.Initrd.Model

/-!
# Timestamps of files

The conversion first takes off whole years, then whole months.  The test of the
year loop compares what is left with the length of the year before, so the loop
ends too early or too late around some of the year boundaries.
-/

namespace NeurOS

open Foundation

namespace Initrd

namespace File

/-!
# The conversion
-/

def unixEpochYear : Nat := 1970

def daysPerMonth : List Nat := [31, 28, 31, 30, 31, 30, 31, 31, 30, 31, 30, 31]

def daysPerLeapMonth : List Nat := [31, 29, 31, 30, 31, 30, 31, 31, 30, 31, 30, 31]

def daysPerYear : Nat := 365

def daysPerLeapYear : Nat := 366

def secondsPerMinute : Nat := 60

def secondsPerHour : Nat := secondsPerMinute * 60

def secondsPerDay : Nat := secondsPerHour * 24

def secondsPerYear : Nat := secondsPerDay * daysPerYear

def secondsPerLeapYear : Nat := secondsPerDay * daysPerLeapYear

def isLeapYear (year : Nat) : Bool :=
  (year % 4 == 0 && year % 100 != 0) || year % 400 == 0

structure Years where
  seconds : Nat
  year : Nat
  yearSeconds : Nat
  deriving DecidableEq, Repr

def years (profile : Profile) : Loop Years where
  guard state := decide (state.seconds > state.yearSeconds)
  body state := do
    let yearSeconds := if isLeapYear state.year then secondsPerLeapYear else secondsPerYear
    let seconds ← profile.sub 32 state.seconds yearSeconds
    let year ← profile.add 32 state.year 1
    .ok { seconds, year, yearSeconds }

/-- The loop over the months, on the part of the table from the current month on. -/
def months : List Nat -> Nat -> Nat -> Outcome (Nat × Nat)
  | [], _, _ => .error .indexOutOfBounds
  | days :: rest, month, seconds =>
      if seconds >= days * secondsPerDay then
        months rest (month + 1) (seconds - days * secondsPerDay)
      else
        .ok (month, seconds)

def twoDigits (n : Nat) : String :=
  if n < 10 then s!"0{n}" else s!"{n}"

def parseTimestamp (profile : Profile) (fuel timestamp : Nat) : Option (Outcome String) :=
  ((years profile).run fuel
      { seconds := timestamp, year := unixEpochYear, yearSeconds := 0 }).map fun result => do
    let state ← result
    let year := state.year
    let table := if isLeapYear year then daysPerLeapMonth else daysPerMonth
    let (month, seconds) ← months table 1 state.seconds
    let day := seconds / secondsPerDay + 1
    let seconds := seconds % secondsPerDay
    let hour := seconds / secondsPerHour
    let seconds := seconds % secondsPerHour
    let minute := seconds / secondsPerMinute
    let second := seconds % secondsPerMinute
    .ok s!"{year}-{twoDigits month}-{twoDigits day} {twoDigits hour}:{twoDigits minute}:{twoDigits second}"

/-!
# Dates after the epoch
-/

abbrev Date := Calendar.Date unixEpochYear

def dateText (date : Date) : String :=
  Text.numeral 10 4 date.year ++ "-" ++ Text.numeral 10 2 date.month ++ "-" ++
    Text.numeral 10 2 date.day ++ " " ++ Text.numeral 10 2 date.hour ++ ":" ++
    Text.numeral 10 2 date.minute ++ ":" ++ Text.numeral 10 2 date.second

theorem isLeapYear_eq (year : Nat) : isLeapYear year = Calendar.isLeap year := by
  unfold isLeapYear Calendar.isLeap
  by_cases hfour : year % 4 = 0
  · rw [hfour]
    rfl
  · have hcentury : year % 400 ≠ 0 := by lia
    rw [beq_false_of_ne hfour, beq_false_of_ne hcentury]
    rfl

theorem yearSeconds_eq (year : Nat) :
    (if isLeapYear year then secondsPerLeapYear else secondsPerYear) =
      secondsPerDay * Calendar.yearLength year := by
  rw [isLeapYear_eq]
  unfold Calendar.yearLength
  cases Calendar.isLeap year <;> rfl

theorem monthTable_eq (year : Nat) :
    (if isLeapYear year then daysPerLeapMonth else daysPerMonth) =
      Calendar.monthLengths year := by
  rw [isLeapYear_eq]
  unfold Calendar.monthLengths
  cases Calendar.isLeap year <;> rfl

theorem twoDigits_eq {n : Nat} (h : n < 100) : twoDigits n = Text.numeral 10 2 n := by
  unfold twoDigits
  by_cases hlt : n < 10
  · rw [if_pos hlt]
    unfold Text.numeral
    rw [Text.digits_eq_toDigits (by lia) (by lia), Nat.toDigits_of_lt_base hlt]
    show "0" ++ toString n = _
    rw [Nat.toString_eq_ofList_toDigits, Nat.toDigits_of_lt_base hlt]
    apply String.toList_inj.mp
    simp
  · rw [if_neg hlt, Text.numeral_eq_toString (by lia) (by lia)]

/-!
# The loop over the months
-/

theorem months_in_table {lengths : List Nat} {i rest : Nat} (month : Nat)
    (h : rest < secondsPerDay * lengths.getD i 0) :
    months lengths month (secondsPerDay * (lengths.take i).sum + rest) =
      .ok (month + i, rest) := by
  induction lengths generalizing i month with
  | nil => simp at h
  | cons length others ih =>
      cases i with
      | zero =>
          have hlt : rest < secondsPerDay * length := h
          simp only [List.take_zero, List.sum_nil, Nat.mul_zero, Nat.zero_add]
          rw [months, Nat.mul_comm length, if_neg (by lia)]
          rfl
      | succ i =>
          have hsum : secondsPerDay * ((length :: others).take (i + 1)).sum + rest =
              secondsPerDay * length + (secondsPerDay * (others.take i).sum + rest) := by
            rw [List.take_succ_cons, List.sum_cons, Nat.mul_add, Nat.add_assoc]
          rw [hsum, months, Nat.mul_comm length, if_pos (by lia), Nat.add_sub_cancel_left,
            ih (month + 1) h]
          rw [Nat.add_assoc, Nat.add_comm 1 i]

theorem months_behind_table {lengths : List Nat} {seconds : Nat} (month : Nat)
    (h : secondsPerDay * lengths.sum <= seconds) :
    months lengths month seconds = .error .indexOutOfBounds := by
  induction lengths generalizing month seconds with
  | nil => rfl
  | cons length others ih =>
      rw [List.sum_cons, Nat.mul_add] at h
      rw [months, Nat.mul_comm length, if_pos (by lia)]
      exact ih (month + 1) (by lia)

/-!
# The loop over the years

A timestamp is given by its year and the seconds of that year.  The loop passes
every year but the last two without fail, because two years are longer than any
one.
-/

abbrev daysBefore (year : Nat) : Nat :=
  Calendar.daysBefore unixEpochYear year

/-- What the test of the loop compares with when it arrives at a year. -/
def previous (year : Nat) : Nat :=
  if year = unixEpochYear then 0 else secondsPerDay * Calendar.yearLength (year - 1)

def arrived (last rest year : Nat) : Years where
  seconds := secondsPerDay * (daysBefore last - daysBefore year) + rest
  year := year
  yearSeconds := previous year

theorem previous_le (year : Nat) : previous year <= secondsPerDay * 366 := by
  unfold previous
  split
  · lia
  · exact Nat.mul_le_mul_left _ (Calendar.yearLength_bounds (year - 1)).2

theorem previous_succ {year : Nat} (h : unixEpochYear <= year) :
    previous (year + 1) = secondsPerDay * Calendar.yearLength year := by
  unfold previous
  rw [if_neg (by lia), Nat.add_sub_cancel]

theorem daysBefore_lt {year last : Nat} (hyear : unixEpochYear <= year) (h : year < last) :
    daysBefore year + Calendar.yearLength year <= daysBefore last := by
  rw [← Calendar.daysBefore_succ hyear]
  exact Calendar.daysBefore_le (Nat.le_succ_of_le hyear) h

theorem years_pass (profile : Profile) {last rest year : Nat} (hyear : unixEpochYear <= year)
    (hlt : year < last) (hlast : last < 2 ^ 32)
    (hguard : previous year < (arrived last rest year).seconds) :
    (years profile).guard (arrived last rest year) = true ∧
      (years profile).body (arrived last rest year) = .ok (arrived last rest (year + 1)) := by
  have hdays := daysBefore_lt hyear hlt
  have hle : secondsPerDay * Calendar.yearLength year <= (arrived last rest year).seconds := by
    show _ <= secondsPerDay * (daysBefore last - daysBefore year) + rest
    have hmul : secondsPerDay * Calendar.yearLength year <=
        secondsPerDay * (daysBefore last - daysBefore year) :=
      Nat.mul_le_mul_left _ (by lia)
    exact Nat.le_trans hmul (Nat.le_add_right _ rest)
  constructor
  · exact decide_eq_true hguard
  · have hrest : (arrived last rest year).seconds - secondsPerDay * Calendar.yearLength year =
        (arrived last rest (year + 1)).seconds := by
      show secondsPerDay * (daysBefore last - daysBefore year) + rest -
          secondsPerDay * Calendar.yearLength year =
        secondsPerDay * (daysBefore last - daysBefore (year + 1)) + rest
      have hmul : secondsPerDay * Calendar.yearLength year <=
          secondsPerDay * (daysBefore last - daysBefore year) :=
        Nat.mul_le_mul_left _ (by lia)
      have hnext : daysBefore (year + 1) = daysBefore year + Calendar.yearLength year :=
        Calendar.daysBefore_succ hyear
      rw [hnext, Nat.sub_add_eq, Nat.mul_sub _ _ (Calendar.yearLength year),
        Nat.sub_add_comm hmul]
    show (do
      let yearSeconds := if isLeapYear year then secondsPerLeapYear else secondsPerYear
      let seconds ← profile.sub 32 (arrived last rest year).seconds yearSeconds
      let next ← profile.add 32 year 1
      (.ok { seconds, year := next, yearSeconds } : Outcome Years)) = _
    simp only [yearSeconds_eq]
    rw [profile.sub_of_le 32 hle, Outcome.ok_bind, profile.add_of_lt (by lia), Outcome.ok_bind,
      hrest]
    unfold arrived
    rw [previous_succ hyear]

theorem years_arrive (profile : Profile) {first last : Nat} (rest : Nat)
    (hfirst : unixEpochYear <= first) (hlast : first < last) (hsmall : last < 2 ^ 32)
    (fuel : Nat) :
    (years profile).run (fuel + (last - 1 - first)) (arrived last rest first) =
      (years profile).run fuel (arrived last rest (last - 1)) := by
  let states := fun i => arrived last rest (first + i)
  have hpass : forall i, i < last - 1 - first ->
      (years profile).guard (states i) = true ∧
        (years profile).body (states i) = .ok (states (i + 1)) := by
    intro i hi
    apply years_pass profile (by lia) (by lia) hsmall
    -- Two years are left, and the test compares with one.
    have hnext : daysBefore (first + i) + Calendar.yearLength (first + i) <=
        daysBefore (first + i + 1) := daysBefore_lt (by lia) (by lia)
    have hsecond : daysBefore (first + i + 1) + Calendar.yearLength (first + i + 1) <=
        daysBefore last := daysBefore_lt (by lia) (by lia)
    have hbounds := Calendar.yearLength_bounds (first + i)
    have hbounds' := Calendar.yearLength_bounds (first + i + 1)
    have hprevious := previous_le (first + i)
    have hmul : secondsPerDay * 730 <=
        secondsPerDay * (daysBefore last - daysBefore (first + i)) :=
      Nat.mul_le_mul_left _ (by lia)
    have hdays : secondsPerDay * 366 < secondsPerDay * 730 := by
      unfold secondsPerDay secondsPerHour secondsPerMinute
      lia
    show previous (first + i) <
      secondsPerDay * (daysBefore last - daysBefore (first + i)) + rest
    exact Nat.lt_of_le_of_lt hprevious
      (Nat.lt_of_lt_of_le hdays (Nat.le_trans hmul (Nat.le_add_right _ rest)))
  have hpasses := Loop.run_passes hpass fuel
  have hend : states (last - 1 - first) = arrived last rest (last - 1) := by
    show arrived last rest (first + (last - 1 - first)) = _
    rw [Nat.add_sub_cancel' (by lia)]
  rw [hend] at hpasses
  exact hpasses

def Reaches (last rest : Nat) : Prop :=
  last = unixEpochYear ∨ previous (last - 1) < secondsPerDay * Calendar.yearLength (last - 1) + rest

def Stops (last rest : Nat) : Prop :=
  rest <= previous last

theorem arrived_last (last rest : Nat) : (arrived last rest last).seconds = rest := by
  simp [arrived]

theorem arrived_before_last {last : Nat} (rest : Nat) (h : unixEpochYear < last) :
    (arrived last rest (last - 1)).seconds =
      secondsPerDay * Calendar.yearLength (last - 1) + rest := by
  have hsucc : Calendar.daysBefore unixEpochYear (last - 1 + 1) =
      Calendar.daysBefore unixEpochYear (last - 1) + Calendar.yearLength (last - 1) :=
    Calendar.daysBefore_succ (by lia)
  rw [Nat.sub_add_cancel (by lia)] at hsucc
  show secondsPerDay * (daysBefore last - daysBefore (last - 1)) + rest = _
  unfold daysBefore
  rw [hsucc, Nat.add_sub_cancel_left]

section Ends

variable {profile : Profile} {first last rest : Nat}

theorem years_reach (hfirst : unixEpochYear <= first) (hlast : first <= last)
    (hsmall : last < 2 ^ 32) (h : Reaches last rest) (fuel : Nat) :
    (years profile).run (fuel + (last - first)) (arrived last rest first) =
      (years profile).run fuel (arrived last rest last) := by
  by_cases heq : first = last
  · rw [heq, Nat.sub_self, Nat.add_zero]
  · have hlt : first < last := by lia
    have hguard : previous (last - 1) < (arrived last rest (last - 1)).seconds := by
      rw [arrived_before_last rest (by lia)]
      rcases h with hepoch | hguard
      · lia
      · exact hguard
    rcases years_pass profile (by lia) (show last - 1 < last by lia) hsmall hguard with
      ⟨hpass, hbody⟩
    have hfuel : fuel + (last - first) = fuel + 1 + (last - 1 - first) := by lia
    rw [Nat.sub_add_cancel (by lia)] at hbody
    rw [hfuel, years_arrive profile rest hfirst hlt hsmall]
    exact Loop.run_pass hpass hbody fuel

theorem years_complete (hfirst : unixEpochYear <= first) (hlast : first <= last)
    (hsmall : last < 2 ^ 32) (hreaches : Reaches last rest) (hstops : Stops last rest) :
    (years profile).run (1 + (last - first)) (arrived last rest first) =
      some (.ok (arrived last rest last)) := by
  rw [years_reach hfirst hlast hsmall hreaches]
  apply Loop.run_stop
  apply decide_eq_false
  rw [arrived_last]
  exact Nat.not_lt_of_le hstops

theorem years_early (hfirst : unixEpochYear <= first) (hlast : first < last)
    (hsmall : last < 2 ^ 32) (hreaches : Not (Reaches last rest)) :
    (years profile).run (1 + (last - 1 - first)) (arrived last rest first) =
      some (.ok (arrived last rest (last - 1))) := by
  rw [Reaches, not_or] at hreaches
  rw [years_arrive profile rest hfirst hlast hsmall]
  apply Loop.run_stop
  apply decide_eq_false
  rw [arrived_before_last rest (by lia)]
  exact hreaches.2

theorem guard_late (hstops : Not (Stops last rest)) :
    (years profile).guard (arrived last rest last) = true := by
  apply decide_eq_true
  rw [arrived_last]
  exact Nat.lt_of_not_le hstops

theorem body_late (hrest : rest < secondsPerDay * Calendar.yearLength last)
    (hsmall : last + 1 < 2 ^ 32) :
    (years profile).body (arrived last rest last) =
      match profile with
      | .dev => .error .arithmeticOverflow
      | .release => .ok
          { seconds := 2 ^ 32 + rest - secondsPerDay * Calendar.yearLength last
            year := last + 1
            yearSeconds := secondsPerDay * Calendar.yearLength last } := by
  show (do
    let yearSeconds := if isLeapYear last then secondsPerLeapYear else secondsPerYear
    let seconds ← profile.sub 32 (arrived last rest last).seconds yearSeconds
    let next ← profile.add 32 last 1
    (.ok { seconds, year := next, yearSeconds } : Outcome Years)) = _
  simp only [yearSeconds_eq, arrived_last]
  unfold Profile.sub
  rw [if_neg (Nat.not_le_of_lt hrest)]
  cases profile with
  | dev => rfl
  | release =>
      rw [Outcome.ok_bind, Profile.add_of_lt _ hsmall, Outcome.ok_bind]

theorem years_late (hfirst : unixEpochYear <= first) (hlast : first <= last)
    (hsmall : last + 1 < 2 ^ 32) (hrest : rest < secondsPerDay * Calendar.yearLength last)
    (hreaches : Reaches last rest) (hstops : Not (Stops last rest)) :
    (years .dev).run (1 + (last - first)) (arrived last rest first) =
      some (.error .arithmeticOverflow) := by
  rw [years_reach hfirst hlast (by lia) hreaches]
  exact Loop.run_fail (guard_late hstops) (body_late hrest hsmall) 0

end Ends

/-!
# Timestamps that are converted
-/

/-- In 1970 the first second; in later years every second but these: the last day of a leap
year behind its first second; the first second of a year behind two common years; the first
day of a year and one more second when the year before the last was a leap year. -/
structure Undisturbed (date : Date) : Prop where
  epoch : date.year = unixEpochYear -> date.secondOfYear = 0
  leap : unixEpochYear < date.year -> Calendar.isLeap date.year = true ->
    date.secondOfYear <= secondsPerDay * 365
  common : unixEpochYear + 1 < date.year -> Calendar.isLeap (date.year - 1) = false ->
    Calendar.isLeap (date.year - 2) = false -> date.secondOfYear ≠ 0
  behind : unixEpochYear + 1 < date.year -> Calendar.isLeap (date.year - 2) = true ->
    secondsPerDay < date.secondOfYear

def Early (date : Date) : Prop :=
  unixEpochYear + 1 < date.year ∧
    ((Calendar.isLeap (date.year - 1) = false ∧ Calendar.isLeap (date.year - 2) = false ∧
        date.secondOfYear = 0) ∨
      (Calendar.isLeap (date.year - 2) = true ∧ date.secondOfYear <= secondsPerDay))

def Late (date : Date) : Prop :=
  (date.year = unixEpochYear ∧ date.secondOfYear ≠ 0) ∨
    (unixEpochYear < date.year ∧ Calendar.isLeap date.year = true ∧
      secondsPerDay * 365 < date.secondOfYear)

theorem undisturbed_iff_prompt (date : Date) :
    Undisturbed date <-> Not (Early date) ∧ Not (Late date) := by
  unfold Early Late
  constructor
  · intro h
    constructor
    · rintro ⟨hlater, ⟨hone, htwo, hzero⟩ | ⟨htwo, hshort⟩⟩
      · exact h.common hlater hone htwo hzero
      · exact Nat.not_lt_of_le hshort (h.behind hlater htwo)
    · rintro (⟨hfirst, hne⟩ | ⟨hlater, hleap, hlong⟩)
      · exact hne (h.epoch hfirst)
      · exact Nat.not_lt_of_le (h.leap hlater hleap) hlong
  · rintro ⟨hearly, hlate⟩
    constructor
    · intro hfirst
      by_contra hne
      exact hlate (Or.inl ⟨hfirst, hne⟩)
    · intro hlater hleap
      by_contra hlong
      exact hlate (Or.inr ⟨hlater, hleap, Nat.lt_of_not_le hlong⟩)
    · intro hlater hone htwo hzero
      exact hearly ⟨hlater, Or.inl ⟨hone, htwo, hzero⟩⟩
    · intro hlater htwo
      by_contra hshort
      exact hearly ⟨hlater, Or.inr ⟨htwo, Nat.le_of_not_lt hshort⟩⟩

theorem previous_later {year : Nat} (h : unixEpochYear < year) :
    previous year = secondsPerDay * Calendar.yearLength (year - 1) := by
  have hsucc := previous_succ (show unixEpochYear <= year - 1 by lia)
  rw [Nat.sub_add_cancel (by lia)] at hsucc
  exact hsucc

theorem isLeap_previous {year : Nat} (hyear : 0 < year)
    (h : Calendar.isLeap year = true) : Calendar.isLeap (year - 1) = false := by
  cases hbool : Calendar.isLeap (year - 1) with
  | false => rfl
  | true =>
      have hsucc := Calendar.not_isLeap_succ hbool
      rw [Nat.sub_add_cancel (by lia), h] at hsucc
      cases hsucc

section Prompt

variable {date : Date}

theorem reaches_iff : Reaches date.year date.secondOfYear <-> Not (Early date) := by
  have hge := date.year_ge
  have hday : secondsPerDay = 86400 := rfl
  unfold Reaches Early
  by_cases hlater : unixEpochYear + 1 < date.year
  · have hbefore := previous_later (show unixEpochYear < date.year - 1 by lia)
    have hpred : date.year - 1 - 1 = date.year - 2 := by lia
    rw [hbefore, hpred, hday]
    rcases Calendar.yearLength_cases (date.year - 2) with ⟨htwo, hlength2⟩ | ⟨htwo, hlength2⟩
    · have hsucc := Calendar.not_isLeap_succ htwo
      rw [show date.year - 2 + 1 = date.year - 1 by lia] at hsucc
      rw [hlength2, Calendar.yearLength_common hsucc]
      simp only [htwo, Bool.true_eq_false, false_and, and_false, false_or, true_and]
      lia
    · rw [hlength2]
      rcases Calendar.yearLength_cases (date.year - 1) with ⟨hone, hlength⟩ | ⟨hone, hlength⟩
      · rw [hlength]
        simp only [hone, htwo, Bool.true_eq_false, Bool.false_eq_true, false_and, or_false,
          and_false, not_false_eq_true, iff_true]
        lia
      · rw [hlength]
        simp only [hone, htwo, Bool.false_eq_true, false_and, or_false, true_and]
        lia
  · simp only [hlater, false_and, not_false_eq_true, iff_true]
    by_cases hfirst : date.year = unixEpochYear
    · exact Or.inl hfirst
    · have hsecond : date.year - 1 = unixEpochYear := by lia
      have hlength := (Calendar.yearLength_bounds unixEpochYear).1
      right
      rw [hsecond, hday, previous, if_pos rfl]
      lia

theorem stops_iff : Stops date.year date.secondOfYear <-> Not (Late date) := by
  have hlt := date.secondOfYear_lt
  have hge := date.year_ge
  have hcalendar : Calendar.secondsPerDay = 86400 := rfl
  have hday : secondsPerDay = 86400 := rfl
  unfold Stops Late
  by_cases hfirst : date.year = unixEpochYear
  · rw [previous, if_pos hfirst]
    lia
  · have hlater : unixEpochYear < date.year := by lia
    have hbounds := Calendar.yearLength_bounds (date.year - 1)
    rw [previous_later hlater]
    rw [hcalendar] at hlt
    rw [hday]
    rcases Calendar.yearLength_cases date.year with ⟨hleap, hlength⟩ | ⟨hcommon, hlength⟩
    · rw [Calendar.yearLength_common (isLeap_previous (by lia) hleap)]
      simp only [hfirst, hleap, hlater, false_and, false_or, true_and]
      lia
    · rw [hlength] at hlt
      simp only [hfirst, hcommon, Bool.false_eq_true, false_and, and_false, or_false,
        not_false_eq_true, iff_true]
      lia

end Prompt

theorem undisturbed_iff (date : Date) : Undisturbed date <->
    Reaches date.year date.secondOfYear ∧ Stops date.year date.secondOfYear := by
  rw [undisturbed_iff_prompt, reaches_iff, stops_iff]

/-!
# The converted text
-/

theorem secondsPerDay_eq : secondsPerDay = Calendar.secondsPerDay := rfl

theorem year_bounds {date : Date} (h : date.toSeconds < 2 ^ 32) :
    1970 <= date.year ∧ date.year < 2200 := by
  have hepoch : unixEpochYear = 1970 := rfl
  have hge := date.year_ge
  have hdays := Calendar.daysBefore_ge unixEpochYear (date.year - unixEpochYear)
  rw [Nat.add_sub_cancel' hge] at hdays
  unfold Calendar.Date.toSeconds Calendar.secondsPerDay at h
  lia

def entered (timestamp : Nat) : Years where
  seconds := timestamp
  year := unixEpochYear
  yearSeconds := 0

theorem arrived_epoch (date : Date) :
    arrived date.year date.secondOfYear unixEpochYear = entered date.toSeconds := by
  have hseconds : secondsPerDay * (daysBefore date.year - daysBefore unixEpochYear) +
      date.secondOfYear = date.toSeconds := by
    unfold daysBefore
    rw [Calendar.daysBefore_self, Nat.sub_zero, secondsPerDay_eq]
    rfl
  unfold arrived
  rw [hseconds]
  rfl

theorem months_date (date : Date) :
    months (Calendar.monthLengths date.year) 1 date.secondOfYear =
      .ok (date.month, secondsPerDay * (date.day - 1) + date.secondOfDay) := by
  have hday := date.day_offset_lt
  have hclock := date.secondOfDay_lt
  rw [← secondsPerDay_eq] at hclock
  have hsplit : date.secondOfYear =
      secondsPerDay * ((Calendar.monthLengths date.year).take (date.month - 1)).sum +
        (secondsPerDay * (date.day - 1) + date.secondOfDay) := by
    unfold Calendar.Date.secondOfYear Calendar.Date.dayOfYear
    rw [← secondsPerDay_eq, Nat.mul_add, Nat.add_assoc]
  have hrest : secondsPerDay * (date.day - 1) + date.secondOfDay <
      secondsPerDay * (Calendar.monthLengths date.year).getD (date.month - 1) 0 := by
    have hmul : secondsPerDay * (date.day - 1 + 1) <=
        secondsPerDay * (Calendar.monthLengths date.year).getD (date.month - 1) 0 :=
      Nat.mul_le_mul_left _ hday
    rw [Nat.mul_add] at hmul
    lia
  have hmonth : 1 + (date.month - 1) = date.month := Nat.add_sub_cancel' date.month_pos
  rw [hsplit, months_in_table 1 hrest, hmonth]

theorem clock_date (date : Date) :
    let seconds := secondsPerDay * (date.day - 1) + date.secondOfDay
    seconds / secondsPerDay + 1 = date.day ∧
      seconds % secondsPerDay / secondsPerHour = date.hour ∧
      seconds % secondsPerDay % secondsPerHour / secondsPerMinute = date.minute ∧
      seconds % secondsPerDay % secondsPerHour % secondsPerMinute = date.second := by
  have hday := date.day_pos
  have hhour := date.hour_lt
  have hminute := date.minute_lt
  have hsecond := date.second_lt
  unfold Calendar.Date.secondOfDay secondsPerDay secondsPerHour secondsPerMinute
  intro seconds
  have hseconds : seconds = 86400 * (date.day - 1) +
      ((date.hour * 60 + date.minute) * 60 + date.second) := rfl
  refine ⟨?_, ?_, ?_, ?_⟩ <;> lia

theorem day_le_31 (date : Date) : date.day <= 31 := by
  have hle := date.day_le
  have hmonth := date.month_le
  have hall : forall length, length ∈ Calendar.monthLengths date.year -> length <= 31 := by
    unfold Calendar.monthLengths
    cases Calendar.isLeap date.year <;> decide
  have hlt : date.month - 1 < (Calendar.monthLengths date.year).length := by
    show date.month - 1 < 12
    lia
  rw [List.getD_eq_getElem _ _ hlt] at hle
  exact Nat.le_trans hle (hall _ (List.getElem_mem hlt))

/-- A loop that ends at the year of a date leads to the text of the date. -/
theorem converted {profile : Profile} {date : Date} {fuel timestamp : Nat}
    (hfour : date.year < 10 ^ 4)
    (hrun : (years profile).run fuel (entered timestamp) =
      some (.ok (arrived date.year date.secondOfYear date.year))) :
    parseTimestamp profile fuel timestamp = some (.ok (dateText date)) := by
  have hyear := date.year_ge
  have hepoch : unixEpochYear = 1970 := rfl
  have hmonth := date.month_le
  have hday := day_le_31 date
  have hhour := date.hour_lt
  have hminute := date.minute_lt
  have hsecond := date.second_lt
  have hyearText : toString date.year = Text.numeral 10 4 date.year :=
    (Text.numeral_eq_toString (show 10 ^ 3 <= date.year by lia) (by lia)).symm
  rcases clock_date date with ⟨hclockDay, hclockHour, hclockMinute, hclockSecond⟩
  unfold entered at hrun
  unfold parseTimestamp
  rw [hrun]
  simp only [Option.map_some, Outcome.ok_bind, monthTable_eq, arrived_last]
  have hlastYear : (arrived date.year date.secondOfYear date.year).year = date.year := rfl
  rw [hlastYear, months_date, Outcome.ok_bind]
  simp only [hclockDay, hclockHour, hclockMinute, hclockSecond]
  rw [twoDigits_eq (show date.month < 100 by lia), twoDigits_eq (show date.day < 100 by lia),
    twoDigits_eq (show date.hour < 100 by lia), twoDigits_eq (show date.minute < 100 by lia),
    twoDigits_eq (show date.second < 100 by lia), hyearText]
  rfl

theorem behind_table {profile : Profile} {date : Date} {fuel timestamp : Nat}
    (h : unixEpochYear < date.year)
    (hrun : (years profile).run fuel (entered timestamp) =
      some (.ok (arrived date.year date.secondOfYear (date.year - 1)))) :
    parseTimestamp profile fuel timestamp = some (.error .indexOutOfBounds) := by
  unfold entered at hrun
  unfold parseTimestamp
  rw [hrun]
  simp only [Option.map_some, Outcome.ok_bind, monthTable_eq]
  have hlastYear : (arrived date.year date.secondOfYear (date.year - 1)).year =
      date.year - 1 := rfl
  have hsum : secondsPerDay * (Calendar.monthLengths (date.year - 1)).sum <=
      (arrived date.year date.secondOfYear (date.year - 1)).seconds := by
    rw [Calendar.monthLengths_sum, arrived_before_last _ h]
    exact Nat.le_add_right _ _
  rw [hlastYear, months_behind_table 1 hsum]
  rfl

theorem overflowed {profile : Profile} {fuel timestamp : Nat} {p : Panic}
    (hrun : (years profile).run fuel (entered timestamp) = some (.error p)) :
    parseTimestamp profile fuel timestamp = some (.error p) := by
  unfold entered at hrun
  unfold parseTimestamp
  rw [hrun]
  rfl

theorem parseTimestamp_unique {profile : Profile} {fuel fuel' timestamp : Nat}
    {result result' : Outcome String}
    (h : parseTimestamp profile fuel timestamp = some result)
    (h' : parseTimestamp profile fuel' timestamp = some result') : result = result' := by
  rcases Option.map_eq_some_iff.mp h with ⟨years, hrun, hresult⟩
  rcases Option.map_eq_some_iff.mp h' with ⟨years', hrun', hresult'⟩
  rw [← hresult, ← hresult', Loop.run_unique hrun hrun']

theorem not_early_of_late {date : Date} (h : Late date) : Not (Early date) := by
  have hday : 0 < secondsPerDay := by
    unfold secondsPerDay secondsPerHour secondsPerMinute
    lia
  rintro ⟨hlater, ⟨_, _, hzero⟩ | ⟨_, hshort⟩⟩ <;>
    rcases h with ⟨hfirst, hne⟩ | ⟨_, _, hlong⟩ <;> lia

section Cases

variable {date : Date}

theorem parseTimestamp_undisturbed (profile : Profile) (hfour : date.year < 10 ^ 4)
    (h : Undisturbed date) :
    parseTimestamp profile (1 + (date.year - unixEpochYear)) date.toSeconds =
      some (.ok (dateText date)) := by
  rcases (undisturbed_iff date).mp h with ⟨hreaches, hstops⟩
  apply converted hfour
  rw [← arrived_epoch]
  exact years_complete (Nat.le_refl _) date.year_ge (by lia) hreaches hstops

theorem parseTimestamp_early (profile : Profile) (hfour : date.year < 10 ^ 4) (h : Early date) :
    parseTimestamp profile (1 + (date.year - 1 - unixEpochYear)) date.toSeconds =
      some (.error .indexOutOfBounds) := by
  have hlater := h.1
  have hreaches : Not (Reaches date.year date.secondOfYear) :=
    fun hreaches => reaches_iff.mp hreaches h
  apply behind_table (show unixEpochYear < date.year by lia)
  rw [← arrived_epoch]
  exact years_early (Nat.le_refl _) (by lia) (by lia) hreaches

theorem parseTimestamp_late (hfour : date.year < 10 ^ 4) (h : Late date) :
    parseTimestamp .dev (1 + (date.year - unixEpochYear)) date.toSeconds =
      some (.error .arithmeticOverflow) := by
  have hstops : Not (Stops date.year date.secondOfYear) := fun hstops => stops_iff.mp hstops h
  apply overflowed
  rw [← arrived_epoch]
  exact years_late (Nat.le_refl _) date.year_ge (by lia) date.secondOfYear_lt
    (reaches_iff.mpr (not_early_of_late h)) hstops

end Cases

/-- Every timestamp of 32 bits belongs to one date, and is converted to the text of that
date in both build profiles if and only if the date is undisturbed. -/
theorem parseTimestamp_iff {timestamp : Nat} (h : timestamp < 2 ^ 32) :
    exists date : Date, date.toSeconds = timestamp ∧
      (forall other : Date, other.toSeconds = timestamp -> other = date) ∧
      ((forall profile, exists fuel,
          parseTimestamp profile fuel timestamp = some (.ok (dateText date))) <->
        Undisturbed date) := by
  rcases Calendar.Date.exists_toSeconds unixEpochYear timestamp with ⟨date, hdate⟩
  rw [← hdate] at h ⊢
  have hyear := year_bounds h
  have hfour : date.year < 10 ^ 4 := by lia
  refine ⟨date, rfl, fun other hother => Calendar.Date.toSeconds_injective hother, ?_⟩
  constructor
  · intro hconverted
    rcases hconverted .dev with ⟨fuel, hfuel⟩
    rw [undisturbed_iff_prompt]
    constructor
    · intro hearly
      cases parseTimestamp_unique hfuel (parseTimestamp_early .dev hfour hearly)
    · intro hlate
      cases parseTimestamp_unique hfuel (parseTimestamp_late hfour hlate)
  · intro hdate profile
    exact ⟨_, parseTimestamp_undisturbed profile hfour hdate⟩

theorem parseTimestamp_iff_sample : exists date : Date, date.toSeconds = 31536000 ∧
    (forall other : Date, other.toSeconds = 31536000 -> other = date) ∧
    ((forall profile, exists fuel,
        parseTimestamp profile fuel 31536000 = some (.ok (dateText date))) <->
      Undisturbed date) :=
  parseTimestamp_iff (by lia)

/-- One second after the epoch the conversion overflows, or gives a date of another century
where overflows wrap; the first second of 1972 runs out of months. -/
theorem one_second_disturbed :
    Not (exists fuel text, parseTimestamp .dev fuel 1 = some (.ok text)) ∧
      parseTimestamp .release 137 1 = some (.ok "2106-02-07 06:28:17") ∧
      parseTimestamp .dev 3 63072000 = some (.error .indexOutOfBounds) := by
  have hdev : parseTimestamp .dev 2 1 = some (.error .arithmeticOverflow) := rfl
  refine ⟨?_, by decide +kernel, by decide +kernel⟩
  intro h
  rcases h with ⟨fuel, text, hok⟩
  cases parseTimestamp_unique hok hdev

end File

end Initrd

end NeurOS
