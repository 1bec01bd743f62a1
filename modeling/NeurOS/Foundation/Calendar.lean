import Mathlib.Data.List.GetD
import Mathlib.Data.List.Range
import Mathlib.Algebra.Ring.Nat

/-!
# The Gregorian calendar

Dates with a time of day, counted in seconds from the first instant of an epoch
year.  Every number of seconds is the instant of exactly one date: a number is
split over the lengths of the years, then over the lengths of the months.
-/

namespace Foundation

namespace Calendar

/-!
# Splitting a number over a list of lengths
-/

theorem exists_position {lengths : List Nat} {n : Nat} (h : n < lengths.sum) :
    exists i r, r < lengths.getD i 0 ∧ (lengths.take i).sum + r = n := by
  induction lengths generalizing n with
  | nil => cases h
  | cons length rest ih =>
      by_cases hlt : n < length
      · exact ⟨0, n, hlt, by simp⟩
      · rw [List.sum_cons] at h
        rcases ih (show n - length < rest.sum by lia) with ⟨i, r, hr, hsum⟩
        refine ⟨i + 1, r, hr, ?_⟩
        rw [List.take_succ_cons, List.sum_cons]
        lia

theorem position_lt {lengths : List Nat} {i r : Nat} (h : r < lengths.getD i 0) :
    (lengths.take i).sum + r < lengths.sum := by
  induction lengths generalizing i with
  | nil => simp at h
  | cons length rest ih =>
      cases i with
      | zero =>
          have hlt : r < length := h
          rw [List.take_zero, List.sum_nil, List.sum_cons]
          lia
      | succ i =>
          rw [List.take_succ_cons, List.sum_cons, List.sum_cons]
          have hrest := ih (i := i) h
          lia

theorem position_unique {lengths : List Nat} {i j r s : Nat} (hr : r < lengths.getD i 0)
    (hs : s < lengths.getD j 0)
    (h : (lengths.take i).sum + r = (lengths.take j).sum + s) : i = j ∧ r = s := by
  induction lengths generalizing i j with
  | nil => simp at hr
  | cons length rest ih =>
      cases i with
      | zero =>
          cases j with
          | zero => exact ⟨rfl, by simpa using h⟩
          | succ j =>
              have hlt : r < length := hr
              rw [List.take_zero, List.take_succ_cons, List.sum_cons] at h
              simp only [List.sum_nil] at h
              lia
      | succ i =>
          cases j with
          | zero =>
              have hlt : s < length := hs
              rw [List.take_zero, List.take_succ_cons, List.sum_cons] at h
              simp only [List.sum_nil] at h
              lia
          | succ j =>
              rw [List.take_succ_cons, List.take_succ_cons, List.sum_cons, List.sum_cons] at h
              rcases ih hr hs (by lia) with ⟨hij, hrs⟩
              exact ⟨by rw [hij], hrs⟩

/-!
# Years and months
-/

def isLeap (year : Nat) : Bool :=
  year % 4 == 0 && (year % 100 != 0 || year % 400 == 0)

def yearLength (year : Nat) : Nat :=
  if isLeap year then 366 else 365

def monthLengths (year : Nat) : List Nat :=
  [31, if isLeap year then 29 else 28, 31, 30, 31, 30, 31, 31, 30, 31, 30, 31]

theorem monthLengths_sum (year : Nat) : (monthLengths year).sum = yearLength year := by
  unfold monthLengths yearLength
  cases isLeap year <;> rfl

theorem yearLength_cases (year : Nat) :
    (isLeap year = true ∧ yearLength year = 366) ∨
    (isLeap year = false ∧ yearLength year = 365) := by
  unfold yearLength
  cases isLeap year with
  | true => exact Or.inl ⟨rfl, rfl⟩
  | false => exact Or.inr ⟨rfl, rfl⟩

theorem yearLength_bounds (year : Nat) : 365 <= yearLength year ∧ yearLength year <= 366 := by
  rcases yearLength_cases year with ⟨_, hlength⟩ | ⟨_, hlength⟩ <;>
    exact ⟨by lia, by lia⟩

theorem yearLength_common {year : Nat} (h : isLeap year = false) : yearLength year = 365 := by
  simp [yearLength, h]

theorem not_isLeap_succ {year : Nat} (h : isLeap year = true) :
    isLeap (year + 1) = false := by
  simp only [isLeap, Bool.and_eq_true, beq_iff_eq] at h
  simp only [isLeap, Bool.and_eq_false_iff, beq_eq_false_iff_ne]
  left
  lia

def yearLengths (epoch count : Nat) : List Nat :=
  (List.range' epoch count).map yearLength

def daysBefore (epoch year : Nat) : Nat :=
  (yearLengths epoch (year - epoch)).sum

@[simp] theorem daysBefore_self (epoch : Nat) : daysBefore epoch epoch = 0 := by
  simp [daysBefore, yearLengths]

theorem daysBefore_succ {epoch year : Nat} (h : epoch <= year) :
    daysBefore epoch (year + 1) = daysBefore epoch year + yearLength year := by
  have hcount : year + 1 - epoch = (year - epoch) + 1 := by lia
  have hyear : epoch + (year - epoch) = year := by lia
  unfold daysBefore yearLengths
  rw [hcount, List.range'_1_concat, List.map_append, List.sum_append, hyear]
  simp

theorem daysBefore_le {epoch year last : Nat} (hyear : epoch <= year) (h : year <= last) :
    daysBefore epoch year <= daysBefore epoch last := by
  induction last, h using Nat.le_induction with
  | base => exact Nat.le_refl _
  | succ last hle ih =>
      rw [daysBefore_succ (Nat.le_trans hyear hle)]
      exact Nat.le_trans ih (Nat.le_add_right _ _)

theorem take_yearLengths {epoch count i : Nat} (h : i <= count) :
    ((yearLengths epoch count).take i).sum = daysBefore epoch (epoch + i) := by
  unfold daysBefore yearLengths
  rw [← List.map_take, List.take_range'_of_length_ge h, Nat.add_sub_cancel_left]

theorem getD_yearLengths {epoch count i : Nat} (h : i < count) :
    (yearLengths epoch count).getD i 0 = yearLength (epoch + i) := by
  simp [yearLengths, h]

theorem daysBefore_add_ge {epoch year : Nat} (h : epoch <= year) (count : Nat) :
    daysBefore epoch year + 365 * count <= daysBefore epoch (year + count) := by
  induction count with
  | zero => simp
  | succ count ih =>
      rw [← Nat.add_assoc, daysBefore_succ (Nat.le_add_right_of_le h)]
      rcases yearLength_cases (year + count) with ⟨_, hlength⟩ | ⟨_, hlength⟩ <;> lia

theorem daysBefore_ge (epoch count : Nat) :
    365 * count <= daysBefore epoch (epoch + count) := by
  have hge := daysBefore_add_ge (Nat.le_refl epoch) count
  rw [daysBefore_self, Nat.zero_add] at hge
  exact hge

theorem daysBefore_pairs {epoch year : Nat} (h : epoch <= year) (count : Nat) :
    daysBefore epoch (year + 2 * count) <= daysBefore epoch year + 731 * count := by
  induction count with
  | zero => simp
  | succ count ih =>
      have hpair : yearLength (year + 2 * count) + yearLength (year + 2 * count + 1) <= 731 := by
        rcases yearLength_cases (year + 2 * count) with ⟨hleap, hlength⟩ | ⟨_, hlength⟩
        · rw [hlength, yearLength_common (not_isLeap_succ hleap)]
        · have hbounds := yearLength_bounds (year + 2 * count + 1)
          lia
      rw [show year + 2 * (count + 1) = year + 2 * count + 1 + 1 by lia,
        daysBefore_succ (by lia), daysBefore_succ (by lia)]
      lia

theorem exists_year (epoch n : Nat) :
    exists year r, epoch <= year ∧ r < yearLength year ∧ daysBefore epoch year + r = n := by
  have hbound : n < (yearLengths epoch (n + 1)).sum := by
    have hge := daysBefore_ge epoch (n + 1)
    unfold daysBefore at hge
    rw [Nat.add_sub_cancel_left] at hge
    lia
  rcases exists_position hbound with ⟨i, r, hr, hsum⟩
  have hi : i < n + 1 := by
    by_contra hge
    rw [List.getD_eq_default _ _ (by simpa [yearLengths] using hge)] at hr
    cases hr
  rw [getD_yearLengths hi] at hr
  rw [take_yearLengths (by lia)] at hsum
  exact ⟨epoch + i, r, by lia, hr, hsum⟩

theorem year_unique {epoch year other r s : Nat} (hyear : epoch <= year)
    (hother : epoch <= other) (hr : r < yearLength year) (hs : s < yearLength other)
    (h : daysBefore epoch year + r = daysBefore epoch other + s) : year = other ∧ r = s := by
  let count := year - epoch + (other - epoch) + 1
  have hgetYear : (yearLengths epoch count).getD (year - epoch) 0 = yearLength year := by
    rw [getD_yearLengths (by lia), Nat.add_sub_cancel' hyear]
  have hgetOther : (yearLengths epoch count).getD (other - epoch) 0 = yearLength other := by
    rw [getD_yearLengths (by lia), Nat.add_sub_cancel' hother]
  have htakeYear : ((yearLengths epoch count).take (year - epoch)).sum =
      daysBefore epoch year := by
    rw [take_yearLengths (by lia), Nat.add_sub_cancel' hyear]
  have htakeOther : ((yearLengths epoch count).take (other - epoch)).sum =
      daysBefore epoch other := by
    rw [take_yearLengths (by lia), Nat.add_sub_cancel' hother]
  rw [← hgetYear] at hr
  rw [← hgetOther] at hs
  rw [← htakeYear, ← htakeOther] at h
  rcases position_unique hr hs h with ⟨hindex, hrest⟩
  exact ⟨by lia, hrest⟩

/-!
# Dates
-/

def secondsPerDay : Nat := 86400

/-- A valid date with a time of day. -/
structure Date (epoch : Nat) where
  year : Nat
  month : Nat
  day : Nat
  hour : Nat
  minute : Nat
  second : Nat
  year_ge : epoch <= year
  month_pos : 1 <= month
  month_le : month <= 12
  day_pos : 1 <= day
  day_le : day <= (monthLengths year).getD (month - 1) 0
  hour_lt : hour < 24
  minute_lt : minute < 60
  second_lt : second < 60
  deriving DecidableEq, Repr

namespace Date

variable {epoch : Nat}

def dayOfYear (date : Date epoch) : Nat :=
  ((monthLengths date.year).take (date.month - 1)).sum + (date.day - 1)

def secondOfDay (date : Date epoch) : Nat :=
  (date.hour * 60 + date.minute) * 60 + date.second

def secondOfYear (date : Date epoch) : Nat :=
  secondsPerDay * date.dayOfYear + date.secondOfDay

def toSeconds (date : Date epoch) : Nat :=
  secondsPerDay * daysBefore epoch date.year + date.secondOfYear

theorem day_offset_lt (date : Date epoch) :
    date.day - 1 < (monthLengths date.year).getD (date.month - 1) 0 := by
  have hpos := date.day_pos
  have hle := date.day_le
  lia

theorem secondOfDay_lt (date : Date epoch) : date.secondOfDay < secondsPerDay := by
  have hhour := date.hour_lt
  have hminute := date.minute_lt
  have hsecond := date.second_lt
  unfold secondOfDay secondsPerDay
  lia

theorem dayOfYear_lt (date : Date epoch) : date.dayOfYear < yearLength date.year := by
  have hlt := position_lt date.day_offset_lt
  rw [monthLengths_sum] at hlt
  exact hlt

theorem secondOfYear_lt (date : Date epoch) :
    date.secondOfYear < secondsPerDay * yearLength date.year := by
  have hday := date.dayOfYear_lt
  have hsecond := date.secondOfDay_lt
  unfold secondOfYear
  unfold secondsPerDay at *
  lia

theorem toSeconds_injective {first second : Date epoch}
    (h : first.toSeconds = second.toSeconds) : first = second := by
  have hsecondFirst := first.secondOfDay_lt
  have hsecondSecond := second.secondOfDay_lt
  unfold toSeconds secondOfYear at h
  have hdays : daysBefore epoch first.year + first.dayOfYear =
      daysBefore epoch second.year + second.dayOfYear := by
    unfold secondsPerDay at *
    lia
  have htime : first.secondOfDay = second.secondOfDay := by
    unfold secondsPerDay at *
    lia
  rcases year_unique first.year_ge second.year_ge first.dayOfYear_lt second.dayOfYear_lt
    hdays with ⟨hyear, hday⟩
  have hoffset := second.day_offset_lt
  rw [← hyear] at hoffset
  unfold dayOfYear at hday
  rw [← hyear] at hday
  rcases position_unique first.day_offset_lt hoffset hday with ⟨hmonth, hinMonth⟩
  have hmonthFirst := first.month_pos
  have hmonthSecond := second.month_pos
  have hdayFirst := first.day_pos
  have hdaySecond := second.day_pos
  have hminuteFirst := first.minute_lt
  have hminuteSecond := second.minute_lt
  have hclockFirst := first.second_lt
  have hclockSecond := second.second_lt
  unfold secondOfDay at htime
  cases first
  cases second
  simp only at *
  congr 1 <;> lia

theorem exists_toSeconds (epoch n : Nat) : exists date : Date epoch, date.toSeconds = n := by
  rcases exists_year epoch (n / secondsPerDay) with ⟨year, r, hyear, hr, hdays⟩
  rw [← monthLengths_sum] at hr
  rcases exists_position hr with ⟨i, d, hd, hmonth⟩
  have hi : i < 12 := by
    by_contra hge
    rw [List.getD_eq_default _ _ (by simpa [monthLengths] using hge)] at hd
    cases hd
  let clock := n % secondsPerDay
  have hclock : clock < secondsPerDay := Nat.mod_lt n (by simp [secondsPerDay])
  refine ⟨{ year := year, month := i + 1, day := d + 1, hour := clock / 3600,
            minute := clock % 3600 / 60, second := clock % 60, year_ge := hyear,
            month_pos := by lia, month_le := by lia, day_pos := by lia,
            day_le := hd,
            hour_lt := by unfold secondsPerDay at hclock; lia,
            minute_lt := by lia, second_lt := by lia }, ?_⟩
  have hsplit : secondsPerDay * (n / secondsPerDay) + n % secondsPerDay = n :=
    Nat.div_add_mod n secondsPerDay
  simp only [toSeconds, secondOfYear, dayOfYear, secondOfDay, Nat.add_sub_cancel]
  rw [hmonth]
  have htime : (clock / 3600 * 60 + clock % 3600 / 60) * 60 + clock % 60 = clock := by
    lia
  rw [htime, ← Nat.add_assoc, ← Nat.mul_add, hdays]
  exact hsplit

end Date

end Calendar

end Foundation
