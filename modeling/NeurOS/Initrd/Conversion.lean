import NeurOS.Initrd.Timestamp

/-!
# The end of every conversion

Where overflows wrap, a date behind which the loop goes on leads on to the date
{lit}`2 ^ 32` seconds later.  The second of two such dates in a row is never followed
by a third, so every conversion ends.
-/

namespace NeurOS

open Foundation

namespace Initrd

namespace File

/-!
# Timestamps that end with a text
-/

/-- The conversion ends at an undisturbed date, or at one that wrapping leads to. -/
inductive Settles : Nat -> Prop where
  | undisturbed {date : Date} : Undisturbed date -> Settles date.toSeconds
  | wraps {date : Date} : Late date -> Settles (date.toSeconds + 2 ^ 32) ->
      Settles date.toSeconds

def Converts : Profile -> Nat -> Prop
  | .dev, timestamp => exists date : Date, date.toSeconds = timestamp ∧ Undisturbed date
  | .release, timestamp => Settles timestamp

theorem not_settles_of_early {date : Date} (h : Early date) : Not (Settles date.toSeconds) := by
  intro hsettles
  generalize hseconds : date.toSeconds = timestamp at hsettles
  cases hsettles with
  | undisturbed hdate =>
      have hsame := Calendar.Date.toSeconds_injective hseconds
      rw [← hsame, undisturbed_iff_prompt] at hdate
      exact hdate.1 h
  | wraps hlate _ =>
      have hsame := Calendar.Date.toSeconds_injective hseconds
      rw [← hsame] at hlate
      exact not_early_of_late hlate h

theorem settles_wraps_iff {date : Date} (h : Late date) :
    Settles date.toSeconds <-> Settles (date.toSeconds + 2 ^ 32) := by
  constructor
  · intro hsettles
    generalize hseconds : date.toSeconds = timestamp at hsettles ⊢
    cases hsettles with
    | undisturbed hdate =>
        have hsame := Calendar.Date.toSeconds_injective hseconds
        rw [← hsame, undisturbed_iff_prompt] at hdate
        exact absurd h hdate.2
    | wraps _ hlater => exact hlater
  · exact .wraps h

/-!
# The loop where overflows wrap
-/

theorem year_bound {date : Date} {bound : Nat}
    (h : date.toSeconds < Calendar.secondsPerDay * (365 * bound)) :
    date.year < unixEpochYear + bound := by
  have hge := date.year_ge
  have hdays := Calendar.daysBefore_ge unixEpochYear (date.year - unixEpochYear)
  rw [Nat.add_sub_cancel' hge] at hdays
  unfold Calendar.Date.toSeconds Calendar.secondsPerDay at h
  lia

section Wraps

variable {date next : Date} {first : Nat}

theorem year_of_later (h : next.toSeconds = date.toSeconds + 2 ^ 32) :
    date.year + 1 < next.year := by
  have hyear := date.year_ge
  have hfirst : daysBefore (date.year + 1) = daysBefore date.year +
      Calendar.yearLength date.year := Calendar.daysBefore_succ hyear
  have hsecond : daysBefore (date.year + 1 + 1) = daysBefore (date.year + 1) +
      Calendar.yearLength (date.year + 1) := Calendar.daysBefore_succ (by lia)
  have hlength := (Calendar.yearLength_bounds date.year).2
  have hlength' := (Calendar.yearLength_bounds (date.year + 1)).2
  have hrest := next.secondOfYear_lt
  have hnext := (Calendar.yearLength_bounds next.year).2
  by_contra hle
  have hdays : daysBefore next.year <= daysBefore (date.year + 1) :=
    Calendar.daysBefore_le next.year_ge (by lia)
  unfold Calendar.Date.toSeconds Calendar.secondsPerDay at h
  unfold Calendar.secondsPerDay at hrest
  unfold daysBefore at *
  lia

theorem years_wrap (hfirst : unixEpochYear <= first) (hle : first <= date.year)
    (hsmall : date.year + 1 < 2 ^ 32) (hlate : Late date)
    (hnext : next.toSeconds = date.toSeconds + 2 ^ 32) (fuel : Nat) :
    (years .release).run (fuel + 1 + (date.year - first))
        (arrived date.year date.secondOfYear first) =
      (years .release).run fuel (arrived next.year next.secondOfYear (date.year + 1)) := by
  have hreaches := reaches_iff.mpr (not_early_of_late hlate)
  have hstops : Not (Stops date.year date.secondOfYear) :=
    fun hstops => stops_iff.mp hstops hlate
  have hyear := date.year_ge
  have hdays : daysBefore (date.year + 1) = daysBefore date.year +
      Calendar.yearLength date.year := Calendar.daysBefore_succ hyear
  have hlater := year_of_later hnext
  have hmono : daysBefore (date.year + 1) <= daysBefore next.year :=
    Calendar.daysBefore_le (by lia) (Nat.le_of_lt hlater)
  have hseconds : 2 ^ 32 + date.secondOfYear - secondsPerDay * Calendar.yearLength date.year =
      secondsPerDay * (daysBefore next.year - daysBefore (date.year + 1)) +
        next.secondOfYear := by
    have hday : secondsPerDay = 86400 := rfl
    unfold Calendar.Date.toSeconds Calendar.secondsPerDay at hnext
    rw [hday]
    unfold daysBefore at *
    lia
  rw [years_reach hfirst hle (by lia) hreaches]
  rw [Loop.run_pass (guard_late hstops) (body_late date.secondOfYear_lt hsmall), hseconds,
    ← previous_succ hyear]
  rfl

end Wraps

theorem not_late_of_late {date next : Date} (hlater : unixEpochYear < date.year)
    (hnext : next.toSeconds = date.toSeconds + 2 ^ 32) (h : Late date) : Not (Late next) := by
  have hyears := year_of_later hnext
  have hrest := date.secondOfYear_lt
  have hrest' := next.secondOfYear_lt
  have hlength := (Calendar.yearLength_bounds date.year).2
  have hlength' := (Calendar.yearLength_bounds next.year).2
  have hday : secondsPerDay = 86400 := rfl
  have hcalendar : Calendar.secondsPerDay = 86400 := rfl
  rintro (⟨hfirst, _⟩ | ⟨_, _, hlong'⟩)
  · lia
  · rcases h with ⟨hfirst, _⟩ | ⟨_, _, hlong⟩
    · lia
    · unfold Calendar.Date.toSeconds at hnext
      rw [hcalendar] at hnext hrest hrest'
      rw [hday] at hlong hlong'
      rcases Nat.lt_or_ge (date.year + 136) next.year with hfar | hnear
      · have hdays := Calendar.daysBefore_add_ge date.year_ge (next.year - date.year)
        rw [Nat.add_sub_cancel' (by lia)] at hdays
        lia
      · have hdays : daysBefore next.year <= daysBefore (date.year + 2 * 68) :=
          Calendar.daysBefore_le next.year_ge hnear
        have hpairs := Calendar.daysBefore_pairs date.year_ge 68
        unfold daysBefore at *
        lia

/-!
# The outcome
-/

def yearPasses : Nat := 410

/-- A loop that ends does so at a date, or a year ahead of one. -/
structure Ended (fuel : Nat) (start : Years) (timestamp : Nat) (last : Date) : Prop where
  four : last.year < 10 ^ 4
  ends : (Settles timestamp ∧ (years .release).run fuel start =
      some (.ok (arrived last.year last.secondOfYear last.year))) ∨
    (Not (Settles timestamp) ∧ unixEpochYear < last.year ∧ (years .release).run fuel start =
      some (.ok (arrived last.year last.secondOfYear (last.year - 1))))

theorem ended_prompt {date : Date} {first fuel : Nat} (hfirst : unixEpochYear <= first)
    (hle : first <= date.year) (hahead : Early date -> first < date.year)
    (hfour : date.year < 10 ^ 4) (hlate : Not (Late date)) (hfuel : date.year - first < fuel) :
    Ended fuel (arrived date.year date.secondOfYear first) date.toSeconds date := by
  refine ⟨hfour, ?_⟩
  by_cases hearly : Early date
  · have hlater := hearly.1
    have hreaches : Not (Reaches date.year date.secondOfYear) :=
      fun hreaches => reaches_iff.mp hreaches hearly
    have hrun := @years_early .release _ _ _ hfirst (hahead hearly) (by lia) hreaches
    have hmore := Loop.run_more hrun (fuel - (1 + (date.year - 1 - first)))
    rw [Nat.add_sub_cancel' (by lia)] at hmore
    exact Or.inr ⟨not_settles_of_early hearly, by lia, hmore⟩
  · have hrun := @years_complete .release _ _ _ hfirst hle (by lia)
      (reaches_iff.mpr hearly) (stops_iff.mpr hlate)
    have hmore := Loop.run_more hrun (fuel - (1 + (date.year - first)))
    rw [Nat.add_sub_cancel' (by lia)] at hmore
    exact Or.inl ⟨.undisturbed ((undisturbed_iff_prompt date).mpr ⟨hearly, hlate⟩), hmore⟩

theorem ended_wraps {date next last : Date} {first fuel more : Nat}
    (hfirst : unixEpochYear <= first) (hle : first <= date.year) (hfour : date.year < 10 ^ 4)
    (hlate : Late date) (hnext : next.toSeconds = date.toSeconds + 2 ^ 32)
    (h : Ended fuel (arrived next.year next.secondOfYear (date.year + 1)) next.toSeconds last)
    (hfuel : more = 1 + (date.year - first) + fuel) :
    Ended more (arrived date.year date.secondOfYear first) date.toSeconds last where
  four := h.four
  ends := by
    have hends := h.ends
    have hpasses : more = fuel + 1 + (date.year - first) := by lia
    rw [hpasses, years_wrap hfirst hle (by lia) hlate hnext, settles_wraps_iff hlate, ← hnext]
    exact hends

theorem exists_ended {timestamp : Nat} (h : timestamp < 2 ^ 32) :
    exists last, Ended yearPasses (entered timestamp) timestamp last := by
  rcases Calendar.Date.exists_toSeconds unixEpochYear timestamp with ⟨date, hdate⟩
  rcases Calendar.Date.exists_toSeconds unixEpochYear (timestamp + 2 ^ 32) with ⟨next, hnext⟩
  rcases Calendar.Date.exists_toSeconds unixEpochYear (timestamp + 2 ^ 32 + 2 ^ 32) with
    ⟨third, hthird⟩
  have hepoch : unixEpochYear = 1970 := rfl
  have hyear : date.year < unixEpochYear + 137 := year_bound (by
    unfold Calendar.secondsPerDay
    lia)
  have hyear' : next.year < unixEpochYear + 273 := year_bound (by
    unfold Calendar.secondsPerDay
    lia)
  have hyear'' : third.year < unixEpochYear + 409 := year_bound (by
    unfold Calendar.secondsPerDay
    lia)
  have hge := date.year_ge
  rw [← hdate] at hnext hthird
  rw [← hnext] at hthird
  have hsecond := year_of_later hnext
  have hlast := year_of_later hthird
  rw [← hdate, ← arrived_epoch]
  by_cases hlate : Late date
  · have hpasses : 1 + (date.year - unixEpochYear) <= yearPasses := by
      unfold yearPasses
      lia
    rcases Nat.exists_eq_add_of_le hpasses with ⟨fuel, hfuel⟩
    have hrest : exists last, Ended fuel (arrived next.year next.secondOfYear (date.year + 1))
        next.toSeconds last := by
      unfold yearPasses at hfuel
      by_cases hlate' : Late next
      · have hprompt : Not (Late third) := not_late_of_late (by lia) hthird hlate'
        have hmore : 1 + (next.year - (date.year + 1)) <= fuel := by lia
        rcases Nat.exists_eq_add_of_le hmore with ⟨rest, hrest⟩
        have hended : Ended rest (arrived third.year third.secondOfYear (next.year + 1))
            third.toSeconds third :=
          ended_prompt (by lia) (by lia) (fun _ => hlast) (by lia) hprompt (by lia)
        exact ⟨third, ended_wraps (by lia) (by lia) (by lia) hlate' hthird hended hrest⟩
      · exact ⟨next, ended_prompt (by lia) (by lia) (fun _ => hsecond) (by lia) hlate' (by lia)⟩
    rcases hrest with ⟨last, hended⟩
    exact ⟨last, ended_wraps (Nat.le_refl _) hge (by lia) hlate hnext hended hfuel⟩
  · exact ⟨date, ended_prompt (Nat.le_refl _) hge (fun hearly => Nat.lt_of_succ_lt hearly.1)
      (by lia) hlate (by unfold yearPasses; lia)⟩

def convert (profile : Profile) (timestamp : Nat) : Outcome String :=
  (parseTimestamp profile yearPasses timestamp).getD (.error .indexOutOfBounds)

theorem convert_eq {profile : Profile} {fuel timestamp : Nat} {result : Outcome String}
    (hfuel : fuel <= yearPasses) (h : parseTimestamp profile fuel timestamp = some result) :
    parseTimestamp profile yearPasses timestamp = some (convert profile timestamp) ∧
      convert profile timestamp = result := by
  rcases Option.map_eq_some_iff.mp h with ⟨years, hrun, hresult⟩
  have hmore := Loop.run_more hrun (yearPasses - fuel)
  rw [Nat.add_sub_cancel' hfuel] at hmore
  have hparse : parseTimestamp profile yearPasses timestamp = some result := by
    unfold parseTimestamp
    rw [hmore, ← hresult]
    rfl
  have hconvert : convert profile timestamp = result := by
    unfold convert
    rw [hparse, Option.getD_some]
  exact ⟨by rw [hconvert, hparse], hconvert⟩

theorem convert_ends_dev {timestamp : Nat} (h : timestamp < 2 ^ 32) :
    parseTimestamp .dev yearPasses timestamp = some (convert .dev timestamp) ∧
      ((exists text, convert .dev timestamp = .ok text) <-> Converts .dev timestamp) := by
  rcases Calendar.Date.exists_toSeconds unixEpochYear timestamp with ⟨date, hdate⟩
  rw [← hdate] at h ⊢
  have hyear := year_bounds h
  have hepoch : unixEpochYear = 1970 := rfl
  have hpasses : yearPasses = 410 := rfl
  have hconverts : Converts .dev date.toSeconds <-> Undisturbed date := by
    constructor
    · rintro ⟨other, hother, hundisturbed⟩
      rw [← Calendar.Date.toSeconds_injective hother]
      exact hundisturbed
    · exact fun hundisturbed => ⟨date, rfl, hundisturbed⟩
  rw [hconverts, undisturbed_iff_prompt]
  by_cases hearly : Early date
  · rcases convert_eq (by lia) (parseTimestamp_early .dev (by lia) hearly) with ⟨hends, hpanic⟩
    refine ⟨hends, ?_⟩
    rw [hpanic]
    simp [hearly]
  · by_cases hlate : Late date
    · rcases convert_eq (by lia) (parseTimestamp_late (by lia) hlate) with ⟨hends, hpanic⟩
      refine ⟨hends, ?_⟩
      rw [hpanic]
      simp [hlate]
    · have hdisturbed := (undisturbed_iff_prompt date).mpr ⟨hearly, hlate⟩
      rcases convert_eq (by lia) (parseTimestamp_undisturbed .dev (by lia) hdisturbed) with
        ⟨hends, htext⟩
      refine ⟨hends, ?_⟩
      rw [htext]
      simp [hearly, hlate]

theorem convert_ends_release {timestamp : Nat} (h : timestamp < 2 ^ 32) :
    parseTimestamp .release yearPasses timestamp = some (convert .release timestamp) ∧
      ((exists text, convert .release timestamp = .ok text) <-> Converts .release timestamp) := by
  rcases exists_ended h with ⟨last, hended⟩
  rcases hended.ends with ⟨hsettles, hrun⟩ | ⟨hsettles, hlater, hrun⟩
  · rcases convert_eq (Nat.le_refl _) (converted hended.four hrun) with ⟨hends, htext⟩
    refine ⟨hends, ?_⟩
    rw [htext]
    simp [Converts, hsettles]
  · rcases convert_eq (Nat.le_refl _) (behind_table hlater hrun) with ⟨hends, hpanic⟩
    refine ⟨hends, ?_⟩
    rw [hpanic]
    simp [Converts, hsettles]

/-- Every conversion ends, and it ends with a text if and only if its timestamp leads to an
undisturbed date. -/
theorem convert_ends (profile : Profile) {timestamp : Nat} (h : timestamp < 2 ^ 32) :
    parseTimestamp profile yearPasses timestamp = some (convert profile timestamp) ∧
      ((exists text, convert profile timestamp = .ok text) <-> Converts profile timestamp) := by
  cases profile with
  | dev => exact convert_ends_dev h
  | release => exact convert_ends_release h

end File

end Initrd

end NeurOS
