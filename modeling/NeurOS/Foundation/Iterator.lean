import NeurOS.Foundation.Outcome
import Mathlib.Data.List.Nodup
import Mathlib.Data.List.Range

/-!
# Iterators

Stepped ranges, lazy sequences whose items may panic when they are reached, and
the pattern of a supply that hands out the next item of a fixed sequence at each
call.
-/

namespace Foundation

namespace Iterator

/-!
# Stepped ranges
-/

/-- The values {lit}`start, start + step, …` below {lit}`stop`. -/
def stepBy (start stop step : Nat) : List Nat :=
  (List.range ((stop - start + (step - 1)) / step)).map (fun k => start + step * k)

theorem mem_stepBy_iff {start stop step x : Nat} (hstep : 0 < step) :
    x ∈ stepBy start stop step <-> exists k, x = start + step * k ∧ x < stop := by
  unfold stepBy
  rw [List.mem_map]
  constructor
  · intro h
    rcases h with ⟨k, hk, hx⟩
    refine ⟨k, hx.symm, ?_⟩
    have hlt : k + 1 <= (stop - start + (step - 1)) / step := List.mem_range.mp hk
    have hmul : (k + 1) * step <= stop - start + (step - 1) :=
      (Nat.le_div_iff_mul_le hstep).mp hlt
    rw [Nat.add_mul, Nat.mul_comm k step] at hmul
    lia
  · intro h
    rcases h with ⟨k, hx, hlt⟩
    refine ⟨k, ?_, hx.symm⟩
    apply List.mem_range.mpr
    show k + 1 <= (stop - start + (step - 1)) / step
    apply (Nat.le_div_iff_mul_le hstep).mpr
    rw [Nat.add_mul, Nat.mul_comm k step]
    lia

theorem stepBy_nodup (start stop : Nat) {step : Nat} (hstep : 0 < step) :
    (stepBy start stop step).Nodup := by
  unfold stepBy
  apply List.Nodup.map _ List.nodup_range
  intro a b hab
  have hmul : step * a = step * b := Nat.add_left_cancel hab
  exact Nat.eq_of_mul_eq_mul_left hstep hmul

theorem stepBy_empty {start stop step : Nat} (hstep : 0 < step) (h : stop <= start) :
    stepBy start stop step = [] := by
  have hcount : (stop - start + (step - 1)) / step = 0 := Nat.div_eq_of_lt (by lia)
  unfold stepBy
  rw [hcount]
  rfl

theorem stepBy_cons {start stop step : Nat} (hstep : 0 < step) (h : start < stop) :
    stepBy start stop step = start :: stepBy (start + step) stop step := by
  have hcount : (stop - start + (step - 1)) / step =
      (stop - (start + step) + (step - 1)) / step + 1 := by
    by_cases hle : start + step <= stop
    · have hsplit : stop - start + (step - 1) = stop - (start + step) + (step - 1) + step := by
        lia
      rw [hsplit, Nat.add_div_right _ hstep]
    · have hnone : (stop - (start + step) + (step - 1)) / step = 0 := Nat.div_eq_of_lt (by lia)
      have hsplit : stop - start + (step - 1) = stop - start - 1 + step := by lia
      rw [hnone, hsplit, Nat.add_div_right _ hstep, Nat.div_eq_of_lt (by lia)]
  unfold stepBy
  rw [hcount, List.range_succ_eq_map, List.map_cons, List.map_map, Nat.mul_zero, Nat.add_zero]
  congr 1
  apply List.map_congr_left
  intro k _
  show start + step * (k + 1) = start + step + step * k
  rw [Nat.mul_add, Nat.mul_one]
  lia

/-!
# Sequences with panicking items
-/

/-- The item number {lit}`n` of a lazy sequence: every item up to it is computed. -/
def nth : List (Outcome α) -> Nat -> Outcome (Option α)
  | [], _ => .ok none
  | item :: _, 0 => do
      let value ← item
      .ok (some value)
  | item :: rest, n + 1 => do
      let _ ← item
      nth rest n

theorem nth_map_ok (values : List α) (n : Nat) :
    nth (values.map .ok) n = .ok values[n]? := by
  induction values generalizing n with
  | nil => rfl
  | cons value rest ih =>
      cases n with
      | zero => rfl
      | succ n =>
          show nth (rest.map .ok) n = _
          rw [ih n]
          rfl

/-!
# Supplies

The answers of a supply that starts at some item of a sequence and hands out one
item for each call.
-/

def supply (values : List α) (start calls : Nat) : List (Option α) :=
  (List.range calls).map (fun i => values[start + i]?)

@[simp] theorem supply_length (values : List α) (start calls : Nat) :
    (supply values start calls).length = calls := by
  simp [supply]

theorem supply_getElem? {values : List α} {start calls i : Nat} (h : i < calls) :
    (supply values start calls)[i]? = some values[start + i]? := by
  simp [supply, h]

theorem supply_succ (values : List α) (start calls : Nat) :
    supply values start (calls + 1) =
      values[start]? :: supply values (start + 1) calls := by
  unfold supply
  rw [List.range_succ_eq_map, List.map_cons, List.map_map]
  congr 1
  apply List.map_congr_left
  intro i _
  show values[start + (i + 1)]? = values[start + 1 + i]?
  congr 1
  lia

theorem supply_eq_map_some {values : List α} {start calls : Nat}
    (h : start + calls <= values.length) :
    supply values start calls = ((values.drop start).take calls).map some := by
  apply List.ext_getElem?
  intro i
  by_cases hi : i < calls
  · have hget : start + i < values.length := by lia
    rw [supply_getElem? hi]
    simp [hi, List.getElem?_eq_getElem hget]
  · rw [List.getElem?_eq_none (by simp; lia), List.getElem?_eq_none (by simp; lia)]

theorem supply_distinct {values : List α} {start calls i j : Nat} {a : α}
    (hnodup : values.Nodup) (hij : i < j)
    (hi : (supply values start calls)[i]? = some (some a))
    (hj : (supply values start calls)[j]? = some (some a)) : False := by
  have hjlt : j < calls := by
    simpa using (List.getElem?_eq_some_iff.mp hj).1
  rw [supply_getElem? (by lia)] at hi
  rw [supply_getElem? hjlt] at hj
  injection hi with hi
  injection hj with hj
  have hlt : start + i < values.length := (List.getElem?_eq_some_iff.mp hi).1
  have heq : start + i = start + j :=
    (List.getElem?_inj hlt hnodup).mp (hi.trans hj.symm)
  lia

theorem mem_of_supply {values : List α} {start calls : Nat} {a : α}
    (h : some a ∈ supply values start calls) : a ∈ values := by
  unfold supply at h
  rcases List.mem_map.mp h with ⟨i, _, hi⟩
  exact List.mem_of_getElem? hi

theorem supply_none_stays {values : List α} {start calls i j : Nat} (hij : i <= j)
    (hj : j < calls) (hi : (supply values start calls)[i]? = some none) :
    (supply values start calls)[j]? = some none := by
  rw [supply_getElem? (by lia)] at hi
  rw [supply_getElem? hj]
  injection hi with hi
  have hlen : values.length <= start + i := List.getElem?_eq_none_iff.mp hi
  rw [List.getElem?_eq_none (by lia)]

theorem supply_none_iff {values : List α} {calls i : Nat} (hnodup : values.Nodup)
    (hi : i < calls) :
    (supply values 0 calls)[i]? = some none <->
      forall a, a ∈ values -> some a ∈ (supply values 0 calls).take i := by
  rw [supply_getElem? hi, Nat.zero_add]
  constructor
  · intro hnone a ha
    injection hnone with hnone
    have hlen : values.length <= i := List.getElem?_eq_none_iff.mp hnone
    rcases List.getElem?_of_mem ha with ⟨k, hk⟩
    have hlt : k < values.length := (List.getElem?_eq_some_iff.mp hk).1
    apply List.mem_of_getElem? (i := k)
    rw [List.getElem?_take_of_lt (by lia), supply_getElem? (by lia), Nat.zero_add, hk]
  · intro hall
    cases hget : values[i]? with
    | none => rfl
    | some a =>
        exfalso
        have hmem := hall a (List.mem_of_getElem? hget)
        rcases List.getElem?_of_mem hmem with ⟨k, hk⟩
        have hki : k < i := by
          have hlt := (List.getElem?_eq_some_iff.mp hk).1
          simp only [List.length_take, supply_length] at hlt
          lia
        rw [List.getElem?_take_of_lt hki] at hk
        apply supply_distinct hnodup hki hk
        rw [supply_getElem? hi, Nat.zero_add, hget]

end Iterator

end Foundation
