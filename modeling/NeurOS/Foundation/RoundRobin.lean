import Mathlib.Data.List.Nodup
import Mathlib.Data.Option.Basic

/-!
# Round robin on a growing ring

The abstract purpose of a run queue: a ring of members of which the first one
has the turn.  A rotation passes the turn on, a join appends a newcomer behind
everybody.  The position law says that only rotations bring a member forward,
one place each, and that joins never do; waiting times and fairness follow.
-/

namespace Foundation

namespace RoundRobin

variable {α : Type}

inductive Event (α : Type) where
  | rotate
  | join (member : α)
  deriving DecidableEq, Repr

def step : List α -> Event α -> List α
  | [], .rotate => []
  | first :: rest, .rotate => rest ++ [first]
  | ring, .join member => ring ++ [member]

def run (ring : List α) (events : List (Event α)) : List α :=
  events.foldl step ring

def rotations : List (Event α) -> Nat
  | [] => 0
  | .rotate :: rest => rotations rest + 1
  | .join _ :: rest => rotations rest

def joined : List (Event α) -> List α
  | [] => []
  | .rotate :: rest => joined rest
  | .join member :: rest => member :: joined rest

/-- The member that each rotation gives the turn to. -/
def turns : List α -> List (Event α) -> List (Option α)
  | _, [] => []
  | ring, .rotate :: rest =>
      (step ring .rotate).head? :: turns (step ring .rotate) rest
  | ring, .join member :: rest => turns (step ring (.join member)) rest

@[simp] theorem run_nil (ring : List α) : run ring [] = ring := rfl

@[simp] theorem run_cons (ring : List α) (event : Event α)
    (rest : List (Event α)) :
    run ring (event :: rest) = run (step ring event) rest := rfl

theorem turns_length (ring : List α) (events : List (Event α)) :
    (turns ring events).length = rotations events := by
  induction events generalizing ring with
  | nil => rfl
  | cons event rest ih =>
      cases event with
      | rotate => simp [turns, rotations, ih]
      | join member => simp [turns, rotations, ih]

/-!
# Membership
-/

theorem step_perm (ring : List α) (event : Event α) :
    (step ring event).Perm (ring ++ joined [event]) := by
  cases event with
  | rotate =>
      cases ring with
      | nil => simp [step, joined]
      | cons first rest =>
          simp [step, joined]
  | join member => simp [step, joined]

theorem joined_cons (event : Event α) (rest : List (Event α)) :
    joined (event :: rest) = joined [event] ++ joined rest := by
  cases event <;> rfl

theorem joined_append (first second : List (Event α)) :
    joined (first ++ second) = joined first ++ joined second := by
  induction first with
  | nil => rfl
  | cons event rest ih =>
      rw [List.cons_append, joined_cons, ih, joined_cons event rest,
        List.append_assoc]

theorem run_perm (ring : List α) (events : List (Event α)) :
    (run ring events).Perm (ring ++ joined events) := by
  induction events generalizing ring with
  | nil => simp [joined]
  | cons event rest ih =>
      rw [run_cons, joined_cons, ← List.append_assoc]
      exact (ih (step ring event)).trans ((step_perm ring event).append_right _)

/-!
# The position law
-/

theorem step_join_getElem? {ring : List α} {p : Nat} {x : α} (member : α)
    (h : ring[p]? = some x) : (step ring (.join member))[p]? = some x := by
  have hlt : p < ring.length := (List.getElem?_eq_some_iff.mp h).1
  have hstep : step ring (.join member) = ring ++ [member] := by
    cases ring <;> rfl
  rw [hstep, List.getElem?_append_left hlt]
  exact h

theorem step_rotate_getElem? {ring : List α} {p : Nat} {x : α}
    (h : ring[p + 1]? = some x) : (step ring .rotate)[p]? = some x := by
  cases ring with
  | nil => simp at h
  | cons first rest =>
      have hrest : rest[p]? = some x := by simpa using h
      have hlt : p < rest.length := (List.getElem?_eq_some_iff.mp hrest).1
      simpa [step, List.getElem?_append_left hlt] using hrest

/-- A member at position {lit}`p` has moved forward by the number of rotations,
as long as its turn has not passed. -/
theorem run_getElem? {ring : List α} {events : List (Event α)} {p : Nat} {x : α}
    (h : ring[p]? = some x) (hle : rotations events <= p) :
    (run ring events)[p - rotations events]? = some x := by
  induction events generalizing ring p with
  | nil => simpa [rotations] using h
  | cons event rest ih =>
      cases event with
      | rotate =>
          cases p with
          | zero => simp [rotations] at hle
          | succ q =>
              have hq : rotations rest <= q := by
                simpa [rotations] using hle
              simpa [rotations] using ih (step_rotate_getElem? h) hq
      | join member =>
          simpa [rotations] using
            ih (step_join_getElem? member h) (by simpa [rotations] using hle)

theorem turn_after {ring : List α} {events : List (Event α)} {p : Nat} {x : α}
    (h : ring[p]? = some x) (hp : rotations events = p) :
    (run ring events).head? = some x := by
  have hpos : (run ring events)[p - rotations events]? = some x :=
    run_getElem? h (Nat.le_of_eq hp)
  rw [hp, Nat.sub_self] at hpos
  rw [List.head?_eq_getElem?]
  exact hpos

theorem not_turn_before {ring : List α} {events : List (Event α)} {p : Nat} {x : α}
    (hnodup : (run ring events).Nodup)
    (h : ring[p]? = some x) (hp : rotations events < p) :
    (run ring events).head? ≠ some x := by
  intro hhead
  rw [List.head?_eq_getElem?] at hhead
  have hpos := run_getElem? h (Nat.le_of_lt hp)
  have hlen : 0 < (run ring events).length :=
    (List.getElem?_eq_some_iff.mp hhead).1
  have hzero : 0 = p - rotations events :=
    (List.getElem?_inj hlen hnodup).mp (hhead.trans hpos.symm)
  lia

/-!
# Fairness

Between two consecutive turns of a member everybody who was in the ring at the
first of them has exactly one turn.
-/

theorem turns_take {ring : List α} {events : List (Event α)} {k : Nat}
    (hk : k <= rotations events) (hring : k < ring.length) :
    (turns ring events).take k = (ring.tail.take k).map some := by
  induction events generalizing ring k with
  | nil =>
      have hzero : k = 0 := by simpa [rotations] using hk
      simp [hzero]
  | cons event rest ih =>
      cases event with
      | join member =>
          have hstep : step ring (.join member) = ring ++ [member] := by
            cases ring <;> rfl
          have hne : ring ≠ [] := List.ne_nil_of_length_pos (by lia)
          have htail : (turns (ring ++ [member]) rest).take k =
              ((ring ++ [member]).tail.take k).map some :=
            ih (by simpa [rotations] using hk) (by simp; lia)
          rw [turns, hstep, htail, List.tail_append_of_ne_nil hne,
            List.take_append_of_le_length (by simp; lia)]
      | rotate =>
          cases k with
          | zero => simp
          | succ k =>
              cases ring with
              | nil => simp at hring
              | cons first others =>
                  cases others with
                  | nil => simp at hring
                  | cons second others =>
                      have hlen : k < others.length + 1 := by
                        simpa using hring
                      have htail : (turns (second :: others ++ [first]) rest).take k =
                          ((second :: others ++ [first]).tail.take k).map some :=
                        ih (by simpa [rotations] using hk) (by simp; lia)
                      simp only [turns, step, List.take_succ_cons]
                      rw [htail]
                      simp [List.take_append_of_le_length (Nat.le_of_lt_succ hlen)]

theorem turns_append (ring : List α) (first second : List (Event α)) :
    turns ring (first ++ second) =
      turns ring first ++ turns (run ring first) second := by
  induction first generalizing ring with
  | nil => rfl
  | cons event rest ih =>
      cases event <;> simp [turns, ih]

theorem turns_rotate_take {ring : List α} {rest : List (Event α)} {k : Nat}
    (hk : k <= rotations rest + 1) (hring : k <= ring.length) :
    (turns ring (.rotate :: rest)).take k =
      ((step ring .rotate).take k).map some := by
  cases k with
  | zero => simp
  | succ k =>
      cases ring with
      | nil => simp at hring
      | cons first others =>
          have hlen : k < (others ++ [first]).length := by
            simpa using Nat.lt_succ_of_le (Nat.le_of_succ_le_succ hring)
          have htail : (turns (others ++ [first]) rest).take k =
              ((others ++ [first]).tail.take k).map some :=
            turns_take (Nat.le_of_succ_le_succ hk) hlen
          simp only [turns, step, List.take_succ_cons, htail]
          cases others <;> simp

theorem exists_joins_before_rotation {events : List (Event α)}
    (h : 0 < rotations events) :
    exists (newcomers : List α) (rest : List (Event α)),
      events = newcomers.map Event.join ++ Event.rotate :: rest := by
  induction events with
  | nil => simp [rotations] at h
  | cons event rest ih =>
      cases event with
      | rotate => exact ⟨[], rest, rfl⟩
      | join member =>
          rcases ih (by simpa [rotations] using h) with ⟨newcomers, tail, htail⟩
          exact ⟨member :: newcomers, tail, by simp [htail]⟩

theorem run_joins (ring newcomers : List α) :
    run ring (newcomers.map Event.join) = ring ++ newcomers := by
  induction newcomers generalizing ring with
  | nil => simp
  | cons member rest ih =>
      have hstep : step ring (.join member) = ring ++ [member] := by
        cases ring <;> rfl
      rw [List.map_cons, run_cons, hstep, ih]
      simp

theorem rotations_joins (newcomers : List α) :
    rotations (newcomers.map Event.join) = 0 := by
  induction newcomers with
  | nil => rfl
  | cons member rest ih => exact ih

theorem joined_joins (newcomers : List α) :
    joined (newcomers.map Event.join) = newcomers := by
  induction newcomers with
  | nil => rfl
  | cons member rest ih => simp [joined, ih]

theorem turns_joins (ring newcomers : List α) :
    turns ring (newcomers.map Event.join) = [] := by
  apply List.eq_nil_of_length_eq_zero
  rw [turns_length, rotations_joins]

theorem length_eq_of_first_occurrence {front : List α} {x : α} {p : Nat}
    (hfirst : x ∉ front) (hp : (front ++ [x])[p]? = some x) : front.length = p := by
  have hlt : p < front.length + 1 := by
    simpa using (List.getElem?_eq_some_iff.mp hp).1
  by_contra hne
  have hless : p < front.length := by lia
  rw [List.getElem?_append_left hless] at hp
  exact hfirst (List.mem_of_getElem? hp)

/-- The turns until a member has the turn again are those of the rest of the
ring, as it is when that member hands the turn on. -/
theorem turns_until_return {x : α} {rest : List α}
    {events : List (Event α)} {others : List α}
    (hnodup : (x :: rest ++ joined events).Nodup)
    (hturns : turns (x :: rest) events = (others ++ [x]).map some)
    (hfirst : x ∉ others) :
    exists newcomers, newcomers <+: joined events ∧ others = rest ++ newcomers := by
  have hpos : 0 < rotations events := by
    rw [← turns_length (x :: rest) events, hturns]
    simp
  rcases exists_joins_before_rotation hpos with ⟨newcomers, tail, rfl⟩
  have hjoined : joined (newcomers.map Event.join ++ Event.rotate :: tail) =
      newcomers ++ joined tail := by
    rw [joined_append, joined_joins]
    rfl
  rw [hjoined] at hnodup
  refine ⟨newcomers, by rw [hjoined]; exact List.prefix_append _ _, ?_⟩
  -- From here on the ring is read after the joins that precede the rotation.
  let waiting := rest ++ newcomers
  have hx : x ∉ waiting := by
    intro hmem
    have hcons : (x :: (rest ++ (newcomers ++ joined tail))).Nodup := by
      simpa using hnodup
    apply (List.nodup_cons.mp hcons).1
    rw [← List.append_assoc]
    exact List.mem_append_left _ hmem
  have hlater : turns (x :: waiting) (Event.rotate :: tail) =
      (others ++ [x]).map some := by
    rw [turns_append, turns_joins, run_joins] at hturns
    simpa [waiting] using hturns
  have hcount : rotations tail + 1 = others.length + 1 := by
    have hlen := turns_length (x :: waiting) (Event.rotate :: tail)
    rw [hlater] at hlen
    simpa [rotations] using hlen.symm
  have hread : forall k, k <= others.length + 1 -> k <= waiting.length + 1 ->
      (others ++ [x]).take k = (waiting ++ [x]).take k := by
    intro k hk hwaiting
    have htake : (turns (x :: waiting) (Event.rotate :: tail)).take k =
        ((step (x :: waiting) Event.rotate).take k).map some :=
      turns_rotate_take (by lia) (by simpa using hwaiting)
    rw [hlater, ← List.map_take] at htake
    exact List.map_injective_iff.mpr (Option.some_injective α) htake
  have hge : waiting.length <= others.length := by
    by_contra hlt
    have hall := hread (others.length + 1) (Nat.le_refl _) (by lia)
    rw [List.take_of_length_le (by simp), List.take_append_of_le_length (by lia)] at hall
    have hmem : x ∈ waiting.take (others.length + 1) := by
      rw [← hall]
      simp
    exact hx (List.mem_of_mem_take hmem)
  have hround := hread (waiting.length + 1) (by lia) (Nat.le_refl _)
  have hwhole : (waiting ++ [x]).take (waiting.length + 1) = waiting ++ [x] :=
    List.take_of_length_le (by simp)
  rw [hwhole] at hround
  have hat : (others ++ [x])[waiting.length]? = some x := by
    have hget : ((others ++ [x]).take (waiting.length + 1))[waiting.length]? = some x := by
      rw [hround]
      simp
    simpa [List.getElem?_take] using hget
  have hlen := length_eq_of_first_occurrence hfirst hat
  rw [List.take_of_length_le (by simp; lia)] at hround
  exact List.append_cancel_right hround

end RoundRobin

end Foundation
