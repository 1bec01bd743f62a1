import Mathlib.Data.List.Forall2
import Mathlib.Algebra.Ring.Nat

/-!
# Panics and checked machine arithmetic

A computation of the source language either returns a value or panics.  This
module fixes the causes of a panic, the monad that carries them, and unsigned
arithmetic under the two build profiles: the development profile panics when a
result does not fit its width, the release profile wraps it.
-/

namespace Foundation

inductive Panic where
  | unwrapNone
  | unwrapErr
  | expectFailed (message : String)
  | indexOutOfBounds
  | arithmeticOverflow
  | capacityOverflow
  | assertionFailed
  | raised (message : String)
  deriving DecidableEq, Repr

abbrev Outcome (α : Type u) := Except Panic α

namespace Outcome

def unwrap : Option α -> Outcome α
  | some a => .ok a
  | none => .error .unwrapNone

@[simp] theorem unwrap_some (a : α) : unwrap (some a) = .ok a := rfl

@[simp] theorem unwrap_none : unwrap (none : Option α) = .error .unwrapNone := rfl

theorem unwrap_eq_ok_iff {value : Option α} {a : α} : unwrap value = .ok a <-> value = some a := by
  cases value with
  | none => simp
  | some b => simp

def index (items : List α) (i : Nat) : Outcome α :=
  match items[i]? with
  | some a => .ok a
  | none => .error .indexOutOfBounds

theorem index_of_getElem? {items : List α} {i : Nat} {a : α} (h : items[i]? = some a) :
    index items i = .ok a := by
  simp [index, h]

/-- Room for so many items of the given size, which is at most `isize::MAX` bytes. -/
def capacity (count size : Nat) : Outcome Unit :=
  if count * size < 2 ^ 63 then .ok () else .error .capacityOverflow

theorem capacity_of_lt {count size : Nat} (h : count * size < 2 ^ 63) :
    capacity count size = .ok () :=
  if_pos h

theorem capacity_of_le {count size : Nat} (h : 2 ^ 63 <= count * size) :
    capacity count size = .error .capacityOverflow :=
  if_neg (Nat.not_lt.mpr h)

@[simp] theorem ok_bind (a : α) (f : α -> Outcome β) :
    ((.ok a : Outcome α) >>= f) = f a := rfl

@[simp] theorem error_bind (e : Panic) (f : α -> Outcome β) :
    ((.error e : Outcome α) >>= f) = .error e := rfl

theorem bind_eq_ok_iff {x : Outcome α} {f : α -> Outcome β} {b : β} :
    (x >>= f) = .ok b <-> exists a, x = .ok a ∧ f a = .ok b := by
  cases x with
  | error e => simp
  | ok a => simp

theorem bind_eq_error_iff {x : Outcome α} {f : α -> Outcome β} {e : Panic} :
    (x >>= f) = .error e <-> x = .error e ∨ exists a, x = .ok a ∧ f a = .error e := by
  cases x with
  | error e' => simp
  | ok a => simp

theorem mapM_eq_ok_iff {f : α -> Outcome β} {items : List α} {results : List β} :
    items.mapM f = .ok results <-> List.Forall₂ (fun a b => f a = .ok b) items results := by
  induction items generalizing results with
  | nil => cases results <;> simp [pure, Except.pure]
  | cons item rest ih =>
      rw [List.mapM_cons, bind_eq_ok_iff]
      constructor
      · intro h
        rcases h with ⟨b, hitem, hrest⟩
        rcases bind_eq_ok_iff.mp hrest with ⟨bs, hbs, heq⟩
        cases heq
        exact .cons hitem (ih.mp hbs)
      · intro h
        cases h with
        | cons hitem hrest =>
            refine ⟨_, hitem, ?_⟩
            rw [ih.mpr hrest]
            rfl

theorem mapM_ok_map {f : α -> Outcome β} {g : α -> β} {items : List α}
    (h : forall a, a ∈ items -> f a = .ok (g a)) : items.mapM f = .ok (items.map g) := by
  rw [mapM_eq_ok_iff, List.forall₂_map_right_iff, List.forall₂_same]
  exact h

theorem exists_ok_of_mapM {f : α -> Outcome β} {items : List α} {results : List β}
    (h : items.mapM f = .ok results) {a : α} (ha : a ∈ items) : exists b, f a = .ok b := by
  have hall := mapM_eq_ok_iff.mp h
  rcases List.getElem_of_mem ha with ⟨i, hi, rfl⟩
  exact ⟨_, hall.get hi (hall.length_eq ▸ hi)⟩

theorem mapM_ok_of_forall {f : α -> Outcome β} {items : List α}
    (h : forall a, a ∈ items -> exists b, f a = .ok b) :
    exists results, items.mapM f = .ok results := by
  induction items with
  | nil => exact ⟨[], rfl⟩
  | cons item rest ih =>
      rcases h item List.mem_cons_self with ⟨b, hitem⟩
      rcases ih (fun a ha => h a (List.mem_cons_of_mem item ha)) with ⟨bs, hrest⟩
      refine ⟨b :: bs, ?_⟩
      rw [List.mapM_cons, hitem, ok_bind, hrest]
      rfl

end Outcome

/-!
# Build profiles

Operands are natural numbers below the width of their type; the width is given
by its number of bits.
-/

inductive Profile where
  | dev
  | release
  deriving DecidableEq, Repr

namespace Profile

/-- Fit the exact result of an addition or a multiplication into its width. -/
def fit (profile : Profile) (bits exact : Nat) : Outcome Nat :=
  if exact < 2 ^ bits then
    .ok exact
  else
    match profile with
    | .dev => .error .arithmeticOverflow
    | .release => .ok (exact % 2 ^ bits)

def add (profile : Profile) (bits a b : Nat) : Outcome Nat :=
  profile.fit bits (a + b)

def mul (profile : Profile) (bits a b : Nat) : Outcome Nat :=
  profile.fit bits (a * b)

def sub (profile : Profile) (bits a b : Nat) : Outcome Nat :=
  if b <= a then
    .ok (a - b)
  else
    match profile with
    | .dev => .error .arithmeticOverflow
    | .release => .ok (2 ^ bits + a - b)

theorem fit_of_lt (profile : Profile) {bits exact : Nat} (h : exact < 2 ^ bits) :
    profile.fit bits exact = .ok exact := by
  simp [fit, h]

theorem fit_release (bits exact : Nat) :
    Profile.release.fit bits exact = .ok (exact % 2 ^ bits) := by
  by_cases h : exact < 2 ^ bits
  · rw [fit_of_lt _ h, Nat.mod_eq_of_lt h]
  · simp [fit, h]

theorem fit_dev_eq_ok_iff {bits exact value : Nat} :
    Profile.dev.fit bits exact = .ok value <-> exact < 2 ^ bits ∧ value = exact := by
  by_cases h : exact < 2 ^ bits
  · simp [fit, h, eq_comm]
  · simp [fit, h]

theorem add_of_lt (profile : Profile) {bits a b : Nat} (h : a + b < 2 ^ bits) :
    profile.add bits a b = .ok (a + b) :=
  profile.fit_of_lt h

theorem mul_of_lt (profile : Profile) {bits a b : Nat} (h : a * b < 2 ^ bits) :
    profile.mul bits a b = .ok (a * b) :=
  profile.fit_of_lt h

theorem sub_of_le (profile : Profile) (bits : Nat) {a b : Nat} (h : b <= a) :
    profile.sub bits a b = .ok (a - b) := by
  simp [sub, h]

theorem sub_dev_eq_ok_iff {bits a b value : Nat} :
    Profile.dev.sub bits a b = .ok value <-> b <= a ∧ value = a - b := by
  by_cases h : b <= a
  · simp [sub, h, eq_comm]
  · simp [sub, h]

end Profile

end Foundation
