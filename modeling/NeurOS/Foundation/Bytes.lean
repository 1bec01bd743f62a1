import Mathlib.Data.List.GetD
import Mathlib.Data.Nat.Digits.Defs
import Mathlib.Data.Nat.Notation

/-!
# Bytes in lists and in memory

A record is the concatenation of its fields; each field is found again as the
slice at the sum of the lengths before it.  Memory is a function from addresses
to bytes, and holds a sequence of bytes at an address when reading gives it back.
-/

namespace Foundation

/-!
# Slices of a list
-/

def slice (bytes : List α) (start length : Nat) : List α :=
  (bytes.drop start).take length

def offset (fields : List (List α)) (i : Nat) : Nat :=
  ((fields.take i).map List.length).sum

theorem slice_length {bytes : List α} {start length : Nat}
    (h : start + length <= bytes.length) : (slice bytes start length).length = length := by
  simp [slice]
  lia

theorem slice_getElem? {bytes : List α} {start length i : Nat} (h : i < length) :
    (slice bytes start length)[i]? = bytes[start + i]? := by
  simp [slice, h]

theorem slice_append_left {first second : List α} {start length : Nat}
    (h : start + length <= first.length) :
    slice (first ++ second) start length = slice first start length := by
  unfold slice
  rw [List.drop_append_of_le_length (by lia), List.take_append_of_le_length]
  simp
  lia

theorem slice_append_right (first second : List α) (start length : Nat) :
    slice (first ++ second) (first.length + start) length = slice second start length := by
  unfold slice
  rw [← List.drop_drop, List.drop_left]

theorem slice_eq_self (bytes : List α) : slice bytes 0 bytes.length = bytes := by
  simp [slice]

theorem slice_flatten {fields : List (List α)} {i : Nat} {field : List α}
    (h : fields[i]? = some field) :
    slice fields.flatten (offset fields i) field.length = field := by
  induction fields generalizing i with
  | nil => simp at h
  | cons first rest ih =>
      cases i with
      | zero =>
          have hfirst : first = field := by simpa using h
          rw [hfirst]
          simp [slice, offset]
      | succ i =>
          have hrest : rest[i]? = some field := by simpa using h
          have hoffset : offset (first :: rest) (i + 1) = first.length + offset rest i := by
            simp [offset]
          rw [hoffset, List.flatten_cons, slice_append_right]
          exact ih hrest

theorem length_flatMap_chunks {f : α -> List β} {size : Nat}
    (hsize : forall a, (f a).length = size) (items : List α) :
    (items.flatMap f).length = items.length * size := by
  induction items with
  | nil => simp
  | cons a rest ih =>
      rw [List.flatMap_cons, List.length_append, hsize, ih, List.length_cons, Nat.add_mul]
      lia

theorem getElem?_flatMap_chunks {f : α -> List β} {size : Nat}
    (hsize : forall a, (f a).length = size) (items : List α) (i : Nat) {j : Nat}
    (h : j < size) :
    (items.flatMap f)[i * size + j]? = items[i]?.bind fun a => (f a)[j]? := by
  induction items generalizing i with
  | nil => rfl
  | cons a rest ih =>
      rw [List.flatMap_cons]
      cases i with
      | zero =>
          rw [Nat.zero_mul, Nat.zero_add, List.getElem?_append_left (by rw [hsize]; exact h)]
          rfl
      | succ i =>
          have hplace : (i + 1) * size + j = (f a).length + (i * size + j) := by
            rw [hsize, Nat.add_mul]
            lia
          rw [hplace, List.getElem?_append_right (Nat.le_add_right _ _), Nat.add_sub_cancel_left,
            ih i]
          rfl

/-!
# Little-endian numbers
-/

def littleEndian (bytes : List UInt8) : Nat :=
  Nat.ofDigits 256 (bytes.map UInt8.toNat)

/-!
# Memory
-/

abbrev Ram := Nat -> UInt8

namespace Ram

def read (ram : Ram) (address length : Nat) : List UInt8 :=
  (List.range length).map fun i => ram (address + i)

@[simp] theorem read_length (ram : Ram) (address length : Nat) :
    (ram.read address length).length = length := by
  simp [read]

theorem read_getElem? {ram : Ram} {address length i : Nat} (h : i < length) :
    (ram.read address length)[i]? = some (ram (address + i)) := by
  simp [read, h]

theorem read_slice {ram : Ram} {address length start length' : Nat}
    (h : start + length' <= length) :
    slice (ram.read address length) start length' = ram.read (address + start) length' := by
  apply List.ext_getElem?
  intro i
  by_cases hi : i < length'
  · rw [slice_getElem? hi, read_getElem? hi, read_getElem? (by lia), Nat.add_assoc]
  · rw [List.getElem?_eq_none, List.getElem?_eq_none]
    · rw [read_length]
      lia
    · rw [slice_length (by simpa using h)]
      lia

/-- The bytes lie in memory from an address on. -/
def Holds (ram : Ram) (address : Nat) (bytes : List UInt8) : Prop :=
  ram.read address bytes.length = bytes

theorem holds_slice {ram : Ram} {address : Nat} {bytes : List UInt8}
    (h : ram.Holds address bytes) {start length : Nat} (hlength : start + length <= bytes.length) :
    ram.read (address + start) length = slice bytes start length := by
  rw [← read_slice hlength, h]

theorem holds_left {ram : Ram} {address : Nat} {first second : List UInt8}
    (h : ram.Holds address (first ++ second)) : ram.Holds address first := by
  have hfits : 0 + first.length <= (first ++ second).length := by simp
  have hread := holds_slice h hfits
  rw [slice_append_left (by lia), slice_eq_self] at hread
  exact hread

theorem holds_right {ram : Ram} {address : Nat} {first second : List UInt8}
    (h : ram.Holds address (first ++ second)) :
    ram.Holds (address + first.length) second := by
  have hfits : first.length + second.length <= (first ++ second).length := by simp
  have hread := holds_slice h hfits
  have hsecond := slice_append_right first second 0 second.length
  rw [Nat.add_zero, slice_eq_self] at hsecond
  rw [hsecond] at hread
  exact hread

def load (address : Nat) (bytes : List UInt8) : Ram :=
  fun i => if address <= i then bytes.getD (i - address) 0 else 0

theorem load_holds (address : Nat) (bytes : List UInt8) :
    (load address bytes).Holds address bytes := by
  apply List.ext_getElem?
  intro i
  by_cases hi : i < bytes.length
  · rw [read_getElem? hi]
    simp [load, hi]
  · rw [List.getElem?_eq_none (by simpa using hi), List.getElem?_eq_none (by simpa using hi)]

end Ram

end Foundation
