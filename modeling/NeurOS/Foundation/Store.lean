import NeurOS.Foundation.Bytes

/-!
# Stores

A store replaces the bytes at an address and no others.  Of a row of stores that
keep apart every one is read back behind the last, and the bytes that none of them
covers are as they were.
-/

namespace Foundation

structure Store where
  address : Nat
  bytes : List UInt8
  deriving DecidableEq, Repr

namespace Store

def stop (self : Store) : Nat :=
  self.address + self.bytes.length

def Covers (store : Store) (i : Nat) : Prop :=
  store.address <= i ∧ i < store.stop

def Apart (first second : Store) : Prop :=
  first.stop <= second.address ∨ second.stop <= first.address

end Store

namespace Ram

def store (ram : Ram) (store : Store) : Ram :=
  fun i => if store.address <= i then (store.bytes[i - store.address]?).getD (ram i) else ram i

def storeAll (ram : Ram) (stores : List Store) : Ram :=
  stores.foldl Ram.store ram

theorem store_outside {ram : Ram} {store : Store} {i : Nat} (h : Not (store.Covers i)) :
    ram.store store i = ram i := by
  unfold Ram.store
  split
  · rename_i hle
    have hnone : store.bytes[i - store.address]? = none := by
      apply List.getElem?_eq_none
      by_contra hlt
      apply h
      refine ⟨hle, ?_⟩
      rw [Store.stop]
      lia
    rw [hnone, Option.getD_none]
  · rfl

theorem read_congr {first second : Ram} {address length : Nat}
    (h : forall i, address <= i -> i < address + length -> first i = second i) :
    first.read address length = second.read address length := by
  apply List.map_congr_left
  intro i hi
  rw [List.mem_range] at hi
  exact h (address + i) (Nat.le_add_right _ _) (Nat.add_lt_add_left hi address)

theorem read_store_self (ram : Ram) (store : Store) :
    (ram.store store).read store.address store.bytes.length = store.bytes := by
  apply List.ext_getElem?
  intro i
  by_cases hi : i < store.bytes.length
  · rw [read_getElem? hi]
    simp [Ram.store, hi]
  · rw [List.getElem?_eq_none (by simpa using hi), List.getElem?_eq_none (by simpa using hi)]

theorem storeAll_cons (ram : Ram) (store : Store) (rest : List Store) :
    ram.storeAll (store :: rest) = (ram.store store).storeAll rest := rfl

theorem storeAll_outside {ram : Ram} {stores : List Store} {i : Nat}
    (h : forall store, store ∈ stores -> Not (store.Covers i)) : ram.storeAll stores i = ram i := by
  induction stores generalizing ram with
  | nil => rfl
  | cons store rest ih =>
      rw [List.forall_mem_cons] at h
      rw [storeAll_cons, ih h.2, store_outside h.1]

theorem store_inside {first second : Ram} {store : Store} {i : Nat} (h : store.Covers i) :
    first.store store i = second.store store i := by
  rcases h with ⟨hstart, hend⟩
  have hlt : i - store.address < store.bytes.length := by
    rw [Store.stop] at hend
    lia
  unfold Ram.store
  rw [if_pos hstart, if_pos hstart, List.getElem?_eq_getElem hlt, Option.getD_some,
    Option.getD_some]

theorem storeAll_forgets {first second : Ram} {stores : List Store} {i : Nat}
    (h : first i = second i ∨ exists store, store ∈ stores ∧ store.Covers i) :
    first.storeAll stores i = second.storeAll stores i := by
  induction stores generalizing first second with
  | nil =>
      rcases h with heq | ⟨store, hmem, _⟩
      · exact heq
      · cases hmem
  | cons store rest ih =>
      rw [storeAll_cons, storeAll_cons]
      apply ih
      by_cases hcovers : store.Covers i
      · exact Or.inl (store_inside hcovers)
      · rcases h with heq | ⟨other, hmem, hother⟩
        · left
          rw [store_outside hcovers, store_outside hcovers, heq]
        · rcases List.mem_cons.mp hmem with rfl | hrest
          · exact absurd hother hcovers
          · exact Or.inr ⟨other, hrest, hother⟩

theorem storeAll_read {ram : Ram} {stores : List Store} (h : stores.Pairwise Store.Apart)
    {store : Store} (hstore : store ∈ stores) :
    (ram.storeAll stores).read store.address store.bytes.length = store.bytes := by
  induction stores generalizing ram with
  | nil => cases hstore
  | cons first rest ih =>
      rw [List.pairwise_cons] at h
      rw [storeAll_cons]
      rcases List.mem_cons.mp hstore with hfirst | hrest
      · rw [hfirst]
        have hkept : ((ram.store first).storeAll rest).read first.address first.bytes.length =
            (ram.store first).read first.address first.bytes.length := by
          apply read_congr
          intro i hle hlt
          apply storeAll_outside
          intro other hother hcovers
          have hapart : first.Apart other := h.1 other hother
          rcases hcovers with ⟨hstart, hend⟩
          have hstop : first.stop = first.address + first.bytes.length := rfl
          rcases hapart with hbehind | hahead
          · lia
          · lia
        rw [hkept, read_store_self]
      · exact ih h.2 hrest

end Ram

end Foundation
