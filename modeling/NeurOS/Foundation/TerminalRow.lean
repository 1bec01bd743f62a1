import Mathlib.Data.List.GetD
import Mathlib.Logic.Function.Basic

/-!
# A row of a terminal

A row without an end, and a cursor in it.  A printable byte is written at the
cursor and moves it right; a backspace moves it left and writes nothing.
-/

namespace Foundation

structure TerminalRow where
  cell : Nat -> UInt8
  cursor : Nat

namespace TerminalRow

def blank : UInt8 := 0x20

def Printable (byte : UInt8) : Prop :=
  0x20 <= byte ∧ byte <= 0x7E

instance : DecidablePred Printable := fun byte =>
  inferInstanceAs (Decidable (0x20 <= byte ∧ byte <= 0x7E))

def put (row : TerminalRow) (byte : UInt8) : TerminalRow :=
  if Printable byte then
    { cell := Function.update row.cell row.cursor byte, cursor := row.cursor + 1 }
  else if byte = 0x08 then
    { row with cursor := row.cursor - 1 }
  else
    row

def feed (row : TerminalRow) (bytes : List UInt8) : TerminalRow :=
  bytes.foldl put row

def showing (bytes : List UInt8) : TerminalRow where
  cell i := bytes.getD i blank
  cursor := bytes.length

@[simp] theorem feed_nil (row : TerminalRow) : row.feed [] = row := rfl

theorem feed_cons (row : TerminalRow) (byte : UInt8) (rest : List UInt8) :
    row.feed (byte :: rest) = (row.put byte).feed rest := rfl

theorem feed_append (row : TerminalRow) (first second : List UInt8) :
    row.feed (first ++ second) = (row.feed first).feed second :=
  List.foldl_append

theorem getD_concat (bytes : List UInt8) (last : UInt8) (i : Nat) :
    (bytes ++ [last]).getD i blank =
      if i = bytes.length then last else bytes.getD i blank := by
  rcases Nat.lt_trichotomy i bytes.length with hlt | heq | hgt
  · rw [List.getD_append _ _ _ _ hlt, if_neg (Nat.ne_of_lt hlt)]
  · rw [heq, if_pos rfl, List.getD_append_right _ _ _ _ (Nat.le_refl _), Nat.sub_self]
    rfl
  · rw [if_neg (Nat.ne_of_gt hgt), List.getD_eq_default _ _ (Nat.le_of_lt hgt),
      List.getD_eq_default]
    rw [List.length_append, List.length_singleton]
    exact hgt

theorem put_printable {byte : UInt8} (h : Printable byte) (bytes : List UInt8) :
    (showing bytes).put byte = showing (bytes ++ [byte]) := by
  unfold put
  rw [if_pos h]
  unfold showing
  rw [List.length_append, List.length_singleton]
  congr 1
  funext i
  rw [getD_concat, Function.update_apply]

theorem put_backspace (row : TerminalRow) :
    row.put 0x08 = { row with cursor := row.cursor - 1 } := rfl

theorem put_back (bytes : List UInt8) (last : UInt8) :
    (showing (bytes ++ [last])).put 0x08 =
      { showing (bytes ++ [last]) with cursor := bytes.length } := by
  rw [put_backspace]
  simp [showing]

theorem put_over (bytes : List UInt8) (last : UInt8) :
    ({ showing (bytes ++ [last]) with cursor := bytes.length } : TerminalRow).put blank =
      { showing bytes with cursor := bytes.length + 1 } := by
  have hblank : Printable blank := by decide
  unfold put
  rw [if_pos hblank]
  unfold showing
  congr 1
  funext i
  rw [Function.update_apply]
  dsimp only
  rw [getD_concat]
  split
  · next heq => rw [heq, List.getD_eq_default _ _ (Nat.le_refl _)]
  · rfl

theorem feed_erase (bytes : List UInt8) (last : UInt8) :
    (showing (bytes ++ [last])).feed [0x08, blank, 0x08] = showing bytes := by
  rw [feed_cons, put_back, feed_cons, put_over]
  rfl

/-- Every byte finds the cursor at the given cell or behind it. -/
def Spares (first : Nat) : TerminalRow -> List UInt8 -> Prop
  | _, [] => True
  | row, byte :: rest => first <= row.cursor ∧ Spares first (row.put byte) rest

theorem spares_append {first : Nat} {row : TerminalRow} {bytes more : List UInt8}
    (h : Spares first row bytes) (hmore : Spares first (row.feed bytes) more) :
    Spares first row (bytes ++ more) := by
  induction bytes generalizing row with
  | nil => exact hmore
  | cons byte rest ih => exact ⟨h.1, ih h.2 hmore⟩

theorem put_cell {row : TerminalRow} {i : Nat} (h : i < row.cursor) (byte : UInt8) :
    (row.put byte).cell i = row.cell i := by
  unfold put
  split
  · exact Function.update_of_ne (Nat.ne_of_lt h) _ _
  · split <;> rfl

/-- The cells before are never written, at no byte of the sequence. -/
theorem feed_cell {first : Nat} {row : TerminalRow} {bytes seen : List UInt8}
    (h : Spares first row bytes) (hseen : seen <+: bytes) {i : Nat} (hi : i < first) :
    (row.feed seen).cell i = row.cell i := by
  induction bytes generalizing row seen with
  | nil =>
      rw [List.prefix_nil.mp hseen]
      rfl
  | cons byte rest ih =>
      cases seen with
      | nil => rfl
      | cons other others =>
          rcases List.cons_prefix_cons.mp hseen with ⟨heq, hothers⟩
          rw [heq, feed_cons, ih h.2 hothers, put_cell (Nat.lt_of_lt_of_le hi h.1)]

theorem spares_erase {first : Nat} {bytes : List UInt8} (h : first <= bytes.length)
    (last : UInt8) : Spares first (showing (bytes ++ [last])) [0x08, blank, 0x08] := by
  have hcursor : (showing (bytes ++ [last])).cursor = bytes.length + 1 := List.length_append
  unfold Spares
  rw [hcursor, put_back]
  refine ⟨Nat.le_succ_of_le h, h, ?_⟩
  rw [put_over]
  exact ⟨Nat.le_succ_of_le h, trivial⟩

theorem spares_printable {first : Nat} {bytes : List UInt8} (h : first <= bytes.length)
    (byte : UInt8) : Spares first (showing bytes) [byte] :=
  ⟨h, trivial⟩

end TerminalRow

end Foundation
