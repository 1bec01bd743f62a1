import NeurOS.Vga.Model

/-!
# Texts on a grid

A reference for where texts go: cells of one glyph each, counted in columns and
rows from the first cell of a cleared screen.  The reference reads one character
at a time and knows neither pixels nor colours.
-/

namespace NeurOS

open Foundation

structure Cell where
  column : Nat
  row : Nat
  deriving DecidableEq, Repr

/-- The cells that texts occupy, and where the next text starts unless they stop short. -/
structure Layout where
  cells : List Cell
  next : Option Cell
  deriving DecidableEq, Repr

namespace Layout

def after (cells : List Cell) (layout : Layout) : Layout where
  cells := cells ++ layout.cells
  next := layout.next

def stopped : Layout where
  cells := []
  next := none

def andThen (first : Layout) (second : Cell -> Layout) : Layout :=
  match first.next with
  | none => first
  | some cell => after first.cells (second cell)

@[simp] theorem after_nil (layout : Layout) : after [] layout = layout := rfl

end Layout

/-- Where a text stands: the column from which its glyphs are counted, how many there were,
the row, where the next text would start, and a sequence that has begun. -/
structure Grid where
  base : Nat
  position : Nat
  row : Nat
  next : Cell
  pending : Option (List Char)
  deriving DecidableEq, Repr

namespace Grid

def start (cell : Cell) : Grid where
  base := cell.column
  position := 0
  row := cell.row
  next := cell
  pending := none

def switchable (initrd : Initrd) (sequence : List Char) : Bool :=
  let text := String.ofList ('\x1b' :: sequence ++ ['m'])
  if text = Ansi.bold then
    (Font.new initrd Font.boldPath).isOk
  else if text = Ansi.normal then
    (Font.new initrd Font.normalPath).isOk
  else
    true

/-- One character, unless the text stops at it.  The test tells which sequences can be
applied. -/
def step (switch : List Char -> Bool) (grid : Grid) (c : Char) : Option (List Cell × Grid) :=
  match grid.pending with
  | some sequence =>
      if c = 'm' then
        if switch sequence then some ([], { grid with pending := none }) else none
      else
        some ([], { grid with pending := some (sequence ++ [c]) })
  | none =>
      if c = '\n' then
        some ([], start { column := 0, row := grid.row + 1 })
      else if c = '\r' then
        some ([], start { column := 0, row := grid.row })
      else if c = '\t' then
        let base := grid.base + 8
        some ([], { grid with base := base, next := { column := base, row := grid.row } })
      else if c = '\x1b' then
        some ([], { grid with pending := some [] })
      else
        let cell : Cell := { column := grid.base + grid.position, row := grid.row }
        let after : Grid := { grid with position := grid.position + 1, next := cell }
        if c.toNat < 256 then
          some ([cell], after)
        else if c.toNat = 256 then
          some ([], after)
        else
          none

def layout (switch : List Char -> Bool) : Grid -> List Char -> Layout
  | grid, [] =>
      match grid.pending with
      | some sequence =>
          if switch sequence then
            { cells := [], next := some grid.next }
          else
            Layout.stopped
      | none => { cells := [], next := some grid.next }
  | grid, c :: rest =>
      match grid.step switch c with
      | none => Layout.stopped
      | some (cells, grid) => Layout.after cells (layout switch grid rest)

def layoutAll (switch : List Char -> Bool) : Cell -> List String -> Layout
  | cell, [] => { cells := [], next := some cell }
  | cell, s :: rest =>
      (layout switch (start cell) s.toList).andThen fun cell => layoutAll switch cell rest

/-!
# One character of a text
-/

section Step

variable (switch : List Char -> Bool) (base position row : Nat) (next : Cell)
variable (rest : List Char)

theorem layout_newline :
    layout switch { base, position, row, next, pending := none } ('\n' :: rest) =
      layout switch (start { column := 0, row := row + 1 }) rest := by
  simp [layout, step]

theorem layout_return :
    layout switch { base, position, row, next, pending := none } ('\r' :: rest) =
      layout switch (start { column := 0, row := row }) rest := by
  simp [layout, step]

theorem layout_tab :
    layout switch { base, position, row, next, pending := none } ('\t' :: rest) =
      layout switch
        { base := base + 8, position, row, next := { column := base + 8, row },
          pending := none } rest := by
  simp [layout, step]

theorem layout_escape :
    layout switch { base, position, row, next, pending := none } ('\x1b' :: rest) =
      layout switch { base, position, row, next, pending := some [] } rest := by
  simp [layout, step]

theorem layout_glyph {c : Char} (hnewline : c ≠ '\n') (hreturn : c ≠ '\r') (htab : c ≠ '\t')
    (hescape : c ≠ '\x1b') :
    layout switch { base, position, row, next, pending := none } (c :: rest) =
      if c.toNat <= 256 then
        Layout.after (if c.toNat < 256 then [{ column := base + position, row }] else [])
          (layout switch
            { base, position := position + 1, row, next := { column := base + position, row },
              pending := none } rest)
      else
        Layout.stopped := by
  simp only [layout, step, hnewline, hreturn, htab, hescape, if_false]
  by_cases hlt : c.toNat < 256
  · have hle : c.toNat <= 256 := by lia
    simp [hlt, hle]
  · by_cases heq : c.toNat = 256
    · simp [heq]
    · have hgt : Not (c.toNat <= 256) := by lia
      simp [hlt, heq, hgt]

end Step

theorem layout_pending (switch : List Char -> Bool) (base position row : Nat) (next : Cell)
    (sequence chars : List Char) :
    layout switch { base, position, row, next, pending := some sequence } chars =
      if switch (sequence ++ chars.takeWhile fun c => c ≠ 'm') then
        layout switch { base, position, row, next, pending := none } (Vga.afterSequence chars)
      else
        Layout.stopped := by
  induction chars generalizing sequence with
  | nil => simp [layout, Vga.afterSequence]
  | cons c rest ih =>
      by_cases hm : c = 'm'
      · subst hm
        cases hswitch : switch sequence with
        | true => simp [layout, step, hswitch, Vga.afterSequence, Layout.after]
        | false => simp [layout, step, hswitch]
      · have hafter : Vga.afterSequence (c :: rest) = Vga.afterSequence rest := by
          simp [Vga.afterSequence, hm]
        have hstep : step switch { base, position, row, next, pending := some sequence } c =
            some ([], { base, position, row, next, pending := some (sequence ++ [c]) }) := by
          simp [step, hm]
        rw [hafter, layout, hstep]
        change Layout.after [] (layout switch _ rest) = _
        rw [ih (sequence ++ [c])]
        simp [Layout.after, hm]

end Grid

/-!
# Cells and their points
-/

namespace Cell

def x (self : Cell) : Nat :=
  8 + 8 * self.column

def y (self : Cell) : Nat :=
  24 + 16 * self.row

def points (self : Cell) : List (Nat × Nat) :=
  (List.range 16).flatMap fun cy => (List.range 8).map fun cx =>
    (self.x + cx, self.y + cy - 12)

def Fits (self : Cell) (width height : Nat) : Prop :=
  8 * self.column + 16 <= width ∧ 16 * self.row + 28 <= height

theorem fits_iff (self : Cell) (width height : Nat) :
    self.Fits width height <->
      forall point, point ∈ self.points -> point.1 < width ∧ point.2 < height := by
  unfold Fits points x y
  constructor
  · intro h point hmem
    rcases List.mem_flatMap.mp hmem with ⟨cy, hcy, hrow⟩
    rcases List.mem_map.mp hrow with ⟨cx, hcx, hpoint⟩
    rw [List.mem_range] at hcy hcx
    rw [← hpoint]
    constructor
    · show 8 + 8 * self.column + cx < width
      lia
    · show 24 + 16 * self.row + cy - 12 < height
      lia
  · intro h
    have hlast : (8 + 8 * self.column + 7, 24 + 16 * self.row + 15 - 12) ∈
        (List.range 16).flatMap fun cy => (List.range 8).map fun cx =>
          (8 + 8 * self.column + cx, 24 + 16 * self.row + cy - 12) := by
      apply List.mem_flatMap.mpr
      refine ⟨15, by simp, ?_⟩
      exact List.mem_map.mpr ⟨7, by simp, rfl⟩
    have hinside := h _ hlast
    simp only at hinside
    lia

end Cell

end NeurOS
