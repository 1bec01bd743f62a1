import NeurOS.Vga.Clearing
import NeurOS.Vga.Consoles
import NeurOS.Vga.Picture

/-!
# Rows of letters

A letter shows its glyph in its color on black.  A row of letters shows the letter of
each cell, and a page shows its rows one below the other.  A text of plain characters
and newlines draws a page.
-/

namespace NeurOS

open Foundation

structure Letter where
  character : Char
  fg : Nat
  font : Font

namespace Letter

structure Plain (c : Char) : Prop where
  newline : c ≠ '\n'
  carriageReturn : c ≠ '\r'
  tab : c ≠ '\t'
  escape : c ≠ '\x1b'
  inFont : c.toNat < 256

theorem plain_of_printable {c : Char} (hlow : 32 <= c.toNat) (hhigh : c.toNat <= 126) : Plain c :=
  let letter : Printable := { char := c, low := hlow, high := hhigh }
  let drawable := letter.drawable
  ⟨drawable.newline, drawable.carriageReturn, drawable.tab, drawable.escape, drawable.inFont⟩

def PlainText (s : String) : Prop :=
  forall c, c ∈ s.toList -> c = '\n' ∨ Plain c

theorem plainText_append_iff {a b : String} :
    PlainText (a ++ b) <-> PlainText a ∧ PlainText b := by
  unfold PlainText
  rw [String.toList_append, List.forall_mem_append]

theorem plainText_of_printable {s : String}
    (h : forall c, c ∈ s.toList -> c = '\n' ∨ 32 <= c.toNat ∧ c.toNat <= 126) : PlainText s :=
  fun c hc => (h c hc).imp_right fun hprintable =>
    plain_of_printable hprintable.1 hprintable.2

theorem plainText_of_all {s : String} (h : s.toList.all (fun c =>
    decide (c = '\n' ∨ 32 <= c.toNat ∧ c.toNat <= 126)) = true) : PlainText s :=
  plainText_of_printable (by simpa using h)

def colorAt (self : Letter) (cx cy : Nat) : Nat :=
  if Vga.glyphBit self.font self.character cx cy then self.fg else Color.black

def pixels (self : Letter) (x y : Nat) : List Pixel :=
  rectangle x (y - 12) 8 16 self.colorAt

end Letter

def letters (fg : Nat) (font : Font) (chars : List Char) : List Letter :=
  chars.map fun c => { character := c, fg, font }

def rowPixels (x y : Nat) : List Letter -> List Pixel
  | [] => []
  | letter :: rest => letter.pixels x y ++ rowPixels (x + 8) y rest

def pagePixels (y : Nat) : List (List Letter) -> List Pixel
  | [] => []
  | row :: rest => rowPixels 8 y row ++ pagePixels (y + 16) rest

/-- The rows of a text, behind the letters that its first row starts with. -/
def rows (fg : Nat) (font : Font) (current : List Letter) : List Char -> List (List Letter)
  | [] => [current]
  | c :: rest =>
      if c = '\n' then current :: rows fg font [] rest
      else rows fg font (current ++ [{ character := c, fg, font }]) rest

def rowColor (x y : Nat) (row : List Letter) (px py : Nat) : Option Nat :=
  if x <= px ∧ y <= py + 12 ∧ py < y + 4 then
    row[(px - x) / 8]?.map fun letter => letter.colorAt ((px - x) % 8) (py + 12 - y)
  else
    none

/-- The color that a page has at a point, when its first row is at a cursor. -/
def pageColor (y : Nat) (page : List (List Letter)) (px py : Nat) : Option Nat :=
  if 8 <= px ∧ y <= py + 12 then
    (page[(py + 12 - y) / 16]?.bind fun row => row[(px - 8) / 8]?).map fun letter =>
      letter.colorAt ((px - 8) % 8) ((py + 12 - y) % 16)
  else
    none

/-!
# What rows and pages show
-/

theorem rowPixels_concat (x y : Nat) (row : List Letter) (letter : Letter) :
    rowPixels x y (row ++ [letter]) =
      rowPixels x y row ++ letter.pixels (x + 8 * row.length) y := by
  induction row generalizing x with
  | nil => simp [rowPixels]
  | cons first rest ih =>
      have hx : x + 8 + 8 * rest.length = x + 8 * (first :: rest).length := by
        rw [List.length_cons]
        lia
      rw [List.cons_append, rowPixels, rowPixels, ih, hx, List.append_assoc]

theorem pagePixels_append (y : Nat) (first second : List (List Letter)) :
    pagePixels y (first ++ second) =
      pagePixels y first ++ pagePixels (y + 16 * first.length) second := by
  induction first generalizing y with
  | nil => simp [pagePixels]
  | cons row rest ih =>
      have hy : y + 16 + 16 * rest.length = y + 16 * (row :: rest).length := by
        rw [List.length_cons]
        lia
      rw [List.cons_append, pagePixels, pagePixels, ih, hy, List.append_assoc]

theorem colorAt_rowPixels {y : Nat} (hy : 12 <= y) (row : List Letter) (x px py : Nat) :
    colorAt (rowPixels x y row) px py = rowColor x y row px py := by
  induction row generalizing x with
  | nil => simp [rowPixels, colorAt, rowColor]
  | cons letter rest ih =>
      rw [rowPixels, colorAt_append, ih, Letter.pixels, colorAt_rectangle]
      unfold rowColor
      by_cases hrow : y <= py + 12 ∧ py < y + 4
      · have hline : y - 12 <= py ∧ py < y - 12 + 16 := by lia
        have hcy : py - (y - 12) = py + 12 - y := by lia
        by_cases hleft : px < x
        · rw [if_neg (by lia), if_neg (by lia), if_neg (by lia), Option.or_none]
        by_cases hcell : px < x + 8
        · have hindex : (px - x) / 8 = 0 := by lia
          have hcx : (px - x) % 8 = px - x := by lia
          rw [if_neg (by lia), if_pos (by lia), if_pos (by lia), hindex, hcx, hcy]
          rfl
        · have hindex : (px - x) / 8 = (px - (x + 8)) / 8 + 1 := by lia
          have hcx : (px - x) % 8 = (px - (x + 8)) % 8 := by lia
          rw [if_pos (by lia), if_neg (by lia), if_pos (by lia), hindex, hcx,
            List.getElem?_cons_succ, Option.or_none]
      · rw [if_neg (by lia), if_neg (by lia), if_neg (by lia), Option.or_none]

theorem colorAt_pagePixels {y : Nat} (hy : 12 <= y) (page : List (List Letter)) (px py : Nat) :
    colorAt (pagePixels y page) px py = pageColor y page px py := by
  induction page generalizing y with
  | nil => simp [pagePixels, colorAt, pageColor]
  | cons row rest ih =>
      rw [pagePixels, colorAt_append, ih (by lia), colorAt_rowPixels hy]
      unfold pageColor rowColor
      by_cases hpage : 8 <= px ∧ y <= py + 12
      · by_cases hrow : py < y + 4
        · have hindex : (py + 12 - y) / 16 = 0 := by lia
          have hcy : (py + 12 - y) % 16 = py + 12 - y := by lia
          rw [if_neg (by lia), if_pos (by lia), if_pos hpage, hindex, hcy, Option.none_or]
          rfl
        · have hindex : (py + 12 - y) / 16 = (py + 12 - (y + 16)) / 16 + 1 := by lia
          have hcy : (py + 12 - y) % 16 = (py + 12 - (y + 16)) % 16 := by lia
          rw [if_pos (by lia), if_neg (by lia), if_pos hpage, hindex, hcy,
            List.getElem?_cons_succ, Option.or_none]
      · rw [if_neg (by lia), if_neg (by lia), if_neg hpage, Option.or_none]

/-!
# Where rows are drawn
-/

def Letter.Colored (self : Letter) : Prop :=
  self.fg < 2 ^ 32

theorem Letter.colorAt_lt {letter : Letter} (h : letter.Colored) (cx cy : Nat) :
    letter.colorAt cx cy < 2 ^ 32 := by
  unfold colorAt
  split
  · exact h
  · exact Nat.two_pow_pos 32

theorem rowPixels_inside {row : List Letter} (h : forall letter, letter ∈ row -> letter.Colored)
    {x y width : Nat} (hwidth : x + 8 * row.length <= width) :
    forall pixel, pixel ∈ rowPixels x y row -> pixel.x < width ∧ pixel.color < 2 ^ 32 := by
  induction row generalizing x with
  | nil => simp [rowPixels]
  | cons letter rest ih =>
      rw [List.forall_mem_cons] at h
      rw [List.length_cons] at hwidth
      rw [rowPixels, List.forall_mem_append]
      refine ⟨?_, ih h.2 (by lia)⟩
      intro pixel hpixel
      rcases mem_rectangle_iff.mp hpixel with ⟨cx, cy, hcx, _, rfl⟩
      refine ⟨?_, letter.colorAt_lt h.1 cx cy⟩
      show x + cx < width
      lia

/-- The letters of the page are colored, and its rows end on a screen of this width. -/
def PageFits (width : Nat) (page : List (List Letter)) : Prop :=
  forall row, row ∈ page ->
    (forall letter, letter ∈ row -> letter.Colored) ∧ 8 + 8 * row.length <= width

theorem pagePixels_inside {width : Nat} {page : List (List Letter)} (h : PageFits width page)
    (y : Nat) :
    forall pixel, pixel ∈ pagePixels y page -> pixel.x < width ∧ pixel.color < 2 ^ 32 := by
  induction page generalizing y with
  | nil => simp [pagePixels]
  | cons row rest ih =>
      unfold PageFits at h
      rw [List.forall_mem_cons] at h
      rw [pagePixels, List.forall_mem_append]
      exact ⟨rowPixels_inside h.1.1 h.1.2, ih h.2 (y + 16)⟩

/-!
# Writing rows
-/

namespace Vga

section Write

variable (profile : Profile) (initrd : Initrd)

theorem writeLoop_style (bg : Nat) (style : Style) (self : Vga) (x y fg position : Nat)
    (rest : List Char) :
    writeLoop profile initrd bg self x y fg position (style.text.toList ++ rest) =
      (Traced.lift (applySequence initrd self fg style.sequence.text) >>= fun applied =>
        writeLoop profile initrd bg applied.1 x y applied.2 position rest) := by
  have hchars : style.text.toList ++ rest = '\x1b' :: (style.sequence.body ++ 'm' :: rest) := by
    rw [← style.chars_eq]
    simp
  rw [hchars, writeLoop_escape, takeWhile_complete, afterSequence_complete]
  rfl

theorem writeLoop_color (bg : Nat) {style : Style} {color : Nat}
    (h : style.sequence.color = some color) (self : Vga) (x y fg position : Nat)
    (rest : List Char) :
    writeLoop profile initrd bg self x y fg position (style.text.toList ++ rest) =
      writeLoop profile initrd bg self x y color position rest := by
  have hpath : style.sequence.path = none := by
    cases hpath : style.sequence.path with
    | none => rfl
    | some path =>
        rw [Sequence.color_of_path hpath] at h
        cases h
  rw [writeLoop_style, applySequence_eq, hpath, h]
  rfl

theorem writeLoop_font (bg : Nat) {style : Style} {path : String} {font : Font}
    (h : style.sequence.path = some path) (hfont : Font.new initrd path = .ok font) (self : Vga)
    (x y fg position : Nat) (rest : List Char) :
    writeLoop profile initrd bg self x y fg position (style.text.toList ++ rest) =
      writeLoop profile initrd bg (self.setFont font) x y fg position rest := by
  rw [writeLoop_style, applySequence_eq, h]
  simp only [hfont]
  rfl

theorem writeLoop_plain {c : Char} (hc : Letter.Plain c) {self : Vga} {x y : Nat} (hy : 12 <= y)
    (fg position : Nat) (rest : List Char) :
    writeLoop profile initrd Color.black self x y fg position (c :: rest) =
      Traced.after
        (Letter.pixels { character := c, fg, font := self.font } (x + 8 * position) y)
        (writeLoop profile initrd Color.black (self.setCursor (x + 8 * position) y fg Color.black)
          x y fg (position + 1) rest) := by
  have htarget : 12 <= (self.setCursor (x + 8 * position) y fg Color.black).cursor.y := hy
  rw [writeLoop_glyph _ _ _ _ _ _ _ _ _ hc.newline hc.carriageReturn hc.tab hc.escape,
    writeChar_rectangle profile htarget hc.inFont]
  rfl

theorem writeLoop_letters {chars : List Char} (h : forall c, c ∈ chars -> Letter.Plain c)
    {y : Nat} (hy : 12 <= y) (self : Vga) (x fg position : Nat) (rest : List Char) :
    exists cursor,
      writeLoop profile initrd Color.black self x y fg position (chars ++ rest) =
        Traced.after (rowPixels (x + 8 * position) y (letters fg self.font chars))
          (writeLoop profile initrd Color.black { self with cursor := cursor } x y fg
            (position + chars.length) rest) := by
  induction chars generalizing self position with
  | nil => exact ⟨self.cursor, rfl⟩
  | cons c chars ih =>
      rw [List.forall_mem_cons] at h
      rcases ih h.2 (self.setCursor (x + 8 * position) y fg Color.black) (position + 1) with
        ⟨cursor, hcursor⟩
      refine ⟨cursor, ?_⟩
      have hx : x + 8 * (position + 1) = x + 8 * position + 8 := by lia
      have hposition : position + 1 + chars.length = position + (c :: chars).length := by
        rw [List.length_cons]
        lia
      rw [List.cons_append, writeLoop_plain profile initrd h.1 hy, hcursor, Traced.after_after, hx,
        hposition]
      rfl

theorem writeLoop_rows {chars : List Char}
    (h : forall c, c ∈ chars -> c = '\n' ∨ Letter.Plain c) (fg : Nat) (font : Font) :
    forall (self : Vga) (y : Nat) (current : List Letter), 12 <= y -> self.font = font ->
      exists pixels,
        writeLoop profile initrd Color.black self 8 y fg current.length (chars ++ ['\n']) =
          Traced.emits pixels
            (self.setCursor 8 (y + 16 * (rows fg font current chars).length) fg Color.black) ∧
        rowPixels 8 y current ++ pixels = pagePixels y (rows fg font current chars) := by
  induction chars with
  | nil =>
      intro self y current hy hfont
      rw [List.nil_append, writeLoop_newline, writeLoop]
      refine ⟨[], rfl, ?_⟩
      simp [rows, pagePixels]
  | cons c chars ih =>
      intro self y current hy hfont
      rw [List.forall_mem_cons] at h
      rcases h with ⟨rfl | hc, hchars⟩
      · rcases ih hchars (self.setCursor 8 (y + 16) fg Color.black) (y + 16) [] (by lia) hfont with
          ⟨pixels, hloop, hpixels⟩
        have hrows : rows fg font current ('\n' :: chars) = current :: rows fg font [] chars := by
          rw [rows, if_pos rfl]
        have hy' : y + 16 + 16 * (rows fg font [] chars).length =
            y + 16 * (current :: rows fg font [] chars).length := by
          rw [List.length_cons]
          lia
        refine ⟨pixels, ?_, ?_⟩
        · rw [List.cons_append, writeLoop_newline, hrows, ← hy']
          exact hloop
        · rw [hrows, pagePixels, ← hpixels]
          rfl
      · let letter : Letter := { character := c, fg, font }
        rcases ih hchars (self.setCursor (8 + 8 * current.length) y fg Color.black) y
          (current ++ [letter]) hy hfont with ⟨pixels, hloop, hpixels⟩
        have hrows : rows fg font current (c :: chars) =
            rows fg font (current ++ [letter]) chars := by
          rw [rows, if_neg hc.newline]
        rw [List.length_append, List.length_singleton] at hloop
        refine ⟨letter.pixels (8 + 8 * current.length) y ++ pixels, ?_, ?_⟩
        · rw [List.cons_append, writeLoop_plain profile initrd hc hy, hloop, hrows, hfont]
          rfl
        · rw [hrows, ← hpixels, rowPixels_concat, List.append_assoc]

end Write

end Vga

end NeurOS
