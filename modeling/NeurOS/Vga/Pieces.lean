import Mathlib.Data.List.DropRight
import NeurOS.Vga.Bounds
import NeurOS.Vga.Tokens

/-!
# Texts written in pieces

Between two calls only the cursor and the font survive: the second call starts its
columns and its foreground from the cursor.  A glyph saves where it starts, a tab
forgets how many glyphs stood ahead of it, and a sequence saves no foreground, so
the cursor can lag behind the text.
-/

namespace NeurOS

open Foundation

/-!
# Kinds of tokens
-/

namespace Token

def isGlyph : Token -> Bool
  | glyph _ => true
  | _ => false

def isTab : Token -> Bool
  | tab => true
  | _ => false

def isBreak : Token -> Bool
  | newline => true
  | carriageReturn => true
  | _ => false

def moves : Token -> Bool
  | escape _ => false
  | _ => true

theorem exists_sequence {token : Token} (h : token.moves = false) :
    exists sequence, token = escape sequence := by
  cases token with
  | escape sequence => exact ⟨sequence, rfl⟩
  | glyph drawable => cases h
  | newline => cases h
  | carriageReturn => cases h
  | tab => cases h

section Moves

variable {token : Token}

theorem color_of_moves (h : token.moves = true) : token.color = none := by
  cases token with
  | escape sequence => cases h
  | _ => rfl

theorem stops_of_moves (initrd : Initrd) (h : token.moves = true) :
    token.stops initrd = false := by
  cases token with
  | escape sequence => cases h
  | _ => rfl

theorem fontFrom_of_moves (initrd : Initrd) (font : Font) (h : token.moves = true) :
    token.fontFrom initrd font = font := by
  cases token with
  | escape sequence => cases h
  | _ => rfl

end Moves

end Token

/-!
# Blank glyphs
-/

def Font.rows (self : Font) (c : Char) : List UInt8 :=
  (self.data.drop (c.toNat * 16)).take 16

def Font.blank (self : Font) (c : Char) : Bool :=
  (self.rows c).all fun row => Vga.masks.all fun mask => row &&& mask = 0

namespace Vga

/-- What two states share that differ in the column and in the foreground only. -/
structure Alike (first second : Vga) : Prop where
  y : first.cursor.y = second.cursor.y
  bg : first.cursor.bg = second.cursor.bg
  font : first.font = second.font
  height : first.height = second.height
  pitch : first.pitch = second.pitch
  width : first.width = second.width

theorem Alike.eq_iff {first second : Vga} (h : first.Alike second) :
    first = second <->
      first.cursor.x = second.cursor.x ∧ first.cursor.fg = second.cursor.fg := by
  rcases first with ⟨⟨x, y, fg, bg⟩, font, height, pitch, width⟩
  rcases second with ⟨⟨x', y', fg', bg'⟩, font', height', pitch', width'⟩
  rcases h with ⟨hy, hbg, hfont, hheight, hpitch, hwidth⟩
  cases hy
  cases hbg
  cases hfont
  cases hheight
  cases hpitch
  cases hwidth
  simp

def bitsOf (glyphs : List UInt8) : List ((UInt8 × Nat) × (UInt8 × Nat)) :=
  (glyphs.zipIdx.take 16) ×ˢ (masks.zipIdx.take 8)

def bitPixel (self : Vga) (bit : (UInt8 × Nat) × (UInt8 × Nat)) : Pixel where
  x := self.cursor.x + bit.2.2
  y := self.cursor.y + bit.1.2 - 12
  color := if bit.1.1 &&& bit.2.1 = 0 then self.cursor.bg else self.cursor.fg

theorem glyphPixels_eq (self : Vga) (glyphs : List UInt8) :
    self.glyphPixels glyphs = (bitsOf glyphs).map self.bitPixel := by
  change _ = ((glyphs.zipIdx.take 16).flatMap fun row =>
    (masks.zipIdx.take 8).map (Prod.mk row)).map self.bitPixel
  rw [List.map_flatMap]
  simp only [List.map_map]
  rfl

theorem bitsOf_rows {glyphs : List UInt8} {bit : (UInt8 × Nat) × (UInt8 × Nat)}
    (h : bit ∈ bitsOf glyphs) : bit.1.1 ∈ glyphs.take 16 ∧ bit.2.1 ∈ masks := by
  rcases List.mem_product.mp h with ⟨hrow, hmask⟩
  constructor
  · have hmem := List.mem_map_of_mem (f := Prod.fst) hrow
    rw [List.map_take, List.zipIdx_map_fst] at hmem
    exact hmem
  · exact List.mem_map_of_mem (f := Prod.fst) hmask

theorem exists_bit {glyphs : List UInt8} {row mask : UInt8} (hrow : row ∈ glyphs.take 16)
    (hmask : mask ∈ masks) :
    exists bit, bit ∈ bitsOf glyphs ∧ bit.1.1 = row ∧ bit.2.1 = mask := by
  have hrows : (glyphs.zipIdx.take 16).map Prod.fst = glyphs.take 16 := by
    rw [List.map_take, List.zipIdx_map_fst]
  have hmasks : (masks.zipIdx.take 8).map Prod.fst = masks := rfl
  rw [← hrows] at hrow
  rw [← hmasks] at hmask
  rcases List.mem_map.mp hrow with ⟨first, hfirst, hrow⟩
  rcases List.mem_map.mp hmask with ⟨second, hsecond, hmask⟩
  exact ⟨(first, second), List.mem_product.mpr ⟨hfirst, hsecond⟩, hrow, hmask⟩

theorem rows_length (font : Font) {c : Char} (h : c.toNat < 256) :
    (font.rows c).length = 16 := by
  unfold Font.rows
  rw [List.length_take, List.length_drop, font.data_length]
  lia

namespace Call

theorem pixels_eq (self : Call) :
    self.pixels =
      (bitsOf (self.vga.font.data.drop (self.character.toNat * 16))).map self.vga.bitPixel :=
  glyphPixels_eq ..

theorem pixels_length {self : Call} (h : self.character.toNat < 256) :
    self.pixels.length = 128 := by
  have hrows := rows_length self.vga.font h
  unfold Font.rows at hrows
  rw [pixels_eq, List.length_map, bitsOf, List.length_product, List.length_take,
    List.length_zipIdx, ← List.length_take, hrows]
  rfl

theorem pixels_eq_iff {first second : Call} (h : first.vga.Alike second.vga)
    (hcharacter : first.character = second.character) (hfont : first.character.toNat < 256) :
    first.pixels = second.pixels <->
      first.vga.cursor.x = second.vga.cursor.x ∧
        (first.vga.font.blank first.character = true ∨
          first.vga.cursor.fg = second.vga.cursor.fg) := by
  have hlength := rows_length first.vga.font hfont
  rw [pixels_eq, pixels_eq, ← hcharacter, ← h.font, List.map_inj_left]
  unfold Font.blank Font.rows at *
  generalize first.vga.font.data.drop (first.character.toNat * 16) = glyphs at *
  constructor
  · intro hequal
    constructor
    · have hpos : 0 < (glyphs.take 16).length := by lia
      rcases List.exists_mem_of_length_pos hpos with ⟨row, hrow⟩
      have hmask : 128 ∈ masks := List.mem_cons_self
      rcases exists_bit hrow hmask with ⟨bit, hbit, _⟩
      have hx := congrArg Pixel.x (hequal bit hbit)
      exact Nat.add_right_cancel hx
    · rw [or_iff_not_imp_left, Bool.not_eq_true, List.all_eq_false]
      rintro ⟨row, hrow, hmasks⟩
      rw [Bool.not_eq_true, List.all_eq_false] at hmasks
      rcases hmasks with ⟨mask, hmask, hlit⟩
      rw [decide_eq_true_eq] at hlit
      rcases exists_bit hrow hmask with ⟨bit, hbit, hbitRow, hbitMask⟩
      have hcolor := congrArg Pixel.color (hequal bit hbit)
      simp only [bitPixel, hbitRow, hbitMask, if_neg hlit] at hcolor
      exact hcolor
  · rintro ⟨hx, hcolor⟩ bit hbit
    rcases bitsOf_rows hbit with ⟨hrow, hmask⟩
    unfold bitPixel
    rw [hx, h.y, h.bg]
    cases hcolor with
    | inl hblank =>
        have hdark := List.all_eq_true.mp (List.all_eq_true.mp hblank _ hrow) _ hmask
        rw [decide_eq_true_eq] at hdark
        rw [if_pos hdark, if_pos hdark]
    | inr hfg => rw [hfg]

end Call

/-!
# Two runs of one text
-/

structure Column where
  x : Nat
  position : Nat
  saved : Nat

structure Tint where
  fg : Nat
  saved : Nat

def Column.next (self : Column) : Token -> Column
  | .glyph _ =>
      { x := self.x, position := self.position + 1, saved := self.x + 8 * self.position }
  | .newline => { x := 8, position := 0, saved := 8 }
  | .carriageReturn => { x := 8, position := 0, saved := 8 }
  | .tab => { x := self.x + 64, position := self.position, saved := self.x + 64 }
  | .escape _ => self

def Tint.next (self : Tint) : Token -> Tint
  | .escape sequence => { fg := sequence.color.getD self.fg, saved := self.saved }
  | _ => { fg := self.fg, saved := self.fg }

theorem Tint.next_of_moves (self : Tint) {token : Token} (h : token.moves = true) :
    self.next token = { fg := self.fg, saved := self.fg } := by
  cases token with
  | escape sequence => cases h
  | _ => rfl

namespace Pen

def column (self : Pen) : Column where
  x := self.x
  position := self.position
  saved := self.vga.cursor.x

def tint (self : Pen) : Tint where
  fg := self.fg
  saved := self.vga.cursor.fg

structure InLine (pen : Pen) (bg : Nat) : Prop where
  y : pen.vga.cursor.y = pen.y
  bg : pen.vga.cursor.bg = bg

variable (initrd : Initrd) {bg : Nat}

theorem next_column (self : Pen) (token : Token) :
    (self.next initrd bg token).column = self.column.next token := by
  cases token <;> rfl

theorem next_tint (self : Pen) (token : Token) :
    (self.next initrd bg token).tint = self.tint.next token := by
  cases token <;> rfl

theorem next_inLine {self : Pen} (h : self.InLine bg) (token : Token) :
    (self.next initrd bg token).InLine bg := by
  cases token with
  | glyph drawable => exact ⟨rfl, rfl⟩
  | newline => exact ⟨rfl, rfl⟩
  | carriageReturn => exact ⟨rfl, rfl⟩
  | tab => exact ⟨rfl, rfl⟩
  | escape sequence => exact ⟨h.y, h.bg⟩

theorem next_y_eq {first second : Pen} (h : first.y = second.y) (token : Token) :
    (first.next initrd bg token).y = (second.next initrd bg token).y := by
  cases token with
  | newline => exact congrArg (fun y => y + 16) h
  | glyph drawable => exact h
  | carriageReturn => exact h
  | tab => exact h
  | escape sequence => exact h

theorem next_alike {first second : Pen} (hy : first.y = second.y)
    (h : first.vga.Alike second.vga) (token : Token) :
    (first.next initrd bg token).vga.Alike (second.next initrd bg token).vga := by
  rcases h with ⟨hcursor, hbg, hfont, hheight, hpitch, hwidth⟩
  cases token with
  | glyph drawable => exact ⟨hy, rfl, hfont, hheight, hpitch, hwidth⟩
  | newline => exact ⟨congrArg (fun y => y + 16) hy, rfl, hfont, hheight, hpitch, hwidth⟩
  | carriageReturn => exact ⟨hy, rfl, hfont, hheight, hpitch, hwidth⟩
  | tab => exact ⟨hy, rfl, hfont, hheight, hpitch, hwidth⟩
  | escape sequence =>
      exact ⟨hcursor, hbg, congrArg (Token.fontFrom initrd · (.escape sequence)) hfont, hheight,
        hpitch, hwidth⟩

end Pen

def rendered (initrd : Initrd) (bg : Nat) (pen : Pen) (tokens : List Token) :
    Traced Pixel Vga :=
  (runTokens initrd bg pen tokens).expand Call.pixels >>= fun pen => pure pen.vga

theorem rendered_cons (initrd : Initrd) (bg : Nat) (pen : Pen) (token : Token)
    (rest : List Token) :
    rendered initrd bg pen (token :: rest) =
      match token.panic initrd with
      | some e => Traced.lift (.error e)
      | none =>
          Traced.after ((pen.calls bg token).flatMap Call.pixels)
            (rendered initrd bg (pen.next initrd bg token) rest) := by
  unfold rendered
  rw [runTokens]
  cases token.panic initrd with
  | some e => rfl
  | none =>
      simp only
      rw [Traced.expand_after, Traced.after_bind]

/-- Two runs draw in the same columns, and leave the same column. -/
def ColumnsAgree (initrd : Initrd) : Column -> Column -> List Token -> Prop
  | first, second, [] => first.saved = second.saved
  | first, second, token :: rest =>
      token.stops initrd = true ∨
        (token.isGlyph = true -> first.x + 8 * first.position = second.x + 8 * second.position) ∧
          ColumnsAgree initrd (first.next token) (second.next token) rest

/-- Two runs draw in the same foreground what is not blank, and leave the same foreground. -/
def TintsAgree (initrd : Initrd) (font : Font) : Tint -> Tint -> List Token -> Prop
  | first, second, [] => first.saved = second.saved
  | first, second, token :: rest =>
      token.stops initrd = true ∨
        (forall drawable, token = .glyph drawable ->
          font.blank drawable.char = true ∨ first.fg = second.fg) ∧
          TintsAgree initrd (token.fontFrom initrd font) (first.next token) (second.next token)
            rest

theorem calls_pixels_iff {bg : Nat} {first second : Pen} (hy : first.y = second.y)
    (h : first.vga.Alike second.vga) (token : Token) :
    (first.calls bg token).flatMap Call.pixels = (second.calls bg token).flatMap Call.pixels <->
      (token.isGlyph = true ->
        first.x + 8 * first.position = second.x + 8 * second.position) ∧
        forall drawable, token = .glyph drawable ->
          first.vga.font.blank drawable.char = true ∨ first.fg = second.fg := by
  cases token with
  | newline => simp [Pen.calls, Token.isGlyph]
  | carriageReturn => simp [Pen.calls, Token.isGlyph]
  | tab => simp [Pen.calls, Token.isGlyph]
  | escape sequence => simp [Pen.calls, Token.isGlyph]
  | glyph drawable =>
      have htarget : (first.target bg).Alike (second.target bg) :=
        ⟨hy, rfl, h.font, h.height, h.pitch, h.width⟩
      let firstCall : Call := { vga := first.target bg, character := drawable.char }
      let secondCall : Call := { vga := second.target bg, character := drawable.char }
      have hpixels : firstCall.pixels = secondCall.pixels <-> _ :=
        Call.pixels_eq_iff htarget rfl drawable.inFont
      simp only [Pen.calls, List.flatMap_singleton, Token.isGlyph]
      rw [hpixels]
      simp [firstCall, Pen.target, setCursor, secondCall]

theorem calls_pixels_length {bg : Nat} (first second : Pen) (token : Token) :
    ((first.calls bg token).flatMap Call.pixels).length =
      ((second.calls bg token).flatMap Call.pixels).length := by
  cases token with
  | glyph drawable =>
      simp only [Pen.calls, List.flatMap_singleton]
      rw [Call.pixels_length drawable.inFont, Call.pixels_length drawable.inFont]
  | newline => rfl
  | carriageReturn => rfl
  | tab => rfl
  | escape sequence => rfl

theorem rendered_eq_iff (initrd : Initrd) (bg : Nat) {first second : Pen}
    (hy : first.y = second.y) (h : first.vga.Alike second.vga) (tokens : List Token) :
    rendered initrd bg first tokens = rendered initrd bg second tokens <->
      ColumnsAgree initrd first.column second.column tokens ∧
        TintsAgree initrd first.vga.font first.tint second.tint tokens := by
  induction tokens generalizing first second with
  | nil =>
      change Traced.emits [] first.vga = Traced.emits [] second.vga <-> _
      unfold Traced.emits
      rw [Traced.mk.injEq, Except.ok.injEq, and_iff_right rfl, h.eq_iff]
      rfl
  | cons token rest ih =>
      rw [rendered_cons, rendered_cons]
      unfold ColumnsAgree TintsAgree Token.stops
      cases token.panic initrd with
      | some e => simp
      | none =>
          simp only [Option.isSome_none, Bool.false_eq_true, false_or]
          rw [Traced.after_inj (calls_pixels_length first second token),
            ih (Pen.next_y_eq initrd hy token) (Pen.next_alike initrd hy h token),
            calls_pixels_iff hy h token, Pen.next_column, Pen.next_column, Pen.next_tint,
            Pen.next_tint, Pen.next_font]
          exact and_and_and_comm

/-!
# Where two runs agree
-/

/-- The tokens ahead of the first that starts a line over or stops. -/
def firstLine (initrd : Initrd) (tokens : List Token) : List Token :=
  tokens.takeWhile fun token => !token.isBreak && !token.stops initrd

def untilColor (initrd : Initrd) (tokens : List Token) : List Token :=
  tokens.takeWhile fun token => token.color.isNone && !token.stops initrd

def fromColor (tokens : List Token) : List Token :=
  tokens.dropWhile fun token => token.color.isNone

def invisible (initrd : Initrd) : Font -> List Token -> Bool
  | _, [] => true
  | font, .glyph drawable :: rest => font.blank drawable.char && invisible initrd font rest
  | font, token :: rest => invisible initrd (token.fontFrom initrd font) rest

section Agree

variable {initrd : Initrd}

theorem columnsAgree_self (column : Column) (tokens : List Token) :
    ColumnsAgree initrd column column tokens := by
  induction tokens generalizing column with
  | nil => rfl
  | cons token rest ih => exact Or.inr ⟨fun _ => rfl, ih (column.next token)⟩

theorem tintsAgree_self (font : Font) (tint : Tint) (tokens : List Token) :
    TintsAgree initrd font tint tint tokens := by
  induction tokens generalizing font tint with
  | nil => rfl
  | cons token rest ih => exact Or.inr ⟨fun _ _ => Or.inr rfl, ih _ (tint.next token)⟩

/-- Runs whose next glyphs would stand apart agree if there is no glyph ahead of the first
break, and nothing of the difference is left at the end. -/
theorem columnsAgree_iff {first second : Column}
    (h : first.x + 8 * first.position ≠ second.x + 8 * second.position) (tokens : List Token) :
    ColumnsAgree initrd first second tokens <->
      (firstLine initrd tokens).any Token.isGlyph = false ∧
        (tokens.any (Token.stops initrd) = true ∨ tokens.any Token.isBreak = true ∨
          (tokens.any Token.isTab = false ∧ first.saved = second.saved) ∨
          (tokens.any Token.isTab = true ∧ first.x = second.x)) := by
  induction tokens generalizing first second with
  | nil => simp [ColumnsAgree, firstLine]
  | cons token rest ih =>
      cases token with
      | newline =>
          have hsame : ColumnsAgree initrd (first.next .newline) (second.next .newline) rest :=
            columnsAgree_self _ rest
          simpa [ColumnsAgree, firstLine, Token.stops, Token.panic, Token.isBreak,
            Token.isGlyph] using hsame
      | carriageReturn =>
          have hsame : ColumnsAgree initrd (first.next .carriageReturn)
              (second.next .carriageReturn) rest :=
            columnsAgree_self _ rest
          simpa [ColumnsAgree, firstLine, Token.stops, Token.panic, Token.isBreak,
            Token.isGlyph] using hsame
      | glyph drawable =>
          simp [ColumnsAgree, firstLine, Token.stops, Token.panic, Token.isBreak,
            Token.isGlyph, h]
      | tab =>
          have hnext : (first.next .tab).x + 8 * (first.next .tab).position ≠
              (second.next .tab).x + 8 * (second.next .tab).position := by
            simp only [Column.next]
            lia
          have hrest := ih hnext
          simp only [Column.next, Nat.add_right_cancel_iff] at hrest
          -- Behind a tab the saved column is the one that the loop keeps.
          have hjoin : ((rest.any Token.isTab = false ∧ first.x = second.x) ∨
              rest.any Token.isTab = true ∧ first.x = second.x) <-> first.x = second.x := by
            cases rest.any Token.isTab with
            | false => simp
            | true => simp
          rw [hjoin] at hrest
          simpa [ColumnsAgree, firstLine, Token.stops, Token.panic, Token.isBreak,
            Token.isGlyph, Token.isTab, Column.next] using hrest
      | escape sequence =>
          have hrest := ih h
          cases hstops : Token.stops initrd (.escape sequence) with
          | true => simp [ColumnsAgree, firstLine, hstops]
          | false =>
              simpa [ColumnsAgree, firstLine, hstops, Token.isBreak, Token.isGlyph,
                Token.isTab, Column.next] using hrest

theorem tintsAgree_of_fg (font : Font) {first second : Tint} (h : first.fg = second.fg)
    (tokens : List Token) :
    TintsAgree initrd font first second tokens <->
      tokens.any (Token.stops initrd) = true ∨ tokens.any Token.moves = true ∨
        first.saved = second.saved := by
  induction tokens generalizing font first second with
  | nil => simp [TintsAgree]
  | cons token rest ih =>
      cases hmoves : token.moves with
      | true =>
          have hnext : first.next token = second.next token := by
            rw [first.next_of_moves hmoves, second.next_of_moves hmoves, h]
          have hsame : TintsAgree initrd (token.fontFrom initrd font) (first.next token)
              (second.next token) rest := by
            rw [hnext]
            exact tintsAgree_self _ _ rest
          simp [TintsAgree, hmoves, h, hsame]
      | false =>
          rcases Token.exists_sequence hmoves with ⟨sequence, rfl⟩
          have hfg : (first.next (.escape sequence)).fg = (second.next (.escape sequence)).fg :=
            congrArg sequence.color.getD h
          have hrest := ih (Token.fontFrom initrd font (.escape sequence)) hfg
          cases hstops : Token.stops initrd (.escape sequence) with
          | true => simp [TintsAgree, hstops]
          | false => simpa [TintsAgree, hstops, hmoves, Tint.next] using hrest

theorem invisible_cons_iff (font : Font) {token : Token} (h : token.moves = true)
    (rest : List Token) :
    invisible initrd font (token :: rest) = true <->
      (forall drawable, token = .glyph drawable -> font.blank drawable.char = true) ∧
        invisible initrd font rest = true := by
  cases token with
  | glyph drawable => simp [invisible]
  | newline => simp [invisible, Token.fontFrom]
  | carriageReturn => simp [invisible, Token.fontFrom]
  | tab => simp [invisible, Token.fontFrom]
  | escape sequence => cases h

/-- Runs with two foregrounds agree if nothing shows ahead of the first sequence that sets
the foreground, and the cursor is saved behind it or nowhere. -/
theorem tintsAgree_iff {font : Font} {first second : Tint} (h : first.fg ≠ second.fg)
    (tokens : List Token) :
    TintsAgree initrd font first second tokens <->
      invisible initrd font (untilColor initrd tokens) = true ∧
        (tokens.any (Token.stops initrd) = true ∨
          (fromColor tokens).any Token.moves = true ∨
          ((untilColor initrd tokens).any Token.moves = false ∧
            first.saved = second.saved)) := by
  induction tokens generalizing font first second with
  | nil => simp [TintsAgree, untilColor, fromColor, invisible]
  | cons token rest ih =>
      cases hmoves : token.moves with
      | true =>
          have huntil : untilColor initrd (token :: rest) = token :: untilColor initrd rest := by
            simp [untilColor, Token.color_of_moves hmoves, Token.stops_of_moves initrd hmoves]
          have hfrom : fromColor (token :: rest) = fromColor rest := by
            simp [fromColor, Token.color_of_moves hmoves]
          have hfg : (first.next token).fg ≠ (second.next token).fg := by
            rw [first.next_of_moves hmoves, second.next_of_moves hmoves]
            exact h
          have hsaved : (first.next token).saved ≠ (second.next token).saved := by
            rw [first.next_of_moves hmoves, second.next_of_moves hmoves]
            exact h
          rw [TintsAgree, Token.fontFrom_of_moves initrd font hmoves, ih hfg, huntil, hfrom,
            invisible_cons_iff font hmoves]
          simp [Token.stops_of_moves initrd hmoves, hmoves, h, hsaved, and_assoc]
      | false =>
          rcases Token.exists_sequence hmoves with ⟨sequence, rfl⟩
          cases hstops : Token.stops initrd (.escape sequence) with
          | true => simp [TintsAgree, hstops, untilColor, invisible]
          | false =>
              cases hcolor : sequence.color with
              | none =>
                  have hrest : TintsAgree initrd
                      (Token.fontFrom initrd font (.escape sequence)) first second rest <-> _ :=
                    ih h
                  simpa [TintsAgree, hstops, untilColor, fromColor, Token.color, hcolor,
                    invisible, hmoves, Tint.next] using hrest
              | some color =>
                  have hfg : (first.next (.escape sequence)).fg =
                      (second.next (.escape sequence)).fg := by
                    simp only [Tint.next, hcolor, Option.getD_some]
                  have hrest : TintsAgree initrd
                      (Token.fontFrom initrd font (.escape sequence))
                      (first.next (.escape sequence)) (second.next (.escape sequence)) rest <->
                        _ :=
                    tintsAgree_of_fg _ hfg rest
                  simpa [TintsAgree, hstops, untilColor, fromColor, Token.color, hcolor,
                    invisible, hmoves, Tint.next] using hrest

end Agree

/-!
# The first piece
-/

def lastLine (tokens : List Token) : List Token :=
  tokens.rtakeWhile fun token => !token.isBreak

def endsInGlyph (tokens : List Token) : Bool :=
  (tokens.filter Token.moves).getLast?.any Token.isGlyph

def savedPart (tokens : List Token) : List Token :=
  tokens.rdropWhile fun token => !token.moves

def colorBehind (fg : Nat) (tokens : List Token) : Nat :=
  (tokens.filterMap Token.color).getLastD fg

def fontBehind (initrd : Initrd) (font : Font) (tokens : List Token) : Font :=
  tokens.foldl (Token.fontFrom initrd) font

theorem colorBehind_concat (fg : Nat) (tokens : List Token) (token : Token) :
    colorBehind fg (tokens ++ [token]) = token.color.getD (colorBehind fg tokens) := by
  unfold colorBehind
  rw [List.filterMap_append]
  cases hcolor : token.color with
  | none => simp [hcolor]
  | some color => simp [hcolor]

namespace Pen

variable (initrd : Initrd) (bg : Nat)

theorem behind_concat (self : Pen) (tokens : List Token) (token : Token) :
    self.behind initrd bg (tokens ++ [token]) =
      (self.behind initrd bg tokens).next initrd bg token := by
  rw [behind, List.foldl_concat]
  rfl

theorem behind_inLine {bg : Nat} {self : Pen} (h : self.InLine bg) (tokens : List Token) :
    (self.behind initrd bg tokens).InLine bg := by
  induction tokens using List.reverseRecOn with
  | nil => exact h
  | append_singleton tokens token ih =>
      rw [behind_concat]
      exact next_inLine initrd ih token

theorem behind_high {self : Pen} (h : 12 <= self.y) (tokens : List Token) :
    12 <= (self.behind initrd bg tokens).y := by
  induction tokens using List.reverseRecOn with
  | nil => exact h
  | append_singleton tokens token ih =>
      rw [behind_concat]
      exact next_high ih token

theorem behind_font (self : Pen) (tokens : List Token) :
    (self.behind initrd bg tokens).vga.font = fontBehind initrd self.vga.font tokens := by
  induction tokens using List.reverseRecOn with
  | nil => rfl
  | append_singleton tokens token ih =>
      rw [behind_concat, next_font, ih, fontBehind, fontBehind, List.foldl_concat]

theorem behind_position {self : Pen} (h : self.position = 0) (tokens : List Token) :
    (self.behind initrd bg tokens).position = (lastLine tokens).countP Token.isGlyph := by
  induction tokens using List.reverseRecOn with
  | nil => exact h
  | append_singleton tokens token ih =>
      rw [behind_concat, lastLine, List.rtakeWhile_concat]
      cases token with
      | newline => rfl
      | carriageReturn => rfl
      | glyph drawable =>
          simp only [Pen.next, ih, Token.isBreak, Bool.not_false, if_true]
          rw [List.countP_append]
          rfl
      | tab =>
          simp only [Pen.next, moved, ih, Token.isBreak, Bool.not_false, if_true]
          rw [List.countP_append]
          rfl
      | escape sequence =>
          simp only [Pen.next, ih, Token.isBreak, Bool.not_false, if_true]
          rw [List.countP_append]
          rfl

theorem behind_x {self : Pen} (h : self.vga.cursor.x = self.x) (tokens : List Token) :
    let pen := self.behind initrd bg tokens
    if endsInGlyph tokens = true then
      0 < pen.position ∧ pen.vga.cursor.x + 8 = pen.x + 8 * pen.position
    else
      pen.vga.cursor.x = pen.x := by
  induction tokens using List.reverseRecOn with
  | nil => exact h
  | append_singleton tokens token ih =>
      simp only [behind_concat] at ih ⊢
      unfold endsInGlyph at *
      rw [List.filter_append]
      cases token with
      | newline => simp [Token.moves, Token.isGlyph, Pen.next, moved, setCursor]
      | carriageReturn => simp [Token.moves, Token.isGlyph, Pen.next, moved, setCursor]
      | tab => simp [Token.moves, Token.isGlyph, Pen.next, moved, setCursor]
      | glyph drawable =>
          simp [Token.moves, Token.isGlyph, Pen.next, target, setCursor]
          lia
      | escape sequence => simpa [Token.moves, Pen.next] using ih

theorem behind_fg (self : Pen) (tokens : List Token) :
    (self.behind initrd bg tokens).fg = colorBehind self.fg tokens := by
  induction tokens using List.reverseRecOn with
  | nil => rfl
  | append_singleton tokens token ih =>
      rw [behind_concat, colorBehind_concat, ← ih]
      cases token with
      | escape sequence => rfl
      | _ => rfl

theorem next_saved_of_moves (self : Pen) {token : Token} (h : token.moves = true) :
    (self.next initrd bg token).vga.cursor.fg = self.fg := by
  cases token with
  | escape sequence => cases h
  | _ => rfl

theorem behind_saved_fg {self : Pen} (h : self.vga.cursor.fg = self.fg) (tokens : List Token) :
    (self.behind initrd bg tokens).vga.cursor.fg = colorBehind self.fg (savedPart tokens) := by
  induction tokens using List.reverseRecOn with
  | nil => exact h
  | append_singleton tokens token ih =>
      rw [behind_concat, savedPart, List.rdropWhile_concat]
      cases hmoves : token.moves with
      | true =>
          simp only [Bool.not_true, Bool.false_eq_true, if_false]
          rw [next_saved_of_moves initrd bg _ hmoves, behind_fg, colorBehind_concat,
            Token.color_of_moves hmoves, Option.getD_none]
      | false =>
          rcases Token.exists_sequence hmoves with ⟨sequence, rfl⟩
          exact ih

end Pen

/-!
# The second piece
-/

section Pieces

variable (profile : Profile) {initrd : Initrd} {self : Vga}

theorem start_alike {bg : Nat} {pen : Pen} (h : pen.InLine bg) :
    (Pen.start pen.vga).y = pen.y ∧ (Pen.start pen.vga).vga.Alike pen.vga :=
  ⟨h.y, ⟨rfl, rfl, rfl, rfl, rfl, rfl⟩⟩

theorem draws_rendered (initrd : Initrd) (self : Vga) (tokens : List Token) :
    (self.draws initrd tokens).expand Call.pixels =
      rendered initrd self.cursor.bg (Pen.start self) tokens :=
  Traced.expand_bind ..

/-- Behind a first piece that does not stop, the second is drawn from the cursor, and would
have been drawn from the variables of the loop. -/
theorem pieces_iff_agree (h : 12 <= self.cursor.y) {first : List Token}
    (hlive : first.any (Token.stops initrd) = false) (second : List Token) :
    let pen := (Pen.start self).behind initrd self.cursor.bg first
    (self.writeStr profile initrd (textOf first) >>= fun self =>
        self.writeStr profile initrd (textOf second)) =
      self.writeStr profile initrd (textOf first ++ textOf second) <->
      ColumnsAgree initrd (Pen.start pen.vga).column pen.column second ∧
        TintsAgree initrd pen.vga.font (Pen.start pen.vga).tint pen.tint second := by
  intro pen
  have hstart : 12 <= (Pen.start self).y := h
  have hstartLine : (Pen.start self).InLine self.cursor.bg := ⟨rfl, rfl⟩
  have hline : pen.InLine self.cursor.bg := Pen.behind_inLine initrd hstartLine first
  have hhigh : 12 <= pen.vga.cursor.y := by
    rw [hline.y]
    exact Pen.behind_high initrd self.cursor.bg hstart first
  rw [textOf_append, writeStr_tokens profile initrd h, writeStr_tokens profile initrd h,
    draws_rendered, draws_rendered, rendered, rendered, runTokens_append,
    runTokens_live _ _ hlive, Traced.emits_bind, Traced.expand_emits, Traced.expand_after,
    Traced.after_bind, Traced.emits_bind, Traced.after_bind, Traced.after_right_inj,
    Traced.pure_bind, writeStr_tokens profile initrd hhigh, draws_rendered, hline.bg]
  rcases start_alike hline with ⟨hy, halike⟩
  exact rendered_eq_iff initrd self.cursor.bg hy halike second

/-- The column of the second piece does not depend on where the first was cut off. -/
def PlaceKept (initrd : Initrd) (first second : List Token) : Prop :=
  (lastLine first).countP Token.isGlyph = 0 ∨
    (firstLine initrd second).any Token.isGlyph = false ∧
      (second.any (Token.stops initrd) = true ∨ second.any Token.isBreak = true ∨
        second.any Token.isTab = false ∨ endsInGlyph first = false ∨
          (lastLine first).countP Token.isGlyph = 1)

/-- The foreground of the second piece does not depend on where the first was cut off. -/
def ColorKept (initrd : Initrd) (self : Vga) (first second : List Token) : Prop :=
  colorBehind self.cursor.fg (savedPart first) = colorBehind self.cursor.fg first ∨
    invisible initrd (fontBehind initrd self.font first) (untilColor initrd second) = true ∧
      (second.any (Token.stops initrd) = true ∨ (fromColor second).any Token.moves = true ∨
        (untilColor initrd second).any Token.moves = false)

instance (initrd : Initrd) (first second : List Token) :
    Decidable (PlaceKept initrd first second) := by
  unfold PlaceKept
  infer_instance

instance (initrd : Initrd) (self : Vga) (first second : List Token) :
    Decidable (ColorKept initrd self first second) := by
  unfold ColorKept
  infer_instance

theorem columnsAgree_iff_kept (bg : Nat) (first second : List Token) :
    let pen := (Pen.start self).behind initrd bg first
    ColumnsAgree initrd (Pen.start pen.vga).column pen.column second <->
      PlaceKept initrd first second := by
  intro pen
  have hposition : pen.position = (lastLine first).countP Token.isGlyph :=
    Pen.behind_position initrd bg rfl first
  have hstart : (Pen.start self).vga.cursor.x = (Pen.start self).x := rfl
  have hx : if endsInGlyph first = true then
      0 < pen.position ∧ pen.vga.cursor.x + 8 = pen.x + 8 * pen.position
    else
      pen.vga.cursor.x = pen.x :=
    Pen.behind_x initrd bg hstart first
  unfold PlaceKept
  rw [← hposition]
  cases Nat.eq_zero_or_pos pen.position with
  | inl hzero =>
      have hends : endsInGlyph first = false := by
        cases hends : endsInGlyph first with
        | false => rfl
        | true =>
            rw [hends, if_pos rfl] at hx
            lia
      rw [hends, if_neg Bool.false_ne_true] at hx
      have hcolumn : (Pen.start pen.vga).column = pen.column := by
        simp only [Pen.column, Pen.start, hx, hzero]
      rw [hcolumn]
      exact iff_of_true (columnsAgree_self _ second) (Or.inl hzero)
  | inr hpos =>
      have hapart : (Pen.start pen.vga).column.x + 8 * (Pen.start pen.vga).column.position ≠
          pen.column.x + 8 * pen.column.position := by
        simp only [Pen.column, Pen.start]
        split at hx
        · lia
        · lia
      have hbase : (Pen.start pen.vga).column.x = pen.column.x <->
          endsInGlyph first = false ∨ pen.position = 1 := by
        simp only [Pen.column, Pen.start]
        cases hends : endsInGlyph first with
        | false =>
            rw [hends, if_neg Bool.false_ne_true] at hx
            exact iff_of_true hx (Or.inl rfl)
        | true =>
            rw [hends, if_pos rfl] at hx
            rw [or_iff_right (by simp)]
            lia
      have hsaved : (Pen.start pen.vga).column.saved = pen.column.saved := rfl
      rw [columnsAgree_iff hapart, or_iff_right (Nat.ne_of_gt hpos), hbase]
      cases second.any Token.isTab with
      | false => simp [hsaved]
      | true => simp

theorem tintsAgree_iff_kept (first second : List Token) :
    let pen := (Pen.start self).behind initrd self.cursor.bg first
    TintsAgree initrd pen.vga.font (Pen.start pen.vga).tint pen.tint second <->
      ColorKept initrd self first second := by
  intro pen
  have hfg : pen.fg = colorBehind self.cursor.fg first :=
    Pen.behind_fg initrd self.cursor.bg (Pen.start self) first
  have hsaved : pen.vga.cursor.fg = colorBehind self.cursor.fg (savedPart first) :=
    Pen.behind_saved_fg initrd self.cursor.bg rfl first
  have hfont : pen.vga.font = fontBehind initrd self.font first :=
    Pen.behind_font initrd self.cursor.bg (Pen.start self) first
  unfold ColorKept
  rw [← hfg, ← hsaved, ← hfont]
  cases Nat.decEq pen.vga.cursor.fg pen.fg with
  | isTrue hsame =>
      have htint : (Pen.start pen.vga).tint = pen.tint := by
        simp only [Pen.tint, Pen.start, hsame]
      rw [htint]
      exact iff_of_true (tintsAgree_self _ _ second) (Or.inl hsame)
  | isFalse hother =>
      have hapart : (Pen.start pen.vga).tint.fg ≠ pen.tint.fg := hother
      have hcursor : (Pen.start pen.vga).tint.saved = pen.tint.saved := rfl
      rw [tintsAgree_iff hapart, or_iff_right hother, and_iff_left hcursor]

/-- Two calls write what one call writes exactly when the first stops, or the cursor that it
leaves accounts for the column and for the foreground of what follows. -/
theorem pieces_iff (h : 12 <= self.cursor.y) (first second : List Token) :
    (self.writeStr profile initrd (textOf first) >>= fun self =>
        self.writeStr profile initrd (textOf second)) =
      self.writeStr profile initrd (textOf first ++ textOf second) <->
      first.any (Token.stops initrd) = true ∨
        PlaceKept initrd first second ∧ ColorKept initrd self first second := by
  cases hstops : first.any (Token.stops initrd) with
  | false =>
      rw [or_iff_right Bool.false_ne_true]
      exact (pieces_iff_agree profile h hstops second).trans
        (and_congr (columnsAgree_iff_kept self.cursor.bg first second)
          (tintsAgree_iff_kept first second))
  | true =>
      apply iff_of_true _ (Or.inl rfl)
      rcases runTokens_stopped self.cursor.bg (Pen.start self) hstops with ⟨e, he⟩
      rw [textOf_append, writeStr_tokens profile initrd h, writeStr_tokens profile initrd h,
        draws, draws, runTokens_append, Traced.bind_assoc, Traced.bind_error he,
        Traced.bind_error he]
      rfl

end Pieces

/-!
# Two letters
-/

def letterA : Token :=
  .glyph
    { char := 'a', newline := by simp, carriageReturn := by simp, tab := by simp,
      escape := by simp, inFont := by simp }

def letterB : Token :=
  .glyph
    { char := 'b', newline := by simp, carriageReturn := by simp, tab := by simp,
      escape := by simp, inFont := by simp }

theorem pieces_iff_sample :
    12 <= Screen.clearedVga.cursor.y ∧
      (Screen.clearedVga.writeStr .dev Screen.fontInitrd (textOf [letterA, .newline]) >>=
        fun self => self.writeStr .dev Screen.fontInitrd (textOf [letterB])) =
        Screen.clearedVga.writeStr .dev Screen.fontInitrd
          (textOf [letterA, .newline] ++ textOf [letterB]) := by
  have hhigh : 12 <= Screen.clearedVga.cursor.y := Nat.le_add_left 12 12
  exact ⟨hhigh, (pieces_iff .dev hhigh _ _).mpr (Or.inr ⟨by decide, by decide⟩)⟩

/-- The second of two letters that are written one by one is drawn over the first. -/
theorem second_letter_overdraws :
    Not ((Screen.clearedVga.writeStr .dev Screen.fontInitrd "a" >>= fun self =>
        self.writeStr .dev Screen.fontInitrd "b") =
      Screen.clearedVga.writeStr .dev Screen.fontInitrd ("a" ++ "b")) := by
  have hhigh : 12 <= Screen.clearedVga.cursor.y := Nat.le_add_left 12 12
  have hfirst : "a" = textOf [letterA] := by decide
  have hsecond : "b" = textOf [letterB] := by decide
  rw [hfirst, hsecond]
  intro hequal
  rcases (pieces_iff_agree .dev hhigh rfl _).mp hequal with ⟨hcolumns, _⟩
  cases hcolumns with
  | inl hstops => cases hstops
  | inr hcolumns =>
      have hplace : 8 + 8 * 0 = 8 + 8 * 1 := hcolumns.1 rfl
      lia

end Vga

end NeurOS
