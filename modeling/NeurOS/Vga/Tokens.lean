import NeurOS.Vga.Drawing

/-!
# Texts as tokens

A text that ends inside no escape sequence is a list of tokens: characters of the
font, control characters and complete sequences.  The loop over the characters
takes one token after the other, and draws a character with one call.
-/

namespace NeurOS

open Foundation

/-!
# Tokens
-/

structure Drawable where
  char : Char
  newline : char ≠ '\n'
  carriageReturn : char ≠ '\r'
  tab : char ≠ '\t'
  escape : char ≠ '\x1b'
  inFont : char.toNat < 256

structure Sequence where
  body : List Char
  complete : Not ('m' ∈ body)

namespace Sequence

def text (self : Sequence) : String :=
  String.ofList ('\x1b' :: self.body ++ ['m'])

theorem body_ne (self : Sequence) :
    forall c, c ∈ self.body -> decide (c ≠ 'm') = true := by
  intro c hc
  rw [decide_eq_true_eq]
  intro hm
  rw [hm] at hc
  exact self.complete hc

def path (self : Sequence) : Option String :=
  if self.text = Ansi.bold then
    some Font.boldPath
  else if self.text = Ansi.normal then
    some Font.normalPath
  else
    none

def color (self : Sequence) : Option Nat :=
  if self.text = Ansi.blue then
    some Color.blue
  else if self.text = Ansi.default then
    some Color.white
  else if self.text = Ansi.green then
    some Color.green
  else if self.text = Ansi.orange then
    some Color.orange
  else if self.text = Ansi.purple then
    some Color.purple
  else if self.text = Ansi.red then
    some Color.red
  else if self.text = Ansi.yellow then
    some Color.yellow
  else
    none

theorem color_of_path {self : Sequence} {path : String} (h : self.path = some path) :
    self.color = none := by
  unfold Sequence.path at h
  unfold color
  generalize self.text = text at h
  by_cases hbold : text = Ansi.bold
  · rw [hbold]
    decide
  · rw [if_neg hbold] at h
    by_cases hnormal : text = Ansi.normal
    · rw [hnormal]
      decide
    · rw [if_neg hnormal] at h
      cases h

end Sequence

inductive Token where
  | glyph (drawable : Drawable)
  | newline
  | carriageReturn
  | tab
  | escape (sequence : Sequence)

namespace Token

def chars : Token -> List Char
  | glyph drawable => [drawable.char]
  | newline => ['\n']
  | carriageReturn => ['\r']
  | tab => ['\t']
  | escape sequence => '\x1b' :: sequence.body ++ ['m']

def color : Token -> Option Nat
  | escape sequence => sequence.color
  | _ => none

def panic (initrd : Initrd) : Token -> Option Panic
  | escape sequence =>
      match sequence.path with
      | some path =>
          match Font.new initrd path with
          | .error e => some e
          | .ok _ => none
      | none => none
  | _ => none

def stops (initrd : Initrd) (self : Token) : Bool :=
  (self.panic initrd).isSome

def fontFrom (initrd : Initrd) (font : Font) : Token -> Font
  | escape sequence =>
      match sequence.path with
      | some path => (Font.new initrd path).toOption.getD font
      | none => font
  | _ => font

end Token

def textOf (tokens : List Token) : String :=
  String.ofList (tokens.flatMap Token.chars)

theorem textOf_append (first second : List Token) :
    textOf first ++ textOf second = textOf (first ++ second) := by
  rw [textOf, textOf, textOf, List.flatMap_append, String.ofList_append]

namespace Vga

theorem applySequence_eq (initrd : Initrd) (self : Vga) (fg : Nat) (sequence : Sequence) :
    applySequence initrd self fg sequence.text =
      match sequence.path with
      | some path => do
          let font ← Font.new initrd path
          .ok ({ self with font := font }, fg)
      | none => .ok (self, sequence.color.getD fg) := by
  unfold applySequence Sequence.path Sequence.color
  generalize sequence.text = text
  by_cases hbold : text = Ansi.bold
  · rw [if_pos hbold, if_pos hbold]
  rw [if_neg hbold, if_neg hbold]
  by_cases hnormal : text = Ansi.normal
  · rw [hnormal]
    rfl
  · simp only [if_neg hnormal]
    repeat' split
    all_goals rfl

/-!
# The loop over tokens
-/

/-- One call that draws a character, on the state that it is made on. -/
structure Call where
  vga : Vga
  character : Char

def Call.pixels (self : Call) : List Pixel :=
  self.vga.glyphPixels (self.vga.font.data.drop (self.character.toNat * 16))

structure Pen where
  vga : Vga
  x : Nat
  y : Nat
  fg : Nat
  position : Nat

namespace Pen

def start (vga : Vga) : Pen where
  vga := vga
  x := vga.cursor.x
  y := vga.cursor.y
  fg := vga.cursor.fg
  position := 0

def moved (self : Pen) (x y position bg : Nat) : Pen where
  vga := self.vga.setCursor x y self.fg bg
  x := x
  y := y
  fg := self.fg
  position := position

def target (self : Pen) (bg : Nat) : Vga :=
  self.vga.setCursor (self.x + 8 * self.position) self.y self.fg bg

def next (initrd : Initrd) (bg : Nat) (self : Pen) : Token -> Pen
  | .glyph _ => { self with vga := self.target bg, position := self.position + 1 }
  | .newline => self.moved 8 (self.y + 16) 0 bg
  | .carriageReturn => self.moved 8 self.y 0 bg
  | .tab => self.moved (self.x + 64) self.y self.position bg
  | .escape sequence =>
      { self with
        vga := { self.vga with font := Token.fontFrom initrd self.vga.font (.escape sequence) }
        fg := sequence.color.getD self.fg }

theorem next_escape_fg (initrd : Initrd) (bg : Nat) (self : Pen) (sequence : Sequence) :
    (self.next initrd bg (.escape sequence)).fg = sequence.color.getD self.fg := rfl

theorem next_font (initrd : Initrd) (bg : Nat) (self : Pen) (token : Token) :
    (self.next initrd bg token).vga.font = token.fontFrom initrd self.vga.font := by
  cases token <;> rfl

def calls (bg : Nat) (self : Pen) : Token -> List Call
  | .glyph drawable => [{ vga := self.target bg, character := drawable.char }]
  | _ => []

end Pen

def runTokens (initrd : Initrd) (bg : Nat) : Pen -> List Token -> Traced Call Pen
  | pen, [] => pure pen
  | pen, token :: rest =>
      match token.panic initrd with
      | some e => Traced.lift (.error e)
      | none =>
          Traced.after (pen.calls bg token)
            (runTokens initrd bg (pen.next initrd bg token) rest)

theorem runTokens_cons {initrd : Initrd} {token : Token} (h : token.panic initrd = none)
    (bg : Nat) (pen : Pen) (rest : List Token) :
    runTokens initrd bg pen (token :: rest) =
      Traced.after (pen.calls bg token)
        (runTokens initrd bg (pen.next initrd bg token) rest) := by
  rw [runTokens, h]

theorem runTokens_cons_stopped {initrd : Initrd} {token : Token} {e : Panic}
    (h : token.panic initrd = some e) (bg : Nat) (pen : Pen) (rest : List Token) :
    runTokens initrd bg pen (token :: rest) = Traced.lift (.error e) := by
  rw [runTokens, h]

theorem runTokens_append (initrd : Initrd) (bg : Nat) (pen : Pen) (first second : List Token) :
    runTokens initrd bg pen (first ++ second) =
      (runTokens initrd bg pen first >>= fun pen => runTokens initrd bg pen second) := by
  induction first generalizing pen with
  | nil => rfl
  | cons token rest ih =>
      rw [List.cons_append]
      cases hpanic : token.panic initrd with
      | some e =>
          rw [runTokens_cons_stopped hpanic, runTokens_cons_stopped hpanic]
          rfl
      | none => rw [runTokens_cons hpanic, runTokens_cons hpanic, ih, Traced.after_bind]

def Pen.behind (initrd : Initrd) (bg : Nat) (self : Pen) (tokens : List Token) : Pen :=
  tokens.foldl (Pen.next initrd bg) self

def Pen.callsOf (initrd : Initrd) (bg : Nat) : Pen -> List Token -> List Call
  | _, [] => []
  | pen, token :: rest => pen.calls bg token ++ callsOf initrd bg (pen.next initrd bg token) rest

theorem panic_of_not_stops {initrd : Initrd} {token : Token} (h : token.stops initrd = false) :
    token.panic initrd = none :=
  Option.isSome_eq_false_iff.mp h |> Option.isNone_iff_eq_none.mp

theorem runTokens_live {initrd : Initrd} (bg : Nat) (pen : Pen) {tokens : List Token}
    (h : tokens.any (Token.stops initrd) = false) :
    runTokens initrd bg pen tokens =
      Traced.emits (pen.callsOf initrd bg tokens) (pen.behind initrd bg tokens) := by
  induction tokens generalizing pen with
  | nil => rfl
  | cons token rest ih =>
      rw [List.any_cons, Bool.or_eq_false_iff] at h
      rw [runTokens_cons (panic_of_not_stops h.1), ih _ h.2, Traced.after_emits]
      rfl

theorem runTokens_stopped {initrd : Initrd} (bg : Nat) (pen : Pen) {tokens : List Token}
    (h : tokens.any (Token.stops initrd) = true) :
    exists e, (runTokens initrd bg pen tokens).result = .error e := by
  induction tokens generalizing pen with
  | nil => cases h
  | cons token rest ih =>
      cases hpanic : token.panic initrd with
      | some e =>
          rw [runTokens_cons_stopped hpanic]
          exact ⟨e, rfl⟩
      | none =>
          rw [List.any_cons, Token.stops, hpanic] at h
          rw [runTokens_cons hpanic]
          exact ih _ h

/-- The calls of a text, and the state that it leaves. -/
def draws (initrd : Initrd) (self : Vga) (tokens : List Token) : Traced Call Vga := do
  let pen ← runTokens initrd self.cursor.bg (Pen.start self) tokens
  pure pen.vga

theorem afterSequence_complete (sequence : Sequence) (rest : List Char) :
    afterSequence (sequence.body ++ 'm' :: rest) = rest := by
  unfold afterSequence
  rw [List.dropWhile_append_of_pos sequence.body_ne, List.dropWhile_cons_of_neg (by simp)]
  rfl

theorem takeWhile_complete (sequence : Sequence) (rest : List Char) :
    (sequence.body ++ 'm' :: rest).takeWhile (fun c => c ≠ 'm') = sequence.body := by
  rw [List.takeWhile_append_of_pos sequence.body_ne, List.takeWhile_cons_of_neg (by simp),
    List.append_nil]

theorem target_pixels (profile : Profile) {bg : Nat} {pen : Pen} (h : 12 <= pen.y)
    (drawable : Drawable) :
    (pen.target bg).writeChar profile drawable.char =
      Traced.emits (Call.pixels { vga := pen.target bg, character := drawable.char }) ⟨⟩ := by
  have hfont := drawable.inFont
  apply writeChar_of_glyphs profile h
  unfold glyphsFrom
  rw [Font.data_length, if_pos (by lia)]

theorem next_high {initrd : Initrd} {bg : Nat} {pen : Pen} (h : 12 <= pen.y) (token : Token) :
    12 <= (pen.next initrd bg token).y := by
  cases token with
  | newline => exact Nat.le_add_right_of_le h
  | glyph drawable => exact h
  | carriageReturn => exact h
  | tab => exact h
  | escape sequence => exact h

theorem writeLoop_token (profile : Profile) (initrd : Initrd) (bg : Nat) {pen : Pen}
    (h : 12 <= pen.y) (token : Token) (rest : List Char) :
    writeLoop profile initrd bg pen.vga pen.x pen.y pen.fg pen.position (token.chars ++ rest) =
      match token.panic initrd with
      | some e => Traced.lift (.error e)
      | none =>
          let next := pen.next initrd bg token
          Traced.after ((pen.calls bg token).flatMap Call.pixels)
            (writeLoop profile initrd bg next.vga next.x next.y next.fg next.position rest) := by
  cases token with
  | newline => exact writeLoop_newline ..
  | carriageReturn => exact writeLoop_return ..
  | tab => exact writeLoop_tab ..
  | glyph drawable =>
      change writeLoop profile initrd bg pen.vga pen.x pen.y pen.fg pen.position
        (drawable.char :: rest) = _
      rw [writeLoop_glyph _ _ _ _ _ _ _ _ _ drawable.newline drawable.carriageReturn
        drawable.tab drawable.escape]
      change ((pen.target bg).writeChar profile drawable.char >>= _) = _
      rw [target_pixels profile h, Traced.emits_bind]
      simp only [Token.panic, Pen.calls, List.flatMap_singleton]
      rfl
  | escape sequence =>
      change writeLoop profile initrd bg pen.vga pen.x pen.y pen.fg pen.position
        ('\x1b' :: (sequence.body ++ ['m'] ++ rest)) = _
      rw [writeLoop_escape, List.append_assoc, List.singleton_append, takeWhile_complete,
        afterSequence_complete]
      change (Traced.lift (applySequence initrd pen.vga pen.fg sequence.text) >>= _) = _
      rw [applySequence_eq]
      simp only [Token.panic, Pen.next, Pen.calls, Token.fontFrom]
      cases hpath : sequence.path with
      | none => rfl
      | some path =>
          simp only [Sequence.color_of_path hpath]
          cases Font.new initrd path with
          | error e => rfl
          | ok font => rfl

theorem writeLoop_tokens (profile : Profile) (initrd : Initrd) (bg : Nat) {pen : Pen}
    (h : 12 <= pen.y) (tokens : List Token) :
    writeLoop profile initrd bg pen.vga pen.x pen.y pen.fg pen.position
        (tokens.flatMap Token.chars) =
      ((runTokens initrd bg pen tokens).expand Call.pixels >>= fun pen => pure pen.vga) := by
  induction tokens generalizing pen with
  | nil =>
      rw [List.flatMap_nil, writeLoop]
      rfl
  | cons token rest ih =>
      rw [List.flatMap_cons, writeLoop_token profile initrd bg h token, runTokens]
      cases hpanic : token.panic initrd with
      | some e => rfl
      | none =>
          simp only
          rw [ih (next_high h token), Traced.expand_after, Traced.after_bind]

theorem writeStr_tokens (profile : Profile) (initrd : Initrd) {self : Vga}
    (h : 12 <= self.cursor.y) (tokens : List Token) :
    self.writeStr profile initrd (textOf tokens) =
      (self.draws initrd tokens).expand Call.pixels := by
  unfold writeStr textOf draws
  rw [String.toList_ofList, Traced.expand_bind]
  have hstart : 12 <= (Pen.start self).y := h
  exact writeLoop_tokens profile initrd self.cursor.bg hstart tokens

end Vga

end NeurOS
