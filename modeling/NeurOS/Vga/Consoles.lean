import NeurOS.Foundation.Sgr
import NeurOS.Serial
import NeurOS.Vga.Bounds
import NeurOS.Vga.Tokens

/-!
# One text on two consoles

The shell, the log and the panic screen write one text for the serial terminal and
for the framebuffer.  The terminal follows the parameters of the sequences, the
framebuffer a table of its own.  They agree on the weight; they differ on orange,
and on a colour that a reset should end.
-/

namespace NeurOS

open Foundation

open Sgr (Attributes Shown Terminal)

/-!
# Texts of the kernel
-/

inductive Style where
  | blue
  | bold
  | default
  | green
  | normal
  | orange
  | purple
  | red
  | yellow
  deriving DecidableEq, Repr

namespace Style

def text : Style -> String
  | blue => Ansi.blue
  | bold => Ansi.bold
  | default => Ansi.default
  | green => Ansi.green
  | normal => Ansi.normal
  | orange => Ansi.orange
  | purple => Ansi.purple
  | red => Ansi.red
  | yellow => Ansi.yellow

def sequence (self : Style) : Sequence where
  body := (self.text.toList.drop 1).dropLast
  complete := by cases self <;> decide

theorem chars_eq (self : Style) :
    '\x1b' :: self.sequence.body ++ ['m'] = self.text.toList := by
  cases self <;> rfl

def parameters : Style -> List Nat
  | blue => [38, 2, 0, 151, 230]
  | bold => [1]
  | default => [39]
  | green => [38, 2, 68, 189, 50]
  | normal => [0]
  | orange => [38, 2, 194, 54, 52]
  | purple => [38, 2, 140, 122, 230]
  | red => [38, 2, 232, 65, 24]
  | yellow => [38, 2, 251, 197, 49]

theorem selects (self : Style) : Terminal.Selects self.text.toList self.parameters where
  silent := by
    rintro ⟨plain, attributes, mode⟩ hmode
    cases hmode
    cases self <;> rfl
  behind := by
    rintro ⟨plain, attributes, mode⟩ hmode
    cases hmode
    cases self <;> rfl

end Style

structure Printable where
  char : Char
  low : 32 <= char.toNat
  high : char.toNat <= 126

namespace Printable

theorem char_ne (self : Printable) {c : Char} (h : c.toNat < 32) : self.char ≠ c := by
  have hlow := self.low
  intro hchar
  rw [hchar] at hlow
  lia

def drawable (self : Printable) : Drawable where
  char := self.char
  newline := self.char_ne (by simp)
  carriageReturn := self.char_ne (by simp)
  tab := self.char_ne (by simp)
  escape := self.char_ne (by simp)
  inFont := Nat.lt_of_le_of_lt self.high (by lia)

theorem not_control (self : Printable) : Terminal.isControl self.char = false := by
  have hlow := self.low
  have hhigh := self.high
  have hless : Not (self.char.toNat < 32) := by lia
  have hother : Not (self.char.toNat = 127) := by lia
  simp [Terminal.isControl, hless, hother]

end Printable

inductive Part where
  | printable (letter : Printable)
  | newline
  | style (change : Style)

namespace Part

def chars : Part -> List Char
  | printable letter => [letter.char]
  | newline => ['\n']
  | style change => change.text.toList

def token : Part -> Token
  | printable letter => .glyph letter.drawable
  | newline => .newline
  | style change => .escape change.sequence

def style? : Part -> Option Style
  | style change => some change
  | _ => none

theorem token_chars (self : Part) : self.token.chars = self.chars := by
  cases self with
  | printable letter => rfl
  | newline => rfl
  | style change => exact change.chars_eq

end Part

def textOfParts (parts : List Part) : String :=
  String.ofList (parts.flatMap Part.chars)

theorem textOf_tokens (parts : List Part) : textOf (parts.map Part.token) = textOfParts parts := by
  rw [textOf, textOfParts, List.flatMap_map]
  simp only [Part.token_chars]

/-!
# The serial terminal
-/

/-- The characters that a terminal reads from the port. -/
def received (s : String) : List Char :=
  (Serial.writeStr s).map Serial.read

theorem read_writeChar {c : Char} (h : c.toNat < 256) :
    (Serial.writeChar c).map Serial.read = [c] := by
  have hbyte : c.val.toUInt8.toNat = c.toNat := by
    rw [UInt32.toNat_toUInt8]
    exact Nat.mod_eq_of_lt h
  simp only [Serial.writeChar, List.map_singleton, Serial.read, hbyte, Char.ofNat_toNat]

def receivedChar (c : Char) : List Char :=
  if c = '\n' then ['\r', '\n'] else [c]

theorem received_of_ascii {chars : List Char} (h : forall c, c ∈ chars -> c.toNat < 256) :
    received (String.ofList chars) = chars.flatMap receivedChar := by
  unfold received Serial.writeStr
  rw [String.toList_ofList, List.map_flatMap]
  apply List.flatMap_congr
  intro c hc
  unfold receivedChar
  split
  · rename_i hnewline
    rw [hnewline]
    rfl
  · exact read_writeChar (h c hc)

/-- The attributes that a terminal starts with, in the white of the framebuffer. -/
def plain : Attributes where
  foreground := (0xF5, 0xF6, 0xFA)
  bold := false

/-- How a terminal on the serial port shows a text. -/
def serialShown (s : String) : List Shown :=
  (Terminal.start plain).interpret (received s)

/-!
# What sets the attributes
-/

namespace Style

def sets : Style -> Bool
  | bold => false
  | _ => true

def colors : Style -> Bool
  | bold => false
  | normal => false
  | _ => true

def foreground : Style -> Nat × Nat × Nat
  | blue => (0, 151, 230)
  | green => (68, 189, 50)
  | orange => (194, 54, 52)
  | purple => (140, 122, 230)
  | red => (232, 65, 24)
  | yellow => (251, 197, 49)
  | _ => plain.foreground

def color : Style -> Nat
  | blue => Color.blue
  | green => Color.green
  | orange => Color.orange
  | purple => Color.purple
  | red => Color.red
  | yellow => Color.yellow
  | _ => Color.white

def boldBehind (self : Style) (before : Bool) : Bool :=
  match self with
  | bold => true
  | normal => false
  | _ => before

theorem selected_foreground (self : Style) {terminal : Terminal} (h : terminal.plain = plain) :
    (terminal.selected self.parameters).attributes.foreground =
      if self.sets then self.foreground else terminal.attributes.foreground := by
  rcases terminal with ⟨_, attributes, mode⟩
  cases h
  cases self <;> rfl

theorem selected_bold (self : Style) {terminal : Terminal} (h : terminal.plain = plain) :
    (terminal.selected self.parameters).attributes.bold =
      self.boldBehind terminal.attributes.bold := by
  rcases terminal with ⟨_, attributes, mode⟩
  cases h
  cases self <;> rfl

theorem sequence_color (self : Style) :
    self.sequence.color = if self.colors then some self.color else none := by
  cases self <;> decide

end Style

def weightPath (bold : Bool) : String :=
  if bold then Font.boldPath else Font.normalPath

namespace Style

theorem sequence_path (self : Style) :
    self.sequence.path =
      if self = bold then some (weightPath true)
      else if self = normal then some (weightPath false)
      else none := by
  cases self <;> decide

end Style

def rgb (foreground : Nat × Nat × Nat) : Nat :=
  foreground.1 * 65536 + foreground.2.1 * 256 + foreground.2.2

def lastOf (kind : Style -> Bool) (parts : List Part) : Option Style :=
  ((parts.filterMap Part.style?).filter kind).getLast?

theorem lastOf_concat_style (kind : Style -> Bool) (parts : List Part) (change : Style) :
    lastOf kind (parts ++ [.style change]) =
      if kind change then some change else lastOf kind parts := by
  unfold lastOf
  rw [List.filterMap_append, List.filter_append]
  cases hkind : kind change with
  | true => simp [Part.style?, hkind]
  | false => simp [Part.style?, hkind]

theorem lastOf_concat_other (kind : Style -> Bool) (parts : List Part) {part : Part}
    (h : part.style? = none) : lastOf kind (parts ++ [part]) = lastOf kind parts := by
  unfold lastOf
  rw [List.filterMap_append]
  simp [h]

theorem kind_of_lastOf {kind : Style -> Bool} {parts : List Part} {change : Style}
    (h : lastOf kind parts = some change) : kind change = true :=
  (List.mem_filter.mp (List.mem_of_getLast? h)).2

theorem lastOf_narrow {wide narrow : Style -> Bool} {parts : List Part} {change : Style}
    (hwide : forall change, narrow change = true -> wide change = true)
    (h : lastOf wide parts = some change) (hnarrow : narrow change = true) :
    lastOf narrow parts = some change := by
  unfold lastOf at *
  rcases List.getLast?_eq_some_iff.mp h with ⟨init, hinit⟩
  have hfilter : (parts.filterMap Part.style?).filter narrow =
      ((parts.filterMap Part.style?).filter wide).filter narrow := by
    rw [List.filter_filter]
    apply List.filter_congr
    intro change _
    cases hchange : narrow change with
    | false => rfl
    | true => simp [hwide change hchange]
  rw [hfilter, hinit, List.filter_append]
  simp [hnarrow]

theorem lastOf_none_narrow {wide narrow : Style -> Bool} {parts : List Part}
    (hwide : forall change, narrow change = true -> wide change = true)
    (h : lastOf wide parts = none) : lastOf narrow parts = none := by
  unfold lastOf at *
  rw [List.getLast?_eq_none_iff, List.filter_eq_nil_iff] at *
  intro change hchange hnarrow
  exact h change hchange (hwide change hnarrow)

def foregroundOf (change : Option Style) : Nat × Nat × Nat :=
  change.elim plain.foreground Style.foreground

def colorOf (change : Option Style) : Nat :=
  change.elim Color.white Style.color

/-- The foreground in force behind the parts is the same on both consoles: the terminal has
not last been set to orange, nor reset while the framebuffer keeps a colour. -/
def ColorAgrees (before : List Part) : Prop :=
  lastOf Style.sets before ≠ some .orange ∧
    (lastOf Style.sets before = some .normal ->
      lastOf Style.colors before = none ∨ lastOf Style.colors before = some .default)

theorem colors_sets (change : Style) (h : change.colors = true) : change.sets = true := by
  cases change with
  | bold => cases h
  | _ => rfl

theorem eq_normal {change : Style} (hsets : change.sets = true)
    (hcolors : change.colors = false) : change = .normal := by
  cases change with
  | normal => rfl
  | bold => cases hsets
  | _ => cases hcolors

theorem colorAgrees_iff (before : List Part) :
    colorOf (lastOf Style.colors before) = rgb (foregroundOf (lastOf Style.sets before)) <->
      ColorAgrees before := by
  unfold ColorAgrees
  cases hsets : lastOf Style.sets before with
  | none =>
      rw [lastOf_none_narrow colors_sets hsets]
      decide
  | some change =>
      have hkind := kind_of_lastOf hsets
      cases hcolors : change.colors with
      | true =>
          rw [lastOf_narrow colors_sets hsets hcolors]
          revert hcolors
          cases change <;> decide
      | false =>
          rw [eq_normal hkind hcolors]
          cases hlast : lastOf Style.colors before with
          | none => decide
          | some change =>
              have hcolors := kind_of_lastOf hlast
              revert hcolors
              cases change <;> decide

/-!
# Both consoles along a text
-/

/-- A call draws what a terminal shows: the character, in the foreground and with the font of
the weight. -/
structure Vga.Call.Draws (initrd : Initrd) (call : Vga.Call) (shown : Shown) : Prop where
  character : call.character = shown.character
  foreground : call.vga.cursor.fg = rgb shown.attributes.foreground
  weight : Font.new initrd (weightPath shown.attributes.bold) = .ok call.vga.font

def AgreesBehind (initrd : Initrd) (before : List Part) : Prop :=
  (Part.style .bold ∈ before -> (Font.new initrd Font.boldPath).isOk = true) ∧
    ColorAgrees before

/-- The state of both consoles behind the parts, and that these could be drawn. -/
structure Tracks (initrd : Initrd) (before : List Part) (pen : Vga.Pen) (terminal : Terminal) :
    Prop where
  mode : terminal.mode = .text
  plain : terminal.plain = plain
  fg : pen.fg = colorOf (lastOf Style.colors before)
  foreground : terminal.attributes.foreground = foregroundOf (lastOf Style.sets before)
  weight : Font.new initrd (weightPath terminal.attributes.bold) = .ok pen.vga.font
  loaded : Part.style .bold ∈ before -> (Font.new initrd Font.boldPath).isOk = true

section Tracks

variable {initrd : Initrd} {bg : Nat} {before : List Part} {pen : Vga.Pen} {terminal : Terminal}

theorem tracks_other (h : Tracks initrd before pen terminal) {part : Part}
    (hpart : part.style? = none) :
    Tracks initrd (before ++ [part]) (pen.next initrd bg part.token) terminal := by
  have hmem : Part.style .bold ∈ before ++ [part] -> Part.style .bold ∈ before := by
    intro hmem
    rcases List.mem_append.mp hmem with hbefore | hlast
    · exact hbefore
    · rw [← List.mem_singleton.mp hlast] at hpart
      cases hpart
  refine ⟨h.mode, h.plain, ?_, ?_, ?_, fun hbold => h.loaded (hmem hbold)⟩
  · rw [lastOf_concat_other _ _ hpart, ← h.fg]
    cases part with
    | style change => cases hpart
    | _ => rfl
  · rw [lastOf_concat_other _ _ hpart, h.foreground]
  · rw [h.weight]
    cases part with
    | style change => cases hpart
    | _ => rfl

theorem isOk_of_path {sequence : Sequence} {path : String} (hpath : sequence.path = some path) :
    (Font.new initrd path).isOk = ((Token.escape sequence).panic initrd).isNone := by
  unfold Token.panic
  simp only [hpath]
  cases Font.new initrd path with
  | ok font => rfl
  | error e => rfl

theorem loads_of_path {sequence : Sequence} {path : String} (hpath : sequence.path = some path)
    (h : (Token.escape sequence).panic initrd = none) (font : Font) :
    Font.new initrd path = .ok ((Token.escape sequence).fontFrom initrd font) := by
  have hloaded : (Font.new initrd path).isOk = _ := isOk_of_path hpath
  rw [h] at hloaded
  unfold Token.fontFrom
  simp only [hpath]
  cases hnew : Font.new initrd path with
  | ok font => rfl
  | error e =>
      rw [hnew] at hloaded
      cases hloaded

theorem fontFrom_of_path {sequence : Sequence} (hpath : sequence.path = none) (font : Font) :
    (Token.escape sequence).fontFrom initrd font = font := by
  unfold Token.fontFrom
  simp only [hpath]

theorem tracks_style (h : Tracks initrd before pen terminal)
    {change : Style} (hstops : (Part.style change).token.panic initrd = none) :
    Tracks initrd (before ++ [.style change])
      (pen.next initrd bg (Part.style change).token) (terminal.selected change.parameters) := by
  refine ⟨rfl, h.plain, ?_, ?_, ?_, ?_⟩
  · rw [Part.token, Vga.Pen.next_escape_fg, lastOf_concat_style, Style.sequence_color, h.fg]
    cases change.colors <;> rfl
  · rw [lastOf_concat_style, Style.selected_foreground change h.plain, h.foreground]
    cases change.sets <;> rfl
  · rw [Style.selected_bold change h.plain]
    rw [Part.token, Vga.Pen.next_font]
    have hpath := change.sequence_path
    cases change with
    | bold => exact loads_of_path hpath hstops _
    | normal => exact loads_of_path hpath hstops _
    | _ =>
        rw [fontFrom_of_path hpath]
        exact h.weight
  · intro hmem
    rcases List.mem_append.mp hmem with hbefore | hlast
    · exact h.loaded hbefore
    · cases List.mem_singleton.mp hlast
      have hpath : Style.bold.sequence.path = some Font.boldPath := Style.sequence_path .bold
      rw [isOk_of_path hpath]
      exact congrArg Option.isNone hstops

def Part.received (self : Part) : List Char :=
  self.chars.flatMap receivedChar

theorem received_style (change : Style) : (Part.style change).received = change.text.toList := by
  cases change <;> rfl

theorem interpret_printable (hmode : terminal.mode = .text) (letter : Printable)
    (rest : List Char) :
    terminal.interpret ((Part.printable letter).received ++ rest) =
      { character := letter.char, attributes := terminal.attributes } ::
        terminal.interpret rest := by
  have hreceived : (Part.printable letter).received = [letter.char] := by
    have hnewline : letter.char ≠ '\n' := letter.char_ne (by simp)
    simp [Part.received, Part.chars, receivedChar, hnewline]
  rw [hreceived, List.singleton_append, Terminal.interpret_printable hmode letter.not_control]

theorem interpret_newline (hmode : terminal.mode = .text) (rest : List Char) :
    terminal.interpret (Part.newline.received ++ rest) = terminal.interpret rest := by
  change terminal.interpret ('\r' :: '\n' :: rest) = _
  rw [Terminal.interpret_control hmode rfl (by simp),
    Terminal.interpret_control hmode rfl (by simp)]

theorem interpret_style (hmode : terminal.mode = .text) (change : Style) (rest : List Char) :
    terminal.interpret ((Part.style change).received ++ rest) =
      (terminal.selected change.parameters).interpret rest := by
  rw [received_style, change.selects.interpret_append hmode]

theorem interpret_eq_nil_iff (hmode : terminal.mode = .text) (parts : List Part) :
    terminal.interpret (parts.flatMap Part.received) = [] <->
      forall letter, Not (Part.printable letter ∈ parts) := by
  induction parts generalizing terminal with
  | nil => simp [Terminal.interpret]
  | cons part rest ih =>
      rw [List.flatMap_cons]
      cases part with
      | printable letter =>
          rw [interpret_printable hmode]
          constructor
          · intro h
            cases h
          · intro h
            exact absurd List.mem_cons_self (h letter)
      | newline =>
          rw [interpret_newline hmode, ih hmode]
          simp
      | style change =>
          have hselected : (terminal.selected change.parameters).mode = .text := rfl
          rw [interpret_style hmode, ih hselected]
          simp

theorem draws_iff (h : Tracks initrd before pen terminal) (letter : Printable) :
    Vga.Call.Draws initrd { vga := pen.target bg, character := letter.char }
        { character := letter.char, attributes := terminal.attributes } <->
      AgreesBehind initrd before := by
  have hcolor := colorAgrees_iff before
  rw [← h.fg, ← h.foreground] at hcolor
  constructor
  · intro hdraws
    exact ⟨h.loaded, hcolor.mp hdraws.foreground⟩
  · intro hagrees
    exact ⟨rfl, hcolor.mpr hagrees.2, h.weight⟩

end Tracks

def AtPrintables (condition : List Part -> Prop) (parts : List Part) : Prop :=
  forall before letter after, parts = before ++ Part.printable letter :: after ->
    condition before

theorem atPrintables_cons_iff (condition : List Part -> Prop) (part : Part)
    (rest : List Part) :
    AtPrintables condition (part :: rest) <->
      (forall letter, part = .printable letter -> condition []) ∧
        AtPrintables (fun before => condition (part :: before)) rest := by
  constructor
  · intro h
    constructor
    · intro letter hletter
      exact h [] letter rest (by rw [hletter]; rfl)
    · intro before letter after hrest
      exact h (part :: before) letter after (by rw [hrest]; rfl)
  · rintro ⟨hhead, hrest⟩ before letter after hsplit
    cases before with
    | nil =>
        cases hsplit
        exact hhead letter rfl
    | cons first before =>
        cases hsplit
        exact hrest before letter after rfl

theorem atPrintables_none {condition : List Part -> Prop} {parts : List Part}
    (h : forall letter, Not (Part.printable letter ∈ parts)) : AtPrintables condition parts := by
  intro before letter after hsplit
  exact absurd (by rw [hsplit]; simp) (h letter)

section Run

variable {initrd : Initrd} {bg : Nat} {before : List Part} {pen : Vga.Pen} {terminal : Terminal}

theorem panic_style (hnormal : (Font.new initrd Font.normalPath).isOk = true) {change : Style}
    {e : Panic} (h : (Part.style change).token.panic initrd = some e) :
    change = .bold ∧ (Font.new initrd Font.boldPath).isOk = false := by
  change (Token.escape change.sequence).panic initrd = some e at h
  cases change with
  | bold =>
      have hpath : Style.bold.sequence.path = some Font.boldPath := Style.sequence_path .bold
      rw [isOk_of_path hpath, h]
      exact ⟨rfl, rfl⟩
  | normal =>
      have hpath : Style.normal.sequence.path = some Font.normalPath :=
        Style.sequence_path .normal
      rw [isOk_of_path hpath, h] at hnormal
      cases hnormal
  | _ => cases h

theorem atPrintables_unloaded (hbold : (Font.new initrd Font.boldPath).isOk = false)
    (hmem : Part.style .bold ∈ before) (parts : List Part) :
    AtPrintables (fun middle => AgreesBehind initrd (before ++ middle)) parts <->
      forall letter, Not (Part.printable letter ∈ parts) := by
  constructor
  · intro h letter hletter
    rcases List.append_of_mem hletter with ⟨middle, after, hsplit⟩
    have hloaded := (h middle letter after hsplit).1 (List.mem_append_left middle hmem)
    rw [hbold] at hloaded
    cases hloaded
  · exact atPrintables_none

/-- The calls of a text are what the terminal shows of it exactly when every printable
character is drawn as it is shown.  A text stops where the bold font is missing. -/
theorem runTokens_draws_iff (hnormal : (Font.new initrd Font.normalPath).isOk = true)
    (h : Tracks initrd before pen terminal) (parts : List Part) :
    List.Forall₂ (Vga.Call.Draws initrd)
        (Vga.runTokens initrd bg pen (parts.map Part.token)).emitted
        (terminal.interpret (parts.flatMap Part.received)) <->
      AtPrintables (fun middle => AgreesBehind initrd (before ++ middle)) parts := by
  induction parts generalizing before pen terminal with
  | nil =>
      exact iff_of_true .nil (atPrintables_none (fun letter => List.not_mem_nil))
  | cons part rest ih =>
      have hshift : (fun middle => AgreesBehind initrd (before ++ part :: middle)) =
          fun middle => AgreesBehind initrd (before ++ [part] ++ middle) := by
        funext middle
        rw [List.append_cons]
      rw [List.map_cons, List.flatMap_cons, atPrintables_cons_iff, hshift, List.append_nil]
      cases part with
      | printable letter =>
          have hpanic : (Part.printable letter).token.panic initrd = none := rfl
          have hcall : pen.calls bg (Part.printable letter).token =
              [{ vga := pen.target bg, character := letter.char }] := rfl
          rw [interpret_printable h.mode, Vga.runTokens_cons hpanic, hcall, Traced.after,
            List.singleton_append, List.forall₂_cons, draws_iff h letter,
            ih (tracks_other h rfl)]
          simp
      | newline =>
          have hpanic : Part.newline.token.panic initrd = none := rfl
          have hcall : pen.calls bg Part.newline.token = [] := rfl
          rw [interpret_newline h.mode, Vga.runTokens_cons hpanic, hcall, Traced.after_nil,
            ih (tracks_other h rfl)]
          simp
      | style change =>
          rw [interpret_style h.mode]
          cases hpanic : (Part.style change).token.panic initrd with
          | none =>
              have hcall : pen.calls bg (Part.style change).token = [] := rfl
              rw [Vga.runTokens_cons hpanic, hcall, Traced.after_nil,
                ih (tracks_style h hpanic)]
              simp
          | some e =>
              rcases panic_style hnormal hpanic with ⟨hchange, hbold⟩
              have hmem : Part.style .bold ∈ before ++ [Part.style change] := by
                rw [hchange]
                exact List.mem_append_right before List.mem_cons_self
              have hmode : (terminal.selected change.parameters).mode = .text := rfl
              rw [Vga.runTokens_cons_stopped hpanic, atPrintables_unloaded hbold hmem,
                ← interpret_eq_nil_iff hmode]
              simp [Traced.lift]

theorem Style.chars_low (self : Style) : forall c, c ∈ self.text.toList -> c.toNat < 256 := by
  cases self <;>
    simp [text, Ansi.blue, Ansi.bold, Ansi.default, Ansi.green, Ansi.normal, Ansi.orange,
      Ansi.purple, Ansi.red, Ansi.yellow]

theorem chars_low (parts : List Part) :
    forall c, c ∈ parts.flatMap Part.chars -> c.toNat < 256 := by
  intro c hc
  rcases List.mem_flatMap.mp hc with ⟨part, _, hpart⟩
  cases part with
  | printable letter =>
      have hhigh := letter.high
      rw [List.mem_singleton.mp hpart]
      lia
  | newline =>
      rw [List.mem_singleton.mp hpart]
      simp
  | style change => exact change.chars_low c hpart

theorem serialShown_parts (parts : List Part) :
    serialShown (textOfParts parts) =
      (Terminal.start plain).interpret (parts.flatMap Part.received) := by
  unfold serialShown textOfParts
  rw [received_of_ascii (chars_low parts), List.flatMap_assoc]
  rfl

section Whole

variable {vga : Vga}

theorem shown_iff (hwhite : vga.cursor.fg = Color.white)
    (hnormal : Font.new initrd Font.normalPath = .ok vga.font) (parts : List Part) :
    List.Forall₂ (Vga.Call.Draws initrd) (vga.draws initrd (parts.map Part.token)).emitted
        (serialShown (textOfParts parts)) <->
      AtPrintables (AgreesBehind initrd) parts := by
  have hstart : Tracks initrd [] (Vga.Pen.start vga) (Terminal.start plain) := by
    refine ⟨rfl, rfl, hwhite, rfl, hnormal, ?_⟩
    intro hmem
    cases hmem
  have hloaded : (Font.new initrd Font.normalPath).isOk = true := by
    rw [hnormal]
    rfl
  rw [serialShown_parts, Vga.draws, Traced.bind_pure_emitted]
  exact runTokens_draws_iff hloaded hstart parts

/-- One text is shown alike by the framebuffer and by a terminal on the serial port exactly
when, at every printable character, a foreground of the terminal that was set to orange has
been set again, a reset has not left a colour on the framebuffer, and a bold font that was
asked for could be loaded. -/
theorem consoles_agree_iff (profile : Profile) (hhigh : 12 <= vga.cursor.y)
    (hwhite : vga.cursor.fg = Color.white)
    (hnormal : Font.new initrd Font.normalPath = .ok vga.font) (parts : List Part) :
    vga.writeStr profile initrd (textOfParts parts) =
        (vga.draws initrd (parts.map Part.token)).expand Vga.Call.pixels ∧
      (List.Forall₂ (Vga.Call.Draws initrd)
          (vga.draws initrd (parts.map Part.token)).emitted
          (serialShown (textOfParts parts)) <->
        AtPrintables (AgreesBehind initrd) parts) := by
  constructor
  · rw [← textOf_tokens]
    exact Vga.writeStr_tokens profile initrd hhigh _
  · exact shown_iff hwhite hnormal parts

end Whole

end Run

/-!
# One letter behind sequences
-/

def letterX : Printable where
  char := 'x'
  low := by simp
  high := by simp

theorem consoles_agree_sample :
    List.Forall₂ (Vga.Call.Draws Screen.fontInitrd)
      (Screen.clearedVga.draws Screen.fontInitrd
        ([Part.style .orange, .style .red, .printable letterX].map Part.token)).emitted
      (serialShown (textOfParts [.style .orange, .style .red, .printable letterX])) := by
  have hhigh : 12 <= Screen.clearedVga.cursor.y := Nat.le_add_left 12 12
  have hagrees : AgreesBehind Screen.fontInitrd [Part.style .orange, .style .red] := by
    refine ⟨fun hbold => by simp at hbold, ?_, ?_⟩
    · intro horange
      cases horange
    · intro hreset
      cases hreset
  apply (consoles_agree_iff .dev hhigh rfl (Screen.new_of_blankFont rfl) _).2.mpr
  rw [atPrintables_cons_iff, atPrintables_cons_iff, atPrintables_cons_iff]
  exact ⟨by simp, by simp, fun _ _ => hagrees, atPrintables_none (by simp)⟩

/-- An orange letter is drawn in another colour than the terminal shows, and so is a letter
behind a reset that should end a colour. -/
theorem orange_and_reset_differ :
    Not (List.Forall₂ (Vga.Call.Draws Screen.fontInitrd)
      (Screen.clearedVga.draws Screen.fontInitrd
        ([Part.style .orange, .printable letterX].map Part.token)).emitted
      (serialShown (textOfParts [.style .orange, .printable letterX]))) ∧
    Not (List.Forall₂ (Vga.Call.Draws Screen.fontInitrd)
      (Screen.clearedVga.draws Screen.fontInitrd
        ([Part.style .red, .style .normal, .printable letterX].map Part.token)).emitted
      (serialShown (textOfParts [.style .red, .style .normal, .printable letterX]))) := by
  have hnormal : Font.new Screen.fontInitrd Font.normalPath = .ok Screen.clearedVga.font :=
    Screen.new_of_blankFont rfl
  rw [shown_iff rfl hnormal, shown_iff rfl hnormal]
  constructor
  · intro h
    have hagrees := h [.style .orange] letterX [] rfl
    exact hagrees.2.1 rfl
  · intro h
    have hagrees := h [.style .red, .style .normal] letterX [] rfl
    cases hagrees.2.2 rfl with
    | inl hnone => cases hnone
    | inr hdefault => cases hdefault

end NeurOS
