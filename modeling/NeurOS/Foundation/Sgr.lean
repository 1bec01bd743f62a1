import Mathlib.Data.List.Basic

/-!
# Colour and weight on a terminal

A terminal reads characters one by one.  A character that is no control character
is shown in the attributes in force, and a sequence of decimal parameters between
`ESC [` and `m` changes them: 0 restores the attributes the terminal starts with,
1 makes the weight bold, 38;2;r;g;b sets the foreground, 39 restores it.
-/

namespace Foundation

namespace Sgr

structure Attributes where
  foreground : Nat × Nat × Nat
  bold : Bool
  deriving DecidableEq, Repr

structure Shown where
  character : Char
  attributes : Attributes
  deriving DecidableEq, Repr

def select (plain : Attributes) : List Nat -> Attributes -> Attributes
  | [], attributes => attributes
  | 0 :: rest, _ => select plain rest plain
  | 1 :: rest, attributes => select plain rest { attributes with bold := true }
  | 38 :: 2 :: r :: g :: b :: rest, attributes =>
      select plain rest { attributes with foreground := (r, g, b) }
  | 39 :: rest, attributes =>
      select plain rest { attributes with foreground := plain.foreground }
  | _ :: rest, attributes => select plain rest attributes

/-- What the next character is read as: text, the second character of a sequence, or a
character of its parameters, of which some are complete. -/
inductive Mode where
  | text
  | escape
  | parameters (complete : List Nat) (current : Nat)
  deriving DecidableEq, Repr

structure Terminal where
  plain : Attributes
  attributes : Attributes
  mode : Mode
  deriving DecidableEq, Repr

namespace Terminal

def start (plain : Attributes) : Terminal where
  plain := plain
  attributes := plain
  mode := .text

def isControl (c : Char) : Bool :=
  c.toNat < 32 || c.toNat = 127

def next (terminal : Terminal) (c : Char) : Terminal :=
  match terminal.mode with
  | .text => if c = '\x1b' then { terminal with mode := .escape } else terminal
  | .escape =>
      if c = '[' then
        { terminal with mode := .parameters [] 0 }
      else
        { terminal with mode := .text }
  | .parameters complete current =>
      if c.isDigit then
        { terminal with mode := .parameters complete (current * 10 + (c.toNat - '0'.toNat)) }
      else if c = ';' then
        { terminal with mode := .parameters (complete ++ [current]) 0 }
      else if c = 'm' then
        { terminal with
          attributes := select terminal.plain (complete ++ [current]) terminal.attributes
          mode := .text }
      else
        { terminal with mode := .text }

def shown (terminal : Terminal) (c : Char) : List Shown :=
  if terminal.mode = .text ∧ isControl c = false then
    [{ character := c, attributes := terminal.attributes }]
  else
    []

def behind (terminal : Terminal) (chars : List Char) : Terminal :=
  chars.foldl next terminal

/-- The characters that are shown for a text. -/
def interpret : Terminal -> List Char -> List Shown
  | _, [] => []
  | terminal, c :: rest => terminal.shown c ++ interpret (terminal.next c) rest

@[simp] theorem behind_nil (terminal : Terminal) : terminal.behind [] = terminal := rfl

theorem interpret_append (terminal : Terminal) (first second : List Char) :
    terminal.interpret (first ++ second) =
      terminal.interpret first ++ (terminal.behind first).interpret second := by
  induction first generalizing terminal with
  | nil => rfl
  | cons c rest ih =>
      rw [List.cons_append, interpret, interpret, ih, List.append_assoc]
      rfl

theorem interpret_printable {terminal : Terminal} (h : terminal.mode = .text) {c : Char}
    (hc : isControl c = false) (rest : List Char) :
    terminal.interpret (c :: rest) =
      { character := c, attributes := terminal.attributes } :: terminal.interpret rest := by
  have hescape : c ≠ '\x1b' := by
    intro hescape
    rw [hescape] at hc
    cases hc
  rw [interpret, shown, if_pos ⟨h, hc⟩, List.singleton_append, next, h]
  simp only [if_neg hescape]

theorem interpret_control {terminal : Terminal} (h : terminal.mode = .text) {c : Char}
    (hc : isControl c = true) (hescape : c ≠ '\x1b') (rest : List Char) :
    terminal.interpret (c :: rest) = terminal.interpret rest := by
  rw [interpret, shown, hc, if_neg (by simp), List.nil_append, next, h]
  simp only [if_neg hescape]

/-!
# Sequences
-/

def selected (terminal : Terminal) (parameters : List Nat) : Terminal :=
  { terminal with
    attributes := select terminal.plain parameters terminal.attributes
    mode := .text }

/-- A sequence shows nothing and selects its parameters. -/
structure Selects (chars : List Char) (parameters : List Nat) : Prop where
  silent : forall terminal : Terminal, terminal.mode = .text -> terminal.interpret chars = []
  behind : forall terminal : Terminal, terminal.mode = .text ->
    terminal.behind chars = terminal.selected parameters

theorem Selects.interpret_append {chars : List Char} {parameters : List Nat}
    (h : Selects chars parameters) {terminal : Terminal} (hmode : terminal.mode = .text)
    (rest : List Char) :
    terminal.interpret (chars ++ rest) = (terminal.selected parameters).interpret rest := by
  rw [Terminal.interpret_append, h.silent terminal hmode, h.behind terminal hmode,
    List.nil_append]

end Terminal

end Sgr

end Foundation
