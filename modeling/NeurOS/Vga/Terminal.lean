import NeurOS.Vga.Bounds
import NeurOS.Vga.Tokens

/-!
# One call as a terminal

A reference terminal with a single pen, which reads a text one character at a time
and knows neither the base nor the count of the loop.  One call draws the glyphs of
the terminal, one after the other, each where and how the terminal has it.
-/

namespace NeurOS

open Foundation

structure Glyph where
  character : Char
  x : Nat
  y : Nat
  fg : Nat
  bg : Nat
  font : Font

/-- The pen, its colours and its font, and the text of a sequence that has begun. -/
structure Terminal where
  x : Nat
  y : Nat
  fg : Nat
  bg : Nat
  font : Font
  consumed : Option (List Char)

inductive Selection where
  | font (font : Font)
  | color (fg : Nat)

namespace Terminal

def selections (normal bold : Font) : List (String × Selection) :=
  [(Ansi.bold, .font bold), (Ansi.blue, .color Color.blue), (Ansi.default, .color Color.white),
    (Ansi.green, .color Color.green), (Ansi.normal, .font normal),
    (Ansi.orange, .color Color.orange), (Ansi.purple, .color Color.purple),
    (Ansi.red, .color Color.red), (Ansi.yellow, .color Color.yellow)]

def select (self : Terminal) : Option Selection -> Terminal
  | some (.font font) => { self with font := font }
  | some (.color fg) => { self with fg := fg }
  | none => self

def apply (normal bold : Font) (self : Terminal) (text : List Char) : Terminal :=
  self.select ((selections normal bold).lookup (String.ofList text))

def glyph (self : Terminal) (c : Char) : Glyph where
  character := c
  x := self.x
  y := self.y
  fg := self.fg
  bg := self.bg
  font := self.font

def step (normal bold : Font) (self : Terminal) (c : Char) : List Glyph × Terminal :=
  match self.consumed with
  | some text =>
      if c = 'm' then
        ([], { self.apply normal bold (text ++ [c]) with consumed := none })
      else
        ([], { self with consumed := some (text ++ [c]) })
  | none =>
      if c = '\n' then
        ([], { self with x := self.font.getWidth, y := self.y + self.font.getHeight })
      else if c = '\r' then
        ([], { self with x := self.font.getWidth })
      else if c = '\t' then
        ([], { self with x := self.x + 8 * self.font.getWidth })
      else if c = '\x1b' then
        ([], { self with consumed := some [c] })
      else
        ([self.glyph c], { self with x := self.x + self.font.getWidth })

def glyphs (normal bold : Font) : Terminal -> List Char -> List Glyph
  | _, [] => []
  | self, c :: rest =>
      (self.step normal bold c).1 ++ glyphs normal bold (self.step normal bold c).2 rest

def start (vga : Vga) : Terminal where
  x := vga.cursor.x
  y := vga.cursor.y
  fg := vga.cursor.fg
  bg := vga.cursor.bg
  font := vga.font
  consumed := none

theorem apply_consumed (normal bold : Font) (self : Terminal) (consumed : Option (List Char))
    (text : List Char) :
    { apply normal bold { self with consumed := consumed } text with consumed := none } =
      { self.apply normal bold text with consumed := none } := by
  unfold apply
  cases (selections normal bold).lookup (String.ofList text) with
  | none => rfl
  | some selection =>
      cases selection with
      | font font => rfl
      | color fg => rfl

/-!
# One character of a text
-/

section Step

variable (normal bold : Font) {self : Terminal} (rest : List Char)

theorem glyphs_newline (h : self.consumed = none) :
    glyphs normal bold self ('\n' :: rest) =
      glyphs normal bold { self with x := 8, y := self.y + 16 } rest := by
  simp [glyphs, step, h]

theorem glyphs_return (h : self.consumed = none) :
    glyphs normal bold self ('\r' :: rest) = glyphs normal bold { self with x := 8 } rest := by
  simp [glyphs, step, h]

theorem glyphs_tab (h : self.consumed = none) :
    glyphs normal bold self ('\t' :: rest) =
      glyphs normal bold { self with x := self.x + 64 } rest := by
  simp [glyphs, step, h]

theorem glyphs_printable (h : self.consumed = none) {c : Char} (hnewline : c ≠ '\n')
    (hreturn : c ≠ '\r') (htab : c ≠ '\t') (hescape : c ≠ '\x1b') :
    glyphs normal bold self (c :: rest) =
      self.glyph c :: glyphs normal bold { self with x := self.x + 8 } rest := by
  simp [glyphs, step, h, hnewline, hreturn, htab, hescape]

theorem glyphs_consumed {text chars : List Char} (h : self.consumed = some text)
    (hends : 'm' ∈ chars) :
    glyphs normal bold self chars =
      glyphs normal bold
        { self.apply normal bold (text ++ chars.takeWhile (fun c => c ≠ 'm') ++ ['m']) with
          consumed := none }
        (Vga.afterSequence chars) := by
  induction chars generalizing self text with
  | nil => cases hends
  | cons c rest ih =>
      by_cases hm : c = 'm'
      · subst hm
        simp [glyphs, step, h, Vga.afterSequence]
      · have hrest : 'm' ∈ rest := by
          rcases List.mem_cons.mp hends with heq | hmem
          · exact absurd heq.symm hm
          · exact hmem
        have hafter : Vga.afterSequence (c :: rest) = Vga.afterSequence rest := by
          simp [Vga.afterSequence, hm]
        have hstep : self.step normal bold c =
            ([], { self with consumed := some (text ++ [c]) }) := by
          simp [step, h, hm]
        rw [glyphs, hstep, List.nil_append, ih rfl hrest, hafter, apply_consumed]
        simp [hm]

theorem glyphs_unfinished {text chars : List Char} (h : self.consumed = some text)
    (hopen : 'm' ∉ chars) : glyphs normal bold self chars = [] := by
  induction chars generalizing self text with
  | nil => rfl
  | cons c rest ih =>
      have hm : c ≠ 'm' := by
        rintro rfl
        exact hopen List.mem_cons_self
      have hstep : self.step normal bold c =
          ([], { self with consumed := some (text ++ [c]) }) := by
        simp [step, h, hm]
      rw [glyphs, hstep, List.nil_append]
      exact ih rfl (fun hmem => hopen (List.mem_cons_of_mem c hmem))

theorem glyphs_escape_ends (h : self.consumed = none) (hends : 'm' ∈ rest) :
    glyphs normal bold self ('\x1b' :: rest) =
      glyphs normal bold
        { self.apply normal bold ('\x1b' :: rest.takeWhile (fun c => c ≠ 'm') ++ ['m']) with
          consumed := none }
        (Vga.afterSequence rest) := by
  have hstep : self.step normal bold '\x1b' = ([], { self with consumed := some ['\x1b'] }) := by
    simp [step, h]
  rw [glyphs, hstep, List.nil_append, glyphs_consumed normal bold rfl hends, apply_consumed]
  rfl

theorem glyphs_escape_open (h : self.consumed = none) (hopen : 'm' ∉ rest) :
    glyphs normal bold self ('\x1b' :: rest) = [] := by
  have hstep : self.step normal bold '\x1b' = ([], { self with consumed := some ['\x1b'] }) := by
    simp [step, h]
  rw [glyphs, hstep, List.nil_append]
  exact glyphs_unfinished normal bold rfl hopen

end Step

end Terminal

/-!
# One call
-/

namespace Glyph

def target (self : Glyph) (vga : Vga) : Vga :=
  { vga with
    cursor := { x := self.x, y := self.y, fg := self.fg, bg := self.bg }
    font := self.font }

def pixels (vga : Vga) (self : Glyph) : List Pixel :=
  (self.target vga).glyphPixels (self.font.data.drop (self.character.toNat * 16))

theorem write_eq (profile : Profile) (vga : Vga) {self : Glyph} (hy : 12 <= self.y)
    (hfont : self.character.toNat < 256) :
    (self.target vga).writeChar profile self.character =
      Traced.emits (self.pixels vga) ⟨⟩ := by
  apply Vga.writeChar_of_glyphs profile hy
  unfold Vga.glyphsFrom
  rw [Font.data_length, if_pos (by lia)]
  rfl

end Glyph

namespace Terminal

/-- The terminal agrees with the local variables of the loop between two tokens. -/
structure Tracks (vga : Vga) (bg : Nat) (pen : Vga.Pen) (terminal : Terminal) : Prop where
  idle : terminal.consumed = none
  x : terminal.x = pen.x + 8 * pen.position
  y : terminal.y = pen.y
  fg : terminal.fg = pen.fg
  bg : terminal.bg = bg
  font : terminal.font = pen.vga.font
  screen : pen.vga = { vga with cursor := pen.vga.cursor, font := pen.vga.font }

section Tracks

variable {vga : Vga} {bg : Nat} {pen : Vga.Pen} {terminal : Terminal}

theorem start_tracks (vga : Vga) : Tracks vga vga.cursor.bg (Vga.Pen.start vga) (start vga) :=
  ⟨rfl, rfl, rfl, rfl, rfl, rfl, rfl⟩

theorem tracks_moved (h : Tracks vga bg pen terminal) {x y position column : Nat}
    (hx : column = x + 8 * position) :
    Tracks vga bg (pen.moved x y position bg) { terminal with x := column, y := y } :=
  ⟨h.idle, hx, rfl, h.fg, h.bg, h.font,
    congrArg (fun state : Vga => state.setCursor x y pen.fg bg) h.screen⟩

theorem tracks_moved_in_line (h : Tracks vga bg pen terminal) {x position column : Nat}
    (hx : column = x + 8 * position) :
    Tracks vga bg (pen.moved x pen.y position bg) { terminal with x := column } := by
  have hmoved := tracks_moved (y := pen.y) h hx
  rw [← h.y] at hmoved
  rw [← h.y]
  exact hmoved

theorem tracks_target (h : Tracks vga bg pen terminal) (c : Char) :
    (terminal.glyph c).target vga = pen.target bg := by
  unfold Glyph.target glyph Vga.Pen.target Vga.setCursor
  rw [h.screen, h.x, h.y, h.fg, h.bg, h.font]

theorem tracks_printable (h : Tracks vga bg pen terminal) :
    Tracks vga bg { pen with vga := pen.target bg, position := pen.position + 1 }
      { terminal with x := terminal.x + 8 } := by
  have hx : terminal.x + 8 = pen.x + 8 * (pen.position + 1) := by
    rw [h.x]
    lia
  exact ⟨h.idle, hx, h.y, h.fg, h.bg, h.font,
    congrArg (fun state : Vga => state.setCursor (pen.x + 8 * pen.position) pen.y pen.fg bg)
      h.screen⟩

theorem tracks_applied (h : Tracks vga bg pen terminal) (normal bold : Font) (text : List Char) :
    let applied := terminal.apply normal bold text
    Tracks vga bg { pen with vga := { pen.vga with font := applied.font }, fg := applied.fg }
      { applied with consumed := none } := by
  have hscreen : forall font : Font, { pen.vga with font := font } =
      { vga with cursor := pen.vga.cursor, font := font } := fun font =>
    congrArg (fun state : Vga => { state with font := font }) h.screen
  unfold apply
  cases (selections normal bold).lookup (String.ofList text) with
  | none => exact ⟨rfl, h.x, h.y, rfl, h.bg, rfl, hscreen _⟩
  | some selection =>
      cases selection with
      | font font => exact ⟨rfl, h.x, h.y, rfl, h.bg, rfl, hscreen _⟩
      | color fg => exact ⟨rfl, h.x, h.y, rfl, h.bg, rfl, hscreen _⟩

end Tracks

theorem afterSequence_open {rest : List Char} (hopen : 'm' ∉ rest) :
    Vga.afterSequence rest = [] := by
  have hall : rest.dropWhile (fun c => c ≠ 'm') = [] := by
    apply List.dropWhile_eq_nil_iff.mpr
    intro c hc
    rw [decide_eq_true_eq]
    rintro rfl
    exact hopen hc
  rw [Vga.afterSequence, hall, List.drop_nil]

theorem lookup_cons (text key : String) (value : α) (rest : List (String × α)) :
    List.lookup text ((key, value) :: rest) =
      if text = key then some value else List.lookup text rest := by
  rw [List.lookup_cons]
  by_cases h : text = key
  · simp [h]
  · rw [beq_false_of_ne h, if_neg h]

def taken (vga : Vga) (self : Terminal) (selection : Option Selection) : Outcome (Vga × Nat) :=
  .ok ({ vga with font := (self.select selection).font }, (self.select selection).fg)

theorem taken_lookup_cons (vga : Vga) (self : Terminal) (text key : String)
    (selection : Selection) (rest : List (String × Selection)) :
    taken vga self (List.lookup text ((key, selection) :: rest)) =
      if text = key then taken vga self (some selection)
      else taken vga self (List.lookup text rest) := by
  rw [lookup_cons]
  exact apply_ite (taken vga self) _ _ _

section Fonts

variable {initrd : Initrd} {normal bold : Font}
variable (hnormal : Font.new initrd Font.normalPath = .ok normal)
variable (hbold : Font.new initrd Font.boldPath = .ok bold)
include hnormal hbold

theorem applySequence_apply {vga : Vga} {self : Terminal} (hfont : self.font = vga.font)
    (text : List Char) :
    Vga.applySequence initrd vga self.fg (String.ofList text) =
      .ok ({ vga with font := (self.apply normal bold text).font },
        (self.apply normal bold text).fg) := by
  have hvga : { vga with font := self.font } = vga := by rw [hfont]
  have hcolor (fg : Nat) : taken vga self (some (.color fg)) = .ok (vga, fg) := by
    unfold taken select
    rw [hvga]
  have hnone : taken vga self none = .ok (vga, self.fg) := by
    unfold taken select
    rw [hvga]
  have hfonts (font : Font) : taken vga self (some (.font font)) =
      .ok ({ vga with font := font }, self.fg) := rfl
  show _ = taken vga self ((selections normal bold).lookup (String.ofList text))
  unfold Vga.applySequence selections
  simp only [taken_lookup_cons, List.lookup_nil, hcolor, hfonts, hnone, hnormal, hbold,
    Outcome.ok_bind]

/-- The loop draws the glyphs of the terminal, which reads a sequence character by
character. -/
theorem writeLoop_glyphs (profile : Profile) {vga : Vga} {bg : Nat} (chars : List Char) :
    forall (pen : Vga.Pen) (terminal : Terminal), Tracks vga bg pen terminal -> 12 <= pen.y ->
      (forall c, c ∈ chars -> c.toNat < 256) ->
      exists final, Vga.writeLoop profile initrd bg pen.vga pen.x pen.y pen.fg pen.position chars =
        Traced.emits ((glyphs normal bold terminal chars).flatMap (Glyph.pixels vga)) final := by
  induction chars using Vga.text_induction with
  | nil =>
      intro pen terminal h hy hlow
      rw [Vga.writeLoop]
      exact ⟨pen.vga, rfl⟩
  | newline rest ih =>
      intro pen terminal h hy hlow
      have hmoved : Tracks vga bg (pen.moved 8 (pen.y + 16) 0 bg)
          { terminal with x := 8, y := pen.y + 16 } := tracks_moved h rfl
      rw [Vga.writeLoop_newline, glyphs_newline normal bold rest h.idle, h.y]
      exact ih _ _ hmoved (Nat.le_add_right_of_le hy) (List.forall_mem_cons.mp hlow).2
  | carriageReturn rest ih =>
      intro pen terminal h hy hlow
      have hmoved : Tracks vga bg (pen.moved 8 pen.y 0 bg) { terminal with x := 8 } :=
        tracks_moved_in_line h rfl
      rw [Vga.writeLoop_return, glyphs_return normal bold rest h.idle]
      exact ih _ _ hmoved hy (List.forall_mem_cons.mp hlow).2
  | tab rest ih =>
      intro pen terminal h hy hlow
      have hcolumn : terminal.x + 64 = pen.x + 64 + 8 * pen.position := by
        rw [h.x]
        lia
      have hmoved : Tracks vga bg (pen.moved (pen.x + 64) pen.y pen.position bg)
          { terminal with x := terminal.x + 64 } := tracks_moved_in_line h hcolumn
      rw [Vga.writeLoop_tab, glyphs_tab normal bold rest h.idle]
      exact ih _ _ hmoved hy (List.forall_mem_cons.mp hlow).2
  | escape rest ih =>
      intro pen terminal h hy hlow
      have happlied := applySequence_apply hnormal hbold h.font
        ('\x1b' :: rest.takeWhile (fun c => c ≠ 'm') ++ ['m'])
      have htracks := tracks_applied h normal bold
        ('\x1b' :: rest.takeWhile (fun c => c ≠ 'm') ++ ['m'])
      have hbehind : forall c, c ∈ Vga.afterSequence rest -> c.toNat < 256 := fun c hc =>
        (List.forall_mem_cons.mp hlow).2 c
          ((List.dropWhile_sublist _).subset (List.mem_of_mem_drop hc))
      rw [h.fg] at happlied
      rw [Vga.writeLoop_escape, happlied, Traced.lift_ok_bind]
      rcases ih _ _ htracks hy hbehind with ⟨final, hfinal⟩
      by_cases hends : 'm' ∈ rest
      · rw [glyphs_escape_ends normal bold rest h.idle hends]
        exact ⟨final, hfinal⟩
      · -- the loop still applies an open sequence, but nothing is drawn behind it
        rw [glyphs_escape_open normal bold rest h.idle hends, afterSequence_open hends,
          Vga.writeLoop]
        exact ⟨_, rfl⟩
  | glyph c rest hnewline hreturn htab hescape ih =>
      intro pen terminal h hy hlow
      have hrow : 12 <= (terminal.glyph c).y := by
        rw [← h.y] at hy
        exact hy
      have hwrite := (terminal.glyph c).write_eq profile vga hrow
        (List.forall_mem_cons.mp hlow).1
      have hglyph : (pen.target bg).writeChar profile c =
          Traced.emits ((terminal.glyph c).pixels vga) ⟨⟩ := by
        rw [← tracks_target h c]
        exact hwrite
      rcases ih _ _ (tracks_printable h) hy (List.forall_mem_cons.mp hlow).2 with ⟨final, hfinal⟩
      rw [Vga.writeLoop_glyph _ _ _ _ _ _ _ _ _ hnewline hreturn htab hescape,
        glyphs_printable normal bold rest h.idle hnewline hreturn htab hescape]
      refine ⟨final, ?_⟩
      change ((pen.target bg).writeChar profile c >>= fun _ => _) = _
      rw [hglyph, Traced.emits_bind, List.flatMap_cons, ← Traced.after_emits]
      exact congrArg (Traced.after _) hfinal

/-- One call draws the pixels of the terminal's glyphs, one glyph after the other, and it
returns. -/
theorem writeStr_glyphs (profile : Profile) {vga : Vga} (hy : 12 <= vga.cursor.y) {s : String}
    (hlow : forall c, c ∈ s.toList -> c.toNat <= 0xFF) :
    exists final, vga.writeStr profile initrd s =
      Traced.emits (((start vga).glyphs normal bold s.toList).flatMap (Glyph.pixels vga))
        final := by
  have hlow' : forall c, c ∈ s.toList -> c.toNat < 256 := fun c hc => Nat.lt_succ_of_le (hlow c hc)
  exact writeLoop_glyphs hnormal hbold profile s.toList (Vga.Pen.start vga) (start vga)
    (start_tracks vga) hy hlow'

end Fonts

def mixedText : String := "a\tb\rc\x1b[1md\x1b[39me\nf\x1b[1"

theorem writeStr_glyphs_sample :
    exists final, Screen.clearedVga.writeStr .dev Screen.fontInitrd mixedText =
      Traced.emits (((start Screen.clearedVga).glyphs Screen.fontVga.font Screen.fontVga.font
        mixedText.toList).flatMap (Glyph.pixels Screen.clearedVga)) final := by
  have hlow : forall c, c ∈ mixedText.toList -> c.toNat <= 0xFF := by
    simp [mixedText]
  exact writeStr_glyphs (Screen.new_of_blankFont rfl) (Screen.new_of_blankFont rfl) .dev
    (by simp [Screen.clearedVga, Vga.setCursor]) hlow

end Terminal

end NeurOS
