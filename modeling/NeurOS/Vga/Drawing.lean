import NeurOS.Vga.Grid

/-!
# Drawing follows the grid

The pixels of a glyph are the points of its cell.  A text draws the cells of its
layout and leaves the cursor where the layout says that the next text starts.
-/

namespace NeurOS

open Foundation

def Pixel.point (self : Pixel) : Nat × Nat :=
  (self.x, self.y)

namespace Vga

/-!
# One glyph
-/

def glyphPixels (self : Vga) (glyphs : List UInt8) : List Pixel :=
  (glyphs.zipIdx.take 16).flatMap fun (glyph, cy) =>
    (masks.zipIdx.take 8).map fun (mask, cx) =>
      { x := self.cursor.x + cx
        y := self.cursor.y + cy - 12
        color := if glyph &&& mask = 0 then self.cursor.bg else self.cursor.fg }

theorem writeChar_of_glyphs (profile : Profile) {self : Vga} {c : Char} {glyphs : List UInt8}
    (hy : 12 <= self.cursor.y)
    (hglyphs : glyphsFrom self.font.data (c.toNat * 16) = .ok glyphs) :
    self.writeChar profile c = Traced.emits (self.glyphPixels glyphs) ⟨⟩ := by
  unfold writeChar
  simp only [Font.getHeight_eq, Font.getWidth_eq, hglyphs, Traced.lift_ok_bind]
  apply Traced.forM_emits
  intro row _
  have hrow : forall cell, cell ∈ masks.zipIdx.take 8 -> (do
        let color := if row.1 &&& cell.1 = 0 then self.cursor.bg else self.cursor.fg
        let y ← Traced.lift (profile.sub 64 (self.cursor.y + row.2) 12)
        drawPixel (self.cursor.x + cell.2) y color) =
      Traced.emits
        [({ x := self.cursor.x + cell.2
            y := self.cursor.y + row.2 - 12
            color := if row.1 &&& cell.1 = 0 then self.cursor.bg else self.cursor.fg } : Pixel)]
        ⟨⟩ := by
    intro cell _
    rw [profile.sub_of_le 64 (by lia)]
    rfl
  have hloop := Traced.forM_emits hrow
  rw [← List.map_eq_flatMap] at hloop
  exact hloop

theorem glyphPixels_points {self : Vga} {glyphs : List UInt8} (h : 16 <= glyphs.length)
    {cell : Cell} (hx : self.cursor.x = cell.x) (hy : self.cursor.y = cell.y) :
    (self.glyphPixels glyphs).map Pixel.point = cell.points := by
  have hrows : (glyphs.zipIdx.take 16).map Prod.snd = List.range 16 := by
    rw [List.map_take, List.zipIdx_map_snd, ← List.range_eq_range', List.take_range,
      Nat.min_eq_left h]
  have hcolumns : (masks.zipIdx.take 8).map Prod.snd = List.range 8 := rfl
  unfold glyphPixels Cell.points
  rw [← hrows, ← hcolumns, List.map_flatMap, List.flatMap_map]
  simp only [List.map_map, hx, hy]
  rfl

theorem writeChar_too_high (profile : Profile) {self : Vga} {c : Char}
    (h : 256 < c.toNat) :
    self.writeChar profile c = Traced.lift (.error .indexOutOfBounds) := by
  have hglyphs : glyphsFrom self.font.data (c.toNat * 16) = .error .indexOutOfBounds := by
    unfold glyphsFrom
    rw [self.font.data_length, if_neg (by lia)]
  unfold writeChar
  simp only [Font.getHeight_eq, hglyphs, Traced.lift_error_bind]

theorem writeChar_points (profile : Profile) {self : Vga} {c : Char} {cell : Cell}
    (hc : c.toNat <= 256) (hx : self.cursor.x = cell.x) (hy : self.cursor.y = cell.y) :
    exists pixels, self.writeChar profile c = Traced.emits pixels ⟨⟩ ∧
      pixels.map Pixel.point = if c.toNat < 256 then cell.points else [] := by
  have hhigh : 12 <= self.cursor.y := by
    rw [hy, Cell.y]
    lia
  have hglyphs : glyphsFrom self.font.data (c.toNat * 16) =
      .ok (self.font.data.drop (c.toNat * 16)) := by
    unfold glyphsFrom
    rw [self.font.data_length, if_pos (by lia)]
  refine ⟨_, writeChar_of_glyphs profile hhigh hglyphs, ?_⟩
  have hlength : (self.font.data.drop (c.toNat * 16)).length = 4096 - c.toNat * 16 := by
    rw [List.length_drop, self.font.data_length]
  by_cases hlt : c.toNat < 256
  · rw [if_pos hlt]
    exact glyphPixels_points (by lia) hx hy
  · have hnil : self.font.data.drop (c.toNat * 16) = [] := by
      apply List.eq_nil_of_length_eq_zero
      lia
    rw [if_neg hlt, hnil]
    rfl

/-!
# Sequences
-/

theorem applySequence_cases (initrd : Initrd) (sequence : List Char) (self : Vga) (fg : Nat) :
    let applied := applySequence initrd self fg (String.ofList ('\x1b' :: sequence ++ ['m']))
    (Grid.switchable initrd sequence = true ∧
      exists self' fg', applied = .ok (self', fg') ∧ self'.cursor = self.cursor) ∨
    (Grid.switchable initrd sequence = false ∧ exists e, applied = .error e) := by
  unfold Grid.switchable applySequence
  generalize String.ofList ('\x1b' :: sequence ++ ['m']) = text
  by_cases hbold : text = Ansi.bold
  · simp only [if_pos hbold]
    cases Font.new initrd Font.boldPath with
    | error e => exact Or.inr ⟨rfl, e, rfl⟩
    | ok font => exact Or.inl ⟨rfl, _, _, rfl, rfl⟩
  by_cases hnormal : text = Ansi.normal
  · have hblue : text ≠ Ansi.blue := by simp [hnormal, Ansi.normal, Ansi.blue]
    have hdefault : text ≠ Ansi.default := by simp [hnormal, Ansi.normal, Ansi.default]
    have hgreen : text ≠ Ansi.green := by simp [hnormal, Ansi.normal, Ansi.green]
    simp only [if_neg hbold, if_neg hblue, if_neg hdefault, if_neg hgreen, if_pos hnormal]
    cases Font.new initrd Font.normalPath with
    | error e => exact Or.inr ⟨rfl, e, rfl⟩
    | ok font => exact Or.inl ⟨rfl, _, _, rfl, rfl⟩
  · -- What is left sets the colour or does nothing.
    simp only [if_neg hbold, if_neg hnormal]
    left
    refine ⟨trivial, ?_⟩
    repeat' split
    all_goals exact ⟨_, _, rfl, rfl⟩

/-!
# Texts
-/

def At (self : Vga) (cell : Cell) : Prop :=
  self.cursor.x = cell.x ∧ self.cursor.y = cell.y

/-- A computation draws the cells of a layout, in their order, and ends as it does: with an
error where the layout stops, else with the cursor where the next text starts. -/
structure Follows (view : α -> Vga) (t : Traced Pixel α) (layout : Layout) : Prop where
  points : t.emitted.map Pixel.point = layout.cells.flatMap Cell.points
  stopped : layout.next = none -> exists e, t.result = .error e
  continued : forall cell, layout.next = some cell ->
    exists a, t.result = .ok a ∧ (view a).At cell

section Follows

variable {view : α -> Vga} {t : Traced Pixel α} {cell : Cell}

theorem follows_pure {a : α} (h : (view a).At cell) :
    Follows view (pure a) { cells := [], next := some cell } := by
  refine ⟨rfl, ?_, ?_⟩
  · intro hnone
    cases hnone
  · intro other hother
    cases hother
    exact ⟨a, rfl, h⟩

theorem follows_error (e : Panic) :
    Follows view (Traced.lift (.error e)) Layout.stopped := by
  refine ⟨rfl, fun _ => ⟨e, rfl⟩, ?_⟩
  intro cell hcell
  cases hcell

theorem follows_after {layout : Layout} {pixels : List Pixel} {cells : List Cell}
    (h : Follows view t layout) (hpoints : pixels.map Pixel.point = cells.flatMap Cell.points) :
    Follows view (Traced.after pixels t) (Layout.after cells layout) := by
  refine ⟨?_, h.stopped, h.continued⟩
  simp [Traced.after, Layout.after, h.points, hpoints]

theorem follows_bind {view' : β -> Vga} {f : α -> Traced Pixel β} {first : Layout}
    {second : Cell -> Layout} (h : Follows view t first)
    (hrest : forall a cell, t.result = .ok a -> (view a).At cell ->
      Follows view' (f a) (second cell)) :
    Follows view' (t >>= f) (first.andThen second) := by
  unfold Layout.andThen
  cases hnext : first.next with
  | none =>
      rcases h.stopped hnext with ⟨e, he⟩
      rw [Traced.bind_error he]
      refine ⟨h.points, fun _ => ⟨e, rfl⟩, ?_⟩
      intro cell hcell
      rw [hnext] at hcell
      cases hcell
  | some cell =>
      rcases h.continued cell hnext with ⟨a, ha, hat⟩
      rw [Traced.bind_ok ha]
      exact follows_after (hrest a cell ha hat) h.points

end Follows

/-!
# One character of a string
-/

section Loop

variable (profile : Profile) (initrd : Initrd) (bg : Nat) (self : Vga) (x y fg position : Nat)
variable (rest : List Char)

theorem writeLoop_newline :
    writeLoop profile initrd bg self x y fg position ('\n' :: rest) =
      writeLoop profile initrd bg (self.setCursor 8 (y + 16) fg bg) 8 (y + 16) fg 0 rest := by
  rw [writeLoop, if_pos rfl, Font.getWidth_eq, Font.getHeight_eq]

theorem writeLoop_return :
    writeLoop profile initrd bg self x y fg position ('\r' :: rest) =
      writeLoop profile initrd bg (self.setCursor 8 y fg bg) 8 y fg 0 rest := by
  rw [writeLoop, if_neg (by simp), if_pos rfl, Font.getWidth_eq]

theorem writeLoop_tab :
    writeLoop profile initrd bg self x y fg position ('\t' :: rest) =
      writeLoop profile initrd bg (self.setCursor (x + 64) y fg bg) (x + 64) y fg position
        rest := by
  rw [writeLoop, if_neg (by simp), if_neg (by simp), if_pos rfl, Font.getWidth_eq]

theorem writeLoop_escape :
    writeLoop profile initrd bg self x y fg position ('\x1b' :: rest) =
      (Traced.lift (applySequence initrd self fg
        (String.ofList ('\x1b' :: rest.takeWhile (fun c => c ≠ 'm') ++ ['m']))) >>=
        fun applied =>
          writeLoop profile initrd bg applied.1 x y applied.2 position (afterSequence rest)) := by
  rw [writeLoop, if_neg (by simp), if_neg (by simp), if_neg (by simp), if_pos rfl]

theorem writeLoop_glyph {c : Char} (hnewline : c ≠ '\n') (hreturn : c ≠ '\r') (htab : c ≠ '\t')
    (hescape : c ≠ '\x1b') :
    writeLoop profile initrd bg self x y fg position (c :: rest) =
      ((self.setCursor (x + 8 * position) y fg bg).writeChar profile c >>= fun _ =>
        writeLoop profile initrd bg (self.setCursor (x + 8 * position) y fg bg) x y fg
          (position + 1) rest) := by
  rw [writeLoop, if_neg hnewline, if_neg hreturn, if_neg htab, if_neg hescape, Font.getWidth_eq]

end Loop

@[elab_as_elim]
theorem text_induction {motive : List Char -> Prop} (nil : motive [])
    (newline : forall rest, motive rest -> motive ('\n' :: rest))
    (carriageReturn : forall rest, motive rest -> motive ('\r' :: rest))
    (tab : forall rest, motive rest -> motive ('\t' :: rest))
    (escape : forall rest, motive (afterSequence rest) -> motive ('\x1b' :: rest))
    (glyph : forall c rest, c ≠ '\n' -> c ≠ '\r' -> c ≠ '\t' -> c ≠ '\x1b' -> motive rest ->
      motive (c :: rest)) (chars : List Char) : motive chars := by
  induction hlength : chars.length using Nat.strong_induction_on generalizing chars with
  | _ length ih =>
      subst hlength
      cases chars with
      | nil => exact nil
      | cons c rest =>
          have hrest : motive rest := ih rest.length (Nat.lt_succ_self _) rest rfl
          by_cases hnewline : c = '\n'
          · rw [hnewline]
            exact newline rest hrest
          by_cases hreturn : c = '\r'
          · rw [hreturn]
            exact carriageReturn rest hrest
          by_cases htab : c = '\t'
          · rw [htab]
            exact tab rest hrest
          by_cases hescape : c = '\x1b'
          · rw [hescape]
            exact escape rest (ih _ (Nat.lt_succ_of_le (afterSequence_length rest)) _ rfl)
          · exact glyph c rest hnewline hreturn htab hescape hrest

theorem writeLoop_follows (profile : Profile) (initrd : Initrd) (bg : Nat)
    (chars : List Char) : forall (self : Vga) (x y fg base position row : Nat) (next : Cell),
      x = 8 + 8 * base -> y = 24 + 16 * row -> self.At next ->
      Follows id (writeLoop profile initrd bg self x y fg position chars)
        (Grid.layout (Grid.switchable initrd)
          { base, position, row, next, pending := none } chars) := by
  induction chars using text_induction with
  | nil =>
      intro self x y fg base position row next hx hy hat
      rw [writeLoop]
      exact follows_pure hat
  | newline rest ih =>
      intro self x y fg base position row next hx hy hat
      rw [writeLoop_newline, Grid.layout_newline]
      apply ih
      · rfl
      · lia
      · exact ⟨rfl, by simp only [setCursor, Cell.y, hy]; lia⟩
  | carriageReturn rest ih =>
      intro self x y fg base position row next hx hy hat
      rw [writeLoop_return, Grid.layout_return]
      apply ih
      · rfl
      · exact hy
      · exact ⟨rfl, hy⟩
  | tab rest ih =>
      intro self x y fg base position row next hx hy hat
      rw [writeLoop_tab, Grid.layout_tab]
      apply ih
      · lia
      · exact hy
      · exact ⟨by simp only [setCursor, Cell.x, hx]; lia, hy⟩
  | escape rest ih =>
      intro self x y fg base position row next hx hy hat
      rw [writeLoop_escape, Grid.layout_escape, Grid.layout_pending, List.nil_append]
      rcases applySequence_cases initrd (rest.takeWhile fun c => c ≠ 'm') self fg with
        ⟨hswitch, self', fg', happly, hcursor⟩ | ⟨hswitch, e, happly⟩
      · have hat' : self'.At next := by
          unfold At
          rw [hcursor]
          exact hat
        rw [happly, Traced.lift_ok_bind, if_pos hswitch]
        exact ih self' x y fg' base position row next hx hy hat'
      · rw [happly, Traced.lift_error_bind, hswitch, if_neg Bool.false_ne_true]
        exact follows_error e
  | glyph c rest hnewline hreturn htab hescape ih =>
      intro self x y fg base position row next hx hy hat
      rw [writeLoop_glyph profile initrd bg self x y fg position rest hnewline hreturn htab
          hescape,
        Grid.layout_glyph (Grid.switchable initrd) base position row next rest hnewline
          hreturn htab hescape]
      let cell : Cell := { column := base + position, row }
      have hat' : (self.setCursor (x + 8 * position) y fg bg).At cell := by
        refine ⟨?_, hy⟩
        show x + 8 * position = 8 + 8 * (base + position)
        lia
      by_cases hfont : c.toNat <= 256
      · rcases writeChar_points profile hfont hat'.1 hat'.2 with ⟨pixels, hwrite, hpoints⟩
        rw [if_pos hfont, hwrite, Traced.emits_bind]
        apply follows_after
        · exact ih _ x y fg base (position + 1) row cell hx hy hat'
        · rw [hpoints]
          split <;> simp [cell]
      · rw [if_neg hfont, writeChar_too_high profile (by lia), Traced.lift_error_bind]
        exact follows_error _

theorem writeStr_follows (profile : Profile) (initrd : Initrd) {self : Vga} {cell : Cell}
    (h : self.At cell) (s : String) :
    Follows id (self.writeStr profile initrd s)
      (Grid.layout (Grid.switchable initrd) (Grid.start cell) s.toList) :=
  writeLoop_follows profile initrd self.cursor.bg s.toList self self.cursor.x self.cursor.y
    self.cursor.fg cell.column 0 cell.row cell h.1 h.2 h

theorem writeAll_follows (profile : Profile) (initrd : Initrd) {self : Vga} {cell : Cell}
    (h : self.At cell) (texts : List String) :
    Follows id (self.writeAll profile initrd texts)
      (Grid.layoutAll (Grid.switchable initrd) cell texts) := by
  induction texts generalizing self cell with
  | nil => exact follows_pure h
  | cons s rest ih =>
      rw [writeAll, Grid.layoutAll]
      exact follows_bind (writeStr_follows profile initrd h s) (fun vga cell _ hat => ih hat)

end Vga

end NeurOS
