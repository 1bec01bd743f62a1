import NeurOS.Vga.Bounds

/-!
# Texts that can be drawn

Drawing a text panics at a character that the font has no place for, and at a
sequence whose font cannot be loaded.  A text without either is drawn to its end.
-/

namespace NeurOS

open Foundation

namespace Vga

/-- Every character has a place in the font, and every font of a sequence can be loaded. -/
def legible (initrd : Initrd) : List Char -> Bool
  | [] => true
  | c :: rest =>
      if c = '\x1b' then
        Grid.switchable initrd (rest.takeWhile fun c => c ≠ 'm') &&
          legible initrd (afterSequence rest)
      else
        decide (c.toNat <= 256) && legible initrd rest
  termination_by chars => chars.length
  decreasing_by
    all_goals
      have hlength := afterSequence_length rest
      simp only [List.length_cons]
      lia

theorem legible_escape (initrd : Initrd) (rest : List Char) :
    legible initrd ('\x1b' :: rest) =
      (Grid.switchable initrd (rest.takeWhile fun c => c ≠ 'm') &&
        legible initrd (afterSequence rest)) := by
  rw [legible, if_pos rfl]

theorem legible_other (initrd : Initrd) {c : Char} (hescape : c ≠ '\x1b') (rest : List Char) :
    legible initrd (c :: rest) = (decide (c.toNat <= 256) && legible initrd rest) := by
  rw [legible, if_neg hescape]

theorem legible_control (initrd : Initrd) {c : Char} (h : c ∈ ['\n', '\r', '\t'])
    (rest : List Char) : legible initrd (c :: rest) = legible initrd rest := by
  have hcontrol : c ≠ '\x1b' ∧ c.toNat <= 256 := by
    simp only [List.mem_cons, List.not_mem_nil, or_false] at h
    rcases h with rfl | rfl | rfl <;> simp
  rw [legible_other initrd hcontrol.1, decide_eq_true hcontrol.2, Bool.true_and]

theorem legible_newline (initrd : Initrd) (rest : List Char) :
    legible initrd ('\n' :: rest) = legible initrd rest :=
  legible_control initrd (by simp) rest

theorem legible_return (initrd : Initrd) (rest : List Char) :
    legible initrd ('\r' :: rest) = legible initrd rest :=
  legible_control initrd (by simp) rest

theorem legible_tab (initrd : Initrd) (rest : List Char) :
    legible initrd ('\t' :: rest) = legible initrd rest :=
  legible_control initrd (by simp) rest

theorem legible_of_switchable {initrd : Initrd}
    (hswitchable : Grid.switchable initrd = fun _ => true) {chars : List Char}
    (hchars : forall c, c ∈ chars -> c.toNat <= 256) : legible initrd chars = true := by
  induction chars using text_induction with
  | nil => rw [legible]
  | newline rest ih =>
      rw [legible_newline]
      exact ih (List.forall_mem_cons.mp hchars).2
  | carriageReturn rest ih =>
      rw [legible_return]
      exact ih (List.forall_mem_cons.mp hchars).2
  | tab rest ih =>
      rw [legible_tab]
      exact ih (List.forall_mem_cons.mp hchars).2
  | escape rest ih =>
      have hsublist : (afterSequence rest).Sublist rest :=
        (List.drop_sublist 1 _).trans (List.dropWhile_sublist _)
      rw [legible_escape, hswitchable, Bool.true_and]
      exact ih (fun c hc => (List.forall_mem_cons.mp hchars).2 c (hsublist.subset hc))
  | glyph c rest _ _ _ hescape ih =>
      rw [List.forall_mem_cons] at hchars
      rw [legible_other initrd hescape, decide_eq_true hchars.1, Bool.true_and]
      exact ih hchars.2

def InFont (s : String) : Prop :=
  forall c, c ∈ s.toList -> c.toNat <= 256

theorem inFont_append_iff {a b : String} : InFont (a ++ b) <-> InFont a ∧ InFont b := by
  unfold InFont
  rw [String.toList_append, List.forall_mem_append]

theorem inFont_of_all {s : String} (h : s.toList.all (fun c => decide (c.toNat <= 256)) = true) :
    InFont s := by
  simpa [InFont] using h

/-- A state whose next glyph lies on the framebuffer. -/
def High (self : Vga) : Prop :=
  12 <= self.cursor.y

theorem writeChar_legible (profile : Profile) {self : Vga} {c : Char} (hy : self.High)
    (hc : c.toNat <= 256) :
    exists pixels, self.writeChar profile c = Traced.emits pixels ⟨⟩ := by
  have hglyphs : glyphsFrom self.font.data (c.toNat * 16) =
      .ok (self.font.data.drop (c.toNat * 16)) := by
    unfold glyphsFrom
    rw [self.font.data_length, if_pos (by lia)]
  exact ⟨_, writeChar_of_glyphs profile hy hglyphs⟩

theorem writeLoop_legible (profile : Profile) (initrd : Initrd) (bg : Nat)
    (chars : List Char) : forall (self : Vga) (x y fg position : Nat),
      12 <= y -> self.High -> legible initrd chars = true ->
      exists after, (writeLoop profile initrd bg self x y fg position chars).result =
        .ok after ∧ after.High := by
  induction chars using text_induction with
  | nil =>
      intro self x y fg position hy hhigh hlegible
      rw [writeLoop]
      exact ⟨self, rfl, hhigh⟩
  | newline rest ih =>
      intro self x y fg position hy hhigh hlegible
      have hnext : 12 <= y + 16 := Nat.le_add_right_of_le hy
      rw [legible_newline] at hlegible
      rw [writeLoop_newline]
      exact ih _ 8 (y + 16) fg 0 hnext hnext hlegible
  | carriageReturn rest ih =>
      intro self x y fg position hy hhigh hlegible
      rw [legible_return] at hlegible
      rw [writeLoop_return]
      exact ih _ 8 y fg 0 hy hy hlegible
  | tab rest ih =>
      intro self x y fg position hy hhigh hlegible
      rw [legible_tab] at hlegible
      rw [writeLoop_tab]
      exact ih _ (x + 64) y fg position hy hy hlegible
  | escape rest ih =>
      intro self x y fg position hy hhigh hlegible
      rw [legible_escape, Bool.and_eq_true] at hlegible
      rw [writeLoop_escape]
      rcases applySequence_cases initrd (rest.takeWhile fun c => c ≠ 'm') self fg with
        ⟨_, self', fg', happly, hcursor⟩ | ⟨hswitch, _⟩
      · have hhigh' : self'.High := by
          unfold High
          rw [hcursor]
          exact hhigh
        rw [happly, Traced.lift_ok_bind]
        exact ih self' x y fg' position hy hhigh' hlegible.2
      · rw [hswitch] at hlegible
        cases hlegible.1
  | glyph c rest hnewline hreturn htab hescape ih =>
      intro self x y fg position hy hhigh hlegible
      rw [legible_other initrd hescape, Bool.and_eq_true, decide_eq_true_eq] at hlegible
      have hhigh' : (self.setCursor (x + 8 * position) y fg bg).High := hy
      rcases writeChar_legible profile hhigh' hlegible.1 with ⟨pixels, hwrite⟩
      rw [writeLoop_glyph profile initrd bg self x y fg position rest hnewline hreturn htab
        hescape, hwrite, Traced.emits_bind]
      exact ih _ x y fg (position + 1) hy hy hlegible.2

/-- A legible text is drawn to its end, and the next glyph lies on the framebuffer again. -/
theorem writeStr_legible (profile : Profile) {initrd : Initrd} {self : Vga} {s : String}
    (hhigh : self.High) (h : legible initrd s.toList = true) :
    exists after, (self.writeStr profile initrd s).result = .ok after ∧ after.High :=
  writeLoop_legible profile initrd self.cursor.bg s.toList self self.cursor.x self.cursor.y
    self.cursor.fg 0 hhigh hhigh h

theorem clear_result (self : Vga) :
    self.clear.result = .ok (self.setCursor 8 24 Color.white Color.black) := by
  rw [clear_eq]
  rfl

end Vga

end NeurOS
