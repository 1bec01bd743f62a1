import NeurOS.Vga.Legible

/-!
# Texts of the callers

Where the callers of the framebuffer start their texts, and where earlier texts
leave the cursor.  From there every text is drawn to its end exactly when it is
legible.
-/

namespace NeurOS

open Foundation

namespace Vga

/-!
# Texts that end
-/

theorem legible_of_writeLoop (profile : Profile) (initrd : Initrd) (bg : Nat)
    (chars : List Char) : forall (self : Vga) (x y fg position : Nat) (after : Vga),
      (writeLoop profile initrd bg self x y fg position chars).result = .ok after ->
      legible initrd chars = true := by
  induction chars using text_induction with
  | nil =>
      intro self x y fg position after hresult
      rw [legible]
  | newline rest ih =>
      intro self x y fg position after hresult
      rw [writeLoop_newline] at hresult
      rw [legible_newline]
      exact ih _ _ _ _ _ _ hresult
  | carriageReturn rest ih =>
      intro self x y fg position after hresult
      rw [writeLoop_return] at hresult
      rw [legible_return]
      exact ih _ _ _ _ _ _ hresult
  | tab rest ih =>
      intro self x y fg position after hresult
      rw [writeLoop_tab] at hresult
      rw [legible_tab]
      exact ih _ _ _ _ _ _ hresult
  | escape rest ih =>
      intro self x y fg position after hresult
      rw [writeLoop_escape] at hresult
      rcases Traced.bind_result_eq_ok_iff.mp hresult with ⟨applied, happlied, hrest⟩
      rw [legible_escape, Bool.and_eq_true]
      rcases applySequence_cases initrd (rest.takeWhile fun c => c ≠ 'm') self fg with
        ⟨hswitch, _⟩ | ⟨_, e, happly⟩
      · exact ⟨hswitch, ih _ _ _ _ _ _ hrest⟩
      · rw [happly] at happlied
        cases happlied
  | glyph c rest hnewline hreturn htab hescape ih =>
      intro self x y fg position after hresult
      rw [writeLoop_glyph profile initrd bg self x y fg position rest hnewline hreturn htab
        hescape] at hresult
      rcases Traced.bind_result_eq_ok_iff.mp hresult with ⟨_, hwrite, hrest⟩
      rw [legible_other initrd hescape, Bool.and_eq_true, decide_eq_true_eq]
      refine ⟨?_, ih _ _ _ _ _ _ hrest⟩
      by_contra hbehind
      rw [writeChar_too_high profile (Nat.lt_of_not_le hbehind)] at hwrite
      cases hwrite

theorem writeStr_ok_iff (profile : Profile) {initrd : Initrd} {self : Vga} (hhigh : self.High)
    (s : String) :
    (exists after, (self.writeStr profile initrd s).result = .ok after) <->
      legible initrd s.toList = true := by
  constructor
  · intro h
    rcases h with ⟨after, hafter⟩
    exact legible_of_writeLoop profile initrd _ _ _ _ _ _ _ _ hafter
  · intro h
    rcases writeStr_legible profile hhigh h with ⟨after, hafter, _⟩
    exact ⟨after, hafter⟩

/-!
# Cursors of the callers
-/

/-- What the callers do to the cursor ahead of their texts: the panic handler clears the
framebuffer, the console goes to its first cell, and the opening screen goes to the places of
its three texts. -/
inductive Sets (profile : Profile) (vga : Vga) : Vga -> Prop where
  | clear {after : Vga} (h : vga.clear.result = .ok after) : Sets profile vga after
  | console :
      Sets profile vga
        (vga.setCursor vga.font.getWidth (vga.font.getHeight + vga.font.getWidth) Color.white
          Color.black)
  | version {y : Nat} (h : profile.sub 64 vga.height vga.font.getWidth = .ok y) :
      Sets profile vga (vga.setCursor vga.font.getWidth y Color.red Color.black)
  | copyright (x : Nat) {y : Nat} (h : profile.sub 64 vga.height vga.font.getWidth = .ok y) :
      Sets profile vga (vga.setCursor x y Color.blue Color.black)
  | instruction (x : Nat) {y : Nat} (h : profile.sub 64 vga.height (vga.height / 4) = .ok y) :
      Sets profile vga (vga.setCursor x y Color.white Color.black)

/-- The states on which a text is drawn, on a framebuffer of at least 480 rows. -/
inductive Reached (profile : Profile) (initrd : Initrd) : Vga -> Prop where
  | set {vga after : Vga} (hheight : 480 <= vga.height) (h : Sets profile vga after) :
      Reached profile initrd after
  | write {vga after : Vga} {s : String} (h : Reached profile initrd vga)
      (hafter : (vga.writeStr profile initrd s).result = .ok after) :
      Reached profile initrd after

theorem sub_result {profile : Profile} {a b value : Nat} (hle : b <= a)
    (h : profile.sub 64 a b = .ok value) : value = a - b := by
  rw [profile.sub_of_le 64 hle] at h
  exact (Except.ok.inj h).symm

theorem sets_high {profile : Profile} {vga after : Vga} (hheight : 480 <= vga.height)
    (h : Sets profile vga after) : after.High := by
  cases h with
  | clear h =>
      rw [clear_result] at h
      rw [← Except.ok.inj h]
      exact Nat.le_add_left 12 12
  | console =>
      simp [High, setCursor]
  | version h =>
      rw [Font.getWidth_eq] at h
      have hy := sub_result (by lia) h
      simp only [High, setCursor]
      lia
  | copyright x h =>
      rw [Font.getWidth_eq] at h
      have hy := sub_result (by lia) h
      simp only [High, setCursor]
      lia
  | instruction x h =>
      have hy := sub_result (Nat.div_le_self _ _) h
      simp only [High, setCursor]
      lia

theorem reached_high {profile : Profile} {initrd : Initrd} {vga : Vga}
    (h : Reached profile initrd vga) : vga.High := by
  induction h with
  | set hheight h => exact sets_high hheight h
  | write _ hafter ih =>
      have hlegible := (writeStr_ok_iff profile ih _).mp ⟨_, hafter⟩
      rcases writeStr_legible profile ih hlegible with ⟨final, hfinal, hhigh⟩
      rw [hafter] at hfinal
      rw [Except.ok.inj hfinal]
      exact hhigh

/-- Wherever a caller draws a text, no row lies above the framebuffer, and the text is drawn
to its end exactly when it is legible. -/
theorem writeStr_total_iff (profile : Profile) {initrd : Initrd} {vga : Vga}
    (h : Reached profile initrd vga) (s : String) :
    12 <= vga.cursor.y ∧
      ((exists after, (vga.writeStr profile initrd s).result = .ok after) <->
        legible initrd s.toList = true) :=
  ⟨reached_high h, writeStr_ok_iff profile (reached_high h) s⟩

theorem cleared_reached : Reached .dev Screen.fontInitrd Screen.clearedVga :=
  .set (Nat.le_refl 480) (.clear (clear_result Screen.fontVga))

theorem writeStr_total_iff_sample :
    12 <= Screen.clearedVga.cursor.y ∧
      ((exists after,
          (Screen.clearedVga.writeStr .dev Screen.fontInitrd "NeurOS").result = .ok after) <->
        legible Screen.fontInitrd "NeurOS".toList = true) :=
  writeStr_total_iff .dev cleared_reached "NeurOS"

theorem text_behind_font_panics :
    Reached .dev Screen.fontInitrd Screen.clearedVga ∧
      (Screen.clearedVga.writeStr .dev Screen.fontInitrd "\u0101").result =
        .error .indexOutOfBounds := by
  refine ⟨cleared_reached, ?_⟩
  have hchars : "\u0101".toList = [Char.ofNat 0x101] := by simp
  unfold writeStr
  rw [hchars, writeLoop_glyph _ _ _ _ _ _ _ _ _ (by simp) (by simp) (by simp) (by simp),
    writeChar_too_high .dev (by simp)]
  rfl

end Vga

end NeurOS
