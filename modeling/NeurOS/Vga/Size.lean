import NeurOS.Vga.Intro
import NeurOS.Vga.Legible

/-!
# The size of the framebuffer

Drawing moves the cursor and changes colors and fonts: the height, the pitch and the
width stay as the boot loader gave them.
-/

namespace NeurOS

open Foundation

namespace Vga

structure SameSize (vga after : Vga) : Prop where
  height : after.height = vga.height
  pitch : after.pitch = vga.pitch
  width : after.width = vga.width

variable {self middle after : Vga} {profile : Profile} {initrd : Initrd}

theorem SameSize.refl (self : Vga) : SameSize self self :=
  ⟨rfl, rfl, rfl⟩

theorem SameSize.trans (h : SameSize self middle) (h' : SameSize middle after) :
    SameSize self after :=
  ⟨h'.height.trans h.height, h'.pitch.trans h.pitch, h'.width.trans h.width⟩

theorem setCursor_sameSize (self : Vga) (x y fg bg : Nat) :
    SameSize self (self.setCursor x y fg bg) :=
  ⟨rfl, rfl, rfl⟩

theorem clear_sameSize (h : self.clear.result = .ok after) : SameSize self after := by
  rw [clear_result] at h
  cases h
  exact setCursor_sameSize self _ _ _ _

theorem applySequence_sameSize {fg fg' : Nat} {sequence : String}
    (h : applySequence initrd self fg sequence = .ok (after, fg')) : SameSize self after := by
  have hfont {path : String} {fg fg' : Nat} (h : (do
      let font ← Font.new initrd path
      .ok ({ self with font := font }, fg) : Outcome (Vga × Nat)) = .ok (after, fg')) :
      SameSize self after := by
    rcases Outcome.bind_eq_ok_iff.mp h with ⟨font, _, heq⟩
    cases heq
    exact ⟨rfl, rfl, rfl⟩
  unfold applySequence at h
  repeat' split at h
  all_goals first
    | exact hfont h
    | cases h
      exact SameSize.refl self

theorem writeLoop_sameSize (profile : Profile) (initrd : Initrd) (bg : Nat)
    (chars : List Char) : forall (self : Vga) (x y fg position : Nat) (after : Vga),
      (writeLoop profile initrd bg self x y fg position chars).result = .ok after ->
      SameSize self after := by
  induction chars using text_induction with
  | nil =>
      intro self x y fg position after hresult
      rw [writeLoop] at hresult
      cases hresult
      exact SameSize.refl self
  | newline rest ih =>
      intro self x y fg position after hresult
      rw [writeLoop_newline] at hresult
      exact (setCursor_sameSize self _ _ _ _).trans (ih _ _ _ _ _ _ hresult)
  | carriageReturn rest ih =>
      intro self x y fg position after hresult
      rw [writeLoop_return] at hresult
      exact (setCursor_sameSize self _ _ _ _).trans (ih _ _ _ _ _ _ hresult)
  | tab rest ih =>
      intro self x y fg position after hresult
      rw [writeLoop_tab] at hresult
      exact (setCursor_sameSize self _ _ _ _).trans (ih _ _ _ _ _ _ hresult)
  | escape rest ih =>
      intro self x y fg position after hresult
      rw [writeLoop_escape] at hresult
      rcases Traced.bind_result_eq_ok_iff.mp hresult with ⟨⟨applied, fg'⟩, happlied, hrest⟩
      exact (applySequence_sameSize happlied).trans (ih _ _ _ _ _ _ hrest)
  | glyph c rest hnewline hreturn htab hescape ih =>
      intro self x y fg position after hresult
      rw [writeLoop_glyph profile initrd bg self x y fg position rest hnewline hreturn htab
        hescape] at hresult
      rcases Traced.bind_result_eq_ok_iff.mp hresult with ⟨_, _, hrest⟩
      exact (setCursor_sameSize self _ _ _ _).trans (ih _ _ _ _ _ _ hrest)

theorem writeStr_sameSize {s : String}
    (h : (self.writeStr profile initrd s).result = .ok after) : SameSize self after :=
  writeLoop_sameSize profile initrd _ _ _ _ _ _ _ _ h

end Vga

theorem Intro.initializeScreen_sameSize {profile : Profile} {initrd : Initrd} {build : Build}
    {vga after : Vga} (h : (initializeScreen profile initrd build vga).result = .ok after) :
    vga.SameSize after := by
  unfold initializeScreen at h
  simp only [Traced.bind_result_eq_ok_iff] at h
  rcases h with ⟨_, _, _, _, _, _, _, _, y, _, first, hfirst, x, _, second, hsecond, x', _, y', _,
    hthird⟩
  exact (((vga.setCursor_sameSize _ _ _ _).trans (Vga.writeStr_sameSize hfirst)).trans
    ((first.setCursor_sameSize _ _ _ _).trans (Vga.writeStr_sameSize hsecond))).trans
    ((second.setCursor_sameSize _ _ _ _).trans (Vga.writeStr_sameSize hthird))

end NeurOS
