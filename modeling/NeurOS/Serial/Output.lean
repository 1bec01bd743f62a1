import NeurOS.Foundation.Escape
import NeurOS.Serial

/-!
# What the serial port makes of a text

The conversion of characters to bytes forgets all but eight bits.  A text is sent
faithfully exactly when none of its characters passes for a line feed, a backspace
or an escape, and two such texts are told apart exactly when they differ in the
low bits of some character.
-/

namespace NeurOS

open Foundation

namespace Serial

/-!
# Bytes of a character
-/

def narrow (c : Char) : UInt8 :=
  c.val.toUInt8

def transmitted (c : Char) : List UInt8 :=
  if c = '\n' then writeChar '\r' ++ writeChar c else writeChar c

theorem writeStr_eq (s : String) : writeStr s = s.toList.flatMap transmitted := rfl

theorem narrow_toNat (c : Char) : (narrow c).toNat = c.toNat % 256 :=
  UInt32.toNat_toUInt8 c.val

theorem narrow_eq_iff {c d : Char} : narrow c = narrow d <-> c.toNat % 256 = d.toNat % 256 := by
  rw [← UInt8.toNat_inj, narrow_toNat, narrow_toNat]

/-- The characters that move the cursor of a terminal or start a sequence. -/
def controls : List Char := ['\x08', '\n', '\x1b']

/-- No other character has the low byte of a control character. -/
def Plain (s : String) : Prop :=
  forall c, c ∈ s.toList -> forall control, control ∈ controls ->
    c.toNat % 256 = control.toNat -> c = control

/-- Line feeds come behind carriage returns, and control bytes from their characters. -/
def Faithful (s : String) : Prop :=
  Escape.Led (narrow '\n') (narrow '\r') (writeStr s) ∧
    forall c, c ∈ s.toList -> forall byte, byte ∈ transmitted c ->
      forall control, control ∈ controls -> byte = narrow control -> c = control

theorem control_low : forall control, control ∈ controls -> control.toNat < 256 := by
  simp [controls]

theorem control_toNat {control : Char} (h : control ∈ controls) :
    control.toNat % 256 = control.toNat :=
  Nat.mod_eq_of_lt (control_low control h)

theorem plain_narrow {s : String} (h : Plain s) {c : Char} (hc : c ∈ s.toList)
    {control : Char} (hcontrol : control ∈ controls) (hnarrow : narrow c = narrow control) :
    c = control := by
  apply h c hc control hcontrol
  rw [narrow_eq_iff, control_toNat hcontrol] at hnarrow
  exact hnarrow

theorem transmitted_newline : transmitted '\n' = [narrow '\r', narrow '\n'] := rfl

theorem transmitted_other {c : Char} (h : c ≠ '\n') : transmitted c = [narrow c] :=
  if_neg h

theorem narrow_mem_transmitted (c : Char) : narrow c ∈ transmitted c := by
  by_cases h : c = '\n'
  · rw [h, transmitted_newline]
    simp
  · rw [transmitted_other h]
    simp

theorem writeStr_of_plain {s : String} (h : Plain s) :
    writeStr s = Escape.expand (narrow '\n') (narrow '\r') (s.toList.map narrow) := by
  rw [writeStr_eq, Escape.expand, List.flatMap_map]
  apply List.flatMap_congr
  intro c hc
  by_cases hline : c = '\n'
  · rw [hline, transmitted_newline, if_pos rfl]
  · have hnarrow : narrow c ≠ narrow '\n' := by
      intro heq
      exact hline (plain_narrow h hc (by simp [controls]) heq)
    rw [transmitted_other hline, if_neg hnarrow]

theorem return_ne_control : forall control, control ∈ controls -> narrow '\r' ≠ narrow control := by
  simp [controls, narrow, -Char.toUInt8_val]

theorem return_ne_newline : narrow '\r' ≠ narrow '\n' :=
  return_ne_control '\n' (by simp [controls])

theorem faithful_iff_plain (s : String) : Faithful s <-> Plain s := by
  constructor
  · intro h c hc control hcontrol hlow
    apply h.2 c hc (narrow c) (narrow_mem_transmitted c) control hcontrol
    rw [narrow_eq_iff, hlow, control_toNat hcontrol]
  · intro h
    constructor
    · rw [writeStr_of_plain h]
      exact Escape.expand_led return_ne_newline _
    · intro c hc byte hbyte control hcontrol heq
      by_cases hline : c = '\n'
      · rw [hline, transmitted_newline] at hbyte
        rcases List.mem_cons.mp hbyte with hreturn | hnewline
        · rw [hreturn] at heq
          exact absurd heq (return_ne_control control hcontrol)
        · rw [List.mem_singleton.mp hnewline, ← hline] at heq
          exact plain_narrow h hc hcontrol heq
      · rw [transmitted_other hline] at hbyte
        rw [List.mem_singleton.mp hbyte] at heq
        exact plain_narrow h hc hcontrol heq

/-!
# Pairs of texts
-/

def SameLowBits (s t : String) : Prop :=
  List.Forall₂ (fun c d : Char => c.toNat % 256 = d.toNat % 256) s.toList t.toList

theorem sameLowBits_iff (s t : String) :
    SameLowBits s t <-> s.toList.map narrow = t.toList.map narrow := by
  rw [← List.forall₂_eq_eq_eq, List.forall₂_map_left_iff, List.forall₂_map_right_iff, SameLowBits]
  constructor
  · intro h
    exact h.imp fun c d => narrow_eq_iff.mpr
  · intro h
    exact h.imp fun c d => narrow_eq_iff.mp

theorem writeStr_eq_iff {s t : String} (hs : Plain s) (ht : Plain t) :
    writeStr s = writeStr t <-> SameLowBits s t := by
  rw [writeStr_of_plain hs, writeStr_of_plain ht, sameLowBits_iff]
  constructor
  · exact Escape.expand_injective return_ne_newline
  · intro h
    rw [h]

/-- Neither text forges control bytes, and the output tells the two texts apart. -/
def Clear (s t : String) : Prop :=
  Faithful s ∧ Faithful t ∧
    ('\r' ∉ s.toList -> '\r' ∉ t.toList -> writeStr s = writeStr t -> s = t)

theorem clear_iff (s t : String) :
    Clear s t <->
      Plain s ∧ Plain t ∧
        ('\r' ∉ s.toList -> '\r' ∉ t.toList -> SameLowBits s t -> s = t) := by
  unfold Clear
  rw [faithful_iff_plain, faithful_iff_plain]
  constructor
  · intro h
    rcases h with ⟨hs, ht, hapart⟩
    refine ⟨hs, ht, ?_⟩
    rw [writeStr_eq_iff hs ht] at hapart
    exact hapart
  · intro h
    rcases h with ⟨hs, ht, hapart⟩
    refine ⟨hs, ht, ?_⟩
    rw [writeStr_eq_iff hs ht]
    exact hapart

theorem forged_line_feed :
    writeStr "\u010A" = [0x0A] ∧ Not (Faithful "\u010A") ∧
      writeStr "\u0161" = writeStr "a" ∧ Not (Clear "\u0161" "a") := by
  have hforged : Not (Plain "\u010A") := by
    intro h
    have heq := h (Char.ofNat 0x10A) (by simp) '\n' (by simp [controls]) rfl
    simp at heq
  have hsame : writeStr "\u0161" = writeStr "a" := by
    simp [writeStr, writeChar, -Char.toUInt8_val]
  refine ⟨by simp [writeStr, writeChar, -Char.toUInt8_val], ?_, hsame, ?_⟩
  · rw [faithful_iff_plain]
    exact hforged
  · intro h
    have heq := h.2.2 (by simp) (by simp) hsame
    simp at heq

theorem clear_of_latin {s t : String} (hs : forall c, c ∈ s.toList -> c.toNat < 256)
    (ht : forall c, c ∈ t.toList -> c.toNat < 256) : Clear s t := by
  have hplain : forall u : String, (forall c, c ∈ u.toList -> c.toNat < 256) -> Plain u := by
    intro u hu c hc control _ hlow
    rw [Nat.mod_eq_of_lt (hu c hc)] at hlow
    exact Char.toNat_inj.mp hlow
  refine (clear_iff s t).mpr ⟨hplain s hs, hplain t ht, ?_⟩
  intro _ _ hsame
  apply String.toList_inj.mp
  rw [← List.forall₂_eq_eq_eq]
  refine (List.forall₂_iff_get.mpr ⟨hsame.length_eq, ?_⟩)
  intro i hi hj
  have hlow := hsame.get hi hj
  rw [Nat.mod_eq_of_lt (hs _ (List.get_mem _ _)),
    Nat.mod_eq_of_lt (ht _ (List.get_mem _ _))] at hlow
  exact Char.toNat_inj.mp hlow

end Serial

end NeurOS
