import NeurOS.Foundation.Numeral
import NeurOS.Initrd.Model

/-!
# Octal fields of other archivers

The standard lets a numeric field end with spaces as well as with null bytes, and
gives sizes and times eleven digits.  A field is read to its value exactly when
all of its terminators are null bytes and the value has thirty-two bits.
-/

namespace NeurOS

open Foundation

namespace Initrd

/-- A numeric field as the standard admits it. -/
structure OctalField (width : Nat) where
  zeros : Nat
  digits : List Char
  terminators : List Char
  octal : forall c, c ∈ digits -> Text.IsDigit 8 c
  blank : forall c, c ∈ terminators -> c = ' ' ∨ c = '\x00'
  terminated : terminators ≠ []
  filled : zeros + digits.length + terminators.length = width

namespace OctalField

def numeral (field : OctalField width) : List Char :=
  List.replicate field.zeros '0' ++ field.digits

def bytes (field : OctalField width) : List UInt8 :=
  Text.bytesOf (String.ofList (field.numeral ++ field.terminators))

def value (field : OctalField width) : Nat :=
  Text.valueOf 8 field.digits

theorem numeral_octal (field : OctalField width) :
    forall c, c ∈ field.numeral -> Text.IsDigit 8 c := by
  intro c hc
  rcases List.mem_append.mp hc with hzero | hdigit
  · rw [List.eq_of_mem_replicate hzero]
    simp [Text.IsDigit]
  · exact field.octal c hdigit

theorem numeral_value (field : OctalField width) :
    Text.valueOf 8 field.numeral = field.value :=
  Text.valueOf_zeros 8 field.zeros field.digits

theorem not_mem_of_not_isDigit (field : OctalField width) {c : Char}
    (h : Not (Text.IsDigit 8 c)) : c ∉ field.numeral :=
  fun hc => h (field.numeral_octal c hc)

theorem bytes_length (field : OctalField width) : field.bytes.length = width := by
  have hascii : forall c, c ∈ field.numeral ++ field.terminators -> c.utf8Size = 1 := by
    intro c hc
    rcases List.mem_append.mp hc with hdigit | hblank
    · have hrange := field.numeral_octal c hdigit
      have hlow : c.val.toNat <= 127 := by
        have hcode : c.toNat - '0'.toNat < 8 := hrange.2
        have hval : c.toNat = c.val.toNat := rfl
        simp at hcode
        lia
      exact Char.utf8Size_eq_one_iff.mpr (UInt32.le_iff_toNat_le.mpr hlow)
    · rcases field.blank c hblank with hspace | hnull
      · rw [hspace]
        rfl
      · rw [hnull]
        rfl
  have hfilled := field.filled
  rw [bytes, Text.bytesOf_length_of_ascii hascii]
  simp only [numeral, List.length_append, List.length_replicate]
  exact hfilled

end OctalField

/-!
# Reading a field
-/

theorem parseSlice_of_holds {ram : Ram} {address : Nat} (field : OctalField width)
    (h : ram.Holds address field.bytes) :
    parseSlice ram address width =
      .ok (Text.trimEndMatches '\x00' (String.ofList (field.numeral ++ field.terminators))) := by
  unfold Ram.Holds at h
  rw [field.bytes_length] at h
  rw [parseSlice_eq, h, OctalField.bytes, Text.fromUtf8_bytesOf]

theorem trimmed_of_nulls (field : OctalField width)
    (h : forall c, c ∈ field.terminators -> c = '\x00') :
    Text.trimEndMatches '\x00' (String.ofList (field.numeral ++ field.terminators)) =
      String.ofList field.numeral := by
  have hnulls : field.terminators = List.replicate field.terminators.length '\x00' :=
    List.eq_replicate_of_mem h
  have hsettled : Text.Settled (String.ofList field.numeral) := by
    apply Text.settled_of_not_mem
    rw [String.toList_ofList]
    exact field.not_mem_of_not_isDigit (by simp [Text.IsDigit])
  rw [hnulls, String.ofList_append]
  exact Text.trimEndMatches_append_nulls hsettled _

theorem not_read_of_space (field : OctalField width) (h : ' ' ∈ field.terminators) :
    Text.fromStrRadix 32 8
      (Text.trimEndMatches '\x00' (String.ofList (field.numeral ++ field.terminators))) =
        none := by
  rw [Option.eq_none_iff_forall_ne_some]
  intro value hread
  unfold Text.trimEndMatches at hread
  rw [String.toList_ofList] at hread
  have hkept := List.rdropWhile_prefix (fun d => decide (d = '\x00'))
    (field.numeral ++ field.terminators)
  have hsign : forall c, Not (Text.IsDigit 8 c) -> c ≠ ' ' -> c ≠ '\x00' ->
      c ∉ (field.numeral ++ field.terminators).rdropWhile fun d => d = '\x00' := by
    intro c hdigit hspace hnull hc
    rcases List.mem_append.mp (hkept.subset hc) with hnumeral | hblank
    · exact field.not_mem_of_not_isDigit hdigit hnumeral
    · rcases field.blank c hblank with heq | heq
      · exact hspace heq
      · exact hnull heq
  have hkept : ' ' ∈ (field.numeral ++ field.terminators).rdropWhile fun d => d = '\x00' := by
    have hmem : ' ' ∈ field.numeral ++ field.terminators := List.mem_append_right _ h
    have hsplit : (field.numeral ++ field.terminators).rdropWhile (fun d => d = '\x00') ++
        (field.numeral ++ field.terminators).rtakeWhile (fun d => d = '\x00') =
          field.numeral ++ field.terminators := List.rdropWhile_append_rtakeWhile
    rw [← hsplit] at hmem
    rcases List.mem_append.mp hmem with hkept | hdropped
    · exact hkept
    · have hnull := List.mem_rtakeWhile_imp hdropped
      simp at hnull
  have hdigits := Text.isDigit_of_fromStrRadix hread
    (hsign '+' (by simp [Text.IsDigit]) (by simp) (by simp))
    (hsign '-' (by simp [Text.IsDigit]) (by simp) (by simp))
  exact absurd (hdigits ' ' hkept) (by simp [Text.IsDigit])

/-- The fields that the walk over an archive gets through. -/
def OctalField.Readable (field : OctalField width) : Prop :=
  0 < field.zeros + field.digits.length ∧
    (forall c, c ∈ field.terminators -> c = '\x00') ∧ field.value < 2 ^ 32

instance (field : OctalField width) : Decidable field.Readable :=
  inferInstanceAs (Decidable (_ ∧ _ ∧ _))

theorem parseOctal_field {ram : Ram} {address : Nat} (field : OctalField width)
    (h : ram.Holds address field.bytes) :
    parseOctal ram address width =
      if field.Readable then .ok field.value else .error .unwrapErr := by
  have hslice := parseSlice_of_holds field h
  by_cases hnulls : forall c, c ∈ field.terminators -> c = '\x00'
  · have hsome : field.numeral ≠ [] <-> 0 < field.zeros + field.digits.length := by
      rw [← List.length_pos_iff, OctalField.numeral, List.length_append, List.length_replicate]
    have hread : Text.fromStrRadix 32 8 (String.ofList field.numeral) = _ :=
      Text.fromStrRadix_digits (Nat.succ_pos 7) field.numeral_octal
    rw [trimmed_of_nulls field hnulls] at hslice
    simp only [field.numeral_value, hsome] at hread
    by_cases hfits : 0 < field.zeros + field.digits.length ∧ field.value < 2 ^ 32
    · rw [if_pos hfits] at hread
      rw [if_pos ⟨hfits.1, hnulls, hfits.2⟩, parseOctal_eq, hslice, Outcome.ok_bind, hread]
    · rw [if_neg hfits] at hread
      rw [if_neg (fun hreadable => hfits ⟨hreadable.1, hreadable.2.2⟩), parseOctal_eq, hslice,
        Outcome.ok_bind, hread]
  · have hspace : ' ' ∈ field.terminators := by
      rcases not_forall.mp hnulls with ⟨c, hc⟩
      rcases Classical.not_imp.mp hc with ⟨hmem, hnull⟩
      rcases field.blank c hmem with heq | heq
      · rw [← heq]
        exact hmem
      · exact absurd heq hnull
    rw [if_neg (fun hreadable => hnulls hreadable.2.1), parseOctal_eq, hslice, Outcome.ok_bind,
      not_read_of_space field hspace]

/-- A field of the standard is read to its value exactly when it is readable. -/
theorem parseOctal_value_iff {ram : Ram} {address : Nat} (field : OctalField width)
    (h : ram.Holds address field.bytes) :
    parseOctal ram address width = .ok field.value <-> field.Readable := by
  rw [parseOctal_field field h]
  by_cases hreadable : field.Readable
  · simp [hreadable]
  · simp [hreadable]

def thousand : OctalField 12 where
  zeros := 7
  digits := ['1', '7', '5', '0']
  terminators := ['\x00']
  octal := by simp [Text.IsDigit]
  blank := by simp
  terminated := by simp
  filled := rfl

theorem parseOctal_value_iff_sample :
    parseOctal (Ram.load 0 thousand.bytes) 0 12 = .ok thousand.value <-> thousand.Readable :=
  parseOctal_value_iff thousand (Ram.load_holds 0 thousand.bytes)

def spaced : OctalField 8 where
  zeros := 4
  digits := ['6', '4', '4']
  terminators := [' ']
  octal := by simp [Text.IsDigit]
  blank := by simp
  terminated := by simp
  filled := rfl

def largest : OctalField 12 where
  zeros := 0
  digits := List.replicate 11 '7'
  terminators := ['\x00']
  octal := by
    intro c hc
    rw [List.eq_of_mem_replicate hc]
    simp [Text.IsDigit]
  blank := by simp
  terminated := by simp
  filled := rfl

theorem admitted_fields_panic :
    parseOctal (Ram.load 0 spaced.bytes) 0 8 = .error .unwrapErr ∧
      largest.value = 8 ^ 11 - 1 ∧
      parseOctal (Ram.load 0 largest.bytes) 0 12 = .error .unwrapErr := by
  have hvalue : largest.value = 8 ^ 11 - 1 := rfl
  have hspace : Not spaced.Readable := by
    intro h
    have hnull := h.2.1 ' ' List.mem_cons_self
    simp at hnull
  have hlarge : Not largest.Readable := by
    intro h
    have hfits := h.2.2
    rw [hvalue] at hfits
    simp at hfits
  refine ⟨?_, hvalue, ?_⟩
  · rw [parseOctal_field spaced (Ram.load_holds 0 spaced.bytes), if_neg hspace]
  · rw [parseOctal_field largest (Ram.load_holds 0 largest.bytes), if_neg hlarge]

end Initrd

end NeurOS
