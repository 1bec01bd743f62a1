import NeurOS.Foundation.Numeral
import NeurOS.Initrd.Listing

/-!
# The bytes of a header

Which blocks of bytes the walk decodes as a header, which size it reads there, and
which of the headers it lists: conditions on the bytes of the fields alone.
-/

namespace NeurOS

open Foundation

namespace Initrd

def TextBytes (field : List UInt8) : Prop :=
  exists s, Text.bytesOf s = field

/-- The fields that only have to be texts, each with its place and its width. -/
def textPlaces : List (Nat × Nat) :=
  [(0, 100), (100, 8), (148, 8), (156, 1), (157, 100), (257, 6), (263, 2), (265, 32), (297, 32),
    (329, 8), (337, 8), (345, 155)]

def octalPlaces : List (Nat × Nat) :=
  [(108, 8), (116, 8), (124, 12), (136, 12)]

def fieldOf (block : List UInt8) (place : Nat × Nat) : List UInt8 :=
  slice block place.1 place.2

/-- A block that is decoded as a header. -/
structure WellFormed (block : List UInt8) : Prop where
  texts : forall place, place ∈ textPlaces -> TextBytes (fieldOf block place)
  numerals : forall place, place ∈ octalPlaces ->
    exists value, Text.NumeralBytes 32 8 (fieldOf block place) value

def SizeBytes (block : List UInt8) (size : Nat) : Prop :=
  Text.NumeralBytes 32 8 (fieldOf block (124, 12)) size

/-- A header with a mode of at least three digits and a timestamp that is converted. -/
def ListedBytes (profile : Profile) (block : List UInt8) : Prop :=
  (exists mode, Text.NumeralBytes 32 10 (fieldOf block (100, 8)) mode ∧ 100 <= mode) ∧
    exists mtime, Text.NumeralBytes 32 8 (fieldOf block (136, 12)) mtime ∧
      File.Converts profile mtime

/-!
# Single fields
-/

section Fields

variable {ram : Ram} {address width : Nat}

theorem parseSlice_ok_iff {text : String} :
    parseSlice ram address width = .ok text <->
      exists s, Text.bytesOf s = ram.read address width ∧
        Text.trimEndMatches '\x00' s = text := by
  rw [parseSlice_eq]
  cases hutf8 : Text.fromUtf8 (ram.read address width) with
  | none =>
      constructor
      · intro h
        cases h
      · rintro ⟨s, hs, _⟩
        rw [← hs, Text.fromUtf8_bytesOf] at hutf8
        cases hutf8
  | some s =>
      have hbytes := Text.fromUtf8_eq_some_iff.mp hutf8
      constructor
      · intro h
        exact ⟨s, hbytes, Except.ok.inj h⟩
      · rintro ⟨t, ht, htext⟩
        rw [← ht, Text.fromUtf8_bytesOf] at hutf8
        rw [← Option.some.inj hutf8]
        exact congrArg Except.ok htext

theorem parseString_ok_iff :
    (exists text, parseString ram address width = .ok text) <->
      TextBytes (ram.read address width) := by
  constructor
  · rintro ⟨text, htext⟩
    rcases parseSlice_ok_iff.mp htext with ⟨s, hs, _⟩
    exact ⟨s, hs⟩
  · rintro ⟨s, hs⟩
    exact ⟨_, parseSlice_ok_iff.mpr ⟨s, hs, rfl⟩⟩

theorem parseInteger_ok_iff :
    (exists value, parseInteger ram address width = .ok value) <->
      TextBytes (ram.read address width) := by
  rw [← parseString_ok_iff, parseInteger_eq]
  constructor
  · rintro ⟨value, hvalue⟩
    rcases Outcome.bind_eq_ok_iff.mp hvalue with ⟨text, htext, _⟩
    exact ⟨text, htext⟩
  · rintro ⟨text, htext⟩
    exact ⟨_, Outcome.bind_eq_ok_iff.mpr ⟨text, htext, rfl⟩⟩

theorem parseOctal_ok_iff {value : Nat} :
    parseOctal ram address width = .ok value <->
      Text.NumeralBytes 32 8 (ram.read address width) value := by
  rw [parseOctal_eq, parseSlice_eq]
  cases hutf8 : Text.fromUtf8 (ram.read address width) with
  | none =>
      constructor
      · intro h
        cases h
      · rintro ⟨s, count, hs, _⟩
        rw [hs, ← Text.bytesOf_nulls, ← Text.bytesOf_append, Text.fromUtf8_bytesOf] at hutf8
        cases hutf8
  | some s =>
      rw [Outcome.ok_bind, ← Text.fromStrRadix_field_iff (Nat.succ_pos 7) hutf8]
      cases Text.fromStrRadix 32 8 (Text.trimEndMatches '\x00' s) <;> simp

theorem parseInteger_ge_iff {value bound : Nat} (hpos : 0 < bound)
    (h : parseInteger ram address width = .ok value) :
    bound <= value <->
      exists n, Text.NumeralBytes 32 10 (ram.read address width) n ∧ bound <= n := by
  rw [parseInteger_eq, parseSlice_eq] at h
  cases hutf8 : Text.fromUtf8 (ram.read address width) with
  | none =>
      rw [hutf8] at h
      cases h
  | some s =>
      rw [hutf8, Outcome.ok_bind] at h
      have hvalue := Except.ok.inj h
      have hfield (n : Nat) :=
        @Text.fromStrRadix_field_iff 32 10 n _ _ (Nat.succ_pos 9) hutf8
      simp only [← hfield]
      cases hread : Text.fromStrRadix 32 10 (Text.trimEndMatches '\x00' s) with
      | none =>
          rw [hread, Option.getD_none] at hvalue
          simp
          lia
      | some n =>
          rw [hread, Option.getD_some] at hvalue
          simp [hvalue]

end Fields

/-!
# The block of a header
-/

section Block

variable {ram : Ram} {address : Nat}

theorem fieldOf_read {start width : Nat} (hfits : address + blockSize <= 2 ^ 64)
    (hend : start + width <= blockSize) (hlt : start < blockSize) :
    fieldOf (ram.read address blockSize) (start, width) =
      ram.read (wrappingAdd address start) width := by
  rw [wrappingAdd_of_lt (by lia)]
  exact Ram.read_slice hend

theorem places_inside : (forall place, place ∈ textPlaces ->
    place.1 + place.2 <= blockSize ∧ place.1 < blockSize) ∧
      forall place, place ∈ octalPlaces ->
        place.1 + place.2 <= blockSize ∧ place.1 < blockSize := by
  decide

section WellFormed

variable (hfits : address + blockSize <= 2 ^ 64)
include hfits

theorem text_read_iff {start width : Nat} (hplace : (start, width) ∈ textPlaces) :
    (exists text, parseString ram (wrappingAdd address start) width = .ok text) <->
      TextBytes (fieldOf (ram.read address blockSize) (start, width)) := by
  have hinside := places_inside.1 _ hplace
  rw [fieldOf_read hfits hinside.1 hinside.2]
  exact parseString_ok_iff

theorem integer_read_iff {start width : Nat} (hplace : (start, width) ∈ textPlaces) :
    (exists value, parseInteger ram (wrappingAdd address start) width = .ok value) <->
      TextBytes (fieldOf (ram.read address blockSize) (start, width)) := by
  have hinside := places_inside.1 _ hplace
  rw [fieldOf_read hfits hinside.1 hinside.2]
  exact parseInteger_ok_iff

theorem octal_read_iff {start width value : Nat} (hplace : (start, width) ∈ octalPlaces) :
    parseOctal ram (wrappingAdd address start) width = .ok value <->
      Text.NumeralBytes 32 8 (fieldOf (ram.read address blockSize) (start, width)) value := by
  have hinside := places_inside.2 _ hplace
  rw [fieldOf_read hfits hinside.1 hinside.2]
  exact parseOctal_ok_iff

theorem wrappingAdd_start : wrappingAdd address 0 = address := by
  have hpos : blockSize = 512 := rfl
  exact wrappingAdd_of_lt (by lia)

theorem wellFormed_of_header {header : Header} (hheader : parseHeader ram address = .ok header) :
    WellFormed (ram.read address blockSize) := by
  rw [parseHeader_eq] at hheader
  simp only [Outcome.bind_eq_ok_iff] at hheader
  rcases hheader with ⟨_, hname, _, hmode, _, huserId, _, hgroupId, _, hsize, _, hmtime, _,
    hchecksum, _, hflag, _, hlinked, _, hindicator, _, hversion, _, husername, _, hgroup, _,
    hmajor, _, hminor, _, hnamePrefix, _⟩
  rw [← wrappingAdd_start hfits] at hname
  constructor
  · simp only [textPlaces, List.forall_mem_cons]
    exact ⟨(text_read_iff hfits (by simp [textPlaces])).mp ⟨_, hname⟩,
      (integer_read_iff hfits (by simp [textPlaces])).mp ⟨_, hmode⟩,
      (text_read_iff hfits (by simp [textPlaces])).mp ⟨_, hchecksum⟩,
      (integer_read_iff hfits (by simp [textPlaces])).mp ⟨_, hflag⟩,
      (text_read_iff hfits (by simp [textPlaces])).mp ⟨_, hlinked⟩,
      (text_read_iff hfits (by simp [textPlaces])).mp ⟨_, hindicator⟩,
      (text_read_iff hfits (by simp [textPlaces])).mp ⟨_, hversion⟩,
      (text_read_iff hfits (by simp [textPlaces])).mp ⟨_, husername⟩,
      (text_read_iff hfits (by simp [textPlaces])).mp ⟨_, hgroup⟩,
      (integer_read_iff hfits (by simp [textPlaces])).mp ⟨_, hmajor⟩,
      (integer_read_iff hfits (by simp [textPlaces])).mp ⟨_, hminor⟩,
      (text_read_iff hfits (by simp [textPlaces])).mp ⟨_, hnamePrefix⟩, by simp⟩
  · simp only [octalPlaces, List.forall_mem_cons]
    exact ⟨⟨_, (octal_read_iff hfits (by simp [octalPlaces])).mp huserId⟩,
      ⟨_, (octal_read_iff hfits (by simp [octalPlaces])).mp hgroupId⟩,
      ⟨_, (octal_read_iff hfits (by simp [octalPlaces])).mp hsize⟩,
      ⟨_, (octal_read_iff hfits (by simp [octalPlaces])).mp hmtime⟩, by simp⟩

theorem exists_header (h : WellFormed (ram.read address blockSize)) :
    exists header, parseHeader ram address = .ok header := by
  have htext (start width : Nat) (hplace : (start, width) ∈ textPlaces) :=
    (text_read_iff hfits hplace).mpr (h.texts _ hplace)
  have hinteger (start width : Nat) (hplace : (start, width) ∈ textPlaces) :=
    (integer_read_iff hfits hplace).mpr (h.texts _ hplace)
  have hoctal (start width : Nat) (hplace : (start, width) ∈ octalPlaces) :
      exists value, parseOctal ram (wrappingAdd address start) width = .ok value := by
    rcases h.numerals _ hplace with ⟨value, hvalue⟩
    exact ⟨value, (octal_read_iff hfits hplace).mpr hvalue⟩
  rcases htext 0 100 (by simp [textPlaces]) with ⟨name, hname⟩
  rcases hinteger 100 8 (by simp [textPlaces]) with ⟨mode, hmode⟩
  rcases hoctal 108 8 (by simp [octalPlaces]) with ⟨userId, huserId⟩
  rcases hoctal 116 8 (by simp [octalPlaces]) with ⟨groupId, hgroupId⟩
  rcases hoctal 124 12 (by simp [octalPlaces]) with ⟨size, hsize⟩
  rcases hoctal 136 12 (by simp [octalPlaces]) with ⟨mtime, hmtime⟩
  rcases htext 148 8 (by simp [textPlaces]) with ⟨checksum, hchecksum⟩
  rcases hinteger 156 1 (by simp [textPlaces]) with ⟨flag, hflag⟩
  rcases htext 157 100 (by simp [textPlaces]) with ⟨linked, hlinked⟩
  rcases htext 257 6 (by simp [textPlaces]) with ⟨indicator, hindicator⟩
  rcases htext 263 2 (by simp [textPlaces]) with ⟨version, hversion⟩
  rcases htext 265 32 (by simp [textPlaces]) with ⟨username, husername⟩
  rcases htext 297 32 (by simp [textPlaces]) with ⟨group, hgroup⟩
  rcases hinteger 329 8 (by simp [textPlaces]) with ⟨major, hmajor⟩
  rcases hinteger 337 8 (by simp [textPlaces]) with ⟨minor, hminor⟩
  rcases htext 345 155 (by simp [textPlaces]) with ⟨namePrefix, hnamePrefix⟩
  rw [wrappingAdd_start hfits] at hname
  rw [parseHeader_eq]
  simp only [hname, hmode, huserId, hgroupId, hsize, hmtime, hchecksum, hflag, hlinked,
    hindicator, hversion, husername, hgroup, hmajor, hminor, hnamePrefix, Outcome.ok_bind]
  exact ⟨_, rfl⟩

/-- Exactly the well-formed blocks are decoded as headers. -/
theorem parseHeader_ok_iff :
    (exists header, parseHeader ram address = .ok header) <->
      WellFormed (ram.read address blockSize) := by
  constructor
  · rintro ⟨header, hheader⟩
    exact wellFormed_of_header hfits hheader
  · exact exists_header hfits

section Header

variable {header : Header} (h : parseHeader ram address = .ok header)
include h

theorem sizeBytes_iff {size : Nat} :
    SizeBytes (ram.read address blockSize) size <-> header.size = size := by
  rcases File.parseHeader_fields h with ⟨_, _, hsize, _⟩
  unfold SizeBytes
  rw [← octal_read_iff hfits (by simp [octalPlaces]), hsize, Except.ok.injEq]

theorem display_iff_listedBytes {profile : Profile} (data : List UInt8) :
    (exists line, File.display profile { header := header, data := data } = .ok line) <->
      ListedBytes profile (ram.read address blockSize) := by
  rcases File.parseHeader_fields h with ⟨hmode, _, _, hmtime⟩
  have htime := (octal_read_iff hfits (by simp [octalPlaces])).mp hmtime
  have hbits : header.mtime < 2 ^ 32 := by
    rcases htime with ⟨_, _, _, hspells⟩
    exact hspells.fits
  have hmodeBytes := parseInteger_ge_iff (show 0 < 100 by lia) hmode
  rw [← fieldOf_read hfits (by simp [blockSize]) (by simp [blockSize])] at hmodeBytes
  have hunique : (exists mtime,
      Text.NumeralBytes 32 8 (fieldOf (ram.read address blockSize) (136, 12)) mtime ∧
        File.Converts profile mtime) <-> File.Converts profile header.mtime := by
    constructor
    · rintro ⟨mtime, hother, hconverts⟩
      have hsame := (octal_read_iff hfits (by simp [octalPlaces])).mpr hother
      rw [hmtime] at hsame
      rw [Except.ok.inj hsame]
      exact hconverts
    · exact fun hconverts => ⟨header.mtime, htime, hconverts⟩
  rw [File.display_ok_iff hbits, hmodeBytes, ListedBytes, hunique]

end Header

end WellFormed

end Block

end Initrd

end NeurOS
