import NeurOS.Elf.Decode
import NeurOS.Elf.Records

/-!
# Assembled executables

An executable put together from its parts: the header, the program headers right behind
it and the section headers behind those.  Decoding the bytes gives the parts back, in both
profiles, for as many entries as the arithmetic with sixteen bits can place.
-/

namespace NeurOS

open Foundation

namespace Elf

section Tables

variable {α : Type} {encode : α -> List UInt8} {size : Nat} {items : List α}

theorem flatMap_length (hsize : forall item, (encode item).length = size) (items : List α) :
    (items.flatMap encode).length = items.length * size := by
  induction items with
  | nil => exact (Nat.zero_mul size).symm
  | cons item rest ih =>
      rw [List.flatMap_cons, List.length_append, hsize, ih, List.length_cons, Nat.succ_mul,
        Nat.add_comm]

theorem drop_flatMap (hsize : forall item, (encode item).length = size) {i : Nat} {item : α}
    (hitem : items[i]? = some item) :
    (items.flatMap encode).drop (i * size) =
      encode item ++ (items.drop (i + 1)).flatMap encode := by
  induction items generalizing i with
  | nil => cases hitem
  | cons first rest ih =>
      cases i with
      | zero =>
          cases hitem
          rw [Nat.zero_mul, List.drop_zero, List.flatMap_cons]
          rfl
      | succ i =>
          have hskip : (i + 1) * size = (encode first).length + i * size := by
            rw [hsize, Nat.succ_mul, Nat.add_comm]
          rw [List.flatMap_cons, hskip, List.drop_length_add_append, ih hitem]
          rfl

theorem readTable_flatMap (profile : Profile) {new : List UInt8 -> Outcome α}
    (hsize : forall item, (encode item).length = size)
    (hnew : forall item, item ∈ items -> forall trailing,
      new (encode item ++ trailing) = .ok item)
    (front back : List UInt8) (hproduct : (items.length - 1) * size < 2 ^ 16)
    (hsum : front.length + items.length * size < 2 ^ 64) :
    readTable profile new (front ++ items.flatMap encode ++ back) front.length size
      items.length = .ok items := by
  apply Outcome.mapM_eq_ok_iff.mpr
  apply List.forall₂_iff_get.mpr
  refine ⟨List.length_range, ?_⟩
  intro i _ hi
  have hitem : items[i]? = some (items.get ⟨i, hi⟩) := List.getElem?_eq_getElem hi
  have hlast : i * size <= (items.length - 1) * size := Nat.mul_le_mul_right size (by lia)
  have hplace : i * size <= items.length * size := Nat.mul_le_mul_right size (Nat.le_of_lt hi)
  have hinside : i * size <= (items.flatMap encode).length := by
    rw [flatMap_length hsize]
    exact hplace
  have hoffset : entryOffset profile front.length size i = .ok (front.length + i * size) :=
    entryOffset_of_lt profile (Nat.lt_of_le_of_lt hlast hproduct)
      (Nat.lt_of_le_of_lt (Nat.add_le_add_left hplace _) hsum)
  have hslice : sliceFrom (front ++ items.flatMap encode ++ back) (front.length + i * size) =
      .ok (encode (items.get ⟨i, hi⟩) ++ ((items.drop (i + 1)).flatMap encode ++ back)) := by
    unfold sliceFrom
    rw [if_pos]
    · rw [List.append_assoc, List.drop_length_add_append, List.drop_append_of_le_length hinside,
        drop_flatMap hsize hitem, List.append_assoc]
    · rw [List.length_append, List.length_append]
      lia
  rw [List.get_eq_getElem, List.getElem_range, hoffset, Outcome.ok_bind, hslice,
    Outcome.ok_bind]
  exact hnew _ (List.get_mem items ⟨i, hi⟩) _

end Tables

/-!
# The parts of an executable
-/

/-- The parts, with a header whose fields about the tables are not used, and with no more entries
than can be placed. -/
structure Executable where
  identity : Header
  padding : Nat
  programs : List Program
  sections : List Section
  identity_fits : (identity.layout padding).Fits
  programs_fit : forall program, program ∈ programs -> program.layout.Fits
  sections_fit : forall header, header ∈ sections -> header.layout.Fits
  programs_placed : programs.length <= 1171
  sections_placed : sections.length <= 1024

namespace Executable

def header (self : Executable) : Header :=
  { self.identity with
    phOffset := 64
    phSize := 56
    phNumber := self.programs.length
    shOffset := 64 + self.programs.length * 56
    shSize := 64
    shNumber := self.sections.length }

def front (self : Executable) : List UInt8 :=
  (self.header.layout self.padding).encode

def bytes (self : Executable) : List UInt8 :=
  self.front ++ self.programs.flatMap (fun program => program.layout.encode) ++
    self.sections.flatMap fun header => header.layout.encode

def elf (self : Executable) : Elf where
  header := self.header
  programs := self.programs
  sections := self.sections

theorem header_fits (self : Executable) : (self.header.layout self.padding).Fits := by
  have hprograms := self.programs_placed
  have hsections := self.sections_placed
  have hidentity := self.identity_fits
  unfold Layout.Fits Header.layout at hidentity ⊢
  simp only [List.forall_mem_cons, List.not_mem_nil, false_implies, implies_true, and_true]
    at hidentity ⊢
  rcases hidentity with ⟨hmagic, hclass, hdata, hversion, hosAbi, habiVersion, hpadding, htype,
    hmachine, hexec, hentry, _, _, hflags, hsize, _, _, _, _, hindex⟩
  have hoffset : 64 + self.programs.length * 56 < 256 ^ 8 := by lia
  have hstart : 64 < 256 ^ 8 := by lia
  have hprogram : 56 < 256 ^ 2 := by lia
  have hsection : 64 < 256 ^ 2 := by lia
  have hnumber : self.programs.length < 256 ^ 2 := by lia
  have hnumber' : self.sections.length < 256 ^ 2 := by lia
  exact ⟨hmagic, hclass, hdata, hversion, hosAbi, habiVersion, hpadding, htype, hmachine, hexec,
    hentry, hstart, hoffset, hflags, hsize, hprogram, hnumber, hsection, hnumber', hindex⟩

theorem front_length (self : Executable) : self.front.length = 64 :=
  header_encode_length self.header self.padding

theorem new_bytes (self : Executable) (profile : Profile) {initrd : Initrd} {path : String}
    (hget : initrd.getData path = .ok self.bytes) :
    Elf.new profile initrd path = .ok self.elf := by
  have hprograms := self.programs_placed
  have hsections := self.sections_placed
  have hmiddle : (self.front ++ self.programs.flatMap fun program =>
      program.layout.encode).length = 64 + self.programs.length * 56 := by
    rw [List.length_append, front_length, flatMap_length program_encode_length]
  have hheader : Header.new self.bytes = .ok self.header := by
    unfold bytes
    rw [List.append_assoc]
    exact header_decoded self.header_fits _
  have hfirst : readTable profile Program.new self.bytes 64 56 self.programs.length =
      .ok self.programs := by
    have htable := readTable_flatMap profile program_encode_length
      (fun program hmem trailing => program_decoded (self.programs_fit program hmem) trailing)
      self.front (self.sections.flatMap fun header => header.layout.encode) (by lia)
      (by rw [front_length]; lia)
    rw [front_length] at htable
    exact htable
  have hsecond : readTable profile Section.new self.bytes (64 + self.programs.length * 56) 64
      self.sections.length = .ok self.sections := by
    have htable := readTable_flatMap profile section_encode_length
      (fun header hmem trailing => section_decoded (self.sections_fit header hmem) trailing)
      (self.front ++ self.programs.flatMap fun program => program.layout.encode) [] (by lia)
      (by rw [hmiddle]; lia)
    rw [hmiddle, List.append_nil] at htable
    exact htable
  exact (new_eq_ok_iff hget).mpr ⟨hheader, hfirst, hsecond⟩

theorem bytes_length (self : Executable) :
    self.bytes.length = 64 + self.programs.length * 56 + self.sections.length * 64 := by
  unfold bytes
  rw [List.length_append, List.length_append, front_length, flatMap_length program_encode_length,
    flatMap_length section_encode_length]

end Executable

theorem sampleHeader_fits : (sampleHeader.layout 0).Fits := by
  decide

theorem sampleProgram_fits (program : Program) (h : program ∈ [sampleProgram]) :
    program.layout.Fits := by
  rw [List.mem_singleton.mp h]
  decide

theorem sampleSection_fits (header : Section) (h : header ∈ [sampleSection]) :
    header.layout.Fits := by
  rw [List.mem_singleton.mp h]
  decide

theorem sample_placed : 1 <= 1171 ∧ 1 <= 1024 := by
  lia

def sampleExecutable : Executable where
  identity := sampleHeader
  padding := 0
  programs := [sampleProgram]
  sections := [sampleSection]
  identity_fits := sampleHeader_fits
  programs_fit := sampleProgram_fits
  sections_fit := sampleSection_fits
  programs_placed := sample_placed.1
  sections_placed := sample_placed.2

end Elf

end NeurOS
