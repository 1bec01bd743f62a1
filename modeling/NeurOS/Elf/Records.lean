import NeurOS.Foundation.Layout
import NeurOS.Elf.Tables

/-!
# Records of an executable

The three records in the order and the widths of their specification.  The
decoders read every field of a record back, and what they make of a record's
bytes determines the bytes.
-/

namespace NeurOS

open Foundation

namespace Elf

/-!
# Layouts
-/

/-- The header of a file; seven bytes behind the ABI version are padding. -/
def Header.layout (self : Header) (padding : Nat) : Layout :=
  [(4, self.magic), (1, self.fileClass), (1, self.data), (1, self.version), (1, self.osAbi),
    (1, self.abiVersion), (7, padding), (2, self.fileType), (2, self.machine),
    (4, self.execVersion), (8, self.entrypoint), (8, self.phOffset), (8, self.shOffset),
    (4, self.flags), (2, self.ehSize), (2, self.phSize), (2, self.phNumber), (2, self.shSize),
    (2, self.shNumber), (2, self.shIndex)]

def Program.layout (self : Program) : Layout :=
  [(4, self.segmentType), (4, self.flags), (8, self.offset), (8, self.virtualAddress),
    (8, self.physicalAddress), (8, self.fileSize), (8, self.memorySize), (8, self.alignment)]

def Section.layout (self : Section) : Layout :=
  [(4, self.name), (4, self.headerType), (8, self.flags), (8, self.address), (8, self.offset),
    (8, self.size), (4, self.link), (4, self.info), (8, self.alignment), (8, self.entrySize)]

/-!
# Decoders

A decoder cuts its bytes at the widths of its record.
-/

def headerWidths : List Nat :=
  [4, 1, 1, 1, 1, 1, 7, 2, 2, 4, 8, 8, 8, 4, 2, 2, 2, 2, 2, 2]

def programWidths : List Nat :=
  [4, 4, 8, 8, 8, 8, 8, 8]

def sectionWidths : List Nat :=
  [4, 4, 8, 8, 8, 8, 4, 4, 8, 8]

theorem Header.layout_widths (self : Header) (padding : Nat) :
    (self.layout padding).widths = headerWidths := rfl

theorem Program.layout_widths (self : Program) : self.layout.widths = programWidths := rfl

theorem Section.layout_widths (self : Section) : self.layout.widths = sectionWidths := rfl

theorem header_cut {data : List UInt8} (h : 64 <= data.length) :
    exists header padding, Header.new data = .ok header ∧
      header.layout padding = Layout.cut headerWidths data := by
  simp (disch := lia) only [Header.new, word_of_le, Outcome.ok_bind]
  refine ⟨_, littleEndian (slice data 9 7), rfl, ?_⟩
  simp [Header.layout, headerWidths, Layout.cut, slice]

theorem program_cut {data : List UInt8} (h : 56 <= data.length) :
    exists program, Program.new data = .ok program ∧
      program.layout = Layout.cut programWidths data := by
  simp (disch := lia) only [Program.new, word_of_le, Outcome.ok_bind]
  refine ⟨_, rfl, ?_⟩
  simp [Program.layout, programWidths, Layout.cut, slice]

theorem section_cut {data : List UInt8} (h : 64 <= data.length) :
    exists header, Section.new data = .ok header ∧
      header.layout = Layout.cut sectionWidths data := by
  simp (disch := lia) only [Section.new, word_of_le, Outcome.ok_bind]
  refine ⟨_, rfl, ?_⟩
  simp [Section.layout, sectionWidths, Layout.cut, slice]

/-!
# Round trips
-/

theorem header_encode_length (header : Header) (padding : Nat) :
    (header.layout padding).encode.length = 64 := by
  rw [Layout.encode_length, Header.layout_widths]
  rfl

theorem program_encode_length (program : Program) : program.layout.encode.length = 56 := by
  rw [Layout.encode_length, Program.layout_widths]
  rfl

theorem section_encode_length (header : Section) : header.layout.encode.length = 64 := by
  rw [Layout.encode_length, Section.layout_widths]
  rfl

theorem header_decoded {header : Header} {padding : Nat}
    (h : (header.layout padding).Fits) (trailing : List UInt8) :
    Header.new ((header.layout padding).encode ++ trailing) = .ok header := by
  have hlength : 64 <= ((header.layout padding).encode ++ trailing).length := by
    rw [List.length_append, header_encode_length]
    exact Nat.le_add_right _ _
  rcases header_cut hlength with ⟨decoded, padded, hnew, hlayout⟩
  rw [← header.layout_widths padding, Layout.cut_encode h] at hlayout
  have hdecoded : decoded = header := by
    cases decoded
    cases header
    simp_all [Header.layout]
  rw [hnew, hdecoded]

theorem program_decoded {program : Program} (h : program.layout.Fits) (trailing : List UInt8) :
    Program.new (program.layout.encode ++ trailing) = .ok program := by
  have hlength : 56 <= (program.layout.encode ++ trailing).length := by
    rw [List.length_append, program_encode_length]
    exact Nat.le_add_right _ _
  rcases program_cut hlength with ⟨decoded, hnew, hlayout⟩
  rw [← program.layout_widths, Layout.cut_encode h] at hlayout
  have hdecoded : decoded = program := by
    cases decoded
    cases program
    simp_all [Program.layout]
  rw [hnew, hdecoded]

theorem section_decoded {header : Section} (h : header.layout.Fits) (trailing : List UInt8) :
    Section.new (header.layout.encode ++ trailing) = .ok header := by
  have hlength : 64 <= (header.layout.encode ++ trailing).length := by
    rw [List.length_append, section_encode_length]
    exact Nat.le_add_right _ _
  rcases section_cut hlength with ⟨decoded, hnew, hlayout⟩
  rw [← header.layout_widths, Layout.cut_encode h] at hlayout
  have hdecoded : decoded = header := by
    cases decoded
    cases header
    simp_all [Section.layout]
  rw [hnew, hdecoded]

/-- The decoders and the layouts of the three records undo each other. -/
theorem decoders_invert_layouts :
    (forall (header : Header) (padding : Nat) (trailing : List UInt8),
      (header.layout padding).Fits ->
        (header.layout padding).encode.length = 64 ∧
        Header.new ((header.layout padding).encode ++ trailing) = .ok header) ∧
    (forall (program : Program) (trailing : List UInt8), program.layout.Fits ->
      program.layout.encode.length = 56 ∧
      Program.new (program.layout.encode ++ trailing) = .ok program) ∧
    (forall (header : Section) (trailing : List UInt8), header.layout.Fits ->
      header.layout.encode.length = 64 ∧
      Section.new (header.layout.encode ++ trailing) = .ok header) ∧
    (forall data : List UInt8, data.length = 56 ->
      exists program, Program.new data = .ok program ∧ program.layout.encode = data) ∧
    (forall data : List UInt8, data.length = 64 ->
      exists header, Section.new data = .ok header ∧ header.layout.encode = data) := by
  refine ⟨?_, ?_, ?_, ?_, ?_⟩
  · intro header padding trailing h
    exact ⟨header_encode_length header padding, header_decoded h trailing⟩
  · intro program trailing h
    exact ⟨program_encode_length program, program_decoded h trailing⟩
  · intro header trailing h
    exact ⟨section_encode_length header, section_decoded h trailing⟩
  · intro data hdata
    rcases program_cut hdata.ge with ⟨program, hnew, hlayout⟩
    refine ⟨program, hnew, ?_⟩
    rw [hlayout]
    exact Layout.encode_cut hdata
  · intro data hdata
    rcases section_cut hdata.ge with ⟨header, hnew, hlayout⟩
    refine ⟨header, hnew, ?_⟩
    rw [hlayout]
    exact Layout.encode_cut hdata

/-!
# A sample of each record
-/

def sampleHeader : Header where
  magic := 0x464C457F
  fileClass := 2
  data := 1
  version := 1
  osAbi := 3
  abiVersion := 4
  fileType := 2
  machine := 0x3E
  execVersion := 1
  entrypoint := 0xFFFFFFFF80201000
  phOffset := 64
  shOffset := 0x123456
  flags := 5
  ehSize := 64
  phSize := 56
  phNumber := 3
  shSize := 64
  shNumber := 12
  shIndex := 11

def sampleProgram : Program where
  segmentType := 1
  flags := 5
  offset := 0x1000
  virtualAddress := 0xFFFFFFFF80201000
  physicalAddress := 0x201000
  fileSize := 0x2345
  memorySize := 0x3456
  alignment := 0x1000

def sampleSection : Section where
  name := 27
  headerType := 1
  flags := 6
  address := 0xFFFFFFFF80201000
  offset := 0x1000
  size := 0x2345
  link := 7
  info := 8
  alignment := 16
  entrySize := 24

theorem decoders_invert_layouts_sample :
    Header.new ((sampleHeader.layout 9).encode ++ [0xFF]) = .ok sampleHeader ∧
    Program.new (sampleProgram.layout.encode ++ [0xFF]) = .ok sampleProgram ∧
    Section.new (sampleSection.layout.encode ++ [0xFF]) = .ok sampleSection ∧
    (exists program, Program.new (List.replicate 56 0xAB) = .ok program ∧
      program.layout.encode = List.replicate 56 0xAB) ∧
    (exists header, Section.new (List.replicate 64 0xAB) = .ok header ∧
      header.layout.encode = List.replicate 64 0xAB) := by
  rcases decoders_invert_layouts with ⟨hheader, hprogram, hsection, hprograms, hsections⟩
  refine ⟨?_, ?_, ?_, ?_, ?_⟩
  · exact (hheader sampleHeader 9 [0xFF] (by decide)).2
  · exact (hprogram sampleProgram [0xFF] (by decide)).2
  · exact (hsection sampleSection [0xFF] (by decide)).2
  · exact hprograms (List.replicate 56 0xAB) List.length_replicate
  · exact hsections (List.replicate 64 0xAB) List.length_replicate

end Elf

end NeurOS
