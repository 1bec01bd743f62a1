import NeurOS.Elf.Tables

/-!
# Decoding the tables in full

The entries of both tables are decoded where the format puts them as long as the
product of the last index and the size of an entry fits sixteen bits.
-/

namespace NeurOS

open Foundation

namespace Elf

section File

variable {profile : Profile} {initrd : Initrd} {path : String} {data : List UInt8}
variable {header : Header}

theorem new_eq_ok_iff (hget : initrd.getData path = .ok data) {elf : Elf} :
    new profile initrd path = .ok elf <->
      Header.new data = .ok elf.header ∧
        readTable profile Program.new data elf.header.phOffset elf.header.phSize
          elf.header.phNumber = .ok elf.programs ∧
        readTable profile Section.new data elf.header.shOffset elf.header.shSize
          elf.header.shNumber = .ok elf.sections := by
  unfold new
  rw [hget, Outcome.ok_bind]
  constructor
  · intro h
    rcases Outcome.bind_eq_ok_iff.mp h with ⟨header, hheader, h⟩
    rcases Outcome.bind_eq_ok_iff.mp h with ⟨programs, hprograms, h⟩
    rcases Outcome.bind_eq_ok_iff.mp h with ⟨sections, hsections, h⟩
    cases h
    exact ⟨hheader, hprograms, hsections⟩
  · intro h
    rw [h.1, Outcome.ok_bind, h.2.1, Outcome.ok_bind, h.2.2, Outcome.ok_bind]

theorem new_of_places (hget : initrd.getData path = .ok data)
    (hheader : Header.new data = .ok header) {programPlace sectionPlace : Nat -> Nat}
    (hprograms : forall i, i < header.phNumber ->
      entryOffset profile header.phOffset header.phSize i = .ok (programPlace i) ∧
        programPlace i + 56 <= data.length)
    (hsections : forall i, i < header.shNumber ->
      entryOffset profile header.shOffset header.shSize i = .ok (sectionPlace i) ∧
        sectionPlace i + 64 <= data.length) :
    exists elf, new profile initrd path = .ok elf ∧ elf.header = header ∧
      Entries Program.new data 56 header.phNumber programPlace elf.programs ∧
      Entries Section.new data 64 header.shNumber sectionPlace elf.sections := by
  rcases readTable_of_places program_reads profile hprograms with
    ⟨programs, hreadPrograms, hprogramEntries⟩
  rcases readTable_of_places section_reads profile hsections with
    ⟨sections, hreadSections, hsectionEntries⟩
  refine ⟨{ header, programs, sections }, ?_, rfl, hprogramEntries, hsectionEntries⟩
  exact (new_eq_ok_iff hget).mpr ⟨hheader, hreadPrograms, hreadSections⟩

/-!
# Files that can be read
-/

/-- Where the arithmetic of the profile places an entry, its bytes are in the file. -/
def EntryInside (profile : Profile) (length offset size record i : Nat) : Prop :=
  match profile with
  | .dev =>
      i * size < 2 ^ 16 ∧ offset + i * size < 2 ^ 64 ∧ offset + i * size + record <= length
  | .release => (offset + i * size % 2 ^ 16) % 2 ^ 64 + record <= length

theorem entryInside_iff {length offset size record i : Nat} :
    (exists start, entryOffset profile offset size i = .ok start ∧ start + record <= length) <->
      EntryInside profile length offset size record i := by
  cases profile with
  | dev =>
      simp only [entryOffset_dev_eq_ok_iff, EntryInside]
      constructor
      · intro h
        rcases h with ⟨start, ⟨hproduct, hsum, hstart⟩, hfits⟩
        rw [hstart] at hfits
        exact ⟨hproduct, hsum, hfits⟩
      · intro h
        exact ⟨_, ⟨h.1, h.2.1, rfl⟩, h.2.2⟩
  | release => simp [entryOffset_release, EntryInside]

/-- A file with a whole header and every entry of both tables inside, as far as the header
and the arithmetic of the profile tell. -/
structure Readable (profile : Profile) (data : List UInt8) : Prop where
  header : 64 <= data.length
  programs : forall i, i < littleEndian (slice data 56 2) ->
    EntryInside profile data.length (littleEndian (slice data 32 8))
      (littleEndian (slice data 54 2)) 56 i
  sections : forall i, i < littleEndian (slice data 60 2) ->
    EntryInside profile data.length (littleEndian (slice data 40 8))
      (littleEndian (slice data 58 2)) 64 i

theorem header_numbers (h : Header.new data = .ok header) :
    header.phOffset = littleEndian (slice data 32 8) ∧
      header.phSize = littleEndian (slice data 54 2) ∧
      header.phNumber = littleEndian (slice data 56 2) ∧
      header.shOffset = littleEndian (slice data 40 8) ∧
      header.shSize = littleEndian (slice data 58 2) ∧
      header.shNumber = littleEndian (slice data 60 2) := by
  have hsize := header_reads.inside _ _ h
  simp (disch := lia) only [Header.new, word_of_le, Outcome.ok_bind] at h
  cases h
  exact ⟨rfl, rfl, rfl, rfl, rfl, rfl⟩

theorem new_ok_iff :
    (exists elf, new profile initrd path = .ok elf) <->
      exists data, initrd.getData path = .ok data ∧ Readable profile data := by
  constructor
  · intro h
    rcases h with ⟨elf, hnew⟩
    rcases Outcome.bind_eq_ok_iff.mp hnew with ⟨data, hget, _⟩
    refine ⟨data, hget, ?_⟩
    rcases (new_eq_ok_iff hget).mp hnew with ⟨hheader, hprograms, hsections⟩
    rcases header_numbers hheader with ⟨hpo, hps, hpn, hso, hss, hsn⟩
    refine ⟨header_reads.inside _ _ hheader, ?_, ?_⟩
    · intro i hi
      rw [← hpn] at hi
      rw [← hpo, ← hps]
      exact entryInside_iff.mp (place_of_readTable program_reads hprograms hi)
    · intro i hi
      rw [← hsn] at hi
      rw [← hso, ← hss]
      exact entryInside_iff.mp (place_of_readTable section_reads hsections hi)
  · intro h
    rcases h with ⟨data, hget, hreadable⟩
    rcases header_reads.total data hreadable.header with ⟨header, hheader⟩
    rcases header_numbers hheader with ⟨hpo, hps, hpn, hso, hss, hsn⟩
    have hprograms : exists programs, readTable profile Program.new data header.phOffset
        header.phSize header.phNumber = .ok programs := by
      apply (readTable_ok_iff program_reads).mpr
      intro i hi
      rw [hpn] at hi
      rw [hpo, hps]
      exact entryInside_iff.mpr (hreadable.programs i hi)
    have hsections : exists sections, readTable profile Section.new data header.shOffset
        header.shSize header.shNumber = .ok sections := by
      apply (readTable_ok_iff section_reads).mpr
      intro i hi
      rw [hsn] at hi
      rw [hso, hss]
      exact entryInside_iff.mpr (hreadable.sections i hi)
    rcases hprograms with ⟨programs, hprograms⟩
    rcases hsections with ⟨sections, hsections⟩
    refine ⟨{ header, programs, sections }, ?_⟩
    exact (new_eq_ok_iff hget).mpr ⟨hheader, hprograms, hsections⟩

end File

/-!
# Well-formed files
-/

structure WellFormed (data : List UInt8) (header : Header) : Prop where
  decoded : Header.new data = .ok header
  magic : header.magic = 0x464c457f
  fileClass : header.fileClass = 2
  encoding : header.data = 1
  phSize : header.phSize = 56
  shSize : header.shSize = 64
  programs : header.phOffset + 56 * header.phNumber <= data.length
  sections : header.shOffset + 64 * header.shNumber <= data.length

/-- Reading the file ends with all entries, each decoded from the bytes at its offset. -/
def DecodedInFull (profile : Profile) (initrd : Initrd) (path : String)
    (data : List UInt8) (header : Header) : Prop :=
  exists elf, new profile initrd path = .ok elf ∧ elf.header = header ∧
    Entries Program.new data 56 header.phNumber (fun i => header.phOffset + 56 * i)
      elf.programs ∧
    Entries Section.new data 64 header.shNumber (fun i => header.shOffset + 64 * i)
      elf.sections

section WellFormed

variable {profile : Profile} {initrd : Initrd} {path : String} {data : List UInt8}
variable {header : Header}

theorem entryOffset_inside {offset size number i : Nat}
    (hfile : offset + size * number <= data.length) (hlength : data.length < 2 ^ 64)
    (hi : i < number) (hproduct : i * size < 2 ^ 16) :
    entryOffset profile offset size i = .ok (offset + size * i) ∧
      offset + size * i + size <= data.length := by
  have hend : size * i + size <= size * number := by
    rw [← Nat.mul_succ]
    exact Nat.mul_le_mul_left size hi
  have hcomm : i * size = size * i := Nat.mul_comm i size
  have hfits : offset + size * i + size <= data.length := by lia
  refine ⟨?_, hfits⟩
  rw [entryOffset_of_lt profile hproduct (by lia), hcomm]

theorem decodedInFull_of_bounds (hget : initrd.getData path = .ok data)
    (hwell : WellFormed data header) (hlength : data.length < 2 ^ 64)
    (hprograms : header.phNumber <= 1171) (hsections : header.shNumber <= 1024) :
    DecodedInFull profile initrd path data header := by
  apply new_of_places hget hwell.decoded
  · intro i hi
    rw [hwell.phSize]
    exact entryOffset_inside hwell.programs hlength hi (by lia)
  · intro i hi
    rw [hwell.shSize]
    exact entryOffset_inside hwell.sections hlength hi (by lia)

theorem number_le_of_readTable {new : List UInt8 -> Outcome α} {offset size number : Nat}
    {entries : List α} (hreads : Reads new size)
    (h : readTable .dev new data offset size number = .ok entries) :
    number = 0 ∨ (number - 1) * size < 2 ^ 16 := by
  cases number with
  | zero => exact Or.inl rfl
  | succ number =>
      right
      rcases place_of_readTable hreads h (Nat.lt_succ_self number) with ⟨start, hstart, _⟩
      exact (entryOffset_dev_eq_ok_iff.mp hstart).1

theorem bounds_of_new_dev (hget : initrd.getData path = .ok data)
    (hwell : WellFormed data header) {elf : Elf} (h : new .dev initrd path = .ok elf) :
    header.phNumber <= 1171 ∧ header.shNumber <= 1024 := by
  rcases (new_eq_ok_iff hget).mp h with ⟨hheader, hprograms, hsections⟩
  have heq : elf.header = header := by
    rw [hwell.decoded] at hheader
    injection hheader with hheader
    exact hheader.symm
  rw [heq, hwell.phSize] at hprograms
  rw [heq, hwell.shSize] at hsections
  have hph := number_le_of_readTable program_reads hprograms
  have hsh := number_le_of_readTable section_reads hsections
  lia

/-- The tables of a well-formed file are decoded in full in both build profiles if and only
if they have at most 1171 program headers and at most 1024 section headers. -/
theorem decoded_in_full_iff (hget : initrd.getData path = .ok data)
    (hwell : WellFormed data header) (hlength : data.length < 2 ^ 64) :
    (forall profile, DecodedInFull profile initrd path data header) <->
      header.phNumber <= 1171 ∧ header.shNumber <= 1024 := by
  constructor
  · intro h
    rcases h .dev with ⟨elf, hnew, _⟩
    exact bounds_of_new_dev hget hwell hnew
  · intro h profile
    exact decodedInFull_of_bounds hget hwell hlength h.1 h.2

theorem entryOffset_release_inside {offset size number i : Nat}
    (hfile : offset + size * number <= data.length) (hlength : data.length < 2 ^ 64)
    (hi : i < number) :
    entryOffset .release offset size i = .ok (offset + i * size % 2 ^ 16) ∧
      offset + i * size % 2 ^ 16 + size <= data.length := by
  have hend : size * i + size <= size * number := by
    rw [← Nat.mul_succ]
    exact Nat.mul_le_mul_left size hi
  have hcomm : i * size = size * i := Nat.mul_comm i size
  have hmod : i * size % 2 ^ 16 <= i * size := Nat.mod_le (i * size) (2 ^ 16)
  have hfits : offset + i * size % 2 ^ 16 + size <= data.length := by lia
  refine ⟨?_, hfits⟩
  rw [entryOffset_release, Nat.mod_eq_of_lt]
  lia

/-- Without overflow checks, a product that does not fit wraps: the tables are read to
their ends, with the entries from the wrapped offsets. -/
theorem release_decodes_wrapped (hget : initrd.getData path = .ok data)
    (hwell : WellFormed data header) (hlength : data.length < 2 ^ 64) :
    exists elf, new .release initrd path = .ok elf ∧ elf.header = header ∧
      Entries Program.new data 56 header.phNumber
        (fun i => header.phOffset + i * 56 % 2 ^ 16) elf.programs ∧
      Entries Section.new data 64 header.shNumber
        (fun i => header.shOffset + i * 64 % 2 ^ 16) elf.sections := by
  apply new_of_places hget hwell.decoded
  · intro i hi
    rw [hwell.phSize]
    exact entryOffset_release_inside hwell.programs hlength hi
  · intro i hi
    rw [hwell.shSize]
    exact entryOffset_release_inside hwell.sections hlength hi

end WellFormed

/-!
# A file with one entry too many
-/

def crowdedHeader : List UInt8 :=
  [0x7f, 0x45, 0x4c, 0x46, 2, 1, 1, 0, 0, 0, 0, 0, 0, 0, 0, 0,
    2, 0, 0x3e, 0, 1, 0, 0, 0, 0, 0, 0, 0, 0, 0, 0, 0,
    64, 0, 0, 0, 0, 0, 0, 0, 0, 0, 0, 0, 0, 0, 0, 0,
    0, 0, 0, 0, 64, 0, 56, 0, 0x94, 0x04, 64, 0, 0, 0, 0, 0]

/-- A header and 1172 program headers, the last of them not empty. -/
def crowdedFile : List UInt8 :=
  crowdedHeader ++ (List.replicate (56 * 1171) 0 ++ List.replicate 56 1)

def crowdedInitrd : Initrd where
  files :=
    [{ header :=
        { name := "initrd/bin/crowded", mode := 755, userId := 0, groupId := 0,
          size := 65696, mtime := 0, checksum := "", flag := 0, linked := "",
          indicator := "ustar", version := "00", username := "root", group := "root",
          major := 0, minor := 0, namePrefix := "" }
       data := crowdedFile }]

def crowded : Header where
  magic := 0x464c457f
  fileClass := 2
  data := 1
  version := 1
  osAbi := 0
  abiVersion := 0
  fileType := 2
  machine := 0x3e
  execVersion := 1
  entrypoint := 0
  phOffset := 64
  shOffset := 0
  flags := 0
  ehSize := 64
  phSize := 56
  phNumber := 1172
  shSize := 64
  shNumber := 0
  shIndex := 0

theorem crowdedFile_length : crowdedFile.length = 64 + 56 * 1172 := by
  unfold crowdedFile
  rw [List.length_append, List.length_append, List.length_replicate, List.length_replicate]
  rfl

theorem crowdedFile_decoded : Header.new crowdedFile = .ok crowded := by
  unfold crowdedFile
  rw [header_reads.noFurther crowdedHeader _ (Nat.le_refl 64)]
  rfl

theorem crowdedFile_wellFormed : WellFormed crowdedFile crowded where
  decoded := crowdedFile_decoded
  magic := rfl
  fileClass := rfl
  encoding := rfl
  phSize := rfl
  shSize := rfl
  programs := by
    rw [crowdedFile_length]
    exact Nat.le_refl _
  sections := Nat.zero_le _

theorem crowdedInitrd_getData :
    crowdedInitrd.getData "initrd/bin/crowded" = .ok crowdedFile := rfl

theorem crowdedFile_slice (start : Nat) :
    slice crowdedFile (64 + start) 56 =
      slice (List.replicate (56 * 1171) 0 ++ List.replicate 56 1) start 56 :=
  slice_append_right crowdedHeader _ start 56

theorem crowdedFile_last :
    slice crowdedFile (64 + 56 * 1171) 56 = List.replicate 56 1 := by
  have hright := slice_append_right (List.replicate (56 * 1171) (0 : UInt8))
    (List.replicate 56 1) 0 56
  rw [List.length_replicate, Nat.add_zero] at hright
  rw [crowdedFile_slice, hright]
  rfl

theorem crowdedFile_wrapped :
    slice crowdedFile (64 + 1171 * 56 % 2 ^ 16) 56 = List.replicate 56 0 := by
  have hmod : 1171 * 56 % 2 ^ 16 = 40 := rfl
  rw [hmod, crowdedFile_slice, slice_append_left]
  · rw [slice, List.drop_replicate, List.take_replicate]
    rfl
  · rw [List.length_replicate]
    lia

theorem readTable_overflow {new : List UInt8 -> Outcome α} {data : List UInt8}
    {offset size number : Nat}
    (hfirst : exists entries, readTable .dev new data offset size number = .ok entries)
    (hlast : 2 ^ 16 <= number * size) :
    readTable .dev new data offset size (number + 1) = .error .arithmeticOverflow := by
  rcases hfirst with ⟨entries, hentries⟩
  unfold readTable at hentries ⊢
  rw [List.range_succ, List.mapM_append, hentries, Outcome.ok_bind, List.mapM_cons,
    entryOffset_dev_overflow hlast]
  rfl

/-- The program headers before the last are read, and the last one overflows; without
overflow checks another header stands in its place. -/
theorem crowded_not_decoded :
    crowdedInitrd.getData "initrd/bin/crowded" = .ok crowdedFile ∧
      WellFormed crowdedFile crowded ∧
      new .dev crowdedInitrd "initrd/bin/crowded" = .error .arithmeticOverflow ∧
      Not (DecodedInFull .release crowdedInitrd "initrd/bin/crowded" crowdedFile crowded) := by
  have hlength : crowdedFile.length < 2 ^ 64 := by
    rw [crowdedFile_length]
    lia
  refine ⟨crowdedInitrd_getData, crowdedFile_wellFormed, ?_, ?_⟩
  · have hinside : 64 + 56 * 1172 <= crowdedFile.length := Nat.le_of_eq crowdedFile_length.symm
    have hplaces : forall i, i < 1171 ->
        entryOffset .dev 64 56 i = .ok (64 + 56 * i) ∧
          64 + 56 * i + 56 <= crowdedFile.length := by
      intro i hi
      have hlt : i < 1172 := by lia
      exact entryOffset_inside hinside hlength hlt (by lia)
    rcases readTable_of_places program_reads .dev hplaces with ⟨programs, hprograms, _⟩
    have herror := readTable_overflow ⟨programs, hprograms⟩ (by lia)
    unfold new
    rw [crowdedInitrd_getData, Outcome.ok_bind, crowdedFile_decoded, Outcome.ok_bind]
    show (readTable .dev Program.new crowdedFile 64 56 (1171 + 1) >>= _) = _
    rw [herror]
    rfl
  · intro hdecoded
    rcases hdecoded with ⟨elf, hnew, _, hprograms, _⟩
    rcases release_decodes_wrapped crowdedInitrd_getData crowdedFile_wellFormed hlength with
      ⟨wrapped, hwrapped, _, hentries, _⟩
    rw [hnew] at hwrapped
    cases hwrapped
    have hlt : 1171 < crowded.phNumber := Nat.lt_succ_self 1171
    rcases hprograms.entry 1171 hlt with ⟨last, hlast, hread⟩
    rcases hentries.entry 1171 hlt with ⟨other, hother, hreadOther⟩
    rw [hlast] at hother
    cases hother
    have hsegment : Program.new (List.replicate 56 1) = .ok last := by
      rw [← crowdedFile_last]
      exact hread
    have hempty : Program.new (List.replicate 56 0) = .ok last := by
      rw [← crowdedFile_wrapped]
      exact hreadOther
    rw [← hempty] at hsegment
    exact absurd hsegment (by decide)

theorem decoded_in_full_iff_sample :
    (forall profile, DecodedInFull profile crowdedInitrd "initrd/bin/crowded"
        crowdedFile crowded) <->
      crowded.phNumber <= 1171 ∧ crowded.shNumber <= 1024 :=
  decoded_in_full_iff crowdedInitrd_getData crowdedFile_wellFormed
    (by rw [crowdedFile_length]; lia)

end Elf

end NeurOS
