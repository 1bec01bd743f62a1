import NeurOS.Initrd.Archive
import Mathlib.Data.List.Forall2

/-!
# The walk undoes the archiver

The fields of a header are read back one by one; one pass of the loop then takes
one entry, and the whole run takes all of them and stops at the first block of
zeros.
-/

namespace NeurOS

open Foundation

namespace Initrd

/-!
# Fields of a header
-/

theorem parseSlice_field {ram : Ram} {address : Nat} (field : Text.Field)
    (h : ram.read address field.width = field.encode) :
    parseSlice ram address field.width = .ok field.text := by
  have hdecode := field.decode_encode
  rw [parseSlice_eq, h]
  cases hutf8 : Text.fromUtf8 field.encode with
  | none => simp [hutf8] at hdecode
  | some s =>
      rw [hutf8] at hdecode
      injection hdecode with htrim
      simp [htrim]

/-!
# One header
-/

def headerOf (entry : Ustar.Entry) : Header where
  name := entry.name.value
  mode := (Text.fromStrRadix 32 10 (Text.numeral 8 7 entry.mode.val)).getD 0
  userId := entry.userId.val
  groupId := entry.groupId.val
  size := entry.content.data.length
  mtime := entry.mtime.val
  checksum := (Ustar.checksumField (Ustar.checksum entry)).text
  flag := entry.content.flag
  linked := entry.content.linked
  indicator := "ustar"
  version := "00"
  username := entry.username.value
  group := entry.group.value
  major := 0
  minor := 0
  namePrefix := entry.namePrefix.value

theorem octal_reads_decimal (digits : Nat) {n : Nat} (hn : n < 8) :
    Text.fromStrRadix 32 10 (Text.numeral 8 (digits + 1) n) = some n := by
  have hten : n < 10 := by lia
  have hdigits : n < 10 ^ (digits + 1) := by
    rw [Nat.pow_succ]
    have hpos : 0 < 10 ^ digits := Nat.pow_pos (by lia)
    lia
  rw [Text.numeral_of_lt _ hn hten]
  exact Text.fromStrRadix_numeral (by lia) (by lia) hdigits (by lia)

structure FieldAt (entry : Ustar.Entry) (i start width : Nat) (text : String) : Prop where
  found : (Ustar.headerFields entry)[i]?.map (fun f => (f.width, f.text)) = some (width, text)
  behind : (Ustar.headerWidths.take i).sum = start
  inside : start < blockSize

section Header

variable {ram : Ram} {address start width n : Nat} {entry : Ustar.Entry}
variable {text : String}

theorem parseSlice_headerField (h : ram.Holds address (Ustar.header entry))
    (hfits : address + blockSize < 2 ^ 64) (i : Nat)
    (hfield : FieldAt entry i start width text) :
    parseSlice ram (wrappingAdd address start) width = .ok text := by
  rcases Option.map_eq_some_iff.mp hfield.found with ⟨field, hfound, hpair⟩
  injection hpair with hwidth htext
  have hwidths : Text.Field.widths ((Ustar.headerFields entry).take i) = start := by
    rw [Text.Field.widths, List.map_take, Ustar.headerFields_widths, hfield.behind]
  have hread := Text.Field.read_encodeAll h hfound
  have hinside := hfield.inside
  rw [hwidths] at hread
  rw [wrappingAdd_of_lt (by lia), ← hwidth, ← htext]
  exact parseSlice_field field hread

theorem parseString_headerField (h : ram.Holds address (Ustar.header entry))
    (hfits : address + blockSize < 2 ^ 64) (i : Nat)
    (hfield : FieldAt entry i start width text) :
    parseString ram (wrappingAdd address start) width = .ok text :=
  parseSlice_headerField h hfits i hfield

theorem parseInteger_headerField (h : ram.Holds address (Ustar.header entry))
    (hfits : address + blockSize < 2 ^ 64) (i : Nat)
    (text : String) (hfield : FieldAt entry i start width text) :
    parseInteger ram (wrappingAdd address start) width =
      .ok ((Text.fromStrRadix 32 10 text).getD 0) := by
  simp [parseInteger_eq, parseSlice_headerField h hfits i hfield]

theorem parseInteger_digitField (h : ram.Holds address (Ustar.header entry))
    (hfits : address + blockSize < 2 ^ 64) (i digits : Nat)
    (hfield : FieldAt entry i start width (Text.numeral 8 (digits + 1) n)) (hn : n < 8) :
    parseInteger ram (wrappingAdd address start) width = .ok n := by
  rw [parseInteger_headerField h hfits i _ hfield, octal_reads_decimal digits hn]
  rfl

theorem parseOctal_headerField (h : ram.Holds address (Ustar.header entry))
    (hfits : address + blockSize < 2 ^ 64) (i digits : Nat)
    (hfield : FieldAt entry i start width (Text.numeral 8 (digits + 1) n))
    (hn : n < 8 ^ (digits + 1)) (hbits : n < 2 ^ 32) :
    parseOctal ram (wrappingAdd address start) width = .ok n := by
  have hvalue := Text.fromStrRadix_numeral (by lia) (by lia) hn hbits
  simp [parseOctal_eq, parseSlice_headerField h hfits i hfield, hvalue]

theorem parseHeader_entry (h : ram.Holds address (Ustar.header entry))
    (hfits : address + blockSize < 2 ^ 64) :
    parseHeader ram address = .ok (headerOf entry) := by
  have huserBits : entry.userId.val < 2 ^ 32 := by lia
  have hgroupBits : entry.groupId.val < 2 ^ 32 := by lia
  have hsizeBits := entry.content.size_lt
  have hsizeDigits : entry.content.data.length < 8 ^ 11 := by lia
  have hmtimeDigits : entry.mtime.val < 8 ^ 11 := by lia
  have hstart : wrappingAdd address 0 = address := wrappingAdd_of_lt (by lia)
  have hname : parseString ram (wrappingAdd address 0) 100 = .ok (headerOf entry).name :=
    parseString_headerField h hfits 0 ⟨rfl, rfl, by simp [blockSize]⟩
  have hmode : parseInteger ram (wrappingAdd address 100) 8 =
      .ok ((Text.fromStrRadix 32 10 (Text.numeral 8 7 entry.mode.val)).getD 0) :=
    parseInteger_headerField h hfits 1 _ ⟨rfl, rfl, by simp [blockSize]⟩
  have huserId : parseOctal ram (wrappingAdd address 108) 8 = .ok (headerOf entry).userId :=
    parseOctal_headerField h hfits 2 6 ⟨rfl, rfl, by simp [blockSize]⟩ entry.userId.isLt huserBits
  have hgroupId :
      parseOctal ram (wrappingAdd address 116) 8 = .ok (headerOf entry).groupId :=
    parseOctal_headerField h hfits 3 6 ⟨rfl, rfl, by simp [blockSize]⟩ entry.groupId.isLt hgroupBits
  have hsize : parseOctal ram (wrappingAdd address 124) 12 = .ok (headerOf entry).size :=
    parseOctal_headerField h hfits 4 10 ⟨rfl, rfl, by simp [blockSize]⟩ hsizeDigits hsizeBits
  have hmtime : parseOctal ram (wrappingAdd address 136) 12 = .ok (headerOf entry).mtime :=
    parseOctal_headerField h hfits 5 10 ⟨rfl, rfl, by simp [blockSize]⟩ hmtimeDigits
      entry.mtime.isLt
  have hchecksum :
      parseString ram (wrappingAdd address 148) 8 = .ok (headerOf entry).checksum :=
    parseString_headerField h hfits 6 ⟨rfl, rfl, by simp [blockSize]⟩
  have hflag : parseInteger ram (wrappingAdd address 156) 1 = .ok (headerOf entry).flag :=
    parseInteger_digitField h hfits 7 0 ⟨rfl, rfl, by simp [blockSize]⟩ entry.content.flag_lt
  have hlinked :
      parseString ram (wrappingAdd address 157) 100 = .ok (headerOf entry).linked :=
    parseString_headerField h hfits 8 ⟨rfl, rfl, by simp [blockSize]⟩
  have hindicator :
      parseString ram (wrappingAdd address 257) 6 = .ok (headerOf entry).indicator :=
    parseString_headerField h hfits 9 ⟨rfl, rfl, by simp [blockSize]⟩
  have hversion :
      parseString ram (wrappingAdd address 263) 2 = .ok (headerOf entry).version :=
    parseString_headerField h hfits 10 ⟨rfl, rfl, by simp [blockSize]⟩
  have husername :
      parseString ram (wrappingAdd address 265) 32 = .ok (headerOf entry).username :=
    parseString_headerField h hfits 11 ⟨rfl, rfl, by simp [blockSize]⟩
  have hgroup : parseString ram (wrappingAdd address 297) 32 = .ok (headerOf entry).group :=
    parseString_headerField h hfits 12 ⟨rfl, rfl, by simp [blockSize]⟩
  have hmajor : parseInteger ram (wrappingAdd address 329) 8 = .ok (headerOf entry).major :=
    parseInteger_digitField h hfits 13 6 ⟨rfl, rfl, by simp [blockSize]⟩ (Nat.zero_lt_succ 7)
  have hminor : parseInteger ram (wrappingAdd address 337) 8 = .ok (headerOf entry).minor :=
    parseInteger_digitField h hfits 14 6 ⟨rfl, rfl, by simp [blockSize]⟩ (Nat.zero_lt_succ 7)
  have hnamePrefix :
      parseString ram (wrappingAdd address 345) 155 = .ok (headerOf entry).namePrefix :=
    parseString_headerField h hfits 15 ⟨rfl, rfl, by simp [blockSize]⟩
  rw [hstart] at hname
  rw [parseHeader_eq]
  simp only [hname, hmode, huserId, hgroupId, hsize, hmtime, hchecksum, hflag, hlinked,
    hindicator, hversion, husername, hgroup, hmajor, hminor, hnamePrefix, Outcome.ok_bind]
  rfl

end Header

/-!
# One pass of the loop
-/

theorem header_ne_eofBlock {ram : Ram} {address : Nat} {entry : Ustar.Entry}
    (h : ram.Holds address (Ustar.header entry)) (hfits : address + blockSize < 2 ^ 64) :
    parseBlock ram address blockSize ≠ eofBlock := by
  intro heof
  have hindicator : parseSlice ram (wrappingAdd address 257) 6 = .ok "ustar" :=
    parseSlice_headerField h hfits 9 ⟨rfl, rfl, by simp [blockSize]⟩
  have hzeros : ram.read (address + 257) 6 = List.replicate 6 0 := by
    have hslice : slice (ram.read address blockSize) 257 6 = ram.read (address + 257) 6 :=
      Ram.read_slice (by simp [blockSize])
    unfold parseBlock at heof
    rw [← hslice, heof, slice, eofBlock, List.drop_replicate, List.take_replicate]
    rfl
  have hempty : parseSlice ram (address + 257) 6 = .ok "" :=
    parseSlice_field (Ustar.literalField 6 "" (by decide) (by decide)) hzeros
  rw [wrappingAdd_of_lt (by simp [blockSize] at hfits; lia), hempty] at hindicator
  simp at hindicator

def fileOf (entry : Ustar.Entry) : File where
  header := headerOf entry
  data := entry.content.data

theorem encode_length (entry : Ustar.Entry) :
    (Ustar.encode entry).length =
      blockSize + blockSize * divCeil entry.content.data.length blockSize := by
  unfold Ustar.encode
  rw [List.length_append, Ustar.header_length, Ustar.body_length]

theorem parseData_entry {ram : Ram} {address : Nat} {entry : Ustar.Entry}
    (h : ram.Holds address (Ustar.encode entry)) :
    parseData ram (address + blockSize) entry.content.data.length = entry.content.data := by
  have hbody : ram.Holds (address + (Ustar.header entry).length)
      (Ustar.body entry.content.data) := Ram.holds_right h
  rw [Ustar.header_length] at hbody
  exact Ram.holds_left hbody

theorem body_entry (display : File -> Outcome String) {ram : Ram} {walk : Walk}
    {entry : Ustar.Entry} (h : ram.Holds walk.address (Ustar.encode entry))
    (hfits : walk.address + (Ustar.encode entry).length < 2 ^ 64) :
    body display ram walk = (display (fileOf entry) >>= fun line =>
      .ok
        { address := walk.address + (Ustar.encode entry).length
          files := walk.files ++ [fileOf entry]
          logger := walk.logger.log .trace line }) := by
  have hlength := encode_length entry
  have hheader : parseHeader ram walk.address = .ok (headerOf entry) :=
    parseHeader_entry (Ram.holds_left h) (by lia)
  have hnext : wrappingAdd walk.address blockSize = walk.address + blockSize :=
    wrappingAdd_of_lt (by lia)
  have hsize : (headerOf entry).size = entry.content.data.length := rfl
  have hfile : fileAt ram walk.address (headerOf entry) = fileOf entry := by
    rw [fileAt, hnext, hsize, parseData_entry h]
    rfl
  rw [body_eq, hheader, Outcome.ok_bind, hfile, hnext, hsize, wrappingAdd_of_lt (by lia),
    Nat.add_assoc, ← hlength]

/-!
# The whole archive
-/

structure Decodes (entry : Ustar.Entry) (file : File) : Prop where
  name : file.header.name = entry.name.value
  userId : file.header.userId = entry.userId.val
  groupId : file.header.groupId = entry.groupId.val
  size : file.header.size = entry.content.data.length
  mtime : file.header.mtime = entry.mtime.val
  flag : file.header.flag = entry.content.flag
  username : file.header.username = entry.username.value
  group : file.header.group = entry.group.value
  data : file.data = entry.content.data

theorem decodes_fileOf (entry : Ustar.Entry) : Decodes entry (fileOf entry) :=
  ⟨rfl, rfl, rfl, rfl, rfl, rfl, rfl, rfl, rfl⟩

/-- Where the walk stands when the given entries are left, and what their listings are. -/
structure Before (display : File -> Outcome String) (text : File -> String) (ram : Ram)
    (start : Walk) (entries : List Ustar.Entry) (blocks : Nat) (rest : List Ustar.Entry)
    (walk : Walk) : Prop where
  taken : exists done, entries = done ++ rest ∧
    walk.address = start.address + (done.flatMap Ustar.encode).length ∧
    walk.files = start.files ++ done.map fileOf ∧
    walk.logger = start.logger.record (done.map fun e => ⟨.trace, text (fileOf e)⟩)
  lists : forall entry, entry ∈ rest -> display (fileOf entry) = .ok (text (fileOf entry))
  holds : ram.Holds walk.address (Ustar.archive rest blocks)
  fits : walk.address + (Ustar.archive rest blocks).length <= 2 ^ 64

section Archive

variable {display : File -> Outcome String} {text : File -> String} {ram : Ram}
variable {entries : List Ustar.Entry} {blocks : Nat}

theorem archive_cons (entry : Ustar.Entry) (rest : List Ustar.Entry) (blocks : Nat) :
    Ustar.archive (entry :: rest) blocks =
      Ustar.encode entry ++ Ustar.archive rest blocks := by
  simp [Ustar.archive]

theorem encode_lt_archive (hblocks : 0 < blocks) (entry : Ustar.Entry)
    (rest : List Ustar.Entry) :
    (Ustar.encode entry).length < (Ustar.archive (entry :: rest) blocks).length := by
  have hmul : 0 < blocks * blockSize := Nat.mul_pos hblocks (by simp [blockSize])
  rw [archive_cons]
  simp only [Ustar.archive, List.length_append, List.length_replicate]
  lia

theorem guard_archive {walk : Walk} (hblocks : 0 < blocks) {entry : Ustar.Entry}
    {rest : List Ustar.Entry}
    (h : ram.Holds walk.address (Ustar.archive (entry :: rest) blocks))
    (hfits : walk.address + (Ustar.archive (entry :: rest) blocks).length <= 2 ^ 64) :
    (walking display ram).guard walk = true := by
  have hlt := encode_lt_archive hblocks entry rest
  have hlength := encode_length entry
  rw [archive_cons] at h
  have hne := header_ne_eofBlock (Ram.holds_left (Ram.holds_left h)) (by lia)
  simpa [walking] using hne

theorem before_pass {start walk : Walk} (hblocks : 0 < blocks) {entry : Ustar.Entry}
    {rest : List Ustar.Entry}
    (h : Before display text ram start entries blocks (entry :: rest) walk) :
    (walking display ram).guard walk = true ∧
      exists walk', (walking display ram).body walk = .ok walk' ∧
        Before display text ram start entries blocks rest walk' := by
  refine ⟨guard_archive hblocks h.holds h.fits, ?_⟩
  have hholds := h.holds
  have hfits := h.fits
  have hlt := encode_lt_archive hblocks entry rest
  rw [archive_cons] at hholds
  have hbody := body_entry display (Ram.holds_left hholds) (by lia)
  rw [h.lists entry List.mem_cons_self, Outcome.ok_bind] at hbody
  refine ⟨_, hbody, ?_⟩
  rw [archive_cons, List.length_append] at hfits
  rcases h.taken with ⟨done, hentries, haddress, hfiles, hlogger⟩
  refine ⟨⟨done ++ [entry], ?_, ?_, ?_, ?_⟩, ?_, Ram.holds_right hholds, ?_⟩
  · simp [hentries]
  · simp only [haddress, List.flatMap_append, List.length_append, List.flatMap_singleton,
      Nat.add_assoc]
  · simp [hfiles]
  · simp only [hlogger, List.map_append, Logger.record, List.foldl_append]
    rfl
  · exact fun later hlater => h.lists later (List.mem_cons_of_mem entry hlater)
  · simp only
    lia

theorem archive_nil (hblocks : 0 < blocks) :
    Ustar.archive [] blocks = eofBlock ++ List.replicate ((blocks - 1) * blockSize) 0 := by
  unfold Ustar.archive eofBlock
  rw [List.flatMap_nil, List.nil_append, List.replicate_append_replicate]
  congr 1
  rw [Nat.sub_mul, Nat.one_mul]
  have hle : 1 * blockSize <= blocks * blockSize := Nat.mul_le_mul_right blockSize hblocks
  lia

theorem parseBlock_archive_nil {address : Nat} (hblocks : 0 < blocks)
    (h : ram.Holds address (Ustar.archive [] blocks)) :
    parseBlock ram address blockSize = eofBlock := by
  rw [archive_nil hblocks] at h
  have hread : ram.Holds address eofBlock := Ram.holds_left h
  unfold Ram.Holds at hread
  rw [eofBlock, List.length_replicate] at hread
  exact hread

theorem before_stop {start walk : Walk} (hblocks : 0 < blocks)
    (h : Before display text ram start entries blocks [] walk) :
    (walking display ram).guard walk = false := by
  simp [walking, parseBlock_archive_nil hblocks h.holds]

/-- The walk over an archive takes its entries in order and stops at its first block of
zeros. -/
theorem walking_archive {start : Walk} (hblocks : 0 < blocks)
    (h : ram.Holds start.address (Ustar.archive entries blocks))
    (hfits : start.address + (Ustar.archive entries blocks).length <= 2 ^ 64)
    (hlists : forall entry, entry ∈ entries ->
      display (fileOf entry) = .ok (text (fileOf entry)))
    {fuel : Nat} (hfuel : entries.length < fuel) :
    (walking display ram).run fuel start =
      some (.ok
        { address := start.address + (entries.flatMap Ustar.encode).length
          files := start.files ++ entries.map fileOf
          logger := start.logger.record
            (entries.map fun e => ⟨.trace, text (fileOf e)⟩) }) := by
  have hbefore : Before display text ram start entries blocks entries start :=
    ⟨⟨[], by simp, by simp, by simp, rfl⟩, hlists, h, hfits⟩
  rcases Loop.run_of_items (Before display text ram start entries blocks)
    (fun _ _ _ => before_pass hblocks) (fun _ => before_stop hblocks) hbefore hfuel with
    ⟨walk, hrun, hend⟩
  rcases hend.taken with ⟨done, hentries, haddress, hfiles, hlogger⟩
  have hdone : entries = done := by simpa using hentries
  rw [hrun, hdone, ← haddress, ← hfiles, ← hlogger]

theorem new_archive {address : Nat} (more : List Nat) (logger : Logger) (hblocks : 0 < blocks)
    (h : ram.Holds address (Ustar.archive entries blocks))
    (hfits : address + (Ustar.archive entries blocks).length <= 2 ^ 64)
    (hlists : forall entry, entry ∈ entries ->
      display (fileOf entry) = .ok (text (fileOf entry)))
    {fuel : Nat} (hfuel : entries.length < fuel) :
    new display ram (some (address :: more)) fuel logger =
      some (.ok
        ({ files := entries.map fileOf },
          logger.record (entries.map fun e => ⟨.trace, text (fileOf e)⟩))) := by
  let start : Walk := { address := address, files := [], logger := logger }
  have hrun : (walking display ram).run fuel start = _ :=
    walking_archive hblocks h hfits hlists hfuel
  rw [List.nil_append] at hrun
  simp [new, firstModule, start, hrun, Except.map]

end Archive

/-- Building the ramdisk from an archive gives one file for each entry, in order, and stops
the walk at the first block of zeros behind the entries. -/
theorem new_undoes_archiver (text : File -> String) {ram : Ram} {address : Nat}
    (more : List Nat) {entries : List Ustar.Entry} {blocks : Nat} (logger : Logger)
    (hblocks : 0 < blocks) (h : ram.Holds address (Ustar.archive entries blocks))
    (hfits : address + (Ustar.archive entries blocks).length <= 2 ^ 64) :
    exists files logger', List.Forall₂ Decodes entries files ∧
      forall fuel, entries.length < fuel ->
        (walking (fun file => .ok (text file)) ram).run fuel
            { address := address, files := [], logger := logger } =
          some (.ok
            { address := address + (entries.flatMap Ustar.encode).length
              files := files
              logger := logger' }) ∧
        new (fun file => .ok (text file)) ram (some (address :: more)) fuel logger =
          some (.ok ({ files := files }, logger')) := by
  refine ⟨entries.map fileOf,
    logger.record (entries.map fun e => ⟨.trace, text (fileOf e)⟩), ?_, ?_⟩
  · rw [List.forall₂_map_right_iff]
    exact List.forall₂_same.mpr (fun entry _ => decodes_fileOf entry)
  · intro fuel hfuel
    constructor
    · exact walking_archive hblocks h hfits (fun _ _ => rfl) hfuel
    · exact new_archive more logger hblocks h hfits (fun _ _ => rfl) hfuel

def directoryName : Ustar.FieldText 100 := ⟨"initrd/", by decide, by decide⟩

theorem directoryName_nonempty : directoryName.value ≠ "" := by
  simp [directoryName]

theorem noPrefix_fits : (Text.bytesOf "").length <= 155 := by
  simp [Text.bytesOf]

theorem noPrefix_noNull : '\x00' ∉ "".toList := by
  simp

def noPrefix : Ustar.FieldText 155 where
  value := ""
  fits := noPrefix_fits
  noNull := noPrefix_noNull

@[simp] theorem noPrefix_value : noPrefix.value = "" := rfl

def rootName : Ustar.FieldText 31 := ⟨"root", by decide, by decide⟩

def rootId : Fin (8 ^ 7) := 0

def directoryMode : Fin (8 ^ 7) := 0o755

def fileMode : Fin (8 ^ 7) := 0o644

def epoch : Fin (2 ^ 32) := 0

def sampleEntries : List Ustar.Entry :=
  [{ name := directoryName
     nonempty := directoryName_nonempty
     namePrefix := noPrefix
     mode := directoryMode
     userId := rootId
     groupId := rootId
     mtime := epoch
     content := .directory
     username := rootName
     group := rootName },
   { name := ⟨"initrd/etc/hostname", by decide, by decide⟩
     nonempty := by decide
     namePrefix := noPrefix
     mode := fileMode
     userId := 1000
     groupId := 1000
     mtime := epoch
     content := .regular (Text.bytesOf "localhost\n") (by decide)
     username := rootName
     group := rootName }]

theorem sampleEntries_fit :
    4096 + (Ustar.archive sampleEntries 2).length <= 2 ^ 64 := by
  simp only [Ustar.archive, sampleEntries, List.flatMap_cons, List.flatMap_nil,
    List.length_append, List.length_replicate, encode_length]
  decide

theorem sampleEntries_undone :
    exists files logger', List.Forall₂ Decodes sampleEntries files ∧
      forall fuel, 2 < fuel ->
        (walking (fun file => .ok file.header.name)
            (Ram.load 4096 (Ustar.archive sampleEntries 2))).run fuel
            { address := 4096, files := [], logger := Logger.new } =
          some (.ok
            { address := 4096 + (sampleEntries.flatMap Ustar.encode).length
              files := files
              logger := logger' }) ∧
        new (fun file => .ok file.header.name)
            (Ram.load 4096 (Ustar.archive sampleEntries 2)) (some [4096]) fuel Logger.new =
          some (.ok ({ files := files }, logger')) :=
  new_undoes_archiver (fun file => file.header.name) [] Logger.new Nat.two_pos
    (Ram.load_holds 4096 _) sampleEntries_fit

end Initrd

end NeurOS
