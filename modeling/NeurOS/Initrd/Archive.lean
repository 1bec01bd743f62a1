import NeurOS.Initrd.Model

/-!
# Archives and the walk over them

An archive of the USTAR format is a sequence of entries, each a header block and
its data padded to whole blocks, and at least two blocks of zeros.  The walk
undoes the archiver.
-/

namespace NeurOS

open Foundation

namespace Ustar

/-!
# Entries
-/

structure FieldText (limit : Nat) where
  value : String
  fits : (Text.bytesOf value).length <= limit
  noNull : '\x00' ∉ value.toList

inductive Content where
  | regular (data : List UInt8) (size : data.length < 2 ^ 32)
  | hardLink (target : FieldText 100)
  | symbolicLink (target : FieldText 100)
  | directory

namespace Content

def flag : Content -> Nat
  | .regular _ _ => 0
  | .hardLink _ => 1
  | .symbolicLink _ => 2
  | .directory => 5

def linked : Content -> String
  | .regular _ _ => ""
  | .hardLink target => target.value
  | .symbolicLink target => target.value
  | .directory => ""

def data : Content -> List UInt8
  | .regular data _ => data
  | .hardLink _ => []
  | .symbolicLink _ => []
  | .directory => []

end Content

structure Entry where
  name : FieldText 100
  nonempty : name.value ≠ ""
  namePrefix : FieldText 155
  mode : Fin (8 ^ 7)
  userId : Fin (8 ^ 7)
  groupId : Fin (8 ^ 7)
  mtime : Fin (2 ^ 32)
  content : Content
  username : FieldText 31
  group : FieldText 31

theorem Content.linked_fits (content : Content) :
    (Text.bytesOf content.linked).length <= 100 := by
  cases content with
  | regular data size => exact Nat.zero_le 100
  | hardLink target => exact target.fits
  | symbolicLink target => exact target.fits
  | directory => exact Nat.zero_le 100

theorem Content.linked_noNull (content : Content) : '\x00' ∉ content.linked.toList := by
  cases content with
  | regular data size => exact List.not_mem_nil
  | hardLink target => exact target.noNull
  | symbolicLink target => exact target.noNull
  | directory => exact List.not_mem_nil

theorem Content.size_lt (content : Content) : content.data.length < 2 ^ 32 := by
  cases content with
  | regular data size => exact size
  | hardLink target => exact Nat.two_pow_pos 32
  | symbolicLink target => exact Nat.two_pow_pos 32
  | directory => exact Nat.two_pow_pos 32

theorem Content.flag_lt (content : Content) : content.flag < 8 := by
  cases content <;> simp [flag]

/-!
# Encoding
-/

def textField (width : Nat) (text : FieldText limit) (h : limit <= width) : Text.Field where
  width := width
  text := text.value
  fits := Nat.le_trans text.fits h
  settled := Text.settled_of_not_mem text.noNull

def octalField (width digits n : Nat) (h : digits <= width) : Text.Field :=
  Text.numeralField (by lia : 0 < 8) (by lia) width digits n h

def linkedField (content : Content) : Text.Field where
  width := 100
  text := content.linked
  fits := content.linked_fits
  settled := Text.settled_of_not_mem content.linked_noNull

def literalField (width : Nat) (text : String)
    (fits : (Text.bytesOf text).length <= width)
    (noNull : '\x00' ∉ text.toList) : Text.Field where
  width := width
  text := text
  fits := fits
  settled := Text.settled_of_not_mem noNull

/-- Six digits, a null byte and a blank. -/
def checksumField (sum : Nat) : Text.Field where
  width := 8
  text := Text.numeral 8 6 sum ++ "\x00 "
  fits := by
    rw [Text.bytesOf_append, List.length_append,
      Text.numeral_length (by lia : 0 < 8) (by lia)]
    exact Nat.le_refl 8
  settled := by simp [Text.Settled, String.toList_append]

def fields (entry : Entry) (checksum : Text.Field) : List Text.Field :=
  [textField 100 entry.name (by lia),
    octalField 8 7 entry.mode.val (by lia),
    octalField 8 7 entry.userId.val (by lia),
    octalField 8 7 entry.groupId.val (by lia),
    octalField 12 11 entry.content.data.length (by lia),
    octalField 12 11 entry.mtime.val (by lia),
    checksum,
    octalField 1 1 entry.content.flag (by lia),
    linkedField entry.content,
    literalField 6 "ustar" (by decide) (by decide),
    literalField 2 "00" (by decide) (by decide),
    textField 32 entry.username (by lia),
    textField 32 entry.group (by lia),
    octalField 8 7 0 (by lia),
    octalField 8 7 0 (by lia),
    textField 155 entry.namePrefix (by lia),
    literalField 12 "" (by decide) (by decide)]

/-- The sum of all bytes of the header, the field of the checksum taken as blanks. -/
def checksum (entry : Entry) : Nat :=
  let blank := literalField 8 "        " (by decide) (by decide)
  ((Text.Field.encodeAll (fields entry blank)).map UInt8.toNat).sum

def headerFields (entry : Entry) : List Text.Field :=
  fields entry (checksumField (checksum entry))

def header (entry : Entry) : List UInt8 :=
  Text.Field.encodeAll (headerFields entry)

def padding (length : Nat) : Nat :=
  (blockSize - length % blockSize) % blockSize

def body (data : List UInt8) : List UInt8 :=
  data ++ List.replicate (padding data.length) 0

def encode (entry : Entry) : List UInt8 :=
  header entry ++ body entry.content.data

def archive (entries : List Entry) (blocks : Nat) : List UInt8 :=
  entries.flatMap encode ++ List.replicate (blocks * blockSize) 0

def headerWidths : List Nat :=
  [100, 8, 8, 8, 12, 12, 8, 1, 100, 6, 2, 32, 32, 8, 8, 155, 12]

theorem headerFields_widths (entry : Entry) :
    (headerFields entry).map Text.Field.width = headerWidths := rfl

theorem header_length (entry : Entry) : (header entry).length = blockSize := by
  unfold header
  rw [Text.Field.encodeAll_length, Text.Field.widths, headerFields_widths]
  rfl

theorem body_length (data : List UInt8) :
    (body data).length = blockSize * Initrd.divCeil data.length blockSize := by
  unfold body padding Initrd.divCeil blockSize
  rw [List.length_append, List.length_replicate]
  split <;> lia

end Ustar

end NeurOS
