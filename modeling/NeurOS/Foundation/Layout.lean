import NeurOS.Foundation.Bytes

/-!
# Records of little-endian fields

A record is a row of unsigned fields, each with its width in bytes.  Its encoding
is the row of the little-endian bytes of the fields, and cutting bytes at the
widths of a record gives the fields back.
-/

namespace Foundation

/-!
# The bytes of a number
-/

def toLittleEndian : Nat -> Nat -> List UInt8
  | 0, _ => []
  | width + 1, value => UInt8.ofNat value :: toLittleEndian width (value / 256)

@[simp] theorem toLittleEndian_length (width value : Nat) :
    (toLittleEndian width value).length = width := by
  induction width generalizing value with
  | zero => rfl
  | succ width ih => simp [toLittleEndian, ih]

theorem littleEndian_cons (byte : UInt8) (bytes : List UInt8) :
    littleEndian (byte :: bytes) = byte.toNat + 256 * littleEndian bytes := rfl

theorem littleEndian_toLittleEndian {width value : Nat} (h : value < 256 ^ width) :
    littleEndian (toLittleEndian width value) = value := by
  induction width generalizing value with
  | zero =>
      have hzero : value = 0 := by simpa using h
      rw [hzero]
      rfl
  | succ width ih =>
      have hrest : value / 256 < 256 ^ width := by
        rw [Nat.pow_succ] at h
        exact Nat.div_lt_of_lt_mul (by lia)
      have hbyte : (UInt8.ofNat value).toNat = value % 256 := UInt8.toNat_ofNat'
      rw [toLittleEndian, littleEndian_cons, ih hrest, hbyte]
      exact Nat.mod_add_div value 256

theorem toLittleEndian_littleEndian (bytes : List UInt8) :
    toLittleEndian bytes.length (littleEndian bytes) = bytes := by
  induction bytes with
  | nil => rfl
  | cons byte rest ih =>
      have hbyte : byte.toNat < 256 := byte.toNat_lt
      have hhead : UInt8.ofNat (byte.toNat + 256 * littleEndian rest) = byte := by
        apply UInt8.toNat_inj.mp
        rw [UInt8.toNat_ofNat']
        lia
      have htail : (byte.toNat + 256 * littleEndian rest) / 256 = littleEndian rest := by lia
      rw [List.length_cons, littleEndian_cons, toLittleEndian, hhead, htail, ih]

/-!
# Records
-/

abbrev Layout := List (Nat × Nat)

namespace Layout

def widths (fields : Layout) : List Nat :=
  fields.map Prod.fst

def encode (fields : Layout) : List UInt8 :=
  fields.flatMap fun field => toLittleEndian field.1 field.2

def Fits (fields : Layout) : Prop :=
  forall field, field ∈ fields -> field.2 < 256 ^ field.1

instance (fields : Layout) : Decidable fields.Fits :=
  inferInstanceAs (Decidable (forall field, field ∈ fields -> field.2 < 256 ^ field.1))

def cut : List Nat -> List UInt8 -> Layout
  | [], _ => []
  | width :: widths, bytes =>
      (width, littleEndian (bytes.take width)) :: cut widths (bytes.drop width)

theorem encode_cons (field : Nat × Nat) (fields : Layout) :
    encode (field :: fields) = toLittleEndian field.1 field.2 ++ encode fields :=
  List.flatMap_cons

theorem encode_length (fields : Layout) : fields.encode.length = fields.widths.sum := by
  induction fields with
  | nil => rfl
  | cons field rest ih => simp [encode_cons, ih, widths]

theorem cut_encode {fields : Layout} (h : fields.Fits) (trailing : List UInt8) :
    cut fields.widths (fields.encode ++ trailing) = fields := by
  induction fields with
  | nil => rfl
  | cons field rest ih =>
      have hfield : field.2 < 256 ^ field.1 := h field List.mem_cons_self
      have hrest : Fits rest := fun other hother => h other (List.mem_cons_of_mem field hother)
      have hlength := toLittleEndian_length field.1 field.2
      rw [encode_cons, List.append_assoc, widths, List.map_cons, cut,
        List.take_left' hlength, List.drop_left' hlength, littleEndian_toLittleEndian hfield]
      exact congrArg (field :: ·) (ih hrest)

theorem encode_cut {widths : List Nat} {bytes : List UInt8} (h : bytes.length = widths.sum) :
    (cut widths bytes).encode = bytes := by
  induction widths generalizing bytes with
  | nil =>
      have hempty : bytes = [] := by simpa using h
      rw [hempty]
      rfl
  | cons width rest ih =>
      rw [List.sum_cons] at h
      have hfirst : (bytes.take width).length = width := by
        rw [List.length_take]
        lia
      have hrest : (bytes.drop width).length = rest.sum := by
        rw [List.length_drop]
        lia
      have hbytes := toLittleEndian_littleEndian (bytes.take width)
      rw [hfirst] at hbytes
      rw [cut, encode_cons, hbytes, ih hrest, List.take_append_drop]

end Layout

end Foundation
