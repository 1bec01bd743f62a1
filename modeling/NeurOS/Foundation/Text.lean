import NeurOS.Foundation.Bytes
import Mathlib.Data.List.DropRight
import Mathlib.Data.Nat.Digits.Lemmas
import Mathlib.Data.Nat.Notation

/-!
# Text and numerals

Strings and the bytes that encode them, strings padded with null bytes to the
width of a field, and numerals: how they are read with a sign and an overflow
check, and how they are written with a fixed number of digits.
-/

namespace Foundation

namespace Text

/-!
# Bytes of a string
-/

def bytesOf (s : String) : List UInt8 :=
  s.toByteArray.data.toList

def fromUtf8 (bytes : List UInt8) : Option String :=
  String.fromUTF8? ⟨bytes.toArray⟩

theorem fromUtf8_bytesOf (s : String) : fromUtf8 (bytesOf s) = some s := by
  have hbytes : (⟨(bytesOf s).toArray⟩ : ByteArray) = s.toByteArray := by
    apply ByteArray.ext
    simp [bytesOf]
  unfold fromUtf8 String.fromUTF8?
  rw [hbytes, dif_pos s.isValidUTF8]
  rfl

theorem fromUtf8_eq_some_iff {bytes : List UInt8} {s : String} :
    fromUtf8 bytes = some s <-> bytesOf s = bytes := by
  constructor
  · intro h
    unfold fromUtf8 String.fromUTF8? at h
    split at h
    · cases h
      simp [bytesOf, String.fromUTF8]
    · cases h
  · intro h
    rw [← h]
    exact fromUtf8_bytesOf s

theorem bytesOf_append (s t : String) : bytesOf (s ++ t) = bytesOf s ++ bytesOf t := by
  simp [bytesOf]

theorem bytesOf_ofList (chars : List Char) :
    bytesOf (String.ofList chars) = chars.flatMap String.utf8EncodeChar := by
  simp [bytesOf, List.utf8Encode]

theorem bytesOf_length_of_ascii {chars : List Char}
    (h : forall c, c ∈ chars -> c.utf8Size = 1) :
    (bytesOf (String.ofList chars)).length = chars.length := by
  rw [bytesOf_ofList]
  induction chars with
  | nil => rfl
  | cons c rest ih =>
      have hrest : forall d, d ∈ rest -> d.utf8Size = 1 :=
        fun d hd => h d (List.mem_cons_of_mem c hd)
      rw [List.flatMap_cons, List.length_append, ih hrest, String.length_utf8EncodeChar,
        h c List.mem_cons_self, List.length_cons, Nat.add_comm]

theorem utf8EncodeChar_ascii {c : Char} (h : c.toNat < 128) :
    String.utf8EncodeChar c = [c.toNat.toUInt8] := by
  have hsize : c.utf8Size = 1 := Char.utf8Size_eq_one_iff.mpr (Nat.le_of_lt_succ h)
  rw [String.utf8EncodeChar_eq_singleton hsize]
  rfl

theorem bytesOf_ascii {s : String} (h : forall c, c ∈ s.toList -> c.toNat < 128) :
    bytesOf s = s.toList.map fun c => c.toNat.toUInt8 := by
  conv_lhs => rw [← String.ofList_toList (s := s)]
  rw [bytesOf_ofList]
  generalize s.toList = chars at h ⊢
  induction chars with
  | nil => rfl
  | cons c rest ih =>
      rw [List.flatMap_cons, utf8EncodeChar_ascii (h c List.mem_cons_self),
        ih (fun d hd => h d (List.mem_cons_of_mem c hd))]
      rfl

theorem bytesOf_eq_singleton {s : String} {byte : UInt8} (h : bytesOf s = [byte]) :
    exists c, s = String.ofList [c] ∧ c.toNat = byte.toNat := by
  have hchars : s.toList.flatMap String.utf8EncodeChar = [byte] := by
    rw [← bytesOf_ofList, String.ofList_toList]
    exact h
  cases hlist : s.toList with
  | nil =>
      rw [hlist] at hchars
      cases hchars
  | cons c rest =>
      rw [hlist, List.flatMap_cons] at hchars
      have hlength := congrArg List.length hchars
      have hpos := Char.utf8Size_pos c
      rw [List.length_append, String.length_utf8EncodeChar, List.length_singleton] at hlength
      have hrest : rest = [] := by
        cases rest with
        | nil => rfl
        | cons d others =>
            have hpos' := Char.utf8Size_pos d
            rw [List.flatMap_cons, List.length_append, String.length_utf8EncodeChar] at hlength
            lia
      subst hrest
      have hsize : c.utf8Size = 1 := by
        rw [List.flatMap_nil, List.length_nil] at hlength
        exact hlength
      rw [List.flatMap_nil, List.append_nil, String.utf8EncodeChar_eq_singleton hsize] at hchars
      refine ⟨c, ?_, ?_⟩
      · rw [← hlist, String.ofList_toList]
      · injection hchars with hbyte
        have hascii : c.val.toNat <= 127 := Char.utf8Size_eq_one_iff.mp hsize
        rw [← hbyte, UInt32.toNat_toUInt8, Nat.mod_eq_of_lt (by lia)]
        rfl

/-!
# Fields padded with null bytes
-/

def trimEndMatches (c : Char) (s : String) : String :=
  String.ofList (s.toList.rdropWhile (fun d => d = c))

def nulls (count : Nat) : String :=
  String.ofList (List.replicate count '\x00')

def padded (width : Nat) (s : String) : List UInt8 :=
  bytesOf s ++ List.replicate (width - (bytesOf s).length) 0

theorem bytesOf_nulls (count : Nat) : bytesOf (nulls count) = List.replicate count 0 := by
  unfold nulls
  rw [bytesOf_ofList]
  induction count with
  | zero => rfl
  | succ count ih =>
      rw [List.replicate_succ, List.flatMap_cons, ih, List.replicate_succ]
      rfl

theorem padded_eq_bytesOf (width : Nat) (s : String) :
    padded width s = bytesOf (s ++ nulls (width - (bytesOf s).length)) := by
  rw [bytesOf_append, bytesOf_nulls]
  rfl

theorem padded_length {width : Nat} {s : String} (h : (bytesOf s).length <= width) :
    (padded width s).length = width := by
  simp [padded]
  lia

/-- The string ends, if anywhere, with a character that trimming leaves alone. -/
def Settled (s : String) : Prop :=
  s.toList.getLast? ≠ some '\x00'

theorem settled_of_not_mem {s : String} (h : '\x00' ∉ s.toList) : Settled s := by
  intro hlast
  exact h (List.mem_of_getLast? hlast)

theorem rdropWhile_append_replicate (p : Char -> Bool) (chars : List Char) {c : Char}
    (hc : p c = true) (count : Nat) :
    (chars ++ List.replicate count c).rdropWhile p = chars.rdropWhile p := by
  induction count with
  | zero => simp
  | succ count ih =>
      rw [List.replicate_succ', ← List.append_assoc, List.rdropWhile_concat_pos _ _ _ hc, ih]

theorem trimEndMatches_append_nulls {s : String} (h : Settled s) (count : Nat) :
    trimEndMatches '\x00' (s ++ nulls count) = s := by
  unfold trimEndMatches nulls
  rw [String.toList_append, String.toList_ofList,
    rdropWhile_append_replicate _ _ (by simp)]
  have hself : s.toList.rdropWhile (fun d => d = '\x00') = s.toList := by
    apply List.rdropWhile_eq_self_iff.mpr
    intro hne hlast
    apply h
    rw [List.getLast?_eq_some_getLast hne]
    simpa using hlast
  rw [hself, String.ofList_toList]

structure Field where
  width : Nat
  text : String
  fits : (bytesOf text).length <= width
  settled : Settled text

namespace Field

def encode (field : Field) : List UInt8 :=
  padded field.width field.text

theorem encode_length (field : Field) : field.encode.length = field.width :=
  padded_length field.fits

/-- Decoding a field and trimming it gives the text back. -/
theorem decode_encode (field : Field) :
    (fromUtf8 field.encode).map (trimEndMatches '\x00') = some field.text := by
  unfold encode
  rw [padded_eq_bytesOf, fromUtf8_bytesOf, Option.map_some,
    trimEndMatches_append_nulls field.settled]

def encodeAll (fields : List Field) : List UInt8 :=
  (fields.map encode).flatten

def widths (fields : List Field) : Nat :=
  (fields.map width).sum

theorem map_encode_length (fields : List Field) :
    (fields.map encode).map List.length = fields.map width := by
  rw [List.map_map]
  apply List.map_congr_left
  intro field _
  exact field.encode_length

theorem encodeAll_length (fields : List Field) :
    (encodeAll fields).length = widths fields := by
  unfold encodeAll widths
  rw [List.length_flatten, map_encode_length]

theorem slice_encodeAll {fields : List Field} {i : Nat} {field : Field}
    (h : fields[i]? = some field) :
    slice (encodeAll fields) (widths (fields.take i)) field.width = field.encode := by
  have hencode : (fields.map encode)[i]? = some field.encode := by simp [h]
  have hslice := slice_flatten hencode
  have hoffset : offset (fields.map encode) i = widths (fields.take i) := by
    unfold offset widths
    rw [← List.map_take, map_encode_length]
  rw [hoffset, field.encode_length] at hslice
  exact hslice

theorem widths_take_le {fields : List Field} {i : Nat} {field : Field}
    (h : fields[i]? = some field) :
    widths (fields.take i) + field.width <= widths fields := by
  rcases List.getElem?_eq_some_iff.mp h with ⟨hi, hget⟩
  have hsplit : fields = fields.take i ++ field :: fields.drop (i + 1) := by
    rw [← hget, List.getElem_cons_drop, List.take_append_drop]
  have hsum : widths fields =
      widths (fields.take i) + (field.width + widths (fields.drop (i + 1))) := by
    conv_lhs => rw [hsplit]
    simp [widths]
  lia

theorem read_encodeAll {fields : List Field} {i : Nat} {field : Field} {ram : Ram}
    {address : Nat} (hholds : ram.Holds address (encodeAll fields))
    (h : fields[i]? = some field) :
    ram.read (address + widths (fields.take i)) field.width = field.encode := by
  have hfits := widths_take_le h
  rw [← encodeAll_length fields] at hfits
  rw [Ram.holds_slice hholds hfits]
  exact slice_encodeAll h

end Field

/-!
# White space and separators
-/

/-- The characters with the property White_Space. -/
def isWhitespace (c : Char) : Bool :=
  let n := c.toNat
  (0x09 <= n && n <= 0x0d) || n == 0x20 || n == 0x85 || n == 0xa0 || n == 0x1680 ||
    (0x2000 <= n && n <= 0x200a) || n == 0x2028 || n == 0x2029 || n == 0x202f ||
    n == 0x205f || n == 0x3000

def trimEnd (s : String) : String :=
  String.ofList (s.toList.rdropWhile isWhitespace)

def splitOnce (test : Char -> Bool) (s : String) : Option (String × String) :=
  match s.toList.dropWhile (fun c => !test c) with
  | [] => none
  | _ :: after =>
      some (String.ofList (s.toList.takeWhile fun c => !test c), String.ofList after)

/-- The parts between separators, without a last part that is empty. -/
def splitTerminator (separator : Char) (s : String) : List String :=
  let parts := s.toList.splitOn separator
  let kept := if parts.getLast? = some [] then parts.dropLast else parts
  kept.map String.ofList

def splitWhitespace (s : String) : List String :=
  ((s.toList.splitOnP isWhitespace).filter (fun part => part ≠ [])).map String.ofList

theorem splitTerminator_last {separator : Char} {first last : String}
    (hsome : last.toList ≠ []) (h : separator ∉ last.toList) :
    (splitTerminator separator (first ++ String.singleton separator ++ last)).getLast? =
      some last := by
  have hparts : (first ++ String.singleton separator ++ last).toList.splitOn separator =
      first.toList.splitOn separator ++ [last.toList] := by
    rw [String.toList_append, String.toList_append, String.toList_singleton, List.append_assoc,
      List.singleton_append, List.splitOn_append_cons_self, List.splitOn_eq_singleton h]
  unfold splitTerminator
  dsimp only
  rw [hparts, List.getLast?_concat, if_neg (fun hnil => hsome (Option.some.inj hnil)),
    List.map_append]
  simp

theorem splitTerminator_cons {separator : Char} {first : String} (h : separator ∉ first.toList)
    (rest : String) :
    splitTerminator separator (first ++ String.singleton separator ++ rest) =
      first :: splitTerminator separator rest := by
  have hparts : (first ++ String.singleton separator ++ rest).toList.splitOn separator =
      first.toList :: rest.toList.splitOn separator := by
    rw [String.toList_append, String.toList_append, String.toList_singleton, List.append_assoc,
      List.singleton_append, List.splitOn_append_cons_self, List.splitOn_eq_singleton h,
      List.singleton_append]
  have hsome : rest.toList.splitOn separator ≠ [] := List.splitOn_ne_nil _ _
  unfold splitTerminator
  dsimp only
  rw [hparts, List.getLast?_cons_of_ne_nil hsome, List.dropLast_cons_of_ne_nil hsome]
  split <;> simp

theorem trimEnd_append {blank : String} (s : String)
    (h : forall c, c ∈ blank.toList -> isWhitespace c = true) :
    trimEnd (s ++ blank) = trimEnd s := by
  have hblank : forall c, c ∈ blank.toList.reverse -> isWhitespace c = true := by
    intro c hc
    exact h c (List.mem_reverse.mp hc)
  unfold trimEnd List.rdropWhile
  rw [String.toList_append, List.reverse_append, List.dropWhile_append_of_pos hblank]

theorem splitWhitespace_cons {word : String} {separator : Char} (rest : String)
    (hsome : word.toList ≠ []) (hword : forall c, c ∈ word.toList -> isWhitespace c = false)
    (hseparator : isWhitespace separator = true) :
    splitWhitespace (word ++ String.singleton separator ++ rest) =
      word :: splitWhitespace rest := by
  unfold splitWhitespace
  rw [String.toList_append, String.toList_append, String.toList_singleton, List.append_assoc,
    List.singleton_append, List.splitOnP_append_cons_of_forall_mem hword separator hseparator,
    List.filter_cons_of_pos (by simpa using hsome)]
  simp

theorem splitWhitespace_word {word : String} (hsome : word.toList ≠ [])
    (hword : forall c, c ∈ word.toList -> isWhitespace c = false) :
    splitWhitespace word = [word] := by
  unfold splitWhitespace
  rw [List.splitOnP_eq_singleton hword, List.filter_cons_of_pos (by simpa using hsome)]
  simp

/-!
# Reading numerals
-/

def toDigit (radix : Nat) (c : Char) : Option Nat :=
  if '0' <= c ∧ c.toNat - '0'.toNat < radix then
    some (c.toNat - '0'.toNat)
  else
    none

def accumulate (bits radix : Nat) : Nat -> List Char -> Option Nat
  | value, [] => some value
  | value, c :: rest =>
      match toDigit radix c with
      | none => none
      | some digit =>
          if value * radix + digit < 2 ^ bits then
            accumulate bits radix (value * radix + digit) rest
          else
            none

/-- An unsigned number of the given width: an optional plus sign, then digits. -/
def fromStrRadix (bits radix : Nat) (s : String) : Option Nat :=
  match s.toList with
  | [] => none
  | ['+'] => none
  | ['-'] => none
  | '+' :: digits => accumulate bits radix 0 digits
  | digits => accumulate bits radix 0 digits

theorem accumulate_cons (bits radix value : Nat) (c : Char) (rest : List Char) :
    accumulate bits radix value (c :: rest) =
      match toDigit radix c with
      | none => none
      | some digit =>
          if value * radix + digit < 2 ^ bits then
            accumulate bits radix (value * radix + digit) rest
          else
            none := rfl

theorem accumulate_append (bits radix value : Nat) (first second : List Char) :
    accumulate bits radix value (first ++ second) =
      (accumulate bits radix value first).bind fun middle =>
        accumulate bits radix middle second := by
  induction first generalizing value with
  | nil => rfl
  | cons c rest ih =>
      rw [List.cons_append]
      rw [accumulate_cons, accumulate_cons]
      cases toDigit radix c with
      | none => rfl
      | some digit =>
          dsimp only
          by_cases hfit : value * radix + digit < 2 ^ bits
          · rw [if_pos hfit, if_pos hfit, ih]
          · rw [if_neg hfit, if_neg hfit]
            rfl

theorem fromStrRadix_unsigned {bits radix : Nat} {s : String} {c : Char} {rest : List Char}
    (h : s.toList = c :: rest) (hplus : c ≠ '+') (hminus : c ≠ '-') :
    fromStrRadix bits radix s = accumulate bits radix 0 (c :: rest) := by
  unfold fromStrRadix
  rw [h]
  split <;> simp_all

/-!
# Writing numerals
-/

def digits (radix : Nat) : Nat -> Nat -> List Char
  | 0, _ => []
  | width + 1, n => digits radix width (n / radix) ++ [Nat.digitChar (n % radix)]

def numeral (radix width n : Nat) : String :=
  String.ofList (digits radix width n)

@[simp] theorem digits_length (radix width n : Nat) :
    (digits radix width n).length = width := by
  induction width generalizing n with
  | zero => rfl
  | succ width ih => simp [digits, ih]

theorem digitChar_value : forall d, d < 10 ->
    '0' <= Nat.digitChar d ∧ (Nat.digitChar d).toNat - '0'.toNat = d := by
  decide

theorem digitChar_ascii : forall d, d < 10 ->
    (Nat.digitChar d).utf8Size = 1 ∧ Nat.digitChar d ≠ '\x00' ∧
      Nat.digitChar d ≠ '+' ∧ Nat.digitChar d ≠ '-' := by
  decide

theorem toDigit_digitChar {radix d : Nat} (hradix : radix <= 10) (hd : d < radix) :
    toDigit radix (Nat.digitChar d) = some d := by
  rcases digitChar_value d (lt_of_lt_of_le hd hradix) with ⟨hzero, hvalue⟩
  unfold toDigit
  rw [hvalue, if_pos ⟨hzero, hd⟩]

theorem toDigit_code {radix d : Nat} {c : Char} (h : toDigit radix c = some d) :
    c.toNat = '0'.toNat + d := by
  unfold toDigit at h
  by_cases hrange : '0' <= c ∧ c.toNat - '0'.toNat < radix
  · rw [if_pos hrange] at h
    have hvalue := Option.some.inj h
    have hzero : '0'.toNat <= c.toNat := hrange.1
    rw [← hvalue, Nat.add_sub_cancel' hzero]
  · rw [if_neg hrange] at h
    cases h

theorem digits_eq_toDigits {radix width n : Nat} (hradix : 1 < radix)
    (h : n < radix ^ (width + 1)) :
    digits radix (width + 1) n =
      List.replicate (width + 1 - (Nat.toDigits radix n).length) '0' ++
        Nat.toDigits radix n := by
  induction width generalizing n with
  | zero =>
      have hlt : n < radix := by simpa using h
      rw [Nat.toDigits_of_lt_base hlt]
      simp [digits, Nat.mod_eq_of_lt hlt]
  | succ width ih =>
      have hdiv : n / radix < radix ^ (width + 1) := by
        apply Nat.div_lt_of_lt_mul
        rw [Nat.mul_comm, ← Nat.pow_succ]
        exact h
      rw [digits, ih hdiv]
      by_cases hlt : n < radix
      · rw [Nat.toDigits_of_lt_base hlt, Nat.div_eq_of_lt hlt, Nat.mod_eq_of_lt hlt,
          Nat.toDigits_zero]
        simp [← List.replicate_succ']
      · rw [Nat.toDigits_of_base_le hradix (Nat.le_of_not_lt hlt), List.length_append,
          ← List.append_assoc]
        simp

theorem numeral_eq_toString {width n : Nat} (hlow : 10 ^ width <= n)
    (hhigh : n < 10 ^ (width + 1)) : numeral 10 (width + 1) n = toString n := by
  have hle := (Nat.length_toDigits_le_iff (n := n) (b := 10) (k := width + 1) (by lia)
    (by lia)).mpr hhigh
  have hge : width < (Nat.toDigits 10 n).length := by
    by_contra hshort
    cases width with
    | zero =>
        have hpos := Nat.length_toDigits_pos (b := 10) (n := n)
        lia
    | succ width =>
        have hlt := (Nat.length_toDigits_le_iff (n := n) (b := 10) (k := width + 1) (by lia)
          (by lia)).mp (by lia)
        lia
  unfold numeral
  rw [digits_eq_toDigits (by lia) hhigh, Nat.toString_eq_ofList_toDigits]
  have hnone : width + 1 - (Nat.toDigits 10 n).length = 0 := by lia
  rw [hnone]
  rfl

theorem toDigits_split {radix k n : Nat} (hradix : 1 < radix) (h : 0 < n / radix ^ k) :
    Nat.toDigits radix n = Nat.toDigits radix (n / radix ^ k) ++ digits radix k n := by
  induction k generalizing n with
  | zero => simp [digits]
  | succ k ih =>
      have hdiv : n / radix ^ (k + 1) = n / radix / radix ^ k := by
        rw [Nat.pow_succ, Nat.mul_comm, Nat.div_div_eq_div_mul]
      rw [hdiv] at h ⊢
      have hge : radix <= n := by
        by_contra hlt
        rw [Nat.div_eq_of_lt (Nat.lt_of_not_le hlt)] at h
        simp at h
      rw [Nat.toDigits_of_base_le hradix hge, ih h, digits, List.append_assoc]

theorem mem_digits {radix width n : Nat} {c : Char} (hradix : 0 < radix)
    (h : c ∈ digits radix width n) : exists d, d < radix ∧ Nat.digitChar d = c := by
  induction width generalizing n with
  | zero => cases h
  | succ width ih =>
      rcases List.mem_append.mp h with hinit | hlast
      · exact ih hinit
      · exact ⟨n % radix, Nat.mod_lt n hradix, (List.mem_singleton.mp hlast).symm⟩

/-- The number whose digits in one base are those of a number in another. -/
def rebased (base radix n : Nat) : Nat :=
  Nat.ofDigits radix (Nat.digits base n)

theorem rebased_of_lt {base : Nat} (radix : Nat) {n : Nat} (h : n < base) :
    rebased base radix n = n := by
  unfold rebased
  by_cases hzero : n = 0
  · rw [hzero]
    simp
  · rw [Nat.digits_of_lt base n hzero h]
    simp

theorem rebased_eq {base radix n : Nat} (hbase : 1 < base) :
    rebased base radix n = rebased base radix (n / base) * radix + n % base := by
  unfold rebased
  by_cases hzero : n = 0
  · rw [hzero]
    simp
  · rw [Nat.digits_def' hbase (Nat.pos_of_ne_zero hzero), Nat.ofDigits_cons]
    lia

theorem rebased_self (base n : Nat) : rebased base base n = n :=
  Nat.ofDigits_digits base n

theorem rebased_pos {base radix n : Nat} (hbase : 1 < base) (hradix : 0 < radix) (h : 0 < n) :
    0 < rebased base radix n := by
  induction n using Nat.strong_induction_on with
  | _ n ih =>
      rw [rebased_eq hbase]
      by_cases hlt : n < base
      · rw [Nat.mod_eq_of_lt hlt]
        lia
      · have hdiv : 0 < n / base := Nat.div_pos (by lia) (by lia)
        have hrec := ih (n / base) (Nat.div_lt_self h hbase) hdiv
        have hmul : 0 < rebased base radix (n / base) * radix := Nat.mul_pos hrec hradix
        lia

theorem rebased_lt {base radix width n : Nat} (hbase : 1 < base) (hle : base <= radix)
    (h : n < base ^ width) : rebased base radix n < radix ^ width := by
  have hradix : 1 < radix := by lia
  have hlength : (Nat.digits base n).length <= width := (Nat.digits_length_le_iff hbase n).mpr h
  have hlt : rebased base radix n < radix ^ (Nat.digits base n).length := by
    apply Nat.ofDigits_lt_base_pow_length hradix
    intro d hd
    have hdigit := Nat.digits_lt_base hbase hd
    lia
  exact lt_of_lt_of_le hlt (Nat.pow_le_pow_right (by lia) hlength)

theorem toDigits_rebased {base radix n : Nat} (hbase : 1 < base) (hle : base <= radix) :
    Nat.toDigits radix (rebased base radix n) = Nat.toDigits base n := by
  induction n using Nat.strong_induction_on with
  | _ n ih =>
      by_cases hlt : n < base
      · rw [rebased_of_lt radix hlt, Nat.toDigits_of_lt_base hlt,
          Nat.toDigits_of_lt_base (by lia)]
      · have hdiv : 0 < n / base := Nat.div_pos (by lia) (by lia)
        have hpos : 0 < rebased base radix (n / base) := rebased_pos hbase (by lia) hdiv
        have hmod : n % base < base := Nat.mod_lt n (by lia)
        have hn : 0 < n := by lia
        rw [rebased_eq hbase]
        have hmul : radix <= rebased base radix (n / base) * radix :=
          Nat.le_mul_of_pos_left radix hpos
        rw [Nat.toDigits_of_base_le (by lia) (Nat.le_add_right_of_le hmul),
          Nat.toDigits_of_base_le hbase (by lia)]
        have hquot : (rebased base radix (n / base) * radix + n % base) / radix =
            rebased base radix (n / base) := by
          rw [Nat.mul_comm, Nat.mul_add_div (by lia),
            Nat.div_eq_of_lt (show n % base < radix by lia), Nat.add_zero]
        have hrem : (rebased base radix (n / base) * radix + n % base) % radix = n % base := by
          rw [Nat.mul_comm, Nat.mul_add_mod, Nat.mod_eq_of_lt (show n % base < radix by lia)]
        rw [hquot, hrem, ih (n / base) (Nat.div_lt_self hn hbase)]

theorem accumulate_rebased {bits base radix width n : Nat} (hbase : 1 < base)
    (hle : base <= radix) (hradix : radix <= 10) (hwidth : n < base ^ width)
    (hbits : rebased base radix n < 2 ^ bits) :
    accumulate bits radix 0 (digits base width n) = some (rebased base radix n) := by
  induction width generalizing n with
  | zero =>
      have hzero : n = 0 := by simpa using hwidth
      rw [hzero, rebased_of_lt radix (by lia)]
      rfl
  | succ width ih =>
      have hdiv : n / base < base ^ width := by
        apply Nat.div_lt_of_lt_mul
        rw [Nat.mul_comm, ← Nat.pow_succ]
        exact hwidth
      have hmod : n % base < base := Nat.mod_lt n (by lia)
      rw [rebased_eq hbase] at hbits ⊢
      have hprefix : rebased base radix (n / base) <=
          rebased base radix (n / base) * radix :=
        Nat.le_mul_of_pos_right _ (by lia)
      unfold digits
      rw [accumulate_append, ih hdiv (by lia), Option.bind_some]
      unfold accumulate
      rw [toDigit_digitChar hradix (by lia)]
      dsimp only
      rw [if_pos hbits]
      rfl

theorem fromStrRadix_rebased {bits base radix width n : Nat} (hbase : 1 < base)
    (hle : base <= radix) (hradix : radix <= 10) (hwidth : n < base ^ (width + 1))
    (hbits : rebased base radix n < 2 ^ bits) :
    fromStrRadix bits radix (numeral base (width + 1) n) = some (rebased base radix n) := by
  have hread := accumulate_rebased hbase hle hradix hwidth hbits
  have hdigit : forall c, c ∈ digits base (width + 1) n -> c ≠ '+' ∧ c ≠ '-' := by
    intro c hc
    rcases mem_digits (by lia) hc with ⟨d, hd, hchar⟩
    rw [← hchar]
    exact (digitChar_ascii d (by lia)).2.2
  have hchars : (numeral base (width + 1) n).toList = digits base (width + 1) n :=
    String.toList_ofList
  cases hshape : digits base (width + 1) n with
  | nil => simp [digits] at hshape
  | cons c rest =>
      rw [hshape] at hread hchars hdigit
      have hsign := hdigit c List.mem_cons_self
      rw [fromStrRadix_unsigned hchars hsign.1 hsign.2]
      exact hread

theorem fromStrRadix_numeral {bits radix width n : Nat} (hbase : 1 < radix)
    (hradix : radix <= 10) (hwidth : n < radix ^ (width + 1)) (hbits : n < 2 ^ bits) :
    fromStrRadix bits radix (numeral radix (width + 1) n) = some n := by
  have hread := fromStrRadix_rebased hbase (Nat.le_refl radix) hradix hwidth
    (by rw [rebased_self]; exact hbits)
  rw [rebased_self] at hread
  exact hread

theorem fromStrRadix_toString {bits n : Nat} (h : n < 2 ^ bits) :
    fromStrRadix bits 10 (toString n) = some n := by
  have hpos := Nat.length_toDigits_pos (b := 10) (n := n)
  have hwidth : (Nat.toDigits 10 n).length - 1 + 1 = (Nat.toDigits 10 n).length := by lia
  have hlt : n < 10 ^ ((Nat.toDigits 10 n).length - 1 + 1) := by
    rw [hwidth]
    exact (Nat.length_toDigits_le_iff (by lia) hpos).mp (Nat.le_refl _)
  have hnumeral : numeral 10 ((Nat.toDigits 10 n).length - 1 + 1) n = toString n := by
    unfold numeral
    rw [digits_eq_toDigits (by lia) hlt, hwidth, Nat.sub_self, Nat.toString_eq_ofList_toDigits]
    rfl
  rw [← hnumeral]
  exact fromStrRadix_numeral (by lia) (by lia) hlt h

theorem digit_bounds {c : Char} (h : c.isDigit = true) : 48 <= c.toNat ∧ c.toNat <= 57 := by
  unfold Char.isDigit at h
  simp only [Bool.and_eq_true, decide_eq_true_eq] at h
  exact ⟨h.1, h.2⟩

theorem mem_toString {n : Nat} {c : Char} (h : c ∈ (toString n).toList) :
    48 <= c.toNat ∧ c.toNat <= 57 := by
  rw [Nat.toString_eq_ofList_toDigits, String.toList_ofList] at h
  exact digit_bounds (Nat.isDigit_of_mem_toDigits (by lia) (by lia) h)

theorem mem_bytesOf_toString {n : Nat} {byte : UInt8} (h : byte ∈ bytesOf (toString n)) :
    48 <= byte.toNat := by
  rw [bytesOf_ascii (fun c hc => by have hbounds := mem_toString hc; lia)] at h
  rcases List.mem_map.mp h with ⟨c, hc, heq⟩
  have hbounds := mem_toString hc
  rw [← heq, Nat.toUInt8_eq, UInt8.toNat_ofNat', Nat.mod_eq_of_lt (by lia)]
  exact hbounds.1

theorem toString_ne_nil (n : Nat) : (toString n).toList ≠ [] := by
  rw [Nat.toString_eq_ofList_toDigits, String.toList_ofList]
  exact List.ne_nil_of_length_pos Nat.length_toDigits_pos

theorem toString_not_whitespace {n : Nat} {c : Char} (h : c ∈ (toString n).toList) :
    isWhitespace c = false := by
  have hbounds := mem_toString h
  unfold isWhitespace
  simp only [Bool.or_eq_false_iff, Bool.and_eq_false_iff, decide_eq_false_iff_not,
    beq_eq_false_iff_ne]
  refine ⟨⟨⟨⟨⟨⟨⟨⟨⟨⟨?_, ?_⟩, ?_⟩, ?_⟩, ?_⟩, ?_⟩, ?_⟩, ?_⟩, ?_⟩, ?_⟩, ?_⟩ <;> lia

theorem digits_of_lt {radix radix' : Nat} (width : Nat) {n : Nat} (h : n < radix)
    (h' : n < radix') : digits radix width n = digits radix' width n := by
  induction width generalizing n with
  | zero => rfl
  | succ width ih =>
      unfold digits
      rw [Nat.div_eq_of_lt h, Nat.div_eq_of_lt h', Nat.mod_eq_of_lt h, Nat.mod_eq_of_lt h',
        ih (Nat.zero_lt_of_lt h) (Nat.zero_lt_of_lt h')]

theorem numeral_of_lt {radix radix' : Nat} (width : Nat) {n : Nat} (h : n < radix)
    (h' : n < radix') : numeral radix width n = numeral radix' width n := by
  unfold numeral
  rw [digits_of_lt width h h']

theorem numeral_length {radix : Nat} (hpos : 0 < radix) (hradix : radix <= 10)
    (width n : Nat) : (bytesOf (numeral radix width n)).length = width := by
  unfold numeral
  rw [bytesOf_length_of_ascii, digits_length]
  intro c hc
  rcases mem_digits hpos hc with ⟨d, hd, hchar⟩
  rw [← hchar]
  exact (digitChar_ascii d (lt_of_lt_of_le hd hradix)).1

theorem numeral_settled {radix : Nat} (hpos : 0 < radix) (hradix : radix <= 10)
    (width n : Nat) : Settled (numeral radix width n) := by
  apply settled_of_not_mem
  intro hmem
  unfold numeral at hmem
  rw [String.toList_ofList] at hmem
  rcases mem_digits hpos hmem with ⟨d, hd, hchar⟩
  exact (digitChar_ascii d (lt_of_lt_of_le hd hradix)).2.1 hchar

def numeralField {radix : Nat} (hpos : 0 < radix) (hradix : radix <= 10)
    (width digitCount n : Nat) (h : digitCount <= width) : Field where
  width := width
  text := numeral radix digitCount n
  fits := by
    rw [numeral_length hpos hradix]
    exact h
  settled := numeral_settled hpos hradix digitCount n

end Text

end Foundation
