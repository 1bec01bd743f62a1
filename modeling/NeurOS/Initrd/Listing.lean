import NeurOS.Initrd.Conversion
import NeurOS.Initrd.RoundTrip
import Mathlib.Data.Nat.Bitwise

/-!
# Listing of files

The octal digits of the mode field are read as a decimal number, and the listing
takes the first three digits of that number for the three classes of users.
-/

namespace NeurOS

open Foundation

namespace Initrd

namespace File

/-!
# The listing of a file
-/

def parsePermission (digit : Nat) : String :=
  let read := if digit &&& 0b100 = 0b100 then 'r' else '-'
  let write := if digit &&& 0b010 = 0b010 then 'w' else '-'
  let execute := if digit &&& 0b001 = 0b001 then 'x' else '-'
  s!"{read}{write}{execute}"

/-- The conversion of timestamps is left to a parameter. -/
def fmt (parseTimestamp : Nat -> Outcome String) (file : File) : Outcome String := do
  let flag := if file.header.flag = 5 then 'd' else '-'
  let digits ← (toString file.header.mode).toList.mapM fun x =>
    Outcome.unwrap (Text.toDigit 10 x)
  let owner := parsePermission (← Outcome.index digits 0)
  let group := parsePermission (← Outcome.index digits 1)
  let other := parsePermission (← Outcome.index digits 2)
  let permissions := s!"{flag}{owner}{group}{other}"
  let timestamp ← parseTimestamp file.header.mtime
  .ok s!"{permissions} {file.header.username}/{file.header.group} {file.header.size} {timestamp} {file.header.name}"

def display (profile : Profile) (file : File) : Outcome String :=
  fmt (convert profile) file

/-!
# The listing of an entry
-/

def triple (bits : Nat) : String :=
  String.ofList
    [if bits.testBit 2 then 'r' else '-', if bits.testBit 1 then 'w' else '-',
      if bits.testBit 0 then 'x' else '-']

def permissionText (type : List UInt8) (mode : Nat) : String :=
  (if type = Text.bytesOf "5" then "d" else "-") ++ triple (mode >>> 6) ++ triple (mode >>> 3) ++
    triple mode

def listing (type : List UInt8) (mode : Nat) (header : Header) (date : String) : String :=
  permissionText type mode ++ " " ++ header.username ++ "/" ++ header.group ++ " " ++
    toString header.size ++ " " ++ date ++ " " ++ header.name

theorem parsePermission_eq (digit : Nat) : parsePermission digit = triple digit := by
  have hbit : forall i, digit &&& 2 ^ i = 2 ^ i <-> digit.testBit i = true := by
    intro i
    rw [Nat.and_two_pow]
    cases digit.testBit i with
    | true => simp
    | false =>
        have hpos : 0 ≠ 2 ^ i := Nat.ne_of_lt (Nat.two_pow_pos i)
        simp [hpos]
  have hread : digit &&& 0b100 = 0b100 <-> digit.testBit 2 = true := hbit 2
  have hwrite : digit &&& 0b010 = 0b010 <-> digit.testBit 1 = true := hbit 1
  have hexecute : digit &&& 0b001 = 0b001 <-> digit.testBit 0 = true := hbit 0
  unfold parsePermission triple
  simp only [hread, hwrite, hexecute]
  apply String.toList_inj.mp
  simp [toString]

theorem triple_mod (bits : Nat) : triple bits = triple (bits % 8) := by
  have hbit : forall i, i < 3 -> (bits % 2 ^ 3).testBit i = bits.testBit i := by
    intro i hi
    rw [Nat.testBit_mod_two_pow]
    simp [hi]
  unfold triple
  rw [show bits % 8 = bits % 2 ^ 3 from rfl, hbit 2 (by lia), hbit 1 (by lia), hbit 0 (by lia)]

theorem triple_injective : forall a, a < 8 -> forall b, b < 8 -> triple a = triple b -> a = b := by
  decide +kernel

theorem triple_length (bits : Nat) : (triple bits).toList.length = 3 := by
  simp [triple]

/-!
# The digits that are listed
-/

theorem mapM_toDigit {radix : Nat} (hradix : radix <= 10) {digits : List Nat}
    (h : forall d, d ∈ digits -> d < radix) :
    (digits.map Nat.digitChar).mapM (fun x => Outcome.unwrap (Text.toDigit 10 x)) =
      .ok digits := by
  induction digits with
  | nil => rfl
  | cons d rest ih =>
      have hd := h d List.mem_cons_self
      have hrest := ih (fun e he => h e (List.mem_cons_of_mem d he))
      rw [List.map_cons, List.mapM_cons, Text.toDigit_digitChar (by lia) (by lia),
        Outcome.unwrap_some, Outcome.ok_bind, hrest]
      rfl

theorem digits_values {radix : Nat} (hradix : 0 < radix) (width n : Nat) :
    exists values : List Nat,
      Text.digits radix width n = values.map Nat.digitChar ∧
      forall d, d ∈ values -> d < radix := by
  induction width generalizing n with
  | zero => exact ⟨[], rfl, by simp⟩
  | succ width ih =>
      rcases ih (n / radix) with ⟨values, hvalues, hlt⟩
      refine ⟨values ++ [n % radix], ?_, ?_⟩
      · rw [Text.digits, hvalues, List.map_append]
        rfl
      · intro d hd
        rcases List.mem_append.mp hd with hinit | hlast
        · exact hlt d hinit
        · rw [List.mem_singleton.mp hlast]
          exact Nat.mod_lt n hradix

theorem exists_head {n : Nat} (h : 64 <= n) : exists k, 64 <= n / 8 ^ k ∧ n / 8 ^ k < 512 := by
  induction n using Nat.strong_induction_on with
  | _ n ih =>
      by_cases hlt : n < 512
      · exact ⟨0, by simpa using h, by simpa using hlt⟩
      · rcases ih (n / 8) (by lia) (by lia) with ⟨k, hlow, hhigh⟩
        rw [Nat.div_div_eq_div_mul, Nat.mul_comm, ← Nat.pow_succ] at hlow hhigh
        exact ⟨k + 1, hlow, hhigh⟩

theorem head_le {n k l : Nat} (hhigh : n / 8 ^ k < 512) (hlow : 64 <= n / 8 ^ l) : l <= k := by
  by_contra hlt
  have hsplit : n / 8 ^ l = n / 8 ^ k / 8 ^ (l - k) := by
    rw [Nat.div_div_eq_div_mul, ← Nat.pow_add, Nat.add_sub_cancel' (by lia)]
  have hdiv : n / 8 ^ k / 8 ^ (l - k) <= n / 8 ^ k / 8 ^ 1 :=
    Nat.div_le_div_left (Nat.pow_le_pow_right (by lia) (by lia)) (by simp)
  lia

theorem head_unique {n k l : Nat} (hk : 64 <= n / 8 ^ k) (hk' : n / 8 ^ k < 512)
    (hl : 64 <= n / 8 ^ l) (hl' : n / 8 ^ l < 512) : n / 8 ^ k = n / 8 ^ l := by
  rw [Nat.le_antisymm (head_le hl' hk) (head_le hk' hl)]

theorem toDigits_three {m : Nat} (hlow : 64 <= m) (hhigh : m < 512) :
    Nat.toDigits 8 m = [m / 64, m / 8 % 8, m % 8].map Nat.digitChar := by
  have hdiv : m / 8 / 8 = m / 64 := by lia
  rw [Nat.toDigits_of_base_le (by lia) (by lia), Nat.toDigits_of_base_le (by lia) (by lia),
    Nat.toDigits_of_lt_base (by lia), hdiv]
  rfl

theorem toDigits_short {n : Nat} (h : n < 64) : exists values : List Nat,
    Nat.toDigits 8 n = values.map Nat.digitChar ∧ (forall d, d ∈ values -> d < 8) ∧
      values.length <= 2 := by
  by_cases hlt : n < 8
  · refine ⟨[n], ?_, by simpa using hlt, by simp⟩
    rw [Nat.toDigits_of_lt_base hlt]
    rfl
  · refine ⟨[n / 8, n % 8], ?_, ?_, Nat.le_refl 2⟩
    · rw [Nat.toDigits_of_base_le (by lia) (by lia), Nat.toDigits_of_lt_base (by lia)]
      rfl
    · intro d hd
      rcases List.mem_pair.mp hd with hd | hd <;> lia

/-!
# The listing of a decoded header
-/

theorem fmt_short (parseTimestamp : Nat -> Outcome String) {file : File} {values : List Nat}
    (hmode : Nat.toDigits 10 file.header.mode = values.map Nat.digitChar)
    (hlt : forall d, d ∈ values -> d < 8) (hshort : values.length <= 2) :
    fmt parseTimestamp file = .error .indexOutOfBounds := by
  have hdigits := mapM_toDigit (show 8 <= 10 by lia) hlt
  unfold fmt
  rw [Nat.toString_eq_ofList_toDigits, String.toList_ofList, hmode, hdigits, Outcome.ok_bind]
  cases values with
  | nil => rfl
  | cons a rest =>
      cases rest with
      | nil => rfl
      | cons b others =>
          cases others with
          | nil => rfl
          | cons c others => simp at hshort

theorem toDigits_values (n : Nat) : exists values : List Nat,
    Nat.toDigits 10 n = values.map Nat.digitChar ∧ forall d, d ∈ values -> d < 10 := by
  induction n using Nat.strong_induction_on with
  | _ n ih =>
      by_cases hlt : n < 10
      · refine ⟨[n], ?_, by simpa using hlt⟩
        rw [Nat.toDigits_of_lt_base hlt]
        rfl
      · rcases ih (n / 10) (by lia) with ⟨values, hvalues, hall⟩
        refine ⟨values ++ [n % 10], ?_, ?_⟩
        · rw [Nat.toDigits_of_base_le (by lia) (Nat.le_of_not_lt hlt), hvalues, List.map_append]
          rfl
        · intro d hd
          rcases List.mem_append.mp hd with hinit | hlast
          · exact hall d hinit
          · rw [List.mem_singleton.mp hlast]
            exact Nat.mod_lt n (by lia)

/-- A file is listed if and only if its mode has at least three digits and its timestamp is
converted. -/
theorem fmt_ok_iff {parseTimestamp : Nat -> Outcome String} {file : File} :
    (exists line, fmt parseTimestamp file = .ok line) <->
      100 <= file.header.mode ∧ exists date, parseTimestamp file.header.mtime = .ok date := by
  rcases toDigits_values file.header.mode with ⟨values, hmode, hlt⟩
  have hdigits := mapM_toDigit (Nat.le_refl 10) hlt
  have hlength : values.length <= 2 <-> file.header.mode < 100 := by
    have hle := Nat.length_toDigits_le_iff (n := file.header.mode) (show 1 < 10 by lia)
      Nat.two_pos
    rw [hmode, List.length_map] at hle
    exact hle
  unfold fmt
  rw [Nat.toString_eq_ofList_toDigits, String.toList_ofList, hmode, hdigits, Outcome.ok_bind]
  simp only [Outcome.bind_eq_ok_iff]
  constructor
  · rintro ⟨line, _, _, _, _, other, hother, date, hdate, _⟩
    refine ⟨?_, date, hdate⟩
    by_contra hshort
    have hnone : values[2]? = none := List.getElem?_eq_none (hlength.mpr (Nat.lt_of_not_le hshort))
    rw [Outcome.index, hnone] at hother
    cases hother
  · rintro ⟨hlong, date, hdate⟩
    have hthree : 2 < values.length := by lia
    have hindex : forall i, i <= 2 -> exists d, Outcome.index values i = .ok d := by
      intro i hi
      refine ⟨values[i], ?_⟩
      rw [Outcome.index, List.getElem?_eq_getElem]
    rcases hindex 0 (by lia) with ⟨owner, howner⟩
    rcases hindex 1 (by lia) with ⟨group, hgroup⟩
    rcases hindex 2 (Nat.le_refl 2) with ⟨other, hother⟩
    exact ⟨_, owner, howner, group, hgroup, other, hother, date, hdate, rfl⟩

theorem display_ok_iff {profile : Profile} {file : File} (h : file.header.mtime < 2 ^ 32) :
    (exists line, display profile file = .ok line) <->
      100 <= file.header.mode ∧ Converts profile file.header.mtime := by
  rw [← (convert_ends profile h).2]
  exact fmt_ok_iff

theorem fmt_three {parseTimestamp : Nat -> Outcome String} {file : File} {date : String}
    {a b c : Nat} {values : List Nat} (hdate : parseTimestamp file.header.mtime = .ok date)
    (hmode : Nat.toDigits 10 file.header.mode =
      (a :: b :: c :: values).map Nat.digitChar)
    (hlt : forall d, d ∈ a :: b :: c :: values -> d < 8) :
    fmt parseTimestamp file = .ok
      ((if file.header.flag = 5 then "d" else "-") ++ triple a ++ triple b ++ triple c ++ " " ++
        file.header.username ++ "/" ++ file.header.group ++ " " ++ toString file.header.size ++
        " " ++ date ++ " " ++ file.header.name) := by
  have hdigits := mapM_toDigit (show 8 <= 10 by lia) hlt
  have hflag : toString (if file.header.flag = 5 then 'd' else '-') =
      if file.header.flag = 5 then "d" else "-" := by
    split <;> rfl
  unfold fmt
  rw [Nat.toString_eq_ofList_toDigits, String.toList_ofList, hmode, hdigits, Outcome.ok_bind,
    hdate]
  simp only [parsePermission_eq, hflag]
  rfl

theorem parseHeader_fields {ram : Ram} {address : Nat} {header : Header}
    (h : parseHeader ram address = .ok header) :
    parseInteger ram (wrappingAdd address 100) 8 = .ok header.mode ∧
      parseInteger ram (wrappingAdd address 156) 1 = .ok header.flag ∧
      parseOctal ram (wrappingAdd address 124) 12 = .ok header.size ∧
      parseOctal ram (wrappingAdd address 136) 12 = .ok header.mtime := by
  rw [parseHeader_eq] at h
  simp only [Outcome.bind_eq_ok_iff] at h
  rcases h with ⟨name, _, mode, hmode, userId, _, groupId, _, size, hsize, mtime, hmtime,
    checksum, _, flag, hflag, linked, _, indicator, _, version, _, username, _, group, _,
    major, _, minor, _, namePrefix, _, hheader⟩
  cases hheader
  exact ⟨hmode, hflag, hsize, hmtime⟩

theorem digit_of_numeral {c : Char} {d : Nat} (hpos : 0 < d)
    (h : (Text.fromStrRadix 32 10 (Text.trimEndMatches '\x00' (String.ofList [c]))).getD 0 = d) :
    Text.toDigit 10 c = some d := by
  have hnull : c ≠ '\x00' := by
    intro hnull
    subst hnull
    have hzero : (Text.fromStrRadix 32 10
        (Text.trimEndMatches '\x00' (String.ofList ['\x00']))).getD 0 = 0 := by
      decide
    lia
  have htrim : Text.trimEndMatches '\x00' (String.ofList [c]) = String.ofList [c] := by
    unfold Text.trimEndMatches
    rw [String.toList_ofList, List.rdropWhile_singleton, if_neg (by simpa using hnull)]
  rw [htrim] at h
  have hplus : c ≠ '+' := by
    intro hplus
    subst hplus
    have hzero : (Text.fromStrRadix 32 10 (String.ofList ['+'])).getD 0 = 0 := by decide
    lia
  have hminus : c ≠ '-' := by
    intro hminus
    subst hminus
    have hzero : (Text.fromStrRadix 32 10 (String.ofList ['-'])).getD 0 = 0 := by decide
    lia
  rw [Text.fromStrRadix_unsigned String.toList_ofList hplus hminus, Text.accumulate_cons] at h
  cases hdigit : Text.toDigit 10 c with
  | none =>
      rw [hdigit] at h
      simp at h
      lia
  | some value =>
      rw [hdigit] at h
      simp only [Nat.zero_mul, Nat.zero_add] at h
      split at h
      · rw [Text.accumulate, Option.getD_some] at h
        rw [h]
      · simp at h
        lia

theorem flag_iff {ram : Ram} {address flag : Nat}
    (h : parseInteger ram address 1 = .ok flag) :
    flag = 5 <-> ram.read address 1 = Text.bytesOf "5" := by
  rw [parseInteger_eq, parseSlice_eq] at h
  cases hutf8 : Text.fromUtf8 (ram.read address 1) with
  | none =>
      rw [hutf8] at h
      cases h
  | some s =>
      rw [hutf8, Outcome.ok_bind] at h
      injection h with hflag
      have hbytes := Text.fromUtf8_eq_some_iff.mp hutf8
      rw [← hbytes]
      constructor
      · intro hfive
        have hlength := Ram.read_length ram address 1
        rcases List.length_eq_one_iff.mp hlength with ⟨byte, hbyte⟩
        rw [hbyte] at hbytes
        rcases Text.bytesOf_eq_singleton hbytes with ⟨c, hs, hc⟩
        rw [hs] at hflag
        have hdigit := digit_of_numeral (by lia) (hflag.trans hfive)
        have hcode : c.toNat = '5'.toNat := Text.toDigit_code hdigit
        rw [hs, Char.toNat_inj.mp hcode]
      · intro hfive
        have hs : s = "5" := by
          have hdecode := Text.fromUtf8_bytesOf s
          rw [hfive, Text.fromUtf8_bytesOf] at hdecode
          exact (Option.some.inj hdecode).symm
        rw [← hflag, hs]
        decide

theorem triples_inj {a b c x y z : Nat}
    (h : triple a ++ triple b ++ triple c = triple x ++ triple y ++ triple z) :
    triple a = triple x ∧ triple b = triple y ∧ triple c = triple z := by
  have hchars := congrArg String.toList h
  simp only [String.toList_append, List.append_assoc] at hchars
  have hlength : forall p q, (triple p).toList.length = (triple q).toList.length := by
    intro p q
    rw [triple_length, triple_length]
  rcases List.append_inj hchars (hlength a x) with ⟨hfirst, hrest⟩
  rcases List.append_inj hrest (hlength b y) with ⟨hsecond, hthird⟩
  exact ⟨String.toList_inj.mp hfirst, String.toList_inj.mp hsecond,
    String.toList_inj.mp hthird⟩

theorem triples_iff {m n : Nat} (h : m < 512) :
    triple (m / 64) ++ triple (m / 8 % 8) ++ triple (m % 8) =
      triple (n >>> 6) ++ triple (n >>> 3) ++ triple n <-> m = n % 512 := by
  have howner : triple (n >>> 6) = triple (n / 64 % 8) := by
    rw [triple_mod, Nat.shiftRight_eq_div_pow]
  have hgroup : triple (n >>> 3) = triple (n / 8 % 8) := by
    rw [triple_mod, Nat.shiftRight_eq_div_pow]
  rw [howner, hgroup, triple_mod n]
  constructor
  · intro htriples
    rcases triples_inj htriples with ⟨hfirst, hsecond, hthird⟩
    have ha := triple_injective _ (by lia) _ (by lia) hfirst
    have hb := triple_injective _ (by lia) _ (by lia) hsecond
    have hc := triple_injective _ (by lia) _ (by lia) hthird
    lia
  · intro hm
    have ha : m / 64 = n / 64 % 8 := by lia
    have hb : m / 8 % 8 = n / 8 % 8 := by lia
    have hc : m % 8 = n % 8 := by lia
    rw [ha, hb, hc]

def modeBytes (mode : Nat) : List UInt8 :=
  Text.bytesOf (Text.numeral 8 7 mode) ++ [0]

theorem modeField_fits : 7 <= 8 := by
  lia

def modeField (mode : Nat) : Text.Field :=
  Ustar.octalField 8 7 mode modeField_fits

theorem modeField_encode (mode : Nat) : (modeField mode).encode = modeBytes mode := by
  show Text.padded 8 (Text.numeral 8 7 mode) = modeBytes mode
  unfold Text.padded modeBytes
  rw [Text.numeral_length (by lia) (by lia)]
  rfl

theorem parseInteger_modeBytes {ram : Ram} {address mode : Nat}
    (h : ram.read address 8 = modeBytes mode) (hmode : mode < 8 ^ 7) :
    parseInteger ram address 8 = .ok (Text.rebased 8 10 mode) := by
  have hslice : parseSlice ram address 8 = .ok (Text.numeral 8 7 mode) :=
    parseSlice_field (modeField mode) (h.trans (modeField_encode mode).symm)
  have hbits : Text.rebased 8 10 mode < 2 ^ 32 := by
    have hlt : Text.rebased 8 10 mode < 10 ^ 7 := Text.rebased_lt (by lia) (by lia) hmode
    lia
  have hvalue := Text.fromStrRadix_rebased (by lia) (show 8 <= 10 by lia) (by lia) hmode hbits
  rw [parseInteger_eq, hslice, Outcome.ok_bind, hvalue]
  rfl

theorem text_iff (first middle middle' last : String) :
    first ++ middle ++ last = first ++ middle' ++ last <-> middle = middle' := by
  simp only [← String.toList_inj, String.toList_append, List.append_assoc,
    List.append_cancel_left_eq, List.append_cancel_right_eq]

/-- A file is listed with the letters of its mode if and only if its mode has three digits or
more, of which the first three are the last three. -/
theorem fmt_iff {ram : Ram} {address mode : Nat} {header : Header}
    (hheader : parseHeader ram address = .ok header)
    (hbytes : ram.read (wrappingAdd address 100) 8 = modeBytes mode) (hmode : mode < 8 ^ 7)
    (data : List UInt8) (date : Nat -> String) :
    fmt (fun mtime => .ok (date mtime)) { header := header, data := data } =
        .ok (listing (ram.read (wrappingAdd address 156) 1) mode header (date header.mtime)) <->
      64 <= mode % 512 ∧ exists k, mode / 8 ^ k = mode % 512 := by
  rcases parseHeader_fields hheader with ⟨hmodeField, hflagField, _⟩
  rw [parseInteger_modeBytes hbytes hmode] at hmodeField
  have hdigits : Nat.toDigits 10 header.mode = Nat.toDigits 8 mode := by
    rw [← Except.ok.inj hmodeField]
    exact Text.toDigits_rebased (by lia) (by lia)
  have hflag := flag_iff hflagField
  by_cases hshort : mode < 64
  · rcases toDigits_short hshort with ⟨values, hvalues, hlt, hlength⟩
    rw [fmt_short _ (hdigits.trans hvalues) hlt hlength]
    constructor
    · intro h
      cases h
    · intro h
      lia
  · rcases exists_head (Nat.le_of_not_lt hshort) with ⟨k, hlow, hhigh⟩
    rcases digits_values (show 0 < 8 by lia) k mode with ⟨values, hvalues, hlt⟩
    have hsplit : Nat.toDigits 8 mode = (mode / 8 ^ k / 64 :: mode / 8 ^ k / 8 % 8 ::
        mode / 8 ^ k % 8 :: values).map Nat.digitChar := by
      rw [Text.toDigits_split (by lia) (show 0 < mode / 8 ^ k by lia), hvalues,
        toDigits_three hlow hhigh]
      rfl
    rw [@fmt_three _ _ (date header.mtime) _ _ _ _ rfl (hdigits.trans hsplit) (by
      intro d hd
      simp only [List.mem_cons] at hd
      rcases hd with hd | hd | hd | hd
      · lia
      · lia
      · lia
      · exact hlt d hd)]
    have hhead : mode / 8 ^ k = mode % 512 <->
        64 <= mode % 512 ∧ exists l, mode / 8 ^ l = mode % 512 := by
      constructor
      · intro h
        exact ⟨by lia, k, h⟩
      · intro h
        rcases h with ⟨hge, l, hl⟩
        rw [← hl]
        exact head_unique hlow hhigh (by lia) (by lia)
    have htype : (if header.flag = 5 then "d" else "-") =
        if ram.read (wrappingAdd address 156) 1 = Text.bytesOf "5" then "d" else "-" := by
      simp only [hflag]
    rw [← hhead, ← triples_iff hhigh, Except.ok.injEq, htype]
    have hcancel := text_iff
      (if ram.read (wrappingAdd address 156) 1 = Text.bytesOf "5" then "d" else "-")
      (triple (mode / 8 ^ k / 64) ++ triple (mode / 8 ^ k / 8 % 8) ++ triple (mode / 8 ^ k % 8))
      (triple (mode >>> 6) ++ triple (mode >>> 3) ++ triple mode)
      (" " ++ header.username ++ "/" ++ header.group ++ " " ++ toString header.size ++ " " ++
        date header.mtime ++ " " ++ header.name)
    unfold listing permissionText
    simp only [String.append_assoc] at hcancel ⊢
    exact hcancel

theorem rebased_ge_iff {mode : Nat} : 100 <= Text.rebased 8 10 mode <-> 64 <= mode := by
  have hdecimal := Nat.length_toDigits_le_iff (n := Text.rebased 8 10 mode)
    (show 1 < 10 by lia) Nat.two_pos
  have hoctal := Nat.length_toDigits_le_iff (n := mode) (show 1 < 8 by lia) Nat.two_pos
  rw [Text.toDigits_rebased (by lia) (by lia), hoctal] at hdecimal
  lia

theorem headerOf_mode (entry : Ustar.Entry) :
    (headerOf entry).mode = Text.rebased 8 10 entry.mode.val := by
  have hlt := entry.mode.isLt
  have hbits : Text.rebased 8 10 entry.mode.val < 2 ^ 32 := by
    have hbound : Text.rebased 8 10 entry.mode.val < 10 ^ 7 :=
      Text.rebased_lt (by lia) (by lia) hlt
    lia
  unfold headerOf
  rw [Text.fromStrRadix_rebased (by lia) (show 8 <= 10 by lia) (by lia) hlt hbits,
    Option.getD_some]

/-- The walk lists the entry: its mode has at least three digits, and its timestamp is converted. -/
def Listed (profile : Profile) (entry : Ustar.Entry) : Prop :=
  64 <= entry.mode.val ∧ Converts profile entry.mtime.val

theorem display_entry_iff {profile : Profile} {entry : Ustar.Entry} :
    (exists line, display profile (fileOf entry) = .ok line) <-> Listed profile entry := by
  have hmode : (fileOf entry).header.mode = Text.rebased 8 10 entry.mode.val :=
    headerOf_mode entry
  have hmtime : (fileOf entry).header.mtime < 2 ^ 32 := entry.mtime.isLt
  rw [display_ok_iff hmtime, hmode, rebased_ge_iff]
  rfl

def line (profile : Profile) (file : File) : String :=
  match display profile file with
  | .ok line => line
  | .error _ => ""

theorem display_of_listed {profile : Profile} {entry : Ustar.Entry}
    (h : Listed profile entry) :
    display profile (fileOf entry) = .ok (line profile (fileOf entry)) := by
  rcases display_entry_iff.mpr h with ⟨text, htext⟩
  unfold line
  rw [htext]

theorem exists_first : exists date : Date, date.toSeconds = 0 ∧ Undisturbed date := by
  let date : Date :=
    { year := unixEpochYear, month := 1, day := 1, hour := 0, minute := 0, second := 0
      year_ge := Nat.le_refl _
      month_pos := Nat.le_refl 1
      month_le := by lia
      day_pos := Nat.le_refl 1
      day_le := by simp [Calendar.monthLengths]
      hour_lt := by lia
      minute_lt := by lia
      second_lt := by lia }
  have hdays : Calendar.daysBefore unixEpochYear date.year = 0 := Calendar.daysBefore_self _
  have hrest : date.secondOfYear = 0 := rfl
  have hzero : date.toSeconds = 0 := by
    unfold Calendar.Date.toSeconds
    rw [hdays, hrest, Nat.mul_zero]
  refine ⟨date, hzero, ?_⟩
  constructor
  · exact fun _ => rfl
  · exact fun hlater => absurd hlater (Nat.lt_irrefl _)
  · exact fun hlater => absurd (Nat.lt_of_succ_lt hlater) (Nat.lt_irrefl _)
  · exact fun hlater => absurd (Nat.lt_of_succ_lt hlater) (Nat.lt_irrefl _)

theorem converts_zero (profile : Profile) : Converts profile 0 := by
  rcases exists_first with ⟨date, hzero, hundisturbed⟩
  cases profile with
  | dev => exact ⟨date, hzero, hundisturbed⟩
  | release =>
      have hsettles := Settles.undisturbed hundisturbed
      rw [hzero] at hsettles
      exact hsettles

/-!
# Modes that are not listed
-/

def plain (mode : Fin (8 ^ 7)) : Ustar.Entry where
  name := ⟨"etc/hostname", by decide, by decide⟩
  nonempty := by decide
  namePrefix := noPrefix
  mode := mode
  userId := rootId
  groupId := rootId
  mtime := epoch
  content := .regular [] (by decide)
  username := rootName
  group := rootName

def plainRam (mode : Fin (8 ^ 7)) : Ram :=
  Ram.load 4096 (Ustar.header (plain mode))

theorem plain_header (mode : Fin (8 ^ 7)) :
    parseHeader (plainRam mode) 4096 = .ok (headerOf (plain mode)) :=
  parseHeader_entry (Ram.load_holds 4096 _) (by simp [blockSize])

theorem plain_mode (mode : Fin (8 ^ 7)) :
    (plainRam mode).read (wrappingAdd 4096 100) 8 = modeBytes mode.val := by
  have hholds : (plainRam mode).Holds 4096
      (Text.Field.encodeAll (Ustar.headerFields (plain mode))) := Ram.load_holds 4096 _
  have hfield : (Ustar.headerFields (plain mode))[1]? = some (modeField mode.val) := rfl
  have hread := Text.Field.read_encodeAll hholds hfield
  rw [modeField_encode] at hread
  exact hread

theorem fmt_iff_sample :
    fmt (fun mtime => .ok (toString mtime)) { header := headerOf (plain 0o644), data := [] } =
        .ok (listing ((plainRam 0o644).read (wrappingAdd 4096 156) 1) 0o644
          (headerOf (plain 0o644)) (toString 0)) <->
      64 <= 0o644 % 512 ∧ exists k, 0o644 / 8 ^ k = 0o644 % 512 :=
  fmt_iff (plain_header 0o644) (plain_mode 0o644) (by lia) [] toString

/-- A mode of two digits stops the listing, and the sticky bit shifts the letters. -/
theorem modes_not_listed :
    (parseHeader (plainRam 0o44) 4096 = .ok (headerOf (plain 0o44)) ∧
      (plainRam 0o44).read (wrappingAdd 4096 100) 8 = modeBytes 0o44 ∧
      fmt (fun _ => .ok "now") { header := headerOf (plain 0o44), data := [] } =
        .error .indexOutOfBounds) ∧
    (parseHeader (plainRam 0o1755) 4096 = .ok (headerOf (plain 0o1755)) ∧
      (plainRam 0o1755).read (wrappingAdd 4096 100) 8 = modeBytes 0o1755 ∧
      fmt (fun _ => .ok "now") { header := headerOf (plain 0o1755), data := [] } =
        .ok "---xrwxr-x root/root 0 now etc/hostname" ∧
      listing ((plainRam 0o1755).read (wrappingAdd 4096 156) 1) 0o1755
          (headerOf (plain 0o1755)) "now" =
        "-rwxr-xr-x root/root 0 now etc/hostname") := by
  refine ⟨⟨plain_header _, plain_mode _, ?_⟩, ⟨plain_header _, plain_mode _, ?_, ?_⟩⟩
  · decide +kernel
  · decide +kernel
  · decide +kernel

end File

end Initrd

end NeurOS
