import NeurOS.Foundation.Text

/-!
# Digit strings

The value of an arbitrary row of digits, and what the bounded accumulation of the
digits makes of it: the value when it fits the width, and nothing otherwise.
-/

namespace Foundation

namespace Text

def IsDigit (radix : Nat) (c : Char) : Prop :=
  '0' <= c ∧ c.toNat - '0'.toNat < radix

instance (radix : Nat) (c : Char) : Decidable (IsDigit radix c) :=
  inferInstanceAs (Decidable ('0' <= c ∧ c.toNat - '0'.toNat < radix))

def valueOf (radix : Nat) (chars : List Char) : Nat :=
  Nat.ofDigits radix (chars.reverse.map fun c => c.toNat - '0'.toNat)

theorem valueOf_nil (radix : Nat) : valueOf radix [] = 0 := rfl

theorem valueOf_cons (radix : Nat) (c : Char) (rest : List Char) :
    valueOf radix (c :: rest) =
      (c.toNat - '0'.toNat) * radix ^ rest.length + valueOf radix rest := by
  unfold valueOf
  rw [List.reverse_cons, List.map_append, Nat.ofDigits_append]
  simp only [List.map_cons, List.map_nil, Nat.ofDigits_singleton, List.length_map,
    List.length_reverse]
  lia

theorem valueOf_zeros (radix count : Nat) (chars : List Char) :
    valueOf radix (List.replicate count '0' ++ chars) = valueOf radix chars := by
  induction count with
  | zero => rfl
  | succ count ih =>
      rw [List.replicate_succ, List.cons_append, valueOf_cons, ih]
      simp

theorem toDigit_of_isDigit {radix : Nat} {c : Char} (h : IsDigit radix c) :
    toDigit radix c = some (c.toNat - '0'.toNat) :=
  if_pos h

theorem isDigit_of_toDigit {radix digit : Nat} {c : Char} (h : toDigit radix c = some digit) :
    IsDigit radix c := by
  unfold toDigit at h
  split at h
  · assumption
  · cases h

theorem accumulate_digits {bits radix value : Nat} {chars : List Char} (hradix : 0 < radix)
    (hdigits : forall c, c ∈ chars -> IsDigit radix c) (hvalue : value < 2 ^ bits) :
    accumulate bits radix value chars =
      if value * radix ^ chars.length + valueOf radix chars < 2 ^ bits then
        some (value * radix ^ chars.length + valueOf radix chars)
      else
        none := by
  induction chars generalizing value with
  | nil => simp [accumulate, valueOf_nil, hvalue]
  | cons c rest ih =>
      have hc : IsDigit radix c := hdigits c List.mem_cons_self
      have hrest : forall d, d ∈ rest -> IsDigit radix d := fun d hd =>
        hdigits d (List.mem_cons_of_mem c hd)
      have hsum : value * radix ^ (c :: rest).length + valueOf radix (c :: rest) =
          (value * radix + (c.toNat - '0'.toNat)) * radix ^ rest.length + valueOf radix rest := by
        rw [valueOf_cons, List.length_cons, Nat.pow_succ]
        ring
      rw [hsum, accumulate_cons, toDigit_of_isDigit hc]
      dsimp only
      by_cases hfit : value * radix + (c.toNat - '0'.toNat) < 2 ^ bits
      · rw [if_pos hfit, ih hrest hfit]
      · have hpower : 0 < radix ^ rest.length := Nat.pow_pos hradix
        have hgrows := Nat.le_mul_of_pos_right (value * radix + (c.toNat - '0'.toNat)) hpower
        rw [if_neg hfit, if_neg]
        lia

theorem isDigit_of_accumulate {bits radix value result : Nat} {chars : List Char}
    (h : accumulate bits radix value chars = some result) :
    forall c, c ∈ chars -> IsDigit radix c := by
  induction chars generalizing value with
  | nil => simp
  | cons c rest ih =>
      rw [accumulate_cons] at h
      cases hdigit : toDigit radix c with
      | none => simp [hdigit] at h
      | some digit =>
          rw [hdigit] at h
          dsimp only at h
          split at h
          · intro d hd
            rcases List.mem_cons.mp hd with hhead | htail
            · rw [hhead]
              exact isDigit_of_toDigit hdigit
            · exact ih h d htail
          · cases h

theorem not_isDigit_of_lt {radix : Nat} {c : Char} (h : c < '0') : ¬ IsDigit radix c :=
  fun hdigit => absurd hdigit.1 (Char.not_le.mpr h)

theorem fromStrRadix_digits {bits radix : Nat} {chars : List Char} (hradix : 0 < radix)
    (hdigits : forall c, c ∈ chars -> IsDigit radix c) :
    fromStrRadix bits radix (String.ofList chars) =
      if chars ≠ [] ∧ valueOf radix chars < 2 ^ bits then
        some (valueOf radix chars)
      else
        none := by
  cases chars with
  | nil => simp [fromStrRadix]
  | cons c rest =>
      have hc : IsDigit radix c := hdigits c List.mem_cons_self
      have hplus : c ≠ '+' := by
        intro heq
        rw [heq] at hc
        exact not_isDigit_of_lt (by simp) hc
      have hminus : c ≠ '-' := by
        intro heq
        rw [heq] at hc
        exact not_isDigit_of_lt (by simp) hc
      rw [fromStrRadix_unsigned String.toList_ofList hplus hminus,
        accumulate_digits hradix hdigits (Nat.pow_pos Nat.two_pos)]
      simp

theorem isDigit_of_fromStrRadix {bits radix result : Nat} {chars : List Char}
    (h : fromStrRadix bits radix (String.ofList chars) = some result) (hplus : '+' ∉ chars)
    (hminus : '-' ∉ chars) : forall c, c ∈ chars -> IsDigit radix c := by
  cases chars with
  | nil => simp
  | cons c rest =>
      have hc : c ≠ '+' ∧ c ≠ '-' := by
        constructor
        · rintro rfl
          exact hplus List.mem_cons_self
        · rintro rfl
          exact hminus List.mem_cons_self
      rw [fromStrRadix_unsigned String.toList_ofList hc.1 hc.2] at h
      exact isDigit_of_accumulate h

theorem accumulate_eq_some_iff {bits radix value : Nat} {chars : List Char}
    (hradix : 0 < radix) :
    accumulate bits radix 0 chars = some value <->
      (forall c, c ∈ chars -> IsDigit radix c) ∧ valueOf radix chars = value ∧
        value < 2 ^ bits := by
  constructor
  · intro h
    have hdigits := isDigit_of_accumulate h
    rw [accumulate_digits hradix hdigits (Nat.pow_pos Nat.two_pos), Nat.zero_mul,
      Nat.zero_add] at h
    by_cases hfits : valueOf radix chars < 2 ^ bits
    · rw [if_pos hfits] at h
      have hvalue := Option.some.inj h
      exact ⟨hdigits, hvalue, by rw [← hvalue]; exact hfits⟩
    · rw [if_neg hfits] at h
      cases h
  · rintro ⟨hdigits, rfl, hfits⟩
    rw [accumulate_digits hradix hdigits (Nat.pow_pos Nat.two_pos), Nat.zero_mul, Nat.zero_add,
      if_pos hfits]

/-- A row of digits behind an optional plus sign, with its value. -/
structure Spells (bits radix : Nat) (s : String) (value : Nat) : Prop where
  spelled : exists sign chars, s.toList = sign ++ chars ∧ (sign = [] ∨ sign = ['+']) ∧
    chars ≠ [] ∧ (forall c, c ∈ chars -> IsDigit radix c) ∧ valueOf radix chars = value
  fits : value < 2 ^ bits

theorem plus_not_digit (radix : Nat) : Not (IsDigit radix '+') :=
  not_isDigit_of_lt (by simp)

theorem fromStrRadix_eq_some_iff {bits radix value : Nat} {s : String} (hradix : 0 < radix) :
    fromStrRadix bits radix s = some value <-> Spells bits radix s value := by
  constructor
  · intro h
    unfold fromStrRadix at h
    split at h
    · cases h
    · cases h
    · cases h
    · next rest hnone hs =>
        rcases (accumulate_eq_some_iff hradix).mp h with ⟨hdigits, hvalue, hfits⟩
        exact ⟨⟨['+'], rest, hs, Or.inr rfl, hnone, hdigits, hvalue⟩, hfits⟩
    · next hnil _ _ _ =>
        rcases (accumulate_eq_some_iff hradix).mp h with ⟨hdigits, hvalue, hfits⟩
        exact ⟨⟨[], s.toList, rfl, Or.inl rfl, hnil, hdigits, hvalue⟩, hfits⟩
  · rintro ⟨⟨sign, chars, hs, hsign, hne, hdigits, hvalue⟩, hfits⟩
    have hread := (accumulate_eq_some_iff hradix).mpr ⟨hdigits, hvalue, hfits⟩
    cases chars with
    | nil => exact absurd rfl hne
    | cons c rest =>
        rcases hsign with rfl | rfl
        · have hc := hdigits c List.mem_cons_self
          have hplus : c ≠ '+' := fun heq => plus_not_digit radix (by rwa [heq] at hc)
          have hminus : c ≠ '-' := fun heq =>
            not_isDigit_of_lt (c := '-') (by simp) (by rwa [heq] at hc)
          rw [fromStrRadix_unsigned hs hplus hminus]
          exact hread
        · unfold fromStrRadix
          rw [hs]
          exact hread

theorem settled_of_spells {bits radix value : Nat} {s : String}
    (h : Spells bits radix s value) : Settled s := by
  rcases h.spelled with ⟨sign, chars, hs, hsign, _, hdigits, _⟩
  apply settled_of_not_mem
  rw [hs]
  intro hmem
  rcases List.mem_append.mp hmem with hsigned | hdigit
  · rcases hsign with rfl | rfl
    · cases hsigned
    · simp at hsigned
  · exact not_isDigit_of_lt (by simp) (hdigits _ hdigit)

def NumeralBytes (bits radix : Nat) (field : List UInt8) (value : Nat) : Prop :=
  exists s count, field = bytesOf s ++ List.replicate count 0 ∧ Spells bits radix s value

theorem trimmed_nulls (s : String) : exists count,
    s = trimEndMatches '\x00' s ++ nulls count := by
  have hsplit : s.toList.rdropWhile (fun d => d = '\x00') ++
      s.toList.rtakeWhile (fun d => d = '\x00') = s.toList := List.rdropWhile_append_rtakeWhile
  have hnulls := List.eq_replicate_of_mem (a := '\x00')
    (l := s.toList.rtakeWhile fun d => d = '\x00')
    (fun c hc => by simpa using List.mem_rtakeWhile_imp hc)
  refine ⟨(s.toList.rtakeWhile fun d => d = '\x00').length, ?_⟩
  unfold trimEndMatches nulls
  rw [← hnulls, ← String.ofList_append, hsplit, String.ofList_toList]

theorem fromStrRadix_field_iff {bits radix value : Nat} {field : List UInt8} {s : String}
    (hradix : 0 < radix) (h : fromUtf8 field = some s) :
    fromStrRadix bits radix (trimEndMatches '\x00' s) = some value <->
      NumeralBytes bits radix field value := by
  rw [fromStrRadix_eq_some_iff hradix]
  have hbytes := fromUtf8_eq_some_iff.mp h
  constructor
  · intro hspells
    rcases trimmed_nulls s with ⟨count, hs⟩
    refine ⟨trimEndMatches '\x00' s, count, ?_, hspells⟩
    rw [← hbytes, ← bytesOf_nulls, ← bytesOf_append, ← hs]
  · rintro ⟨t, count, hfield, hspells⟩
    rw [hfield, ← bytesOf_nulls, ← bytesOf_append, fromUtf8_bytesOf] at h
    rw [← Option.some.inj h, trimEndMatches_append_nulls (settled_of_spells hspells)]
    exact hspells

end Text

end Foundation
