import NeurOS.Foundation.Text

/-!
# Words

The words of a text stand between its gaps of white space, and a text that is cut
short has no more of them.  Bytes that start with those of a text decode, if at all,
to that text and what follows it.
-/

namespace Foundation

namespace Text

/-!
# Words and gaps
-/

def words (chars : List Char) : List (List Char) :=
  (chars.splitOnP isWhitespace).filter fun part => part ≠ []

theorem splitWhitespace_eq_words (s : String) :
    splitWhitespace s = (words s.toList).map String.ofList := rfl

structure Word (chars : List Char) : Prop where
  nonempty : chars ≠ []
  solid : forall c, c ∈ chars -> isWhitespace c = false

structure Gap (chars : List Char) : Prop where
  nonempty : chars ≠ []
  blank : forall c, c ∈ chars -> isWhitespace c = true

@[simp] theorem words_nil : words [] = [] := rfl

theorem words_word {word : List Char} (h : Word word) : words word = [word] := by
  unfold words
  rw [List.splitOnP_eq_singleton h.solid, List.filter_cons_of_pos (by simpa using h.nonempty)]
  rfl

theorem words_append_cons (chars rest : List Char) {c : Char} (h : isWhitespace c = true) :
    words (chars ++ c :: rest) = words chars ++ words rest := by
  unfold words
  rw [List.splitOnP_append_cons chars rest h, List.filter_append]

theorem words_cons_blank {c : Char} (h : isWhitespace c = true) (rest : List Char) :
    words (c :: rest) = words rest :=
  words_append_cons [] rest h

theorem words_blanks {blanks : List Char} (h : forall c, c ∈ blanks -> isWhitespace c = true)
    (rest : List Char) : words (blanks ++ rest) = words rest := by
  induction blanks with
  | nil => rfl
  | cons c blanks ih =>
      rw [List.cons_append, words_cons_blank (h c List.mem_cons_self)]
      exact ih fun d hd => h d (List.mem_cons_of_mem c hd)

theorem words_gap_append (chars : List Char) {gap : List Char} (h : Gap gap)
    (rest : List Char) : words (chars ++ gap ++ rest) = words chars ++ words rest := by
  cases gap with
  | nil => exact absurd rfl h.nonempty
  | cons c blanks =>
      rw [List.append_assoc, List.cons_append,
        words_append_cons _ _ (h.blank c List.mem_cons_self),
        words_blanks fun d hd => h.blank d (List.mem_cons_of_mem c hd)]

theorem words_gap (chars : List Char) {gap : List Char} (h : Gap gap) :
    words (chars ++ gap) = words chars := by
  have hwords := words_gap_append chars h []
  rw [List.append_nil, words_nil, List.append_nil] at hwords
  exact hwords

theorem words_cons_cons {c d : Char} (hc : isWhitespace c = false)
    (hd : isWhitespace d = false) (rest : List Char) :
    words (c :: d :: rest) = (words (d :: rest)).modifyHead (c :: ·) := by
  rcases List.exists_cons_of_ne_nil (List.splitOnP_ne_nil isWhitespace rest) with
    ⟨first, others, hparts⟩
  unfold words
  simp [List.splitOnP_cons_eq_if_modifyHead, hc, hd, hparts]

theorem words_head {c : Char} (h : isWhitespace c = false) (rest : List Char) :
    exists word others, words (c :: rest) = (c :: word) :: others := by
  rcases List.exists_cons_of_ne_nil (List.splitOnP_ne_nil isWhitespace rest) with
    ⟨first, others, hparts⟩
  refine ⟨first, others.filter fun part => part ≠ [], ?_⟩
  unfold words
  simp [List.splitOnP_cons_eq_if_modifyHead, h, hparts]

theorem words_length_append (chars rest : List Char) :
    (words chars).length <= (words (chars ++ rest)).length := by
  induction chars with
  | nil => exact Nat.zero_le _
  | cons c tail ih =>
      rw [List.cons_append]
      cases hc : isWhitespace c with
      | true =>
          rw [words_cons_blank hc, words_cons_blank hc]
          exact ih
      | false =>
          cases tail with
          | nil =>
              rcases words_head hc rest with ⟨word, others, hwords⟩
              have hword : Word [c] := ⟨List.cons_ne_nil c [], by simpa using hc⟩
              rw [words_word hword, List.nil_append, hwords]
              exact Nat.le_add_left _ _
          | cons d tail =>
              rw [List.cons_append] at ih ⊢
              cases hd : isWhitespace d with
              | true =>
                  rw [words_cons_blank hd, words_cons_blank hd] at ih
                  have hfront : words ([c] ++ d :: tail) = _ := words_append_cons [c] tail hd
                  have hwhole : words ([c] ++ d :: (tail ++ rest)) = _ :=
                    words_append_cons [c] (tail ++ rest) hd
                  rw [List.singleton_append] at hfront hwhole
                  rw [hfront, hwhole, List.length_append, List.length_append]
                  lia
              | false =>
                  rw [words_cons_cons hc hd, words_cons_cons hc hd, List.length_modifyHead,
                    List.length_modifyHead]
                  exact ih

/-!
# Bytes that start with a text
-/

theorem bytesOf_injective : Function.Injective bytesOf := by
  intro s t h
  have hs := fromUtf8_bytesOf s
  rw [h, fromUtf8_bytesOf] at hs
  exact (Option.some.inj hs).symm

theorem exists_append_of_bytesOf {s first : String} {more : List UInt8}
    (h : bytesOf s = bytesOf first ++ more) :
    exists rest, s = first ++ rest ∧ bytesOf rest = more := by
  have harray : first.toByteArray ++ ⟨more.toArray⟩ = s.toByteArray := by
    apply ByteArray.ext
    rw [ByteArray.data_append]
    apply Array.toList_inj.mp
    rw [Array.toList_append]
    exact h.symm
  rw [← String.utf8Encode_toList, ← String.utf8Encode_toList] at harray
  rcases List.isPrefix_of_utf8Encode_append_eq_utf8Encode _ harray with ⟨chars, hchars⟩
  have hs : s = first ++ String.ofList chars := by
    rw [← String.toList_inj, ← hchars]
    simp
  refine ⟨String.ofList chars, hs, ?_⟩
  rw [hs, bytesOf_append] at h
  exact List.append_cancel_left h

def ascii (bytes : List UInt8) : String :=
  String.ofList (bytes.map Char.ofUInt8)

theorem bytesOf_of_ascii {bytes : List UInt8} (h : forall byte, byte ∈ bytes -> byte < 128) :
    bytesOf (ascii bytes) = bytes := by
  unfold ascii
  rw [bytesOf_ascii, String.toList_ofList, List.map_map]
  · conv_rhs => rw [← List.map_id bytes]
    apply List.map_congr_left
    intro byte _
    show byte.toNat.toUInt8 = byte
    simp
  · intro c hc
    rw [String.toList_ofList] at hc
    rcases List.mem_map.mp hc with ⟨byte, hbyte, rfl⟩
    exact h byte hbyte

/-!
# Cutting a list
-/

theorem cut_cases {front back lead behind : List α} {a : α}
    (h : front ++ back = lead ++ a :: behind) :
    (exists middle, lead = front ++ middle ∧ back = middle ++ a :: behind) ∨
      exists middle, front = lead ++ a :: middle ∧ behind = middle ++ back := by
  rcases List.append_eq_append_iff.mp h with ⟨middle, hlead, hback⟩ | ⟨middle, hfront, hcut⟩
  · exact Or.inl ⟨middle, hlead, hback⟩
  · cases middle with
    | nil =>
        left
        refine ⟨[], ?_, hcut.symm⟩
        rw [hfront, List.append_nil, List.append_nil]
    | cons b middle =>
        injection hcut with hhead htail
        right
        exact ⟨middle, by rw [hfront, hhead], htail⟩

theorem cut_behind {front back lead behind : List α} {a : α}
    (ha : a ∉ front) (h : front ++ back = lead ++ a :: behind) :
    exists middle, lead = front ++ middle ∧ back = middle ++ a :: behind := by
  rcases cut_cases h with hbehind | ⟨middle, hfront, _⟩
  · exact hbehind
  · rw [hfront] at ha
    exact absurd (List.mem_append_right lead List.mem_cons_self) ha

end Text

end Foundation
