import NeurOS.Foundation.Words
import NeurOS.Image.Raster

/-!
# Spellings of a header

The numbers of a header may stand behind any white space and behind lines of comments.
The decoder takes words for the extent and counts newlines for the place of the raster;
spellings of one image are decoded alike exactly when the two rules agree on them.
-/

namespace NeurOS

open Foundation

namespace Image

/-!
# White space and comments
-/

def IsBlank (byte : UInt8) : Prop :=
  byte = 32 ∨ 9 <= byte ∧ byte <= 13

theorem IsBlank.lt {byte : UInt8} (h : IsBlank byte) : byte < 128 := by
  unfold IsBlank at h
  grind

structure Blank where
  byte : UInt8
  blank : IsBlank byte

structure Comment where
  body : List UInt8
  ending : UInt8
  body_line : forall byte, byte ∈ body -> byte ≠ 10 ∧ byte ≠ 13
  ending_line : ending = 10 ∨ ending = 13

inductive Piece where
  | blank (character : Blank)
  | comment (line : Comment)

def Piece.bytes : Piece -> List UInt8
  | blank character => [character.byte]
  | comment line => 35 :: (line.body ++ [line.ending])

structure Separator where
  first : Blank
  others : List Piece

theorem isWhitespace_of_isBlank {byte : UInt8} (h : IsBlank byte) :
    Text.isWhitespace (Char.ofUInt8 byte) = true := by
  rcases h with rfl | ⟨hlow, hhigh⟩
  · rfl
  · have hcode : (Char.ofUInt8 byte).toNat = byte.toNat := rfl
    have hlow : 9 <= byte.toNat := UInt8.le_iff_toNat_le.mp hlow
    have hhigh : byte.toNat <= 13 := UInt8.le_iff_toNat_le.mp hhigh
    unfold Text.isWhitespace
    rw [hcode]
    simp [hlow, hhigh]

theorem exists_gap {bytes : List UInt8} (hsome : bytes ≠ [])
    (h : forall byte, byte ∈ bytes -> IsBlank byte) :
    exists gap, Text.bytesOf gap = bytes ∧ Text.Gap gap.toList := by
  refine ⟨Text.ascii bytes, ?_, ?_⟩
  · apply Text.bytesOf_of_ascii
    intro byte hbyte
    exact (h byte hbyte).lt
  · constructor
    · simpa [Text.ascii] using hsome
    · intro c hc
      unfold Text.ascii at hc
      rw [String.toList_ofList] at hc
      rcases List.mem_map.mp hc with ⟨byte, hbyte, rfl⟩
      exact isWhitespace_of_isBlank (h byte hbyte)

namespace Separator

def bytes (separator : Separator) : List UInt8 :=
  separator.first.byte :: separator.others.flatMap Piece.bytes

def Plain (separator : Separator) : Prop :=
  forall piece, piece ∈ separator.others -> exists character, piece = .blank character

theorem exists_gap_of_plain {separator : Separator} (h : separator.Plain) :
    exists gap, Text.bytesOf gap = separator.bytes ∧ Text.Gap gap.toList := by
  apply exists_gap
  · exact List.cons_ne_nil _ _
  · intro byte hbyte
    rcases List.mem_cons.mp hbyte with rfl | hothers
    · exact separator.first.blank
    · rcases List.mem_flatMap.mp hothers with ⟨piece, hpiece, hmem⟩
      rcases h piece hpiece with ⟨character, rfl⟩
      rw [List.mem_singleton.mp hmem]
      exact character.blank

theorem pieces_of_not_plain {pieces : List Piece}
    (h : Not (forall piece, piece ∈ pieces -> exists character, piece = .blank character)) :
    exists blanks more, pieces.flatMap Piece.bytes = blanks ++ 35 :: more ∧
      forall byte, byte ∈ blanks -> IsBlank byte := by
  induction pieces with
  | nil => simp at h
  | cons piece pieces ih =>
      rw [List.flatMap_cons]
      cases piece with
      | blank character =>
          have hrest : Not (forall piece, piece ∈ pieces ->
              exists character, piece = .blank character) := by
            intro hall
            apply h
            rw [List.forall_mem_cons]
            exact ⟨⟨character, rfl⟩, hall⟩
          rcases ih hrest with ⟨blanks, more, hpieces, hblanks⟩
          refine ⟨character.byte :: blanks, more, ?_, ?_⟩
          · rw [hpieces]
            rfl
          · rw [List.forall_mem_cons]
            exact ⟨character.blank, hblanks⟩
      | comment line => exact ⟨[], _, rfl, fun byte hbyte => nomatch hbyte⟩

theorem exists_comment_of_not_plain {separator : Separator} (h : Not separator.Plain) :
    exists gap more, separator.bytes = Text.bytesOf gap ++ 35 :: more ∧
      Text.Gap gap.toList := by
  rcases pieces_of_not_plain h with ⟨blanks, more, hpieces, hblanks⟩
  have hall : forall byte, byte ∈ separator.first.byte :: blanks -> IsBlank byte := by
    rw [List.forall_mem_cons]
    exact ⟨separator.first.blank, hblanks⟩
  rcases exists_gap (List.cons_ne_nil _ _) hall with ⟨gap, hgap, hwhite⟩
  refine ⟨gap, more, ?_, hwhite⟩
  rw [hgap, bytes, hpieces]
  rfl

end Separator

/-!
# Headers
-/

/-- How the words of a header are separated, and what ends it. -/
structure Spelling where
  beforeWidth : Separator
  beforeHeight : Separator
  beforeMaxval : Separator
  ending : Blank

namespace Spelling

def tail (spelling : Spelling) : List UInt8 :=
  spelling.beforeMaxval.bytes ++ Text.bytesOf "255" ++ [spelling.ending.byte]

def header (spelling : Spelling) (kind : Graphic) (extent : Extent) : List UInt8 :=
  Text.bytesOf kind.magic ++ spelling.beforeWidth.bytes ++
    Text.bytesOf (toString extent.width) ++ spelling.beforeHeight.bytes ++
    Text.bytesOf (toString extent.height) ++ spelling.tail

def file (spelling : Spelling) (kind : Graphic) (extent : Extent) (raster : List UInt8) :
    List UInt8 :=
  spelling.header kind extent ++ raster

/-- No comment stands before the height, and the third newline of the header stands behind
it, with only text before and the given bytes of the header behind. -/
structure Leaves (spelling : Spelling) (rest : List UInt8) : Prop where
  width : spelling.beforeWidth.Plain
  height : spelling.beforeHeight.Plain
  line : exists between, spelling.tail = Text.bytesOf between ++ 10 :: rest ∧
    spelling.beforeWidth.bytes.count 10 + spelling.beforeHeight.bytes.count 10 +
      (Text.bytesOf between).count 10 = 2

end Spelling

/-!
# The words of the header
-/

theorem parseNumber_eq_ok_iff {field : String} {n : Nat} :
    parseNumber field = .ok n <-> Text.fromStrRadix 64 10 field = some n := by
  unfold parseNumber
  cases Text.fromStrRadix 64 10 field with
  | none => simp
  | some value => simp

theorem words_of_parseHeader {text : String} {header : Header}
    (h : parseHeader text = .ok header) :
    exists first second third more, Text.words text.toList = first :: second :: third :: more ∧
      Text.fromStrRadix 64 10 (String.ofList second) = some header.width ∧
      Text.fromStrRadix 64 10 (String.ofList third) = some header.height := by
  unfold parseHeader at h
  rw [Text.splitWhitespace_eq_words] at h
  rcases Outcome.bind_eq_ok_iff.mp h with ⟨second, hsecond, h⟩
  rcases Outcome.bind_eq_ok_iff.mp h with ⟨width, hwidth, h⟩
  rcases Outcome.bind_eq_ok_iff.mp h with ⟨third, hthird, h⟩
  rcases Outcome.bind_eq_ok_iff.mp h with ⟨height, hheight, h⟩
  injection h with h
  subst h
  rw [parseNumber_eq_ok_iff] at hwidth hheight
  rw [Outcome.unwrap_eq_ok_iff] at hsecond hthird
  rw [List.getElem?_map, Option.map_eq_some_iff] at hsecond hthird
  rcases hsecond with ⟨second, hsecond, rfl⟩
  rcases hthird with ⟨third, hthird, rfl⟩
  cases hwords : Text.words text.toList with
  | nil =>
      rw [hwords] at hthird
      cases hthird
  | cons first others =>
      rw [hwords, List.getElem?_cons_succ] at hsecond hthird
      cases others with
      | nil => cases hsecond
      | cons word others =>
          cases others with
          | nil => cases hthird
          | cons word' more =>
              injection hsecond with hsecond
              injection hthird with hthird
              subst hsecond hthird
              exact ⟨first, word, word', more, rfl, hwidth, hheight⟩

theorem fromStrRadix_comment (bits : Nat) (chars : List Char) :
    Text.fromStrRadix bits 10 (String.ofList ('#' :: chars)) = none := by
  rw [Text.fromStrRadix_unsigned String.toList_ofList (by simp) (by simp)]
  rfl

theorem parseHeader_words {text : String} {extent : Extent} {magic : List Char}
    {more : List (List Char)}
    (h : Text.words text.toList = magic :: (toString extent.width).toList ::
      (toString extent.height).toList :: more) :
    parseHeader text =
      .ok { width := extent.width, height := extent.height, x := 0, y := 0 } := by
  have hwords : Text.splitWhitespace text = String.ofList magic :: toString extent.width ::
      toString extent.height :: more.map String.ofList := by
    rw [Text.splitWhitespace_eq_words, h, List.map_cons, List.map_cons, List.map_cons,
      String.ofList_toList, String.ofList_toList]
  exact parseHeader_fields hwords

theorem behind_front {text front : String} {back behind : List UInt8} {header : Header}
    (hcut : Text.bytesOf front ++ back = Text.bytesOf text ++ 10 :: behind)
    (hheader : parseHeader text = .ok header) (hfew : (Text.words front.toList).length <= 2) :
    exists rest, text = front ++ rest ∧ back = Text.bytesOf rest ++ 10 :: behind := by
  rcases Text.cut_cases hcut with ⟨middle, htext, hback⟩ | ⟨middle, hfront, _⟩
  · rcases Text.exists_append_of_bytesOf htext with ⟨rest, hrest, hmiddle⟩
    rw [← hmiddle] at hback
    exact ⟨rest, hrest, hback⟩
  · rcases Text.exists_append_of_bytesOf hfront with ⟨rest, rfl, _⟩
    rcases words_of_parseHeader hheader with ⟨first, second, third, more, hwords, _, _⟩
    have hlength := Text.words_length_append text.toList rest.toList
    rw [← String.toList_append, hwords] at hlength
    simp only [List.length_cons] at hlength
    lia

theorem starts_with_comment {rest : String} {more behind : List UInt8}
    (h : 35 :: more = Text.bytesOf rest ++ 10 :: behind) :
    exists others, Text.bytesOf rest = 35 :: others := by
  cases hbytes : Text.bytesOf rest with
  | nil =>
      rw [hbytes] at h
      injection h with hhead
      cases hhead
  | cons byte others =>
      rw [hbytes, List.cons_append] at h
      injection h with hhead
      rw [← hhead]
      exact ⟨others, rfl⟩

theorem words_comment (front : String) {gap rest : String} (hgap : Text.Gap gap.toList)
    {others : List UInt8} (h : Text.bytesOf rest = 35 :: others) :
    exists word more, Text.words (front ++ gap ++ rest).toList =
      Text.words front.toList ++ ('#' :: word) :: more := by
  have hsharp : Text.bytesOf rest = Text.bytesOf "#" ++ others := h
  rcases Text.exists_append_of_bytesOf hsharp with ⟨last, rfl, _⟩
  have hplain : Text.isWhitespace '#' = false := rfl
  rcases Text.words_head hplain last.toList with ⟨word, more, hword⟩
  refine ⟨word, more, ?_⟩
  rw [String.toList_append, String.toList_append, String.toList_append,
    Text.words_gap_append _ hgap, ← hword]
  rfl

theorem not_behind_comment {text front gap : String} {more behind : List UInt8} {header : Header}
    (hcut : Text.bytesOf (front ++ gap) ++ 35 :: more = Text.bytesOf text ++ 10 :: behind)
    (hgap : Text.Gap gap.toList)
    (hcount : (Text.words front.toList).length = 1 ∨ (Text.words front.toList).length = 2) :
    parseHeader text ≠ .ok header := by
  intro hheader
  have hfront : Text.words (front ++ gap).toList = Text.words front.toList := by
    rw [String.toList_append, Text.words_gap _ hgap]
  rcases behind_front hcut hheader (by rw [hfront]; lia) with ⟨rest, rfl, hrest⟩
  rcases starts_with_comment hrest with ⟨others, hothers⟩
  rcases words_comment front hgap hothers with ⟨word, tail, hwords⟩
  rcases words_of_parseHeader hheader with
    ⟨first, second, third, more, hparsed, hsecond, hthird⟩
  rw [hparsed] at hwords
  rcases hcount with hone | htwo
  · rcases List.length_eq_one_iff.mp hone with ⟨a, ha⟩
    rw [ha] at hwords
    injection hwords with _ hwords
    injection hwords with hcomment _
    rw [hcomment, fromStrRadix_comment] at hsecond
    cases hsecond
  · rcases List.length_eq_two.mp htwo with ⟨a, b, hab⟩
    rw [hab] at hwords
    injection hwords with _ hwords
    injection hwords with _ hwords
    injection hwords with hcomment _
    rw [hcomment, fromStrRadix_comment] at hthird
    cases hthird

namespace Graphic

theorem words_magic (kind : Graphic) :
    Text.words kind.magic.toList = [kind.magic.toList] := by
  apply Text.words_word
  cases kind with
  | pgm => constructor <;> simp [magic, Text.isWhitespace]
  | ppm => constructor <;> simp [magic, Text.isWhitespace]

def front (kind : Graphic) (gap : String) (width : Nat) : String :=
  kind.magic ++ gap ++ toString width

theorem words_front (kind : Graphic) {gap : String} (hgap : Text.Gap gap.toList) (width : Nat) :
    Text.words (kind.front gap width).toList =
      [kind.magic.toList, (toString width).toList] := by
  have hwidth : Text.Word (toString width).toList :=
    ⟨Text.toString_ne_nil width, fun c => Text.toString_not_whitespace⟩
  unfold front
  rw [String.toList_append, String.toList_append, Text.words_gap_append _ hgap, words_magic,
    Text.words_word hwidth]
  rfl

end Graphic

theorem words_between {between : String} {blank : UInt8} {more behind : List UInt8}
    (hblank : IsBlank blank) (hcut : blank :: more = Text.bytesOf between ++ 10 :: behind)
    (n : Nat) : exists others,
      Text.words ((toString n).toList ++ between.toList) = (toString n).toList :: others := by
  have hnumber : Text.Word (toString n).toList :=
    ⟨Text.toString_ne_nil n, fun c => Text.toString_not_whitespace⟩
  cases hbytes : Text.bytesOf between with
  | nil =>
      have hempty : between = "" := Text.bytesOf_injective hbytes
      refine ⟨[], ?_⟩
      rw [hempty, String.toList_empty, List.append_nil, Text.words_word hnumber]
  | cons byte others =>
      rw [hbytes, List.cons_append] at hcut
      injection hcut with hhead
      have hfirst : Text.bytesOf between = Text.bytesOf (Text.ascii [blank]) ++ others := by
        rw [hbytes, ← hhead, Text.bytesOf_of_ascii]
        · rfl
        · intro byte hbyte
          rw [List.mem_singleton.mp hbyte]
          exact hblank.lt
      rcases Text.exists_append_of_bytesOf hfirst with ⟨rest, rfl, _⟩
      refine ⟨Text.words rest.toList, ?_⟩
      rw [String.toList_append, Text.ascii, String.toList_ofList]
      have hsplit := Text.words_append_cons (toString n).toList rest.toList
        (isWhitespace_of_isBlank hblank)
      rw [Text.words_word hnumber] at hsplit
      exact hsplit

/-!
# Reading a spelling
-/

namespace Spelling

section Reading

variable {spelling : Spelling} {kind : Graphic} {extent : Extent} {raster : List UInt8}

theorem parseHeader_spelling {gap gap' between : String} {more behind : List UInt8}
    (hgap : Text.Gap gap.toList) (hgap' : Text.Gap gap'.toList)
    (hcut : spelling.tail ++ more = Text.bytesOf between ++ 10 :: behind) :
    parseHeader (kind.front gap extent.width ++ gap' ++ toString extent.height ++ between) =
      .ok { width := extent.width, height := extent.height, x := 0, y := 0 } := by
  rcases words_between spelling.beforeMaxval.first.blank hcut extent.height with
    ⟨others, hothers⟩
  have hwords : Text.words
      (kind.front gap extent.width ++ gap' ++ toString extent.height ++ between).toList =
      kind.magic.toList :: (toString extent.width).toList ::
        (toString extent.height).toList :: others := by
    rw [String.toList_append, String.toList_append, String.toList_append, List.append_assoc,
      Text.words_gap_append _ hgap', kind.words_front hgap, hothers]
    rfl
  exact parseHeader_words hwords

theorem plain_of_cut {text : String} {behind : List UInt8} {header : Header}
    (hcut : Graphic.Cut (spelling.file kind extent raster) text behind)
    (hheader : parseHeader text = .ok header) :
    spelling.beforeWidth.Plain ∧ spelling.beforeHeight.Plain := by
  have hfile := hcut.file_eq
  unfold file Spelling.header at hfile
  have hwidth : spelling.beforeWidth.Plain := by
    by_contra hplain
    rcases Separator.exists_comment_of_not_plain hplain with ⟨gap, more, hbytes, hgap⟩
    rw [hbytes, ← List.append_assoc, ← Text.bytesOf_append] at hfile
    simp only [List.append_assoc, List.cons_append] at hfile
    refine not_behind_comment hfile hgap (Or.inl ?_) hheader
    rw [kind.words_magic]
    rfl
  refine ⟨hwidth, ?_⟩
  by_contra hplain
  rcases Separator.exists_gap_of_plain hwidth with ⟨gap, hbytes, hgap⟩
  rcases Separator.exists_comment_of_not_plain hplain with ⟨gap', more, hbytes', hgap'⟩
  have hfront : Text.bytesOf kind.magic ++ spelling.beforeWidth.bytes ++
      Text.bytesOf (toString extent.width) = Text.bytesOf (kind.front gap extent.width) := by
    rw [← hbytes, Graphic.front, Text.bytesOf_append, Text.bytesOf_append]
  rw [hfront, hbytes', ← List.append_assoc, ← Text.bytesOf_append] at hfile
  simp only [List.append_assoc, List.cons_append] at hfile
  refine not_behind_comment hfile hgap' (Or.inr ?_) hheader
  rw [kind.words_front hgap]
  rfl

theorem file_eq {gap gap' : String} (hgap : Text.bytesOf gap = spelling.beforeWidth.bytes)
    (hgap' : Text.bytesOf gap' = spelling.beforeHeight.bytes) :
    spelling.file kind extent raster = Text.bytesOf (kind.front gap extent.width ++ gap') ++
      (Text.bytesOf (toString extent.height) ++ (spelling.tail ++ raster)) := by
  unfold file header Graphic.front
  rw [← hgap, ← hgap']
  simp only [Text.bytesOf_append, List.append_assoc]

theorem count_text {gap gap' between : String}
    (hgap : Text.bytesOf gap = spelling.beforeWidth.bytes)
    (hgap' : Text.bytesOf gap' = spelling.beforeHeight.bytes) :
    (Text.bytesOf
      (kind.front gap extent.width ++ gap' ++ toString extent.height ++ between)).count 10 =
      spelling.beforeWidth.bytes.count 10 + spelling.beforeHeight.bytes.count 10 +
        (Text.bytesOf between).count 10 := by
  have hmagic : (Text.bytesOf kind.magic).count 10 = 0 := by
    cases kind with
    | pgm => rfl
    | ppm => rfl
  unfold Graphic.front
  simp only [Text.bytesOf_append, List.count_append, hmagic, count_toString, hgap, hgap']
  lia

/-- A file is not cut in its raster, or bytes of the last pixel are missing. -/
theorem leaves_of_cut {profile : Profile} {text : String} {behind : List UInt8}
    {header : Header} {data : List (List Pixel)} (hraster : raster.length = kind.area extent)
    (hfits : kind.area extent < 2 ^ 64)
    (hcut : Graphic.Cut (spelling.file kind extent raster) text behind)
    (hheader : parseHeader text = .ok header)
    (hdata : decode profile kind.extension header behind = .ok data) :
    extent.Allocates ∧ exists rest, spelling.Leaves rest ∧
      ({ header, data } : Image) = kind.picture extent (rest ++ raster) := by
  rcases plain_of_cut hcut hheader with ⟨hwidth, hheight⟩
  rcases Separator.exists_gap_of_plain hwidth with ⟨gap, hbytes, hgap⟩
  rcases Separator.exists_gap_of_plain hheight with ⟨gap', hbytes', hgap'⟩
  have hfile := hcut.file_eq
  rw [file_eq hbytes hbytes'] at hfile
  have hfront : (Text.words (kind.front gap extent.width ++ gap').toList).length <= 2 := by
    rw [String.toList_append, Text.words_gap _ hgap', kind.words_front hgap]
    exact Nat.le_refl 2
  rcases behind_front hfile hheader hfront with ⟨rest, rfl, hrest⟩
  have hnumber : 10 ∉ Text.bytesOf (toString extent.height) :=
    List.count_eq_zero.mp (count_toString extent.height)
  rcases Text.cut_behind hnumber hrest with ⟨middle, hmiddle, htail⟩
  rcases Text.exists_append_of_bytesOf hmiddle with ⟨between, rfl, rfl⟩
  rw [← String.append_assoc] at hheader hcut
  rw [parseHeader_spelling hgap hgap' htail] at hheader
  injection hheader with hheader
  rw [← hheader, Graphic.decode_eq_ok_iff hfits] at hdata
  rcases Text.cut_cases htail with ⟨last, _, hlast⟩ | ⟨last, hlast, hbehind⟩
  · have hlength := hdata.2.1
    rw [hlast, List.length_append, List.length_cons] at hraster
    lia
  · have hlines := hcut.lines
    rw [count_text hbytes hbytes'] at hlines
    refine ⟨hdata.1, last, ⟨hwidth, hheight, between, hlast, hlines⟩, ?_⟩
    rw [← hheader, hdata.2.2, hbehind]
    rfl

theorem cut_of_leaves {rest : List UInt8} (h : spelling.Leaves rest) (kind : Graphic)
    (extent : Extent) (raster : List UInt8) :
    exists text, Graphic.Cut (spelling.file kind extent raster) text (rest ++ raster) ∧
      parseHeader text =
        .ok { width := extent.width, height := extent.height, x := 0, y := 0 } := by
  rcases Separator.exists_gap_of_plain h.width with ⟨gap, hbytes, hgap⟩
  rcases Separator.exists_gap_of_plain h.height with ⟨gap', hbytes', hgap'⟩
  rcases h.line with ⟨between, htail, hlines⟩
  refine ⟨kind.front gap extent.width ++ gap' ++ toString extent.height ++ between,
    ⟨?_, (count_text hbytes hbytes').trans hlines⟩, ?_⟩
  · rw [file_eq hbytes hbytes', htail]
    simp only [Text.bytesOf_append, List.append_assoc, List.cons_append]
  · rw [← List.append_nil spelling.tail] at htail
    exact parseHeader_spelling hgap hgap' htail

theorem new_spelling_iff {profile : Profile} {initrd : Initrd} {base : String} {image : Image}
    (hraster : raster.length = kind.area extent) (hfits : raster.length < 2 ^ 64)
    (hfile : initrd.getData (base ++ "." ++ kind.extension) =
      .ok (spelling.file kind extent raster)) :
    new profile initrd (base ++ "." ++ kind.extension) = .ok image <->
      extent.Allocates ∧
        exists rest, spelling.Leaves rest ∧ image = kind.picture extent (rest ++ raster) := by
  rw [hraster] at hfits
  rw [Graphic.new_eq_ok_iff hfile]
  constructor
  · rintro ⟨text, behind, header, data, hcut, hheader, hdata, rfl⟩
    exact leaves_of_cut hraster hfits hcut hheader hdata
  · rintro ⟨hallocates, rest, hleaves, rfl⟩
    rcases cut_of_leaves hleaves kind extent raster with ⟨text, hcut, hheader⟩
    have hlength : kind.area extent <= (rest ++ raster).length := by
      rw [List.length_append]
      lia
    exact ⟨text, rest ++ raster, _, _, hcut, hheader,
      (Graphic.decode_eq_ok_iff hfits).mpr ⟨hallocates, hlength, rfl⟩, rfl⟩

end Reading

/-!
# The common spelling
-/

def newline : Blank where
  byte := 10
  blank := Or.inr ⟨by simp, by simp⟩

def space : Blank where
  byte := 32
  blank := Or.inl rfl

def canonical : Spelling where
  beforeWidth := { first := newline, others := [] }
  beforeHeight := { first := space, others := [] }
  beforeMaxval := { first := newline, others := [] }
  ending := newline

theorem canonical_file (kind : Graphic) (extent : Extent) (raster : List UInt8) :
    canonical.file kind extent raster = canonicalFile (graphicHeader kind.magic extent) raster := by
  have hnewline : Text.bytesOf "\n" = [10] := rfl
  have hspace : Text.bytesOf " " = [32] := rfl
  have hend : Text.bytesOf "\n255" = 10 :: Text.bytesOf "255" := rfl
  simp [file, header, tail, canonical, newline, space, Separator.bytes, canonicalFile,
    graphicHeader, dimensions, Text.bytesOf_append, hnewline, hspace, hend]

/-- Two spellings of an image are decoded to the same image exactly when its vectors can be
allocated, neither has a comment before its height, the third newline of each stands behind
its height, and the bytes behind that newline, as many as the raster has, are the same. -/
theorem same_image_iff (profile : Profile) {kind : Graphic} {extent : Extent}
    {raster : List UInt8} (hraster : raster.length = kind.area extent)
    (hfits : raster.length < 2 ^ 64) {spelling spelling' : Spelling}
    {initrd initrd' : Initrd} {base base' : String}
    (hfile : initrd.getData (base ++ "." ++ kind.extension) =
      .ok (spelling.file kind extent raster))
    (hfile' : initrd'.getData (base' ++ "." ++ kind.extension) =
      .ok (spelling'.file kind extent raster)) :
    (exists image, new profile initrd (base ++ "." ++ kind.extension) = .ok image ∧
      new profile initrd' (base' ++ "." ++ kind.extension) = .ok image) <->
      extent.Allocates ∧ exists rest rest', spelling.Leaves rest ∧ spelling'.Leaves rest' ∧
        (rest ++ raster).take raster.length = (rest' ++ raster).take raster.length := by
  have hlength : forall rest : List UInt8, kind.area extent <= (rest ++ raster).length := by
    intro rest
    rw [List.length_append]
    lia
  constructor
  · rintro ⟨image, himage, himage'⟩
    rcases (new_spelling_iff hraster hfits hfile).mp himage with
      ⟨hallocates, rest, hleaves, rfl⟩
    rcases (new_spelling_iff hraster hfits hfile').mp himage' with ⟨_, rest', hleaves', hsame⟩
    refine ⟨hallocates, rest, rest', hleaves, hleaves', ?_⟩
    rw [hraster]
    exact (Graphic.picture_eq_iff (hlength rest) (hlength rest')).mp hsame
  · rintro ⟨hallocates, rest, rest', hleaves, hleaves', hsame⟩
    rw [hraster, ← Graphic.picture_eq_iff (hlength rest) (hlength rest')] at hsame
    refine ⟨kind.picture extent (rest ++ raster), ?_, ?_⟩
    · exact (new_spelling_iff hraster hfits hfile).mpr ⟨hallocates, rest, hleaves, rfl⟩
    · exact (new_spelling_iff hraster hfits hfile').mpr ⟨hallocates, rest', hleaves', hsame⟩

def spread : Spelling where
  beforeWidth := { first := newline, others := [.blank newline] }
  beforeHeight := { first := space, others := [.blank space] }
  beforeMaxval := { first := space, others := [] }
  ending := newline

theorem canonical_leaves : canonical.Leaves [] where
  width := by simp [canonical, Separator.Plain]
  height := by simp [canonical, Separator.Plain]
  line := ⟨"\n255", rfl, rfl⟩

theorem spread_leaves : spread.Leaves [] where
  width := by simp [spread, Separator.Plain]
  height := by simp [spread, Separator.Plain]
  line := ⟨" 255", rfl, rfl⟩

theorem same_image_iff_sample :
    exists image,
      new .dev (holding ("logo" ++ "." ++ Graphic.pgm.extension)
          (canonical.file .pgm point [65])) ("logo" ++ "." ++ Graphic.pgm.extension) =
        .ok image ∧
      new .dev (holding ("logo" ++ "." ++ Graphic.pgm.extension)
          (spread.file .pgm point [65])) ("logo" ++ "." ++ Graphic.pgm.extension) =
        .ok image :=
  (same_image_iff .dev rfl (by simp) (holding_getData _ _) (holding_getData _ _)).mpr
    ⟨point_allocates, [], [], canonical_leaves, spread_leaves, rfl⟩

def commented : Spelling where
  beforeWidth :=
    { first := newline
      others :=
        [.comment
          { body := [32, 98, 121]
            ending := 10
            body_line := by simp
            ending_line := Or.inl rfl }] }
  beforeHeight := { first := space, others := [] }
  beforeMaxval := { first := newline, others := [] }
  ending := newline

theorem comment_is_not_skipped :
    Not (forall (profile : Profile) (kind : Graphic) (extent : Extent) (raster : List UInt8),
      raster.length = kind.area extent -> raster.length < 2 ^ 64 ->
      forall (spelling spelling' : Spelling) (initrd initrd' : Initrd) (base base' : String),
        initrd.getData (base ++ "." ++ kind.extension) =
          .ok (spelling.file kind extent raster) ->
        initrd'.getData (base' ++ "." ++ kind.extension) =
          .ok (spelling'.file kind extent raster) ->
        exists image, new profile initrd (base ++ "." ++ kind.extension) = .ok image ∧
          new profile initrd' (base' ++ "." ++ kind.extension) = .ok image) := by
  intro h
  have hfile := holding_getData ("logo" ++ "." ++ Graphic.pgm.extension)
    (canonical.file .pgm point [65])
  have hfile' := holding_getData ("logo" ++ "." ++ Graphic.pgm.extension)
    (commented.file .pgm point [65])
  rcases h .dev .pgm point [65] rfl (by simp) canonical commented _ _ "logo" "logo" hfile hfile'
    with ⟨image, _, himage⟩
  rcases (new_spelling_iff rfl (by simp) hfile').mp himage with ⟨_, rest, hleaves, _⟩
  rcases hleaves.width _ List.mem_cons_self with ⟨character, hcharacter⟩
  cases hcharacter

end Spelling

end Image

end NeurOS
