import NeurOS.Elf.Model

/-!
# Tables of an executable

When the records of a table can be read, where the loop reads them, and for which
numbers of entries the arithmetic with sixteen bits is exact.
-/

namespace NeurOS

open Foundation

namespace Elf

/-!
# Words
-/

theorem word_of_le {data : List UInt8} {start width : Nat} (h : start + width <= data.length) :
    word data start width = .ok (littleEndian (slice data start width)) := by
  simp [word, h]

theorem word_eq_ok_iff {data : List UInt8} {start width value : Nat} :
    word data start width = .ok value <->
      start + width <= data.length ∧ littleEndian (slice data start width) = value := by
  unfold word
  split
  · rename_i h
    simp [h]
  · rename_i h
    simp [h]

theorem word_append {first second : List UInt8} {start width : Nat}
    (h : start + width <= first.length) :
    word (first ++ second) start width = word first start width := by
  have happend : start + width <= (first ++ second).length := by
    rw [List.length_append]
    lia
  rw [word_of_le happend, word_of_le h, slice_append_left h]

/-!
# Records

A record is read exactly when its bytes are there, and no byte behind it matters.
-/

structure Reads (new : List UInt8 -> Outcome α) (size : Nat) : Prop where
  total : forall data, size <= data.length -> exists a, new data = .ok a
  inside : forall data a, new data = .ok a -> size <= data.length
  noFurther : forall first second, size <= first.length -> new (first ++ second) = new first

theorem header_reads : Reads Header.new 64 := by
  constructor
  · intro data h
    simp (disch := lia) only [Header.new, word_of_le, Outcome.ok_bind]
    exact ⟨_, rfl⟩
  · intro data a h
    by_contra hshort
    have hlast : forall value, word data 62 2 ≠ .ok value := by
      intro value hvalue
      exact hshort (word_eq_ok_iff.mp hvalue).1
    simp [Header.new, Outcome.bind_eq_ok_iff, hlast] at h
  · intro first second h
    simp (disch := lia) only [Header.new, word_append]

theorem program_reads : Reads Program.new 56 := by
  constructor
  · intro data h
    simp (disch := lia) only [Program.new, word_of_le, Outcome.ok_bind]
    exact ⟨_, rfl⟩
  · intro data a h
    by_contra hshort
    have hlast : forall value, word data 48 8 ≠ .ok value := by
      intro value hvalue
      exact hshort (word_eq_ok_iff.mp hvalue).1
    simp [Program.new, Outcome.bind_eq_ok_iff, hlast] at h
  · intro first second h
    simp (disch := lia) only [Program.new, word_append]

theorem section_reads : Reads Section.new 64 := by
  constructor
  · intro data h
    simp (disch := lia) only [Section.new, word_of_le, Outcome.ok_bind]
    exact ⟨_, rfl⟩
  · intro data a h
    by_contra hshort
    have hlast : forall value, word data 56 8 ≠ .ok value := by
      intro value hvalue
      exact hshort (word_eq_ok_iff.mp hvalue).1
    simp [Section.new, Outcome.bind_eq_ok_iff, hlast] at h
  · intro first second h
    simp (disch := lia) only [Section.new, word_append]

/-!
# Offsets of entries
-/

theorem entryOffset_of_lt (profile : Profile) {offset size index : Nat}
    (hproduct : index * size < 2 ^ 16) (hsum : offset + index * size < 2 ^ 64) :
    entryOffset profile offset size index = .ok (offset + index * size) := by
  simp only [entryOffset, profile.mul_of_lt hproduct, profile.add_of_lt hsum, Outcome.ok_bind]

theorem entryOffset_dev_eq_ok_iff {offset size index start : Nat} :
    entryOffset .dev offset size index = .ok start <->
      index * size < 2 ^ 16 ∧ offset + index * size < 2 ^ 64 ∧ start = offset + index * size := by
  unfold entryOffset Profile.mul Profile.add
  rw [Outcome.bind_eq_ok_iff]
  constructor
  · intro h
    rcases h with ⟨product, hproduct, hsum⟩
    rw [Profile.fit_dev_eq_ok_iff] at hproduct hsum
    rw [hproduct.2] at hsum
    exact ⟨hproduct.1, hsum⟩
  · intro h
    refine ⟨index * size, ?_, ?_⟩
    · exact Profile.fit_dev_eq_ok_iff.mpr ⟨h.1, rfl⟩
    · exact Profile.fit_dev_eq_ok_iff.mpr h.2

theorem entryOffset_dev_overflow {offset size index : Nat} (h : 2 ^ 16 <= index * size) :
    entryOffset .dev offset size index = .error .arithmeticOverflow := by
  have hnot : ¬ index * size < 2 ^ 16 := by lia
  simp only [entryOffset, Profile.mul, Profile.fit, if_neg hnot]
  rfl

theorem entryOffset_release (offset size index : Nat) :
    entryOffset .release offset size index =
      .ok ((offset + index * size % 2 ^ 16) % 2 ^ 64) := by
  simp only [entryOffset, Profile.mul, Profile.add, Profile.fit_release, Outcome.ok_bind]

/-!
# The loop over a table
-/

section Loop

variable {new : List UInt8 -> Outcome α} {size : Nat} {data : List UInt8}

theorem entry_eq_ok_iff (hreads : Reads new size) {start : Nat} {a : α} :
    (do
      let slice ← sliceFrom data start
      new slice) = .ok a <->
      start + size <= data.length ∧ new (slice data start size) = .ok a := by
  rw [Outcome.bind_eq_ok_iff]
  have hlocal : start + size <= data.length ->
      new (data.drop start) = new (slice data start size) := by
    intro h
    have hsplit : data.drop start = slice data start size ++ data.drop (start + size) := by
      rw [slice, ← List.drop_drop, List.take_append_drop]
    conv_lhs => rw [hsplit]
    exact hreads.noFurther _ _ (Nat.le_of_eq (slice_length h).symm)
  constructor
  · intro h
    rcases h with ⟨rest, hrest, hnew⟩
    unfold sliceFrom at hrest
    split at hrest
    · rename_i hstart
      cases hrest
      have hsize := hreads.inside _ _ hnew
      rw [List.length_drop] at hsize
      have hfits : start + size <= data.length := by lia
      rw [hlocal hfits] at hnew
      exact ⟨hfits, hnew⟩
    · cases hrest
  · intro h
    refine ⟨data.drop start, ?_, ?_⟩
    · unfold sliceFrom
      rw [if_pos (by lia)]
    · rw [hlocal h.1]
      exact h.2

structure Entries (new : List UInt8 -> Outcome α) (data : List UInt8) (size number : Nat)
    (place : Nat -> Nat) (entries : List α) : Prop where
  length : entries.length = number
  entry : forall i, i < number -> exists a, entries[i]? = some a ∧
    new (slice data (place i) size) = .ok a

theorem readTable_of_places (hreads : Reads new size) (profile : Profile)
    {offset stride number : Nat} {place : Nat -> Nat}
    (hplace : forall i, i < number ->
      entryOffset profile offset stride i = .ok (place i) ∧ place i + size <= data.length) :
    exists entries, readTable profile new data offset stride number = .ok entries ∧
      Entries new data size number place entries := by
  have hpass : forall i, i < number -> exists a,
      (do
        let start ← entryOffset profile offset stride i
        let slice ← sliceFrom data start
        new slice) = .ok a ∧ new (slice data (place i) size) = .ok a := by
    intro i hi
    rcases hplace i hi with ⟨hoffset, hfits⟩
    rcases hreads.total _ (Nat.le_of_eq (slice_length hfits).symm) with ⟨a, ha⟩
    refine ⟨a, ?_, ha⟩
    rw [hoffset, Outcome.ok_bind]
    exact (entry_eq_ok_iff hreads).mpr ⟨hfits, ha⟩
  have htotal : exists entries,
      readTable profile new data offset stride number = .ok entries := by
    apply Outcome.mapM_ok_of_forall
    intro i hi
    rcases hpass i (List.mem_range.mp hi) with ⟨a, ha, _⟩
    exact ⟨a, ha⟩
  rcases htotal with ⟨entries, hentries⟩
  refine ⟨entries, hentries, ?_⟩
  have hall := Outcome.mapM_eq_ok_iff.mp hentries
  have hlength : entries.length = number := by
    rw [← hall.length_eq, List.length_range]
  refine ⟨hlength, ?_⟩
  intro i hi
  have hi' : i < entries.length := by lia
  rcases hpass i hi with ⟨a, ha, hnew⟩
  have hget := hall.get (i := i) (by simpa using hi) hi'
  simp only [List.get_eq_getElem, List.getElem_range] at hget
  rw [ha] at hget
  cases hget
  exact ⟨entries[i], List.getElem?_eq_getElem hi', hnew⟩

theorem place_of_readTable (hreads : Reads new size) {profile : Profile}
    {offset stride number : Nat} {entries : List α}
    (h : readTable profile new data offset stride number = .ok entries)
    {i : Nat} (hi : i < number) :
    exists start, entryOffset profile offset stride i = .ok start ∧
      start + size <= data.length := by
  rcases Outcome.exists_ok_of_mapM h (List.mem_range.mpr hi) with ⟨a, hpass⟩
  rcases Outcome.bind_eq_ok_iff.mp hpass with ⟨start, hstart, hentry⟩
  exact ⟨start, hstart, ((entry_eq_ok_iff hreads).mp hentry).1⟩

theorem readTable_ok_iff (hreads : Reads new size) {profile : Profile}
    {offset stride number : Nat} :
    (exists entries, readTable profile new data offset stride number = .ok entries) <->
      forall i, i < number -> exists start,
        entryOffset profile offset stride i = .ok start ∧ start + size <= data.length := by
  constructor
  · intro h i hi
    rcases h with ⟨entries, hentries⟩
    exact place_of_readTable hreads hentries hi
  · intro h
    apply Outcome.mapM_ok_of_forall
    intro i hi
    rcases h i (List.mem_range.mp hi) with ⟨start, hstart, hfits⟩
    rcases hreads.total _ (Nat.le_of_eq (slice_length hfits).symm) with ⟨a, ha⟩
    refine ⟨a, ?_⟩
    rw [hstart, Outcome.ok_bind]
    exact (entry_eq_ok_iff hreads).mpr ⟨hfits, ha⟩

end Loop

end Elf

end NeurOS
