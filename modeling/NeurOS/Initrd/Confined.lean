import NeurOS.Foundation.Traced
import NeurOS.Initrd.HeaderBytes

/-!
# Reads of the walk

The walk never looks at the length of the module it walks over.  It stays inside
the module when the sizes in the headers lead to a block that stops it there.
-/

namespace NeurOS

open Foundation

namespace Initrd

/-- A module as the boot loader leaves it: not at the null address, and not in the last
block of the address space. -/
structure Module where
  address : Nat
  length : Nat
  nonnull : 0 < address
  fits : address + length + blockSize <= 2 ^ 64

def Module.contents (m : Module) (ram : Ram) : List UInt8 :=
  ram.read m.address m.length

/-!
# What a pass reads
-/

structure Span where
  address : Nat
  length : Nat
  deriving DecidableEq, Repr

def Module.Contains (m : Module) (span : Span) : Prop :=
  m.address <= span.address ∧ span.address + span.length <= m.address + m.length

/-- The memory, with a record of what is read. -/
def recorded (ram : Ram) (address length : Nat) : Traced Span (List UInt8) :=
  Traced.emits [⟨address, length⟩] (ram.read address length)

def readingPass (display : File -> Outcome String) (ram : Ram) (walk : Walk) :
    Traced Span (Option Walk) :=
  passWith (recorded ram) display walk

/-- The loop ends, and every read of its tests and its passes lies in the module. -/
def StaysInside (display : File -> Outcome String) (ram : Ram) (m : Module) (walk : Walk) :
    Prop :=
  (exists fuel result, (walking display ram).run fuel walk = some result) ∧
    forall visited, (walking display ram).Visits walk visited ->
      forall span, span ∈ (readingPass display ram visited).emitted -> m.Contains span

/-!
# Headers that lead to an end
-/

def entrySpan (size : Nat) : Nat :=
  blockSize + blockSize * divCeil size blockSize

/-- The walk ends at an offset: at a block of zeros, or with a panic. -/
def EndsAt (profile : Profile) (contents : List UInt8) (offset : Nat) : Prop :=
  let block := slice contents offset blockSize
  offset + blockSize <= contents.length ∧
    (block = eofBlock ∨ Not (WellFormed block) ∨
      exists size, SizeBytes block size ∧ offset + blockSize + size <= contents.length ∧
        Not (ListedBytes profile block))

/-- From an offset on, each header is followed by its data and the next header, up to an end
of the walk, and all of them lie in the module. -/
def Leads (profile : Profile) (contents : List UInt8) : Nat -> List Nat -> Prop
  | offset, [] => EndsAt profile contents offset
  | offset, size :: rest =>
      let block := slice contents offset blockSize
      block ≠ eofBlock ∧ WellFormed block ∧ SizeBytes block size ∧
        ListedBytes profile block ∧ offset + blockSize + size <= contents.length ∧
        Leads profile contents (offset + entrySpan size) rest

/-!
# The recorded reads
-/

section Recorded

variable {ram : Ram}

theorem slice_result (address length : Nat) :
    (parseSliceWith (recorded ram) address length).result = parseSlice ram address length := by
  unfold parseSliceWith recorded
  rw [Traced.emits_bind, parseSlice_eq]
  cases Text.fromUtf8 (ram.read address length) <;> rfl

theorem string_result (address length : Nat) :
    (parseStringWith (recorded ram) address length).result = parseString ram address length :=
  slice_result address length

theorem integer_result (address length : Nat) :
    (parseIntegerWith (recorded ram) address length).result =
      parseInteger ram address length := by
  unfold parseIntegerWith
  rw [Traced.bind_result, slice_result, parseInteger_eq]
  rfl

theorem octal_result (address length : Nat) :
    (parseOctalWith (recorded ram) address length).result = parseOctal ram address length := by
  unfold parseOctalWith
  rw [Traced.bind_result, slice_result, parseOctal_eq]
  congr 1
  funext slice
  cases Text.fromStrRadix 32 8 slice <;> rfl

theorem header_result (address : Nat) :
    (parseHeaderWith (recorded ram) address).result = parseHeader ram address := by
  unfold parseHeaderWith
  simp only [Traced.bind_result, string_result, integer_result, octal_result]
  rfl

theorem slice_within {P : Span -> Prop} {address length : Nat} (h : P ⟨address, length⟩) :
    Traced.Within P (parseSliceWith (recorded ram) address length) := by
  unfold parseSliceWith recorded
  rw [Traced.emits_bind]
  intro span hspan
  cases hutf8 : Text.fromUtf8 (ram.read address length) <;>
    rw [hutf8] at hspan <;>
    rw [List.mem_singleton.mp hspan] <;>
    exact h

theorem integer_within {P : Span -> Prop} {address length : Nat} (h : P ⟨address, length⟩) :
    Traced.Within P (parseIntegerWith (recorded ram) address length) :=
  Traced.within_bind (slice_within h) fun _ _ _ houtput => nomatch houtput

theorem octal_within {P : Span -> Prop} {address length : Nat} (h : P ⟨address, length⟩) :
    Traced.Within P (parseOctalWith (recorded ram) address length) := by
  apply Traced.within_bind (slice_within h)
  intro slice _ span hspan
  cases hread : Text.fromStrRadix 32 8 slice <;>
    rw [hread] at hspan <;>
    cases hspan

theorem header_within {P : Span -> Prop} {address : Nat}
    (h : forall start width, start + width <= blockSize -> start < blockSize ->
      P ⟨wrappingAdd address start, width⟩) (hname : P ⟨address, 100⟩) :
    Traced.Within P (parseHeaderWith (recorded ram) address) := by
  have htext {start width : Nat} (hend : start + width <= blockSize := by simp [blockSize])
      (hlt : start < blockSize := by simp [blockSize]) :
      Traced.Within P (parseStringWith (recorded ram) (wrappingAdd address start) width) :=
    slice_within (h start width hend hlt)
  have hinteger {start width : Nat} (hend : start + width <= blockSize := by simp [blockSize])
      (hlt : start < blockSize := by simp [blockSize]) :
      Traced.Within P (parseIntegerWith (recorded ram) (wrappingAdd address start) width) :=
    integer_within (h start width hend hlt)
  have hoctal {start width : Nat} (hend : start + width <= blockSize := by simp [blockSize])
      (hlt : start < blockSize := by simp [blockSize]) :
      Traced.Within P (parseOctalWith (recorded ram) (wrappingAdd address start) width) :=
    octal_within (h start width hend hlt)
  unfold parseHeaderWith
  apply Traced.within_bind (slice_within hname) fun _ _ => ?_
  apply Traced.within_bind hinteger fun _ _ => ?_
  apply Traced.within_bind hoctal fun _ _ => ?_
  apply Traced.within_bind hoctal fun _ _ => ?_
  apply Traced.within_bind hoctal fun _ _ => ?_
  apply Traced.within_bind hoctal fun _ _ => ?_
  apply Traced.within_bind htext fun _ _ => ?_
  apply Traced.within_bind hinteger fun _ _ => ?_
  apply Traced.within_bind htext fun _ _ => ?_
  apply Traced.within_bind htext fun _ _ => ?_
  apply Traced.within_bind htext fun _ _ => ?_
  apply Traced.within_bind htext fun _ _ => ?_
  apply Traced.within_bind htext fun _ _ => ?_
  apply Traced.within_bind hinteger fun _ _ => ?_
  apply Traced.within_bind hinteger fun _ _ => ?_
  apply Traced.within_bind htext fun _ _ => ?_
  exact fun _ houtput => absurd houtput List.not_mem_nil

theorem body_emitted (display : File -> Outcome String) (walk : Walk) (span : Span) :
    span ∈ (bodyWith (recorded ram) display walk).emitted <->
      span ∈ (parseHeaderWith (recorded ram) walk.address).emitted ∨
        exists header, parseHeader ram walk.address = .ok header ∧ header.size ≠ 0 ∧
          span = ⟨wrappingAdd walk.address blockSize, header.size⟩ := by
  have hsilent (line : Outcome String) (next : String -> Walk) :
      ((liftM line : Traced Span String) >>= fun line => pure (next line)).emitted = [] := by
    cases line <;> rfl
  unfold bodyWith
  rw [Traced.mem_bind_emitted_iff, header_result]
  apply or_congr Iff.rfl
  apply exists_congr
  intro header
  apply and_congr_right
  intro _
  by_cases hsize : header.size = 0
  · simp only [hsize, ne_eq, not_true_eq_false, if_false, false_and, Traced.pure_bind, hsilent,
      List.not_mem_nil]
  · simp only [hsize, ne_eq, not_false_eq_true, if_true, true_and]
    unfold parseDataWith recorded
    simp only [Traced.emits_bind, Traced.pure_bind, Traced.after, hsilent, List.append_nil,
      List.mem_singleton]

theorem pass_emitted (display : File -> Outcome String) (walk : Walk) (span : Span) :
    span ∈ (readingPass display ram walk).emitted <->
      span = ⟨walk.address, blockSize⟩ ∨
        parseBlock ram walk.address blockSize ≠ eofBlock ∧
          span ∈ (bodyWith (recorded ram) display walk).emitted := by
  unfold readingPass passWith parseBlockWith
  rw [Traced.mem_bind_emitted_iff]
  have hfirst : (recorded ram walk.address blockSize).emitted = [⟨walk.address, blockSize⟩] := rfl
  have hresult : (recorded ram walk.address blockSize).result =
      .ok (parseBlock ram walk.address blockSize) := rfl
  rw [hfirst, hresult, List.mem_singleton]
  simp only [Except.ok.injEq, exists_eq_left']
  by_cases heof : parseBlock ram walk.address blockSize = eofBlock
  · simp only [heof, ne_eq, not_true_eq_false, if_false, false_and]
    exact or_congr Iff.rfl (List.mem_nil_iff span)
  · simp only [heof, ne_eq, not_false_eq_true, if_true, true_and, Traced.bind_pure_emitted]

theorem body_result (display : File -> Outcome String) (walk : Walk) :
    (bodyWith (recorded ram) display walk).result = body display ram walk := by
  unfold body bodyWith
  rw [Traced.bind_result, header_result]
  unfold parseHeader
  congr 1
  funext header
  by_cases hsize : header.size = 0
  · simp only [hsize, ne_eq, not_true_eq_false, if_false, Traced.pure_bind]
    rw [Traced.bind_result]
    rfl
  · simp only [hsize, ne_eq, not_false_eq_true, if_true]
    unfold parseDataWith recorded readRam
    simp only [Traced.emits_bind, Traced.pure_bind, Traced.after, Outcome.ok_bind]
    rw [Traced.bind_result]
    rfl

theorem pass_result (display : File -> Outcome String) (walk : Walk) :
    (readingPass display ram walk).result =
      if (walking display ram).guard walk then
        (walking display ram).body walk >>= fun walk => .ok (some walk)
      else
        .ok none := by
  unfold readingPass passWith parseBlockWith walking
  rw [recorded, Traced.emits_bind]
  by_cases heof : parseBlock ram walk.address blockSize = eofBlock
  · have hread : ram.read walk.address blockSize = eofBlock := heof
    simp only [heof, hread, ne_eq, not_true_eq_false, if_false, decide_false]
    rfl
  · have hread : Not (ram.read walk.address blockSize = eofBlock) := heof
    simp only [heof, hread, ne_eq, not_false_eq_true, if_true, decide_true, Traced.after]
    rw [Traced.bind_result, body_result]
    rfl

end Recorded

/-!
# Reads of a pass inside the module
-/

section Inside

variable {profile : Profile} {ram : Ram} {m : Module} {offset : Nat}

theorem wrappingAdd_inside {count : Nat} (h : offset + count < m.length + blockSize) :
    wrappingAdd (m.address + offset) count = m.address + (offset + count) := by
  have hfits := m.fits
  rw [wrappingAdd_of_lt (by lia), Nat.add_assoc]

theorem contains_iff {start length : Nat} :
    m.Contains ⟨m.address + start, length⟩ <-> start + length <= m.length := by
  unfold Module.Contains
  constructor
  · intro h
    have hend := h.2
    simp only at hend
    lia
  · intro h
    exact ⟨Nat.le_add_right _ _, by simp only; lia⟩

theorem contents_length : (m.contents ram).length = m.length :=
  Ram.read_length ram m.address m.length

theorem slice_contents {count : Nat} (h : offset + count <= m.length) :
    slice (m.contents ram) offset count = ram.read (m.address + offset) count :=
  Ram.read_slice h

theorem pass_inside_iff (display : File -> Outcome String) {walk : Walk}
    (haddress : walk.address = m.address + offset) :
    (forall span, span ∈ (readingPass display ram walk).emitted -> m.Contains span) <->
      offset + blockSize <= m.length ∧
        (parseBlock ram (m.address + offset) blockSize ≠ eofBlock ->
          forall header, parseHeader ram (m.address + offset) = .ok header ->
            offset + blockSize + header.size <= m.length) := by
  have hpos : 0 < blockSize := Nat.zero_lt_succ 511
  have hname : 100 <= blockSize := by simp [blockSize]
  simp only [pass_emitted, body_emitted, haddress]
  constructor
  · intro h
    have hblock := contains_iff.mp (h _ (Or.inl rfl))
    refine ⟨hblock, ?_⟩
    intro hne header hheader
    by_cases hsize : header.size = 0
    · rw [hsize]
      exact hblock
    · have hdata := h _ (Or.inr ⟨hne, Or.inr ⟨header, hheader, hsize, rfl⟩⟩)
      rw [wrappingAdd_inside (by lia)] at hdata
      exact contains_iff.mp hdata
  · rintro ⟨hblock, hdata⟩ span (rfl | ⟨hne, hheader | ⟨header, hheader, hsize, rfl⟩⟩)
    · exact contains_iff.mpr hblock
    · refine header_within (fun start width hend hlt => ?_) ?_ span hheader
      · rw [wrappingAdd_inside (by lia), contains_iff]
        lia
      · rw [contains_iff]
        lia
    · rw [wrappingAdd_inside (by lia), contains_iff]
      exact hdata hne header hheader

theorem entrySpan_lt (size : Nat) : entrySpan size < blockSize + size + blockSize := by
  unfold entrySpan divCeil
  have hmod := Nat.div_add_mod size blockSize
  have hlt : size % blockSize < blockSize := Nat.mod_lt _ (Nat.zero_lt_succ 511)
  split
  · rw [Nat.mul_add]
    lia
  · lia

theorem entrySpan_ge (size : Nat) : blockSize + size <= entrySpan size := by
  unfold entrySpan divCeil
  have hmod := Nat.div_add_mod size blockSize
  have hlt : size % blockSize < blockSize := Nat.mod_lt _ (Nat.zero_lt_succ 511)
  split
  · rw [Nat.mul_add]
    lia
  · lia

theorem body_inside {display : File -> Outcome String} {walk : Walk} {header : Header}
    {line : String} (haddress : walk.address = m.address + offset)
    (hheader : parseHeader ram (m.address + offset) = .ok header)
    (hdata : offset + blockSize + header.size <= m.length)
    (hline : display (fileAt ram (m.address + offset) header) = .ok line) :
    exists walk', body display ram walk = .ok walk' ∧
      walk'.address = m.address + (offset + entrySpan header.size) := by
  have hspan := entrySpan_lt header.size
  have hnext : wrappingAdd (m.address + offset) blockSize = m.address + (offset + blockSize) :=
    wrappingAdd_inside (by lia)
  unfold entrySpan at hspan
  rw [body_eq, haddress, hheader, Outcome.ok_bind, hline, Outcome.ok_bind]
  refine ⟨_, rfl, ?_⟩
  rw [hnext, wrappingAdd_inside (by lia), Nat.add_assoc offset]
  rfl

/-!
# The whole walk
-/

theorem guard_iff (display : File -> Outcome String) {walk : Walk}
    (haddress : walk.address = m.address + offset) :
    (walking display ram).guard walk = true <->
      parseBlock ram (m.address + offset) blockSize ≠ eofBlock := by
  simp [walking, haddress]

theorem ends_stop {walk : Walk} (haddress : walk.address = m.address + offset)
    (h : EndsAt profile (m.contents ram) offset) :
    ((walking (File.display profile) ram).guard walk = true ->
        forall walk', Not (body (File.display profile) ram walk = .ok walk')) ∧
      forall span, span ∈ (readingPass (File.display profile) ram walk).emitted ->
        m.Contains span := by
  rcases h with ⟨hblock, hends⟩
  rw [contents_length] at hblock hends
  rw [slice_contents hblock] at hends
  have hroom := m.fits
  have hfits : m.address + offset + blockSize <= 2 ^ 64 := by lia
  rw [pass_inside_iff _ haddress, body_eq, haddress]
  rcases hends with hzeros | hmalformed | ⟨size, hsize, hdata, hunlisted⟩
  · constructor
    · intro hguard
      exact absurd hzeros ((guard_iff _ haddress).mp hguard)
    · exact ⟨hblock, fun hne => absurd hzeros hne⟩
  · have hnone : forall header, Not (parseHeader ram (m.address + offset) = .ok header) :=
      fun header hheader => hmalformed ((parseHeader_ok_iff hfits).mp ⟨header, hheader⟩)
    refine ⟨?_, hblock, fun _ header hheader => absurd hheader (hnone header)⟩
    intro _ walk' hok
    rcases Outcome.bind_eq_ok_iff.mp hok with ⟨header, hheader, _⟩
    exact hnone header hheader
  · refine ⟨?_, hblock, ?_⟩
    · intro _ walk' hok
      rcases Outcome.bind_eq_ok_iff.mp hok with ⟨header, hheader, hrest⟩
      rcases Outcome.bind_eq_ok_iff.mp hrest with ⟨line, hline, _⟩
      exact hunlisted ((display_iff_listedBytes hfits hheader _).mp ⟨line, hline⟩)
    · intro _ header hheader
      rw [(sizeBytes_iff hfits hheader).mp hsize]
      exact hdata

/-- The first pass of a walk that goes on keeps to the module and lands at the next header. -/
theorem leads_pass {size : Nat} {rest : List Nat} {walk : Walk}
    (haddress : walk.address = m.address + offset)
    (h : Leads profile (m.contents ram) offset (size :: rest)) :
    (walking (File.display profile) ram).guard walk = true ∧
      (exists walk', body (File.display profile) ram walk = .ok walk' ∧
        walk'.address = m.address + (offset + entrySpan size)) ∧
      forall span, span ∈ (readingPass (File.display profile) ram walk).emitted ->
        m.Contains span := by
  rcases h with ⟨hne, hformed, hsize, hlisted, hdata, _⟩
  have hroom := m.fits
  rw [contents_length] at hdata
  rw [slice_contents (by lia)] at hne hformed hsize hlisted
  have hfits : m.address + offset + blockSize <= 2 ^ 64 := by lia
  rcases (parseHeader_ok_iff hfits).mpr hformed with ⟨header, hheader⟩
  have hheaderSize : header.size = size := (sizeBytes_iff hfits hheader).mp hsize
  rcases (display_iff_listedBytes hfits hheader
    (fileAt ram (m.address + offset) header).data).mpr hlisted with ⟨line, hline⟩
  rw [← hheaderSize] at hdata ⊢
  refine ⟨(guard_iff _ haddress).mpr hne, body_inside haddress hheader hdata hline, ?_⟩
  rw [pass_inside_iff _ haddress]
  refine ⟨by lia, ?_⟩
  intro _ other hother
  rw [hheader] at hother
  rw [← Except.ok.inj hother]
  exact hdata

theorem leads_staysInside {sizes : List Nat} {walk : Walk}
    (haddress : walk.address = m.address + offset)
    (h : Leads profile (m.contents ram) offset sizes) :
    StaysInside (File.display profile) ram m walk := by
  induction sizes generalizing offset walk with
  | nil =>
      rcases ends_stop haddress h with ⟨hstop, hreads⟩
      constructor
      · refine ⟨1, ?_⟩
        cases hguard : (walking (File.display profile) ram).guard walk with
        | false => exact ⟨_, Loop.run_stop hguard 0⟩
        | true =>
            cases hbody : body (File.display profile) ram walk with
            | error e => exact ⟨.error e, Loop.run_fail hguard hbody 0⟩
            | ok walk' => exact absurd hbody (hstop hguard walk')
      · intro visited hvisits
        rw [Loop.visits_of_stop hstop hvisits]
        exact hreads
  | cons size rest ih =>
      rcases leads_pass haddress h with ⟨hguard, ⟨walk', hbody, hnext⟩, hpass⟩
      rcases h with ⟨_, _, _, _, _, hrest⟩
      rcases ih hnext hrest with ⟨⟨fuel, result, hrun⟩, hreads⟩
      constructor
      · refine ⟨fuel + 1, result, ?_⟩
        rw [Loop.run_pass hguard hbody]
        exact hrun
      · intro visited hvisits
        rcases Loop.visits_of_pass hbody hvisits with hfirst | hlater
        · rw [hfirst]
          exact hpass
        · exact hreads visited hlater

/-- A pass that keeps to the module is at an end of the walk, or lands at the next header. -/
theorem pass_leads {walk : Walk} (haddress : walk.address = m.address + offset)
    (h : forall span, span ∈ (readingPass (File.display profile) ram walk).emitted ->
      m.Contains span) :
    EndsAt profile (m.contents ram) offset ∨
      (walking (File.display profile) ram).guard walk = true ∧
        exists size walk', body (File.display profile) ram walk = .ok walk' ∧
          walk'.address = m.address + (offset + entrySpan size) ∧
          forall rest, Leads profile (m.contents ram) (offset + entrySpan size) rest ->
            Leads profile (m.contents ram) offset (size :: rest) := by
  rw [pass_inside_iff _ haddress] at h
  rcases h with ⟨hblock, hinside⟩
  have hroom := m.fits
  have hfits : m.address + offset + blockSize <= 2 ^ 64 := by lia
  unfold EndsAt
  rw [slice_contents hblock, contents_length]
  by_cases hne : ram.read (m.address + offset) blockSize = eofBlock
  · exact Or.inl ⟨hblock, Or.inl hne⟩
  by_cases hformed : WellFormed (ram.read (m.address + offset) blockSize)
  · rcases (parseHeader_ok_iff hfits).mpr hformed with ⟨header, hheader⟩
    have hdata := hinside hne header hheader
    have hsize := (sizeBytes_iff hfits hheader).mpr rfl
    by_cases hlisted : ListedBytes profile (ram.read (m.address + offset) blockSize)
    · rcases (display_iff_listedBytes hfits hheader
        (fileAt ram (m.address + offset) header).data).mpr hlisted with ⟨line, hline⟩
      rcases body_inside haddress hheader hdata hline with ⟨walk', hbody, hnext⟩
      refine Or.inr ⟨(guard_iff _ haddress).mpr hne, header.size, walk', hbody, hnext, ?_⟩
      intro rest hrest
      rw [Leads, slice_contents hblock, contents_length]
      exact ⟨hne, hformed, hsize, hlisted, hdata, hrest⟩
    · exact Or.inl ⟨hblock, Or.inr (Or.inr ⟨header.size, hsize, hdata, hlisted⟩)⟩
  · exact Or.inl ⟨hblock, Or.inr (Or.inl hformed)⟩

theorem staysInside_leads {fuel : Nat} {walk : Walk} {result : Outcome Walk}
    (haddress : walk.address = m.address + offset)
    (hrun : (walking (File.display profile) ram).run fuel walk = some result)
    (hreads : forall visited, (walking (File.display profile) ram).Visits walk visited ->
      forall span, span ∈ (readingPass (File.display profile) ram visited).emitted ->
        m.Contains span) :
    exists sizes, Leads profile (m.contents ram) offset sizes := by
  induction fuel generalizing offset walk with
  | zero => cases hrun
  | succ fuel ih =>
      rcases pass_leads haddress (hreads walk (.start walk)) with
        hends | ⟨hguard, size, walk', hbody, hnext, hleads⟩
      · exact ⟨[], hends⟩
      · rw [Loop.run_pass hguard hbody] at hrun
        rcases ih hnext hrun
          (fun visited hvisits => hreads visited (.pass hguard hbody hvisits)) with
          ⟨rest, hrest⟩
        exact ⟨size :: rest, hleads rest hrest⟩

/-- An archive inside the module whose entries are listed leads to its first block of zeros. -/
theorem leads_archive {blocks : Nat} {entries : List Ustar.Entry} (hblocks : 0 < blocks)
    (h : ram.Holds (m.address + offset) (Ustar.archive entries blocks))
    (hfits : offset + (Ustar.archive entries blocks).length <= m.length)
    (hlisted : forall entry, entry ∈ entries -> File.Listed profile entry) :
    Leads profile (m.contents ram) offset (entries.map fun e => e.content.data.length) := by
  have hroom := m.fits
  have hpos : 0 < blockSize := Nat.zero_lt_succ 511
  induction entries generalizing offset with
  | nil =>
      rw [archive_nil hblocks, List.length_append, eofBlock, List.length_replicate] at hfits
      have hzeros := parseBlock_archive_nil hblocks h
      unfold parseBlock at hzeros
      rw [List.map_nil, Leads, EndsAt, slice_contents (by lia), contents_length]
      exact ⟨by lia, Or.inl hzeros⟩
  | cons entry rest ih =>
      have hlength : (Ustar.encode entry).length = entrySpan entry.content.data.length :=
        encode_length entry
      have hspan := entrySpan_ge entry.content.data.length
      rw [archive_cons] at h hfits
      rw [List.length_append, hlength] at hfits
      have hheld := Ram.holds_left (Ram.holds_left h)
      have hrest := Ram.holds_right h
      rw [hlength, Nat.add_assoc] at hrest
      have hheader := parseHeader_entry hheld (by lia)
      have hblock : m.address + offset + blockSize <= 2 ^ 64 := by lia
      have hline := File.display_entry_iff.mpr (hlisted entry List.mem_cons_self)
      rw [List.map_cons, Leads, slice_contents (by lia), contents_length]
      have hformed := (parseHeader_ok_iff hblock).mp ⟨_, hheader⟩
      exact ⟨header_ne_eofBlock hheld (by lia), hformed, (sizeBytes_iff hblock hheader).mpr rfl,
        (display_iff_listedBytes hblock hheader _).mp hline, by lia,
        ih hrest (by lia) fun later hmem => hlisted later (List.mem_cons_of_mem entry hmem)⟩

end Inside

/-- The walk over a module ends and reads nothing outside it if and only if the sizes in its
headers lead from its beginning to an end inside the module. -/
theorem staysInside_iff (profile : Profile) (ram : Ram) (m : Module) (logger : Logger) :
    StaysInside (File.display profile) ram m
        { address := m.address, files := [], logger := logger } <->
      exists sizes, Leads profile (m.contents ram) 0 sizes := by
  constructor
  · intro h
    rcases h with ⟨⟨fuel, result, hrun⟩, hreads⟩
    exact staysInside_leads rfl hrun hreads
  · intro h
    rcases h with ⟨sizes, hleads⟩
    exact leads_staysInside rfl hleads

def cutModule : Module where
  address := 4096
  length := blockSize
  nonnull := by lia
  fits := by simp [blockSize]

def cutEntry : Ustar.Entry where
  name := directoryName
  nonempty := directoryName_nonempty
  namePrefix := noPrefix
  mode := directoryMode
  userId := rootId
  groupId := rootId
  mtime := epoch
  content := .directory
  username := rootName
  group := rootName

def cutRam : Ram :=
  Ram.load cutModule.address (Ustar.encode cutEntry)

/-- Behind the header of a directory that fills its module the walk reads on. -/
theorem cut_archive_left :
    Not (StaysInside (File.display .dev) cutRam cutModule
      { address := cutModule.address, files := [], logger := Logger.new }) := by
  let start : Walk := { address := cutModule.address, files := [], logger := Logger.new }
  intro hstays
  have hheld : cutRam.Holds (cutModule.address + 0) (Ustar.header cutEntry) :=
    Ram.holds_left (Ram.load_holds cutModule.address (Ustar.encode cutEntry))
  have hfits : cutModule.address + 0 + blockSize < 2 ^ 64 := by simp [cutModule, blockSize]
  have haddress : start.address = cutModule.address + 0 := rfl
  have hdata : 0 + blockSize + (headerOf cutEntry).size <= cutModule.length := by
    show 0 + blockSize + 0 <= blockSize
    lia
  have hheader := parseHeader_entry hheld hfits
  have hlisted : File.Listed .dev cutEntry := by
    refine ⟨?_, File.converts_zero .dev⟩
    show 64 <= 0o755
    lia
  have hline : File.display .dev (fileAt cutRam (cutModule.address + 0) (headerOf cutEntry)) =
      .ok (File.line .dev (fileOf cutEntry)) := File.display_of_listed hlisted
  rcases body_inside haddress hheader hdata hline with ⟨walk', hbody, hnext⟩
  have hguard := (guard_iff (File.display .dev) haddress).mpr (header_ne_eofBlock hheld hfits)
  have hreads := hstays.2 walk' (.pass hguard hbody (.start walk'))
  rw [pass_inside_iff _ hnext] at hreads
  have hinside := hreads.1
  have hspan := entrySpan_ge (headerOf cutEntry).size
  have hlength : cutModule.length = blockSize := rfl
  have hpos : 0 < blockSize := Nat.zero_lt_succ 511
  lia

end Initrd

end NeurOS
