import NeurOS.Memory.Virtual

/-!
# A mapper on a tree of page tables

The page tables as a tree: the frame of the table at each path of indices, and
the entries of the last level.  The mapper walks the four levels, takes a frame
for each table it finds missing, and fails on a page that is mapped already.  It
shows that the behaviour assumed of the mapper can be had.
-/

namespace NeurOS

open Foundation

structure TableTree where
  tables : List Nat -> Option PhysFrame
  leaves : Page -> Option (PhysFrame × PageTableFlags)

namespace TableTree

def rootOnly (root : PhysFrame) : TableTree where
  tables path := if path = [] then some root else none
  leaves _ := none

def create (self : TableTree) (path : List Nat) (frame : PhysFrame) : TableTree :=
  { self with tables := fun other => if other = path then some frame else self.tables other }

def setLeaf (self : TableTree) (page : Page) (frame : PhysFrame)
    (flags : PageTableFlags) : TableTree :=
  { self with
    leaves := fun other => if other = page then some (frame, flags) else self.leaves other }

/-- Walk the paths and create the tables that are missing on them; the answer
says whether the allocator could serve them all. -/
def createTables (paging : Paging) (profile : Profile) :
    TableTree -> List (List Nat) -> PhysicalManager ->
      Outcome (TableTree × Bool × PhysicalManager)
  | t, [], manager => .ok (t, true, manager)
  | t, path :: rest, manager =>
      match t.tables path with
      | some _ => createTables paging profile t rest manager
      | none => do
          let (manager, allocated) ← manager.allocateFrame paging profile
          match allocated with
          | none => .ok (t, false, manager)
          | some frame => createTables paging profile (t.create path frame) rest manager

def mapTo (paging : Paging) (profile : Profile) (t : TableTree) (page : Page) (frame : PhysFrame)
    (flags : PageTableFlags) (manager : PhysicalManager) :
    Outcome (TableTree × Except MapToError Unit × PhysicalManager) := do
  let (t, served, manager) ← createTables paging profile t page.tablePaths manager
  match served, t.leaves page with
  | false, _ => .ok (t, .error .frameAllocationFailed, manager)
  | true, some _ => .ok (t, .error .pageAlreadyMapped, manager)
  | true, none => .ok (t.setLeaf page frame flags, .ok (), manager)

def mapper (paging : Paging) (profile : Profile) : Mapper TableTree where
  table := tables
  translate := leaves
  hugeInWay _ _ := False
  mapTo := mapTo paging profile

def absent (t : TableTree) (paths : List (List Nat)) : List (List Nat) :=
  paths.filter fun path => (t.tables path).isNone

theorem absent_create {t : TableTree} {path : List Nat} {frame : PhysFrame}
    {rest : List (List Nat)} (h : path ∉ rest) :
    (t.create path frame).absent rest = t.absent rest := by
  unfold absent create
  apply List.filter_congr
  intro other hother
  have hne : other ≠ path := by
    intro heq
    exact h (heq ▸ hother)
  simp [hne]

theorem createTables_served {paging : Paging} {profile : Profile} {paths : List (List Nat)}
    (hpaths : paths.Nodup) {t : TableTree} {manager manager' : PhysicalManager}
    {fresh : List PhysFrame}
    (h : manager.allocateFrames paging profile (t.absent paths).length =
      .ok (manager', fresh.map some)) :
    exists t', createTables paging profile t paths manager = .ok (t', true, manager') ∧
      (t.absent paths).map t'.tables = fresh.map some ∧
      (forall path, path ∉ t.absent paths -> t'.tables path = t.tables path) ∧
      t'.leaves = t.leaves := by
  induction paths generalizing t manager fresh with
  | nil =>
      cases fresh with
      | nil =>
          cases h
          exact ⟨t, rfl, rfl, fun _ _ => rfl, rfl⟩
      | cons frame rest => cases h
  | cons path rest ih =>
      have hnotin : path ∉ rest := (List.nodup_cons.mp hpaths).1
      have hrest : rest.Nodup := (List.nodup_cons.mp hpaths).2
      cases htable : t.tables path with
      | some frame =>
          have habsent : t.absent (path :: rest) = t.absent rest := by
            simp [absent, htable]
          rw [habsent] at h ⊢
          rcases ih hrest h with ⟨t', hrun, htables, hkept, hleaves⟩
          refine ⟨t', ?_, htables, hkept, hleaves⟩
          unfold createTables
          rw [htable]
          exact hrun
      | none =>
          have habsent : t.absent (path :: rest) = path :: t.absent rest := by
            simp [absent, htable]
          rw [habsent] at h ⊢
          rcases Machine.run_cons_eq_ok_iff.mp h with
            ⟨mid, answer, tail, hstep, htail, hanswers⟩
          cases fresh with
          | nil => cases hanswers
          | cons frame others =>
              injection hanswers with hanswer hothers
              rw [← hothers] at htail
              have hserve : mid.allocateFrames paging profile
                    ((t.create path frame).absent rest).length =
                  .ok (manager', others.map some) := by
                rw [absent_create hnotin]
                exact htail
              rcases ih hrest hserve with ⟨t', hrun, htables, hkept, hleaves⟩
              rw [absent_create hnotin] at htables hkept
              have hpath : path ∉ t.absent rest := by
                intro hmem
                exact hnotin (List.mem_filter.mp hmem).1
              refine ⟨t', ?_, ?_, ?_, hleaves⟩
              · have hallocate : manager.allocateFrame paging profile = .ok (mid, answer) := hstep
                unfold createTables
                rw [htable]
                simp only [hallocate, Outcome.ok_bind, ← hanswer]
                exact hrun
              · rw [List.map_cons, List.map_cons, htables, hkept path hpath]
                simp [create]
              · intro other hother
                rw [List.mem_cons, not_or] at hother
                rw [hkept other hother.2]
                simp [create, hother.1]

theorem mapper_documented (paging : Paging) (profile : Profile) :
    (mapper paging profile).Documented paging profile := by
  intro t page frame flags manager manager' fresh hunmapped _ hserve _ _
  have hleaf : t.leaves page = none := hunmapped
  rcases createTables_served page.tablePaths_nodup hserve with
    ⟨t', hrun, htables, hkept, hleaves⟩
  refine ⟨t'.setLeaf page frame flags, ?_, ?_⟩
  · show mapTo paging profile t page frame flags manager = _
    unfold mapTo
    simp only [hrun, Outcome.ok_bind, hleaves, hleaf]
  · constructor
    · exact htables
    · exact hkept
    · show (t'.setLeaf page frame flags).leaves page = _
      simp [setLeaf]
    · intro other hother
      show (t'.setLeaf page frame flags).leaves other = t.leaves other
      simp [setLeaf, hother, hleaves]
    · intro other
      exact Iff.rfl

def heapSampleMap : List Entry :=
  [{ base := 0, length := 0x100000, entryType := .other 1 },
   { base := 0x100000, length := 0x8000, entryType := .usable }]

theorem heapSampleMap_conformant : Conformant heapSampleMap := by
  constructor
  · decide
  · decide
  · decide
  · simp [heapSampleMap]

abbrev sampleMapper (profile : Profile) : Mapper TableTree :=
  mapper Paging.reference profile

def lowRoot : PhysFrame where
  startAddress := 0x1000
  aligned := rfl

theorem rootOnly_table {root frame : PhysFrame} {path : List Nat}
    (h : (rootOnly root).tables path = some frame) : path = [] ∧ frame = root := by
  unfold rootOnly at h
  simp only at h
  split at h
  case isTrue hpath =>
      cases h
      exact ⟨hpath, rfl⟩
  case isFalse => cases h

theorem lowRoot_reserved : VirtualManager.UsableDisjoint heapSampleMap lowRoot := by
  intro entry hentry husable address _ hhigh hcontains
  have hend : address < 0x1000 + 4096 := hhigh
  simp only [heapSampleMap, List.mem_cons, List.not_mem_nil, or_false] at hentry
  rcases hentry with rfl | rfl
  · cases husable
  · have hbase : 0x100000 <= address := hcontains.1
    lia

theorem rootOnly_disjoint {profile : Profile} (path : List Nat) (frame : PhysFrame)
    (h : (sampleMapper profile).table (rootOnly lowRoot) path = some frame) :
    VirtualManager.UsableDisjoint heapSampleMap frame := by
  rw [(rootOnly_table h).2]
  exact lowRoot_reserved

theorem allocateRange_heap_sample :
    exists range t' manager, heapRange Paging.reference heapStart 4097 = .ok range ∧
      VirtualManager.allocateRange (sampleMapper .dev) Paging.reference .dev (rootOnly lowRoot)
        range (PhysicalManager.new heapSampleMap) = .ok (t', manager) ∧
      VirtualManager.ExclusivelyMapped (sampleMapper .dev) (rootOnly lowRoot) t'
        [⟨heapStart, rfl⟩, ⟨heapStart + 4096, rfl⟩] := by
  rcases VirtualManager.allocateRange_heap Paging.reference_frames Paging.reference_pages
      (mapper_documented Paging.reference .dev) heapSampleMap_conformant
      (show 0 < 4097 by decide)
      (show SameHalf heapStart (heapStart + 4097) from Or.inl (by decide))
      (by decide) rootOnly_disjoint with
    ⟨range, hrange, hheap⟩
  have hpages : range.pages = [⟨heapStart, rfl⟩, ⟨heapStart + 4096, rfl⟩] := by
    rw [heapRange_eq Paging.reference_pages (by decide) (Or.inl (by decide))] at hrange
    cases hrange
    decide
  rw [hpages] at hheap
  rcases hheap (fun _ _ => rfl) (fun _ _ h => h) (by decide) with
    ⟨t', manager, hrun, hmapped, _⟩
  exact ⟨range, t', manager, hrange, hrun, hmapped⟩

structure Given (start size : Nat) (range : PageRangeInclusive) : Prop where
  map : Conformant heapSampleMap
  documented : (sampleMapper .dev).Documented Paging.reference .dev
  half : SameHalf start (start + size)
  range_eq : heapRange Paging.reference start size = .ok range
  unmapped : forall page, page ∈ range.pages ->
    (sampleMapper .dev).translate (rootOnly lowRoot) page = none
  open_way : forall page, page ∈ range.pages ->
    ¬ (sampleMapper .dev).hugeInWay (rootOnly lowRoot) page
  tables : forall path frame, (sampleMapper .dev).table (rootOnly lowRoot) path = some frame ->
    VirtualManager.UsableDisjoint heapSampleMap frame
  room : VirtualManager.needed (sampleMapper .dev) (rootOnly lowRoot) range.pages <=
    (PhysicalManager.frames heapSampleMap).length

/-- The walk of the reference panics where a range ends with the last page of the lower half. -/
theorem lastLower_panics : exists range, Given 0x7ffffffff000 0xfff range ∧
    VirtualManager.allocateRange (sampleMapper .dev) Paging.reference .dev (rootOnly lowRoot)
      range (PhysicalManager.new heapSampleMap) = .error .assertionFailed := by
  refine ⟨⟨Page.lastLower, Page.lastLower⟩, ?_, ?_⟩
  · constructor
    · exact heapSampleMap_conformant
    · exact mapper_documented _ _
    · exact Or.inl (by decide)
    · exact heapRange_eq Paging.reference_pages (by decide) (Or.inl (by decide))
    · exact fun _ _ => rfl
    · exact fun _ _ h => h
    · exact rootOnly_disjoint
    · decide
  · unfold VirtualManager.allocateRange
    rw [Paging.walk_lastLower]
    rfl

end TableTree

end NeurOS
