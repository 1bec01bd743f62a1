import NeurOS.Memory.Physical

/-!
# The range of the heap and the mapper

The pages of the heap, and the mapper that enters a page into the page tables.  The
mapper comes from outside the repository; it is a parameter here, with its
documented behaviour as the one assumption about it.
-/

namespace NeurOS

open Foundation

/-!
# The range of the heap
-/

/-- The pages from the one of the first byte to the one of the last byte. -/
def heapRange (paging : Paging) (start size : Nat) : Outcome PageRangeInclusive := do
  let heapStart ← paging.virtAddr start
  let heapSum ← paging.add heapStart size
  let heapEnd ← paging.sub heapSum 1
  .ok
    { first := paging.containingPage heapStart
      last := paging.containingPage heapEnd }

def heapStart : Nat := 0x444444440000

def heapSize : Nat := 4 * 1024 * 1024

theorem heapRange_eq {paging : Paging} (hpaging : paging.PagesDocumented) {start size : Nat}
    (hsize : 0 < size) (hhalf : SameHalf start (start + size)) :
    heapRange paging start size =
      .ok { first := Page.containing start, last := Page.containing (start + size - 1) } := by
  have hstart : Canonical start := by
    rcases hhalf with hlow | hhigh
    · exact Or.inl (by lia)
    · exact Or.inr ⟨hhigh.1, by lia⟩
  have hsum : Canonical (start + size) := by
    rcases hhalf with hlow | hhigh
    · exact Or.inl hlow
    · exact Or.inr ⟨by lia, hhigh.2⟩
  have hlast : Canonical (start + size - 1) := by
    rcases hhalf with hlow | hhigh
    · exact Or.inl (by lia)
    · exact Or.inr ⟨by lia, by lia⟩
  unfold heapRange
  rw [hpaging.virtAddr start hstart, Outcome.ok_bind, hpaging.add ⟨start, hstart⟩ size hsum,
    Outcome.ok_bind, hpaging.sub ⟨start + size, hsum⟩ 1 hlast (by show 1 <= start + size; lia),
    Outcome.ok_bind, hpaging.containingPage, hpaging.containingPage]

/-!
# The mapper

A mapper works on some representation of the page tables.  Its observations are
the frame of the table at a path of indices, the translation of a page, and
whether a huge page blocks the way to a page.
-/

abbrev PageTableFlags := BitVec 64

namespace PageTableFlags

def present : PageTableFlags := 1

def writable : PageTableFlags := 2

def contains (self flags : PageTableFlags) : Bool :=
  self &&& flags == flags

end PageTableFlags

inductive MapToError where
  | frameAllocationFailed
  | parentEntryHugePage
  | pageAlreadyMapped
  deriving DecidableEq, Repr

structure Mapper (τ : Type) where
  table : τ -> List Nat -> Option PhysFrame
  translate : τ -> Page -> Option (PhysFrame × PageTableFlags)
  hugeInWay : τ -> Page -> Prop
  mapTo : τ -> Page -> PhysFrame -> PageTableFlags -> PhysicalManager ->
    Outcome (τ × Except MapToError Unit × PhysicalManager)

namespace Mapper

variable {τ : Type}

def missing (mapper : Mapper τ) (t : τ) (page : Page) : List (List Nat) :=
  page.tablePaths.filter fun path => (mapper.table t path).isNone

/-- The effect of mapping one page: each missing table is created in one fresh
frame, the page translates to its frame, and nothing else changes. -/
structure MapsOne (mapper : Mapper τ) (t t' : τ) (page : Page) (frame : PhysFrame)
    (flags : PageTableFlags) (fresh : List PhysFrame) : Prop where
  created : (mapper.missing t page).map (mapper.table t') = fresh.map some
  kept : forall path, path ∉ mapper.missing t page ->
    mapper.table t' path = mapper.table t path
  translated : mapper.translate t' page = some (frame, flags)
  others : forall other, other ≠ page ->
    mapper.translate t' other = mapper.translate t other
  huge : forall other, mapper.hugeInWay t' other <-> mapper.hugeInWay t other

/-- The documented behaviour of {lit}`map_to` on an unmapped page with no huge
page in the way, when the allocator can serve every missing table with a frame
that is not already a table. -/
def Documented (mapper : Mapper τ) (paging : Paging) (profile : Profile) : Prop :=
  forall t page frame flags manager manager' fresh,
    mapper.translate t page = none -> ¬ mapper.hugeInWay t page ->
    PhysicalManager.allocateFrames paging profile manager (mapper.missing t page).length =
      .ok (manager', fresh.map some) ->
    fresh.Nodup -> (forall path f, f ∈ fresh -> mapper.table t path ≠ some f) ->
    exists t', mapper.mapTo t page frame flags manager = .ok (t', .ok (), manager') ∧
      mapper.MapsOne t t' page frame flags fresh

end Mapper

end NeurOS
