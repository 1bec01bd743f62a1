import NeurOS.Foundation.Iterator
import NeurOS.Foundation.Traced

/-!
# Addresses, frames and pages

The functions on addresses, frames and pages come from outside the repository.  They
are parameters here, with their documented behaviour as the one assumption about
them; a reference shows that it can be had.
-/

namespace NeurOS

open Foundation

/-!
# Frames
-/

structure PhysAddr where
  value : Nat
  lt_bound : value < 2 ^ 52
  deriving DecidableEq, Repr

structure PhysFrame where
  startAddress : Nat
  aligned : startAddress % 4096 = 0
  deriving DecidableEq, Repr

theorem PhysFrame.ext {first second : PhysFrame}
    (h : first.startAddress = second.startAddress) : first = second := by
  cases first
  cases second
  cases h
  rfl

/-!
# Pages
-/

/-- The two canonical halves of the address space. -/
def Canonical (address : Nat) : Prop :=
  address < 2 ^ 47 ∨ (2 ^ 64 - 2 ^ 47 <= address ∧ address < 2 ^ 64)

instance (address : Nat) : Decidable (Canonical address) := by
  unfold Canonical
  exact inferInstance

def SameHalf (start stop : Nat) : Prop :=
  stop < 2 ^ 47 ∨ (2 ^ 64 - 2 ^ 47 <= start ∧ stop < 2 ^ 64)

structure VirtAddr where
  value : Nat
  canonical : Canonical value
  deriving DecidableEq, Repr

structure Page where
  startAddress : Nat
  aligned : startAddress % 4096 = 0
  deriving Repr

namespace Page

theorem start_aligned (address : Nat) : (address - address % 4096) % 4096 = 0 := by
  lia

def containing (address : Nat) : Page where
  startAddress := address - address % 4096
  aligned := start_aligned address

theorem ext {first second : Page}
    (h : first.startAddress = second.startAddress) : first = second := by
  cases first
  cases second
  cases h
  rfl

instance : DecidableEq Page := fun first second =>
  decidable_of_iff (first.startAddress = second.startAddress)
    ⟨Page.ext, congrArg Page.startAddress⟩

theorem containing_startAddress (page : Page) :
    containing page.startAddress = page := by
  apply ext
  show page.startAddress - page.startAddress % 4096 = page.startAddress
  rw [page.aligned, Nat.sub_zero]

theorem containing_mono {address other : Nat} (h : address <= other) :
    (containing address).startAddress <= (containing other).startAddress := by
  show address - address % 4096 <= other - other % 4096
  lia

theorem containing_sameHalf {address other : Nat} (h : SameHalf address other) :
    SameHalf (containing address).startAddress (containing other).startAddress := by
  show SameHalf (address - address % 4096) (other - other % 4096)
  rcases h with hlow | ⟨hlow, hhigh⟩
  · exact Or.inl (by lia)
  · exact Or.inr ⟨by lia, by lia⟩

/-- The indices of a page in the tables of levels 4, 3, 2 and 1. -/
def indices (page : Page) : List Nat :=
  [page.startAddress / 2 ^ 39 % 512, page.startAddress / 2 ^ 30 % 512,
    page.startAddress / 2 ^ 21 % 512, page.startAddress / 2 ^ 12 % 512]

/-- The paths of the intermediate tables on the way to a page, outermost first. -/
def tablePaths (page : Page) : List (List Nat) :=
  [page.indices.take 1, page.indices.take 2, page.indices.take 3]

theorem tablePaths_nodup (page : Page) : page.tablePaths.Nodup := by
  simp [tablePaths, indices]

def lastLower : Page where
  startAddress := 2 ^ 47 - 4096
  aligned := by lia

end Page

structure PageRangeInclusive where
  first : Page
  last : Page
  deriving DecidableEq, Repr

namespace PageRangeInclusive

def pages (self : PageRangeInclusive) : List Page :=
  (Iterator.stepBy self.first.startAddress (self.last.startAddress + 1) 4096).map
    Page.containing

theorem mem_pages_iff (self : PageRangeInclusive) (page : Page) :
    page ∈ self.pages <-> self.first.startAddress <= page.startAddress ∧
      page.startAddress <= self.last.startAddress := by
  have hfirst : self.first.startAddress % 4096 = 0 := self.first.aligned
  have hpage : page.startAddress % 4096 = 0 := page.aligned
  unfold pages
  rw [List.mem_map]
  constructor
  · intro h
    rcases h with ⟨x, hx, hxpage⟩
    rcases (Iterator.mem_stepBy_iff (by lia)).mp hx with ⟨k, hk, hlt⟩
    have hstart : page.startAddress = x - x % 4096 := by
      rw [← hxpage]
      rfl
    lia
  · intro h
    rcases h with ⟨hlow, hhigh⟩
    refine ⟨page.startAddress, ?_, Page.containing_startAddress page⟩
    apply (Iterator.mem_stepBy_iff (by lia)).mpr
    exact ⟨(page.startAddress - self.first.startAddress) / 4096, by lia, by lia⟩

theorem pages_nodup (self : PageRangeInclusive) : self.pages.Nodup := by
  have hfirst : self.first.startAddress % 4096 = 0 := self.first.aligned
  unfold pages
  apply List.Nodup.map_on _ (Iterator.stepBy_nodup _ _ (by lia))
  intro x hx y hy hxy
  rcases (Iterator.mem_stepBy_iff (by lia)).mp hx with ⟨k, hk, _⟩
  rcases (Iterator.mem_stepBy_iff (by lia)).mp hy with ⟨l, hl, _⟩
  have hstart : x - x % 4096 = y - y % 4096 := congrArg Page.startAddress hxy
  lia

theorem pages_cons {first last next : Page} (h : first.startAddress <= last.startAddress)
    (hnext : next.startAddress = first.startAddress + 4096) :
    (mk first last).pages = first :: (mk next last).pages := by
  unfold pages
  rw [Iterator.stepBy_cons (by lia) (show first.startAddress < last.startAddress + 1 by lia),
    List.map_cons, Page.containing_startAddress, hnext]

theorem pages_empty {first last : Page} (h : last.startAddress < first.startAddress) :
    (mk first last).pages = [] := by
  unfold pages
  rw [Iterator.stepBy_empty (by lia) (show last.startAddress + 1 <= first.startAddress by lia)]
  rfl

end PageRangeInclusive

/-!
# The functions from outside
-/

/-- The constructors, the sums and differences, what contains an address, and the pages that
walking a range yields, up to a panic if there is one. -/
structure Paging where
  physAddr : Nat -> Outcome PhysAddr
  containingFrame : PhysAddr -> PhysFrame
  virtAddr : Nat -> Outcome VirtAddr
  add : VirtAddr -> Nat -> Outcome VirtAddr
  sub : VirtAddr -> Nat -> Outcome VirtAddr
  containingPage : VirtAddr -> Page
  walk : PageRangeInclusive -> Traced Page Unit

namespace Paging

structure FramesDocumented (paging : Paging) : Prop where
  physAddr : forall value (h : value < 2 ^ 52), paging.physAddr value = .ok ⟨value, h⟩
  containingFrame : forall address, (paging.containingFrame address).startAddress =
    address.value - address.value % 4096

/-- A walk may fail to move past the last page of the lower half. -/
structure PagesDocumented (paging : Paging) : Prop where
  virtAddr : forall value (h : Canonical value), paging.virtAddr value = .ok ⟨value, h⟩
  add : forall (address : VirtAddr) offset (h : Canonical (address.value + offset)),
    paging.add address offset = .ok ⟨address.value + offset, h⟩
  sub : forall (address : VirtAddr) offset (h : Canonical (address.value - offset)),
    offset <= address.value -> paging.sub address offset = .ok ⟨address.value - offset, h⟩
  containingPage : forall address, paging.containingPage address = Page.containing address.value
  walk : forall range : PageRangeInclusive,
    range.first.startAddress <= range.last.startAddress ->
    SameHalf range.first.startAddress range.last.startAddress ->
    range.last ≠ Page.lastLower -> paging.walk range = Traced.emits range.pages ()

/-!
# A reference
-/

namespace Reference

def physAddr (value : Nat) : Outcome PhysAddr :=
  if h : value < 2 ^ 52 then .ok ⟨value, h⟩ else .error .assertionFailed

def containingFrame (address : PhysAddr) : PhysFrame where
  startAddress := address.value - address.value % 4096
  aligned := by lia

def virtAddr (value : Nat) : Outcome VirtAddr :=
  if h : Canonical value then .ok ⟨value, h⟩ else .error .assertionFailed

def add (address : VirtAddr) (offset : Nat) : Outcome VirtAddr :=
  virtAddr (address.value + offset)

def sub (address : VirtAddr) (offset : Nat) : Outcome VirtAddr :=
  if offset <= address.value then
    virtAddr (address.value - offset)
  else
    .error .arithmeticOverflow

/-- The first page moves on ahead of being yielded; at the end of the address space the last page
moves back instead. -/
def walkFrom : Nat -> Page -> Page -> Traced Page Unit
  | 0, _, _ => pure ()
  | calls + 1, first, last =>
      if first.startAddress <= last.startAddress then
        if first.startAddress < 2 ^ 64 - 4096 then do
          let next ← virtAddr (first.startAddress + 4096)
          Traced.emit first
          walkFrom calls (Page.containing next.value) last
        else
          Traced.emit first
      else
        pure ()

def walk (range : PageRangeInclusive) : Traced Page Unit :=
  walkFrom ((range.last.startAddress - range.first.startAddress) / 4096 + 1) range.first
    range.last

end Reference

def reference : Paging where
  physAddr := Reference.physAddr
  containingFrame := Reference.containingFrame
  virtAddr := Reference.virtAddr
  add := Reference.add
  sub := Reference.sub
  containingPage address := Page.containing address.value
  walk := Reference.walk

theorem reference_frames : reference.FramesDocumented where
  physAddr _ h := dif_pos h
  containingFrame _ := rfl

theorem virtAddr_canonical {value : Nat} (h : Canonical value) :
    Reference.virtAddr value = .ok ⟨value, h⟩ :=
  dif_pos h

theorem walkFrom_pages {first last : Page} {calls : Nat}
    (hhalf : SameHalf first.startAddress last.startAddress) (hlast : last ≠ Page.lastLower)
    (hcalls : last.startAddress + 4096 = first.startAddress + 4096 * calls) :
    Reference.walkFrom calls first last =
      Traced.emits (PageRangeInclusive.mk first last).pages () := by
  induction calls generalizing first with
  | zero =>
      rw [PageRangeInclusive.pages_empty (by lia)]
      rfl
  | succ calls ih =>
      have hle : first.startAddress <= last.startAddress := by lia
      have hfirst := first.aligned
      have hend := last.aligned
      have hne : last.startAddress ≠ 2 ^ 47 - 4096 := fun heq => hlast (Page.ext heq)
      rw [Reference.walkFrom, if_pos hle]
      by_cases htop : first.startAddress < 2 ^ 64 - 4096
      · have hcanonical : Canonical (first.startAddress + 4096) := by
          rcases hhalf with hlow | ⟨hlow, hhigh⟩
          · exact Or.inl (by lia)
          · exact Or.inr ⟨by lia, by lia⟩
        have hnext : (Page.containing (first.startAddress + 4096)).startAddress =
            first.startAddress + 4096 := by
          show first.startAddress + 4096 - (first.startAddress + 4096) % 4096 = _
          lia
        have hrest : SameHalf (Page.containing (first.startAddress + 4096)).startAddress
            last.startAddress := by
          rw [hnext]
          rcases hhalf with hlow | ⟨hlow, hhigh⟩
          · exact Or.inl hlow
          · exact Or.inr ⟨by lia, hhigh⟩
        have hwalk := ih hrest (by rw [hnext]; lia)
        rw [if_pos htop, virtAddr_canonical hcanonical,
          PageRangeInclusive.pages_cons hle hnext]
        change Traced.after [first] (Reference.walkFrom calls
          (Page.containing (first.startAddress + 4096)) last) = _
        rw [hwalk]
        rfl
      · have heq : first = last := by
          apply Page.ext
          rcases hhalf with hlow | ⟨hlow, hhigh⟩ <;> lia
        let next : Page := { startAddress := last.startAddress + 4096, aligned := by lia }
        have hnext : last.startAddress < next.startAddress := Nat.lt_add_of_pos_right (by lia)
        rw [if_neg htop, heq, @PageRangeInclusive.pages_cons last last next (Nat.le_refl _) rfl,
          PageRangeInclusive.pages_empty hnext]
        rfl

theorem reference_pages : reference.PagesDocumented where
  virtAddr _ h := virtAddr_canonical h
  add _ _ h := virtAddr_canonical h
  sub _ _ h hle := (if_pos hle).trans (virtAddr_canonical h)
  containingPage _ := rfl
  walk range hle hhalf hlast := by
    have hfirst := range.first.aligned
    have hend := range.last.aligned
    exact walkFrom_pages hhalf hlast (by lia)

/-- The walk panics ahead of the last page of the lower half. -/
theorem walk_lastLower :
    reference.walk ⟨Page.lastLower, Page.lastLower⟩ = Traced.lift (.error .assertionFailed) := rfl

end Paging

end NeurOS
