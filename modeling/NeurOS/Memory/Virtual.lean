import NeurOS.Memory.Paging
import Mathlib.Data.Finset.Card
import Mathlib.Data.Finset.Dedup

/-!
# The virtual memory manager

Mapping a range of pages takes frames from the physical manager for two
consumers: the page itself, and the page tables that the mapper finds missing on
the way to it.
-/

namespace NeurOS

open Foundation

/-!
# Mapping a range of pages
-/

namespace VirtualManager

variable {τ : Type}

def allocatePages (mapper : Mapper τ) (paging : Paging) (profile : Profile) :
    τ -> List Page -> PhysicalManager -> Outcome (τ × PhysicalManager)
  | t, [], manager => .ok (t, manager)
  | t, page :: rest, manager => do
      let (manager, allocated) ← manager.allocateFrame paging profile
      let frame ← Outcome.unwrap allocated
      let flags := PageTableFlags.present ||| PageTableFlags.writable
      let (t, result, manager) ← mapper.mapTo t page frame flags manager
      match result with
      | .error _ => .error .unwrapErr
      | .ok () => allocatePages mapper paging profile t rest manager

/-- The walk over the range ends, or it panics behind the pages that it has yielded. -/
def allocateRange (mapper : Mapper τ) (paging : Paging) (profile : Profile) (t : τ)
    (range : PageRangeInclusive) (manager : PhysicalManager) : Outcome (τ × PhysicalManager) := do
  let result ← allocatePages mapper paging profile t (paging.walk range).emitted manager
  (paging.walk range).result
  .ok result

def initializeHeap (mapper : Mapper τ) (paging : Paging) (profile : Profile) (t : τ)
    (manager : PhysicalManager) : Outcome (τ × PhysicalManager) := do
  let range ← heapRange paging heapStart heapSize
  allocateRange mapper paging profile t range manager

/-- The frames that mapping the pages takes: one for each page and one for each
table that is missing on the way to some of them. -/
def needed (mapper : Mapper τ) (t : τ) (pages : List Page) : Nat :=
  pages.length + (pages.flatMap (mapper.missing t)).toFinset.card

structure ExclusivelyMapped (mapper : Mapper τ) (t t' : τ) (pages : List Page) :
    Prop where
  mapped : forall page, page ∈ pages -> exists frame flags,
    mapper.translate t' page = some (frame, flags) ∧
      flags.contains PageTableFlags.present = true ∧
      flags.contains PageTableFlags.writable = true
  distinct : forall page other frame flags flags', page ∈ pages -> other ∈ pages ->
    mapper.translate t' page = some (frame, flags) ->
    mapper.translate t' other = some (frame, flags') -> page = other
  no_table : forall page frame flags, page ∈ pages ->
    mapper.translate t' page = some (frame, flags) ->
    forall path, mapper.table t path ≠ some frame ∧ mapper.table t' path ≠ some frame
  outside : forall page, page ∉ pages ->
    mapper.translate t' page = mapper.translate t page

/-!
# One page of the loop
-/

section Loop

variable {mapper : Mapper τ} {t t' : τ} {page : Page} {frame : PhysFrame}
variable {flags : PageTableFlags} {fresh : List PhysFrame}

theorem missing_nodup (mapper : Mapper τ) (t : τ) (page : Page) :
    (mapper.missing t page).Nodup :=
  page.tablePaths_nodup.filter _

theorem table_of_mapsOne (h : mapper.MapsOne t t' page frame flags fresh)
    {path : List Nat} {f : PhysFrame} (htable : mapper.table t' path = some f) :
    mapper.table t path = some f ∨ f ∈ fresh := by
  by_cases hpath : path ∈ mapper.missing t page
  · right
    have hmem : mapper.table t' path ∈ (mapper.missing t page).map (mapper.table t') :=
      List.mem_map_of_mem hpath
    rw [h.created, htable] at hmem
    rcases List.mem_map.mp hmem with ⟨g, hg, hgf⟩
    injection hgf with hgf
    rw [← hgf]
    exact hg
  · left
    rw [← h.kept path hpath]
    exact htable

theorem table_kept (h : mapper.MapsOne t t' page frame flags fresh)
    {path : List Nat} {f : PhysFrame} (htable : mapper.table t path = some f) :
    mapper.table t' path = some f := by
  have hpath : path ∉ mapper.missing t page := by
    intro hmem
    have hnone := (List.mem_filter.mp hmem).2
    rw [htable] at hnone
    cases hnone
  rw [h.kept path hpath]
  exact htable

theorem table_created (h : mapper.MapsOne t t' page frame flags fresh)
    {path : List Nat} (hpath : path ∈ mapper.missing t page) :
    (mapper.table t' path).isNone = false := by
  have hmem : mapper.table t' path ∈ (mapper.missing t page).map (mapper.table t') :=
    List.mem_map_of_mem hpath
  rw [h.created] at hmem
  rcases List.mem_map.mp hmem with ⟨g, _, hg⟩
  rw [← hg]
  rfl

theorem missing_of_mapsOne (h : mapper.MapsOne t t' page frame flags fresh)
    (other : Page) :
    mapper.missing t' other =
      (mapper.missing t other).filter fun path => path ∉ mapper.missing t page := by
  unfold Mapper.missing
  rw [List.filter_filter]
  apply List.filter_congr
  intro path _
  by_cases hpath : path ∈ mapper.missing t page
  · rw [table_created h hpath]
    unfold Mapper.missing at hpath
    simp [hpath]
  · rw [h.kept path hpath]
    unfold Mapper.missing at hpath
    simp only [hpath, not_false_eq_true, decide_true, Bool.true_and]

theorem needed_of_mapsOne (h : mapper.MapsOne t t' page frame flags fresh)
    (rest : List Page) :
    needed mapper t (page :: rest) =
      1 + (mapper.missing t page).length + needed mapper t' rest := by
  have hrest : (rest.flatMap (mapper.missing t')).toFinset =
      (rest.flatMap (mapper.missing t)).toFinset \ (mapper.missing t page).toFinset := by
    ext path
    simp only [List.mem_toFinset, Finset.mem_sdiff, List.mem_flatMap,
      missing_of_mapsOne h, List.mem_filter, decide_eq_true_eq]
    constructor
    · intro hmem
      rcases hmem with ⟨other, hother, hpath, hnot⟩
      exact ⟨⟨other, hother, hpath⟩, hnot⟩
    · intro hmem
      rcases hmem with ⟨⟨other, hother, hpath⟩, hnot⟩
      exact ⟨other, hother, hpath, hnot⟩
  have hcard : ((mapper.missing t page).toFinset ∪
        (rest.flatMap (mapper.missing t)).toFinset).card =
      (mapper.missing t page).toFinset.card +
        ((rest.flatMap (mapper.missing t)).toFinset \
          (mapper.missing t page).toFinset).card := by
    rw [← Finset.card_union_of_disjoint Finset.disjoint_sdiff, Finset.union_sdiff_self_eq_union]
  have hfirst : (mapper.missing t page).toFinset.card = (mapper.missing t page).length :=
    List.toFinset_card_of_nodup (missing_nodup mapper t page)
  unfold needed
  rw [List.flatMap_cons, List.toFinset_append, hcard, hfirst, hrest, List.length_cons]
  lia

end Loop

/-!
# The whole loop

The pool is what is left of the sequence of usable frames.  Everything that the
loop hands out comes from the pool in order, so nothing of it is handed out
twice, whether it ends up as a page or as a table.
-/

def pool (map : List Entry) (next : Nat) : List PhysFrame :=
  (PhysicalManager.frames map).drop next

structure Mapped (mapper : Mapper τ) (available : List PhysFrame) (t t' : τ)
    (pages : List Page) : Prop where
  mapped : forall page, page ∈ pages -> exists frame, frame ∈ available ∧
    mapper.translate t' page =
      some (frame, PageTableFlags.present ||| PageTableFlags.writable) ∧
    forall path, mapper.table t' path ≠ some frame
  distinct : forall page other frame flags flags', page ∈ pages -> other ∈ pages ->
    mapper.translate t' page = some (frame, flags) ->
    mapper.translate t' other = some (frame, flags') -> page = other
  outside : forall page, page ∉ pages ->
    mapper.translate t' page = mapper.translate t page
  tables : forall path frame, mapper.table t' path = some frame ->
    mapper.table t path = some frame ∨ frame ∈ available
  kept : forall path frame, mapper.table t path = some frame ->
    mapper.table t' path = some frame

theorem mapped_nil (mapper : Mapper τ) (available : List PhysFrame) (t : τ) :
    Mapped mapper available t t [] := by
  constructor
  · intro page hpage
    cases hpage
  · intro page other frame flags flags' hpage
    cases hpage
  · intro page _
    rfl
  · intro path frame h
    exact Or.inl h
  · intro path frame h
    exact h

theorem mapped_cons {mapper : Mapper τ} {t mid t' : τ} {page : Page}
    {rest : List Page} {frame : PhysFrame} {fresh later : List PhysFrame}
    (hpages : (page :: rest).Nodup) (hpool : (frame :: (fresh ++ later)).Nodup)
    (hunused : forall path, mapper.table t path ≠ some frame)
    (hone : mapper.MapsOne t mid page frame
      (PageTableFlags.present ||| PageTableFlags.writable) fresh)
    (hrest : Mapped mapper later mid t' rest) :
    Mapped mapper (frame :: (fresh ++ later)) t t' (page :: rest) := by
  have hnotin : page ∉ rest := (List.nodup_cons.mp hpages).1
  have hframe : frame ∉ fresh ++ later := (List.nodup_cons.mp hpool).1
  have hpage : mapper.translate t' page =
      some (frame, PageTableFlags.present ||| PageTableFlags.writable) := by
    rw [hrest.outside page hnotin]
    exact hone.translated
  have hlater : forall {f : PhysFrame}, f ∈ later -> f ∈ frame :: (fresh ++ later) := by
    intro f hf
    exact List.mem_cons_of_mem _ (List.mem_append_right _ hf)
  have hother : forall other f flags, other ∈ rest ->
      mapper.translate t' other = some (f, flags) -> f ∈ later := by
    intro other f flags hmem htranslate
    rcases hrest.mapped other hmem with ⟨g, hg, hgt, _⟩
    rw [hgt] at htranslate
    cases htranslate
    exact hg
  constructor
  · intro other hmem
    rcases List.mem_cons.mp hmem with heq | hmem
    · subst heq
      refine ⟨frame, List.mem_cons_self, hpage, ?_⟩
      intro path htable
      rcases hrest.tables path frame htable with hmid | hpooled
      · rcases table_of_mapsOne hone hmid with hold | hnew
        · exact hunused path hold
        · exact hframe (List.mem_append_left _ hnew)
      · exact hframe (List.mem_append_right _ hpooled)
    · rcases hrest.mapped other hmem with ⟨f, hf, htranslate, htable⟩
      exact ⟨f, hlater hf, htranslate, htable⟩
  · intro first second f flags flags' hfirst hsecond htfirst htsecond
    rcases List.mem_cons.mp hfirst with hfirst | hfirst
    · rcases List.mem_cons.mp hsecond with hsecond | hsecond
      · rw [hfirst, hsecond]
      · rw [hfirst, hpage] at htfirst
        cases htfirst
        exact absurd (List.mem_append_right _ (hother second frame _ hsecond htsecond)) hframe
    · rcases List.mem_cons.mp hsecond with hsecond | hsecond
      · rw [hsecond, hpage] at htsecond
        cases htsecond
        exact absurd (List.mem_append_right _ (hother first frame _ hfirst htfirst)) hframe
      · exact hrest.distinct first second f flags flags' hfirst hsecond htfirst htsecond
  · intro other hmem
    rw [List.mem_cons, not_or] at hmem
    rw [hrest.outside other hmem.2]
    exact hone.others other hmem.1
  · intro path f htable
    rcases hrest.tables path f htable with hmid | hpooled
    · rcases table_of_mapsOne hone hmid with hold | hnew
      · exact Or.inl hold
      · exact Or.inr (List.mem_cons_of_mem _ (List.mem_append_left _ hnew))
    · exact Or.inr (hlater hpooled)
  · intro path f htable
    exact hrest.kept path f (table_kept hone htable)

/-- The next frame and the following ones, as the loop takes them. -/
theorem pool_split {map : List Entry} {next : Nat} (count : Nat)
    (h : next < (PhysicalManager.frames map).length) :
    exists frame, (PhysicalManager.frames map)[next]? = some frame ∧
      pool map next =
        frame :: ((pool map (next + 1)).take count ++ pool map (next + 1 + count)) := by
  refine ⟨(PhysicalManager.frames map)[next], List.getElem?_eq_getElem h, ?_⟩
  have hdrop : pool map (next + 1 + count) = (pool map (next + 1)).drop count := by
    unfold pool
    rw [List.drop_drop]
  rw [hdrop, List.take_append_drop]
  exact List.drop_eq_getElem_cons h

/-- What the loop needs of the pages that are left and of the frames that are left. -/
structure Ready (mapper : Mapper τ) (map : List Entry) (t : τ) (next : Nat)
    (pages : List Page) : Prop where
  nodup : pages.Nodup
  unmapped : forall page, page ∈ pages -> mapper.translate t page = none
  open_way : forall page, page ∈ pages -> ¬ mapper.hugeInWay t page
  tables : forall path frame, mapper.table t path = some frame -> frame ∉ pool map next
  room : next + needed mapper t pages <= (PhysicalManager.frames map).length

theorem needed_cons (mapper : Mapper τ) (t : τ) (page : Page) (rest : List Page) :
    1 + (mapper.missing t page).length <= needed mapper t (page :: rest) := by
  have hsub : (mapper.missing t page).toFinset ⊆
      ((page :: rest).flatMap (mapper.missing t)).toFinset := by
    intro path hpath
    simp only [List.mem_toFinset, List.flatMap_cons, List.mem_append] at hpath ⊢
    exact Or.inl hpath
  have hcard := Finset.card_le_card hsub
  rw [List.toFinset_card_of_nodup (missing_nodup mapper t page)] at hcard
  unfold needed
  rw [List.length_cons]
  lia

section Page

variable {mapper : Mapper τ} {paging : Paging} {profile : Profile} {map : List Entry}
variable {t mid : τ} {next : Nat}
variable {page : Page} {rest : List Page} {frame : PhysFrame} {fresh : List PhysFrame}
variable {flags : PageTableFlags}

theorem allocatePage (hframes : paging.FramesDocumented)
    (hdoc : mapper.Documented paging profile) (hmap : Conformant map)
    (hsmall : (PhysicalManager.frames map).length < 2 ^ 64)
    (h : Ready mapper map t next (page :: rest)) (flags : PageTableFlags) :
    exists frame fresh mid,
      let after := next + 1 + (mapper.missing t page).length
      pool map next = frame :: (fresh ++ pool map after) ∧
      PhysicalManager.allocateFrame paging profile { memoryMap := map, next := next } =
        .ok ({ memoryMap := map, next := next + 1 }, some frame) ∧
      mapper.mapTo t page frame flags { memoryMap := map, next := next + 1 } =
        .ok (mid, .ok (), { memoryMap := map, next := after }) ∧
      mapper.MapsOne t mid page frame flags fresh := by
  have hroom := h.room
  have hcount := needed_cons mapper t page rest
  let fresh := (pool map (next + 1)).take (mapper.missing t page).length
  let after := next + 1 + (mapper.missing t page).length
  rcases pool_split (mapper.missing t page).length
    (show next < (PhysicalManager.frames map).length by lia) with ⟨frame, hframe, hsplit⟩
  have hpool : (frame :: (fresh ++ pool map after)).Nodup := by
    rw [← hsplit]
    exact (PhysicalManager.frames_nodup hmap).sublist (List.drop_sublist _ _)
  have hfresh : fresh.Nodup :=
    (List.nodup_append.mp (List.nodup_cons.mp hpool).2).1
  have hallocate : PhysicalManager.allocateFrame paging profile
        { memoryMap := map, next := next } =
      .ok ({ memoryMap := map, next := next + 1 }, some frame) := by
    rw [PhysicalManager.allocateFrame_eq hframes profile hmap
      (by show next + 1 < 2 ^ 64; lia)]
    rw [← hframe]
  have hserve : PhysicalManager.allocateFrames paging profile
        { memoryMap := map, next := next + 1 } (mapper.missing t page).length =
      .ok ({ memoryMap := map, next := after }, fresh.map some) := by
    rw [PhysicalManager.allocateFrames_eq hframes profile hmap
      (by show next + 1 + (mapper.missing t page).length < 2 ^ 64; lia)]
    rw [Iterator.supply_eq_map_some (by
      show next + 1 + (mapper.missing t page).length <= _; lia)]
    rfl
  have hnew : forall path f, f ∈ fresh -> mapper.table t path ≠ some f := by
    intro path f hf htable
    apply h.tables path f htable
    rw [hsplit]
    exact List.mem_cons_of_mem _ (List.mem_append_left _ hf)
  rcases hdoc t page frame flags _ _ fresh (h.unmapped page List.mem_cons_self)
      (h.open_way page List.mem_cons_self) hserve hfresh hnew with ⟨mid, hmapTo, hone⟩
  exact ⟨frame, fresh, mid, hsplit, hallocate, hmapTo, hone⟩

theorem ready_rest (hmap : Conformant map) (h : Ready mapper map t next (page :: rest))
    (hone : mapper.MapsOne t mid page frame flags fresh)
    (hsplit : pool map next =
      frame :: (fresh ++ pool map (next + 1 + (mapper.missing t page).length))) :
    Ready mapper map mid (next + 1 + (mapper.missing t page).length) rest := by
  have hpool : (pool map next).Nodup :=
    (PhysicalManager.frames_nodup hmap).sublist (List.drop_sublist _ _)
  rw [hsplit] at hpool
  constructor
  · exact (List.nodup_cons.mp h.nodup).2
  · intro other hother
    have hne : other ≠ page := by
      intro heq
      exact (List.nodup_cons.mp h.nodup).1 (heq ▸ hother)
    rw [hone.others other hne]
    exact h.unmapped other (List.mem_cons_of_mem _ hother)
  · intro other hother hblocked
    exact h.open_way other (List.mem_cons_of_mem _ hother) ((hone.huge other).mp hblocked)
  · intro path f htable hmem
    rcases table_of_mapsOne hone htable with hold | hcreated
    · apply h.tables path f hold
      rw [hsplit]
      exact List.mem_cons_of_mem _ (List.mem_append_right _ hmem)
    · exact (List.nodup_append.mp (List.nodup_cons.mp hpool).2).2.2 f hcreated f hmem rfl
  · have hroom := h.room
    rw [needed_of_mapsOne hone rest] at hroom
    lia

end Page

theorem allocatePages_loop {mapper : Mapper τ} {paging : Paging} {profile : Profile}
    (hframes : paging.FramesDocumented) (hdoc : mapper.Documented paging profile)
    {map : List Entry} (hmap : Conformant map)
    (hsmall : (PhysicalManager.frames map).length < 2 ^ 64) (pages : List Page)
    {t : τ} {next : Nat} (h : Ready mapper map t next pages) :
    exists t' manager,
      allocatePages mapper paging profile t pages { memoryMap := map, next := next } =
        .ok (t', manager) ∧ Mapped mapper (pool map next) t t' pages := by
  induction pages generalizing t next with
  | nil => exact ⟨t, _, rfl, mapped_nil mapper _ t⟩
  | cons page rest ih =>
      rcases allocatePage hframes hdoc hmap hsmall h
          (PageTableFlags.present ||| PageTableFlags.writable) with
        ⟨frame, fresh, mid, hsplit, hallocate, hmapTo, hone⟩
      rcases ih (ready_rest hmap h hone hsplit) with ⟨t', manager, hrun, hmapped⟩
      refine ⟨t', manager, ?_, ?_⟩
      · unfold allocatePages
        rw [hallocate, Outcome.ok_bind]
        show (mapper.mapTo t page frame _ _ >>= _) = _
        rw [hmapTo]
        exact hrun
      · have hpool : (pool map next).Nodup :=
          (PhysicalManager.frames_nodup hmap).sublist (List.drop_sublist _ _)
        have hunused : forall path, mapper.table t path ≠ some frame := by
          intro path htable
          apply h.tables path frame htable
          rw [hsplit]
          exact List.mem_cons_self
        rw [hsplit] at hpool ⊢
        exact mapped_cons h.nodup hpool hunused hone hmapped

/-!
# The heap
-/

def UsableDisjoint (map : List Entry) (frame : PhysFrame) : Prop :=
  forall entry, entry ∈ map -> entry.entryType = .usable ->
    forall address, frame.startAddress <= address ->
      address < frame.startAddress + 4096 -> ¬ entry.Contains address

theorem not_mem_frames_of_usableDisjoint {map : List Entry} (hmap : Conformant map)
    {frame : PhysFrame} (h : UsableDisjoint map frame) :
    frame ∉ PhysicalManager.frames map := by
  intro hmem
  rcases (PhysicalManager.mem_frames_iff hmap frame).mp hmem with
    ⟨entry, hentry, husable, hlow, hhigh⟩
  exact h entry hentry husable frame.startAddress (Nat.le_refl _) (by lia)
    ⟨hlow, by lia⟩

theorem frames_length_le {map : List Entry} (hmap : Conformant map) :
    (PhysicalManager.frames map).length <= 2 ^ 52 := by
  let numbers := (PhysicalManager.frames map).map fun frame => frame.startAddress / 4096
  have hnodup : numbers.Nodup := by
    apply List.Nodup.map_on _ (PhysicalManager.frames_nodup hmap)
    intro x _ y _ hxy
    apply PhysFrame.ext
    have hx := x.aligned
    have hy := y.aligned
    lia
  have hsub : numbers ⊆ List.range (2 ^ 52) := by
    intro k hk
    rcases List.mem_map.mp hk with ⟨frame, hframe, hnumber⟩
    rcases (PhysicalManager.mem_frames_iff hmap frame).mp hframe with
      ⟨entry, hentry, husable, _, hhigh⟩
    have hbelow := hmap.below entry hentry husable
    rw [List.mem_range]
    lia
  have hlen := (hnodup.subperm hsub).length_le
  rw [List.length_range, List.length_map] at hlen
  exact hlen

theorem frames_length_lt {map : List Entry} (hmap : Conformant map) :
    (PhysicalManager.frames map).length < 2 ^ 64 :=
  Nat.lt_of_le_of_lt (frames_length_le hmap) (by lia)

theorem containing_mem_pages {start size address : Nat} (hlow : start <= address)
    (hhigh : address < start + size) :
    Page.containing address ∈ (PageRangeInclusive.mk (Page.containing start)
      (Page.containing (start + size - 1))).pages := by
  rw [PageRangeInclusive.mem_pages_iff]
  show start - start % 4096 <= address - address % 4096 ∧
    address - address % 4096 <= start + size - 1 - (start + size - 1) % 4096
  lia

theorem exclusivelyMapped_of_mapped {mapper : Mapper τ} {available : List PhysFrame}
    {t t' : τ} {pages : List Page} (h : Mapped mapper available t t' pages) :
    ExclusivelyMapped mapper t t' pages := by
  constructor
  · intro page hpage
    rcases h.mapped page hpage with ⟨frame, _, htranslate, _⟩
    exact ⟨frame, _, htranslate, by decide, by decide⟩
  · exact h.distinct
  · intro page frame flags hpage htranslate path
    rcases h.mapped page hpage with ⟨f, _, hf, htable⟩
    rw [hf] at htranslate
    cases htranslate
    refine ⟨?_, htable path⟩
    intro hold
    exact htable path (h.kept path _ hold)
  · exact h.outside

theorem allocateRange_eq {paging : Paging} (hpages : paging.PagesDocumented) (mapper : Mapper τ)
    (profile : Profile) (t : τ) {start stop : Nat} (hle : start <= stop)
    (hhalf : SameHalf start stop) (hlast : Page.containing stop ≠ Page.lastLower)
    (manager : PhysicalManager) :
    allocateRange mapper paging profile t ⟨Page.containing start, Page.containing stop⟩ manager =
      allocatePages mapper paging profile t
        (PageRangeInclusive.mk (Page.containing start) (Page.containing stop)).pages manager := by
  let range : PageRangeInclusive := ⟨Page.containing start, Page.containing stop⟩
  have hwalk : paging.walk range = Traced.emits range.pages () :=
    hpages.walk range (Page.containing_mono hle) (Page.containing_sameHalf hhalf) hlast
  have hresult : (Traced.emits range.pages ()).result = .ok () := rfl
  unfold allocateRange
  rw [hwalk, hresult]
  show (allocatePages mapper paging profile t range.pages manager >>= _) = _
  cases allocatePages mapper paging profile t range.pages manager with
  | error p => rfl
  | ok result => rfl

/-- Mapping the heap range with enough usable frames succeeds, makes every byte of
it writable in a frame of its own page, takes no frame that is a page table, and
changes no other translation. -/
theorem allocateRange_heap {mapper : Mapper τ} {paging : Paging} {profile : Profile}
    (hframes : paging.FramesDocumented) (hpages : paging.PagesDocumented)
    (hdoc : mapper.Documented paging profile) {map : List Entry} (hmap : Conformant map)
    {t : τ} {start size : Nat} (hsize : 0 < size)
    (hhalf : SameHalf start (start + size))
    (hlast : Page.containing (start + size - 1) ≠ Page.lastLower)
    (htables : forall path frame, mapper.table t path = some frame ->
      UsableDisjoint map frame) :
    exists range, heapRange paging start size = .ok range ∧
      ((forall page, page ∈ range.pages -> mapper.translate t page = none) ->
        (forall page, page ∈ range.pages -> ¬ mapper.hugeInWay t page) ->
        needed mapper t range.pages <= (PhysicalManager.frames map).length ->
        exists t' manager,
          allocateRange mapper paging profile t range (PhysicalManager.new map) =
            .ok (t', manager) ∧
          ExclusivelyMapped mapper t t' range.pages ∧
          forall address, start <= address -> address < start + size ->
            exists frame flags,
              mapper.translate t' (Page.containing address) = some (frame, flags) ∧
                flags.contains PageTableFlags.present = true ∧
                flags.contains PageTableFlags.writable = true) := by
  refine ⟨_, heapRange_eq hpages hsize hhalf, ?_⟩
  intro hunmapped hhuge hroom
  have hready : Ready mapper map t 0 _ :=
    { nodup := PageRangeInclusive.pages_nodup _
      unmapped := hunmapped
      open_way := hhuge
      tables := fun path frame htable =>
        not_mem_frames_of_usableDisjoint hmap (htables path frame htable)
      room := by rw [Nat.zero_add]; exact hroom }
  rcases allocatePages_loop hframes hdoc hmap (frames_length_lt hmap) _ hready with
    ⟨t', manager, hrun, hmapped⟩
  have hexclusive := exclusivelyMapped_of_mapped hmapped
  have hends : SameHalf start (start + size - 1) := by
    rcases hhalf with hlow | ⟨hlow, hhigh⟩
    · exact Or.inl (by lia)
    · exact Or.inr ⟨hlow, by lia⟩
  refine ⟨t', manager, ?_, hexclusive, ?_⟩
  · rw [allocateRange_eq hpages mapper profile t (by lia) hends hlast]
    exact hrun
  · intro address hlow hhigh
    exact hexclusive.mapped _ (containing_mem_pages hlow hhigh)

end VirtualManager

end NeurOS
