import Mathlib.Order.Interval.Finset.Nat
import NeurOS.Memory.TableTree

/-!
# The budget of the heap

Mapping a range of pages succeeds exactly when the frames that are left suffice for
the pages and for the tables that are missing on the way to them, and it takes exactly
that many.  Where no table is there yet, a range takes one frame for each page and
one for each part of the address space that a table of some level spans.
-/

namespace NeurOS

open Foundation

/-- The documented behaviour of {lit}`map_to` when the allocator runs out of frames
for the missing tables. -/
def Mapper.Exhausts {τ : Type} (mapper : Mapper τ) (paging : Paging) (profile : Profile) : Prop :=
  forall t page frame flags manager manager' answers,
    mapper.translate t page = none -> ¬ mapper.hugeInWay t page ->
    PhysicalManager.allocateFrames paging profile manager (mapper.missing t page).length =
      .ok (manager', answers) ->
    none ∈ answers ->
    exists t' after, mapper.mapTo t page frame flags manager =
      .ok (t', .error .frameAllocationFailed, after)

namespace TableTree

theorem createTables_exhausted {paging : Paging} {profile : Profile} {paths : List (List Nat)}
    (hpaths : paths.Nodup) {t : TableTree} {manager manager' : PhysicalManager}
    {answers : List (Option PhysFrame)}
    (h : manager.allocateFrames paging profile (t.absent paths).length = .ok (manager', answers))
    (hnone : none ∈ answers) :
    exists t' after, createTables paging profile t paths manager = .ok (t', false, after) := by
  induction paths generalizing t manager answers with
  | nil =>
      cases h
      cases hnone
  | cons path rest ih =>
      have hnotin : path ∉ rest := (List.nodup_cons.mp hpaths).1
      have hrest : rest.Nodup := (List.nodup_cons.mp hpaths).2
      cases htable : t.tables path with
      | some frame =>
          have habsent : t.absent (path :: rest) = t.absent rest := by
            simp [absent, htable]
          rw [habsent] at h
          rcases ih hrest h hnone with ⟨t', after, hrun⟩
          refine ⟨t', after, ?_⟩
          unfold createTables
          rw [htable]
          exact hrun
      | none =>
          have habsent : t.absent (path :: rest) = path :: t.absent rest := by
            simp [absent, htable]
          rw [habsent] at h
          rcases Machine.run_cons_eq_ok_iff.mp h with ⟨mid, answer, tail, hstep, htail, rfl⟩
          have hallocate : manager.allocateFrame paging profile = .ok (mid, answer) := hstep
          unfold createTables
          rw [htable]
          simp only [hallocate, Outcome.ok_bind]
          cases answer with
          | none => exact ⟨t, mid, rfl⟩
          | some frame =>
              have hserve : mid.allocateFrames paging profile
                  ((t.create path frame).absent rest).length = .ok (manager', tail) := by
                rw [absent_create hnotin]
                exact htail
              exact ih hrest hserve (by simpa using hnone)

theorem mapper_exhausts (paging : Paging) (profile : Profile) :
    (mapper paging profile).Exhausts paging profile := by
  intro t page frame flags manager manager' answers _ _ hserve hnone
  rcases createTables_exhausted page.tablePaths_nodup hserve hnone with ⟨t', after, hrun⟩
  refine ⟨t', after, ?_⟩
  show mapTo paging profile t page frame flags manager = _
  unfold mapTo
  simp only [hrun, Outcome.ok_bind]

end TableTree

namespace VirtualManager

variable {τ : Type}

/-!
# Enough frames or not
-/

/-- What the loop needs of the pages that are left, however many frames are left. -/
structure Open (mapper : Mapper τ) (map : List Entry) (t : τ) (next : Nat)
    (pages : List Page) : Prop where
  nodup : pages.Nodup
  unmapped : forall page, page ∈ pages -> mapper.translate t page = none
  open_way : forall page, page ∈ pages -> ¬ mapper.hugeInWay t page
  tables : forall path frame, mapper.table t path = some frame -> frame ∉ pool map next

section Loop

variable {mapper : Mapper τ} {paging : Paging} {profile : Profile} {map : List Entry}
variable {t mid : τ} {next : Nat}
variable {page : Page} {rest : List Page} {frame : PhysFrame} {fresh : List PhysFrame}
variable {flags : PageTableFlags}

theorem needed_single (mapper : Mapper τ) (t : τ) (page : Page) :
    needed mapper t [page] = 1 + (mapper.missing t page).length := by
  unfold needed
  rw [List.flatMap_singleton, List.toFinset_card_of_nodup (missing_nodup mapper t page)]
  rfl

theorem ready_single (h : Open mapper map t next (page :: rest))
    (hroom : next + (1 + (mapper.missing t page).length) <=
      (PhysicalManager.frames map).length) :
    Ready mapper map t next [page] where
  nodup := List.nodup_singleton page
  unmapped other hmem := h.unmapped other (List.mem_cons.mpr (Or.inl (List.mem_singleton.mp hmem)))
  open_way other hmem := h.open_way other (List.mem_cons.mpr (Or.inl (List.mem_singleton.mp hmem)))
  tables := h.tables
  room := by rw [needed_single]; exact hroom

theorem open_rest (hmap : Conformant map) (h : Open mapper map t next (page :: rest))
    (hone : mapper.MapsOne t mid page frame flags fresh)
    (hsplit : pool map next =
      frame :: (fresh ++ pool map (next + 1 + (mapper.missing t page).length))) :
    Open mapper map mid (next + 1 + (mapper.missing t page).length) rest := by
  have hnotin : page ∉ rest := (List.nodup_cons.mp h.nodup).1
  have hpool : (pool map next).Nodup :=
    (PhysicalManager.frames_nodup hmap).sublist (List.drop_sublist _ _)
  rw [hsplit] at hpool
  have hdisjoint := (List.nodup_append.mp (List.nodup_cons.mp hpool).2).2.2
  constructor
  · exact (List.nodup_cons.mp h.nodup).2
  · intro other hother
    have hne : other ≠ page := by
      intro heq
      exact hnotin (heq ▸ hother)
    rw [hone.others other hne]
    exact h.unmapped other (List.mem_cons_of_mem _ hother)
  · intro other hother hblocked
    exact h.open_way other (List.mem_cons_of_mem _ hother) ((hone.huge other).mp hblocked)
  · intro path f htable hmem
    rcases table_of_mapsOne hone htable with hold | hcreated
    · apply h.tables path f hold
      rw [hsplit]
      exact List.mem_cons_of_mem _ (List.mem_append_right _ hmem)
    · exact hdisjoint f hcreated f hmem rfl

theorem none_mem_supply {values : List PhysFrame} {start calls : Nat}
    (hstart : start <= values.length) (h : values.length < start + calls) :
    none ∈ Iterator.supply values start calls := by
  unfold Iterator.supply
  apply List.mem_map.mpr
  refine ⟨values.length - start, List.mem_range.mpr (by lia), ?_⟩
  exact List.getElem?_eq_none (by lia)

theorem allocatePage_exhausted (hframes : paging.FramesDocumented)
    (hexhausts : mapper.Exhausts paging profile) (hmap : Conformant map)
    (h : Open mapper map t next (page :: rest))
    (hnext : next <= (PhysicalManager.frames map).length)
    (hroom : (PhysicalManager.frames map).length <
      next + (1 + (mapper.missing t page).length)) :
    exists p, allocatePages mapper paging profile t (page :: rest)
      { memoryMap := map, next := next } = .error p := by
  have hbound := frames_length_le hmap
  have hmissing : (mapper.missing t page).length <= 3 :=
    List.length_filter_le _ page.tablePaths
  have hallocate : PhysicalManager.allocateFrame paging profile { memoryMap := map, next := next } =
      .ok ({ memoryMap := map, next := next + 1 }, (PhysicalManager.frames map)[next]?) :=
    PhysicalManager.allocateFrame_eq hframes profile hmap (by show next + 1 < 2 ^ 64; lia)
  unfold allocatePages
  rw [hallocate, Outcome.ok_bind]
  by_cases hlast : next < (PhysicalManager.frames map).length
  · have hserve :
        PhysicalManager.allocateFrames paging profile { memoryMap := map, next := next + 1 }
        (mapper.missing t page).length =
          .ok ({ memoryMap := map, next := next + 1 + (mapper.missing t page).length },
            Iterator.supply (PhysicalManager.frames map) (next + 1)
              (mapper.missing t page).length) :=
      PhysicalManager.allocateFrames_eq hframes profile hmap
        (by show next + 1 + (mapper.missing t page).length < 2 ^ 64; lia)
    have hnone := none_mem_supply hlast (show _ < next + 1 + (mapper.missing t page).length by lia)
    rw [List.getElem?_eq_getElem hlast]
    rcases hexhausts t page (PhysicalManager.frames map)[next]
      (PageTableFlags.present ||| PageTableFlags.writable) _ _ _
      (h.unmapped page List.mem_cons_self) (h.open_way page List.mem_cons_self) hserve hnone with
      ⟨t', after, hmapTo⟩
    refine ⟨.unwrapErr, ?_⟩
    show (mapper.mapTo t page _ _ _ >>= _) = _
    rw [hmapTo]
    rfl
  · rw [List.getElem?_eq_none (by lia)]
    exact ⟨_, rfl⟩

/-- The loop takes exactly the frames that are needed, or it panics because there are fewer.  The
induction is on the pages that are left. -/
theorem allocatePages_budget (hframes : paging.FramesDocumented)
    (hdoc : mapper.Documented paging profile) (hexhausts : mapper.Exhausts paging profile)
    (hmap : Conformant map) (pages : List Page)
    (h : Open mapper map t next pages) (hnext : next <= (PhysicalManager.frames map).length) :
    (next + needed mapper t pages <= (PhysicalManager.frames map).length ∧
      exists t', allocatePages mapper paging profile t pages { memoryMap := map, next := next } =
        .ok (t', { memoryMap := map, next := next + needed mapper t pages })) ∨
    (Not (next + needed mapper t pages <= (PhysicalManager.frames map).length) ∧
      exists p, allocatePages mapper paging profile t pages { memoryMap := map, next := next } =
        .error p) := by
  induction pages generalizing t next with
  | nil => exact Or.inl ⟨hnext, t, rfl⟩
  | cons page rest ih =>
      by_cases hroom : next + (1 + (mapper.missing t page).length) <=
          (PhysicalManager.frames map).length
      · rcases allocatePage hframes hdoc hmap (frames_length_lt hmap) (ready_single h hroom)
          (PageTableFlags.present ||| PageTableFlags.writable) with
          ⟨frame, fresh, mid, hsplit, hallocate, hmapTo, hone⟩
        have hneeded := needed_of_mapsOne hone rest
        have hturn : allocatePages mapper paging profile t (page :: rest)
            { memoryMap := map, next := next } =
              allocatePages mapper paging profile mid rest
                { memoryMap := map, next := next + 1 + (mapper.missing t page).length } := by
          rw [allocatePages, hallocate, Outcome.ok_bind]
          show (mapper.mapTo t page frame _ _ >>= _) = _
          rw [hmapTo]
          rfl
        have hsum : next + needed mapper t (page :: rest) =
            next + 1 + (mapper.missing t page).length + needed mapper mid rest := by
          lia
        rw [hturn, hsum]
        exact ih (open_rest hmap h hone hsplit) (by lia)
      · right
        have hneeded := needed_cons mapper t page rest
        exact ⟨by lia, allocatePage_exhausted hframes hexhausts hmap h hnext (by lia)⟩

end Loop

/-!
# Pages and tables of a range
-/

section Count

def spanned (n : Nat) (range : PageRangeInclusive) : Nat :=
  range.last.startAddress / 2 ^ n - range.first.startAddress / 2 ^ n + 1

def digits : Nat -> Nat -> List Nat
  | 0, _ => []
  | count + 1, number => digits count (number / 512) ++ [number % 512]

theorem digits_length (count number : Nat) : (digits count number).length = count := by
  induction count generalizing number with
  | zero => rfl
  | succ count ih => rw [digits, List.length_append, ih, List.length_singleton]

theorem mod_eq_of_digits {count number other : Nat}
    (h : digits count number = digits count other) :
    number % 512 ^ count = other % 512 ^ count := by
  induction count generalizing number other with
  | zero => rw [Nat.pow_zero, Nat.mod_one, Nat.mod_one]
  | succ count ih =>
      have hparts := List.append_inj h (by rw [digits_length, digits_length])
      have hlast : number % 512 = other % 512 := List.singleton_inj.mp hparts.2
      rw [Nat.pow_succ', Nat.mod_mul, Nat.mod_mul, hlast, ih hparts.1]

theorem eq_of_mod_eq {m a b : Nat} (h : a % m = b % m) (hab : a - b < m) (hba : b - a < m) :
    a = b := by
  have hleft : a - b = 0 := by
    rw [<- Nat.mod_eq_of_lt hab]
    exact Nat.sub_mod_eq_zero_of_mod_eq h
  have hright : b - a = 0 := by
    rw [<- Nat.mod_eq_of_lt hba]
    exact Nat.sub_mod_eq_zero_of_mod_eq h.symm
  lia

theorem tablePaths_eq (page : Page) :
    page.tablePaths = [digits 1 (page.startAddress / 2 ^ 39),
      digits 2 (page.startAddress / 2 ^ 30), digits 3 (page.startAddress / 2 ^ 21)] := by
  simp only [Page.tablePaths, Page.indices, digits, List.take_succ_cons, List.take_zero,
    List.nil_append, List.cons_append, Nat.div_div_eq_div_mul, Nat.reducePow, Nat.reduceMul]

variable {range : PageRangeInclusive}

theorem image_parts {n : Nat} (hn : 12 <= n)
    (hle : range.first.startAddress <= range.last.startAddress) :
    range.pages.toFinset.image (fun page => page.startAddress / 2 ^ n) =
      Finset.Icc (range.first.startAddress / 2 ^ n) (range.last.startAddress / 2 ^ n) := by
  have hpos : 0 < 2 ^ n := Nat.two_pow_pos n
  ext part
  rw [Finset.mem_image, Finset.mem_Icc]
  constructor
  · intro h
    rcases h with ⟨page, hpage, rfl⟩
    rcases (range.mem_pages_iff page).mp (List.mem_toFinset.mp hpage) with ⟨hlow, hhigh⟩
    exact ⟨Nat.div_le_div_right hlow, Nat.div_le_div_right hhigh⟩
  · intro h
    rcases h with ⟨hlow, hhigh⟩
    have hend : part * 2 ^ n <= range.last.startAddress := (Nat.le_div_iff_mul_le hpos).mp hhigh
    have haligned : part * 2 ^ n % 4096 = 0 :=
      Nat.mod_eq_zero_of_dvd (Nat.dvd_mul_left_of_dvd (Nat.pow_dvd_pow 2 hn) part)
    -- The first address of the part, or of the range if it starts inside of the part.
    by_cases hfirst : range.first.startAddress <= part * 2 ^ n
    · refine ⟨⟨part * 2 ^ n, haligned⟩, ?_, Nat.mul_div_cancel part hpos⟩
      exact List.mem_toFinset.mpr ((range.mem_pages_iff _).mpr ⟨hfirst, hend⟩)
    · refine ⟨range.first, ?_, ?_⟩
      · exact List.mem_toFinset.mpr ((range.mem_pages_iff _).mpr ⟨Nat.le_refl _, hle⟩)
      · exact Nat.le_antisymm hlow ((Nat.le_div_iff_mul_le hpos).mpr (by lia))

theorem card_parts {n : Nat} (hn : 12 <= n)
    (hle : range.first.startAddress <= range.last.startAddress) :
    (range.pages.toFinset.image fun page => page.startAddress / 2 ^ n).card = spanned n range := by
  have hdiv := Nat.div_le_div_right (c := 2 ^ n) hle
  rw [image_parts hn hle, Nat.card_Icc]
  unfold spanned
  lia

theorem pages_length (hle : range.first.startAddress <= range.last.startAddress) :
    range.pages.length = spanned 12 range := by
  rw [<- card_parts (Nat.le_refl 12) hle, <- List.toFinset_card_of_nodup range.pages_nodup]
  symm
  apply Finset.card_image_of_injOn
  intro page _ other _ heq
  apply Page.ext
  have hpage := page.aligned
  have hother := other.aligned
  have hparts : page.startAddress / 2 ^ 12 = other.startAddress / 2 ^ 12 := heq
  lia

theorem card_tables {n count : Nat} (hn : 12 <= n)
    (hle : range.first.startAddress <= range.last.startAddress)
    (hnear : range.last.startAddress / 2 ^ n - range.first.startAddress / 2 ^ n < 512 ^ count) :
    (range.pages.toFinset.image fun page => digits count (page.startAddress / 2 ^ n)).card =
      spanned n range := by
  have himage : (range.pages.toFinset.image fun page => digits count (page.startAddress / 2 ^ n)) =
      (range.pages.toFinset.image fun page => page.startAddress / 2 ^ n).image (digits count) := by
    rw [Finset.image_image]
    rfl
  rw [himage, <- card_parts hn hle]
  apply Finset.card_image_of_injOn
  intro part hpart other hother heq
  rw [image_parts hn hle] at hpart hother
  rcases Finset.mem_Icc.mp hpart with ⟨hpart, hpart'⟩
  rcases Finset.mem_Icc.mp hother with ⟨hother, hother'⟩
  exact eq_of_mod_eq (mod_eq_of_digits heq) (by lia) (by lia)

variable {mapper : Mapper τ} {t : τ}

/-- Where no table is there yet, a range takes a frame for each page and for each part that a
table of some level spans. -/
theorem needed_range (hle : range.first.startAddress <= range.last.startAddress)
    (hhalf : SameHalf range.first.startAddress range.last.startAddress)
    (hmissing : forall page, page ∈ range.pages -> mapper.missing t page = page.tablePaths) :
    needed mapper t range.pages =
      spanned 12 range + (spanned 39 range + spanned 30 range + spanned 21 range) := by
  let tables (count n : Nat) : Finset (List Nat) :=
    range.pages.toFinset.image fun page => digits count (page.startAddress / 2 ^ n)
  have hlength {count n : Nat} {path : List Nat} (h : path ∈ tables count n) :
      path.length = count := by
    rcases Finset.mem_image.mp h with ⟨page, _, rfl⟩
    exact digits_length _ _
  have hdisjoint (n m l : Nat) : Disjoint (tables 1 n ∪ tables 2 m) (tables 3 l) ∧
      Disjoint (tables 1 n) (tables 2 m) := by
    constructor
    · apply Finset.disjoint_left.mpr
      intro path hpath hthird
      have hthree := hlength hthird
      rcases Finset.mem_union.mp hpath with hfirst | hsecond
      · exact absurd ((hlength hfirst).symm.trans hthree) (by lia)
      · exact absurd ((hlength hsecond).symm.trans hthree) (by lia)
    · apply Finset.disjoint_left.mpr
      intro path hfirst hsecond
      exact absurd ((hlength hfirst).symm.trans (hlength hsecond)) (by lia)
  have hunion : (range.pages.flatMap (mapper.missing t)).toFinset =
      tables 1 39 ∪ tables 2 30 ∪ tables 3 21 := by
    rw [List.flatMap_congr hmissing]
    ext path
    simp only [List.mem_toFinset, List.mem_flatMap, tablePaths_eq, List.mem_cons,
      List.not_mem_nil, or_false, Finset.mem_union, Finset.mem_image, tables]
    constructor
    · intro h
      rcases h with ⟨page, hpage, rfl | rfl | rfl⟩
      · exact Or.inl (Or.inl ⟨page, hpage, rfl⟩)
      · exact Or.inl (Or.inr ⟨page, hpage, rfl⟩)
      · exact Or.inr ⟨page, hpage, rfl⟩
    · intro h
      rcases h with (⟨page, hpage, rfl⟩ | ⟨page, hpage, rfl⟩) | ⟨page, hpage, rfl⟩
      · exact ⟨page, hpage, Or.inl rfl⟩
      · exact ⟨page, hpage, Or.inr (Or.inl rfl)⟩
      · exact ⟨page, hpage, Or.inr (Or.inr rfl)⟩
  have hwidth : range.last.startAddress - range.first.startAddress < 2 ^ 47 ∧
      range.last.startAddress < 2 ^ 64 := by
    rcases hhalf with hlow | hhigh <;> lia
  unfold needed
  rw [hunion, Finset.card_union_of_disjoint (hdisjoint 39 30 21).1,
    Finset.card_union_of_disjoint (hdisjoint 39 30 21).2, pages_length hle,
    card_tables (by lia) hle (by lia), card_tables (by lia) hle (by lia),
    card_tables (by lia) hle (by lia)]

end Count

/-!
# The budget in bytes
-/

def usableBytes (map : List Entry) : Nat :=
  ((map.filter fun x => x.entryType = .usable).map Entry.length).sum

theorem frames_bytes {map : List Entry} (hmap : Conformant map) :
    (PhysicalManager.frames map).length * 4096 = usableBytes map := by
  have hentries : forall entry, entry ∈ map.filter (fun x => x.entryType = .usable) ->
      4096 ∣ entry.length := by
    intro entry hentry
    rcases List.mem_filter.mp hentry with ⟨hmem, husable⟩
    exact hmap.length_aligned entry hmem (by simpa using husable)
  unfold PhysicalManager.frames usableBytes
  generalize map.filter (fun x => x.entryType = .usable) = entries at hentries ⊢
  induction entries with
  | nil => rfl
  | cons entry rest ih =>
      have hrest := ih fun other hmem => hentries other (List.mem_cons_of_mem _ hmem)
      have hentry := Nat.mod_eq_zero_of_dvd (hentries entry List.mem_cons_self)
      have hcount : ((Iterator.stepBy entry.base (entry.base + entry.length) 4096).map
          PhysicalManager.frameAt).length * 4096 = entry.length := by
        unfold Iterator.stepBy
        rw [List.length_map, List.length_map, List.length_range]
        lia
      rw [List.flatMap_cons, List.length_append, Nat.add_mul, hrest, hcount, List.map_cons,
        List.sum_cons]

section Budget

theorem takes_of_cases {result : Outcome (τ × PhysicalManager)} {after : PhysicalManager}
    {Fits : Prop} (h : (Fits ∧ exists t', result = .ok (t', after)) ∨
      (Not Fits ∧ exists p, result = .error p)) :
    ((exists pair, result = .ok pair) <-> Fits) ∧
      (forall t' manager, result = .ok (t', manager) -> manager = after) := by
  rcases h with ⟨hfits, t', hrun⟩ | ⟨hfits, p, hrun⟩
  · rw [hrun]
    refine ⟨⟨fun _ => hfits, fun _ => ⟨_, rfl⟩⟩, ?_⟩
    intro _ _ heq
    cases heq
    rfl
  · rw [hrun]
    refine ⟨⟨?_, fun hend => absurd hend hfits⟩, ?_⟩
    · intro hend
      rcases hend with ⟨_, heq⟩
      cases heq
    · intro _ _ heq
      cases heq

variable {mapper : Mapper τ} {paging : Paging} {profile : Profile} {map : List Entry}
variable {t : τ} {next : Nat}

/-- Mapping pages succeeds if and only if the frames that are left suffice for the pages and for
the tables missing on the way to them, and then it takes exactly these, in their order. -/
theorem allocatePages_takes (hframes : paging.FramesDocumented)
    (hdoc : mapper.Documented paging profile) (hexhausts : mapper.Exhausts paging profile)
    (hmap : Conformant map) {pages : List Page}
    (h : Open mapper map t next pages) (hnext : next <= (PhysicalManager.frames map).length) :
    ((exists result, allocatePages mapper paging profile t pages
        { memoryMap := map, next := next } = .ok result) <->
      next + needed mapper t pages <= (PhysicalManager.frames map).length) ∧
    (forall t' manager, allocatePages mapper paging profile t pages
        { memoryMap := map, next := next } = .ok (t', manager) ->
      manager = { memoryMap := map, next := next + needed mapper t pages }) :=
  takes_of_cases (allocatePages_budget hframes hdoc hexhausts hmap pages h hnext)

/-- Nothing is mapped at the addresses, and there is no table below the root on the way to
them. -/
structure Untouched (mapper : Mapper τ) (t : τ) (start size : Nat) : Prop where
  unmapped : forall page : Page, start <= page.startAddress ->
    page.startAddress < start + size -> mapper.translate t page = none
  open_way : forall page : Page, start <= page.startAddress ->
    page.startAddress < start + size -> ¬ mapper.hugeInWay t page
  tableless : forall page : Page, start <= page.startAddress ->
    page.startAddress < start + size ->
      forall path, path ∈ page.tablePaths -> mapper.table t path = none

def heapPages : PageRangeInclusive where
  first := Page.containing heapStart
  last := Page.containing (heapStart + heapSize - 1)

theorem initializeHeap_eq (hpages : paging.PagesDocumented) (mapper : Mapper τ)
    (profile : Profile) (t : τ) (manager : PhysicalManager) :
    initializeHeap mapper paging profile t manager =
      allocatePages mapper paging profile t heapPages.pages manager := by
  have hrange : heapRange paging heapStart heapSize = .ok heapPages :=
    heapRange_eq hpages (by simp [heapSize]) (Or.inl (by simp [heapStart, heapSize]))
  have hle : heapStart <= heapStart + heapSize - 1 := by simp [heapStart, heapSize]
  have hhalf : SameHalf heapStart (heapStart + heapSize - 1) :=
    Or.inl (by simp [heapStart, heapSize])
  have hlast : Page.containing (heapStart + heapSize - 1) ≠ Page.lastLower := by
    simp [Page.containing, Page.lastLower, heapStart, heapSize]
  unfold initializeHeap
  rw [hrange, Outcome.ok_bind]
  exact allocateRange_eq hpages mapper profile t hle hhalf hlast manager

theorem heapPages_inside {page : Page} (h : page ∈ heapPages.pages) :
    heapStart <= page.startAddress ∧ page.startAddress < heapStart + heapSize := by
  rcases (heapPages.mem_pages_iff page).mp h with ⟨hlow, hhigh⟩
  simp only [heapPages, Page.containing, heapStart, heapSize] at hlow hhigh ⊢
  lia

theorem needed_heap (h : Untouched mapper t heapStart heapSize) :
    needed mapper t heapPages.pages = 1029 := by
  have hmissing : forall page, page ∈ heapPages.pages ->
      mapper.missing t page = page.tablePaths := by
    intro page hpage
    rcases heapPages_inside hpage with ⟨hlow, hhigh⟩
    apply List.filter_eq_self.mpr
    intro path hpath
    rw [h.tableless page hlow hhigh path hpath]
    rfl
  have hle : heapPages.first.startAddress <= heapPages.last.startAddress := by
    simp [heapPages, Page.containing, heapStart, heapSize]
  have hlast : heapPages.last.startAddress < 2 ^ 47 := by
    simp [heapPages, Page.containing, heapStart, heapSize]
  rw [needed_range hle (Or.inl hlast) hmissing]
  simp [spanned, heapPages, Page.containing, heapStart, heapSize]

/-- Where nothing is mapped at the addresses of the heap yet, its mapping at boot succeeds if and
only if there are 1029 frames of usable memory, and it takes exactly these. -/
theorem initializeHeap_takes (hframes : paging.FramesDocumented)
    (hpages : paging.PagesDocumented) (hdoc : mapper.Documented paging profile)
    (hexhausts : mapper.Exhausts paging profile) (hmap : Conformant map)
    (h : Untouched mapper t heapStart heapSize)
    (htables : forall path frame, mapper.table t path = some frame ->
      UsableDisjoint map frame) :
    ((exists result,
        initializeHeap mapper paging profile t (PhysicalManager.new map) = .ok result) <->
      1029 * 4096 <= usableBytes map) ∧
    (forall t' manager, initializeHeap mapper paging profile t (PhysicalManager.new map) =
        .ok (t', manager) -> manager = { memoryMap := map, next := 1029 }) := by
  have hopen : Open mapper map t 0 heapPages.pages :=
    { nodup := heapPages.pages_nodup
      unmapped := fun page hpage =>
        h.unmapped page (heapPages_inside hpage).1 (heapPages_inside hpage).2
      open_way := fun page hpage =>
        h.open_way page (heapPages_inside hpage).1 (heapPages_inside hpage).2
      tables := fun path frame htable =>
        not_mem_frames_of_usableDisjoint hmap (htables path frame htable) }
  have htakes := allocatePages_budget hframes hdoc hexhausts hmap heapPages.pages hopen
    (Nat.zero_le _)
  have hbytes := frames_bytes hmap
  have hfits : 1029 <= (PhysicalManager.frames map).length <-> 1029 * 4096 <= usableBytes map := by
    lia
  rw [needed_heap h, Nat.zero_add, hfits] at htakes
  rw [initializeHeap_eq hpages]
  exact takes_of_cases htakes

end Budget

end VirtualManager

namespace TableTree

open VirtualManager

theorem rootOnly_untouched (profile : Profile) (root : PhysFrame) (start size : Nat) :
    Untouched (sampleMapper profile) (rootOnly root) start size where
  unmapped _ _ _ := rfl
  open_way _ _ _ h := h
  tableless page _ _ path hpath := by
    have hne : path ≠ [] := by
      intro heq
      subst heq
      simp [Page.tablePaths, Page.indices] at hpath
    exact if_neg hne

theorem initializeHeap_takes_sample : Not (exists result,
    initializeHeap (sampleMapper .dev) Paging.reference .dev (rootOnly lowRoot)
      (PhysicalManager.new heapSampleMap) = .ok result) := by
  have htakes := initializeHeap_takes Paging.reference_frames Paging.reference_pages
    (mapper_documented Paging.reference .dev) (mapper_exhausts Paging.reference .dev)
    heapSampleMap_conformant (rootOnly_untouched .dev lowRoot heapStart heapSize)
    rootOnly_disjoint
  rw [htakes.1]
  simp [usableBytes, heapSampleMap]

theorem allocatePages_takes_sample : exists t',
    allocatePages (sampleMapper .dev) Paging.reference .dev (rootOnly lowRoot)
      [Page.containing heapStart, Page.containing (heapStart + 4096)]
      (PhysicalManager.new heapSampleMap) =
        .ok (t', { memoryMap := heapSampleMap, next := 5 }) := by
  have hopen : Open (sampleMapper .dev) heapSampleMap (rootOnly lowRoot) 0
      [Page.containing heapStart, Page.containing (heapStart + 4096)] :=
    { nodup := by simp [Page.containing, heapStart]
      unmapped := fun _ _ => rfl
      open_way := fun _ _ h => h
      tables := fun path frame htable =>
        not_mem_frames_of_usableDisjoint heapSampleMap_conformant
          (rootOnly_disjoint path frame htable) }
  have hneeded : needed (sampleMapper .dev) (rootOnly lowRoot)
      [Page.containing heapStart, Page.containing (heapStart + 4096)] = 5 := by
    decide
  have hframes : (PhysicalManager.frames heapSampleMap).length = 8 := by
    decide
  rcases allocatePages_takes Paging.reference_frames (mapper_documented Paging.reference .dev)
    (mapper_exhausts Paging.reference .dev) heapSampleMap_conformant hopen (Nat.zero_le _) with
    ⟨hok, hmanager⟩
  rcases hok.mpr (by rw [hneeded, hframes]; lia) with ⟨⟨t', manager⟩, hrun⟩
  have hafter := hmanager t' manager hrun
  rw [hneeded] at hafter
  exact ⟨t', by rw [<- hafter]; exact hrun⟩

end TableTree

end NeurOS
