import NeurOS.Foundation.Machine
import NeurOS.Memory.Address

/-!
# The physical memory manager

The manager walks the boot loader's memory map: the usable entries, each cut into
frames of 4 KiB.  It keeps no free list, only the number of the next frame, and
rebuilds the walk for each allocation.
-/

namespace NeurOS

open Foundation

/-!
# The memory map
-/

inductive EntryType where
  | usable
  | other (code : Nat)
  deriving DecidableEq, Repr

structure Entry where
  base : Nat
  length : Nat
  entryType : EntryType
  deriving DecidableEq, Repr

def Entry.Contains (entry : Entry) (address : Nat) : Prop :=
  entry.base <= address ∧ address < entry.base + entry.length

/-- What the boot protocol promises of the usable entries of a memory map. -/
structure Conformant (map : List Entry) : Prop where
  base_aligned : forall entry, entry ∈ map -> entry.entryType = .usable ->
    4096 ∣ entry.base
  length_aligned : forall entry, entry ∈ map -> entry.entryType = .usable ->
    4096 ∣ entry.length
  below : forall entry, entry ∈ map -> entry.entryType = .usable ->
    entry.base + entry.length <= 2 ^ 52
  disjoint : map.Pairwise fun first second =>
    first.entryType = .usable -> second.entryType = .usable ->
      forall address, ¬ (first.Contains address ∧ second.Contains address)

/-- A frame whose 4 KiB lie inside one usable entry. -/
def UsableFrame (map : List Entry) (frame : PhysFrame) : Prop :=
  exists entry, entry ∈ map ∧ entry.entryType = .usable ∧
    entry.base <= frame.startAddress ∧
    frame.startAddress + 4096 <= entry.base + entry.length

structure PhysicalManager where
  memoryMap : List Entry
  next : Nat
  deriving DecidableEq, Repr

namespace PhysicalManager

def new (memoryMap : List Entry) : PhysicalManager where
  memoryMap := memoryMap
  next := 0

/-- The frames of one entry; computing its end may overflow. -/
def entryFrames (paging : Paging) (profile : Profile) (entry : Entry) : List (Outcome PhysFrame) :=
  match profile.add 64 entry.base entry.length with
  | .error e => [.error e]
  | .ok stop =>
      (Iterator.stepBy entry.base stop 4096).map fun x => do
        let address ← paging.physAddr x
        .ok (paging.containingFrame address)

def usableFrames (paging : Paging) (profile : Profile) (self : PhysicalManager) :
    List (Outcome PhysFrame) :=
  (self.memoryMap.filter fun x => x.entryType = .usable).flatMap
    (entryFrames paging profile)

def allocateFrame (paging : Paging) (profile : Profile) (self : PhysicalManager) :
    Outcome (PhysicalManager × Option PhysFrame) := do
  let frame ← Iterator.nth (self.usableFrames paging profile) self.next
  let next ← profile.add 64 self.next 1
  .ok ({ self with next := next }, frame)

def machine (paging : Paging) (profile : Profile) :
    Machine PhysicalManager Unit (Option PhysFrame) where
  step self _ := self.allocateFrame paging profile

def allocateFrames (paging : Paging) (profile : Profile) (self : PhysicalManager) (calls : Nat) :
    Outcome (PhysicalManager × List (Option PhysFrame)) :=
  (machine paging profile).run self (List.replicate calls ())

/-!
# The sequence of usable frames
-/

def frameAt (address : Nat) : PhysFrame where
  startAddress := address - address % 4096
  aligned := by lia

def frames (map : List Entry) : List PhysFrame :=
  (map.filter fun x => x.entryType = .usable).flatMap fun entry =>
    (Iterator.stepBy entry.base (entry.base + entry.length) 4096).map frameAt

variable {paging : Paging}

theorem containingFrame_eq (hpaging : paging.FramesDocumented) {x : Nat} (h : x < 2 ^ 52) :
    (do
      let address ← paging.physAddr x
      .ok (paging.containingFrame address) : Outcome PhysFrame) =
      .ok (frameAt x) := by
  rw [hpaging.physAddr x h, Outcome.ok_bind]
  exact congrArg Except.ok (PhysFrame.ext (hpaging.containingFrame ⟨x, h⟩))

theorem entryFrames_eq (hpaging : paging.FramesDocumented) (profile : Profile) {entry : Entry}
    (h : entry.base + entry.length <= 2 ^ 52) :
    entryFrames paging profile entry =
      ((Iterator.stepBy entry.base (entry.base + entry.length) 4096).map
        frameAt).map .ok := by
  unfold entryFrames
  rw [profile.add_of_lt (by lia), List.map_map]
  apply List.map_congr_left
  intro x hx
  rcases (Iterator.mem_stepBy_iff (by lia)).mp hx with ⟨k, _, hlt⟩
  exact containingFrame_eq hpaging (by lia)

theorem usableFrames_eq (hpaging : paging.FramesDocumented) (profile : Profile)
    {self : PhysicalManager} (h : Conformant self.memoryMap) :
    self.usableFrames paging profile = (frames self.memoryMap).map .ok := by
  unfold usableFrames frames
  rw [List.map_flatMap]
  apply List.flatMap_congr
  intro entry hentry
  rcases List.mem_filter.mp hentry with ⟨hmem, husable⟩
  exact entryFrames_eq hpaging profile (h.below entry hmem (by simpa using husable))

theorem frameAt_startAddress {map : List Entry} (h : Conformant map) {entry : Entry}
    (hmem : entry ∈ map) (husable : entry.entryType = .usable) {x : Nat}
    (hx : x ∈ Iterator.stepBy entry.base (entry.base + entry.length) 4096) :
    (frameAt x).startAddress = x := by
  rcases (Iterator.mem_stepBy_iff (by lia)).mp hx with ⟨k, hk, _⟩
  have hdvd : 4096 ∣ x := by
    rw [hk]
    exact Nat.dvd_add (h.base_aligned entry hmem husable) (Nat.dvd_mul_right 4096 k)
  show x - x % 4096 = x
  rw [Nat.mod_eq_zero_of_dvd hdvd, Nat.sub_zero]

theorem mem_frames_iff {map : List Entry} (h : Conformant map) (frame : PhysFrame) :
    frame ∈ frames map <-> UsableFrame map frame := by
  unfold frames
  rw [List.mem_flatMap]
  constructor
  · intro hframe
    rcases hframe with ⟨entry, hentry, hin⟩
    rcases List.mem_filter.mp hentry with ⟨hmem, hfilter⟩
    have husable : entry.entryType = .usable := by simpa using hfilter
    rcases List.mem_map.mp hin with ⟨x, hx, hframeAt⟩
    have hstart : frame.startAddress = x := by
      rw [← hframeAt]
      exact frameAt_startAddress h hmem husable hx
    rcases (Iterator.mem_stepBy_iff (by lia)).mp hx with ⟨k, hk, hlt⟩
    rcases h.length_aligned entry hmem husable with ⟨n, hn⟩
    refine ⟨entry, hmem, husable, by lia, ?_⟩
    -- Both ends are whole numbers of frames away from the base.
    have hkn : k < n := by
      by_contra hge
      have hmul : 4096 * n <= 4096 * k := Nat.mul_le_mul_left 4096 (by lia)
      lia
    have hmul : 4096 * (k + 1) <= 4096 * n := Nat.mul_le_mul_left 4096 hkn
    lia
  · intro hframe
    rcases hframe with ⟨entry, hmem, husable, hlow, hhigh⟩
    refine ⟨entry, List.mem_filter.mpr ⟨hmem, by simp [husable]⟩, ?_⟩
    apply List.mem_map.mpr
    refine ⟨frame.startAddress, ?_, ?_⟩
    · apply (Iterator.mem_stepBy_iff (by lia)).mpr
      rcases h.base_aligned entry hmem husable with ⟨b, hb⟩
      refine ⟨frame.startAddress / 4096 - b, ?_, by lia⟩
      have haligned := frame.aligned
      lia
    · apply PhysFrame.ext
      show frame.startAddress - frame.startAddress % 4096 = frame.startAddress
      rw [frame.aligned, Nat.sub_zero]

theorem frames_nodup {map : List Entry} (h : Conformant map) : (frames map).Nodup := by
  unfold frames
  apply List.nodup_flatMap.mpr
  constructor
  · intro entry hentry
    rcases List.mem_filter.mp hentry with ⟨hmem, hfilter⟩
    have husable : entry.entryType = .usable := by simpa using hfilter
    apply List.Nodup.map_on _ (Iterator.stepBy_nodup _ _ (by lia))
    intro x hx y hy hxy
    rw [← frameAt_startAddress h hmem husable hx, hxy,
      frameAt_startAddress h hmem husable hy]
  · have hpair : (map.filter fun x => x.entryType = .usable).Pairwise
        fun first second => first.entryType = .usable -> second.entryType = .usable ->
          forall address, ¬ (first.Contains address ∧ second.Contains address) :=
      h.disjoint.sublist List.filter_sublist
    apply hpair.imp_of_mem
    intro first second hfirst hsecond hdisjoint
    rcases List.mem_filter.mp hfirst with ⟨hmem₁, hfilter₁⟩
    rcases List.mem_filter.mp hsecond with ⟨hmem₂, hfilter₂⟩
    have husable₁ : first.entryType = .usable := by simpa using hfilter₁
    have husable₂ : second.entryType = .usable := by simpa using hfilter₂
    intro frame hin₁ hin₂
    rcases List.mem_map.mp hin₁ with ⟨x, hx, hxframe⟩
    rcases List.mem_map.mp hin₂ with ⟨y, hy, hyframe⟩
    have hxy : x = y := by
      rw [← frameAt_startAddress h hmem₁ husable₁ hx, hxframe, ← hyframe,
        frameAt_startAddress h hmem₂ husable₂ hy]
    subst hxy
    rcases (Iterator.mem_stepBy_iff (by lia)).mp hx with ⟨k, hk, hlt⟩
    rcases (Iterator.mem_stepBy_iff (by lia)).mp hy with ⟨l, hl, hlt'⟩
    exact hdisjoint husable₁ husable₂ x ⟨⟨by lia, hlt⟩, ⟨by lia, hlt'⟩⟩

/-!
# Runs of the allocator
-/

theorem allocateFrame_eq (hpaging : paging.FramesDocumented) (profile : Profile)
    {self : PhysicalManager} (h : Conformant self.memoryMap) (hnext : self.next + 1 < 2 ^ 64) :
    self.allocateFrame paging profile =
      .ok ({ self with next := self.next + 1 }, (frames self.memoryMap)[self.next]?) := by
  unfold allocateFrame
  rw [usableFrames_eq hpaging profile h, Iterator.nth_map_ok, Outcome.ok_bind,
    profile.add_of_lt hnext, Outcome.ok_bind]

theorem allocateFrames_eq (hpaging : paging.FramesDocumented) (profile : Profile)
    {self : PhysicalManager} (h : Conformant self.memoryMap) {calls : Nat}
    (hcalls : self.next + calls < 2 ^ 64) :
    self.allocateFrames paging profile calls =
      .ok ({ self with next := self.next + calls },
        Iterator.supply (frames self.memoryMap) self.next calls) := by
  induction calls generalizing self with
  | zero => rfl
  | succ calls ih =>
      have hstep : (machine paging profile).step self () =
          .ok ({ self with next := self.next + 1 },
            (frames self.memoryMap)[self.next]?) :=
        allocateFrame_eq hpaging profile h (by lia)
      have htail : PhysicalManager.allocateFrames paging profile
            { self with next := self.next + 1 } calls =
          .ok ({ self with next := self.next + 1 + calls },
            Iterator.supply (frames self.memoryMap) (self.next + 1) calls) :=
        ih h (by show self.next + 1 + calls < 2 ^ 64; lia)
      rw [Iterator.supply_succ]
      apply Machine.run_cons_eq_ok_iff.mpr
      refine ⟨_, _, _, hstep, ?_, rfl⟩
      rw [show self.next + (calls + 1) = self.next + 1 + calls by lia]
      exact htail

/-- What the answers of a sequence of allocations must satisfy. -/
structure HandedOutOnce (map : List Entry) (results : List (Option PhysFrame)) :
    Prop where
  distinct : forall (i j : Nat) (frame : PhysFrame), i < j ->
    results[i]? = some (some frame) -> results[j]? ≠ some (some frame)
  inside : forall frame, some frame ∈ results -> UsableFrame map frame
  none_stays : forall i j : Nat, i <= j -> j < results.length ->
    results[i]? = some none -> results[j]? = some none
  none_iff_all : forall i : Nat, i < results.length ->
    (results[i]? = some none <->
      forall frame, UsableFrame map frame -> some frame ∈ results.take i)

/-- Every sequence of allocations from a conformant map hands out pairwise
distinct frames that lie inside usable entries, is exhausted for good once it is
exhausted, and is exhausted exactly when every usable frame is out. -/
theorem allocateFrames_exactly_once (hpaging : paging.FramesDocumented) (profile : Profile)
    (map : List Entry) (hmap : Conformant map) (calls : Nat) (hcalls : calls < 2 ^ 64) :
    exists manager results,
      (PhysicalManager.new map).allocateFrames paging profile calls = .ok (manager, results) ∧
        results.length = calls ∧ HandedOutOnce map results := by
  have hrun : (PhysicalManager.new map).allocateFrames paging profile calls =
      .ok ({ PhysicalManager.new map with next := 0 + calls },
        Iterator.supply (frames map) 0 calls) :=
    allocateFrames_eq hpaging profile hmap (by show 0 + calls < 2 ^ 64; lia)
  have hnodup : (frames map).Nodup := frames_nodup hmap
  have hlen : (Iterator.supply (frames map) 0 calls).length = calls :=
    Iterator.supply_length _ _ _
  refine ⟨_, _, hrun, hlen, ?_⟩
  constructor
  · intro i j frame hij hi hj
    exact Iterator.supply_distinct hnodup hij hi hj
  · intro frame hframe
    exact (mem_frames_iff hmap frame).mp (Iterator.mem_of_supply hframe)
  · intro i j hij hj hi
    rw [hlen] at hj
    exact Iterator.supply_none_stays hij hj hi
  · intro i hi
    rw [hlen] at hi
    rw [Iterator.supply_none_iff hnodup hi]
    constructor
    · intro hall frame hframe
      exact hall frame ((mem_frames_iff hmap frame).mpr hframe)
    · intro hall frame hframe
      exact hall frame ((mem_frames_iff hmap frame).mp hframe)

def sampleMap : List Entry :=
  [{ base := 0x1000, length := 0x2000, entryType := .usable },
   { base := 0, length := 100, entryType := .other 1 },
   { base := 0x8000, length := 0x1000, entryType := .usable }]

theorem sampleMap_conformant : Conformant sampleMap := by
  constructor
  · decide
  · decide
  · decide
  · simp [sampleMap, Entry.Contains]
    lia

theorem sampleMap_exactly_once :
    exists manager results,
      (PhysicalManager.new sampleMap).allocateFrames Paging.reference .dev 5 =
          .ok (manager, results) ∧
        results.length = 5 ∧ HandedOutOnce sampleMap results :=
  allocateFrames_exactly_once Paging.reference_frames .dev sampleMap sampleMap_conformant 5
    (by decide)

end PhysicalManager

end NeurOS
