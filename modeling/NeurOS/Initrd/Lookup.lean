import NeurOS.Initrd.Listing

/-!
# Lookup by path

The format stores a path that does not fit the name field in two parts.  The
lookup compares the name field alone, so it answers correctly exactly for the
archives that have no such path, if the walk gets to their end.
-/

namespace NeurOS

open Foundation

namespace Ustar

def Entry.fullPath (entry : Entry) : String :=
  if entry.namePrefix.value = "" then
    entry.name.value
  else
    entry.namePrefix.value ++ "/" ++ entry.name.value

def Entry.pathLength (entry : Entry) : Nat :=
  (Text.bytesOf entry.fullPath).length

/-- The prefix field is used only for a path that does not fit the name field. -/
def Entry.SplitWhenLong (entry : Entry) : Prop :=
  entry.namePrefix.value ≠ "" -> 100 < entry.pathLength

theorem fullPath_eq_name {entry : Entry} (hsplit : entry.SplitWhenLong)
    (h : entry.pathLength <= 100) : entry.fullPath = entry.name.value := by
  have hprefix : entry.namePrefix.value = "" := by
    by_contra hne
    have hlong := hsplit hne
    lia
  simp [Entry.fullPath, hprefix]

end Ustar

namespace Initrd

structure LookupCorrect (initrd : Initrd) (entries : List Ustar.Entry) : Prop where
  found : forall entry, entry ∈ entries ->
    initrd.getData entry.fullPath = .ok entry.content.data
  noOther : forall path, path ∉ entries.map Ustar.Entry.fullPath ->
    forall data, initrd.getData path ≠ .ok data

theorem getData_eq_ok_iff {entries : List Ustar.Entry} {path : String}
    {data : List UInt8} :
    getData { files := entries.map fileOf } path = .ok data <->
      exists entry, entries.find? (fun e => e.name.value = path) = some entry ∧
        data = entry.content.data := by
  have hfind : (entries.map fileOf).find? (fun x => x.header.name = path) =
      (entries.find? fun e => e.name.value = path).map fileOf := by
    rw [List.find?_map]
    rfl
  simp only [getData, hfind]
  cases entries.find? (fun e => e.name.value = path) with
  | none => simp
  | some entry => simp [fileOf, eq_comm]

theorem find?_of_nodup [DecidableEq β] {f : α -> β} {items : List α}
    (hnodup : (items.map f).Nodup) {a : α} (ha : a ∈ items) :
    items.find? (fun x => f x = f a) = some a := by
  induction items with
  | nil => cases ha
  | cons first rest ih =>
      rw [List.map_cons, List.nodup_cons] at hnodup
      rcases List.mem_cons.mp ha with hfirst | hrest
      · simp [hfirst]
      · have hne : f first ≠ f a := by
          intro heq
          apply hnodup.1
          rw [heq]
          exact List.mem_map_of_mem hrest
        rw [List.find?_cons_of_neg (by simpa using hne)]
        exact ih hnodup.2 hrest

theorem lookupCorrect_of_short {entries : List Ustar.Entry}
    (hsplit : forall entry, entry ∈ entries -> entry.SplitWhenLong)
    (hdistinct : (entries.map Ustar.Entry.fullPath).Nodup)
    (hshort : forall entry, entry ∈ entries -> entry.pathLength <= 100) :
    LookupCorrect { files := entries.map fileOf } entries := by
  have hname : forall entry, entry ∈ entries -> entry.fullPath = entry.name.value :=
    fun entry hmem => Ustar.fullPath_eq_name (hsplit entry hmem) (hshort entry hmem)
  have hnames : entries.map Ustar.Entry.fullPath = entries.map fun e => e.name.value :=
    List.map_congr_left hname
  rw [hnames] at hdistinct
  constructor
  · intro entry hmem
    apply getData_eq_ok_iff.mpr
    refine ⟨entry, ?_, rfl⟩
    rw [hname entry hmem]
    exact find?_of_nodup hdistinct hmem
  · intro path hpath data hdata
    rcases getData_eq_ok_iff.mp hdata with ⟨entry, hfind, _⟩
    apply hpath
    have hmem := List.mem_of_find?_eq_some hfind
    have heq : entry.name.value = path := by simpa using List.find?_some hfind
    rw [← heq, ← hname entry hmem]
    exact List.mem_map_of_mem hmem

def directory (count : Nat) : List Char :=
  ['i', 'n', 'i', 't', 'r', 'd', '/'] ++ List.replicate count 'x'

end Initrd

end NeurOS
