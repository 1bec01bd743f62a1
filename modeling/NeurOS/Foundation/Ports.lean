import NeurOS.Foundation.Outcome

/-!
# Programs of port accesses

A driver reads and writes bytes at ports; what it reads decides what it does next.  Such
a program is a tree, run against a device that answers reads and takes writes, and the
run records the accesses in their order.  Loops that poll a status are followed for a
number of rounds.
-/

namespace Foundation

inductive Io (α : Type) where
  | done (a : α)
  | panic (p : Panic)
  | cut
  | inb (port : UInt16) (rest : UInt8 -> Io α)
  | outb (port : UInt16) (value : UInt8) (rest : Io α)

inductive Access where
  | read (port : UInt16) (value : UInt8)
  | written (port : UInt16) (value : UInt8)
  deriving DecidableEq, Repr

structure Device (σ : Type) where
  inb : σ -> UInt16 -> UInt8 × σ
  outb : σ -> UInt16 -> UInt8 -> σ

structure Finished (σ α : Type) where
  value : α
  state : σ
  trace : List Access

namespace Io

variable {α β σ : Type}

def bind : Io α -> (α -> Io β) -> Io β
  | done a, f => f a
  | panic p, _ => .panic p
  | cut, _ => .cut
  | inb port rest, f => .inb port fun value => (rest value).bind f
  | outb port value rest, f => .outb port value (rest.bind f)

instance : Monad Io where
  pure := .done
  bind := bind

def readPort (port : UInt16) : Io UInt8 :=
  .inb port .done

def writePort (port : UInt16) (value : UInt8) : Io Unit :=
  .outb port value (.done ())

def untilNonzero (status : Io UInt8) : Nat -> Io Unit
  | 0 => .cut
  | rounds + 1 => do
      let value ← status
      if value = 0 then untilNonzero status rounds else pure ()

/-- The end of a program, unless a loop is cut off. -/
def run (device : Device σ) : Io α -> σ -> Option (Outcome (Finished σ α))
  | done a, s => some (.ok ⟨a, s, []⟩)
  | panic p, _ => some (.error p)
  | cut, _ => none
  | inb port rest, s =>
      ((rest (device.inb s port).1).run device (device.inb s port).2).map fun outcome =>
        outcome.map fun finished =>
          { finished with trace := .read port (device.inb s port).1 :: finished.trace }
  | outb port value rest, s =>
      (rest.run device (device.outb s port value)).map fun outcome =>
        outcome.map fun finished =>
          { finished with trace := .written port value :: finished.trace }

def Ends (device : Device σ) (program : Io α) (s : σ) (a : α) (s' : σ)
    (trace : List Access) : Prop :=
  program.run device s = some (.ok ⟨a, s', trace⟩)

variable {device : Device σ} {s s' s'' : σ} {a : α} {b : β} {trace more : List Access}

theorem ends_pure : Ends device (pure a) s a s [] := rfl

theorem ends_readPort (port : UInt16) :
    Ends device (readPort port) s (device.inb s port).1 (device.inb s port).2
      [.read port (device.inb s port).1] := rfl

theorem ends_writePort (port : UInt16) (value : UInt8) :
    Ends device (writePort port value) s () (device.outb s port value)
      [.written port value] := rfl

theorem ends_inb_iff {port : UInt16} {rest : UInt8 -> Io α} :
    Ends device (.inb port rest) s a s' trace <->
      exists behind, Ends device (rest (device.inb s port).1) (device.inb s port).2 a s' behind ∧
        trace = .read port (device.inb s port).1 :: behind := by
  unfold Ends
  rw [run]
  cases (rest (device.inb s port).1).run device (device.inb s port).2 with
  | none => simp
  | some outcome =>
      cases outcome with
      | error p => simp [Except.map]
      | ok finished =>
          rcases finished with ⟨a', last, behind⟩
          simp only [Option.map_some, Except.map, Option.some.injEq, Except.ok.injEq,
            Finished.mk.injEq]
          constructor
          · intro h
            rcases h with ⟨ha, hs, htrace⟩
            exact ⟨behind, ⟨ha, hs, rfl⟩, htrace.symm⟩
          · intro h
            rcases h with ⟨_, ⟨ha, hs, rfl⟩, htrace⟩
            exact ⟨ha, hs, htrace.symm⟩

theorem ends_outb_iff {port : UInt16} {value : UInt8} {rest : Io α} :
    Ends device (.outb port value rest) s a s' trace <->
      exists behind, Ends device rest (device.outb s port value) a s' behind ∧
        trace = .written port value :: behind := by
  unfold Ends
  rw [run]
  cases rest.run device (device.outb s port value) with
  | none => simp
  | some outcome =>
      cases outcome with
      | error p => simp [Except.map]
      | ok finished =>
          rcases finished with ⟨a', last, behind⟩
          simp only [Option.map_some, Except.map, Option.some.injEq, Except.ok.injEq,
            Finished.mk.injEq]
          constructor
          · intro h
            rcases h with ⟨ha, hs, htrace⟩
            exact ⟨behind, ⟨ha, hs, rfl⟩, htrace.symm⟩
          · intro h
            rcases h with ⟨_, ⟨ha, hs, rfl⟩, htrace⟩
            exact ⟨ha, hs, htrace.symm⟩

theorem ends_bind_iff {program : Io α} {f : α -> Io β} :
    Ends device (program >>= f) s b s'' trace <->
      exists a s' front back, Ends device program s a s' front ∧
        Ends device (f a) s' b s'' back ∧ trace = front ++ back := by
  change Ends device (program.bind f) s b s'' trace <-> _
  induction program generalizing s trace with
  | done a =>
      constructor
      · intro h
        exact ⟨a, s, [], trace, rfl, h, rfl⟩
      · intro h
        rcases h with ⟨_, _, _, back, hdone, hrest, rfl⟩
        cases hdone
        exact hrest
  | panic p => simp [bind, Ends, run]
  | cut => simp [bind, Ends, run]
  | inb port rest ih =>
      rw [bind, ends_inb_iff]
      constructor
      · intro h
        rcases h with ⟨behind, hrest, rfl⟩
        rcases (ih _).mp hrest with ⟨a, s', front, back, hfront, hback, rfl⟩
        exact ⟨a, s', _ :: front, back, ends_inb_iff.mpr ⟨front, hfront, rfl⟩, hback, rfl⟩
      · intro h
        rcases h with ⟨a, s', front, back, hfront, hback, rfl⟩
        rcases ends_inb_iff.mp hfront with ⟨behind, hrest, rfl⟩
        exact ⟨behind ++ back, (ih _).mpr ⟨a, s', behind, back, hrest, hback, rfl⟩, rfl⟩
  | outb port value rest ih =>
      rw [bind, ends_outb_iff]
      constructor
      · intro h
        rcases h with ⟨behind, hrest, rfl⟩
        rcases ih.mp hrest with ⟨a, s', front, back, hfront, hback, rfl⟩
        exact ⟨a, s', _ :: front, back, ends_outb_iff.mpr ⟨front, hfront, rfl⟩, hback, rfl⟩
      · intro h
        rcases h with ⟨a, s', front, back, hfront, hback, rfl⟩
        rcases ends_outb_iff.mp hfront with ⟨behind, hrest, rfl⟩
        exact ⟨behind ++ back, ih.mpr ⟨a, s', behind, back, hrest, hback, rfl⟩, rfl⟩

theorem ends_bind {program : Io α} {f : α -> Io β} (h : Ends device program s a s' trace)
    (hrest : Ends device (f a) s' b s'' more) :
    Ends device (program >>= f) s b s'' (trace ++ more) :=
  ends_bind_iff.mpr ⟨a, s', trace, more, h, hrest, rfl⟩

def writes (settings : List (UInt16 × UInt8)) (rest : Io α) : Io α :=
  settings.foldr (fun setting behind => .outb setting.1 setting.2 behind) rest

def afterWrites (device : Device σ) (settings : List (UInt16 × UInt8)) (s : σ) : σ :=
  settings.foldl (fun s setting => device.outb s setting.1 setting.2) s

theorem ends_writes {settings : List (UInt16 × UInt8)} {rest : Io α}
    (h : Ends device rest (afterWrites device settings s) a s' trace) :
    exists more, Ends device (writes settings rest) s a s' more := by
  induction settings generalizing s with
  | nil => exact ⟨trace, h⟩
  | cons setting settings ih =>
      rcases ih h with ⟨more, hmore⟩
      exact ⟨_, ends_outb_iff.mpr ⟨more, hmore, rfl⟩⟩

theorem panics_writes {settings : List (UInt16 × UInt8)} {rest : Io α} {p : Panic}
    (h : rest.run device (afterWrites device settings s) = some (.error p)) :
    (writes settings rest).run device s = some (.error p) := by
  induction settings generalizing s with
  | nil => exact h
  | cons setting settings ih =>
      have hrest : (writes settings rest).run device
          (device.outb s setting.1 setting.2) = some (.error p) := ih h
      change ((writes settings rest).run device (device.outb s setting.1 setting.2)).map _ = _
      rw [hrest]
      rfl

/-!
# Polling a status
-/

/-- The register is read until a bit of the mask is set, and not once more. -/
def Polled (port : UInt16) (mask : UInt8) (trace : List Access) : Prop :=
  exists (busy : List UInt8) (ready : UInt8), trace = (busy ++ [ready]).map (Access.read port) ∧
    (forall value, value ∈ busy -> value &&& mask = 0) ∧ ready &&& mask ≠ 0

def masked (port : UInt16) (mask : UInt8) : Io UInt8 := do
  let value ← readPort port
  pure (value &&& mask)

theorem ends_masked (port : UInt16) (mask : UInt8) :
    Ends device (masked port mask) s ((device.inb s port).1 &&& mask) (device.inb s port).2
      [.read port (device.inb s port).1] := rfl

def afterReads (device : Device σ) (port : UInt16) : Nat -> σ -> σ
  | 0, s => s
  | count + 1, s => afterReads device port count (device.inb s port).2

theorem polled_of_ends {port : UInt16} {mask : UInt8} {rounds : Nat}
    (h : Ends device (untilNonzero (masked port mask) rounds) s () s' trace) :
    Polled port mask trace ∧ exists count,
      (device.inb (afterReads device port count s) port).1 &&& mask ≠ 0 ∧
        s' = afterReads device port (count + 1) s := by
  induction rounds generalizing s trace with
  | zero => cases h
  | succ rounds ih =>
      rcases ends_bind_iff.mp h with ⟨value, middle, front, back, hread, hrest, rfl⟩
      cases hread
      by_cases hzero : (device.inb s port).1 &&& mask = 0
      · rw [if_pos hzero] at hrest
        rcases ih hrest with ⟨⟨busy, ready, rfl, hbusy, hready⟩, count, hset, rfl⟩
        refine ⟨⟨(device.inb s port).1 :: busy, ready, rfl, ?_, hready⟩, count + 1, hset, rfl⟩
        exact List.forall_mem_cons.mpr ⟨hzero, hbusy⟩
      · rw [if_neg hzero] at hrest
        cases hrest
        exact ⟨⟨[], _, rfl, by simp, hzero⟩, 0, hzero, rfl⟩

theorem untilNonzero_more {status : Io UInt8} {rounds more : Nat}
    (h : Ends device (untilNonzero status rounds) s () s' trace) (hle : rounds <= more) :
    Ends device (untilNonzero status more) s () s' trace := by
  induction rounds generalizing s trace more with
  | zero => cases h
  | succ rounds ih =>
      cases more with
      | zero => cases hle
      | succ more =>
          rcases ends_bind_iff.mp h with ⟨value, middle, front, back, hstatus, hrest, rfl⟩
          refine ends_bind_iff.mpr ⟨value, middle, front, back, hstatus, ?_, rfl⟩
          by_cases hzero : value = 0
          · rw [if_pos hzero] at hrest ⊢
            exact ih hrest (Nat.le_of_succ_le_succ hle)
          · rw [if_neg hzero] at hrest ⊢
            exact hrest

/-- From every state, reading the register long enough finds a bit of the mask set. -/
def Lively (device : Device σ) (port : UInt16) (mask : UInt8) : Prop :=
  forall s, exists count, (device.inb (afterReads device port count s) port).1 &&& mask ≠ 0

theorem exists_ends_of_ready {port : UInt16} {mask : UInt8} {count : Nat}
    (h : (device.inb (afterReads device port count s) port).1 &&& mask ≠ 0) :
    exists s' trace, Ends device (untilNonzero (masked port mask) (count + 1)) s () s' trace := by
  induction count generalizing s with
  | zero =>
      have hready : (device.inb s port).1 &&& mask ≠ 0 := h
      have hstop : Ends device (if (device.inb s port).1 &&& mask = 0 then
          untilNonzero (masked port mask) 0 else pure ()) (device.inb s port).2 ()
          (device.inb s port).2 [] := by
        rw [if_neg hready]
        exact ends_pure
      exact ⟨_, _, ends_bind (ends_masked port mask) hstop⟩
  | succ count ih =>
      rcases ih h with ⟨s', trace, hrest⟩
      by_cases hzero : (device.inb s port).1 &&& mask = 0
      · have hagain : Ends device (if (device.inb s port).1 &&& mask = 0 then
            untilNonzero (masked port mask) (count + 1) else pure ()) (device.inb s port).2 ()
            s' trace := by
          rw [if_pos hzero]
          exact hrest
        exact ⟨s', _, ends_bind (ends_masked port mask) hagain⟩
      · have hstop : Ends device (if (device.inb s port).1 &&& mask = 0 then
            untilNonzero (masked port mask) (count + 1) else pure ()) (device.inb s port).2 ()
            (device.inb s port).2 [] := by
          rw [if_neg hzero]
          exact ends_pure
        exact ⟨_, _, ends_bind (ends_masked port mask) hstop⟩

end Io

end Foundation
