/-!
# Processes

The process record: its identifier, its saved registers, its name and whether
it runs.
-/

namespace NeurOS

inductive State where
  | running
  | stopped
  deriving DecidableEq, Repr

structure Context where
  rax : UInt64
  rbx : UInt64
  rcx : UInt64
  rdx : UInt64
  rsi : UInt64
  rdi : UInt64
  rsp : UInt64
  rbp : UInt64
  r8 : UInt64
  r9 : UInt64
  r10 : UInt64
  r11 : UInt64
  r12 : UInt64
  r13 : UInt64
  r14 : UInt64
  r15 : UInt64
  rip : UInt64
  rflags : UInt64
  deriving DecidableEq, Repr

def Context.default : Context where
  rax := 0
  rbx := 0
  rcx := 0
  rdx := 0
  rsi := 0
  rdi := 0
  rsp := 0
  rbp := 0
  r8 := 0
  r9 := 0
  r10 := 0
  r11 := 0
  r12 := 0
  r13 := 0
  r14 := 0
  r15 := 0
  rip := 0
  rflags := 0

structure Process where
  id : Nat
  context : Context
  name : String
  state : State
  deriving DecidableEq, Repr

namespace Process

def new (id : Nat) (name : String) (state : State) : Process where
  id := id
  context := Context.default
  name := name
  state := state

def getId (self : Process) : Nat :=
  self.id

def getName (self : Process) : String :=
  self.name

def setId (self : Process) (id : Nat) : Process :=
  { self with id := id }

def setState (self : Process) (state : State) : Process :=
  { self with state := state }

@[simp] theorem getId_setState (self : Process) (state : State) :
    (self.setState state).getId = self.getId := rfl

@[simp] theorem getName_setState (self : Process) (state : State) :
    (self.setState state).getName = self.getName := rfl

@[simp] theorem context_setState (self : Process) (state : State) :
    (self.setState state).context = self.context := rfl

@[simp] theorem state_setState (self : Process) (state : State) :
    (self.setState state).state = state := rfl

@[simp] theorem getId_setId (self : Process) (id : Nat) :
    (self.setId id).getId = id := rfl

@[simp] theorem getName_setId (self : Process) (id : Nat) :
    (self.setId id).getName = self.getName := rfl

@[simp] theorem context_setId (self : Process) (id : Nat) :
    (self.setId id).context = self.context := rfl

@[simp] theorem state_setId (self : Process) (id : Nat) :
    (self.setId id).state = self.state := rfl

/-- What identifies a process and survives every change of its state. -/
def card (self : Process) : Nat × String × Context :=
  (self.getId, self.getName, self.context)

@[simp] theorem card_setState (self : Process) (state : State) :
    (self.setState state).card = self.card := rfl

end Process

end NeurOS
