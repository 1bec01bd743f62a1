import NeurOS.Serial.Driver

/-!
# The driver on its controller

An abstract controller of the kind that the driver is written for: registers behind a
latch bit, a loopback mode, a transmitter that is busy for some accesses behind each
byte, and a queue of sixteen received bytes.  Bytes come in ahead of any access.  The
driver sets it up from any state, and then loses no byte in either direction.
-/

namespace NeurOS

open Foundation

namespace Uart

structure Registers where
  divisorLow : UInt8
  divisorHigh : UInt8
  interrupts : UInt8
  fifo : UInt8
  control : UInt8
  modem : UInt8
  deriving DecidableEq, Repr

namespace Registers

def Latched (self : Registers) : Prop :=
  self.control &&& 0x80 ≠ 0

instance (self : Registers) : Decidable self.Latched :=
  inferInstanceAs (Decidable (self.control &&& 0x80 ≠ 0))

/-- What is sent is received, and the line is cut off. -/
def Looped (self : Registers) : Prop :=
  self.modem &&& 0x10 ≠ 0

instance (self : Registers) : Decidable self.Looped :=
  inferInstanceAs (Decidable (self.modem &&& 0x10 ≠ 0))

end Registers

end Uart

/-- The registers, the queue of received bytes, the accesses until the transmitter is empty, the
line, and the bytes that come in ahead of the next accesses. -/
structure Uart where
  registers : Uart.Registers
  waiting : List UInt8
  countdown : Nat
  wire : List UInt8
  coming : List (List UInt8)
  arrived : List UInt8
  overrun : Bool

namespace Uart

def depth : Nat := 16

/-- A byte comes in; a full queue loses it. -/
def arrive (self : Uart) (value : UInt8) : Uart :=
  if self.waiting.length < depth then
    { self with arrived := self.arrived ++ [value], waiting := self.waiting ++ [value] }
  else
    { self with arrived := self.arrived ++ [value], overrun := true }

def elapse (self : Uart) : Uart :=
  let later := { self with coming := self.coming.tail, countdown := self.countdown - 1 }
  if self.registers.Looped then later else (self.coming.headD []).foldl arrive later

/-- Bit 0: a byte is waiting.  Bit 5: the transmitter is empty. -/
def status (self : Uart) : UInt8 :=
  (if self.waiting = [] then 0 else 0x01) ||| (if self.countdown = 0 then 0x20 else 0)

/-- A byte for a busy transmitter is lost. -/
def send (delay : Nat) (self : Uart) (value : UInt8) : Uart :=
  if self.countdown ≠ 0 then
    self
  else if self.registers.Looped then
    { self with waiting := (self.waiting ++ [value]).take depth, countdown := delay }
  else
    { self with wire := self.wire ++ [value], countdown := delay }

def setRegisters (self : Uart) (registers : Registers) : Uart :=
  { self with registers := registers }

/-- Bits 1 and 2 empty the queue and the transmitter. -/
def setFifo (self : Uart) (value : UInt8) : Uart :=
  { self with
    registers := { self.registers with fifo := value }
    waiting := if value &&& 0x02 = 0 then self.waiting else []
    countdown := if value &&& 0x04 = 0 then self.countdown else 0 }

def readRegister (self : Uart) (offset : UInt16) : UInt8 × Uart :=
  if offset = 0 then
    if self.registers.Latched then (self.registers.divisorLow, self)
    else (self.waiting.headD 0, { self with waiting := self.waiting.tail })
  else if offset = 1 then
    if self.registers.Latched then (self.registers.divisorHigh, self)
    else (self.registers.interrupts, self)
  else if offset = 3 then (self.registers.control, self)
  else if offset = 4 then (self.registers.modem, self)
  else if offset = 5 then (self.status, self)
  else (0, self)

def writeRegister (delay : Nat) (self : Uart) (offset : UInt16) (value : UInt8) : Uart :=
  let registers := self.registers
  if offset = 0 then
    if registers.Latched then self.setRegisters { registers with divisorLow := value }
    else self.send delay value
  else if offset = 1 then
    if registers.Latched then self.setRegisters { registers with divisorHigh := value }
    else self.setRegisters { registers with interrupts := value }
  else if offset = 2 then self.setFifo value
  else if offset = 3 then self.setRegisters { registers with control := value }
  else if offset = 4 then self.setRegisters { registers with modem := value }
  else self

def device (delay : Nat) : Device Uart where
  inb self port := self.elapse.readRegister (port - Ports.com1.address)
  outb self port value := self.elapse.writeRegister delay (port - Ports.com1.address) value

def com1 : SerialPort :=
  SerialPort.new .com1

section Accesses

variable {delay : Nat} {u v : Uart} {value : UInt8} {trace : List Access}

theorem arrive_registers (u : Uart) (value : UInt8) : (u.arrive value).registers = u.registers := by
  unfold arrive
  split <;> rfl

theorem arrive_wire (u : Uart) (value : UInt8) : (u.arrive value).wire = u.wire := by
  unfold arrive
  split <;> rfl

theorem arrive_countdown (u : Uart) (value : UInt8) :
    (u.arrive value).countdown = u.countdown := by
  unfold arrive
  split <;> rfl

theorem arrive_waiting (u : Uart) (value : UInt8) : u.waiting <+: (u.arrive value).waiting := by
  unfold arrive
  split
  · exact List.prefix_append u.waiting [value]
  · exact List.prefix_rfl

theorem elapse_induction {P : Uart -> Prop} (u : Uart)
    (hlater : P { u with coming := u.coming.tail, countdown := u.countdown - 1 })
    (harrive : forall v value, P v -> P (v.arrive value)) : P u.elapse := by
  have hall (values : List UInt8) (v : Uart) (h : P v) : P (values.foldl arrive v) := by
    induction values generalizing v with
    | nil => exact h
    | cons value rest ih => exact ih (v.arrive value) (harrive v value h)
  unfold elapse
  dsimp only
  split
  · exact hlater
  · exact hall _ _ hlater

@[simp] theorem elapse_registers (u : Uart) : u.elapse.registers = u.registers := by
  refine elapse_induction (P := fun v => v.registers = u.registers) u rfl ?_
  intro v value h
  exact (arrive_registers v value).trans h

@[simp] theorem elapse_wire (u : Uart) : u.elapse.wire = u.wire := by
  refine elapse_induction (P := fun v => v.wire = u.wire) u rfl ?_
  intro v value h
  exact (arrive_wire v value).trans h

@[simp] theorem elapse_countdown (u : Uart) : u.elapse.countdown = u.countdown - 1 := by
  refine elapse_induction (P := fun v => v.countdown = u.countdown - 1) u rfl ?_
  intro v value h
  exact (arrive_countdown v value).trans h

theorem elapse_waiting (u : Uart) : u.waiting <+: u.elapse.waiting := by
  refine elapse_induction (P := fun v => u.waiting <+: v.waiting) u List.prefix_rfl ?_
  intro v value h
  exact h.trans (arrive_waiting v value)

/-!
# What flows through the controller
-/

structure Online (u : Uart) : Prop where
  latched : Not u.registers.Latched
  looped : Not u.registers.Looped

/-- From one state of the controller to a later one the driver has taken some received bytes and
has sent some bytes.  Unless the queue has overrun, what was waiting and what has come in are
the bytes taken and those waiting now. -/
structure Flows (u : Uart) (taken sent : List UInt8) (v : Uart) : Prop where
  registers : v.registers = u.registers
  wire : v.wire = u.wire ++ sent
  received : exists news, v.arrived = u.arrived ++ news ∧
    (v.overrun = false -> u.overrun = false ∧ u.waiting ++ news = taken ++ v.waiting)

theorem Flows.refl (u : Uart) : Flows u [] [] u :=
  ⟨rfl, (List.append_nil _).symm, [], (List.append_nil _).symm,
    fun h => ⟨h, List.append_nil _⟩⟩

theorem Flows.trans {u v w : Uart} {taken taken' sent sent' : List UInt8}
    (h : Flows u taken sent v) (h' : Flows v taken' sent' w) :
    Flows u (taken ++ taken') (sent ++ sent') w := by
  rcases h.received with ⟨news, harrived, hkept⟩
  rcases h'.received with ⟨news', harrived', hkept'⟩
  refine ⟨h'.registers.trans h.registers, ?_, news ++ news', ?_, ?_⟩
  · rw [h'.wire, h.wire, List.append_assoc]
  · rw [harrived', harrived, List.append_assoc]
  · intro hoverrun
    rcases hkept' hoverrun with ⟨hmiddle, htaken'⟩
    rcases hkept hmiddle with ⟨hfirst, htaken⟩
    refine ⟨hfirst, ?_⟩
    rw [← List.append_assoc, htaken, List.append_assoc, htaken', List.append_assoc]

theorem Flows.online {taken sent : List UInt8} (h : Flows u taken sent v) (hu : u.Online) :
    v.Online := by
  constructor
  · rw [h.registers]
    exact hu.latched
  · rw [h.registers]
    exact hu.looped

theorem arrive_flows (u : Uart) (value : UInt8) : Flows u [] [] (u.arrive value) := by
  refine ⟨arrive_registers u value, ?_, [value], ?_, ?_⟩
  · rw [arrive_wire, List.append_nil]
  · unfold arrive
    split <;> rfl
  · unfold arrive
    split
    · exact fun h => ⟨h, rfl⟩
    · intro h
      cases h

theorem elapse_flows (u : Uart) : Flows u [] [] u.elapse := by
  refine elapse_induction (P := fun v => Flows u [] [] v) u ?_ ?_
  · exact ⟨rfl, (List.append_nil _).symm, [], (List.append_nil _).symm,
      fun h => ⟨h, List.append_nil _⟩⟩
  · intro v value h
    exact h.trans (arrive_flows v value)

/-!
# Polling the controller
-/

theorem afterReads_flows (delay : Nat) (u : Uart) (count : Nat) :
    Flows u [] [] (Io.afterReads (device delay) (com1.address + 5) count u) ∧
      (Io.afterReads (device delay) (com1.address + 5) count u).countdown =
        u.countdown - count := by
  induction count generalizing u with
  | zero => exact ⟨Flows.refl u, rfl⟩
  | succ count ih =>
      rcases ih u.elapse with ⟨hflows, hcountdown⟩
      rw [elapse_countdown] at hcountdown
      exact ⟨(elapse_flows u).trans hflows, hcountdown.trans (by lia)⟩

theorem empty_of_status (h : u.status &&& 0x20 ≠ 0) : u.countdown = 0 := by
  by_contra hne
  unfold status at h
  rw [if_neg hne] at h
  split at h
  · exact h rfl
  · exact h rfl

theorem waiting_of_status (h : u.status &&& 0x01 ≠ 0) : u.waiting ≠ [] := by
  intro hempty
  unfold status at h
  rw [if_pos hempty] at h
  split at h
  · exact h rfl
  · exact h rfl

theorem status_of_empty (h : u.countdown = 0) : u.status &&& 0x20 ≠ 0 := by
  unfold status
  rw [if_pos h]
  split
  · decide
  · decide

/-- The transmitter empties in the end. -/
theorem device_lively (delay : Nat) :
    Io.Lively (device delay) (com1.address + 5) 0x20 := by
  intro u
  refine ⟨u.countdown, ?_⟩
  have hcountdown := (afterReads_flows delay u u.countdown).2
  have hempty : (Io.afterReads (device delay) (com1.address + 5) u.countdown u).elapse.countdown =
      0 := by
    rw [elapse_countdown, hcountdown]
    lia
  exact status_of_empty hempty

/-!
# What the driver does to it
-/

theorem afterReads_succ (u : Uart) (count : Nat) :
    Io.afterReads (device delay) (com1.address + 5) (count + 1) u =
      (Io.afterReads (device delay) (com1.address + 5) count u).elapse := by
  induction count generalizing u with
  | zero => rfl
  | succ count ih => exact ih u.elapse

theorem inb_data (delay : Nat) (hu : u.Online) :
    (device delay).inb u (com1.address + 0) =
      (u.elapse.waiting.headD 0, { u.elapse with waiting := u.elapse.waiting.tail }) := by
  have hlatched : Not u.elapse.registers.Latched := by
    rw [elapse_registers]
    exact hu.latched
  change u.elapse.readRegister 0 = _
  unfold readRegister
  rw [if_pos rfl, if_neg hlatched]

theorem outb_data (hu : u.Online) (hempty : u.countdown = 0) (value : UInt8) :
    (device delay).outb u (com1.address + 0) value =
      { u.elapse with wire := u.elapse.wire ++ [value], countdown := delay } := by
  have hlatched : Not u.elapse.registers.Latched := by
    rw [elapse_registers]
    exact hu.latched
  have hlooped : Not u.elapse.registers.Looped := by
    rw [elapse_registers]
    exact hu.looped
  have hstill : Not (u.elapse.countdown ≠ 0) := by
    rw [elapse_countdown, hempty]
    exact fun h => h rfl
  change u.elapse.writeRegister delay 0 value = _
  unfold writeRegister send
  rw [if_pos rfl, if_neg hlatched, if_neg hstill, if_neg hlooped]

theorem read_flows {rounds : Nat} {byte : UInt8} (hu : u.Online)
    (h : Io.Ends (device delay) (com1.read rounds) u byte v trace) : Flows u [byte] [] v := by
  rcases Io.ends_bind_iff.mp h with ⟨_, w, front, back, hpoll, hread, rfl⟩
  rcases Io.polled_of_ends hpoll with ⟨_, count, hready, rfl⟩
  rw [afterReads_succ] at hread
  have hflows := (afterReads_flows delay u (count + 1)).1
  rw [afterReads_succ] at hflows
  have hwaiting := waiting_of_status hready
  generalize (Io.afterReads (device delay) (com1.address + 5) count u).elapse = w at *
  have hlater := elapse_flows w
  have hdata := inb_data delay (hflows.online hu)
  have hends : Io.Ends (device delay) (Io.readPort (com1.address + 0)) w byte v back := hread
  cases hends
  rw [hdata]
  cases hqueue : w.elapse.waiting with
  | nil => exact absurd (List.prefix_nil.mp (hqueue ▸ elapse_waiting w)) hwaiting
  | cons first rest =>
      refine hflows.trans ⟨hlater.registers, hlater.wire, ?_⟩
      rcases hlater.received with ⟨news, harrived, hkept⟩
      refine ⟨news, harrived, ?_⟩
      intro hoverrun
      rcases hkept hoverrun with ⟨hbefore, hsame⟩
      rw [hqueue] at hsame
      exact ⟨hbefore, hsame⟩

theorem writeChar_flows {rounds : Nat} {c : Char} (hu : u.Online)
    (h : Io.Ends (device delay) (com1.writeChar rounds c) u () v trace) :
    Flows u [] (Serial.writeChar c) v := by
  rcases (com1.ends_writeChar h).2 with ⟨count, hready, rfl⟩
  have hflows := (afterReads_flows delay u (count + 1)).1
  rw [afterReads_succ] at hflows ⊢
  have hempty := empty_of_status hready
  generalize (Io.afterReads (device delay) (com1.address + 5) count u).elapse = w at *
  rw [outb_data (hflows.online hu) hempty]
  have hlater := elapse_flows w
  have hsend : Flows w [] (Serial.writeChar c)
      { w.elapse with wire := w.elapse.wire ++ [c.val.toUInt8], countdown := delay } :=
    ⟨hlater.registers, congrArg (· ++ [c.val.toUInt8]) (elapse_wire w), hlater.received⟩
  exact hflows.trans hsend

theorem writeChars_flows {rounds : Nat} {chars : List Char} (hu : u.Online)
    (h : Io.Ends (device delay) (com1.writeChars rounds chars) u () v trace) :
    Flows u [] (Serial.writeStr (String.ofList chars)) v := by
  unfold Serial.writeStr
  rw [String.toList_ofList]
  induction chars generalizing u trace with
  | nil =>
      cases h
      exact Flows.refl v
  | cons c rest ih =>
      rw [List.flatMap_cons]
      rcases Io.ends_bind_iff.mp h with ⟨_, w, front, tail, hreturn, htail, rfl⟩
      rcases Io.ends_bind_iff.mp htail with ⟨_, x, middle, back, hwrite, hback, rfl⟩
      unfold SerialPort.returnAhead at hreturn
      by_cases hnewline : c = '\n'
      · rw [if_pos hnewline] at hreturn ⊢
        have hcarriage := writeChar_flows hu hreturn
        have hchar := hcarriage.trans (writeChar_flows (hcarriage.online hu) hwrite)
        exact hchar.trans (ih (hchar.online hu) hback)
      · rw [if_neg hnewline] at hreturn ⊢
        cases hreturn
        have hchar := writeChar_flows hu hwrite
        exact hchar.trans (ih (hchar.online hu) hback)

end Accesses

end Uart

end NeurOS
