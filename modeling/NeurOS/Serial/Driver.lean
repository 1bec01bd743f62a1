import NeurOS.Foundation.Ports
import NeurOS.Serial

/-!
# The driver of the serial port

The port accesses of the driver.  Whatever device is behind the ports, each byte of a
text is written after a status that says that the transmitter is empty, and nothing
else is written; a device whose transmitter empties in the end gets the whole text.
-/

namespace NeurOS

open Foundation

structure SerialPort where
  address : UInt16

inductive Ports where
  | com1
  deriving DecidableEq, Repr

def Ports.address : Ports -> UInt16
  | .com1 => 0x3F8

namespace SerialPort

def new (port : Ports) : SerialPort where
  address := port.address

def inb (self : SerialPort) (offset : UInt16) : Io UInt8 :=
  Io.readPort (self.address + offset)

def outb (self : SerialPort) (offset : UInt16) (value : UInt8) : Io Unit :=
  Io.writePort (self.address + offset) value

/-- The self-test reads back, in loopback mode, the byte that it has written. -/
def initializePort (self : SerialPort) : Io Unit := do
  self.outb 1 0x01
  self.outb 3 0x80
  self.outb 0 0x03
  self.outb 1 0x00
  self.outb 3 0x03
  self.outb 2 0xC7
  self.outb 4 0x0B
  self.outb 4 0x1E
  self.outb 0 0xAE
  let value ← self.inb 0
  (if value = 0xAE then pure () else .panic .assertionFailed : Io Unit)
  self.outb 4 0x0F

def transmitEmpty (self : SerialPort) : Io UInt8 := do
  let value ← self.inb 5
  pure (value &&& 0x20)

def received (self : SerialPort) : Io UInt8 := do
  let value ← self.inb 5
  pure (value &&& 0x1)

def read (self : SerialPort) (rounds : Nat) : Io UInt8 := do
  Io.untilNonzero self.received rounds
  self.inb 0

def writeChar (self : SerialPort) (rounds : Nat) (c : Char) : Io Unit := do
  Io.untilNonzero self.transmitEmpty rounds
  self.outb 0 c.val.toUInt8

def returnAhead (self : SerialPort) (rounds : Nat) (character : Char) : Io Unit :=
  if character = '\n' then self.writeChar rounds '\r' else pure ()

def writeChars (self : SerialPort) (rounds : Nat) : List Char -> Io Unit
  | [] => pure ()
  | character :: rest => do
      self.returnAhead rounds character
      self.writeChar rounds character
      self.writeChars rounds rest

def writeStr (self : SerialPort) (rounds : Nat) (s : String) : Io Unit :=
  self.writeChars rounds s.toList

def settings (self : SerialPort) : List (UInt16 × UInt8) :=
  [(self.address + 1, 0x01), (self.address + 3, 0x80), (self.address + 0, 0x03),
    (self.address + 1, 0x00), (self.address + 3, 0x03), (self.address + 2, 0xC7),
    (self.address + 4, 0x0B), (self.address + 4, 0x1E), (self.address + 0, 0xAE)]

def concluded (self : SerialPort) (value : UInt8) : Io Unit :=
  (if value = 0xAE then pure () else .panic .assertionFailed : Io Unit) >>=
    fun _ => self.outb 4 0x0F

theorem initializePort_eq (self : SerialPort) :
    self.initializePort = Io.writes self.settings (.inb (self.address + 0) self.concluded) := rfl

theorem ends_initializePort {σ : Type} {device : Device σ} {s s' : σ} (self : SerialPort)
    (h : device.inb (Io.afterWrites device self.settings s) (self.address + 0) = (0xAE, s')) :
    exists trace, Io.Ends device self.initializePort s ()
      (device.outb s' (self.address + 4) 0x0F) trace := by
  rw [initializePort_eq]
  have hlast : Io.Ends device (self.concluded 0xAE) s' ()
      (device.outb s' (self.address + 4) 0x0F) [.written (self.address + 4) 0x0F] :=
    Io.ends_writePort _ _
  have hread : Io.Ends device (.inb (self.address + 0) self.concluded)
      (Io.afterWrites device self.settings s) () (device.outb s' (self.address + 4) 0x0F)
      [.read (self.address + 0) 0xAE, .written (self.address + 4) 0x0F] := by
    rw [Io.ends_inb_iff, h]
    exact ⟨_, hlast, rfl⟩
  exact Io.ends_writes hread

theorem panics_initializePort {σ : Type} {device : Device σ} {s : σ} (self : SerialPort)
    (h : (device.inb (Io.afterWrites device self.settings s) (self.address + 0)).1 ≠ 0xAE) :
    self.initializePort.run device s = some (.error .assertionFailed) := by
  rw [initializePort_eq]
  refine Io.panics_writes ?_
  rw [Io.run, concluded, if_neg h]
  rfl

/-!
# The handshake
-/

/-- The accesses that transmit some bytes: the status is read until the transmitter is empty, and
then one byte is written, again and again. -/
inductive Handshakes (self : SerialPort) : List UInt8 -> List Access -> Prop where
  | nothing : Handshakes self [] []
  | byte {value : UInt8} {rest : List UInt8} {polled trace : List Access}
      (hpolled : Io.Polled (self.address + 5) 0x20 polled) (h : Handshakes self rest trace) :
      Handshakes self (value :: rest)
        (polled ++ .written (self.address + 0) value :: trace)

theorem Handshakes.append {self : SerialPort} {first second : List UInt8}
    {front back : List Access} (h : Handshakes self first front)
    (h' : Handshakes self second back) : Handshakes self (first ++ second) (front ++ back) := by
  induction h with
  | nothing => exact h'
  | byte hpolled _ ih =>
      rw [List.append_assoc, List.cons_append]
      exact .byte hpolled ih

section Driver

variable {σ : Type} {device : Device σ} {s s' : σ} {trace : List Access}

theorem ends_writeChar (self : SerialPort) {rounds : Nat} {c : Char}
    (h : Io.Ends device (self.writeChar rounds c) s () s' trace) :
    Handshakes self (Serial.writeChar c) trace ∧ exists count,
      (device.inb (Io.afterReads device (self.address + 5) count s) (self.address + 5)).1 &&&
        0x20 ≠ 0 ∧
      s' = device.outb (Io.afterReads device (self.address + 5) (count + 1) s)
        (self.address + 0) c.val.toUInt8 := by
  rcases Io.ends_bind_iff.mp h with ⟨_, middle, front, back, hpoll, hwrite, rfl⟩
  cases hwrite
  rcases Io.polled_of_ends hpoll with ⟨hpolled, count, hready, rfl⟩
  exact ⟨.byte hpolled .nothing, count, hready, rfl⟩

theorem handshakes_of_ends (self : SerialPort) {rounds : Nat} {chars : List Char}
    (h : Io.Ends device (self.writeChars rounds chars) s () s' trace) :
    Handshakes self (Serial.writeStr (String.ofList chars)) trace := by
  unfold Serial.writeStr
  rw [String.toList_ofList]
  induction chars generalizing s trace with
  | nil =>
      cases h
      exact .nothing
  | cons c rest ih =>
      rw [List.flatMap_cons]
      rcases Io.ends_bind_iff.mp h with ⟨_, s1, front, tail, hreturn, htail, rfl⟩
      rcases Io.ends_bind_iff.mp htail with ⟨_, s2, middle, back, hwrite, hback, rfl⟩
      have hlast := (ends_writeChar self hwrite).1
      unfold returnAhead at hreturn
      by_cases hnewline : c = '\n'
      · rw [if_pos hnewline] at hreturn ⊢
        rw [List.append_assoc]
        exact (ends_writeChar self hreturn).1.append (hlast.append (ih hback))
      · rw [if_neg hnewline] at hreturn ⊢
        cases hreturn
        exact hlast.append (ih hback)

theorem writeChar_more (self : SerialPort) {rounds more : Nat} {c : Char}
    (h : Io.Ends device (self.writeChar rounds c) s () s' trace) (hle : rounds <= more) :
    Io.Ends device (self.writeChar more c) s () s' trace := by
  rcases Io.ends_bind_iff.mp h with ⟨_, middle, front, back, hpoll, hwrite, rfl⟩
  exact Io.ends_bind (Io.untilNonzero_more hpoll hle) hwrite

theorem returnAhead_more (self : SerialPort) {rounds more : Nat} {c : Char}
    (h : Io.Ends device (self.returnAhead rounds c) s () s' trace) (hle : rounds <= more) :
    Io.Ends device (self.returnAhead more c) s () s' trace := by
  unfold returnAhead at h ⊢
  by_cases hnewline : c = '\n'
  · rw [if_pos hnewline] at h ⊢
    exact writeChar_more self h hle
  · rw [if_neg hnewline] at h ⊢
    exact h

theorem writeChars_more (self : SerialPort) {rounds more : Nat} {chars : List Char}
    (h : Io.Ends device (self.writeChars rounds chars) s () s' trace) (hle : rounds <= more) :
    Io.Ends device (self.writeChars more chars) s () s' trace := by
  induction chars generalizing s trace with
  | nil => exact h
  | cons c rest ih =>
      rcases Io.ends_bind_iff.mp h with ⟨_, s1, front, tail, hreturn, htail, rfl⟩
      rcases Io.ends_bind_iff.mp htail with ⟨_, s2, middle, back, hwrite, hback, rfl⟩
      exact Io.ends_bind (returnAhead_more self hreturn hle)
        (Io.ends_bind (writeChar_more self hwrite hle) (ih hback))

theorem exists_ends_writeChar (self : SerialPort)
    (h : Io.Lively device (self.address + 5) 0x20) (c : Char) (s : σ) :
    exists rounds s' trace, Io.Ends device (self.writeChar rounds c) s () s' trace := by
  rcases h s with ⟨count, hready⟩
  rcases Io.exists_ends_of_ready hready with ⟨middle, front, hpoll⟩
  exact ⟨count + 1, _, _, Io.ends_bind hpoll (Io.ends_writePort _ _)⟩

theorem exists_ends_returnAhead (self : SerialPort)
    (h : Io.Lively device (self.address + 5) 0x20) (c : Char) (s : σ) :
    exists rounds s' trace, Io.Ends device (self.returnAhead rounds c) s () s' trace := by
  unfold returnAhead
  split
  · exact exists_ends_writeChar self h '\r' s
  · exact ⟨0, s, [], Io.ends_pure⟩

theorem exists_ends_writeChars (self : SerialPort)
    (h : Io.Lively device (self.address + 5) 0x20) (chars : List Char) (s : σ) :
    exists rounds s' trace, Io.Ends device (self.writeChars rounds chars) s () s' trace := by
  induction chars generalizing s with
  | nil => exact ⟨0, s, [], Io.ends_pure⟩
  | cons c rest ih =>
      rcases exists_ends_returnAhead self h c s with ⟨first, s1, front, hreturn⟩
      rcases exists_ends_writeChar self h c s1 with ⟨second, s2, middle, hwrite⟩
      rcases ih s2 with ⟨third, s3, back, hrest⟩
      let most := max first (max second third)
      exact ⟨most, s3, _, Io.ends_bind (returnAhead_more self hreturn (by lia))
        (Io.ends_bind (writeChar_more self hwrite (by lia))
          (writeChars_more self hrest (by lia)))⟩

/-- Whatever is behind the ports: a text is written byte by byte, each one after a status that
says that the transmitter is empty, and a transmitter that always empties in the end gets the
whole text. -/
theorem writeStr_handshakes (self : SerialPort) (device : Device σ) (text : String) (s : σ) :
    (forall rounds s' trace, Io.Ends device (self.writeStr rounds text) s () s' trace ->
      Handshakes self (Serial.writeStr text) trace) ∧
    (Io.Lively device (self.address + 5) 0x20 ->
      exists rounds s' trace, Io.Ends device (self.writeStr rounds text) s () s' trace) := by
  constructor
  · intro rounds s' trace h
    have hhandshakes := handshakes_of_ends self h
    rw [String.ofList_toList] at hhandshakes
    exact hhandshakes
  · intro h
    exact exists_ends_writeChars self h text.toList s

end Driver

end SerialPort

end NeurOS
