import NeurOS.Serial.Uart

/-!
# The line in both directions

The set-up of the controller, and the calls of the driver behind it.  The self-test
fails exactly if a byte comes in while the queue is not cut off yet; behind it the
driver's calls lose nothing in either direction.
-/

namespace NeurOS

open Foundation

namespace Uart

/-!
# The set-up
-/

def noise (u : Uart) : List UInt8 :=
  (if u.registers.Looped then [] else u.coming.getD 6 []) ++ u.coming.getD 7 []

namespace Registers

def configured (self : Registers) : Registers where
  divisorLow := 0x03
  divisorHigh := 0x00
  interrupts := if self.Latched then self.interrupts else 0x01
  fifo := 0xC7
  control := 0x03
  modem := 0x0F

theorem latched_of_control {self : Registers} (h : self.control = 0x80) : self.Latched := by
  unfold Latched
  rw [h]
  decide

theorem not_latched_of_control {self : Registers} (h : self.control = 0x03) :
    Not self.Latched := by
  unfold Latched
  rw [h]
  decide

theorem looped_of_modem {self : Registers} (h : self.modem = 0x1E) : self.Looped := by
  unfold Looped
  rw [h]
  decide

theorem not_looped_of_modem {self : Registers} (h : self.modem = 0x0B ∨ self.modem = 0x0F) :
    Not self.Looped := by
  unfold Looped
  rcases h with h | h
  · rw [h]
    decide
  · rw [h]
    decide

end Registers

section SetUp

variable {u v : Uart}

theorem elapse_coming (u : Uart) : u.elapse.coming = u.coming.tail := by
  refine elapse_induction (P := fun v => v.coming = u.coming.tail) u rfl ?_
  intro v value h
  unfold arrive
  split
  · exact h
  · exact h

theorem elapse_looped (h : u.registers.Looped) : u.elapse.waiting = u.waiting := by
  unfold elapse
  rw [if_pos h]

theorem headD_drop {α : Type} (values : List α) (n : Nat) (value : α) :
    (values.drop n).headD value = values.getD n value := by
  rw [List.headD_eq_head?_getD, List.head?_drop, List.getD_eq_getElem?_getD]

theorem take_append_take {α : Type} (n : Nat) (front back : List α) :
    (front.take n ++ back).take n = (front ++ back).take n := by
  simp [List.take_append, List.take_take]
  lia

theorem arrive_waiting_eq (value : UInt8) (h : u.waiting.length <= depth) :
    (u.arrive value).waiting = (u.waiting ++ [value]).take depth := by
  unfold arrive
  by_cases hroom : u.waiting.length < depth
  · rw [if_pos hroom, List.take_of_length_le]
    rw [List.length_append]
    exact hroom
  · rw [if_neg hroom, List.take_append_of_le_length (by lia), List.take_of_length_le h]

theorem foldl_arrive_waiting (values : List UInt8) (h : u.waiting.length <= depth) :
    (values.foldl arrive u).waiting = (u.waiting ++ values).take depth := by
  induction values generalizing u with
  | nil =>
      rw [List.append_nil, List.take_of_length_le h]
      rfl
  | cons value rest ih =>
      have hfirst := arrive_waiting_eq value h
      have hroom : (u.arrive value).waiting.length <= depth := by
        rw [hfirst]
        exact List.length_take_le depth _
      rw [List.foldl_cons, ih hroom, hfirst]
      rw [take_append_take, List.append_assoc, List.singleton_append]

theorem elapse_waiting_eq (h : u.waiting.length <= depth) :
    u.elapse.waiting =
      (u.waiting ++ (if u.registers.Looped then [] else u.coming.headD [])).take depth := by
  unfold elapse
  dsimp only
  split
  · rw [List.append_nil, List.take_of_length_le h]
  · exact foldl_arrive_waiting _ h

structure Stage (u v : Uart) (count : Nat) (registers : Registers) : Prop where
  registers : v.registers = registers
  wire : v.wire = u.wire
  coming : v.coming = u.coming.drop count

theorem Stage.elapse {count : Nat} {registers : Registers} (h : Stage u v count registers) :
    Stage u v.elapse (count + 1) registers := by
  refine ⟨(elapse_registers v).trans h.registers, (elapse_wire v).trans h.wire, ?_⟩
  rw [elapse_coming, h.coming, List.tail_drop]

theorem Stage.setRegisters {count : Nat} {registers : Registers}
    (h : Stage u v count registers) (registers' : Registers) :
    Stage u (v.elapse.setRegisters registers') (count + 1) registers' :=
  ⟨rfl, h.elapse.wire, h.elapse.coming⟩

theorem Stage.start (u : Uart) : Stage u u 0 u.registers :=
  ⟨rfl, rfl, rfl⟩

theorem Stage.control (delay : Nat) {count : Nat} {registers : Registers}
    (h : Stage u v count registers) (value : UInt8) :
    Stage u ((device delay).outb v (com1.address + 3) value) (count + 1)
      { registers with control := value } := by
  rw [<- h.elapse.registers]
  exact h.setRegisters _

theorem Stage.modem (delay : Nat) {count : Nat} {registers : Registers}
    (h : Stage u v count registers) (value : UInt8) :
    Stage u ((device delay).outb v (com1.address + 4) value) (count + 1)
      { registers with modem := value } := by
  rw [<- h.elapse.registers]
  exact h.setRegisters _

theorem Stage.fifo (delay : Nat) {count : Nat} {registers : Registers}
    (h : Stage u v count registers) (value : UInt8) :
    Stage u ((device delay).outb v (com1.address + 2) value) (count + 1)
      { registers with fifo := value } := by
  rw [<- h.elapse.registers]
  exact ⟨rfl, h.elapse.wire, h.elapse.coming⟩

theorem Stage.low (delay : Nat) {count : Nat} {registers : Registers}
    (h : Stage u v count registers) (hlatched : registers.Latched) (value : UInt8) :
    Stage u ((device delay).outb v (com1.address + 0) value) (count + 1)
      { registers with divisorLow := value } := by
  rw [<- h.elapse.registers] at hlatched ⊢
  change Stage u (v.elapse.writeRegister delay 0 value) _ _
  unfold writeRegister
  rw [if_pos rfl, if_pos hlatched]
  exact h.setRegisters _

theorem Stage.second (delay : Nat) {count : Nat} {registers : Registers}
    (h : Stage u v count registers) (value : UInt8) :
    Stage u ((device delay).outb v (com1.address + 1) value) (count + 1)
      (if registers.Latched then { registers with divisorHigh := value }
        else { registers with interrupts := value }) := by
  rw [<- h.elapse.registers]
  change Stage u (v.elapse.writeRegister delay 1 value) _ _
  unfold writeRegister
  rw [if_neg (by decide), if_pos rfl]
  split
  · exact h.setRegisters _
  · exact h.setRegisters _

theorem unlatched_stage (delay : Nat) (u : Uart) :
    Stage u (Io.afterWrites (device delay) (com1.settings.take 5) u) 5
      { u.registers.configured with fifo := u.registers.fifo, modem := u.registers.modem } := by
  have hlatch := ((Stage.start u).second delay 0x01).control delay 0x80
  have hlow := hlatch.low delay (Registers.latched_of_control rfl) 0x03
  have hhigh := hlow.second delay 0x00
  rw [if_pos (Registers.latched_of_control rfl)] at hhigh
  have hcontrol := hhigh.control delay 0x03
  refine ⟨hcontrol.registers.trans ?_, hcontrol.wire, hcontrol.coming⟩
  unfold Registers.configured
  split
  · rfl
  · rfl

theorem emptied_stage (delay : Nat) (u : Uart) :
    Stage u (Io.afterWrites (device delay) (com1.settings.take 6) u) 6
        { u.registers.configured with modem := u.registers.modem } ∧
      (Io.afterWrites (device delay) (com1.settings.take 6) u).waiting = [] ∧
      (Io.afterWrites (device delay) (com1.settings.take 6) u).countdown = 0 :=
  ⟨(unlatched_stage delay u).fifo delay 0xC7, rfl, rfl⟩

theorem looped_stage (delay : Nat) (u : Uart) :
    Stage u (Io.afterWrites (device delay) (com1.settings.take 8) u) 8
        { u.registers.configured with modem := 0x1E } ∧
      (Io.afterWrites (device delay) (com1.settings.take 8) u).waiting = u.noise.take depth ∧
      (Io.afterWrites (device delay) (com1.settings.take 8) u).countdown = 0 := by
  rcases emptied_stage delay u with ⟨hstage, hwaiting, hcountdown⟩
  change Stage u ((device delay).outb ((device delay).outb
      (Io.afterWrites (device delay) (com1.settings.take 6) u) (com1.address + 4) 0x0B)
        (com1.address + 4) 0x1E) 8 _ ∧
    ((device delay).outb (Io.afterWrites (device delay) (com1.settings.take 6) u)
      (com1.address + 4) 0x0B).elapse.waiting = _ ∧
    ((device delay).outb (Io.afterWrites (device delay) (com1.settings.take 6) u)
      (com1.address + 4) 0x0B).elapse.countdown = 0
  generalize Io.afterWrites (device delay) (com1.settings.take 6) u = v at *
  have hready := hstage.modem delay 0x0B
  have hfirst : ((device delay).outb v (com1.address + 4) 0x0B).waiting =
      (if u.registers.Looped then [] else u.coming.getD 6 []).take depth := by
    change v.elapse.waiting = _
    rw [elapse_waiting_eq (by rw [hwaiting]; exact Nat.zero_le depth), hwaiting, hstage.coming,
      headD_drop, hstage.registers]
    rfl
  have hstill : ((device delay).outb v (com1.address + 4) 0x0B).countdown = 0 := by
    change v.elapse.countdown = 0
    rw [elapse_countdown, hcountdown]
  generalize (device delay).outb v (com1.address + 4) 0x0B = w at *
  refine ⟨hready.modem delay 0x1E, ?_, ?_⟩
  · have hline : Not w.registers.Looped := by
      rw [hready.registers]
      exact Registers.not_looped_of_modem (Or.inl rfl)
    have hroom : w.waiting.length <= depth := by
      rw [hfirst]
      exact List.length_take_le depth _
    rw [elapse_waiting_eq hroom, if_neg hline, hfirst, take_append_take, hready.coming, headD_drop]
    rfl
  · rw [elapse_countdown, hstill]

theorem tested_stage (delay : Nat) (u : Uart) :
    Stage u (Io.afterWrites (device delay) com1.settings u) 9
        { u.registers.configured with modem := 0x1E } ∧
      (Io.afterWrites (device delay) com1.settings u).waiting =
        (u.noise ++ [0xAE]).take depth := by
  rcases looped_stage delay u with ⟨hstage, hwaiting, hcountdown⟩
  change Stage u (((Io.afterWrites (device delay) (com1.settings.take 8) u).elapse).writeRegister
      delay 0 0xAE) 9 _ ∧
    (((Io.afterWrites (device delay) (com1.settings.take 8) u).elapse).writeRegister
      delay 0 0xAE).waiting = _
  generalize Io.afterWrites (device delay) (com1.settings.take 8) u = v at *
  have hlater := hstage.elapse
  have hlooped : v.registers.Looped := by
    rw [hstage.registers]
    exact Registers.looped_of_modem rfl
  have hsend : v.elapse.writeRegister delay 0 0xAE = { v.elapse with
      waiting := (v.waiting ++ [0xAE]).take depth, countdown := delay } := by
    have hlatched : Not v.elapse.registers.Latched := by
      rw [hlater.registers]
      exact Registers.not_latched_of_control rfl
    have hstill : Not (v.elapse.countdown ≠ 0) := by
      rw [elapse_countdown, hcountdown]
      exact fun h => h rfl
    have hlooped' : v.elapse.registers.Looped := by
      rw [elapse_registers]
      exact hlooped
    unfold writeRegister send
    rw [if_pos rfl, if_neg hlatched, if_neg hstill, if_pos hlooped', elapse_looped hlooped]
  rw [hsend, hwaiting, take_append_take]
  exact ⟨⟨hlater.registers, hlater.wire, hlater.coming⟩, rfl⟩

theorem headD_take (values : List UInt8) :
    ((values ++ [0xAE]).take depth).headD 0 = values.headD 0xAE := by
  cases values with
  | nil => rfl
  | cons first rest => rfl

theorem inb_tested (delay : Nat) (u : Uart) :
    exists v, (device delay).inb (Io.afterWrites (device delay) com1.settings u)
        (com1.address + 0) = (u.noise.headD 0xAE, v) ∧
      Stage u v 10 { u.registers.configured with modem := 0x1E } ∧
      v.waiting = ((u.noise ++ [0xAE]).take depth).tail := by
  rcases tested_stage delay u with ⟨hstage, hwaiting⟩
  generalize Io.afterWrites (device delay) com1.settings u = w at *
  have hlater := hstage.elapse
  have hlooped : w.registers.Looped := by
    rw [hstage.registers]
    exact Registers.looped_of_modem rfl
  have hlatched : Not w.elapse.registers.Latched := by
    rw [hlater.registers]
    exact Registers.not_latched_of_control rfl
  refine ⟨{ w.elapse with waiting := w.elapse.waiting.tail }, ?_,
    ⟨hlater.registers, hlater.wire, hlater.coming⟩, ?_⟩
  · change w.elapse.readRegister 0 = _
    unfold readRegister
    rw [if_pos rfl, if_neg hlatched, elapse_looped hlooped, hwaiting, headD_take]
  · rw [elapse_looped hlooped, hwaiting]

end SetUp

/-- The set-up, from any state of the controller: it ends, with the data register on the line,
unless the first byte that comes in too late is not the one of the self-test; then it panics. -/
theorem initializePort_ends (delay : Nat) (u : Uart) :
    (u.noise.headD 0xAE = 0xAE -> exists v trace,
      Io.Ends (device delay) com1.initializePort u () v trace ∧ v.Online ∧
        v.registers = u.registers.configured ∧ v.wire = u.wire ∧
        v.waiting = ((u.noise ++ [0xAE]).take depth).tail) ∧
    (u.noise.headD 0xAE ≠ 0xAE ->
      com1.initializePort.run (device delay) u = some (.error .assertionFailed)) := by
  rcases inb_tested delay u with ⟨v, hinb, hstage, hwaiting⟩
  constructor
  · intro hquiet
    rw [hquiet] at hinb
    rcases com1.ends_initializePort hinb with ⟨trace, hends⟩
    have hlast := hstage.modem delay 0x0F
    have hlooped : v.registers.Looped := by
      rw [hstage.registers]
      exact Registers.looped_of_modem rfl
    refine ⟨_, trace, hends, ⟨?_, ?_⟩, hlast.registers, hlast.wire, ?_⟩
    · rw [hlast.registers]
      exact Registers.not_latched_of_control rfl
    · rw [hlast.registers]
      exact Registers.not_looped_of_modem (Or.inr rfl)
    · change v.elapse.waiting = _
      rw [elapse_looped hlooped, hwaiting]
  · intro hnoise
    refine com1.panics_initializePort ?_
    rw [hinb]
    exact hnoise

/-!
# The calls behind it
-/

/-- Calls of the driver, one behind the other, with the bytes that they have read and the texts
that they have written. -/
inductive Exchanges (delay : Nat) (u : Uart) : List UInt8 -> List String -> Uart -> Prop where
  | nothing : Exchanges delay u [] [] u
  | read {taken : List UInt8} {texts : List String} {v w : Uart} {rounds : Nat} {byte : UInt8}
      {trace : List Access} (h : Exchanges delay u taken texts v)
      (hread : Io.Ends (device delay) (com1.read rounds) v byte w trace) :
      Exchanges delay u (taken ++ [byte]) texts w
  | written {taken : List UInt8} {texts : List String} {v w : Uart} {rounds : Nat}
      {text : String} {trace : List Access} (h : Exchanges delay u taken texts v)
      (hwrite : Io.Ends (device delay) (com1.writeStr rounds text) v () w trace) :
      Exchanges delay u taken (texts ++ [text]) w

/-- A byte is waiting or will come in. -/
def Due (u : Uart) : Prop :=
  u.waiting ≠ [] ∨ exists values, values ∈ u.coming ∧ values ≠ []

section Calls

variable {delay : Nat} {u v : Uart}

theorem Exchanges.flows {taken : List UInt8} {texts : List String} (hu : u.Online)
    (h : Exchanges delay u taken texts v) : Flows u taken (texts.flatMap Serial.writeStr) v := by
  induction h with
  | nothing => exact Flows.refl u
  | read h hread ih =>
      have hstep := ih.trans (read_flows (ih.online hu) hread)
      rw [List.append_nil] at hstep
      exact hstep
  | @written taken texts v w rounds text trace h hwrite ih =>
      have hwritten := writeChars_flows (ih.online hu) hwrite
      rw [String.ofList_toList] at hwritten
      have hstep := ih.trans hwritten
      rw [List.append_nil] at hstep
      rw [List.flatMap_append, List.flatMap_singleton]
      exact hstep

theorem status_of_waiting (h : u.waiting ≠ []) : u.status &&& 0x01 ≠ 0 := by
  unfold status
  rw [if_neg h]
  split
  · decide
  · decide

theorem not_due_elapse (h : Not u.Due) : Not u.elapse.Due := by
  have hwaiting : u.waiting = [] := by
    by_contra hne
    exact h (Or.inl hne)
  have hcoming (values : List UInt8) (hmem : values ∈ u.coming) : values = [] := by
    by_contra hne
    exact h (Or.inr ⟨values, hmem, hne⟩)
  have hfirst : u.coming.headD [] = [] := by
    cases hqueue : u.coming with
    | nil => rfl
    | cons first rest => exact hcoming first (by rw [hqueue]; exact List.mem_cons_self)
  intro hdue
  rcases hdue with hnext | ⟨values, hmem, hne⟩
  · rw [elapse_waiting_eq (by rw [hwaiting]; exact Nat.zero_le depth), hwaiting, hfirst] at hnext
    split at hnext
    · exact hnext rfl
    · exact hnext rfl
  · rw [elapse_coming] at hmem
    exact hne (hcoming values (List.mem_of_mem_tail hmem))

theorem not_due_afterReads (delay : Nat) (h : Not u.Due) (count : Nat) :
    Not (Io.afterReads (device delay) (com1.address + 5) count u).Due := by
  induction count generalizing u with
  | zero => exact h
  | succ count ih => exact ih (not_due_elapse h)

theorem exists_waiting (delay : Nat) (hu : u.Online) (h : u.Due) : exists count,
    (Io.afterReads (device delay) (com1.address + 5) count u).elapse.waiting ≠ [] := by
  generalize hcoming : u.coming = coming
  induction coming generalizing u with
  | nil =>
      rcases h with hwaiting | ⟨values, hmem, _⟩
      · refine ⟨0, ?_⟩
        intro hempty
        exact hwaiting (List.prefix_nil.mp (hempty ▸ elapse_waiting u))
      · rw [hcoming] at hmem
        cases hmem
  | cons first rest ih =>
      by_cases hempty : u.elapse.waiting = []
      · have hwaiting : u.waiting = [] := List.prefix_nil.mp (hempty ▸ elapse_waiting u)
        have hnext := elapse_waiting_eq (u := u) (by rw [hwaiting]; exact Nat.zero_le depth)
        rw [if_neg hu.looped, hwaiting, hcoming, hempty, List.nil_append] at hnext
        have hfirst : first = [] := by
          cases first with
          | nil => rfl
          | cons value more => cases hnext
        have hlater : u.elapse.coming = rest := by
          rw [elapse_coming, hcoming]
          rfl
        have hdue : u.elapse.Due := by
          rcases h with hne | ⟨values, hmem, hne⟩
          · exact absurd hwaiting hne
          · rw [hcoming, hfirst] at hmem
            rcases List.mem_cons.mp hmem with hnil | hrest
            · exact absurd hnil hne
            · refine Or.inr ⟨values, ?_, hne⟩
              rw [hlater]
              exact hrest
        rcases ih ((elapse_flows u).online hu) hdue hlater with ⟨count, hcount⟩
        exact ⟨count + 1, hcount⟩
      · exact ⟨0, hempty⟩

theorem read_ends_iff (hu : u.Online) :
    (exists rounds byte v trace,
      Io.Ends (device delay) (com1.read rounds) u byte v trace) <-> u.Due := by
  constructor
  · intro h
    rcases h with ⟨rounds, byte, v, trace, hends⟩
    rcases Io.ends_bind_iff.mp hends with ⟨_, w, front, back, hpoll, _, _⟩
    rcases Io.polled_of_ends hpoll with ⟨_, count, hready, _⟩
    by_contra hnone
    have hlater := not_due_elapse (not_due_afterReads delay hnone count)
    have hwaiting := waiting_of_status hready
    exact hlater (Or.inl hwaiting)
  · intro h
    rcases exists_waiting delay hu h with ⟨count, hcount⟩
    have hready : ((device delay).inb (Io.afterReads (device delay) (com1.address + 5) count u)
        (com1.address + 5)).1 &&& 0x01 ≠ 0 := status_of_waiting hcount
    rcases Io.exists_ends_of_ready hready with ⟨w, front, hpoll⟩
    have hread : Io.Ends (device delay) (com1.inb 0) w _ _ _ := Io.ends_readPort _
    exact ⟨count + 1, _, _, _, Io.ends_bind hpoll hread⟩

end Calls

/-- Whatever calls the driver makes, and whenever bytes come in: the line gets all texts in order
and nothing else, and unless the queue overruns the bytes that were read and those still waiting
are the ones that came in.  A write ends in the end, and a read if a byte is due. -/
theorem duplex {delay : Nat} {u v : Uart} {taken : List UInt8} {texts : List String}
    (hu : u.Online) (h : Exchanges delay u taken texts v) :
    v.wire = u.wire ++ texts.flatMap Serial.writeStr ∧
    (exists news, v.arrived = u.arrived ++ news ∧
      (v.overrun = false -> u.waiting ++ news = taken ++ v.waiting)) ∧
    (forall text, exists rounds w trace,
      Io.Ends (device delay) (com1.writeStr rounds text) v () w trace) ∧
    ((exists rounds byte w trace,
      Io.Ends (device delay) (com1.read rounds) v byte w trace) <-> v.Due) := by
  have hflows := h.flows hu
  refine ⟨hflows.wire, ?_, ?_, read_ends_iff (hflows.online hu)⟩
  · rcases hflows.received with ⟨news, harrived, hkept⟩
    exact ⟨news, harrived, fun hoverrun => (hkept hoverrun).2⟩
  · intro text
    exact com1.exists_ends_writeChars (device_lively delay) text.toList v

def quiet : Uart where
  registers := ⟨0x03, 0x00, 0x01, 0xC7, 0x03, 0x0F⟩
  waiting := []
  countdown := 1
  wire := []
  coming := [[], [0x61], [], [0x62]]
  arrived := []
  overrun := false

theorem quiet_online : quiet.Online :=
  ⟨by decide, by decide⟩

def heard : Uart :=
  { quiet with countdown := 0, coming := [[0x62]], arrived := [0x61] }

def replied : Uart :=
  { quiet with
    waiting := [0x62]
    countdown := 2
    wire := [0x0D, 0x0A]
    coming := []
    arrived := [0x61, 0x62] }

theorem exchanges_quiet : Exchanges 2 quiet ([] ++ [0x61]) ([] ++ ["\n"]) replied := by
  have hread : Io.Ends (device 2) (com1.read 3) quiet 0x61 heard _ := rfl
  have hwrite : Io.Ends (device 2) (com1.writeStr 4 "\n") heard () replied _ := rfl
  exact (Exchanges.nothing.read hread).written hwrite

theorem quiet_duplex :
    replied.wire = quiet.wire ++ (["\n"] : List String).flatMap Serial.writeStr ∧
    (exists news, replied.arrived = quiet.arrived ++ news ∧
      (replied.overrun = false -> quiet.waiting ++ news = [0x61] ++ replied.waiting)) ∧
    (forall text, exists rounds w trace,
      Io.Ends (device 2) (com1.writeStr rounds text) replied () w trace) ∧
    ((exists rounds byte w trace,
      Io.Ends (device 2) (com1.read rounds) replied byte w trace) <-> replied.Due) :=
  duplex quiet_online exchanges_quiet

end Uart

end NeurOS
