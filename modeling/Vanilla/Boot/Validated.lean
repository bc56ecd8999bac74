import Mathlib.Data.List.Forall2
import Vanilla.Foundation.Run
import Vanilla.Boot.Receiver

namespace Vanilla.Boot

/-! Which frames the main loop acts on. A frame is read off the received
signals alone; the receiver's buffer is compared with it. -/

/-- A frame on the wire. A size of zero still carries one payload byte. -/
structure WireFrame where
  cmd : UInt8
  low : UInt8
  high : UInt8
  payload : List UInt8
  fcs : UInt8

namespace WireFrame

def size (frame : WireFrame) : Nat := frame.low.toNat + 2 ^ 8 * frame.high.toNat

def bytes (frame : WireFrame) : List UInt8 :=
  startByte :: frame.cmd :: frame.low :: frame.high :: (frame.payload ++ [frame.fcs, endByte])

structure Valid (frame : WireFrame) : Prop where
  length : frame.payload.length = max 1 frame.size
  check : crcCalculate (frame.cmd :: frame.low :: frame.high ::
    frame.payload.take frame.size) polynomial = frame.fcs

end WireFrame

/-- The signals up to `position` end in these bytes, with no timeout between. -/
def Ends (signals : List Signal) (bytes : List UInt8) (position : Nat) : Prop :=
  position ≤ signals.length ∧
    ∃ before, signals.take position = before ++ bytes.map Signal.byte

/-- A command acted on what the frame carries: its `cmd`, its `size` where it
used one, and payload bytes the frame's size covers. -/
structure Uses (execution : Execution) (frame : WireFrame) : Prop where
  command : execution.command = frame.cmd
  size : ∀ size, execution.size = some size → size = frame.size
  loaded : execution.loaded <+: frame.payload.take frame.size

theorem Ends.append {signals : List Signal} {bytes : List UInt8} {position : Nat}
    (ends : Ends signals bytes position) (signal : Signal) :
    Ends (signals ++ [signal]) bytes position := by
  rcases ends with ⟨bound, before, split⟩
  refine ⟨by rw [List.length_append]; omega, before, ?_⟩
  rw [List.take_append_of_le_length bound, split]

theorem Ends.of_suffix (before : List Signal) (bytes : List UInt8) :
    Ends (before ++ bytes.map Signal.byte) bytes
      (before ++ bytes.map Signal.byte).length :=
  ⟨Nat.le_refl _, before, List.take_length⟩

/-! ## Assembling a frame -/

/-- The first bytes of the payload buffer. -/
def Holds (frame : Frame) (body : List UInt8) : Prop :=
  frame.payload.toList.take body.length = body

/-- The buffer and the state agree with the bytes received since the start. -/
inductive Assembled (receiver : Receiver) : List UInt8 → Prop where
  | idle : receiver.busState = .idle → Assembled receiver []
  | cmd : receiver.busState = .cmd → Assembled receiver [startByte]
  | size : receiver.busState = .size → receiver.frameIndex = 0 → receiver.frame.size = 0 →
      Assembled receiver [startByte, receiver.frame.cmd]
  | low (low : UInt8) : receiver.busState = .size → receiver.frameIndex = 1 →
      receiver.frame.size = low.toNat →
      Assembled receiver [startByte, receiver.frame.cmd, low]
  | payload (low high : UInt8) (body : List UInt8) : receiver.busState = .payload →
      receiver.frame.size = low.toNat + 2 ^ 8 * high.toNat →
      receiver.frameIndex = body.length → body.length < max 1 receiver.frame.size →
      Holds receiver.frame body →
      Assembled receiver (startByte :: receiver.frame.cmd :: low :: high :: body)
  | fcs (low high : UInt8) (body : List UInt8) : receiver.busState = .fcs →
      receiver.frame.size = low.toNat + 2 ^ 8 * high.toNat →
      body.length = max 1 receiver.frame.size → Holds receiver.frame body →
      Assembled receiver (startByte :: receiver.frame.cmd :: low :: high :: body)
  | ending (low high : UInt8) (body : List UInt8) : receiver.busState = .ending →
      receiver.frame.size = low.toNat + 2 ^ 8 * high.toNat →
      body.length = max 1 receiver.frame.size → Holds receiver.frame body →
      Assembled receiver
        (startByte :: receiver.frame.cmd :: low :: high :: (body ++ [receiver.frame.fcs]))

theorem take_set_succ {Value : Type} (value : Value) :
    ∀ (list : List Value) (index : Nat), index < list.length →
      (list.set index value).take (index + 1) = list.take index ++ [value]
  | [], _, bound => absurd bound (Nat.not_lt_zero _)
  | _ :: _, 0, _ => rfl
  | head :: tail, index + 1, bound => by
      have rest := take_set_succ value tail index (Nat.lt_of_succ_lt_succ bound)
      simpa using rest

theorem Holds.set {frame : Frame} {body : List UInt8} (holds : Holds frame body)
    (bound : body.length < 512) (data : UInt8) :
    Holds { frame with payload := frame.payload.set body.length data bound } (body ++ [data]) := by
  rw [Holds, List.length_append, List.length_singleton]
  simp only [Vector.toList_set]
  rw [take_set_succ _ _ _ (by simpa using bound), holds]

theorem size_bytes (low high : UInt8) :
    low.toNat ||| high.toNat <<< 8 = low.toNat + 2 ^ 8 * high.toNat := by
  rw [or_shiftLeft_eq high.toNat low.toNat_lt]
  omega

/-- A received byte continues the frame or leaves the receiver idle. -/
theorem Assembled.byte {receiver next : Receiver} {bytes : List UInt8} {data : UInt8}
    (assembled : Assembled receiver bytes) (step : receiver.usart0Handler data = some next) :
    Assembled next (bytes ++ [data]) ∨ Assembled next [] := by
  cases assembled with
  | idle state =>
      simp only [Receiver.usart0Handler, state, Option.some.injEq] at step
      subst next
      by_cases start : data = startByte
      · subst data
        exact .inl (.cmd (by simp [Receiver.onIdle]))
      · exact .inr (.idle (by simp [Receiver.onIdle, start]))
  | cmd state =>
      simp only [Receiver.usart0Handler, state, Option.some.injEq] at step
      subst next
      exact .inl (.size rfl rfl rfl)
  | size state index empty =>
      simp only [Receiver.usart0Handler, state, Option.some.injEq] at step
      subst next
      simp only [Receiver.onSize, Receiver.received, index, empty]
      exact .inl (.low data state rfl (by simp))
  | low low state index size =>
      simp only [Receiver.usart0Handler, state, Option.some.injEq] at step
      subst next
      simp only [Receiver.onSize, Receiver.received, index, size]
      refine .inl (.payload low data [] rfl (size_bytes low data) rfl ?_ rfl)
      exact Nat.lt_of_lt_of_le Nat.zero_lt_one (Nat.le_max_left ..)
  | payload low high body state size index room holds =>
      simp only [Receiver.usart0Handler, state, Receiver.onPayload] at step
      by_cases bound : receiver.frameIndex < 512
      · rw [dif_pos bound, Option.some.injEq] at step
        subst next
        have bodyBound : body.length < 512 := index ▸ bound
        have extended := holds.set bodyBound data
        simp only [index] at bound ⊢
        have length : (body ++ [data]).length = body.length + 1 := by simp
        by_cases full : receiver.frame.size ≤ body.length + 1
        · have last : (body ++ [data]).length = max 1 receiver.frame.size := by omega
          rw [if_pos full]
          exact .inl (.fcs low high (body ++ [data]) rfl size last extended)
        · have more : (body ++ [data]).length < max 1 receiver.frame.size := by omega
          rw [if_neg full]
          exact .inl (.payload low high (body ++ [data]) rfl size length.symm more extended)
      · rw [dif_neg bound] at step
        cases step
  | fcs low high body state size length holds =>
      simp only [Receiver.usart0Handler, state, Option.some.injEq] at step
      subst next
      exact .inl (.ending low high body rfl size length holds)
  | ending low high body state size length holds =>
      simp only [Receiver.usart0Handler, state, Option.some.injEq] at step
      subst next
      exact .inr (.idle rfl)

/-! ## A validated frame in the buffer -/

/-- The buffer holds the wire frame. -/
structure Matches (buffer : Frame) (frame : WireFrame) : Prop where
  cmd : buffer.cmd = frame.cmd
  size : buffer.size = frame.size
  payload : buffer.payload.toList.take frame.size = frame.payload.take frame.size

theorem Frame.covered_eq {buffer : Frame} {frame : WireFrame}
    (fits : Matches buffer frame) : buffer.covered =
      frame.cmd :: frame.low :: frame.high :: frame.payload.take frame.size := by
  have low : UInt8.ofNat frame.size = frame.low := by
    apply UInt8.toNat_inj.mp
    have bound := frame.low.toNat_lt
    rw [UInt8.toNat_ofNat', WireFrame.size]
    omega
  have high : UInt8.ofNat (frame.size / 2 ^ 8) = frame.high := by
    apply UInt8.toNat_inj.mp
    have lowBound := frame.low.toNat_lt
    have bound := frame.high.toNat_lt
    rw [UInt8.toNat_ofNat', WireFrame.size]
    omega
  rw [Frame.covered, fits.cmd, fits.size, low, high, fits.payload]

/-- When the last byte sets `frame_received`, the bytes since the start are a
validated frame and the buffer holds it. -/
theorem Assembled.accepted {receiver next : Receiver} {bytes : List UInt8} {data : UInt8}
    (assembled : Assembled receiver bytes) (ending : receiver.busState = .ending)
    (step : receiver.usart0Handler data = some next) (flag : next.frameReceived = true) :
    ∃ frame : WireFrame, frame.Valid ∧ frame.bytes = bytes ++ [data] ∧
      Matches next.frame frame := by
  cases assembled with
  | idle state | cmd state | size state | low _ state | payload _ _ _ state | fcs _ _ _ state =>
      rw [state] at ending
      cases ending
  | ending low high body state size length holds =>
      simp only [Receiver.usart0Handler, state, Option.some.injEq] at step
      subst next
      simp only [Receiver.onEnd, decide_eq_true_eq] at flag
      let frame : WireFrame :=
        { cmd := receiver.frame.cmd, low := low, high := high, payload := body,
          fcs := receiver.frame.fcs }
      have sizeEq : receiver.frame.size = frame.size := size
      have covers : frame.size ≤ body.length := by
        rw [length, sizeEq]
        exact Nat.le_max_right ..
      have fits : Matches receiver.frame frame := by
        refine ⟨rfl, sizeEq, ?_⟩
        have prefix_ := congrArg (List.take frame.size) (show _ = body from holds)
        rw [List.take_take, Nat.min_eq_left covers] at prefix_
        exact prefix_
      have check := flag.2
      rw [Frame.covered_eq fits] at check
      refine ⟨frame, ⟨sizeEq ▸ length, check⟩, ?_, fits⟩
      simp [WireFrame.bytes, frame, flag.1]

/-- Outside `STATE_END` no byte sets `frame_received`. -/
theorem flag_of_byte {receiver next : Receiver} {data : UInt8}
    (step : receiver.usart0Handler data = some next) (early : receiver.busState ≠ .ending)
    (flag : next.frameReceived = true) : receiver.frameReceived = true := by
  cases state : receiver.busState with
  | idle =>
      simp only [Receiver.usart0Handler, state, Option.some.injEq] at step
      subst next
      simp only [Receiver.onIdle] at flag
      by_cases zero : data = 0
      · simp [zero] at flag
      · simpa [zero] using flag
  | cmd | fcs =>
      simp only [Receiver.usart0Handler, state, Option.some.injEq] at step
      subst next
      exact flag
  | size =>
      simp only [Receiver.usart0Handler, state, Option.some.injEq, Receiver.onSize] at step
      subst next
      split at flag <;> exact flag
  | payload =>
      simp only [Receiver.usart0Handler, state, Receiver.onPayload] at step
      split at step
      · rw [Option.some.injEq] at step
        subst next
        split at flag <;> exact flag
      · cases step
  | ending => exact absurd state early

/-- An idle receiver leaves the frame in the buffer alone. -/
theorem frame_of_idle {receiver next : Receiver} {data : UInt8}
    (idle : receiver.busState = .idle) (step : receiver.usart0Handler data = some next) :
    next.frame = receiver.frame := by
  simp only [Receiver.usart0Handler, idle, Option.some.injEq] at step
  subst next
  rfl

/-! ## The invariant -/

/-- A validated frame that ends after every frame acted on so far. -/
def Fresh (signals : List Signal) (ends : List Nat) (frame : WireFrame) : Prop :=
  frame.Valid ∧ ∃ position, Ends signals frame.bytes position ∧ ∀ used ∈ ends, used < position

/-- The bytes an action reads of the payload. -/
def required (command : UInt8) : Nat :=
  if writesPage command then 0 else if command = 0x07 then 1 else 4

/-- What the main loop has read so far is of a fresh frame, which stays in the
buffer until everything is read. -/
def Current (machine : Machine) (ends : List Nat) : MainState → Prop
  | .poll => machine.receiver.frameReceived = true →
      ∃ frame, Fresh machine.signals ends frame ∧ Matches machine.receiver.frame frame
  | .test _ => ∃ frame, Fresh machine.signals ends frame ∧
      Matches machine.receiver.frame frame
  | .readSize command => writesPage command = true ∧
      ∃ frame, Fresh machine.signals ends frame ∧
        Matches machine.receiver.frame frame ∧ frame.cmd = command
  | .load command size count loaded => ∃ frame, Fresh machine.signals ends frame ∧
      Matches machine.receiver.frame frame ∧ frame.cmd = command ∧
      (writesPage command = true → size = frame.size) ∧
      count ≤ frame.size ∧ count ≤ 512 ∧ loaded.length ≤ count ∧
      loaded = (frame.payload.take frame.size).take loaded.length
  | .perform command size loaded => ∃ frame, Fresh machine.signals ends frame ∧
      frame.cmd = command ∧ (writesPage command = true → size = frame.size) ∧
      loaded <+: frame.payload.take frame.size
  | .respond => True
  | .halted => True

structure Sound (machine : Machine) (ends : List Nat) : Prop where
  assembled : ∃ bytes before, Assembled machine.receiver bytes ∧
    machine.signals = before ++ bytes.map Signal.byte
  increasing : ends.Pairwise (· < ·)
  past : ∀ position ∈ ends, position ≤ machine.signals.length
  performed : List.Forall₂ (fun position execution => ∃ frame : WireFrame,
    frame.Valid ∧ Ends machine.signals frame.bytes position ∧ Uses execution frame)
    ends machine.performed
  current : Current machine ends machine.main

/-- Between `check_new_frame` and the last read of the frame. -/
def MainState.reads : MainState → Bool
  | .test _ | .readSize _ | .load .. => true
  | .poll | .perform .. | .respond | .halted => false

/-- Outside `STATE_IDLE` no byte arrives while a received frame waits or is
read, and a frame carries the payload its command reads. -/
def Guarded (machine : Machine) : MachineEvent → Prop
  | .byte _ => machine.receiver.busState = .idle ∨
      (machine.main.reads = false ∧
        (machine.main = .poll → machine.receiver.frameReceived = false))
  | .timeout => True
  | .main => ∀ command, machine.main = .test command →
      machine.receiver.frame.cmd = command → required command ≤ machine.receiver.frame.size

def MachineStep (before : Machine) (event : MachineEvent) (after : Machine) : Prop :=
  before.step event = some after

def GuardedMachineStep (before : Machine) (event : MachineEvent) (after : Machine) : Prop :=
  Guarded before event ∧ MachineStep before event after

section Preservation

variable {machine : Machine} {ends : List Nat}

theorem Fresh.append {signals : List Signal} {frame : WireFrame}
    (fresh : Fresh signals ends frame) (signal : Signal) :
    Fresh (signals ++ [signal]) ends frame := by
  rcases fresh with ⟨valid, position, at_, late⟩
  exact ⟨valid, position, at_.append signal, late⟩

/-- A signal that keeps the buffer, or comes when nothing of it is wanted. -/
theorem Current.signal {main : MainState} {receiver : Receiver} {signal : Signal}
    (current : Current machine ends main)
    (frame : receiver.frame = machine.receiver.frame)
    (flag : receiver.frameReceived = true → machine.receiver.frameReceived = true) :
    Current { machine with receiver := receiver, signals := machine.signals ++ [signal] }
      ends main := by
  cases main with
  | poll =>
      intro set
      rcases current (flag set) with ⟨wire, fresh, fits⟩
      exact ⟨wire, fresh.append signal, frame ▸ fits⟩
  | test command =>
      rcases current with ⟨wire, fresh, fits⟩
      exact ⟨wire, fresh.append signal, frame ▸ fits⟩
  | readSize command =>
      rcases current with ⟨writes, wire, fresh, fits, rest⟩
      exact ⟨writes, wire, fresh.append signal, frame ▸ fits, rest⟩
  | load command size count loaded =>
      rcases current with ⟨wire, fresh, fits, rest⟩
      exact ⟨wire, fresh.append signal, frame ▸ fits, rest⟩
  | perform command size loaded =>
      rcases current with ⟨wire, fresh, rest⟩
      exact ⟨wire, fresh.append signal, rest⟩
  | respond => trivial
  | halted => trivial

theorem Current.free {main : MainState} {receiver : Receiver} {signal : Signal}
    (current : Current machine ends main) (reads : main.reads = false)
    (accepted : main = .poll → receiver.frameReceived = true →
      ∃ frame, Fresh (machine.signals ++ [signal]) ends frame ∧ Matches receiver.frame frame) :
    Current { machine with receiver := receiver, signals := machine.signals ++ [signal] }
      ends main := by
  cases main with
  | poll => exact accepted rfl
  | test command | readSize command | load command size count loaded => cases reads
  | perform command size loaded =>
      rcases current with ⟨wire, fresh, rest⟩
      exact ⟨wire, fresh.append signal, rest⟩
  | respond => trivial
  | halted => trivial

/-- What a signal leaves as it was. -/
theorem Sound.signal (sound : Sound machine ends) {receiver : Receiver} {signal : Signal}
    (assembled : ∃ bytes before, Assembled receiver bytes ∧
      machine.signals ++ [signal] = before ++ bytes.map Signal.byte)
    (current : Current { machine with
      receiver := receiver, signals := machine.signals ++ [signal] } ends machine.main) :
    Sound { machine with receiver := receiver, signals := machine.signals ++ [signal] } ends where
  assembled := assembled
  increasing := sound.increasing
  past := by
    intro position member
    have bound := sound.past position member
    simp only [List.length_append]
    omega
  performed := by
    apply sound.performed.imp
    intro position execution used
    rcases used with ⟨frame, valid, at_, uses⟩
    exact ⟨frame, valid, at_.append signal, uses⟩
  current := current

theorem Sound.timeout (sound : Sound machine ends) :
    Sound { machine with
      receiver := machine.receiver.timer0Handler, signals := machine.signals ++ [.timeout] }
      ends :=
  sound.signal ⟨[], machine.signals ++ [.timeout], .idle rfl, (List.append_nil _).symm⟩
    (sound.current.signal rfl id)

/-- The received bytes with one more. -/
theorem Assembled.extend {receiver next : Receiver} {bytes : List UInt8} {data : UInt8}
    {signals before : List Signal} (assembled : Assembled receiver bytes)
    (split : signals = before ++ bytes.map Signal.byte)
    (step : receiver.usart0Handler data = some next) :
    ∃ bytes before, Assembled next bytes ∧
      signals ++ [.byte data] = before ++ bytes.map Signal.byte := by
  cases assembled.byte step with
  | inl longer =>
      refine ⟨bytes ++ [data], before, longer, ?_⟩
      rw [split, List.map_append, List.append_assoc]
      rfl
  | inr idle => exact ⟨[], signals ++ [.byte data], idle, (List.append_nil _).symm⟩

theorem Sound.byte (sound : Sound machine ends) {data : UInt8} {receiver : Receiver}
    (guarded : Guarded machine (.byte data))
    (step : machine.receiver.usart0Handler data = some receiver) :
    Sound { machine with receiver := receiver, signals := machine.signals ++ [.byte data] }
      ends := by
  rcases sound.assembled with ⟨bytes, before, assembled, split⟩
  apply sound.signal (assembled.extend split step)
  rcases guarded with idle | ⟨reads, waiting⟩
  · apply sound.current.signal (frame_of_idle idle step)
    apply flag_of_byte step
    rw [idle]
    simp
  · apply sound.current.free reads
    intro poll flag
    by_cases ending : machine.receiver.busState = .ending
    · rcases assembled.accepted ending step flag with ⟨frame, valid, bytesEq, fits⟩
      refine ⟨frame, ⟨valid, machine.signals.length + 1, ?_, ?_⟩, fits⟩
      · have whole : machine.signals ++ [.byte data] =
            before ++ frame.bytes.map Signal.byte := by
          rw [bytesEq, List.map_append, ← List.append_assoc, ← split]
          rfl
        have at_ := Ends.of_suffix before frame.bytes
        rw [← whole, List.length_append] at at_
        exact at_
      · intro used member
        exact Nat.lt_succ_of_le (sound.past used member)
    · have before := flag_of_byte step ending flag
      rw [waiting poll] at before
      cases before

/-! ## Steps of the main loop -/

/-- A main step that only moves the main loop. -/
theorem Sound.move (sound : Sound machine ends) {main : MainState}
    (current : Current machine ends main) : Sound { machine with main := main } ends where
  assembled := sound.assembled
  increasing := sound.increasing
  past := sound.past
  performed := sound.performed
  current := by
    cases main <;> exact current

/-- The next byte the loop loads is the next byte of the frame. -/
theorem Matches.next {buffer : Frame} {frame : WireFrame} (fits : Matches buffer frame)
    {loaded : List UInt8} (valid : frame.Valid)
    (inside : loaded.length < frame.size) (room : loaded.length < 512)
    (prefix_ : loaded = (frame.payload.take frame.size).take loaded.length) :
    loaded ++ [buffer.payload[loaded.length]?.getD 0] =
      (frame.payload.take frame.size).take (loaded.length + 1) := by
  have length : (frame.payload.take frame.size).length = frame.size := by
    have payload := valid.length
    rw [List.length_take]
    omega
  have byte : (frame.payload.take frame.size)[loaded.length]? =
      some (buffer.payload[loaded.length]?.getD 0) := by
    rw [← fits.payload, List.getElem?_take_of_lt inside]
    simp [room]
  rw [List.take_add_one, byte, ← prefix_]
  rfl

theorem Sound.load (sound : Sound machine ends) {command : UInt8} {size count : Nat}
    {loaded : List UInt8} (main : machine.main = .load command size count loaded) :
    Sound (mainStep machine) ends := by
  have current := sound.current
  rw [main] at current
  rcases current with ⟨frame, fresh, fits, cmd, sizeEq, inside, room, bound, prefix_⟩
  simp only [mainStep, main]
  by_cases more : loaded.length < count
  · rw [if_pos more]
    apply sound.move
    refine ⟨frame, fresh, fits, cmd, sizeEq, inside, room, ?_, ?_⟩
    · rw [List.length_append]
      exact more
    · rw [List.length_append]
      exact fits.next fresh.1 (by omega) (by omega) prefix_
  · rw [if_neg more]
    apply sound.move
    refine ⟨frame, fresh, cmd, sizeEq, ?_⟩
    rw [prefix_]
    exact List.take_prefix ..

theorem Sound.test (sound : Sound machine ends) {command : UInt8}
    (guarded : Guarded machine .main) (main : machine.main = .test command) :
    Sound (mainStep machine) ends := by
  have current := sound.current
  rw [main] at current
  rcases current with ⟨frame, fresh, fits⟩
  simp only [mainStep, main]
  by_cases same : machine.receiver.frame.cmd = command
  · rw [if_pos same]
    have carried := guarded command main same
    have cmd : frame.cmd = command := fits.cmd.symm.trans same
    rw [fits.size] at carried
    apply sound.move
    simp only [dispatch]
    by_cases writes : writesPage command = true
    · rw [if_pos writes]
      exact ⟨writes, frame, fresh, fits, cmd⟩
    · rw [if_neg writes]
      by_cases led : command = 0x07
      · rw [if_pos led]
        simp only [required, if_neg writes, if_pos led] at carried
        exact ⟨frame, fresh, fits, cmd, fun page => absurd page writes, carried, by decide,
          Nat.zero_le _, rfl⟩
      · rw [if_neg led]
        simp only [required, if_neg writes, if_neg led] at carried
        exact ⟨frame, fresh, fits, cmd, fun page => absurd page writes, carried, by decide,
          Nat.zero_le _, rfl⟩
  · rw [if_neg same]
    apply sound.move
    simp only [nextTest]
    by_cases last : command = 0x07
    · rw [if_pos last]
      exact fun _ => ⟨frame, fresh, fits⟩
    · rw [if_neg last]
      exact ⟨frame, fresh, fits⟩

/-- Acting on a fresh frame uses it up. -/
theorem Sound.perform (sound : Sound machine ends) {command : UInt8} {size : Nat}
    {loaded : List UInt8} (main : machine.main = .perform command size loaded) :
    ∃ position, Sound (mainStep machine) (ends ++ [position]) := by
  have current := sound.current
  rw [main] at current
  rcases current with ⟨frame, ⟨valid, position, at_, late⟩, cmd, sizeEq, prefix_⟩
  refine ⟨position, ?_⟩
  have increasing : (ends ++ [position]).Pairwise (· < ·) := by
    rw [List.pairwise_append]
    exact ⟨sound.increasing, List.pairwise_singleton .., by simpa using late⟩
  have past : ∀ used ∈ ends ++ [position], used ≤ machine.signals.length := by
    intro used member
    rcases List.mem_append.mp member with early | last
    · exact sound.past used early
    · rw [List.mem_singleton.mp last]
      exact at_.1
  let execution : Execution :=
    { command := command, size := if writesPage command then some size else none,
      loaded := loaded }
  have uses : Uses execution frame := by
    refine ⟨cmd.symm, ?_, prefix_⟩
    intro used found
    by_cases writes : writesPage command = true
    · simp only [execution, if_pos writes, Option.some.injEq] at found
      rw [← found]
      exact sizeEq writes
    · simp [execution, writes] at found
  have log : List.Forall₂ (fun position execution => ∃ frame : WireFrame,
      frame.Valid ∧ Ends machine.signals frame.bytes position ∧ Uses execution frame)
      (ends ++ [position]) (machine.performed ++ [execution]) :=
    List.rel_append sound.performed (.cons ⟨frame, valid, at_, uses⟩ .nil)
  simp only [mainStep, main, Boot.performed]
  cases (execute (gathered command size loaded)).run machine.boot with
  | error reason boot => exact ⟨sound.assembled, increasing, past, log, trivial⟩
  | ok result boot =>
      by_cases last : command = 0x05
      · simp only [if_pos last]
        exact ⟨⟨[], machine.signals, .idle rfl, (List.append_nil _).symm⟩, increasing, past, log,
          fun flag => nomatch flag⟩
      · simp only [if_neg last]
        exact ⟨sound.assembled, increasing, past, log, trivial⟩

/-- Clearing the flag changes nothing about the frame being assembled. -/
theorem Assembled.clear {receiver : Receiver} {bytes : List UInt8}
    (assembled : Assembled receiver bytes) :
    Assembled { receiver with frameReceived := false } bytes := by
  cases assembled with
  | idle state => exact .idle state
  | cmd state => exact .cmd state
  | size state index empty => exact .size state index empty
  | low low state index size => exact .low low state index size
  | payload low high body state size index room holds =>
      exact .payload low high body state size index room holds
  | fcs low high body state size length holds => exact .fcs low high body state size length holds
  | ending low high body state size length holds =>
      exact .ending low high body state size length holds

theorem Sound.main (sound : Sound machine ends) (guarded : Guarded machine .main) :
    ∃ later, Sound (mainStep machine) (ends ++ later) := by
  have current := sound.current
  cases main : machine.main with
  | poll =>
      refine ⟨[], ?_⟩
      rw [List.append_nil]
      rw [main] at current
      simp only [mainStep, main]
      by_cases flag : machine.receiver.frameReceived = true
      · rw [if_pos flag]
        exact sound.move (current flag)
      · rw [if_neg flag]
        exact sound
  | test command =>
      refine ⟨[], ?_⟩
      rw [List.append_nil]
      exact sound.test guarded main
  | readSize command =>
      refine ⟨[], ?_⟩
      rw [main] at current
      rcases current with ⟨writes, frame, fresh, fits, cmd⟩
      rw [List.append_nil]
      simp only [mainStep, main]
      apply sound.move
      exact ⟨frame, fresh, fits, cmd, fun _ => fits.size, fits.size ▸ Nat.min_le_left ..,
        Nat.min_le_right .., Nat.zero_le _, rfl⟩
  | load command size count loaded =>
      refine ⟨[], ?_⟩
      rw [List.append_nil]
      exact sound.load main
  | perform command size loaded =>
      rcases sound.perform main with ⟨position, performed⟩
      exact ⟨[position], performed⟩
  | respond =>
      refine ⟨[], ?_⟩
      rw [List.append_nil]
      rcases sound.assembled with ⟨bytes, before, assembled, split⟩
      simp only [mainStep, main]
      exact ⟨⟨bytes, before, assembled.clear, split⟩, sound.increasing, sound.past,
        sound.performed, fun flag => nomatch flag⟩
  | halted =>
      refine ⟨[], ?_⟩
      rw [List.append_nil]
      simp only [mainStep, main]
      exact sound

end Preservation

theorem Sound.step {before after : Machine} {event : MachineEvent} {ends : List Nat}
    (sound : Sound before ends) (step : GuardedMachineStep before event after) :
    ∃ later, Sound after (ends ++ later) := by
  rcases step with ⟨guarded, moved⟩
  cases event with
  | byte data =>
      rcases Option.map_eq_some_iff.mp moved with ⟨receiver, handled, same⟩
      subst after
      refine ⟨[], ?_⟩
      rw [List.append_nil]
      exact sound.byte guarded handled
  | timeout =>
      cases moved
      refine ⟨[], ?_⟩
      rw [List.append_nil]
      exact sound.timeout
  | main =>
      cases moved
      exact sound.main guarded

/-- The main loop is entered with the receiver idle. -/
structure Entered (machine : Machine) : Prop where
  receiver : machine.receiver = .initial
  main : machine.main = .poll
  signals : machine.signals = []
  performed : machine.performed = []

theorem Entered.sound {machine : Machine} (entered : Entered machine) : Sound machine [] where
  assembled := ⟨[], [], .idle (by rw [entered.receiver]; rfl), entered.signals⟩
  increasing := .nil
  past := by simp
  performed := by
    rw [entered.performed]
    exact .nil
  current := by
    rw [entered.main]
    intro flag
    rw [entered.receiver] at flag
    cases flag

/-- The byte after a frame's start is not the last signal. -/
theorem Ends.cmd {signals : List Signal} {frame : WireFrame} {position : Nat}
    (ends : Ends signals frame.bytes position) :
    ∃ index, index + 2 < signals.length ∧ signals[index + 1]? = some (.byte frame.cmd) := by
  rcases ends with ⟨bound, before, split⟩
  have length := congrArg List.length split
  have byte := congrArg (fun list => list[before.length + 1]?) split
  simp only [List.length_take, List.length_append, List.length_map, WireFrame.bytes,
    List.length_cons] at length
  have inside : before.length + 1 < position := by omega
  refine ⟨before.length, by omega, ?_⟩
  rw [List.getElem?_take_of_lt inside] at byte
  rw [byte]
  simp [WireFrame.bytes]

end Vanilla.Boot
