import Vanilla.Boot.Flash

namespace Vanilla.Boot

/-! The frame receiver of the bootloader and the main loop that executes what it
receives. The receive interrupt and the timeout come between any two reads the
main loop makes. -/

/-! ## crc.c -/

def crcBit (polynomial crc : UInt8) : UInt8 :=
  (if crc &&& 0x01 ≠ 0 then crc ^^^ polynomial else crc) >>> 1

def crcByte (polynomial crc data : UInt8) : UInt8 :=
  (List.range 8).foldl (fun crc _ => crcBit polynomial crc) (crc ^^^ data)

def crcCalculate (src : List UInt8) (polynomial : UInt8) : UInt8 :=
  src.foldl (crcByte polynomial) 0

/-! ## frame.c -/

inductive BusState where
  | idle
  | cmd
  | size
  | payload
  | fcs
  | ending
deriving DecidableEq

structure Receiver where
  busState : BusState
  frame : Frame
  frameIndex : Nat
  frameReceived : Bool

def startByte : UInt8 := 0xAA
def endByte : UInt8 := 0x55
def polynomial : UInt8 := 0xB2

def emptyFrame : Frame where
  cmd := 0
  size := 0
  payload := .replicate 512 0
  fcs := 0

/-- The variables of frame.c after a reset. -/
def Receiver.initial : Receiver where
  busState := .idle
  frame := emptyFrame
  frameIndex := 0
  frameReceived := false

/-- The packed bytes the check sequence covers: `cmd`, `size` and the payload. -/
def Frame.covered (frame : Frame) : List UInt8 :=
  frame.cmd :: UInt8.ofNat frame.size :: UInt8.ofNat (frame.size / 2 ^ 8) ::
    frame.payload.toList.take frame.size

namespace Receiver

def received (receiver : Receiver) (data : UInt8) : Receiver :=
  { receiver with frame.size := receiver.frame.size ||| data.toNat <<< (8 * receiver.frameIndex)
                  frameIndex := receiver.frameIndex + 1 }

/-- `STATE_SIZE`: two bytes, the low one first. -/
def onSize (receiver : Receiver) (data : UInt8) : Receiver :=
  let next := receiver.received data
  if 2 ≤ next.frameIndex then { next with busState := .payload, frameIndex := 0 }
  else next

/-- `STATE_PAYLOAD`. The source does not compare the index with the buffer. -/
def onPayload (receiver : Receiver) (data : UInt8) : Option Receiver :=
  if bound : receiver.frameIndex < 512 then
    let next := { receiver with
      frame.payload := receiver.frame.payload.set receiver.frameIndex data bound
      frameIndex := receiver.frameIndex + 1 }
    some (if next.frame.size ≤ next.frameIndex then { next with busState := .fcs } else next)
  else none

/-- `STATE_END`. Every error response clears `frame_received`. -/
def onEnd (receiver : Receiver) (data : UInt8) : Receiver :=
  { receiver with
    busState := .idle
    frameReceived := decide (data = endByte ∧
      crcCalculate receiver.frame.covered polynomial = receiver.frame.fcs) }

/-- `STATE_IDLE`: a zero byte is answered, which clears `frame_received`. -/
def onIdle (receiver : Receiver) (data : UInt8) : Receiver :=
  { receiver with
    busState := if data = startByte then .cmd else .idle
    frameReceived := if data = 0 then false else receiver.frameReceived }

/-- `usart0_handler`; `none` when it stores past the payload. -/
def usart0Handler (receiver : Receiver) (data : UInt8) : Option Receiver :=
  match receiver.busState with
  | .idle => some (receiver.onIdle data)
  | .cmd => some { receiver with
      frame.cmd := data, frame.size := 0, frameIndex := 0, busState := .size }
  | .size => some (receiver.onSize data)
  | .payload => receiver.onPayload data
  | .fcs => some { receiver with frame.fcs := data, busState := .ending }
  | .ending => some (receiver.onEnd data)

/-- `timer0_ch0_handler`. -/
def timer0Handler (receiver : Receiver) : Receiver := { receiver with busState := .idle }

end Receiver

/-! ## The main loop, read by read -/

inductive MainState where
  /-- About to call `check_new_frame`. -/
  | poll
  /-- About to compare `frame.cmd` with a command. -/
  | test (command : UInt8)
  /-- About to read `frame.size` for the call of `write_kernel_page`. -/
  | readSize (command : UInt8)
  /-- Reading payload bytes, `count` in all. -/
  | load (command : UInt8) (size count : Nat) (loaded : List UInt8)
  /-- Everything is read. -/
  | perform (command : UInt8) (size : Nat) (loaded : List UInt8)
  /-- About to clear `frame_received`. -/
  | respond
  | halted
deriving DecidableEq

/-- What a command used of the frame it acts on. -/
structure Execution where
  command : UInt8
  /-- The `size` it used, if it used one. -/
  size : Option Nat
  loaded : List UInt8

/-- Received bytes and timeouts, in order. -/
inductive Signal where
  | byte (data : UInt8)
  | timeout
deriving DecidableEq

structure Machine where
  receiver : Receiver
  main : MainState
  boot : BootState
  signals : List Signal
  performed : List Execution

def writesPage (command : UInt8) : Bool := command = 0x04 || command = 0x05

/-- Where the main loop goes when `frame.cmd` is `command`. -/
def dispatch (command : UInt8) : MainState :=
  if writesPage command then .readSize command
  else if command = 0x07 then .load command 0 1 []
  else .load command 0 4 []

/-- The next comparison of the `else if` chain. -/
def nextTest (command : UInt8) : MainState :=
  if command = 0x07 then .poll else .test (command + 1)

/-- The frame as the action sees it: what was read, and nothing else of it. -/
def gathered (command : UInt8) (size : Nat) (loaded : List UInt8) : Frame where
  cmd := command
  size := size
  payload := paddedPage loaded.length fun index => loaded[index]?.getD 0
  fcs := 0

/-- After the last page the chip resets, the receiver with it. -/
def performed (machine : Machine) (command : UInt8) (size : Nat) (loaded : List UInt8) :
    Machine :=
  let execution : Execution :=
    { command := command, size := if writesPage command then some size else none,
      loaded := loaded }
  let log := machine.performed ++ [execution]
  match (execute (gathered command size loaded)).run machine.boot with
  | .ok _ boot =>
      if command = 0x05 then
        { machine with receiver := .initial, main := .poll, boot := boot, performed := log }
      else { machine with main := .respond, boot := boot, performed := log }
  | .error _ boot => { machine with main := .halted, boot := boot, performed := log }

def mainStep (machine : Machine) : Machine :=
  match machine.main with
  | .poll =>
      if machine.receiver.frameReceived then { machine with main := .test 0x03 } else machine
  | .test command =>
      if machine.receiver.frame.cmd = command then { machine with main := dispatch command }
      else { machine with main := nextTest command }
  | .readSize command =>
      let size := machine.receiver.frame.size
      { machine with main := .load command size (min size 512) [] }
  | .load command size count loaded =>
      if loaded.length < count then
        let byte := machine.receiver.frame.payload[loaded.length]?.getD 0
        { machine with main := .load command size count (loaded ++ [byte]) }
      else { machine with main := .perform command size loaded }
  | .perform command size loaded => performed machine command size loaded
  | .respond =>
      { machine with receiver.frameReceived := false, main := .poll }
  | .halted => machine

inductive MachineEvent where
  | byte (data : UInt8)
  | timeout
  | main
deriving DecidableEq

/-- `none` when the receive interrupt stores past the payload. -/
def Machine.step (machine : Machine) : MachineEvent → Option Machine
  | .byte data => (machine.receiver.usart0Handler data).map fun receiver =>
      { machine with receiver := receiver, signals := machine.signals ++ [.byte data] }
  | .timeout => some { machine with
      receiver := machine.receiver.timer0Handler, signals := machine.signals ++ [.timeout] }
  | .main => some (mainStep machine)

end Vanilla.Boot
