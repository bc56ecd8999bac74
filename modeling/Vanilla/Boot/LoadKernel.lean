import Vanilla.Boot.Framing
import Vanilla.Boot.Completion

namespace Vanilla.Boot

/-! The host program `load_kernel` against the bootloader. -/

/-! ## kernel_prog.py -/

/-- `math.ceil(length / 512)`. -/
def numberOfBlock (length : Nat) : Nat := (length + 511) / 512

/-- `kernel_binary[i*512:(i+1)*512]`. -/
def binaryFragment (image : List UInt8) (index : Nat) : List UInt8 :=
  (image.drop (index * 512)).take 512

def erasePayload (newKernelSize : Nat) : List UInt8 :=
  [UInt8.ofNat (newKernelSize &&& 0xFF), UInt8.ofNat (newKernelSize >>> 8 &&& 0xFF),
    UInt8.ofNat (newKernelSize >>> 16 &&& 0xFF), UInt8.ofNat (newKernelSize >>> 24 &&& 0xFF)]

def blockCmd (image : List UInt8) (index : Nat) : UInt8 :=
  if index + 1 = numberOfBlock image.length then 0x05 else 0x04

/-- The arguments of `send_frame` in the loop over the blocks. -/
def blocks (image : List UInt8) : List (UInt8 × List UInt8) :=
  (List.range (numberOfBlock image.length)).map fun index =>
    (blockCmd image index, binaryFragment image index)

/-- A frame the receive interrupt answers itself, and what it leaves there. -/
structure Rejection where
  answer : Nat
  error : answer = respFcsError ∨ answer = respFrameError
  receiver : Receiver
  ready : Ready receiver

/-- One call of `send_frame`, the main loop serving the frame, and the answer
the host reads. -/
def deliver (rejection : Option Rejection) (receiver : Receiver) (cmd : UInt8)
    (payload : List UInt8) : Exec BootState (Receiver × Option Nat) :=
  match rejection with
  | some rejection => pure (rejection.receiver, some rejection.answer)
  | none =>
      match receive bootloaderReceive receiver (sendFrame cmd payload) with
      | none => Exec.fault .outOfBounds
      | some reception =>
          if reception.flags.getLast? = some true then do
            execute reception.receiver.frame
            let state ← get
            pure (reception.receiver.answered, state.responses.getLast?)
          else pure (reception.receiver, reception.responses.getLast?)

/-- The loop over the blocks. The answers go to `status`, which nothing reads:
the test after each call is of the answer to the erase. -/
def sendBlocks (channel : Nat → Option Rejection) :
    Nat → Receiver → List (UInt8 × List UInt8) → Exec BootState Unit
  | _, _, [] => pure ()
  | index, receiver, (cmd, payload) :: rest => do
      let (next, _) ← deliver (channel index) receiver cmd payload
      sendBlocks channel (index + 1) next rest

/-- `load_kernel` from the first frame on; `channel` tells which frames are
rejected. -/
def loadKernel (channel : Nat → Option Rejection) (receiver : Receiver) (image : List UInt8) :
    Exec BootState Unit := do
  let (receiver, _) ← deliver (channel 0) receiver 0x06 [0, 0, 0, 0]
  let (receiver, response) ← deliver (channel 1) receiver 0x03 (erasePayload image.length)
  if response = some respOk then sendBlocks channel 2 receiver (blocks image)
  else pure ()

def faultless : Nat → Option Rejection := fun _ => none

/-! ## Frames that arrive -/

/-- The frame buffer after a frame of the host. -/
structure Arrived (cmd : UInt8) (payload : List UInt8) (frame : Frame) : Prop where
  cmd : frame.cmd = cmd
  size : frame.size = payload.length
  payload : Holds frame payload

theorem deliver_arrives {receiver : Receiver} (ready : Ready receiver) (cmd : UInt8)
    {payload : List UInt8} (nonempty : 1 ≤ payload.length) (fits : payload.length ≤ 512) :
    ∃ frame next, Arrived cmd payload frame ∧ Ready next ∧
      deliver none receiver cmd payload = (do
        execute frame
        let state ← get
        pure (next, state.responses.getLast?)) := by
  rcases frame_decoded bootloaderReceive_reads ready ⟨cmd, payload, nonempty, fits⟩ with
    ⟨after, decoded⟩
  have bytes : receive bootloaderReceive receiver (sendFrame cmd payload) = _ := decoded.received
  refine ⟨after.frame, after.answered, ⟨decoded.cmd, decoded.size, decoded.payload⟩,
    ⟨decoded.idle, rfl⟩, ?_⟩
  rw [deliver, bytes]
  exact if_pos (List.getLast?_concat ..)

theorem run_deliver {frame : Frame} {next : Receiver} {state after : BootState}
    (run : (execute frame).run state = .ok () after) :
    (do
      execute frame
      let state ← get
      pure (next, state.responses.getLast?) : Exec BootState (Receiver × Option Nat)).run state =
      .ok (next, after.responses.getLast?) after := by
  rw [Exec.run_bind_of_ok run]
  rfl

/-! ## What arrives of the blocks -/

/-- The blocks of a list that get through, from one frame number on. -/
def accepted (channel : Nat → Option Rejection) :
    Nat → List (UInt8 × List UInt8) → List (UInt8 × List UInt8)
  | _, [] => []
  | index, sent :: rest =>
      match channel index with
      | some _ => accepted channel (index + 1) rest
      | none => sent :: accepted channel (index + 1) rest

def Sendable (sent : UInt8 × List UInt8) : Prop := 1 ≤ sent.2.length ∧ sent.2.length ≤ 512

/-- The bootloader executes the frames that get through. -/
theorem run_sendBlocks (channel : Nat → Option Rejection) :
    ∀ (sent : List (UInt8 × List UInt8)) (index : Nat) (receiver : Receiver), Ready receiver →
      (∀ frame ∈ sent, Sendable frame) →
      ∃ frames, List.Forall₂ (fun (sent : UInt8 × List UInt8) => Arrived sent.1 sent.2)
          (accepted channel index sent) frames ∧
        ∀ state, (sendBlocks channel index receiver sent).run state =
          (executeAll frames).run state
  | [], _, _, _, _ => ⟨[], .nil, fun _ => rfl⟩
  | (cmd, payload) :: rest, index, receiver, ready, sendable => by
      have others : ∀ frame ∈ rest, Sendable frame :=
        fun frame member => sendable frame (List.mem_cons_of_mem _ member)
      rw [accepted, sendBlocks]
      cases answered : channel index with
      | some rejection =>
          rcases run_sendBlocks channel rest (index + 1) rejection.receiver rejection.ready
            others with ⟨frames, arrived, runs⟩
          refine ⟨frames, arrived, fun state => ?_⟩
          rw [← runs state]
          rfl
      | none =>
          have fits := sendable _ List.mem_cons_self
          rcases deliver_arrives ready cmd fits.1 fits.2 with ⟨frame, next, arrives, idle, served⟩
          rcases run_sendBlocks channel rest (index + 1) next idle others with
            ⟨frames, arrived, runs⟩
          refine ⟨frame :: frames, .cons arrives arrived, fun state => ?_⟩
          rw [served, executeAll]
          cases run : (execute frame).run state with
          | ok value after =>
              rw [Exec.run_bind_of_ok (run_deliver run), Exec.run_bind_of_ok run]
              exact runs after
          | error reason after =>
              rw [Exec.run_bind_of_error run]
              exact Exec.run_bind_of_error (Exec.run_bind_of_error run)

end Vanilla.Boot
