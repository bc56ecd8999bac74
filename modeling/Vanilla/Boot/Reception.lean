import Vanilla.Boot.Validated

namespace Vanilla.Boot

/-! The host's frame encoder and the two receive interrupts, the bootloader's
and the kernel's, byte by byte: the state each leaves, the responses it sends
and whether it resets the chip. -/

/-! ## kernel_prog.py -/

def fcsBit (crc : Nat) : Nat :=
  (if crc &&& 0x01 ≠ 0 then crc ^^^ 0xB2 else crc) >>> 1

def fcsByte (crc : Nat) (data : UInt8) : Nat :=
  (List.range 8).foldl (fun crc _ => fcsBit crc) (crc ^^^ data.toNat)

/-- `calculate_fcs`, on unbounded integers. -/
def calculateFcs (data : List UInt8) : Nat := data.foldl fcsByte 0

/-- The two bytes of `payload_size`. -/
def sizeBytes (payloadSize : Nat) : List UInt8 :=
  [UInt8.ofNat (payloadSize &&& 0xFF), UInt8.ofNat (payloadSize >>> 8 &&& 0xFF)]

/-- What `send_frame` writes. -/
def sendFrame (cmd : UInt8) (payload : List UInt8) : List UInt8 :=
  startByte :: cmd :: sizeBytes payload.length ++
    payload ++ [UInt8.ofNat (calculateFcs (cmd :: sizeBytes payload.length ++ payload)), endByte]

/-- A frame the host program builds. -/
structure HostFrame where
  cmd : UInt8
  payload : List UInt8
  nonempty : 1 ≤ payload.length
  fits : payload.length ≤ 512

def HostFrame.bytes (frame : HostFrame) : List UInt8 := sendFrame frame.cmd frame.payload

/-! ## The receive interrupts -/

/-- `RESP_ERROR | RESP_FCS_ERROR`. -/
def respFcsError : Nat := 0x11
/-- `RESP_ERROR | RESP_FRAME_ERROR`. -/
def respFrameError : Nat := 0x41

structure Reaction where
  receiver : Receiver
  responses : List Nat
  reset : Bool

/-- The error response of `STATE_END`, if there is one. -/
def Receiver.endResponses (receiver : Receiver) (data : UInt8) : List Nat :=
  if data = endByte then
    if crcCalculate receiver.frame.covered polynomial = receiver.frame.fcs then []
    else [respFcsError]
  else [respFrameError]

def Receiver.responses (receiver : Receiver) (data : UInt8) : List Nat :=
  match receiver.busState with
  | .idle => if data = 0 then [respOk] else []
  | .ending => receiver.endResponses data
  | _ => []

/-- `usart0_handler` with what it sends. -/
def bootloaderReceive (receiver : Receiver) (data : UInt8) : Option Reaction :=
  (receiver.usart0Handler data).map fun next =>
    { receiver := next, responses := receiver.responses data, reset := false }

def silently (receiver : Receiver) : Reaction :=
  { receiver := receiver, responses := [], reset := false }

/-- `usart0_exception` of the kernel: an idle zero byte leaves the boot
signature and resets the chip. -/
def usart0Exception (receiver : Receiver) (data : UInt8) : Option Reaction :=
  match receiver.busState with
  | .idle => some {
      receiver := { receiver with busState := if data = startByte then .cmd else .idle }
      responses := []
      reset := data = 0 }
  | .cmd => some (silently { receiver with
      frame.cmd := data, frame.size := 0, frameIndex := 0, busState := .size })
  | .size => some (silently (receiver.onSize data))
  | .payload => (receiver.onPayload data).map silently
  | .fcs => some (silently { receiver with frame.fcs := data, busState := .ending })
  | .ending => some {
      receiver := receiver.onEnd data
      responses := receiver.endResponses data
      reset := false }

abbrev Handler := Receiver → UInt8 → Option Reaction

/-- The two interrupts differ on an idle zero byte only. -/
structure ReadsFrames (handler : Handler) : Prop where
  agrees : ∀ receiver data, receiver.busState ≠ .idle ∨ data ≠ 0 →
    handler receiver data = bootloaderReceive receiver data
  zero : ∀ receiver : Receiver, receiver.busState = .idle →
    ∃ reaction, handler receiver 0 = some reaction ∧ reaction.receiver.busState = .idle

theorem bootloaderReceive_reads : ReadsFrames bootloaderReceive where
  agrees := fun _ _ _ => rfl
  zero := by
    intro receiver idle
    refine ⟨_, by rw [bootloaderReceive, Receiver.usart0Handler, idle]; rfl, ?_⟩
    simp [Receiver.onIdle, startByte]

theorem usart0Exception_reads : ReadsFrames usart0Exception where
  agrees := by
    intro receiver data busy
    cases state : receiver.busState with
    | idle =>
        have nonzero : data ≠ 0 := busy.resolve_left fun notIdle => notIdle state
        simp [usart0Exception, bootloaderReceive, Receiver.usart0Handler, state,
          Receiver.responses, Receiver.onIdle, nonzero]
    | cmd | size | fcs =>
        simp [usart0Exception, bootloaderReceive, Receiver.usart0Handler, state,
          Receiver.responses, silently]
    | payload =>
        simp only [usart0Exception, bootloaderReceive, Receiver.usart0Handler, state,
          Receiver.responses]
        rfl
    | ending =>
        simp [usart0Exception, bootloaderReceive, Receiver.usart0Handler, state,
          Receiver.responses]
  zero := by
    intro receiver idle
    refine ⟨_, by rw [usart0Exception, idle], ?_⟩
    simp [startByte]

/-! ## Receiving a byte string -/

/-- What has happened since the first byte; `flags` is `frame_received` after
each byte. -/
structure Reception where
  receiver : Receiver
  responses : List Nat
  reset : Bool
  flags : List Bool

def Reaction.reception (reaction : Reaction) : Reception where
  receiver := reaction.receiver
  responses := reaction.responses
  reset := reaction.reset
  flags := [reaction.receiver.frameReceived]

def Reception.followedBy (first later : Reception) : Reception where
  receiver := later.receiver
  responses := first.responses ++ later.responses
  reset := first.reset || later.reset
  flags := first.flags ++ later.flags

def nothingYet (receiver : Receiver) : Reception :=
  { receiver := receiver, responses := [], reset := false, flags := [] }

/-- `none` when a byte is stored past the payload. -/
def receive (handler : Handler) : Receiver → List UInt8 → Option Reception
  | receiver, [] => some (nothingYet receiver)
  | receiver, data :: rest =>
      (handler receiver data).bind fun reaction =>
        (receive handler reaction.receiver rest).map reaction.reception.followedBy

theorem Reception.followedBy_assoc (first second third : Reception) :
    (first.followedBy second).followedBy third = first.followedBy (second.followedBy third) := by
  simp [Reception.followedBy, List.append_assoc, Bool.or_assoc]

theorem nothingYet_followedBy (receiver : Receiver) :
    (nothingYet receiver).followedBy = id := by
  funext later
  rfl

theorem receive_append (handler : Handler) :
    ∀ (first later : List UInt8) (receiver : Receiver),
      receive handler receiver (first ++ later) =
        (receive handler receiver first).bind fun early =>
          (receive handler early.receiver later).map early.followedBy
  | [], later, receiver => by
      simp only [List.nil_append, receive, Option.bind_some, nothingYet_followedBy,
        Option.map_id_fun, id_eq]
      rfl
  | data :: rest, later, receiver => by
      simp only [List.cons_append, receive]
      cases handler receiver data with
      | none => rfl
      | some reaction =>
          simp only [Option.bind_some]
          rw [receive_append handler rest later]
          cases receive handler reaction.receiver rest with
          | none => rfl
          | some early =>
              simp only [Option.bind_some, Option.map_some]
              change _ = Option.map _ (receive handler early.receiver later)
              cases receive handler early.receiver later with
              | none => rfl
              | some final =>
                  simp only [Option.map_some, Reception.followedBy_assoc]

/-- The bytes are taken without a response, a reset or a received frame. -/
def Quietly (handler : Handler) (before : Receiver) (bytes : List UInt8)
    (after : Receiver) : Prop :=
  receive handler before bytes = some {
    receiver := after, responses := [], reset := false
    flags := .replicate bytes.length false }

theorem Quietly.append {handler : Handler} {before middle after : Receiver}
    {first later : List UInt8} (early : Quietly handler before first middle)
    (late : Quietly handler middle later after) :
    Quietly handler before (first ++ later) after := by
  rw [Quietly] at early late ⊢
  rw [receive_append, early, Option.bind_some, late, Option.map_some]
  simp [Reception.followedBy, List.replicate_append_replicate]

theorem Quietly.of_step {handler : Handler} (reads : ReadsFrames handler)
    {before after : Receiver} {data : UInt8} (busy : before.busState ≠ .idle ∨ data ≠ 0)
    (early : before.busState ≠ .ending) (step : before.usart0Handler data = some after)
    (flag : after.frameReceived = false) : Quietly handler before [data] after := by
  have silent : before.responses data = [] := by
    cases state : before.busState with
    | idle =>
        have nonzero : data ≠ 0 := busy.resolve_left fun notIdle => notIdle state
        simp [Receiver.responses, state, nonzero]
    | ending => exact absurd state early
    | cmd | size | payload | fcs => simp [Receiver.responses, state]
  rw [Quietly, receive, reads.agrees before data busy, bootloaderReceive, step]
  simp [receive, Reaction.reception, nothingYet, Reception.followedBy, silent, flag]

end Vanilla.Boot
