import Vanilla.Foundation.CircularList
import Vanilla.Foundation.Exec
import Vanilla.Foundation.Word

namespace Vanilla.Usb

/-! The host controller driver, for one pipe: its queue of URBs, the stages of
a control transfer, and what each pipe interrupt does. -/

inductive PipeState where
  | free
  | claimed
  | idle
  | ctrlOut
  | zlpIn
  | zlpOut
  | dataIn
  | dataOut
  | status
  | error
deriving DecidableEq

inductive PipeType where
  | ctrl
  | iso
  | blk
  | int
deriving DecidableEq

inductive UrbStatus where
  | ok
  | error
  | stall
  | nak
  | abort
deriving DecidableEq

/-- The head of `urb_list`, or the node inside a URB. -/
inductive ListNode where
  | urbList
  | urb (index : Nat)
deriving DecidableEq

/-- `struct urb`, with the bytes behind `setup_buffer`. -/
structure Urb where
  flags : Nat
  setupBuffer : Vector UInt8 8
  transferBuffer : Nat
  transferLength : Nat
  acctualLength : Nat
  status : UrbStatus

def urbFlagsSetup : Nat := 1 <<< 0
def urbFlagsInterruptIn : Nat := 1 <<< 3

structure Pipe where
  state : PipeState
  type : PipeType
  epSize : Nat

/-- The transaction a pipe has been told to make. -/
inductive Token where
  | setup
  | dataIn
  | dataOut
deriving DecidableEq

/-- What the pipe's FIFO shows at each read of its byte count. -/
structure Fifo where
  count : Nat → Nat
  data : Nat → Nat → UInt8

/-- What has happened on the queue. `called` records whether the URB was still
linked when its callback ran. -/
inductive Action where
  | submitted (urb : Nat)
  | started (urb : Nat)
  | called (urb : Nat) (linked : Bool)
deriving DecidableEq

structure HcState (Core : Type) where
  pipe : Pipe
  links : Links ListNode
  urbs : Nat → Urb
  memory : Nat → UInt8
  core : Core
  fifo : Fifo
  reads : Nat
  pending : Option Token
  /-- Where `usbhc_in` has stored. -/
  stores : List Nat
  trace : List Action

variable {Core : Type}

namespace HcState

def setPipeState (pipeState : PipeState) (state : HcState Core) : HcState Core :=
  { state with pipe := { state.pipe with state := pipeState } }

def setUrb (index : Nat) (urb : Urb) (state : HcState Core) : HcState Core :=
  { state with urbs := Function.update state.urbs index urb }

def setPending (token : Option Token) (state : HcState Core) : HcState Core :=
  { state with pending := token }

def record (action : Action) (state : HcState Core) : HcState Core :=
  { state with trace := state.trace ++ [action] }

end HcState

/-- The eleven bits of the byte count. -/
def usbhwPipeGetByteCount : Exec (HcState Core) Nat := do
  let state ← get
  set { state with reads := state.reads + 1 }
  pure (state.fifo.count state.reads % 2 ^ 11)

/-- `list_get_entry(pipe->urb_list.next, ...)`; there is no URB behind the head. -/
def firstUrb : Exec (HcState Core) Nat := do
  let state ← get
  match state.links.next .urbList with
  | some (.urb index) => pure index
  | some .urbList => Exec.fault .outOfBounds
  | none => Exec.fault .nullDereference

/-! ## Transactions -/

structure Copied where
  memory : Nat → UInt8
  stores : List Nat
  acctualLength : Nat

/-- The copy loop of `usbhc_in`, with `count` bytes left in the FIFO. -/
def copyIn (urb : Urb) (data : Nat → UInt8) : Nat → Copied → Copied
  | 0, copied => copied
  | count + 1, copied =>
      let address := u32 (urb.transferBuffer + copied.acctualLength)
      let next : Copied := {
        memory := Function.update copied.memory address (data copied.acctualLength)
        stores := copied.stores ++ [address]
        acctualLength := copied.acctualLength + 1 }
      if next.acctualLength = urb.transferLength then next
      else copyIn urb data count next

/-- `usbhc_in`; returns whether the packet was short. -/
def usbhcIn (index : Nat) : Exec (HcState Core) Bool := do
  let fifoCount ← usbhwPipeGetByteCount
  let state ← get
  let urb := state.urbs index
  let copied := copyIn urb (state.fifo.data (state.reads - 1)) fifoCount
    { memory := state.memory, stores := state.stores, acctualLength := urb.acctualLength }
  set ({ state with memory := copied.memory, stores := copied.stores }.setUrb index
    { urb with acctualLength := copied.acctualLength })
  pure (decide (fifoCount ≠ state.pipe.epSize))

/-- `usbhc_setup_out`; nothing is sent while the FIFO holds bytes. -/
def usbhcSetupOut : Exec (HcState Core) Bool := do
  let fifoCount ← usbhwPipeGetByteCount
  if fifoCount ≠ 0 then pure false
  else do
    modify (HcState.setPending (some .setup))
    pure true

def usbhcControlStatusOut : Exec (HcState Core) Unit := do
  let fifoCount ← usbhwPipeGetByteCount
  if fifoCount ≠ 0 then Exec.panic "FIFO not zero"
  else modify (HcState.setPending (some .dataOut))

def usbhcSendIn : Exec (HcState Core) Unit := modify (HcState.setPending (some .dataIn))

/-! ## The queue -/

def usbhcStartUrb (index : Nat) : Exec (HcState Core) Unit := do
  let state ← get
  let urb := state.urbs index
  set ((state.setUrb index { urb with acctualLength := 0 }).record (.started index))
  if urb.flags &&& urbFlagsSetup ≠ 0 then do
    modify (HcState.setPipeState .ctrlOut)
    let _ ← usbhcSetupOut
    pure ()
  else if urb.flags &&& urbFlagsInterruptIn ≠ 0 then do
    modify (HcState.setPipeState .dataIn)
    modify (HcState.setPending (some .dataIn))
  else pure ()

/-- The `urb->callback(urb)` of `usbhc_end_urb`. -/
def runCallback (callback : Nat → Exec (HcState Core) Unit) (index : Nat)
    (status : UrbStatus) : Exec (HcState Core) Unit := do
  let state ← get
  let linked := (state.links.next (.urb index)).isSome
  set ((state.setUrb index { state.urbs index with status := status }).record
    (.called index linked))
  callback index

def usbhcEndUrb (callback : Nat → Exec (HcState Core) Unit) (index : Nat)
    (status : UrbStatus) : Exec (HcState Core) Unit := do
  let state ← get
  if (state.urbs index).flags &&& urbFlagsInterruptIn ≠ 0 then
    runCallback callback index status
  else do
    let links ← Exec.deref (state.links.deleteNode (.urb index))
    set { state.setPipeState .idle with links := links }
    runCallback callback index status
    let after ← get
    if after.links.next .urbList ≠ some .urbList ∧ after.pipe.state = .idle then do
      let next ← firstUrb
      usbhcStartUrb next
    else pure ()

def usbhcSubmitUrb (index : Nat) : Exec (HcState Core) Unit := do
  let state ← get
  let links ← Exec.deref (state.links.addLast (.urb index) .urbList)
  set ({ state with links := links }.record (.submitted index))
  if state.links.next .urbList = some .urbList then usbhcStartUrb index
  else pure ()

/-! ## Pipe interrupts -/

def usbDeviceToHost : UInt8 := 0x80
def usbHostToDevice : UInt8 := 0x00

def usbhcPipeSetupSent : Exec (HcState Core) Unit := do
  let state ← get
  if state.pipe.state ≠ .ctrlOut then Exec.panic "State error"
  else do
    let index ← firstUrb
    let urb := state.urbs index
    if urb.transferLength ≠ 0 then
      if urb.setupBuffer[0] &&& usbDeviceToHost = usbDeviceToHost then do
        modify (HcState.setPipeState .dataIn)
        usbhcSendIn
      else
        -- `usbhc_out` prints a line and sends nothing
        modify (HcState.setPipeState .dataOut)
    else if urb.setupBuffer[0] &&& usbHostToDevice = usbHostToDevice then do
      modify (HcState.setPipeState .zlpIn)
      usbhcSendIn
    else Exec.panic ""

/-- The request type of a URB that reads from the device. -/
def Urb.TowardsHost (urb : Urb) : Prop :=
  urb.setupBuffer[0] &&& usbDeviceToHost = usbDeviceToHost

def usbhcPipeReceiveIn (callback : Nat → Exec (HcState Core) Unit) :
    Exec (HcState Core) Unit := do
  let index ← firstUrb
  let state ← get
  if state.pipe.state = .zlpIn then usbhcEndUrb callback index .ok
  else do
    let short ← usbhcIn index
    if short then
      if state.pipe.type = .ctrl then do
        modify (HcState.setPipeState .zlpOut)
        usbhcControlStatusOut
      else usbhcEndUrb callback index .ok
    else do
      let after ← get
      if (after.urbs index).transferLength ≤ (after.urbs index).acctualLength then
        usbhcEndUrb callback index .ok
      else usbhcSendIn

def usbhcTransmitOut (callback : Nat → Exec (HcState Core) Unit) :
    Exec (HcState Core) Unit := do
  let state ← get
  if state.pipe.state = .zlpOut then do
    let index ← firstUrb
    usbhcEndUrb callback index .ok
  else pure ()

inductive Interrupt where
  | txSetup
  | rxIn
  | txOut
deriving DecidableEq

/-- The transaction that raises the interrupt. -/
def Interrupt.token : Interrupt → Token
  | .txSetup => .setup
  | .rxIn => .dataIn
  | .txOut => .dataOut

/-- `usbhc_pipe_exception` for one status bit. -/
def usbhcPipeException (callback : Nat → Exec (HcState Core) Unit) (interrupt : Interrupt) :
    Exec (HcState Core) Unit := do
  modify (HcState.setPending none)
  match interrupt with
  | .txSetup => usbhcPipeSetupSent
  | .rxIn => usbhcPipeReceiveIn callback
  | .txOut => usbhcTransmitOut callback

end Vanilla.Usb
