import Vanilla.Usb.Usbhc

namespace Vanilla.Usb

/-! What the calls on a pipe come to, once the links and the packets that decide
them are known. -/

variable {Core : Type} {index : Nat} {state : HcState Core} {links : Links ListNode}

theorem run_usbhwPipeGetByteCount (state : HcState Core) :
    (@usbhwPipeGetByteCount Core).run state =
      .ok (state.fifo.count state.reads % 2 ^ 11) { state with reads := state.reads + 1 } := rfl

theorem run_usbhcSetupOut_left (left : state.fifo.count state.reads % 2 ^ 11 ≠ 0) :
    (@usbhcSetupOut Core).run state = .ok false { state with reads := state.reads + 1 } := by
  rw [usbhcSetupOut, Exec.run_bind_of_ok (run_usbhwPipeGetByteCount state), if_pos left]
  rfl

theorem run_usbhcSetupOut_empty (empty : ¬ state.fifo.count state.reads % 2 ^ 11 ≠ 0) :
    (@usbhcSetupOut Core).run state =
      .ok true (HcState.setPending (some .setup) { state with reads := state.reads + 1 }) := by
  rw [usbhcSetupOut, Exec.run_bind_of_ok (run_usbhwPipeGetByteCount state), if_neg empty]
  rfl

theorem run_firstUrb (first : state.links.next .urbList = some (.urb index)) :
    (@firstUrb Core).run state = .ok index state := by
  rw [firstUrb, Exec.run_bind_of_ok (EStateM.run_get state), first]
  rfl

/-! ## The queue -/

/-- A URB is linked in, and starts when the queue was empty. -/
theorem run_usbhcSubmitUrb (added : state.links.addLast (.urb index) .urbList = some links) :
    (@usbhcSubmitUrb Core index).run state =
      (if state.links.next .urbList = some .urbList then usbhcStartUrb index
        else pure () : Exec (HcState Core) Unit).run
          ({ state with links := links }.record (.submitted index)) := by
  let linked := { state with links := links }.record (.submitted index)
  have pointer : (Exec.deref (some links) : Exec (HcState Core) _) = pure links := rfl
  have stored : (set linked : Exec (HcState Core) Unit).run state = .ok () linked := rfl
  rw [usbhcSubmitUrb, Exec.run_bind_of_ok (EStateM.run_get state), added, pointer, pure_bind,
    Exec.run_bind_of_ok stored]

/-- The state in which the callback of a URB runs. -/
def whenCalled (index : Nat) (status : UrbStatus) (state : HcState Core) : HcState Core :=
  (state.setUrb index { state.urbs index with status := status }).record
    (.called index (state.links.next (.urb index)).isSome)

/-- The end of `usbhc_end_urb`: the next URB starts on a pipe that is idle. -/
def startNext : Exec (HcState Core) Unit := do
  let after ← get
  if after.links.next .urbList ≠ some .urbList ∧ after.pipe.state = .idle then do
    let next ← firstUrb
    usbhcStartUrb next
  else pure ()

theorem run_startNext_empty (ring : Ring state.links .urbList []) :
    (@startNext Core).run state = .ok () state := by
  rw [startNext, Exec.run_bind_of_ok (EStateM.run_get state),
    if_neg fun both => both.1 ring.next_nil]
  rfl

theorem run_startNext_active (active : state.pipe.state ≠ .idle) :
    (@startNext Core).run state = .ok () state := by
  rw [startNext, Exec.run_bind_of_ok (EStateM.run_get state), if_neg fun both => active both.2]
  rfl

theorem run_startNext_idle {rest : List ListNode}
    (ring : Ring state.links .urbList (.urb index :: rest)) (idle : state.pipe.state = .idle) :
    (@startNext Core).run state = (@usbhcStartUrb Core index).run state := by
  have nonempty : state.links.next .urbList ≠ some .urbList := by
    intro self
    cases ring.next_self_iff.mp self
  rw [startNext, Exec.run_bind_of_ok (EStateM.run_get state), if_pos ⟨nonempty, idle⟩,
    Exec.run_bind_of_ok (run_firstUrb ring.next_cons)]

/-- A URB of continuous IN requests is called back where it is. -/
theorem usbhcEndUrb_interruptIn {callback : Nat → Exec (HcState Core) Unit}
    {status : UrbStatus} (interruptIn : (state.urbs index).flags &&& urbFlagsInterruptIn ≠ 0) :
    (usbhcEndUrb callback index status).run state =
      (callback index).run (whenCalled index status state) := by
  rw [usbhcEndUrb, Exec.run_bind_of_ok (EStateM.run_get state), if_pos interruptIn]
  rfl

/-- Any other URB is unlinked before its callback. -/
theorem run_usbhcEndUrb (callback : Nat → Exec (HcState Core) Unit) (status : UrbStatus)
    (deleted : state.links.deleteNode (.urb index) = some links)
    (other : ¬ (state.urbs index).flags &&& urbFlagsInterruptIn ≠ 0) :
    (usbhcEndUrb callback index status).run state =
      (do
        callback index
        startNext : Exec (HcState Core) Unit).run
          (whenCalled index status { state.setPipeState .idle with links := links }) := by
  let cleared : HcState Core := { state.setPipeState .idle with links := links }
  have pointer : (Exec.deref (some links) : Exec (HcState Core) _) = pure links := rfl
  have stored : (set cleared : Exec (HcState Core) Unit).run state = .ok () cleared := rfl
  rw [usbhcEndUrb, Exec.run_bind_of_ok (EStateM.run_get state), if_neg other, deleted, pointer,
    pure_bind, Exec.run_bind_of_ok stored]
  rfl

/-! ## Interrupts -/

theorem run_exception_txSetup (callback : Nat → Exec (HcState Core) Unit)
    (state : HcState Core) :
    (usbhcPipeException callback .txSetup).run state =
      (@usbhcPipeSetupSent Core).run (state.setPending none) := rfl

theorem run_exception_rxIn (callback : Nat → Exec (HcState Core) Unit) (state : HcState Core) :
    (usbhcPipeException callback .rxIn).run state =
      (usbhcPipeReceiveIn callback).run (state.setPending none) := rfl

theorem run_exception_txOut (callback : Nat → Exec (HcState Core) Unit) (state : HcState Core) :
    (usbhcPipeException callback .txOut).run state =
      (usbhcTransmitOut callback).run (state.setPending none) := rfl

/-- The URB after `usbhc_in` has read the FIFO. -/
def copiedIn (index : Nat) (state : HcState Core) : Copied :=
  copyIn (state.urbs index) (state.fifo.data state.reads)
    (state.fifo.count state.reads % 2 ^ 11)
    { memory := state.memory, stores := state.stores
      acctualLength := (state.urbs index).acctualLength }

def afterIn (index : Nat) (state : HcState Core) : HcState Core :=
  { state with
    reads := state.reads + 1
    memory := (copiedIn index state).memory
    stores := (copiedIn index state).stores
    urbs := Function.update state.urbs index
      { state.urbs index with acctualLength := (copiedIn index state).acctualLength } }

theorem run_usbhcIn (index : Nat) (state : HcState Core) :
    (@usbhcIn Core index).run state =
      .ok (decide (state.fifo.count state.reads % 2 ^ 11 ≠ state.pipe.epSize))
        (afterIn index state) := rfl

/-- The IN packet of the status stage ends the transfer. -/
theorem run_usbhcPipeReceiveIn_status {callback : Nat → Exec (HcState Core) Unit}
    (first : (@firstUrb Core).run state = .ok index state)
    (status : state.pipe.state = .zlpIn) :
    (usbhcPipeReceiveIn callback).run state = (usbhcEndUrb callback index .ok).run state := by
  rw [usbhcPipeReceiveIn, Exec.run_bind_of_ok first, Exec.run_bind_of_ok (EStateM.run_get state),
    if_pos status]

/-- On the way to the status stage of a control read. -/
def statusOut : Exec (HcState Core) Unit := do
  modify (HcState.setPipeState .zlpOut)
  usbhcControlStatusOut

/-- A data packet that is not of the endpoint's size. -/
theorem run_usbhcPipeReceiveIn_short {callback : Nat → Exec (HcState Core) Unit}
    (first : (@firstUrb Core).run state = .ok index state)
    (data : state.pipe.state ≠ .zlpIn)
    (short : state.fifo.count state.reads % 2 ^ 11 ≠ state.pipe.epSize) :
    (usbhcPipeReceiveIn callback).run state =
      (if state.pipe.type = .ctrl then statusOut else usbhcEndUrb callback index .ok).run
        (afterIn index state) := by
  rw [usbhcPipeReceiveIn, Exec.run_bind_of_ok first, Exec.run_bind_of_ok (EStateM.run_get state),
    if_neg data, Exec.run_bind_of_ok (run_usbhcIn index state), if_pos (decide_eq_true short)]
  rfl

/-- A data packet of the endpoint's size. -/
theorem run_usbhcPipeReceiveIn_full {callback : Nat → Exec (HcState Core) Unit}
    (first : (@firstUrb Core).run state = .ok index state)
    (data : state.pipe.state ≠ .zlpIn)
    (full : state.fifo.count state.reads % 2 ^ 11 = state.pipe.epSize) :
    (usbhcPipeReceiveIn callback).run state =
      (if ((afterIn index state).urbs index).transferLength ≤
          ((afterIn index state).urbs index).acctualLength then
        usbhcEndUrb callback index .ok
      else usbhcSendIn : Exec (HcState Core) Unit).run (afterIn index state) := by
  have plain : ¬ decide (state.fifo.count state.reads % 2 ^ 11 ≠ state.pipe.epSize) = true := by
    rw [decide_eq_true_iff]
    exact not_not.mpr full
  rw [usbhcPipeReceiveIn, Exec.run_bind_of_ok first, Exec.run_bind_of_ok (EStateM.run_get state),
    if_neg data, Exec.run_bind_of_ok (run_usbhcIn index state), if_neg plain,
    Exec.run_bind_of_ok (EStateM.run_get (afterIn index state))]

theorem run_statusOut_left (left : state.fifo.count state.reads % 2 ^ 11 ≠ 0) :
    (@statusOut Core).run state = .error (.panic "FIFO not zero")
      { state.setPipeState .zlpOut with reads := state.reads + 1 } := by
  have moved : (modify (HcState.setPipeState .zlpOut) : Exec (HcState Core) Unit).run state =
      .ok () (state.setPipeState .zlpOut) := rfl
  rw [statusOut, Exec.run_bind_of_ok moved, usbhcControlStatusOut,
    Exec.run_bind_of_ok (run_usbhwPipeGetByteCount _)]
  exact congrArg (fun code : Exec (HcState Core) Unit => code.run _) (if_pos left)

theorem run_statusOut_empty (empty : ¬ state.fifo.count state.reads % 2 ^ 11 ≠ 0) :
    (@statusOut Core).run state =
      .ok () ({ state.setPipeState .zlpOut with reads := state.reads + 1 }.setPending
        (some .dataOut)) := by
  have moved : (modify (HcState.setPipeState .zlpOut) : Exec (HcState Core) Unit).run state =
      .ok () (state.setPipeState .zlpOut) := rfl
  rw [statusOut, Exec.run_bind_of_ok moved, usbhcControlStatusOut,
    Exec.run_bind_of_ok (run_usbhwPipeGetByteCount _)]
  exact congrArg (fun code : Exec (HcState Core) Unit => code.run _) (if_neg empty)

/-- The OUT packet of the status stage ends the transfer. -/
theorem run_usbhcTransmitOut_status {callback : Nat → Exec (HcState Core) Unit}
    (first : (@firstUrb Core).run state = .ok index state)
    (status : state.pipe.state = .zlpOut) :
    (usbhcTransmitOut callback).run state = (usbhcEndUrb callback index .ok).run state := by
  rw [usbhcTransmitOut, Exec.run_bind_of_ok (EStateM.run_get state), if_pos status,
    Exec.run_bind_of_ok first]

end Vanilla.Usb
