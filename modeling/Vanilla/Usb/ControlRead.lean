import Mathlib.Data.Nat.Find
import Vanilla.Foundation.Run
import Vanilla.Usb.PipeCalls

namespace Vanilla.Usb

/-! When a control read is completed. The data stage ends at the first packet
that is not of the endpoint's size, or when enough bytes have come. -/

variable {Core : Type} {index : Nat}

/-! ## The setup packet -/

section SetupSent

variable {state : HcState Core} (first : (@firstUrb Core).run state = .ok index state)
  (sent : state.pipe.state = .ctrlOut)

include first sent

/-- The setup packet of a read opens the data stage. -/
theorem run_usbhcPipeSetupSent_in (data : (state.urbs index).transferLength ≠ 0)
    (towardsHost : (state.urbs index).TowardsHost) :
    (@usbhcPipeSetupSent Core).run state =
      .ok () ((state.setPipeState .dataIn).setPending (some .dataIn)) := by
  rw [Urb.TowardsHost] at towardsHost
  rw [usbhcPipeSetupSent, Exec.run_bind_of_ok (EStateM.run_get state),
    if_neg (not_not.mpr sent), Exec.run_bind_of_ok first, if_pos data, if_pos towardsHost]
  rfl

theorem run_usbhcPipeSetupSent_out (data : (state.urbs index).transferLength ≠ 0)
    (away : ¬ (state.urbs index).TowardsHost) :
    (@usbhcPipeSetupSent Core).run state = .ok () (state.setPipeState .dataOut) := by
  rw [Urb.TowardsHost] at away
  rw [usbhcPipeSetupSent, Exec.run_bind_of_ok (EStateM.run_get state),
    if_neg (not_not.mpr sent), Exec.run_bind_of_ok first, if_pos data, if_neg away]
  rfl

/-- Without a data stage the status stage follows. -/
theorem run_usbhcPipeSetupSent_status (dataless : ¬ (state.urbs index).transferLength ≠ 0) :
    (@usbhcPipeSetupSent Core).run state =
      .ok () ((state.setPipeState .zlpIn).setPending (some .dataIn)) := by
  have towardsDevice :
      (state.urbs index).setupBuffer[0] &&& usbHostToDevice = usbHostToDevice := by
    rw [usbHostToDevice]
    exact UInt8.and_zero
  rw [usbhcPipeSetupSent, Exec.run_bind_of_ok (EStateM.run_get state),
    if_neg (not_not.mpr sent), Exec.run_bind_of_ok first, if_neg dataless, if_pos towardsDevice]
  rfl

end SetupSent

/-! ## Copying -/

/-- The copy stops at the transfer length, if it has not passed it. -/
theorem copyIn_acctualLength (urb : Urb) (data : Nat → UInt8) :
    ∀ (count : Nat) (copied : Copied), copied.acctualLength < urb.transferLength →
      (copyIn urb data count copied).acctualLength =
        min urb.transferLength (copied.acctualLength + count)
  | 0, copied, room => by
      rw [copyIn, Nat.add_zero, Nat.min_eq_right (Nat.le_of_lt room)]
  | count + 1, copied, room => by
      rw [copyIn]
      by_cases full : copied.acctualLength + 1 = urb.transferLength
      · rw [if_pos full]
        change copied.acctualLength + 1 = _
        omega
      · rw [if_neg full, copyIn_acctualLength urb data count _ (by change _ + 1 < _; omega)]
        change min urb.transferLength (copied.acctualLength + 1 + count) = _
        congr 1
        omega

/-! ## Completion -/

/-- A callback that shows it has been reached. -/
def reached : Nat → Exec (HcState Core) Unit := fun _ => Exec.panic "callback"

/-- The interrupt completes the URB: its callback is run with `URB_STATUS_OK`. -/
def Completes (index : Nat) (before : HcState Core) (interrupt : Interrupt) : Prop :=
  ∃ after, (usbhcPipeException reached interrupt).run before =
    .error (.panic "callback") after ∧ (after.urbs index).status = .ok

/-- An interrupt of the transaction under way. -/
structure HcStep (callback : Nat → Exec (HcState Core) Unit) (before : HcState Core)
    (interrupt : Interrupt) (after : HcState Core) : Prop where
  raised : before.pending = some interrupt.token
  handled : (usbhcPipeException callback interrupt).run before = .ok () after

theorem usbhcEndUrb_completes {state : HcState Core} {rest : List ListNode}
    (ring : Ring state.links .urbList (.urb index :: rest))
    (flags : (state.urbs index).flags = urbFlagsSetup) :
    ∃ after, (@usbhcEndUrb Core reached index .ok).run state =
      .error (.panic "callback") after ∧ (after.urbs index).status = .ok := by
  rcases ring.deleteFirst with ⟨links, deleted, _⟩
  have control : ¬ (state.urbs index).flags &&& urbFlagsInterruptIn ≠ 0 := by
    rw [flags]
    decide
  have run := run_usbhcEndUrb reached .ok deleted control
  refine ⟨_, run, ?_⟩
  simp [whenCalled, HcState.setUrb, HcState.record]

/-! ## The stages of a control read -/

/-- A control read whose setup packet is on its way. -/
structure ControlRead (state : HcState Core) (index : Nat) : Prop where
  queued : ∃ rest, Ring state.links .urbList (.urb index :: rest)
  flags : (state.urbs index).flags = urbFlagsSetup
  request : (state.urbs index).setupBuffer[0] &&& usbDeviceToHost = usbDeviceToHost
  length : 0 < (state.urbs index).transferLength
  started : state.pipe.state = .ctrlOut
  sent : state.pending = some .setup
  empty : (state.urbs index).acctualLength = 0
  control : state.pipe.type = .ctrl

/-- The bytes of the packets the device answers with. -/
def packetCount (start : HcState Core) (packet : Nat) : Nat :=
  start.fifo.count (start.reads + packet) % 2 ^ 11

/-- The device fills the transfer with packets of the endpoint's size only. -/
def FillsExactly (start : HcState Core) (index : Nat) : Prop :=
  ∃ last, (∀ packet, packet ≤ last → packetCount start packet = start.pipe.epSize) ∧
    (start.urbs index).transferLength ≤ (last + 1) * start.pipe.epSize

/-- What no stage of the transfer changes. -/
structure SameTransfer (index : Nat) (start state : HcState Core) : Prop where
  links : state.links = start.links
  fifo : state.fifo = start.fifo
  epSize : state.pipe.epSize = start.pipe.epSize
  type : state.pipe.type = start.pipe.type
  flags : (state.urbs index).flags = (start.urbs index).flags
  length : (state.urbs index).transferLength = (start.urbs index).transferLength

/-- The data stage, with so many full packets behind it. -/
structure DataStage (index : Nat) (start state : HcState Core) (packets : Nat) : Prop where
  same : SameTransfer index start state
  inData : state.pipe.state = .dataIn
  pending : state.pending = some .dataIn
  reads : state.reads = start.reads + packets
  received : (state.urbs index).acctualLength = packets * start.pipe.epSize
  short : packets * start.pipe.epSize < (start.urbs index).transferLength
  full : ∀ packet, packet < packets → packetCount start packet = start.pipe.epSize

inductive ReadStage (index : Nat) (start : HcState Core) : HcState Core → Prop where
  | setup : ReadStage index start start
  | data {state : HcState Core} (packets : Nat) :
      DataStage index start state packets → ReadStage index start state
  | status {state : HcState Core} : SameTransfer index start state →
      state.pipe.state = .zlpOut → state.pending = some .dataOut → ReadStage index start state

theorem SameTransfer.queued {start state : HcState Core} (same : SameTransfer index start state)
    (read : ControlRead start index) :
    ∃ rest, Ring state.links .urbList (.urb index :: rest) := by
  rw [same.links]
  exact read.queued

/-- The setup packet of a control read opens the data stage. -/
theorem ControlRead.setupSent {start : HcState Core} (read : ControlRead start index)
    (callback : Nat → Exec (HcState Core) Unit) :
    (usbhcPipeException callback .txSetup).run start =
      .ok () ((start.setPending (some .dataIn)).setPipeState .dataIn) := by
  rcases read.queued with ⟨rest, ring⟩
  have first : (@firstUrb Core).run (start.setPending none) =
      .ok index (start.setPending none) := run_firstUrb ring.next_cons
  rw [run_exception_txSetup, run_usbhcPipeSetupSent_in first read.started
    (Nat.pos_iff_ne_zero.mp read.length) read.request]
  rfl

theorem ControlRead.dataStage {start : HcState Core} (read : ControlRead start index) :
    DataStage index start ((start.setPending (some .dataIn)).setPipeState .dataIn) 0 where
  same := ⟨rfl, rfl, rfl, rfl, rfl, rfl⟩
  inData := rfl
  pending := rfl
  reads := rfl
  received := by
    rw [Nat.zero_mul]
    exact read.empty
  short := by
    rw [Nat.zero_mul]
    exact read.length
  full := fun packet bound => absurd bound (Nat.not_lt_zero packet)

namespace DataStage

variable {start state : HcState Core} {packets : Nat}

theorem count (stage : DataStage index start state packets) :
    state.fifo.count state.reads % 2 ^ 11 = packetCount start packets := by
  rw [packetCount, stage.same.fifo, stage.reads]

theorem first (stage : DataStage index start state packets) (read : ControlRead start index) :
    (@firstUrb Core).run (state.setPending none) = .ok index (state.setPending none) := by
  rcases stage.same.queued read with ⟨rest, ring⟩
  exact run_firstUrb ring.next_cons

theorem notStatus (stage : DataStage index start state packets) :
    (state.setPending none).pipe.state ≠ .zlpIn := by
  change state.pipe.state ≠ .zlpIn
  rw [stage.inData]
  decide

/-- How the driver takes a packet that ends the data stage. -/
theorem takesShort (stage : DataStage index start state packets)
    (read : ControlRead start index) (callback : Nat → Exec (HcState Core) Unit)
    (short : packetCount start packets ≠ start.pipe.epSize) :
    (usbhcPipeException callback .rxIn).run state =
      (@statusOut Core).run (afterIn index (state.setPending none)) := by
  have control : (state.setPending none).pipe.type = .ctrl := stage.same.type.trans read.control
  have differs : (state.setPending none).fifo.count (state.setPending none).reads % 2 ^ 11 ≠
      (state.setPending none).pipe.epSize := by
    change state.fifo.count state.reads % 2 ^ 11 ≠ state.pipe.epSize
    rw [stage.count, stage.same.epSize]
    exact short
  rw [run_exception_rxIn, run_usbhcPipeReceiveIn_short (stage.first read) stage.notStatus differs,
    if_pos control]

/-- How it takes a packet of the endpoint's size. -/
theorem takesFull (stage : DataStage index start state packets)
    (read : ControlRead start index) (callback : Nat → Exec (HcState Core) Unit)
    (full : packetCount start packets = start.pipe.epSize) :
    (usbhcPipeException callback .rxIn).run state =
      (if ((afterIn index (state.setPending none)).urbs index).transferLength ≤
          ((afterIn index (state.setPending none)).urbs index).acctualLength then
        usbhcEndUrb callback index .ok
      else usbhcSendIn : Exec (HcState Core) Unit).run
        (afterIn index (state.setPending none)) := by
  have same : (state.setPending none).fifo.count (state.setPending none).reads % 2 ^ 11 =
      (state.setPending none).pipe.epSize := by
    change state.fifo.count state.reads % 2 ^ 11 = state.pipe.epSize
    rw [stage.count, stage.same.epSize]
    exact full
  rw [run_exception_rxIn, run_usbhcPipeReceiveIn_full (stage.first read) stage.notStatus same]

/-- What a packet of the endpoint's size adds. -/
theorem received_full (stage : DataStage index start state packets)
    (full : packetCount start packets = start.pipe.epSize) :
    ((afterIn index (state.setPending none)).urbs index).acctualLength =
      min (start.urbs index).transferLength ((packets + 1) * start.pipe.epSize) := by
  have room : (state.urbs index).acctualLength < (state.urbs index).transferLength := by
    rw [stage.received, stage.same.length]
    exact stage.short
  have copied : (copiedIn index (state.setPending none)).acctualLength =
      min (state.urbs index).transferLength ((state.urbs index).acctualLength +
        state.fifo.count state.reads % 2 ^ 11) :=
    copyIn_acctualLength _ _ _ _ room
  have updated : ((afterIn index (state.setPending none)).urbs index).acctualLength =
      (copiedIn index (state.setPending none)).acctualLength := by
    simp [afterIn]
  rw [updated, copied, stage.count, full, stage.same.length, stage.received, Nat.add_mul,
    Nat.one_mul]

theorem afterIn_same (stage : DataStage index start state packets) :
    SameTransfer index start (afterIn index (state.setPending none)) where
  links := stage.same.links
  fifo := stage.same.fifo
  epSize := stage.same.epSize
  type := stage.same.type
  flags := by
    rw [← stage.same.flags]
    simp [afterIn, HcState.setPending]
  length := by
    rw [← stage.same.length]
    simp [afterIn, HcState.setPending]

/-- A packet of another size leads to the status stage, or to the panic of a
FIFO that is not empty. -/
theorem receiveShort (stage : DataStage index start state packets)
    (read : ControlRead start index) (short : packetCount start packets ≠ start.pipe.epSize) :
    (∃ after, (usbhcPipeException reached .rxIn).run state = .ok () after ∧
      ReadStage index start after) ∨
      ∃ after, (usbhcPipeException reached .rxIn).run state =
        .error (.panic "FIFO not zero") after := by
  have same := stage.afterIn_same
  rw [stage.takesShort read _ short]
  by_cases left : (afterIn index (state.setPending none)).fifo.count
      (afterIn index (state.setPending none)).reads % 2 ^ 11 ≠ 0
  · exact .inr ⟨_, run_statusOut_left left⟩
  · exact .inl ⟨_, run_statusOut_empty left, .status ⟨same.links, same.fifo, same.epSize,
      same.type, same.flags, same.length⟩ rfl rfl⟩

/-- A full packet that leaves bytes to come asks for the next one. -/
theorem receiveMore (stage : DataStage index start state packets)
    (read : ControlRead start index) (callback : Nat → Exec (HcState Core) Unit)
    (full : packetCount start packets = start.pipe.epSize)
    (more : (packets + 1) * start.pipe.epSize < (start.urbs index).transferLength) :
    ∃ after, (usbhcPipeException callback .rxIn).run state = .ok () after ∧
      DataStage index start after (packets + 1) := by
  let copied := afterIn index (state.setPending none)
  have same : SameTransfer index start copied := stage.afterIn_same
  have received : (copied.urbs index).acctualLength = (packets + 1) * start.pipe.epSize := by
    rw [stage.received_full full, Nat.min_eq_right (Nat.le_of_lt more)]
  have notFull : ¬ (copied.urbs index).transferLength ≤ (copied.urbs index).acctualLength := by
    rw [received, same.length]
    exact Nat.not_le.mpr more
  rw [stage.takesFull read _ full, if_neg notFull]
  refine ⟨copied.setPending (some .dataIn), rfl, ?_⟩
  constructor
  · exact ⟨same.links, same.fifo, same.epSize, same.type, same.flags, same.length⟩
  · exact stage.inData
  · rfl
  · change state.reads + 1 = _
    rw [stage.reads, Nat.add_assoc]
  · exact received
  · exact more
  · intro packet bound
    cases Nat.lt_succ_iff_lt_or_eq.mp bound with
    | inl earlier => exact stage.full packet earlier
    | inr last => exact last ▸ full

/-- A full packet that brings enough bytes completes the URB. -/
theorem receiveLast (stage : DataStage index start state packets)
    (read : ControlRead start index) (full : packetCount start packets = start.pipe.epSize)
    (enough : (start.urbs index).transferLength ≤ (packets + 1) * start.pipe.epSize) :
    Completes index state .rxIn := by
  let copied := afterIn index (state.setPending none)
  have same : SameTransfer index start copied := stage.afterIn_same
  have filled : (copied.urbs index).transferLength ≤ (copied.urbs index).acctualLength := by
    rw [stage.received_full full, same.length, Nat.min_eq_left enough]
  rcases same.queued read with ⟨rest, ring⟩
  rcases usbhcEndUrb_completes ring (same.flags.trans read.flags) with ⟨after, run, status⟩
  refine ⟨after, ?_, status⟩
  rw [stage.takesFull read _ full, if_pos filled]
  exact run

end DataStage

/-! ## Whole transfers -/

/-- Every completion is by the transmitted zero-length packet of the status
stage. -/
def CompletesAfterStatus (start : HcState Core) (index : Nat) : Prop :=
  ∀ (events : List Interrupt) (before : HcState Core) (interrupt : Interrupt),
    Run (HcStep reached) start events before → before.pending = some interrupt.token →
    Completes index before interrupt →
    interrupt = .txOut ∧ before.pipe.state = .zlpOut

theorem interrupt_of_token {interrupt : Interrupt} {token : Token} {state : HcState Core}
    (pending : state.pending = some token) (raised : state.pending = some interrupt.token) :
    interrupt.token = token := Option.some.inj (raised.symm.trans pending)

theorem ReadStage.step {start before after : HcState Core} {interrupt : Interrupt}
    (read : ControlRead start index) (stage : ReadStage index start before)
    (step : HcStep reached before interrupt after) :
    ReadStage index start after := by
  cases stage with
  | setup =>
      have token := interrupt_of_token read.sent step.raised
      cases interrupt with
      | txSetup =>
          have handled := step.handled
          rw [read.setupSent reached] at handled
          cases handled
          exact .data 0 read.dataStage
      | rxIn | txOut => cases token
  | data packets stage =>
      have token := interrupt_of_token stage.pending step.raised
      cases interrupt with
      | rxIn =>
          have handled := step.handled
          by_cases full : packetCount start packets = start.pipe.epSize
          · by_cases enough : (start.urbs index).transferLength ≤
                (packets + 1) * start.pipe.epSize
            · rcases stage.receiveLast read full enough with ⟨last, run, _⟩
              rw [run] at handled
              cases handled
            · rcases stage.receiveMore read reached full (Nat.lt_of_not_le enough) with
                ⟨next, run, kept⟩
              rw [run] at handled
              cases handled
              exact .data (packets + 1) kept
          · cases stage.receiveShort read full with
            | inl status =>
                rcases status with ⟨next, run, kept⟩
                rw [run] at handled
                cases handled
                exact kept
            | inr panics =>
                rcases panics with ⟨next, run⟩
                rw [run] at handled
                cases handled
      | txSetup | txOut => cases token
  | status same state pending =>
      have token := interrupt_of_token pending step.raised
      cases interrupt with
      | txOut =>
          have handled := step.handled
          rcases same.queued read with ⟨rest, ring⟩
          have ready : (before.setPending none).pipe.state = .zlpOut := state
          have linked : Ring (before.setPending none).links .urbList (.urb index :: rest) := ring
          rcases usbhcEndUrb_completes linked (same.flags.trans read.flags) with
            ⟨last, run, _⟩
          have first : (@firstUrb Core).run (before.setPending none) =
              .ok index (before.setPending none) := run_firstUrb ring.next_cons
          rw [run_exception_txOut, run_usbhcTransmitOut_status first ready, run] at handled
          cases handled
      | txSetup | rxIn => cases token

theorem ReadStage.completes {start before : HcState Core} {interrupt : Interrupt}
    (read : ControlRead start index) (partial_ : ¬ FillsExactly start index)
    (stage : ReadStage index start before) (raised : before.pending = some interrupt.token)
    (completes : Completes index before interrupt) :
    interrupt = .txOut ∧ before.pipe.state = .zlpOut := by
  rcases completes with ⟨after, run, _⟩
  cases stage with
  | setup =>
      have token := interrupt_of_token read.sent raised
      cases interrupt with
      | txSetup =>
          rw [read.setupSent reached] at run
          cases run
      | rxIn | txOut => cases token
  | data packets stage =>
      have token := interrupt_of_token stage.pending raised
      cases interrupt with
      | rxIn =>
          by_cases full : packetCount start packets = start.pipe.epSize
          · have more : (packets + 1) * start.pipe.epSize <
                (start.urbs index).transferLength := by
              apply Nat.lt_of_not_le
              intro enough
              apply partial_
              refine ⟨packets, ?_, enough⟩
              intro packet bound
              cases Nat.lt_or_eq_of_le bound with
              | inl earlier => exact stage.full packet earlier
              | inr last => exact last ▸ full
            rcases stage.receiveMore read reached full more with ⟨next, handled, _⟩
            rw [handled] at run
            cases run
          · cases stage.receiveShort read full with
            | inl status =>
                rcases status with ⟨next, handled, _⟩
                rw [handled] at run
                cases run
            | inr panics =>
                rcases panics with ⟨next, handled⟩
                rw [handled] at run
                injection run with reason
                exact absurd (Fault.panic.inj reason) (by decide)
      | txSetup | txOut => cases token
  | status same state pending =>
      have token := interrupt_of_token pending raised
      cases interrupt with
      | txOut => exact ⟨rfl, state⟩
      | txSetup | rxIn => cases token

/-- So many full packets lead to the data stage with that many behind it. -/
theorem dataStage_reached {start : HcState Core} (read : ControlRead start index)
    (callback : Nat → Exec (HcState Core) Unit) :
    ∀ packets, (∀ packet, packet < packets → packetCount start packet = start.pipe.epSize) →
      packets * start.pipe.epSize < (start.urbs index).transferLength →
      ∃ events state, Run (HcStep callback) start events state ∧ DataStage index start state packets
  | 0, _, _ =>
      ⟨[.txSetup], _, .cons ⟨read.sent, read.setupSent callback⟩ (.nil _), read.dataStage⟩
  | packets + 1, full, short => by
      have shorter : packets * start.pipe.epSize < (start.urbs index).transferLength :=
        Nat.lt_of_le_of_lt (Nat.mul_le_mul_right _ (Nat.le_succ packets)) short
      rcases dataStage_reached read callback packets
        (fun packet bound => full packet (Nat.lt_succ_of_lt bound)) shorter with
        ⟨events, state, run, stage⟩
      rcases stage.receiveMore read callback (full packets (Nat.lt_succ_self packets)) short with
        ⟨next, handled, kept⟩
      have step : HcStep callback state .rxIn next := ⟨stage.pending, handled⟩
      exact ⟨events ++ [.rxIn], next, run.snoc step, kept⟩

/-- The first packet that brings enough bytes completes the URB itself. -/
theorem FillsExactly.completes_early {start : HcState Core} (read : ControlRead start index)
    (fills : FillsExactly start index) : ¬ CompletesAfterStatus start index := by
  intro afterStatus
  classical
  have enough : ∃ packet, (start.urbs index).transferLength ≤
      (packet + 1) * start.pipe.epSize := fills.imp fun _ both => both.2
  let last := Nat.find enough
  rcases fills with ⟨bound, full, reaches⟩
  have upTo : last ≤ bound := Nat.find_min' enough reaches
  have short : last * start.pipe.epSize < (start.urbs index).transferLength := by
    cases equal : last with
    | zero =>
        rw [Nat.zero_mul]
        exact read.length
    | succ earlier =>
        have below : earlier < last := by omega
        exact Nat.lt_of_not_le (Nat.find_min enough below)
  rcases dataStage_reached read reached last
    (fun packet below => full packet (Nat.le_trans (Nat.le_of_lt below) upTo)) short with
    ⟨events, state, run, stage⟩
  have completes := stage.receiveLast read (full last upTo) (Nat.find_spec enough)
  cases (afterStatus events state .rxIn run stage.pending completes).1

/-- A control read is completed after its status stage exactly when the device
does not fill it with packets of the endpoint's size. -/
theorem control_read_status_iff {Core : Type} {index : Nat} {start : HcState Core}
    (read : ControlRead start index) :
    CompletesAfterStatus start index ↔ ¬ FillsExactly start index := by
  constructor
  · intro afterStatus fills
    exact fills.completes_early read afterStatus
  · intro partial_ events before interrupt run raised completes
    have stage : ReadStage index start before :=
      run.invariant (ReadStage index start)
        (fun _ _ _ stage step => stage.step read step) .setup
    exact stage.completes read partial_ raised completes

/-- A read of 64 bytes that the device answers with one packet of 64. -/
def filledRead : HcState Unit where
  pipe := { state := .ctrlOut, type := .ctrl, epSize := 64 }
  links := (Links.init ⟨fun _ => none, fun _ => none⟩ ListNode.urbList).add
    (.urb 0) .urbList .urbList
  urbs := fun _ => {
    flags := urbFlagsSetup
    setupBuffer := #v[0x80, 0x06, 0x00, 0x02, 0x00, 0x00, 0x40, 0x00]
    transferBuffer := 0x20400000
    transferLength := 64
    acctualLength := 0
    status := .ok }
  memory := fun _ => 0
  core := ()
  fifo := { count := fun _ => 64, data := fun _ _ => 0 }
  reads := 0
  pending := some .setup
  stores := []
  trace := [.submitted 0, .started 0]

theorem filledRead_control : ControlRead filledRead 0 where
  queued := ⟨[], by simp [Chained, filledRead, Links.add, Links.init], by decide⟩
  flags := rfl
  request := by decide
  length := by decide
  started := rfl
  sent := rfl
  empty := rfl
  control := rfl

theorem control_read_status_iff_filled :
    CompletesAfterStatus filledRead 0 ↔ ¬ FillsExactly filledRead 0 :=
  control_read_status_iff filledRead_control

/-- The one packet completes the read; its status stage never comes. -/
theorem filled_read_skips_status :
    ControlRead filledRead 0 ∧ ¬ CompletesAfterStatus filledRead 0 := by
  refine ⟨filledRead_control, FillsExactly.completes_early filledRead_control ⟨0, ?_, ?_⟩⟩
  · intro packet bound
    rfl
  · decide

end Vanilla.Usb
