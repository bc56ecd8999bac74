import Vanilla.Usb.EnumerationBuffer
import Vanilla.Usb.PipeQueue

namespace Vanilla.Usb

/-! Where `usbhc_in` stores the packets of a transfer. The copy loop stops when
the transfer length is reached, so a packet must find the transfer short of it:
that is so in a control transfer, which ends at that point, but a URB of
continuous IN requests stays in the queue with its length full. -/

variable {Core : Type} {index : Nat} {urb : Urb}

/-- A URB for control transfers. -/
def Control (flags : Nat) : Prop :=
  flags &&& urbFlagsSetup ≠ 0 ∧ ¬ flags &&& urbFlagsInterruptIn ≠ 0

/-- In `transfer_buffer[0 .. transfer_length - 1]`. -/
def InTransfer (urb : Urb) (stores : List Nat) : Prop :=
  ∀ address ∈ stores,
    urb.transferBuffer ≤ address ∧ address < urb.transferBuffer + urb.transferLength

theorem inTransfer_append {early late : List Nat} :
    InTransfer urb (early ++ late) ↔ InTransfer urb early ∧ InTransfer urb late := by
  rw [InTransfer, List.forall_mem_append]
  rfl

/-! ## One packet -/

/-- A packet that finds room is stored inside. -/
theorem copyIn_inTransfer (data : Nat → UInt8) (count : Nat) {copied : Copied}
    (bound : urb.transferBuffer + urb.transferLength ≤ 2 ^ 32)
    (room : copied.acctualLength < urb.transferLength) :
    ∃ stores, (copyIn urb data count copied).stores = copied.stores ++ stores ∧
      InTransfer urb stores := by
  refine ⟨_, copyIn_stores urb data count copied room, ?_⟩
  rw [InTransfer, List.forall_mem_map]
  intro offset member
  have range := List.mem_range'_1.mp member
  have exact_ : u32 (urb.transferBuffer + offset) = urb.transferBuffer + offset :=
    Nat.mod_eq_of_lt (by omega)
  rw [exact_]
  omega

/-- Stores are only added, and the first byte goes behind what has been received. -/
theorem copyIn_adds (urb : Urb) (data : Nat → UInt8) : ∀ (count : Nat) (copied : Copied),
    ∃ stores, (copyIn urb data count copied).stores = copied.stores ++ stores ∧
      (count ≠ 0 → u32 (urb.transferBuffer + copied.acctualLength) ∈ stores)
  | 0, copied => ⟨[], (List.append_nil _).symm, fun some_ => absurd rfl some_⟩
  | count + 1, copied => by
      rw [copyIn]
      by_cases full : copied.acctualLength + 1 = urb.transferLength
      · rw [if_pos full]
        exact ⟨_, rfl, fun _ => List.mem_singleton.mpr rfl⟩
      · rw [if_neg full]
        rcases copyIn_adds urb data count _ with ⟨later, added, _⟩
        rw [added]
        exact ⟨_, List.append_assoc _ _ _, fun _ => List.mem_cons_self⟩

/-! ## A transfer -/

/-- The stages of a control transfer. -/
structure ControlStage (index : Nat) (state : HcState Core) : Prop where
  fits : PendingFits state.pending state.pipe.state
  unread : state.pipe.state = .ctrlOut → (state.urbs index).acctualLength = 0
  room : state.pipe.state = .dataIn →
    (state.urbs index).acctualLength < (state.urbs index).transferLength

/-- A stage that neither waits for the setup packet nor takes data. -/
theorem ControlStage.of_state {state : HcState Core} (pipeState : PipeState)
    (same : state.pipe.state = pipeState) (sent : pipeState ≠ .ctrlOut)
    (dataless : pipeState ≠ .dataIn) (fits : PendingFits state.pending pipeState) :
    ControlStage index state where
  fits := by
    rw [same]
    exact fits
  unread := fun started => absurd (same.symm.trans started) sent
  room := fun inData => absurd (same.symm.trans inData) dataless

/-- The URB is at the head of the queue. -/
structure Transferring (urb : Urb) (index : Nat) (state : HcState Core) : Prop where
  ring : ∃ rest : List Nat, Ring state.links .urbList ((index :: rest).map .urb)
  flags : (state.urbs index).flags = urb.flags
  buffer : (state.urbs index).transferBuffer = urb.transferBuffer
  length : (state.urbs index).transferLength = urb.transferLength
  stage : Control urb.flags → ControlStage index state

def Removed (index : Nat) (state : HcState Core) : Prop :=
  ∃ queue : List Nat, Ring state.links .urbList (queue.map .urb) ∧ index ∉ queue

/-- The code may return or stop in a fault. -/
def Leaves (code : Exec (HcState Core) Unit) (before after : HcState Core) : Prop :=
  code.run before = .ok () after ∨ ∃ reason, code.run before = .error reason after

theorem Leaves.unique {code : Exec (HcState Core) Unit} {before after other : HcState Core}
    (leaves : Leaves code before after) (again : Leaves code before other) : after = other := by
  rcases leaves with run | ⟨_, run⟩
  · rcases again with rerun | ⟨_, rerun⟩
    · cases run.symm.trans rerun
      rfl
    · cases run.symm.trans rerun
  · rcases again with rerun | ⟨_, rerun⟩
    · cases run.symm.trans rerun
    · cases run.symm.trans rerun
      rfl

/-- However it ends, the transfer goes on or is over, with these stores and
this many bytes received. -/
def Goes (urb : Urb) (index : Nat) (code : Exec (HcState Core) Unit) (state : HcState Core)
    (stores : List Nat) (received : Nat) : Prop :=
  ∀ after, Leaves code state after → (Transferring urb index after ∨ Removed index after) ∧
    after.stores = stores ∧ (after.urbs index).acctualLength = received

theorem Goes.of_ok {code : Exec (HcState Core) Unit} {state after : HcState Core}
    {stores : List Nat} {received : Nat}
    (stands : Transferring urb index after ∨ Removed index after)
    (run : code.run state = .ok () after) (stored : after.stores = stores)
    (acctual : (after.urbs index).acctualLength = received) :
    Goes urb index code state stores received := by
  rintro other (returns | ⟨reason, faults⟩)
  · cases run.symm.trans returns
    exact ⟨stands, stored, acctual⟩
  · cases run.symm.trans faults

theorem Goes.of_error {code : Exec (HcState Core) Unit} {state after : HcState Core}
    {stores : List Nat} {received : Nat} {reason : Fault}
    (stands : Transferring urb index after ∨ Removed index after)
    (run : code.run state = .error reason after) (stored : after.stores = stores)
    (acctual : (after.urbs index).acctualLength = received) :
    Goes urb index code state stores received := by
  rintro other (returns | ⟨reason, faults⟩)
  · cases run.symm.trans returns
  · cases run.symm.trans faults
    exact ⟨stands, stored, acctual⟩

theorem Goes.of_run {code later : Exec (HcState Core) Unit} {state between : HcState Core}
    {stores : List Nat} {received : Nat} (run : code.run state = later.run between)
    (goes : Goes urb index later between stores received) :
    Goes urb index code state stores received := by
  intro after leaves
  apply goes after
  rw [Leaves, ← run]
  exact leaves

/-! ## The other clients -/

/-- The URB is the first of the queue or not in it. -/
def HeadOrGone (index : Nat) (queue : List Nat) : Prop :=
  (∃ rest, queue = index :: rest) ∨ index ∉ queue

theorem gone_act {queue : List Nat} {action : ClientAction} (gone : index ∉ queue)
    (spares : ¬ action.Submits index) : index ∉ action.onQueue queue := by
  cases action with
  | submit other content =>
      intro member
      cases List.mem_append.mp member with
      | inl old => exact gone old
      | inr new => exact spares (List.mem_singleton.mp new).symm
  | cancel other => exact fun member => gone (List.mem_of_mem_erase member)

theorem gone_foldl : ∀ {actions : List ClientAction} {queue : List Nat}, index ∉ queue →
    (∀ action ∈ actions, ¬ action.Submits index) →
      index ∉ actions.foldl ClientAction.onQueue queue
  | [], _, gone, _ => gone
  | action :: rest, queue, gone, spares =>
      @gone_foldl rest (action.onQueue queue) (gone_act gone (spares action List.mem_cons_self))
        fun other member => spares other (List.mem_cons_of_mem _ member)

theorem HeadOrGone.act {queue : List Nat} {action : ClientAction}
    (stands : HeadOrGone index queue) (distinct : queue.Nodup)
    (spares : ¬ action.Submits index) : HeadOrGone index (action.onQueue queue) := by
  rcases stands with ⟨rest, rfl⟩ | gone
  · cases action with
    | submit other content => exact .inl ⟨rest ++ [other], rfl⟩
    | cancel other =>
        by_cases same : index = other
        · right
          change index ∉ (index :: rest).erase other
          rw [← same, List.erase_cons_head]
          exact (List.nodup_cons.mp distinct).1
        · left
          refine ⟨rest.erase other, ?_⟩
          change (index :: rest).erase other = _
          exact List.erase_cons_tail (by simpa using same)
  · exact .inr (gone_act gone spares)

theorem ClientAction.Fits.nodup {queue : List Nat} {action : ClientAction}
    (fits : action.Fits queue) (distinct : queue.Nodup) : (action.onQueue queue).Nodup := by
  cases action with
  | submit other content =>
      refine List.nodup_append.mpr ⟨distinct, List.nodup_singleton other, ?_⟩
      intro member inside single same equal
      rw [List.mem_singleton] at same
      exact fits (same ▸ equal ▸ inside)
  | cancel other => exact distinct.erase other

theorem headOrGone_foldl : ∀ {actions : List ClientAction} {queue : List Nat},
    HeadOrGone index queue → queue.Nodup → FitsAll queue actions →
      (∀ action ∈ actions, ¬ action.Submits index) →
      HeadOrGone index (actions.foldl ClientAction.onQueue queue)
  | [], _, stands, _, _, _ => stands
  | action :: _, queue, stands, distinct, fits, spares => by
      apply headOrGone_foldl (stands.act distinct (spares action List.mem_cons_self))
        (fits.1.nodup distinct) fits.2
      exact fun other member => spares other (List.mem_cons_of_mem _ member)

theorem ring_nodup {links : Links ListNode} {queue : List Nat}
    (ring : Ring links .urbList (queue.map .urb)) : queue.Nodup :=
  (List.nodup_cons.mp ring.distinct).2.of_map

theorem HeadOrGone.stands {state : HcState Core} {queue : List Nat}
    (head : HeadOrGone index queue) (ring : Ring state.links .urbList (queue.map .urb))
    (flags : (state.urbs index).flags = urb.flags)
    (buffer : (state.urbs index).transferBuffer = urb.transferBuffer)
    (length : (state.urbs index).transferLength = urb.transferLength)
    (stage : Control urb.flags → ControlStage index state) :
    Transferring urb index state ∨ Removed index state := by
  rcases head with ⟨rest, rfl⟩ | gone
  · exact .inl ⟨⟨rest, ring⟩, flags, buffer, length, stage⟩
  · exact .inr ⟨queue, ring, gone⟩

/-- A client at work while the URB is active. -/
theorem Transferring.perform {state : HcState Core} (transferring : Transferring urb index state)
    {action : ClientAction}
    (fits : ∀ queue : List Nat, Ring state.links .urbList (queue.map .urb) → action.Fits queue)
    (spares : ¬ action.Submits index) :
    Goes urb index (action.perform : Exec (HcState Core) Unit) state state.stores
      (state.urbs index).acctualLength := by
  rcases transferring.ring with ⟨rest, ring⟩
  rcases perform_acts ring (fits _ ring) with ⟨after, run, kept, acted, pipe⟩
  have pipe := pipe (List.cons_ne_nil _ _)
  have same : after.urbs index = state.urbs index :=
    acted.urbs index fun other member => List.mem_singleton.mp member ▸ spares
  have head : HeadOrGone index (action.onQueue (index :: rest)) :=
    HeadOrGone.act (.inl ⟨rest, rfl⟩) (ring_nodup ring) spares
  have stage : Control urb.flags → ControlStage index after := by
    intro control
    have stage := transferring.stage control
    constructor
    · rw [pipe.1, pipe.2]
      exact stage.fits
    · rw [pipe.1, same]
      exact stage.unread
    · rw [pipe.1, same]
      exact stage.room
  have stands := head.stands kept (same ▸ transferring.flags) (same ▸ transferring.buffer)
    (same ▸ transferring.length) stage
  exact .of_ok stands run acted.stores (congrArg Urb.acctualLength same)

/-! ## The end of the transfer -/

theorem endUrb_goes {state : HcState Core} {rest : List Nat} {actions : List ClientAction}
    (ring : Ring state.links .urbList ((index :: rest).map .urb))
    (flags : (state.urbs index).flags = urb.flags)
    (buffer : (state.urbs index).transferBuffer = urb.transferBuffer)
    (length : (state.urbs index).transferLength = urb.transferLength)
    (fits : FitsAll (queueInCallback urb.flags (index :: rest)) actions)
    (spares : ∀ action ∈ actions, ¬ action.Submits index) (status : UrbStatus) :
    Goes urb index (@usbhcEndUrb Core (fun _ => performAll actions) index status) state
      state.stores (state.urbs index).acctualLength := by
  have distinct := ring_nodup ring
  have called : ∀ cleared : HcState Core, cleared.urbs = state.urbs →
      (whenCalled index status cleared).urbs index =
        { state.urbs index with status := status } := by
    intro cleared same
    change Function.update cleared.urbs index _ index = _
    rw [Function.update_self, same]
  by_cases interruptIn : urb.flags &&& urbFlagsInterruptIn ≠ 0
  · rw [queueInCallback, if_pos interruptIn] at fits
    have queued : Ring (whenCalled index status state).links .urbList
      ((index :: rest).map .urb) := ring
    rcases performAll_acts queued fits with ⟨after, run, kept, acted⟩
    have content := (acted.urbs index spares).trans (called state rfl)
    have head := headOrGone_foldl (.inl ⟨rest, rfl⟩) distinct fits spares
    have ended : (@usbhcEndUrb Core (fun _ => performAll actions) index status).run state =
        .ok () after := by
      rw [usbhcEndUrb_interruptIn (flags ▸ interruptIn)]
      exact run
    have stands : Transferring urb index after ∨ Removed index after := by
      apply head.stands kept
      · rw [content]
        exact flags
      · rw [content]
        exact buffer
      · rw [content]
        exact length
      · exact fun control => absurd interruptIn control.2
    exact .of_ok stands ended acted.stores (by rw [content])
  · rw [queueInCallback, if_neg interruptIn] at fits
    rcases @usbhcEndUrb_unlinked Core (fun _ => performAll actions) index rest status state ring
        (flags ▸ interruptIn) with ⟨links, _, shorter, finish⟩
    have queued : Ring (whenCalled index status
        { state.setPipeState .idle with links := links }).links .urbList (rest.map .urb) :=
      shorter
    rcases performAll_acts queued fits with ⟨between, returns, kept, acted⟩
    have content := (acted.urbs index spares).trans
      (called { state.setPipeState .idle with links := links } rfl)
    have parts := List.nodup_cons.mp distinct
    have gone : index ∉ actions.foldl ClientAction.onQueue rest := gone_foldl parts.1 spares
    rcases finish between _ returns kept with
      ⟨after, run, ⟨rfl, _⟩ | ⟨next, others, queue, _, started⟩⟩
    · exact .of_ok (.inr ⟨_, kept, gone⟩) run acted.stores (by rw [content])
    · have apart : index ≠ next := by
        rintro rfl
        rw [queue] at gone
        exact gone List.mem_cons_self
      have same : after.urbs index = { state.urbs index with status := status } := by
        rw [started.urbs, Function.update_of_ne apart]
        exact content
      exact .of_ok (.inr ⟨_, started.links ▸ kept, gone⟩) run
        (started.stores.trans acted.stores) (by rw [same])

/-! ## Interrupts -/

theorem Transferring.first {state : HcState Core} (transferring : Transferring urb index state) :
    (@firstUrb Core).run state = .ok index state := by
  rcases transferring.ring with ⟨rest, ring⟩
  exact run_firstUrb ring.next_cons

/-- Another stage of the same transfer. -/
theorem Transferring.advance {state after : HcState Core}
    (transferring : Transferring urb index state) (links : after.links = state.links)
    (urbs : after.urbs = state.urbs) (stage : Control urb.flags → ControlStage index after) :
    Transferring urb index after where
  ring := links ▸ transferring.ring
  flags := urbs ▸ transferring.flags
  buffer := urbs ▸ transferring.buffer
  length := urbs ▸ transferring.length
  stage := stage

theorem Transferring.setupSent {state : HcState Core}
    (transferring : Transferring urb index state) (quiet : state.pending = none) :
    Goes urb index (@usbhcPipeSetupSent Core) state state.stores
      (state.urbs index).acctualLength := by
  have first := transferring.first
  by_cases sent : state.pipe.state = .ctrlOut
  · by_cases data : (state.urbs index).transferLength ≠ 0
    · by_cases towardsHost : (state.urbs index).TowardsHost
      · have next : Transferring urb index
            ((state.setPipeState .dataIn).setPending (some .dataIn)) :=
          transferring.advance rfl rfl fun control => {
            fits := .inl rfl
            unread := fun started => by cases started
            room := fun _ => by
              have unread := (transferring.stage control).unread sent
              change (state.urbs index).acctualLength < (state.urbs index).transferLength
              rw [unread]
              exact Nat.pos_of_ne_zero data }
        exact .of_ok (.inl next) (run_usbhcPipeSetupSent_in first sent data towardsHost) rfl rfl
      · have next : Transferring urb index (state.setPipeState .dataOut) :=
          transferring.advance rfl rfl fun _ =>
            .of_state .dataOut rfl (by decide) (by decide) (by
              change PendingFits state.pending _
              rw [quiet]
              trivial)
        exact .of_ok (.inl next) (run_usbhcPipeSetupSent_out first sent data towardsHost) rfl rfl
    · have next : Transferring urb index
          ((state.setPipeState .zlpIn).setPending (some .dataIn)) :=
        transferring.advance rfl rfl fun _ =>
          .of_state .zlpIn rfl (by decide) (by decide) (.inr rfl)
      exact .of_ok (.inl next) (run_usbhcPipeSetupSent_status first sent data) rfl rfl
  · have run : (@usbhcPipeSetupSent Core).run state = .error (.panic "State error") state := by
      rw [usbhcPipeSetupSent, Exec.run_bind_of_ok (EStateM.run_get state), if_pos sent]
      rfl
    exact .of_error (.inl transferring) run rfl rfl

theorem afterIn_urb (index : Nat) (state : HcState Core) :
    (afterIn index state).urbs index =
      { state.urbs index with acctualLength := (copiedIn index state).acctualLength } :=
  Function.update_self ..

/-- A data packet: it is stored, whatever happens to the URB then. -/
theorem Transferring.receiveData {state : HcState Core}
    (transferring : Transferring urb index state) (quiet : state.pending = none)
    (data : state.pipe.state ≠ .zlpIn) (inData : Control urb.flags → state.pipe.state = .dataIn)
    {actions : List ClientAction}
    (fits : ∀ rest : List Nat, Ring state.links .urbList ((index :: rest).map .urb) →
      FitsAll (queueInCallback urb.flags (index :: rest)) actions)
    (spares : ∀ action ∈ actions, ¬ action.Submits index) :
    Goes urb index (usbhcPipeReceiveIn fun _ => performAll actions) state
      (copiedIn index state).stores (copiedIn index state).acctualLength := by
  rcases transferring.ring with ⟨rest, ring⟩
  let received := Usb.afterIn index state
  have content := afterIn_urb index state
  have flags : (received.urbs index).flags = urb.flags := by
    rw [content]
    exact transferring.flags
  have buffer : (received.urbs index).transferBuffer = urb.transferBuffer := by
    rw [content]
    exact transferring.buffer
  have length : (received.urbs index).transferLength = urb.transferLength := by
    rw [content]
    exact transferring.length
  have acctual : (received.urbs index).acctualLength = (copiedIn index state).acctualLength := by
    rw [content]
  have ended : Goes urb index (@usbhcEndUrb Core (fun _ => performAll actions) index .ok)
      received received.stores (received.urbs index).acctualLength :=
    @endUrb_goes Core index urb received rest actions ring flags buffer length (fits rest ring)
      spares .ok
  rw [← acctual]
  change Goes urb index _ state received.stores _
  by_cases full : state.fifo.count state.reads % 2 ^ 11 = state.pipe.epSize
  · have entered := @run_usbhcPipeReceiveIn_full Core index state (fun _ => performAll actions)
      transferring.first data full
    by_cases enough : (received.urbs index).transferLength ≤ (received.urbs index).acctualLength
    · rw [if_pos enough] at entered
      exact .of_run entered ended
    · rw [if_neg enough] at entered
      have more : Transferring urb index (received.setPending (some .dataIn)) :=
        ⟨⟨rest, ring⟩, flags, buffer, length, fun control => {
          fits := .inl (inData control)
          unread := fun started => by cases (inData control).symm.trans started
          room := fun _ => Nat.lt_of_not_le enough }⟩
      exact .of_ok (.inl more) entered rfl rfl
  · have entered := @run_usbhcPipeReceiveIn_short Core index state (fun _ => performAll actions)
      transferring.first data full
    by_cases control : state.pipe.type = .ctrl
    · rw [if_pos control] at entered
      let counted : HcState Core :=
        { received.setPipeState .zlpOut with reads := received.reads + 1 }
      by_cases left : received.fifo.count received.reads % 2 ^ 11 ≠ 0
      · have stopped : Transferring urb index counted :=
          ⟨⟨rest, ring⟩, flags, buffer, length, fun _ =>
            .of_state .zlpOut rfl (by decide) (by decide) (by
              change PendingFits state.pending _
              rw [quiet]
              trivial)⟩
        exact .of_error (.inl stopped) (entered.trans (run_statusOut_left left)) rfl rfl
      · have status : Transferring urb index (counted.setPending (some .dataOut)) :=
          ⟨⟨rest, ring⟩, flags, buffer, length, fun _ =>
            .of_state .zlpOut rfl (by decide) (by decide) rfl⟩
        exact .of_ok (.inl status) (entered.trans (run_statusOut_empty left)) rfl rfl
    · rw [if_neg control] at entered
      exact .of_run entered ended

theorem Transferring.transmitOut {state : HcState Core}
    (transferring : Transferring urb index state) {actions : List ClientAction}
    (fits : ∀ rest : List Nat, Ring state.links .urbList ((index :: rest).map .urb) →
      FitsAll (queueInCallback urb.flags (index :: rest)) actions)
    (spares : ∀ action ∈ actions, ¬ action.Submits index) :
    Goes urb index (usbhcTransmitOut fun _ => performAll actions) state state.stores
      (state.urbs index).acctualLength := by
  rcases transferring.ring with ⟨rest, ring⟩
  by_cases status : state.pipe.state = .zlpOut
  · have ended := endUrb_goes ring transferring.flags transferring.buffer transferring.length
      (fits rest ring) spares .ok
    exact .of_run (run_usbhcTransmitOut_status transferring.first status) ended
  · have run : (usbhcTransmitOut fun _ => performAll actions).run state = .ok () state := by
      rw [usbhcTransmitOut, Exec.run_bind_of_ok (EStateM.run_get state), if_neg status]
      rfl
    exact .of_ok (.inl transferring) run rfl rfl

/-! ## Events -/

/-- An interrupt comes from the transaction under way; the requests of a URB of
continuous IN requests do not end. -/
def PipeEvent.Raised (index : Nat) (state : HcState Core) : PipeEvent → Prop
  | .client _ => True
  | .interrupt kind _ => state.pending = some kind.token ∨
      kind = .rxIn ∧ (state.urbs index).flags &&& urbFlagsInterruptIn ≠ 0

/-- The clients keep to the queue; a submission of the URB itself would begin
another transfer. -/
def PipeEvent.Keeps (index : Nat) (flags : Nat) (queue : List Nat) : PipeEvent → Prop
  | .client action => action.Fits queue ∧ ¬ action.Submits index
  | .interrupt _ actions => FitsAll (queueInCallback flags queue) actions ∧
      ∀ action ∈ actions, ¬ action.Submits index

/-- An event of the transfer, which may end in a panic. -/
structure TransferStep (index : Nat) (before : HcState Core) (event : PipeEvent)
    (after : HcState Core) : Prop where
  queued : before.links.next .urbList = some (.urb index)
  raised : event.Raised index before
  keeps : ∀ queue : List Nat, Ring before.links .urbList (queue.map .urb) →
    event.Keeps index (before.urbs index).flags queue
  handled : Leaves event.handle before after

/-- A data packet with bytes in it belongs to a control transfer or finds the
transfer short of its length. -/
def PipeEvent.FindsRoom (index : Nat) (state : HcState Core) : PipeEvent → Prop
  | .client _ => True
  | .interrupt kind _ => kind = .rxIn → state.pipe.state ≠ .zlpIn →
      state.fifo.count state.reads % 2 ^ 11 ≠ 0 →
        Control (state.urbs index).flags ∨
          (state.urbs index).acctualLength < (state.urbs index).transferLength

structure RoomStep (index : Nat) (before : HcState Core) (event : PipeEvent)
    (after : HcState Core) : Prop where
  step : TransferStep index before event after
  room : event.FindsRoom index before

/-- The URB holds no more than it has asked for. -/
def Bounded (urb : Urb) (index : Nat) (state : HcState Core) : Prop :=
  (state.urbs index).acctualLength ≤ urb.transferLength

/-- What a step stores lies in the buffer when the packet finds room, and
otherwise does not. -/
structure Stored (urb : Urb) (index : Nat) (before : HcState Core) (event : PipeEvent)
    (after : HcState Core) : Prop where
  stands : Transferring urb index after ∨ Removed index after
  adds : ∃ stores, after.stores = before.stores ++ stores ∧
    (Bounded urb index before → event.FindsRoom index before →
      InTransfer urb stores ∧ Bounded urb index after) ∧
    (Bounded urb index before → ¬ event.FindsRoom index before → ¬ InTransfer urb stores)

theorem Transferring.received {state : HcState Core}
    (transferring : Transferring urb index state)
    (bound : urb.transferBuffer + urb.transferLength ≤ 2 ^ 32)
    (room : (state.urbs index).acctualLength < urb.transferLength) :
    ∃ stores, (copiedIn index state).stores = state.stores ++ stores ∧
      InTransfer urb stores ∧ (copiedIn index state).acctualLength ≤ urb.transferLength := by
  have within : (state.urbs index).transferBuffer + (state.urbs index).transferLength ≤ 2 ^ 32 := by
    rw [transferring.buffer, transferring.length]
    exact bound
  have short : (state.urbs index).acctualLength < (state.urbs index).transferLength := by
    rw [transferring.length]
    exact room
  let empty : Copied := {
    memory := state.memory
    stores := state.stores
    acctualLength := (state.urbs index).acctualLength }
  rcases @copyIn_inTransfer (state.urbs index) (state.fifo.data state.reads)
    (state.fifo.count state.reads % 2 ^ 11) empty within short with ⟨stores, added, inside⟩
  refine ⟨stores, added, ?_, ?_⟩
  · rw [InTransfer, transferring.buffer, transferring.length] at inside
    exact inside
  · have length := copyIn_acctualLength (state.urbs index) (state.fifo.data state.reads)
      (state.fifo.count state.reads % 2 ^ 11) empty short
    change (copyIn _ _ _ empty).acctualLength ≤ _
    rw [length, transferring.length]
    exact Nat.min_le_left _ _

/-- A packet behind the whole transfer goes past the buffer. -/
theorem past_not_inTransfer {stores : List Nat} (small : urb.transferLength < 2 ^ 32)
    (bound : urb.transferBuffer + urb.transferLength ≤ 2 ^ 32)
    (past : u32 (urb.transferBuffer + urb.transferLength) ∈ stores) :
    ¬ InTransfer urb stores := by
  intro inside
  have range := inside _ past
  rw [u32] at range
  by_cases top : urb.transferBuffer + urb.transferLength = 2 ^ 32
  · rw [top, Nat.mod_self] at range
    omega
  · rw [Nat.mod_eq_of_lt (by omega)] at range
    omega

theorem Transferring.packet {state : HcState Core}
    (transferring : Transferring urb index state)
    (bound : urb.transferBuffer + urb.transferLength ≤ 2 ^ 32)
    (small : urb.transferLength < 2 ^ 32) :
    ∃ stores, (copiedIn index state).stores = state.stores ++ stores ∧
      (Bounded urb index state →
        (state.fifo.count state.reads % 2 ^ 11 ≠ 0 →
          (state.urbs index).acctualLength < (state.urbs index).transferLength) →
        InTransfer urb stores ∧ (copiedIn index state).acctualLength ≤ urb.transferLength) ∧
      (Bounded urb index state → state.fifo.count state.reads % 2 ^ 11 ≠ 0 →
        ¬ (state.urbs index).acctualLength < (state.urbs index).transferLength →
        ¬ InTransfer urb stores) := by
  by_cases room : (state.urbs index).acctualLength < (state.urbs index).transferLength
  · rcases transferring.received bound (transferring.length ▸ room) with
      ⟨stores, added, inside, limited⟩
    exact ⟨stores, added, fun _ _ => ⟨inside, limited⟩, fun _ _ full => absurd room full⟩
  · by_cases some_ : state.fifo.count state.reads % 2 ^ 11 ≠ 0
    · rcases copyIn_adds (state.urbs index) (state.fifo.data state.reads)
        (state.fifo.count state.reads % 2 ^ 11) {
          memory := state.memory
          stores := state.stores
          acctualLength := (state.urbs index).acctualLength } with ⟨stores, added, past⟩
      refine ⟨stores, added, fun _ finds => absurd (finds some_) room, fun bounded _ _ => ?_⟩
      have full : (state.urbs index).acctualLength = urb.transferLength := by
        rw [transferring.length] at room
        exact Nat.le_antisymm bounded (Nat.le_of_not_lt room)
      have past := past some_
      rw [transferring.buffer, full] at past
      exact past_not_inTransfer small bound past
    · have none_ : copiedIn index state = {
          memory := state.memory
          stores := state.stores
          acctualLength := (state.urbs index).acctualLength } := by
        rw [copiedIn, not_not.mp some_]
        rfl
      refine ⟨[], ?_, fun bounded _ => ⟨?_, ?_⟩, fun _ bytes => absurd bytes some_⟩
      · rw [none_, List.append_nil]
      · exact fun _ member => absurd member List.not_mem_nil
      · rw [none_]
        exact bounded

/-! ## One event -/

theorem Goes.stored {event : PipeEvent} {before after : HcState Core}
    (goes : Goes urb index event.handle before before.stores (before.urbs index).acctualLength)
    (finds : event.FindsRoom index before) (handled : Leaves event.handle before after) :
    Stored urb index before event after := by
  rcases goes after handled with ⟨stands, stored, received⟩
  refine ⟨stands, [], ?_, fun bounded _ => ⟨?_, ?_⟩, fun _ lacks => absurd finds lacks⟩
  · rw [stored, List.append_nil]
  · exact fun _ member => absurd member List.not_mem_nil
  · rw [Bounded, received]
    exact bounded

theorem Transferring.quieten {state : HcState Core}
    (transferring : Transferring urb index state) :
    Transferring urb index (state.setPending none) :=
  transferring.advance rfl rfl fun control => { transferring.stage control with fits := trivial }

theorem Transferring.step {before after : HcState Core} {event : PipeEvent}
    (transferring : Transferring urb index before)
    (bound : urb.transferBuffer + urb.transferLength ≤ 2 ^ 32)
    (small : urb.transferLength < 2 ^ 32) (step : TransferStep index before event after) :
    Stored urb index before event after := by
  have keeps := step.keeps
  rw [transferring.flags] at keeps
  rcases transferring.ring with ⟨queued, ring⟩
  have here := keeps (index :: queued) ring
  cases event with
  | client action =>
      exact (transferring.perform (fun queue linked => (keeps queue linked).1) here.2).stored
        trivial step.handled
  | interrupt kind actions =>
      have quieted := transferring.quieten
      have fits : ∀ rest : List Nat,
          Ring (before.setPending none).links .urbList ((index :: rest).map .urb) →
            FitsAll (queueInCallback urb.flags (index :: rest)) actions :=
        fun rest linked => (keeps (index :: rest) linked).1
      cases kind with
      | txSetup =>
          have goes : Goes urb index (PipeEvent.interrupt .txSetup actions).handle before
              before.stores (before.urbs index).acctualLength :=
            .of_run (run_exception_txSetup (fun _ => performAll actions) before)
              (quieted.setupSent rfl)
          exact goes.stored (fun receives => by cases receives) step.handled
      | txOut =>
          have goes : Goes urb index (PipeEvent.interrupt .txOut actions).handle before
              before.stores (before.urbs index).acctualLength :=
            .of_run (run_exception_txOut _ before) (quieted.transmitOut fits here.2)
          exact goes.stored (fun receives => by cases receives) step.handled
      | rxIn =>
          by_cases status : before.pipe.state = .zlpIn
          · have inStatus : (before.setPending none).pipe.state = .zlpIn := status
            have entered : (PipeEvent.interrupt .rxIn actions).handle.run before =
                (@usbhcEndUrb Core (fun _ => performAll actions) index .ok).run
                  (before.setPending none) :=
              (run_exception_rxIn _ before).trans
                (run_usbhcPipeReceiveIn_status quieted.first inStatus)
            have goes : Goes urb index (PipeEvent.interrupt .rxIn actions).handle before
                before.stores (before.urbs index).acctualLength :=
              .of_run entered (@endUrb_goes Core index urb (before.setPending none) queued actions
                ring transferring.flags transferring.buffer transferring.length here.1 here.2 .ok)
            exact goes.stored (fun _ data => absurd status data) step.handled
          · have inData : Control urb.flags → before.pipe.state = .dataIn := by
              intro control
              have stage := (transferring.stage control).fits
              rcases step.raised with pending | ⟨_, interruptIn⟩
              · rw [pending] at stage
                exact stage.resolve_right status
              · rw [transferring.flags] at interruptIn
                exact absurd interruptIn control.2
            have goes : Goes urb index (PipeEvent.interrupt .rxIn actions).handle before
                (copiedIn index before).stores (copiedIn index before).acctualLength :=
              .of_run (run_exception_rxIn _ before)
                (quieted.receiveData rfl status inData fits here.2)
            rcases goes after step.handled with ⟨stands, stored, received⟩
            rcases transferring.packet bound small with ⟨stores, added, inside, outside⟩
            refine ⟨stands, stores, stored.trans added, fun bounded finds => ?_,
              fun bounded lacks => ?_⟩
            · rw [Bounded, received]
              apply inside bounded
              intro bytes
              rcases finds rfl status bytes with control | room
              · rw [transferring.flags] at control
                exact (transferring.stage control).room (inData control)
              · exact room
            · have bytes : before.fifo.count before.reads % 2 ^ 11 ≠ 0 := by
                intro none_
                exact lacks fun _ _ bytes => absurd none_ bytes
              apply outside bounded bytes
              exact fun room => lacks fun _ _ _ => .inr room

/-! ## Whole runs -/

theorem Removed.not_queued {state : HcState Core} (removed : Removed index state) :
    state.links.next .urbList ≠ some (.urb index) := by
  rcases removed with ⟨queue, ring, gone⟩
  intro first
  cases queue with
  | nil => cases ring.next_nil.symm.trans first
  | cons head rest =>
      cases ring.next_cons.symm.trans first
      exact gone List.mem_cons_self

theorem Transferring.of_step {before after : HcState Core} {event : PipeEvent}
    (stands : Transferring urb index before ∨ Removed index before)
    (step : TransferStep index before event after) : Transferring urb index before :=
  stands.resolve_right fun removed => removed.not_queued step.queued

theorem transfer_adds {first last : HcState Core} {events : List PipeEvent}
    (bound : urb.transferBuffer + urb.transferLength ≤ 2 ^ 32)
    (small : urb.transferLength < 2 ^ 32) (run : Run (TransferStep index) first events last)
    (stands : Transferring urb index first ∨ Removed index first) :
    ∃ stores, last.stores = first.stores ++ stores := by
  induction run with
  | nil => exact ⟨[], (List.append_nil _).symm⟩
  | cons step _ induction =>
      have stored := (Transferring.of_step stands step).step bound small step
      rcases stored.adds with ⟨added, early, _, _⟩
      rcases induction stored.stands with ⟨later, late⟩
      exact ⟨added ++ later, by rw [late, early, List.append_assoc]⟩

theorem transfer_iff {first last : HcState Core} {events : List PipeEvent}
    (bound : urb.transferBuffer + urb.transferLength ≤ 2 ^ 32)
    (small : urb.transferLength < 2 ^ 32) (run : Run (TransferStep index) first events last)
    (stands : Transferring urb index first ∨ Removed index first)
    (inside : InTransfer urb first.stores) (bounded : Bounded urb index first) :
    InTransfer urb last.stores ∧ Bounded urb index last ↔
      Run (RoomStep index) first events last := by
  induction run with
  | nil => exact ⟨fun _ => .nil _, fun _ => ⟨inside, bounded⟩⟩
  | @cons first middle last event events step rest induction =>
      have stored := (Transferring.of_step stands step).step bound small step
      rcases stored.adds with ⟨added, early, fits, overruns⟩
      constructor
      · intro whole
        rcases transfer_adds bound small rest stored.stands with ⟨later, late⟩
        have upTo := whole.1
        rw [late, early, inTransfer_append, inTransfer_append] at upTo
        have finds : event.FindsRoom index first := by
          by_contra lacks
          exact overruns bounded lacks upTo.1.2
        have here : InTransfer urb middle.stores := by
          rw [early]
          exact inTransfer_append.mpr upTo.1
        exact .cons ⟨step, finds⟩
          ((induction stored.stands here (fits bounded finds).2).mp whole)
      · intro finding
        cases finding with
        | @cons _ between _ _ _ room later =>
            cases step.handled.unique room.step.handled
            rcases fits bounded room.room with ⟨addedInside, limited⟩
            have here : InTransfer urb middle.stores := by
              rw [early]
              exact inTransfer_append.mpr ⟨inside, addedInside⟩
            exact (induction stored.stands here limited).mpr later

/-- A transfer that has just been started. -/
theorem Started.transferring {before first : HcState Core} {rest : List Nat}
    (started : Started index before first)
    (ring : Ring before.links .urbList ((index :: rest).map .urb))
    (quiet : before.pending = none) : Transferring (before.urbs index) index first := by
  have content : first.urbs index = { before.urbs index with acctualLength := 0 } := by
    rw [started.urbs, Function.update_self]
  refine ⟨⟨rest, started.links ▸ ring⟩, by rw [content], by rw [content], by rw [content], ?_⟩
  intro control
  have setup := started.setup control.1
  constructor
  · rw [setup.1]
    rcases setup.2 with same | sent
    · rw [same, quiet]
      trivial
    · rw [sent]
      rfl
  · rw [content]
    exact fun _ => rfl
  · rw [setup.1]
    intro inData
    cases inData

/-- From its start on, and until a URB is removed from the queue, the packets
are stored inside its buffer and it holds no more than its length exactly when
every data packet with bytes in it belongs to a control transfer or finds the
transfer short of its length. -/
theorem in_packets_inside_iff {Core : Type} {index : Nat} {before first last : HcState Core}
    {rest : List Nat} {events : List PipeEvent}
    (bound : (before.urbs index).transferBuffer + (before.urbs index).transferLength ≤ 2 ^ 32)
    (small : (before.urbs index).transferLength < 2 ^ 32)
    (queue : Ring before.links .urbList ((index :: rest).map .urb))
    (quiet : before.pending = none) (unused : before.stores = [])
    (begun : (usbhcStartUrb index).run before = .ok () first)
    (run : Run (TransferStep index) first events last) :
    InTransfer (before.urbs index) last.stores ∧
        (last.urbs index).acctualLength ≤ (before.urbs index).transferLength ↔
      Run (RoomStep index) first events last := by
  rcases usbhcStartUrb_started index before with ⟨same, ran, started⟩
  cases begun.symm.trans ran
  apply transfer_iff bound small run (.inl (started.transferring queue quiet))
  · rw [started.stores, unused]
    exact fun _ member => absurd member List.not_mem_nil
  · rw [Bounded, started.urbs, Function.update_self]
    exact Nat.zero_le _

/-! ## A URB of continuous IN requests -/

/-- Reports of eight bytes, and a buffer for one of them. -/
def reportUrb : Urb where
  flags := urbFlagsInterruptIn
  setupBuffer := .replicate 8 0
  transferBuffer := 0x20400000
  transferLength := 8
  acctualLength := 0
  status := .ok

def reportPipe : HcState Unit where
  pipe := { state := .idle, type := .ctrl, epSize := 8 }
  links := (Links.init ⟨fun _ => none, fun _ => none⟩ .urbList).add (.urb 0) .urbList .urbList
  urbs := fun _ => reportUrb
  memory := fun _ => 0
  core := ()
  fifo := { count := fun _ => 8, data := fun _ _ => 0 }
  reads := 0
  pending := none
  stores := []
  trace := []

theorem reportPipe_queue : Ring reportPipe.links .urbList ([0].map .urb) :=
  ⟨⟨rfl, rfl, rfl, rfl⟩, by decide⟩

def stateAfter (code : Exec (HcState Unit) Unit) (state : HcState Unit) : HcState Unit :=
  match code.run state with
  | .ok _ after => after
  | .error _ after => after

def listening : HcState Unit := stateAfter (usbhcStartUrb 0) reportPipe

def report : PipeEvent := .interrupt .rxIn []

def reportedOnce : HcState Unit := stateAfter report.handle listening

def reportedTwice : HcState Unit := stateAfter report.handle reportedOnce

theorem reported_once : TransferStep 0 listening report reportedOnce where
  queued := rfl
  raised := .inl rfl
  keeps := fun _ _ => ⟨trivial, fun _ member => absurd member List.not_mem_nil⟩
  handled := .inl rfl

theorem reported_twice : TransferStep 0 reportedOnce report reportedTwice where
  queued := rfl
  raised := .inr ⟨rfl, by decide⟩
  keeps := fun _ _ => ⟨trivial, fun _ member => absurd member List.not_mem_nil⟩
  handled := .inl rfl

theorem in_packets_inside_iff_reported :
    InTransfer reportUrb reportedOnce.stores ∧ (reportedOnce.urbs 0).acctualLength ≤ 8 ↔
      Run (RoomStep 0) listening [report] reportedOnce :=
  in_packets_inside_iff (by decide) (by decide) reportPipe_queue rfl rfl rfl
    (.cons reported_once (.nil _))

/-- The second report goes behind the buffer. -/
theorem second_report_overruns :
    Ring reportPipe.links .urbList ([0].map .urb) ∧
      (usbhcStartUrb 0).run reportPipe = .ok () listening ∧
      Run (TransferStep 0) listening [report, report] reportedTwice ∧
      ¬ (InTransfer reportUrb reportedTwice.stores ∧
        (reportedTwice.urbs 0).acctualLength ≤ reportUrb.transferLength) := by
  refine ⟨reportPipe_queue, rfl, .cons reported_once (.cons reported_twice (.nil _)), ?_⟩
  rintro ⟨_, limited⟩
  have received : (reportedTwice.urbs 0).acctualLength = 16 := rfl
  rw [received] at limited
  exact absurd limited (by decide)

end Vanilla.Usb
