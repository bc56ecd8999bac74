import Vanilla.Usb.Enumeration
import Vanilla.Usb.UrbQueue

namespace Vanilla.Usb

/-! Where the answers of a device are stored during enumeration. The requests
ask for what the buffer holds, except that for all descriptors: it asks for the
length that the device has reported. -/

variable {enumBuffer index : Nat}

/-! ## Stores of a packet -/

def InBuffer (enumBuffer : Nat) (stores : List Nat) : Prop :=
  ∀ address ∈ stores, enumBuffer ≤ address ∧ address < enumBuffer + usbEnumBufferSize

theorem inBuffer_append {early late : List Nat} :
    InBuffer enumBuffer (early ++ late) ↔ InBuffer enumBuffer early ∧ InBuffer enumBuffer late := by
  rw [InBuffer, List.forall_mem_append]
  rfl

/-- A packet is stored behind what has been received, up to the length. -/
theorem copyIn_stores (urb : Urb) (data : Nat → UInt8) :
    ∀ (count : Nat) (copied : Copied), copied.acctualLength < urb.transferLength →
      (copyIn urb data count copied).stores = copied.stores ++
        (List.range' copied.acctualLength
          (min count (urb.transferLength - copied.acctualLength))).map
            fun offset => u32 (urb.transferBuffer + offset)
  | 0, copied, room => by
      rw [copyIn, Nat.zero_min, List.range'_zero, List.map_nil, List.append_nil]
  | count + 1, copied, room => by
      rw [copyIn]
      by_cases full : copied.acctualLength + 1 = urb.transferLength
      · have one : min (count + 1) (urb.transferLength - copied.acctualLength) = 1 := by omega
        rw [if_pos full, one]
        rfl
      · have more : min (count + 1) (urb.transferLength - copied.acctualLength) =
            min count (urb.transferLength - (copied.acctualLength + 1)) + 1 := by omega
        rw [if_neg full, copyIn_stores urb data count _ (by change _ + 1 < _; omega), more,
          List.range'_succ, List.map_cons, List.append_assoc]
        rfl

theorem offset_inBuffer_iff {offset : Nat} (bound : enumBuffer + usbEnumBufferSize ≤ 2 ^ 32)
    (small : offset < 2 ^ 32) :
    enumBuffer ≤ u32 (enumBuffer + offset) ∧
        u32 (enumBuffer + offset) < enumBuffer + usbEnumBufferSize ↔
      offset < usbEnumBufferSize := by
  rw [u32]
  simp only [usbEnumBufferSize] at bound ⊢
  omega

theorem offsets_inBuffer_iff {first length : Nat}
    (bound : enumBuffer + usbEnumBufferSize ≤ 2 ^ 32) (small : first + length ≤ 2 ^ 32) :
    InBuffer enumBuffer
        ((List.range' first length).map fun offset => u32 (enumBuffer + offset)) ↔
      length = 0 ∨ first + length ≤ usbEnumBufferSize := by
  rw [InBuffer, List.forall_mem_map]
  constructor
  · intro inside
    cases length with
    | zero => exact .inl rfl
    | succ earlier =>
        right
        have below : first + earlier < 2 ^ 32 := by omega
        have last := inside (first + earlier) (List.mem_range'_1.mpr (by omega))
        exact (offset_inBuffer_iff bound below).mp last
  · intro fits offset member
    have range := List.mem_range'_1.mp member
    exact (offset_inBuffer_iff bound (by omega)).mpr (by omega)

/-! ## Requests -/

/-- A request is in the queue, and its answer goes to the buffer. -/
structure Asking (enumBuffer index : Nat) (state : UsbState) : Prop where
  ring : Ring state.links .urbList [.urb index]
  flags : (state.urbs index).flags = urbFlagsSetup
  buffer : (state.urbs index).transferBuffer = enumBuffer
  small : (state.urbs index).transferLength < 2 ^ 16
  limited : state.core.enumState ≠ .getDescriptors →
    (state.urbs index).transferLength ≤ usbEnumBufferSize
  reported : state.core.enumState = .getDescriptors →
    (state.urbs index).transferLength = state.core.enumDev.parsed.descTotalSize
  active : state.pipe.state ≠ .idle
  fits : PendingFits state.pending state.pipe.state
  none_ : state.pipe.state = .zlpIn → (state.urbs index).transferLength = 0
  unread : state.pipe.state = .ctrlOut → (state.urbs index).acctualLength = 0
  room : state.pipe.state = .dataIn →
    (state.urbs index).acctualLength < (state.urbs index).transferLength

/-- The URB has been answered and taken out of the queue. -/
structure Answered (state : UsbState) : Prop where
  ring : Ring state.links .urbList []
  idle : state.pipe.state = .idle
  quiet : state.pending = none

theorem field16_bytes {value : Nat} (small : value < 2 ^ 16) :
    field16 (UInt8.ofNat value) (UInt8.ofNat (value >>> 8)) = value := by
  rw [field16, UInt8.toNat_ofNat', UInt8.toNat_ofNat', Nat.shiftRight_eq_div_pow,
    Nat.shiftLeft_eq]
  omega

theorem field16_small (low high : UInt8) : field16 low high < 2 ^ 16 := by
  have lowBound := low.toNat_lt
  have highBound := high.toNat_lt
  rw [field16, Nat.shiftLeft_eq]
  omega

theorem filled_transferLength (setup : SetupDesc) (urb : Urb) (small : setup.wLength < 2 ^ 16) :
    (usbhcFillControlUrb setup enumBuffer urb).transferLength = setup.wLength :=
  field16_bytes small

/-- A request on an empty queue is started at once. -/
theorem usbcRequest_asking {state : UsbState} (answered : Answered state) {setup : SetupDesc}
    (small : setup.wLength < 2 ^ 16)
    (limited : state.core.enumState ≠ .getDescriptors → setup.wLength ≤ usbEnumBufferSize)
    (reported : state.core.enumState = .getDescriptors →
      setup.wLength = state.core.enumDev.parsed.descTotalSize) :
    ∃ after, (usbcRequest enumBuffer index setup).run state = .ok () after ∧
      Asking enumBuffer index after ∧ after.stores = state.stores := by
  let filled := state.setUrb index (usbhcFillControlUrb setup enumBuffer (state.urbs index))
  have urb : filled.urbs index = usbhcFillControlUrb setup enumBuffer (state.urbs index) :=
    Function.update_self ..
  have fresh : ListNode.urb index ∉ [ListNode.urbList] := by simp
  rcases answered.ring.addLast fresh with ⟨links, added, ring⟩
  let submitted := ({ filled with links := links }.record (.submitted index) : UsbState)
  have flags : (submitted.urbs index).flags = urbFlagsSetup := congrArg Urb.flags urb
  have started : (afterStart index submitted).urbs index =
      { submitted.urbs index with acctualLength := 0 } := by
    rw [afterStart]
    split <;> exact Function.update_self ..
  have core : (afterStart index submitted).core = state.core := by
    rw [afterStart]
    split <;> rfl
  have stores : (afterStart index submitted).stores = state.stores := by
    rw [afterStart]
    split <;> rfl
  have length : ((afterStart index submitted).urbs index).transferLength = setup.wLength := by
    rw [started]
    exact (congrArg Urb.transferLength urb).trans (filled_transferLength setup _ small)
  refine ⟨afterStart index submitted, ?_, ?_, stores⟩
  · have stored : (set filled : Exec UsbState Unit).run state = .ok () filled := rfl
    have empty : filled.links.next .urbList = some .urbList := answered.ring.next_nil
    have linked : filled.links.addLast (.urb index) .urbList = some links := added
    rw [usbcRequest, Exec.run_bind_of_ok (EStateM.run_get state), Exec.run_bind_of_ok stored,
      run_usbhcSubmitUrb linked, if_pos empty]
    exact run_usbhcStartUrb flags
  · have ctrlOut := afterStart_state index submitted
    exact {
      ring := by rw [afterStart_links]; exact ring
      flags := by rw [started]; exact flags
      buffer := by rw [started]; exact congrArg Urb.transferBuffer urb
      small := by rw [length]; exact small
      limited := by rw [core, length]; exact limited
      reported := by rw [core, length]; exact reported
      active := by rw [ctrlOut]; decide
      fits := afterStart_fits answered.quiet
      none_ := fun inStatus => by rw [ctrlOut] at inStatus; cases inStatus
      unread := fun _ => by rw [started]
      room := fun inData => by rw [ctrlOut] at inData; cases inData }

/-! ## The callback -/

/-- The code ends with the URB answered or asking again, or in a panic with
nothing under way; it stores nothing of an answer. -/
def Settles (enumBuffer index : Nat) (code : Exec UsbState Unit) (state : UsbState) : Prop :=
  (∃ after, code.run state = .ok () after ∧ (Answered after ∨ Asking enumBuffer index after) ∧
      after.stores = state.stores) ∨
    ∃ reason after, code.run state = .error reason after ∧ after.pending = none ∧
      after.stores = state.stores

/-- The code only changes what is known of the device, or panics. -/
def Records (code : Exec UsbState Unit) (state : UsbState) : Prop :=
  (∃ reason, code.run state = .error reason state) ∨
    ∃ dev, code.run state = .ok () (setEnumDev dev state)

theorem usbcEp0SizeDone_records (urb : Urb) (state : UsbState) :
    Records (usbcEp0SizeDone urb) state := by
  rw [Records, usbcEp0SizeDone, Exec.run_bind_of_ok (EStateM.run_get state)]
  simp only []
  split
  · exact .inl ⟨_, rfl⟩
  · exact .inr ⟨_, rfl⟩

theorem usbcDeviceDescDone_records (urb : Urb) (state : UsbState) :
    ∃ dev, (usbcDeviceDescDone urb).run state = .ok () (setEnumDev dev state) := ⟨_, rfl⟩

theorem usbcAddressDone_records (urb : Urb) (state : UsbState) :
    ∃ dev, (usbcAddressDone urb).run state = .ok () (setEnumDev dev state) := ⟨_, rfl⟩

theorem usbcGetAllDescDone_records (urb : Urb) (state : UsbState) :
    Records (usbcGetAllDescDone urb) state := by
  rw [Records, usbcGetAllDescDone, Exec.run_bind_of_ok (EStateM.run_get state)]
  simp only []
  split
  · exact .inr ⟨_, rfl⟩
  · left
    split
    · exact ⟨_, rfl⟩
    · exact ⟨_, rfl⟩

/-- The reported length is a 16-bit field. -/
theorem usbcDescLengthDone_records (urb : Urb) (state : UsbState) :
    (∃ reason, (usbcDescLengthDone urb).run state = .error reason state) ∨
      ∃ dev, (usbcDescLengthDone urb).run state = .ok () (setEnumDev dev state) ∧
        dev.parsed.descTotalSize < 2 ^ 16 := by
  rw [usbcDescLengthDone, Exec.run_bind_of_ok (EStateM.run_get state)]
  split
  · exact .inl ⟨_, rfl⟩
  · exact .inr ⟨_, rfl, field16_small ..⟩

/-- The next request of a fixed length. -/
theorem Answered.asks {state between : UsbState} {code : Exec UsbState Unit}
    (answered : Answered between) {setup : SetupDesc}
    (run : code.run state = (usbcRequest enumBuffer index setup).run between)
    (same : between.stores = state.stores)
    (other : between.core.enumState ≠ .getDescriptors)
    (limited : setup.wLength ≤ usbEnumBufferSize) :
    Settles enumBuffer index code state := by
  have small : setup.wLength < 2 ^ 16 := Nat.lt_of_le_of_lt limited (by decide)
  rcases usbcRequest_asking answered small (fun _ => limited)
    (fun described => absurd described other) with ⟨after, asked, asking, stores⟩
  exact .inl ⟨after, run.trans asked, .inr asking, stores.trans same⟩

/-- A panic in the callback leaves the answered state. -/
theorem Answered.panics {state : UsbState} {code : Exec UsbState Unit} {reason : Fault}
    (answered : Answered state) (run : code.run state = .error reason state) :
    Settles enumBuffer index code state :=
  .inr ⟨reason, state, run, answered.quiet, rfl⟩

/-- The request for an address has no data stage. -/
theorem usbcSetDevAddr_asks {state : UsbState} (answered : Answered state)
    (stage : state.core.enumState = .setAddress) :
    ∃ after, (usbcSetDevAddr enumBuffer index).run state = .ok () after ∧
      Asking enumBuffer index after ∧ after.stores = state.stores := by
  let address := usbcNewAddress state.core.devAddrBm
  let assigned := state.setCore { state.core with
    devAddrBm := if address = 0 then state.core.devAddrBm
      else state.core.devAddrBm ||| 1 <<< address }
  have ready : Answered assigned := ⟨answered.ring, answered.idle, answered.quiet⟩
  have other : assigned.core.enumState ≠ .getDescriptors := by
    change state.core.enumState ≠ .getDescriptors
    rw [stage]
    decide
  rw [usbcSetDevAddr, Exec.run_bind_of_ok (EStateM.run_get state)]
  have stored : (set assigned : Exec UsbState Unit).run state = .ok () assigned := rfl
  simp only []
  rw [Exec.run_bind_of_ok stored]
  exact usbcRequest_asking ready (show 0 < 2 ^ 16 by decide) (fun _ => Nat.zero_le _)
    (fun described => absurd described other)

theorem usbcGetAllDesc_asks {state : UsbState} (answered : Answered state)
    (stage : state.core.enumState = .getDescriptors)
    (small : state.core.enumDev.parsed.descTotalSize < 2 ^ 16) :
    ∃ after, (usbcGetAllDesc enumBuffer index).run state = .ok () after ∧
      Asking enumBuffer index after ∧ after.stores = state.stores := by
  rw [usbcGetAllDesc, Exec.run_bind_of_ok (EStateM.run_get state), usbcRequestConfig]
  exact usbcRequest_asking answered small (fun other => absurd stage other) (fun _ => rfl)

/-- Every stage but one asks for a fixed length, which the buffer holds. -/
theorem usbcAnswer_settles {state : UsbState} (answered : Answered state) (urb : Urb)
    (enumState : EnumState) (stage : state.core.enumState = enumState) :
    Settles enumBuffer index (usbcAnswer enumBuffer index urb enumState) state := by
  have moved : ∀ core : UsbCore, Answered (state.setCore core) :=
    fun _ => ⟨answered.ring, answered.idle, answered.quiet⟩
  cases enumState with
  | idle | getManufacturerName => exact .inl ⟨state, rfl, .inl answered, rfl⟩
  | getEp0Size =>
      cases usbcEp0SizeDone_records urb state with
      | inl panics =>
          rcases panics with ⟨reason, faults⟩
          exact answered.panics (Exec.run_bind_of_error faults)
      | inr records =>
          rcases records with ⟨dev, recorded⟩
          let between := setEnumState .getDevDesc ((setEnumDev dev state).setEpSize dev.ep0Size)
          have ready : Answered between := ⟨answered.ring, answered.idle, answered.quiet⟩
          exact ready.asks (Exec.run_bind_of_ok recorded) rfl
            (by intro same; cases same) (show 18 ≤ 1024 by decide)
  | getDevDesc =>
      rcases usbcDeviceDescDone_records urb state with ⟨dev, recorded⟩
      have ready : Answered (setEnumState .setAddress (setEnumDev dev state)) := moved _
      rcases usbcSetDevAddr_asks ready rfl with ⟨after, asked, asking, stores⟩
      exact .inl ⟨after, (Exec.run_bind_of_ok recorded).trans asked, .inr asking, stores⟩
  | setAddress =>
      rcases usbcAddressDone_records urb state with ⟨dev, recorded⟩
      have ready : Answered (setEnumState .getDescLength (setEnumDev dev state)) := moved _
      exact ready.asks (Exec.run_bind_of_ok recorded) rfl (by intro same; cases same)
        (show 9 ≤ 1024 by decide)
  | getProductName =>
      have ready : Answered (setEnumState .getManufacturerName state) := moved _
      have run : (usbcAnswer enumBuffer index urb .getProductName).run state =
          (usbGetStringDesc enumBuffer index state.core.enumDev.desc[14] 0).run
            (setEnumState .getManufacturerName state) := rfl
      exact ready.asks run rfl (by intro same; cases same) (Nat.le_refl _)
  | getDescriptors =>
      cases usbcGetAllDescDone_records urb state with
      | inl panics =>
          rcases panics with ⟨reason, faults⟩
          exact answered.panics (Exec.run_bind_of_error faults)
      | inr records =>
          rcases records with ⟨dev, recorded⟩
          have ready : Answered (setEnumState .getProductName (setEnumDev dev state)) := moved _
          exact ready.asks (Exec.run_bind_of_ok recorded) rfl
            (by intro same; cases same) (Nat.le_refl _)
  | getDescLength =>
      cases usbcDescLengthDone_records urb state with
      | inl panics =>
          rcases panics with ⟨reason, faults⟩
          exact answered.panics (Exec.run_bind_of_error faults)
      | inr records =>
          rcases records with ⟨dev, recorded, small⟩
          have ready : Answered (setEnumState .getDescriptors (setEnumDev dev state)) := moved _
          rcases usbcGetAllDesc_asks ready rfl small with ⟨after, asked, asking, stores⟩
          have run : (usbcAnswer enumBuffer index urb .getDescLength).run state =
              (usbcGetAllDesc enumBuffer index).run
                (setEnumState .getDescriptors (setEnumDev dev state)) := by
            rw [usbcAnswer, Exec.run_bind_of_ok recorded]
            exact Exec.run_bind_of_ok rfl
          exact .inl ⟨after, run.trans asked, .inr asking, stores⟩

theorem usbcEnumerateHandler_settles {state : UsbState} (answered : Answered state) :
    Settles enumBuffer index (usbcEnumerateHandler enumBuffer index) state := by
  by_cases failed : (state.urbs index).status ≠ .ok
  · apply answered.panics
    rw [usbcEnumerateHandler, Exec.run_bind_of_ok (EStateM.run_get state), if_pos failed]
    rfl
  · have entered : (usbcEnumerateHandler enumBuffer index).run state =
        (usbcAnswer enumBuffer index (state.urbs index) state.core.enumState).run state := by
      rw [usbcEnumerateHandler, Exec.run_bind_of_ok (EStateM.run_get state), if_neg failed]
    rw [Settles, entered]
    exact usbcAnswer_settles answered _ _ rfl

/-! ## Interrupts -/

/-- The state an execution ends in, also when it panics. -/
def finalState (code : Exec UsbState Unit) (state : UsbState) : UsbState :=
  match code.run state with
  | .ok _ after => after
  | .error _ after => after

theorem finalState_ok {code : Exec UsbState Unit} {state after : UsbState}
    (run : code.run state = .ok () after) : finalState code state = after := by
  rw [finalState, run]

theorem finalState_error {code : Exec UsbState Unit} {state after : UsbState} {reason : Fault}
    (run : code.run state = .error reason after) : finalState code state = after := by
  rw [finalState, run]

/-- Enumeration has a request under way, or waits for nothing more. -/
def Enumerating (enumBuffer index : Nat) (state : UsbState) : Prop :=
  state.pending = none ∨ Asking enumBuffer index state

/-- The code ends in enumeration again, having stored just these. -/
structure Proceeds (enumBuffer index : Nat) (code : Exec UsbState Unit) (state : UsbState)
    (stores : List Nat) : Prop where
  enumerating : Enumerating enumBuffer index (finalState code state)
  stored : (finalState code state).stores = stores

theorem Proceeds.of_ok {code : Exec UsbState Unit} {state after : UsbState} {stores : List Nat}
    (run : code.run state = .ok () after) (enumerating : Enumerating enumBuffer index after)
    (stored : after.stores = stores) : Proceeds enumBuffer index code state stores :=
  ⟨(finalState_ok run).symm ▸ enumerating, (finalState_ok run).symm ▸ stored⟩

theorem Proceeds.of_error {code : Exec UsbState Unit} {state after : UsbState} {reason : Fault}
    {stores : List Nat} (run : code.run state = .error reason after)
    (quiet : after.pending = none) (stored : after.stores = stores) :
    Proceeds enumBuffer index code state stores :=
  ⟨(finalState_error run).symm ▸ .inl quiet, (finalState_error run).symm ▸ stored⟩

theorem Proceeds.of_run {code later : Exec UsbState Unit} {state between : UsbState}
    {stores : List Nat} (run : code.run state = later.run between)
    (proceeds : Proceeds enumBuffer index later between stores) :
    Proceeds enumBuffer index code state stores := by
  have same : finalState code state = finalState later between := by
    rw [finalState, finalState, run]
  exact ⟨same ▸ proceeds.enumerating, same ▸ proceeds.stored⟩

theorem Settles.proceeds {code : Exec UsbState Unit} {state : UsbState}
    (settles : Settles enumBuffer index code state) :
    Proceeds enumBuffer index code state state.stores := by
  cases settles with
  | inl returns =>
      rcases returns with ⟨after, run, next, stores⟩
      cases next with
      | inl answered => exact .of_ok run (.inl answered.quiet) stores
      | inr asking => exact .of_ok run (.inr asking) stores
  | inr panics =>
      rcases panics with ⟨reason, after, run, quiet, stores⟩
      exact .of_error run quiet stores

/-- Completing the URB runs the callback, which may have started it again. -/
theorem usbhcEndUrb_settles {state : UsbState} {status : UrbStatus}
    (ring : Ring state.links .urbList [.urb index])
    (flags : (state.urbs index).flags = urbFlagsSetup) (quiet : state.pending = none) :
    Settles enumBuffer index
      (usbhcEndUrb (usbcEnumerateHandler enumBuffer) index status) state := by
  rcases ring.deleteFirst with ⟨links, deleted, empty⟩
  have control : ¬ (state.urbs index).flags &&& urbFlagsInterruptIn ≠ 0 := by
    rw [flags]
    decide
  let called := whenCalled index status { state.setPipeState .idle with links := links }
  have answered : Answered called := ⟨empty, rfl, quiet⟩
  have ends : (usbhcEndUrb (usbcEnumerateHandler enumBuffer) index status).run state =
      (do
        usbcEnumerateHandler enumBuffer index
        startNext : Exec UsbState Unit).run called := run_usbhcEndUrb _ status deleted control
  have settles : Settles enumBuffer index (usbcEnumerateHandler enumBuffer index) called :=
    usbcEnumerateHandler_settles answered
  cases settles with
  | inl returns =>
      rcases returns with ⟨after, run, next, stores⟩
      left
      refine ⟨after, ?_, next, stores⟩
      rw [ends, Exec.run_bind_of_ok run]
      cases next with
      | inl answered => exact run_startNext_empty answered.ring
      | inr asking => exact run_startNext_active asking.active
  | inr panics =>
      rcases panics with ⟨reason, after, run, quiet, stores⟩
      right
      refine ⟨reason, after, ?_, quiet, stores⟩
      rw [ends, Exec.run_bind_of_error run]

/-- The next stage of the request. -/
theorem Asking.advance {state : UsbState} (asking : Asking enumBuffer index state)
    {pipeState : PipeState} {pending : Option Token} (active : pipeState ≠ .idle)
    (fits : PendingFits pending pipeState)
    (none_ : pipeState = .zlpIn → (state.urbs index).transferLength = 0)
    (unread : pipeState ≠ .ctrlOut)
    (room : pipeState = .dataIn →
      (state.urbs index).acctualLength < (state.urbs index).transferLength) :
    Asking enumBuffer index ((state.setPipeState pipeState).setPending pending) where
  ring := asking.ring
  flags := asking.flags
  buffer := asking.buffer
  small := asking.small
  limited := asking.limited
  reported := asking.reported
  active := active
  fits := fits
  none_ := none_
  unread := fun sent => absurd sent unread
  room := room

theorem Asking.setupSent {state : UsbState} (asking : Asking enumBuffer index state)
    (sent : state.pipe.state = .ctrlOut) (quiet : state.pending = none) :
    Proceeds enumBuffer index usbhcPipeSetupSent state state.stores := by
  have first : (@firstUrb UsbCore).run state = .ok index state := run_firstUrb asking.ring.next_cons
  by_cases data : (state.urbs index).transferLength ≠ 0
  · by_cases towardsHost : (state.urbs index).TowardsHost
    · have run := run_usbhcPipeSetupSent_in first sent data towardsHost
      have unread : (state.urbs index).acctualLength < (state.urbs index).transferLength := by
        rw [asking.unread sent]
        exact Nat.pos_of_ne_zero data
      exact .of_ok run (.inr (asking.advance (by decide) (.inl rfl)
        (fun status => absurd status (by decide)) (by decide) fun _ => unread)) rfl
    · have run := run_usbhcPipeSetupSent_out first sent data towardsHost
      exact .of_ok run (.inl quiet) rfl
  · have run := run_usbhcPipeSetupSent_status first sent data
    have zero := not_not.mp data
    exact .of_ok run (.inr (asking.advance (by decide) (.inr rfl) (fun _ => zero) (by decide)
      fun inData => absurd inData (by decide))) rfl

/-! ## Packets -/

def packetSize (state : UsbState) : Nat := state.fifo.count state.reads % 2 ^ 11

/-- The offsets in the buffer at which the packet is stored. -/
def packetStores (enumBuffer index : Nat) (state : UsbState) : List Nat :=
  (List.range' (state.urbs index).acctualLength (min (packetSize state)
    ((state.urbs index).transferLength - (state.urbs index).acctualLength))).map
      fun offset => u32 (enumBuffer + offset)

theorem Asking.copiedIn_stores {state : UsbState} (asking : Asking enumBuffer index state)
    (inData : state.pipe.state = .dataIn) :
    (copiedIn index state).stores = state.stores ++ packetStores enumBuffer index state := by
  rw [copiedIn, copyIn_stores _ _ _ _ (asking.room inData), packetStores, asking.buffer]
  rfl

/-- The request with a packet stored. -/
theorem Asking.afterIn {state : UsbState} (asking : Asking enumBuffer index state)
    {pipeState : PipeState} {pending : Option Token} (active : pipeState ≠ .idle)
    (fits : PendingFits pending pipeState) (none_ : pipeState ≠ .zlpIn)
    (unread : pipeState ≠ .ctrlOut)
    (room : pipeState = .dataIn →
      (copiedIn index state).acctualLength < (state.urbs index).transferLength) :
    Asking enumBuffer index
      (((Usb.afterIn index state).setPipeState pipeState).setPending pending) := by
  have urb : (((Usb.afterIn index state).setPipeState pipeState).setPending pending).urbs index =
      { state.urbs index with acctualLength := (copiedIn index state).acctualLength } :=
    Function.update_self ..
  exact {
    ring := asking.ring
    flags := by rw [urb]; exact asking.flags
    buffer := by rw [urb]; exact asking.buffer
    small := by rw [urb]; exact asking.small
    limited := by rw [urb]; exact asking.limited
    reported := by rw [urb]; exact asking.reported
    active := active
    fits := fits
    none_ := fun status => absurd status none_
    unread := fun sent => absurd sent unread
    room := by rw [urb]; exact room }

theorem Asking.receiveIn {state : UsbState} (asking : Asking enumBuffer index state)
    (inData : state.pipe.state = .dataIn) (quiet : state.pending = none) :
    Proceeds enumBuffer index (usbhcPipeReceiveIn (usbcEnumerateHandler enumBuffer)) state
      (state.stores ++ packetStores enumBuffer index state) := by
  have first : (@firstUrb UsbCore).run state = .ok index state := run_firstUrb asking.ring.next_cons
  have notZlp : ¬ state.pipe.state = .zlpIn := by
    rw [inData]
    decide
  let received := Usb.afterIn index state
  have stores : received.stores = state.stores ++ packetStores enumBuffer index state :=
    asking.copiedIn_stores inData
  have urb : received.urbs index =
      { state.urbs index with acctualLength := (copiedIn index state).acctualLength } :=
    Function.update_self ..
  have flags : (received.urbs index).flags = urbFlagsSetup := by
    rw [urb]
    exact asking.flags
  have ring : Ring received.links .urbList [.urb index] := asking.ring
  have ended : Settles enumBuffer index
      (usbhcEndUrb (usbcEnumerateHandler enumBuffer) index .ok) received :=
    usbhcEndUrb_settles ring flags quiet
  rw [← stores]
  by_cases full : state.fifo.count state.reads % 2 ^ 11 = state.pipe.epSize
  · have entered := @run_usbhcPipeReceiveIn_full UsbCore index state
      (usbcEnumerateHandler enumBuffer) first notZlp full
    by_cases enough : (received.urbs index).transferLength ≤ (received.urbs index).acctualLength
    · rw [if_pos enough] at entered
      exact .of_run entered ended.proceeds
    · rw [if_neg enough] at entered
      have room : (copiedIn index state).acctualLength < (state.urbs index).transferLength := by
        rw [urb] at enough
        exact Nat.lt_of_not_le enough
      have more : Asking enumBuffer index
          ((received.setPipeState .dataIn).setPending (some .dataIn)) :=
        asking.afterIn (by decide) (.inl rfl) (by decide) (by decide) fun _ => room
      have same : received.setPipeState .dataIn = received := by
        change { received with pipe := { received.pipe with state := PipeState.dataIn } } = _
        rw [← inData]
        rfl
      rw [same] at more
      exact .of_ok entered (.inr more) rfl
  · have entered := @run_usbhcPipeReceiveIn_short UsbCore index state
      (usbcEnumerateHandler enumBuffer) first notZlp full
    by_cases control : state.pipe.type = .ctrl
    · rw [if_pos control] at entered
      by_cases left : received.fifo.count received.reads % 2 ^ 11 ≠ 0
      · exact .of_error (entered.trans (run_statusOut_left left)) quiet rfl
      · have status : Asking enumBuffer index
            ((received.setPipeState .zlpOut).setPending (some .dataOut)) :=
          asking.afterIn (by decide) rfl (by decide) (by decide)
            fun inData => absurd inData (by decide)
        exact .of_ok (entered.trans (run_statusOut_empty left)) (.inr { status with }) rfl
    · rw [if_neg control] at entered
      exact .of_run entered ended.proceeds

/-! ## One interrupt -/

/-- In answer to the request for all descriptors, the device has reported at
most what the buffer holds, or sends no more than that. -/
def AnswerFits (index : Nat) (before : UsbState) (interrupt : Interrupt) : Prop :=
  interrupt = .rxIn → before.core.enumState = .getDescriptors →
    before.core.enumDev.parsed.descTotalSize ≤ usbEnumBufferSize ∨
      packetSize before = 0 ∨
      (before.urbs index).acctualLength + packetSize before ≤ usbEnumBufferSize

theorem Asking.packetStores_inBuffer_iff {state : UsbState}
    (asking : Asking enumBuffer index state) (inData : state.pipe.state = .dataIn)
    (bound : enumBuffer + usbEnumBufferSize ≤ 2 ^ 32) :
    InBuffer enumBuffer (packetStores enumBuffer index state) ↔
      AnswerFits index state .rxIn := by
  have room := asking.room inData
  have small := asking.small
  rw [packetStores, offsets_inBuffer_iff bound (by omega)]
  by_cases described : state.core.enumState = .getDescriptors
  · have reported := asking.reported described
    constructor
    · intro fits _ _
      omega
    · intro fits
      have fits := fits rfl described
      omega
  · have limited := asking.limited described
    constructor
    · exact fun _ _ same => absurd same described
    · omega

/-- What the interrupt adds to the stores lies in the buffer exactly when the
packet fits. -/
theorem Asking.exception {state : UsbState} (asking : Asking enumBuffer index state)
    {interrupt : Interrupt} (raised : state.pending = some interrupt.token)
    (bound : enumBuffer + usbEnumBufferSize ≤ 2 ^ 32) :
    ∃ stores, Proceeds enumBuffer index
        (usbhcPipeException (usbcEnumerateHandler enumBuffer) interrupt) state
        (state.stores ++ stores) ∧
      (InBuffer enumBuffer stores ↔ AnswerFits index state interrupt) := by
  let quiet := state.setPending none
  have quieted : Asking enumBuffer index quiet := { asking with fits := trivial }
  have first : (@firstUrb UsbCore).run quiet = .ok index quiet :=
    run_firstUrb asking.ring.next_cons
  have nothing : InBuffer enumBuffer [] := fun _ member => absurd member List.not_mem_nil
  have fits := asking.fits
  rw [raised] at fits
  cases interrupt with
  | txSetup =>
      refine ⟨[], ?_, fun _ receives => absurd receives (by decide), fun _ => nothing⟩
      rw [List.append_nil]
      exact .of_run (run_exception_txSetup _ state) (quieted.setupSent fits rfl)
  | txOut =>
      refine ⟨[], ?_, fun _ receives => absurd receives (by decide), fun _ => nothing⟩
      rw [List.append_nil]
      have inStatus : quiet.pipe.state = .zlpOut := fits
      have completed : (usbhcPipeException (usbcEnumerateHandler enumBuffer) .txOut).run state =
          (usbhcEndUrb (usbcEnumerateHandler enumBuffer) index .ok).run quiet :=
        (run_exception_txOut _ state).trans (run_usbhcTransmitOut_status first inStatus)
      exact .of_run completed (usbhcEndUrb_settles quieted.ring quieted.flags rfl).proceeds
  | rxIn =>
      by_cases inData : quiet.pipe.state = .dataIn
      · refine ⟨packetStores enumBuffer index quiet, ?_, ?_⟩
        · exact .of_run (run_exception_rxIn _ state) (quieted.receiveIn inData rfl)
        · exact quieted.packetStores_inBuffer_iff inData bound
      · have inStatus : quiet.pipe.state = .zlpIn := fits.resolve_left inData
        have empty := asking.none_ inStatus
        refine ⟨[], ?_, ?_, fun _ => nothing⟩
        · rw [List.append_nil]
          have completed : (usbhcPipeException (usbcEnumerateHandler enumBuffer) .rxIn).run state =
              (usbhcEndUrb (usbcEnumerateHandler enumBuffer) index .ok).run quiet :=
            (run_exception_rxIn _ state).trans (run_usbhcPipeReceiveIn_status first inStatus)
          exact .of_run completed (usbhcEndUrb_settles quieted.ring quieted.flags rfl).proceeds
        · intro _ _ described
          left
          rw [← asking.reported described, empty]
          exact Nat.zero_le _

/-! ## Whole runs -/

/-- An interrupt of the transaction under way; it may end in a panic. -/
structure EnumStep (enumBuffer index : Nat) (before : UsbState) (interrupt : Interrupt)
    (after : UsbState) : Prop where
  raised : before.pending = some interrupt.token
  handled : finalState (usbhcPipeException (usbcEnumerateHandler enumBuffer) interrupt) before =
    after

/-- One whose packet fits. -/
structure FittingStep (enumBuffer index : Nat) (before : UsbState) (interrupt : Interrupt)
    (after : UsbState) : Prop where
  step : EnumStep enumBuffer index before interrupt after
  fits : AnswerFits index before interrupt

theorem EnumStep.stores {before after : UsbState} {interrupt : Interrupt}
    (step : EnumStep enumBuffer index before interrupt after)
    (enumerating : Enumerating enumBuffer index before)
    (bound : enumBuffer + usbEnumBufferSize ≤ 2 ^ 32) :
    Enumerating enumBuffer index after ∧ ∃ stores, after.stores = before.stores ++ stores ∧
      (InBuffer enumBuffer stores ↔ AnswerFits index before interrupt) := by
  cases enumerating with
  | inl quiet => cases quiet.symm.trans step.raised
  | inr asking =>
      rcases asking.exception step.raised bound with ⟨stores, proceeds, exact_⟩
      rw [← step.handled]
      exact ⟨proceeds.enumerating, stores, proceeds.stored, exact_⟩

/-- Stores are only added. -/
theorem run_stores {first last : UsbState} {interrupts : List Interrupt}
    (run : Run (EnumStep enumBuffer index) first interrupts last)
    (enumerating : Enumerating enumBuffer index first)
    (bound : enumBuffer + usbEnumBufferSize ≤ 2 ^ 32) :
    ∃ stores, last.stores = first.stores ++ stores := by
  induction run with
  | nil => exact ⟨[], (List.append_nil _).symm⟩
  | cons step _ induction =>
      rcases step.stores enumerating bound with ⟨next, added, early, _⟩
      rcases induction next with ⟨later, late⟩
      exact ⟨added ++ later, by rw [late, early, List.append_assoc]⟩

theorem run_inBuffer_iff {first last : UsbState} {interrupts : List Interrupt}
    (run : Run (EnumStep enumBuffer index) first interrupts last)
    (enumerating : Enumerating enumBuffer index first)
    (bound : enumBuffer + usbEnumBufferSize ≤ 2 ^ 32)
    (inside : InBuffer enumBuffer first.stores) :
    InBuffer enumBuffer last.stores ↔
      Run (FittingStep enumBuffer index) first interrupts last := by
  induction run with
  | nil => exact ⟨fun _ => .nil _, fun _ => inside⟩
  | @cons first middle last interrupt interrupts step rest induction =>
      rcases step.stores enumerating bound with ⟨next, added, early, fitting⟩
      constructor
      · intro whole
        rcases run_stores rest next bound with ⟨later, late⟩
        rw [late, inBuffer_append] at whole
        have upTo := whole.1
        rw [early, inBuffer_append] at upTo
        refine .cons ⟨step, fitting.mp upTo.2⟩ ((induction next whole.1).mp ?_)
        rw [late]
        exact inBuffer_append.mpr whole
      · intro fits
        cases fits with
        | cons fittingStep later =>
            cases fittingStep.step.handled.symm.trans step.handled
            have here : InBuffer enumBuffer middle.stores := by
              rw [early]
              exact inBuffer_append.mpr ⟨inside, fitting.mpr fittingStep.fits⟩
            exact (induction next here).mpr later

/-- The first request is for eight bytes. -/
theorem usbcStartEnum_asking {start : UsbState} (queue : Ring start.links .urbList [])
    (quiet : start.pending = none) :
    ∃ first, (usbcStartEnum enumBuffer index).run start = .ok () first ∧
      Asking enumBuffer index first ∧ first.stores = start.stores := by
  let configured := setEnumState .getEp0Size
    ({ start with pipe := { state := .idle, type := .ctrl, epSize := 64 } } : UsbState)
  have ready : Answered configured := ⟨queue, rfl, quiet⟩
  change ∃ first, (usbcGetDevDesc enumBuffer index false).run configured = .ok () first ∧ _
  rw [usbcGetDevDesc]
  exact usbcRequest_asking ready (show 8 < 2 ^ 16 by decide)
    (fun _ => show 8 ≤ usbEnumBufferSize by decide) (by intro described; cases described)

/-- During enumeration everything is stored in the buffer exactly when, in
answer to the request for all descriptors, the device has reported no more than
the buffer holds or sends no more. -/
theorem enumeration_fits_iff {enumBuffer index : Nat} {start first last : UsbState}
    {interrupts : List Interrupt} (bound : enumBuffer + usbEnumBufferSize ≤ 2 ^ 32)
    (queue : Ring start.links .urbList []) (quiet : start.pending = none)
    (unused : start.stores = [])
    (begun : (usbcStartEnum enumBuffer index).run start = .ok () first)
    (run : Run (EnumStep enumBuffer index) first interrupts last) :
    InBuffer enumBuffer last.stores ↔
      Run (FittingStep enumBuffer index) first interrupts last := by
  rcases usbcStartEnum_asking queue quiet with ⟨same, started, asking, stores⟩
  cases begun.symm.trans started
  apply run_inBuffer_iff run (.inr asking) bound
  rw [stores, unused]
  exact fun _ member => absurd member List.not_mem_nil

/-! ## A reported length of 2000 -/

/-- The bytes of the FIFO's packets: each answer is one short packet, but the
descriptors come in packets of 64 bytes. -/
def oversizedFifo : Fifo where
  count read :=
    if read = 1 then 8 else if read = 4 then 18 else if read = 8 then 9
    else if 11 ≤ read then 64 else 0
  data read position :=
    if position = 7 then 64
    else if read = 8 ∧ position = 2 then 0xD0
    else if read = 8 ∧ position = 3 then 0x07 else 0

def attached : UsbState where
  pipe := { state := .free, type := .ctrl, epSize := 0 }
  links := Links.init ⟨fun _ => none, fun _ => none⟩ .urbList
  urbs := fun _ => {
    flags := 0
    setupBuffer := #v[0, 0, 0, 0, 0, 0, 0, 0]
    transferBuffer := 0
    transferLength := 0
    acctualLength := 0
    status := .ok }
  memory := fun _ => 0
  core := {
    enumState := .idle
    devAddrBm := 0
    enumDev := {
      ep0Size := 0
      desc := Vector.replicate 18 0
      address := 0
      parsed := {
        descTotalSize := 0
        numConfigs := 0
        configs := fun _ => ⟨Vector.replicate 9 0, 0, 0, none⟩
        ifaces := fun _ => ⟨Vector.replicate 9 0, 0, 0, none, false⟩
        eps := fun _ => ⟨Vector.replicate 7 0, 0, Vector.replicate 4 0⟩
        ifaceList := [] } } }
  fifo := oversizedFifo
  reads := 0
  pending := none
  stores := []
  trace := []

/-- Handle the interrupts while they are those of the transaction under way. -/
def handleAll (enumBuffer : Nat) : List Interrupt → UsbState → Option UsbState
  | [], state => some state
  | interrupt :: rest, state =>
      if state.pending = some interrupt.token then
        handleAll enumBuffer rest
          (finalState (usbhcPipeException (usbcEnumerateHandler enumBuffer) interrupt) state)
      else none

def toDescriptors : List Interrupt :=
  [.txSetup, .rxIn, .txOut, .txSetup, .rxIn, .txOut, .txSetup, .rxIn, .txSetup, .rxIn, .txOut]

def started : UsbState := finalState (usbcStartEnum 0x20400000 0) attached

theorem run_of_handleAll {enumBuffer index : Nat} :
    ∀ {interrupts : List Interrupt} {first last : UsbState},
      handleAll enumBuffer interrupts first = some last →
      Run (EnumStep enumBuffer index) first interrupts last
  | [], first, last, handled => by
      cases handled
      exact .nil first
  | interrupt :: rest, first, last, handled => by
      rw [handleAll] at handled
      by_cases raised : first.pending = some interrupt.token
      · rw [if_pos raised] at handled
        exact .cons ⟨raised, rfl⟩ (run_of_handleAll handled)
      · rw [if_neg raised] at handled
        cases handled

theorem attached_queue : Ring attached.links .urbList [] := .of_init _ _

theorem started_asking :
    (usbcStartEnum 0x20400000 0).run attached = .ok () started ∧ Asking 0x20400000 0 started := by
  have begins : ∃ first, (usbcStartEnum 0x20400000 0).run attached = .ok () first ∧
      Asking 0x20400000 0 first ∧ first.stores = attached.stores :=
    usbcStartEnum_asking attached_queue rfl
  rcases begins with ⟨first, run, asking, _⟩
  have same : started = first := finalState_ok run
  rw [same]
  exact ⟨run, asking⟩

/-- The device has reported 2000 bytes and is asked for them; it answers with
packets of 64. -/
def AsksFor2000 (state : UsbState) : Prop :=
  state.pipe.state = .ctrlOut ∧ state.pipe.type = .ctrl ∧ state.pipe.epSize = 64 ∧
    state.pending = some .setup ∧ (state.urbs 0).acctualLength = 0 ∧
    (state.urbs 0).transferLength = 2000 ∧
    (state.urbs 0).setupBuffer.get 0 &&& usbDeviceToHost = usbDeviceToHost ∧
    ∀ packet < 17, state.fifo.count (state.reads + packet) % 2 ^ 11 = 64

instance (state : UsbState) : Decidable (AsksFor2000 state) := by
  unfold AsksFor2000
  infer_instance

theorem started_toDescriptors :
    ∃ last, Run (EnumStep 0x20400000 0) started toDescriptors last ∧ AsksFor2000 last := by
  have asks : ((handleAll 0x20400000 toDescriptors started).any
      fun last => decide (AsksFor2000 last)) = true := by decide +kernel
  cases handled : handleAll 0x20400000 toDescriptors started with
  | none =>
      rw [handled] at asks
      cases asks
  | some last =>
      rw [handled] at asks
      exact ⟨last, run_of_handleAll handled, of_decide_eq_true asks⟩

theorem enumeration_fits_iff_attached :
    ∃ last, Run (EnumStep 0x20400000 0) started toDescriptors last ∧
      (InBuffer 0x20400000 last.stores ↔
        Run (FittingStep 0x20400000 0) started toDescriptors last) := by
  rcases started_toDescriptors with ⟨last, run, _⟩
  exact ⟨last, run, enumeration_fits_iff (by decide) attached_queue rfl rfl started_asking.1 run⟩

/-- Sixteen packets fill the buffer; the next one is stored behind it. -/
theorem reported_length_overruns :
    ∃ interrupts last, (usbcStartEnum 0x20400000 0).run attached = .ok () started ∧
      Run (EnumStep 0x20400000 0) started interrupts last ∧
      ¬ InBuffer 0x20400000 last.stores := by
  have bound : 0x20400000 + usbEnumBufferSize ≤ 2 ^ 32 := by decide
  have enumerates : ∀ {interrupts last}, Run (EnumStep 0x20400000 0) started interrupts last →
      Enumerating 0x20400000 0 last :=
    fun run => run.invariant _ (fun _ _ _ before step => (step.stores before bound).1)
      (.inr started_asking.2)
  rcases started_toDescriptors with ⟨asked, run, state, type, epSize, sent, empty, length,
    request, packets⟩
  have asking := (enumerates run).resolve_left (by rw [sent]; decide)
  have read : ControlRead asked 0 := {
    queued := ⟨[], asking.ring⟩
    flags := asking.flags
    request := request
    length := by rw [length]; decide
    started := state
    sent := sent
    empty := empty
    control := type }
  rcases dataStage_reached read (usbcEnumerateHandler 0x20400000) 16
    (fun packet below => by rw [packetCount, packets packet (by omega), epSize])
    (by rw [epSize, length]; decide) with ⟨events, filled, more, stage⟩
  have enumSteps : Run (EnumStep 0x20400000 0) asked events filled :=
    more.imp fun _ _ _ step => ⟨step.raised, finalState_ok step.handled⟩
  have whole := run.append enumSteps
  have filling := (enumerates whole).resolve_left (by rw [stage.pending]; decide)
  let quiet := filled.setPending none
  have quieted : Asking 0x20400000 0 quiet := { filling with fits := trivial }
  have last : EnumStep 0x20400000 0 filled .rxIn _ := ⟨stage.pending, rfl⟩
  refine ⟨_, _, started_asking.1, whole.snoc last, ?_⟩
  have received : (filled.urbs 0).acctualLength = 1024 := by rw [stage.received, epSize]
  have wanted : (filled.urbs 0).transferLength = 2000 := stage.same.length.trans length
  have packet : packetSize filled = 64 := by
    rw [packetSize, stage.same.fifo, stage.reads]
    exact packets 16 (by decide)
  have cleared : (modify (HcState.setPending none) : Exec UsbState Unit).run filled =
      .ok () quiet := rfl
  have proceeds : Proceeds 0x20400000 0
      (usbhcPipeException (usbcEnumerateHandler 0x20400000) .rxIn) filled _ :=
    .of_run (Exec.run_bind_of_ok cleared) (quieted.receiveIn stage.inData rfl)
  rw [proceeds.stored, inBuffer_append]
  intro inside
  have stored := inside.2
  change InBuffer 0x20400000 ((List.range' (filled.urbs 0).acctualLength
    (min (packetSize filled) ((filled.urbs 0).transferLength - (filled.urbs 0).acctualLength))).map
      fun offset => u32 (0x20400000 + offset)) at stored
  rw [received, wanted, packet, offsets_inBuffer_iff bound (by decide)] at stored
  exact absurd stored (by decide)

end Vanilla.Usb
