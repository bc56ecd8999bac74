import Vanilla.Usb.UrbQueue

namespace Vanilla.Usb

/-! URBs of any kind on one pipe, and what the clients do with them: submit
them and cancel them, from outside or from a callback. -/

variable {Core : Type}

/-! ## Starting a URB -/

/-- What starting a URB changes; a setup packet goes out when the FIFO is empty. -/
structure Started (index : Nat) (before after : HcState Core) : Prop where
  links : after.links = before.links
  trace : after.trace = before.trace ++ [.started index]
  urbs : after.urbs =
    Function.update before.urbs index { before.urbs index with acctualLength := 0 }
  core : after.core = before.core
  stores : after.stores = before.stores
  epSize : after.pipe.epSize = before.pipe.epSize
  type : after.pipe.type = before.pipe.type
  setup : (before.urbs index).flags &&& urbFlagsSetup ≠ 0 → after.pipe.state = .ctrlOut ∧
    (after.pending = before.pending ∨ after.pending = some .setup)

/-- A URB can always be started. -/
theorem usbhcStartUrb_started (index : Nat) (state : HcState Core) :
    ∃ after, (@usbhcStartUrb Core index).run state = .ok () after ∧
      Started index state after := by
  let recorded := (state.setUrb index { state.urbs index with acctualLength := 0 }).record
    (.started index)
  have stored : (set recorded : Exec (HcState Core) Unit).run state = .ok () recorded := rfl
  rw [usbhcStartUrb, Exec.run_bind_of_ok (EStateM.run_get state), Exec.run_bind_of_ok stored]
  by_cases control : (state.urbs index).flags &&& urbFlagsSetup ≠ 0
  · have moved : (modify (HcState.setPipeState .ctrlOut) : Exec (HcState Core) Unit).run
        recorded = .ok () (recorded.setPipeState .ctrlOut) := rfl
    rw [if_pos control, Exec.run_bind_of_ok moved]
    by_cases left : state.fifo.count state.reads % 2 ^ 11 ≠ 0
    · have sent := @run_usbhcSetupOut_left Core (recorded.setPipeState .ctrlOut) left
      rw [Exec.run_bind_of_ok sent]
      exact ⟨_, rfl, rfl, rfl, rfl, rfl, rfl, rfl, rfl, fun _ => ⟨rfl, .inl rfl⟩⟩
    · have sent := @run_usbhcSetupOut_empty Core (recorded.setPipeState .ctrlOut) left
      rw [Exec.run_bind_of_ok sent]
      exact ⟨_, rfl, rfl, rfl, rfl, rfl, rfl, rfl, rfl, fun _ => ⟨rfl, .inr rfl⟩⟩
  · rw [if_neg control]
    by_cases interruptIn : (state.urbs index).flags &&& urbFlagsInterruptIn ≠ 0
    · rw [if_pos interruptIn]
      exact ⟨_, rfl, rfl, rfl, rfl, rfl, rfl, rfl, rfl, fun setup => absurd setup control⟩
    · rw [if_neg interruptIn]
      exact ⟨_, rfl, rfl, rfl, rfl, rfl, rfl, rfl, rfl, fun setup => absurd setup control⟩

/-! ## Submitting and cancelling -/

/-- `usbhc_cancel_urb` -/
def usbhcCancelUrb (index : Nat) : Exec (HcState Core) Bool := do
  let state ← get
  let links ← Exec.deref (state.links.deleteNode (.urb index))
  set { state with links := links }
  pure true

/-- A URB that is not queued goes behind the others, and starts when it is alone. -/
theorem usbhcSubmitUrb_submitted {state : HcState Core} {queue : List Nat} {index : Nat}
    (ring : Ring state.links .urbList (queue.map .urb)) (fresh : index ∉ queue) :
    ∃ links after, state.links.addLast (.urb index) .urbList = some links ∧
      Ring links .urbList ((queue ++ [index]).map .urb) ∧
      (@usbhcSubmitUrb Core index).run state = .ok () after ∧
      ((queue = [] ∧ Started index
          ({ state with links := links }.record (.submitted index)) after) ∨
        (queue ≠ [] ∧ after = { state with links := links }.record (.submitted index))) := by
  rcases ring.addLast (urb_fresh fresh) with ⟨links, added, longer⟩
  let linked := { state with links := links }.record (.submitted index)
  have run := run_usbhcSubmitUrb added
  have rings : Ring links .urbList ((queue ++ [index]).map .urb) := by
    rw [List.map_append]
    exact longer
  by_cases empty : queue = []
  · have alone : state.links.next .urbList = some .urbList :=
      ring.next_self_iff.mpr (List.map_eq_nil_iff.mpr empty)
    rcases usbhcStartUrb_started index linked with ⟨after, started, changes⟩
    refine ⟨links, after, added, rings, ?_, .inl ⟨empty, changes⟩⟩
    rw [run, if_pos alone]
    exact started
  · have others : ¬ state.links.next .urbList = some .urbList :=
      fun self => empty (List.map_eq_nil_iff.mp (ring.next_self_iff.mp self))
    refine ⟨links, linked, added, rings, ?_, .inr ⟨empty, rfl⟩⟩
    rw [run, if_neg others]
    rfl

/-- Cancelling takes a queued URB out, wherever it stands. -/
theorem usbhcCancelUrb_queued {state : HcState Core} {front back : List Nat} {index : Nat}
    (ring : Ring state.links .urbList ((front ++ index :: back).map .urb)) :
    ∃ links, state.links.deleteNode (.urb index) = some links ∧
      Ring links .urbList ((front ++ back).map .urb) ∧
      (@usbhcCancelUrb Core index).run state = .ok true { state with links := links } := by
  rw [List.map_append, List.map_cons] at ring
  rcases ring.delete with ⟨links, deleted, shorter⟩
  have pointer : (Exec.deref (some links) : Exec (HcState Core) _) = pure links := rfl
  refine ⟨links, deleted, ?_, ?_⟩
  · rw [List.map_append]
    exact shorter
  · rw [usbhcCancelUrb, Exec.run_bind_of_ok (EStateM.run_get state), deleted, pointer, pure_bind]
    rfl

/-- What a client does with a URB of its own. -/
inductive ClientAction where
  | submit (index : Nat) (urb : Urb)
  | cancel (index : Nat)

def ClientAction.perform : ClientAction → Exec (HcState Core) Unit
  | .submit index urb => do
      modify (HcState.setUrb index urb)
      usbhcSubmitUrb index
  | .cancel index => do
      let _ ← usbhcCancelUrb index
      pure ()

def performAll : List ClientAction → Exec (HcState Core) Unit
  | [] => pure ()
  | action :: rest => do
      action.perform
      performAll rest

theorem run_perform_cancel {index : Nat} {state after : HcState Core}
    (cancelled : (@usbhcCancelUrb Core index).run state = .ok true after) :
    ((ClientAction.cancel index).perform : Exec (HcState Core) Unit).run state =
      .ok () after := by
  rw [ClientAction.perform, Exec.run_bind_of_ok cancelled]
  rfl

/-! ## Client actions on a queue -/

/-- A URB is submitted while it is not queued, and cancelled while it is. -/
def ClientAction.Fits (queue : List Nat) : ClientAction → Prop
  | .submit index _ => index ∉ queue
  | .cancel index => index ∈ queue

def ClientAction.onQueue (queue : List Nat) : ClientAction → List Nat
  | .submit index _ => queue ++ [index]
  | .cancel index => queue.erase index

def FitsAll : List Nat → List ClientAction → Prop
  | _, [] => True
  | queue, action :: rest => action.Fits queue ∧ FitsAll (action.onQueue queue) rest

def ClientAction.Submits (index : Nat) : ClientAction → Prop
  | .submit other _ => other = index
  | .cancel _ => False

/-- Clients change no URB but those that they submit. -/
structure Acted (actions : List ClientAction) (before after : HcState Core) : Prop where
  core : after.core = before.core
  stores : after.stores = before.stores
  urbs : ∀ other, (∀ action ∈ actions, ¬ action.Submits other) →
    after.urbs other = before.urbs other

theorem perform_acts {state : HcState Core} {queue : List Nat} {action : ClientAction}
    (ring : Ring state.links .urbList (queue.map .urb)) (fits : action.Fits queue) :
    ∃ after, (action.perform : Exec (HcState Core) Unit).run state = .ok () after ∧
      Ring after.links .urbList ((action.onQueue queue).map .urb) ∧
      Acted [action] state after ∧
      (queue ≠ [] → after.pipe = state.pipe ∧ after.pending = state.pending) := by
  cases action with
  | submit index urb =>
      have filled : Ring (state.setUrb index urb).links .urbList (queue.map .urb) := ring
      have apart : ∀ other, (∀ action ∈ [ClientAction.submit index urb],
          ¬ action.Submits other) → other ≠ index :=
        fun other others same => others _ (List.mem_singleton.mpr rfl) same.symm
      rcases usbhcSubmitUrb_submitted filled fits with
        ⟨links, after, _, longer, run, ⟨empty, started⟩ | ⟨_, rfl⟩⟩
      · refine ⟨after, run, ?_, ⟨started.core, started.stores, fun other others => ?_⟩,
          fun nonempty => absurd empty nonempty⟩
        · rw [started.links]
          exact longer
        · rw [started.urbs, Function.update_of_ne (apart other others)]
          exact Function.update_of_ne (apart other others) ..
      · refine ⟨_, run, longer, ⟨rfl, rfl, fun other others => ?_⟩, fun _ => ⟨rfl, rfl⟩⟩
        exact Function.update_of_ne (apart other others) ..
  | cancel index =>
      rcases List.exists_erase_eq fits with ⟨front, back, _, split, erased⟩
      rw [split] at ring
      rcases usbhcCancelUrb_queued ring with ⟨links, _, shorter, run⟩
      refine ⟨_, run_perform_cancel run, ?_, ⟨rfl, rfl, fun _ _ => rfl⟩, fun _ => ⟨rfl, rfl⟩⟩
      change Ring links .urbList ((queue.erase index).map .urb)
      rw [erased]
      exact shorter

theorem performAll_acts : ∀ {actions : List ClientAction} {state : HcState Core}
    {queue : List Nat}, Ring state.links .urbList (queue.map .urb) → FitsAll queue actions →
      ∃ after, (performAll actions : Exec (HcState Core) Unit).run state = .ok () after ∧
        Ring after.links .urbList ((actions.foldl ClientAction.onQueue queue).map .urb) ∧
        Acted actions state after
  | [], state, _, ring, _ => ⟨state, rfl, ring, rfl, rfl, fun _ _ => rfl⟩
  | action :: rest, state, queue, ring, fits => by
      rcases perform_acts ring fits.1 with ⟨between, run, kept, first, _⟩
      rcases performAll_acts kept fits.2 with ⟨after, others, last, acted⟩
      refine ⟨after, ?_, last, acted.core.trans first.core, acted.stores.trans first.stores,
        fun other spared => ?_⟩
      · rw [performAll, Exec.run_bind_of_ok run]
        exact others
      · rw [acted.urbs other fun action member => spared action (List.mem_cons_of_mem _ member)]
        exact first.urbs other fun action single =>
          spared action (List.mem_singleton.mp single ▸ List.mem_cons_self)

/-! ## Ending a URB -/

/-- The URB behind an ended one starts, unless the callback has seen to it. -/
def Finishes (queue : List Nat) (called after : HcState Core) : Prop :=
  (after = called ∧ (queue = [] ∨ called.pipe.state ≠ .idle)) ∨
    ∃ next rest, queue = next :: rest ∧ called.pipe.state = .idle ∧ Started next called after

/-- Any other URB is unlinked before its callback. -/
theorem usbhcEndUrb_unlinked {callback : Nat → Exec (HcState Core) Unit} {index : Nat}
    {rest : List Nat} {status : UrbStatus} {state : HcState Core}
    (ring : Ring state.links .urbList ((index :: rest).map .urb))
    (other : ¬ (state.urbs index).flags &&& urbFlagsInterruptIn ≠ 0) :
    ∃ links, state.links.deleteNode (.urb index) = some links ∧
      Ring links .urbList (rest.map .urb) ∧
      ∀ called queue, (callback index).run
          (whenCalled index status { state.setPipeState .idle with links := links }) =
            .ok () called →
        Ring called.links .urbList (queue.map .urb) →
        ∃ after, (usbhcEndUrb callback index status).run state = .ok () after ∧
          Finishes queue called after := by
  rw [List.map_cons] at ring
  rcases ring.deleteFirst with ⟨links, deleted, shorter⟩
  refine ⟨links, deleted, shorter, fun called queue returns left => ?_⟩
  rw [run_usbhcEndUrb callback status deleted other, Exec.run_bind_of_ok returns]
  cases queue with
  | nil => exact ⟨called, run_startNext_empty left, .inl ⟨rfl, .inl rfl⟩⟩
  | cons next others =>
      by_cases idle : called.pipe.state = .idle
      · rw [run_startNext_idle left idle]
        rcases usbhcStartUrb_started next called with ⟨after, run, started⟩
        exact ⟨after, run, .inr ⟨next, others, rfl, idle, started⟩⟩
      · exact ⟨called, run_startNext_active idle, .inl ⟨rfl, .inr idle⟩⟩

/-! ## Events -/

/-- The queue while the callback of its first URB runs. -/
def queueInCallback (flags : Nat) (queue : List Nat) : List Nat :=
  if flags &&& urbFlagsInterruptIn ≠ 0 then queue else queue.tail

/-- A client at work outside the callbacks, or an interrupt with what the
callback does. -/
inductive PipeEvent where
  | client (action : ClientAction)
  | interrupt (kind : Interrupt) (actions : List ClientAction)

def PipeEvent.handle : PipeEvent → Exec (HcState Core) Unit
  | .client action => action.perform
  | .interrupt kind actions => usbhcPipeException (fun _ => performAll actions) kind

/-! ## Interrupts that return -/

/-- An interrupt either leaves the queue alone or ends its first URB. -/
inductive Handled (callback : Nat → Exec (HcState Core) Unit) (before after : HcState Core) :
    Prop where
  | waits : after.links = before.links → after.trace = before.trace →
      (after.pipe.state = before.pipe.state ∨
        ∃ urb, before.links.next .urbList = some (.urb urb)) → Handled callback before after
  | ends {urb : Nat} {status : UrbStatus} {middle : HcState Core} :
      before.links.next .urbList = some (.urb urb) →
      middle.links = before.links → middle.trace = before.trace →
      (∀ other, (middle.urbs other).flags = (before.urbs other).flags) →
      (usbhcEndUrb callback urb status).run middle = .ok () after →
      Handled callback before after

theorem firstUrb_ok {state after : HcState Core} {index : Nat}
    (found : (@firstUrb Core).run state = .ok index after) :
    state.links.next .urbList = some (.urb index) ∧ after = state := by
  rw [firstUrb, Exec.run_bind_of_ok (EStateM.run_get state)] at found
  cases first : state.links.next .urbList with
  | none =>
      rw [first] at found
      cases found
  | some node =>
      rw [first] at found
      cases node with
      | urbList => cases found
      | urb head =>
          cases found
          exact ⟨rfl, rfl⟩

theorem usbhcPipeSetupSent_handled {callback : Nat → Exec (HcState Core) Unit}
    {state after : HcState Core} (returns : (@usbhcPipeSetupSent Core).run state = .ok () after) :
    Handled callback state after := by
  have code := returns
  rw [usbhcPipeSetupSent, Exec.run_bind_of_ok (EStateM.run_get state)] at code
  by_cases sent : state.pipe.state = .ctrlOut
  · rw [if_neg (not_not.mpr sent)] at code
    rcases Exec.run_bind_ok.mp code with ⟨index, between, found, _⟩
    rcases firstUrb_ok found with ⟨first, rfl⟩
    by_cases data : (between.urbs index).transferLength ≠ 0
    · by_cases towardsHost : (between.urbs index).TowardsHost
      · cases (run_usbhcPipeSetupSent_in found sent data towardsHost).symm.trans returns
        exact .waits rfl rfl (.inr ⟨index, first⟩)
      · cases (run_usbhcPipeSetupSent_out found sent data towardsHost).symm.trans returns
        exact .waits rfl rfl (.inr ⟨index, first⟩)
    · cases (run_usbhcPipeSetupSent_status found sent data).symm.trans returns
      exact .waits rfl rfl (.inr ⟨index, first⟩)
  · rw [if_pos sent] at code
    cases code

theorem afterIn_flags (index : Nat) (state : HcState Core) (other : Nat) :
    ((afterIn index state).urbs other).flags = (state.urbs other).flags := by
  change (Function.update state.urbs index _ other).flags = _
  by_cases same : other = index
  · rw [same, Function.update_self]
  · rw [Function.update_of_ne same]

theorem usbhcPipeReceiveIn_handled {callback : Nat → Exec (HcState Core) Unit}
    {state after : HcState Core}
    (returns : (usbhcPipeReceiveIn callback).run state = .ok () after) :
    Handled callback state after := by
  have code := returns
  rw [usbhcPipeReceiveIn] at code
  rcases Exec.run_bind_ok.mp code with ⟨index, between, found, _⟩
  rcases firstUrb_ok found with ⟨first, rfl⟩
  have flags := afterIn_flags index between
  by_cases status : between.pipe.state = .zlpIn
  · rw [run_usbhcPipeReceiveIn_status found status] at returns
    exact .ends first rfl rfl (fun _ => rfl) returns
  · by_cases full : between.fifo.count between.reads % 2 ^ 11 = between.pipe.epSize
    · rw [run_usbhcPipeReceiveIn_full found status full] at returns
      by_cases enough : ((afterIn index between).urbs index).transferLength ≤
          ((afterIn index between).urbs index).acctualLength
      · rw [if_pos enough] at returns
        exact @Handled.ends Core callback between after index .ok (afterIn index between) first
          rfl rfl flags returns
      · rw [if_neg enough] at returns
        cases returns
        exact .waits rfl rfl (.inr ⟨index, first⟩)
    · rw [run_usbhcPipeReceiveIn_short found status full] at returns
      by_cases control : between.pipe.type = .ctrl
      · rw [if_pos control] at returns
        by_cases left : (afterIn index between).fifo.count (afterIn index between).reads %
            2 ^ 11 ≠ 0
        · cases (run_statusOut_left left).symm.trans returns
        · cases (run_statusOut_empty left).symm.trans returns
          exact .waits rfl rfl (.inr ⟨index, first⟩)
      · rw [if_neg control] at returns
        exact @Handled.ends Core callback between after index .ok (afterIn index between) first
          rfl rfl flags returns

theorem usbhcTransmitOut_handled {callback : Nat → Exec (HcState Core) Unit}
    {state after : HcState Core}
    (returns : (usbhcTransmitOut callback).run state = .ok () after) :
    Handled callback state after := by
  rw [usbhcTransmitOut, Exec.run_bind_of_ok (EStateM.run_get state)] at returns
  by_cases status : state.pipe.state = .zlpOut
  · rw [if_pos status] at returns
    rcases Exec.run_bind_ok.mp returns with ⟨index, between, found, rest⟩
    rcases firstUrb_ok found with ⟨first, rfl⟩
    exact .ends first rfl rfl (fun _ => rfl) rest
  · rw [if_neg status] at returns
    cases returns
    exact .waits rfl rfl (.inl rfl)

/-- Of an interrupt that returns. -/
theorem usbhcPipeException_handled {callback : Nat → Exec (HcState Core) Unit}
    {kind : Interrupt} {state after : HcState Core}
    (returns : (usbhcPipeException callback kind).run state = .ok () after) :
    Handled callback (state.setPending none) after := by
  cases kind with
  | txSetup =>
      exact usbhcPipeSetupSent_handled ((run_exception_txSetup callback state).symm.trans returns)
  | rxIn =>
      exact usbhcPipeReceiveIn_handled ((run_exception_rxIn callback state).symm.trans returns)
  | txOut =>
      exact usbhcTransmitOut_handled ((run_exception_txOut callback state).symm.trans returns)

end Vanilla.Usb
