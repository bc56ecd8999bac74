import Vanilla.Foundation.Run
import Vanilla.Usb.ControlRead

namespace Vanilla.Usb

/-! The queue of a pipe over any run of submissions and interrupts. What happens
on it is compared with an abstract queue that starts one URB at a time. -/

variable {Core : Type}

/-! ## The abstract queue -/

structure UrbQueue where
  active : Option Nat
  waiting : List Nat
deriving DecidableEq

/-- Start the oldest waiting URB when none is active; call back the active one
once it is unlinked. -/
def UrbQueue.step (queue : UrbQueue) : Action → Option UrbQueue
  | .submitted urb => some { queue with waiting := queue.waiting ++ [urb] }
  | .started urb =>
      if queue.active = none ∧ queue.waiting.head? = some urb then
        some { active := some urb, waiting := queue.waiting.tail }
      else none
  | .called urb linked =>
      if queue.active = some urb ∧ linked = false then some { queue with active := none }
      else none

/-- `none` when the actions break the discipline. -/
def replay (trace : List Action) : Option UrbQueue :=
  trace.foldlM UrbQueue.step ⟨none, []⟩

theorem replay_snoc {trace : List Action} {queue : UrbQueue} (action : Action)
    (replayed : replay trace = some queue) :
    replay (trace ++ [action]) = queue.step action := by
  rw [replay, List.foldlM_append]
  change (replay trace >>= fun middle => [action].foldlM UrbQueue.step middle) = _
  rw [replayed, Option.bind_eq_bind, Option.bind_some]
  simp

/-! ## The driver's queue against it -/

/-- The token under way fits the state of the pipe. -/
def PendingFits (pending : Option Token) (pipeState : PipeState) : Prop :=
  match pending with
  | none => True
  | some .setup => pipeState = .ctrlOut
  | some .dataIn => pipeState = .dataIn ∨ pipeState = .zlpIn
  | some .dataOut => pipeState = .zlpOut

structure Tracks (state : HcState Core) (queue : List Nat) (abstract : UrbQueue) : Prop where
  ring : Ring state.links .urbList (queue.map .urb)
  flags : ∀ urb ∈ queue, (state.urbs urb).flags = urbFlagsSetup
  replayed : replay state.trace = some abstract

/-- Nothing is active. -/
structure Resting (state : HcState Core) (queue : List Nat) : Prop where
  tracks : Tracks state queue ⟨none, queue⟩
  idle : state.pipe.state = .idle
  quiet : state.pending = none

/-- The head of the queue is active. -/
structure Busy (state : HcState Core) (urb : Nat) (rest : List Nat) : Prop where
  tracks : Tracks state (urb :: rest) ⟨some urb, rest⟩
  active : state.pipe.state ≠ .idle
  fits : PendingFits state.pending state.pipe.state

/-- How the queue stands inside a callback. -/
inductive Standing (state : HcState Core) : List Nat → Prop where
  | resting {queue : List Nat} : Resting state queue → Standing state queue
  | busy {urb : Nat} {rest : List Nat} : Busy state urb rest → Standing state (urb :: rest)

/-- How it stands between events: a queue with URBs has its head active. -/
inductive Settled (state : HcState Core) : List Nat → Prop where
  | empty : Resting state [] → Settled state []
  | busy {urb : Nat} {rest : List Nat} : Busy state urb rest → Settled state (urb :: rest)

theorem Settled.standing {state : HcState Core} {queue : List Nat}
    (settled : Settled state queue) : Standing state queue := by
  cases settled with
  | empty resting => exact .resting resting
  | busy busy => exact .busy busy

theorem urb_mem_map {urb : Nat} {queue : List Nat} :
    ListNode.urb urb ∈ queue.map ListNode.urb ↔ urb ∈ queue := by
  simp

theorem urb_fresh {urb : Nat} {queue : List Nat} (fresh : urb ∉ queue) :
    ListNode.urb urb ∉ ListNode.urbList :: queue.map ListNode.urb := by
  simpa using fresh

/-! ## Starting and submitting -/

def afterStart (index : Nat) (state : HcState Core) : HcState Core :=
  let opened := ((state.setUrb index { state.urbs index with acctualLength := 0 }).record
    (.started index)).setPipeState .ctrlOut
  let counted : HcState Core := { opened with reads := opened.reads + 1 }
  if state.fifo.count state.reads % 2 ^ 11 ≠ 0 then counted
  else counted.setPending (some .setup)

theorem run_usbhcStartUrb {state : HcState Core} {index : Nat}
    (flags : (state.urbs index).flags = urbFlagsSetup) :
    (@usbhcStartUrb Core index).run state = .ok () (afterStart index state) := by
  have control : (state.urbs index).flags &&& urbFlagsSetup ≠ 0 := by
    rw [flags]
    decide
  let recorded := (state.setUrb index { state.urbs index with acctualLength := 0 }).record
    (.started index)
  have stored : (set recorded : Exec (HcState Core) Unit).run state = .ok () recorded := rfl
  have moved : (modify (HcState.setPipeState .ctrlOut) : Exec (HcState Core) Unit).run recorded =
      .ok () (recorded.setPipeState .ctrlOut) := rfl
  rw [usbhcStartUrb, Exec.run_bind_of_ok (EStateM.run_get state), Exec.run_bind_of_ok stored,
    if_pos control, Exec.run_bind_of_ok moved, afterStart]
  by_cases left : state.fifo.count state.reads % 2 ^ 11 ≠ 0
  · have sent := @run_usbhcSetupOut_left Core (recorded.setPipeState .ctrlOut) left
    rw [Exec.run_bind_of_ok sent, if_pos left]
    rfl
  · have sent := @run_usbhcSetupOut_empty Core (recorded.setPipeState .ctrlOut) left
    rw [Exec.run_bind_of_ok sent, if_neg left]
    rfl

theorem afterStart_links (index : Nat) (state : HcState Core) :
    (afterStart index state).links = state.links := by
  rw [afterStart]
  split <;> rfl

theorem afterStart_trace (index : Nat) (state : HcState Core) :
    (afterStart index state).trace = state.trace ++ [.started index] := by
  rw [afterStart]
  split <;> rfl

theorem afterStart_state (index : Nat) (state : HcState Core) :
    (afterStart index state).pipe.state = .ctrlOut := by
  rw [afterStart]
  split <;> rfl

theorem afterStart_flags (index : Nat) (state : HcState Core) (urb : Nat) :
    ((afterStart index state).urbs urb).flags = (state.urbs urb).flags := by
  have updated : (afterStart index state).urbs = Function.update state.urbs index
      { state.urbs index with acctualLength := 0 } := by
    rw [afterStart]
    split <;> rfl
  rw [updated]
  by_cases same : urb = index
  · rw [same, Function.update_self]
  · rw [Function.update_of_ne same]

theorem afterStart_fits {index : Nat} {state : HcState Core} (quiet : state.pending = none) :
    PendingFits (afterStart index state).pending (afterStart index state).pipe.state := by
  rw [afterStart_state, afterStart]
  split
  · change PendingFits state.pending .ctrlOut
    rw [quiet]
    trivial
  · rfl

/-- Starting the first waiting URB makes it active. -/
theorem Resting.start {state : HcState Core} {urb : Nat} {rest : List Nat}
    (resting : Resting state (urb :: rest)) :
    ∃ after, (@usbhcStartUrb Core urb).run state = .ok () after ∧
      Busy after urb rest := by
  refine ⟨_, run_usbhcStartUrb (resting.tracks.flags urb List.mem_cons_self), ⟨?_, ?_, ?_⟩,
    ?_, afterStart_fits resting.quiet⟩
  · rw [afterStart_links]
    exact resting.tracks.ring
  · intro other member
    rw [afterStart_flags]
    exact resting.tracks.flags other member
  · rw [afterStart_trace, replay_snoc _ resting.tracks.replayed]
    exact if_pos ⟨rfl, rfl⟩
  · rw [afterStart_state]
    decide

/-- A URB linked in behind the others. -/
theorem Tracks.enqueue {state : HcState Core} {queue : List Nat} {abstract : UrbQueue}
    {index : Nat} (tracks : Tracks state queue abstract) (fresh : index ∉ queue)
    (flags : (state.urbs index).flags = urbFlagsSetup) :
    ∃ links, state.links.addLast (.urb index) .urbList = some links ∧
      Tracks ({ state with links := links }.record (.submitted index)) (queue ++ [index])
        { abstract with waiting := abstract.waiting ++ [index] } := by
  rcases tracks.ring.addLast (urb_fresh fresh) with ⟨links, added, ring⟩
  refine ⟨links, added, ?_, ?_, ?_⟩
  · rw [List.map_append]
    exact ring
  · intro urb member
    cases List.mem_append.mp member with
    | inl old => exact tracks.flags urb old
    | inr new => exact List.mem_singleton.mp new ▸ flags
  · exact replay_snoc (.submitted index) tracks.replayed

theorem Standing.submit {state : HcState Core} {queue : List Nat} {index : Nat}
    (standing : Standing state queue) (fresh : index ∉ queue)
    (flags : (state.urbs index).flags = urbFlagsSetup) :
    ∃ after, (@usbhcSubmitUrb Core index).run state = .ok () after ∧
      Standing after (queue ++ [index]) ∧
      (Settled state queue → Settled after (queue ++ [index])) := by
  have enqueued : ∀ {abstract : UrbQueue}, Tracks state queue abstract →
      ∃ links, Tracks ({ state with links := links }.record (.submitted index))
          (queue ++ [index]) { abstract with waiting := abstract.waiting ++ [index] } ∧
        (@usbhcSubmitUrb Core index).run state =
          (if state.links.next .urbList = some .urbList then usbhcStartUrb index
            else pure () : Exec (HcState Core) Unit).run
            ({ state with links := links }.record (.submitted index)) := by
    intro abstract tracks
    rcases tracks.enqueue fresh flags with ⟨links, added, kept⟩
    exact ⟨links, kept, run_usbhcSubmitUrb added⟩
  cases standing with
  | resting resting =>
      rcases enqueued resting.tracks with ⟨links, kept, run⟩
      have next : Resting ({ state with links := links }.record (.submitted index))
          (queue ++ [index]) := ⟨kept, resting.idle, resting.quiet⟩
      by_cases empty : state.links.next .urbList = some .urbList
      · have none_ := List.map_eq_nil_iff.mp (resting.tracks.ring.next_self_iff.mp empty)
        subst none_
        rcases next.start with ⟨after, started, busy⟩
        rw [run, if_pos empty]
        exact ⟨after, started, .busy busy, fun _ => .busy busy⟩
      · rw [run, if_neg empty]
        refine ⟨_, rfl, .resting next, fun settled => ?_⟩
        cases settled with
        | empty => exact absurd resting.tracks.ring.next_nil empty
        | busy busy => exact absurd resting.idle busy.active
  | @busy urb rest busy =>
      rcases enqueued busy.tracks with ⟨links, kept, run⟩
      have notEmpty : ¬ state.links.next .urbList = some .urbList := by
        intro self
        cases busy.tracks.ring.next_self_iff.mp self
      have next : Busy ({ state with links := links }.record (.submitted index)) urb
          (rest ++ [index]) := ⟨kept, busy.active, busy.fits⟩
      rw [run, if_neg notEmpty]
      exact ⟨_, rfl, .busy next, fun _ => .busy next⟩

/-! ## Events -/

/-- A URB filled for a control transfer. -/
structure Submission where
  index : Nat
  urb : Urb
  control : urb.flags = urbFlagsSetup

def place (submission : Submission) : Exec (HcState Core) Unit := do
  modify (HcState.setUrb submission.index submission.urb)
  usbhcSubmitUrb submission.index

def placeAll : List Submission → Exec (HcState Core) Unit
  | [] => pure ()
  | submission :: rest => do
      place submission
      placeAll rest

/-- A submission from outside, or an interrupt with what the callback submits. -/
inductive QueueEvent where
  | submit (submission : Submission)
  | interrupt (interrupt : Interrupt) (submissions : List Submission)

def QueueEvent.handle : QueueEvent → Exec (HcState Core) Unit
  | .submit submission => place submission
  | .interrupt kind submissions =>
      usbhcPipeException (fun _ => placeAll submissions) kind

/-- Interrupts end the transaction under way. -/
def QueueEvent.Raised (state : HcState Core) : QueueEvent → Prop
  | .submit _ => True
  | .interrupt kind _ => state.pending = some kind.token

/-- None of the URBs is in the queue when it is submitted. -/
def FreshAll : List Nat → List Submission → Prop
  | _, [] => True
  | queue, submission :: rest =>
      submission.index ∉ queue ∧ FreshAll (queue ++ [submission.index]) rest

/-- No URB is submitted while it is queued; the completed one is queued no more. -/
def QueueEvent.Fresh (queue : List Nat) : QueueEvent → Prop
  | .submit submission => submission.index ∉ queue
  | .interrupt _ submissions => FreshAll queue.tail submissions

structure QueueStep (before : HcState Core) (event : QueueEvent) (after : HcState Core) :
    Prop where
  raised : event.Raised before
  handled : event.handle.run before = .ok () after

theorem Tracks.setUrb {state : HcState Core} {queue : List Nat} {abstract : UrbQueue}
    {index : Nat} {urb : Urb} (tracks : Tracks state queue abstract) (fresh : index ∉ queue) :
    Tracks (state.setUrb index urb) queue abstract where
  ring := tracks.ring
  flags := by
    intro other member
    have different : other ≠ index := fun same => fresh (same ▸ member)
    change (Function.update state.urbs index urb other).flags = _
    rw [Function.update_of_ne different]
    exact tracks.flags other member
  replayed := tracks.replayed

theorem Standing.setUrb {state : HcState Core} {queue : List Nat} {index : Nat} {urb : Urb}
    (standing : Standing state queue) (fresh : index ∉ queue) :
    Standing (state.setUrb index urb) queue := by
  cases standing with
  | resting resting =>
      exact .resting ⟨resting.tracks.setUrb fresh, resting.idle, resting.quiet⟩
  | busy busy => exact .busy ⟨busy.tracks.setUrb fresh, busy.active, busy.fits⟩

theorem Settled.setUrb {state : HcState Core} {queue : List Nat} {index : Nat} {urb : Urb}
    (settled : Settled state queue) (fresh : index ∉ queue) :
    Settled (state.setUrb index urb) queue := by
  cases settled with
  | empty resting => exact .empty ⟨resting.tracks.setUrb fresh, resting.idle, resting.quiet⟩
  | busy busy => exact .busy ⟨busy.tracks.setUrb fresh, busy.active, busy.fits⟩

theorem Standing.place {state : HcState Core} {queue : List Nat}
    (standing : Standing state queue) {submission : Submission}
    (fresh : submission.index ∉ queue) :
    ∃ after, (@place Core submission).run state = .ok () after ∧
      Standing after (queue ++ [submission.index]) ∧
      (Settled state queue → Settled after (queue ++ [submission.index])) := by
  let filled := state.setUrb submission.index submission.urb
  have flags : (filled.urbs submission.index).flags = urbFlagsSetup := by
    change (Function.update state.urbs submission.index submission.urb submission.index).flags = _
    rw [Function.update_self]
    exact submission.control
  have ready : Standing filled queue := standing.setUrb fresh
  rcases ready.submit fresh flags with
    ⟨after, run, stands, settles⟩
  have stored : (modify (HcState.setUrb submission.index submission.urb) :
      Exec (HcState Core) Unit).run state = .ok () filled := rfl
  refine ⟨after, ?_, stands, fun settled => settles (settled.setUrb fresh)⟩
  rw [Usb.place, Exec.run_bind_of_ok stored, run]

theorem Standing.placeAll {Core : Type} :
    ∀ (submissions : List Submission) (state : HcState Core) (queue : List Nat),
      Standing state queue → FreshAll queue submissions →
      ∃ after last, (@placeAll Core submissions).run state = .ok () after ∧
        Standing after last
  | [], state, queue, standing, _ => ⟨state, queue, rfl, standing⟩
  | submission :: rest, state, queue, standing, fresh => by
      rcases standing.place fresh.1 with ⟨next, placed, stands, _⟩
      rcases Standing.placeAll rest next _ stands fresh.2 with ⟨after, last, run, final⟩
      exact ⟨after, last, by rw [Usb.placeAll, Exec.run_bind_of_ok placed, run], final⟩

/-! ## Completion -/

/-- A completed URB leaves the queue, is called back, and the next one starts
unless the callback has started one. -/
theorem Tracks.endUrb {state : HcState Core} {urb : Nat} {rest : List Nat}
    (tracks : Tracks state (urb :: rest) ⟨some urb, rest⟩) (quiet : state.pending = none)
    {submissions : List Submission} (fresh : FreshAll rest submissions) (status : UrbStatus) :
    ∃ after last, (@usbhcEndUrb Core (fun _ => Usb.placeAll submissions) urb status).run
      state = .ok () after ∧ Settled after last := by
  rcases tracks.ring.deleteFirst with ⟨links, deleted, ring⟩
  have control : ¬ (state.urbs urb).flags &&& urbFlagsInterruptIn ≠ 0 := by
    rw [tracks.flags urb List.mem_cons_self]
    decide
  have unlinked : (links.next (.urb urb)).isSome = false := by
    rw [Links.deleteNode_next deleted]
    rfl
  have gone : urb ∉ rest := by
    have distinct := (List.nodup_cons.mp tracks.ring.distinct).2
    exact fun member => (List.nodup_cons.mp distinct).1 (urb_mem_map.mpr member)
  let cleared : HcState Core := { state.setPipeState .idle with links := links }
  let called := (cleared.setUrb urb { cleared.urbs urb with status := status }).record
    (.called urb false)
  have resting : Resting called rest := by
    refine ⟨⟨ring, ?_, ?_⟩, rfl, quiet⟩
    · intro other member
      have different : other ≠ urb := fun same => gone (same ▸ member)
      change (Function.update state.urbs urb _ other).flags = _
      rw [Function.update_of_ne different]
      exact tracks.flags other (List.mem_cons_of_mem _ member)
    · change replay (state.trace ++ [.called urb false]) = _
      rw [replay_snoc _ tracks.replayed]
      exact if_pos ⟨rfl, rfl⟩
  rcases Standing.placeAll submissions called rest (.resting resting) fresh with
    ⟨after, last, placed, standing⟩
  have recorded : whenCalled urb status cleared = called := by
    change (cleared.setUrb urb _).record (.called urb (links.next (.urb urb)).isSome) = called
    rw [unlinked]
  rw [run_usbhcEndUrb _ status deleted control]
  change ∃ after last, EStateM.run _ (whenCalled urb status cleared) = _ ∧ _
  rw [recorded, Exec.run_bind_of_ok placed]
  cases standing with
  | resting waits =>
      cases last with
      | nil => exact ⟨after, [], run_startNext_empty waits.tracks.ring, .empty waits⟩
      | cons next others =>
          rcases waits.start with ⟨started, run, busy⟩
          rw [run_startNext_idle waits.tracks.ring waits.idle]
          exact ⟨started, next :: others, run, .busy busy⟩
  | @busy next others busy =>
      exact ⟨after, next :: others, run_startNext_active busy.active, .busy busy⟩

/-! ## Interrupts -/

/-- An event ends between events again, or in the panic of a FIFO that is not
empty. -/
def Ends (code : Exec (HcState Core) Unit) (state : HcState Core) : Prop :=
  (∃ after last, code.run state = .ok () after ∧ Settled after last) ∨
    ∃ after, code.run state = .error (.panic "FIFO not zero") after

theorem Busy.quieten {state : HcState Core} {urb : Nat} {rest : List Nat}
    (busy : Busy state urb rest) : Busy (state.setPending none) urb rest :=
  ⟨⟨busy.tracks.ring, busy.tracks.flags, busy.tracks.replayed⟩, busy.active, trivial⟩

/-- The next stage of a transfer. -/
theorem Busy.advance {state : HcState Core} {urb : Nat} {rest : List Nat}
    (busy : Busy state urb rest) {pipeState : PipeState} {pending : Option Token}
    (active : pipeState ≠ .idle) (fits : PendingFits pending pipeState) :
    Settled ((state.setPipeState pipeState).setPending pending) (urb :: rest) :=
  .busy ⟨⟨busy.tracks.ring, busy.tracks.flags, busy.tracks.replayed⟩, active, fits⟩

theorem Busy.setupSent {state : HcState Core} {urb : Nat} {rest : List Nat}
    (busy : Busy state urb rest) (quiet : state.pending = none)
    (sent : state.pipe.state = .ctrlOut) :
    Ends (@usbhcPipeSetupSent Core) state := by
  have first : (@firstUrb Core).run state = .ok urb state :=
    run_firstUrb busy.tracks.ring.next_cons
  left
  by_cases data : (state.urbs urb).transferLength ≠ 0
  · by_cases towardsHost : (state.urbs urb).TowardsHost
    · rw [run_usbhcPipeSetupSent_in first sent data towardsHost]
      exact ⟨_, _, rfl, busy.advance (by decide) (.inl rfl)⟩
    · rw [run_usbhcPipeSetupSent_out first sent data towardsHost]
      refine ⟨_, urb :: rest, rfl, .busy ⟨⟨busy.tracks.ring, busy.tracks.flags,
        busy.tracks.replayed⟩, ?_, ?_⟩⟩
      · change PipeState.dataOut ≠ .idle
        decide
      · change PendingFits state.pending .dataOut
        rw [quiet]
        trivial
  · rw [run_usbhcPipeSetupSent_status first sent data]
    exact ⟨_, _, rfl, busy.advance (by decide) (.inr rfl)⟩

theorem Busy.afterIn {state : HcState Core} {urb : Nat} {rest : List Nat}
    (busy : Busy state urb rest) : Busy (afterIn urb state) urb rest := by
  refine ⟨⟨busy.tracks.ring, ?_, busy.tracks.replayed⟩, busy.active, busy.fits⟩
  intro other member
  change (Function.update state.urbs urb _ other).flags = _
  by_cases same : other = urb
  · rw [same, Function.update_self]
    exact busy.tracks.flags urb List.mem_cons_self
  · rw [Function.update_of_ne same]
    exact busy.tracks.flags other member

theorem Busy.receiveIn {state : HcState Core} {urb : Nat} {rest : List Nat}
    (busy : Busy state urb rest) (quiet : state.pending = none)
    {submissions : List Submission} (fresh : FreshAll rest submissions)
    (inState : state.pipe.state = .dataIn ∨ state.pipe.state = .zlpIn) :
    Ends (@usbhcPipeReceiveIn Core fun _ => Usb.placeAll submissions) state := by
  have first : (@firstUrb Core).run state = .ok urb state :=
    run_firstUrb busy.tracks.ring.next_cons
  by_cases status : state.pipe.state = .zlpIn
  · rw [Ends, run_usbhcPipeReceiveIn_status first status]
    exact .inl (busy.tracks.endUrb quiet fresh .ok)
  · let copied := Usb.afterIn urb state
    have read : Busy copied urb rest := busy.afterIn
    have inData : state.pipe.state = .dataIn := inState.resolve_right status
    by_cases full : state.fifo.count state.reads % 2 ^ 11 = state.pipe.epSize
    · rw [Ends, run_usbhcPipeReceiveIn_full first status full]
      by_cases enough : (copied.urbs urb).transferLength ≤ (copied.urbs urb).acctualLength
      · rw [if_pos enough]
        exact .inl (read.tracks.endUrb quiet fresh .ok)
      · rw [if_neg enough]
        exact .inl ⟨_, urb :: rest, rfl, .busy ⟨⟨read.tracks.ring, read.tracks.flags,
          read.tracks.replayed⟩, read.active, .inl inData⟩⟩
    · rw [Ends, run_usbhcPipeReceiveIn_short first status full]
      by_cases control : state.pipe.type = .ctrl
      · rw [if_pos control]
        by_cases left : copied.fifo.count copied.reads % 2 ^ 11 ≠ 0
        · exact .inr ⟨_, run_statusOut_left left⟩
        · refine .inl ⟨_, urb :: rest, run_statusOut_empty left, .busy ⟨⟨read.tracks.ring,
            read.tracks.flags, read.tracks.replayed⟩, ?_, rfl⟩⟩
          change PipeState.zlpOut ≠ .idle
          decide
      · rw [if_neg control]
        exact .inl (read.tracks.endUrb quiet fresh .ok)

theorem Busy.transmitOut {state : HcState Core} {urb : Nat} {rest : List Nat}
    (busy : Busy state urb rest) (quiet : state.pending = none)
    {submissions : List Submission} (fresh : FreshAll rest submissions)
    (status : state.pipe.state = .zlpOut) :
    Ends (@usbhcTransmitOut Core fun _ => Usb.placeAll submissions) state := by
  have first : (@firstUrb Core).run state = .ok urb state :=
    run_firstUrb busy.tracks.ring.next_cons
  rw [Ends, run_usbhcTransmitOut_status first status]
  exact .inl (busy.tracks.endUrb quiet fresh .ok)

/-- Every event leaves the queue settled. -/
theorem Settled.handle {state : HcState Core} {queue : List Nat}
    (settled : Settled state queue) {event : QueueEvent} (raised : event.Raised state)
    (fresh : event.Fresh queue) : Ends (event.handle : Exec (HcState Core) Unit) state := by
  cases event with
  | submit submission =>
      rcases settled.standing.place fresh with ⟨after, run, _, settles⟩
      exact .inl ⟨after, _, run, settles settled⟩
  | interrupt kind submissions =>
      cases settled with
      | empty resting =>
          rw [QueueEvent.Raised, resting.quiet] at raised
          cases raised
      | @busy urb rest busy =>
          have fits := busy.fits
          rw [QueueEvent.Raised] at raised
          rw [raised] at fits
          have quiet : (state.setPending none).pending = none := rfl
          cases kind with
          | txSetup =>
              rw [Ends, QueueEvent.handle, run_exception_txSetup]
              exact busy.quieten.setupSent quiet fits
          | rxIn =>
              rw [Ends, QueueEvent.handle, run_exception_rxIn]
              exact busy.quieten.receiveIn quiet fresh fits
          | txOut =>
              rw [Ends, QueueEvent.handle, run_exception_txOut]
              exact busy.quieten.transmitOut quiet fresh fits

/-! ## Whole runs -/

/-- A configured pipe with an empty queue. -/
structure Configured (state : HcState Core) : Prop where
  empty : Ring state.links .urbList []
  idle : state.pipe.state = .idle
  quiet : state.pending = none
  unused : state.trace = []

/-- An event that submits no URB that is in the queue. -/
structure FreshStep (before : HcState Core) (event : QueueEvent) (after : HcState Core) :
    Prop where
  step : QueueStep before event after
  fresh : ∀ queue : List Nat, Ring before.links .urbList (queue.map .urb) → event.Fresh queue

/-- The actions so far are those of a queue that starts one URB at a time, and
the head of a queue that is not empty is the active one. -/
def Disciplined (state : HcState Core) : Prop :=
  ∃ abstract, replay state.trace = some abstract ∧
    ((state.links.next .urbList = some .urbList ∧ abstract = ⟨none, []⟩) ∨
      ∃ urb rest, state.links.next .urbList = some (.urb urb) ∧
        abstract = ⟨some urb, rest⟩ ∧ state.pipe.state ≠ .idle)

theorem Settled.disciplined {state : HcState Core} {queue : List Nat}
    (settled : Settled state queue) : Disciplined state := by
  cases settled with
  | empty resting =>
      exact ⟨_, resting.tracks.replayed, .inl ⟨resting.tracks.ring.next_nil, rfl⟩⟩
  | @busy urb rest busy =>
      exact ⟨_, busy.tracks.replayed,
        .inr ⟨urb, rest, busy.tracks.ring.next_cons, rfl, busy.active⟩⟩

theorem Settled.ring {state : HcState Core} {queue : List Nat}
    (settled : Settled state queue) : Ring state.links .urbList (queue.map .urb) := by
  cases settled with
  | empty resting => exact resting.tracks.ring
  | busy busy => exact busy.tracks.ring

theorem Configured.settled {state : HcState Core} (configured : Configured state) :
    Settled state [] := by
  refine .empty ⟨⟨configured.empty, ?_, ?_⟩, configured.idle, configured.quiet⟩
  · exact fun urb member => absurd member List.not_mem_nil
  · rw [configured.unused]
    rfl

theorem settled_of_run {start last : HcState Core} {events : List QueueEvent}
    (configured : Configured start) (run : Run FreshStep start events last) :
    ∃ queue, Settled last queue := by
  apply run.invariant (fun state => ∃ queue, Settled state queue) ?_ ⟨[], configured.settled⟩
  intro before event after standing step
  rcases standing with ⟨queue, settled⟩
  have ends := settled.handle step.step.raised (step.fresh queue settled.ring)
  rw [Ends, step.step.handled] at ends
  cases ends with
  | inl settles =>
      rcases settles with ⟨_, last, same, settled⟩
      cases same
      exact ⟨last, settled⟩
  | inr panics =>
      rcases panics with ⟨_, same⟩
      cases same

/-- In every run that submits no URB while it is queued, the queue keeps its
discipline, and no event ends in a fault of the queue. -/
theorem urb_queue_discipline {Core : Type} {start last : HcState Core}
    {events : List QueueEvent} (configured : Configured start)
    (run : Run FreshStep start events last) :
    Disciplined last ∧
      ∀ event : QueueEvent, event.Raised last →
        (∀ queue : List Nat, Ring last.links .urbList (queue.map .urb) → event.Fresh queue) →
        (∃ after, event.handle.run last = .ok () after) ∨
          ∃ after, event.handle.run last = .error (.panic "FIFO not zero") after := by
  rcases settled_of_run configured run with ⟨queue, settled⟩
  refine ⟨settled.disciplined, fun event raised fresh => ?_⟩
  cases settled.handle raised (fresh queue settled.ring) with
  | inl settles =>
      rcases settles with ⟨after, _, handled, _⟩
      exact .inl ⟨after, handled⟩
  | inr panics => exact .inr panics

/-! ## A URB submitted twice -/

/-- A request without a data stage. -/
def setRequest : Submission where
  index := 0
  urb := {
    flags := urbFlagsSetup
    setupBuffer := #v[0x00, 0x05, 0x01, 0x00, 0x00, 0x00, 0x00, 0x00]
    transferBuffer := 0x20400000
    transferLength := 0
    acctualLength := 0
    status := .ok }
  control := rfl

def idlePipe : HcState Unit where
  pipe := { state := .idle, type := .ctrl, epSize := 64 }
  links := Links.init ⟨fun _ => none, fun _ => none⟩ .urbList
  urbs := fun _ => setRequest.urb
  memory := fun _ => 0
  core := ()
  fifo := { count := fun _ => 0, data := fun _ _ => 0 }
  reads := 0
  pending := none
  stores := []
  trace := []

theorem idlePipe_configured : Configured idlePipe where
  empty := .of_init _ _
  idle := rfl
  quiet := rfl
  unused := rfl

theorem idlePipe_submits : ∃ last, Run FreshStep idlePipe [.submit setRequest] last := by
  refine ⟨_, .cons ⟨⟨trivial, rfl⟩, ?_⟩ (.nil _)⟩
  intro queue ring
  have empty : queue.map ListNode.urb = [] := ring.next_self_iff.mp rfl
  rw [List.map_eq_nil_iff.mp empty]
  exact List.not_mem_nil

theorem urb_queue_discipline_idle :
    ∃ last, Run FreshStep idlePipe [.submit setRequest] last ∧ Disciplined last := by
  rcases idlePipe_submits with ⟨last, run⟩
  exact ⟨last, run, (urb_queue_discipline idlePipe_configured run).1⟩

/-- The second completion follows a null pointer before the callback. -/
theorem submitted_twice_faults :
    Configured idlePipe ∧ ∃ last, Run QueueStep idlePipe
        [.submit setRequest, .submit setRequest, .interrupt .txSetup [], .interrupt .rxIn [],
          .interrupt .txSetup []] last ∧
      last.trace = [.submitted 0, .started 0, .submitted 0, .called 0 false, .started 0] ∧
      (QueueEvent.interrupt .rxIn []).Raised last ∧
      ∃ after, (QueueEvent.interrupt .rxIn []).handle.run last =
          .error .nullDereference after ∧ after.trace = last.trace := by
  refine ⟨idlePipe_configured, ?_⟩
  apply Exists.intro
  constructor
  · exact .cons ⟨trivial, rfl⟩ (.cons ⟨trivial, rfl⟩ (.cons ⟨rfl, rfl⟩ (.cons ⟨rfl, rfl⟩
      (.cons ⟨rfl, rfl⟩ (.nil _)))))
  · exact ⟨rfl, rfl, _, rfl, rfl⟩

end Vanilla.Usb
