import Vanilla.Usb.PipeQueue

namespace Vanilla.Usb

/-! Cancelling a URB. `usbhc_cancel_urb` does not look at the state of the URB,
so it does what is asked of it only for a URB that waits in the queue. -/

variable {Core : Type}

/-! ## Which URBs have been started -/

def begunStep (urb : Nat) (begun : Bool) : Action → Bool
  | .submitted other => if other = urb then false else begun
  | .started other => if other = urb then true else begun
  | .called _ _ => begun

/-- The URB has been started since it was last submitted. -/
def Begun (trace : List Action) (urb : Nat) : Prop :=
  trace.foldl (begunStep urb) false = true

theorem begun_submitted {trace : List Action} {index urb : Nat} :
    Begun (trace ++ [.submitted index]) urb ↔ index ≠ urb ∧ Begun trace urb := by
  rw [Begun, List.foldl_append]
  by_cases same : index = urb <;> simp [begunStep, same, Begun]

theorem begun_started {trace : List Action} {index urb : Nat} :
    Begun (trace ++ [.started index]) urb ↔ index = urb ∨ Begun trace urb := by
  rw [Begun, List.foldl_append]
  by_cases same : index = urb <;> simp [begunStep, same, Begun]

theorem begun_called {trace : List Action} {index urb : Nat} {linked : Bool} :
    Begun (trace ++ [.called index linked]) urb ↔ Begun trace urb := by
  rw [Begun, List.foldl_append]
  rfl

/-! ## The queue a client sees -/

namespace UrbQueue

def urbs (queue : UrbQueue) : List Nat := queue.active.toList ++ queue.waiting

/-- A URB submitted to an empty queue is active at once. -/
def submit (queue : UrbQueue) (urb : Nat) : UrbQueue :=
  if queue.urbs = [] then ⟨some urb, []⟩ else { queue with waiting := queue.waiting ++ [urb] }

def cancel (queue : UrbQueue) (urb : Nat) : UrbQueue :=
  { queue with waiting := queue.waiting.erase urb }

def act (queue : UrbQueue) : ClientAction → UrbQueue
  | .submit index _ => queue.submit index
  | .cancel index => queue.cancel index

/-- While the callback of the active URB runs. -/
def whileCalled (queue : UrbQueue) (urbs : Nat → Urb) : UrbQueue :=
  match queue.active with
  | none => queue
  | some urb =>
      if (urbs urb).flags &&& urbFlagsInterruptIn ≠ 0 then queue
      else { queue with active := none }

/-- A queue with URBs has an active one. -/
def Busy (queue : UrbQueue) : Prop := queue.active = none → queue.waiting = []

theorem Busy.act {queue : UrbQueue} (busy : queue.Busy) (action : ClientAction) :
    (queue.act action).Busy := by
  cases action with
  | submit index urb =>
      change (queue.submit index).Busy
      rw [UrbQueue.submit]
      by_cases empty : queue.urbs = []
      · rw [if_pos empty]
        exact fun none_ => nomatch none_
      · rw [if_neg empty]
        intro none_
        exact absurd (by rw [UrbQueue.urbs, show queue.active = none from none_, busy none_]; rfl)
          empty
  | cancel index =>
      intro none_
      change queue.waiting.erase index = []
      rw [busy none_]
      rfl

end UrbQueue

/-- URBs are submitted while they are not queued, and cancelled while they wait. -/
def ClientAction.Permitted (queue : UrbQueue) : ClientAction → Prop
  | .submit index _ => index ∉ queue.urbs
  | .cancel index => index ∈ queue.waiting

def PermittedAll : UrbQueue → List ClientAction → Prop
  | _, [] => True
  | queue, action :: rest => action.Permitted queue ∧ PermittedAll (queue.act action) rest

/-- What the driver's state says about the queue. -/
structure Describes (state : HcState Core) (queue : UrbQueue) : Prop where
  ring : Ring state.links .urbList (queue.urbs.map .urb)
  begun : ∀ urb ∈ queue.urbs, Begun state.trace urb ↔ queue.active = some urb

structure Holding (state : HcState Core) (queue : UrbQueue) : Prop extends
    Describes state queue where
  alone : state.links.Only (.urbList :: queue.urbs.map .urb)
  idle : queue.active = none → state.pipe.state = .idle

theorem Holding.of_same {state after : HcState Core} {queue : UrbQueue}
    (holding : Holding state queue) (links : after.links = state.links)
    (trace : after.trace = state.trace)
    (idle : queue.active = none → after.pipe.state = .idle) : Holding after queue where
  ring := links ▸ holding.ring
  begun := trace ▸ holding.begun
  alone := links ▸ holding.alone
  idle := idle

theorem Describes.nodup {state : HcState Core} {queue : UrbQueue}
    (describes : Describes state queue) : queue.urbs.Nodup :=
  (List.nodup_cons.mp describes.ring.distinct).2.of_map

/-! ## One operation -/

/-- Starting the first URB, also when it has been started before. -/
theorem Holding.start {state after : HcState Core} {queue : UrbQueue} {urb : Nat}
    {rest : List Nat} (holding : Holding state queue) (urbs : queue.urbs = urb :: rest)
    (started : Started urb state after) : Holding after ⟨some urb, rest⟩ where
  ring := by
    have ring := holding.ring
    rw [urbs, ← started.links] at ring
    exact ring
  begun := by
    intro other member
    have queued : other ∈ queue.urbs := urbs ▸ member
    rw [started.trace, begun_started, holding.begun other queued]
    constructor
    · rintro (same | active)
      · rw [same]
      · have head : queue.urbs = other :: queue.waiting := by
          rw [UrbQueue.urbs, active]
          rfl
        rw [urbs] at head
        rw [(List.cons.inj head).1]
    · exact fun same => .inl (Option.some.inj same)
  alone := by
    have alone := holding.alone
    rw [urbs, ← started.links] at alone
    exact alone
  idle := fun none_ => nomatch none_

/-- A URB behind the others, not started yet. -/
theorem Holding.enqueue {state : HcState Core} {queue : UrbQueue} {index : Nat}
    (holding : Holding state queue) (fresh : index ∉ queue.urbs) {links : Links ListNode}
    (added : state.links.addLast (.urb index) .urbList = some links)
    (ring : Ring links .urbList ((queue.urbs ++ [index]).map .urb)) :
    Holding ({ state with links := links }.record (.submitted index))
      { queue with waiting := queue.waiting ++ [index] } := by
  have urbs : queue.urbs ++ [index] =
      UrbQueue.urbs { queue with waiting := queue.waiting ++ [index] } :=
    List.append_assoc _ _ _
  have notActive : queue.active ≠ some index := by
    intro active
    apply fresh
    rw [UrbQueue.urbs, active]
    exact List.mem_cons_self
  refine ⟨⟨urbs ▸ ring, ?_⟩, ?_, holding.idle⟩
  · intro urb member
    rw [← urbs] at member
    change Begun (state.trace ++ [.submitted index]) urb ↔ queue.active = some urb
    rw [begun_submitted]
    cases List.mem_append.mp member with
    | inl old =>
        have other : index ≠ urb := fun same => fresh (same ▸ old)
        rw [holding.begun urb old]
        exact and_iff_right other
    | inr new =>
        rw [List.mem_singleton.mp new]
        exact ⟨fun both => absurd rfl both.1, fun active => absurd active notActive⟩
  · rw [← urbs, List.map_append]
    exact holding.ring.addLast_only holding.alone added

theorem Holding.submit {state : HcState Core} {queue : UrbQueue} {index : Nat}
    (holding : Holding state queue) (fresh : index ∉ queue.urbs) :
    ∃ after, (@usbhcSubmitUrb Core index).run state = .ok () after ∧
      Holding after (queue.submit index) := by
  rcases usbhcSubmitUrb_submitted holding.ring fresh with
    ⟨links, after, added, ring, run, outcome⟩
  refine ⟨after, run, ?_⟩
  have queued := holding.enqueue fresh added ring
  rw [UrbQueue.submit]
  rcases outcome with ⟨empty, started⟩ | ⟨others, rfl⟩
  · rw [if_pos empty]
    apply queued.start _ started
    change queue.active.toList ++ (queue.waiting ++ [index]) = [index]
    rw [← List.append_assoc]
    exact congrArg (· ++ [index]) empty
  · rw [if_neg others]
    exact queued

/-- Cancelling a URB that waits does what is asked. -/
theorem Holding.cancel {state : HcState Core} {queue : UrbQueue} {index : Nat}
    (holding : Holding state queue) (waits : index ∈ queue.waiting) :
    ∃ links, (@usbhcCancelUrb Core index).run state = .ok true { state with links := links } ∧
      Holding { state with links := links } (queue.cancel index) := by
  rcases List.exists_erase_eq waits with ⟨front, back, _, split, erased⟩
  have urbs : queue.urbs = (queue.active.toList ++ front) ++ index :: back := by
    rw [UrbQueue.urbs, split, List.append_assoc]
  have left : (queue.cancel index).urbs = (queue.active.toList ++ front) ++ back := by
    rw [UrbQueue.urbs, UrbQueue.cancel, erased, List.append_assoc]
  have ring := holding.ring
  rw [urbs] at ring
  rcases usbhcCancelUrb_queued ring with ⟨links, deleted, shorter, run⟩
  refine ⟨links, run, ⟨?_, ?_⟩, ?_, holding.idle⟩
  · rw [left]
    exact shorter
  · intro urb member
    apply holding.begun urb
    rw [left, List.mem_append] at member
    rw [urbs, List.mem_append, List.mem_cons]
    exact member.imp_right .inr
  · have alone := holding.alone
    rw [urbs, List.map_append, List.map_cons] at alone
    rw [List.map_append, List.map_cons] at ring
    rw [left, List.map_append]
    exact ring.delete_only alone deleted

theorem Holding.perform {state : HcState Core} {queue : UrbQueue} {action : ClientAction}
    (holding : Holding state queue) (permitted : action.Permitted queue) :
    ∃ after, (action.perform : Exec (HcState Core) Unit).run state = .ok () after ∧
      Holding after (queue.act action) := by
  cases action with
  | submit index urb =>
      have filled : Holding (state.setUrb index urb) queue := holding.of_same rfl rfl holding.idle
      exact filled.submit permitted
  | cancel index =>
      rcases holding.cancel permitted with ⟨links, run, kept⟩
      exact ⟨_, run_perform_cancel run, kept⟩

theorem Holding.performAll : ∀ {actions : List ClientAction} {state : HcState Core}
    {queue : UrbQueue}, Holding state queue → PermittedAll queue actions →
      ∃ after, (performAll actions : Exec (HcState Core) Unit).run state = .ok () after ∧
        Holding after (actions.foldl .act queue)
  | [], state, queue, holding, _ => ⟨state, rfl, holding⟩
  | action :: rest, state, queue, holding, permitted => by
      rcases holding.perform permitted.1 with ⟨between, run, kept⟩
      rcases kept.performAll permitted.2 with ⟨after, others, last⟩
      refine ⟨after, ?_, last⟩
      rw [Usb.performAll, Exec.run_bind_of_ok run]
      exact others

/-! ## Ending the active URB -/

theorem Holding.whenCalled {state : HcState Core} {queue : UrbQueue}
    (holding : Holding state queue) (index : Nat) (status : UrbStatus) :
    Holding (whenCalled index status state) queue where
  ring := holding.ring
  begun := by
    intro urb member
    change Begun (state.trace ++ [.called index _]) urb ↔ _
    rw [begun_called]
    exact holding.begun urb member
  alone := holding.alone
  idle := holding.idle

theorem Holding.unlink {state : HcState Core} {urb : Nat} {rest : List Nat}
    (holding : Holding state ⟨some urb, rest⟩) {links : Links ListNode}
    (deleted : state.links.deleteNode (.urb urb) = some links)
    (ring : Ring links .urbList (rest.map .urb)) :
    Holding { state.setPipeState .idle with links := links } ⟨none, rest⟩ where
  ring := ring
  begun := by
    intro other member
    have apart : other ≠ urb :=
      fun same => (List.nodup_cons.mp holding.nodup).1 (same ▸ member)
    change Begun state.trace other ↔ _
    rw [holding.begun other (List.mem_cons_of_mem _ member)]
    constructor
    · exact fun same => absurd (Option.some.inj same).symm apart
    · exact fun none_ => nomatch none_
  alone := by
    have queued : Ring state.links .urbList ([] ++ ListNode.urb urb :: rest.map .urb) :=
      holding.ring
    exact queued.delete_only holding.alone deleted
  idle := fun _ => rfl

theorem busy_foldl : ∀ {actions : List ClientAction} {queue : UrbQueue}, queue.Busy →
    (actions.foldl .act queue).Busy
  | [], _, busy => busy
  | action :: _, _, busy => @busy_foldl _ (UrbQueue.act _ action) (busy.act action)

theorem Holding.endUrb {state : HcState Core} {urb : Nat} {rest : List Nat}
    (holding : Holding state ⟨some urb, rest⟩) {actions : List ClientAction}
    (permitted : PermittedAll (UrbQueue.whileCalled ⟨some urb, rest⟩ state.urbs) actions)
    (status : UrbStatus) :
    ∃ after last, (@usbhcEndUrb Core (fun _ => Usb.performAll actions) urb status).run state =
      .ok () after ∧ Holding after last ∧ last.Busy := by
  change PermittedAll (if (state.urbs urb).flags &&& urbFlagsInterruptIn ≠ 0 then
    ⟨some urb, rest⟩ else ⟨none, rest⟩) actions at permitted
  by_cases interruptIn : (state.urbs urb).flags &&& urbFlagsInterruptIn ≠ 0
  · rw [if_pos interruptIn] at permitted
    rcases (holding.whenCalled urb status).performAll permitted with ⟨after, run, kept⟩
    refine ⟨after, _, ?_, kept, busy_foldl fun none_ => nomatch none_⟩
    rw [usbhcEndUrb_interruptIn interruptIn]
    exact run
  · rw [if_neg interruptIn] at permitted
    rcases @usbhcEndUrb_unlinked Core (fun _ => Usb.performAll actions) urb rest status state
        holding.ring interruptIn with ⟨links, deleted, ring, finish⟩
    have cleared := (holding.unlink deleted ring).whenCalled urb status
    rcases cleared.performAll permitted with ⟨called, returns, kept⟩
    rcases finish called _ returns kept.ring with ⟨after, run, finishes⟩
    rcases finishes with ⟨rfl, stopped⟩ | ⟨next, others, urbs, _, started⟩
    · refine ⟨after, _, run, kept, fun none_ => ?_⟩
      cases stopped with
      | inl empty => exact (List.append_eq_nil_iff.mp empty).2
      | inr active => exact absurd (kept.idle none_) active
    · exact ⟨after, ⟨some next, others⟩, run, kept.start urbs started,
        fun none_ => nomatch none_⟩

/-! ## Events -/

def PipeEvent.Permitted (state : HcState Core) (queue : UrbQueue) : PipeEvent → Prop
  | .client action => action.Permitted queue
  | .interrupt _ actions => PermittedAll (queue.whileCalled state.urbs) actions

theorem UrbQueue.whileCalled_congr {queue : UrbQueue} {urbs others : Nat → Urb}
    (same : ∀ urb, (others urb).flags = (urbs urb).flags) :
    queue.whileCalled others = queue.whileCalled urbs := by
  rw [UrbQueue.whileCalled, UrbQueue.whileCalled]
  cases queue.active with
  | none => rfl
  | some urb => simp only [same urb]

theorem Holding.exception {state after : HcState Core} {queue : UrbQueue} {kind : Interrupt}
    {actions : List ClientAction} (holding : Holding state queue) (busy : queue.Busy)
    (permitted : PermittedAll (queue.whileCalled state.urbs) actions)
    (returns : (@usbhcPipeException Core (fun _ => Usb.performAll actions) kind).run state =
      .ok () after) :
    ∃ last, Holding after last ∧ last.Busy := by
  have quiet : Holding (state.setPending none) queue := holding.of_same rfl rfl holding.idle
  have head : ∀ urb, state.links.next .urbList = some (.urb urb) →
      queue = ⟨some urb, queue.waiting⟩ := by
    intro urb first
    cases active : queue.active with
    | none =>
        have empty : queue.urbs = [] := by
          rw [UrbQueue.urbs, active, busy active]
          rfl
        have self := holding.ring
        rw [empty] at self
        rw [self.next_nil] at first
        cases first
    | some other =>
        have ring := holding.ring
        rw [UrbQueue.urbs, active] at ring
        have same := ring.next_cons.symm.trans first
        cases same
        rw [← active]
  cases usbhcPipeException_handled returns with
  | waits links trace pipe =>
      refine ⟨queue, holding.of_same links trace fun none_ => ?_, busy⟩
      rcases pipe with same | ⟨urb, first⟩
      · rw [same]
        exact holding.idle none_
      · rw [head urb first] at none_
        cases none_
  | @ends urb status middle first links trace flags run =>
      have split := head urb first
      have kept : Holding middle queue := quiet.of_same links trace fun none_ => by
        rw [split] at none_
        cases none_
      have alike : queue.whileCalled middle.urbs = queue.whileCalled state.urbs :=
        UrbQueue.whileCalled_congr flags
      rw [← alike, split] at permitted
      rw [split] at kept
      rcases kept.endUrb permitted status with ⟨final, last, ended, stands, busy⟩
      rw [run] at ended
      cases ended
      exact ⟨last, stands, busy⟩

/-! ## Whole runs -/

/-- An event that returns, with every cancelled URB waiting in the queue. -/
structure PipeStep (before : HcState Core) (event : PipeEvent) (after : HcState Core) :
    Prop where
  handled : event.handle.run before = .ok () after
  permitted : ∀ queue, Describes before queue → event.Permitted before queue

theorem Holding.step {before after : HcState Core} {queue : UrbQueue} {event : PipeEvent}
    (holding : Holding before queue) (busy : queue.Busy) (step : PipeStep before event after) :
    ∃ last, Holding after last ∧ last.Busy := by
  have permitted := step.permitted queue holding.toDescribes
  cases event with
  | client action =>
      rcases holding.perform permitted with ⟨final, run, kept⟩
      have same : EStateM.Result.ok () final = EStateM.Result.ok () after :=
        run.symm.trans step.handled
      cases same
      exact ⟨_, kept, busy.act action⟩
  | interrupt kind actions => exact holding.exception busy permitted step.handled

theorem holding_of_run {start last : HcState Core} {events : List PipeEvent}
    (configured : Configured start) (unlinked : start.links.Only [.urbList])
    (run : Run PipeStep start events last) : ∃ queue, Holding last queue ∧ queue.Busy := by
  apply run.invariant (fun state => ∃ queue, Holding state queue ∧ queue.Busy)
  · rintro before event after ⟨queue, holding, busy⟩ step
    exact holding.step busy step
  · refine ⟨⟨none, []⟩, ⟨⟨configured.empty, ?_⟩, unlinked, fun _ => configured.idle⟩,
      fun _ => rfl⟩
    exact fun urb member => absurd member List.not_mem_nil

/-- What cancelling is for: a URB that waits is taken out of the queue, and for
any other the answer is 0 and nothing changes. -/
def CancelsWaiting (state : HcState Core) (queue : UrbQueue) (urb : Nat) : Prop :=
  if urb ∈ queue.waiting then
    ∃ links, (@usbhcCancelUrb Core urb).run state = .ok true { state with links := links } ∧
      Describes { state with links := links } (queue.cancel urb)
  else (@usbhcCancelUrb Core urb).run state = .ok false state

/-- It never answers 0. -/
theorem usbhcCancelUrb_not_refused (urb : Nat) (state after : HcState Core) :
    (@usbhcCancelUrb Core urb).run state ≠ .ok false after := by
  intro refused
  rw [usbhcCancelUrb, Exec.run_bind_of_ok (EStateM.run_get state)] at refused
  rcases Exec.run_bind_ok.mp refused with ⟨links, between, _, rest⟩
  cases rest

/-- In every run that cancels waiting URBs only, the first URB of the queue is
the active one, and cancelling is right for exactly the URBs behind it. -/
theorem cancel_right_iff_waiting {Core : Type} {start last : HcState Core}
    {events : List PipeEvent} (configured : Configured start)
    (unlinked : start.links.Only [.urbList]) (run : Run PipeStep start events last) :
    ∃ queue, Describes last queue ∧ (queue.active = none → queue.waiting = []) ∧
      ∀ urb, CancelsWaiting last queue urb ↔ urb ∈ queue.waiting := by
  rcases holding_of_run configured unlinked run with ⟨queue, holding, busy⟩
  refine ⟨queue, holding.toDescribes, busy, fun urb => ?_⟩
  rw [CancelsWaiting]
  constructor
  · intro right
    by_contra other
    rw [if_neg other] at right
    exact usbhcCancelUrb_not_refused urb last last right
  · intro waits
    rw [if_pos waits]
    rcases holding.cancel waits with ⟨links, cancelled, kept⟩
    exact ⟨links, cancelled, kept.toDescribes⟩

/-! ## Cancelling the active URB -/

theorem idlePipe_unlinked : idlePipe.links.Only [.urbList] := by
  intro node outside
  have apart : node ≠ .urbList := fun same => outside (List.mem_singleton.mpr same)
  simp [idlePipe, Links.init, apart]

def submitRequest : PipeEvent := .client (.submit 0 setRequest.urb)

/-- The pipe with a request under way. -/
def requested : HcState Unit :=
  match submitRequest.handle.run idlePipe with
  | .ok _ after => after
  | .error _ after => after

theorem idlePipe_requested : Run PipeStep idlePipe [submitRequest] requested := by
  refine .cons ⟨rfl, fun queue describes => ?_⟩ (.nil _)
  have empty : queue.urbs.map ListNode.urb = [] := describes.ring.next_self_iff.mp rfl
  change 0 ∉ queue.urbs
  rw [List.map_eq_nil_iff.mp empty]
  exact List.not_mem_nil

theorem cancel_right_iff_waiting_requested :
    ∃ queue, Describes requested queue ∧ (queue.active = none → queue.waiting = []) ∧
      ∀ urb, CancelsWaiting requested queue urb ↔ urb ∈ queue.waiting :=
  cancel_right_iff_waiting idlePipe_configured idlePipe_unlinked idlePipe_requested

theorem requested_active : Describes requested ⟨some 0, []⟩ where
  ring := by
    refine ⟨⟨rfl, rfl, rfl, rfl⟩, ?_⟩
    decide
  begun := by
    intro urb member
    rw [List.mem_singleton.mp member]
    exact ⟨fun _ => rfl, fun _ => rfl⟩

/-- The active URB is taken out of the queue with the answer 1, and the interrupt
of its setup packet finds no URB. -/
theorem active_urb_cancelled :
    Configured idlePipe ∧ idlePipe.links.Only [.urbList] ∧
      Run PipeStep idlePipe [submitRequest] requested ∧ Describes requested ⟨some 0, []⟩ ∧
      ¬ CancelsWaiting requested ⟨some 0, []⟩ 0 ∧
      ∃ cancelled, (@usbhcCancelUrb Unit 0).run requested = .ok true cancelled ∧
        cancelled.pending = some Interrupt.txSetup.token ∧
        ∃ after, (PipeEvent.interrupt .txSetup []).handle.run cancelled =
          .error .outOfBounds after := by
  refine ⟨idlePipe_configured, idlePipe_unlinked, idlePipe_requested, requested_active, ?_,
    _, rfl, rfl, _, rfl⟩
  intro right
  rw [CancelsWaiting, if_neg List.not_mem_nil] at right
  exact usbhcCancelUrb_not_refused 0 requested requested right

end Vanilla.Usb
