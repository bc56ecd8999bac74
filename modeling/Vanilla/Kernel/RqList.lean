import Vanilla.Kernel.Dispatch

/-! # `rq_list` and the blocked threads

The pointer in a real-time thread's control block agrees with the queue the thread
is in, and a blocked thread stays blocked until it is unblocked.
-/

namespace Vanilla.Kernel

open Mm

/-! ## Calls that change nothing -/

/-- Code that only reads. -/
def ReadsOnly {Value : Type} (code : Exec Machine Value) : Prop :=
  ∀ kernel value after, code.run kernel = .ok value after → after = kernel

theorem readsOnly_deref {Value : Type} (source : Option Value) :
    ReadsOnly (Exec.deref source : Exec Machine Value) := by
  intro kernel value after returns
  cases source with
  | none => cases returns
  | some pointer =>
      cases returns
      rfl

theorem readsOnly_findThread (tid rounds : Nat) (start : Option NodePtr) :
    ReadsOnly (findThread tid rounds start) := by
  induction rounds generalizing start with
  | zero =>
      intro kernel value after returns
      cases start <;> cases returns
      rfl
  | succ rounds induction =>
      intro kernel value after returns
      cases start with
      | none =>
          cases returns
          rfl
      | some node =>
          rw [findThread] at returns
          rcases Exec.run_bind_ok.mp returns with ⟨thread, between, found, rest⟩
          have same : between = kernel := by
            rcases Exec.run_bind_ok.mp found with ⟨read, middle, reads, derefs⟩
            cases reads
            exact readsOnly_deref _ _ _ _ derefs
          subst same
          rw [Exec.run_bind_of_ok (EStateM.run_get between)] at rest
          by_cases isThread : (between.thread thread).tid = tid
          · rw [if_pos isThread] at rest
            cases rest
            rfl
          · rw [if_neg isThread] at rest
            exact induction _ _ _ _ rest

theorem run_getThread {kernel : Machine} {tid : Nat} {thread : ThreadPtr}
    (found : threadOf kernel tid = some thread) :
    (getThread tid).run kernel = .ok (some thread) kernel := by
  cases outcome : (getThread tid).run kernel with
  | error reason after =>
      rw [threadOf, outcome] at found
      cases found
  | ok value after =>
      rw [threadOf, outcome] at found
      have reads : after = kernel := by
        rw [getThread, Exec.run_bind_of_ok (EStateM.run_get kernel)] at outcome
        exact readsOnly_findThread _ _ _ _ _ _ outcome
      cases found
      rw [reads]

section Unchanged

variable {kernel : Machine} {tid : Nat} {thread : ThreadPtr}
  (found : threadOf kernel tid = some thread) (other : kernel.currThread ≠ some thread)
  (realTime : (kernel.thread thread).schedClass = .realTime)

include found other realTime

/-- Blocking a blocked thread changes nothing. -/
theorem run_threadBlock_blocked (blocked : (kernel.thread thread).rqList = some .blockedQ) :
    (threadBlock tid).run kernel = .ok () kernel := by
  have present : SchedulingClass.block (kernel.thread thread).schedClass.table =
      some rtBlock := by
    rw [realTime]
    rfl
  rw [threadBlock, Exec.run_bind_of_ok (run_getThread found)]
  rw [run_onOtherThread other, present, Option.elim_some]
  rw [rtBlock, Exec.run_bind_of_ok (EStateM.run_get kernel), blocked]
  rfl

/-- Unblocking a thread that is not blocked changes nothing. -/
theorem run_threadUnblock_other (free : (kernel.thread thread).rqList ≠ some .blockedQ) :
    (threadUnblock tid).run kernel = .ok () kernel := by
  have present : SchedulingClass.unblock (kernel.thread thread).schedClass.table =
      some rtUnblock := by
    rw [realTime]
    rfl
  rw [threadUnblock, Exec.run_bind_of_ok (run_getThread found)]
  rw [run_onOtherThread other, present, Option.elim_some]
  rw [rtUnblock, Exec.run_bind_of_ok (EStateM.run_get kernel), if_pos free]
  rfl

end Unchanged

/-! ## Blocked threads -/

section Steps

variable {linker : Linker} {lists : KernelLists} {model next : Model} {spare : List Nat}
  {event : Event} {thread : ThreadPtr}

/-- The event does not unblock this thread. -/
def KeepsBlocked (kernel : Machine) (thread : ThreadPtr) (event : Event) : Prop :=
  ∀ tid, event = .unblock tid → threadOf kernel tid ≠ some thread

theorem beforePick_blocked (model : Model) (curr : ThreadPtr) (cvr : Nat) :
    (model.beforePick curr cvr).queue .blockedQ = model.queue .blockedQ := by
  apply (beforePick_frame model curr cvr).queues .blockedQ (by simp)
  intro schedClass
  cases schedClass <;> simp [KernelState.runQueue]

/-- The thread that runs is not blocked. -/
theorem Sound.curr_unblocked {curr : ThreadPtr} (sound : Sound linker model spare)
    (isCurr : model.currThread = some curr) (switched : model.pendsvPending = false) :
    curr ∉ model.queue .blockedQ := by
  have running : QueueId.blockedQ.Running := by simp [QueueId.Running]
  intro blocked
  by_cases awake : (model.thread curr).tickToWake = 0
  · have hand : model.inHand = some curr := by
      simp [KernelState.inHand, switched, isCurr, Option.filter, awake]
    exact sound.placed.heldUnqueued curr (Option.mem_toList.mpr hand) .blockedQ running blocked
  · have asleep := (sound.current curr isCurr).2 awake
    have same := sound.placed.apart .sleepQ .blockedQ (by simp [QueueId.Running]) running curr
      asleep blocked
    cases same

theorem Transition.blocked (transition : Transition model event next)
    (rep : ListsRep lists model.lists) (sound : Sound linker model spare)
    (paired : event ≠ .pendsv → model.pendsvPending = false)
    (keeps : KeepsBlocked (model.withLists lists) thread event)
    (blocked : thread ∈ model.queue .blockedQ) : thread ∈ next.queue .blockedQ := by
  have fits := sound.placed.fits .blockedQ thread blocked
  cases transition with
  | @newThread info created mm _ _ _ =>
      rw [newThread_queue model info created mm (by simp)]
      · exact blocked
      · cases info.schedClass <;> simp [KernelState.runQueue]
  | @start created next mm after _ _ _ _ picked _ =>
      change thread ∈ after.queue .blockedQ
      rw [(pick_frame picked).queues .blockedQ (by simp [KernelState.pickOrder]),
        KernelState.withIdle_queue, if_neg (by simp)]
      exact blocked
  | @sleep curr ms _ _ =>
      rw [(threadSleep_frame model curr ms).queues .blockedQ (by simp)]
      exact blocked
  | @stays curr chosen cvr after _ _ _ picked =>
      change thread ∈ after.queue .blockedQ
      rw [(pick_frame picked).queues .blockedQ (by simp [KernelState.pickOrder]),
        beforePick_blocked]
      exact blocked
  | @exits curr chosen cvr mm after isCurr _ _ _ picked _ =>
      have different : thread ≠ curr := fun equal =>
        sound.curr_unblocked isCurr (paired (by simp)) (equal ▸ blocked)
      change thread ∈ after.queue .blockedQ
      rw [(pick_frame picked).queues .blockedQ (by simp [KernelState.pickOrder]),
        removeThread_queue _ curr mm (by simp [QueueId.Running]), beforePick_blocked]
      split
      · exact (List.mem_erase_of_ne different).mpr blocked
      · exact blocked
  | pendsv _ _ => exact blocked
  | stillBlocked _ _ => exact blocked
  | @block other tid queue _ _ _ running notBlocked _ rqList =>
      rw [KernelState.block, KernelState.queue_setThread, KernelState.append,
        KernelState.queue_setQueue_self, KernelState.remove_queue_of_ne _ _ (Ne.symm notBlocked)]
      exact List.mem_append_left _ blocked
  | notBlocked _ _ => exact blocked
  | @unblock other tid found _ _ _ =>
      have different : thread ≠ other := by
        intro equal
        apply keeps tid rfl
        rw [equal]
        exact (threadOf_eq rep sound.placed.ready tid).trans found
      rw [KernelState.unblock, KernelState.queue_setThread, KernelState.append,
        KernelState.queue_setQueue_of_ne _ _ _ _ (by simp), KernelState.queue_setThread,
        KernelState.remove_queue_self]
      exact (List.mem_erase_of_ne different).mpr blocked
  | exit _ => exact blocked
  | @kill tid =>
      rw [KernelState.killThread]
      split <;> exact blocked
  | allocate => exact blocked
  | release => exact blocked

/-- `unblock` leaves the thread ready, and nowhere else. -/
theorem unblock_ready (model : Model) (thread : ThreadPtr) :
    thread ∈ (model.unblock thread).queue .rtRq ∧
      ((model.unblock thread).thread thread).tickToWake = 0 := by
  constructor
  · rw [KernelState.unblock, KernelState.queue_setThread, KernelState.append,
      KernelState.queue_setQueue_self]
    exact List.mem_append_right _ List.mem_cons_self
  · simp [KernelState.unblock, KernelState.append]

end Steps

/-! ## Runs -/

section Runs

variable {linker : Linker} {memory : ByteMemory} {before after system : System}
  {events : List Event} {thread : ThreadPtr}

/-- An orderly step that does not unblock this thread. -/
def StepKeeping (thread : ThreadPtr) (before : System) (event : Event) (after : System) :
    Prop :=
  OrderlyStep before event after ∧ KeepsBlocked before.kernel thread event

/-- The thread is blocked, and is not picked or woken. -/
def StaysBlocked (kernel : Machine) (thread : ThreadPtr) : Prop :=
  ∃ queues, InPlace kernel queues ∧ thread ∈ queues .blockedQ ∧ thread ∉ queues .sleepQ ∧
    kernel.inHand ≠ some thread

theorem Stands.staysBlocked {model : Model} (stands : Stands linker system model)
    (blocked : thread ∈ model.queue .blockedQ) : StaysBlocked system.kernel thread := by
  have running : QueueId.blockedQ.Running := by simp [QueueId.Running]
  rcases stands with ⟨lists, same, rep, sound, _⟩
  rw [same]
  refine ⟨model.queue, sound.inPlace rep, blocked, ?_, ?_⟩
  · intro asleep
    have same := sound.placed.apart .sleepQ .blockedQ (by simp [QueueId.Running]) running thread
      asleep blocked
    cases same
  · intro hand
    exact sound.placed.heldUnqueued thread (Option.mem_toList.mpr hand) .blockedQ running blocked

theorem blocked_run {model : Model} (stands : Stands linker before model)
    (steady : Steady model) (blocked : thread ∈ model.queue .blockedQ)
    (run : Run (StepKeeping thread) before events after) : StaysBlocked after.kernel thread := by
  have kept : ∃ next, Stands linker after next ∧ Steady next ∧
      thread ∈ next.queue .blockedQ := by
    apply run.invariant (fun system => ∃ model, Stands linker system model ∧ Steady model ∧
      thread ∈ model.queue .blockedQ) _ ⟨model, stands, steady, blocked⟩
    intro before event after holds step
    rcases holds with ⟨model, stands, steady, blocked⟩
    rcases step with ⟨orderlyStep, keeps⟩
    have allowed := OrderlySystem.allowed ⟨model, stands, steady⟩ orderlyStep
    rcases stands.step allowed with ⟨next, transition, standsNext⟩
    rcases stands with ⟨lists, same, rep, sound, _⟩
    cases orderlyStep with
    | intro _ isOrderly =>
        rw [same] at isOrderly keeps
        refine ⟨next, standsNext, steady.step transition sound isOrderly, ?_⟩
        apply transition.blocked rep sound _ keeps blocked
        intro notPendsv
        by_contra pending
        exact notPendsv (isOrderly.1 (Bool.eq_true_of_not_eq_false pending))
  rcases kept with ⟨next, standsNext, _, blockedNext⟩
  exact standsNext.staysBlocked blockedNext

/-- The thread is in the queue its `rq_list` names, and in no other. -/
def Named (kernel : Machine) (queues : QueueId → List ThreadPtr) (thread : ThreadPtr) : Prop :=
  ∃ queue ∈ [QueueId.rtRq, .sleepQ, .blockedQ], (kernel.thread thread).rqList = some queue ∧
    ∀ other : QueueId, other.Running → (thread ∈ queues other ↔ other = queue)

theorem Sound.named {lists : KernelLists} {model : Model} {spare : List Nat}
    (sound : Sound linker model spare) (known : thread ∈ model.queue .threads)
    (realTime : (model.thread thread).schedClass = .realTime)
    (notHeld : model.inHand ≠ some thread) :
    Named (model.withLists lists) model.queue thread := by
  rcases sound.queue_of known realTime notHeld with ⟨queue, running, member, rqList⟩
  refine ⟨queue, ?_, rqList, ?_⟩
  · have fits := sound.placed.fits queue thread member
    cases queue with
    | appRq => cases realTime.symm.trans fits.1
    | backgroundRq => cases realTime.symm.trans fits.1
    | threads => exact absurd rfl running
    | _ => simp
  · intro other otherRunning
    constructor
    · exact fun inOther => sound.placed.apart other queue otherRunning running thread inOther member
    · exact fun equal => equal ▸ member

/-- In every orderly run the `rq_list` of a real-time thread that does not run names
the queue it is in; a blocked thread is not picked or woken until it is unblocked,
and is ready then; and calls that have nothing to do change nothing. -/
theorem rq_list_names_queue (run : Run OrderlyStep (powerUp linker memory) events system) :
    ∃ queues, InPlace system.kernel queues ∧
      (∀ thread ∈ queues .threads, (system.kernel.thread thread).schedClass = .realTime →
        system.kernel.inHand ≠ some thread → Named system.kernel queues thread) ∧
      (∀ thread ∈ queues .blockedQ, ∀ later after,
        Run (StepKeeping thread) system later after → StaysBlocked after.kernel thread) ∧
      ∀ tid thread, threadOf system.kernel tid = some thread →
        system.kernel.pendsvPending = false →
        (system.kernel.thread thread).schedClass = .realTime →
        system.kernel.currThread ≠ some thread →
        if thread ∈ queues .blockedQ then
          (perform (.block tid)).run system = .ok () system ∧
            ∃ after later, (perform (.unblock tid)).run system = .ok () after ∧
              InPlace after.kernel later ∧ thread ∈ later .rtRq ∧
              Named after.kernel later thread ∧ (after.kernel.thread thread).tickToWake = 0
        else (perform (.unblock tid)).run system = .ok () system := by
  rcases (orderly_powerUp linker memory).run run with ⟨⟨model, stands, steady⟩, allowedRun⟩
  have whole := stands
  rcases whole with ⟨lists, same, rep, sound, pends⟩
  refine ⟨model.queue, same ▸ sound.inPlace rep, ?_, ?_, ?_⟩
  · rw [same]
    exact fun thread known realTime notHeld => sound.named known realTime notHeld
  · exact fun thread blocked later after kept => blocked_run stands steady blocked kept
  · intro tid thread found switched realTime notCurr
    rcases system with ⟨kernel, spare⟩
    change kernel = model.withLists lists at same
    subst same
    have isFound := (threadOf_eq rep sound.placed.ready tid).symm.trans found
    split
    · rename_i blocked
      have rqList := (sound.placed.fits .blockedQ thread blocked).2
      constructor
      · exact Exec.run_zoom_ok (run_threadBlock_blocked found notCurr realTime rqList)
      · rcases takes_threadUnblock rep sound pends isFound realTime notCurr with
          ⟨next, takes, kept, _, _, listed, outcome⟩
        rcases outcome with ⟨_, free⟩ | ⟨isUnblocked, _, _⟩
        · exact absurd rqList free
        · subst isUnblocked
          rcases run_onKernel takes with ⟨final, returns, finalRep⟩
          have ready := unblock_ready model thread
          have running : QueueId.rtRq.Running := by simp [QueueId.Running]
          have known : thread ∈ (model.unblock thread).queue .threads :=
            kept.placed.ready.known .rtRq thread ready.1
          have notHeld : (model.unblock thread).inHand ≠ some thread := fun hand =>
            kept.placed.heldUnqueued thread (Option.mem_toList.mpr hand) .rtRq running ready.1
          exact ⟨_, _, returns, kept.inPlace finalRep, ready.1,
            kept.named known (kept.placed.fits .rtRq thread ready.1).1 notHeld, ready.2⟩
    · rename_i free
      have rqList : (model.thread thread).rqList ≠ some .blockedQ := by
        intro listed
        have notHeld : model.inHand ≠ some thread := by
          intro hand
          cases (sound.awake thread hand).2.symm.trans listed
        rcases sound.queue_of (findThread_known isFound) realTime notHeld with
          ⟨queue, _, member, rqList⟩
        cases rqList.symm.trans listed
        exact free member
      exact Exec.run_zoom_ok (run_threadUnblock_other found notCurr realTime rqList)

theorem rq_list_names_queue_started : ∃ memory system,
    Run OrderlyStep (powerUp lowHeap memory) (twoThreadEvents .realTime) system ∧
      ∃ queues, InPlace system.kernel queues := by
  have notIdle : SchedClass.realTime ≠ .idle := by decide
  rcases two_threads notIdle ⟨fun _ => 0, []⟩ with ⟨lists, model, run, _⟩
  have orderly := orderly_two_threads run
  rcases rq_list_names_queue orderly with ⟨queues, inPlace, _⟩
  exact ⟨_, _, orderly, queues, inPlace⟩

end Runs

/-! ## A thread in two queues

A thread that sleeps until tick 0 counts as awake, so the SysTick enqueues it
although it is in `sleep_q`. Alone there, it has no links that would show it.
-/

section TwoQueues

variable {lists : KernelLists} {model : Model} {curr other : ThreadPtr}

/-- The thread is linked into `rt_rq`, and the one before it is taken off. -/
theorem insert_twice (rep : ListsRep lists model.lists) (ready : model.queue .rtRq = [other])
    (asleep : model.queue .sleepQ = [curr]) (different : curr ≠ other) :
    ∃ inserted removed, (dlistInsertLast (rqNode curr) .rtRq).run lists = .ok () inserted ∧
      (inserted.list .rtRq).first = some (rqNode other) ∧
      (dlistRemoveFirst .rtRq).run inserted = .ok (rqNode other) removed ∧
      (∀ node, (removed.node node).obj = model.lists.obj node) ∧
      Represents removed .sleepQ [rqNode curr] := by
  have ready : Represents lists .rtRq [rqNode other] := by
    have represents := rep.refines.represents .rtRq
    rw [show model.lists.queue .rtRq = [other] from ready] at represents
    exact represents
  have asleep : Represents lists .sleepQ [rqNode curr] := by
    have represents := rep.refines.represents .sleepQ
    rw [show model.lists.queue .sleepQ = [curr] from asleep] at represents
    exact represents
  have nodes : rqNode curr ≠ rqNode other := fun equal =>
    different (congrArg NodePtr.thread equal)
  have fresh : Fresh lists [rqNode other] (rqNode curr) :=
    ⟨asleep.linked.1, asleep.linked.2.1, by simpa using nodes⟩
  rcases dlistInsertLast_spec ready fresh with ⟨inserted, inserts, insertion⟩
  have both : Represents inserted .rtRq [rqNode other, rqNode curr] :=
    Represents.inserted ready fresh (by simp) insertion
  rcases dlistRemoveFirst_spec both rfl with ⟨removed, removes, removal⟩
  have last : Represents removed .rtRq [rqNode curr] := Represents.removed both removal
  have same : removed.list .sleepQ = lists.list .sleepQ := by
    rw [removal.lists .sleepQ (by simp), insertion.lists .sleepQ (by simp)]
  refine ⟨inserted, removed, inserts, both.first, removes, ?_, ?_⟩
  · intro node
    rw [removal.obj, insertion.obj, rep.obj]
  · exact {
      first := same ▸ asleep.first
      last := same ▸ asleep.last
      size := same ▸ asleep.size
      bound := by simp
      nodup := List.nodup_singleton _
      linked := last.linked }

/-- Mark a thread as one of `rt_rq`. -/
def markReady (model : Model) (thread : ThreadPtr) : Model :=
  model.setThread thread fun fields => { fields with rqList := some .rtRq }

theorem run_deref_currThread (isCurr : model.currThread = some curr) :
    (Exec.deref (model.withLists lists).currThread).run (model.withLists lists) =
      .ok curr (model.withLists lists) := by
  rw [show (model.withLists lists).currThread = some curr from isCurr]
  rfl

theorem run_requeueCurrThread {inserted : KernelLists} (isCurr : model.currThread = some curr)
    (awake : (model.thread curr).tickToWake = 0)
    (realTime : (model.thread curr).schedClass = .realTime)
    (inserts : (dlistInsertLast (rqNode curr) .rtRq).run lists = .ok () inserted) :
    requeueCurrThread.run (model.withLists lists) =
      .ok () ((markReady model curr).withLists inserted) := by
  have derefs := @run_deref_currThread lists model curr isCurr
  have isAwake : ((model.withLists lists).thread curr).tickToWake = 0 := awake
  have isRealTime : ((model.withLists lists).thread curr).schedClass = .realTime := realTime
  rw [requeueCurrThread, Exec.run_bind_of_ok (EStateM.run_get _), Exec.run_bind_of_ok derefs,
    if_pos isAwake, enqueue, Exec.run_bind_of_ok (EStateM.run_get _), isRealTime]
  change (rtEnqueue curr).run _ = _
  have enters : (onLists (dlistInsertLast (rqNode curr) .rtRq)).run (model.withLists lists) =
      .ok () (model.withLists inserted) := Exec.run_zoom_ok inserts
  rw [rtEnqueue, Exec.run_bind_of_ok enters]
  rfl

theorem run_removeExitedThread_none (isCurr : model.currThread = some curr)
    (stays : (model.thread curr).exitPending = false) :
    removeExitedThread.run (model.withLists lists) = .ok () (model.withLists lists) := by
  have derefs := @run_deref_currThread lists model curr isCurr
  have notExiting : ¬ ((model.withLists lists).thread curr).exitPending = true := by
    change ¬ (model.thread curr).exitPending = true
    simp [stays]
  rw [removeExitedThread, Exec.run_bind_of_ok (EStateM.run_get _), Exec.run_bind_of_ok derefs,
    if_neg notExiting]
  rfl

theorem run_coreScheduler_realTime {removed : KernelLists}
    (first : (lists.list .rtRq).first = some (rqNode other))
    (removes : (dlistRemoveFirst .rtRq).run lists = .ok (rqNode other) removed)
    (object : (removed.node (rqNode other)).obj = some other) :
    coreScheduler.run (model.withLists lists) = .ok (some other)
      ((model.setThread other fun fields => { fields with rqList := none }).withLists
        removed) := by
  have takesFirst : (onLists (dlistRemoveFirst .rtRq)).run (model.withLists lists) =
      .ok (rqNode other) (model.withLists removed) := Exec.run_zoom_ok removes
  have finds : (nodeThread (rqNode other)).run (model.withLists removed) =
      .ok other (model.withLists removed) := by
    rw [nodeThread, Exec.run_bind_of_ok (EStateM.run_get _)]
    change (Exec.deref (removed.node (rqNode other)).obj).run _ = _
    rw [object]
    rfl
  have isFirst : ((model.withLists lists).lists.list .rtRq).first = some (rqNode other) := first
  have picks : (pickFirst .rtRq).run (model.withLists lists) =
      .ok (some other) (model.withLists removed) := by
    rw [pickFirst, Exec.run_bind_of_ok (EStateM.run_get _), isFirst]
    simp only
    rw [Exec.run_bind_of_ok takesFirst, Exec.run_bind_of_ok finds]
    rfl
  have picksThread : rtPickThread.run (model.withLists lists) = .ok (some other)
      ((model.setThread other fun fields => { fields with rqList := none }).withLists
        removed) := by
    rw [rtPickThread, Exec.run_bind_of_ok picks]
    rfl
  have isFirstClass : SchedulingClass.pickThread rtClass = rtPickThread := rfl
  rw [coreScheduler, schedulingClasses, pickFrom, isFirstClass, Exec.run_bind_of_ok picksThread]
  rfl

/-- The SysTick after such a sleep. -/
theorem systick_runs_both (rep : ListsRep lists model.lists) (ready : Ready model)
    (started : model.schedulerStatus = true) (isCurr : model.currThread = some curr)
    (awake : (model.thread curr).tickToWake = 0)
    (realTime : (model.thread curr).schedClass = .realTime)
    (stays : (model.thread curr).exitPending = false) (off : model.rqTickToWake = 0)
    (waits : model.queue .rtRq = [other]) (asleep : model.queue .sleepQ = [curr])
    (different : curr ≠ other) (cvr : Nat) :
    ∃ after, (systickException cvr).run (model.withLists lists) = .ok () after ∧
      after.pendsvPending = true ∧ after.nextThread = some other ∧
      (after.thread curr).rqList = some .rtRq ∧ Holds after .sleepQ [curr] := by
  have accounted := model.accountRuntime_frame curr cvr
  have place := (accounted.threads curr).place
  have identity := (accounted.threads curr).identity
  have readyAfter := ready.accountRuntime curr cvr
  have isCurrAfter := (accountRuntime_currThread model curr cvr).trans isCurr
  rcases takes_accountRuntime rep ready isCurr cvr with ⟨first, accounts, firstRep⟩
  rcases takes_processExpiredDelays firstRep readyAfter with ⟨second, processes, secondRep⟩
  rw [accountRuntime_off off] at processes secondRep
  have waitsAfter := (accountRuntime_queue model curr cvr .rtRq).trans waits
  have asleepAfter := (accountRuntime_queue model curr cvr .sleepQ).trans asleep
  rcases insert_twice secondRep waitsAfter asleepAfter different with
    ⟨inserted, removed, inserts, isFirst, removes, objects, holds⟩
  have known := readyAfter.known .rtRq other (waitsAfter ▸ List.mem_cons_self)
  have object := (objects (rqNode other)).trans (readyAfter.objects other known .rqNode)
  have requeues := run_requeueCurrThread isCurrAfter (place.tickToWake.trans awake)
    (place.schedClass.trans realTime) inserts
  have stillStays : ((markReady (model.accountRuntime curr cvr) curr).thread
      curr).exitPending = false := by
    rw [markReady, KernelState.thread_setThread_self]
    exact identity.exitPending.trans stays
  have keeps : removeExitedThread.run
      ((markReady (model.accountRuntime curr cvr) curr).withLists inserted) =
      .ok () ((markReady (model.accountRuntime curr cvr) curr).withLists inserted) :=
    run_removeExitedThread_none isCurrAfter stillStays
  have picks : coreScheduler.run
      ((markReady (model.accountRuntime curr cvr) curr).withLists inserted) = .ok (some other)
      (((markReady (model.accountRuntime curr cvr) curr).setThread other fun fields =>
        { fields with rqList := none }).withLists removed) :=
    run_coreScheduler_realTime isFirst removes object
  have isStarted : (model.withLists lists).schedulerStatus = true := started
  refine ⟨{ ((markReady (model.accountRuntime curr cvr) curr).setThread other fun fields =>
    { fields with rqList := none }).withLists removed with
      nextThread := some other, pendsvPending := true }, ?_, rfl, rfl, ?_, holds⟩
  · rw [systickException, Exec.run_bind_of_ok (EStateM.run_get _), if_pos isStarted,
      Exec.run_bind_of_ok accounts, Exec.run_bind_of_ok processes,
      Exec.run_bind_of_ok requeues, Exec.run_bind_of_ok keeps, Exec.run_bind_of_ok picks]
    rfl
  · have others := KernelState.thread_setThread_of_ne
      (markReady (model.accountRuntime curr cvr) curr)
      (fun fields => { fields with rqList := none }) different
    change (KernelState.thread ((markReady (model.accountRuntime curr cvr) curr).setThread other
      fun fields => { fields with rqList := none }) curr).rqList = _
    rw [others, markReady, KernelState.thread_setThread_self]

theorem threadSleep_ready (ready : Ready model) (known : curr ∈ model.queue .threads)
    (ms : Nat) : Ready (model.threadSleep curr ms) := by
  have frame := threadSleep_frame model curr ms
  have threads := frame.queues .threads (by simp)
  have objects : (model.threadSleep curr ms).lists.obj = model.lists.obj := by
    simp only [KernelState.threadSleep, KernelState.enqueueDelay, KernelState.reschedule,
      KernelState.tickToWakeUpdate_lists]
    rfl
  constructor
  · rw [threads]
    intro queue thread member
    by_cases equal : queue = .sleepQ
    · rw [equal, (threadSleep_sleepers model curr ms).mem_iff] at member
      cases member with
      | head => exact known
      | tail _ member => exact ready.known .sleepQ thread member
    · rw [frame.queues queue equal] at member
      exact ready.known queue thread member
  · rw [threads, objects]
    exact ready.objects
  · rw [threads]
    exact ready.addresses

end TwoQueues

/-- A real-time thread that sleeps for a millisecond, one slice before the end of the
tick: two exceptions later it is in `sleep_q`, and its `rq_list` names `rt_rq`. -/
theorem late_sleep_misnames : ∃ memory system thread,
    Run Step (powerUp lowHeap memory) (twoThreadEvents .realTime ++ slices lastSlices ++
      [.sleep 1] ++ [.systick 0] ++ [.pendsv]) system ∧
      system.kernel.currThread ≠ some thread ∧
      (system.kernel.thread thread).rqList = some .rtRq ∧
      Holds system.kernel .sleepQ [thread] := by
  rcases turning_run ⟨fun _ => 0, []⟩ lastSlices with
    ⟨lists, model, curr, other, run, rep, sound, pends, turning⟩
  rcases turning.sleeps rep sound pends with ⟨enabled, unqueued, final, sleeps, finalRep⟩
  have known := (sound.current curr turning.currThread).1
  have frame := threadSleep_frame model curr 1
  have alone : (model.threadSleep curr 1).queue .sleepQ = [curr] ∧
      (model.threadSleep curr 1).rqTickToWake = KernelState.wakeTick model.tick 1 :=
    threadSleep_alone turning.sleepers
  have wrapped : KernelState.wakeTick model.tick 1 = 0 := by
    rw [turning.tick_last]
    decide
  have different : curr ≠ other := by
    intro equal
    have waits : other ∈ model.queue .rtRq := turning.ready ▸ List.mem_cons_self
    exact unqueued .rtRq (by simp [QueueId.Running]) (equal ▸ waits)
  have started : (model.threadSleep curr 1).schedulerStatus = true := by
    rw [frame.outside]
    exact (sound.started turning.systickEnabled).1
  have isOn : (model.threadSleep curr 1).systickEnabled = true := by
    rw [frame.outside]
    exact turning.systickEnabled
  have isCurr : (model.threadSleep curr 1).currThread = some curr := by
    rw [frame.outside]
    exact turning.currThread
  have waits := (frame.queues .rtRq (by simp)).trans turning.ready
  have entered : Ready { model.threadSleep curr 1 with systickPending := false } :=
    (threadSleep_ready sound.placed.ready known 1).of_lists rfl
  rcases @systick_runs_both final { model.threadSleep curr 1 with systickPending := false } curr
    other finalRep entered started isCurr (frame.tick.trans wrapped)
    (frame.identity.schedClass.trans (turning.realTime curr List.mem_cons_self))
    (frame.identity.exitPending.trans (turning.stays curr List.mem_cons_self))
    (alone.2.trans wrapped) waits alone.1 different 0 with
    ⟨between, systicks, pending, chosen, rqList, holds⟩
  have ticks : (perform (.systick 0)).run ⟨(model.threadSleep curr 1).withLists final, []⟩ =
      .ok () ⟨between, []⟩ :=
    Exec.run_zoom_ok ((Exec.run_bind_of_ok (run_enterSystick _)).trans systicks)
  have switches : (perform .pendsv).run ⟨between, []⟩ =
      .ok () ⟨{ between with currThread := some other, pendsvPending := false }, []⟩ := by
    apply Exec.run_zoom_ok
    rw [pendsvException, Exec.run_bind_of_ok (EStateM.run_get _), chosen]
    rfl
  have tickEnabled : Enabled ⟨(model.threadSleep curr 1).withLists final, []⟩ (.systick 0) :=
    ⟨isOn, by decide⟩
  refine ⟨_, _, curr, (((run_of_allowed run).snoc (.intro enabled sleeps)).snoc
    (.intro tickEnabled ticks)).snoc (.intro pending switches), ?_, rqList, holds⟩
  intro same
  cases same
  exact different rfl

end Vanilla.Kernel
