import Vanilla.Kernel.Transitions

/-! # Exits

What is left of a thread once the SysTick that handles its exit has run.
-/

namespace Vanilla.Kernel

open Mm

/-! ## Threads that come and go -/

/-- An event that creates a thread gets this address from `pmalloc`. -/
def Allocates (mm : MmState) (thread : ThreadPtr) : Event → Prop
  | .newThread info => ∃ after,
      (pmalloc (threadPages info.stackSize) .dramBank3).run mm = .ok thread after
  | .start => ∃ after,
      (pmalloc (threadPages idleInfo.stackSize) .dramBank3).run mm = .ok thread after
  | _ => False

section Threads

variable {linker : Linker} {lists : KernelLists} {model next : Model} {thread : ThreadPtr}
  {event : Event} {system : System}

/-- What an event does to the list of all threads. -/
inductive ThreadsChange (model : Model) (event : Event) (threads : List ThreadPtr) : Prop where
  | adds {thread : ThreadPtr} : event.creates = true → Allocates model.mm thread event →
      thread ∉ model.queue .threads → threads = thread :: model.queue .threads →
      ThreadsChange model event threads
  | keeps : event.creates = false → threads = model.queue .threads →
      ThreadsChange model event threads
  | exits {curr : ThreadPtr} : event.creates = false → model.currThread = some curr →
      (model.thread curr).exitPending = true → threads = (model.queue .threads).erase curr →
      ThreadsChange model event threads

theorem Transition.threadsChange (transition : Transition model event next) :
    ThreadsChange model event (next.queue .threads) := by
  cases transition with
  | @newThread info created mm _ fresh allocated =>
      exact .adds rfl ⟨mm, allocated⟩ fresh (newThread_frame model info created mm).threads
  | @start created next mm after _ _ fresh allocated picked _ =>
      have listed : after.queue .threads = created :: model.queue .threads := by
        rw [(pick_frame picked).queues .threads (by simp [KernelState.pickOrder]),
          KernelState.withIdle_queue, if_pos rfl]
      exact .adds rfl ⟨mm, allocated⟩ fresh listed
  | @sleep curr ms _ _ =>
      exact .keeps rfl ((threadSleep_frame model curr ms).queues .threads (by simp))
  | @stays curr next cvr after _ _ _ picked =>
      have listed : after.queue .threads = model.queue .threads := by
        rw [(pick_frame picked).queues .threads (by simp [KernelState.pickOrder]),
          (beforePick_frame _ curr cvr).queues .threads (by simp)
            KernelState.runQueue_ne_threads]
        rfl
      exact .keeps rfl listed
  | exits isCurr exits _ _ _ erased => exact .exits rfl isCurr exits erased
  | pendsv _ _ => exact .keeps rfl rfl
  | stillBlocked _ _ => exact .keeps rfl rfl
  | block _ _ _ running _ _ _ => exact .keeps rfl (block_threads model _ running)
  | notBlocked _ _ => exact .keeps rfl rfl
  | unblock _ _ _ _ => exact .keeps rfl (unblock_queues model _ (by simp) (by simp))
  | exit _ => exact .keeps rfl rfl
  | @kill tid =>
      have same : (model.killThread tid).queue .threads = model.queue .threads := by
        rw [KernelState.killThread]
        split <;> rfl
      exact .keeps rfl same
  | allocate => exact .keeps rfl rfl
  | release => exact .keeps rfl rfl

/-- A thread in the global list was there before, or is new. -/
theorem Transition.threads (transition : Transition model event next)
    (known : thread ∈ next.queue .threads) :
    thread ∈ model.queue .threads ∨ Allocates model.mm thread event := by
  cases transition.threadsChange with
  | adds _ allocates _ listed =>
      rw [listed] at known
      cases known with
      | head => exact .inr allocates
      | tail _ known => exact .inl known
  | keeps _ listed => exact .inl (listed ▸ known)
  | exits _ _ _ listed => exact .inl (List.mem_of_mem_erase (listed ▸ known))

/-- The thread is in no list, and is neither the idle thread nor one that runs or
was picked. -/
def Gone (kernel : Machine) (thread : ThreadPtr) : Prop :=
  ∃ queues, InPlace kernel queues ∧ (∀ queue, thread ∉ queues queue) ∧
    kernel.idle ≠ some thread ∧ kernel.currThread ≠ some thread ∧
    kernel.inHand ≠ some thread

theorem Stands.gone (stands : Stands linker system model)
    (absent : thread ∉ model.queue .threads) : Gone system.kernel thread := by
  rcases stands with ⟨lists, same, rep, sound, _⟩
  rw [same]
  refine ⟨model.queue, sound.inPlace rep, ?_, ?_, ?_, ?_⟩
  · exact fun queue member => absent (sound.placed.ready.known queue thread member)
  · exact fun isIdle => absent (sound.placed.idleKnown thread isIdle).1
  · exact fun isCurr => absent (sound.current thread isCurr).1
  · exact fun hand => absent (sound.placed.heldKnown thread (Option.mem_toList.mpr hand))

/-- An allowed step that does not create a thread at this address. -/
def StepWithout (thread : ThreadPtr) (before : System) (event : Event) (after : System) :
    Prop :=
  AllowedStep before event after ∧ ¬ Allocates before.kernel.mm thread event

theorem Stands.without {before after : System} {events : List Event}
    (stands : Stands linker before model) (absent : thread ∉ model.queue .threads)
    (run : Run (StepWithout thread) before events after) : Gone after.kernel thread := by
  have stays : ∃ next, Stands linker after next ∧ thread ∉ next.queue .threads := by
    apply run.invariant
      (fun system => ∃ model, Stands linker system model ∧ thread ∉ model.queue .threads) _
      ⟨model, stands, absent⟩
    intro before event after holds step
    rcases holds with ⟨model, stands, absent⟩
    rcases stands.step step.1 with ⟨next, transition, standsNext⟩
    refine ⟨next, standsNext, ?_⟩
    intro known
    rcases transition.threads known with listed | allocates
    · exact absent listed
    · rcases stands with ⟨lists, same, _, _, _⟩
      apply step.2
      rw [same]
      exact allocates
  rcases stays with ⟨next, standsNext, absent⟩
  exact standsNext.gone absent

end Threads

/-! ## The SysTick that handles an exit -/

/-- In every run whose steps meet their conditions, the SysTick that handles an exit
returns, gives the blocks of the thread back once, and leaves the thread in no
list; no later step brings it back, unless a new thread gets its memory. -/
theorem exit_removes_thread {linker : Linker} {memory : ByteMemory} {events : List Event}
    {system : System} (run : Run AllowedStep (powerUp linker memory) events system)
    {cvr : Nat} {curr : ThreadPtr} (enabled : Enabled system (.systick cvr))
    (allowed : Allowed system.kernel (.systick cvr))
    (isCurr : system.kernel.currThread = some curr)
    (exits : (system.kernel.thread curr).exitPending = true) :
    ∃ after, (perform (.systick cvr)).run system = .ok () after ∧
      (deleteThread (system.kernel.thread curr).codeAddr curr).run system.kernel.mm =
        .ok () after.kernel.mm ∧
      Gone after.kernel curr ∧
      ∀ later final, Run (StepWithout curr) after later final → Gone final.kernel curr := by
  rcases (stands_powerUp linker memory).run run with ⟨model, _, stands⟩
  rcases returns_of_run run enabled allowed rfl with ⟨after, returns⟩
  rcases stands.step (.intro (.intro enabled returns) allowed) with
    ⟨next, transition, standsNext⟩
  rcases stands with ⟨lists, same, rep, sound, _⟩
  rw [same] at isCurr exits
  have freed : (deleteThread (model.thread curr).codeAddr curr).run model.mm = .ok () next.mm ∧
      next.queue .threads = (model.queue .threads).erase curr := by
    cases transition with
    | stays isFound stays _ _ =>
        cases isCurr.symm.trans isFound
        cases exits.symm.trans stays
    | @exits found next cvr mm picked isFound _ _ deleted isPicked erased =>
        cases isCurr.symm.trans isFound
        have sameMm : picked.mm = mm := congrArg KernelState.mm (pick_frame isPicked).outside
        exact ⟨deleted.trans (by rw [← sameMm]), erased⟩
  have absent : curr ∉ next.queue .threads := by
    rw [freed.2]
    exact (sound.placed.nodup .threads).not_mem_erase
  have sameMm : after.kernel.mm = next.mm := by
    rcases standsNext with ⟨_, sameNext, _, _, _⟩
    rw [sameNext]
    rfl
  refine ⟨after, returns, ?_, standsNext.gone absent, ?_⟩
  · rw [same, sameMm]
    exact freed.1
  · intro later final runs
    exact standsNext.without absent runs

/-- A real-time thread calls `thread_exit`, and the next SysTick handles it. -/
theorem exit_removes_thread_started : ∃ memory system after,
    Run AllowedStep (powerUp lowHeap memory) (twoThreadEvents .realTime ++ [.exit]) system ∧
      (perform (.systick 0)).run system = .ok () after ∧ Gone after.kernel 0x70100008 := by
  have notIdle : SchedClass.realTime ≠ .idle := by decide
  rcases two_threads notIdle ⟨fun _ => 0, []⟩ with ⟨lists, model, run, rep, sound, pends, two⟩
  have exitEnabled : Enabled ⟨model.withLists lists, []⟩ .exit := by
    simp [Enabled, threadMode, KernelState.withLists, two.systickEnabled, two.systickPending,
      two.pendsvPending, two.currThread, two.first]
  rcases run_onKernel (takes_threadExit rep two.currThread) with ⟨final, returns, finalRep⟩
  have marked : KernelState.thread (model.setThread 0x70100008 fun fields =>
      { fields with exitPending := true }) 0x70100008 =
      { schedClass := .realTime, tid := 1, exitPending := true } := by
    rw [KernelState.thread_setThread_self, two.first]
  have exited := run.snoc (.intro (.intro exitEnabled returns) trivial)
  have enabled : Enabled ⟨KernelState.withLists (model.setThread 0x70100008 fun fields =>
      { fields with exitPending := true }) final, []⟩ (.systick 0) :=
    ⟨two.systickEnabled, by decide⟩
  have allowed : Allowed (KernelState.withLists (model.setThread 0x70100008 fun fields =>
      { fields with exitPending := true }) final) (.systick 0) := by
    refine ⟨?_, ?_, ?_⟩
    · intro pending
      cases two.pendsvPending.symm.trans pending
    · intro _ _
      have off : KernelState.rqTickToWake (model.setThread 0x70100008 fun fields =>
          { fields with exitPending := true }) = 0 := two.rqTickToWake
      simp [woken, KernelState.withLists, off]
    · intro curr isCurr _
      cases two.currThread.symm.trans isCurr
      exact .inl (congrArg Thread.schedClass marked)
  rcases exit_removes_thread exited enabled allowed two.currThread
    (congrArg Thread.exitPending marked) with ⟨after, systicks, _, gone, _⟩
  exact ⟨_, _, after, exited, systicks, gone⟩

/-! ## An exit that the lists do not know of -/

section Unknown

variable {linker : Linker} {lists : KernelLists} {model : Model} {spare : List Nat}
  {curr : ThreadPtr} {cvr : Nat}

/-- A thread whose `rq_list` does not name the queue it is in is still linked. -/
theorem faults_verifyRemoved (rep : ListsRep lists model.lists) {queue : QueueId}
    (running : queue.Running) {front : List ThreadPtr}
    (split : model.queue queue = front ++ [curr]) (behind : front ≠ []) :
    Faults lists model (verifyRemoved curr) (.panic "Exiting thread exist in a list") := by
  have linked := (rep.refines.represents queue).linked
  rw [show model.lists.queue queue = _ from split, List.map_append, List.map_cons,
    nodeIn_of_running running] at linked
  have condition : (lists.node (rqNode curr)).next ≠ none ∨
      (lists.node (rqNode curr)).prev ≠ none ∨
      (lists.node (threadNode curr)).next ≠ none ∨
      (lists.node (threadNode curr)).prev ≠ none := by
    right
    left
    rw [linked.neighbours.1]
    simp [behind]
  apply Faults.get
  rw [show (model.withLists lists).lists = lists from rfl, if_pos condition]
  exact ⟨_, rfl⟩

theorem faults_removeExitedThread (rep : ListsRep lists model.lists)
    (isCurr : model.currThread = some curr) (exits : (model.thread curr).exitPending = true)
    (known : curr ∈ model.queue .threads) (unlisted : (model.thread curr).rqList = none)
    {queue : QueueId} (running : queue.Running) {front : List ThreadPtr}
    (split : model.queue queue = front ++ [curr]) (behind : front ≠ []) :
    Faults lists model removeExitedThread (.panic "Exiting thread exist in a list") := by
  have condition : ((model.withLists lists).thread curr).exitPending = true := exits
  apply Faults.get
  apply (Takes.deref rep isCurr).faults
  intro lists rep
  rw [if_pos condition]
  apply Faults.get
  apply (Takes.deref rep isCurr).faults
  intro lists rep
  apply (takes_remove rep known).faults
  intro lists rep
  apply (takes_removeFromRq_none rep unlisted).faults
  intro lists rep
  apply Faults.bind
  apply faults_verifyRemoved rep running _ behind
  exact (KernelState.remove_queue_of_ne _ _ running).trans split

/-- A SysTick that faults in handling the exit. -/
theorem faults_systickException_exit {reason : Fault} (rep : ListsRep lists model.lists)
    (started : model.schedulerStatus = true) (isCurr : model.currThread = some curr)
    (ready : Ready model) (processed : Ready (model.accountRuntime curr cvr).processExpiredDelays)
    (unqueued : (((model.accountRuntime curr cvr).processExpiredDelays).thread
      curr).tickToWake = 0 → (model.accountRuntime curr cvr).processExpiredDelays.Unqueued curr)
    (faults : ∀ lists, ListsRep lists (model.beforePick curr cvr).lists →
      Faults lists (model.beforePick curr cvr) removeExitedThread reason) :
    Faults lists model (systickException cvr) reason := by
  have processedRunning := (processed_currThread model curr cvr).trans isCurr
  apply faults_of_processed rep ready started isCurr
  intro lists rep
  apply (takes_requeueCurrThread rep processed processedRunning unqueued).faults
  intro lists rep
  exact (faults lists rep).bind

end Unknown

/-- An application thread exits while another one is ready: it is enqueued, and
`rq_list` does not say so. -/
theorem application_exit_panics : ∃ memory system,
    Run Step (powerUp lowHeap memory) (twoThreadEvents .application ++ [.exit]) system ∧
      Enabled system (.systick 0) ∧ ∃ final, (perform (.systick 0)).run system =
        .error (.panic "Exiting thread exist in a list") final := by
  have notIdle : SchedClass.application ≠ .idle := by decide
  rcases two_threads notIdle ⟨fun _ => 0, []⟩ with ⟨lists, model, run, rep, sound, pends, two⟩
  have exitEnabled : Enabled ⟨model.withLists lists, []⟩ .exit := by
    simp [Enabled, threadMode, KernelState.withLists, two.systickEnabled, two.systickPending,
      two.pendsvPending, two.currThread, two.first]
  rcases run_onKernel (takes_threadExit rep two.currThread) with ⟨final, returns, finalRep⟩
  rcases sound.mark pends 0x70100008 with ⟨marked, _⟩
  have fields : KernelState.thread (model.setThread 0x70100008 fun fields =>
      { fields with exitPending := true }) 0x70100008 =
      { schedClass := .application, tid := 1, exitPending := true } := by
    rw [KernelState.thread_setThread_self, two.first]
  have queues : KernelState.queue (model.setThread 0x70100008 fun fields =>
      { fields with exitPending := true }) = model.queue := rfl
  have isCurr : KernelState.currThread (model.setThread 0x70100008 fun fields =>
      { fields with exitPending := true }) = some 0x70100008 := two.currThread
  have off : KernelState.rqTickToWake (model.setThread 0x70100008 fun fields =>
      { fields with exitPending := true }) = 0 := two.rqTickToWake
  have systickEnabled : KernelState.systickEnabled (model.setThread 0x70100008 fun fields =>
      { fields with exitPending := true }) = true := two.systickEnabled
  have switched : KernelState.pendsvPending (model.setThread 0x70100008 fun fields =>
      { fields with exitPending := true }) = false := two.pendsvPending
  generalize (model.setThread 0x70100008 fun fields =>
    { fields with exitPending := true }) = exiting at *
  have enabled : Enabled ⟨exiting.withLists final, []⟩ (.systick 0) :=
    ⟨systickEnabled, by decide⟩
  refine ⟨_, _, (run_of_allowed run).snoc (.intro exitEnabled returns), enabled, ?_⟩
  have quiet : Switched
      (KernelState.withLists { exiting with systickPending := false } final) := by
    intro pending
    cases switched.symm.trans pending
  rcases marked.enter.found systickEnabled quiet with ⟨curr, isFound, running⟩
  cases isCurr.symm.trans isFound
  have isOff : KernelState.rqTickToWake { exiting with systickPending := false } = 0 := off
  have notWoken : woken (KernelState.withLists { exiting with systickPending := false } final) 0 ≠
      some 0x70100008 := by
    simp [woken, KernelState.withLists, off]
  have requeued := running.requeued finalRep notWoken
  have place := ((KernelState.accountRuntime_frame { exiting with systickPending := false }
    0x70100008 0).threads 0x70100008).place
  have frame := beforePick_frame { exiting with systickPending := false } 0x70100008 0
  have before : KernelState.beforePick { exiting with systickPending := false } 0x70100008 0 =
      ((KernelState.accountRuntime { exiting with systickPending := false } 0x70100008 0).append
        .appRq 0x70100008).setThread 0x70100008 KernelState.enqueuedFields := by
    have awake : (exiting.thread 0x70100008).tickToWake = 0 := congrArg Thread.tickToWake fields
    have application := place.schedClass.trans (congrArg Thread.schedClass fields)
    rw [KernelState.beforePick, accountRuntime_off isOff, KernelState.requeueCurrThread,
      if_pos (place.tickToWake.trans awake), KernelState.enqueue, application]
    rfl
  apply faults_systick
  apply @faults_systickException_exit final { exiting with systickPending := false } 0x70100008 0
    _ finalRep (marked.started systickEnabled).1 isCurr marked.enter.placed.ready
    requeued.processed.ready
  · intro awake
    have held := requeued.processed.heldUnqueued
    rw [if_pos (requeued.tick ▸ awake)] at held
    exact held _ List.mem_cons_self
  · intro lists rep
    have appRunning : QueueId.appRq.Running := by simp [QueueId.Running]
    have front : ([0x70100410] : List ThreadPtr) ≠ [] := by simp
    apply faults_removeExitedThread rep (frame.currThread.trans isCurr)
      ((frame.identity _).exitPending.trans (congrArg Thread.exitPending fields)) _ _ appRunning _
      front
    · rw [frame.queues .threads (by simp) KernelState.runQueue_ne_threads]
      exact (marked.current _ isCurr).1
    · rw [before, KernelState.thread_setThread_self]
      change (KernelState.enqueuedFields ((KernelState.accountRuntime
        { exiting with systickPending := false } 0x70100008 0).thread 0x70100008)).rqList = none
      simp only [KernelState.enqueuedFields, place.schedClass, place.rqList, fields]
    · rw [before, KernelState.queue_setThread, KernelState.append,
        KernelState.queue_setQueue_self, accountRuntime_queue]
      change exiting.queue .appRq ++ [0x70100008] = _
      rw [queues, two.queues]
      rfl

end Vanilla.Kernel
