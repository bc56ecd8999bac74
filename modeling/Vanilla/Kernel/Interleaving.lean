import Vanilla.Kernel.Blocking

/-! # SysTicks before PendSV

PendSV has the lower priority, so more SysTicks may come before the one that was
chosen to run next does.
-/

namespace Vanilla.Kernel

open Mm

variable {linker : Linker} {lists : KernelLists} {model : Model} {spare : List Nat}
  {curr thread : ThreadPtr} {cvr : Nat}

/-! ## A thread enqueued twice -/

/-- A thread cannot be inserted into a list it is in. -/
theorem faults_insertLast (rep : ListsRep lists model.lists) {queue : QueueId}
    (running : queue.Running) (member : thread ∈ model.queue queue) :
    Faults lists model (onLists (dlistInsertLast (rqNode thread) queue))
      (.panic "List error") := by
  rcases List.append_of_mem member with ⟨front, rest, split⟩
  have linked := (rep.refines.represents queue).linked
  have first := rep.first queue
  rw [show model.lists.queue queue = _ from split, List.map_append, List.map_cons,
    nodeIn_of_running running] at linked
  have occupied : (lists.node (rqNode thread)).prev ≠ none ∨
      (lists.node (rqNode thread)).next ≠ none ∨
      some (rqNode thread) = (lists.list queue).first := by
    cases front with
    | nil =>
        rw [split, List.nil_append, List.head?_cons, Option.map_some,
          nodeIn_of_running running] at first
        exact .inr (.inr first.symm)
    | cons head front =>
        have neighbours := linked.neighbours.1
        rw [neighbours]
        left
        simp
  have fails := run_dlistCheckFree_error occupied
  exact ⟨_, Exec.run_zoom_error (Exec.run_bind_of_error fails)⟩

theorem faults_enqueue (rep : ListsRep lists model.lists) {queue : QueueId}
    (runs : KernelState.runQueue (model.thread thread).schedClass = some queue)
    (member : thread ∈ model.queue queue) :
    Faults lists model (enqueue thread) (.panic "List error") := by
  apply Faults.get
  change Faults lists model ((model.thread thread).schedClass.table.enqueue thread) _
  have faults := faults_insertLast rep (runQueue_running runs) member
  cases schedClass : (model.thread thread).schedClass <;> rw [schedClass] at runs <;> cases runs
  · exact faults.bind
  · exact faults
  · exact faults

/-- A SysTick that faults once the delays are processed. -/
theorem faults_of_processed {reason : Fault} (rep : ListsRep lists model.lists)
    (ready : Ready model) (started : model.schedulerStatus = true)
    (isCurr : model.currThread = some curr)
    (faults : ∀ lists,
      ListsRep lists (model.accountRuntime curr cvr).processExpiredDelays.lists →
      Faults lists (model.accountRuntime curr cvr).processExpiredDelays (do
        requeueCurrThread
        removeExitedThread
        let next ← coreScheduler
        modify fun kernel => { kernel with nextThread := next, pendsvPending := true }) reason) :
    Faults lists model (systickException cvr) reason := by
  apply Faults.get
  have condition : (model.withLists lists).schedulerStatus = true := started
  rw [if_pos condition]
  apply (takes_accountRuntime rep ready isCurr cvr).faults
  intro lists rep
  apply (takes_processExpiredDelays rep (ready.accountRuntime curr cvr)).faults
  exact faults

/-- A SysTick that finds the running thread in its run queue already. -/
theorem faults_systickException (rep : ListsRep lists model.lists) (ready : Ready model)
    (started : model.schedulerStatus = true) (isCurr : model.currThread = some curr)
    (awake : ((model.accountRuntime curr cvr).processExpiredDelays.thread curr).tickToWake = 0)
    {queue : QueueId}
    (runs : KernelState.runQueue ((model.accountRuntime curr cvr).processExpiredDelays.thread
      curr).schedClass = some queue)
    (member : curr ∈ (model.accountRuntime curr cvr).processExpiredDelays.queue queue) :
    Faults lists model (systickException cvr) (.panic "List error") := by
  have processedRunning := (processed_currThread model curr cvr).trans isCurr
  apply faults_of_processed rep ready started isCurr
  intro lists rep
  apply Faults.bind
  apply Faults.get
  apply (Takes.deref rep processedRunning).faults
  intro lists rep
  change Faults lists (model.accountRuntime curr cvr).processExpiredDelays
    (if ((model.accountRuntime curr cvr).processExpiredDelays.thread curr).tickToWake = 0
      then _ else _) _
  rw [if_pos awake]
  exact faults_enqueue rep runs member

/-- A SysTick event that faults in its exception. -/
theorem faults_systick {reason : Fault}
    (faults : Faults lists { model with systickPending := false } (systickException cvr) reason) :
    ∃ final, (perform (.systick cvr)).run ⟨model.withLists lists, spare⟩ =
      .error reason final := by
  rcases faults with ⟨final, fails⟩
  exact ⟨_, onKernel_panics ((Exec.run_bind_of_ok (run_enterSystick _)).trans fails)⟩

/-! ## SysTicks without a wake-up -/

theorem processExpiredDelays_off {model : Model} (off : model.rqTickToWake = 0) :
    model.processExpiredDelays = model := by
  simp [KernelState.processExpiredDelays, off]

theorem accountRuntime_off {model : Model} (off : model.rqTickToWake = 0) (curr : ThreadPtr)
    (cvr : Nat) : (model.accountRuntime curr cvr).processExpiredDelays =
      model.accountRuntime curr cvr := by
  apply processExpiredDelays_off
  rw [(model.accountRuntime_frame curr cvr).outside]
  exact off

theorem accountRuntime_queue (model : Model) (curr : ThreadPtr) (cvr : Nat)
    (queue : QueueId) : (model.accountRuntime curr cvr).queue queue = model.queue queue := by
  rw [(model.accountRuntime_frame curr cvr).outside]
  rfl

/-- The kernel after a SysTick at which nobody sleeps and a real-time thread runs. -/
structure RealTimeTick (before after : Model) (next : ThreadPtr) (rest : List ThreadPtr)
    (cvr : Nat) : Prop where
  currThread : after.currThread = before.currThread
  nextThread : after.nextThread = some next
  pendsvPending : after.pendsvPending = true
  systickEnabled : after.systickEnabled = before.systickEnabled
  systickPending : after.systickPending = before.systickPending
  reschedulePending : after.reschedulePending = false
  rqTickToWake : after.rqTickToWake = 0
  tick : after.tick = u64 (before.tick + before.slice cvr)
  ready : after.queue .rtRq = rest
  queues : ∀ queue, queue ≠ .rtRq → after.queue queue = before.queue queue
  identity : ∀ other, SameIdentity (before.thread other) (after.thread other)
  ticks : ∀ other, (after.thread other).tickToWake = (before.thread other).tickToWake

/-- Nobody sleeps: a real-time thread goes to the end of its queue, and the first
thread in it is chosen. -/
theorem Sound.systick_realTime {next : ThreadPtr} {rest : List ThreadPtr}
    (sound : Sound linker model spare) (rep : ListsRep lists model.lists)
    (enabled : model.systickEnabled = true) (switched : model.pendsvPending = false)
    (isCurr : model.currThread = some curr) (off : model.rqTickToWake = 0)
    (awake : (model.thread curr).tickToWake = 0)
    (realTime : (model.thread curr).schedClass = .realTime)
    (stays : (model.thread curr).exitPending = false)
    (queued : model.queue .rtRq ++ [curr] = next :: rest) (cvr : Nat) :
    ∃ after, Takes lists model (systickException cvr) () after ∧ Sound linker after spare ∧
      RealTimeTick model after next rest cvr := by
  have accounted := model.accountRuntime_frame curr cvr
  have place := (accounted.threads curr).place
  have before : model.beforePick curr cvr = ((model.accountRuntime curr cvr).append .rtRq
      curr).setThread curr KernelState.enqueuedFields := by
    rw [KernelState.beforePick, accountRuntime_off off, KernelState.requeueCurrThread,
      if_pos (place.tickToWake.trans awake), KernelState.enqueue, place.schedClass, realTime]
    rfl
  have notPending : Switched (model.withLists lists) := by
    intro pending
    cases switched.symm.trans pending
  rcases sound.found enabled notPending with ⟨found, isFound, running⟩
  cases isCurr.symm.trans isFound
  have notWoken : woken (model.withLists lists) cvr ≠ some curr := by
    simp [woken, KernelState.withLists, off]
  have requeued := running.requeued rep notWoken
  rcases sound.systick_stays rep enabled isCurr requeued stays with
    ⟨chosen, after, picked, takes, kept⟩
  have ready : (model.beforePick curr cvr).queue .rtRq = next :: rest := by
    rw [before, KernelState.queue_setThread, KernelState.append,
      KernelState.queue_setQueue_self, accountRuntime_queue, queued]
  have chosenTicks := (pick_frame picked).ticks
  have identity := fun other =>
    ((beforePick_frame model curr cvr).identity other).trans ((pick_frame picked).identity other)
  have ticks : ∀ other, ((model.beforePick curr cvr).thread other).tickToWake =
      (model.thread other).tickToWake := by
    intro other
    rw [before, ← (accounted.threads other).place.tickToWake]
    exact @KernelState.setThread_relation ((model.accountRuntime curr cvr).append .rtRq curr)
      curr other (fun before after => after.tickToWake = before.tickToWake) (fun _ => rfl) _
      (enqueuedFields_tickToWake _)
  have currThread := (beforePick_frame model curr cvr).currThread
  have systickEnabled := (beforePick_frame model curr cvr).systickEnabled
  have systickPending : (model.beforePick curr cvr).systickPending = model.systickPending := by
    rw [before]
    change (model.accountRuntime curr cvr).systickPending = _
    rw [accounted.outside]
  have reschedulePending : (model.beforePick curr cvr).reschedulePending = false := by
    rw [before]
    change (model.accountRuntime curr cvr).reschedulePending = _
    rw [accounted.outside]
  have rqTickToWake : (model.beforePick curr cvr).rqTickToWake = 0 := by
    rw [before]
    change (model.accountRuntime curr cvr).rqTickToWake = _
    rw [accounted.outside]
    exact off
  have tick : (model.beforePick curr cvr).tick = u64 (model.tick + model.slice cvr) := by
    rw [before]
    change (model.accountRuntime curr cvr).tick = _
    rw [accounted.outside]
  have queues : ∀ queue, queue ≠ .rtRq →
      (model.beforePick curr cvr).queue queue = model.queue queue := by
    intro queue different
    rw [before, KernelState.queue_setThread, KernelState.append,
      KernelState.queue_setQueue_of_ne _ _ _ _ different, accountRuntime_queue]
  clear before
  simp only [KernelState.pick, KernelState.pickOrder, KernelState.pickFrom, ready,
    Option.some.injEq, Prod.mk.injEq] at picked
  rcases picked with ⟨rfl, rfl⟩
  refine ⟨_, takes, kept, ?_⟩
  -- From here on it does not matter how the kernel was prepared for the choice.
  clear takes kept
  generalize model.beforePick curr cvr = prepared at *
  constructor
  · exact currThread
  · rfl
  · rfl
  · exact systickEnabled
  · exact systickPending
  · exact reschedulePending
  · exact rqTickToWake
  · exact tick
  · exact KernelState.queue_setQueue_self ..
  · intro queue different
    exact (KernelState.queue_setQueue_of_ne _ _ _ _ different).trans (queues queue different)
  · exact identity
  · exact fun other => (chosenTicks other).trans (ticks other)

/-- The kernel after such a SysTick and its PendSV. -/
structure Round (before after : Model) (next : ThreadPtr) (rest : List ThreadPtr) (cvr : Nat) :
    Prop where
  currThread : after.currThread = some next
  pendsvPending : after.pendsvPending = false
  systickPending : after.systickPending = false
  systickEnabled : after.systickEnabled = true
  reschedulePending : after.reschedulePending = false
  rqTickToWake : after.rqTickToWake = 0
  tick : after.tick = u64 (before.tick + before.slice cvr)
  ready : after.queue .rtRq = rest
  queues : ∀ queue, queue ≠ .rtRq → after.queue queue = before.queue queue
  identity : ∀ other, SameIdentity (before.thread other) (after.thread other)
  ticks : ∀ other, (after.thread other).tickToWake = (before.thread other).tickToWake

theorem Sound.round {next : ThreadPtr} {rest : List ThreadPtr}
    (sound : Sound linker model spare) (rep : ListsRep lists model.lists)
    (enabled : model.systickEnabled = true) (switched : model.pendsvPending = false)
    (isCurr : model.currThread = some curr) (off : model.rqTickToWake = 0)
    (awake : (model.thread curr).tickToWake = 0)
    (realTime : (model.thread curr).schedClass = .realTime)
    (stays : (model.thread curr).exitPending = false)
    (queued : model.queue .rtRq ++ [curr] = next :: rest) (cvr : Nat) (inRange : cvr ≤ systickRvr) :
    ∃ final after, Run AllowedStep ⟨model.withLists lists, spare⟩ [.systick cvr, .pendsv]
        ⟨after.withLists final, spare⟩ ∧ ListsRep final after.lists ∧
      Sound linker after spare ∧ SleepPends after ∧ Round model after next rest cvr := by
  rcases sound.enter.systick_realTime rep enabled switched isCurr off awake realTime stays
    queued cvr with ⟨between, takes, kept, ticked⟩
  rcases run_systick takes with ⟨listsBetween, returns, repBetween⟩
  rcases kept.pendsv ticked.pendsvPending ticked.nextThread with ⟨soundAfter, pends⟩
  rcases run_onKernel (takes_pendsvException repBetween ticked.nextThread) with
    ⟨final, switches, repAfter⟩
  have systickEnabled : Enabled ⟨model.withLists lists, spare⟩ (.systick cvr) :=
    ⟨enabled, inRange⟩
  have systickAllowed : Allowed (model.withLists lists) (.systick cvr) := by
    refine ⟨?_, ?_, ?_⟩
    · intro pending
      cases switched.symm.trans pending
    · intro found _
      simp [woken, KernelState.withLists, off]
    · intro found isFound _
      cases isCurr.symm.trans isFound
      exact .inl realTime
  have pendsvEnabled : Enabled ⟨between.withLists listsBetween, spare⟩ .pendsv :=
    ticked.pendsvPending
  have first := AllowedStep.intro (.intro systickEnabled returns) systickAllowed
  have second := AllowedStep.intro (.intro pendsvEnabled switches) trivial
  refine ⟨final, _, .cons first (.cons second (.nil _)), repAfter, soundAfter, pends, ?_⟩
  exact ⟨rfl, rfl, ticked.systickPending, ticked.systickEnabled.trans enabled,
    ticked.reschedulePending, ticked.rqTickToWake, ticked.tick, ticked.ready, ticked.queues,
    ticked.identity, ticked.ticks⟩

/-! ## Orders of the two exceptions -/

/-- In every order of SysTicks and PendSVs whose SysTicks meet their condition, each
thread stays in one place and none is lost, and both exceptions return. -/
theorem interleaving_keeps_threads {memory : ByteMemory} {events : List Event}
    {system : System} (run : Run AllowedStep (powerUp linker memory) events system) :
    ∃ queues, InPlace system.kernel queues ∧
      (system.kernel.pendsvPending = true →
        ∃ after, (perform .pendsv).run system = .ok () after ∧ InPlace after.kernel queues ∧
          after.kernel.currThread = system.kernel.nextThread) ∧
      ∀ cvr, Enabled system (.systick cvr) → Allowed system.kernel (.systick cvr) →
        ∃ after later, (perform (.systick cvr)).run system = .ok () after ∧
          InPlace after.kernel later ∧ ∀ thread ∈ queues .threads,
            thread ∈ later .threads ∨ system.kernel.currThread = some thread ∧
              (system.kernel.thread thread).exitPending = true := by
  rcases (sound_powerUp linker memory).run run with ⟨lists, model, same, rep, sound, _⟩
  rcases system with ⟨kernel, spare⟩
  change kernel = model.withLists lists at same
  subst same
  refine ⟨model.queue, sound.inPlace rep, ?_, ?_⟩
  · intro pending
    rcases sound.switching pending with ⟨next, chosen⟩
    rcases sound.pendsv pending chosen with ⟨switched, _⟩
    rcases run_onKernel (takes_pendsvException rep chosen) with ⟨final, returns, finalRep⟩
    exact ⟨_, returns, switched.inPlace finalRep, chosen.symm⟩
  · intro cvr enabled allowed
    rcases sound.enter.systick rep enabled.1 allowed with ⟨after, takes, kept, frame⟩
    rcases run_systick takes with ⟨final, returns, finalRep⟩
    exact ⟨_, _, returns, kept.inPlace finalRep, frame.threads⟩

theorem interleaving_keeps_threads_started : ∃ memory system,
    Run AllowedStep (powerUp lowHeap memory) (twoThreadEvents .realTime) system ∧
      ∃ queues, InPlace system.kernel queues := by
  have notIdle : SchedClass.realTime ≠ .idle := by decide
  rcases two_threads notIdle ⟨fun _ => 0, []⟩ with ⟨lists, model, run, _⟩
  rcases interleaving_keeps_threads run with ⟨queues, inPlace, _⟩
  exact ⟨_, _, run, queues, inPlace⟩

/-- Two real-time threads and two SysTicks: the second comes before the PendSV of
the first and enqueues the thread that runs once more. -/
theorem second_systick_panics : ∃ memory system,
    Run Step (powerUp lowHeap memory) (twoThreadEvents .realTime ++ [.systick 0]) system ∧
      Enabled system (.systick 0) ∧
      ∃ final, (perform (.systick 0)).run system = .error (.panic "List error") final := by
  have notIdle : SchedClass.realTime ≠ .idle := by decide
  rcases two_threads notIdle ⟨fun _ => 0, []⟩ with ⟨lists, model, run, rep, sound, _, two⟩
  have awake : (model.thread 0x70100008).tickToWake = 0 := by
    rw [two.first]
  have realTime : (model.thread 0x70100008).schedClass = .realTime := by
    rw [two.first]
  have queued : model.queue .rtRq ++ [0x70100008] = 0x70100410 :: [0x70100008] := by
    rw [two.queues]
    rfl
  rcases sound.enter.systick_realTime rep two.systickEnabled two.pendsvPending
    two.currThread two.rqTickToWake awake realTime (by rw [two.first]) queued 0 with
    ⟨after, takes, kept, ticked⟩
  have isCurr : after.currThread = some 0x70100008 := ticked.currThread.trans two.currThread
  have isRealTime : (after.thread 0x70100008).schedClass = .realTime :=
    (ticked.identity _).schedClass.trans realTime
  have isAwake : (after.thread 0x70100008).tickToWake = 0 := (ticked.ticks _).trans awake
  have enabled : after.systickEnabled = true := ticked.systickEnabled.trans two.systickEnabled
  have off : KernelState.rqTickToWake { after with systickPending := false } = 0 :=
    ticked.rqTickToWake
  rcases run_systick takes with ⟨final, returns, finalRep⟩
  have enabledFirst : Enabled ⟨model.withLists lists, []⟩ (.systick 0) :=
    ⟨two.systickEnabled, by decide⟩
  have again : Enabled ⟨after.withLists final, []⟩ (.systick 0) := ⟨enabled, by decide⟩
  refine ⟨_, _, (run_of_allowed run).snoc (.intro enabledFirst returns), again, ?_⟩
  have place := ((KernelState.accountRuntime_frame { after with systickPending := false }
    0x70100008 0).threads 0x70100008).place
  apply faults_systick
  apply @faults_systickException final { after with systickPending := false } 0x70100008 0
    finalRep kept.enter.placed.ready (kept.started enabled).1 isCurr
  · rw [accountRuntime_off off, place.tickToWake]
    exact isAwake
  · rw [accountRuntime_off off, place.schedClass]
    exact (congrArg KernelState.runQueue isRealTime).trans rfl
  · rw [accountRuntime_off off, accountRuntime_queue]
    change 0x70100008 ∈ after.queue .rtRq
    rw [ticked.ready]
    exact List.mem_cons_self

end Vanilla.Kernel
