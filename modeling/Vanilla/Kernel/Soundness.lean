import Vanilla.Kernel.System

/-! # The scheduler stays sound

`Sound` is the invariant of the scheduler: each thread is in one place, and the
one that runs, or is about to, is the only one in hand. Each event that meets its
condition keeps it.
-/

namespace Vanilla.Kernel

open Mm

/-- The thread that is in no queue: the one chosen to run next, or else the one
that runs, unless it has gone to sleep. -/
def KernelState.inHand {Lists : Type} (kernel : KernelState Lists) : Option ThreadPtr :=
  if kernel.pendsvPending then kernel.nextThread
  else kernel.currThread.filter fun curr => decide ((kernel.thread curr).tickToWake = 0)

structure Sound (linker : Linker) (model : Model) (spare : List Nat) : Prop where
  memory : Memory linker model spare
  placed : Placed model model.inHand.toList
  awake : ∀ thread, model.inHand = some thread → Awake (model.thread thread)
  current : ∀ curr, model.currThread = some curr → curr ∈ model.queue .threads ∧
    ((model.thread curr).tickToWake ≠ 0 → curr ∈ model.queue .sleepQ)
  started : model.systickEnabled = true →
    model.schedulerStatus = true ∧ ∃ idle, model.idle = some idle
  running : model.systickEnabled = true → model.pendsvPending = false →
    ∃ curr, model.currThread = some curr
  booting : model.systickEnabled = false →
    model.currThread = none ∧ model.idle = none ∧ model.pendsvPending = false
  switching : model.pendsvPending = true → ∃ next, model.nextThread = some next

/-- A thread that has gone to sleep is about to be switched out. -/
def SleepPends (model : Model) : Prop :=
  model.pendsvPending = false → ∀ curr, model.currThread = some curr →
    (model.thread curr).tickToWake ≠ 0 → model.systickPending = true

/-- A machine whose lists are well formed and whose scheduler is sound. -/
def SoundSystem (linker : Linker) (system : System) : Prop :=
  ∃ lists model, system.kernel = model.withLists lists ∧ ListsRep lists model.lists ∧
    Sound linker model system.spare ∧ SleepPends model

/-! ## What a pick leaves alone -/

/-- A pick takes a thread off its run queue and clears its `rq_list` at most. -/
structure PickFrame (before after : Model) : Prop where
  outside : SameOutside before after
  idle : after.idle = before.idle
  queues : ∀ queue, queue ∉ KernelState.pickOrder → after.queue queue = before.queue queue
  identity : ∀ other, SameIdentity (before.thread other) (after.thread other)
  ticks : ∀ other, (after.thread other).tickToWake = (before.thread other).tickToWake

theorem pick_frame {model after : Model} {next : ThreadPtr}
    (picked : model.pick = some (next, after)) : PickFrame model after := by
  rcases Placed.pickFrom_cases picked with
    ⟨front, queue, back, rest, order, _, _, rfl⟩ | ⟨_, _, rfl⟩
  · have inOrder : queue ∈ KernelState.pickOrder := by simp [order]
    have cleared : ∀ fields, SameIdentity fields (KernelState.pickedFields queue fields) ∧
        (KernelState.pickedFields queue fields).tickToWake = fields.tickToWake := by
      intro fields
      cases queue <;> exact ⟨⟨rfl, rfl, rfl, rfl⟩, rfl⟩
    exact {
      outside := rfl
      idle := rfl
      queues := by
        intro other absent
        have different : other ≠ queue := fun equal => absent (equal ▸ inOrder)
        rw [KernelState.queue_setThread, KernelState.queue_setQueue_of_ne _ _ _ _ different]
      identity := fun other => KernelState.setThread_relation
        (model.setQueue queue rest) next other .refl _ (cleared _).1
      ticks := by
        intro other
        exact @KernelState.setThread_relation (model.setQueue queue rest) next other
          (fun before after => after.tickToWake = before.tickToWake) (fun _ => rfl) _
          (cleared _).2 }
  · exact ⟨.refl _, rfl, fun _ _ => rfl, fun _ => .refl _, fun _ => rfl⟩

/-! ## Events that leave the running thread alone -/

/-- Which threads run, are next and idle, and what is pending. -/
structure SameRunning (before after : Model) : Prop where
  currThread : after.currThread = before.currThread
  nextThread : after.nextThread = before.nextThread
  pendsvPending : after.pendsvPending = before.pendsvPending
  systickEnabled : after.systickEnabled = before.systickEnabled
  schedulerStatus : before.schedulerStatus = true → after.schedulerStatus = true
  idle : after.idle = before.idle

section Events

variable {linker : Linker} {lists : KernelLists} {model other : Model} {spare others : List Nat}
  {curr thread next : ThreadPtr} {cvr : Nat}

theorem inHand_congr (same : SameRunning model other)
    (ticks : ∀ curr, model.currThread = some curr →
      (other.thread curr).tickToWake = (model.thread curr).tickToWake) :
    other.inHand = model.inHand := by
  simp only [KernelState.inHand, same.pendsvPending, same.nextThread, same.currThread]
  cases running : model.currThread with
  | none => rfl
  | some curr => simp [Option.filter, ticks curr running]

theorem Sound.keep (sound : Sound linker model spare) (same : SameRunning model other)
    (memory : Memory linker other others) (placed : Placed other model.inHand.toList)
    (places : ∀ thread, model.inHand = some thread ∨ model.currThread = some thread →
      SamePlace (model.thread thread) (other.thread thread))
    (known : ∀ thread ∈ model.queue .threads, thread ∈ other.queue .threads)
    (sleepers : ∀ curr, model.currThread = some curr → curr ∈ model.queue .sleepQ →
      curr ∈ other.queue .sleepQ) : Sound linker other others := by
  have ticks : ∀ curr, model.currThread = some curr →
      (other.thread curr).tickToWake = (model.thread curr).tickToWake := fun curr running =>
    (places curr (.inr running)).tickToWake
  have hand := inHand_congr same ticks
  exact {
    memory := memory
    placed := by
      rw [hand]
      exact placed
    awake := by
      rw [hand]
      exact fun thread inHand => (places thread (.inl inHand)).awake (sound.awake thread inHand)
    current := by
      rw [same.currThread]
      intro curr running
      rw [ticks curr running]
      have current := sound.current curr running
      exact ⟨known curr current.1, fun asleep => sleepers curr running (current.2 asleep)⟩
    started := by
      rw [same.systickEnabled, same.idle]
      exact fun enabled => ⟨same.schedulerStatus (sound.started enabled).1,
        (sound.started enabled).2⟩
    running := by
      rw [same.systickEnabled, same.pendsvPending, same.currThread]
      exact sound.running
    booting := by
      rw [same.systickEnabled, same.currThread, same.idle, same.pendsvPending]
      exact sound.booting
    switching := by
      rw [same.pendsvPending, same.nextThread]
      exact sound.switching }

theorem Sound.keepLists (sound : Sound linker model spare) (same : SameRunning model other)
    (memory : Memory linker other others) (lists : other.lists = model.lists)
    (threads : other.thread = model.thread) : Sound linker other others := by
  have queues : other.queue = model.queue := by
    funext queue
    simp only [KernelState.queue, lists]
  have places : ∀ thread, SamePlace (model.thread thread) (other.thread thread) := by
    intro thread
    rw [threads]
    exact ⟨rfl, rfl, rfl⟩
  apply sound.keep same memory
  · exact sound.placed.congr (sound.placed.ready.of_lists lists) queues same.idle
      fun thread _ => places thread
  · exact fun thread _ => places thread
  · rw [queues]
    exact fun _ known => known
  · rw [queues]
    exact fun _ _ member => member

/-! ## SysTick -/

/-- The thread a SysTick finds running, which is in hand or asleep. -/
def Running (model : Model) (curr : ThreadPtr) : Prop :=
  (model.thread curr).tickToWake = 0 ∧ Awake (model.thread curr) ∧ Placed model [curr] ∨
    (model.thread curr).tickToWake ≠ 0 ∧ curr ∈ model.queue .sleepQ ∧ Placed model []

theorem Sound.found (sound : Sound linker model spare) (enabled : model.systickEnabled = true)
    (switched : Switched (model.withLists lists)) :
    ∃ curr, model.currThread = some curr ∧ Running model curr := by
  have placed := sound.placed
  have awake := sound.awake
  cases pending : model.pendsvPending with
  | false =>
      rcases sound.running enabled pending with ⟨curr, running⟩
      refine ⟨curr, running, ?_⟩
      simp only [KernelState.inHand, pending, running, Bool.false_eq_true, if_false] at placed awake
      by_cases asleep : (model.thread curr).tickToWake = 0
      · simp only [Option.filter, asleep, decide_true, if_true] at placed awake
        exact .inl ⟨asleep, awake curr rfl, placed⟩
      · simp only [Option.filter, asleep, decide_false] at placed
        exact .inr ⟨asleep, (sound.current curr running).2 asleep, placed⟩
  | true =>
      rcases sound.switching pending with ⟨next, chosen⟩
      simp only [KernelState.inHand, pending, chosen, if_true] at placed awake
      rcases switched pending with same | ⟨isIdle, sleeps⟩
      · have running : model.currThread = some next := same.symm.trans chosen
        exact ⟨next, running, .inl ⟨(awake next rfl).1, awake next rfl, placed⟩⟩
      · have idle : model.idle = some next := isIdle.symm.trans chosen
        change (model.currThread.any fun curr =>
          decide ((model.thread curr).tickToWake ≠ 0)) = true at sleeps
        cases running : model.currThread with
        | none => simp [running] at sleeps
        | some curr =>
            have asleep : (model.thread curr).tickToWake ≠ 0 := by
              simpa [running] using sleeps
            exact ⟨curr, rfl, .inr ⟨asleep, (sound.current curr running).2 asleep,
              placed.drop (placed.idleKnown next idle).2⟩⟩

/-- The SysTick of the source wakes the thread the model wakes. -/
theorem woken_eq (rep : ListsRep lists model.lists) (curr : ThreadPtr) (cvr : Nat) :
    woken (model.withLists lists) cvr = (model.accountRuntime curr cvr).expired := by
  have accounted := model.accountRuntime_frame curr cvr
  have ticks : ∀ other, ((model.accountRuntime curr cvr).thread other).tickToWake =
      (model.thread other).tickToWake := fun other => (accounted.threads other).place.tickToWake
  have sleepers : (model.accountRuntime curr cvr).queue .sleepQ = model.queue .sleepQ := by
    rw [accounted.outside]
    rfl
  have rqTick : (model.accountRuntime curr cvr).rqTickToWake = model.rqTickToWake := by
    rw [accounted.outside]
  have tick : (model.accountRuntime curr cvr).tick = u64 (model.tick + model.slice cvr) := by
    rw [accounted.outside]
  have first := rep.first .sleepQ
  simp only [woken, KernelState.expired, ticks, sleepers, rqTick, tick, KernelState.slice,
    KernelState.withLists, first, Option.map_map]
  have same : (NodePtr.thread ∘ nodeIn .sleepQ) = id := funext (nodeIn_thread .sleepQ)
  rw [same, Option.map_id]
  rfl

/-- The place of the thread that ran, when exits are handled. -/
structure Requeued (model : Model) (curr : ThreadPtr) (cvr : Nat) : Prop where
  placed : Placed (model.beforePick curr cvr) []
  processed : Placed (model.accountRuntime curr cvr).processExpiredDelays
    (if (model.thread curr).tickToWake = 0 then [curr] else [])
  tick : ((model.accountRuntime curr cvr).processExpiredDelays.thread curr).tickToWake =
    (model.thread curr).tickToWake
  tickAfter : ((model.beforePick curr cvr).thread curr).tickToWake =
    (model.thread curr).tickToWake
  sleeps : (model.thread curr).tickToWake ≠ 0 →
    curr ∈ (model.beforePick curr cvr).queue .sleepQ
  queued : (model.thread curr).tickToWake = 0 → (model.thread curr).schedClass = .realTime →
    curr ∈ (model.beforePick curr cvr).queue .rtRq

theorem placed_accountRuntime {held : List ThreadPtr} (placed : Placed model held)
    (curr : ThreadPtr) (cvr : Nat) : Placed (model.accountRuntime curr cvr) held := by
  have accounted := model.accountRuntime_frame curr cvr
  apply placed.congr
  · apply placed.ready.of_lists
    rw [accounted.outside]
  · rw [accounted.outside]
    rfl
  · rw [accounted.outside]
  · exact fun thread _ => (accounted.threads thread).place

theorem Running.requeued (running : Running model curr) (rep : ListsRep lists model.lists)
    (asleep : woken (model.withLists lists) cvr ≠ some curr) : Requeued model curr cvr := by
  have accounted := model.accountRuntime_frame curr cvr
  have notWoken : (model.accountRuntime curr cvr).expired ≠ some curr :=
    woken_eq rep curr cvr ▸ asleep
  have samePlace := (accounted.threads curr).place
  have kept := KernelState.processExpiredDelays_thread notWoken
  have tick : ((model.accountRuntime curr cvr).processExpiredDelays.thread curr).tickToWake =
      (model.thread curr).tickToWake := by
    rw [kept]
    exact samePlace.tickToWake
  rcases running with ⟨awakeTick, awake, placed⟩ | ⟨asleepTick, member, placed⟩
  · have processed := (placed_accountRuntime placed curr cvr).processExpiredDelays
    have isAwake : Awake ((model.accountRuntime curr cvr).processExpiredDelays.thread curr) := by
      rw [kept]
      exact samePlace.awake awake
    have enqueued : model.beforePick curr cvr =
        (model.accountRuntime curr cvr).processExpiredDelays.enqueue curr := by
      rw [KernelState.beforePick, KernelState.requeueCurrThread, if_pos isAwake.1]
    constructor
    · rw [enqueued]
      exact processed.enqueue isAwake
    · rw [if_pos awakeTick]
      exact processed
    · exact tick
    · rw [enqueued, ← tick]
      simp only [KernelState.enqueue]
      split
      · rw [KernelState.thread_setThread_self, enqueuedFields_tickToWake]
        rfl
      · rfl
    · exact fun asleepTick => absurd awakeTick asleepTick
    · intro _ realTime
      rw [enqueued, KernelState.enqueue_queue, kept, samePlace.schedClass, realTime]
      simp [KernelState.runQueue]
  · have processed := (placed_accountRuntime placed curr cvr).processExpiredDelays
    have stays : model.beforePick curr cvr =
        (model.accountRuntime curr cvr).processExpiredDelays := by
      rw [KernelState.beforePick, KernelState.requeueCurrThread, if_neg (tick ▸ asleepTick)]
    have sleeper : curr ∈ (model.accountRuntime curr cvr).queue .sleepQ := by
      rw [accounted.outside]
      exact member
    constructor
    · rw [stays]
      exact processed
    · rw [if_neg asleepTick]
      exact processed
    · exact tick
    · rw [stays]
      exact tick
    · intro _
      rw [stays]
      exact KernelState.processExpiredDelays_sleeper sleeper notWoken
    · exact fun awakeTick => absurd awakeTick asleepTick

/-- The kernel from the end of a SysTick to its PendSV. -/
theorem sound_picked {after : Model} (memory : Memory linker model spare)
    (placed : Placed model []) (picked : model.pick = some (next, after))
    (current : ∀ curr, model.currThread = some curr → curr ∈ model.queue .threads ∧
      ((model.thread curr).tickToWake ≠ 0 → curr ∈ model.queue .sleepQ))
    (enabled : model.systickEnabled = true) (started : model.schedulerStatus = true)
    (idle : ∃ idle, model.idle = some idle) :
    Sound linker { after with nextThread := some next, pendsvPending := true } spare := by
  have frame := pick_frame picked
  have chosen := placed.pick picked
  have threads : after.queue .threads = model.queue .threads :=
    frame.queues .threads (by simp [KernelState.pickOrder])
  have sleepers : after.queue .sleepQ = model.queue .sleepQ :=
    frame.queues .sleepQ (by simp [KernelState.pickOrder])
  have mm : after.mm = model.mm := by
    rw [frame.outside]
  have running : after.currThread = model.currThread := by
    rw [frame.outside]
  have systick : after.systickEnabled = true := by
    rw [frame.outside]
    exact enabled
  have status : after.schedulerStatus = true := by
    rw [frame.outside]
    exact started
  exact {
    memory := memory.congr mm threads fun found _ => (frame.identity found).codeAddr
    placed := chosen.1.congr (chosen.1.ready.of_lists rfl) rfl rfl fun _ _ => ⟨rfl, rfl, rfl⟩
    awake := by
      intro thread inHand
      cases inHand
      exact chosen.2
    current := by
      intro curr isCurr
      have known := current curr (running.symm.trans isCurr)
      refine ⟨threads.symm ▸ known.1, ?_⟩
      intro asleep
      have before := known.2 (frame.ticks curr ▸ asleep)
      exact sleepers.symm ▸ before
    started := fun _ => ⟨status, frame.idle ▸ idle⟩
    running := fun _ pending => by cases pending
    booting := by
      intro disabled
      change after.systickEnabled = false at disabled
      rw [systick] at disabled
      cases disabled
    switching := fun _ => ⟨next, rfl⟩ }

theorem enqueue_idle (model : Model) (thread : ThreadPtr)
    (idle : ∃ idle, model.idle = some idle) :
    ∃ idle, (model.enqueue thread).idle = some idle := by
  simp only [KernelState.enqueue]
  split
  · exact idle
  · exact ⟨thread, rfl⟩

theorem wake_idle (model : Model) (thread : ThreadPtr)
    (idle : ∃ idle, model.idle = some idle) : ∃ idle, (model.wake thread).idle = some idle := by
  rw [KernelState.wake_eq]
  exact enqueue_idle _ _ idle

theorem tickToWakeUpdate_idle (model : Model) :
    model.tickToWakeUpdate.idle = model.idle := by
  cases split : model.queue .sleepQ <;> simp [KernelState.tickToWakeUpdate, split]

/-- What a SysTick leaves alone before it handles exits. -/
structure BeforePickFrame (before after : Model) : Prop where
  currThread : after.currThread = before.currThread
  mm : after.mm = before.mm
  systickEnabled : after.systickEnabled = before.systickEnabled
  schedulerStatus : after.schedulerStatus = before.schedulerStatus
  idle : (∃ idle, before.idle = some idle) → ∃ idle, after.idle = some idle
  queues : ∀ queue, queue ≠ .sleepQ → (∀ schedClass, KernelState.runQueue schedClass ≠ some queue) →
    after.queue queue = before.queue queue
  identity : ∀ other, SameIdentity (before.thread other) (after.thread other)

namespace BeforePickFrame

variable {before middle after : Model}

theorem trans (early : BeforePickFrame before middle) (late : BeforePickFrame middle after) :
    BeforePickFrame before after where
  currThread := late.currThread.trans early.currThread
  mm := late.mm.trans early.mm
  systickEnabled := late.systickEnabled.trans early.systickEnabled
  schedulerStatus := late.schedulerStatus.trans early.schedulerStatus
  idle := fun idle => late.idle (early.idle idle)
  queues := fun queue notSleep notRun =>
    (late.queues queue notSleep notRun).trans (early.queues queue notSleep notRun)
  identity := fun other => (early.identity other).trans (late.identity other)

theorem account (model : Model) (curr : ThreadPtr) (cvr : Nat) :
    BeforePickFrame model (model.accountRuntime curr cvr) := by
  have accounted := model.accountRuntime_frame curr cvr
  constructor
  · rw [accounted.outside]
  · rw [accounted.outside]
  · rw [accounted.outside]
  · rw [accounted.outside]
  · rw [accounted.outside]
    exact id
  · intro queue _ _
    rw [accounted.outside]
    rfl
  · exact fun other => (accounted.threads other).identity

theorem process (model : Model) : BeforePickFrame model model.processExpiredDelays := by
  have outside := model.processExpiredDelays_outside
  constructor
  · rw [outside]
  · rw [outside]
  · rw [outside]
  · rw [outside]
  · intro idle
    rw [KernelState.processExpiredDelays_eq]
    split
    · rw [tickToWakeUpdate_idle]
      exact wake_idle _ _ idle
    · split
      · rw [tickToWakeUpdate_idle]
        exact idle
      · exact idle
  · exact fun queue notSleep notRun =>
      KernelState.processExpiredDelays_queue_of_ne model notSleep notRun
  · exact fun other => KernelState.processExpiredDelays_identity model other

theorem requeue (model : Model) (curr : ThreadPtr) :
    BeforePickFrame model (model.requeueCurrThread curr) := by
  rw [KernelState.requeueCurrThread]
  split
  · have outside := model.enqueue_outside curr
    constructor
    · rw [outside]
    · rw [outside]
    · rw [outside]
    · rw [outside]
    · exact enqueue_idle model curr
    · intro queue _ notRun
      rw [KernelState.enqueue_queue, if_neg (notRun _)]
    · exact fun other => KernelState.enqueue_identity model curr other
  · exact ⟨rfl, rfl, rfl, rfl, id, fun _ _ _ => rfl, fun _ => .refl _⟩

end BeforePickFrame

theorem beforePick_frame (model : Model) (curr : ThreadPtr) (cvr : Nat) :
    BeforePickFrame model (model.beforePick curr cvr) :=
  ((BeforePickFrame.account model curr cvr).trans (.process _)).trans (.requeue _ curr)

/-- The queue a thread that exits is found in. -/
theorem Requeued.exit_queue (requeued : Requeued model curr cvr)
    (known : (model.thread curr).schedClass = .realTime ∨ (model.thread curr).tickToWake ≠ 0) :
    ∃ queue : QueueId, queue.Running ∧ queue ≠ .blockedQ ∧
      curr ∈ (model.beforePick curr cvr).queue queue ∧
      ((model.beforePick curr cvr).thread curr).rqList = some queue := by
  by_cases awake : (model.thread curr).tickToWake = 0
  · have realTime := known.resolve_right (not_not.mpr awake)
    have member := requeued.queued awake realTime
    exact ⟨.rtRq, by simp [QueueId.Running], by simp, member,
      (requeued.placed.fits .rtRq curr member).2.2⟩
  · have member := requeued.sleeps awake
    exact ⟨.sleepQ, by simp [QueueId.Running], by simp, member,
      (requeued.placed.fits .sleepQ curr member).2.2⟩

theorem removeThread_queues {queue : QueueId} (running : queue.Running)
    (rqList : (model.thread curr).rqList = some queue) (mm : MmState) :
    (model.removeThread curr mm).queue .threads = (model.queue .threads).erase curr ∧
      ∀ other : QueueId, other.Running → other ≠ queue →
        (model.removeThread curr mm).queue other = model.queue other := by
  have after : model.removeThread curr mm =
      { (model.remove .threads curr).remove queue curr with mm, currThread := none } := by
    simp only [KernelState.removeThread, KernelState.remove_thread, rqList]
  rw [after]
  constructor
  · change ((model.remove .threads curr).remove queue curr).queue .threads = _
    rw [KernelState.remove_queue_of_ne _ _ (Ne.symm running), KernelState.remove_queue_self]
  · intro other otherRunning different
    change ((model.remove .threads curr).remove queue curr).queue other = _
    rw [KernelState.remove_queue_of_ne _ _ different,
      KernelState.remove_queue_of_ne _ _ otherRunning]

theorem removeThread_thread (model : Model) (curr : ThreadPtr) (mm : MmState) :
    (model.removeThread curr mm).thread = model.thread := by
  rw [KernelState.removeThread]
  split <;> rfl

/-- A SysTick whose running thread exits: its blocks go back, and no list has it. -/
theorem Sound.exit (sound : Sound linker model spare) (isCurr : model.currThread = some curr)
    (requeued : Requeued model curr cvr) (exits : (model.thread curr).exitPending = true)
    (known : (model.thread curr).schedClass = .realTime ∨ (model.thread curr).tickToWake ≠ 0) :
    ∃ mm, (deleteThread ((model.beforePick curr cvr).thread curr).codeAddr curr).run
        (model.beforePick curr cvr).mm = .ok () mm ∧
      (∀ lists, ListsRep lists (model.beforePick curr cvr).lists →
        Takes lists (model.beforePick curr cvr) removeExitedThread ()
          ((model.beforePick curr cvr).removeThread curr mm)) ∧
      Placed ((model.beforePick curr cvr).removeThread curr mm) [] ∧
      Memory linker ((model.beforePick curr cvr).removeThread curr mm) spare ∧
      ((model.beforePick curr cvr).removeThread curr mm).queue .threads =
        (model.queue .threads).erase curr ∧
      ((model.beforePick curr cvr).removeThread curr mm).queue .blockedQ =
        model.queue .blockedQ := by
  have frame := beforePick_frame model curr cvr
  have threads := frame.queues .threads (by simp) KernelState.runQueue_ne_threads
  have isKnown : curr ∈ (model.beforePick curr cvr).queue .threads :=
    threads.symm ▸ (sound.current curr isCurr).1
  have memory : Memory linker (model.beforePick curr cvr) spare :=
    sound.memory.congr frame.mm threads fun found _ => (frame.identity found).codeAddr
  rcases memory.delete isKnown with ⟨mm, deleted, remaining⟩
  have blocked := frame.queues .blockedQ (by simp) (fun schedClass => by
    cases schedClass <;> simp [KernelState.runQueue])
  rcases requeued.exit_queue known with ⟨queue, running, notBlocked, member, rqList⟩
  rcases removeThread_queues running rqList mm with ⟨removed, others⟩
  refine ⟨mm, deleted, ?_, requeued.placed.removeThread running member rqList mm, ?_,
    threads ▸ removed, ?_⟩
  · intro lists rep
    apply takes_removeExitedThread rep (frame.currThread.trans isCurr)
      ((frame.identity curr).exitPending.trans exits) isKnown
    · intro list queued
      cases rqList.symm.trans queued
      exact ⟨running, member⟩
    · intro alone
      cases rqList.symm.trans alone
    · exact deleted
  · apply remaining _ rfl removed
    intro found _
    rw [KernelState.removeThread]
    split <;> rfl
  · exact (others .blockedQ (by simp [QueueId.Running]) (Ne.symm notBlocked)).trans blocked

/-- A SysTick that handles the exit by `removed` ends with a pick. -/
theorem Sound.systick_picks (sound : Sound linker model spare) (rep : ListsRep lists model.lists)
    (started : model.schedulerStatus = true) (isCurr : model.currThread = some curr)
    (requeued : Requeued model curr cvr) {removed : Model} (placed : Placed removed [])
    (enabled : removed.systickEnabled = true) (status : removed.schedulerStatus = true)
    (idle : ∃ idle, removed.idle = some idle) (memory : Memory linker removed spare)
    (current : ∀ curr, removed.currThread = some curr → curr ∈ removed.queue .threads ∧
      ((removed.thread curr).tickToWake ≠ 0 → curr ∈ removed.queue .sleepQ))
    (exits : ∀ lists, ListsRep lists (model.beforePick curr cvr).lists →
      Takes lists (model.beforePick curr cvr) removeExitedThread () removed) :
    ∃ next after, removed.pick = some (next, after) ∧
      Takes lists model (systickException cvr) ()
        { after with nextThread := some next, pendsvPending := true } ∧
      Sound linker { after with nextThread := some next, pendsvPending := true } spare := by
  rcases idle with ⟨idle, present⟩
  rcases Placed.pickFrom_exists present KernelState.pickOrder with ⟨next, after, picked⟩
  refine ⟨next, after, picked, ?_,
    sound_picked memory placed picked current enabled status ⟨idle, present⟩⟩
  apply takes_systickException rep started isCurr sound.placed.ready
    requeued.processed.ready _ exits placed.ready picked
  intro awake
  have held := requeued.processed.heldUnqueued
  rw [if_pos (requeued.tick ▸ awake)] at held
  exact held curr List.mem_cons_self

/-- A SysTick whose running thread does not exit. -/
theorem Sound.systick_stays (sound : Sound linker model spare) (rep : ListsRep lists model.lists)
    (enabled : model.systickEnabled = true) (isCurr : model.currThread = some curr)
    (requeued : Requeued model curr cvr) (stays : (model.thread curr).exitPending = false) :
    ∃ next after, (model.beforePick curr cvr).pick = some (next, after) ∧
      Takes lists model (systickException cvr) ()
        { after with nextThread := some next, pendsvPending := true } ∧
      Sound linker { after with nextThread := some next, pendsvPending := true } spare := by
  have frame := beforePick_frame model curr cvr
  have threads := frame.queues .threads (by simp) KernelState.runQueue_ne_threads
  have started := sound.started enabled
  apply sound.systick_picks rep started.1 isCurr requeued requeued.placed
    (frame.systickEnabled.trans enabled) (frame.schedulerStatus.trans started.1)
    (frame.idle started.2)
    (sound.memory.congr frame.mm threads fun found _ => (frame.identity found).codeAddr)
  · intro other isOther
    cases (frame.currThread.trans isCurr).symm.trans isOther
    exact ⟨threads.symm ▸ (sound.current curr isCurr).1,
      fun asleep => requeued.sleeps (requeued.tickAfter ▸ asleep)⟩
  · intro lists rep
    exact takes_removeExitedThread_none rep (frame.currThread.trans isCurr)
      ((frame.identity curr).exitPending.trans stays)

/-- A SysTick whose running thread exits. -/
theorem Sound.systick_exits (sound : Sound linker model spare) (rep : ListsRep lists model.lists)
    (enabled : model.systickEnabled = true) (isCurr : model.currThread = some curr)
    (requeued : Requeued model curr cvr) (exits : (model.thread curr).exitPending = true)
    (known : (model.thread curr).schedClass = .realTime ∨ (model.thread curr).tickToWake ≠ 0) :
    ∃ mm next after,
      (deleteThread ((model.beforePick curr cvr).thread curr).codeAddr curr).run
        (model.beforePick curr cvr).mm = .ok () mm ∧
      ((model.beforePick curr cvr).removeThread curr mm).pick = some (next, after) ∧
      after.queue .threads = (model.queue .threads).erase curr ∧
      after.queue .blockedQ = model.queue .blockedQ ∧
      Takes lists model (systickException cvr) ()
        { after with nextThread := some next, pendsvPending := true } ∧
      Sound linker { after with nextThread := some next, pendsvPending := true } spare := by
  have frame := beforePick_frame model curr cvr
  have started := sound.started enabled
  rcases sound.exit isCurr requeued exits known with
    ⟨mm, deleted, takes, placed, memory, erased, blocked⟩
  have outside : ∀ model : Model, (model.removeThread curr mm).systickEnabled =
      model.systickEnabled ∧ (model.removeThread curr mm).schedulerStatus =
      model.schedulerStatus ∧ (model.removeThread curr mm).idle = model.idle ∧
      (model.removeThread curr mm).currThread = none := by
    intro model
    rw [KernelState.removeThread]
    split <;> exact ⟨rfl, rfl, rfl, rfl⟩
  rcases outside (model.beforePick curr cvr) with ⟨systick, status, idle, gone⟩
  have picks := sound.systick_picks rep started.1 isCurr requeued placed
    (systick.trans (frame.systickEnabled.trans enabled))
    (status.trans (frame.schedulerStatus.trans started.1))
    (idle.symm ▸ frame.idle started.2) memory
    (fun other isOther => by cases gone.symm.trans isOther) takes
  rcases picks with ⟨next, after, picked, taken, kept⟩
  have listed := (pick_frame picked).queues .threads (by simp [KernelState.pickOrder])
  have held := (pick_frame picked).queues .blockedQ (by simp [KernelState.pickOrder])
  exact ⟨mm, next, after, deleted, picked, listed.trans erased, held.trans blocked, taken, kept⟩

/-- What a SysTick does to the threads: it loses none but one that exits, touches
none that is blocked, and the one it wakes is awake. -/
structure SystickFrame (before after : Model) (woken : Option ThreadPtr) : Prop where
  pendsvPending : after.pendsvPending = true
  shrinks : ∀ thread ∈ after.queue .threads, thread ∈ before.queue .threads
  threads : ∀ thread ∈ before.queue .threads, thread ∈ after.queue .threads ∨
    before.currThread = some thread ∧ (before.thread thread).exitPending = true
  blocked : after.queue .blockedQ = before.queue .blockedQ
  wakes : ∀ thread, woken = some thread → (after.thread thread).tickToWake = 0 ∧
    thread ∈ before.queue .sleepQ
  identity : ∀ other, SameIdentity (before.thread other) (after.thread other)

/-- The thread that a SysTick wakes is awake from then on. -/
theorem wakes_beforePick (rep : ListsRep lists model.lists) {found : ThreadPtr}
    (wakes : woken (model.withLists lists) cvr = some found) (different : found ≠ curr) :
    ((model.beforePick curr cvr).thread found).tickToWake = 0 ∧ found ∈ model.queue .sleepQ := by
  have expired : (model.accountRuntime curr cvr).expired = some found :=
    woken_eq rep curr cvr ▸ wakes
  have member := (Placed.expired_member expired).1
  rw [(model.accountRuntime_frame curr cvr).outside] at member
  have woke : ((model.accountRuntime curr cvr).processExpiredDelays.thread found).tickToWake =
      0 := by
    rw [(KernelState.processExpiredDelays_some expired).2]
    exact KernelState.wake_tick _ _
  refine ⟨?_, member⟩
  rw [KernelState.beforePick, KernelState.requeueCurrThread]
  split
  · rw [KernelState.enqueue_thread_of_ne _ different]
    exact woke
  · exact woke

/-- A SysTick keeps the scheduler sound, whether or not the thread exits. -/
theorem Sound.systick (sound : Sound linker model spare) (rep : ListsRep lists model.lists)
    (enabled : model.systickEnabled = true)
    (allowed : Allowed (model.withLists lists) (.systick cvr)) :
    ∃ after, Takes lists model (systickException cvr) () after ∧ Sound linker after spare ∧
      SystickFrame model after (woken (model.withLists lists) cvr) := by
  rcases allowed with ⟨switched, sleepsOn, exitKnown⟩
  rcases sound.found enabled switched with ⟨curr, isCurr, running⟩
  have requeued := running.requeued rep (sleepsOn curr isCurr)
  have frame := beforePick_frame model curr cvr
  have different : ∀ found, woken (model.withLists lists) cvr = some found → found ≠ curr := by
    intro found wakes equal
    exact sleepsOn curr isCurr (equal ▸ wakes)
  cases exits : (model.thread curr).exitPending with
  | false =>
      rcases sound.systick_stays rep enabled isCurr requeued exits with
        ⟨next, after, picked, takes, kept⟩
      have picks := pick_frame picked
      have listed := picks.queues .threads (by simp [KernelState.pickOrder])
      have held := picks.queues .blockedQ (by simp [KernelState.pickOrder])
      have threads := frame.queues .threads (by simp) KernelState.runQueue_ne_threads
      have blocked := frame.queues .blockedQ (by simp) (fun schedClass => by
        cases schedClass <;> simp [KernelState.runQueue])
      refine ⟨_, takes, kept, rfl, fun thread known => listed.trans threads ▸ known,
        fun thread known => .inl ((listed.trans threads).symm ▸ known), held.trans blocked, ?_,
        fun other => (frame.identity other).trans (picks.identity other)⟩
      intro found wakes
      have woke := wakes_beforePick rep wakes (different found wakes)
      exact ⟨(picks.ticks found).trans woke.1, woke.2⟩
  | true =>
      rcases sound.systick_exits rep enabled isCurr requeued exits
        (exitKnown curr isCurr exits) with ⟨mm, next, after, _, picked, erased, blocked, takes, kept⟩
      have picks := pick_frame picked
      have fields := removeThread_thread (model.beforePick curr cvr) curr mm
      refine ⟨_, takes, kept, rfl, fun thread known => List.mem_of_mem_erase (erased ▸ known), ?_,
        blocked, ?_, ?_⟩
      · intro thread known
        by_cases isThread : thread = curr
        · exact .inr ⟨isThread ▸ isCurr, isThread ▸ exits⟩
        · exact .inl (erased.symm ▸ (List.mem_erase_of_ne isThread).mpr known)
      · intro found wakes
        have woke := wakes_beforePick rep wakes (different found wakes)
        have tick := picks.ticks found
        rw [fields] at tick
        exact ⟨tick.trans woke.1, woke.2⟩
      · intro other
        have identity := picks.identity other
        rw [fields] at identity
        exact (frame.identity other).trans identity

end Events

end Vanilla.Kernel
