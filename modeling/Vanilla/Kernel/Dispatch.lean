import Mathlib.Data.List.Rotate
import Vanilla.Kernel.WakeUps

/-! # Which thread runs next

A SysTick picks from the highest class that has a ready thread, and the threads
of that class take turns.
-/

namespace Vanilla.Kernel

open Mm

/-- The place of a class in the order of `schedulingClasses`. -/
def SchedClass.rank : SchedClass → Nat
  | .realTime => 0
  | .application => 1
  | .background => 2
  | .idle => 3

section Steps

variable {linker : Linker} {lists final : KernelLists} {model next : Model}
  {spare others : List Nat} {held : List ThreadPtr} {curr thread chosen : ThreadPtr} {cvr : Nat}
  {event : Event}

/-! ## What a run queue holds when a SysTick picks -/

/-- A thread that joins a run queue if its class is the one of the queue. -/
def joins (model : Model) (queue : QueueId) (thread : Option ThreadPtr) : List ThreadPtr :=
  (thread.filter fun found =>
    decide (KernelState.runQueue (model.thread found).schedClass = some queue)).toList

theorem mem_joins {queue : QueueId} {found : Option ThreadPtr} :
    thread ∈ joins model queue found ↔ found = some thread ∧
      KernelState.runQueue (model.thread thread).schedClass = some queue := by
  rw [joins, Option.mem_toList, Option.filter_eq_some_iff, decide_eq_true_iff]

theorem queue_running {queue : QueueId} {schedClass : SchedClass}
    (runs : KernelState.runQueue schedClass = some queue) : queue ≠ .sleepQ := by
  intro equal
  exact KernelState.runQueue_ne_sleepQ schedClass (equal ▸ runs)

/-- A woken thread comes before the preempted one, and both behind the others. -/
theorem beforePick_queue {queue : QueueId} {schedClass : SchedClass}
    (runs : KernelState.runQueue schedClass = some queue)
    (notWoken : (model.accountRuntime curr cvr).expired ≠ some curr) :
    (model.beforePick curr cvr).queue queue = model.queue queue ++
      joins model queue (model.accountRuntime curr cvr).expired ++
      if (model.thread curr).tickToWake = 0 then joins model queue (some curr) else [] := by
  have accounted := model.accountRuntime_frame curr cvr
  have processed : (model.accountRuntime curr cvr).processExpiredDelays.queue queue =
      model.queue queue ++ joins model queue (model.accountRuntime curr cvr).expired := by
    rw [KernelState.processExpiredDelays_queue, ← accountRuntime_queue model curr cvr queue]
    cases expired : (model.accountRuntime curr cvr).expired with
    | none => simp [joins]
    | some found =>
        simp only
        rw [KernelState.wake_queue, (accounted.threads found).place.schedClass]
        by_cases same : KernelState.runQueue (model.thread found).schedClass = some queue
        · simp [joins, Option.filter, same]
        · simp [joins, Option.filter, same, queue_running runs]
  have fields : ((model.accountRuntime curr cvr).processExpiredDelays.thread curr) =
      (model.accountRuntime curr cvr).thread curr :=
    KernelState.processExpiredDelays_thread notWoken
  have place := (accounted.threads curr).place
  rw [KernelState.beforePick, KernelState.requeueCurrThread, fields, place.tickToWake]
  by_cases awake : (model.thread curr).tickToWake = 0
  · rw [if_pos awake, if_pos awake, KernelState.enqueue_queue, fields, place.schedClass,
      processed]
    by_cases same : KernelState.runQueue (model.thread curr).schedClass = some queue
    · simp [joins, Option.filter, same]
    · simp [joins, Option.filter, same]
  · rw [if_neg awake, if_neg awake, processed, List.append_nil]

/-! ## What is picked -/

/-- A pick takes the first thread of the highest class that has one. -/
theorem pick_highest (placed : Placed model held) (picked : model.pick = some (chosen, next)) :
    (∀ thread queue, KernelState.runQueue (model.thread thread).schedClass = some queue →
      thread ∈ model.queue queue →
      (model.thread chosen).schedClass.rank ≤ (model.thread thread).schedClass.rank) ∧
    ((∃ queue, KernelState.runQueue (model.thread chosen).schedClass = some queue ∧
      chosen ∈ model.queue queue) ∨ model.idle = some chosen) := by
  simp only [KernelState.pick, KernelState.pickOrder, KernelState.pickFrom] at picked
  cases realTime : model.queue .rtRq with
  | cons head rest =>
      simp only [realTime, Option.some.injEq, Prod.mk.injEq] at picked
      rcases picked with ⟨rfl, _⟩
      have member : head ∈ model.queue .rtRq := realTime ▸ List.mem_cons_self
      have schedClass := (placed.fits .rtRq head member).1
      refine ⟨?_, .inl ⟨.rtRq, congrArg KernelState.runQueue schedClass, member⟩⟩
      rw [schedClass]
      exact fun _ _ _ _ => Nat.zero_le _
  | nil =>
      simp only [realTime] at picked
      cases application : model.queue .appRq with
      | cons head rest =>
          simp only [application, Option.some.injEq, Prod.mk.injEq] at picked
          rcases picked with ⟨rfl, _⟩
          have member : head ∈ model.queue .appRq := application ▸ List.mem_cons_self
          have schedClass := (placed.fits .appRq head member).1
          refine ⟨?_, .inl ⟨.appRq, congrArg KernelState.runQueue schedClass, member⟩⟩
          intro thread queue runs queued
          rw [schedClass]
          cases other : (model.thread thread).schedClass with
          | realTime =>
              rw [other] at runs
              cases runs
              cases realTime ▸ queued
          | _ => simp [SchedClass.rank]
      | nil =>
          simp only [application] at picked
          cases background : model.queue .backgroundRq with
          | cons head rest =>
              simp only [background, Option.some.injEq, Prod.mk.injEq] at picked
              rcases picked with ⟨rfl, _⟩
              have member : head ∈ model.queue .backgroundRq := background ▸ List.mem_cons_self
              have schedClass := (placed.fits .backgroundRq head member).1
              refine ⟨?_, .inl ⟨.backgroundRq, congrArg KernelState.runQueue schedClass, member⟩⟩
              intro thread queue runs queued
              rw [schedClass]
              cases other : (model.thread thread).schedClass with
              | realTime =>
                  rw [other] at runs
                  cases runs
                  cases realTime ▸ queued
              | application =>
                  rw [other] at runs
                  cases runs
                  cases application ▸ queued
              | _ => simp [SchedClass.rank]
          | nil =>
              simp only [background, Option.map_eq_some_iff, Prod.mk.injEq] at picked
              rcases picked with ⟨idle, isIdle, rfl, rfl⟩
              refine ⟨?_, .inr isIdle⟩
              intro thread queue runs queued
              cases other : (model.thread thread).schedClass <;> rw [other] at runs <;> cases runs
              · cases realTime ▸ queued
              · cases application ▸ queued
              · cases background ▸ queued

/-! ## The policy -/

/-- A thread that may run once this SysTick is over: one that is ready, the one that
is preempted, or the one that is woken. -/
def ReadyAt (kernel : Machine) (queues : QueueId → List ThreadPtr) (cvr : Nat)
    (thread : ThreadPtr) : Prop :=
  (kernel.thread thread).schedClass ≠ .idle ∧
    ((∃ queue, KernelState.runQueue (kernel.thread thread).schedClass = some queue ∧
        thread ∈ queues queue) ∨
      kernel.currThread = some thread ∧ (kernel.thread thread).tickToWake = 0 ∧
        (kernel.thread thread).exitPending = false ∨
      woken kernel cvr = some thread)

theorem removeThread_queue (model : Model) (curr : ThreadPtr) (mm : MmState) {queue : QueueId}
    (running : queue.Running) : (model.removeThread curr mm).queue queue =
      if (model.thread curr).rqList = some queue then (model.queue queue).erase curr
      else model.queue queue := by
  have others : (model.remove .threads curr).queue queue = model.queue queue :=
    KernelState.remove_queue_of_ne _ _ running
  simp only [KernelState.removeThread, KernelState.remove_thread]
  cases rqList : (model.thread curr).rqList with
  | none => exact others
  | some list =>
      by_cases equal : list = queue
      · subst equal
        rw [if_pos rfl, ← others]
        exact KernelState.remove_queue_self _ _ _
      · rw [if_neg (by simpa using equal), ← others]
        exact KernelState.remove_queue_of_ne _ _ (Ne.symm equal)

/-- The threads in the run queues when a SysTick picks. -/
theorem mem_beforePick {queue : QueueId}
    (runs : KernelState.runQueue (model.thread thread).schedClass = some queue)
    (notWoken : (model.accountRuntime curr cvr).expired ≠ some curr) :
    thread ∈ (model.beforePick curr cvr).queue queue ↔ thread ∈ model.queue queue ∨
      (model.accountRuntime curr cvr).expired = some thread ∨
      (model.thread curr).tickToWake = 0 ∧ curr = thread := by
  rw [beforePick_queue runs notWoken, List.mem_append, List.mem_append, mem_joins, or_assoc]
  by_cases awake : (model.thread curr).tickToWake = 0
  · simp [awake, mem_joins, runs]
  · simp [awake, runs]

theorem Running.not_ready {queue : QueueId} {schedClass : SchedClass}
    (running : Running model curr) (runs : KernelState.runQueue schedClass = some queue) :
    curr ∉ model.queue queue := by
  intro member
  have isRunning : queue.Running := runQueue_running runs
  rcases running with ⟨_, _, placed⟩ | ⟨_, asleep, placed⟩
  · exact placed.heldUnqueued curr List.mem_cons_self queue isRunning member
  · exact queue_running runs (placed.apart queue .sleepQ isRunning (by simp [QueueId.Running])
      curr member asleep)

theorem runQueue_exists {schedClass : SchedClass} (notIdle : schedClass ≠ .idle) :
    ∃ queue, KernelState.runQueue schedClass = some queue := by
  cases schedClass with
  | idle => exact absurd rfl notIdle
  | _ => exact ⟨_, rfl⟩

theorem not_idle_of_runQueue {schedClass : SchedClass} {queue : QueueId}
    (runs : KernelState.runQueue schedClass = some queue) : schedClass ≠ .idle := by
  intro idle
  rw [idle] at runs
  cases runs

/-- The thread a SysTick picks, when none is in a better class. -/
def PicksHighest (kernel : Machine) (queues : QueueId → List ThreadPtr) (cvr : Nat)
    (idle : Option ThreadPtr) (chosen : ThreadPtr) : Prop :=
  (∀ thread, ReadyAt kernel queues cvr thread →
    (kernel.thread chosen).schedClass.rank ≤ (kernel.thread thread).schedClass.rank) ∧
  (ReadyAt kernel queues cvr chosen ∨ idle = some chosen)

/-- A pick from the queues that hold the ready threads, and no others. -/
theorem picksHighest_of_pick {removed : Model} (placed : Placed removed held)
    (picked : removed.pick = some (chosen, next))
    (identity : ∀ thread, (removed.thread thread).schedClass = (model.thread thread).schedClass)
    (ready : ∀ thread queue, KernelState.runQueue (model.thread thread).schedClass = some queue →
      (thread ∈ removed.queue queue ↔ ReadyAt (model.withLists lists) model.queue cvr thread)) :
    PicksHighest (model.withLists lists) model.queue cvr next.idle chosen := by
  rcases pick_highest placed picked with ⟨highest, origin⟩
  constructor
  · intro thread isReady
    rcases runQueue_exists isReady.1 with ⟨queue, runs⟩
    have le := highest thread queue (by rw [identity]; exact runs)
      ((ready thread queue runs).mpr isReady)
    rw [identity, identity] at le
    exact le
  · rcases origin with ⟨queue, runs, member⟩ | isIdle
    · rw [identity] at runs
      exact .inl ((ready chosen queue runs).mp member)
    · exact .inr ((KernelState.pick_idle picked).trans isIdle)

theorem Requeued.picks_stays (requeued : Requeued model curr cvr)
    (rep : ListsRep lists model.lists) (isCurr : model.currThread = some curr)
    (notWoken : woken (model.withLists lists) cvr ≠ some curr)
    (stays : (model.thread curr).exitPending = false)
    (picked : (model.beforePick curr cvr).pick = some (chosen, next)) :
    PicksHighest (model.withLists lists) model.queue cvr next.idle chosen := by
  apply picksHighest_of_pick requeued.placed picked
  · exact fun thread => ((beforePick_frame model curr cvr).identity thread).schedClass
  · intro thread queue runs
    have expired := woken_eq rep curr cvr
    rw [mem_beforePick runs (expired ▸ notWoken), ← expired]
    constructor
    · intro origin
      refine ⟨not_idle_of_runQueue runs, ?_⟩
      rcases origin with member | wakes | ⟨awake, rfl⟩
      · exact .inl ⟨queue, runs, member⟩
      · exact .inr (.inr wakes)
      · exact .inr (.inl ⟨isCurr, awake, stays⟩)
    · intro isReady
      rcases isReady.2 with ⟨found, foundRuns, member⟩ | ⟨isThread, awake, _⟩ | wakes
      · cases foundRuns.symm.trans runs
        exact .inl member
      · cases isCurr.symm.trans isThread
        exact .inr (.inr ⟨awake, rfl⟩)
      · exact .inr (.inl wakes)

theorem Requeued.picks_exits (requeued : Requeued model curr cvr)
    (rep : ListsRep lists model.lists) (isCurr : model.currThread = some curr)
    (running : Running model curr) (notWoken : woken (model.withLists lists) cvr ≠ some curr)
    (exits : (model.thread curr).exitPending = true)
    (known : (model.thread curr).schedClass = .realTime ∨ (model.thread curr).tickToWake ≠ 0)
    {mm : MmState}
    (picked : ((model.beforePick curr cvr).removeThread curr mm).pick = some (chosen, next)) :
    PicksHighest (model.withLists lists) model.queue cvr next.idle chosen := by
  rcases requeued.exit_queue known with ⟨home, homeRunning, _, member, rqList⟩
  have placed := requeued.placed.removeThread homeRunning member rqList mm
  have gone : curr ∉ ((model.beforePick curr cvr).removeThread curr mm).queue .threads := by
    rw [(removeThread_queues homeRunning rqList mm).1]
    exact (requeued.placed.nodup .threads).not_mem_erase
  apply picksHighest_of_pick placed picked
  · intro thread
    rw [removeThread_thread]
    exact ((beforePick_frame model curr cvr).identity thread).schedClass
  · intro thread queue runs
    have isRunning : queue.Running := runQueue_running runs
    have expired := woken_eq rep curr cvr
    have before := mem_beforePick runs (expired ▸ notWoken)
    rw [← expired] at before
    have removed : thread ∈ ((model.beforePick curr cvr).removeThread curr mm).queue queue ↔
        thread ∈ (model.beforePick curr cvr).queue queue ∧ thread ≠ curr := by
      constructor
      · intro queued
        refine ⟨?_, fun equal => gone (placed.ready.known queue curr (equal ▸ queued))⟩
        rw [removeThread_queue _ curr mm isRunning] at queued
        split at queued
        · exact List.mem_of_mem_erase queued
        · exact queued
      · intro queued
        rw [removeThread_queue _ curr mm isRunning]
        split
        · exact (List.mem_erase_of_ne queued.2).mpr queued.1
        · exact queued.1
    rw [removed, before]
    constructor
    · intro origin
      refine ⟨not_idle_of_runQueue runs, ?_⟩
      rcases origin with ⟨queued | wakes | ⟨_, isThread⟩, different⟩
      · exact .inl ⟨queue, runs, queued⟩
      · exact .inr (.inr wakes)
      · exact absurd isThread.symm different
    · intro isReady
      rcases isReady.2 with ⟨found, foundRuns, queued⟩ | ⟨isThread, _, stays⟩ | wakes
      · cases foundRuns.symm.trans runs
        exact ⟨.inl queued, fun equal => running.not_ready runs (equal ▸ queued)⟩
      · cases isCurr.symm.trans isThread
        cases exits.symm.trans stays
      · exact ⟨.inr (.inl wakes), fun equal => notWoken (equal ▸ wakes)⟩

/-- Each SysTick picks a ready thread of the highest class that has one. -/
theorem Sound.picks (sound : Sound linker model spare) (rep : ListsRep lists model.lists)
    (enabled : model.systickEnabled = true)
    (allowed : Allowed (model.withLists lists) (.systick cvr))
    (transition : Transition model (.systick cvr) next) :
    ∃ chosen, next.nextThread = some chosen ∧
      PicksHighest (model.withLists lists) model.queue cvr next.idle chosen := by
  rcases allowed with ⟨switched, sleepsOn, exitKnown⟩
  have entered := sound.enter
  have isSwitched : Switched
      (KernelState.withLists { model with systickPending := false } lists) := switched
  rcases entered.found enabled isSwitched with ⟨curr, isCurr, running⟩
  have requeued := running.requeued rep (sleepsOn curr isCurr)
  cases transition with
  | @stays found chosen _ after isFound stays _ picked =>
      cases isCurr.symm.trans isFound
      have picks := requeued.picks_stays rep isCurr (sleepsOn _ isCurr) stays picked
      exact ⟨chosen, rfl, picks⟩
  | @exits found chosen _ mm after isFound exits _ _ picked _ =>
      cases isCurr.symm.trans isFound
      have picks := requeued.picks_exits rep isCurr running (sleepsOn _ isCurr) exits
        (exitKnown _ isCurr exits) picked
      exact ⟨chosen, rfl, picks⟩

/-! ## Taking turns -/

/-- The threads of a class take turns: the first has its slice, the others wait in
this order, and no better class has a ready thread. -/
structure Turns (kernel : Machine) (schedClass : SchedClass) (order : List ThreadPtr) :
    Prop where
  waiting : ∃ queue first rest, KernelState.runQueue schedClass = some queue ∧
    order = first :: rest ∧ kernel.inHand = some first ∧ Holds kernel queue rest
  classes : ∀ thread ∈ order, (kernel.thread thread).schedClass = schedClass
  stay : ∀ thread ∈ order, (kernel.thread thread).exitPending = false
  better : ∀ other queue, other.rank < schedClass.rank →
    KernelState.runQueue other = some queue → Holds kernel queue []

/-- A step at which no thread joins the class or a better one, and none leaves. -/
def Quiet (schedClass : SchedClass) (kernel : Machine) : Event → Prop
  | .newThread info => schedClass.rank < info.schedClass.rank
  | .systick cvr => ∀ thread, woken kernel cvr = some thread →
      schedClass.rank < (kernel.thread thread).schedClass.rank
  | .pendsv => True
  | .allocate _ _ => True
  | .release _ => True
  | _ => False

def Event.isSystick : Event → Bool
  | .systick _ => true
  | _ => false

/-- How many slices end. -/
def sliceCount (events : List Event) : Nat := events.countP Event.isSystick

theorem holds_iff (rep : ListsRep lists model.lists) (queue : QueueId)
    (threads : List ThreadPtr) :
    Holds (model.withLists lists) queue threads ↔ model.queue queue = threads := by
  constructor
  · intro holds
    have same := Represents.unique holds (rep.holds queue)
    exact ((nodeIn_injective queue).list_map same).symm
  · intro same
    exact same ▸ rep.holds queue

/-- With no better class ready, the pick takes the first of the queue. -/
theorem pick_first {schedClass : SchedClass} {queue : QueueId} {first : ThreadPtr}
    {rest : List ThreadPtr} (runs : KernelState.runQueue schedClass = some queue)
    (queued : model.queue queue = first :: rest)
    (better : ∀ other queue, other.rank < schedClass.rank →
      KernelState.runQueue other = some queue → model.queue queue = [])
    (picked : model.pick = some (chosen, next)) :
    chosen = first ∧ next.queue queue = rest ∧
      ∀ other, other ≠ queue → next.queue other = model.queue other := by
  have taken : model.pick = some (first, (model.setQueue queue rest).setThread first
      (KernelState.pickedFields queue)) := by
    simp only [KernelState.pick, KernelState.pickOrder, KernelState.pickFrom]
    cases schedClass with
    | idle => cases runs
    | realTime =>
        cases runs
        rw [queued]
    | application =>
        cases runs
        rw [better .realTime .rtRq (by decide) rfl, queued]
    | background =>
        cases runs
        rw [better .realTime .rtRq (by decide) rfl, better .application .appRq (by decide) rfl,
          queued]
  rw [taken] at picked
  cases picked
  refine ⟨rfl, KernelState.queue_setQueue_self .., ?_⟩
  intro other different
  exact KernelState.queue_setQueue_of_ne _ _ _ _ different

theorem runQueue_injective {left right : SchedClass} {queue : QueueId}
    (leftRuns : KernelState.runQueue left = some queue)
    (rightRuns : KernelState.runQueue right = some queue) : left = right := by
  cases left <;> cases right <;> cases leftRuns <;> cases rightRuns <;> rfl

theorem joins_of_rank {schedClass : SchedClass} {queue : QueueId} {found : Option ThreadPtr}
    (runs : KernelState.runQueue schedClass = some queue)
    (other : ∀ thread, found = some thread → (model.thread thread).schedClass ≠ schedClass) :
    joins model queue found = [] := by
  apply List.eq_nil_iff_forall_not_mem.mpr
  intro thread member
  rcases mem_joins.mp member with ⟨isFound, threadRuns⟩
  exact other thread isFound (runQueue_injective threadRuns runs)

theorem newThread_queue (model : Model) (info : ThreadInfo) (thread : ThreadPtr) (mm : MmState)
    {queue : QueueId} (notThreads : queue ≠ .threads)
    (other : KernelState.runQueue info.schedClass ≠ some queue) :
    (model.newThread info thread mm).queue queue = model.queue queue := by
  simp only [KernelState.newThread]
  rw [KernelState.queue_setQueue_of_ne _ _ _ _ notThreads]
  cases runs : KernelState.runQueue info.schedClass with
  | none => rfl
  | some found =>
      have different : queue ≠ found := by
        intro equal
        exact other (equal ▸ runs)
      exact KernelState.queue_setQueue_of_ne _ _ _ _ different

theorem newThread_running {info : ThreadInfo} {created : ThreadPtr} {mm : MmState}
    (notIdle : info.schedClass ≠ .idle) :
    SameRunning model (model.newThread info created mm) := by
  have frame := newThread_frame model info created mm
  constructor
  · rw [frame.outside]
  · rw [frame.outside]
  · rw [frame.outside]
  · rw [frame.outside]
  · rw [frame.outside]
    exact fun _ => rfl
  · exact newThread_idle notIdle model created mm

section Turns

variable {schedClass : SchedClass} {order : List ThreadPtr}

/-- The threads that take turns are in the global list. -/
theorem Turns.known (turns : Turns (model.withLists lists) schedClass order)
    (rep : ListsRep lists model.lists) (sound : Sound linker model spare)
    (member : thread ∈ order) : thread ∈ model.queue .threads := by
  rcases turns.waiting with ⟨queue, first, rest, _, rfl, hand, holds⟩
  cases member with
  | head => exact sound.placed.heldKnown thread (Option.mem_toList.mpr hand)
  | tail _ member =>
      rw [← (holds_iff rep queue rest).mp holds] at member
      exact sound.placed.ready.known queue thread member

/-- A step that leaves the turns alone. -/
theorem Turns.keep (turns : Turns (model.withLists lists) schedClass order)
    (rep : ListsRep lists model.lists) (finalRep : ListsRep final next.lists)
    (hand : next.inHand = model.inHand)
    (queues : ∀ other queue, other.rank ≤ schedClass.rank →
      KernelState.runQueue other = some queue → next.queue queue = model.queue queue)
    (same : ∀ thread ∈ order, SameIdentity (model.thread thread) (next.thread thread)) :
    Turns (next.withLists final) schedClass order where
  waiting := by
    rcases turns.waiting with ⟨queue, first, rest, runs, rfl, inHand, holds⟩
    refine ⟨queue, first, rest, runs, rfl, hand.trans inHand, ?_⟩
    rw [holds_iff finalRep, queues schedClass queue (le_refl _) runs]
    exact (holds_iff rep queue rest).mp holds
  classes := fun thread member => (same thread member).schedClass.trans (turns.classes thread member)
  stay := fun thread member => (same thread member).exitPending.trans (turns.stay thread member)
  better := by
    intro other queue better runs
    rw [holds_iff finalRep, queues other queue (le_of_lt better) runs]
    exact (holds_iff rep queue []).mp (turns.better other queue better runs)

/-- At the end of a slice the thread that had it goes to the end of the line. -/
theorem Turns.rotate (turns : Turns (model.withLists lists) schedClass order)
    (rep : ListsRep lists model.lists) (finalRep : ListsRep final next.lists)
    (switched : model.pendsvPending = false) (isCurr : model.currThread = some curr)
    (quiet : ∀ thread, woken (model.withLists lists) cvr = some thread →
      schedClass.rank < (model.thread thread).schedClass.rank)
    (notWoken : woken (model.withLists lists) cvr ≠ some curr)
    (picked : (model.beforePick curr cvr).pick = some (chosen, next)) :
    Turns (KernelState.withLists { next with nextThread := some chosen, pendsvPending := true }
      final) schedClass (order.rotate 1) := by
  rcases turns.waiting with ⟨queue, first, rest, runs, rfl, hand, holds⟩
  have running : model.currThread = some first ∧ (model.thread first).tickToWake = 0 := by
    change model.inHand = some first at hand
    simp only [KernelState.inHand, switched, Bool.false_eq_true, if_false] at hand
    rcases Option.filter_eq_some_iff.mp hand with ⟨isFirst, awake⟩
    exact ⟨isFirst, of_decide_eq_true awake⟩
  cases isCurr.symm.trans running.1
  have expired := woken_eq rep curr cvr
  have isAwake := expired ▸ notWoken
  have ready := (holds_iff rep queue rest).mp holds
  have currClass : (model.thread curr).schedClass = schedClass :=
    turns.classes curr List.mem_cons_self
  have queued : (model.beforePick curr cvr).queue queue = rest ++ [curr] := by
    have woken : joins model queue (model.accountRuntime curr cvr).expired = [] := by
      apply joins_of_rank runs
      intro thread isExpired sameClass
      have rank := quiet thread (expired.trans isExpired)
      rw [sameClass] at rank
      exact lt_irrefl _ rank
    have preempted : joins model queue (some curr) = [curr] := by
      simp [joins, Option.filter, currClass, runs]
    rw [beforePick_queue runs isAwake, ready, woken, if_pos running.2, preempted,
      List.append_nil]
  have better : ∀ other found, other.rank < schedClass.rank →
      KernelState.runQueue other = some found →
      (model.beforePick curr cvr).queue found = [] := by
    intro other found betterRank otherRuns
    have woken : joins model found (model.accountRuntime curr cvr).expired = [] := by
      apply joins_of_rank otherRuns
      intro thread isExpired sameClass
      have rank := quiet thread (expired.trans isExpired)
      rw [sameClass] at rank
      exact lt_asymm rank betterRank
    have preempted : joins model found (some curr) = [] := by
      apply joins_of_rank otherRuns
      intro thread isThread sameClass
      cases isThread
      rw [currClass] at sameClass
      exact lt_irrefl _ (sameClass ▸ betterRank)
    rw [beforePick_queue otherRuns isAwake, woken, if_pos running.2, preempted,
      (holds_iff rep found []).mp (turns.better other found betterRank otherRuns)]
    rfl
  have identity := fun thread => ((beforePick_frame model curr cvr).identity thread).trans
    ((pick_frame picked).identity thread)
  have rotated : (curr :: rest).rotate 1 = rest ++ [curr] := by simp
  cases split : rest ++ [curr] with
  | nil => simp at split
  | cons head tail =>
      rcases pick_first runs (queued.trans split) better picked with ⟨rfl, queueAfter, others⟩
      constructor
      · exact ⟨queue, chosen, tail, runs, rotated.trans split, rfl,
          (holds_iff finalRep queue tail).mpr queueAfter⟩
      · intro thread member
        exact (identity thread).schedClass.trans
          (turns.classes thread (List.mem_rotate.mp member))
      · intro thread member
        exact (identity thread).exitPending.trans
          (turns.stay thread (List.mem_rotate.mp member))
      · intro other found betterRank otherRuns
        have different : found ≠ queue := by
          intro equal
          rw [runQueue_injective otherRuns (equal ▸ runs)] at betterRank
          exact lt_irrefl _ betterRank
        exact (holds_iff finalRep found []).mpr
          ((others found different).trans (better other found betterRank otherRuns))

theorem Transition.turns (transition : Transition model event next)
    (turns : Turns (model.withLists lists) schedClass order) (rep : ListsRep lists model.lists)
    (finalRep : ListsRep final next.lists) (sound : Sound linker model spare)
    (quiet : Quiet schedClass (model.withLists lists) event)
    (paired : event ≠ .pendsv → model.pendsvPending = false)
    (notWoken : ∀ cvr, event = .systick cvr → SleepsOn (model.withLists lists) cvr) :
    Turns (next.withLists final) schedClass (order.rotate (sliceCount [event])) := by
  have whole : order.rotate 0 = order := List.rotate_zero order
  cases transition with
  | @newThread info created mm notIdle fresh _ =>
      have frame := newThread_frame model info created mm
      have kept : ∀ thread ∈ model.queue .threads,
          (model.newThread info created mm).thread thread = model.thread thread :=
        fun thread known => frame.others thread fun equal => fresh (equal ▸ known)
      change Turns _ schedClass (order.rotate 0)
      rw [whole]
      apply turns.keep rep finalRep
      · apply inHand_congr (newThread_running notIdle)
        intro curr isCurr
        rw [kept curr (sound.current curr isCurr).1]
      · intro other queue rank runs
        apply newThread_queue model info created mm (runQueue_running runs)
        intro sameQueue
        have lower : schedClass.rank < info.schedClass.rank := quiet
        rw [runQueue_injective sameQueue runs] at lower
        exact absurd rank (not_le.mpr lower)
      · intro thread member
        rw [kept thread (turns.known rep sound member)]
        exact .refl _
  | @stays curr chosen cvr after isCurr _ _ picked =>
      have entered : Turns (KernelState.withLists { model with systickPending := false } lists)
          schedClass order := ⟨turns.waiting, turns.classes, turns.stay, turns.better⟩
      have enteredRep : ListsRep lists
          (KernelState.lists { model with systickPending := false }) := rep
      have afterRep : ListsRep final after.lists := finalRep
      exact entered.rotate enteredRep afterRep (paired (by simp)) isCurr quiet
        (notWoken cvr rfl curr isCurr) picked
  | @exits curr chosen cvr mm after isCurr exits _ _ _ _ =>
      rcases turns.waiting with ⟨queue, first, rest, _, rfl, hand, _⟩
      change model.inHand = some first at hand
      simp only [KernelState.inHand, paired (by simp), Bool.false_eq_true, if_false] at hand
      cases isCurr.symm.trans (Option.filter_eq_some_iff.mp hand).1
      cases exits.symm.trans (turns.stay curr List.mem_cons_self)
  | @pendsv chosen isNext hand =>
      change Turns _ schedClass (order.rotate 0)
      rw [whole]
      apply turns.keep rep finalRep
      · rw [hand]
        have awake := (sound.awake chosen hand).1
        simp [KernelState.inHand, Option.filter, awake]
      · exact fun _ _ _ _ => rfl
      · exact fun _ _ => .refl _
  | allocate =>
      change Turns _ schedClass (order.rotate 0)
      rw [whole]
      exact turns.keep rep finalRep rfl (fun _ _ _ _ => rfl) fun _ _ => .refl _
  | release =>
      change Turns _ schedClass (order.rotate 0)
      rw [whole]
      exact turns.keep rep finalRep rfl (fun _ _ _ _ => rfl) fun _ _ => .refl _
  | _ => exact quiet.elim

end Turns

end Steps

/-! ## Runs -/

section Runs

variable {linker : Linker} {memory : ByteMemory} {before after system : System}
  {events : List Event} {schedClass : SchedClass} {order : List ThreadPtr}

/-- An orderly step at which a class is left as it is. -/
def QuietStep (schedClass : SchedClass) (before : System) (event : Event) (after : System) :
    Prop :=
  OrderlyStep before event after ∧ Quiet schedClass before.kernel event

theorem OrderlySystem.turns (orderly : OrderlySystem linker before)
    (turns : Turns before.kernel schedClass order)
    (run : Run (QuietStep schedClass) before events after) :
    Turns after.kernel schedClass (order.rotate (sliceCount events)) := by
  induction run generalizing order with
  | nil state =>
      change Turns state.kernel schedClass (order.rotate 0)
      rw [List.rotate_zero]
      exact turns
  | @cons first middle last event events step _ induction =>
      have next := orderly.step step.1
      have allowed := orderly.allowed step.1
      have turned : Turns middle.kernel schedClass (order.rotate (sliceCount [event])) := by
        rcases orderly with ⟨model, stands, steady⟩
        rcases stands.step allowed with ⟨next, transition, final, sameNext, finalRep, _⟩
        rcases stands with ⟨lists, same, rep, sound, _⟩
        rcases step with ⟨orderlyStep, quiet⟩
        rw [same] at turns quiet
        rw [sameNext]
        cases orderlyStep with
        | intro _ isOrderly =>
            cases allowed with
            | intro _ isAllowed =>
                rw [same] at isOrderly isAllowed
                apply transition.turns turns rep finalRep sound quiet
                · intro notPendsv
                  by_contra pending
                  exact notPendsv (isOrderly.1 (Bool.eq_true_of_not_eq_false pending))
                · intro cvr isSystick
                  subst isSystick
                  exact isAllowed.2.1
      have rest := induction next turned
      rw [List.rotate_rotate] at rest
      have count : sliceCount (event :: events) = sliceCount [event] + sliceCount events := by
        rw [sliceCount, sliceCount, sliceCount, ← List.countP_append]
        rfl
      rw [count]
      exact rest

theorem Turns.nodup (turns : Turns system.kernel schedClass order)
    {model : Model} (stands : Stands linker system model) : order.Nodup := by
  rcases stands with ⟨lists, same, rep, sound, _⟩
  rw [same] at turns
  rcases turns.waiting with ⟨queue, first, rest, runs, rfl, hand, holds⟩
  have queued := (holds_iff rep queue rest).mp holds
  apply List.nodup_cons.mpr
  constructor
  · have unqueued := sound.placed.heldUnqueued first (Option.mem_toList.mpr hand)
    exact queued ▸ unqueued queue (runQueue_running runs)
  · exact queued ▸ sound.placed.nodup queue

/-- In every orderly run each SysTick picks a ready thread of the highest class that
has one. While no thread joins or leaves that class, its threads take turns: each
slice goes to the next one in queue order, and with `n` of them each has one of any
`n` slices. -/
theorem dispatch_policy (run : Run OrderlyStep (powerUp linker memory) events system) :
    ∃ queues, InPlace system.kernel queues ∧
      (∀ cvr, Enabled system (.systick cvr) → Orderly system.kernel (.systick cvr) →
        ∃ after chosen, (perform (.systick cvr)).run system = .ok () after ∧
          after.kernel.nextThread = some chosen ∧
          PicksHighest system.kernel queues cvr after.kernel.idle chosen) ∧
      ∀ schedClass order, Turns system.kernel schedClass order → order.Nodup ∧
        ∀ later after, Run (QuietStep schedClass) system later after →
          Turns after.kernel schedClass (order.rotate (sliceCount later)) ∧
          after.kernel.inHand = order[sliceCount later % order.length]? := by
  rcases (orderly_powerUp linker memory).run run with ⟨⟨model, stands, steady⟩, allowedRun⟩
  have whole := stands
  rcases whole with ⟨lists, same, rep, sound, _⟩
  refine ⟨model.queue, same ▸ sound.inPlace rep, ?_, ?_⟩
  · intro cvr enabled isOrderly
    have allowed := steady.allowed stands enabled isOrderly
    rcases returns_of_run allowedRun enabled allowed rfl with ⟨after, returns⟩
    rcases stands.step (.intro (.intro enabled returns) allowed) with
      ⟨next, transition, final, sameNext, _⟩
    have isOn : model.systickEnabled = true := by
      have enabledOn := enabled.1
      rw [same] at enabledOn
      exact enabledOn
    rw [same] at allowed
    rcases sound.picks rep isOn allowed transition with ⟨chosen, isNext, picks⟩
    refine ⟨after, chosen, returns, ?_, ?_⟩
    · rw [sameNext]
      exact isNext
    · rw [same, sameNext]
      exact picks
  · intro schedClass order turns
    refine ⟨turns.nodup stands, ?_⟩
    intro later after quietRun
    have turned := OrderlySystem.turns ⟨model, stands, steady⟩ turns quietRun
    refine ⟨turned, ?_⟩
    rcases turned.waiting with ⟨queue, first, rest, _, rotated, hand, _⟩
    rcases turns.waiting with ⟨_, _, _, _, isCons, _, _⟩
    have positive : 0 < order.length := by
      rw [isCons]
      exact Nat.succ_pos _
    have head : (order.rotate (sliceCount later))[0]? = some first := by
      rw [rotated]
      rfl
    rw [List.getElem?_rotate positive, Nat.zero_add] at head
    rw [hand, head]

theorem dispatch_policy_started : ∃ memory system,
    Run OrderlyStep (powerUp lowHeap memory) (twoThreadEvents .realTime) system ∧
      ∃ queues, InPlace system.kernel queues := by
  have notIdle : SchedClass.realTime ≠ .idle := by decide
  rcases two_threads notIdle ⟨fun _ => 0, []⟩ with ⟨lists, model, run, _⟩
  have orderly := orderly_two_threads run
  rcases dispatch_policy orderly with ⟨queues, inPlace, _⟩
  exact ⟨_, _, orderly, queues, inPlace⟩

end Runs

/-- A real-time thread is ready, and the SysTick picks none: a sleep that ends past
the last tick made it panic. -/
theorem late_sleep_stops_dispatch : ∃ memory system ready,
    Run Step (powerUp lowHeap memory)
      (twoThreadEvents .realTime ++ slices lastSlices ++ [.sleep 2]) system ∧
      Enabled system (.systick systickRvr) ∧ Holds system.kernel .rtRq [ready] ∧
      ∀ after, (perform (.systick systickRvr)).run system ≠ .ok () after := by
  rcases late_sleep with ⟨memory, system, _, other, run, _, ready, enabled, final, panics⟩
  refine ⟨memory, system, other, run, enabled, ready, ?_⟩
  intro after returns
  cases panics.symm.trans returns

end Vanilla.Kernel
