import Vanilla.Kernel.Moves

/-! # What the functions of the scheduler leave alone

Which fields of which threads, and which queues, each function changes.
-/

namespace Vanilla.Kernel

open Mm

/-- The fields that stay with a thread from its creation to its exit. -/
structure SameIdentity (before after : Thread) : Prop where
  schedClass : after.schedClass = before.schedClass
  tid : after.tid = before.tid
  exitPending : after.exitPending = before.exitPending
  codeAddr : after.codeAddr = before.codeAddr

theorem SameIdentity.refl (fields : Thread) : SameIdentity fields fields :=
  ⟨rfl, rfl, rfl, rfl⟩

theorem SameIdentity.trans {first second third : Thread} (early : SameIdentity first second)
    (late : SameIdentity second third) : SameIdentity first third :=
  ⟨late.schedClass.trans early.schedClass, late.tid.trans early.tid,
    late.exitPending.trans early.exitPending, late.codeAddr.trans early.codeAddr⟩

/-- No field but the run times differs. -/
def SameButRuntime (before after : Thread) : Prop :=
  after = { before with runtimeCurr := after.runtimeCurr, runtimeNew := after.runtimeNew }

theorem SameButRuntime.trans {first second third : Thread}
    (early : SameButRuntime first second) (late : SameButRuntime second third) :
    SameButRuntime first third := by
  unfold SameButRuntime at *
  rw [late, early]

theorem SameButRuntime.runtimeNew (fields : Thread) (runtimeNew : Nat) :
    SameButRuntime fields { fields with runtimeNew } := rfl

theorem SameButRuntime.place {before after : Thread} (same : SameButRuntime before after) :
    SamePlace before after := by
  unfold SameButRuntime at same
  constructor <;> rw [same]

theorem SameButRuntime.identity {before after : Thread} (same : SameButRuntime before after) :
    SameIdentity before after := by
  unfold SameButRuntime at same
  constructor <;> rw [same]

namespace KernelState

variable (model : Model) (thread other : ThreadPtr)

theorem setThread_relation {Relation : Thread → Thread → Prop}
    (reflexive : ∀ fields, Relation fields fields) (change : Thread → Thread)
    (changes : Relation (model.thread thread) (change (model.thread thread))) :
    Relation (model.thread other) ((model.setThread thread change).thread other) := by
  by_cases equal : other = thread
  · subst equal
    rw [thread_setThread_self]
    exact changes
  · rw [thread_setThread_of_ne _ _ equal]
    exact reflexive _

/-! ## Enqueuing -/

theorem enqueue_identity :
    SameIdentity (model.thread other) ((model.enqueue thread).thread other) := by
  simp only [enqueue]
  split
  · apply setThread_relation _ _ _ SameIdentity.refl
    cases schedClass : (model.thread thread).schedClass <;>
      simp only [enqueuedFields, schedClass] <;>
      exact ⟨schedClass.symm ▸ rfl, rfl, rfl, rfl⟩
  · exact .refl _

theorem enqueue_thread_of_ne {thread other : ThreadPtr} (different : other ≠ thread) :
    (model.enqueue thread).thread other = model.thread other := by
  simp only [enqueue]
  split
  · exact thread_setThread_of_ne _ _ different
  · rfl

theorem enqueue_queue (queue : QueueId) : (model.enqueue thread).queue queue =
    if runQueue (model.thread thread).schedClass = some queue then model.queue queue ++ [thread]
    else model.queue queue := by
  cases runs : runQueue (model.thread thread).schedClass with
  | none =>
      simp only [enqueue, runs]
      rfl
  | some found =>
      simp only [enqueue, runs, queue_setThread, append, Option.some.injEq]
      by_cases equal : found = queue
      · subst equal
        rw [queue_setQueue_self, if_pos rfl]
      · rw [queue_setQueue_of_ne _ _ _ _ (Ne.symm equal), if_neg equal]

theorem runQueue_ne_sleepQ (schedClass : SchedClass) : runQueue schedClass ≠ some .sleepQ := by
  cases schedClass <;> simp [runQueue]

theorem runQueue_ne_threads (schedClass : SchedClass) :
    runQueue schedClass ≠ some .threads := by
  cases schedClass <;> simp [runQueue]

/-! ## Accounting -/

/-- Only the run times, the ticks and the mark of `reschedule` differ. -/
structure Accounted (before after : Model) (runtime : Nat) : Prop where
  outside : after = { before with
    thread := after.thread
    statsTick := after.statsTick
    reschedulePending := false
    tick := u64 (before.tick + runtime) }
  threads : ∀ other, SameButRuntime (before.thread other) (after.thread other)

namespace Accounted

variable {before after : Model} {runtime : Nat}

theorem setThread (accounted : Accounted before after runtime) (thread : ThreadPtr)
    (change : Thread → Thread) (same : ∀ fields, SameButRuntime fields (change fields)) :
    Accounted before (after.setThread thread change) runtime where
  outside := by
    rw [KernelState.setThread, accounted.outside]
  threads := by
    intro other
    have reflexive : ∀ fields, SameButRuntime fields fields := fun _ => rfl
    exact (accounted.threads other).trans
      (setThread_relation after thread other reflexive change (same _))

theorem statsTick (accounted : Accounted before after runtime) (statsTick : Nat) :
    Accounted before { after with statsTick } runtime where
  outside := by
    rw [accounted.outside]
  threads := accounted.threads

theorem closeWindows (accounted : Accounted before after runtime) (threads : List ThreadPtr) :
    Accounted before (threads.foldl (fun model thread => model.setThread thread closeWindow)
      after) runtime := by
  induction threads generalizing after with
  | nil => exact accounted
  | cons thread rest induction => exact induction (accounted.setThread thread _ fun _ => rfl)

end Accounted

theorem accountRuntime_frame (curr : ThreadPtr) (cvr : Nat) :
    Accounted model (model.accountRuntime curr cvr) (model.slice cvr) := by
  have advanced : Accounted model { model with
      reschedulePending := false
      tick := u64 (model.tick + model.slice cvr)
      statsTick := u64 (model.statsTick + model.slice cvr) } (model.slice cvr) :=
    ⟨rfl, fun _ => rfl⟩
  have charged := advanced.setThread curr
    (fun fields => { fields with runtimeNew := u64 (fields.runtimeNew + model.slice cvr) })
    fun fields => .runtimeNew fields _
  unfold accountRuntime
  dsimp only
  split
  · exact (charged.statsTick 0).closeWindows _
  · exact charged

/-! ## Waking -/

theorem wake_thread_of_ne {thread other : ThreadPtr} (different : other ≠ thread) :
    (model.wake thread).thread other = model.thread other := by
  rw [wake_eq, enqueue_thread_of_ne _ different, thread_setThread_of_ne _ _ different]
  rfl

theorem wake_identity :
    SameIdentity (model.thread other) ((model.wake thread).thread other) := by
  rw [wake_eq]
  apply SameIdentity.trans _ (enqueue_identity _ thread other)
  exact setThread_relation (model.remove .sleepQ thread) thread other .refl _ ⟨rfl, rfl, rfl, rfl⟩

theorem wake_tick : ((model.wake thread).thread thread).tickToWake = 0 := by
  simp only [wake, thread_setThread_self]

theorem remove_queue_of_ne {queue found : QueueId} (different : found ≠ queue) :
    (model.remove queue thread).queue found = model.queue found :=
  queue_setQueue_of_ne _ _ _ _ different

theorem remove_queue_self (queue : QueueId) :
    (model.remove queue thread).queue queue = (model.queue queue).erase thread :=
  queue_setQueue_self ..

@[simp] theorem remove_thread (queue : QueueId) :
    (model.remove queue thread).thread = model.thread := rfl

theorem wake_queue (queue : QueueId) : (model.wake thread).queue queue =
    if runQueue (model.thread thread).schedClass = some queue then
      model.queue queue ++ [thread]
    else if queue = .sleepQ then (model.queue .sleepQ).erase thread
    else model.queue queue := by
  rw [wake_eq, enqueue_queue, thread_setThread_self, queue_setThread, remove_thread]
  by_cases sleeps : queue = .sleepQ
  · subst sleeps
    rw [if_neg (runQueue_ne_sleepQ _), if_neg (runQueue_ne_sleepQ _), if_pos rfl,
      remove_queue_self]
  · rw [remove_queue_of_ne _ _ sleeps, if_neg sleeps]

theorem tickToWakeUpdate_lists : model.tickToWakeUpdate.lists = model.lists := by
  cases split : model.queue .sleepQ <;> simp [tickToWakeUpdate, split]

@[simp] theorem tickToWakeUpdate_queue (queue : QueueId) :
    model.tickToWakeUpdate.queue queue = model.queue queue := by
  simp only [KernelState.queue, tickToWakeUpdate_lists]

@[simp] theorem tickToWakeUpdate_thread : model.tickToWakeUpdate.thread = model.thread := by
  cases split : model.queue .sleepQ <;> simp [tickToWakeUpdate, split]

@[simp] theorem wake_idle (notIdle : (model.thread thread).schedClass ≠ .idle) :
    (model.wake thread).idle = model.idle := by
  rw [wake_eq, enqueue, thread_setThread_self]
  cases schedClass : (model.thread thread).schedClass with
  | idle => exact absurd schedClass notIdle
  | _ => simp [runQueue, schedClass, KernelState.setThread, append, setQueue, remove]

theorem processExpiredDelays_none (asleep : model.expired = none) :
    model.processExpiredDelays.lists = model.lists ∧
      model.processExpiredDelays.thread = model.thread := by
  rw [processExpiredDelays_eq, asleep]
  simp only
  split
  · exact ⟨model.tickToWakeUpdate_lists, model.tickToWakeUpdate_thread⟩
  · exact ⟨rfl, rfl⟩

theorem processExpiredDelays_some {model : Model} {found : ThreadPtr}
    (expired : model.expired = some found) :
    model.processExpiredDelays.lists = (model.wake found).lists ∧
      model.processExpiredDelays.thread = (model.wake found).thread := by
  rw [processExpiredDelays_eq, expired]
  exact ⟨tickToWakeUpdate_lists _, tickToWakeUpdate_thread _⟩

theorem processExpiredDelays_thread {model : Model} {other : ThreadPtr}
    (asleep : model.expired ≠ some other) :
    model.processExpiredDelays.thread other = model.thread other := by
  cases expired : model.expired with
  | none => rw [(model.processExpiredDelays_none expired).2]
  | some found =>
      have different : other ≠ found := fun equal => asleep (equal ▸ expired)
      rw [(processExpiredDelays_some expired).2, wake_thread_of_ne _ different]

theorem processExpiredDelays_identity :
    SameIdentity (model.thread other) (model.processExpiredDelays.thread other) := by
  cases expired : model.expired with
  | none =>
      rw [(model.processExpiredDelays_none expired).2]
      exact .refl _
  | some found =>
      rw [(processExpiredDelays_some expired).2]
      exact wake_identity model found other

theorem processExpiredDelays_queue (queue : QueueId) :
    model.processExpiredDelays.queue queue = match model.expired with
      | some found => (model.wake found).queue queue
      | none => model.queue queue := by
  cases expired : model.expired with
  | none => simp only [KernelState.queue, (model.processExpiredDelays_none expired).1]
  | some found => simp only [KernelState.queue, (processExpiredDelays_some expired).1]

/-- Neither the global list nor the blocked threads are touched. -/
theorem processExpiredDelays_queue_of_ne {queue : QueueId} (notSleep : queue ≠ .sleepQ)
    (notRun : ∀ schedClass, runQueue schedClass ≠ some queue) :
    model.processExpiredDelays.queue queue = model.queue queue := by
  rw [processExpiredDelays_queue]
  split
  · rw [wake_queue, if_neg (notRun _), if_neg notSleep]
  · rfl

/-- A sleeper that is not woken sleeps on. -/
theorem processExpiredDelays_sleeper {model : Model} {other : ThreadPtr}
    (member : other ∈ model.queue .sleepQ) (asleep : model.expired ≠ some other) :
    other ∈ model.processExpiredDelays.queue .sleepQ := by
  rw [processExpiredDelays_queue]
  split
  · rename_i found expired
    have different : other ≠ found := fun equal => asleep (equal ▸ expired)
    rw [wake_queue, if_neg (runQueue_ne_sleepQ _), if_pos rfl]
    exact (List.mem_erase_of_ne different).mpr member
  · exact member

end KernelState

end Vanilla.Kernel
