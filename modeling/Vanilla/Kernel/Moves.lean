import Vanilla.Kernel.Placement

/-! # What the functions of the scheduler do to the places

Each is a move or two of `Placed`, and leaves the rest of the state alone.
-/

namespace Vanilla.Kernel

/-- Only the lists, the threads, the idle thread and `cpu_rq.tick_to_wake` may differ. -/
def SameOutside (before after : Model) : Prop :=
  after = { before with
    lists := after.lists
    thread := after.thread
    idle := after.idle
    rqTickToWake := after.rqTickToWake }

theorem SameOutside.refl (model : Model) : SameOutside model model := rfl

theorem SameOutside.trans {first second third : Model} (early : SameOutside first second)
    (late : SameOutside second third) : SameOutside first third := by
  unfold SameOutside at *
  rw [late, early]

theorem fits_enqueuedFields {fields : Thread} {queue : QueueId}
    (runs : KernelState.runQueue fields.schedClass = some queue) (awake : Awake fields) :
    Fits queue (KernelState.enqueuedFields fields) := by
  cases schedClass : fields.schedClass <;> rw [schedClass] at runs <;> cases runs <;>
    simp [Fits, KernelState.enqueuedFields, schedClass, awake.1, awake.2]

@[simp] theorem enqueuedFields_schedClass (fields : Thread) :
    (KernelState.enqueuedFields fields).schedClass = fields.schedClass := by
  cases schedClass : fields.schedClass <;> simp [KernelState.enqueuedFields, schedClass]

@[simp] theorem enqueuedFields_tickToWake (fields : Thread) :
    (KernelState.enqueuedFields fields).tickToWake = fields.tickToWake := by
  cases schedClass : fields.schedClass <;> simp [KernelState.enqueuedFields, schedClass]

namespace KernelState

variable (model : Model) (thread : ThreadPtr)

/-- The thread a SysTick wakes at the tick the kernel has. -/
def expired : Option ThreadPtr :=
  if model.rqTickToWake ≤ model.tick ∧ model.rqTickToWake ≠ 0 then
    (model.queue .sleepQ).head?.filter fun thread =>
      decide ((model.thread thread).tickToWake < model.tick)
  else none

theorem enqueue_outside : SameOutside model (model.enqueue thread) := by
  simp only [SameOutside, enqueue]
  split <;> rfl

theorem wake_outside : SameOutside model (model.wake thread) := by
  have removed : SameOutside model ((model.remove .sleepQ thread).setThread thread
      fun fields => { fields with rqList := none }) := rfl
  exact (removed.trans (enqueue_outside _ thread)).trans rfl

theorem tickToWakeUpdate_outside : SameOutside model model.tickToWakeUpdate := by
  cases split : model.queue .sleepQ <;>
    simp only [SameOutside, tickToWakeUpdate, split]

theorem processExpiredDelays_eq :
    model.processExpiredDelays = match model.expired with
      | some thread => (model.wake thread).tickToWakeUpdate
      | none =>
          if model.rqTickToWake ≤ model.tick ∧ model.rqTickToWake ≠ 0 then
            model.tickToWakeUpdate
          else model := by
  simp only [processExpiredDelays, expired, wakeFirst]
  split
  · cases model.queue .sleepQ with
    | nil => rfl
    | cons head rest =>
        by_cases due : (model.thread head).tickToWake < model.tick <;>
          simp [due, Option.filter]
  · rfl

theorem processExpiredDelays_outside : SameOutside model model.processExpiredDelays := by
  rw [processExpiredDelays_eq]
  split
  · exact (wake_outside model _).trans (tickToWakeUpdate_outside _)
  · split
    · exact tickToWakeUpdate_outside model
    · exact .refl model

/-- The tick of a thread may be cleared before it is enqueued. -/
theorem enqueue_clearTick :
    (model.enqueue thread).setThread thread (fun fields => { fields with tickToWake := 0 }) =
      (model.setThread thread fun fields => { fields with tickToWake := 0 }).enqueue thread := by
  simp only [enqueue, thread_setThread_self]
  cases schedClass : (model.thread thread).schedClass <;>
    simp [runQueue, enqueuedFields, schedClass, KernelState.setThread, append, setQueue,
      KernelState.queue]

/-- To wake a thread is to take it in hand and enqueue it. -/
theorem wake_eq : model.wake thread =
    ((model.remove .sleepQ thread).setThread thread fun fields =>
      { fields with rqList := none, tickToWake := 0 }).enqueue thread := by
  have fields : ((model.remove .sleepQ thread).setThread thread fun fields =>
        { fields with rqList := none }).setThread thread
        (fun fields => { fields with tickToWake := 0 }) =
      (model.remove .sleepQ thread).setThread thread fun fields =>
        { fields with rqList := none, tickToWake := 0 } := by
    simp [KernelState.setThread]
  rw [← fields, ← enqueue_clearTick]
  rfl

end KernelState

namespace Placed

variable {model : Model} {held : List ThreadPtr} {thread : ThreadPtr} {queue : QueueId}

theorem append (placed : Placed model (thread :: held)) (running : queue.Running)
    (fits : Fits queue (model.thread thread)) : Placed (model.append queue thread) held :=
  placed.put running fits (List.perm_append_singleton ..)

theorem enqueue (placed : Placed model (thread :: held)) (awake : Awake (model.thread thread)) :
    Placed (model.enqueue thread) held := by
  cases runs : KernelState.runQueue (model.thread thread).schedClass with
  | none =>
      have isIdle : (model.thread thread).schedClass = .idle := by
        cases schedClass : (model.thread thread).schedClass with
        | idle => rfl
        | _ =>
            rw [schedClass] at runs
            cases runs
      have known := placed.heldKnown thread List.mem_cons_self
      have same : model.enqueue thread = model := by
        simp only [KernelState.enqueue, runs]
        rw [← (placed.onlyIdle thread known isIdle).1]
      rw [same]
      exact placed.drop isIdle
  | some queue =>
      have running := runQueue_running runs
      have changed := placed.change List.mem_cons_self KernelState.enqueuedFields
        (enqueuedFields_schedClass _) fun isIdle => by
          rw [isIdle] at runs
          cases runs
      have fits : Fits queue ((model.setThread thread KernelState.enqueuedFields).thread
          thread) := by
        rw [KernelState.thread_setThread_self]
        exact fits_enqueuedFields runs awake
      simp only [KernelState.enqueue, runs]
      exact changed.append running fits

theorem wake (placed : Placed model held) (member : thread ∈ model.queue .sleepQ) :
    Placed (model.wake thread) held := by
  have running : QueueId.sleepQ.Running := by simp [QueueId.Running]
  have taken := (placed.take running member).change List.mem_cons_self
    (fun fields => { fields with rqList := none, tickToWake := 0 }) rfl fun _ => ⟨rfl, rfl⟩
  rw [KernelState.wake_eq]
  apply taken.enqueue
  rw [KernelState.thread_setThread_self]
  exact ⟨rfl, rfl⟩

theorem tickToWakeUpdate (placed : Placed model held) : Placed model.tickToWakeUpdate held := by
  have same : model.tickToWakeUpdate.lists = model.lists ∧
      model.tickToWakeUpdate.idle = model.idle ∧
      model.tickToWakeUpdate.thread = model.thread := by
    cases split : model.queue .sleepQ <;> simp [KernelState.tickToWakeUpdate, split]
  apply placed.congr (placed.ready.of_lists same.1)
  · funext queue
    simp only [KernelState.queue, same.1]
  · exact same.2.1
  · intro thread _
    rw [same.2.2]
    exact ⟨rfl, rfl, rfl⟩

theorem expired_member {found : ThreadPtr} (expired : model.expired = some found) :
    found ∈ model.queue .sleepQ ∧ (model.thread found).tickToWake < model.tick := by
  simp only [KernelState.expired] at expired
  split at expired
  · rcases Option.filter_eq_some_iff.mp expired with ⟨first, due⟩
    exact ⟨List.mem_of_head? first, of_decide_eq_true due⟩
  · cases expired

theorem processExpiredDelays (placed : Placed model held) :
    Placed model.processExpiredDelays held := by
  rw [KernelState.processExpiredDelays_eq]
  split
  · rename_i found expired
    exact (placed.wake (expired_member expired).1).tickToWakeUpdate
  · split
    · exact placed.tickToWakeUpdate
    · exact placed

/-! ## Sleeping -/

theorem delayed_perm (ticks : ThreadPtr → Nat) (thread : ThreadPtr)
    (sleepers : List ThreadPtr) :
    (KernelState.delayed ticks thread sleepers).Perm (thread :: sleepers) := by
  apply List.perm_middle.trans
  rw [List.takeWhile_append_dropWhile]

theorem threadSleep (placed : Placed model (thread :: held))
    (notIdle : (model.thread thread).schedClass ≠ .idle) {ms : Nat}
    (later : KernelState.wakeTick model.tick ms ≠ 0) :
    Placed (model.threadSleep thread ms) held := by
  have changed := placed.change List.mem_cons_self
    (fun fields => { fields with
      tickToWake := KernelState.wakeTick model.tick ms, rqList := some .sleepQ }) rfl
    fun isIdle => absurd isIdle notIdle
  have fits : Fits .sleepQ ((model.setThread thread fun fields => { fields with
      tickToWake := KernelState.wakeTick model.tick ms, rqList := some .sleepQ }).thread
      thread) := by
    rw [KernelState.thread_setThread_self]
    exact ⟨notIdle, later, rfl⟩
  have put := (changed.put (by simp [QueueId.Running]) fits
    (delayed_perm (fun other => ((model.setThread thread fun fields => { fields with
      tickToWake := KernelState.wakeTick model.tick ms }).thread other).tickToWake) thread
      _)).tickToWakeUpdate
  have same : (model.setThread thread fun fields => { fields with
        tickToWake := KernelState.wakeTick model.tick ms }).setThread thread
        (fun fields => { fields with rqList := some .sleepQ }) =
      model.setThread thread fun fields => { fields with
        tickToWake := KernelState.wakeTick model.tick ms, rqList := some .sleepQ } := by
    simp [KernelState.setThread]
  rw [← same] at put
  exact put.congr (put.ready.of_lists rfl) rfl rfl fun _ _ => ⟨rfl, rfl, rfl⟩

/-! ## Blocking -/

theorem block (placed : Placed model held) (running : queue.Running)
    (member : thread ∈ model.queue queue)
    (realTime : (model.thread thread).schedClass = .realTime) :
    Placed (model.block thread queue) held := by
  have changed := (placed.take running member).change List.mem_cons_self
    (fun fields => { fields with rqList := some .blockedQ }) rfl fun isIdle => by
      rw [KernelState.remove, KernelState.thread_setQueue, realTime] at isIdle
      cases isIdle
  apply changed.append (by simp [QueueId.Running])
  rw [KernelState.thread_setThread_self]
  exact ⟨realTime, rfl⟩

theorem unblock (placed : Placed model held) (member : thread ∈ model.queue .blockedQ) :
    Placed (model.unblock thread) held := by
  have running : QueueId.blockedQ.Running := by simp [QueueId.Running]
  have realTime := (placed.fits .blockedQ thread member).1
  have changed := (placed.take running member).change List.mem_cons_self
    (fun fields => { fields with tickToWake := 0, rqList := some .rtRq }) rfl fun isIdle => by
      rw [KernelState.remove, KernelState.thread_setQueue, realTime] at isIdle
      cases isIdle
  have fits : Fits .rtRq (((model.remove .blockedQ thread).setThread thread fun fields =>
      { fields with tickToWake := 0, rqList := some .rtRq }).thread thread) := by
    rw [KernelState.thread_setThread_self]
    exact ⟨realTime, rfl, rfl⟩
  have same : ((model.remove .blockedQ thread).setThread thread fun fields =>
        { fields with tickToWake := 0 }).setThread thread
        (fun fields => { fields with rqList := some .rtRq }) =
      (model.remove .blockedQ thread).setThread thread fun fields =>
        { fields with tickToWake := 0, rqList := some .rtRq } := by
    simp [KernelState.setThread]
  have appended := changed.append (by simp [QueueId.Running]) fits
  rw [← same] at appended
  exact appended

/-! ## Removal -/

/-- Remove a thread from the queue its `rq_list` names and from the system. -/
theorem removeThread (placed : Placed model held) (running : queue.Running)
    (member : thread ∈ model.queue queue)
    (rqList : (model.thread thread).rqList = some queue) (mm : Mm.MmState) :
    Placed (model.removeThread thread mm) held := by
  have notIdle := (placed.fits queue thread member).not_idle running
  have forgotten := (placed.take running member).forget notIdle
  have swapped : (model.remove queue thread).remove .threads thread =
      (model.remove .threads thread).remove queue thread := by
    simp only [KernelState.remove, KernelState.setQueue, KernelState.queue,
      Function.update_of_ne running, Function.update_of_ne (Ne.symm running)]
    rw [Function.update_comm running]
  rw [swapped] at forgotten
  have after : model.removeThread thread mm =
      { (model.remove .threads thread).remove queue thread with mm, currThread := none } := by
    simp only [KernelState.removeThread, KernelState.remove, KernelState.thread_setQueue, rqList]
  rw [after]
  exact forgotten.congr (forgotten.ready.of_lists rfl) rfl rfl fun _ _ => ⟨rfl, rfl, rfl⟩

/-! ## Picking -/

theorem pickFrom_cases {queues : List QueueId} {after : Model}
    (picked : KernelState.pickFrom queues model = some (thread, after)) :
    (∃ front queue back rest, queues = front ++ queue :: back ∧
      (∀ other ∈ front, model.queue other = []) ∧ model.queue queue = thread :: rest ∧
      after = (model.setQueue queue rest).setThread thread (KernelState.pickedFields queue)) ∨
    ((∀ other ∈ queues, model.queue other = []) ∧ model.idle = some thread ∧ after = model) := by
  induction queues with
  | nil =>
      cases idle : model.idle with
      | none => simp [KernelState.pickFrom, idle] at picked
      | some found =>
          simp only [KernelState.pickFrom, idle, Option.map_some, Option.some.injEq,
            Prod.mk.injEq] at picked
          rcases picked with ⟨rfl, rfl⟩
          exact .inr ⟨by simp, rfl, rfl⟩
  | cons queue queues induction =>
      cases split : model.queue queue with
      | nil =>
          simp only [KernelState.pickFrom, split] at picked
          rcases induction picked with ⟨front, found, back, rest, rfl, empty, first, same⟩ |
            ⟨empty, idle, same⟩
          · refine .inl ⟨queue :: front, found, back, rest, rfl, ?_, first, same⟩
            exact List.forall_mem_cons.mpr ⟨split, empty⟩
          · exact .inr ⟨List.forall_mem_cons.mpr ⟨split, empty⟩, idle, same⟩
      | cons head rest =>
          simp only [KernelState.pickFrom, split, Option.some.injEq, Prod.mk.injEq] at picked
          rcases picked with ⟨rfl, rfl⟩
          exact .inl ⟨[], queue, queues, rest, rfl, by simp, split, rfl⟩

/-- With an idle thread there is always one to pick. -/
theorem pickFrom_exists {idle : ThreadPtr} (present : model.idle = some idle)
    (queues : List QueueId) :
    ∃ thread after, KernelState.pickFrom queues model = some (thread, after) := by
  induction queues with
  | nil => exact ⟨idle, model, by simp [KernelState.pickFrom, present]⟩
  | cons queue queues induction =>
      cases split : model.queue queue with
      | nil =>
          simp only [KernelState.pickFrom, split]
          exact induction
      | cons head rest =>
          simp only [KernelState.pickFrom, split]
          exact ⟨head, _, rfl⟩

theorem pick (placed : Placed model []) {after : Model}
    (picked : model.pick = some (thread, after)) :
    Placed after [thread] ∧ Awake (after.thread thread) := by
  rcases pickFrom_cases picked with ⟨front, queue, back, rest, order, _, first, rfl⟩ |
    ⟨_, idle, rfl⟩
  · have member : thread ∈ model.queue queue := first ▸ List.mem_cons_self
    have inOrder : queue ∈ KernelState.pickOrder := by simp [order]
    have running : queue.Running := by
      intro isThreads
      subst isThreads
      simp [KernelState.pickOrder] at inOrder
    have fits := placed.fits queue thread member
    have erased : model.remove queue thread = model.setQueue queue rest := by
      simp only [KernelState.remove, first, List.erase_cons_head]
    have taken := placed.take running member
    rw [erased] at taken
    have awake : Awake (KernelState.pickedFields queue (model.thread thread)) := by
      cases queue with
      | rtRq => exact ⟨fits.2.1, rfl⟩
      | appRq => exact fits.2
      | backgroundRq => exact fits.2
      | _ => simp [KernelState.pickOrder] at inOrder
    have sameClass : (KernelState.pickedFields queue (model.thread thread)).schedClass =
        (model.thread thread).schedClass := by
      cases queue <;> rfl
    refine ⟨taken.change List.mem_cons_self _ sameClass fun _ => awake, ?_⟩
    rw [KernelState.thread_setThread_self]
    exact awake
  · exact ⟨placed.hold idle (by simp),
      (placed.onlyIdle thread (placed.idleKnown thread idle).1
        (placed.idleKnown thread idle).2).2⟩

/-! ## Creation -/

theorem createThread_obj (model : Model) (info : ThreadInfo) (thread : ThreadPtr)
    (mm : Mm.MmState) (node : NodePtr) :
    (model.createThread info thread mm).lists.obj node =
      if node.thread = thread then some thread else model.lists.obj node := by
  rcases node with ⟨owner, field⟩
  simp only [KernelState.createThread, KernelState.initNode, KernelState.setThread,
    Function.update_apply, threadNode, rqNode, NodePtr.mk.injEq]
  cases field <;> simp

/-- The control block of a new thread is no part of the system yet. -/
theorem createThread (placed : Placed model held) (fresh : thread ∉ model.queue .threads)
    (info : ThreadInfo) (mm : Mm.MmState) :
    Placed (model.createThread info thread mm) held := by
  have others : ∀ found ∈ model.queue .threads,
      (model.createThread info thread mm).thread found = model.thread found := by
    intro found known
    have different : found ≠ thread := fun equal => fresh (equal ▸ known)
    simp [KernelState.createThread, KernelState.setThread, KernelState.initNode, different]
  have ready : Ready (model.createThread info thread mm) := by
    refine ⟨placed.ready.known, ?_, placed.ready.addresses⟩
    intro found known field
    have different : found ≠ thread := fun equal => fresh (equal ▸ known)
    rw [createThread_obj, if_neg different]
    exact placed.ready.objects found known field
  apply placed.congr ready rfl rfl
  intro found known
  rw [others found known]
  exact ⟨rfl, rfl, rfl⟩

theorem createThread_fields (model : Model) (info : ThreadInfo) (thread : ThreadPtr)
    (mm : Mm.MmState) : (model.createThread info thread mm).thread thread =
      KernelState.newFields info model.nextTid := by
  simp only [KernelState.createThread, KernelState.thread_setThread_self]

theorem newThread (placed : Placed model held) (fresh : thread ∉ model.queue .threads)
    (below : thread < 2 ^ 31) {info : ThreadInfo} (notIdle : info.schedClass ≠ .idle)
    (mm : Mm.MmState) : Placed (model.newThread info thread mm) held := by
  have fields := createThread_fields model info thread mm
  have adopted := (placed.createThread fresh info mm).adopt fresh
    (fun field => by rw [createThread_obj, if_pos rfl]) below
    (.inl ⟨by rw [fields]; exact notIdle, rfl⟩)
  cases runs : KernelState.runQueue info.schedClass with
  | none => cases schedClass : info.schedClass <;> simp_all [KernelState.runQueue]
  | some queue =>
      have running := runQueue_running runs
      have fits : Fits queue (KernelState.newFields info model.nextTid) := by
        cases schedClass : info.schedClass <;> rw [schedClass] at runs <;> cases runs <;>
          simp [Fits, KernelState.newFields, schedClass]
      rw [← fields] at fits
      have appended := adopted.append running fits
      have after : model.newThread info thread mm =
          ({ model.createThread info thread mm with
            idle := (model.createThread info thread mm).idle }.setQueue .threads
              (thread :: (model.createThread info thread mm).queue .threads)).append queue
              thread := by
        simp only [KernelState.newThread, runs, KernelState.append, KernelState.setQueue,
          KernelState.queue, Function.update_of_ne running,
          Function.update_of_ne (Ne.symm running)]
        rw [Function.update_comm running]
      rw [after]
      exact appended

theorem newIdle (placed : Placed model held) (fresh : thread ∉ model.queue .threads)
    (below : thread < 2 ^ 31) {info : ThreadInfo} (isIdle : info.schedClass = .idle)
    (first : model.idle = none) (mm : Mm.MmState) :
    Placed (model.newThread info thread mm) held ∧
      (model.newThread info thread mm).idle = some thread := by
  have fields := createThread_fields model info thread mm
  have runs : KernelState.runQueue info.schedClass = none := by rw [isIdle]; rfl
  have awake : Awake (KernelState.newFields info model.nextTid) := by
    simp [Awake, KernelState.newFields, isIdle]
  have after : model.newThread info thread mm = { model.createThread info thread mm with
      idle := some thread }.setQueue .threads
        (thread :: (model.createThread info thread mm).queue .threads) := by
    simp only [KernelState.newThread, runs]
    rfl
  have adopted := (placed.createThread fresh info mm).adopt fresh
    (fun field => by rw [createThread_obj, if_pos rfl]) below
    (.inr ⟨by rw [fields]; exact isIdle, by rw [fields]; exact awake, first, rfl⟩)
  rw [after]
  refine ⟨adopted.drop ?_, rfl⟩
  rw [KernelState.thread_setQueue]
  exact (congrArg Thread.schedClass fields).trans isIdle

end Placed

end Vanilla.Kernel
