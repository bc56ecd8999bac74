import Vanilla.Kernel.CallRefinement

/-! # Thread creation follows its model -/

namespace Vanilla.Kernel

open Mm DlistStore

variable {lists : KernelLists} {model : Model} {thread : ThreadPtr}

/-- Write the `obj` field of a node. -/
theorem takes_setObj (rep : ListsRep lists model.lists) (node : NodePtr) :
    Takes lists model (onLists (modify (setObj node (some node.thread)))) ()
      (KernelState.initNode model node) := by
  have returns : (modify (setObj node (some node.thread)) : Exec KernelLists Unit).run lists =
      .ok () (setObj node (some node.thread) lists) := rfl
  apply Takes.onLists returns
  constructor
  · apply Refines.congr rep.refines
    · rfl
    · simp
  · intro other
    rw [node_setObj_obj, rep.obj]
    by_cases equal : other = node <;> simp [equal]

/-- Clear the links of a node that has none. -/
theorem takes_dlistUnlink (rep : ListsRep lists model.lists) {node : NodePtr}
    (fresh : ∀ queue, node ∉ (model.lists.queue queue).map (nodeIn queue)) :
    Takes lists model (onLists (dlistUnlink node)) () model := by
  have links := rep.refines.unlinked node fresh
  have returns : (dlistUnlink node : Exec KernelLists Unit).run lists =
      .ok () (setPrev node none (setNext node none lists)) := rfl
  have unlinked : ListsRep (setPrev node none (setNext node none lists)) model.lists := by
    constructor
    · apply Refines.congr rep.refines
      · rfl
      · intro other
        by_cases equal : other = node <;> simp [equal, links]
    · intro other
      simp [rep.obj]
  exact Takes.onLists returns unlinked

namespace KernelState

variable (model : Model) (info : ThreadInfo) (thread : ThreadPtr)

/-- The kernel just before a new thread is enqueued. -/
def preparedThread (mm : MmState) : Model :=
  let model := { model with mm, schedulerStatus := false }
  let model := initNode (initNode model (rqNode thread)) (threadNode thread)
  let model := model.setThread thread fun fields => { fields with schedClass := info.schedClass }
  model.setThread thread fun fields => { fields with rqList := none }

/-- The last writes to a new control block. -/
def finishedThread : Model :=
  let tid := model.nextTid
  let model := { model with nextTid := u32 (tid + 1) }
  let model := model.setThread thread fun fields => { fields with
    tickToWake := 0, runtimeCurr := 0, runtimeNew := 0, tid, exitPending := false,
    codeAddr := info.codeAddr }
  { model with schedulerStatus := true }

theorem newThread_eq (mm : MmState) : model.newThread info thread mm =
    (((model.preparedThread info thread mm).enqueue thread).setQueue .threads
      (thread :: model.queue .threads)).finishedThread info thread := by
  have schedClass : ((model.preparedThread info thread mm).thread thread).schedClass =
      info.schedClass := by
    simp [preparedThread]
  rw [newThread, enqueue, schedClass]
  cases runs : info.schedClass <;>
    simp [runQueue, finishedThread, preparedThread, createThread, initNode, enqueuedFields,
      newFields, append, setQueue, KernelState.setThread, KernelState.queue, runs,
      Function.update_of_ne]

end KernelState

theorem takes_newThread (rep : ListsRep lists model.lists) (ready : Ready model)
    (fresh : thread ∉ model.queue .threads) {info : ThreadInfo} {mm : MmState}
    (allocated : (pmalloc (threadPages info.stackSize) .dramBank3).run model.mm =
      .ok thread mm) :
    Takes lists model (newThread info) model.nextTid (model.newThread info thread mm) := by
  have unqueued : model.Unqueued thread := fun queue _ member =>
    fresh (ready.known queue thread member)
  have room := ready.room rep .threads
  have suspended : Takes lists model suspendScheduler ()
      { model with schedulerStatus := false } := Takes.modify rep rfl rfl
  rw [KernelState.newThread_eq]
  apply suspended.bind
  intro lists rep
  apply Takes.bind (Takes.onMm rep allocated)
  intro lists rep
  apply Takes.bind (takes_setObj rep (rqNode thread))
  intro lists rep
  apply Takes.bind (takes_setObj rep (threadNode thread))
  intro lists rep
  apply Takes.bind (Takes.setThread thread _ rep)
  intro lists rep
  apply Takes.bind (takes_dlistUnlink rep (rqNode_fresh unqueued))
  intro lists rep
  apply Takes.bind (takes_dlistUnlink rep (threadNode_fresh fresh))
  intro lists rep
  apply Takes.bind (Takes.setThread thread _ rep)
  intro lists rep
  have prepared : Ready (model.preparedThread info thread mm) := by
    refine ⟨ready.known, ?_, ready.addresses⟩
    intro found known field
    have different : found ≠ thread := fun equal => fresh (equal ▸ known)
    have old : (model.preparedThread info thread mm).lists.obj ⟨found, field⟩ =
        model.lists.obj ⟨found, field⟩ := by
      simp [KernelState.preparedThread, KernelState.initNode, KernelState.setThread, rqNode,
        threadNode, different]
    rw [old]
    exact ready.objects found known field
  have stays : ((model.preparedThread info thread mm).enqueue thread).queue .threads =
      model.queue .threads := by
    rw [KernelState.enqueue_queue, if_neg (KernelState.runQueue_ne_threads _)]
    rfl
  have tid : ((model.preparedThread info thread mm).enqueue thread).nextTid = model.nextTid := by
    rw [(KernelState.enqueue_outside _ _ :)]
    rfl
  have same : (model.preparedThread info thread mm).Unqueued thread := unqueued
  apply Takes.bind (takes_enqueue rep prepared same)
  intro lists rep
  change ListsRep lists ((model.preparedThread info thread mm).enqueue thread).lists at rep
  change Takes lists ((model.preparedThread info thread mm).enqueue thread) _ _ _
  generalize (model.preparedThread info thread mm).enqueue thread = enqueued at *
  change ((enqueued.setQueue .threads (thread :: model.queue .threads)).nextTid = _) at tid
  have inserted := takes_insertThread rep (stays.symm ▸ fresh) (stays.symm ▸ room)
  rw [stays] at inserted
  apply Takes.bind inserted
  intro lists rep
  apply Takes.get
  generalize enqueued.setQueue .threads (thread :: model.queue .threads) = listed at *
  have counted : Takes lists listed (set { listed.withLists lists with
      nextTid := u32 (listed.nextTid + 1) }) ()
      { listed with nextTid := u32 (listed.nextTid + 1) } := Takes.set rep rfl rfl
  apply counted.bind
  intro lists rep
  apply Takes.bind (Takes.setThread thread _ rep)
  intro lists rep
  have resumed : Takes lists _ resumeScheduler () (listed.finishedThread info thread) :=
    Takes.modify rep rfl rfl
  apply resumed.bind
  intro lists rep
  rw [← tid]
  exact Takes.pure rep

/-! ## The start of the scheduler -/

namespace KernelState

/-- The kernel with its idle thread, before the first pick. -/
def withIdle (model : Model) (thread : ThreadPtr) (mm : MmState) : Model :=
  newThread { model with schedulerStatus := true, rqTickToWake := 0 } idleInfo thread mm

theorem withIdle_queue (model : Model) (thread : ThreadPtr) (mm : MmState) (queue : QueueId) :
    (model.withIdle thread mm).queue queue =
      if queue = .threads then thread :: model.queue .threads else model.queue queue := by
  by_cases equal : queue = .threads
  · subst equal
    rw [if_pos rfl]
    exact queue_setQueue_self ..
  · rw [if_neg equal]
    exact queue_setQueue_of_ne _ _ _ _ equal

theorem withIdle_thread (model : Model) (thread : ThreadPtr) (mm : MmState) :
    (model.withIdle thread mm).thread thread = newFields idleInfo model.nextTid := by
  simp [withIdle, newThread, createThread, idleInfo, runQueue]

/-- `get_thread` finds the idle thread: it is the newest. -/
theorem withIdle_found (model : Model) (thread : ThreadPtr) (mm : MmState) :
    (model.withIdle thread mm).findThread model.nextTid = some thread := by
  rw [findThread, withIdle_queue, if_pos rfl]
  apply List.find?_cons_of_pos
  rw [withIdle_thread]
  simp [newFields]

theorem pick_idle {model after : Model} {thread : ThreadPtr}
    (picked : model.pick = some (thread, after)) : after.idle = model.idle := by
  rcases Placed.pickFrom_cases picked with ⟨_, _, _, _, _, _, _, rfl⟩ | ⟨_, _, rfl⟩ <;> rfl

end KernelState

theorem takes_schedulerStart (rep : ListsRep lists model.lists) (ready : Ready model)
    (fresh : thread ∉ model.queue .threads) {mm : MmState}
    (allocated : (pmalloc (threadPages idleInfo.stackSize) .dramBank3).run model.mm =
      .ok thread mm) (created : Ready (model.withIdle thread mm)) {next : ThreadPtr}
    {after : Model} (picked : (model.withIdle thread mm).pick = some (next, after)) :
    Takes lists model schedulerStart ()
      { after with nextThread := some next, currThread := some next, systickEnabled := true } := by
  have started : Takes lists model (modify fun kernel : Machine =>
      { kernel with schedulerStatus := true, rqTickToWake := 0 }) ()
      { model with schedulerStatus := true, rqTickToWake := 0 } := Takes.modify rep rfl rfl
  apply started.bind
  intro lists rep
  apply Takes.bind (takes_newThread rep (ready.of_lists rfl) fresh allocated)
  intro lists rep
  change ListsRep lists (model.withIdle thread mm).lists at rep
  have found := takes_getThread rep created model.nextTid
  rw [KernelState.withIdle_found] at found
  apply found.bind
  intro lists rep
  have noted : Takes lists (model.withIdle thread mm) (modify fun kernel : Machine =>
      { kernel with idle := some thread }) () (model.withIdle thread mm) :=
    Takes.modify rep rfl rfl
  apply noted.bind
  intro lists rep
  apply Takes.bind (takes_coreScheduler rep created picked)
  intro lists rep
  have chosen : Takes lists after (modify fun kernel : Machine =>
      { kernel with nextThread := some next, currThread := some next }) ()
      { after with nextThread := some next, currThread := some next } :=
    Takes.modify rep rfl rfl
  apply chosen.bind
  intro lists rep
  apply Takes.get
  have idle : after.idle = some thread := KernelState.pick_idle picked
  have condition : ¬ (KernelState.withLists
      { after with nextThread := some next, currThread := some next } lists).idle = none := by
    rw [show (KernelState.withLists
      { after with nextThread := some next, currThread := some next } lists).idle =
        some thread from idle]
    exact Option.some_ne_none thread
  rw [if_neg condition]
  exact Takes.set rep rfl rfl

end Vanilla.Kernel
