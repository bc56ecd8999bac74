import Vanilla.Kernel.SchedulerRefinement

/-! # The two exceptions follow their model

What a SysTick does up to its pick, the removal of an exited thread, and the
switch to the picked thread.
-/

namespace Vanilla.Kernel

open Mm DlistStore

variable {lists : KernelLists} {model : Model} {curr : ThreadPtr}

theorem takes_threadSleep (rep : ListsRep lists model.lists) (ready : Ready model)
    (running : model.currThread = some curr) (unqueued : model.Unqueued curr)
    (known : curr ∈ model.queue .threads) (ms : Nat) :
    Takes lists model (threadSleep ms) () (model.threadSleep curr ms) := by
  apply Takes.get
  apply Takes.bind (Takes.deref rep running)
  intro lists rep
  apply Takes.bind (Takes.setThread curr _ rep)
  intro lists rep
  apply Takes.bind (takes_schedulerEnqueueDelay rep (ready.setThread _) unqueued known)
  exact fun next nextRep => Takes.modify nextRep rfl rfl

/-! ## Accounting -/

theorem takes_getCurrThreadRuntime (rep : ListsRep lists model.lists) (cvr : Nat) :
    Takes lists model (getCurrThreadRuntime cvr) (model.slice cvr)
      { model with reschedulePending := false } := by
  apply Takes.get
  cases pending : model.reschedulePending with
  | true =>
      have condition : (model.withLists lists).reschedulePending = true := pending
      rw [if_pos condition]
      have slice : model.slice cvr = u32Sub systickRvr cvr := by
        simp [KernelState.slice, pending]
      have cleared : Takes lists model
          (set { model.withLists lists with reschedulePending := false }) ()
          { model with reschedulePending := false } := Takes.set rep rfl rfl
      rw [slice]
      exact cleared.bind fun next nextRep => Takes.pure nextRep
  | false =>
      have condition : ¬ (model.withLists lists).reschedulePending = true := by
        simp [KernelState.withLists, pending]
      rw [if_neg condition]
      have slice : model.slice cvr = systickRvr := by simp [KernelState.slice, pending]
      have same : { model with reschedulePending := false } = model := by rw [← pending]
      rw [slice, same]
      exact Takes.pure rep

theorem takes_closeWindows (rep : ListsRep lists model.lists) (ready : Ready model)
    {front rest : List ThreadPtr} {rounds : Nat}
    (split : model.queue .threads = front ++ rest) (enough : rest.length ≤ rounds) :
    Takes lists model (closeWindows rounds (rest.head?.map (nodeIn .threads))) ()
      (rest.foldl (fun model thread => model.setThread thread KernelState.closeWindow)
        model) := by
  induction rest generalizing lists model front rounds with
  | nil => cases rounds <;> exact Takes.pure rep
  | cons thread rest induction =>
      cases rounds with
      | zero => cases enough
      | succ rounds =>
          have member : thread ∈ model.queue .threads := by simp [split]
          simp only [List.head?_cons, Option.map_some, closeWindows]
          apply Takes.bind (takes_nodeThread rep (ready.object member))
          intro lists rep
          apply Takes.bind (Takes.setThread thread _ rep)
          intro lists rep
          apply Takes.get
          have passed : (model.setThread thread KernelState.closeWindow).queue .threads =
              (front ++ [thread]) ++ rest := by
            rw [KernelState.queue_setThread, split, List.append_assoc]
            rfl
          have next := rep.next split
          change Takes lists _
            (closeWindows rounds (lists.node (nodeIn .threads thread)).next) () _
          rw [next]
          exact induction rep (ready.setThread _) passed (Nat.le_of_succ_le_succ enough)

theorem takes_calculateRuntime (rep : ListsRep lists model.lists) (ready : Ready model) :
    Takes lists model calculateRuntime () model.calculateRuntime := by
  have enough := rep.length_le_loopRounds .threads
  apply Takes.get
  change Takes lists model (closeWindows loopRounds (lists.list .threads).first) () _
  rw [rep.first]
  have whole : model.queue .threads = [] ++ model.queue .threads := rfl
  exact takes_closeWindows rep ready whole enough

theorem takes_advanceTicks (rep : ListsRep lists model.lists) (runtime : Nat) :
    Takes lists model (modify fun kernel => { kernel with
        tick := u64 (kernel.tick + runtime)
        statsTick := u64 (kernel.statsTick + runtime) }) ()
      { model with
        tick := u64 (model.tick + runtime)
        statsTick := u64 (model.statsTick + runtime) } :=
  Takes.modify rep rfl rfl

theorem takes_clearStatsTick (rep : ListsRep lists model.lists) :
    Takes lists model (modify fun kernel => { kernel with statsTick := 0 }) ()
      { model with statsTick := 0 } :=
  Takes.modify rep rfl rfl

theorem takes_accountRuntime (rep : ListsRep lists model.lists) (ready : Ready model)
    (running : model.currThread = some curr) (cvr : Nat) :
    Takes lists model (accountRuntime cvr) () (model.accountRuntime curr cvr) := by
  apply Takes.bind (takes_getCurrThreadRuntime rep cvr)
  intro lists rep
  apply Takes.bind (takes_advanceTicks rep _)
  intro lists rep
  apply Takes.get
  apply Takes.bind (Takes.deref rep running)
  intro lists rep
  apply Takes.bind (Takes.setThread curr _ rep)
  intro lists rep
  change Takes lists _
    (if systickRvr * 1000 ≤ u64 (model.statsTick + model.slice cvr) then _ else _) ()
    (if systickRvr * 1000 ≤ u64 (model.statsTick + model.slice cvr) then _ else _)
  split
  · apply Takes.bind (takes_clearStatsTick rep)
    intro lists rep
    exact takes_calculateRuntime rep (ready.of_lists rfl)
  · exact Takes.pure rep

/-- The preempted thread is in no queue, unless it sleeps. -/
theorem takes_requeueCurrThread (rep : ListsRep lists model.lists) (ready : Ready model)
    (running : model.currThread = some curr)
    (unqueued : (model.thread curr).tickToWake = 0 → model.Unqueued curr) :
    Takes lists model requeueCurrThread () (model.requeueCurrThread curr) := by
  apply Takes.get
  apply Takes.bind (Takes.deref rep running)
  intro lists rep
  change Takes lists model (if (model.thread curr).tickToWake = 0 then _ else _) ()
    (if (model.thread curr).tickToWake = 0 then _ else _)
  split
  · rename_i awake
    exact takes_enqueue rep ready (unqueued awake)
  · exact Takes.pure rep

/-! ## Removal -/

theorem takes_removeFromRq (rep : ListsRep lists model.lists) {list : QueueId}
    (queued : (model.thread curr).rqList = some list) (running : list.Running)
    (member : curr ∈ model.queue list) :
    Takes lists model (removeFromRq curr) () (model.remove list curr) := by
  have removed := takes_remove rep member
  rw [nodeIn_of_running running] at removed
  apply Takes.get
  rw [show ((model.withLists lists).thread curr).rqList = some list from queued]
  exact removed.bind fun next nextRep => Takes.pure nextRep

theorem takes_removeFromRq_none (rep : ListsRep lists model.lists)
    (alone : (model.thread curr).rqList = none) :
    Takes lists model (removeFromRq curr) () model := by
  apply Takes.get
  rw [show ((model.withLists lists).thread curr).rqList = none from alone]
  exact Takes.pure rep

/-- A thread in no list has no links. -/
theorem takes_verifyRemoved (rep : ListsRep lists model.lists)
    (unqueued : model.Unqueued curr) (absent : curr ∉ model.queue .threads) :
    Takes lists model (verifyRemoved curr) () model := by
  have rqLinks := rep.refines.unlinked _ (rqNode_fresh unqueued)
  have threadLinks := rep.refines.unlinked _ (threadNode_fresh absent)
  apply Takes.get
  have unlinked : ¬ ((lists.node (rqNode curr)).next ≠ none ∨
      (lists.node (rqNode curr)).prev ≠ none ∨
      (lists.node (threadNode curr)).next ≠ none ∨
      (lists.node (threadNode curr)).prev ≠ none) := by
    simp [rqLinks, threadLinks]
  rw [show (model.withLists lists).lists = lists from rfl, if_neg unlinked]
  exact Takes.pure rep

theorem unqueued_of_queues {other : Model} (unqueued : model.Unqueued curr)
    (same : ∀ queue : QueueId, queue.Running → other.queue queue = model.queue queue) :
    other.Unqueued curr := by
  intro queue running
  rw [same queue running]
  exact unqueued queue running

theorem takes_schedulerRemoveThread (rep : ListsRep lists model.lists)
    (running : model.currThread = some curr) (known : curr ∈ model.queue .threads)
    (queued : ∀ list, (model.thread curr).rqList = some list →
      list.Running ∧ curr ∈ model.queue list)
    (alone : (model.thread curr).rqList = none → model.Unqueued curr) {mm : MmState}
    (deleted : (deleteThread (model.thread curr).codeAddr curr).run model.mm = .ok () mm) :
    Takes lists model schedulerRemoveThread () (model.removeThread curr mm) := by
  have others : ∀ queue : QueueId, queue.Running →
      (model.remove .threads curr).queue queue = model.queue queue := fun queue running =>
    KernelState.queue_setQueue_of_ne _ _ _ _ running
  have absent : curr ∉ (model.remove .threads curr).queue .threads := by
    rw [KernelState.remove, KernelState.queue_setQueue_self]
    exact (rep.nodup .threads).not_mem_erase
  apply Takes.get
  apply Takes.bind (Takes.deref rep running)
  intro lists rep
  apply Takes.bind (takes_remove rep known)
  intro lists rep
  cases rqList : (model.thread curr).rqList with
  | none =>
      have unqueued := unqueued_of_queues (alone rqList) others
      have after : model.removeThread curr mm =
          { model.remove .threads curr with mm, currThread := none } := by
        simp only [KernelState.removeThread, KernelState.remove, KernelState.thread_setQueue,
          rqList]
      rw [after]
      apply Takes.bind (takes_removeFromRq_none rep rqList)
      intro lists rep
      apply Takes.bind (takes_verifyRemoved rep unqueued absent)
      intro lists rep
      apply Takes.get
      apply Takes.bind (Takes.onMm rep deleted)
      exact fun next nextRep => Takes.modify nextRep rfl rfl
  | some list =>
      rcases queued list rqList with ⟨listRunning, member⟩
      have after : model.removeThread curr mm =
          { (model.remove .threads curr).remove list curr with mm, currThread := none } := by
        simp only [KernelState.removeThread, KernelState.remove, KernelState.thread_setQueue,
          rqList]
      have stays : curr ∈ (model.remove .threads curr).queue list := by
        rw [others list listRunning]
        exact member
      have unqueued := unqueued_remove rep listRunning stays
      have absent' : curr ∉ ((model.remove .threads curr).remove list curr).queue .threads := by
        rw [KernelState.remove,
          KernelState.queue_setQueue_of_ne _ _ _ _ (Ne.symm listRunning)]
        exact absent
      rw [after]
      apply Takes.bind (takes_removeFromRq rep rqList listRunning stays)
      intro lists rep
      apply Takes.bind (takes_verifyRemoved rep unqueued absent')
      intro lists rep
      apply Takes.get
      apply Takes.bind (Takes.onMm rep deleted)
      exact fun next nextRep => Takes.modify nextRep rfl rfl

end Vanilla.Kernel
