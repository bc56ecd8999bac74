import Vanilla.Foundation.Keeps
import Vanilla.Kernel.Scheduler

/-! # What scheduling leaves alone

Whatever happens to the run queues, well formed or not, their nodes lead to run
queue nodes only. So the global list of threads, the accounts of the threads and
the memory stand still.
-/

namespace Vanilla.Kernel

open Mm DlistStore

/-- The node that a pointer leads to, if any, belongs to a run queue. -/
def LeadsToRq (pointer : Option NodePtr) : Prop :=
  ∀ node, pointer = some node → node.field = .rqNode

/-- The lists differ from `base` in the run queues only. -/
structure QueuesOnly (base lists : KernelLists) : Prop where
  threadNode : ∀ node : NodePtr, node.field = .threadNode → lists.node node = base.node node
  threads : lists.list .threads = base.list .threads
  obj : ∀ node, (lists.node node).obj = (base.node node).obj
  first : ∀ queue, queue ≠ .threads → LeadsToRq (lists.list queue).first
  last : ∀ queue, queue ≠ .threads → LeadsToRq (lists.list queue).last
  next : ∀ node : NodePtr, node.field = .rqNode → LeadsToRq (lists.node node).next
  prev : ∀ node : NodePtr, node.field = .rqNode → LeadsToRq (lists.node node).prev

theorem leadsToRq_none : LeadsToRq none := fun _ same => by cases same

theorem leadsToRq_some {node : NodePtr} (rq : node.field = .rqNode) : LeadsToRq (some node) :=
  fun _ same => by cases same; exact rq

namespace QueuesOnly

variable {base lists : KernelLists} {node : NodePtr} {queue : QueueId} {value : Option NodePtr}

theorem ne_of_rq {other : NodePtr} (rq : node.field = .rqNode)
    (thread : other.field = .threadNode) : other ≠ node := by
  intro same
  rw [same, rq] at thread
  cases thread

theorem setPrev (queues : QueuesOnly base lists) (rq : node.field = .rqNode)
    (leads : LeadsToRq value) : QueuesOnly base (setPrev node value lists) where
  threadNode other thread :=
    (Function.update_of_ne (ne_of_rq rq thread) _ _).trans (queues.threadNode other thread)
  threads := queues.threads
  obj other := (node_setPrev_obj lists node other value).trans (queues.obj other)
  first := queues.first
  last := queues.last
  next other isRq := by
    rw [node_setPrev_next]
    exact queues.next other isRq
  prev other isRq := by
    rw [node_setPrev_prev]
    split
    · exact leads
    · exact queues.prev other isRq

theorem setNext (queues : QueuesOnly base lists) (rq : node.field = .rqNode)
    (leads : LeadsToRq value) : QueuesOnly base (setNext node value lists) where
  threadNode other thread :=
    (Function.update_of_ne (ne_of_rq rq thread) _ _).trans (queues.threadNode other thread)
  threads := queues.threads
  obj other := (node_setNext_obj lists node other value).trans (queues.obj other)
  first := queues.first
  last := queues.last
  next other isRq := by
    rw [node_setNext_next]
    split
    · exact leads
    · exact queues.next other isRq
  prev other isRq := by
    rw [node_setNext_prev]
    exact queues.prev other isRq

/-- A change of one list head that keeps to run queue nodes. -/
theorem setHead (queues : QueuesOnly base lists) (running : queue ≠ .threads)
    {after : KernelLists} (nodes : after.node = lists.node)
    (others : ∀ other, other ≠ queue → after.list other = lists.list other)
    (first : LeadsToRq (after.list queue).first) (last : LeadsToRq (after.list queue).last) :
    QueuesOnly base after where
  threadNode other thread := by
    rw [nodes]
    exact queues.threadNode other thread
  threads := (others .threads (Ne.symm running)).trans queues.threads
  obj other := by
    rw [nodes]
    exact queues.obj other
  first other isRunning := by
    by_cases same : other = queue
    · exact same ▸ first
    · rw [others other same]
      exact queues.first other isRunning
  last other isRunning := by
    by_cases same : other = queue
    · exact same ▸ last
    · rw [others other same]
      exact queues.last other isRunning
  next other isRq := by
    rw [nodes]
    exact queues.next other isRq
  prev other isRq := by
    rw [nodes]
    exact queues.prev other isRq

theorem setFirst (queues : QueuesOnly base lists) (running : queue ≠ .threads)
    (leads : LeadsToRq value) : QueuesOnly base (setFirst queue value lists) := by
  refine queues.setHead running (node_setFirst lists queue value) ?_ ?_ ?_
  · exact fun other different => list_setFirst_of_ne lists queue other value different
  · rw [list_setFirst_first]
    exact leads
  · rw [list_setFirst_last]
    exact queues.last queue running

theorem setLast (queues : QueuesOnly base lists) (running : queue ≠ .threads)
    (leads : LeadsToRq value) : QueuesOnly base (setLast queue value lists) := by
  refine queues.setHead running (node_setLast lists queue value) ?_ ?_ ?_
  · exact fun other different => list_setLast_of_ne lists queue other value different
  · rw [list_setLast_first]
    exact queues.first queue running
  · rw [list_setLast_last]
    exact leads

theorem setSize (queues : QueuesOnly base lists) (running : queue ≠ .threads) (size : Nat) :
    QueuesOnly base (setSize queue size lists) := by
  refine queues.setHead running (node_setSize lists queue size) ?_ ?_ ?_
  · exact fun other different => list_setSize_of_ne lists queue other size different
  · rw [list_setSize_first]
    exact queues.first queue running
  · rw [list_setSize_last]
    exact queues.last queue running

end QueuesOnly

/-! ## The list functions on run queues -/

section Lists

variable {base : KernelLists} {node : NodePtr} {queue : QueueId}

open Exec

theorem keeps_checkFree (list : QueueId) :
    Keeps (QueuesOnly base) (dlistCheckFree node list) fun _ => True := by
  apply Keeps.get
  intro store _
  dsimp only
  split
  · exact Keeps.bind (Keeps.panic _) fun _ (impossible : False) => impossible.elim
  · split
    · exact Keeps.panic _
    · exact Keeps.pure trivial

theorem keeps_dlistGrow (running : queue ≠ .threads) :
    Keeps (QueuesOnly base) (dlistGrow queue) fun _ => True :=
  keeps_modify fun _ queues => queues.setSize running _

theorem keeps_dlistShrink (running : queue ≠ .threads) (reason : String) :
    Keeps (QueuesOnly base) (dlistShrink queue reason) fun _ => True := by
  apply Keeps.get
  intro store queues
  dsimp only
  split
  · exact Keeps.bind (Keeps.panic _) fun _ (impossible : False) => impossible.elim
  · exact Keeps.set (queues.setSize running _)

theorem keeps_dlistUnlink (rq : node.field = .rqNode) :
    Keeps (QueuesOnly base) (dlistUnlink node) fun _ => True :=
  keeps_modify fun _ queues => (queues.setNext rq leadsToRq_none).setPrev rq leadsToRq_none

theorem keeps_dlistInsertFirst (running : queue ≠ .threads) (rq : node.field = .rqNode) :
    Keeps (QueuesOnly base) (dlistInsertFirst node queue) fun _ => True := by
  apply Keeps.bind (keeps_checkFree queue)
  intro _ _
  apply Keeps.get
  intro store queues
  cases head : (store.list queue).first with
  | none =>
      apply Keeps.bind (Keeps.set ?_) fun _ _ => keeps_dlistGrow running
      exact (queues.setFirst running (leadsToRq_some rq)).setLast running (leadsToRq_some rq)
  | some first =>
      have firstRq := queues.first queue running first head
      apply Keeps.bind (Keeps.set ?_) fun _ _ => keeps_dlistGrow running
      exact ((queues.setNext rq (leadsToRq_some firstRq)).setPrev firstRq
        (leadsToRq_some rq)).setFirst running (leadsToRq_some rq)

theorem keeps_dlistInsertLast (running : queue ≠ .threads) (rq : node.field = .rqNode) :
    Keeps (QueuesOnly base) (dlistInsertLast node queue) fun _ => True := by
  apply Keeps.bind (keeps_checkFree queue)
  intro _ _
  apply Keeps.get
  intro store queues
  cases tail : (store.list queue).last with
  | none =>
      apply Keeps.bind (Keeps.set ?_) fun _ _ => keeps_dlistGrow running
      exact (queues.setFirst running (leadsToRq_some rq)).setLast running (leadsToRq_some rq)
  | some last =>
      have lastRq := queues.last queue running last tail
      apply Keeps.bind (Keeps.set ?_) fun _ _ => keeps_dlistGrow running
      exact ((queues.setPrev rq (leadsToRq_some lastRq)).setNext lastRq
        (leadsToRq_some rq)).setLast running (leadsToRq_some rq)

theorem keeps_dlistInsertBefore {target : NodePtr} (running : queue ≠ .threads)
    (rq : node.field = .rqNode) (targetRq : target.field = .rqNode) :
    Keeps (QueuesOnly base) (dlistInsertBefore node target queue) fun _ => True := by
  apply Keeps.bind (keeps_checkFree queue)
  intro _ _
  apply Keeps.get
  intro store queues
  split
  · exact keeps_dlistInsertFirst running rq
  · have before := queues.prev target targetRq
    apply Keeps.bind (Keeps.set (queues.setPrev rq before))
    intro _ _
    apply Keeps.bind (Keeps.deref before)
    intro prev prevRq
    apply Keeps.bind (keeps_modify fun _ queues => queues.setNext prevRq (leadsToRq_some rq))
    intro _ _
    apply Keeps.bind (keeps_modify fun _ queues => queues.setNext rq (leadsToRq_some targetRq))
    intro _ _
    apply Keeps.bind (keeps_modify fun _ queues => queues.setPrev targetRq (leadsToRq_some rq))
    exact fun _ _ => keeps_dlistGrow running

theorem keeps_dlistRemoveFirst (running : queue ≠ .threads) :
    Keeps (QueuesOnly base) (dlistRemoveFirst queue) fun removed => removed.field = .rqNode := by
  apply Keeps.get
  intro store queues
  cases head : (store.list queue).first with
  | none => exact Keeps.panic _
  | some first =>
      have firstRq := queues.first queue running first head
      have finish : Keeps (QueuesOnly base) (do
          dlistShrink queue "List size is zero"
          dlistUnlink first
          return first) fun removed => removed.field = .rqNode := by
        apply Keeps.bind (keeps_dlistShrink running _)
        intro _ _
        apply Keeps.bind (keeps_dlistUnlink firstRq)
        exact fun _ _ => Keeps.pure firstRq
      cases link : (store.node first).next with
      | none =>
          simp only [link]
          apply Keeps.bind (Keeps.set ?_) fun _ _ => finish
          exact (queues.setFirst running leadsToRq_none).setLast running leadsToRq_none
      | some next =>
          have nextRq := queues.next first firstRq next link
          simp only [link]
          apply Keeps.bind (Keeps.set ?_) fun _ _ => finish
          exact (queues.setPrev nextRq leadsToRq_none).setFirst running (leadsToRq_some nextRq)

theorem keeps_dlistRemoveLast (running : queue ≠ .threads) :
    Keeps (QueuesOnly base) (dlistRemoveLast queue) fun removed => removed.field = .rqNode := by
  apply Keeps.get
  intro store queues
  cases tail : (store.list queue).last with
  | none => exact Keeps.panic _
  | some last =>
      have lastRq := queues.last queue running last tail
      have finish : Keeps (QueuesOnly base) (do
          dlistShrink queue "List error"
          dlistUnlink last
          return last) fun removed => removed.field = .rqNode := by
        apply Keeps.bind (keeps_dlistShrink running _)
        intro _ _
        apply Keeps.bind (keeps_dlistUnlink lastRq)
        exact fun _ _ => Keeps.pure lastRq
      cases link : (store.node last).prev with
      | none =>
          simp only [link]
          apply Keeps.bind (Keeps.set ?_) fun _ _ => finish
          exact (queues.setLast running leadsToRq_none).setFirst running leadsToRq_none
      | some prev =>
          have prevRq := queues.prev last lastRq prev link
          simp only [link]
          apply Keeps.bind (Keeps.set ?_) fun _ _ => finish
          exact (queues.setNext prevRq leadsToRq_none).setLast running (leadsToRq_some prevRq)

theorem keeps_dlistRemove (running : queue ≠ .threads) (rq : node.field = .rqNode) :
    Keeps (QueuesOnly base) (dlistRemove node queue) fun _ => True := by
  have finish : Keeps (QueuesOnly base) (do
      dlistUnlink node
      return node) fun _ => True := by
    apply Keeps.bind (keeps_dlistUnlink rq)
    exact fun _ _ => Keeps.pure trivial
  apply Keeps.get
  intro store queues
  dsimp only
  split
  · exact Keeps.bind (keeps_dlistRemoveFirst running) fun _ _ => finish
  · split
    · exact Keeps.bind (keeps_dlistRemoveLast running) fun _ _ => finish
    · have before := queues.prev node rq
      apply Keeps.bind (Keeps.deref before)
      intro prev prevRq
      apply Keeps.bind (keeps_modify fun _ after =>
        after.setNext prevRq (after.next node rq))
      intro _ _
      apply Keeps.get
      intro later laterQueues
      apply Keeps.bind (Keeps.deref (laterQueues.next node rq))
      intro next nextRq
      apply Keeps.bind (Keeps.set (laterQueues.setPrev nextRq (laterQueues.prev node rq)))
      intro _ _
      exact Keeps.bind (keeps_dlistShrink running _) fun _ _ => finish

end Lists

/-! ## The scheduler -/

/-- What scheduling does not write in a control block. -/
structure SameAccount (before after : Thread) : Prop where
  runtimeNew : after.runtimeNew = before.runtimeNew
  runtimeCurr : after.runtimeCurr = before.runtimeCurr
  exitPending : after.exitPending = before.exitPending
  codeAddr : after.codeAddr = before.codeAddr

/-- The kernel differs from `base` in what scheduling decides, and whoever is in
a list, or idle, is known. -/
structure Undisturbed (base : Machine) (known : ThreadPtr → Prop) (kernel : Machine) : Prop where
  lists : QueuesOnly base.lists kernel.lists
  objects : ∀ node thread, (kernel.lists.node node).obj = some thread → known thread
  account : ∀ thread, SameAccount (base.thread thread) (kernel.thread thread)
  rqList : ∀ thread, (kernel.thread thread).rqList ≠ some .threads
  idle : ∀ thread, kernel.idle = some thread → known thread
  statsTick : kernel.statsTick = base.statsTick
  mm : kernel.mm = base.mm
  currThread : kernel.currThread = base.currThread
  nextThread : kernel.nextThread = base.nextThread

/-- A change of a control block that scheduling may make. -/
structure KeepsAccount (change : Thread → Thread) : Prop where
  account : ∀ fields, SameAccount fields (change fields)
  rqList : ∀ fields, fields.rqList ≠ some .threads → (change fields).rqList ≠ some .threads

section Scheduler

variable {base : Machine} {known : ThreadPtr → Prop} {kernel : Machine} {node : NodePtr}
  {queue : QueueId} {thread : ThreadPtr}

open Exec

theorem Undisturbed.setThread (steady : Undisturbed base known kernel) {change : Thread → Thread}
    (keeps : KeepsAccount change) (thread : ThreadPtr) :
    Undisturbed base known (kernel.setThread thread change) where
  lists := steady.lists
  objects := steady.objects
  account other := by
    by_cases same : other = thread
    · have before := steady.account other
      have after := keeps.account (kernel.thread other)
      subst same
      simp only [KernelState.setThread, Function.update_self]
      exact ⟨after.runtimeNew.trans before.runtimeNew, after.runtimeCurr.trans before.runtimeCurr,
        after.exitPending.trans before.exitPending, after.codeAddr.trans before.codeAddr⟩
    · simp only [KernelState.setThread, Function.update_of_ne same]
      exact steady.account other
  rqList other := by
    by_cases same : other = thread
    · subst same
      simp only [KernelState.setThread, Function.update_self]
      exact keeps.rqList _ (steady.rqList other)
    · simp only [KernelState.setThread, Function.update_of_ne same]
      exact steady.rqList other
  idle := steady.idle
  statsTick := steady.statsTick
  mm := steady.mm
  currThread := steady.currThread
  nextThread := steady.nextThread

theorem Undisturbed.withLists (steady : Undisturbed base known kernel) {lists : KernelLists}
    (queues : QueuesOnly base.lists lists) : Undisturbed base known { kernel with lists } where
  lists := queues
  objects node thread found := by
    apply steady.objects node thread
    rw [steady.lists.obj]
    exact (queues.obj node).symm.trans found
  account := steady.account
  rqList := steady.rqList
  idle := steady.idle
  statsTick := steady.statsTick
  mm := steady.mm
  currThread := steady.currThread
  nextThread := steady.nextThread

/-- A change of the fields that scheduling decides by. -/
theorem Undisturbed.outside (steady : Undisturbed base known kernel) {after : Machine}
    (lists : after.lists = kernel.lists) (threads : after.thread = kernel.thread)
    (idle : ∀ thread, after.idle = some thread → known thread)
    (statsTick : after.statsTick = kernel.statsTick) (mm : after.mm = kernel.mm)
    (currThread : after.currThread = kernel.currThread)
    (nextThread : after.nextThread = kernel.nextThread) : Undisturbed base known after where
  lists := lists ▸ steady.lists
  objects := lists ▸ steady.objects
  account := threads ▸ steady.account
  rqList := threads ▸ steady.rqList
  idle := idle
  statsTick := statsTick.trans steady.statsTick
  mm := mm.trans steady.mm
  currThread := currThread.trans steady.currThread
  nextThread := nextThread.trans steady.nextThread

theorem keeps_onLists {Value : Type} {body : Exec KernelLists Value} {post : Value → Prop}
    (keeps : Keeps (QueuesOnly base.lists) body post) :
    Keeps (Undisturbed base known) (onLists body) post :=
  Keeps.zoom keeps (fun _ steady => steady.lists) fun _ _ steady queues => steady.withLists queues

theorem keeps_setThread {change : Thread → Thread} (keeps : KeepsAccount change)
    (thread : ThreadPtr) : Keeps (Undisturbed base known) (setThread thread change) fun _ => True :=
  keeps_modify fun _ steady => steady.setThread keeps thread

theorem keepsAccount_rqList {list : Option QueueId} (running : list ≠ some .threads) :
    KeepsAccount fun fields => { fields with rqList := list } where
  account _ := ⟨rfl, rfl, rfl, rfl⟩
  rqList _ _ := running

theorem keepsAccount_tickToWake (tick : Nat) :
    KeepsAccount fun fields => { fields with tickToWake := tick } where
  account _ := ⟨rfl, rfl, rfl, rfl⟩
  rqList _ kept := kept

theorem keeps_nodeThread (node : NodePtr) :
    Keeps (Undisturbed base known) (nodeThread node) known := by
  apply Keeps.get
  intro kernel steady
  exact Keeps.deref fun thread found => steady.objects node thread found

/-! ### Scheduling classes -/

/-- What a class hands out is known. -/
def Known (known : ThreadPtr → Prop) (picked : Option ThreadPtr) : Prop :=
  ∀ thread, picked = some thread → known thread

theorem keeps_pickFirst (running : queue ≠ .threads) :
    Keeps (Undisturbed base known) (pickFirst queue) (Known known) := by
  apply Keeps.get
  intro kernel steady
  cases (kernel.lists.list queue).first with
  | none => exact Keeps.pure fun _ same => by cases same
  | some first =>
      apply Keeps.bind (keeps_onLists (keeps_dlistRemoveFirst running))
      intro node _
      apply Keeps.bind (keeps_nodeThread node)
      exact fun thread found => Keeps.pure fun _ same => by cases same; exact found

theorem keeps_rtPickThread : Keeps (Undisturbed base known) rtPickThread (Known known) := by
  apply Keeps.bind (keeps_pickFirst (by simp))
  intro picked found
  cases picked with
  | none => exact Keeps.pure found
  | some thread =>
      apply Keeps.bind (keeps_setThread (keepsAccount_rqList (by simp)) thread)
      exact fun _ _ => Keeps.pure found

theorem keeps_idlePickThread : Keeps (Undisturbed base known) idlePickThread (Known known) := by
  apply Keeps.get
  exact fun kernel steady => Keeps.pure steady.idle

theorem keeps_pickThread (schedClass : SchedClass) :
    Keeps (Undisturbed base known) schedClass.table.pickThread (Known known) := by
  cases schedClass with
  | realTime => exact keeps_rtPickThread
  | application => exact keeps_pickFirst (by simp)
  | background => exact keeps_pickFirst (by simp)
  | idle => exact keeps_idlePickThread

theorem keeps_pickFrom (classes : List SchedClass) :
    Keeps (Undisturbed base known) (pickFrom (classes.map SchedClass.table)) (Known known) := by
  induction classes with
  | nil => exact Keeps.panic _
  | cons head rest induction =>
      apply Keeps.bind (keeps_pickThread head)
      intro picked found
      cases picked with
      | none => exact induction
      | some thread => exact Keeps.pure found

theorem keeps_coreScheduler : Keeps (Undisturbed base known) coreScheduler (Known known) :=
  keeps_pickFrom [.realTime, .application, .background, .idle]

theorem keeps_enqueue (isKnown : known thread) :
    Keeps (Undisturbed base known) (enqueue thread) fun _ => True := by
  apply Keeps.get
  intro kernel steady
  cases (kernel.thread thread).schedClass with
  | realTime =>
      apply Keeps.bind (keeps_onLists (keeps_dlistInsertLast (by simp) rfl))
      exact fun _ _ => keeps_setThread (keepsAccount_rqList (by simp)) thread
  | application => exact keeps_onLists (keeps_dlistInsertLast (by simp) rfl)
  | background => exact keeps_onLists (keeps_dlistInsertLast (by simp) rfl)
  | idle =>
      apply keeps_modify
      intro kernel steady
      exact steady.outside rfl rfl (fun _ same => by cases same; exact isKnown) rfl rfl rfl rfl

/-! ### Sleeping -/

theorem Undisturbed.rqTickToWake (steady : Undisturbed base known kernel) (tick : Nat) :
    Undisturbed base known { kernel with rqTickToWake := tick } :=
  steady.outside rfl rfl steady.idle rfl rfl rfl rfl

theorem keeps_tickToWakeUpdate :
    Keeps (Undisturbed base known) tickToWakeUpdate fun _ => True := by
  apply Keeps.get
  intro kernel steady
  cases (kernel.lists.list .sleepQ).first with
  | none => exact keeps_modify fun _ steady => steady.rqTickToWake _
  | some node =>
      apply Keeps.bind (keeps_nodeThread node)
      exact fun _ _ => keeps_modify fun _ steady => steady.rqTickToWake _

theorem keeps_wakeExpired (rounds : Nat) (iter : Option NodePtr) (leads : LeadsToRq iter) :
    Keeps (Undisturbed base known) (wakeExpired rounds iter) fun _ => True := by
  induction rounds generalizing iter with
  | zero =>
      cases iter with
      | none => exact Keeps.pure trivial
      | some node => exact Keeps.fault _
  | succ rounds induction =>
      cases iter with
      | none => exact Keeps.pure trivial
      | some node =>
          have rq := leads node rfl
          apply Keeps.bind (keeps_nodeThread node)
          intro thread isKnown
          apply Keeps.get
          intro kernel steady
          split
          · apply Keeps.bind (keeps_onLists (keeps_dlistRemove (by simp) rq))
            intro _ _
            apply Keeps.bind (keeps_setThread (keepsAccount_rqList (by simp)) thread)
            intro _ _
            apply Keeps.bind (keeps_enqueue isKnown)
            intro _ _
            apply Keeps.bind (keeps_setThread (keepsAccount_tickToWake 0) thread)
            intro _ _
            apply Keeps.get
            exact fun kernel steady => induction _ (steady.lists.next node rq)
          · exact Keeps.pure trivial

theorem keeps_processExpiredDelays :
    Keeps (Undisturbed base known) processExpiredDelays fun _ => True := by
  apply Keeps.get
  intro kernel steady
  split
  · apply Keeps.bind (keeps_wakeExpired _ _ (steady.lists.first .sleepQ (by simp)))
    exact fun _ _ => keeps_tickToWakeUpdate
  · exact Keeps.pure trivial

theorem keeps_insertDelay (thread : ThreadPtr) (rounds : Nat) (iter : Option NodePtr)
    (leads : LeadsToRq iter) :
    Keeps (Undisturbed base known) (insertDelay thread rounds iter) fun _ => True := by
  induction rounds generalizing iter with
  | zero =>
      cases iter with
      | none => exact keeps_onLists (keeps_dlistInsertLast (by simp) rfl)
      | some node => exact Keeps.fault _
  | succ rounds induction =>
      cases iter with
      | none => exact keeps_onLists (keeps_dlistInsertLast (by simp) rfl)
      | some node =>
          have rq := leads node rfl
          apply Keeps.bind (keeps_nodeThread node)
          intro other _
          apply Keeps.get
          intro kernel steady
          split
          · exact keeps_onLists (keeps_dlistInsertBefore (by simp) rfl rq)
          · exact induction _ (steady.lists.next node rq)

theorem keeps_schedulerEnqueueDelay (thread : ThreadPtr) :
    Keeps (Undisturbed base known) (schedulerEnqueueDelay thread) fun _ => True := by
  have finish : Keeps (Undisturbed base known) (do
      setThread thread fun fields => { fields with rqList := some .sleepQ }
      tickToWakeUpdate) fun _ => True := by
    apply Keeps.bind (keeps_setThread (keepsAccount_rqList (by simp)) thread)
    exact fun _ _ => keeps_tickToWakeUpdate
  apply Keeps.get
  intro kernel steady
  cases first : (kernel.lists.list .sleepQ).first with
  | none =>
      exact Keeps.bind (keeps_onLists (keeps_dlistInsertFirst (by simp) rfl)) fun _ _ => finish
  | some iter =>
      have leads := steady.lists.first .sleepQ (by simp)
      rw [first] at leads
      exact Keeps.bind (keeps_insertDelay thread _ _ leads) fun _ _ => finish

theorem keeps_threadSleep (ms : Nat) :
    Keeps (Undisturbed base known) (threadSleep ms) fun _ => True := by
  apply Keeps.get
  intro kernel steady
  apply Keeps.bind Keeps.derefAny
  intro curr _
  apply Keeps.bind (keeps_setThread (keepsAccount_tickToWake _) curr)
  intro _ _
  apply Keeps.bind (keeps_schedulerEnqueueDelay curr)
  intro _ _
  exact keeps_modify fun _ steady => steady.outside rfl rfl steady.idle rfl rfl rfl rfl

/-! ### Other threads -/

theorem keeps_findThread (tid rounds : Nat) (iter : Option NodePtr) :
    Keeps (Undisturbed base known) (findThread tid rounds iter) (Known known) := by
  induction rounds generalizing iter with
  | zero =>
      cases iter with
      | none => exact Keeps.pure fun _ same => by cases same
      | some node => exact Keeps.fault _
  | succ rounds induction =>
      cases iter with
      | none => exact Keeps.pure fun _ same => by cases same
      | some node =>
          apply Keeps.bind (keeps_nodeThread node)
          intro thread isKnown
          apply Keeps.get
          intro kernel steady
          split
          · exact Keeps.pure fun _ same => by cases same; exact isKnown
          · exact induction _

theorem keeps_getThread (tid : Nat) :
    Keeps (Undisturbed base known) (getThread tid) (Known known) := by
  apply Keeps.get
  exact fun kernel steady => keeps_findThread tid _ _

theorem keeps_rtBlock (thread : ThreadPtr) :
    Keeps (Undisturbed base known) (rtBlock thread) fun _ => True := by
  apply Keeps.get
  intro kernel steady
  have running := steady.rqList thread
  cases list : (kernel.thread thread).rqList with
  | none => exact Keeps.fault _
  | some queue =>
      rw [list] at running
      have finish : Keeps (Undisturbed base known) (do
          let _ ← onLists (dlistRemove (rqNode thread) queue)
          onLists (dlistInsertLast (rqNode thread) .blockedQ)
          setThread thread fun fields => { fields with rqList := some .blockedQ })
          fun _ => True := by
        apply Keeps.bind (keeps_onLists (keeps_dlistRemove (fun same => running (by rw [same]))
          rfl))
        intro _ _
        apply Keeps.bind (keeps_onLists (keeps_dlistInsertLast (by simp) rfl))
        exact fun _ _ => keeps_setThread (keepsAccount_rqList (by simp)) thread
      cases queue with
      | blockedQ => exact Keeps.pure trivial
      | threads => exact absurd rfl running
      | _ => exact finish

theorem keeps_rtUnblock (thread : ThreadPtr) :
    Keeps (Undisturbed base known) (rtUnblock thread) fun _ => True := by
  apply Keeps.get
  intro kernel steady
  split
  · exact Keeps.pure trivial
  · apply Keeps.bind (keeps_onLists (keeps_dlistRemove (by simp) rfl))
    intro _ _
    apply Keeps.bind (keeps_setThread (keepsAccount_tickToWake 0) thread)
    intro _ _
    apply Keeps.bind (keeps_onLists (keeps_dlistInsertLast (by simp) rfl))
    exact fun _ _ => keeps_setThread (keepsAccount_rqList (by simp)) thread

theorem keeps_onOtherThread
    {operation : SchedulingClass → Option (ThreadPtr → Exec Machine Unit)}
    (operations : ∀ schedClass : SchedClass, ∀ code, operation schedClass.table = some code →
      ∀ thread, Keeps (Undisturbed base known) (code thread) fun _ => True)
    (thread : Option ThreadPtr) :
    Keeps (Undisturbed base known) (onOtherThread operation thread) fun _ => True := by
  apply Keeps.get
  intro kernel steady
  dsimp only
  split
  · apply Keeps.bind (keeps_modify fun _ steady =>
      steady.outside rfl rfl steady.idle rfl rfl rfl rfl)
    exact fun _ _ => Keeps.bind (Keeps.panic _) fun _ (impossible : False) => impossible.elim
  · apply Keeps.bind Keeps.derefAny
    intro other _
    cases found : operation (kernel.thread other).schedClass.table with
    | none => exact Keeps.fault _
    | some code => exact operations _ code found other

theorem keeps_threadBlock (tid : Nat) :
    Keeps (Undisturbed base known) (threadBlock tid) fun _ => True := by
  apply Keeps.bind (keeps_getThread tid)
  intro thread _
  apply keeps_onOtherThread
  intro schedClass code found
  cases schedClass with
  | realTime =>
      cases found
      exact keeps_rtBlock
  | _ => cases found

theorem keeps_threadUnblock (tid : Nat) :
    Keeps (Undisturbed base known) (threadUnblock tid) fun _ => True := by
  apply Keeps.bind (keeps_getThread tid)
  intro thread _
  apply keeps_onOtherThread
  intro schedClass code found
  cases schedClass with
  | realTime =>
      cases found
      exact keeps_rtUnblock
  | _ => cases found

/-! ### Within SysTick -/

theorem keeps_requeueCurrThread (isKnown : ∀ curr, base.currThread = some curr → known curr) :
    Keeps (Undisturbed base known) requeueCurrThread fun _ => True := by
  apply Keeps.get
  intro kernel steady
  apply Keeps.bind (Keeps.deref fun curr found =>
    isKnown curr (steady.currThread.symm.trans found))
  intro curr currKnown
  split
  · exact keeps_enqueue currKnown
  · exact Keeps.pure trivial

theorem keeps_removeFromRq (thread : ThreadPtr) :
    Keeps (Undisturbed base known) (removeFromRq thread) fun _ => True := by
  apply Keeps.get
  intro kernel steady
  have running := steady.rqList thread
  cases list : (kernel.thread thread).rqList with
  | none => exact Keeps.pure trivial
  | some queue =>
      rw [list] at running
      apply Keeps.bind (keeps_onLists (keeps_dlistRemove (fun same => running (by rw [same])) rfl))
      exact fun _ _ => Keeps.pure trivial

theorem keeps_verifyRemoved (thread : ThreadPtr) :
    Keeps (Undisturbed base known) (verifyRemoved thread) fun _ => True := by
  apply Keeps.get
  intro kernel steady
  split
  · exact Keeps.panic _
  · exact Keeps.pure trivial

end Scheduler

end Vanilla.Kernel
