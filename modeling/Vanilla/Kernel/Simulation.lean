import Vanilla.Kernel.Model

/-! # The machine follows the model

`Takes` runs a piece of kernel code from a machine that represents a model. The
section on rules walks through sequential code; after it comes one lemma for
each function of the source.
-/

namespace Vanilla.Kernel

open Mm DlistStore

/-- The lists of the machine represent the queues of the model. -/
structure ListsRep (lists : KernelLists) (queues : Queues) : Prop where
  refines : Refines lists fun queue => (queues.queue queue).map (nodeIn queue)
  obj : ∀ node, (lists.node node).obj = queues.obj node

/-- The machine with the given lists that represents a model. -/
def KernelState.withLists (model : Model) (lists : KernelLists) : Machine :=
  { model with lists }

/-- Run from lists that represent `before`, the code returns `value` and leaves
lists that represent `after`. -/
def Takes {Value : Type} (lists : KernelLists) (before : Model) (code : Exec Machine Value)
    (value : Value) (after : Model) : Prop :=
  ∃ final, code.run (before.withLists lists) = .ok value (after.withLists final) ∧
    ListsRep final after.lists

/-! ## Rules -/

section Rules

variable {Value Middle : Type} {lists : KernelLists} {before between after : Model}
  {value : Value} {middle : Middle}

theorem Takes.pure (rep : ListsRep lists before.lists) :
    Takes lists before (Pure.pure value) value before :=
  ⟨lists, rfl, rep⟩

theorem Takes.bind {first : Exec Machine Middle} {second : Middle → Exec Machine Value}
    (head : Takes lists before first middle between)
    (tail : ∀ next, ListsRep next between.lists →
      Takes next between (second middle) value after) :
    Takes lists before (first >>= second) value after := by
  rcases head with ⟨next, returns, rep⟩
  rcases tail next rep with ⟨final, tailReturns, finalRep⟩
  exact ⟨final, (Exec.run_bind_of_ok returns).trans tailReturns, finalRep⟩

theorem Takes.get {body : Machine → Exec Machine Value}
    (rest : Takes lists before (body (before.withLists lists)) value after) :
    Takes lists before (MonadState.get >>= body) value after := by
  rcases rest with ⟨final, returns, rep⟩
  exact ⟨final, (Exec.run_bind_of_ok (EStateM.run_get _)).trans returns, rep⟩

theorem Takes.modify {change : Machine → Machine} (rep : ListsRep lists before.lists)
    (same : after.lists = before.lists)
    (changes : change (before.withLists lists) = after.withLists lists) :
    Takes lists before (modify change) () after := by
  refine ⟨lists, ?_, same ▸ rep⟩
  rw [← changes]
  rfl

theorem Takes.set {machine : Machine} (rep : ListsRep lists before.lists)
    (same : after.lists = before.lists) (changes : machine = after.withLists lists) :
    Takes lists before (MonadStateOf.set machine) () after := by
  refine ⟨lists, ?_, same ▸ rep⟩
  rw [← changes]
  rfl

theorem Takes.onLists {body : Exec KernelLists Value} {next : KernelLists} {queues : Queues}
    (returns : body.run lists = .ok value next) (rep : ListsRep next queues) :
    Takes lists before (onLists body) value { before with lists := queues } :=
  ⟨next, Exec.run_zoom_ok returns, rep⟩

theorem Takes.onMm {body : Exec MmState Value} {mm : MmState}
    (rep : ListsRep lists before.lists) (returns : body.run before.mm = .ok value mm) :
    Takes lists before (onMm body) value { before with mm } :=
  ⟨lists, Exec.run_zoom_ok returns, rep⟩

theorem Takes.deref {pointer : Value} {source : Option Value}
    (rep : ListsRep lists before.lists) (found : source = some pointer) :
    Takes lists before (Exec.deref source) pointer before := by
  subst found
  exact ⟨lists, rfl, rep⟩

theorem Takes.setThread (thread : ThreadPtr) (change : Thread → Thread)
    (rep : ListsRep lists before.lists) :
    Takes lists before (setThread thread change) () (before.setThread thread change) :=
  Takes.modify rep rfl rfl

/-- Run from lists that represent `before`, the code faults. -/
def Faults (lists : KernelLists) (before : Model) (code : Exec Machine Value)
    (reason : Fault) : Prop :=
  ∃ final, code.run (before.withLists lists) = .error reason final

variable {reason : Fault}

theorem Takes.faults {first : Exec Machine Middle} {second : Middle → Exec Machine Value}
    (head : Takes lists before first middle between)
    (tail : ∀ next, ListsRep next between.lists → Faults next between (second middle) reason) :
    Faults lists before (first >>= second) reason := by
  rcases head with ⟨next, returns, rep⟩
  rcases tail next rep with ⟨final, fails⟩
  exact ⟨final, (Exec.run_bind_of_ok returns).trans fails⟩

theorem Faults.bind {first : Exec Machine Middle} {second : Middle → Exec Machine Value}
    (head : Faults lists before first reason) :
    Faults lists before (first >>= second) reason := by
  rcases head with ⟨final, fails⟩
  exact ⟨final, Exec.run_bind_of_error fails⟩

theorem Faults.get {body : Machine → Exec Machine Value}
    (rest : Faults lists before (body (before.withLists lists)) reason) :
    Faults lists before (MonadState.get >>= body) reason := by
  rcases rest with ⟨final, fails⟩
  exact ⟨final, (Exec.run_bind_of_ok (EStateM.run_get _)).trans fails⟩

/-- Code that faults does not return. -/
theorem Faults.not_returns {code : Exec Machine Value} (faults : Faults lists before code reason)
    {final : Machine} : code.run (before.withLists lists) ≠ .ok value final := by
  rcases faults with ⟨_, fails⟩
  intro returns
  cases fails.symm.trans returns

end Rules

/-! ## Reading the lists -/

section Read

variable {lists : KernelLists} {model : Model}

theorem ListsRep.first (rep : ListsRep lists model.lists) (queue : QueueId) :
    (lists.list queue).first = (model.queue queue).head?.map (nodeIn queue) := by
  rw [(rep.refines.represents queue).first, List.head?_map]
  rfl

theorem ListsRep.nodup (rep : ListsRep lists model.lists) (queue : QueueId) :
    (model.queue queue).Nodup :=
  (rep.refines.represents queue).nodup.of_map

theorem ListsRep.length_lt (rep : ListsRep lists model.lists) (queue : QueueId) :
    (model.queue queue).length < 2 ^ 32 := by
  have bound := (rep.refines.represents queue).bound
  rw [List.length_map] at bound
  exact bound

/-- A thread is in one queue besides `threads` at most. -/
theorem ListsRep.apart (rep : ListsRep lists model.lists) {left right : QueueId}
    (leftRunning : left.Running) (rightRunning : right.Running) {thread : ThreadPtr}
    (inLeft : thread ∈ model.queue left) (inRight : thread ∈ model.queue right) :
    left = right := by
  apply rep.refines.apart left right (rqNode thread)
  · rw [← nodeIn_of_running leftRunning]
    exact List.mem_map_of_mem inLeft
  · rw [← nodeIn_of_running rightRunning]
    exact List.mem_map_of_mem inRight

/-- In none of the queues a run-queue node can be in. -/
def KernelState.Unqueued (model : Model) (thread : ThreadPtr) : Prop :=
  ∀ queue : QueueId, queue.Running → thread ∉ model.queue queue

theorem rqNode_fresh {thread : ThreadPtr} (unqueued : model.Unqueued thread)
    (queue : QueueId) : rqNode thread ∉ (model.lists.queue queue).map (nodeIn queue) := by
  intro member
  rcases List.mem_map.mp member with ⟨other, inQueue, same⟩
  by_cases running : queue.Running
  · rw [nodeIn_of_running running] at same
    have equal : other = thread := congrArg NodePtr.thread same
    exact unqueued queue running (equal ▸ inQueue)
  · have isThreads : queue = .threads := not_not.mp running
    subst isThreads
    cases same

theorem threadNode_fresh {thread : ThreadPtr} (absent : thread ∉ model.queue .threads)
    (queue : QueueId) : threadNode thread ∉ (model.lists.queue queue).map (nodeIn queue) := by
  intro member
  rcases List.mem_map.mp member with ⟨other, inQueue, same⟩
  by_cases running : queue.Running
  · rw [nodeIn_of_running running] at same
    cases same
  · have isThreads : queue = .threads := not_not.mp running
    subst isThreads
    have equal : other = thread := congrArg NodePtr.thread same
    exact absent (equal ▸ inQueue)

/-- A queue changed through `Refines`. -/
theorem ListsRep.setQueue {next : KernelLists} {queue : QueueId} {sequence : List ThreadPtr}
    (rep : ListsRep lists model.lists)
    (refines : Refines next (Function.update
      (fun queue => (model.lists.queue queue).map (nodeIn queue)) queue
      (sequence.map (nodeIn queue))))
    (objects : ∀ node, (next.node node).obj = (lists.node node).obj) :
    ListsRep next (model.setQueue queue sequence).lists where
  refines := by
    have same : (fun other => ((model.setQueue queue sequence).lists.queue other).map
        (nodeIn other)) = Function.update
        (fun queue => (model.lists.queue queue).map (nodeIn queue)) queue
        (sequence.map (nodeIn queue)) := by
      funext other
      by_cases equal : other = queue
      · subst other
        simp [KernelState.setQueue]
      · simp [KernelState.setQueue, equal]
    rw [same]
    exact refines
  obj := fun node => (objects node).trans (rep.obj node)

end Read

/-! ## The list operations -/

section Lists

variable {lists : KernelLists} {model : Model} {queue : QueueId} {thread : ThreadPtr}

theorem takes_nodeThread {node : NodePtr} (rep : ListsRep lists model.lists)
    (object : model.lists.obj node = some thread) :
    Takes lists model (nodeThread node) thread model := by
  apply Takes.get
  exact Takes.deref rep ((rep.obj node).trans object)

theorem takes_insertLast (rep : ListsRep lists model.lists) (running : queue.Running)
    (unqueued : model.Unqueued thread) (room : (model.queue queue).length + 1 < 2 ^ 32) :
    Takes lists model (onLists (dlistInsertLast (rqNode thread) queue)) ()
      (model.append queue thread) := by
  have fresh := rqNode_fresh unqueued
  rcases dlistInsertLast_spec (rep.refines.represents queue) (rep.refines.fresh fresh) with
    ⟨next, returns, inserted⟩
  have refines := rep.refines.inserted (List.append_nil _).symm fresh
    (by rw [List.length_map]; exact room) inserted
  apply Takes.onLists returns
  apply rep.setQueue _ inserted.obj
  simp only [List.map_append, List.map_cons, List.map_nil, nodeIn_of_running running]
  exact refines

theorem takes_insertFirst (rep : ListsRep lists model.lists) (running : queue.Running)
    (unqueued : model.Unqueued thread) (room : (model.queue queue).length + 1 < 2 ^ 32) :
    Takes lists model (onLists (dlistInsertFirst (rqNode thread) queue)) ()
      (model.setQueue queue (thread :: model.queue queue)) := by
  have fresh := rqNode_fresh unqueued
  rcases dlistInsertFirst_spec (rep.refines.represents _) (rep.refines.fresh fresh) with
    ⟨next, returns, inserted⟩
  have refines := rep.refines.inserted (List.nil_append _).symm fresh
    (by rw [List.length_map]; exact room) inserted
  apply Takes.onLists returns
  apply rep.setQueue _ inserted.obj
  simp only [List.map_cons, nodeIn_of_running running]
  exact refines

theorem takes_insertThread (rep : ListsRep lists model.lists)
    (absent : thread ∉ model.queue .threads)
    (room : (model.queue .threads).length + 1 < 2 ^ 32) :
    Takes lists model (onLists (dlistInsertFirst (threadNode thread) .threads)) ()
      (model.setQueue .threads (thread :: model.queue .threads)) := by
  have fresh := threadNode_fresh absent
  rcases dlistInsertFirst_spec (rep.refines.represents _) (rep.refines.fresh fresh) with
    ⟨next, returns, inserted⟩
  have refines := rep.refines.inserted (List.nil_append _).symm fresh
    (by rw [List.length_map]; exact room) inserted
  exact Takes.onLists returns (rep.setQueue refines inserted.obj)

theorem takes_insertBefore (rep : ListsRep lists model.lists) (running : queue.Running)
    (unqueued : model.Unqueued thread) (room : (model.queue queue).length + 1 < 2 ^ 32)
    {left right : List ThreadPtr} {target : ThreadPtr}
    (split : model.queue queue = left ++ target :: right) :
    Takes lists model (onLists (dlistInsertBefore (rqNode thread) (rqNode target) queue)) ()
      (model.setQueue queue (left ++ thread :: target :: right)) := by
  have fresh := rqNode_fresh unqueued
  have nodes : (model.lists.queue queue).map (nodeIn queue) =
      left.map (nodeIn queue) ++ rqNode target :: right.map (nodeIn queue) := by
    rw [show model.lists.queue queue = _ from split, List.map_append, List.map_cons,
      nodeIn_of_running running]
  rcases dlistInsertBefore_spec (rep.refines.represents queue) (rep.refines.fresh fresh) nodes with
    ⟨next, returns, inserted⟩
  have refines := rep.refines.inserted nodes fresh (by rw [List.length_map]; exact room) inserted
  apply Takes.onLists returns
  apply rep.setQueue _ inserted.obj
  simp only [List.map_append, List.map_cons, nodeIn_of_running running] at refines ⊢
  exact refines

theorem takes_remove (rep : ListsRep lists model.lists) (member : thread ∈ model.queue queue) :
    Takes lists model (onLists (dlistRemove (nodeIn queue thread) queue))
      (nodeIn queue thread) (model.remove queue thread) := by
  have nodup := rep.nodup queue
  rcases List.append_of_mem member with ⟨left, right, split⟩
  rw [split] at nodup
  have absent : thread ∉ left := by
    intro inLeft
    exact (List.nodup_append.mp nodup).2.2 thread inLeft thread List.mem_cons_self rfl
  have erased : (model.queue queue).erase thread = left ++ right := by
    rw [split, List.erase_append_right _ absent, List.erase_cons_head]
  have nodes : (model.lists.queue queue).map (nodeIn queue) =
      left.map (nodeIn queue) ++ nodeIn queue thread :: right.map (nodeIn queue) := by
    rw [show model.lists.queue queue = _ from split, List.map_append, List.map_cons]
  rcases dlistRemove_spec (rep.refines.represents queue) nodes with ⟨next, returns, removed⟩
  have refines := rep.refines.removed nodes removed
  apply Takes.onLists returns
  apply rep.setQueue _ removed.obj
  rw [erased, List.map_append]
  exact refines

theorem takes_removeFirst {rest : List ThreadPtr} (rep : ListsRep lists model.lists)
    (split : model.queue queue = thread :: rest) :
    Takes lists model (onLists (dlistRemoveFirst queue)) (nodeIn queue thread)
      (model.setQueue queue rest) := by
  have nodes : (model.lists.queue queue).map (nodeIn queue) =
      nodeIn queue thread :: rest.map (nodeIn queue) := by
    rw [show model.lists.queue queue = _ from split, List.map_cons]
  rcases dlistRemoveFirst_spec (rep.refines.represents queue) nodes with ⟨next, returns, removed⟩
  have refines := rep.refines.removed nodes removed
  exact Takes.onLists returns (rep.setQueue refines removed.obj)

end Lists

end Vanilla.Kernel
