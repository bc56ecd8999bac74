import Vanilla.Kernel.Undisturbed
import Vanilla.Kernel.Runs

/-! # The list of all threads

The global list is well formed whatever the run queues look like, and every
thread that the kernel can reach is in it or about to exit.
-/

namespace Vanilla.Kernel

open Mm DlistStore Exec

/-- The global list holds these threads, and no other thread has a link in it. -/
structure ThreadsListed (lists : KernelLists) (threads : List ThreadPtr) : Prop where
  listed : Represents lists .threads (threads.map threadNode)
  unlisted : ∀ thread, thread ∉ threads → (lists.node (threadNode thread)).prev = none ∧
    (lists.node (threadNode thread)).next = none
  named : ∀ thread ∈ threads, (lists.node (threadNode thread)).obj = some thread

/-! ## Moves in the global list -/

section Lists

variable {lists after : KernelLists} {threads : List ThreadPtr} {thread : ThreadPtr}

theorem threadNode_injective : Function.Injective threadNode :=
  nodeIn_injective .threads

theorem mem_threadNodes : threadNode thread ∈ threads.map threadNode ↔ thread ∈ threads :=
  List.mem_map_of_injective threadNode_injective

/-- The global list does not notice the run queues. -/
theorem ThreadsListed.queuesOnly (list : ThreadsListed lists threads)
    (queues : QueuesOnly lists after) : ThreadsListed after threads := by
  have same : ∀ thread, after.node (threadNode thread) = lists.node (threadNode thread) :=
    fun thread => queues.threadNode _ rfl
  refine ⟨?_, ?_, ?_⟩
  · have rep := list.listed
    refine ⟨?_, ?_, ?_, rep.bound, rep.nodup, rep.linked.congr ?_⟩
    · rw [queues.threads]
      exact rep.first
    · rw [queues.threads]
      exact rep.last
    · rw [queues.threads]
      exact rep.size
    · intro node member
      obtain ⟨other, _, isNode⟩ := List.mem_map.mp member
      rw [← isNode, same]
      exact ⟨rfl, rfl⟩
  · intro other absent
    rw [same]
    exact list.unlisted other absent
  · intro other member
    rw [same]
    exact list.named other member

/-- The run queues do not notice the global list. -/
theorem QueuesOnly.of_threads (queues : QueuesOnly lists lists)
    (heads : ∀ queue, queue ≠ .threads → after.list queue = lists.list queue)
    (links : ∀ node : NodePtr, node.field = .rqNode →
      (after.node node).next = (lists.node node).next ∧
        (after.node node).prev = (lists.node node).prev) : QueuesOnly after after where
  threadNode _ _ := rfl
  threads := rfl
  obj _ := rfl
  first queue running := by
    rw [heads queue running]
    exact queues.first queue running
  last queue running := by
    rw [heads queue running]
    exact queues.last queue running
  next node rq := by
    rw [(links node rq).1]
    exact queues.next node rq
  prev node rq := by
    rw [(links node rq).2]
    exact queues.prev node rq

theorem boundary_ne_rq {left right : List ThreadPtr} {node : NodePtr}
    (rq : node.field = .rqNode) : (left.map threadNode).getLast? ≠ some node ∧
      (right.map threadNode).head? ≠ some node := by
  have absent : ∀ list : List ThreadPtr, node ∉ list.map threadNode := by
    intro list member
    obtain ⟨thread, _, same⟩ := List.mem_map.mp member
    rw [← same] at rq
    cases rq
  exact ⟨fun last => absent left (List.mem_of_getLast? last),
    fun head => absent right (List.mem_of_head? head)⟩

theorem queuesOnly_of_removed {left right : List ThreadPtr} (queues : QueuesOnly lists lists)
    (removed : Removed lists after .threads (left.map threadNode) (right.map threadNode)
      (threadNode thread)) : QueuesOnly after after := by
  apply queues.of_threads removed.lists
  intro node rq
  have different : node ≠ threadNode thread := by
    intro same
    rw [same] at rq
    cases rq
  obtain ⟨notLast, notHead⟩ := @boundary_ne_rq left right node rq
  rw [removed.next, removed.prev, if_neg different, if_neg different, if_neg notLast,
    if_neg notHead]
  exact ⟨rfl, rfl⟩

theorem queuesOnly_of_inserted {right : List ThreadPtr} (queues : QueuesOnly lists lists)
    (inserted : Inserted lists after .threads [] (right.map threadNode) (threadNode thread)) :
    QueuesOnly after after := by
  apply queues.of_threads inserted.lists
  intro node rq
  have different : node ≠ threadNode thread := by
    intro same
    rw [same] at rq
    cases rq
  obtain ⟨_, notHead⟩ := @boundary_ne_rq [] right node rq
  rw [inserted.next, inserted.prev, if_neg different, if_neg different, if_neg notHead]
  exact ⟨by simp, rfl⟩

/-- Only a listed thread can be taken out of the global list. -/
theorem listed_of_dlistRemove (list : ThreadsListed lists threads) {removed : NodePtr}
    (returns : (dlistRemove (threadNode thread) .threads).run lists = .ok removed after) :
    thread ∈ threads := by
  by_contra absent
  have outside : threadNode thread ∉ threads.map threadNode := fun member =>
    absent (mem_threadNodes.mp member)
  have notFirst : ¬ some (threadNode thread) = (lists.list .threads).first := by
    intro same
    rw [list.listed.first] at same
    exact outside (List.mem_of_head? same.symm)
  have notLast : ¬ some (threadNode thread) = (lists.list .threads).last := by
    intro same
    rw [list.listed.last] at same
    exact outside (List.mem_of_getLast? same.symm)
  simp only [dlistRemove] at returns
  rw [Exec.run_bind_of_ok (EStateM.run_get lists), if_neg notFirst, if_neg notLast,
    (list.unlisted thread absent).1] at returns
  cases returns

theorem ThreadsListed.removed (list : ThreadsListed lists threads)
    (queues : QueuesOnly lists lists) (member : thread ∈ threads) :
    ∃ after, (dlistRemove (threadNode thread) .threads).run lists =
        .ok (threadNode thread) after ∧
      ThreadsListed after (threads.erase thread) ∧ QueuesOnly after after ∧
      ∀ node, (after.node node).obj = (lists.node node).obj := by
  obtain ⟨left, right, split⟩ := List.append_of_mem member
  have nodes : threads.map threadNode =
      left.map threadNode ++ threadNode thread :: right.map threadNode := by
    rw [split, List.map_append, List.map_cons]
  obtain ⟨after, returns, removed⟩ := dlistRemove_spec list.listed nodes
  have nodup : threads.Nodup := List.Nodup.of_map _ list.listed.nodup
  have erased : threads.erase thread = left ++ right := by
    rw [split] at nodup ⊢
    have absent : thread ∉ left := fun inLeft =>
      (List.nodup_append.mp nodup).2.2 thread inLeft thread List.mem_cons_self rfl
    rw [List.erase_append_right _ absent, List.erase_cons_head]
  have rep := list.listed
  rw [nodes] at rep
  refine ⟨after, returns, ⟨?_, ?_, ?_⟩, queuesOnly_of_removed queues removed, removed.obj⟩
  · rw [erased, List.map_append]
    exact rep.removed removed
  · intro other absent
    by_cases same : other = thread
    · rw [same, removed.prev, removed.next, if_pos rfl, if_pos rfl]
      exact ⟨rfl, rfl⟩
    · have unlisted : other ∉ threads := fun known =>
        absent ((List.mem_erase_of_ne same).mpr known)
      have different : threadNode other ≠ threadNode thread := fun equal =>
        same (threadNode_injective equal)
      have away : threadNode other ∉ left.map threadNode ++ right.map threadNode := by
        rw [← List.map_append, mem_threadNodes, ← erased]
        exact absent
      obtain ⟨prev, next⟩ := removed.outside different away
      rw [prev, next]
      exact list.unlisted other unlisted
  · intro other known
    rw [removed.obj]
    exact list.named other (List.mem_of_mem_erase known)

/-- A thread that is not listed goes to the front of the global list. -/
theorem ThreadsListed.inserted (list : ThreadsListed lists threads)
    (queues : QueuesOnly lists lists) (absent : thread ∉ threads)
    (object : (lists.node (threadNode thread)).obj = some thread)
    (room : threads.length + 1 < 2 ^ 32) :
    ∃ after, (dlistInsertFirst (threadNode thread) .threads).run lists = .ok () after ∧
      ThreadsListed after (thread :: threads) ∧ QueuesOnly after after ∧
      ∀ node, (after.node node).obj = (lists.node node).obj := by
  have outside : threadNode thread ∉ threads.map threadNode := fun member =>
    absent (mem_threadNodes.mp member)
  have links := list.unlisted thread absent
  have fresh : Fresh lists (threads.map threadNode) (threadNode thread) :=
    ⟨links.1, links.2, outside⟩
  obtain ⟨after, returns, inserted⟩ := dlistInsertFirst_spec list.listed fresh
  have enough : ([] ++ threads.map threadNode).length + 1 < 2 ^ 32 := by
    rw [List.nil_append, List.length_map]
    exact room
  have rep := Represents.inserted list.listed fresh enough inserted
  refine ⟨after, returns, ⟨rep, ?_, ?_⟩, queuesOnly_of_inserted queues inserted, inserted.obj⟩
  · intro other notListed
    have different : threadNode other ≠ threadNode thread := fun equal =>
      notListed (threadNode_injective equal ▸ List.mem_cons_self)
    have unlisted : other ∉ threads := fun known => notListed (List.mem_cons_of_mem _ known)
    have away : threadNode other ∉ [] ++ threads.map threadNode := fun member =>
      unlisted (mem_threadNodes.mp member)
    obtain ⟨prev, next⟩ := inserted.outside different away
    rw [prev, next]
    exact list.unlisted other unlisted
  · intro other known
    rw [inserted.obj]
    cases List.mem_cons.mp known with
    | inl same => rw [same]; exact object
    | inr old => exact list.named other old

end Lists

/-! ## The threads between two events -/

/-- In the global list, or about to be thrown out of the kernel. -/
def Reaches (kernel : Machine) (threads : List ThreadPtr) (thread : ThreadPtr) : Prop :=
  thread ∈ threads ∨ (kernel.thread thread).exitPending = true

theorem Reaches.keep {kernel after : Machine} {threads : List ThreadPtr} {thread : ThreadPtr}
    (reaches : Reaches kernel threads thread)
    (same : (after.thread thread).exitPending = (kernel.thread thread).exitPending) :
    Reaches after threads thread := by
  cases reaches with
  | inl listed => exact .inl listed
  | inr leaving => exact .inr (same.trans leaving)

/-- The kernel knows the threads in its lists, and owns their memory. -/
structure Tracks (linker : Linker) (threads : List ThreadPtr) (spare : List Nat)
    (kernel : Machine) : Prop where
  list : ThreadsListed kernel.lists threads
  below : ∀ thread ∈ threads, thread < 2 ^ 31
  still : Undisturbed kernel (Reaches kernel threads) kernel
  curr : Known (Reaches kernel threads) kernel.currThread
  next : Known (Reaches kernel threads) kernel.nextThread
  memory : Accounts linker kernel.mm
    (threads ++ KernelState.codes kernel.thread threads ++ spare)

theorem QueuesOnly.restart {base lists : KernelLists} (queues : QueuesOnly base lists) :
    QueuesOnly lists lists :=
  ⟨fun _ _ => rfl, rfl, fun _ => rfl, queues.first, queues.last, queues.next, queues.prev⟩

/-- Where scheduling can begin. -/
theorem undisturbed_self {known : ThreadPtr → Prop} {kernel : Machine}
    (queues : QueuesOnly kernel.lists kernel.lists)
    (objects : ∀ node thread, (kernel.lists.node node).obj = some thread → known thread)
    (rqList : ∀ thread, (kernel.thread thread).rqList ≠ some .threads)
    (idle : Known known kernel.idle) : Undisturbed kernel known kernel :=
  ⟨queues, objects, fun _ => ⟨rfl, rfl, rfl, rfl⟩, rqList, idle, rfl, rfl, rfl, rfl⟩

namespace Tracks

variable {linker : Linker} {threads : List ThreadPtr} {spare : List Nat}
  {kernel after : Machine} {thread : ThreadPtr}

/-- Scheduling keeps track of the threads. -/
theorem undisturbed (tracks : Tracks linker threads spare kernel)
    (moved : Undisturbed kernel (Reaches kernel threads) after) :
    Tracks linker threads spare after := by
  have keep : ∀ thread, Reaches kernel threads thread → Reaches after threads thread :=
    fun thread reaches => reaches.keep (moved.account thread).exitPending
  refine ⟨tracks.list.queuesOnly moved.lists, tracks.below, ?_, ?_, ?_, ?_⟩
  · exact undisturbed_self moved.lists.restart
      (fun node thread found => keep thread (moved.objects node thread found)) moved.rqList
      fun thread idle => keep thread (moved.idle thread idle)
  · intro thread found
    exact keep thread (tracks.curr thread (moved.currThread.symm.trans found))
  · intro thread found
    exact keep thread (tracks.next thread (moved.nextThread.symm.trans found))
  · have codes : KernelState.codes after.thread threads =
        KernelState.codes kernel.thread threads :=
      KernelState.codes_congr fun found _ => (moved.account found).codeAddr
    rw [codes, moved.mm]
    exact tracks.memory

/-- The rest of a control block may change, and so may what no list is about. -/
theorem update (tracks : Tracks linker threads spare kernel) (lists : after.lists = kernel.lists)
    (rqList : ∀ thread, (after.thread thread).rqList = (kernel.thread thread).rqList)
    (exits : ∀ thread, (kernel.thread thread).exitPending = true →
      (after.thread thread).exitPending = true)
    (codeAddr : ∀ thread, (after.thread thread).codeAddr = (kernel.thread thread).codeAddr)
    (mm : after.mm = kernel.mm) (idle : Known (Reaches kernel threads) after.idle)
    (curr : Known (Reaches kernel threads) after.currThread)
    (next : Known (Reaches kernel threads) after.nextThread) :
    Tracks linker threads spare after := by
  have keep : ∀ thread, Reaches kernel threads thread → Reaches after threads thread :=
    fun thread reaches => reaches.imp id (exits thread)
  refine ⟨lists ▸ tracks.list, tracks.below, ?_, fun thread found => keep thread (curr thread found),
    fun thread found => keep thread (next thread found), ?_⟩
  · apply undisturbed_self (lists ▸ tracks.still.lists)
    · intro node thread found
      rw [lists] at found
      exact keep thread (tracks.still.objects node thread found)
    · intro thread
      rw [rqList]
      exact tracks.still.rqList thread
    · exact fun thread found => keep thread (idle thread found)
  · have codes : KernelState.codes after.thread threads =
        KernelState.codes kernel.thread threads :=
      KernelState.codes_congr fun found _ => codeAddr found
    rw [codes, mm]
    exact tracks.memory

/-- What neither a list nor a control block holds may change. -/
theorem adjust (tracks : Tracks linker threads spare kernel) (lists : after.lists = kernel.lists)
    (same : after.thread = kernel.thread) (mm : after.mm = kernel.mm)
    (idle : Known (Reaches kernel threads) after.idle)
    (curr : Known (Reaches kernel threads) after.currThread)
    (next : Known (Reaches kernel threads) after.nextThread) :
    Tracks linker threads spare after := by
  refine tracks.update lists ?_ ?_ ?_ mm idle curr next
  · exact fun thread => congrArg Thread.rqList (congrFun same thread)
  · intro thread leaving
    rw [same]
    exact leaving
  · exact fun thread => congrArg Thread.codeAddr (congrFun same thread)

/-- Scheduling code that returns keeps track of the threads. -/
theorem keeps {Value : Type} {code : Exec Machine Value} {post : Value → Prop} {value : Value}
    (tracks : Tracks linker threads spare kernel)
    (quiet : Keeps (Undisturbed kernel (Reaches kernel threads)) code post)
    (returns : code.run kernel = .ok value after) :
    Undisturbed kernel (Reaches kernel threads) after ∧ post value :=
  quiet kernel value after tracks.still returns

end Tracks

end Vanilla.Kernel
