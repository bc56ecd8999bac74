import Vanilla.Kernel.Dlist
import Vanilla.Mm.Pmalloc

/-! # Threads and the scheduler

`scheduler.c`, `thread.c`, the four scheduling classes and the part of
`context.s` that decides which thread runs. A thread is known by the address of
its control block. What is in its stack plays no part in scheduling and is left
out, as are names and print-outs.
-/

namespace Vanilla.Kernel

open Mm DlistStore

abbrev ThreadPtr := Nat

inductive SchedClass where
  | realTime
  | application
  | background
  | idle
deriving DecidableEq, Repr

/-- The lists of `struct rq`. -/
inductive QueueId where
  | appRq
  | backgroundRq
  | rtRq
  | sleepQ
  | blockedQ
  | threads
deriving DecidableEq, Repr

inductive NodeField where
  | rqNode
  | threadNode
deriving DecidableEq, Repr

/-- The address of one of the two nodes in a control block. -/
structure NodePtr where
  thread : ThreadPtr
  field : NodeField
deriving DecidableEq, Repr

/-- `struct thread`, less its nodes, stack pointers and name. -/
structure Thread where
  rqList : Option QueueId := none
  schedClass : SchedClass := .idle
  tickToWake : Nat := 0
  runtimeCurr : Nat := 0
  runtimeNew : Nat := 0
  tid : Nat := 0
  exitPending : Bool := false
  codeAddr : Nat := 0
deriving DecidableEq, Repr

/-- The globals of the kernel and the pending bits of the two exceptions that
switch threads. `Lists` is how the lists of `cpu_rq` are kept. -/
structure KernelState (Lists : Type) where
  lists : Lists
  thread : ThreadPtr → Thread := fun _ => {}
  idle : Option ThreadPtr := none
  /-- `cpu_rq.tick_to_wake` -/
  rqTickToWake : Nat := 0
  currThread : Option ThreadPtr := none
  nextThread : Option ThreadPtr := none
  schedulerStatus : Bool := false
  tick : Nat := 0
  statsTick : Nat := 0
  reschedulePending : Bool := false
  /-- The next thread ID, static in `new_thread`. -/
  nextTid : Nat := 1
  mm : MmState
  systickEnabled : Bool := false
  systickPending : Bool := false
  pendsvPending : Bool := false

abbrev KernelLists := DlistStore NodePtr QueueId ThreadPtr

/-- The machine: lists are nodes and pointers. -/
abbrev Machine := KernelState KernelLists

def systickRvr : Nat := 300000

def sizeofThread : Nat := 120

/-- `struct thread_info`, less the name, entry point and argument. -/
structure ThreadInfo where
  stackSize : Nat
  schedClass : SchedClass
  codeAddr : Nat := 0
deriving DecidableEq, Repr

section Access

variable {Value : Type}

def onLists (body : Exec KernelLists Value) : Exec Machine Value :=
  Exec.zoom KernelState.lists (fun lists kernel => { kernel with lists }) body

def onMm (body : Exec MmState Value) : Exec Machine Value :=
  Exec.zoom KernelState.mm (fun mm kernel => { kernel with mm }) body

end Access

def KernelState.setThread {Lists : Type} (kernel : KernelState Lists) (thread : ThreadPtr)
    (change : Thread → Thread) : KernelState Lists :=
  { kernel with
    thread := Function.update kernel.thread thread (change (kernel.thread thread)) }

def setThread (thread : ThreadPtr) (change : Thread → Thread) : Exec Machine Unit :=
  modify fun kernel => kernel.setThread thread change

/-- `(struct thread *)node->obj`, which is dereferenced by every caller. -/
def nodeThread (node : NodePtr) : Exec Machine ThreadPtr := do
  let kernel ← get
  Exec.deref (kernel.lists.node node).obj

def rqNode (thread : ThreadPtr) : NodePtr := ⟨thread, .rqNode⟩

def threadNode (thread : ThreadPtr) : NodePtr := ⟨thread, .threadNode⟩

/-! ## Scheduling classes -/

/-- `struct scheduling_class`; a member the class leaves out is `NULL`. -/
structure SchedulingClass where
  pickThread : Exec Machine (Option ThreadPtr)
  enqueue : ThreadPtr → Exec Machine Unit
  unblock : Option (ThreadPtr → Exec Machine Unit) := none
  block : Option (ThreadPtr → Exec Machine Unit) := none

/-- Take the first thread off a run queue. -/
def pickFirst (queue : QueueId) : Exec Machine (Option ThreadPtr) := do
  let kernel ← get
  match (kernel.lists.list queue).first with
  | none => return none
  | some _ =>
      let node ← onLists (dlistRemoveFirst queue)
      let thread ← nodeThread node
      return some thread

def rtPickThread : Exec Machine (Option ThreadPtr) := do
  match ← pickFirst .rtRq with
  | none => return none
  | some thread =>
      setThread thread fun fields => { fields with rqList := none }
      return some thread

def rtEnqueue (thread : ThreadPtr) : Exec Machine Unit := do
  onLists (dlistInsertLast (rqNode thread) .rtRq)
  setThread thread fun fields => { fields with rqList := some .rtRq }

def rtBlock (thread : ThreadPtr) : Exec Machine Unit := do
  let kernel ← get
  match (kernel.thread thread).rqList with
  | some .blockedQ => return
  | none => Exec.fault .nullDereference
  | some list =>
      let _ ← onLists (dlistRemove (rqNode thread) list)
      onLists (dlistInsertLast (rqNode thread) .blockedQ)
      setThread thread fun fields => { fields with rqList := some .blockedQ }

def rtUnblock (thread : ThreadPtr) : Exec Machine Unit := do
  let kernel ← get
  if (kernel.thread thread).rqList ≠ some .blockedQ then
    return
  let _ ← onLists (dlistRemove (rqNode thread) .blockedQ)
  setThread thread fun fields => { fields with tickToWake := 0 }
  onLists (dlistInsertLast (rqNode thread) .rtRq)
  setThread thread fun fields => { fields with rqList := some .rtRq }

def rtClass : SchedulingClass where
  pickThread := rtPickThread
  enqueue := rtEnqueue
  unblock := some rtUnblock
  block := some rtBlock

def appPickThread : Exec Machine (Option ThreadPtr) := pickFirst .appRq

/-- Unlike `rt_enqueue`, this leaves `rq_list` as it is. -/
def appEnqueue (thread : ThreadPtr) : Exec Machine Unit :=
  onLists (dlistInsertLast (rqNode thread) .appRq)

def appClass : SchedulingClass where
  pickThread := appPickThread
  enqueue := appEnqueue

def backgroundPickThread : Exec Machine (Option ThreadPtr) := pickFirst .backgroundRq

def backgroundEnqueue (thread : ThreadPtr) : Exec Machine Unit :=
  onLists (dlistInsertLast (rqNode thread) .backgroundRq)

def backgroundClass : SchedulingClass where
  pickThread := backgroundPickThread
  enqueue := backgroundEnqueue

def idlePickThread : Exec Machine (Option ThreadPtr) := do
  let kernel ← get
  return kernel.idle

def idleEnqueue (thread : ThreadPtr) : Exec Machine Unit :=
  modify fun kernel => { kernel with idle := some thread }

def idleClass : SchedulingClass where
  pickThread := idlePickThread
  enqueue := idleEnqueue

def SchedClass.table : SchedClass → SchedulingClass
  | .realTime => rtClass
  | .application => appClass
  | .background => backgroundClass
  | .idle => idleClass

/-- The order of the `next` links, from `rt_class` on. -/
def schedulingClasses : List SchedulingClass := [rtClass, appClass, backgroundClass, idleClass]

/-- `thread->class->enqueue(thread, &cpu_rq)` -/
def enqueue (thread : ThreadPtr) : Exec Machine Unit := do
  let kernel ← get
  (kernel.thread thread).schedClass.table.enqueue thread

/-! ## The core scheduler -/

def pickFrom : List SchedulingClass → Exec Machine (Option ThreadPtr)
  | [] => Exec.panic "Core scheduler error"
  | schedClass :: rest => do
      match ← schedClass.pickThread with
      | some thread => return some thread
      | none => pickFrom rest

def coreScheduler : Exec Machine (Option ThreadPtr) := pickFrom schedulingClasses

/-- The loop of `get_thread`. -/
def findThread (tid : Nat) : Nat → Option NodePtr → Exec Machine (Option ThreadPtr)
  | _, none => return none
  | 0, some _ => Exec.fault .diverges
  | rounds + 1, some it => do
      let thread ← nodeThread it
      let kernel ← get
      if (kernel.thread thread).tid = tid then
        return some thread
      findThread tid rounds (kernel.lists.node it).next

def getThread (tid : Nat) : Exec Machine (Option ThreadPtr) := do
  let kernel ← get
  findThread tid loopRounds (kernel.lists.list .threads).first

/-! ## Sleeping -/

def tickToWakeUpdate : Exec Machine Unit := do
  let kernel ← get
  match (kernel.lists.list .sleepQ).first with
  | some node =>
      let thread ← nodeThread node
      modify fun kernel => { kernel with rqTickToWake := (kernel.thread thread).tickToWake }
  | none => modify fun kernel => { kernel with rqTickToWake := 0 }

/-- The loop of `process_expired_delays`. The next node is read after the
thread has been enqueued elsewhere. -/
def wakeExpired : Nat → Option NodePtr → Exec Machine Unit
  | _, none => return
  | 0, some _ => Exec.fault .diverges
  | rounds + 1, some iter => do
      let thread ← nodeThread iter
      let kernel ← get
      if (kernel.thread thread).tickToWake < kernel.tick then
        let _ ← onLists (dlistRemove iter .sleepQ)
        setThread thread fun fields => { fields with rqList := none }
        enqueue thread
        setThread thread fun fields => { fields with tickToWake := 0 }
        let kernel ← get
        wakeExpired rounds (kernel.lists.node iter).next
      else
        return

def processExpiredDelays : Exec Machine Unit := do
  let kernel ← get
  if kernel.rqTickToWake ≤ kernel.tick ∧ kernel.rqTickToWake ≠ 0 then
    wakeExpired loopRounds (kernel.lists.list .sleepQ).first
    tickToWakeUpdate

/-- The loop of `scheduler_enqueue_delay`. -/
def insertDelay (thread : ThreadPtr) : Nat → Option NodePtr → Exec Machine Unit
  | _, none => onLists (dlistInsertLast (rqNode thread) .sleepQ)
  | 0, some _ => Exec.fault .diverges
  | rounds + 1, some iter => do
      let other ← nodeThread iter
      let kernel ← get
      if (kernel.thread thread).tickToWake < (kernel.thread other).tickToWake then
        onLists (dlistInsertBefore (rqNode thread) iter .sleepQ)
      else
        insertDelay thread rounds (kernel.lists.node iter).next

def schedulerEnqueueDelay (thread : ThreadPtr) : Exec Machine Unit := do
  let kernel ← get
  match (kernel.lists.list .sleepQ).first with
  | none => onLists (dlistInsertFirst (rqNode thread) .sleepQ)
  | some iter => insertDelay thread loopRounds (some iter)
  setThread thread fun fields => { fields with rqList := some .sleepQ }
  tickToWakeUpdate

/-- Pends the SysTick exception. -/
def reschedule : Exec Machine Unit :=
  modify fun kernel => { kernel with reschedulePending := true, systickPending := true }

/-- `thread_sleep`, with the `u64` the system call makes of its 32-bit argument. -/
def threadSleep (ms : Nat) : Exec Machine Unit := do
  let kernel ← get
  let curr ← Exec.deref kernel.currThread
  setThread curr fun fields =>
    { fields with tickToWake := u64 (kernel.tick + u64 (ms * systickRvr)) }
  schedulerEnqueueDelay curr
  reschedule

/-! ## The SysTick exception -/

/-- `get_curr_thread_runtime`; `cvr` is what the counter register reads. -/
def getCurrThreadRuntime (cvr : Nat) : Exec Machine Nat := do
  let kernel ← get
  if kernel.reschedulePending then
    set { kernel with reschedulePending := false }
    return u32Sub systickRvr cvr
  else
    return systickRvr

/-- The loop of `calculate_runtime`. -/
def closeWindows : Nat → Option NodePtr → Exec Machine Unit
  | _, none => return
  | 0, some _ => Exec.fault .diverges
  | rounds + 1, some iter => do
      let thread ← nodeThread iter
      setThread thread fun fields =>
        { fields with runtimeCurr := fields.runtimeNew, runtimeNew := 0 }
      let kernel ← get
      closeWindows rounds (kernel.lists.node iter).next

def calculateRuntime : Exec Machine Unit := do
  let kernel ← get
  closeWindows loopRounds (kernel.lists.list .threads).first

/-- The accounting at the start of `systick_exception`. -/
def accountRuntime (cvr : Nat) : Exec Machine Unit := do
  let currRuntime ← getCurrThreadRuntime cvr
  modify fun kernel => { kernel with
    tick := u64 (kernel.tick + currRuntime)
    statsTick := u64 (kernel.statsTick + currRuntime) }
  let kernel ← get
  let curr ← Exec.deref kernel.currThread
  setThread curr fun fields =>
    { fields with runtimeNew := u64 (fields.runtimeNew + currRuntime) }
  if systickRvr * 1000 ≤ kernel.statsTick then
    modify fun kernel => { kernel with statsTick := 0 }
    calculateRuntime

/-- Enqueue the preempted thread unless it went to sleep. -/
def requeueCurrThread : Exec Machine Unit := do
  let kernel ← get
  let curr ← Exec.deref kernel.currThread
  if (kernel.thread curr).tickToWake = 0 then
    enqueue curr

/-- Take a thread out of the list it is enqueued in, as far as `rq_list` knows. -/
def removeFromRq (thread : ThreadPtr) : Exec Machine Unit := do
  let kernel ← get
  match (kernel.thread thread).rqList with
  | some list =>
      let _ ← onLists (dlistRemove (rqNode thread) list)
      return
  | none => return

/-- Verify that the thread does not exist in any list. -/
def verifyRemoved (thread : ThreadPtr) : Exec Machine Unit := do
  let kernel ← get
  if (kernel.lists.node (rqNode thread)).next ≠ none ∨
      (kernel.lists.node (rqNode thread)).prev ≠ none ∨
      (kernel.lists.node (threadNode thread)).next ≠ none ∨
      (kernel.lists.node (threadNode thread)).prev ≠ none then
    Exec.panic "Exiting thread exist in a list"

/-- Delete the memory footprint of a thread: its code, if it was loaded, and its
control block. -/
def deleteThread (codeAddr : Nat) (thread : ThreadPtr) : Exec MmState Unit := do
  if codeAddr ≠ 0 then
    mmFree codeAddr
  mmFree thread

/-- `scheduler_remove_thread`, always called with `curr_thread`. -/
def schedulerRemoveThread : Exec Machine Unit := do
  let kernel ← get
  let curr ← Exec.deref kernel.currThread
  let _ ← onLists (dlistRemove (threadNode curr) .threads)
  removeFromRq curr
  verifyRemoved curr
  let kernel ← get
  onMm (deleteThread (kernel.thread curr).codeAddr curr)
  modify fun kernel => { kernel with currThread := none }

def removeExitedThread : Exec Machine Unit := do
  let kernel ← get
  let curr ← Exec.deref kernel.currThread
  if (kernel.thread curr).exitPending then
    schedulerRemoveThread

/-- `systick_exception`, with the value of the counter register. -/
def systickException (cvr : Nat) : Exec Machine Unit := do
  let kernel ← get
  if kernel.schedulerStatus then
    accountRuntime cvr
    processExpiredDelays
    requeueCurrThread
    removeExitedThread
    let next ← coreScheduler
    modify fun kernel => { kernel with nextThread := next, pendsvPending := true }

/-- `pendsv_exception`, which loads the registers of `next_thread`. -/
def pendsvException : Exec Machine Unit := do
  let kernel ← get
  let next ← Exec.deref kernel.nextThread
  set { kernel with currThread := some next, pendsvPending := false }

/-! ## Threads -/

def suspendScheduler : Exec Machine Unit :=
  modify fun kernel => { kernel with schedulerStatus := false }

def resumeScheduler : Exec Machine Unit :=
  modify fun kernel => { kernel with schedulerStatus := true }

/-- The pages for a control block and a stack of `stackSize` words. -/
def threadPages (stackSize : Nat) : Nat :=
  let size := u32 (sizeofThread + u32 (stackSize * 4))
  if size % 512 ≠ 0 then size / 512 + 1 else size / 512

def newThread (info : ThreadInfo) : Exec Machine Nat := do
  suspendScheduler
  let thread ← onMm (pmalloc (threadPages info.stackSize) .dramBank3)
  onLists (modify (setObj (rqNode thread) (some thread)))
  onLists (modify (setObj (threadNode thread) (some thread)))
  setThread thread fun fields => { fields with schedClass := info.schedClass }
  onLists (dlistUnlink (rqNode thread))
  onLists (dlistUnlink (threadNode thread))
  setThread thread fun fields => { fields with rqList := none }
  enqueue thread
  onLists (dlistInsertFirst (threadNode thread) .threads)
  let kernel ← get
  let tid := kernel.nextTid
  set { kernel with nextTid := u32 (tid + 1) }
  setThread thread fun fields => { fields with
    tickToWake := 0, runtimeCurr := 0, runtimeNew := 0, tid, exitPending := false,
    codeAddr := info.codeAddr }
  resumeScheduler
  return tid

/-- `thread_exit`, up to its endless loop. -/
def threadExit : Exec Machine Unit := do
  let kernel ← get
  let curr ← Exec.deref kernel.currThread
  setThread curr fun fields => { fields with exitPending := true }

def killThread (tid : Nat) : Exec Machine Unit := do
  suspendScheduler
  match ← getThread tid with
  | some thread => setThread thread fun fields => { fields with exitPending := true }
  | none => pure ()
  resumeScheduler

/-- The common part of `scheduler_block_thread` and `scheduler_unblock_thread`:
`operation` is the member of the class to call. -/
def onOtherThread (operation : SchedulingClass → Option (ThreadPtr → Exec Machine Unit))
    (thread : Option ThreadPtr) : Exec Machine Unit := do
  let kernel ← get
  if thread = kernel.currThread then
    reschedule
    -- whenever this thread runs on, it is `curr_thread` again
    Exec.panic "ERROR"
  let thread ← Exec.deref thread
  match operation (kernel.thread thread).schedClass.table with
  | some operation => operation thread
  | none => Exec.fault .nullDereference

def threadBlock (tid : Nat) : Exec Machine Unit := do
  let thread ← getThread tid
  onOtherThread SchedulingClass.block thread

def threadUnblock (tid : Nat) : Exec Machine Unit := do
  let thread ← getThread tid
  onOtherThread SchedulingClass.unblock thread

def idleInfo : ThreadInfo where
  stackSize := 100
  schedClass := .idle

/-- `scheduler_start`, up to the first thread. -/
def schedulerStart : Exec Machine Unit := do
  modify fun kernel => { kernel with schedulerStatus := true, rqTickToWake := 0 }
  let idleTid ← newThread idleInfo
  let idle ← getThread idleTid
  modify fun kernel => { kernel with idle }
  let next ← coreScheduler
  modify fun kernel => { kernel with nextThread := next, currThread := next }
  let kernel ← get
  if kernel.idle = none then
    Exec.panic "Idle not present"
  set { kernel with systickEnabled := true }

/-- The kernel at power-up: `cpu_rq` is zero and `mm_init` has run. -/
def boot (linker : Linker) (memory : ByteMemory) : Machine where
  lists := { node := fun _ => {}, list := fun _ => {} }
  mm := mmInit linker memory

end Vanilla.Kernel
