import Mathlib.Data.List.TakeWhile
import Vanilla.Kernel.DlistRefinement
import Vanilla.Kernel.Scheduler

/-! # The scheduler on sequences

The same kernel with its lists kept as sequences of threads. Each function of
the source becomes a total function of the model; what it needs in order not to
fault is stated where the machine is compared with the model.
-/

namespace Vanilla.Kernel

open Mm

/-- What the lists of `cpu_rq` hold, and the `obj` fields of all nodes. -/
structure Queues where
  queue : QueueId → List ThreadPtr
  obj : NodePtr → Option ThreadPtr

abbrev Model := KernelState Queues

/-- The node that links a thread into a list. -/
def nodeIn : QueueId → ThreadPtr → NodePtr
  | .threads => threadNode
  | _ => rqNode

theorem nodeIn_injective (queue : QueueId) : Function.Injective (nodeIn queue) := by
  intro left right equal
  cases queue <;> exact congrArg NodePtr.thread equal

@[simp] theorem nodeIn_thread (queue : QueueId) (thread : ThreadPtr) :
    (nodeIn queue thread).thread = thread := by
  cases queue <;> rfl

/-- The queues a run-queue node can be in. -/
def QueueId.Running (queue : QueueId) : Prop := queue ≠ .threads

theorem nodeIn_of_running {queue : QueueId} (running : queue.Running) (thread : ThreadPtr) :
    nodeIn queue thread = rqNode thread := by
  cases queue with
  | threads => exact absurd rfl running
  | _ => rfl

namespace KernelState

variable (model : Model)

def queue (queue : QueueId) : List ThreadPtr := model.lists.queue queue

def setQueue (queue : QueueId) (sequence : List ThreadPtr) : Model :=
  { model with
    lists := { model.lists with
      queue := Function.update model.lists.queue queue sequence } }

def append (queue : QueueId) (thread : ThreadPtr) : Model :=
  model.setQueue queue (model.queue queue ++ [thread])

def remove (queue : QueueId) (thread : ThreadPtr) : Model :=
  model.setQueue queue ((model.queue queue).erase thread)

/-! ## Fields after an update -/

section Fields

variable (queue other : QueueId) (sequence : List ThreadPtr) (thread : ThreadPtr)
  (change : Thread → Thread)

@[simp] theorem queue_setQueue_self :
    (model.setQueue queue sequence).queue queue = sequence := by
  simp [KernelState.queue, setQueue]

theorem queue_setQueue_of_ne (different : other ≠ queue) :
    (model.setQueue queue sequence).queue other = model.queue other := by
  simp [KernelState.queue, setQueue, different]

@[simp] theorem queue_setThread :
    (model.setThread thread change).queue other = model.queue other := rfl

@[simp] theorem thread_setQueue : (model.setQueue queue sequence).thread = model.thread := rfl

@[simp] theorem thread_setThread_self :
    (model.setThread thread change).thread thread = change (model.thread thread) := by
  simp [KernelState.setThread]

@[simp] theorem setThread_id : model.setThread thread (fun fields => fields) = model := by
  simp [KernelState.setThread]

theorem thread_setThread_of_ne {thread other : ThreadPtr} (different : other ≠ thread) :
    (model.setThread thread change).thread other = model.thread other := by
  simp [KernelState.setThread, different]

end Fields

/-! ## The functions of the source -/

/-- The run queue of a class; the idle class has none. -/
def runQueue : SchedClass → Option QueueId
  | .realTime => some .rtRq
  | .application => some .appRq
  | .background => some .backgroundRq
  | .idle => none

/-- What a class writes to `rq_list` when it enqueues. -/
def enqueuedFields (fields : Thread) : Thread :=
  match fields.schedClass with
  | .realTime => { fields with rqList := some .rtRq }
  | _ => fields

def enqueue (thread : ThreadPtr) : Model :=
  match runQueue (model.thread thread).schedClass with
  | some queue => (model.append queue thread).setThread thread enqueuedFields
  | none => { model with idle := some thread }

/-- What a pick writes to `rq_list`: only `rt_pick_thread` clears it. -/
def pickedFields (queue : QueueId) (fields : Thread) : Thread :=
  match queue with
  | .rtRq => { fields with rqList := none }
  | _ => fields

/-- The queues in the order the core scheduler asks them. -/
def pickOrder : List QueueId := [.rtRq, .appRq, .backgroundRq]

def pickFrom : List QueueId → Model → Option (ThreadPtr × Model)
  | [], model => model.idle.map fun idle => (idle, model)
  | queue :: rest, model =>
      match model.queue queue with
      | [] => pickFrom rest model
      | thread :: others =>
          some (thread, (model.setQueue queue others).setThread thread (pickedFields queue))

def pick : Option (ThreadPtr × Model) := pickFrom pickOrder model

def tickToWakeUpdate : Model :=
  match model.queue .sleepQ with
  | [] => { model with rqTickToWake := 0 }
  | thread :: _ => { model with rqTickToWake := (model.thread thread).tickToWake }

/-- Move a thread from the sleep queue to the run queue of its class. -/
def wake (thread : ThreadPtr) : Model :=
  let model := model.remove .sleepQ thread
  let model := model.setThread thread fun fields => { fields with rqList := none }
  let model := model.enqueue thread
  model.setThread thread fun fields => { fields with tickToWake := 0 }

/-- One SysTick wakes at most the first sleeper: the loop goes on with the next
node of the run queue, and there is none. -/
def wakeFirst : Model :=
  match model.queue .sleepQ with
  | [] => model
  | thread :: _ =>
      if (model.thread thread).tickToWake < model.tick then model.wake thread else model

def processExpiredDelays : Model :=
  if model.rqTickToWake ≤ model.tick ∧ model.rqTickToWake ≠ 0 then
    model.wakeFirst.tickToWakeUpdate
  else model

/-- The place of a thread among sleepers in order of their ticks. -/
def delayed (ticks : ThreadPtr → Nat) (thread : ThreadPtr) (sleepers : List ThreadPtr) :
    List ThreadPtr :=
  sleepers.takeWhile (fun other => decide (ticks other ≤ ticks thread)) ++
    thread :: sleepers.dropWhile (fun other => decide (ticks other ≤ ticks thread))

def enqueueDelay (thread : ThreadPtr) : Model :=
  let model := model.setQueue .sleepQ
    (delayed (fun other => (model.thread other).tickToWake) thread (model.queue .sleepQ))
  let model := model.setThread thread fun fields => { fields with rqList := some .sleepQ }
  model.tickToWakeUpdate

def reschedule : Model := { model with reschedulePending := true, systickPending := true }

/-- The tick a sleep of `ms` milliseconds ends at. -/
def wakeTick (tick ms : Nat) : Nat := u64 (tick + u64 (ms * systickRvr))

def threadSleep (curr : ThreadPtr) (ms : Nat) : Model :=
  let model := model.setThread curr fun fields =>
    { fields with tickToWake := wakeTick model.tick ms }
  (model.enqueueDelay curr).reschedule

/-- The run time of the slice that a SysTick ends. -/
def slice (cvr : Nat) : Nat :=
  if model.reschedulePending then u32Sub systickRvr cvr else systickRvr

def closeWindow (fields : Thread) : Thread :=
  { fields with runtimeCurr := fields.runtimeNew, runtimeNew := 0 }

def calculateRuntime : Model :=
  (model.queue .threads).foldl (fun model thread => model.setThread thread closeWindow) model

def accountRuntime (curr : ThreadPtr) (cvr : Nat) : Model :=
  let runtime := model.slice cvr
  let model := { model with
    reschedulePending := false
    tick := u64 (model.tick + runtime)
    statsTick := u64 (model.statsTick + runtime) }
  let model := model.setThread curr fun fields =>
    { fields with runtimeNew := u64 (fields.runtimeNew + runtime) }
  if systickRvr * 1000 ≤ model.statsTick then
    { model with statsTick := 0 }.calculateRuntime
  else model

def requeueCurrThread (curr : ThreadPtr) : Model :=
  if (model.thread curr).tickToWake = 0 then model.enqueue curr else model

/-- Take a thread out of the lists, with the memory its blocks go back to. -/
def removeThread (curr : ThreadPtr) (mm : MmState) : Model :=
  let model := model.remove .threads curr
  let model :=
    match (model.thread curr).rqList with
    | some list => model.remove list curr
    | none => model
  { model with mm, currThread := none }

/-- The SysTick up to the point where exits are handled. -/
def beforePick (curr : ThreadPtr) (cvr : Nat) : Model :=
  ((model.accountRuntime curr cvr).processExpiredDelays).requeueCurrThread curr

def block (thread : ThreadPtr) (list : QueueId) : Model :=
  ((model.remove list thread).append .blockedQ thread).setThread thread fun fields =>
    { fields with rqList := some .blockedQ }

def unblock (thread : ThreadPtr) : Model :=
  let model := model.remove .blockedQ thread
  let model := model.setThread thread fun fields => { fields with tickToWake := 0 }
  (model.append .rtRq thread).setThread thread fun fields =>
    { fields with rqList := some .rtRq }

def findThread (tid : Nat) : Option ThreadPtr :=
  (model.queue .threads).find? fun thread => decide ((model.thread thread).tid = tid)

/-- The fields of a new control block; `tid` is its thread ID. -/
def newFields (info : ThreadInfo) (tid : Nat) : Thread where
  rqList := match info.schedClass with
    | .realTime => some .rtRq
    | _ => none
  schedClass := info.schedClass
  tid := tid
  codeAddr := info.codeAddr

def initNode (node : NodePtr) : Model :=
  { model with lists := { model.lists with
      obj := Function.update model.lists.obj node (some node.thread) } }

/-- The kernel once the control block at `thread` is filled in, with memory as
`mm` has it. -/
def createThread (info : ThreadInfo) (thread : ThreadPtr) (mm : MmState) : Model :=
  let tid := model.nextTid
  let model := { model with mm, schedulerStatus := true, nextTid := u32 (tid + 1) }
  let model := initNode (initNode model (rqNode thread)) (threadNode thread)
  model.setThread thread fun _ => newFields info tid

def newThread (info : ThreadInfo) (thread : ThreadPtr) (mm : MmState) : Model :=
  let model := model.createThread info thread mm
  let model :=
    match runQueue info.schedClass with
    | some queue => model.append queue thread
    | none => { model with idle := some thread }
  model.setQueue .threads (thread :: model.queue .threads)

end KernelState

end Vanilla.Kernel
