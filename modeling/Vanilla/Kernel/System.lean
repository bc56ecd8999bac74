import Vanilla.Foundation.Run
import Vanilla.Kernel.Creation
import Vanilla.Kernel.Memory

/-! # Runs of the kernel

The kernel as its threads, its interrupt handlers and the hardware drive it: any
interleaving of calls, SysTicks and PendSVs that the priorities allow.
-/

namespace Vanilla.Kernel

open Mm

/-- The kernel, with the pointers somebody other than a thread has got from
`pmalloc`. -/
structure System where
  kernel : Machine
  spare : List Nat

inductive Event where
  | newThread (info : ThreadInfo)
  | start
  | sleep (ms : Nat)
  | systick (cvr : Nat)
  | pendsv
  | block (tid : Nat)
  | unblock (tid : Nat)
  | exit
  | kill (tid : Nat)
  | allocate (count : Nat) (bank : PhysmemE)
  | release (pointer : Nat)
deriving DecidableEq

def onKernel {Value : Type} (body : Exec Machine Value) : Exec System Value :=
  Exec.zoom System.kernel (fun kernel system => { system with kernel }) body

/-- The hardware clears the pending bit of an exception it enters. -/
def enterSystick : Exec Machine Unit :=
  modify fun kernel => { kernel with systickPending := false }

theorem run_enterSystick (kernel : Machine) :
    enterSystick.run kernel = .ok () { kernel with systickPending := false } :=
  rfl

/-- The code an event runs. A new thread takes over the block its code is in. -/
def perform : Event → Exec System Unit
  | .newThread info => do
      let _ ← onKernel (newThread info)
      modify fun system => { system with spare := system.spare.erase info.codeAddr }
  | .start => onKernel schedulerStart
  | .sleep ms => onKernel (threadSleep ms)
  | .systick cvr => onKernel (do
      enterSystick
      systickException cvr)
  | .pendsv => onKernel pendsvException
  | .block tid => onKernel (threadBlock tid)
  | .unblock tid => onKernel (threadUnblock tid)
  | .exit => onKernel threadExit
  | .kill tid => onKernel (killThread tid)
  | .allocate count bank => do
      let pointer ← onKernel (onMm (pmalloc count bank))
      modify fun system => { system with spare := pointer :: system.spare }
  | .release pointer => do
      onKernel (onMm (mmFree pointer))
      modify fun system => { system with spare := system.spare.erase pointer }

/-! ## What can happen when -/

/-- The thread `get_thread` finds. -/
def threadOf (kernel : Machine) (tid : Nat) : Option ThreadPtr :=
  match (getThread tid).run kernel with
  | .ok found _ => found
  | .error _ _ => none

/-- A thread other than the idle one runs, so no exception is pending. -/
def threadMode (kernel : Machine) : Bool :=
  kernel.systickEnabled && !kernel.systickPending && !kernel.pendsvPending &&
    kernel.currThread.any fun curr => decide ((kernel.thread curr).schedClass ≠ .idle)

/-- What callers and the hardware promise. A thread sleeps and exits through a
system call of its own. -/
def Enabled (system : System) : Event → Prop
  | .newThread info => info.schedClass ≠ .idle ∧ sizeofThread + info.stackSize * 4 < 2 ^ 32 ∧
      (info.codeAddr = 0 ∨ info.codeAddr ∈ system.spare)
  | .start => system.kernel.systickEnabled = false
  | .sleep ms => ms < 2 ^ 32 ∧ threadMode system.kernel = true
  | .systick cvr => system.kernel.systickEnabled = true ∧ cvr ≤ systickRvr
  | .pendsv => system.kernel.pendsvPending = true
  | .block tid => (threadOf system.kernel tid).isSome = true
  | .unblock tid => (threadOf system.kernel tid).isSome = true
  | .exit => threadMode system.kernel = true
  | .kill _ => True
  | .allocate _ _ => True
  | .release pointer => pointer ∈ system.spare

instance (system : System) (event : Event) : Decidable (Enabled system event) := by
  cases event <;> unfold Enabled <;> infer_instance

inductive Step : System → Event → System → Prop where
  | intro {before after : System} {event : Event} : Enabled before event →
      (perform event).run before = .ok () after → Step before event after

/-- The system after `mm_init`, before the first thread. -/
def powerUp (linker : Linker) (memory : ByteMemory) : System where
  kernel := boot linker memory
  spare := []

def Reachable (linker : Linker) (system : System) : Prop :=
  ∃ memory events, Run Step (powerUp linker memory) events system

/-- Run events that are enabled and do not fault. -/
def performAll : List Event → System → Option System
  | [], system => some system
  | event :: rest, system =>
      if Enabled system event then
        match (perform event).run system with
        | .ok _ after => performAll rest after
        | .error _ _ => none
      else none

theorem run_of_performAll {events : List Event} {before after : System}
    (returns : performAll events before = some after) : Run Step before events after := by
  induction events generalizing before with
  | nil =>
      cases returns
      exact .nil _
  | cons event rest induction =>
      simp only [performAll] at returns
      split at returns
      · rename_i enabled
        cases outcome : (perform event).run before with
        | ok value between =>
            rw [outcome] at returns
            exact .cons (.intro enabled outcome) (induction returns)
        | error reason between =>
            rw [outcome] at returns
            cases returns
      · cases returns

/-! ## Where the scheduler is sound -/

/-- The thread the next SysTick wakes. -/
def woken (kernel : Machine) (cvr : Nat) : Option ThreadPtr :=
  let runtime := if kernel.reschedulePending then u32Sub systickRvr cvr else systickRvr
  let tick := u64 (kernel.tick + runtime)
  if kernel.rqTickToWake ≤ tick ∧ kernel.rqTickToWake ≠ 0 then
    ((kernel.lists.list .sleepQ).first.map NodePtr.thread).filter fun thread =>
      decide ((kernel.thread thread).tickToWake < tick)
  else none

/-- The running thread has gone to sleep. -/
def currSleeps (kernel : Machine) : Bool :=
  kernel.currThread.any fun curr => decide ((kernel.thread curr).tickToWake ≠ 0)

/-- A SysTick before the PendSV of the one before: the thread chosen then is the
one that runs, or it is the idle thread and the one that runs sleeps. -/
def Switched (kernel : Machine) : Prop :=
  kernel.pendsvPending = true →
    kernel.nextThread = kernel.currThread ∨
      kernel.nextThread = kernel.idle ∧ currSleeps kernel = true

/-- The thread that goes to sleep is not woken before it is switched out. -/
def SleepsOn (kernel : Machine) (cvr : Nat) : Prop :=
  ∀ curr, kernel.currThread = some curr → woken kernel cvr ≠ some curr

/-- The lists know where the thread that exits is. -/
def ExitKnown (kernel : Machine) : Prop :=
  ∀ curr, kernel.currThread = some curr → (kernel.thread curr).exitPending = true →
    (kernel.thread curr).schedClass = .realTime ∨ (kernel.thread curr).tickToWake ≠ 0

/-- Blocking a thread finds the queue it is in. -/
def BlockKnown (kernel : Machine) (tid : Nat) : Prop :=
  ∀ thread, threadOf kernel tid = some thread →
    (kernel.thread thread).schedClass = .realTime ∧ kernel.currThread ≠ some thread ∧
      (kernel.thread thread).rqList ≠ none

def UnblockKnown (kernel : Machine) (tid : Nat) : Prop :=
  ∀ thread, threadOf kernel tid = some thread →
    (kernel.thread thread).schedClass = .realTime ∧ kernel.currThread ≠ some thread

/-- The steps that keep the scheduler sound. -/
def Allowed (kernel : Machine) : Event → Prop
  | .sleep ms => u64 (kernel.tick + u64 (ms * systickRvr)) ≠ 0
  | .systick cvr => Switched kernel ∧ SleepsOn kernel cvr ∧ ExitKnown kernel
  | .block tid => BlockKnown kernel tid
  | .unblock tid => UnblockKnown kernel tid
  | _ => True

/-- A step that meets its condition. -/
inductive AllowedStep : System → Event → System → Prop where
  | intro {before after : System} {event : Event} : Step before event after →
      Allowed before.kernel event → AllowedStep before event after

end Vanilla.Kernel
