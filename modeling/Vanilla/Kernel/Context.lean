import Mathlib.Data.List.Pairwise
import Vanilla.Foundation.Run

namespace Vanilla.Kernel.Context

/-! The PendSV context switch of context.s and the stack `stack_setup` prepares.
Memory is read and written in words, at the byte addresses the code uses. -/

abbrev Memory := Nat → Nat

/-- Eight consecutive words: R4-R11, or an exception frame
R0, R1, R2, R3, R12, LR, PC, xPSR. -/
abbrev Block := Fin 8 → Nat

/-- `ldmia`: the lowest register from the lowest address. -/
def loadBlock (memory : Memory) (address : Nat) : Block :=
  fun index => memory (address + 4 * index.val)

/-- `stmdb`, with the address it ends at. -/
def storeBlock (memory : Memory) (address : Nat) (block : Block) : Memory := fun other =>
  if found : address ≤ other ∧ (other - address) / 4 < 8 ∧ (other - address) % 4 = 0 then
    block ⟨(other - address) / 4, found.2.1⟩
  else memory other

/-- The registers PendSV handles; `0` is `NULL`. -/
structure Cpu where
  registers : Block
  psp : Nat
  memory : Memory
  currThread : Nat
  nextThread : Nat

/-- The part of `pendsv_exception` up to `_new_thread`: the stack pointer is the
first field of `struct thread`. -/
def saveCurrent (cpu : Cpu) : Cpu :=
  if cpu.currThread = 0 then cpu
  else
    let stacked := storeBlock cpu.memory (cpu.psp - 32) cpu.registers
    { cpu with memory := Function.update stacked cpu.currThread (cpu.psp - 32) }

def restoreNext (cpu : Cpu) : Cpu :=
  let stackPointer := cpu.memory cpu.nextThread
  { cpu with
    currThread := cpu.nextThread
    registers := loadBlock cpu.memory stackPointer
    psp := stackPointer + 32 }

def pendsvException (cpu : Cpu) : Cpu := restoreNext (saveCurrent cpu)

/-! ## stack_setup -/

/-- `*stack_pointer-- = value`. -/
def push (stack : Memory × Nat) (value : Nat) : Memory × Nat :=
  (Function.update stack.1 stack.2 value, stack.2 - 4)

/-- What `stack_setup` stores, from the top down, but for the last word. -/
def stackWords (thread arg threadExit : Nat) : List Nat :=
  [0x1000000, thread, threadExit, 0xCAFECAFE, 0xCAFECAFE, 0xCAFECAFE, 0xCAFECAFE, arg,
    0xCAFECAFE, 0xCAFECAFE, 0xCAFECAFE, 0xCAFECAFE, 0xCAFECAFE, 0xCAFECAFE, 0xCAFECAFE]

/-- The memory and the stack pointer after `stack_setup`. -/
def stackSetup (memory : Memory) (stackPointer thread arg threadExit : Nat) : Memory × Nat :=
  let stack := (stackWords thread arg threadExit).foldl push (memory, stackPointer - 4)
  (Function.update stack.1 stack.2 0xCAFECAFE, stack.2)

/-! ## Threads -/

/-- The memory of a thread: `struct thread` at `control`, and its stack. -/
structure ThreadArea where
  control : Nat
  stackBase : Nat
  stackSize : Nat

namespace ThreadArea

def stackEnd (thread : ThreadArea) : Nat := thread.stackBase + 4 * thread.stackSize

/-- The stack pointer field and the stack. -/
def Owns (thread : ThreadArea) (address : Nat) : Prop :=
  address = thread.control ∨ (thread.stackBase ≤ address ∧ address < thread.stackEnd)

def Apart (left right : ThreadArea) : Prop := ∀ address, left.Owns address → ¬ right.Owns address

/-- A control block in front of a stack that has room for two blocks and the
padding word. -/
structure Placed (thread : ThreadArea) : Prop where
  control : thread.control ≠ 0
  order : thread.control + 4 ≤ thread.stackBase
  room : 17 ≤ thread.stackSize

end ThreadArea

/-- What a thread has when it is switched out. -/
structure Saved where
  registers : Block
  psp : Nat
  frame : Block

def Cpu.saved (cpu : Cpu) : Saved where
  registers := cpu.registers
  psp := cpu.psp
  frame := loadBlock cpu.memory cpu.psp

/-- What a thread that does not run waits with: its start, or what it had. -/
inductive Image where
  | fresh (thread arg : Nat)
  | saved (context : Saved)

/-- The exception return takes R0, LR, PC and xPSR from the frame. -/
structure StartsAt (cpu : Cpu) (thread arg threadExit : Nat) : Prop where
  r0 : cpu.memory cpu.psp = arg
  lr : cpu.memory (cpu.psp + 20) = threadExit
  pc : cpu.memory (cpu.psp + 24) = thread
  xpsr : cpu.memory (cpu.psp + 28) = 0x1000000

/-- The processor runs on with the image of a thread. -/
def Resumes (threadExit : Nat) (cpu : Cpu) : Image → Prop
  | .fresh thread arg => StartsAt cpu thread arg threadExit
  | .saved context => cpu.saved = context

/-- The threads, the processor and what each parked thread waits with. -/
structure System where
  cpu : Cpu
  threads : List ThreadArea
  image : Nat → Image

/-! ## Steps -/

/-- The running thread has room for the exception frame and R4-R11. -/
def HasRoom (thread : ThreadArea) (psp : Nat) : Prop :=
  thread.stackBase + 32 ≤ psp ∧ psp + 32 ≤ thread.stackEnd

inductive SystemEvent where
  /-- The running thread, the exceptions and the scheduler run for a while. -/
  | work
  /-- `scheduler_run` starts the first thread. -/
  | start (thread : ThreadArea)
  | create (thread : ThreadArea) (entry arg : Nat)
  | exit
  | pendsv

/-- The image of the thread PendSV switches out. -/
def System.parkCurrent (system : System) : Nat → Image :=
  if system.cpu.currThread = 0 then system.image
  else Function.update system.image system.cpu.currThread (.saved system.cpu.saved)

/-- `new_thread` prepares the stack and stores its pointer. -/
def System.created (system : System) (thread : ThreadArea) (entry arg threadExit : Nat) :
    System :=
  let stack := stackSetup system.cpu.memory (thread.stackEnd - 4) entry arg threadExit
  { cpu := { system.cpu with memory := Function.update stack.1 thread.control stack.2 }
    threads := thread :: system.threads
    image := Function.update system.image thread.control (.fresh entry arg) }

inductive SystemStep (threadExit : Nat) (before : System) : SystemEvent → System → Prop where
  | work (cpu : Cpu) (same : cpu.currThread = before.cpu.currThread)
      (kept : ∀ thread ∈ before.threads, thread.control ≠ before.cpu.currThread →
        ∀ address, thread.Owns address → cpu.memory address = before.cpu.memory address) :
      SystemStep threadExit before .work { before with cpu := cpu }
  | start (thread : ThreadArea) (member : thread ∈ before.threads)
      (idle : before.cpu.currThread = 0) :
      SystemStep threadExit before (.start thread)
        { before with cpu := { before.cpu with currThread := thread.control } }
  | create (thread : ThreadArea) (entry arg : Nat) (placed : thread.Placed)
      (apart : ∀ other ∈ before.threads, thread.Apart other) :
      SystemStep threadExit before (.create thread entry arg)
        (before.created thread entry arg threadExit)
  | exit : SystemStep threadExit before .exit {
      before with
      cpu := { before.cpu with currThread := 0 }
      threads := before.threads.filter fun thread =>
        decide (thread.control ≠ before.cpu.currThread) }
  | pendsv (thread : ThreadArea) (member : thread ∈ before.threads)
      (next : before.cpu.nextThread = thread.control)
      (room : ∀ running ∈ before.threads, running.control = before.cpu.currThread →
        HasRoom running before.cpu.psp) :
      SystemStep threadExit before .pendsv {
        before with cpu := pendsvException before.cpu, image := before.parkCurrent }

/-! ## Blocks -/

theorem storeBlock_outside (memory : Memory) {address other : Nat} (block : Block)
    (outside : other < address ∨ address + 32 ≤ other) :
    storeBlock memory address block other = memory other := by
  rw [storeBlock, dif_neg]
  intro inside
  omega

theorem loadBlock_storeBlock (memory : Memory) (address : Nat) (block : Block) :
    loadBlock (storeBlock memory address block) address = block := by
  funext index
  have bound := index.isLt
  have offset : address + 4 * index.val - address = 4 * index.val := by omega
  have quotient : 4 * index.val / 4 = index.val := by omega
  have inside : address ≤ address + 4 * index.val ∧
      (address + 4 * index.val - address) / 4 < 8 ∧
      (address + 4 * index.val - address) % 4 = 0 := by omega
  simp only [loadBlock, storeBlock]
  rw [dif_pos inside]
  congr 1
  apply Fin.ext
  simp only [offset, quotient]

theorem loadBlock_congr {left right : Memory} {address : Nat}
    (agree : ∀ other, address ≤ other → other < address + 32 → left other = right other) :
    loadBlock left address = loadBlock right address := by
  funext index
  have bound := index.isLt
  exact agree _ (by omega) (by omega)

/-! ## The prepared stack -/

theorem push_all : ∀ (values : List Nat) (memory : Memory) (pointer : Nat),
    4 * values.length ≤ pointer →
    (values.foldl push (memory, pointer)).2 = pointer - 4 * values.length ∧
    (∀ index (bound : index < values.length),
      (values.foldl push (memory, pointer)).1 (pointer - 4 * index) = values[index]) ∧
    ∀ other, pointer < other ∨ other + 4 * values.length ≤ pointer →
      (values.foldl push (memory, pointer)).1 other = memory other
  | [], memory, pointer, _ => by simp
  | value :: values, memory, pointer, room => by
      rw [List.length_cons] at room
      have rest := push_all values (Function.update memory pointer value) (pointer - 4) (by omega)
      rw [List.foldl_cons, push]
      refine ⟨?_, ?_, ?_⟩
      · rw [rest.1, List.length_cons]
        omega
      · intro index bound
        cases index with
        | zero =>
            rw [rest.2.2 _ (by omega)]
            simp
        | succ index =>
            have below := rest.2.1 index (Nat.lt_of_succ_lt_succ bound)
            rw [show pointer - 4 * (index + 1) = pointer - 4 - 4 * index by omega, below]
            rfl
      · intro other outside
        rw [List.length_cons] at outside
        rw [rest.2.2 other (by omega), Function.update_of_ne (by omega)]

/-- The stack pointer and the frame of a prepared stack, below `pointer`. -/
theorem stackSetup_spec (memory : Memory) {pointer : Nat} (thread arg threadExit : Nat)
    (room : 64 ≤ pointer) :
    (stackSetup memory pointer thread arg threadExit).2 = pointer - 64 ∧
    (stackSetup memory pointer thread arg threadExit).1 (pointer - 32) = arg ∧
    (stackSetup memory pointer thread arg threadExit).1 (pointer - 12) = threadExit ∧
    (stackSetup memory pointer thread arg threadExit).1 (pointer - 8) = thread ∧
    (stackSetup memory pointer thread arg threadExit).1 (pointer - 4) = 0x1000000 ∧
    ∀ other, pointer ≤ other ∨ other + 64 < pointer →
      (stackSetup memory pointer thread arg threadExit).1 other = memory other := by
  have length : (stackWords thread arg threadExit).length = 15 := rfl
  rcases push_all (stackWords thread arg threadExit) memory (pointer - 4)
    (by rw [length]; omega) with ⟨bottom, words, outer⟩
  rw [length, show pointer - 4 - 4 * 15 = pointer - 64 by omega] at bottom
  rw [length] at outer
  have word : ∀ index (bound : index < 15),
      (stackSetup memory pointer thread arg threadExit).1 (pointer - 4 - 4 * index) =
        (stackWords thread arg threadExit)[index] := by
    intro index bound
    simp only [stackSetup]
    rw [bottom, Function.update_of_ne (by omega)]
    exact words index (length ▸ bound)
  refine ⟨bottom, ?_, ?_, ?_, word 0 (by decide), ?_⟩
  · rw [show pointer - 32 = pointer - 4 - 4 * 7 by omega]
    exact word 7 (by decide)
  · rw [show pointer - 12 = pointer - 4 - 4 * 2 by omega]
    exact word 2 (by decide)
  · rw [show pointer - 8 = pointer - 4 - 4 * 1 by omega]
    exact word 1 (by decide)
  · intro other outside
    simp only [stackSetup]
    rw [bottom, Function.update_of_ne (by omega)]
    exact outer other (by omega)

/-! ## Parked threads -/

/-- The words at the parked stack pointer are the image. -/
def ImageAt (threadExit : Nat) (memory : Memory) (stackPointer : Nat) : Image → Prop
  | .fresh thread arg => memory (stackPointer + 32) = arg ∧
      memory (stackPointer + 52) = threadExit ∧ memory (stackPointer + 56) = thread ∧
      memory (stackPointer + 60) = 0x1000000
  | .saved context => loadBlock memory stackPointer = context.registers ∧
      stackPointer + 32 = context.psp ∧ loadBlock memory (stackPointer + 32) = context.frame

structure Parked (threadExit : Nat) (memory : Memory) (thread : ThreadArea) (image : Image) :
    Prop where
  low : thread.stackBase ≤ memory thread.control
  high : memory thread.control + 64 ≤ thread.stackEnd
  image : ImageAt threadExit memory (memory thread.control) image

theorem ImageAt.congr {threadExit : Nat} {left right : Memory} {stackPointer : Nat}
    {image : Image} (held : ImageAt threadExit left stackPointer image)
    (agree : ∀ other, stackPointer ≤ other → other < stackPointer + 64 →
      right other = left other) : ImageAt threadExit right stackPointer image := by
  cases image with
  | fresh thread arg =>
      rcases held with ⟨r0, lr, pc, xpsr⟩
      exact ⟨(agree _ (by omega) (by omega)).trans r0, (agree _ (by omega) (by omega)).trans lr,
        (agree _ (by omega) (by omega)).trans pc, (agree _ (by omega) (by omega)).trans xpsr⟩
  | saved context =>
      rcases held with ⟨registers, psp, frame⟩
      refine ⟨?_, psp, ?_⟩
      · rw [← registers]
        exact loadBlock_congr fun other lower upper => agree other lower (by omega)
      · rw [← frame]
        exact loadBlock_congr fun other lower upper => agree other (by omega) (by omega)

/-- A parked thread is not disturbed by writes outside its memory. -/
theorem Parked.congr {threadExit : Nat} {left right : Memory} {thread : ThreadArea}
    {image : Image} (parked : Parked threadExit left thread image)
    (agree : ∀ address, thread.Owns address → right address = left address) :
    Parked threadExit right thread image := by
  have control := agree thread.control (.inl rfl)
  have low := parked.low
  have high := parked.high
  refine ⟨control ▸ low, control ▸ high, ?_⟩
  rw [control]
  apply parked.image.congr
  intro other lower upper
  exact agree other (.inr ⟨by omega, by omega⟩)

theorem Parked.resumes {threadExit : Nat} {cpu : Cpu} {thread : ThreadArea} {image : Image}
    (parked : Parked threadExit cpu.memory thread image)
    (next : cpu.nextThread = thread.control) : Resumes threadExit (restoreNext cpu) image := by
  have held := parked.image
  rw [← next] at held
  cases image with
  | fresh entry arg => exact ⟨held.1, held.2.1, held.2.2.1, held.2.2.2⟩
  | saved context =>
      cases context with
      | mk registers psp frame =>
          rcases held with ⟨registersEq, pspEq, frameEq⟩
          simp only [Resumes, Cpu.saved, restoreNext, Saved.mk.injEq]
          exact ⟨registersEq, pspEq, frameEq⟩

/-- The running thread is parked with what it had. -/
theorem saveCurrent_parks {threadExit : Nat} {cpu : Cpu} {thread : ThreadArea}
    (placed : thread.Placed) (running : thread.control = cpu.currThread)
    (room : HasRoom thread cpu.psp) :
    Parked threadExit (saveCurrent cpu).memory thread (.saved cpu.saved) := by
  have order := placed.order
  have low := room.1
  have high := room.2
  have valid : cpu.currThread ≠ 0 := running ▸ placed.control
  have memory : (saveCurrent cpu).memory =
      Function.update (storeBlock cpu.memory (cpu.psp - 32) cpu.registers) thread.control
        (cpu.psp - 32) := by
    rw [saveCurrent, if_neg valid, running]
  have pointer : (saveCurrent cpu).memory thread.control = cpu.psp - 32 := by
    rw [memory, Function.update_self]
  refine ⟨by omega, by omega, ?_⟩
  rw [pointer, memory]
  refine ⟨?_, ?_, ?_⟩
  · have stored := loadBlock_storeBlock cpu.memory (cpu.psp - 32) cpu.registers
    refine Eq.trans (loadBlock_congr ?_) stored
    intro other lower upper
    rw [Function.update_of_ne (by omega)]
  · simp only [Cpu.saved]
    omega
  · rw [show cpu.psp - 32 + 32 = cpu.psp by omega]
    apply loadBlock_congr
    intro other lower upper
    rw [Function.update_of_ne (by omega), storeBlock_outside _ _ (by omega)]

/-- Saving writes only to the running thread's memory. -/
theorem saveCurrent_outside {cpu : Cpu} {thread : ThreadArea}
    (running : thread.control = cpu.currThread) (room : HasRoom thread cpu.psp) {address : Nat}
    (outside : ¬ thread.Owns address) : (saveCurrent cpu).memory address = cpu.memory address := by
  have low := room.1
  have high := room.2
  rw [ThreadArea.Owns, not_or] at outside
  rw [saveCurrent]
  split
  · rfl
  · simp only
    rw [Function.update_of_ne (running ▸ outside.1), storeBlock_outside]
    omega

/-! ## The invariant -/

structure Consistent (threadExit : Nat) (system : System) : Prop where
  placed : ∀ thread ∈ system.threads, thread.Placed
  apart : system.threads.Pairwise ThreadArea.Apart
  running : system.cpu.currThread = 0 ∨
    ∃ thread ∈ system.threads, thread.control = system.cpu.currThread
  parked : ∀ thread ∈ system.threads, thread.control ≠ system.cpu.currThread →
    Parked threadExit system.cpu.memory thread (system.image thread.control)

instance : Std.Symm ThreadArea.Apart where
  symm _ _ apart := fun address owns other => apart address other owns

theorem Consistent.apart_of_ne {threadExit : Nat} {system : System}
    (consistent : Consistent threadExit system) {left right : ThreadArea}
    (leftMember : left ∈ system.threads) (rightMember : right ∈ system.threads)
    (different : left.control ≠ right.control) : left.Apart right :=
  consistent.apart.forall leftMember rightMember fun same =>
    different (congrArg ThreadArea.control same)

/-- After PendSV has saved, every thread is parked with its image. -/
theorem Consistent.saved {threadExit : Nat} {system : System}
    (consistent : Consistent threadExit system)
    (room : ∀ running ∈ system.threads, running.control = system.cpu.currThread →
      HasRoom running system.cpu.psp) {thread : ThreadArea} (member : thread ∈ system.threads) :
    Parked threadExit (saveCurrent system.cpu).memory thread
      (system.parkCurrent thread.control) := by
  have placed := consistent.placed thread member
  rcases consistent.running with none | some
  · have other : thread.control ≠ system.cpu.currThread := none ▸ placed.control
    rw [saveCurrent, if_pos none, System.parkCurrent, if_pos none]
    exact consistent.parked thread member other
  · rcases some with ⟨running, runningMember, current⟩
    have valid : system.cpu.currThread ≠ 0 :=
      current ▸ (consistent.placed running runningMember).control
    rw [System.parkCurrent, if_neg valid]
    by_cases same : thread.control = system.cpu.currThread
    · rw [same, Function.update_self]
      exact saveCurrent_parks placed same (room thread member same)
    · rw [Function.update_of_ne same]
      apply (consistent.parked thread member same).congr
      intro address owns
      apply saveCurrent_outside current (room running runningMember current)
      exact consistent.apart_of_ne member runningMember (current ▸ same) address owns

theorem Consistent.pendsv {threadExit : Nat} {system : System}
    (consistent : Consistent threadExit system) {thread : ThreadArea}
    (member : thread ∈ system.threads) (next : system.cpu.nextThread = thread.control)
    (room : ∀ running ∈ system.threads, running.control = system.cpu.currThread →
      HasRoom running system.cpu.psp) :
    Consistent threadExit
      { system with cpu := pendsvException system.cpu, image := system.parkCurrent } where
  placed := consistent.placed
  apart := consistent.apart
  running := by
    refine .inr ⟨thread, member, ?_⟩
    rw [← next]
    simp only [pendsvException, restoreNext, saveCurrent]
    split <;> rfl
  parked := fun _ otherMember _ => consistent.saved room otherMember

theorem Consistent.create {threadExit : Nat} {system : System}
    (consistent : Consistent threadExit system) {thread : ThreadArea} (entry arg : Nat)
    (placed : thread.Placed) (apart : ∀ other ∈ system.threads, thread.Apart other) :
    Consistent threadExit (system.created thread entry arg threadExit) := by
  have order := placed.order
  have enough := placed.room
  have stackEnd : thread.stackEnd = thread.stackBase + 4 * thread.stackSize := rfl
  have prepared := stackSetup_spec system.cpu.memory entry arg threadExit
    (show 64 ≤ thread.stackEnd - 4 by omega)
  simp only [System.created]
  generalize stackSetup system.cpu.memory (thread.stackEnd - 4) entry arg threadExit = stack
    at prepared ⊢
  rcases prepared with ⟨pointer, r0, lr, pc, xpsr, outside⟩
  refine ⟨?_, ?_, ?_, ?_⟩
  · intro other member
    rcases List.mem_cons.mp member with same | old
    · rw [same]
      exact placed
    · exact consistent.placed other old
  · exact .cons apart consistent.apart
  · rcases consistent.running with none | some
    · exact .inl none
    · rcases some with ⟨running, member, current⟩
      exact .inr ⟨running, List.mem_cons_of_mem _ member, current⟩
  · intro other member different
    simp only at different ⊢
    rcases List.mem_cons.mp member with same | old
    · subst other
      have control : Function.update stack.1 thread.control stack.2 thread.control =
          thread.stackEnd - 68 := by
        rw [Function.update_self, pointer]
        omega
      refine ⟨by rw [control]; omega, by rw [control]; omega, ?_⟩
      rw [control, Function.update_self]
      refine ⟨?_, ?_, ?_, ?_⟩
      · rw [Function.update_of_ne (by omega), ← r0]
        exact congrArg stack.1 (by omega)
      · rw [Function.update_of_ne (by omega), ← lr]
        exact congrArg stack.1 (by omega)
      · rw [Function.update_of_ne (by omega), ← pc]
        exact congrArg stack.1 (by omega)
      · rw [Function.update_of_ne (by omega), ← xpsr]
        exact congrArg stack.1 (by omega)
    · have disjoint := apart other old
      have controls : other.control ≠ thread.control := fun same =>
        disjoint thread.control (.inl rfl) (.inl same.symm)
      rw [Function.update_of_ne controls]
      apply (consistent.parked other old different).congr
      intro address owns
      have foreign : ¬ thread.Owns address := fun mine => disjoint address mine owns
      rw [ThreadArea.Owns, not_or] at foreign
      rw [Function.update_of_ne foreign.1, outside]
      omega

theorem Consistent.step {threadExit : Nat} {before after : System} {event : SystemEvent}
    (consistent : Consistent threadExit before)
    (step : SystemStep threadExit before event after) : Consistent threadExit after := by
  cases step with
  | work cpu same kept =>
      refine ⟨consistent.placed, consistent.apart, ?_, ?_⟩
      · simp only [same]
        exact consistent.running
      · intro thread member other
        simp only [same] at other
        exact (consistent.parked thread member other).congr (kept thread member other)
  | start thread member idle =>
      refine ⟨consistent.placed, consistent.apart, .inr ⟨thread, member, rfl⟩, ?_⟩
      intro other otherMember _
      exact consistent.parked other otherMember
        (idle ▸ (consistent.placed other otherMember).control)
  | create thread entry arg placed apart => exact consistent.create entry arg placed apart
  | exit =>
      refine ⟨?_, consistent.apart.filter _, .inl rfl, ?_⟩
      · intro thread member
        exact consistent.placed thread ((List.mem_filter.mp member).1)
      · intro thread member _
        exact consistent.parked thread ((List.mem_filter.mp member).1)
          (of_decide_eq_true (List.mem_filter.mp member).2)
  | pendsv thread member next room => exact consistent.pendsv member next room

/-! ## Transparency -/

/-- Before the first thread is made. -/
structure Booting (system : System) : Prop where
  threads : system.threads = []
  currThread : system.cpu.currThread = 0

theorem Booting.consistent {threadExit : Nat} {system : System} (booting : Booting system) :
    Consistent threadExit system where
  placed := by simp [booting.threads]
  apart := by simp [booting.threads]
  running := .inl booting.currThread
  parked := by simp [booting.threads]

/-- In every run, PendSV continues the next thread with the R4-R11, stack pointer
and exception frame it was switched out with, or at its entry when it has never
run; the thread that it switches out to itself keeps its own. -/
theorem context_switch_transparent {threadExit : Nat} {start system : System}
    {events : List SystemEvent} (booting : Booting start)
    (run : Run (SystemStep threadExit) start events system) {thread : ThreadArea}
    (member : thread ∈ system.threads) (next : system.cpu.nextThread = thread.control)
    (room : ∀ running ∈ system.threads, running.control = system.cpu.currThread →
      HasRoom running system.cpu.psp) :
    (pendsvException system.cpu).currThread = thread.control ∧
      (thread.control = system.cpu.currThread →
        (pendsvException system.cpu).saved = system.cpu.saved) ∧
      (thread.control ≠ system.cpu.currThread →
        Resumes threadExit (pendsvException system.cpu) (system.image thread.control)) := by
  have consistent : Consistent threadExit system :=
    run.invariant (Consistent threadExit) (fun _ _ _ holds step => holds.step step)
      booting.consistent
  have parked := consistent.saved room member
  have kept : (saveCurrent system.cpu).nextThread = thread.control := by
    rw [← next, saveCurrent]
    split <;> rfl
  have resumes : Resumes threadExit (pendsvException system.cpu)
      (system.parkCurrent thread.control) := parked.resumes kept
  refine ⟨kept, ?_, ?_⟩
  · intro same
    have valid : system.cpu.currThread ≠ 0 := same ▸ (consistent.placed thread member).control
    rw [System.parkCurrent, if_neg valid, same, Function.update_self] at resumes
    exact resumes
  · intro other
    rw [System.parkCurrent] at resumes
    split at resumes
    · exact resumes
    · rw [Function.update_of_ne other] at resumes
      exact resumes

def blankSystem : System where
  cpu := {
    registers := fun _ => 0, psp := 0, memory := fun _ => 0, currThread := 0
    nextThread := 0 }
  threads := []
  image := fun _ => .fresh 0 0

def firstThread : ThreadArea where
  control := 0x20400000
  stackBase := 0x20400040
  stackSize := 64

theorem firstThread_placed : firstThread.Placed := ⟨by decide, by decide, by decide⟩

/-- The first thread is made and picked. -/
def firstSystem : System :=
  let made := blankSystem.created firstThread 0x00404001 7 0x00405001
  { made with cpu := { made.cpu with nextThread := firstThread.control } }

theorem firstSystem_run : Run (SystemStep 0x00405001) blankSystem
    [.create firstThread 0x00404001 7, .work] firstSystem :=
  .cons (.create firstThread 0x00404001 7 firstThread_placed (by simp [blankSystem]))
    (.cons (.work firstSystem.cpu rfl fun _ _ _ _ _ => rfl) (.nil _))

theorem context_switch_transparent_first :
    (pendsvException firstSystem.cpu).currThread = firstThread.control ∧
      (firstThread.control = firstSystem.cpu.currThread →
        (pendsvException firstSystem.cpu).saved = firstSystem.cpu.saved) ∧
      (firstThread.control ≠ firstSystem.cpu.currThread →
        Resumes 0x00405001 (pendsvException firstSystem.cpu)
          (firstSystem.image firstThread.control)) :=
  context_switch_transparent ⟨rfl, rfl⟩ firstSystem_run
    (List.mem_singleton.mpr rfl) rfl fun running member current => by
      rw [List.mem_singleton.mp member] at current
      exact absurd current (by decide)

end Vanilla.Kernel.Context
