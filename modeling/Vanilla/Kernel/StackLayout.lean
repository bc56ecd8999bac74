import Vanilla.Kernel.Context
import Vanilla.Kernel.Scheduler
import Vanilla.Mm.UmallocLayout

/-! # Where `new_thread` puts the stack

The bytes of the control block and the stack, the pages and the top of the stack
are computed in 32 bits. `stack_setup` writes downwards from the top.
-/

namespace Vanilla.Kernel

open Mm

/-! ## Stores of stack_setup -/

/-- `*stack_pointer-- = value`, with the stores made so far. -/
def store (stack : List (Nat × Nat) × Nat) (value : Nat) : List (Nat × Nat) × Nat :=
  ((stack.2, value) :: stack.1, u32Sub stack.2 4)

/-- The stores of `stack_setup`, the last one first, and its result. -/
def stackStores (stackPointer thread arg threadExit : Nat) : List (Nat × Nat) × Nat :=
  let stack := (Context.stackWords thread arg threadExit).foldl store
    ([], u32Sub stackPointer 4)
  ((stack.2, 0xCAFECAFE) :: stack.1, stack.2)

structure ThreadStack where
  thread : ThreadPtr
  stackBase : Nat
  stackPointer : Nat
  stores : List (Nat × Nat)

/-- `new_thread`, up to the prepared stack. -/
def allocateStack (stackSize function arg threadExit : Nat) : Exec MmState ThreadStack := do
  let thread ← pmalloc (threadPages stackSize) .dramBank3
  let stackBase := u32 (thread + sizeofThread)
  let stack := stackStores (u32Sub (u32 (stackBase + u32 (stackSize * 4))) 4)
    function arg threadExit
  return { thread, stackBase, stackPointer := stack.2, stores := stack.1 }

/-! ## Layout -/

/-- The block has room for the control block and the stack, and nothing but the
stack is written. -/
structure StackInside (after : MmState) (stackSize : Nat) (stack : ThreadStack) : Prop where
  block : Interval.Within ⟨stack.thread, sizeofThread + 4 * stackSize⟩
    (behind after stack.thread)
  base : stack.stackBase = stack.thread + sizeofThread
  stores : ∀ store ∈ stack.stores,
    Interval.Within ⟨store.1, 4⟩ ⟨stack.stackBase, 4 * stackSize⟩
  pointer : stack.stackBase ≤ stack.stackPointer ∧
    stack.stackPointer < stack.stackBase + 4 * stackSize

def CreatesInside (config : Config) (stackSize function arg threadExit : Nat) : Prop :=
  ∀ stack after, (allocateStack stackSize function arg threadExit).run config.state =
    .ok stack after → StackInside after stackSize stack

/-- The bytes do not wrap, also when they are rounded up to pages, and the stack
takes the prepared words and the padding above them. -/
def StackFits (stackSize : Nat) : Prop :=
  17 ≤ stackSize ∧ sizeofThread + 4 * stackSize ≤ 2 ^ 32 - 512

/-! ## Stores below a stack pointer -/

theorem foldl_store : ∀ (values : List Nat) (stores : List (Nat × Nat)) (pointer : Nat),
    4 * values.length ≤ pointer → pointer < 2 ^ 32 →
    (values.foldl store (stores, pointer)).2 = pointer - 4 * values.length ∧
      ∀ write ∈ (values.foldl store (stores, pointer)).1,
        write ∈ stores ∨ (pointer - 4 * values.length < write.1 ∧ write.1 ≤ pointer)
  | [], stores, pointer, _, _ => ⟨rfl, fun _ member => .inl member⟩
  | value :: values, stores, pointer, room, bound => by
      rw [List.length_cons] at room ⊢
      have below : u32Sub pointer 4 = pointer - 4 := u32Sub_of_le bound (by omega)
      have rest := foldl_store values ((pointer, value) :: stores) (pointer - 4) (by omega)
        (by omega)
      rw [List.foldl_cons, store, below]
      constructor
      · rw [rest.1]
        omega
      · intro write member
        cases rest.2 write member with
        | inl known =>
            cases List.mem_cons.mp known with
            | inl same =>
                rw [same]
                exact .inr ⟨by simp only; omega, Nat.le_refl _⟩
            | inr old => exact .inl old
        | inr range => exact .inr (by omega)

section Stores

variable {pointer : Nat} (thread arg threadExit : Nat)

theorem stackStores_spec (room : 64 ≤ pointer) (bound : pointer < 2 ^ 32) :
    (stackStores pointer thread arg threadExit).2 = pointer - 64 ∧
      (pointer - 64, 0xCAFECAFE) ∈ (stackStores pointer thread arg threadExit).1 ∧
      ∀ write ∈ (stackStores pointer thread arg threadExit).1,
        pointer - 64 ≤ write.1 ∧ write.1 + 4 ≤ pointer := by
  have length : (Context.stackWords thread arg threadExit).length = 15 := rfl
  have top : u32Sub pointer 4 = pointer - 4 := u32Sub_of_le bound (by omega)
  have stored := foldl_store (Context.stackWords thread arg threadExit) [] (pointer - 4)
    (by rw [length]; omega) (by omega)
  rw [length] at stored
  have bottom : pointer - 4 - 4 * 15 = pointer - 64 := by omega
  rw [bottom] at stored
  simp only [stackStores, top, stored.1]
  refine ⟨trivial, List.mem_cons_self, ?_⟩
  intro write member
  cases List.mem_cons.mp member with
  | inl last =>
      rw [last]
      exact ⟨Nat.le_refl _, by simp only; omega⟩
  | inr above =>
      cases stored.2 write above with
      | inl none => cases none
      | inr range => exact ⟨by omega, by omega⟩

/-- The memory after some stores, the last one first. -/
def applyStores (memory : Context.Memory) : List (Nat × Nat) → Context.Memory
  | [] => memory
  | write :: earlier => Function.update (applyStores memory earlier) write.1 write.2

theorem foldl_push_eq (memory : Context.Memory) :
    ∀ (values : List Nat) (stores : List (Nat × Nat)) (pointer : Nat),
      4 * values.length ≤ pointer → pointer < 2 ^ 32 →
      values.foldl Context.push (applyStores memory stores, pointer) =
        (applyStores memory (values.foldl store (stores, pointer)).1,
          (values.foldl store (stores, pointer)).2)
  | [], stores, pointer, _, _ => rfl
  | value :: values, stores, pointer, room, bound => by
      rw [List.length_cons] at room
      have below : u32Sub pointer 4 = pointer - 4 := u32Sub_of_le bound (by omega)
      rw [List.foldl_cons, List.foldl_cons, store, below]
      exact foldl_push_eq memory values ((pointer, value) :: stores) (pointer - 4) (by omega)
        (by omega)

/-- The stack that a context switch finds is made by these stores. -/
theorem stackSetup_eq_stores (memory : Context.Memory) (room : 64 ≤ pointer)
    (bound : pointer < 2 ^ 32) :
    Context.stackSetup memory pointer thread arg threadExit =
      (applyStores memory (stackStores pointer thread arg threadExit).1,
        (stackStores pointer thread arg threadExit).2) := by
  have top : u32Sub pointer 4 = pointer - 4 := u32Sub_of_le bound (by omega)
  have pushed := foldl_push_eq memory (Context.stackWords thread arg threadExit) []
    (pointer - 4) (show 4 * 15 ≤ pointer - 4 by omega) (by omega)
  simp only [Context.stackSetup, stackStores, top]
  rw [show memory = applyStores memory [] from rfl, pushed]
  rfl

end Stores

/-! ## new_thread -/

theorem threadPages_facts {stackSize : Nat}
    (fits : sizeofThread + 4 * stackSize ≤ 2 ^ 32 - 512) :
    sizeofThread + 4 * stackSize ≤ threadPages stackSize * 512 ∧
      threadPages stackSize * 512 ≤ sizeofThread + 4 * stackSize + 511 := by
  have words : u32 (stackSize * 4) = 4 * stackSize := by
    rw [u32_of_lt (by omega)]
    omega
  have size : u32 (sizeofThread + u32 (stackSize * 4)) = sizeofThread + 4 * stackSize := by
    rw [words]
    exact u32_of_lt (by omega)
  change _ ≤ pagesFor (u32 (sizeofThread + u32 (stackSize * 4))) * 512 ∧
    pagesFor (u32 (sizeofThread + u32 (stackSize * 4))) * 512 ≤ _
  rw [size]
  exact pagesFor_facts _

/-- The bytes of so many pages never reach the sizes that `mm_alloc` wraps. -/
theorem pageRequest_le (count : Nat) : u32 (count * 512) ≤ 0xFFFFFFF0 := by
  simp only [u32]
  omega

section NewThread

variable {linker : Linker} {config : Config} {stackSize function arg threadExit : Nat}
  {partitions : (bank : PhysmemE) → BankPartition linker bank}

def stackAt (thread stackSize function arg threadExit : Nat) : ThreadStack :=
  let stack := stackStores (u32Sub (u32 (u32 (thread + sizeofThread) + u32 (stackSize * 4))) 4)
    function arg threadExit
  ⟨thread, u32 (thread + sizeofThread), stack.2, stack.1⟩

theorem run_allocateStack {state made : MmState} {thread : Nat}
    (allocated : (pmalloc (threadPages stackSize) .dramBank3).run state = .ok thread made) :
    (allocateStack stackSize function arg threadExit).run state =
      .ok (stackAt thread stackSize function arg threadExit) made := by
  rw [allocateStack, Exec.run_bind_of_ok allocated]
  rfl

/-- `new_thread` returns only with a stack. -/
theorem newThread_allocates {kernel after : Machine} {info : ThreadInfo} {tid : Nat}
    (function arg threadExit : Nat)
    (returns : (newThread info).run kernel = .ok tid after) :
    ∃ stack made, (allocateStack info.stackSize function arg threadExit).run kernel.mm =
      .ok stack made := by
  cases allocated : (pmalloc (threadPages info.stackSize) .dramBank3).run kernel.mm with
  | ok thread made => exact ⟨_, made, run_allocateStack allocated⟩
  | error reason state =>
      have suspended : suspendScheduler.run kernel =
          .ok () { kernel with schedulerStatus := false } := rfl
      have fails : (onMm (pmalloc (threadPages info.stackSize) .dramBank3)).run
          { kernel with schedulerStatus := false } =
          .error reason { kernel with schedulerStatus := false, mm := state } :=
        Exec.run_zoom_error allocated
      rw [newThread, Exec.run_bind_of_ok suspended, Exec.run_bind_of_error fails] at returns
      cases returns

/-- The stack pointer of a thread that lies in memory. -/
theorem stackAt_spec {thread : Nat} (positive : 8 ≤ thread)
    (bound : thread + sizeofThread + 4 * stackSize < 2 ^ 32) :
    (stackAt thread stackSize function arg threadExit).stackBase = thread + sizeofThread ∧
      (stackAt thread stackSize function arg threadExit).stackPointer + 68 =
        thread + sizeofThread + 4 * stackSize ∧
      (∃ value, (thread + sizeofThread + 4 * stackSize - 68, value) ∈
        (stackAt thread stackSize function arg threadExit).stores) ∧
      ∀ write ∈ (stackAt thread stackSize function arg threadExit).stores,
        thread + sizeofThread + 4 * stackSize ≤ write.1 + 68 ∧
          write.1 + 8 ≤ thread + sizeofThread + 4 * stackSize := by
  have control : sizeofThread = 120 := rfl
  have base : u32 (thread + sizeofThread) = thread + sizeofThread := u32_of_lt (by omega)
  have words : u32 (stackSize * 4) = 4 * stackSize := by
    rw [u32_of_lt (by omega)]
    omega
  have stackEnd : u32 (thread + sizeofThread + 4 * stackSize) =
      thread + sizeofThread + 4 * stackSize := u32_of_lt bound
  have top : u32Sub (thread + sizeofThread + 4 * stackSize) 4 =
      thread + sizeofThread + 4 * stackSize - 4 := u32Sub_of_le bound (by omega)
  have stored := stackStores_spec function arg threadExit
    (show 64 ≤ thread + sizeofThread + 4 * stackSize - 4 by omega) (by omega)
  have bottom : thread + sizeofThread + 4 * stackSize - 4 - 64 =
      thread + sizeofThread + 4 * stackSize - 68 := by omega
  rw [bottom] at stored
  simp only [stackAt, base, words, stackEnd, top]
  refine ⟨trivial, ?_, ⟨_, stored.2.1⟩, ?_⟩
  · rw [stored.1]
    omega
  · intro write member
    have range := stored.2.2 write member
    omega

end NewThread

end Vanilla.Kernel

namespace Vanilla.Mm

open Kernel

variable {linker : Linker} {config : Config} {stackSize function arg threadExit : Nat}
  {partitions : (bank : PhysmemE) → BankPartition linker bank}

theorem Represents.stackInside_of_fits (rep : Represents linker config partitions)
    (fits : StackFits stackSize) : CreatesInside config stackSize function arg threadExit := by
  intro stack after returns
  have control : sizeofThread = 120 := rfl
  have enough := fits.1
  have pages := threadPages_facts fits.2
  have request : u32 (threadPages stackSize * 512) = threadPages stackSize * 512 :=
    u32_of_lt (by have := fits.2; omega)
  obtain ⟨thread, made, allocated, _⟩ := Exec.run_bind_ok.mp returns
  cases rep.pmalloc (threadPages stackSize) .dramBank3 (pageRequest_le _) with
  | inl panics =>
      rw [allocated] at panics
      cases panics
  | inr granted =>
      obtain ⟨allocation, made', next, allocated', block, changed⟩ := granted
      rw [allocated] at allocated'
      cases allocated'
      rw [run_allocateStack allocated] at returns
      cases returns
      have place := changed.pointers allocation List.mem_cons_self
      have live := changed.block_live List.mem_cons_self
      have inside := block.inside
      have last := bankLast_lt linker .dramBank3
      rw [block.size, request] at place
      rw [request] at inside
      have size : blockOf after allocation.pointer = allocation.block := by
        rw [place.1]
        exact (changed.banks allocation.bank).blockOf_eq live
      obtain ⟨base, pointer, _, stores⟩ := @stackAt_spec stackSize function arg threadExit
        allocation.pointer (by omega) (by omega)
      refine ⟨?_, base, ?_, ?_⟩
      · change Interval.Within ⟨allocation.pointer, _⟩ (behind _ allocation.pointer)
        rw [behind, size, sizeofMmNode]
        simp only [Interval.Within, Interval.stop]
        omega
      · intro write member
        have range := stores write member
        rw [base]
        simp only [Interval.Within, Interval.stop]
        omega
      · rw [base]
        omega

theorem Represents.stack_outside (rep : Represents linker config partitions)
    (wraps : ¬ StackFits stackSize)
    (room : ¬ NothingFits .dramBank3 (u32 (threadPages stackSize * 512))
      (partitions .dramBank3).free) :
    ¬ CreatesInside config stackSize function arg threadExit := by
  intro every
  have control : sizeofThread = 120 := rfl
  obtain ⟨thread, made, notNull, allocated⟩ := rep.pmalloc_fits .dramBank3 room
  have inside := every _ _ (run_allocateStack allocated)
  have size := blockOf_size_lt made thread
  have block : sizeofThread + 4 * stackSize ≤ (blockOf made thread).size := by
    have within := inside.block.2
    simp only [Interval.stop, behind, stackAt] at within
    omega
  have small : stackSize < 17 := by
    by_contra enough
    exact wraps ⟨Nat.not_lt.mp enough, by omega⟩
  -- the top of a small stack lies in the pages, and the last word below them
  have pages := @threadPages_facts stackSize (by omega)
  have request : u32 (threadPages stackSize * 512) = threadPages stackSize * 512 :=
    u32_of_lt (by omega)
  cases rep.pmalloc (threadPages stackSize) .dramBank3 (pageRequest_le _) with
  | inl panics =>
      rw [allocated] at panics
      cases panics
  | inr granted =>
      obtain ⟨allocation, made', next, allocated', granted, changed⟩ := granted
      rw [allocated] at allocated'
      cases allocated'
      have place := changed.pointers allocation List.mem_cons_self
      have bytes := granted.inside
      have last := bankLast_lt linker .dramBank3
      rw [request] at bytes
      obtain ⟨base, _, ⟨value, written⟩, _⟩ := @stackAt_spec stackSize function arg threadExit
        allocation.pointer (by omega) (by omega)
      have low := (inside.stores _ written).1
      rw [base] at low
      simp only at low
      omega

end Vanilla.Mm

namespace Vanilla.Kernel

open Mm

/-- `new_thread` panics or keeps to its block and its stack, exactly when the
stack size fits or no block has the size it wraps to. -/
theorem stack_inside_iff {linker : Linker} {config : Config}
    (reachable : Mm.Reachable linker config)
    {free : List Interval}
    (listed : freeList config.state .dramBank3 = some free)
    (stackSize function arg threadExit : Nat) :
    CreatesInside config stackSize function arg threadExit ↔
      StackFits stackSize ∨
        NothingFits .dramBank3 (u32 (threadPages stackSize * 512)) free := by
  obtain ⟨partitions, rep⟩ := reachable.represents
  rw [(rep.banks .dramBank3).freeList_eq] at listed
  cases listed
  constructor
  · intro every
    by_contra neither
    rw [not_or] at neither
    exact rep.stack_outside neither.1 neither.2 every
  · intro condition
    cases condition with
    | inl fits => exact rep.stackInside_of_fits fits
    | inr nothing =>
        intro stack after returns
        obtain ⟨thread, made, allocated, _⟩ := Exec.run_bind_ok.mp returns
        rw [rep.pmalloc_nothing nothing] at allocated
        cases allocated

theorem stack_inside_iff_start :
    CreatesInside startConfig 100 0x00404001 7 0x00405001 ↔
      StackFits 100 ∨ NothingFits .dramBank3 (u32 (threadPages 100 * 512))
        (wholeBank lowHeap .dramBank3).free :=
  stack_inside_iff ⟨⟨fun _ => 0, []⟩, [], .nil _⟩
    (startConfig_represents.banks .dramBank3).freeList_eq 100 0x00404001 7 0x00405001

/-- A stack of one word, and one of 2^30 words. -/
theorem stacks_granted_outside :
    ¬ CreatesInside startConfig 1 0x00404001 7 0x00405001 ∧
      ¬ CreatesInside startConfig 0x40000000 0x00404001 7 0x00405001 := by
  have room : ∀ stackSize, blockNeed (u32 (threadPages stackSize * 512))
      (bankMinAlloc .dramBank3) ≤ 524272 →
      ¬ NothingFits .dramBank3 (u32 (threadPages stackSize * 512))
        (wholeBank lowHeap .dramBank3).free := by
    intro stackSize small nothing
    have tooSmall := nothing ⟨0x70100000, 524272⟩ (by decide)
    simp only at tooSmall
    omega
  constructor
  · exact startConfig_represents.stack_outside (fun fits => absurd fits.1 (by decide))
      (room 1 (by decide))
  · exact startConfig_represents.stack_outside (fun fits => absurd fits.2 (by decide))
      (room 0x40000000 (by decide))

end Vanilla.Kernel
