import Vanilla.Foundation.Exec
import Vanilla.Kernel.Context

namespace Vanilla.Kernel

open Context

/-! System calls: the stubs and the handler of syscall.c with svc.s between them.
Arguments and results go through the exception frame on the stack of the caller. -/

/-- What the cases of `svc_handler_ext` call, over the rest of the kernel; the stack of the
handler is part of what `readPrintBuffer` may do to memory. -/
structure Services (Rest : Type) where
  threadSleep : Nat → Rest → Rest
  gpioToggle : Nat → Nat → Rest → Rest
  printByte : Nat → Rest → Rest
  printGetStatus : Rest → Nat
  readPrintBuffer : Nat → Nat → Memory → Rest → Nat × Memory × Rest

/-- The registers R0, R1, R2, R3, R12, LR, PC, xPSR of the program that runs, both stack
pointers and which of them it uses. -/
structure SvcCore (Rest : Type) where
  live : Block
  msp : Nat
  psp : Nat
  process : Bool
  memory : Memory
  rest : Rest

/-! Where the registers are in the frame. -/

theorem r0Slot_lt : 0 < 8 := by decide
theorem r1Slot_lt : 1 < 8 := by decide
theorem lrSlot_lt : 5 < 8 := by decide
theorem pcSlot_lt : 6 < 8 := by decide
theorem psrSlot_lt : 7 < 8 := by decide

def r0Slot : Fin 8 := ⟨0, r0Slot_lt⟩
def r1Slot : Fin 8 := ⟨1, r1Slot_lt⟩
def lrSlot : Fin 8 := ⟨5, lrSlot_lt⟩
def pcSlot : Fin 8 := ⟨6, pcSlot_lt⟩
def psrSlot : Fin 8 := ⟨7, psrSlot_lt⟩

namespace SvcCore

variable {Rest : Type}

def sp (core : SvcCore Rest) : Nat := if core.process then core.psp else core.msp

def setSp (pointer : Nat) (core : SvcCore Rest) : SvcCore Rest :=
  if core.process then { core with psp := pointer } else { core with msp := pointer }

end SvcCore

/-! ## The processor -/

/-- The frame is aligned to eight bytes. -/
def frameBase (pointer : Nat) : Nat := pointer - 32 - (pointer - 32) % 8

/-- Bit 9 of the stacked xPSR tells of the word that was skipped. -/
def frameOf (live : Block) (pointer : Nat) : Block :=
  let after := Function.update live pcSlot (live pcSlot + 2)
  if pointer % 8 = 0 then after else Function.update after psrSlot (live psrSlot ||| 1 <<< 9)

section Processor

variable {Rest : Type}

/-- `svc` at the PC: the frame is stored, and `EXC_RETURN` is in LR. -/
def exceptionEntry (core : SvcCore Rest) : SvcCore Rest × Nat :=
  let base := frameBase core.sp
  let stored := { core with memory := storeBlock core.memory base (frameOf core.live core.sp) }
  (stored.setSp base, if core.process then 0xFFFFFFFD else 0xFFFFFFF9)

def exceptionReturn (core : SvcCore Rest) : SvcCore Rest :=
  let frame := loadBlock core.memory core.sp
  let padded := (frame psrSlot).testBit 9
  let popped := core.setSp (core.sp + if padded then 36 else 32)
  { popped with
    live := if padded then Function.update frame psrSlot (frame psrSlot ^^^ 1 <<< 9) else frame }

/-- `bx lr`. -/
def bxLr (core : SvcCore Rest) : SvcCore Rest :=
  { core with live := Function.update core.live pcSlot (core.live lrSlot - core.live lrSlot % 2) }

/-! ## svc.s and syscall.c -/

def svcHandlerExt (services : Services Rest) (code : Nat → UInt8) (stackPtr : Nat) :
    Exec (SvcCore Rest) Unit := do
  let core ← get
  let svc := (code (core.memory (stackPtr + 24) - 2)).toNat
  let r0 := core.memory stackPtr
  let r1 := core.memory (stackPtr + 4)
  if svc = 1 then set { core with rest := services.threadSleep r0 core.rest }
  else if svc = 2 then set { core with rest := services.gpioToggle r0 (r1 % 2 ^ 8) core.rest }
  else if svc = 3 then Exec.panic "Warning"
  else if svc = 4 then Exec.panic "Warning"
  else if svc = 5 then set { core with rest := services.printByte (r0 % 2 ^ 8) core.rest }
  else if svc = 6 then
    set { core with
      memory := Function.update core.memory stackPtr (services.printGetStatus core.rest % 2 ^ 8) }
  else if svc = 7 then
    let (count, memory, rest) := services.readPrintBuffer r0 r1 core.memory core.rest
    set { core with memory := Function.update memory stackPtr count, rest := rest }
  else pure ()

/-- `svc_exception`, which picks the stack pointer by bit 2 of `EXC_RETURN`. -/
def svcException (services : Services Rest) (code : Nat → UInt8) (lr : Nat) :
    Exec (SvcCore Rest) Unit := do
  let core ← get
  svcHandlerExt services code (if lr &&& 0b100 = 0 then core.msp else core.psp)

/-- A stub: `svc` at the PC, and `bx lr` behind it. -/
def syscallStub (services : Services Rest) (code : Nat → UInt8) : Exec (SvcCore Rest) Unit := do
  let core ← get
  let entered := exceptionEntry core
  set entered.1
  svcException services code entered.2
  modify exceptionReturn
  modify bxLr

/-! ## A call of the kernel -/

/-- What the call with this number does by itself: the result if there is one, the memory
and the rest of the kernel; `none` for the calls that are not supported. -/
def serve (services : Services Rest) (svc r0 r1 : Nat) (memory : Memory) (rest : Rest) :
    Option (Option Nat × Memory × Rest) :=
  match svc with
  | 1 => some (none, memory, services.threadSleep r0 rest)
  | 2 => some (none, memory, services.gpioToggle r0 (r1 % 2 ^ 8) rest)
  | 3 => none
  | 4 => none
  | 5 => some (none, memory, services.printByte (r0 % 2 ^ 8) rest)
  | 6 => some (some (services.printGetStatus rest % 2 ^ 8), memory, rest)
  | 7 =>
      let (count, memory, rest) := services.readPrintBuffer r0 r1 memory rest
      some (some count, memory, rest)
  | _ => some (none, memory, rest)

/-- The result is put where R0 comes back from. -/
def answered (stackPtr : Nat) (result : Option Nat) (memory : Memory) : Memory :=
  result.elim memory (Function.update memory stackPtr)

/-- The registers as a call of a function leaves them. -/
def returned (live : Block) (result : Option Nat) : Block :=
  Function.update (Function.update live pcSlot (live lrSlot - live lrSlot % 2)) r0Slot
    (result.getD (live r0Slot))

/-- A program with room for the frame on the stack that it uses. -/
structure Caller (core : SvcCore Rest) : Prop where
  aligned : core.sp % 4 = 0
  room : 40 ≤ core.sp
  psr : (core.live psrSlot).testBit 9 = false

variable {services : Services Rest} {code : Nat → UInt8} {core : SvcCore Rest}

theorem sp_setSp (pointer : Nat) : (core.setSp pointer).sp = pointer := by
  rw [SvcCore.setSp]
  split
  · rename_i process
    exact if_pos process
  · rename_i main
    exact if_neg main

theorem setSp_fields (pointer : Nat) : (core.setSp pointer).memory = core.memory ∧
    (core.setSp pointer).rest = core.rest ∧ (core.setSp pointer).process = core.process := by
  rw [SvcCore.setSp]
  split
  · exact ⟨rfl, rfl, rfl⟩
  · exact ⟨rfl, rfl, rfl⟩

/-- The stack pointer is back where it was, the other one has not moved. -/
theorem setSp_back (base : Nat) (pushed memory : Memory) (rest : Rest) (live : Block) :
    { SvcCore.setSp core.sp { SvcCore.setSp base { core with memory := pushed } with
        memory := memory
        rest := rest } with live := live } =
      { core with live := live, memory := memory, rest := rest } := by
  cases process : core.process with
  | true => simp [SvcCore.setSp, SvcCore.sp, process]
  | false => simp [SvcCore.setSp, SvcCore.sp, process]

/-- The handler is given the stack pointer that the frame was stored at. -/
theorem excReturn_sp (lr : Nat)
    (taken : lr = if core.process then 0xFFFFFFFD else 0xFFFFFFF9) :
    (if lr &&& 0b100 = 0 then core.msp else core.psp) = core.sp := by
  rw [taken, SvcCore.sp]
  split
  · rfl
  · rfl

theorem frameOf_apply (live : Block) (pointer : Nat) {index : Fin 8} (pc : index ≠ pcSlot)
    (psr : index ≠ psrSlot) : frameOf live pointer index = live index := by
  rw [frameOf]
  split
  · exact Function.update_of_ne pc _ _
  · rw [Function.update_of_ne psr, Function.update_of_ne pc]

theorem frameOf_pc (live : Block) (pointer : Nat) :
    frameOf live pointer pcSlot = live pcSlot + 2 := by
  rw [frameOf]
  split
  · exact Function.update_self ..
  · rw [Function.update_of_ne (by decide), Function.update_self]

theorem run_svcHandlerExt_served {stackPtr : Nat} {result : Option Nat} {memory : Memory}
    {rest : Rest}
    (served : serve services (code (core.memory (stackPtr + 24) - 2)).toNat (core.memory stackPtr)
      (core.memory (stackPtr + 4)) core.memory core.rest = some (result, memory, rest)) :
    (svcHandlerExt services code stackPtr).run core =
      .ok () { core with memory := answered stackPtr result memory, rest := rest } := by
  rw [svcHandlerExt, Exec.run_bind_of_ok (EStateM.run_get core)]
  dsimp only
  generalize (code (core.memory (stackPtr + 24) - 2)).toNat = svc at served ⊢
  unfold serve at served
  split at served
  · cases served
    rfl
  · cases served
    rfl
  · cases served
  · cases served
  · cases served
    rfl
  · cases served
    rfl
  · cases served
    rfl
  · rename_i one two three four five six seven
    cases served
    simp only [if_neg one, if_neg two, if_neg three, if_neg four, if_neg five, if_neg six,
      if_neg seven]
    rfl

theorem run_svcHandlerExt_refused {stackPtr : Nat}
    (refused : serve services (code (core.memory (stackPtr + 24) - 2)).toNat (core.memory stackPtr)
      (core.memory (stackPtr + 4)) core.memory core.rest = none) :
    (svcHandlerExt services code stackPtr).run core = .error (.panic "Warning") core := by
  rw [svcHandlerExt, Exec.run_bind_of_ok (EStateM.run_get core)]
  dsimp only
  generalize (code (core.memory (stackPtr + 24) - 2)).toNat = svc at refused ⊢
  unfold serve at refused
  split at refused
  · cases refused
  · cases refused
  · rfl
  · rfl
  · cases refused
  · cases refused
  · cases refused
  · cases refused

theorem frameOf_psr (live : Block) (pointer : Nat) :
    frameOf live pointer psrSlot =
      if pointer % 8 = 0 then live psrSlot else live psrSlot ||| 1 <<< 9 := by
  rw [frameOf]
  split
  · exact Function.update_of_ne (by decide) _ _
  · exact Function.update_self ..

theorem psr_restored {psr : Nat} (clear : psr.testBit 9 = false) :
    (psr ||| 1 <<< 9) ^^^ 1 <<< 9 = psr := by
  apply Nat.eq_of_testBit_eq
  intro bit
  rw [Nat.testBit_xor, Nat.testBit_or, Nat.one_shiftLeft, Nat.testBit_two_pow]
  by_cases nine : 9 = bit
  · subst nine
    simp [clear]
  · simp [nine]

theorem popped_eq {live popped : Block} {value : Nat} (r0 : popped r0Slot = value)
    (others : ∀ index, index ≠ r0Slot → index ≠ pcSlot → popped index = live index) :
    Function.update popped pcSlot (popped lrSlot - popped lrSlot % 2) =
      Function.update (Function.update live pcSlot (live lrSlot - live lrSlot % 2)) r0Slot
        value := by
  rw [others lrSlot (by decide) (by decide)]
  funext index
  by_cases zero : index = r0Slot
  · rw [zero, Function.update_of_ne (by decide), Function.update_self, r0]
  · rw [Function.update_of_ne zero]
    by_cases pc : index = pcSlot
    · rw [pc, Function.update_self, Function.update_self]
    · rw [Function.update_of_ne pc, Function.update_of_ne pc]
      exact others index zero pc

/-- What is popped is what was pushed, but for R0; `bx lr` then goes on behind the call. -/
theorem bxLr_exceptionReturn {live : Block} {pointer value : Nat}
    (psr : (live psrSlot).testBit 9 = false) (aligned : pointer % 4 = 0) (room : 40 ≤ pointer)
    (base : core.sp = frameBase pointer)
    (frame : loadBlock core.memory core.sp = Function.update (frameOf live pointer) r0Slot value) :
    bxLr (exceptionReturn core) =
      { core.setSp pointer with
        live := Function.update (Function.update live pcSlot (live lrSlot - live lrSlot % 2))
          r0Slot value } := by
  have stacked : Function.update (frameOf live pointer) r0Slot value psrSlot =
      if pointer % 8 = 0 then live psrSlot else live psrSlot ||| 1 <<< 9 :=
    (Function.update_of_ne (by decide) _ _).trans (frameOf_psr live pointer)
  rw [exceptionReturn, frame, stacked]
  by_cases even : pointer % 8 = 0
  · have back : core.sp + 32 = pointer := by
      rw [base, frameBase]
      omega
    have others : ∀ index, index ≠ r0Slot → index ≠ pcSlot →
        Function.update (frameOf live pointer) r0Slot value index = live index := by
      intro index zero pc
      rw [Function.update_of_ne zero]
      by_cases last : index = psrSlot
      · rw [last, frameOf_psr, if_pos even]
      · exact frameOf_apply live pointer pc last
    have popped := popped_eq (Function.update_self ..) others
    simp only [even, if_true, psr, Bool.false_eq_true, if_false, back]
    exact congrArg (fun live => { core.setSp pointer with live := live }) popped
  · have back : core.sp + 36 = pointer := by
      rw [base, frameBase]
      omega
    have padded : (live psrSlot ||| 1 <<< 9).testBit 9 = true := by
      rw [Nat.testBit_or, Nat.one_shiftLeft, Nat.testBit_two_pow]
      simp
    have first : Function.update (Function.update (frameOf live pointer) r0Slot value) psrSlot
        (live psrSlot) r0Slot = value := by
      rw [Function.update_of_ne (by decide), Function.update_self]
    have others : ∀ index, index ≠ r0Slot → index ≠ pcSlot →
        Function.update (Function.update (frameOf live pointer) r0Slot value) psrSlot
          (live psrSlot) index = live index := by
      intro index zero pc
      by_cases last : index = psrSlot
      · rw [last, Function.update_self]
      · rw [Function.update_of_ne last, Function.update_of_ne zero]
        exact frameOf_apply live pointer pc last
    have popped := popped_eq first others
    simp only [even, if_false, padded, if_true, back, psr_restored psr]
    exact congrArg (fun live => { core.setSp pointer with live := live }) popped

/-- The memory as the call finds it: the frame is in it. -/
def entered (core : SvcCore Rest) : Memory :=
  storeBlock core.memory (frameBase core.sp) (frameOf core.live core.sp)

/-- Where the console is read, the frame is not in the buffer of the caller. -/
def KeepsFrame (services : Services Rest) (code : Nat → UInt8) (core : SvcCore Rest) : Prop :=
  (code (core.live pcSlot)).toNat = 7 → ∀ address, frameBase core.sp ≤ address →
    address < frameBase core.sp + 32 →
    (services.readPrintBuffer (core.live r0Slot) (core.live r1Slot) (entered core)
      core.rest).2.1 address = entered core address

/-- What the call with the number at the PC does. -/
def serves (services : Services Rest) (code : Nat → UInt8) (core : SvcCore Rest) :
    Option (Option Nat × Memory × Rest) :=
  serve services (code (core.live pcSlot)).toNat (core.live r0Slot) (core.live r1Slot)
    (entered core) core.rest

theorem entered_word (core : SvcCore Rest) (index : Fin 8) :
    entered core (frameBase core.sp + 4 * index.val) = frameOf core.live core.sp index :=
  congrFun (loadBlock_storeBlock core.memory (frameBase core.sp) (frameOf core.live core.sp)) index

/-- Only the reading of the console touches memory. -/
theorem serve_memory {svc r0 r1 : Nat} {before memory : Memory} {rest after : Rest}
    {result : Option Nat}
    (served : serve services svc r0 r1 before rest = some (result, memory, after)) :
    memory = before ∨ svc = 7 ∧ memory = (services.readPrintBuffer r0 r1 before rest).2.1 := by
  unfold serve at served
  split at served
  · cases served
    exact .inl rfl
  · cases served
    exact .inl rfl
  · cases served
  · cases served
  · cases served
    exact .inl rfl
  · cases served
    exact .inl rfl
  · cases served
    exact .inr ⟨rfl, rfl⟩
  · cases served
    exact .inl rfl

/-- The frame that is popped has the result. -/
theorem loadBlock_answered {result : Option Nat} {memory : Memory}
    (kept : ∀ address, frameBase core.sp ≤ address → address < frameBase core.sp + 32 →
      memory address = entered core address) :
    loadBlock (answered (frameBase core.sp) result memory) (frameBase core.sp) =
      Function.update (frameOf core.live core.sp) r0Slot (result.getD (core.live r0Slot)) := by
  have frame : loadBlock memory (frameBase core.sp) = frameOf core.live core.sp :=
    (loadBlock_congr kept).trans (loadBlock_storeBlock ..)
  cases result with
  | none =>
      have r0 : frameOf core.live core.sp r0Slot = core.live r0Slot :=
        frameOf_apply _ _ (by decide) (by decide)
      rw [answered, Option.elim_none, Option.getD_none, frame, ← r0, Function.update_eq_self]
  | some value =>
      rw [answered, Option.elim_some, Option.getD_some, ← frame]
      funext index
      by_cases zero : index = r0Slot
      · rw [zero, Function.update_self]
        exact Function.update_self ..
      · have apart : frameBase core.sp + 4 * index.val ≠ frameBase core.sp := by
          have positive : index.val ≠ 0 := fun same => zero (Fin.ext same)
          omega
        rw [Function.update_of_ne zero]
        exact Function.update_of_ne apart _ _

/-- For the program that makes it, a system call is a call of a function: it comes back to
LR with both stack pointers and all registers but R0 as they were, and R0 has the result if
there is one. The calls that are not supported panic. -/
theorem syscall_returns (caller : Caller core) (keeps : KeepsFrame services code core) :
    (serves services code core = none →
      ∃ after, (syscallStub services code).run core = .error (.panic "Warning") after) ∧
    ∀ result memory rest, serves services code core = some (result, memory, rest) →
      (syscallStub services code).run core = .ok () { core with
        live := returned core.live result
        memory := answered (frameBase core.sp) result memory
        rest := rest } := by
  let stored : SvcCore Rest :=
    SvcCore.setSp (frameBase core.sp) { core with memory := entered core }
  let lr := if core.process then 0xFFFFFFFD else 0xFFFFFFF9
  obtain ⟨pushed, still, process⟩ :=
    @setSp_fields _ { core with memory := entered core } (frameBase core.sp)
  have pointer : (if lr &&& 0b100 = 0 then stored.msp else stored.psp) = frameBase core.sp :=
    (excReturn_sp lr (process ▸ rfl)).trans (sp_setSp _)
  have r0 : entered core (frameBase core.sp) = core.live r0Slot :=
    (entered_word core r0Slot).trans (frameOf_apply _ _ (by decide) (by decide))
  have r1 : entered core (frameBase core.sp + 4) = core.live r1Slot :=
    (entered_word core r1Slot).trans (frameOf_apply _ _ (by decide) (by decide))
  have word : entered core (frameBase core.sp + 24) = core.live pcSlot + 2 :=
    (entered_word core pcSlot).trans (frameOf_pc ..)
  have pc : entered core (frameBase core.sp + 24) - 2 = core.live pcSlot := by
    rw [word]
    rfl
  have same : serve services (code (stored.memory (frameBase core.sp + 24) - 2)).toNat
      (stored.memory (frameBase core.sp)) (stored.memory (frameBase core.sp + 4)) stored.memory
      stored.rest = serves services code core := by
    rw [pushed, still]
    dsimp only
    rw [r0, r1, pc]
    rfl
  have exception : (svcException services code lr).run stored =
      (svcHandlerExt services code (frameBase core.sp)).run stored := by
    rw [svcException, Exec.run_bind_of_ok (EStateM.run_get stored), pointer]
  have stub : (syscallStub services code).run core = (do
      svcException services code lr
      modify exceptionReturn
      modify bxLr : Exec (SvcCore Rest) Unit).run stored := by
    rw [syscallStub, Exec.run_bind_of_ok (EStateM.run_get core)]
    rfl
  rw [stub]
  constructor
  · intro refused
    have panics := run_svcHandlerExt_refused (same.trans refused)
    exact ⟨stored, Exec.run_bind_of_error (exception.trans panics)⟩
  · intro result memory rest served
    have runs := run_svcHandlerExt_served (same.trans served)
    have kept : ∀ address, frameBase core.sp ≤ address → address < frameBase core.sp + 32 →
        memory address = entered core address := by
      intro address low high
      rcases serve_memory served with untouched | ⟨seven, read⟩
      · rw [untouched]
      · rw [read]
        exact keeps seven address low high
    rw [Exec.run_bind_of_ok (exception.trans runs)]
    let after : SvcCore Rest :=
      { stored with memory := answered (frameBase core.sp) result memory, rest := rest }
    have back := @bxLr_exceptionReturn _ after core.live core.sp (result.getD (core.live r0Slot))
      caller.psr caller.aligned caller.room (sp_setSp _)
      ((congrArg _ (sp_setSp _)).trans (loadBlock_answered kept))
    change EStateM.Result.ok () (bxLr (exceptionReturn after)) = _
    rw [back]
    exact congrArg _ (setSp_back _ _ _ _ _)

end Processor

/-- A console that has something to say, asked from a stack that needs a word of padding. -/
def statusServices : Services Unit where
  threadSleep _ rest := rest
  gpioToggle _ _ rest := rest
  printByte _ rest := rest
  printGetStatus _ := 1
  readPrintBuffer _ _ memory rest := (0, memory, rest)

def statusCaller : SvcCore Unit where
  live index := [7, 0, 0, 0, 0, 0x400101, 0x400200, 0x01000000].getD index.val 0
  msp := 0x20400100
  psp := 0x20401004
  process := true
  memory _ := 0
  rest := ()

theorem syscall_returns_status :
    (syscallStub statusServices fun _ => 6).run statusCaller = .ok () { statusCaller with
      live := returned statusCaller.live (some 1)
      memory := answered (frameBase statusCaller.sp) (some 1) (entered statusCaller)
      rest := () } :=
  (@syscall_returns _ statusServices (fun _ => 6) statusCaller ⟨rfl, by decide, rfl⟩
    (fun _ _ _ _ => rfl)).2 (some 1) (entered statusCaller) () rfl

end Vanilla.Kernel
