import Vanilla.Boot.Hash
import Vanilla.Foundation.Run

namespace Vanilla.Boot

/-! The way from a reset into the kernel and back. Bootloader and kernel share 32
bytes of RAM, which a reset leaves alone: in them the kernel asks the bootloader
to stay. -/

/-- `boot_signature`, at the same address in both programs. -/
abbrev Signature := Nat → UInt8

/-- `"StayInBootloader"`. -/
def bootTrigger : List UInt8 :=
  [0x53, 0x74, 0x61, 0x79, 0x49, 0x6E, 0x42, 0x6F, 0x6F, 0x74, 0x6C, 0x6F, 0x61, 0x64, 0x65, 0x72]

def clearBootSignature (signature : Signature) : Signature := fun index =>
  if index < 32 then 0x00 else signature index

def checkBootSignature (signature : Signature) : Bool :=
  (List.range 16).all fun index => signature index == bootTrigger.getD index 0

/-- `memory_copy("StayInBootloader", boot_signature, 16)`. -/
def copyTrigger (signature : Signature) : Signature := fun index =>
  if index < 16 then bootTrigger.getD index 0 else signature index

/-- A word of flash, the least significant byte first. -/
def flashWord (contents : Contents) (address : Nat) : Nat :=
  (contents address).toNat + 2 ^ 8 * (contents (address + 1)).toNat +
    2 ^ 16 * (contents (address + 2)).toNat + 2 ^ 24 * (contents (address + 3)).toNat

/-- The address fields of `struct image_info`, in order and by their offsets. -/
def imageInfo : List (Nat × Nat) :=
  [(8, 0x00400000), (12, 0x4000), (16, 0x00403E00), (20, 0x00404000), (24, 0x1FC000),
    (28, 0x00404000)]

def checkInfoMatch (contents : Contents) : Bool :=
  imageInfo.all fun field => flashWord contents (kernelStart + field.1) == field.2

/-! ## The board -/

/-- Which program runs; none between a reset and the start of the bootloader. -/
inductive Running where
  | none
  | bootloader
  | kernel
deriving DecidableEq

structure Board where
  contents : Contents
  signature : Signature
  running : Running

/-- The flash holds a kernel that the bootloader starts. -/
def kernelOk (engine : Engine) (contents : Contents) : Bool :=
  checkInfoMatch contents && verifyKernelHash engine contents

/-- `main` of the bootloader up to `start_kernel` or to the frames of the host. -/
def bootMain (engine : Engine) (pressed : Bool) (board : Board) : Board :=
  let stays := checkBootSignature board.signature
  let signature := if stays then clearBootSignature board.signature else board.signature
  let executeKernel := !stays && !pressed
  { board with
    signature := signature
    running := if executeKernel && kernelOk engine board.contents then .kernel else .bootloader }

/-- What the kernel does for a byte 0x00 of the host, and in `panic_handler`. -/
def askToStay (board : Board) : Board :=
  { board with signature := copyTrigger board.signature, running := .none }

inductive BoardEvent where
  | boot (pressed : Bool)
  | hostZero
  | panic
  /-- The frames of the host have changed the flash. -/
  | program (contents : Contents)
  | reset
  /-- Without power the RAM loses what it holds. -/
  | powerOn (signature : Signature)

inductive BoardStep (engine : Engine) : Board → BoardEvent → Board → Prop where
  | boot {board : Board} (pressed : Bool) : board.running = .none →
      BoardStep engine board (.boot pressed) (bootMain engine pressed board)
  | hostZero {board : Board} : board.running = .kernel →
      BoardStep engine board .hostZero (askToStay board)
  | panic {board : Board} : board.running = .kernel →
      BoardStep engine board .panic (askToStay board)
  | program {board : Board} (contents : Contents) : board.running = .bootloader →
      BoardStep engine board (.program contents) { board with contents := contents }
  | reset (board : Board) : BoardStep engine board .reset { board with running := .none }
  | powerOn (board : Board) (signature : Signature) :
      BoardStep engine board (.powerOn signature)
        { board with signature := signature, running := .none }

/-! ## The request by itself -/

/-- The request is pending: it stands until the next start of the bootloader. -/
def pendingAfter (pending : Bool) : BoardEvent → Bool
  | .boot _ => false
  | .hostZero => true
  | .panic => true
  | .program _ => pending
  | .reset => pending
  | .powerOn signature => checkBootSignature signature

def pending (start : Board) (events : List BoardEvent) : Bool :=
  events.foldl pendingAfter (checkBootSignature start.signature)

section Signature

variable {signature : Signature}

theorem checkBootSignature_copyTrigger : checkBootSignature (copyTrigger signature) = true := by
  rw [checkBootSignature, List.all_eq_true]
  intro index member
  rw [copyTrigger, if_pos (List.mem_range.mp member)]
  exact beq_self_eq_true _

theorem checkBootSignature_clear : checkBootSignature (clearBootSignature signature) = false := by
  rw [checkBootSignature, List.all_eq_false]
  refine ⟨0, List.mem_range.mpr (by decide), ?_⟩
  rw [clearBootSignature, if_pos (by decide)]
  decide

end Signature

section Handshake

variable {engine : Engine} {start before after board : Board} {event : BoardEvent}
  {events : List BoardEvent}

/-- The bytes of RAM hold the request. -/
theorem BoardStep.pending (step : BoardStep engine before event after) :
    checkBootSignature after.signature =
      pendingAfter (checkBootSignature before.signature) event := by
  cases step with
  | boot pressed _ =>
      by_cases stays : checkBootSignature before.signature = true
      · simp only [bootMain, stays, if_true, pendingAfter]
        exact checkBootSignature_clear
      · simp only [bootMain, stays, pendingAfter]
        exact Bool.eq_false_iff.mpr stays
  | hostZero _ => exact checkBootSignature_copyTrigger
  | panic _ => exact checkBootSignature_copyTrigger
  | program contents _ => rfl
  | reset => rfl
  | powerOn signature => rfl

theorem pending_of_run (run : Run (BoardStep engine) start events board) :
    checkBootSignature board.signature = pending start events := by
  rw [pending]
  induction run with
  | nil => rfl
  | cons step _ induction =>
      rw [induction, step.pending]
      rfl

theorem bootMain_kernel_iff (pressed : Bool) :
    (bootMain engine pressed board).running = .kernel ↔
      checkBootSignature board.signature = false ∧ pressed = false ∧
        kernelOk engine board.contents = true := by
  cases checked : checkBootSignature board.signature <;> cases pressed <;>
    cases good : kernelOk engine board.contents <;> simp [bootMain, checked, good]

/-- The kernel only runs from flash that the bootloader has accepted. -/
def Accepted (engine : Engine) (board : Board) : Prop :=
  board.running = .kernel → kernelOk engine board.contents = true

theorem BoardStep.accepted (step : BoardStep engine before event after) :
    Accepted engine after := by
  cases step with
  | boot pressed _ => exact fun runs => ((bootMain_kernel_iff pressed).mp runs).2.2
  | hostZero _ => exact nofun
  | panic _ => exact nofun
  | program contents programs =>
      intro runs
      cases programs.symm.trans runs
  | reset => exact nofun
  | powerOn signature => exact nofun

/-- Over any resets, requests and downloads the kernel runs from flash with matching
addresses and the recorded digest. A start of the bootloader goes on to the kernel
exactly if no request is pending, the button is not pressed and the flash is
accepted; it takes a pending request away. -/
theorem boot_handshake (accepted : Accepted engine start)
    (run : Run (BoardStep engine) start events board) :
    (board.running = .kernel →
      checkInfoMatch board.contents = true ∧ verifyKernelHash engine board.contents = true) ∧
    ∀ pressed next, BoardStep engine board (.boot pressed) next →
      (next.running = .kernel ↔ pending start events = false ∧ pressed = false ∧
        kernelOk engine board.contents = true) ∧
      (next.running ≠ .kernel → next.running = .bootloader) ∧
      checkBootSignature next.signature = false := by
  have kept := run.invariant (Accepted engine) (fun _ _ _ _ step => step.accepted) accepted
  constructor
  · intro runs
    have good := kept runs
    rw [kernelOk, Bool.and_eq_true] at good
    exact good
  · intro pressed next boots
    have after := pending_of_run (run.snoc boots)
    cases boots with
    | boot _ _ =>
        refine ⟨?_, ?_, ?_⟩
        · rw [bootMain_kernel_iff, pending_of_run run]
        · intro stays
          by_contra other
          cases ran : (bootMain engine pressed board).running with
          | none =>
              rw [bootMain] at ran
              simp only at ran
              split at ran <;> cases ran
          | bootloader => exact other ran
          | kernel => exact stays ran
        · rw [after, pending, List.foldl_append]
          rfl

end Handshake

/-! ## A kernel that panics -/

/-- The addresses of the image, and a digest of zeros over 32 bytes. -/
def zeroKernel : Contents := fun address =>
  if address = 0x0040400A then 0x40
  else if address = 0x0040400D then 0x40
  else if address = 0x00404011 then 0x3E
  else if address = 0x00404012 then 0x40
  else if address = 0x00404015 then 0x40
  else if address = 0x00404016 then 0x40
  else if address = 0x00404019 then 0xC0
  else if address = 0x0040401A then 0x1F
  else if address = 0x0040401D then 0x40
  else if address = 0x0040401E then 0x40
  else if address = hashSector + 32 then 0x20
  else 0

def zeroDigest : Engine := fun _ => .replicate 32 0

def sleepingBoard : Board := ⟨zeroKernel, fun _ => 0, .none⟩

theorem kernelOk_zeroKernel : kernelOk zeroDigest zeroKernel = true := by decide +kernel

theorem boot_handshake_panic :
    (bootMain zeroDigest false (askToStay (bootMain zeroDigest false sleepingBoard))).running ≠
      .kernel := by
  have starts : (bootMain zeroDigest false sleepingBoard).running = .kernel :=
    (bootMain_kernel_iff false).mpr ⟨by decide, rfl, kernelOk_zeroKernel⟩
  have run : Run (BoardStep zeroDigest) sleepingBoard [.boot false, .panic]
      (askToStay (bootMain zeroDigest false sleepingBoard)) :=
    .cons (.boot false rfl) (.cons (.panic starts) (.nil _))
  intro runs
  have starting := (boot_handshake (nofun : Accepted zeroDigest sleepingBoard) run).2 false _
    (.boot false rfl)
  exact absurd (starting.1.mp runs).1 (by decide)

end Vanilla.Boot
