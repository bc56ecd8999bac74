import Vanilla.Kernel.Context

/-! # How a thread is entered

`scheduler_run` unstacks the first thread by hand. Every other thread starts with
the exception return behind its first PendSV.
-/

namespace Vanilla.Kernel.Context

/-- The registers a thread function starts with, its R4-R11 as a block. -/
structure EntryState where
  registers : Block
  r0 : Nat
  r1 : Nat
  r2 : Nat
  r3 : Nat
  r12 : Nat
  lr : Nat
  pc : Nat
  sp : Nat

/-- The processor unstacks the exception frame at PSP. -/
def exceptionReturn (cpu : Cpu) : EntryState where
  registers := cpu.registers
  r0 := cpu.memory cpu.psp
  r1 := cpu.memory (cpu.psp + 4)
  r2 := cpu.memory (cpu.psp + 8)
  r3 := cpu.memory (cpu.psp + 12)
  r12 := cpu.memory (cpu.psp + 16)
  lr := cpu.memory (cpu.psp + 20)
  pc := cpu.memory (cpu.psp + 24)
  sp := cpu.psp + 32

/-- `scheduler_run`, from `pop {r4-r11}` to `bx lr`. -/
def schedulerRun (cpu : Cpu) : EntryState :=
  let psp := cpu.memory cpu.nextThread
  let frame := psp + 32
  -- behind R0-R3 and R12, the slot of LR is skipped
  let slot := frame + 16 + 4 + 4
  let lr := cpu.memory slot
  { registers := loadBlock cpu.memory psp
    r0 := cpu.memory frame
    r1 := cpu.memory (frame + 4)
    r2 := cpu.memory (frame + 8)
    r3 := cpu.memory (frame + 12)
    r12 := cpu.memory (frame + 16)
    lr := lr
    pc := lr
    sp := slot + 4 + 4 }

/-- The function runs with its argument, and returns to `threadExit`. -/
structure EnteredAs (state : EntryState) (function arg threadExit : Nat) : Prop where
  pc : state.pc = function
  r0 : state.r0 = arg
  lr : state.lr = threadExit

/-! ## Entries of a run -/

inductive EntryPath where
  | schedulerRun
  | pendsv
deriving DecidableEq, Repr

/-- A thread function starts: how, which, and with what. -/
structure ThreadEntry where
  path : EntryPath
  function : Nat
  arg : Nat
  state : EntryState

/-- The thread function that an event starts. -/
def System.entries (before : System) : SystemEvent → List ThreadEntry
  | .start thread =>
      match before.image thread.control with
      | .fresh function arg =>
          [⟨.schedulerRun, function, arg,
            Context.schedulerRun { before.cpu with nextThread := thread.control }⟩]
      | .saved _ => []
  | .pendsv =>
      match before.parkCurrent before.cpu.nextThread with
      | .fresh function arg =>
          [⟨.pendsv, function, arg, exceptionReturn (pendsvException before.cpu)⟩]
      | .saved _ => []
  | _ => []

/-- A system, and every thread function that has been started so far. -/
structure Launched where
  system : System
  entries : List ThreadEntry

inductive LaunchStep (threadExit : Nat) (before : Launched) : SystemEvent → Launched → Prop where
  | intro {event : SystemEvent} {after : System} :
      SystemStep threadExit before.system event after →
      LaunchStep threadExit before event ⟨after, before.system.entries event ++ before.entries⟩

/-- Every thread function returns to `thread_exit`. -/
def AlwaysExits (threadExit : Nat) (start : System) : Prop :=
  ∀ events launched, Run (LaunchStep threadExit) ⟨start, []⟩ events launched →
    ∀ entry ∈ launched.entries, EnteredAs entry.state entry.function entry.arg threadExit

/-! ## The two ways to unstack a frame -/

section Unstack

variable {threadExit function arg : Nat} {cpu : Cpu}

/-- The exception return agrees with the frame. -/
theorem StartsAt.entered (starts : StartsAt cpu function arg threadExit) :
    EnteredAs (exceptionReturn cpu) function arg threadExit :=
  ⟨starts.pc, starts.r0, starts.lr⟩

/-- `scheduler_run` leaves the function in LR. -/
theorem schedulerRun_fresh
    (image : ImageAt threadExit cpu.memory (cpu.memory cpu.nextThread) (.fresh function arg)) :
    (schedulerRun cpu).pc = function ∧ (schedulerRun cpu).r0 = arg ∧
      (schedulerRun cpu).lr = function :=
  ⟨image.2.2.1, image.1, image.2.2.1⟩

theorem schedulerRun_entered_iff
    (image : ImageAt threadExit cpu.memory (cpu.memory cpu.nextThread) (.fresh function arg)) :
    EnteredAs (schedulerRun cpu) function arg threadExit ↔ function = threadExit := by
  obtain ⟨pc, r0, lr⟩ := schedulerRun_fresh image
  constructor
  · intro entered
    exact lr.symm.trans entered.lr
  · intro same
    exact ⟨pc, r0, lr.trans same⟩

end Unstack

/-- How an entry was made decides where the function returns to. -/
def ThreadEntry.Settled (threadExit : Nat) (entry : ThreadEntry) : Prop :=
  EnteredAs entry.state entry.function entry.arg threadExit ↔
    entry.path = .pendsv ∨ entry.function = threadExit

theorem Consistent.entries_settled {threadExit : Nat} {before after : System}
    {event : SystemEvent} (consistent : Consistent threadExit before)
    (step : SystemStep threadExit before event after) :
    ∀ entry ∈ before.entries event, entry.Settled threadExit := by
  intro entry member
  cases step with
  | work cpu same kept => cases member
  | create thread function arg placed apart => cases member
  | exit => cases member
  | start thread known idle =>
      have parked := (consistent.parked thread known
        (idle ▸ (consistent.placed thread known).control)).image
      rw [System.entries] at member
      cases image : before.image thread.control with
      | saved context =>
          rw [image] at member
          cases member
      | fresh function arg =>
          rw [image] at member parked
          rw [List.mem_singleton.mp member]
          have entered := @schedulerRun_entered_iff threadExit function arg
            { before.cpu with nextThread := thread.control } parked
          constructor
          · intro exits
            exact .inr (entered.mp exits)
          · intro way
            cases way with
            | inl path => cases path
            | inr same => exact entered.mpr same
  | pendsv thread known next room =>
      have kept : (saveCurrent before.cpu).nextThread = thread.control := by
        rw [← next, saveCurrent]
        split <;> rfl
      have resumes := (consistent.saved room known).resumes kept
      rw [System.entries, next] at member
      cases image : before.parkCurrent thread.control with
      | saved context =>
          rw [image] at member
          cases member
      | fresh function arg =>
          rw [image] at member resumes
          rw [List.mem_singleton.mp member]
          exact ⟨fun _ => .inl rfl, fun _ => StartsAt.entered resumes⟩

theorem entries_settled_run {threadExit : Nat} {start : System} {launched : Launched}
    {events : List SystemEvent} (booting : Booting start)
    (run : Run (LaunchStep threadExit) ⟨start, []⟩ events launched) :
    Consistent threadExit launched.system ∧
      ∀ entry ∈ launched.entries, entry.Settled threadExit := by
  apply run.invariant fun launched => Consistent threadExit launched.system ∧
    ∀ entry ∈ launched.entries, entry.Settled threadExit
  · intro before event after holds step
    cases step with
    | intro step =>
        refine ⟨holds.1.step step, ?_⟩
        intro entry member
        cases List.mem_append.mp member with
        | inl new => exact holds.1.entries_settled step entry new
        | inr old => exact holds.2 entry old
  · exact ⟨booting.consistent, fun entry member => absurd member List.not_mem_nil⟩

/-- In every run, a thread function is entered with its argument and returns to
`thread_exit` exactly when PendSV starts it, unless it is `thread_exit` itself. -/
theorem entered_with_thread_exit_iff {threadExit : Nat} {start : System} {launched : Launched}
    {events : List SystemEvent} (booting : Booting start)
    (run : Run (LaunchStep threadExit) ⟨start, []⟩ events launched) {entry : ThreadEntry}
    (member : entry ∈ launched.entries) :
    EnteredAs entry.state entry.function entry.arg threadExit ↔
      entry.path = .pendsv ∨ entry.function = threadExit :=
  (entries_settled_run booting run).2 entry member

/-! ## The first thread -/

def madeSystem : System := blankSystem.created firstThread 0x00404001 7 0x00405001

def firstEntry : ThreadEntry where
  path := .schedulerRun
  function := 0x00404001
  arg := 7
  state := schedulerRun { madeSystem.cpu with nextThread := firstThread.control }

def firstLaunched : Launched where
  system := { madeSystem with cpu := { madeSystem.cpu with currThread := firstThread.control } }
  entries := [firstEntry]

theorem firstLaunched_run : Run (LaunchStep 0x00405001) ⟨blankSystem, []⟩
    [.create firstThread 0x00404001 7, .start firstThread] firstLaunched :=
  .cons (.intro (.create firstThread 0x00404001 7 firstThread_placed (by simp [blankSystem])))
    (.cons (.intro (.start firstThread (List.mem_singleton.mpr rfl) rfl)) (.nil _))

theorem entered_with_thread_exit_iff_first :
    EnteredAs firstEntry.state 0x00404001 7 0x00405001 ↔
      firstEntry.path = .pendsv ∨ 0x00404001 = 0x00405001 :=
  entered_with_thread_exit_iff ⟨rfl, rfl⟩ firstLaunched_run (List.mem_singleton.mpr rfl)

/-- The function of the first thread returns to itself. -/
theorem first_thread_returns_to_itself : ¬ AlwaysExits 0x00405001 blankSystem := by
  intro always
  have entered := always _ _ firstLaunched_run firstEntry (List.mem_singleton.mpr rfl)
  exact absurd entered.lr (by decide)

end Vanilla.Kernel.Context
