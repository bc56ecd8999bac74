import Vanilla.Kernel.Runs

/-! # When a thread can be blocked

`thread_block` and `thread_unblock` on every thread of a sound system: they do
what they say for some threads, and fault on all others.
-/

namespace Vanilla.Kernel

open Mm

/-- `thread_block` returns, with the thread in `blocked_q`. -/
def Blocks (kernel : Machine) (tid : Nat) : Prop :=
  ∃ thread after blocked, threadOf kernel tid = some thread ∧
    (threadBlock tid).run kernel = .ok () after ∧ Holds after .blockedQ blocked ∧
    thread ∈ blocked

/-- `thread_unblock` returns, with the thread out of `blocked_q`. -/
def Unblocks (kernel : Machine) (tid : Nat) : Prop :=
  ∃ thread after blocked, threadOf kernel tid = some thread ∧
    (threadUnblock tid).run kernel = .ok () after ∧ Holds after .blockedQ blocked ∧
    thread ∉ blocked

section Outcome

variable {linker : Linker} {lists : KernelLists} {model : Model} {spare : List Nat}
  {thread : ThreadPtr} {tid : Nat}

/-! ## Faults -/

section OnOtherThread

variable {operation : SchedulingClass → Option (ThreadPtr → Exec Machine Unit)}

theorem faults_onOtherThread_curr (isCurr : model.currThread = some thread) :
    Faults lists model (onOtherThread operation (some thread)) (.panic "ERROR") := by
  apply Faults.get
  have condition : some thread = (model.withLists lists).currThread := isCurr.symm
  rw [if_pos condition]
  exact ⟨_, rfl⟩

theorem faults_onOtherThread_missing (other : model.currThread ≠ some thread)
    (missing : operation (model.thread thread).schedClass.table = none) :
    Faults lists model (onOtherThread operation (some thread)) .nullDereference := by
  have absent : operation ((model.withLists lists).thread thread).schedClass.table = none :=
    missing
  refine ⟨model.withLists lists, ?_⟩
  rw [run_onOtherThread other, absent]
  rfl

theorem faults_onOtherThread {code : ThreadPtr → Exec Machine Unit} {reason : Fault}
    (other : model.currThread ≠ some thread)
    (present : operation (model.thread thread).schedClass.table = some code)
    (faults : Faults lists model (code thread) reason) :
    Faults lists model (onOtherThread operation (some thread)) reason := by
  have found : operation ((model.withLists lists).thread thread).schedClass.table = some code :=
    present
  rcases faults with ⟨final, fails⟩
  refine ⟨final, ?_⟩
  rw [run_onOtherThread other, found]
  exact fails

end OnOtherThread

/-- A thread in no list has no list to be taken out of. -/
theorem faults_rtBlock (unlisted : (model.thread thread).rqList = none) :
    Faults lists model (rtBlock thread) .nullDereference := by
  apply Faults.get
  rw [show ((model.withLists lists).thread thread).rqList = none from unlisted]
  exact ⟨_, rfl⟩

/-! ## Outcomes -/

variable (rep : ListsRep lists model.lists) (sound : Sound linker model spare)

include rep sound

/-- What is not known to block faults. -/
theorem faults_threadBlock (found : threadOf (model.withLists lists) tid = some thread)
    (unknown : ¬ ((model.thread thread).schedClass = .realTime ∧
      model.currThread ≠ some thread ∧ (model.thread thread).rqList ≠ none)) :
    ∃ reason, Faults lists model (threadBlock tid) reason := by
  have ready := sound.placed.ready
  have gets := takes_getThread rep ready tid
  rw [(threadOf_eq rep ready tid).symm.trans found] at gets
  by_cases isCurr : model.currThread = some thread
  · exact ⟨_, gets.faults fun next _ => faults_onOtherThread_curr isCurr⟩
  · cases schedClass : (model.thread thread).schedClass with
    | realTime =>
        have unlisted : (model.thread thread).rqList = none := by
          by_contra listed
          exact unknown ⟨schedClass, isCurr, listed⟩
        have present : SchedulingClass.block (model.thread thread).schedClass.table =
            some rtBlock := by
          rw [schedClass]
          rfl
        exact ⟨_, gets.faults fun next _ =>
          faults_onOtherThread isCurr present (faults_rtBlock unlisted)⟩
    | _ =>
        have missing : SchedulingClass.block (model.thread thread).schedClass.table = none := by
          rw [schedClass]
          rfl
        exact ⟨_, gets.faults fun next _ => faults_onOtherThread_missing isCurr missing⟩

theorem faults_threadUnblock (found : threadOf (model.withLists lists) tid = some thread)
    (unknown : ¬ ((model.thread thread).schedClass = .realTime ∧
      model.currThread ≠ some thread)) :
    ∃ reason, Faults lists model (threadUnblock tid) reason := by
  have ready := sound.placed.ready
  have gets := takes_getThread rep ready tid
  rw [(threadOf_eq rep ready tid).symm.trans found] at gets
  by_cases isCurr : model.currThread = some thread
  · exact ⟨_, gets.faults fun next _ => faults_onOtherThread_curr isCurr⟩
  · cases schedClass : (model.thread thread).schedClass with
    | realTime => exact absurd ⟨schedClass, isCurr⟩ unknown
    | _ =>
        have missing : SchedulingClass.unblock (model.thread thread).schedClass.table =
            none := by
          rw [schedClass]
          rfl
        exact ⟨_, gets.faults fun next _ => faults_onOtherThread_missing isCurr missing⟩

end Outcome

/-- In every run whose steps keep the scheduler sound, exactly the threads that
the conditions name can be blocked and unblocked. -/
theorem blocks_iff_known {linker : Linker} {memory : ByteMemory} {events : List Event}
    {system : System} (run : Run AllowedStep (powerUp linker memory) events system) {tid : Nat}
    (found : (threadOf system.kernel tid).isSome = true) :
    (Blocks system.kernel tid ↔ BlockKnown system.kernel tid) ∧
      (Unblocks system.kernel tid ↔ UnblockKnown system.kernel tid) := by
  rcases (sound_powerUp linker memory).run run with ⟨lists, model, same, rep, sound, pends⟩
  rw [same] at found ⊢
  have isFound := threadOf_eq rep sound.placed.ready tid
  rcases Option.isSome_iff_exists.mp found with ⟨thread, isThread⟩
  constructor
  · constructor
    · intro blocks other isOther
      cases isThread.symm.trans isOther
      by_contra unknown
      rcases blocks with ⟨_, after, _, _, returns, _, _⟩
      rcases faults_threadBlock rep sound isThread unknown with ⟨reason, faults⟩
      exact faults.not_returns returns
    · intro known
      rcases known thread isThread with ⟨realTime, notCurr, listed⟩
      rcases takes_threadBlock rep sound pends (isFound.symm.trans isThread) realTime notCurr
        listed with ⟨_, ⟨final, returns, finalRep⟩, _, _, member, _⟩
      exact ⟨thread, _, _, isThread, returns, finalRep.holds .blockedQ, member⟩
  · constructor
    · intro unblocks other isOther
      cases isThread.symm.trans isOther
      by_contra unknown
      rcases unblocks with ⟨_, after, _, _, returns, _, _⟩
      rcases faults_threadUnblock rep sound isThread unknown with ⟨reason, faults⟩
      exact faults.not_returns returns
    · intro known
      rcases known thread isThread with ⟨realTime, notCurr⟩
      rcases takes_threadUnblock rep sound pends (isFound.symm.trans isThread) realTime notCurr
        with ⟨_, ⟨final, returns, finalRep⟩, _, _, absent, _⟩
      exact ⟨thread, _, _, isThread, returns, finalRep.holds .blockedQ, absent⟩

theorem blocks_iff_known_second : ∃ memory system,
    Run AllowedStep (powerUp lowHeap memory) (twoThreadEvents .realTime) system ∧
      Blocks system.kernel 2 ∧ Unblocks system.kernel 2 := by
  have notIdle : SchedClass.realTime ≠ .idle := by decide
  rcases two_threads notIdle ⟨fun _ => 0, []⟩ with ⟨lists, model, run, rep, sound, _, two⟩
  have isThread : threadOf (model.withLists lists) 2 = some 0x70100410 :=
    (threadOf_eq rep sound.placed.ready 2).trans two.found_second
  have total := blocks_iff_known run (by rw [isThread]; rfl)
  have facts : (model.thread 0x70100410).schedClass = .realTime ∧
      model.currThread ≠ some 0x70100410 ∧ (model.thread 0x70100410).rqList ≠ none := by
    rw [two.second, two.currThread]
    decide
  refine ⟨_, _, run, total.1.mpr ?_, total.2.mpr ?_⟩
  · intro thread isOther
    cases isThread.symm.trans isOther
    exact facts
  · intro thread isOther
    cases isThread.symm.trans isOther
    exact ⟨facts.1, facts.2.1⟩

/-- A ready application thread cannot be blocked: its class has no `block`. -/
theorem block_application_faults : ∃ memory system,
    Run Step (powerUp lowHeap memory) (twoThreadEvents .application) system ∧
      (threadOf system.kernel 2).isSome = true ∧
      (∃ final, (threadBlock 2).run system.kernel = .error .nullDereference final) ∧
      ¬ Blocks system.kernel 2 ∧ ¬ Unblocks system.kernel 2 := by
  have notIdle : SchedClass.application ≠ .idle := by decide
  rcases two_threads notIdle ⟨fun _ => 0, []⟩ with ⟨lists, model, run, rep, sound, _, two⟩
  have isThread : threadOf (model.withLists lists) 2 = some 0x70100410 :=
    (threadOf_eq rep sound.placed.ready 2).trans two.found_second
  have isApplication : (model.thread 0x70100410).schedClass = .application := by
    rw [two.second]
    rfl
  have notCurr : model.currThread ≠ some 0x70100410 := by
    rw [two.currThread]
    decide
  have gets := takes_getThread rep sound.placed.ready 2
  rw [two.found_second] at gets
  have blockFaults : Faults lists model (threadBlock 2) .nullDereference := by
    apply gets.faults
    intro _ _
    apply faults_onOtherThread_missing notCurr
    rw [isApplication]
    rfl
  have unblockFaults : Faults lists model (threadUnblock 2) .nullDereference := by
    apply gets.faults
    intro _ _
    apply faults_onOtherThread_missing notCurr
    rw [isApplication]
    rfl
  refine ⟨_, _, run_of_allowed run, ?_, blockFaults, ?_, ?_⟩
  · rw [isThread]
    rfl
  · intro blocks
    rcases blocks with ⟨_, after, _, _, returns, _, _⟩
    exact blockFaults.not_returns returns
  · intro unblocks
    rcases unblocks with ⟨_, after, _, _, returns, _, _⟩
    exact unblockFaults.not_returns returns

end Vanilla.Kernel
