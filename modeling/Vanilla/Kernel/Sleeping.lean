import Vanilla.Kernel.Interleaving

/-! # Going to sleep and waking up

A thread that sleeps stays in `sleep_q` until a SysTick wakes it, and is then in
the run queue of its class.
-/

namespace Vanilla.Kernel

open Mm

variable {linker : Linker} {lists : KernelLists} {model : Model} {spare : List Nat}
  {curr thread : ThreadPtr} {cvr ms : Nat}

/-- A thread that was woken is chosen to run, or is in the run queue of its class. -/
def RunsOrReady (kernel : Machine) (queues : QueueId → List ThreadPtr) (thread : ThreadPtr) :
    Prop :=
  thread ∉ queues .sleepQ ∧ (kernel.inHand = some thread ∨
    ∃ queue, KernelState.runQueue (kernel.thread thread).schedClass = some queue ∧
      thread ∈ queues queue)

theorem Sound.woken_ready {after : Model} (sound : Sound linker model spare)
    (kept : Sound linker after spare) {woken : Option ThreadPtr}
    (frame : SystickFrame model after woken) (wakes : woken = some thread)
    (notCurr : model.currThread ≠ some thread) (lists : KernelLists) :
    RunsOrReady (after.withLists lists) after.queue thread := by
  rcases frame.wakes thread wakes with ⟨awake, slept⟩
  have running : QueueId.sleepQ.Running := by simp [QueueId.Running]
  have notIdle := (sound.placed.fits .sleepQ thread slept).not_idle running
  rw [← (frame.identity thread).schedClass] at notIdle
  have known : thread ∈ after.queue .threads := by
    rcases frame.threads thread (sound.placed.ready.known _ _ slept) with known | ⟨isCurr, _⟩
    · exact known
    · exact absurd isCurr notCurr
  constructor
  · intro member
    exact (kept.placed.fits .sleepQ thread member).2.1 awake
  · rcases kept.placed.placed thread known notIdle with held | ⟨queue, queueRunning, member⟩
    · exact .inl (Option.mem_toList.mp held)
    · have fits := kept.placed.fits queue thread member
      refine .inr ⟨queue, ?_, member⟩
      change KernelState.runQueue (after.thread thread).schedClass = some queue
      cases queue with
      | rtRq =>
          rw [fits.1]
          rfl
      | appRq =>
          rw [fits.1]
          rfl
      | backgroundRq =>
          rw [fits.1]
          rfl
      | sleepQ => exact absurd awake fits.2.1
      | blockedQ =>
          rw [frame.blocked] at member
          have same := sound.placed.apart .sleepQ .blockedQ running queueRunning thread slept
            member
          cases same
      | threads => exact absurd rfl queueRunning

/-- In every run whose steps meet their conditions, a sleep leaves the thread in
`sleep_q` only, no SysTick panics, and the thread it wakes is ready once. -/
theorem sleep_then_ready {memory : ByteMemory} {events : List Event} {system : System}
    (run : Run AllowedStep (powerUp linker memory) events system) :
    ∃ queues, InPlace system.kernel queues ∧
      (∀ ms curr, Enabled system (.sleep ms) → Allowed system.kernel (.sleep ms) →
        system.kernel.currThread = some curr →
        ∃ after later, (perform (.sleep ms)).run system = .ok () after ∧
          InPlace after.kernel later ∧ curr ∈ later .sleepQ) ∧
      ∀ cvr, Enabled system (.systick cvr) → Allowed system.kernel (.systick cvr) →
        ∃ after later, (perform (.systick cvr)).run system = .ok () after ∧
          InPlace after.kernel later ∧ ∀ thread, woken system.kernel cvr = some thread →
            RunsOrReady after.kernel later thread := by
  rcases (sound_powerUp linker memory).run run with ⟨lists, model, same, rep, sound, pends⟩
  rcases system with ⟨kernel, spare⟩
  change kernel = model.withLists lists at same
  subst same
  refine ⟨model.queue, sound.inPlace rep, ?_, ?_⟩
  · intro ms curr enabled later isCurr
    rcases threadMode_facts enabled.2 with ⟨systick, quiet, switched, found, isFound, notIdle⟩
    cases (show model.currThread = some curr from isCurr).symm.trans isFound
    have hand := pends.inHand isFound quiet switched
    have placed := sound.placed
    rw [hand] at placed
    rcases sound.sleep isFound hand systick switched notIdle later with ⟨sleeps, _⟩
    have takes := takes_threadSleep rep placed.ready isFound
      (placed.heldUnqueued curr List.mem_cons_self) (sound.current curr isFound).1 ms
    rcases run_onKernel takes with ⟨final, returns, finalRep⟩
    exact ⟨_, _, returns, sleeps.inPlace finalRep,
      (threadSleep_sleepers model curr ms).mem_iff.mpr List.mem_cons_self⟩
  · intro cvr enabled allowed
    rcases sound.enter.systick rep enabled.1 allowed with ⟨after, takes, kept, frame⟩
    rcases run_systick takes with ⟨final, returns, finalRep⟩
    refine ⟨_, _, returns, kept.inPlace finalRep, ?_⟩
    intro thread wakes
    exact sound.enter.woken_ready kept frame wakes
      (fun isCurr => allowed.2.1 thread isCurr wakes) final

theorem sleep_then_ready_started : ∃ memory system,
    Run AllowedStep (powerUp lowHeap memory) (twoThreadEvents .realTime) system ∧
      ∃ queues, InPlace system.kernel queues := by
  have notIdle : SchedClass.realTime ≠ .idle := by decide
  rcases two_threads notIdle ⟨fun _ => 0, []⟩ with ⟨lists, model, run, _⟩
  rcases sleep_then_ready run with ⟨queues, inPlace, _⟩
  exact ⟨_, _, run, queues, inPlace⟩

/-! ## A sleep of no time -/

theorem threadSleep_alone (empty : model.queue .sleepQ = []) :
    (model.threadSleep curr ms).queue .sleepQ = [curr] ∧
      (model.threadSleep curr ms).rqTickToWake = KernelState.wakeTick model.tick ms := by
  have queue : (model.threadSleep curr ms).queue .sleepQ = [curr] :=
    List.perm_singleton.mp (empty ▸ threadSleep_sleepers model curr ms)
  refine ⟨queue, ?_⟩
  simp [KernelState.threadSleep, KernelState.enqueueDelay, KernelState.reschedule,
    KernelState.tickToWakeUpdate, KernelState.delayed, empty]

/-- A running thread that SysTick wakes is enqueued twice. -/
theorem faults_systick_of_expired (rep : ListsRep lists model.lists) (ready : Ready model)
    (started : model.schedulerStatus = true) (isCurr : model.currThread = some curr)
    (realTime : (model.thread curr).schedClass = .realTime)
    (expired : woken (model.withLists lists) cvr = some curr) :
    Faults lists model (systickException cvr) (.panic "List error") := by
  have accounted := model.accountRuntime_frame curr cvr
  have isRealTime := (accounted.threads curr).place.schedClass.trans realTime
  rw [woken_eq rep curr cvr] at expired
  have processed := KernelState.processExpiredDelays_some expired
  have woke := KernelState.wake_identity (model.accountRuntime curr cvr) curr curr
  have runs : KernelState.runQueue
      ((model.accountRuntime curr cvr).processExpiredDelays.thread curr).schedClass =
        some .rtRq := by
    rw [processed.2, woke.schedClass, isRealTime]
    rfl
  apply faults_systickException rep ready started isCurr _ runs
  · rw [KernelState.processExpiredDelays_queue, expired]
    simp only [KernelState.wake_queue, isRealTime]
    exact List.mem_append_right _ List.mem_cons_self
  · rw [processed.2]
    exact KernelState.wake_tick _ _

/-- Who is woken does not depend on a SysTick that is pending. -/
theorem woken_enter (model : Model) (lists : KernelLists) (cvr : Nat) :
    woken ({ model with systickPending := false }.withLists lists) cvr =
      woken (model.withLists lists) cvr := rfl

/-- A real-time thread that sleeps alone and is due before the next SysTick: that
SysTick wakes it while it still runs. -/
theorem Sound.sleep_panics (sound : Sound linker model spare) (pends : SleepPends model)
    (rep : ListsRep lists model.lists)
    (enabled : Enabled ⟨model.withLists lists, spare⟩ (.sleep ms))
    (isCurr : model.currThread = some curr)
    (realTime : (model.thread curr).schedClass = .realTime)
    (empty : model.queue .sleepQ = []) (later : KernelState.wakeTick model.tick ms ≠ 0)
    (inRange : cvr ≤ systickRvr)
    (due : KernelState.wakeTick model.tick ms < u64 (model.tick + u32Sub systickRvr cvr)) :
    ∃ after, Step ⟨model.withLists lists, spare⟩ (.sleep ms) after ∧
      after.kernel.currThread = some curr ∧
      (∀ queue, queue ≠ .sleepQ → Holds after.kernel queue (model.queue queue)) ∧
      Enabled after (.systick cvr) ∧
      ∃ final, (perform (.systick cvr)).run after = .error (.panic "List error") final := by
  rcases threadMode_facts enabled.2 with ⟨systick, quiet, switched, _⟩
  have hand := pends.inHand isCurr quiet switched
  have placed := sound.placed
  rw [hand] at placed
  have notIdle : (model.thread curr).schedClass ≠ .idle := by
    rw [realTime]
    decide
  rcases sound.sleep isCurr hand systick switched notIdle later with ⟨sleeps, _⟩
  have takes := takes_threadSleep rep placed.ready isCurr
    (placed.heldUnqueued _ List.mem_cons_self) (sound.current _ isCurr).1 ms
  have slept : ∃ final, (perform (.sleep ms)).run ⟨model.withLists lists, spare⟩ =
      .ok () ⟨(model.threadSleep curr ms).withLists final, spare⟩ ∧
        ListsRep final (model.threadSleep curr ms).lists := run_onKernel takes
  rcases slept with ⟨final, returns, finalRep⟩
  have frame := threadSleep_frame model curr ms
  have alone : (model.threadSleep curr ms).queue .sleepQ = [curr] ∧
      (model.threadSleep curr ms).rqTickToWake = KernelState.wakeTick model.tick ms :=
    threadSleep_alone empty
  have first := finalRep.first .sleepQ
  rw [alone.1] at first
  have tick : (model.threadSleep curr ms).tick = model.tick := by
    rw [frame.outside]
  have pending : (model.threadSleep curr ms).reschedulePending = true := by
    rw [frame.outside]
  have stillCurr : (model.threadSleep curr ms).currThread = some curr := by
    rw [frame.outside]
    exact isCurr
  have stillOn : (model.threadSleep curr ms).systickEnabled = true := by
    rw [frame.outside]
    exact systick
  have expired : woken ((model.threadSleep curr ms).withLists final) cvr = some curr := by
    simp [woken, KernelState.withLists, first, frame.tick, tick, pending, alone.2, later, due,
      le_of_lt due, nodeIn_thread]
  have again : Enabled ⟨(model.threadSleep curr ms).withLists final, spare⟩ (.systick cvr) :=
    ⟨stillOn, inRange⟩
  have others : ∀ queue, queue ≠ .sleepQ →
      Holds ((model.threadSleep curr ms).withLists final) queue (model.queue queue) := by
    intro queue different
    rw [← frame.queues queue different]
    exact finalRep.holds queue
  refine ⟨_, .intro enabled returns, stillCurr, others, again, ?_⟩
  apply faults_systick
  exact @faults_systick_of_expired final
    { model.threadSleep curr ms with systickPending := false } curr cvr finalRep
    sleeps.enter.placed.ready (sleeps.started stillOn).1 stillCurr
    (frame.identity.schedClass.trans realTime) ((woken_enter ..).trans expired)

/-- A thread that sleeps for 0 milliseconds is woken by the next SysTick, which
then enqueues it once more because it still runs. -/
theorem sleep_zero_panics : ∃ memory system,
    Run Step (powerUp lowHeap memory)
      (twoThreadEvents .realTime ++ [.systick 0, .pendsv] ++ [.sleep 0]) system ∧
      Enabled system (.systick 0) ∧
      ∃ final, (perform (.systick 0)).run system = .error (.panic "List error") final := by
  have notIdle : SchedClass.realTime ≠ .idle := by decide
  rcases two_threads notIdle ⟨fun _ => 0, []⟩ with ⟨lists, model, run, rep, sound, _, two⟩
  have awake : (model.thread 0x70100008).tickToWake = 0 := by
    rw [two.first]
  have realTime : (model.thread 0x70100008).schedClass = .realTime := by
    rw [two.first]
  have queued : model.queue .rtRq ++ [0x70100008] = 0x70100410 :: [0x70100008] := by
    rw [two.queues]
    rfl
  rcases sound.round rep two.systickEnabled two.pendsvPending two.currThread two.rqTickToWake
    awake realTime (by rw [two.first]) queued 0 (by decide) with
    ⟨lists1, model1, run1, rep1, sound1, pends1, round⟩
  have isRealTime : (model1.thread 0x70100410).schedClass = .realTime := by
    rw [(round.identity _).schedClass, two.second]
    rfl
  have enabled : Enabled ⟨model1.withLists lists1, []⟩ (.sleep 0) := by
    refine ⟨by decide, ?_⟩
    simp [threadMode, KernelState.withLists, round.systickEnabled, round.systickPending,
      round.pendsvPending, round.currThread, isRealTime]
  have empty : model1.queue .sleepQ = [] := by
    rw [round.queues .sleepQ (by simp), two.queues]
    rfl
  have tick : model1.tick = 300000 := by
    rw [round.tick]
    simp [KernelState.slice, two.reschedulePending, two.tick, systickRvr, u64]
  have later : KernelState.wakeTick model1.tick 0 = 300000 := by
    simp [KernelState.wakeTick, tick, u64]
  have due : KernelState.wakeTick model1.tick 0 < u64 (model1.tick + u32Sub systickRvr 0) := by
    rw [later, tick]
    decide
  rcases sound1.sleep_panics pends1 rep1 enabled round.currThread isRealTime empty
    (by rw [later]; decide) (Nat.zero_le _) due with ⟨after, step, _, _, again, panics⟩
  exact ⟨_, after, ((run_of_allowed run).append (run_of_allowed run1)).snoc step, again, panics⟩

end Vanilla.Kernel
