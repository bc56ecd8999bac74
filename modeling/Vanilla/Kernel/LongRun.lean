import Vanilla.Kernel.Orderly

/-! # The end of the tick counter

Two real-time threads take turns until the 64-bit tick is one slice from its end.
A sleep from there on computes a tick that has passed, or 0, which is what an
awake thread has.
-/

namespace Vanilla.Kernel

open Mm

/-- A number of slices, each with its SysTick and its PendSV. -/
def slices : Nat → List Event
  | 0 => []
  | count + 1 => slices count ++ [.systick 0, .pendsv]

/-- Two real-time threads after this many slices: one runs, and one is ready. -/
structure Turning (model : Model) (curr other : ThreadPtr) (count : Nat) : Prop where
  currThread : model.currThread = some curr
  ready : model.queue .rtRq = [other]
  sleepers : model.queue .sleepQ = []
  pendsvPending : model.pendsvPending = false
  systickPending : model.systickPending = false
  systickEnabled : model.systickEnabled = true
  reschedulePending : model.reschedulePending = false
  rqTickToWake : model.rqTickToWake = 0
  tick : model.tick = u64 (300000 * count)
  realTime : ∀ thread ∈ [curr, other], (model.thread thread).schedClass = .realTime
  stays : ∀ thread ∈ [curr, other], (model.thread thread).exitPending = false
  awake : ∀ thread ∈ [curr, other], (model.thread thread).tickToWake = 0

theorem TwoThreads.turning {model : Model} (two : TwoThreads .realTime model) :
    Turning model 0x70100008 0x70100410 0 where
  currThread := two.currThread
  ready := by
    rw [two.queues]
    rfl
  sleepers := by
    rw [two.queues]
    rfl
  pendsvPending := two.pendsvPending
  systickPending := two.systickPending
  systickEnabled := two.systickEnabled
  reschedulePending := two.reschedulePending
  rqTickToWake := two.rqTickToWake
  tick := two.tick
  realTime := by
    simp [two.first, two.second, KernelState.newFields]
  stays := by
    simp [two.first, two.second, KernelState.newFields]
  awake := by
    simp [two.first, two.second, KernelState.newFields]

theorem Round.turning {model after : Model} {curr other : ThreadPtr} {count : Nat}
    (turning : Turning model curr other count) (round : Round model after other [curr] 0) :
    Turning after other curr (count + 1) := by
  have swapped : ∀ thread ∈ [other, curr], thread ∈ [curr, other] := by
    intro thread member
    simp only [List.mem_cons, List.not_mem_nil, or_false] at member ⊢
    exact member.symm
  constructor
  · exact round.currThread
  · exact round.ready
  · rw [round.queues .sleepQ (by simp)]
    exact turning.sleepers
  · exact round.pendsvPending
  · exact round.systickPending
  · exact round.systickEnabled
  · exact round.reschedulePending
  · exact round.rqTickToWake
  · rw [round.tick, KernelState.slice, turning.reschedulePending, turning.tick]
    simp only [Bool.false_eq_true, if_false, u64, systickRvr]
    omega
  · intro thread member
    rw [(round.identity thread).schedClass]
    exact turning.realTime thread (swapped thread member)
  · intro thread member
    rw [(round.identity thread).exitPending]
    exact turning.stays thread (swapped thread member)
  · intro thread member
    rw [round.ticks thread]
    exact turning.awake thread (swapped thread member)

/-- The two threads take turns for any number of slices. -/
theorem turning_run (memory : ByteMemory) (count : Nat) : ∃ lists model curr other,
    Run AllowedStep (powerUp lowHeap memory) (twoThreadEvents .realTime ++ slices count)
      ⟨model.withLists lists, []⟩ ∧
      ListsRep lists model.lists ∧ Sound lowHeap model [] ∧ SleepPends model ∧
      Turning model curr other count := by
  induction count with
  | zero =>
      have notIdle : SchedClass.realTime ≠ .idle := by decide
      rcases two_threads notIdle memory with ⟨lists, model, run, rep, sound, pends, two⟩
      exact ⟨lists, model, _, _, run, rep, sound, pends, two.turning⟩
  | succ count induction =>
      rcases induction with ⟨lists, model, curr, other, run, rep, sound, pends, turning⟩
      have queued : model.queue .rtRq ++ [curr] = other :: [curr] := by
        rw [turning.ready]
        rfl
      rcases sound.round rep turning.systickEnabled turning.pendsvPending turning.currThread
        turning.rqTickToWake (turning.awake curr List.mem_cons_self)
        (turning.realTime curr List.mem_cons_self) (turning.stays curr List.mem_cons_self)
        queued 0 (Nat.zero_le _) with
        ⟨final, after, more, finalRep, kept, keptPends, round⟩
      refine ⟨final, after, other, curr, ?_, finalRep, kept, keptPends, round.turning turning⟩
      rw [slices, ← List.append_assoc]
      exact run.append more

/-- After this many slices the tick is one slice from its end. -/
def lastSlices : Nat := 2 ^ 59 - 1

theorem Turning.tick_last {model : Model} {curr other : ThreadPtr}
    (turning : Turning model curr other lastSlices) : model.tick = 2 ^ 64 - 300000 := by
  rw [turning.tick, lastSlices, u64]
  decide

theorem Turning.sleep_enabled {lists : KernelLists} {model : Model} {curr other : ThreadPtr}
    {count ms : Nat} (turning : Turning model curr other count) (inRange : ms < 2 ^ 32) :
    Enabled ⟨model.withLists lists, []⟩ (.sleep ms) := by
  refine ⟨inRange, ?_⟩
  simp [threadMode, KernelState.withLists, turning.systickEnabled, turning.systickPending,
    turning.pendsvPending, turning.currThread, turning.realTime curr List.mem_cons_self]

/-- The running one of two threads that take turns can sleep. -/
theorem Turning.sleeps {lists : KernelLists} {model : Model} {curr other : ThreadPtr} {count : Nat}
    (turning : Turning model curr other count) (rep : ListsRep lists model.lists)
    (sound : Sound lowHeap model []) (pends : SleepPends model) :
    Enabled ⟨model.withLists lists, []⟩ (.sleep 1) ∧ model.Unqueued curr ∧
      ∃ final, (perform (.sleep 1)).run ⟨model.withLists lists, []⟩ =
        .ok () ⟨(model.threadSleep curr 1).withLists final, []⟩ ∧
          ListsRep final (model.threadSleep curr 1).lists := by
  have hand := pends.inHand turning.currThread turning.systickPending turning.pendsvPending
  have unqueued := sound.placed.heldUnqueued curr (Option.mem_toList.mpr hand)
  have takes := takes_threadSleep rep sound.placed.ready turning.currThread unqueued
    (sound.current curr turning.currThread).1 1
  exact ⟨turning.sleep_enabled (by decide), unqueued, run_onKernel takes⟩

/-- A sleep of 2 milliseconds so late computes a tick that has passed: the next
SysTick enqueues the thread twice, and the other one is ready all along. -/
theorem late_sleep : ∃ memory system curr other,
    Run Step (powerUp lowHeap memory)
      (twoThreadEvents .realTime ++ slices lastSlices ++ [.sleep 2]) system ∧
      system.kernel.currThread = some curr ∧ Holds system.kernel .rtRq [other] ∧
      Enabled system (.systick systickRvr) ∧ ∃ final,
        (perform (.systick systickRvr)).run system = .error (.panic "List error") final := by
  rcases turning_run ⟨fun _ => 0, []⟩ lastSlices with
    ⟨lists, model, curr, other, run, rep, sound, pends, turning⟩
  have tick := turning.tick_last
  have later : KernelState.wakeTick model.tick 2 = 300000 := by
    rw [tick]
    decide
  have due : KernelState.wakeTick model.tick 2 <
      u64 (model.tick + u32Sub systickRvr systickRvr) := by
    rw [later, tick]
    decide
  rcases sound.sleep_panics pends rep (turning.sleep_enabled (by decide)) turning.currThread
    (turning.realTime curr List.mem_cons_self) turning.sleepers (by rw [later]; decide)
    (le_refl systickRvr) due with ⟨after, step, isCurr, others, again, panics⟩
  have ready := others .rtRq (by simp)
  rw [turning.ready] at ready
  exact ⟨_, after, curr, other, (run_of_allowed run).snoc step, isCurr, ready, again, panics⟩

/-- In a run of new threads, slices and one sleep, a list operation panics. -/
theorem late_sleep_panics : ∃ memory system,
    Run Step (powerUp lowHeap memory)
      (twoThreadEvents .realTime ++ slices lastSlices ++ [.sleep 2]) system ∧
      Enabled system (.systick systickRvr) ∧ ∃ final,
        (perform (.systick systickRvr)).run system = .error (.panic "List error") final := by
  rcases late_sleep with ⟨memory, system, _, _, run, _, _, enabled, panics⟩
  exact ⟨memory, system, run, enabled, panics⟩

end Vanilla.Kernel
