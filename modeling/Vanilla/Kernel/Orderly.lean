import Vanilla.Kernel.Exits

/-! # Orderly runs

Runs in which each SysTick is followed by its PendSV, a thread sleeps for at
least a millisecond, and no sleep goes past the last tick. They need no other
condition: every one of their steps is an allowed one.
-/

namespace Vanilla.Kernel

open Mm

/-- What an orderly run asks of a step. -/
def Orderly (kernel : Machine) (event : Event) : Prop :=
  (kernel.pendsvPending = true → event = .pendsv) ∧
    match event with
    | .sleep ms => 1 ≤ ms ∧ kernel.tick + ms * systickRvr < 2 ^ 64
    | .block tid => UnblockKnown kernel tid
    | .unblock tid => UnblockKnown kernel tid
    | .exit => ∀ curr, kernel.currThread = some curr →
        (kernel.thread curr).schedClass = .realTime
    | .kill _ => False
    | _ => True

inductive OrderlyStep : System → Event → System → Prop where
  | intro {before after : System} {event : Event} : Step before event after →
      Orderly before.kernel event → OrderlyStep before event after

/-- A thread that goes to sleep has a full slice to get switched out in, and only
real-time threads exit. -/
structure Steady (model : Model) : Prop where
  sleepsLong : model.pendsvPending = false → ∀ curr, model.currThread = some curr →
    (model.thread curr).tickToWake ≠ 0 →
    model.tick + systickRvr ≤ (model.thread curr).tickToWake
  exits : ∀ thread ∈ model.queue .threads, (model.thread thread).exitPending = true →
    (model.thread thread).schedClass = .realTime

section Steps

variable {linker : Linker} {lists : KernelLists} {model next : Model} {spare : List Nat}
  {event : Event} {curr thread : ThreadPtr} {cvr ms tid : Nat}

theorem slice_le (model : Model) (inRange : cvr ≤ systickRvr) :
    model.slice cvr ≤ systickRvr := by
  rw [KernelState.slice]
  split
  · simp only [u32Sub, systickRvr] at *
    omega
  · exact le_rfl

theorem wakeTick_orderly (later : 1 ≤ ms ∧ model.tick + ms * systickRvr < 2 ^ 64) :
    KernelState.wakeTick model.tick ms = model.tick + ms * systickRvr := by
  have product : ms * systickRvr < 2 ^ 64 := by omega
  simp only [KernelState.wakeTick, u64, Nat.mod_eq_of_lt product, Nat.mod_eq_of_lt later.2]

theorem Steady.sleepsOn (steady : Steady model) (rep : ListsRep lists model.lists)
    (switched : model.pendsvPending = false) (inRange : cvr ≤ systickRvr)
    (sound : Sound linker model spare) : SleepsOn (model.withLists lists) cvr := by
  intro curr isCurr wakes
  have expired : (model.accountRuntime curr cvr).expired = some curr :=
    woken_eq rep curr cvr ▸ wakes
  have accounted := model.accountRuntime_frame curr cvr
  have member := (Placed.expired_member expired).1
  rw [accounted.outside] at member
  have asleep : (model.thread curr).tickToWake ≠ 0 :=
    (sound.placed.fits .sleepQ curr member).2.1
  have long := steady.sleepsLong switched curr isCurr asleep
  have due := (Placed.expired_member expired).2
  rw [(accounted.threads curr).place.tickToWake, accounted.outside] at due
  have slice := slice_le model inRange
  have tick : u64 (model.tick + model.slice cvr) ≤ model.tick + model.slice cvr :=
    Nat.mod_le _ _
  have late : (model.thread curr).tickToWake < u64 (model.tick + model.slice cvr) := due
  omega

/-- An enabled step of an orderly run is an allowed one. -/
theorem Steady.allowed {system : System} (steady : Steady model)
    (stands : Stands linker system model) (enabled : Enabled system event)
    (orderly : Orderly system.kernel event) : Allowed system.kernel event := by
  rcases stands with ⟨lists, same, rep, sound, _⟩
  rcases orderly with ⟨paired, orderly⟩
  rw [same] at paired orderly ⊢
  cases event with
  | sleep ms =>
      have later : KernelState.wakeTick model.tick ms = model.tick + ms * systickRvr :=
        wakeTick_orderly orderly
      change KernelState.wakeTick model.tick ms ≠ 0
      have long := orderly.1
      rw [later]
      simp only [systickRvr]
      omega
  | systick cvr =>
      have switched : model.pendsvPending = false := by
        by_contra pending
        cases paired (Bool.eq_true_of_not_eq_false pending)
      refine ⟨?_, steady.sleepsOn rep switched enabled.2 sound, ?_⟩
      · intro pending
        cases switched.symm.trans pending
      · intro curr isCurr exits
        exact .inl (steady.exits curr (sound.current curr isCurr).1 exits)
  | block tid =>
      intro thread found
      rcases orderly thread found with ⟨realTime, notCurr⟩
      have switched : model.pendsvPending = false := by
        by_contra pending
        cases paired (Bool.eq_true_of_not_eq_false pending)
      have notHeld : model.inHand ≠ some thread := by
        intro hand
        simp only [KernelState.inHand, switched, Bool.false_eq_true, if_false] at hand
        exact notCurr (Option.filter_eq_some_iff.mp hand).1
      have isFound := (threadOf_eq rep sound.placed.ready tid).symm.trans found
      rcases sound.queue_of (findThread_known isFound) realTime notHeld with
        ⟨queue, _, _, rqList⟩
      refine ⟨realTime, notCurr, ?_⟩
      intro unlisted
      cases unlisted.symm.trans rqList
  | unblock tid => exact orderly
  | newThread info => trivial
  | start => trivial
  | pendsv => trivial
  | exit => trivial
  | kill tid => trivial
  | allocate count bank => trivial
  | release pointer => trivial

/-! ## A step keeps the run steady -/

/-- What the running thread sleeps until does not move, and nor does the tick. -/
theorem Steady.sleepsLong_of_same (steady : Steady model)
    (currThread : next.currThread = model.currThread) (tick : next.tick = model.tick)
    (pendsv : next.pendsvPending = model.pendsvPending)
    (same : ∀ curr, model.currThread = some curr →
      (next.thread curr).tickToWake = (model.thread curr).tickToWake) :
    next.pendsvPending = false → ∀ curr, next.currThread = some curr →
      (next.thread curr).tickToWake ≠ 0 →
      next.tick + systickRvr ≤ (next.thread curr).tickToWake := by
  intro switched curr isCurr asleep
  rw [currThread] at isCurr
  rw [pendsv] at switched
  rw [same curr isCurr] at asleep ⊢
  rw [tick]
  exact steady.sleepsLong switched curr isCurr asleep

theorem Transition.sleepsLong (transition : Transition model event next) (steady : Steady model)
    (sound : Sound linker model spare) (orderly : Orderly (model.withLists lists) event) :
    next.pendsvPending = false → ∀ curr, next.currThread = some curr →
      (next.thread curr).tickToWake ≠ 0 →
      next.tick + systickRvr ≤ (next.thread curr).tickToWake := by
  cases transition with
  | @newThread info thread mm _ fresh _ =>
      have frame := newThread_frame model info thread mm
      apply steady.sleepsLong_of_same
      · rw [frame.outside]
      · rw [frame.outside]
      · rw [frame.outside]
      · intro curr isCurr
        rw [frame.others curr fun equal => fresh (equal ▸ (sound.current curr isCurr).1)]
  | start _ _ _ _ _ awake =>
      intro _ curr isCurr asleep
      cases isCurr
      exact absurd awake.1 asleep
  | @sleep curr ms isCurr hand =>
      have frame := threadSleep_frame model curr ms
      intro _ found isFound asleep
      have same : (model.threadSleep curr ms).currThread = model.currThread := by
        rw [frame.outside]
      have tick : (model.threadSleep curr ms).tick = model.tick := by
        rw [frame.outside]
      cases (same.trans isCurr).symm.trans isFound
      have later : KernelState.wakeTick model.tick ms = model.tick + ms * systickRvr :=
        wakeTick_orderly orderly.2
      have long : 1 ≤ ms := orderly.2.1
      rw [frame.tick, tick, later]
      simp only [systickRvr]
      omega
  | stays _ _ _ _ => exact fun switched => by cases switched
  | exits _ _ _ _ _ _ => exact fun switched => by cases switched
  | @pendsv next _ hand =>
      intro _ curr isCurr asleep
      cases isCurr
      exact absurd (sound.awake next hand).1 asleep
  | stillBlocked _ _ => exact steady.sleepsLong
  | @block thread tid queue _ _ notCurr _ _ _ _ =>
      apply steady.sleepsLong_of_same
      · rfl
      · rfl
      · rfl
      intro curr isCurr
      have different : curr ≠ thread := fun equal => notCurr (equal ▸ isCurr)
      exact congrArg Thread.tickToWake (KernelState.thread_setThread_of_ne _ _ different)
  | notBlocked _ _ => exact steady.sleepsLong
  | @unblock thread tid _ notCurr _ _ =>
      apply steady.sleepsLong_of_same
      · rfl
      · rfl
      · rfl
      intro curr isCurr
      have different : curr ≠ thread := fun equal => notCurr (equal ▸ isCurr)
      rw [KernelState.unblock, KernelState.thread_setThread_of_ne _ _ different,
        KernelState.append, KernelState.thread_setQueue,
        KernelState.thread_setThread_of_ne _ _ different, KernelState.remove_thread]
  | @exit curr _ =>
      apply steady.sleepsLong_of_same
      · rfl
      · rfl
      · rfl
      intro found _
      exact @KernelState.setThread_relation model curr found
        (fun before after => after.tickToWake = before.tickToWake) (fun _ => rfl)
        (fun fields => { fields with exitPending := true }) rfl
  | kill => exact orderly.2.elim
  | allocate => exact steady.sleepsLong
  | release => exact steady.sleepsLong

theorem newFields_exitPending (info : ThreadInfo) (tid : Nat) :
    (KernelState.newFields info tid).exitPending = false := rfl

/-- A thread that is new does not exit. -/
theorem Transition.new_stays (transition : Transition model event next)
    (known : thread ∈ next.queue .threads) (fresh : thread ∉ model.queue .threads) :
    (next.thread thread).exitPending = false := by
  have allocates := (transition.threads known).resolve_left fresh
  cases transition with
  | @newThread info created mm _ _ _ =>
      have frame := newThread_frame model info created mm
      rw [frame.threads] at known
      cases known with
      | head => rw [frame.new, newFields_exitPending]
      | tail _ known => exact absurd known fresh
  | @start created next mm after _ _ _ _ picked _ =>
      have listed : thread ∈ after.queue .threads := known
      rw [(pick_frame picked).queues .threads (by simp [KernelState.pickOrder]),
        KernelState.withIdle_queue, if_pos rfl] at listed
      have identity := (pick_frame picked).identity thread
      cases listed with
      | head =>
          rw [KernelState.withIdle_thread] at identity
          exact identity.exitPending
      | tail _ listed => exact absurd listed fresh
  | _ => exact allocates.elim

theorem Steady.step (steady : Steady model) (transition : Transition model event next)
    (sound : Sound linker model spare) (orderly : Orderly (model.withLists lists) event) :
    Steady next where
  sleepsLong := transition.sleepsLong steady sound orderly
  exits := by
    intro thread known exits
    by_cases listed : thread ∈ model.queue .threads
    · rcases transition.identity listed with
        identity | ⟨sameClass, ⟨rfl, isCurr⟩ | ⟨tid, rfl⟩⟩
      · rw [identity.schedClass]
        exact steady.exits thread listed (identity.exitPending.symm.trans exits)
      · rw [sameClass]
        exact orderly.2 thread isCurr
      · exact orderly.2.elim
    · cases (transition.new_stays known listed).symm.trans exits

end Steps

/-! ## Orderly runs are allowed runs -/

section Runs

variable {linker : Linker} {memory : ByteMemory} {before after system : System}
  {events : List Event} {event : Event}

/-- A sound system in an orderly run. -/
def OrderlySystem (linker : Linker) (system : System) : Prop :=
  ∃ model, Stands linker system model ∧ Steady model

theorem OrderlySystem.allowed (orderly : OrderlySystem linker before)
    (step : OrderlyStep before event after) : AllowedStep before event after := by
  rcases orderly with ⟨model, stands, steady⟩
  cases step with
  | intro step isOrderly =>
      refine .intro step ?_
      cases step with
      | intro enabled _ => exact steady.allowed stands enabled isOrderly

theorem OrderlySystem.step (orderly : OrderlySystem linker before)
    (step : OrderlyStep before event after) : OrderlySystem linker after := by
  have allowed := orderly.allowed step
  rcases orderly with ⟨model, stands, steady⟩
  rcases stands.step allowed with ⟨next, transition, standsNext⟩
  rcases stands with ⟨lists, same, rep, sound, _⟩
  cases step with
  | intro step isOrderly =>
      rw [same] at isOrderly
      exact ⟨next, standsNext, steady.step transition sound isOrderly⟩

theorem orderly_powerUp (linker : Linker) (memory : ByteMemory) :
    OrderlySystem linker (powerUp linker memory) := by
  refine ⟨bootModel linker memory, stands_powerUp linker memory, ?_, ?_⟩
  · intro _ curr isCurr
    cases isCurr
  · intro thread known
    cases known

theorem OrderlySystem.run (orderly : OrderlySystem linker before)
    (run : Run OrderlyStep before events after) :
    OrderlySystem linker after ∧ Run AllowedStep before events after := by
  induction run with
  | nil state => exact ⟨orderly, .nil state⟩
  | cons step _ induction =>
      rcases induction (orderly.step step) with ⟨last, rest⟩
      exact ⟨last, .cons (orderly.allowed step) rest⟩

/-- Threads may be created in any order before the first SysTick. -/
theorem Stands.orderly {model : Model} (stands : Stands linker before model)
    (switched : model.pendsvPending = false) (run : Run AllowedStep before events after)
    (creates : ∀ event ∈ events, event.creates = true) : Run OrderlyStep before events after := by
  induction run generalizing model with
  | nil state => exact .nil state
  | @cons first middle last event events step _ induction =>
      rcases stands.step step with ⟨next, transition, standsNext⟩
      have created := creates event List.mem_cons_self
      have rest : ∀ event ∈ events, event.creates = true := fun event member =>
        creates event (List.mem_cons_of_mem _ member)
      have kept : first.kernel.pendsvPending = false := by
        rcases stands with ⟨lists, same, _⟩
        rw [same]
        exact switched
      have switchedNext : next.pendsvPending = false := by
        cases transition with
        | @newThread info thread mm _ _ _ =>
            rw [(newThread_frame model info thread mm).outside]
            exact switched
        | start _ _ _ _ picked _ =>
            rw [(pick_frame picked).outside]
            exact switched
        | _ => cases created
      have orderly : Orderly first.kernel event := by
        constructor
        · intro pending
          cases kept.symm.trans pending
        · cases event with
          | newThread info => trivial
          | start => trivial
          | _ => cases created
      cases step with
      | intro step _ => exact .cons (.intro step orderly) (induction standsNext switchedNext rest)

/-- No event but a new thread or an exit changes which threads there are. -/
def KeepsThreads (kernel : Machine) (event : Event) (before after : List ThreadPtr) : Prop :=
  if event.creates then ∃ thread, thread ∉ before ∧ after = thread :: before
  else after = before ∨ ∃ curr, kernel.currThread = some curr ∧
    (kernel.thread curr).exitPending = true ∧ after = before.erase curr

theorem Transition.keepsThreads {lists : KernelLists} {model next : Model}
    (transition : Transition model event next) :
    KeepsThreads (model.withLists lists) event (model.queue .threads) (next.queue .threads) := by
  cases transition.threadsChange with
  | adds creates _ fresh listed =>
      rw [KeepsThreads, if_pos creates]
      exact ⟨_, fresh, listed⟩
  | keeps creates listed =>
      rw [KeepsThreads, if_neg (by simp [creates])]
      exact .inl listed
  | exits creates isCurr exits listed =>
      rw [KeepsThreads, if_neg (by simp [creates])]
      exact .inr ⟨_, isCurr, exits, listed⟩

/-- In every orderly run each thread but the idle one is in one place, every list is
well formed, no step panics but for want of memory, and `threads` has each thread
once from its creation to its exit. -/
theorem orderly_placement (run : Run OrderlyStep (powerUp linker memory) events system) :
    ∃ queues, InPlace system.kernel queues ∧
      ∀ event, Enabled system event → Orderly system.kernel event →
        (∃ after later, (perform event).run system = .ok () after ∧
          InPlace after.kernel later ∧
          KeepsThreads system.kernel event (queues .threads) (later .threads)) ∨
        event.allocates = true ∧
          ∃ after, (perform event).run system = .error (.panic "palloc failed") after := by
  rcases (orderly_powerUp linker memory).run run with ⟨⟨model, stands, steady⟩, allowedRun⟩
  have whole := stands
  rcases whole with ⟨lists, same, rep, sound, _⟩
  rw [same]
  refine ⟨model.queue, sound.inPlace rep, ?_⟩
  intro event enabled isOrderly
  rw [← same] at isOrderly
  have allowed := steady.allowed stands enabled isOrderly
  rcases ((sound_powerUp linker memory).run allowedRun).survives enabled allowed with
    ⟨after, returns, _, _⟩ | panics
  · rcases stands.step (.intro (.intro enabled returns) allowed) with
      ⟨next, transition, finalLists, sameNext, finalRep, finalSound, _⟩
    refine .inl ⟨after, next.queue, returns, ?_, transition.keepsThreads⟩
    rw [sameNext]
    exact finalSound.inPlace finalRep
  · exact .inr panics

theorem orderly_two_threads {schedClass : SchedClass} {memory : ByteMemory} {system : System}
    (run : Run AllowedStep (powerUp lowHeap memory) (twoThreadEvents schedClass) system) :
    Run OrderlyStep (powerUp lowHeap memory) (twoThreadEvents schedClass) system := by
  apply (stands_powerUp lowHeap memory).orderly rfl run
  simp [twoThreadEvents, Event.creates]

theorem orderly_placement_started : ∃ memory system,
    Run OrderlyStep (powerUp lowHeap memory) (twoThreadEvents .realTime) system ∧
      ∃ queues, InPlace system.kernel queues := by
  have notIdle : SchedClass.realTime ≠ .idle := by decide
  rcases two_threads notIdle ⟨fun _ => 0, []⟩ with ⟨lists, model, run, _⟩
  have orderly := orderly_two_threads run
  rcases orderly_placement orderly with ⟨queues, inPlace, _⟩
  exact ⟨_, _, orderly, queues, inPlace⟩

end Runs

end Vanilla.Kernel
