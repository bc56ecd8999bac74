import Vanilla.Kernel.Sleeping

/-! # The scheduler as a transition system

The same events on the sequences. Each allowed step of the machine is a
transition of the model it stands for, so what holds in every run of the
transitions holds of the machine.
-/

namespace Vanilla.Kernel

open Mm

/-- One event on the sequences, with the guards it is known to meet. -/
inductive Transition (model : Model) : Event → Model → Prop where
  | newThread {info : ThreadInfo} {thread : ThreadPtr} {mm : MmState} :
      info.schedClass ≠ .idle → thread ∉ model.queue .threads →
      (pmalloc (threadPages info.stackSize) .dramBank3).run model.mm = .ok thread mm →
      Transition model (.newThread info) (model.newThread info thread mm)
  | start {thread next : ThreadPtr} {mm : MmState} {after : Model} :
      model.systickEnabled = false → model.pendsvPending = false →
      thread ∉ model.queue .threads →
      (pmalloc (threadPages idleInfo.stackSize) .dramBank3).run model.mm = .ok thread mm →
      (model.withIdle thread mm).pick = some (next, after) →
      Awake (after.thread next) →
      Transition model .start
        { after with nextThread := some next, currThread := some next, systickEnabled := true }
  | sleep {curr : ThreadPtr} {ms : Nat} :
      model.currThread = some curr → model.inHand = some curr →
      Transition model (.sleep ms) (model.threadSleep curr ms)
  | stays {curr next : ThreadPtr} {cvr : Nat} {after : Model} :
      model.currThread = some curr → (model.thread curr).exitPending = false →
      cvr ≤ systickRvr →
      (KernelState.beforePick { model with systickPending := false } curr cvr).pick =
        some (next, after) →
      Transition model (.systick cvr)
        { after with nextThread := some next, pendsvPending := true }
  | exits {curr next : ThreadPtr} {cvr : Nat} {mm : MmState} {after : Model} :
      model.currThread = some curr → (model.thread curr).exitPending = true →
      cvr ≤ systickRvr →
      (deleteThread (model.thread curr).codeAddr curr).run model.mm = .ok () mm →
      (KernelState.removeThread (KernelState.beforePick
        { model with systickPending := false } curr cvr) curr mm).pick = some (next, after) →
      after.queue .threads = (model.queue .threads).erase curr →
      Transition model (.systick cvr)
        { after with nextThread := some next, pendsvPending := true }
  | pendsv {next : ThreadPtr} : model.nextThread = some next → model.inHand = some next →
      Transition model .pendsv { model with currThread := some next, pendsvPending := false }
  | stillBlocked {thread : ThreadPtr} {tid : Nat} :
      model.findThread tid = some thread → (model.thread thread).rqList = some .blockedQ →
      Transition model (.block tid) model
  | block {thread : ThreadPtr} {tid : Nat} {queue : QueueId} :
      model.findThread tid = some thread → (model.thread thread).schedClass = .realTime →
      model.currThread ≠ some thread → queue.Running → queue ≠ .blockedQ →
      thread ∈ model.queue queue → (model.thread thread).rqList = some queue →
      Transition model (.block tid) (model.block thread queue)
  | notBlocked {thread : ThreadPtr} {tid : Nat} :
      model.findThread tid = some thread → (model.thread thread).rqList ≠ some .blockedQ →
      Transition model (.unblock tid) model
  | unblock {thread : ThreadPtr} {tid : Nat} :
      model.findThread tid = some thread → model.currThread ≠ some thread →
      thread ∈ model.queue .blockedQ → (model.thread thread).rqList = some .blockedQ →
      Transition model (.unblock tid) (model.unblock thread)
  | exit {curr : ThreadPtr} : model.currThread = some curr →
      Transition model .exit
        (model.setThread curr fun fields => { fields with exitPending := true })
  | kill {tid : Nat} : Transition model (.kill tid) (model.killThread tid)
  | allocate {count : Nat} {bank : PhysmemE} {mm : MmState} :
      Transition model (.allocate count bank) { model with mm }
  | release {pointer : Nat} {mm : MmState} : Transition model (.release pointer) { model with mm }

/-- Only an exit marks a thread, and nothing else changes what a thread is. -/
theorem Transition.identity {model next : Model} {event : Event} {thread : ThreadPtr}
    (transition : Transition model event next) (known : thread ∈ model.queue .threads) :
    SameIdentity (model.thread thread) (next.thread thread) ∨
      (next.thread thread).schedClass = (model.thread thread).schedClass ∧
        (event = .exit ∧ model.currThread = some thread ∨ ∃ tid, event = .kill tid) := by
  cases transition with
  | @newThread info created mm _ fresh _ =>
      left
      rw [(newThread_frame model info created mm).others thread fun equal => fresh (equal ▸ known)]
      exact .refl _
  | @start created next mm after _ _ fresh _ picked _ =>
      left
      have frame : NewFrame { model with schedulerStatus := true, rqTickToWake := 0 }
          (model.withIdle created mm) idleInfo created mm := newThread_frame _ idleInfo created mm
      have same := frame.others thread fun equal => fresh (equal ▸ known)
      have identity := (pick_frame picked).identity thread
      rw [same] at identity
      exact identity
  | @sleep curr ms _ _ =>
      left
      have frame := threadSleep_frame model curr ms
      by_cases equal : thread = curr
      · subst equal
        exact frame.identity
      · rw [frame.threads thread equal]
        exact .refl _
  | @stays curr next cvr after _ _ _ picked =>
      left
      have frame := beforePick_frame { model with systickPending := false } curr cvr
      exact (frame.identity thread).trans ((pick_frame picked).identity thread)
  | @exits curr next cvr mm after _ _ _ _ picked _ =>
      left
      have frame := beforePick_frame { model with systickPending := false } curr cvr
      have identity := (pick_frame picked).identity thread
      rw [removeThread_thread] at identity
      exact (frame.identity thread).trans identity
  | pendsv _ _ => exact .inl (.refl _)
  | stillBlocked _ _ => exact .inl (.refl _)
  | @block found tid queue _ _ _ _ _ _ _ =>
      exact .inl (KernelState.setThread_relation
        ((model.remove queue found).append .blockedQ found) found thread .refl _
        ⟨rfl, rfl, rfl, rfl⟩)
  | notBlocked _ _ => exact .inl (.refl _)
  | @unblock found tid _ _ _ _ =>
      left
      have cleared : SameIdentity (model.thread thread)
          (((model.remove .blockedQ found).setThread found fun fields =>
            { fields with tickToWake := 0 }).thread thread) :=
        KernelState.setThread_relation (model.remove .blockedQ found) found thread .refl _
          ⟨rfl, rfl, rfl, rfl⟩
      have queued : SameIdentity (((model.remove .blockedQ found).setThread found fun fields =>
          { fields with tickToWake := 0 }).thread thread)
          ((model.unblock found).thread thread) :=
        @KernelState.setThread_relation
          (((model.remove .blockedQ found).setThread found fun fields =>
            { fields with tickToWake := 0 }).append .rtRq found) found thread SameIdentity .refl
          (fun fields => { fields with rqList := some .rtRq }) ⟨rfl, rfl, rfl, rfl⟩
      exact cleared.trans queued
  | @exit curr isCurr =>
      by_cases equal : thread = curr
      · subst equal
        refine .inr ⟨?_, .inl ⟨rfl, isCurr⟩⟩
        rw [KernelState.thread_setThread_self]
      · left
        rw [KernelState.thread_setThread_of_ne _ _ equal]
        exact .refl _
  | @kill tid =>
      refine .inr ⟨?_, .inr ⟨tid, rfl⟩⟩
      rw [KernelState.killThread]
      split
      · rename_i found _
        exact @KernelState.setThread_relation model found thread
          (fun before after => after.schedClass = before.schedClass) (fun _ => rfl)
          (fun fields => { fields with exitPending := true }) rfl
      · rfl
  | allocate => exact .inl (.refl _)
  | release => exact .inl (.refl _)

/-- The model a sound system stands for. -/
def Stands (linker : Linker) (system : System) (model : Model) : Prop :=
  ∃ lists, system.kernel = model.withLists lists ∧ ListsRep lists model.lists ∧
    Sound linker model system.spare ∧ SleepPends model

theorem SoundSystem.stands {linker : Linker} {system : System}
    (sound : SoundSystem linker system) : ∃ model, Stands linker system model := by
  rcases sound with ⟨lists, model, stands⟩
  exact ⟨model, lists, stands⟩

section Steps

variable {linker : Linker} {lists final : KernelLists} {model next : Model}
  {spare others : List Nat} {event : Event} {after : System}

/-- What an event does to the model is what the machine did. -/
theorem stands_of_returns (returned : (perform event).run ⟨model.withLists lists, spare⟩ =
      .ok () ⟨next.withLists final, others⟩) (rep : ListsRep final next.lists)
    (sound : Sound linker next others) (pends : SleepPends next)
    (transition : Transition model event next)
    (returns : (perform event).run ⟨model.withLists lists, spare⟩ = .ok () after) :
    ∃ next, Transition model event next ∧ Stands linker after next := by
  cases returned.symm.trans returns
  exact ⟨next, transition, final, rfl, rep, sound, pends⟩

theorem stands_of_takes {code : Exec Machine Unit} (performs : perform event = onKernel code)
    (takes : Takes lists model code () next) (sound : Sound linker next spare)
    (pends : SleepPends next) (transition : Transition model event next)
    (returns : (perform event).run ⟨model.withLists lists, spare⟩ = .ok () after) :
    ∃ next, Transition model event next ∧ Stands linker after next := by
  have ran : ∃ final, (onKernel code).run ⟨model.withLists lists, spare⟩ =
      .ok () ⟨next.withLists final, spare⟩ ∧ ListsRep final next.lists := run_onKernel takes
  rcases ran with ⟨final, returned, rep⟩
  rw [← performs] at returned
  exact stands_of_returns returned rep sound pends transition returns

variable (rep : ListsRep lists model.lists) (sound : Sound linker model spare)
  (pends : SleepPends model)

include rep sound pends

theorem stands_newThread {info : ThreadInfo}
    (enabled : Enabled ⟨model.withLists lists, spare⟩ (.newThread info))
    (returns : (perform (.newThread info)).run ⟨model.withLists lists, spare⟩ = .ok () after) :
    ∃ next, Transition model (.newThread info) next ∧ Stands linker after next := by
  rcases sound.memory.pmalloc (threadPages info.stackSize) .dramBank3 with
    panics | ⟨thread, mm, allocated, _, accounts⟩
  · have noPages : (pmalloc (threadPages info.stackSize) .dramBank3).run
        (model.withLists lists).mm = .error (.panic "palloc failed") model.mm := panics
    rcases newThread_panics noPages with ⟨final, fails⟩
    have stuck : (perform (.newThread info)).run ⟨model.withLists lists, spare⟩ =
        .error (.panic "palloc failed") ⟨final, spare⟩ :=
      Exec.run_bind_of_error (onKernel_panics fails)
    cases stuck.symm.trans returns
  · rcases run_newThread rep sound pends enabled allocated with
      ⟨final, returned, finalRep, created, createdPends⟩
    exact stands_of_returns returned finalRep created createdPends
      (.newThread enabled.1 (newThread_fresh accounts) allocated) returns

omit pends in
theorem stands_start (enabled : Enabled ⟨model.withLists lists, spare⟩ .start)
    (returns : (perform .start).run ⟨model.withLists lists, spare⟩ = .ok () after) :
    ∃ next, Transition model .start next ∧ Stands linker after next := by
  rcases sound.memory.pmalloc (threadPages idleInfo.stackSize) .dramBank3 with
    panics | ⟨thread, mm, allocated, _, accounts⟩
  · rcases start_panics panics with ⟨final, fails⟩
    cases fails.symm.trans returns
  · rcases run_start rep sound enabled allocated with
      ⟨final, next, picked, isPicked, awake, returned, finalRep, started, startedPends⟩
    have switched := (sound.booting enabled).2.2
    exact stands_of_returns returned finalRep started startedPends
      (.start enabled switched (newThread_fresh accounts) allocated isPicked awake) returns

theorem stands_sleep {ms : Nat} (enabled : Enabled ⟨model.withLists lists, spare⟩ (.sleep ms))
    (allowed : Allowed (model.withLists lists) (.sleep ms))
    (returns : (perform (.sleep ms)).run ⟨model.withLists lists, spare⟩ = .ok () after) :
    ∃ next, Transition model (.sleep ms) next ∧ Stands linker after next := by
  rcases run_sleep rep sound pends enabled allowed with
    ⟨curr, isCurr, hand, takes, sleeps, sleepPends⟩
  exact stands_of_takes rfl takes sleeps sleepPends (.sleep isCurr hand) returns

omit pends in
theorem stands_systick {cvr : Nat}
    (enabled : Enabled ⟨model.withLists lists, spare⟩ (.systick cvr))
    (allowed : Allowed (model.withLists lists) (.systick cvr))
    (returns : (perform (.systick cvr)).run ⟨model.withLists lists, spare⟩ = .ok () after) :
    ∃ next, Transition model (.systick cvr) next ∧ Stands linker after next := by
  rcases allowed with ⟨switched, sleepsOn, exitKnown⟩
  have entered := sound.enter
  have isSwitched : Switched
      (KernelState.withLists { model with systickPending := false } lists) := switched
  rcases entered.found enabled.1 isSwitched with ⟨curr, isCurr, running⟩
  have requeued := running.requeued rep (sleepsOn curr isCurr)
  have frame := beforePick_frame { model with systickPending := false } curr cvr
  cases exits : (model.thread curr).exitPending with
  | false =>
      rcases entered.systick_stays rep enabled.1 isCurr requeued exits with
        ⟨next, picked, isPicked, takes, kept⟩
      rcases run_systick takes with ⟨final, returned, finalRep⟩
      exact stands_of_returns returned finalRep kept (fun switched => by cases switched)
        (.stays isCurr exits enabled.2 isPicked) returns
  | true =>
      rcases entered.systick_exits rep enabled.1 isCurr requeued exits
        (exitKnown curr isCurr exits) with
        ⟨mm, next, picked, deleted, isPicked, erased, _, takes, kept⟩
      rcases run_systick takes with ⟨final, returned, finalRep⟩
      rw [(frame.identity curr).codeAddr, frame.mm] at deleted
      exact stands_of_returns returned finalRep kept (fun switched => by cases switched)
        (.exits isCurr exits enabled.2 deleted isPicked erased) returns

omit pends in
theorem stands_pendsv (enabled : Enabled ⟨model.withLists lists, spare⟩ .pendsv)
    (returns : (perform .pendsv).run ⟨model.withLists lists, spare⟩ = .ok () after) :
    ∃ next, Transition model .pendsv next ∧ Stands linker after next := by
  rcases sound.switching enabled with ⟨next, chosen⟩
  rcases sound.pendsv enabled chosen with ⟨switched, switchedPends⟩
  have pending : model.pendsvPending = true := enabled
  have hand : model.inHand = some next := by
    rw [KernelState.inHand, if_pos pending, chosen]
  exact stands_of_takes rfl (takes_pendsvException rep chosen) switched switchedPends
    (.pendsv chosen hand) returns

theorem stands_block {tid : Nat}
    (enabled : Enabled ⟨model.withLists lists, spare⟩ (.block tid))
    (allowed : Allowed (model.withLists lists) (.block tid))
    (returns : (perform (.block tid)).run ⟨model.withLists lists, spare⟩ = .ok () after) :
    ∃ next, Transition model (.block tid) next ∧ Stands linker after next := by
  rcases Option.isSome_iff_exists.mp enabled with ⟨thread, isThread⟩
  have found := (threadOf_eq rep sound.placed.ready tid).symm.trans isThread
  rcases allowed thread isThread with ⟨realTime, notCurr, listed⟩
  rcases takes_threadBlock rep sound pends found realTime notCurr listed with
    ⟨next, takes, blocks, blockPends, _, _, outcome⟩
  apply stands_of_takes rfl takes blocks blockPends _ returns
  rcases outcome with ⟨rfl, blocked⟩ | ⟨queue, rfl, running, notBlocked, member, rqList⟩
  · exact .stillBlocked found blocked
  · exact .block found realTime notCurr running notBlocked member rqList

theorem stands_unblock {tid : Nat}
    (enabled : Enabled ⟨model.withLists lists, spare⟩ (.unblock tid))
    (allowed : Allowed (model.withLists lists) (.unblock tid))
    (returns : (perform (.unblock tid)).run ⟨model.withLists lists, spare⟩ = .ok () after) :
    ∃ next, Transition model (.unblock tid) next ∧ Stands linker after next := by
  rcases Option.isSome_iff_exists.mp enabled with ⟨thread, isThread⟩
  have found := (threadOf_eq rep sound.placed.ready tid).symm.trans isThread
  rcases allowed thread isThread with ⟨realTime, notCurr⟩
  rcases takes_threadUnblock rep sound pends found realTime notCurr with
    ⟨next, takes, unblocks, unblockPends, _, _, outcome⟩
  apply stands_of_takes rfl takes unblocks unblockPends _ returns
  rcases outcome with ⟨rfl, free⟩ | ⟨rfl, member, blocked⟩
  · exact .notBlocked found free
  · exact .unblock found notCurr member blocked

theorem stands_exit (enabled : Enabled ⟨model.withLists lists, spare⟩ .exit)
    (returns : (perform .exit).run ⟨model.withLists lists, spare⟩ = .ok () after) :
    ∃ next, Transition model .exit next ∧ Stands linker after next := by
  rcases threadMode_facts enabled with ⟨_, _, _, curr, isCurr, _⟩
  rcases sound.mark pends curr with ⟨marked, markedPends⟩
  exact stands_of_takes rfl (takes_threadExit rep isCurr) marked markedPends (.exit isCurr)
    returns

theorem stands_kill {tid : Nat}
    (returns : (perform (.kill tid)).run ⟨model.withLists lists, spare⟩ = .ok () after) :
    ∃ next, Transition model (.kill tid) next ∧ Stands linker after next := by
  rcases sound.kill pends tid with ⟨killed, killedPends⟩
  exact stands_of_takes rfl (takes_killThread rep sound.placed.ready tid) killed killedPends
    .kill returns

theorem stands_allocate {count : Nat} {bank : PhysmemE}
    (returns : (perform (.allocate count bank)).run ⟨model.withLists lists, spare⟩ =
      .ok () after) :
    ∃ next, Transition model (.allocate count bank) next ∧ Stands linker after next := by
  rcases sound.memory.pmalloc count bank with
    panics | ⟨pointer, mm, allocated, _, accounts⟩
  · have fails : (onMm (pmalloc count bank)).run (model.withLists lists) =
        .error (.panic "palloc failed") (model.withLists lists) := Exec.run_zoom_error panics
    have stuck : (perform (.allocate count bank)).run ⟨model.withLists lists, spare⟩ =
        .error (.panic "palloc failed") ⟨model.withLists lists, spare⟩ :=
      Exec.run_bind_of_error (onKernel_panics fails)
    cases stuck.symm.trans returns
  · have ran : ∃ final, (onKernel (onMm (pmalloc count bank))).run
          ⟨model.withLists lists, spare⟩ =
        .ok pointer ⟨KernelState.withLists { model with mm } final, spare⟩ ∧
          ListsRep final model.lists := run_onKernel (Takes.onMm rep allocated)
    rcases ran with ⟨final, returned, finalRep⟩
    have accounted : Accounts linker mm (model.owned ++ pointer :: spare) :=
      accounts.perm List.perm_middle.symm
    rcases sound.setMemory pends accounted with ⟨kept, keptPends⟩
    exact stands_of_returns (Exec.run_bind_of_ok returned) finalRep kept keptPends .allocate
      returns

theorem stands_release {pointer : Nat}
    (enabled : Enabled ⟨model.withLists lists, spare⟩ (.release pointer))
    (returns : (perform (.release pointer)).run ⟨model.withLists lists, spare⟩ = .ok () after) :
    ∃ next, Transition model (.release pointer) next ∧ Stands linker after next := by
  have isSpare : pointer ∈ spare := enabled
  have taken := List.perm_cons_erase isSpare
  have accounts : Accounts linker model.mm (pointer :: (model.owned ++ spare.erase pointer)) :=
    Accounts.perm sound.memory ((taken.append_left _).trans List.perm_middle)
  rcases accounts.free with ⟨mm, freed, accounts⟩
  have ran : ∃ final, (onKernel (onMm (mmFree pointer))).run ⟨model.withLists lists, spare⟩ =
      .ok () ⟨KernelState.withLists { model with mm } final, spare⟩ ∧
        ListsRep final model.lists := run_onKernel (Takes.onMm rep freed)
  rcases ran with ⟨final, returned, finalRep⟩
  rcases sound.setMemory pends accounts with ⟨kept, keptPends⟩
  exact stands_of_returns (Exec.run_bind_of_ok returned) finalRep kept keptPends .release returns

end Steps

variable {linker : Linker} {before after : System} {model : Model} {event : Event}
  {events : List Event}

/-- An allowed step of the machine is a transition of the model it stands for. -/
theorem Stands.step (stands : Stands linker before model)
    (step : AllowedStep before event after) :
    ∃ next, Transition model event next ∧ Stands linker after next := by
  rcases before with ⟨kernel, spare⟩
  rcases stands with ⟨lists, same, rep, sound, pends⟩
  change kernel = model.withLists lists at same
  subst same
  cases step with
  | intro step allowed =>
      cases step with
      | intro enabled returns =>
          cases event with
          | newThread info => exact stands_newThread rep sound pends enabled returns
          | start => exact stands_start rep sound enabled returns
          | sleep ms => exact stands_sleep rep sound pends enabled allowed returns
          | systick cvr => exact stands_systick rep sound enabled allowed returns
          | pendsv => exact stands_pendsv rep sound enabled returns
          | block tid => exact stands_block rep sound pends enabled allowed returns
          | unblock tid => exact stands_unblock rep sound pends enabled allowed returns
          | exit => exact stands_exit rep sound pends enabled returns
          | kill tid => exact stands_kill rep sound pends returns
          | allocate count bank => exact stands_allocate rep sound pends returns
          | release pointer => exact stands_release rep sound pends enabled returns

theorem stands_powerUp (linker : Linker) (memory : ByteMemory) :
    Stands linker (powerUp linker memory) (bootModel linker memory) :=
  ⟨bootLists, rfl, bootModel_rep linker memory, bootModel_sound linker memory,
    bootModel_pends linker memory⟩

/-- An allowed run of the machine is a run of transitions. -/
theorem Stands.run (stands : Stands linker before model)
    (run : Run AllowedStep before events after) :
    ∃ next, Run Transition model events next ∧ Stands linker after next := by
  induction run generalizing model with
  | nil state => exact ⟨model, .nil model, stands⟩
  | cons step _ induction =>
      rcases stands.step step with ⟨middle, transition, stands⟩
      rcases induction stands with ⟨next, run, stands⟩
      exact ⟨next, .cons transition run, stands⟩

end Vanilla.Kernel
