import Vanilla.Kernel.SoundCalls
import Vanilla.Mm.Tiling

/-! # Sound runs

Every event that meets its condition runs to its end, or finds no memory, and
leaves the scheduler sound.
-/

namespace Vanilla.Kernel

open Mm

/-- The events that allocate, and so may find no memory. -/
def Event.allocates : Event → Bool
  | .newThread _ => true
  | .start => true
  | .allocate _ _ => true
  | _ => false

/-- A list of the machine is well formed and holds these threads in order. -/
def Holds (kernel : Machine) (queue : QueueId) (threads : List ThreadPtr) : Prop :=
  Represents kernel.lists queue (threads.map (nodeIn queue))

theorem ListsRep.holds {lists : KernelLists} {model : Model} (rep : ListsRep lists model.lists)
    (queue : QueueId) : Holds (model.withLists lists) queue (model.queue queue) :=
  rep.refines.represents queue

/-- A thread in the global list. -/
def Listed (kernel : Machine) (thread : ThreadPtr) : Prop :=
  ∃ threads, Holds kernel .threads threads ∧ thread ∈ threads

theorem listed_iff {lists : KernelLists} {model : Model} (rep : ListsRep lists model.lists)
    (thread : ThreadPtr) : Listed (model.withLists lists) thread ↔
      thread ∈ model.queue .threads := by
  constructor
  · intro listed
    rcases listed with ⟨threads, holds, member⟩
    have same := Represents.unique holds (rep.holds .threads)
    rwa [(nodeIn_injective .threads).list_map same] at member
  · exact fun member => ⟨_, rep.holds .threads, member⟩

/-- The events that bring a new thread. -/
def Event.creates : Event → Bool
  | .newThread _ => true
  | .start => true
  | _ => false

/-- No thread is in the global list that was not. -/
def Shrinks (before after : Machine) : Prop :=
  ∀ thread, Listed after thread → Listed before thread

theorem shrinks_of_queues {lists final : KernelLists} {model after : Model}
    (rep : ListsRep lists model.lists) (finalRep : ListsRep final after.lists)
    (threads : ∀ thread ∈ after.queue .threads, thread ∈ model.queue .threads) :
    Shrinks (model.withLists lists) (after.withLists final) := by
  intro thread
  rw [listed_iff rep, listed_iff finalRep]
  exact threads thread

/-- The event runs to its end and leaves the scheduler sound, or it panics for
want of memory. -/
def Survives (linker : Linker) (system : System) (event : Event) : Prop :=
  (∃ after, (perform event).run system = .ok () after ∧ SoundSystem linker after ∧
      (event.creates = false → Shrinks system.kernel after.kernel)) ∨
    event.allocates = true ∧
      ∃ after, (perform event).run system = .error (.panic "palloc failed") after

section Perform

variable {linker : Linker} {lists : KernelLists} {model after : Model} {spare : List Nat}

theorem run_onKernel {Value : Type} {code : Exec Machine Value} {value : Value}
    (takes : Takes lists model code value after) :
    ∃ final, (onKernel code).run ⟨model.withLists lists, spare⟩ =
        .ok value ⟨after.withLists final, spare⟩ ∧ ListsRep final after.lists := by
  rcases takes with ⟨final, returns, rep⟩
  exact ⟨final, Exec.run_zoom_ok returns, rep⟩

theorem survives_of_takes {event : Event} {code : Exec Machine Unit}
    (rep : ListsRep lists model.lists) (performs : perform event = onKernel code)
    (takes : Takes lists model code () after) (sound : Sound linker after spare)
    (pends : SleepPends after)
    (threads : ∀ thread ∈ after.queue .threads, thread ∈ model.queue .threads) :
    Survives linker ⟨model.withLists lists, spare⟩ event := by
  rcases run_onKernel takes with ⟨final, returns, finalRep⟩
  rw [← performs] at returns
  exact .inl ⟨_, returns, ⟨final, after, rfl, finalRep, sound, pends⟩,
    fun _ => shrinks_of_queues rep finalRep threads⟩

theorem newThread_panics {kernel : Machine} {info : ThreadInfo}
    (panics : (pmalloc (threadPages info.stackSize) .dramBank3).run kernel.mm =
      .error (.panic "palloc failed") kernel.mm) :
    ∃ final, (newThread info).run kernel = .error (.panic "palloc failed") final := by
  have suspended : suspendScheduler.run kernel =
      .ok () { kernel with schedulerStatus := false } := rfl
  have fails : (onMm (pmalloc (threadPages info.stackSize) .dramBank3)).run
      { kernel with schedulerStatus := false } =
      .error (.panic "palloc failed") { kernel with schedulerStatus := false } :=
    Exec.run_zoom_error panics
  exact ⟨_, (Exec.run_bind_of_ok suspended).trans (Exec.run_bind_of_error fails)⟩

theorem onKernel_panics {Value : Type} {code : Exec Machine Value} {kernel final : Machine}
    {reason : Fault} (panics : code.run kernel = .error reason final) :
    (onKernel code).run ⟨kernel, spare⟩ = .error reason ⟨final, spare⟩ :=
  Exec.run_zoom_error panics

theorem threadMode_facts {kernel : Machine} (thread : threadMode kernel = true) :
    kernel.systickEnabled = true ∧ kernel.systickPending = false ∧
      kernel.pendsvPending = false ∧ ∃ curr, kernel.currThread = some curr ∧
        (kernel.thread curr).schedClass ≠ .idle := by
  simp only [threadMode, Bool.and_eq_true, Bool.not_eq_true'] at thread
  rcases thread with ⟨⟨⟨enabled, quiet⟩, switched⟩, notIdle⟩
  cases running : kernel.currThread with
  | none => simp [running] at notIdle
  | some curr =>
      refine ⟨enabled, quiet, switched, curr, rfl, ?_⟩
      simpa [running] using notIdle

variable (rep : ListsRep lists model.lists) (sound : Sound linker model spare)
  (pends : SleepPends model)

include rep sound pends

/-- The thread that runs goes to sleep. -/
theorem run_sleep {ms : Nat} (enabled : Enabled ⟨model.withLists lists, spare⟩ (.sleep ms))
    (allowed : Allowed (model.withLists lists) (.sleep ms)) :
    ∃ curr, model.currThread = some curr ∧ model.inHand = some curr ∧
      Takes lists model (threadSleep ms) () (model.threadSleep curr ms) ∧
      Sound linker (model.threadSleep curr ms) spare ∧ SleepPends (model.threadSleep curr ms) := by
  rcases threadMode_facts enabled.2 with ⟨systick, quiet, switched, curr, isCurr, notIdle⟩
  have hand := pends.inHand isCurr quiet switched
  have placed := sound.placed
  rw [hand] at placed
  rcases sound.sleep isCurr hand systick switched notIdle allowed with ⟨sleeps, sleepPends⟩
  have takes := takes_threadSleep rep placed.ready isCurr
    (placed.heldUnqueued curr List.mem_cons_self) (sound.current curr isCurr).1 ms
  exact ⟨curr, isCurr, hand, takes, sleeps, sleepPends⟩

theorem survives_sleep {ms : Nat}
    (enabled : Enabled ⟨model.withLists lists, spare⟩ (.sleep ms))
    (allowed : Allowed (model.withLists lists) (.sleep ms)) :
    Survives linker ⟨model.withLists lists, spare⟩ (.sleep ms) := by
  rcases run_sleep rep sound pends enabled allowed with
    ⟨curr, _, _, takes, sleeps, sleepPends⟩
  have threads := (threadSleep_frame model curr ms).queues .threads (by simp)
  exact survives_of_takes rep rfl takes sleeps sleepPends fun thread known => threads ▸ known

omit rep pends in
theorem Sound.enter : Sound linker { model with systickPending := false } spare := by
  have same : SameRunning model { model with systickPending := false } :=
    ⟨rfl, rfl, rfl, rfl, id, rfl⟩
  exact sound.keepLists same (sound.memory.congr rfl rfl fun _ _ => rfl) rfl rfl

omit rep sound pends in
/-- The hardware enters a SysTick, and the exception runs. -/
theorem run_systick {cvr : Nat}
    (takes : Takes lists { model with systickPending := false } (systickException cvr) () after) :
    ∃ final, (perform (.systick cvr)).run ⟨model.withLists lists, spare⟩ =
        .ok () ⟨after.withLists final, spare⟩ ∧ ListsRep final after.lists := by
  rcases takes with ⟨final, returns, finalRep⟩
  have entered : Takes lists model (do
      enterSystick
      systickException cvr) () after :=
    ⟨final, (Exec.run_bind_of_ok (run_enterSystick _)).trans returns, finalRep⟩
  exact run_onKernel entered

omit pends in
theorem survives_systick {cvr : Nat}
    (enabled : Enabled ⟨model.withLists lists, spare⟩ (.systick cvr))
    (allowed : Allowed (model.withLists lists) (.systick cvr)) :
    Survives linker ⟨model.withLists lists, spare⟩ (.systick cvr) := by
  rcases sound.enter.systick rep enabled.1 allowed with ⟨after, takes, kept, frame⟩
  rcases run_systick takes with ⟨final, returns, finalRep⟩
  refine .inl ⟨_, returns, ⟨final, after, rfl, finalRep, kept, ?_⟩, fun _ => ?_⟩
  · intro switched
    cases frame.pendsvPending.symm.trans switched
  · exact shrinks_of_queues rep finalRep frame.shrinks

omit pends in
theorem survives_pendsv (enabled : Enabled ⟨model.withLists lists, spare⟩ .pendsv) :
    Survives linker ⟨model.withLists lists, spare⟩ .pendsv := by
  rcases sound.switching enabled with ⟨next, chosen⟩
  rcases sound.pendsv enabled chosen with ⟨switched, switchedPends⟩
  exact survives_of_takes rep rfl (takes_pendsvException rep chosen) switched switchedPends
    fun _ known => known

theorem survives_exit (enabled : Enabled ⟨model.withLists lists, spare⟩ .exit) :
    Survives linker ⟨model.withLists lists, spare⟩ .exit := by
  rcases threadMode_facts enabled with ⟨_, _, _, curr, isCurr, _⟩
  rcases sound.mark pends curr with ⟨marked, markedPends⟩
  exact survives_of_takes rep rfl (takes_threadExit rep isCurr) marked markedPends
    fun _ known => known

theorem survives_kill (tid : Nat) :
    Survives linker ⟨model.withLists lists, spare⟩ (.kill tid) := by
  rcases sound.kill pends tid with ⟨killed, killedPends⟩
  have threads : (model.killThread tid).queue .threads = model.queue .threads := by
    rw [KernelState.killThread]
    split <;> rfl
  exact survives_of_takes rep rfl (takes_killThread rep sound.placed.ready tid) killed killedPends
    fun thread known => threads ▸ known

theorem takes_threadBlock {tid : Nat} {thread : ThreadPtr}
    (found : model.findThread tid = some thread)
    (realTime : (model.thread thread).schedClass = .realTime)
    (notCurr : model.currThread ≠ some thread) (listed : (model.thread thread).rqList ≠ none) :
    ∃ after, Takes lists model (threadBlock tid) () after ∧ Sound linker after spare ∧
      SleepPends after ∧ thread ∈ after.queue .blockedQ ∧
      after.queue .threads = model.queue .threads ∧
      (after = model ∧ (model.thread thread).rqList = some .blockedQ ∨
        ∃ queue : QueueId, after = model.block thread queue ∧ queue.Running ∧
          queue ≠ .blockedQ ∧ thread ∈ model.queue queue ∧
          (model.thread thread).rqList = some queue) := by
  have ready := sound.placed.ready
  have notHeld : model.inHand ≠ some thread := fun hand =>
    listed (sound.awake thread hand).2
  rcases sound.queue_of (findThread_known found) realTime notHeld with
    ⟨queue, running, member, rqList⟩
  have gets := takes_getThread rep ready tid
  rw [found] at gets
  have present : SchedulingClass.block (model.thread thread).schedClass.table = some rtBlock := by
    rw [realTime]
    rfl
  by_cases blocked : queue = .blockedQ
  · subst blocked
    have takes : Takes lists model (threadBlock tid) () model :=
      gets.bind fun next nextRep => takes_onOtherThread notCurr present
        (takes_rtBlock_blocked nextRep rqList)
    exact ⟨model, takes, sound, pends, member, rfl, .inl ⟨rfl, rqList⟩⟩
  · rcases sound.block pends running member realTime notCurr with ⟨blocks, blockPends⟩
    have takes : Takes lists model (threadBlock tid) () (model.block thread queue) :=
      gets.bind fun next nextRep => takes_onOtherThread notCurr present
        (takes_rtBlock nextRep ready rqList blocked running member)
    refine ⟨_, takes, blocks, blockPends, ?_, block_threads model thread running,
      .inr ⟨queue, rfl, running, blocked, member, rqList⟩⟩
    rw [KernelState.block, KernelState.queue_setThread, KernelState.append,
      KernelState.queue_setQueue_self]
    exact List.mem_append_right _ List.mem_cons_self

theorem takes_threadUnblock {tid : Nat} {thread : ThreadPtr}
    (found : model.findThread tid = some thread)
    (realTime : (model.thread thread).schedClass = .realTime)
    (notCurr : model.currThread ≠ some thread) :
    ∃ after, Takes lists model (threadUnblock tid) () after ∧ Sound linker after spare ∧
      SleepPends after ∧ thread ∉ after.queue .blockedQ ∧
      after.queue .threads = model.queue .threads ∧
      (after = model ∧ (model.thread thread).rqList ≠ some .blockedQ ∨
        after = model.unblock thread ∧ thread ∈ model.queue .blockedQ ∧
          (model.thread thread).rqList = some .blockedQ) := by
  have ready := sound.placed.ready
  have gets := takes_getThread rep ready tid
  rw [found] at gets
  have present : SchedulingClass.unblock (model.thread thread).schedClass.table =
      some rtUnblock := by
    rw [realTime]
    rfl
  by_cases blocked : (model.thread thread).rqList = some .blockedQ
  · have notHeld : model.inHand ≠ some thread := by
      intro hand
      cases (sound.awake thread hand).2.symm.trans blocked
    rcases sound.queue_of (findThread_known found) realTime notHeld with
      ⟨queue, running, member, rqList⟩
    cases rqList.symm.trans blocked
    rcases sound.unblock pends member notCurr with ⟨unblocks, unblockPends⟩
    have takes : Takes lists model (threadUnblock tid) () (model.unblock thread) :=
      gets.bind fun next nextRep => takes_onOtherThread notCurr present
        (takes_rtUnblock nextRep ready blocked member)
    refine ⟨_, takes, unblocks, unblockPends, ?_,
      unblock_queues model thread (by simp) (by simp), .inr ⟨rfl, member, blocked⟩⟩
    rw [KernelState.unblock, KernelState.queue_setThread, KernelState.append,
      KernelState.queue_setQueue_of_ne _ _ _ _ (by simp), KernelState.queue_setThread,
      KernelState.remove_queue_self]
    exact (sound.placed.nodup .blockedQ).not_mem_erase
  · have takes : Takes lists model (threadUnblock tid) () model :=
      gets.bind fun next nextRep => takes_onOtherThread notCurr present
        (takes_rtUnblock_other nextRep blocked)
    refine ⟨model, takes, sound, pends, ?_, rfl, .inl ⟨rfl, blocked⟩⟩
    intro member
    exact blocked (sound.placed.fits .blockedQ thread member).2

theorem survives_block {tid : Nat}
    (enabled : Enabled ⟨model.withLists lists, spare⟩ (.block tid))
    (allowed : Allowed (model.withLists lists) (.block tid)) :
    Survives linker ⟨model.withLists lists, spare⟩ (.block tid) := by
  have found := threadOf_eq rep sound.placed.ready tid
  rcases Option.isSome_iff_exists.mp enabled with ⟨thread, isThread⟩
  rcases allowed thread isThread with ⟨realTime, notCurr, listed⟩
  rcases takes_threadBlock rep sound pends (found.symm.trans isThread) realTime notCurr listed
    with ⟨after, takes, blocks, blockPends, _, threads, _⟩
  exact survives_of_takes rep rfl takes blocks blockPends fun thread known => threads ▸ known

theorem survives_unblock {tid : Nat}
    (enabled : Enabled ⟨model.withLists lists, spare⟩ (.unblock tid))
    (allowed : Allowed (model.withLists lists) (.unblock tid)) :
    Survives linker ⟨model.withLists lists, spare⟩ (.unblock tid) := by
  have found := threadOf_eq rep sound.placed.ready tid
  rcases Option.isSome_iff_exists.mp enabled with ⟨thread, isThread⟩
  rcases allowed thread isThread with ⟨realTime, notCurr⟩
  rcases takes_threadUnblock rep sound pends (found.symm.trans isThread) realTime notCurr
    with ⟨after, takes, unblocks, unblockPends, _, threads, _⟩
  exact survives_of_takes rep rfl takes unblocks unblockPends fun thread known => threads ▸ known

omit rep sound pends in
theorem newThread_fresh {thread : ThreadPtr} {pointers : List Nat} {mm : MmState}
    (accounts : Accounts linker mm (thread :: (model.owned ++ pointers))) :
    thread ∉ model.queue .threads := by
  intro known
  have absent := (List.nodup_cons.mp accounts.nodup).1
  exact absent (List.mem_append_left _ (List.mem_append_left _ known))

/-- With memory for it, a new thread is created. -/
theorem run_newThread {info : ThreadInfo}
    (enabled : Enabled ⟨model.withLists lists, spare⟩ (.newThread info)) {thread : ThreadPtr}
    {mm : MmState} (allocated : (pmalloc (threadPages info.stackSize) .dramBank3).run model.mm =
      .ok thread mm) :
    ∃ final, (perform (.newThread info)).run ⟨model.withLists lists, spare⟩ =
        .ok () ⟨(model.newThread info thread mm).withLists final, spare.erase info.codeAddr⟩ ∧
      ListsRep final (model.newThread info thread mm).lists ∧
      Sound linker (model.newThread info thread mm) (spare.erase info.codeAddr) ∧
      SleepPends (model.newThread info thread mm) := by
  rcases sound.memory.pmalloc (threadPages info.stackSize) .dramBank3 with
    panics | ⟨found, after, returns, below, accounts⟩
  · cases panics.symm.trans allocated
  · cases returns.symm.trans allocated
    have fresh := newThread_fresh accounts
    rcases run_onKernel (takes_newThread rep sound.placed.ready fresh allocated) with
      ⟨final, runs, finalRep⟩
    exact ⟨final, Exec.run_bind_of_ok runs, finalRep,
      sound.newThread pends enabled.1 below accounts enabled.2.2⟩

theorem survives_newThread {info : ThreadInfo}
    (enabled : Enabled ⟨model.withLists lists, spare⟩ (.newThread info)) :
    Survives linker ⟨model.withLists lists, spare⟩ (.newThread info) := by
  rcases sound.memory.pmalloc (threadPages info.stackSize) .dramBank3 with
    panics | ⟨thread, mm, allocated, _, _⟩
  · have noPages : (pmalloc (threadPages info.stackSize) .dramBank3).run
        (model.withLists lists).mm = .error (.panic "palloc failed") model.mm := panics
    rcases newThread_panics noPages with ⟨final, fails⟩
    exact .inr ⟨rfl, _, Exec.run_bind_of_error (onKernel_panics fails)⟩
  · rcases run_newThread rep sound pends enabled allocated with
      ⟨final, returns, finalRep, created, createdPends⟩
    exact .inl ⟨_, returns, ⟨final, _, rfl, finalRep, created, createdPends⟩,
      fun stays => by cases stays⟩

omit pends in
/-- With memory for the idle thread, the scheduler starts. -/
theorem run_start (enabled : Enabled ⟨model.withLists lists, spare⟩ .start)
    {thread : ThreadPtr} {mm : MmState}
    (allocated : (pmalloc (threadPages idleInfo.stackSize) .dramBank3).run model.mm =
      .ok thread mm) :
    ∃ final next after, (model.withIdle thread mm).pick = some (next, after) ∧
      Awake (after.thread next) ∧
      (perform .start).run ⟨model.withLists lists, spare⟩ = .ok () ⟨KernelState.withLists
        { after with nextThread := some next, currThread := some next, systickEnabled := true }
        final, spare⟩ ∧
      ListsRep final after.lists ∧
      Sound linker { after with
        nextThread := some next, currThread := some next, systickEnabled := true } spare ∧
      SleepPends { after with
        nextThread := some next, currThread := some next, systickEnabled := true } := by
  rcases sound.memory.pmalloc (threadPages idleInfo.stackSize) .dramBank3 with
    panics | ⟨found, mmAfter, returns, below, accounts⟩
  · cases panics.symm.trans allocated
  · cases returns.symm.trans allocated
    have fresh := newThread_fresh accounts
    rcases sound.start enabled below accounts with
      ⟨created, next, after, picked, awake, started, startedPends⟩
    have takes := takes_schedulerStart rep sound.placed.ready fresh allocated created picked
    rcases run_onKernel takes with ⟨final, runs, finalRep⟩
    exact ⟨final, next, after, picked, awake, runs, finalRep, started, startedPends⟩

omit rep sound pends in
/-- Without memory for the idle thread, the start of the scheduler panics. -/
theorem start_panics
    (panics : (pmalloc (threadPages idleInfo.stackSize) .dramBank3).run model.mm =
      .error (.panic "palloc failed") model.mm) :
    ∃ final, (perform .start).run ⟨model.withLists lists, spare⟩ =
      .error (.panic "palloc failed") ⟨final, spare⟩ := by
  have started : (modify fun kernel : Machine =>
      { kernel with schedulerStatus := true, rqTickToWake := 0 } : Exec Machine Unit).run
      (model.withLists lists) = .ok () { model.withLists lists with
        schedulerStatus := true, rqTickToWake := 0 } := rfl
  have noPages : (pmalloc (threadPages idleInfo.stackSize) .dramBank3).run
      (KernelState.mm { model.withLists lists with
        schedulerStatus := true, rqTickToWake := 0 }) =
      .error (.panic "palloc failed") model.mm := panics
  rcases newThread_panics noPages with ⟨final, fails⟩
  exact ⟨final, onKernel_panics ((Exec.run_bind_of_ok started).trans
    (Exec.run_bind_of_error fails))⟩

omit pends in
theorem survives_start (enabled : Enabled ⟨model.withLists lists, spare⟩ .start) :
    Survives linker ⟨model.withLists lists, spare⟩ .start := by
  rcases sound.memory.pmalloc (threadPages idleInfo.stackSize) .dramBank3 with
    panics | ⟨thread, mm, allocated, _, _⟩
  · rcases start_panics panics with ⟨final, fails⟩
    exact .inr ⟨rfl, _, fails⟩
  · rcases run_start rep sound enabled allocated with
      ⟨final, next, after, _, _, returns, finalRep, started, startedPends⟩
    exact .inl ⟨_, returns, ⟨final, _, rfl, finalRep, started, startedPends⟩,
      fun stays => by cases stays⟩

theorem survives_allocate (count : Nat) (bank : PhysmemE) :
    Survives linker ⟨model.withLists lists, spare⟩ (.allocate count bank) := by
  rcases sound.memory.pmalloc count bank with
    panics | ⟨pointer, mm, allocated, _, accounts⟩
  · have fails : (onMm (pmalloc count bank)).run (model.withLists lists) =
        .error (.panic "palloc failed") (model.withLists lists) := Exec.run_zoom_error panics
    exact .inr ⟨rfl, _, Exec.run_bind_of_error (onKernel_panics fails)⟩
  · rcases run_onKernel (Takes.onMm rep allocated) with ⟨final, returns, finalRep⟩
    have accounted : Accounts linker mm (model.owned ++ pointer :: spare) :=
      accounts.perm List.perm_middle.symm
    rcases sound.setMemory pends accounted with ⟨kept, keptPends⟩
    exact .inl ⟨_, Exec.run_bind_of_ok returns, ⟨final, _, rfl, finalRep, kept, keptPends⟩,
      fun _ => shrinks_of_queues rep finalRep fun _ known => known⟩

theorem survives_release {pointer : Nat}
    (enabled : Enabled ⟨model.withLists lists, spare⟩ (.release pointer)) :
    Survives linker ⟨model.withLists lists, spare⟩ (.release pointer) := by
  have taken := List.perm_cons_erase (show pointer ∈ spare from enabled)
  have accounts : Accounts linker model.mm (pointer :: (model.owned ++ spare.erase pointer)) :=
    Accounts.perm sound.memory ((taken.append_left _).trans List.perm_middle)
  rcases accounts.free with ⟨mm, freed, accounts⟩
  rcases run_onKernel (Takes.onMm rep freed) with ⟨final, returns, finalRep⟩
  rcases sound.setMemory pends accounts with ⟨kept, keptPends⟩
  exact .inl ⟨_, Exec.run_bind_of_ok returns, ⟨final, _, rfl, finalRep, kept, keptPends⟩,
    fun _ => shrinks_of_queues rep finalRep fun _ known => known⟩

end Perform

section Runs

variable {linker : Linker} {system before after : System} {event : Event} {events : List Event}

/-- An event that meets its condition faults only for want of memory. -/
theorem SoundSystem.survives (sound : SoundSystem linker system)
    (enabled : Enabled system event) (allowed : Allowed system.kernel event) :
    Survives linker system event := by
  rcases system with ⟨kernel, spare⟩
  rcases sound with ⟨lists, model, same, rep, sound, pends⟩
  change kernel = model.withLists lists at same
  subst same
  cases event with
  | newThread info => exact survives_newThread rep sound pends enabled
  | start => exact survives_start rep sound enabled
  | sleep ms => exact survives_sleep rep sound pends enabled allowed
  | systick cvr => exact survives_systick rep sound enabled allowed
  | pendsv => exact survives_pendsv rep sound enabled
  | block tid => exact survives_block rep sound pends enabled allowed
  | unblock tid => exact survives_unblock rep sound pends enabled allowed
  | exit => exact survives_exit rep sound pends enabled
  | kill tid => exact survives_kill rep sound pends tid
  | allocate count bank => exact survives_allocate rep sound pends count bank
  | release pointer => exact survives_release rep sound pends enabled

/-- What survives and returns leaves the scheduler sound. -/
theorem Survives.sound (survives : Survives linker before event)
    (returns : (perform event).run before = .ok () after) : SoundSystem linker after := by
  rcases survives with ⟨found, foundReturns, sound, _⟩ | ⟨_, found, fails⟩
  · cases foundReturns.symm.trans returns
    exact sound
  · cases fails.symm.trans returns

theorem SoundSystem.step (sound : SoundSystem linker before)
    (step : AllowedStep before event after) : SoundSystem linker after := by
  cases step with
  | intro step allowed =>
      cases step with
      | intro enabled returns => exact (sound.survives enabled allowed).sound returns

theorem SoundSystem.run (sound : SoundSystem linker before)
    (run : Run AllowedStep before events after) : SoundSystem linker after :=
  run.invariant (SoundSystem linker) (fun _ _ _ sound step => sound.step step) sound

/-- The model of the kernel at power-up. -/
def bootModel (linker : Linker) (memory : ByteMemory) : Model where
  lists := { queue := fun _ => [], obj := fun _ => none }
  mm := mmInit linker memory

def bootLists : KernelLists := { node := fun _ => {}, list := fun _ => {} }

theorem bootModel_rep (linker : Linker) (memory : ByteMemory) :
    ListsRep bootLists (bootModel linker memory).lists := by
  constructor
  · constructor
    · intro queue
      exact ⟨rfl, rfl, rfl, by simp [bootModel], List.nodup_nil, trivial⟩
    · simp [bootModel]
    · exact fun _ _ => ⟨rfl, rfl⟩
  · exact fun _ => rfl

theorem bootModel_sound (linker : Linker) (memory : ByteMemory) :
    Sound linker (bootModel linker memory) [] := by
  have empty : ∀ queue, (bootModel linker memory).queue queue = [] := fun _ => rfl
  have ready : Ready (bootModel linker memory) := by
    constructor <;> simp [empty]
  exact {
    memory := ⟨[], _, represents_init linker memory, .nil⟩
    placed := {
      ready := ready
      nodup := fun queue => (empty queue).symm ▸ List.nodup_nil
      apart := by simp [empty]
      fits := by simp [empty]
      heldNodup := List.nodup_nil
      heldKnown := by simp [KernelState.inHand, bootModel]
      heldUnqueued := by simp [KernelState.inHand, bootModel]
      placed := by simp [empty]
      idleKnown := by simp [bootModel]
      onlyIdle := by simp [empty] }
    awake := by simp [KernelState.inHand, bootModel]
    current := by simp [bootModel]
    started := fun enabled => by cases enabled
    running := fun enabled => by cases enabled
    booting := fun _ => ⟨rfl, rfl, rfl⟩
    switching := fun pending => by cases pending }

theorem bootModel_pends (linker : Linker) (memory : ByteMemory) :
    SleepPends (bootModel linker memory) := by
  intro _ curr running
  cases running

theorem sound_powerUp (linker : Linker) (memory : ByteMemory) :
    SoundSystem linker (powerUp linker memory) :=
  ⟨bootLists, bootModel linker memory, rfl, bootModel_rep linker memory,
    bootModel_sound linker memory, bootModel_pends linker memory⟩

end Runs

theorem run_of_allowed {before after : System} {events : List Event}
    (run : Run AllowedStep before events after) : Run Step before events after := by
  apply run.imp
  intro _ _ _ step
  cases step with
  | intro step _ => exact step

/-! ## What a sound system is -/

/-- A thread is in hand and in no queue, or not in hand and in one queue. -/
def InOnePlace (kernel : Machine) (queues : QueueId → List ThreadPtr) (thread : ThreadPtr) :
    Prop :=
  kernel.inHand = some thread ∧ (∀ queue : QueueId, queue.Running → thread ∉ queues queue) ∨
    kernel.inHand ≠ some thread ∧ ∃ queue : QueueId, queue.Running ∧ thread ∈ queues queue ∧
      ∀ other : QueueId, other.Running → thread ∈ queues other → other = queue

/-- Every list is well formed, each thread in it has the fields the list asks
for, and each thread but the idle one is in one place. -/
structure InPlace (kernel : Machine) (queues : QueueId → List ThreadPtr) : Prop where
  holds : ∀ queue, Holds kernel queue (queues queue)
  known : ∀ queue, ∀ thread ∈ queues queue, thread ∈ queues .threads
  fits : ∀ queue, ∀ thread ∈ queues queue, Fits queue (kernel.thread thread)
  onePlace : ∀ thread ∈ queues .threads, (kernel.thread thread).schedClass ≠ .idle →
    InOnePlace kernel queues thread
  inHand : ∀ thread, kernel.inHand = some thread → thread ∈ queues .threads ∧
    Awake (kernel.thread thread)

theorem Sound.inPlace {linker : Linker} {lists : KernelLists} {model : Model}
    {spare : List Nat} (sound : Sound linker model spare) (rep : ListsRep lists model.lists) :
    InPlace (model.withLists lists) model.queue where
  holds := rep.holds
  known := sound.placed.ready.known
  fits := sound.placed.fits
  onePlace := by
    intro thread known notIdle
    by_cases hand : model.inHand = some thread
    · exact .inl ⟨hand, sound.placed.heldUnqueued thread (Option.mem_toList.mpr hand)⟩
    · rcases sound.placed.placed thread known notIdle with held | ⟨queue, running, member⟩
      · exact absurd (Option.mem_toList.mp held) hand
      · exact .inr ⟨hand, queue, running, member, fun other otherRunning inOther =>
          sound.placed.apart other queue otherRunning running thread inOther member⟩
  inHand := fun thread hand =>
    ⟨sound.placed.heldKnown thread (Option.mem_toList.mpr hand), sound.awake thread hand⟩

/-- An allowed event that allocates nothing returns. -/
theorem returns_of_run {linker : Linker} {memory : ByteMemory} {events : List Event}
    {system : System} (run : Run AllowedStep (powerUp linker memory) events system)
    {event : Event} (enabled : Enabled system event) (allowed : Allowed system.kernel event)
    (noAllocation : event.allocates = false) :
    ∃ after, (perform event).run system = .ok () after := by
  have sound := (sound_powerUp linker memory).run run
  rcases sound.survives enabled allowed with ⟨after, returns, _, _⟩ | ⟨allocates, _⟩
  · exact ⟨after, returns⟩
  · cases noAllocation.symm.trans allocates

/-! ## A machine with two threads -/

/-- Pages for three stacks of 100 words, taken from the front of the bank. -/
theorem three_stacks (memory : ByteMemory) : ∃ first second third,
    (pmalloc (threadPages 100) .dramBank3).run (mmInit lowHeap memory) = .ok 0x70100008 first ∧
      (pmalloc (threadPages 100) .dramBank3).run first = .ok 0x70100410 second ∧
      (pmalloc (threadPages 100) .dramBank3).run second = .ok 0x70100818 third := by
  have start := represents_init lowHeap memory
  have whole : bankAllocate .dramBank3 (u32 (threadPages 100 * 512))
      (wholeBank lowHeap .dramBank3).free =
      some (⟨0x70100000, 1032⟩, [⟨0x70100408, 523240⟩]) := by decide
  rcases start.pmalloc_some whole with ⟨first, _, _, firstReturns, firstRep, firstFree⟩
  have more : bankAllocate .dramBank3 (u32 (threadPages 100 * 512)) [⟨0x70100408, 523240⟩] =
      some (⟨0x70100408, 1032⟩, [⟨0x70100810, 522208⟩]) := by decide
  rcases firstRep.pmalloc_some (firstFree.symm ▸ more) with
    ⟨second, _, _, secondReturns, secondRep, secondFree⟩
  have most : bankAllocate .dramBank3 (u32 (threadPages 100 * 512)) [⟨0x70100810, 522208⟩] =
      some (⟨0x70100810, 1032⟩, [⟨0x70100C18, 521176⟩]) := by decide
  rcases secondRep.pmalloc_some (secondFree.symm ▸ most) with ⟨third, _, _, thirdReturns, _⟩
  exact ⟨first, second, third, firstReturns, secondReturns, thirdReturns⟩

/-- Two threads of a class and the idle thread, right after the start. -/
structure TwoThreads (schedClass : SchedClass) (model : Model) : Prop where
  currThread : model.currThread = some 0x70100008
  pendsvPending : model.pendsvPending = false
  systickPending : model.systickPending = false
  systickEnabled : model.systickEnabled = true
  schedulerStatus : model.schedulerStatus = true
  reschedulePending : model.reschedulePending = false
  tick : model.tick = 0
  statsTick : model.statsTick = 0
  rqTickToWake : model.rqTickToWake = 0
  idle : model.idle = some 0x70100818
  queues : model.queue = fun queue =>
    if queue = .threads then [0x70100818, 0x70100410, 0x70100008]
    else if KernelState.runQueue schedClass = some queue then [0x70100410]
    else []
  first : model.thread 0x70100008 = { schedClass, tid := 1 }
  second : model.thread 0x70100410 = KernelState.newFields ⟨100, schedClass, 0⟩ 2
  third : model.thread 0x70100818 = KernelState.newFields idleInfo 3

def twoThreadEvents (schedClass : SchedClass) : List Event :=
  [.newThread ⟨100, schedClass, 0⟩, .newThread ⟨100, schedClass, 0⟩, .start]

theorem two_threads {schedClass : SchedClass} (notIdle : schedClass ≠ .idle)
    (memory : ByteMemory) : ∃ lists model,
    Run AllowedStep (powerUp lowHeap memory) (twoThreadEvents schedClass)
      ⟨model.withLists lists, []⟩ ∧
      ListsRep lists model.lists ∧ Sound lowHeap model [] ∧ SleepPends model ∧
      TwoThreads schedClass model := by
  rcases three_stacks memory with ⟨mm1, mm2, mm3, pages1, pages2, pages3⟩
  have rep := bootModel_rep lowHeap memory
  have sound := bootModel_sound lowHeap memory
  have pends := bootModel_pends lowHeap memory
  have enabled1 : Enabled ⟨(bootModel lowHeap memory).withLists bootLists, []⟩
      (.newThread ⟨100, schedClass, 0⟩) := ⟨notIdle, by simp [sizeofThread], .inl rfl⟩
  rcases run_newThread rep sound pends enabled1 pages1 with ⟨lists1, runs1, rep1, sound1, pends1⟩
  have frame1 := newThread_frame (bootModel lowHeap memory) ⟨100, schedClass, 0⟩ 0x70100008 mm1
  generalize loaded1 : (bootModel lowHeap memory).newThread ⟨100, schedClass, 0⟩ 0x70100008 mm1 =
    model1 at *
  have sameMm1 : model1.mm = mm1 := by rw [frame1.outside]
  have enabled2 : Enabled ⟨model1.withLists lists1, []⟩ (.newThread ⟨100, schedClass, 0⟩) :=
    ⟨notIdle, by simp [sizeofThread], .inl rfl⟩
  rcases run_newThread rep1 sound1 pends1 enabled2 (sameMm1.symm ▸ pages2) with
    ⟨lists2, runs2, rep2, sound2, pends2⟩
  have frame2 := newThread_frame model1 ⟨100, schedClass, 0⟩ 0x70100410 mm2
  generalize loaded2 : model1.newThread ⟨100, schedClass, 0⟩ 0x70100410 mm2 = model2 at *
  have sameMm2 : model2.mm = mm2 := by rw [frame2.outside]
  have enabled3 : Enabled ⟨model2.withLists lists2, []⟩ .start := by
    change model2.systickEnabled = false
    rw [frame2.outside]
    change model1.systickEnabled = false
    rw [frame1.outside]
    rfl
  rcases run_start rep2 sound2 enabled3 (sameMm2.symm ▸ pages3) with
    ⟨lists3, next, after, picked, _, runs3, rep3, sound3, pends3⟩
  have step1 := AllowedStep.intro (.intro enabled1 runs1) trivial
  have step2 := AllowedStep.intro (.intro enabled2 runs2) trivial
  have step3 := AllowedStep.intro (.intro enabled3 runs3) trivial
  refine ⟨lists3, _, .cons step1 (.cons step2 (.cons step3 (.nil _))), rep3, sound3, pends3, ?_⟩
  subst loaded2
  subst loaded1
  cases schedClass with
  | idle => exact absurd rfl notIdle
  | realTime =>
      cases picked
      constructor <;> first | rfl | (funext queue; cases queue <;> rfl)
  | application =>
      cases picked
      constructor <;> first | rfl | (funext queue; cases queue <;> rfl)
  | background =>
      cases picked
      constructor <;> first | rfl | (funext queue; cases queue <;> rfl)

theorem TwoThreads.found_second {schedClass : SchedClass} {model : Model}
    (two : TwoThreads schedClass model) : model.findThread 2 = some 0x70100410 := by
  simp [KernelState.findThread, two.queues, two.second, two.third, KernelState.newFields]

end Vanilla.Kernel
