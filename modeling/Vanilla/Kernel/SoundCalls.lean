import Vanilla.Kernel.Soundness

/-! # Calls keep the scheduler sound

The events other than SysTick, and from them every event.
-/

namespace Vanilla.Kernel

open Mm

variable {linker : Linker} {lists : KernelLists} {model other : Model} {spare others : List Nat}
  {curr thread next : ThreadPtr} {ms tid : Nat}

theorem SleepPends.keep (pends : SleepPends model) (same : SameRunning model other)
    (pending : other.systickPending = model.systickPending)
    (ticks : ∀ curr, model.currThread = some curr →
      (other.thread curr).tickToWake = (model.thread curr).tickToWake) : SleepPends other := by
  intro switched curr running asleep
  rw [pending]
  rw [same.currThread] at running
  rw [ticks curr running] at asleep
  exact pends (same.pendsvPending ▸ switched) curr running asleep

theorem SameRunning.refl (model : Model) : SameRunning model model :=
  ⟨rfl, rfl, rfl, rfl, id, rfl⟩

/-! ## PendSV -/

theorem Sound.pendsv (sound : Sound linker model spare) (pending : model.pendsvPending = true)
    (chosen : model.nextThread = some next) :
    Sound linker { model with currThread := some next, pendsvPending := false } spare ∧
      SleepPends { model with currThread := some next, pendsvPending := false } := by
  have hand : model.inHand = some next := by
    rw [KernelState.inHand, if_pos pending, chosen]
  have awake := sound.awake next hand
  have after : KernelState.inHand
      { model with currThread := some next, pendsvPending := false } = model.inHand := by
    rw [hand]
    simp [KernelState.inHand, Option.filter, awake.1]
  have placed := sound.placed
  constructor
  · exact {
      memory := sound.memory
      placed := by
        rw [after]
        exact placed.congr (placed.ready.of_lists rfl) rfl rfl fun _ _ => ⟨rfl, rfl, rfl⟩
      awake := by
        rw [after]
        exact sound.awake
      current := by
        intro curr running
        cases running
        rw [hand] at placed
        exact ⟨placed.heldKnown next List.mem_cons_self, fun asleep => absurd awake.1 asleep⟩
      started := sound.started
      running := fun _ _ => ⟨next, rfl⟩
      booting := by
        intro disabled
        have booting := sound.booting disabled
        rw [pending] at booting
        cases booting.2.2
      switching := fun pending => by cases pending }
  · intro _ curr running asleep
    cases running
    exact absurd awake.1 asleep

/-! ## Sleeping -/

theorem SleepPends.inHand (pends : SleepPends model) (isCurr : model.currThread = some curr)
    (quiet : model.systickPending = false)
    (switched : model.pendsvPending = false) :
    model.inHand = some curr := by
  have awake : (model.thread curr).tickToWake = 0 := by
    by_contra asleep
    have pending := pends switched curr isCurr asleep
    rw [quiet] at pending
    cases pending
  simp [KernelState.inHand, switched, isCurr, Option.filter, awake]

theorem threadSleep_sleepers (model : Model) (curr : ThreadPtr) (ms : Nat) :
    ((model.threadSleep curr ms).queue .sleepQ).Perm (curr :: model.queue .sleepQ) := by
  have inserted : (model.threadSleep curr ms).queue .sleepQ = KernelState.delayed
      (fun other => ((model.setThread curr fun fields => { fields with
        tickToWake := KernelState.wakeTick model.tick ms }).thread other).tickToWake) curr
      (model.queue .sleepQ) := by
    simp only [KernelState.threadSleep, KernelState.enqueueDelay]
    exact (KernelState.tickToWakeUpdate_queue _ _).trans (KernelState.queue_setQueue_self ..)
  rw [inserted]
  exact Placed.delayed_perm ..

/-- What going to sleep leaves alone. -/
structure SleepFrame (before after : Model) (curr : ThreadPtr) (ms : Nat) : Prop where
  outside : SameOutside
    { before with reschedulePending := true, systickPending := true } after
  idle : after.idle = before.idle
  queues : ∀ queue, queue ≠ .sleepQ → after.queue queue = before.queue queue
  threads : ∀ other, other ≠ curr → after.thread other = before.thread other
  identity : SameIdentity (before.thread curr) (after.thread curr)
  tick : (after.thread curr).tickToWake = KernelState.wakeTick before.tick ms

theorem threadSleep_frame (model : Model) (curr : ThreadPtr) (ms : Nat) :
    SleepFrame model (model.threadSleep curr ms) curr ms := by
  have updated : ∀ model : Model, (model.tickToWakeUpdate.reschedule).thread = model.thread :=
    fun model => KernelState.tickToWakeUpdate_thread model
  constructor
  · simp only [KernelState.threadSleep, KernelState.enqueueDelay]
    have outside := KernelState.tickToWakeUpdate_outside
      (((model.setThread curr fun fields => { fields with
        tickToWake := KernelState.wakeTick model.tick ms }).setQueue .sleepQ
        (KernelState.delayed (fun other => ((model.setThread curr fun fields => { fields with
          tickToWake := KernelState.wakeTick model.tick ms }).thread other).tickToWake) curr
          ((model.setThread curr fun fields => { fields with
            tickToWake := KernelState.wakeTick model.tick ms }).queue .sleepQ))).setThread curr
        fun fields => { fields with rqList := some .sleepQ })
    unfold SameOutside at outside ⊢
    rw [outside]
    rfl
  · exact tickToWakeUpdate_idle _
  · intro queue different
    simp only [KernelState.threadSleep, KernelState.enqueueDelay]
    exact (KernelState.tickToWakeUpdate_queue _ _).trans
      (KernelState.queue_setQueue_of_ne _ _ _ _ different)
  · intro other different
    simp only [KernelState.threadSleep, KernelState.enqueueDelay, updated]
    rw [KernelState.thread_setThread_of_ne _ _ different, KernelState.thread_setQueue,
      KernelState.thread_setThread_of_ne _ _ different]
  · simp only [KernelState.threadSleep, KernelState.enqueueDelay, updated,
      KernelState.thread_setThread_self, KernelState.thread_setQueue]
    exact ⟨rfl, rfl, rfl, rfl⟩
  · simp only [KernelState.threadSleep, KernelState.enqueueDelay, updated,
      KernelState.thread_setThread_self, KernelState.thread_setQueue]

theorem Sound.sleep (sound : Sound linker model spare) (isCurr : model.currThread = some curr)
    (hand : model.inHand = some curr) (enabled : model.systickEnabled = true)
    (switched : model.pendsvPending = false)
    (notIdle : (model.thread curr).schedClass ≠ .idle)
    (later : KernelState.wakeTick model.tick ms ≠ 0) :
    Sound linker (model.threadSleep curr ms) spare ∧ SleepPends (model.threadSleep curr ms) := by
  have frame := threadSleep_frame model curr ms
  have placed := sound.placed
  rw [hand] at placed
  have threads := frame.queues .threads (by simp)
  have running : (model.threadSleep curr ms).currThread = some curr := by
    rw [frame.outside]
    exact isCurr
  have pendsv : (model.threadSleep curr ms).pendsvPending = false := by
    rw [frame.outside]
    exact switched
  have asleep : ((model.threadSleep curr ms).thread curr).tickToWake ≠ 0 := by
    rw [frame.tick]
    exact later
  have after : (model.threadSleep curr ms).inHand = none := by
    simp [KernelState.inHand, pendsv, running, Option.filter, asleep]
  constructor
  · exact {
      memory := by
        apply sound.memory.congr _ threads
        · intro found _
          by_cases equal : found = curr
          · subst equal
            exact frame.identity.codeAddr
          · rw [frame.threads found equal]
        · rw [frame.outside]
      placed := by
        rw [after]
        exact placed.threadSleep notIdle later
      awake := by
        rw [after]
        exact fun thread inHand => by cases inHand
      current := by
        rw [running]
        intro found isFound
        cases isFound
        refine ⟨threads.symm ▸ (sound.current curr isCurr).1, fun _ => ?_⟩
        exact (threadSleep_sleepers model curr ms).mem_iff.mpr List.mem_cons_self
      started := by
        rw [frame.idle, frame.outside]
        exact sound.started
      running := fun _ _ => ⟨curr, running⟩
      booting := by
        rw [frame.outside]
        intro disabled
        cases enabled.symm.trans disabled
      switching := by
        rw [pendsv]
        exact fun pending => by cases pending }
  · intro _ _ _ _
    rw [frame.outside]

/-! ## Exits -/

/-- Mark a thread as exiting. -/
theorem Sound.mark (sound : Sound linker model spare) (pends : SleepPends model)
    (thread : ThreadPtr) :
    Sound linker (model.setThread thread fun fields => { fields with exitPending := true })
        spare ∧
      SleepPends (model.setThread thread fun fields => { fields with exitPending := true }) := by
  have places : ∀ other, SamePlace (model.thread other)
      ((model.setThread thread fun fields => { fields with exitPending := true }).thread other) :=
    fun other => KernelState.setThread_relation model thread other
      (fun _ => ⟨rfl, rfl, rfl⟩) _ ⟨rfl, rfl, rfl⟩
  have codes : ∀ other, ((model.setThread thread fun fields =>
      { fields with exitPending := true }).thread other).codeAddr =
      (model.thread other).codeAddr := by
    intro other
    exact @KernelState.setThread_relation model thread other
      (fun before after => after.codeAddr = before.codeAddr) (fun _ => rfl) _ rfl
  have same : SameRunning model
      (model.setThread thread fun fields => { fields with exitPending := true }) :=
    ⟨rfl, rfl, rfl, rfl, id, rfl⟩
  constructor
  · apply sound.keep same
    · exact sound.memory.congr rfl rfl fun found _ => codes found
    · exact sound.placed.congr (sound.placed.ready.setThread _) rfl rfl fun found _ =>
        places found
    · exact fun found _ => places found
    · exact fun _ known => known
    · exact fun _ _ member => member
  · exact pends.keep same rfl fun found _ => (places found).tickToWake

theorem Sound.resume (sound : Sound linker model spare) (pends : SleepPends model) :
    Sound linker { model with schedulerStatus := true } spare ∧
      SleepPends { model with schedulerStatus := true } := by
  have same : SameRunning model { model with schedulerStatus := true } :=
    ⟨rfl, rfl, rfl, rfl, fun _ => rfl, rfl⟩
  constructor
  · exact sound.keepLists same (sound.memory.congr rfl rfl fun _ _ => rfl) rfl rfl
  · exact pends.keep same rfl fun _ _ => rfl

theorem Sound.kill (sound : Sound linker model spare) (pends : SleepPends model) (tid : Nat) :
    Sound linker (model.killThread tid) spare ∧ SleepPends (model.killThread tid) := by
  rw [KernelState.killThread]
  split
  · rcases sound.mark pends _ with ⟨marked, pends⟩
    exact marked.resume pends
  · exact sound.resume pends

/-! ## Blocking -/

theorem threadOf_eq (rep : ListsRep lists model.lists) (ready : Ready model) (tid : Nat) :
    threadOf (model.withLists lists) tid = model.findThread tid := by
  rcases takes_getThread rep ready tid with ⟨final, returns, _⟩
  rw [threadOf, returns]

theorem findThread_known (found : model.findThread tid = some thread) :
    thread ∈ model.queue .threads :=
  List.mem_of_find?_eq_some found

/-- A real-time thread that is not in hand is in the queue its `rq_list` names. -/
theorem Sound.queue_of (sound : Sound linker model spare) (known : thread ∈ model.queue .threads)
    (realTime : (model.thread thread).schedClass = .realTime)
    (notHeld : model.inHand ≠ some thread) :
    ∃ queue : QueueId, queue.Running ∧ thread ∈ model.queue queue ∧
      (model.thread thread).rqList = some queue := by
  have notIdle : (model.thread thread).schedClass ≠ .idle := by simp [realTime]
  rcases sound.placed.placed thread known notIdle with held | ⟨queue, running, member⟩
  · exact absurd (Option.mem_toList.mp held) notHeld
  · have fits := sound.placed.fits queue thread member
    refine ⟨queue, running, member, ?_⟩
    cases queue with
    | rtRq => exact fits.2.2
    | appRq => cases realTime.symm.trans fits.1
    | backgroundRq => cases realTime.symm.trans fits.1
    | sleepQ => exact fits.2.2
    | blockedQ => exact fits.2
    | threads => exact absurd rfl running

theorem block_threads (model : Model) (thread : ThreadPtr) {queue : QueueId}
    (running : queue.Running) :
    (model.block thread queue).queue .threads = model.queue .threads := by
  rw [KernelState.block, KernelState.queue_setThread, KernelState.append,
    KernelState.queue_setQueue_of_ne _ _ _ _ (by simp),
    KernelState.remove_queue_of_ne _ _ (Ne.symm running)]

theorem unblock_queues (model : Model) (thread : ThreadPtr) {queue : QueueId}
    (notBlocked : queue ≠ .blockedQ) (notReady : queue ≠ .rtRq) :
    (model.unblock thread).queue queue = model.queue queue := by
  rw [KernelState.unblock, KernelState.queue_setThread, KernelState.append,
    KernelState.queue_setQueue_of_ne _ _ _ _ notReady, KernelState.queue_setThread,
    KernelState.remove_queue_of_ne _ _ notBlocked]

theorem Sound.block (sound : Sound linker model spare) (pends : SleepPends model)
    {queue : QueueId} (running : queue.Running) (member : thread ∈ model.queue queue)
    (realTime : (model.thread thread).schedClass = .realTime)
    (notCurr : model.currThread ≠ some thread) :
    Sound linker (model.block thread queue) spare ∧ SleepPends (model.block thread queue) := by
  have others : ∀ found, found ≠ thread →
      (model.block thread queue).thread found = model.thread found := fun found different =>
    KernelState.thread_setThread_of_ne _ _ different
  have unheld : ∀ found, model.inHand = some found → found ≠ thread := by
    intro found hand equal
    have held := sound.placed.heldUnqueued found (Option.mem_toList.mpr hand)
    exact held queue running (equal ▸ member)
  have unrun : ∀ found, model.currThread = some found → found ≠ thread := fun found isCurr equal =>
    notCurr (equal ▸ isCurr)
  have threads := block_threads model thread running
  have codes : ∀ found, ((model.block thread queue).thread found).codeAddr =
      (model.thread found).codeAddr := by
    intro found
    exact @KernelState.setThread_relation ((model.remove queue thread).append .blockedQ thread)
      thread found (fun before after => after.codeAddr = before.codeAddr) (fun _ => rfl) _ rfl
  have same : SameRunning model (model.block thread queue) := ⟨rfl, rfl, rfl, rfl, id, rfl⟩
  constructor
  · apply sound.keep same
    · exact sound.memory.congr rfl threads fun found _ => codes found
    · exact sound.placed.block running member realTime
    · intro found place
      rw [others found (place.elim (unheld found) (unrun found))]
      exact ⟨rfl, rfl, rfl⟩
    · exact fun found known => threads.symm ▸ known
    · intro curr isCurr asleep
      have different := unrun curr isCurr
      have stays : curr ∈ (model.remove queue thread).queue .sleepQ := by
        by_cases equal : QueueId.sleepQ = queue
        · rw [← equal, KernelState.remove_queue_self]
          exact (List.mem_erase_of_ne different).mpr asleep
        · rw [KernelState.remove_queue_of_ne _ _ equal]
          exact asleep
      rw [KernelState.block, KernelState.queue_setThread, KernelState.append,
        KernelState.queue_setQueue_of_ne _ _ _ _ (by simp)]
      exact stays
  · apply pends.keep same rfl
    intro found isCurr
    rw [others found (unrun found isCurr)]

theorem Sound.unblock (sound : Sound linker model spare) (pends : SleepPends model)
    (member : thread ∈ model.queue .blockedQ) (notCurr : model.currThread ≠ some thread) :
    Sound linker (model.unblock thread) spare ∧ SleepPends (model.unblock thread) := by
  have running : QueueId.blockedQ.Running := by simp [QueueId.Running]
  have others : ∀ found, found ≠ thread →
      (model.unblock thread).thread found = model.thread found := by
    intro found different
    rw [KernelState.unblock, KernelState.thread_setThread_of_ne _ _ different,
      KernelState.append, KernelState.thread_setQueue,
      KernelState.thread_setThread_of_ne _ _ different, KernelState.remove_thread]
  have unheld : ∀ found, model.inHand = some found → found ≠ thread := by
    intro found hand equal
    have held := sound.placed.heldUnqueued found (Option.mem_toList.mpr hand)
    exact held .blockedQ running (equal ▸ member)
  have unrun : ∀ found, model.currThread = some found → found ≠ thread := fun found isCurr equal =>
    notCurr (equal ▸ isCurr)
  have threads : (model.unblock thread).queue .threads = model.queue .threads :=
    unblock_queues model thread (by simp) (by simp)
  have codes : ∀ found, ((model.unblock thread).thread found).codeAddr =
      (model.thread found).codeAddr := by
    intro found
    by_cases equal : found = thread
    · subst equal
      simp [KernelState.unblock, KernelState.append]
    · rw [others found equal]
  have same : SameRunning model (model.unblock thread) := ⟨rfl, rfl, rfl, rfl, id, rfl⟩
  constructor
  · apply sound.keep same
    · exact sound.memory.congr rfl threads fun found _ => codes found
    · exact sound.placed.unblock member
    · intro found place
      rw [others found (place.elim (unheld found) (unrun found))]
      exact ⟨rfl, rfl, rfl⟩
    · exact fun found known => threads.symm ▸ known
    · intro curr _ asleep
      rw [unblock_queues model thread (by simp) (by simp)]
      exact asleep
  · apply pends.keep same rfl
    intro found isCurr
    rw [others found (unrun found isCurr)]

/-! ## Memory -/

theorem Sound.setMemory (sound : Sound linker model spare) (pends : SleepPends model)
    {mm : MmState} (accounts : Accounts linker mm (model.owned ++ others)) :
    Sound linker { model with mm } others ∧ SleepPends { model with mm } := by
  have same : SameRunning model { model with mm } := ⟨rfl, rfl, rfl, rfl, id, rfl⟩
  constructor
  · exact sound.keepLists same accounts rfl rfl
  · exact pends.keep same rfl fun _ _ => rfl

/-! ## New threads -/

/-- What a new thread leaves alone. -/
structure NewFrame (before after : Model) (info : ThreadInfo) (thread : ThreadPtr)
    (mm : MmState) : Prop where
  outside : SameOutside
    { before with mm, schedulerStatus := true, nextTid := u32 (before.nextTid + 1) } after
  threads : after.queue .threads = thread :: before.queue .threads
  sleepers : after.queue .sleepQ = before.queue .sleepQ
  others : ∀ found, found ≠ thread → after.thread found = before.thread found
  new : after.thread thread = KernelState.newFields info before.nextTid

theorem newThread_frame (model : Model) (info : ThreadInfo) (thread : ThreadPtr)
    (mm : MmState) : NewFrame model (model.newThread info thread mm) info thread mm := by
  have created : ∀ found, found ≠ thread →
      (model.createThread info thread mm).thread found = model.thread found := by
    intro found different
    simp [KernelState.createThread, KernelState.setThread, KernelState.initNode, different]
  have new := Placed.createThread_fields model info thread mm
  cases schedClass : info.schedClass <;>
    simp only [KernelState.newThread, KernelState.runQueue, schedClass] <;>
    exact ⟨rfl, rfl, rfl, created, new⟩

theorem newThread_idle {info : ThreadInfo} (notIdle : info.schedClass ≠ .idle) (model : Model)
    (thread : ThreadPtr) (mm : MmState) :
    (model.newThread info thread mm).idle = model.idle := by
  cases schedClass : info.schedClass with
  | idle => exact absurd schedClass notIdle
  | _ =>
      simp only [KernelState.newThread, KernelState.runQueue, schedClass]
      rfl

/-- What was handed out is no thread yet. -/
theorem Accounts.fresh {mm : MmState}
    (accounts : Accounts linker mm (thread :: (model.owned ++ spare))) :
    thread ∉ model.queue .threads := by
  intro known
  have absent := (List.nodup_cons.mp accounts.nodup).1
  exact absent (List.mem_append_left _ (List.mem_append_left _ known))

theorem NewFrame.memory {info : ThreadInfo} {mm : MmState}
    (frame : NewFrame model other info thread mm)
    (accounts : Accounts linker mm (thread :: (model.owned ++ spare)))
    (code : info.codeAddr = 0 ∨ info.codeAddr ∈ spare) :
    Memory linker other (spare.erase info.codeAddr) := by
  have fresh := accounts.fresh
  have sameMm : other.mm = mm := by
    rw [frame.outside]
  have same : ∀ found ∈ model.queue .threads,
      (other.thread found).codeAddr = (model.thread found).codeAddr := by
    intro found known
    rw [frame.others found fun equal => fresh (equal ▸ known)]
  have codeAddr : (other.thread thread).codeAddr = info.codeAddr := by
    rw [frame.new]
    rfl
  rw [← codeAddr] at code ⊢
  rw [Memory, sameMm, KernelState.owned, frame.threads]
  exact accounts.load same code

theorem Sound.newThread (sound : Sound linker model spare) (pends : SleepPends model)
    {info : ThreadInfo} {mm : MmState} (notIdle : info.schedClass ≠ .idle)
    (below : thread < 2 ^ 31) (accounts : Accounts linker mm (thread :: (model.owned ++ spare)))
    (code : info.codeAddr = 0 ∨ info.codeAddr ∈ spare) :
    Sound linker (model.newThread info thread mm) (spare.erase info.codeAddr) ∧
      SleepPends (model.newThread info thread mm) := by
  have frame := newThread_frame model info thread mm
  have fresh := accounts.fresh
  have same : SameRunning model (model.newThread info thread mm) := by
    constructor
    · rw [frame.outside]
    · rw [frame.outside]
    · rw [frame.outside]
    · rw [frame.outside]
    · rw [frame.outside]
      exact fun _ => rfl
    · exact newThread_idle notIdle model thread mm
  have kept : ∀ found ∈ model.queue .threads,
      (model.newThread info thread mm).thread found = model.thread found := fun found known =>
    frame.others found fun equal => fresh (equal ▸ known)
  have knownCurr : ∀ found, model.currThread = some found → found ∈ model.queue .threads :=
    fun found isCurr => (sound.current found isCurr).1
  constructor
  · apply sound.keep same (frame.memory accounts code)
    · exact sound.placed.newThread fresh below notIdle mm
    · intro found place
      rw [kept found (place.elim
        (fun hand => sound.placed.heldKnown found (Option.mem_toList.mpr hand))
        (knownCurr found))]
      exact ⟨rfl, rfl, rfl⟩
    · intro found known
      rw [frame.threads]
      exact List.mem_cons_of_mem _ known
    · intro found _ asleep
      rw [frame.sleepers]
      exact asleep
  · apply pends.keep same
    · rw [frame.outside]
    · intro found isCurr
      rw [kept found (knownCurr found isCurr)]

theorem newIdle_placed (placed : Placed model []) (fresh : thread ∉ model.queue .threads)
    (below : thread < 2 ^ 31) (first : model.idle = none) (mm : MmState) :
    Placed (model.newThread idleInfo thread mm) [] ∧
      (model.newThread idleInfo thread mm).idle = some thread :=
  placed.newIdle fresh below rfl first mm

/-- The start of the scheduler: the idle thread is created, and a thread runs. -/
theorem Sound.start (sound : Sound linker model spare) (off : model.systickEnabled = false)
    {mm : MmState} (below : thread < 2 ^ 31)
    (accounts : Accounts linker mm (thread :: (model.owned ++ spare))) :
    Ready (model.withIdle thread mm) ∧ ∃ next after,
      (model.withIdle thread mm).pick = some (next, after) ∧ Awake (after.thread next) ∧
      Sound linker { after with
        nextThread := some next, currThread := some next, systickEnabled := true } spare ∧
      SleepPends { after with
        nextThread := some next, currThread := some next, systickEnabled := true } := by
  have frame : NewFrame { model with schedulerStatus := true, rqTickToWake := 0 }
      (model.withIdle thread mm) idleInfo thread mm :=
    newThread_frame { model with schedulerStatus := true, rqTickToWake := 0 } idleInfo thread mm
  have fresh := accounts.fresh
  rcases sound.booting off with ⟨stopped, noIdle, switched⟩
  have hand : model.inHand = none := by
    simp [KernelState.inHand, switched, stopped]
  have placed : Placed { model with schedulerStatus := true, rqTickToWake := 0 } [] := by
    have before := sound.placed
    rw [hand] at before
    exact before.congr (before.ready.of_lists rfl) rfl rfl fun _ _ => ⟨rfl, rfl, rfl⟩
  have noIdleYet : KernelState.idle
      { model with schedulerStatus := true, rqTickToWake := 0 } = none := noIdle
  rcases newIdle_placed placed fresh below noIdleYet mm with ⟨created, idle⟩
  change Placed (model.withIdle thread mm) [] at created
  change (model.withIdle thread mm).idle = some thread at idle
  refine ⟨created.ready, ?_⟩
  rcases Placed.pickFrom_exists idle KernelState.pickOrder with ⟨next, after, picked⟩
  have chosen := created.pick picked
  have picks := pick_frame picked
  have memory : Memory linker (model.withIdle thread mm) spare := by
    have absent : 0 ∉ spare := fun member =>
      accounts.positive (List.mem_cons_of_mem _ (List.mem_append_right _ member))
    have erased : spare.erase idleInfo.codeAddr = spare := List.erase_of_not_mem absent
    rw [← erased]
    exact frame.memory accounts (.inl rfl)
  have threads : after.queue .threads = (model.withIdle thread mm).queue .threads :=
    picks.queues .threads (by simp [KernelState.pickOrder])
  have pendsv : after.pendsvPending = false := by
    rw [picks.outside, frame.outside]
    exact switched
  have status : after.schedulerStatus = true := by
    rw [picks.outside, frame.outside]
  have running : KernelState.inHand { after with
      nextThread := some next, currThread := some next, systickEnabled := true } =
      some next := by
    simp [KernelState.inHand, pendsv, Option.filter, chosen.2.1]
  refine ⟨next, after, picked, chosen.2, ?_, ?_⟩
  · exact {
      memory := by
        apply memory.congr _ threads fun found _ => (picks.identity found).codeAddr
        rw [picks.outside]
      placed := by
        rw [running]
        exact chosen.1.congr (chosen.1.ready.of_lists rfl) rfl rfl fun _ _ => ⟨rfl, rfl, rfl⟩
      awake := by
        rw [running]
        intro found isNext
        cases isNext
        exact chosen.2
      current := by
        intro found isNext
        cases isNext
        exact ⟨chosen.1.heldKnown next List.mem_cons_self,
          fun asleep => absurd chosen.2.1 asleep⟩
      started := fun _ => ⟨status, thread, picks.idle.trans idle⟩
      running := fun _ _ => ⟨next, rfl⟩
      booting := fun disabled => by cases disabled
      switching := by
        intro pending
        cases pendsv.symm.trans pending }
  · intro _ found isNext asleep
    cases isNext
    exact absurd chosen.2.1 asleep

end Vanilla.Kernel
