import Vanilla.Kernel.ThreadList

/-! # Events that charge no time

Every event but SysTick leaves the statistics of the listed threads alone; a new
thread starts with none.
-/

namespace Vanilla.Kernel

open Mm DlistStore Exec

/-- The sum of a field over some threads. -/
def total (field : Thread → Nat) (kernel : Machine) (threads : List ThreadPtr) : Nat :=
  (threads.map fun thread => field (kernel.thread thread)).sum

theorem total_congr {field : Thread → Nat} {before after : Machine} {threads : List ThreadPtr}
    (same : ∀ thread ∈ threads, field (after.thread thread) = field (before.thread thread)) :
    total field after threads = total field before threads := by
  unfold total
  rw [List.map_congr_left same]

/-- The kernel still knows its threads, none has left, and no time is charged to any. -/
def Uncharged (linker : Linker) (threads : List ThreadPtr) (before after : System) : Prop :=
  ∃ more, Tracks linker more after.spare after.kernel ∧ (∀ thread ∈ threads, thread ∈ more) ∧
    total Thread.runtimeNew after.kernel more = total Thread.runtimeNew before.kernel threads ∧
    after.kernel.statsTick = before.kernel.statsTick

section Creation

variable {linker : Linker} {threads : List ThreadPtr} {spare : List Nat}
  {kernel after : Machine} {lists : KernelLists} {thread : ThreadPtr} {mm : MmState}

/-- The lists once both nodes of a control block are initialized. -/
def initLists (thread : ThreadPtr) (lists : KernelLists) : KernelLists :=
  let lists := setObj (threadNode thread) (some thread)
    (setObj (rqNode thread) (some thread) lists)
  let lists := setPrev (rqNode thread) none (setNext (rqNode thread) none lists)
  setPrev (threadNode thread) none (setNext (threadNode thread) none lists)

theorem initLists_next (node : NodePtr) : ((initLists thread lists).node node).next =
    if node.thread = thread then none else (lists.node node).next := by
  obtain ⟨owner, field⟩ := node
  cases field <;> by_cases same : owner = thread <;>
    simp [initLists, rqNode, threadNode, same]

theorem initLists_prev (node : NodePtr) : ((initLists thread lists).node node).prev =
    if node.thread = thread then none else (lists.node node).prev := by
  obtain ⟨owner, field⟩ := node
  cases field <;> by_cases same : owner = thread <;>
    simp [initLists, rqNode, threadNode, same]

theorem initLists_obj (node : NodePtr) : ((initLists thread lists).node node).obj =
    if node.thread = thread then some thread else (lists.node node).obj := by
  obtain ⟨owner, field⟩ := node
  cases field <;> by_cases same : owner = thread <;>
    simp [initLists, rqNode, threadNode, same]

/-- No list notices the nodes of a thread that is not listed. -/
theorem ThreadsListed.initLists (list : ThreadsListed lists threads)
    (absent : thread ∉ threads) : ThreadsListed (initLists thread lists) threads := by
  have rep := list.listed
  have other : ∀ found ∈ threads, found ≠ thread := fun found known same =>
    absent (same ▸ known)
  refine ⟨⟨rep.first, rep.last, rep.size, rep.bound, rep.nodup, rep.linked.congr ?_⟩, ?_, ?_⟩
  · intro node member
    obtain ⟨found, known, same⟩ := List.mem_map.mp member
    have different : node.thread ≠ thread := by
      rw [← same]
      exact other found known
    rw [initLists_next, initLists_prev, if_neg different, if_neg different]
    exact ⟨rfl, rfl⟩
  · intro found unknown
    rw [initLists_next, initLists_prev]
    by_cases same : found = thread
    · have owner : (threadNode found).thread = thread := same
      rw [if_pos owner, if_pos owner]
      exact ⟨rfl, rfl⟩
    · have owner : (threadNode found).thread ≠ thread := same
      rw [if_neg owner, if_neg owner]
      exact list.unlisted found unknown
  · intro found known
    have owner : (threadNode found).thread ≠ thread := other found known
    rw [initLists_obj, if_neg owner]
    exact list.named found known

theorem QueuesOnly.initLists (queues : QueuesOnly lists lists) (thread : ThreadPtr) :
    QueuesOnly (initLists thread lists) (initLists thread lists) := by
  refine ⟨fun _ _ => rfl, rfl, fun _ => rfl, queues.first, queues.last, ?_, ?_⟩
  · intro node rq
    rw [initLists_next]
    split
    · exact leadsToRq_none
    · exact queues.next node rq
  · intro node rq
    rw [initLists_prev]
    split
    · exact leadsToRq_none
    · exact queues.prev node rq

/-- The kernel just before a new thread is enqueued. -/
def initThread (info : ThreadInfo) (thread : ThreadPtr) (mm : MmState) (kernel : Machine) :
    Machine :=
  let kernel := { kernel with
    mm, schedulerStatus := false, lists := initLists thread kernel.lists }
  let kernel := kernel.setThread thread fun fields =>
    { fields with schedClass := info.schedClass }
  kernel.setThread thread fun fields => { fields with rqList := none }

theorem initThread_self (info : ThreadInfo) : (initThread info thread mm kernel).thread thread =
    { kernel.thread thread with schedClass := info.schedClass, rqList := none } := by
  simp [initThread, KernelState.setThread]

theorem initThread_other (info : ThreadInfo) {other : ThreadPtr} (different : other ≠ thread) :
    (initThread info thread mm kernel).thread other = kernel.thread other := by
  simp [initThread, KernelState.setThread, different]

/-- The last writes to a new control block. -/
def fillThread (info : ThreadInfo) (thread : ThreadPtr) (kernel : Machine) : Machine :=
  let tid := kernel.nextTid
  let kernel := { kernel with nextTid := u32 (tid + 1) }
  let kernel := kernel.setThread thread fun fields => { fields with
    tickToWake := 0, runtimeCurr := 0, runtimeNew := 0, tid, exitPending := false,
    codeAddr := info.codeAddr }
  { kernel with schedulerStatus := true }

/-- A new thread gets memory, is enqueued and goes to the global list. -/
theorem newThread_inv {info : ThreadInfo} {tid : Nat}
    (returns : (newThread info).run kernel = .ok tid after) :
    ∃ thread mm queued listed,
      (pmalloc (threadPages info.stackSize) .dramBank3).run kernel.mm = .ok thread mm ∧
      (enqueue thread).run (initThread info thread mm kernel) = .ok () queued ∧
      (dlistInsertFirst (threadNode thread) .threads).run queued.lists = .ok () listed ∧
      after = fillThread info thread { queued with lists := listed } := by
  have suspended : suspendScheduler.run kernel =
      .ok () { kernel with schedulerStatus := false } := rfl
  rw [newThread, run_bind_of_ok suspended] at returns
  obtain ⟨thread, allocated, allocation, returns⟩ := run_bind_ok.mp returns
  obtain ⟨mm, pages, same⟩ := run_zoom_inv allocation
  subst same
  have prepared : (do
      onLists (modify (setObj (rqNode thread) (some thread)))
      onLists (modify (setObj (threadNode thread) (some thread)))
      setThread thread fun fields => { fields with schedClass := info.schedClass }
      onLists (dlistUnlink (rqNode thread))
      onLists (dlistUnlink (threadNode thread))
      setThread thread fun fields => { fields with rqList := none } : Exec Machine Unit).run
        { kernel with schedulerStatus := false, mm } =
      .ok () (initThread info thread mm kernel) := rfl
  obtain ⟨_, first, firstSet, returns⟩ := run_bind_ok.mp returns
  obtain ⟨_, second, secondSet, returns⟩ := run_bind_ok.mp returns
  obtain ⟨_, third, thirdSet, returns⟩ := run_bind_ok.mp returns
  obtain ⟨_, fourth, fourthSet, returns⟩ := run_bind_ok.mp returns
  obtain ⟨_, fifth, fifthSet, returns⟩ := run_bind_ok.mp returns
  obtain ⟨_, sixth, sixthSet, returns⟩ := run_bind_ok.mp returns
  rw [run_bind_of_ok firstSet, run_bind_of_ok secondSet, run_bind_of_ok thirdSet,
    run_bind_of_ok fourthSet, run_bind_of_ok fifthSet, sixthSet] at prepared
  cases prepared
  obtain ⟨_, queued, enqueued, returns⟩ := run_bind_ok.mp returns
  obtain ⟨_, inserted, insertion, returns⟩ := run_bind_ok.mp returns
  obtain ⟨listed, inserts, same⟩ := run_zoom_inv insertion
  subst same
  cases returns
  exact ⟨thread, mm, queued, listed, pages, enqueued, inserts, rfl⟩

theorem fillThread_self (info : ThreadInfo) : (fillThread info thread kernel).thread thread =
    { kernel.thread thread with
      tickToWake := 0, runtimeCurr := 0, runtimeNew := 0, tid := kernel.nextTid,
      exitPending := false, codeAddr := info.codeAddr } := by
  simp [fillThread, KernelState.setThread]

theorem fillThread_other (info : ThreadInfo) {other : ThreadPtr} (different : other ≠ thread) :
    (fillThread info thread kernel).thread other = kernel.thread other := by
  simp [fillThread, KernelState.setThread, different]

theorem fillThread_rqList (info : ThreadInfo) (other : ThreadPtr) :
    ((fillThread info thread kernel).thread other).rqList = (kernel.thread other).rqList := by
  by_cases same : other = thread
  · subst same
    rw [fillThread_self]
  · rw [fillThread_other info same]

/-- A new thread joins the ones the kernel knows, with no time charged to it. -/
theorem Tracks.creates (tracks : Tracks linker threads spare kernel) {info : ThreadInfo}
    (code : info.codeAddr = 0 ∨ info.codeAddr ∈ spare) {tid : Nat}
    (returns : (newThread info).run kernel = .ok tid after) :
    ∃ thread, Tracks linker (thread :: threads) (spare.erase info.codeAddr) after ∧
      (after.thread thread).runtimeNew = 0 ∧
      (∀ other ∈ threads, (after.thread other).runtimeNew = (kernel.thread other).runtimeNew) ∧
      after.statsTick = kernel.statsTick := by
  obtain ⟨thread, mm, queued, listed, pages, enqueued, inserted, isAfter⟩ := newThread_inv returns
  have allocates := tracks.memory.pmalloc (threadPages info.stackSize) .dramBank3
  rw [pages] at allocates
  obtain ⟨_, _, same, below, accounts⟩ := allocates.resolve_left (by simp)
  cases same
  have absent : thread ∉ threads := fun known => (List.nodup_cons.mp accounts.nodup).1
    (List.mem_append_left _ (List.mem_append_left _ known))
  have start : Undisturbed (initThread info thread mm kernel)
      (fun found => Reaches kernel threads found ∨ found = thread)
      (initThread info thread mm kernel) := by
    apply undisturbed_self (tracks.still.lists.initLists thread)
    · intro node found isObject
      change ((initLists thread kernel.lists).node node).obj = some found at isObject
      rw [initLists_obj] at isObject
      split at isObject
      · exact .inr (Option.some.inj isObject).symm
      · exact .inl (tracks.still.objects node found isObject)
    · intro found
      by_cases same : found = thread
      · rw [same, initThread_self]
        simp
      · rw [initThread_other info same]
        exact tracks.still.rqList found
    · exact fun found idle => .inl (tracks.still.idle found idle)
  obtain ⟨moved, _⟩ := keeps_enqueue (.inr rfl) _ _ _ start enqueued
  have list := (tracks.list.initLists absent).queuesOnly moved.lists
  have object : (queued.lists.node (threadNode thread)).obj = some thread :=
    (moved.lists.obj _).trans ((initLists_obj (threadNode thread)).trans (if_pos rfl))
  have short := length_le_of_nodup (List.Nodup.of_map _ tracks.list.listed.nodup) tracks.below
  obtain ⟨_, insertion, newList, queues, objects⟩ :=
    list.inserted moved.lists.restart absent object (by omega)
  cases insertion.symm.trans inserted
  have self := @fillThread_self { queued with lists := listed } thread info
  have others := @fillThread_other { queued with lists := listed } thread info
  rw [← isAfter] at self others
  have account : ∀ other, other ≠ thread →
      SameAccount (kernel.thread other) (after.thread other) := by
    intro other different
    have same := moved.account other
    rw [initThread_other info different] at same
    rw [others different]
    exact same
  have reaches : ∀ found, Reaches kernel threads found ∨ found = thread →
      Reaches after (thread :: threads) found := by
    intro found known
    by_cases same : found = thread
    · exact .inl (same ▸ List.mem_cons_self)
    · exact ((known.resolve_right same).keep (account found same).exitPending).imp
        (List.mem_cons_of_mem _) id
  refine ⟨thread, ⟨?_, ?_, ?_, ?_, ?_, ?_⟩, ?_, ?_, ?_⟩
  · rw [isAfter]
    exact newList
  · intro found known
    cases List.mem_cons.mp known with
    | inl same => rw [same]; exact below
    | inr old => exact tracks.below found old
  · apply undisturbed_self
    · rw [isAfter]
      exact queues
    · intro node found isObject
      rw [isAfter] at isObject
      exact reaches found (moved.objects node found ((objects node).symm.trans isObject))
    · intro found
      rw [isAfter, fillThread_rqList]
      exact moved.rqList found
    · intro found idle
      rw [isAfter] at idle
      exact reaches found (moved.idle found idle)
  · intro found curr
    rw [isAfter] at curr
    exact reaches found (.inl (tracks.curr found (moved.currThread.symm.trans curr)))
  · intro found next
    rw [isAfter] at next
    exact reaches found (.inl (tracks.next found (moved.nextThread.symm.trans next)))
  · have mmSame : after.mm = mm := by
      rw [isAfter]
      exact moved.mm
    have codeAddr : (after.thread thread).codeAddr = info.codeAddr := by
      rw [self]
    rw [mmSame, ← codeAddr]
    rw [← codeAddr] at code
    exact accounts.load (fun found known =>
      (account found fun same => absent (same ▸ known)).codeAddr) code
  · rw [self]
  · exact fun other known => (account other fun same => absent (same ▸ known)).runtimeNew
  · rw [isAfter]
    exact moved.statsTick

end Creation

/-! ## The events -/

section Events

variable {linker : Linker} {threads : List ThreadPtr} {spare : List Nat}
  {kernel next : Machine} {before after : System}

/-- A change that no list and no account is about. -/
theorem Tracks.marked (tracks : Tracks linker threads spare kernel) (thread : ThreadPtr) :
    Tracks linker threads spare
      (kernel.setThread thread fun fields => { fields with exitPending := true }) := by
  refine tracks.update rfl ?_ ?_ ?_ rfl tracks.still.idle tracks.curr tracks.next
  · intro other
    by_cases same : other = thread <;> simp [KernelState.setThread, same]
  · intro other leaving
    by_cases same : other = thread <;> simp [KernelState.setThread, same, leaving]
  · intro other
    by_cases same : other = thread <;> simp [KernelState.setThread, same]

theorem runtimeNew_marked (thread other : ThreadPtr) :
    ((kernel.setThread thread fun fields => { fields with exitPending := true }).thread
      other).runtimeNew = (kernel.thread other).runtimeNew := by
  by_cases same : other = thread <;> simp [KernelState.setThread, same]

theorem uncharged_kill (tracks : Tracks linker threads spare kernel) {tid : Nat}
    (returns : (killThread tid).run kernel = .ok () next) :
    Uncharged linker threads ⟨kernel, spare⟩ ⟨next, spare⟩ := by
  have suspended : suspendScheduler.run kernel =
      .ok () { kernel with schedulerStatus := false } := rfl
  have paused : Tracks linker threads spare { kernel with schedulerStatus := false } :=
    tracks.adjust rfl rfl rfl tracks.still.idle tracks.curr tracks.next
  rw [killThread, run_bind_of_ok suspended] at returns
  obtain ⟨found, looked, finds, returns⟩ := run_bind_ok.mp returns
  obtain ⟨moved, _⟩ := paused.keeps (keeps_getThread tid) finds
  have searched := paused.undisturbed moved
  cases found with
  | none =>
      cases returns
      refine ⟨threads, ?_, fun _ known => known,
        total_congr fun thread _ => (moved.account thread).runtimeNew, moved.statsTick⟩
      exact searched.adjust rfl rfl rfl searched.still.idle searched.curr searched.next
  | some thread =>
      cases returns
      have marked := searched.marked thread
      refine ⟨threads, ?_, fun _ known => known, total_congr fun other _ => ?_, moved.statsTick⟩
      · exact marked.adjust rfl rfl rfl marked.still.idle marked.curr marked.next
      · exact (runtimeNew_marked thread other).trans (moved.account other).runtimeNew

theorem Tracks.starts (tracks : Tracks linker threads spare kernel)
    (returns : schedulerStart.run kernel = .ok () next) :
    Uncharged linker threads ⟨kernel, spare⟩ ⟨next, spare⟩ := by
  have resumed : (modify fun kernel : Machine =>
      { kernel with schedulerStatus := true, rqTickToWake := 0 } : Exec Machine Unit).run kernel =
      .ok () { kernel with schedulerStatus := true, rqTickToWake := 0 } := rfl
  have running : Tracks linker threads spare
      { kernel with schedulerStatus := true, rqTickToWake := 0 } :=
    tracks.adjust rfl rfl rfl tracks.still.idle tracks.curr tracks.next
  rw [schedulerStart, run_bind_of_ok resumed] at returns
  obtain ⟨tid, created, creates, returns⟩ := run_bind_ok.mp returns
  obtain ⟨thread, known, fresh, accounts, statsTick⟩ := running.creates (.inl rfl) creates
  have noCode : spare.erase idleInfo.codeAddr = spare := List.erase_of_not_mem fun member =>
    tracks.memory.positive (List.mem_append_right _ member)
  rw [noCode] at known
  obtain ⟨idle, looked, finds, returns⟩ := run_bind_ok.mp returns
  obtain ⟨searches, isKnown⟩ := known.keeps (keeps_getThread tid) finds
  have searched := known.undisturbed searches
  have reaches : Known (Reaches looked (thread :: threads)) idle := fun found isIdle =>
    (isKnown found isIdle).keep (searches.account found).exitPending
  have named : Tracks linker (thread :: threads) spare { looked with idle } :=
    searched.adjust rfl rfl rfl reaches searched.curr searched.next
  have noted : (modify fun kernel : Machine =>
      { kernel with idle } : Exec Machine Unit).run looked =
      .ok () { looked with idle } := rfl
  rw [run_bind_of_ok noted] at returns
  obtain ⟨chosen, picked, picks, returns⟩ := run_bind_ok.mp returns
  obtain ⟨schedules, isChosen⟩ := named.keeps keeps_coreScheduler picks
  have scheduled := named.undisturbed schedules
  have chosenReaches : Known (Reaches picked (thread :: threads)) chosen := fun found isNext =>
    (isChosen found isNext).keep (schedules.account found).exitPending
  have sum : total Thread.runtimeNew picked (thread :: threads) =
      total Thread.runtimeNew kernel threads := by
    have same : ∀ other ∈ threads,
        (picked.thread other).runtimeNew = (kernel.thread other).runtimeNew :=
      fun other member => ((schedules.account other).runtimeNew.trans
        (searches.account other).runtimeNew).trans (accounts other member)
    have zero : (picked.thread thread).runtimeNew = 0 :=
      ((schedules.account thread).runtimeNew.trans (searches.account thread).runtimeNew).trans
        fresh
    have rest := total_congr same
    unfold total at rest ⊢
    rw [List.map_cons, List.sum_cons, zero, rest, Nat.zero_add]
  have statsSame : picked.statsTick = kernel.statsTick :=
    (schedules.statsTick.trans searches.statsTick).trans statsTick
  have switched : (modify fun kernel : Machine =>
      { kernel with nextThread := chosen, currThread := chosen } : Exec Machine Unit).run picked =
      .ok () { picked with nextThread := chosen, currThread := chosen } := rfl
  rw [run_bind_of_ok switched, run_bind_of_ok (EStateM.run_get _)] at returns
  dsimp only at returns
  split at returns
  · obtain ⟨_, _, fails, _⟩ := run_bind_ok.mp returns
    cases fails
  · cases returns
    refine ⟨thread :: threads, ?_, fun _ => List.mem_cons_of_mem _, sum, statsSame⟩
    exact scheduled.adjust rfl rfl rfl scheduled.still.idle chosenReaches chosenReaches

theorem uncharged_of_keeps (tracks : Tracks linker threads spare kernel)
    {code : Exec Machine Unit}
    (quiet : Keeps (Undisturbed kernel (Reaches kernel threads)) code fun _ => True)
    (returns : code.run kernel = .ok () next) :
    Uncharged linker threads ⟨kernel, spare⟩ ⟨next, spare⟩ := by
  obtain ⟨moved, _⟩ := tracks.keeps quiet returns
  exact ⟨threads, tracks.undisturbed moved, fun _ known => known,
    total_congr fun thread _ => (moved.account thread).runtimeNew, moved.statsTick⟩

theorem uncharged_pendsv (tracks : Tracks linker threads spare kernel)
    (returns : pendsvException.run kernel = .ok () next) :
    Uncharged linker threads ⟨kernel, spare⟩ ⟨next, spare⟩ := by
  rw [pendsvException, run_bind_of_ok (EStateM.run_get kernel)] at returns
  cases chosen : kernel.nextThread with
  | none =>
      rw [chosen] at returns
      cases returns
  | some thread =>
      rw [chosen] at returns
      cases returns
      refine ⟨threads, ?_, fun _ known => known, rfl, rfl⟩
      have reaches : Known (Reaches kernel threads) (some thread) := fun found same =>
        tracks.next found (chosen.trans same)
      exact tracks.adjust rfl rfl rfl tracks.still.idle reaches reaches

theorem uncharged_exit (tracks : Tracks linker threads spare kernel)
    (returns : threadExit.run kernel = .ok () next) :
    Uncharged linker threads ⟨kernel, spare⟩ ⟨next, spare⟩ := by
  rw [threadExit, run_bind_of_ok (EStateM.run_get kernel)] at returns
  cases running : kernel.currThread with
  | none =>
      rw [running] at returns
      cases returns
  | some curr =>
      rw [running] at returns
      cases returns
      exact ⟨threads, tracks.marked curr, fun _ known => known,
        total_congr fun other _ => runtimeNew_marked curr other, rfl⟩

theorem uncharged_allocate (tracks : Tracks linker threads before.spare before.kernel)
    {count : Nat} {bank : PhysmemE}
    (returns : (perform (.allocate count bank)).run before = .ok () after) :
    Uncharged linker threads before after := by
  obtain ⟨pointer, _, allocation, returns⟩ := run_bind_ok.mp returns
  obtain ⟨_, onMachine, same⟩ := run_zoom_inv allocation
  subst same
  obtain ⟨mm, pages, same⟩ := run_zoom_inv onMachine
  subst same
  cases returns
  have allocates := tracks.memory.pmalloc count bank
  rw [pages] at allocates
  obtain ⟨_, _, same, _, accounts⟩ := allocates.resolve_left (by simp)
  cases same
  exact ⟨threads, ⟨tracks.list, tracks.below, undisturbed_self tracks.still.lists
    tracks.still.objects tracks.still.rqList tracks.still.idle, tracks.curr, tracks.next,
    accounts.perm List.perm_middle.symm⟩, fun _ known => known, rfl, rfl⟩

theorem uncharged_release (tracks : Tracks linker threads before.spare before.kernel)
    {pointer : Nat} (owned : pointer ∈ before.spare)
    (returns : (perform (.release pointer)).run before = .ok () after) :
    Uncharged linker threads before after := by
  obtain ⟨_, _, release, returns⟩ := run_bind_ok.mp returns
  obtain ⟨_, onMachine, same⟩ := run_zoom_inv release
  subst same
  obtain ⟨mm, freed, same⟩ := run_zoom_inv onMachine
  subst same
  cases returns
  have taken := List.perm_cons_erase owned
  have frees := (tracks.memory.perm ((taken.append_left _).trans List.perm_middle)).free
  obtain ⟨_, returns, accounts⟩ := frees
  cases returns.symm.trans freed
  exact ⟨threads, ⟨tracks.list, tracks.below, undisturbed_self tracks.still.lists
    tracks.still.objects tracks.still.rqList tracks.still.idle, tracks.curr, tracks.next,
    accounts⟩, fun _ known => known, rfl, rfl⟩

theorem uncharged_newThread (tracks : Tracks linker threads before.spare before.kernel)
    {info : ThreadInfo} (code : info.codeAddr = 0 ∨ info.codeAddr ∈ before.spare)
    (returns : (perform (.newThread info)).run before = .ok () after) :
    Uncharged linker threads before after := by
  obtain ⟨tid, _, creation, returns⟩ := run_bind_ok.mp returns
  obtain ⟨kernel, creates, same⟩ := run_zoom_inv creation
  subst same
  cases returns
  obtain ⟨thread, known, fresh, accounts, statsTick⟩ := tracks.creates code creates
  refine ⟨thread :: threads, known, fun _ => List.mem_cons_of_mem _, ?_, statsTick⟩
  have rest := total_congr accounts
  unfold total at rest ⊢
  rw [List.map_cons, List.sum_cons, rest]
  exact (congrArg (· + _) fresh).trans (Nat.zero_add _)

/-- A call that is all of its event. -/
theorem uncharged_onKernel {code : Exec Machine Unit}
    (quiet : ∀ next, code.run kernel = .ok () next →
      Uncharged linker threads ⟨kernel, spare⟩ ⟨next, spare⟩)
    (returns : (onKernel code).run ⟨kernel, spare⟩ = .ok () after) :
    Uncharged linker threads ⟨kernel, spare⟩ after := by
  obtain ⟨next, runs, same⟩ := run_zoom_inv returns
  rw [same]
  exact quiet next runs

/-- Only SysTick charges time. -/
theorem Tracks.uncharged (tracks : Tracks linker threads before.spare before.kernel)
    {event : Event} (step : Step before event after)
    (notTick : ∀ cvr, event ≠ .systick cvr) : Uncharged linker threads before after := by
  obtain ⟨kernel, spare⟩ := before
  cases step with
  | intro enabled returns =>
      cases event with
      | systick cvr => exact absurd rfl (notTick cvr)
      | newThread info => exact uncharged_newThread tracks enabled.2.2 returns
      | allocate count bank => exact uncharged_allocate tracks returns
      | release pointer => exact uncharged_release tracks enabled returns
      | start => exact uncharged_onKernel (fun _ => tracks.starts) returns
      | sleep ms =>
          exact uncharged_onKernel (fun _ => uncharged_of_keeps tracks (keeps_threadSleep ms))
            returns
      | pendsv => exact uncharged_onKernel (fun _ => uncharged_pendsv tracks) returns
      | block tid =>
          exact uncharged_onKernel (fun _ => uncharged_of_keeps tracks (keeps_threadBlock tid))
            returns
      | unblock tid =>
          exact uncharged_onKernel (fun _ => uncharged_of_keeps tracks (keeps_threadUnblock tid))
            returns
      | exit => exact uncharged_onKernel (fun _ => uncharged_exit tracks) returns
      | kill tid => exact uncharged_onKernel (fun _ => uncharged_kill tracks) returns

end Events

end Vanilla.Kernel
