import Vanilla.Kernel.ThreadEvents

/-! # Accounting of run time

A SysTick charges the slice it ends to the running thread. When a statistics
window closes, what the threads were charged in it is published.
-/

namespace Vanilla.Kernel

open Mm DlistStore Exec

/-- The slice that a SysTick charges. -/
def slice (kernel : Machine) (cvr : Nat) : Nat :=
  if kernel.reschedulePending then u32Sub systickRvr cvr else systickRvr

theorem slice_le_rvr {kernel : Machine} {cvr : Nat} (inRange : cvr ≤ systickRvr) :
    slice kernel cvr ≤ systickRvr := by
  have sub : u32Sub systickRvr cvr = systickRvr - cvr :=
    u32Sub_of_le (by simp [systickRvr]) inRange
  unfold slice
  split
  · rw [sub]
    exact Nat.sub_le ..
  · exact Nat.le_refl _

/-! ## The end of a window -/

/-- Some threads have their windows closed, and nothing else has changed. -/
structure Closed (threads : List ThreadPtr) (before after : Machine) : Prop where
  outside : after = { before with thread := after.thread }
  closed : ∀ thread ∈ threads,
    after.thread thread = KernelState.closeWindow (before.thread thread)
  others : ∀ thread, thread ∉ threads → after.thread thread = before.thread thread

theorem run_closeWindows {kernel : Machine} {front rest : List ThreadPtr} {rounds : Nat}
    (list : ThreadsListed kernel.lists (front ++ rest)) (enough : rest.length ≤ rounds) :
    ∃ after, (closeWindows rounds (rest.head?.map threadNode)).run kernel = .ok () after ∧
      Closed rest kernel after := by
  induction rest generalizing kernel front rounds with
  | nil =>
      refine ⟨kernel, ?_, rfl, ?_, fun _ _ => rfl⟩
      · cases rounds <;> rfl
      · intro thread member
        cases member
  | cons head rest induction =>
      cases rounds with
      | zero => cases enough
      | succ rounds =>
          have member : head ∈ front ++ head :: rest := by simp
          have named : (nodeThread (threadNode head)).run kernel = .ok head kernel := by
            rw [nodeThread, run_bind_of_ok (EStateM.run_get kernel), list.named head member]
            rfl
          have linked := list.listed.linked
          rw [List.map_append, List.map_cons] at linked
          have next : (kernel.lists.node (threadNode head)).next = rest.head?.map threadNode := by
            rw [(linked_append.mp linked).2.2.1, Option.or_none, List.head?_map]
          have nodup := List.Nodup.of_map _ list.listed.nodup
          have absent : head ∉ rest :=
            (List.nodup_cons.mp (List.nodup_append.mp nodup).2.1).1
          have closes : (setThread head KernelState.closeWindow).run kernel =
              .ok () (kernel.setThread head KernelState.closeWindow) := rfl
          have passed : ThreadsListed (kernel.setThread head KernelState.closeWindow).lists
              (front ++ [head] ++ rest) := by
            rw [List.append_assoc]
            exact list
          rcases induction passed (Nat.le_of_succ_le_succ enough) with ⟨after, runs, closed⟩
          refine ⟨after, ?_, ?_, ?_, ?_⟩
          · rw [List.head?_cons, Option.map_some, closeWindows, run_bind_of_ok named]
            refine (run_bind_of_ok closes).trans ?_
            rw [run_bind_of_ok (EStateM.run_get _)]
            change (closeWindows rounds (kernel.lists.node (threadNode head)).next).run _ = _
            rw [next]
            exact runs
          · rw [closed.outside]
            rfl
          · intro thread known
            by_cases same : thread = head
            · subst same
              rw [closed.others thread absent]
              simp [KernelState.setThread]
            · have later := (List.mem_cons.mp known).resolve_left same
              rw [closed.closed thread later]
              simp [KernelState.setThread, same]
          · intro thread unknown
            have different : thread ≠ head := fun same => unknown (same ▸ List.mem_cons_self)
            rw [closed.others thread fun later => unknown (List.mem_cons_of_mem _ later)]
            simp [KernelState.setThread, different]

theorem run_calculateRuntime {kernel : Machine} {threads : List ThreadPtr}
    (list : ThreadsListed kernel.lists threads) :
    ∃ after, calculateRuntime.run kernel = .ok () after ∧ Closed threads kernel after := by
  have enough : threads.length ≤ loopRounds := by
    have bound := list.listed.bound
    rw [List.length_map] at bound
    rw [loopRounds]
    exact bound.le
  rw [calculateRuntime, run_bind_of_ok (EStateM.run_get kernel), list.listed.first,
    List.head?_map]
  exact @run_closeWindows kernel [] threads loopRounds list enough

/-! ## One SysTick -/

/-- The kernel once its ticks have advanced. -/
def advance (kernel : Machine) (runtime : Nat) : Machine :=
  { kernel with
    reschedulePending := false
    tick := u64 (kernel.tick + runtime)
    statsTick := u64 (kernel.statsTick + runtime) }

/-- The kernel once the running thread is charged. -/
def charge (kernel : Machine) (curr : ThreadPtr) (runtime : Nat) : Machine :=
  (advance kernel runtime).setThread curr fun fields =>
    { fields with runtimeNew := u64 (fields.runtimeNew + runtime) }

/-- The SysTick that comes next closes the window. -/
def Closes (kernel : Machine) (cvr : Nat) : Prop :=
  systickRvr * 1000 ≤ u64 (kernel.statsTick + slice kernel cvr)

instance (kernel : Machine) (cvr : Nat) : Decidable (Closes kernel cvr) := by
  unfold Closes
  infer_instance

theorem run_getCurrThreadRuntime (kernel : Machine) (cvr : Nat) :
    (getCurrThreadRuntime cvr).run kernel =
      .ok (slice kernel cvr) { kernel with reschedulePending := false } := by
  rw [getCurrThreadRuntime, run_bind_of_ok (EStateM.run_get kernel)]
  cases pending : kernel.reschedulePending with
  | true =>
      rw [if_pos rfl, slice, if_pos pending]
      rfl
  | false =>
      have same : { kernel with reschedulePending := false } = kernel := by rw [← pending]
      rw [if_neg (by simp), slice, if_neg (by simp [pending]), same]
      rfl

/-- The first steps of the accounting, up to the running thread. -/
theorem run_accountRuntime_start (kernel : Machine) (cvr : Nat) :
    (accountRuntime cvr).run kernel = (do
      let curr ← deref kernel.currThread
      setThread curr fun fields =>
        { fields with runtimeNew := u64 (fields.runtimeNew + slice kernel cvr) }
      if Closes kernel cvr then
        modify fun kernel => { kernel with statsTick := 0 }
        calculateRuntime : Exec Machine Unit).run (advance kernel (slice kernel cvr)) := by
  have advanced : (modify fun state : Machine => { state with
        tick := u64 (state.tick + slice kernel cvr)
        statsTick := u64 (state.statsTick + slice kernel cvr) } : Exec Machine Unit).run
      { kernel with reschedulePending := false } =
      .ok () (advance kernel (slice kernel cvr)) := rfl
  rw [accountRuntime, run_bind_of_ok (run_getCurrThreadRuntime kernel cvr),
    run_bind_of_ok advanced, run_bind_of_ok (EStateM.run_get _)]
  rfl

/-- The accounting dereferences the running thread. -/
theorem running_of_accountRuntime {kernel after : Machine} {cvr : Nat}
    (returns : (accountRuntime cvr).run kernel = .ok () after) :
    ∃ curr, kernel.currThread = some curr := by
  rw [run_accountRuntime_start] at returns
  rcases run_bind_ok.mp returns with ⟨curr, _, derefs, _⟩
  cases running : kernel.currThread with
  | none =>
      rw [running] at derefs
      cases derefs
  | some found => exact ⟨found, rfl⟩

theorem run_accountRuntime {kernel : Machine} {threads : List ThreadPtr} {curr : ThreadPtr}
    (list : ThreadsListed kernel.lists threads) (running : kernel.currThread = some curr)
    (cvr : Nat) :
    ∃ after, (accountRuntime cvr).run kernel = .ok () after ∧
      (¬ Closes kernel cvr → after = charge kernel curr (slice kernel cvr)) ∧
      (Closes kernel cvr →
        Closed threads { charge kernel curr (slice kernel cvr) with statsTick := 0 } after) := by
  have derefs : ∀ state : Machine, (deref kernel.currThread).run state = .ok curr state := by
    intro state
    rw [running]
    rfl
  have charges : ∀ state : Machine, (setThread curr fun fields =>
      { fields with runtimeNew := u64 (fields.runtimeNew + slice kernel cvr) }).run state =
      .ok () (state.setThread curr fun fields =>
        { fields with runtimeNew := u64 (fields.runtimeNew + slice kernel cvr) }) :=
    fun _ => rfl
  have resets : (modify fun kernel : Machine =>
      { kernel with statsTick := 0 } : Exec Machine Unit).run
        (charge kernel curr (slice kernel cvr)) =
      .ok () { charge kernel curr (slice kernel cvr) with statsTick := 0 } := rfl
  rw [run_accountRuntime_start, run_bind_of_ok (derefs _), run_bind_of_ok (charges _)]
  by_cases closes : Closes kernel cvr
  · rcases @run_calculateRuntime
      { charge kernel curr (slice kernel cvr) with statsTick := 0 } threads list with
      ⟨after, runs, closed⟩
    refine ⟨after, ?_, fun stays => absurd closes stays, fun _ => closed⟩
    rw [if_pos closes]
    exact (run_bind_of_ok resets).trans runs
  · refine ⟨_, ?_, fun _ => rfl, fun closed => absurd closed closes⟩
    rw [if_neg closes]
    rfl

/-! ## Removal -/

section Removal

variable {linker : Linker} {threads : List ThreadPtr} {spare : List Nat}
  {kernel after : Machine} {curr : ThreadPtr}

theorem SameAccount.trans {first second third : Thread} (early : SameAccount first second)
    (late : SameAccount second third) : SameAccount first third :=
  ⟨late.runtimeNew.trans early.runtimeNew, late.runtimeCurr.trans early.runtimeCurr,
    late.exitPending.trans early.exitPending, late.codeAddr.trans early.codeAddr⟩

/-- The threads after a removal, with what scheduling does not write as it was. -/
structure Removes (linker : Linker) (threads : List ThreadPtr) (spare : List Nat)
    (kernel after : Machine) : Prop where
  tracks : Tracks linker threads spare after
  account : ∀ thread, SameAccount (kernel.thread thread) (after.thread thread)
  statsTick : after.statsTick = kernel.statsTick

/-- Only a listed thread can be removed. -/
theorem Tracks.removes (tracks : Tracks linker threads spare kernel)
    (running : kernel.currThread = some curr)
    (leaving : (kernel.thread curr).exitPending = true)
    (returns : schedulerRemoveThread.run kernel = .ok () after) :
    curr ∈ threads ∧ Removes linker (threads.erase curr) spare kernel after := by
  rw [schedulerRemoveThread, run_bind_of_ok (EStateM.run_get kernel), running] at returns
  have derefs : (deref (some curr)).run kernel = .ok curr kernel := rfl
  rw [run_bind_of_ok derefs] at returns
  rcases run_bind_ok.mp returns with ⟨node, unlisted, removal, returns⟩
  rcases run_zoom_inv removal with ⟨lists, removed, same⟩
  subst same
  have member := listed_of_dlistRemove tracks.list removed
  rcases tracks.list.removed tracks.still.lists member with
    ⟨_, erases, list, queues, objects⟩
  cases erases.symm.trans removed
  have start : Undisturbed { kernel with lists } (Reaches kernel threads)
      { kernel with lists } := by
    apply undisturbed_self queues
    · exact fun node thread found =>
        tracks.still.objects node thread ((objects node).symm.trans found)
    · exact tracks.still.rqList
    · exact tracks.still.idle
  rcases run_bind_ok.mp returns with ⟨_, dequeued, dequeues, returns⟩
  rcases keeps_removeFromRq curr _ _ _ start dequeues with ⟨dequeued, _⟩
  rcases run_bind_ok.mp returns with ⟨_, verified, verifies, returns⟩
  rcases keeps_verifyRemoved curr _ _ _ dequeued verifies with ⟨moved, _⟩
  rw [run_bind_of_ok (EStateM.run_get verified)] at returns
  rcases run_bind_ok.mp returns with ⟨_, freed, deletion, returns⟩
  rcases run_zoom_inv deletion with ⟨mm, deleted, same⟩
  subst same
  cases returns
  rcases tracks.memory.delete member with ⟨_, deletes, accounts⟩
  have codeAddr : (verified.thread curr).codeAddr = (kernel.thread curr).codeAddr :=
    (moved.account curr).codeAddr
  have mmSame : verified.mm = kernel.mm := moved.mm
  rw [codeAddr, mmSame] at deleted
  cases deletes.symm.trans deleted
  have reaches : ∀ thread, Reaches kernel threads thread →
      Reaches verified (threads.erase curr) thread := by
    intro thread known
    by_cases same : thread = curr
    · subst same
      exact .inr ((moved.account thread).exitPending.trans leaving)
    · have stays : Reaches kernel (threads.erase curr) thread :=
        known.imp (List.mem_erase_of_ne same).mpr id
      exact stays.keep (moved.account thread).exitPending
  refine ⟨member, ⟨list.queuesOnly moved.lists, ?_, ?_, ?_, ?_, ?_⟩, moved.account,
    moved.statsTick⟩
  · exact fun thread known => tracks.below thread (List.mem_of_mem_erase known)
  · exact undisturbed_self moved.lists.restart
      (fun node thread found => reaches thread (moved.objects node thread found)) moved.rqList
      fun thread idle => reaches thread (moved.idle thread idle)
  · intro thread found
    cases found
  · exact fun thread found => reaches thread (tracks.next thread (moved.nextThread.symm.trans found))
  · have codes : KernelState.codes verified.thread (threads.erase curr) =
        KernelState.codes kernel.thread (threads.erase curr) :=
      KernelState.codes_congr fun found _ => (moved.account found).codeAddr
    rw [codes]
    exact accounts

/-- The threads a SysTick leaves in the list: all, or all but a running thread that exits. -/
def Departs (kernel : Machine) (threads more : List ThreadPtr) : Prop :=
  more = threads ∨ ∃ curr ∈ threads, kernel.currThread = some curr ∧
    (kernel.thread curr).exitPending = true ∧ more = threads.erase curr

/-- The running thread is listed, or the SysTick faults. -/
theorem Tracks.removesExited (tracks : Tracks linker threads spare kernel)
    (running : kernel.currThread = some curr)
    (returns : removeExitedThread.run kernel = .ok () after) :
    curr ∈ threads ∧ ∃ more, Departs kernel threads more ∧
      Removes linker more spare kernel after := by
  rw [removeExitedThread, run_bind_of_ok (EStateM.run_get kernel), running] at returns
  have derefs : (deref (some curr)).run kernel = .ok curr kernel := rfl
  rw [run_bind_of_ok derefs] at returns
  by_cases leaving : (kernel.thread curr).exitPending = true
  · rw [if_pos leaving] at returns
    rcases tracks.removes running leaving returns with ⟨member, removes⟩
    exact ⟨member, _, .inr ⟨curr, member, running, leaving, rfl⟩, removes⟩
  · rw [if_neg leaving] at returns
    cases returns
    exact ⟨(tracks.curr curr running).resolve_right leaving, threads, .inl rfl,
      tracks, fun _ => ⟨rfl, rfl, rfl, rfl⟩, rfl⟩

/-- The pick at the end of a SysTick. -/
theorem Removes.finish {charged removed : Machine}
    (removes : Removes linker threads spare kernel removed)
    (early : ∀ thread, SameAccount (charged.thread thread) (kernel.thread thread))
    (ticks : kernel.statsTick = charged.statsTick)
    (returns : (do
      let next ← coreScheduler
      modify fun kernel => { kernel with nextThread := next, pendsvPending := true }
        : Exec Machine Unit).run removed = .ok () after) :
    Removes linker threads spare charged after := by
  rcases run_bind_ok.mp returns with ⟨next, picked, picks, returns⟩
  rcases removes.tracks.keeps keeps_coreScheduler picks with ⟨moved, chosen⟩
  have tracks := removes.tracks.undisturbed moved
  cases returns
  refine ⟨?_, ?_, ?_⟩
  · refine tracks.adjust rfl rfl rfl tracks.still.idle tracks.curr ?_
    exact fun thread found => (chosen thread found).keep (moved.account thread).exitPending
  · exact fun thread => ((early thread).trans (removes.account thread)).trans (moved.account thread)
  · exact (moved.statsTick.trans removes.statsTick).trans ticks

/-- The accounting keeps track of the threads. -/
theorem Tracks.accounted (tracks : Tracks linker threads spare kernel) {cvr : Nat}
    (running : kernel.currThread = some curr)
    (returns : (accountRuntime cvr).run kernel = .ok () after) :
    Tracks linker threads spare after ∧ after.currThread = some curr ∧
      ∀ thread, (after.thread thread).exitPending = (kernel.thread thread).exitPending := by
  rcases run_accountRuntime tracks.list running cvr with ⟨_, runs, stays, closes⟩
  cases runs.symm.trans returns
  have charged : ∀ thread, SameButRuntime (kernel.thread thread)
      ((charge kernel curr (slice kernel cvr)).thread thread) := by
    intro thread
    by_cases same : thread = curr
    · subst same
      simp [charge, advance, KernelState.setThread, SameButRuntime]
    · simp [charge, advance, KernelState.setThread, SameButRuntime, same]
  have outside : after.lists = kernel.lists ∧ after.idle = kernel.idle ∧ after.mm = kernel.mm ∧
      after.currThread = kernel.currThread ∧ after.nextThread = kernel.nextThread ∧
      ∀ thread, SameButRuntime (kernel.thread thread) (after.thread thread) := by
    by_cases ends : Closes kernel cvr
    · have closed := closes ends
      rw [closed.outside]
      refine ⟨rfl, rfl, rfl, rfl, rfl, ?_⟩
      intro thread
      by_cases member : thread ∈ threads
      · apply (charged thread).trans
        rw [show after.thread thread = _ from closed.closed thread member]
        rfl
      · rw [show after.thread thread = _ from closed.others thread member]
        exact charged thread
    · rw [stays ends]
      exact ⟨rfl, rfl, rfl, rfl, rfl, charged⟩
  rcases outside with ⟨lists, idle, mm, currThread, nextThread, fields⟩
  have exits := fun thread => (fields thread).identity.exitPending
  refine ⟨?_, currThread.trans running, exits⟩
  refine tracks.update lists ?_ ?_ ?_ mm (idle ▸ tracks.still.idle) (currThread ▸ tracks.curr)
    (nextThread ▸ tracks.next)
  · intro thread
    rw [fields thread]
  · intro thread leaving
    rw [exits]
    exact leaving
  · exact fun thread => (fields thread).identity.codeAddr

/-- What a SysTick does after its accounting. -/
theorem Tracks.systick (tracks : Tracks linker threads spare kernel) {cvr : Nat}
    (status : kernel.schedulerStatus = true)
    (returns : (systickException cvr).run kernel = .ok () after) :
    ∃ curr ∈ threads, kernel.currThread = some curr ∧
      ∃ charged, (accountRuntime cvr).run kernel = .ok () charged ∧
        ∃ more, Departs kernel threads more ∧ Removes linker more spare charged after := by
  rw [systickException, run_bind_of_ok (EStateM.run_get kernel), if_pos status] at returns
  rcases run_bind_ok.mp returns with ⟨_, charged, accounting, returns⟩
  rcases running_of_accountRuntime accounting with ⟨curr, running⟩
  rcases tracks.accounted running accounting with ⟨known, runs, exits⟩
  rcases run_bind_ok.mp returns with ⟨_, woken, wakes, returns⟩
  rcases known.keeps keeps_processExpiredDelays wakes with ⟨woke, _⟩
  have afterWake := known.undisturbed woke
  rcases run_bind_ok.mp returns with ⟨_, queued, queues, returns⟩
  rcases afterWake.keeps (keeps_requeueCurrThread afterWake.curr) queues with ⟨queue, _⟩
  have afterQueue := afterWake.undisturbed queue
  rcases run_bind_ok.mp returns with ⟨_, removed, removal, returns⟩
  have stillRuns : queued.currThread = some curr :=
    (queue.currThread.trans woke.currThread).trans runs
  rcases afterQueue.removesExited stillRuns removal with ⟨member, more, departs, removes⟩
  have early : ∀ thread, SameAccount (charged.thread thread) (queued.thread thread) :=
    fun thread => (woke.account thread).trans (queue.account thread)
  have ticks : queued.statsTick = charged.statsTick := queue.statsTick.trans woke.statsTick
  refine ⟨curr, member, running, charged, accounting, more, ?_,
    removes.finish early ticks returns⟩
  apply departs.imp id
  rintro ⟨found, listed, runsFound, leaving, isErase⟩
  have same : found = curr := Option.some.inj (runsFound.symm.trans stillRuns)
  subst same
  refine ⟨found, listed, running, ?_, isErase⟩
  exact (exits found).symm.trans ((early found).exitPending.symm.trans leaving)

end Removal

/-! ## What a SysTick does to the sums -/

section Sums

variable {linker : Linker} {threads : List ThreadPtr} {spare : List Nat}
  {kernel after : Machine} {curr : ThreadPtr} {cvr : Nat}

theorem total_erase (field : Thread → Nat) (kernel : Machine) (member : curr ∈ threads) :
    total field kernel threads =
      field (kernel.thread curr) + total field kernel (threads.erase curr) := by
  have split := (List.perm_cons_erase member).map fun thread => field (kernel.thread thread)
  exact split.sum_eq.trans List.sum_cons

/-- The sum grows by what the running thread is charged. -/
theorem total_charge {runtime : Nat} (nodup : threads.Nodup) (member : curr ∈ threads)
    (small : total Thread.runtimeNew kernel threads + runtime < 2 ^ 64) :
    total Thread.runtimeNew (charge kernel curr runtime) threads =
      total Thread.runtimeNew kernel threads + runtime := by
  have before := total_erase Thread.runtimeNew kernel member
  have after := total_erase Thread.runtimeNew (charge kernel curr runtime) member
  have rest : total Thread.runtimeNew (charge kernel curr runtime) (threads.erase curr) =
      total Thread.runtimeNew kernel (threads.erase curr) := by
    apply total_congr
    intro thread known
    have different : thread ≠ curr := fun same => nodup.not_mem_erase (same ▸ known)
    simp [charge, advance, KernelState.setThread, different]
  have own : ((charge kernel curr runtime).thread curr).runtimeNew =
      u64 ((kernel.thread curr).runtimeNew + runtime) := by
    simp [charge, advance, KernelState.setThread]
  have noWrap : u64 ((kernel.thread curr).runtimeNew + runtime) =
      (kernel.thread curr).runtimeNew + runtime := u64_of_lt (by omega)
  omega

/-- What is published is what was charged, and charging starts again from zero. -/
theorem total_closed (closed : Closed threads kernel after) :
    total Thread.runtimeCurr after threads = total Thread.runtimeNew kernel threads ∧
      ∀ thread ∈ threads, (after.thread thread).runtimeNew = 0 := by
  have fields : ∀ thread ∈ threads,
      after.thread thread = KernelState.closeWindow (kernel.thread thread) := closed.closed
  constructor
  · unfold total
    apply congrArg List.sum
    apply List.map_congr_left
    intro thread member
    rw [fields thread member]
    rfl
  · intro thread member
    rw [fields thread member]
    rfl

/-- What a SysTick charges and publishes, for the threads before it. -/
structure Charges (threads : List ThreadPtr) (kernel after : Machine) (cvr : Nat) : Prop where
  stays : ¬ Closes kernel cvr → after.statsTick = kernel.statsTick + slice kernel cvr ∧
    total Thread.runtimeNew after threads =
      total Thread.runtimeNew kernel threads + slice kernel cvr
  closes : Closes kernel cvr → after.statsTick = 0 ∧
    (∀ thread ∈ threads, (after.thread thread).runtimeNew = 0) ∧
    total Thread.runtimeCurr after threads =
      total Thread.runtimeNew kernel threads + slice kernel cvr

theorem closes_iff (bounded : kernel.statsTick < systickRvr * 1000) (inRange : cvr ≤ systickRvr) :
    Closes kernel cvr ↔ systickRvr * 1000 ≤ kernel.statsTick + slice kernel cvr := by
  have short := @slice_le_rvr kernel cvr inRange
  have noWrap : u64 (kernel.statsTick + slice kernel cvr) =
      kernel.statsTick + slice kernel cvr := by
    apply u64_of_lt
    simp only [systickRvr] at *
    omega
  rw [Closes, noWrap]

theorem charges_of_accountRuntime (tracks : Tracks linker threads spare kernel)
    (running : kernel.currThread = some curr) (member : curr ∈ threads)
    (bounded : kernel.statsTick < systickRvr * 1000) (inRange : cvr ≤ systickRvr)
    (small : total Thread.runtimeNew kernel threads < systickRvr * 1000)
    (returns : (accountRuntime cvr).run kernel = .ok () after) :
    Charges threads kernel after cvr := by
  have short := @slice_le_rvr kernel cvr inRange
  have nodup := List.Nodup.of_map _ tracks.list.listed.nodup
  have fits : total Thread.runtimeNew kernel threads + slice kernel cvr < 2 ^ 64 := by
    simp only [systickRvr] at *
    omega
  have ticks : u64 (kernel.statsTick + slice kernel cvr) =
      kernel.statsTick + slice kernel cvr := by
    apply u64_of_lt
    simp only [systickRvr] at *
    omega
  have charged := total_charge nodup member fits
  rcases run_accountRuntime tracks.list running cvr with ⟨_, runs, stays, closes⟩
  cases runs.symm.trans returns
  constructor
  · intro goesOn
    rw [stays goesOn]
    exact ⟨ticks, charged⟩
  · intro ends
    have closed := closes ends
    rcases total_closed closed with ⟨published, zero⟩
    refine ⟨?_, zero, published.trans charged⟩
    rw [closed.outside]

/-- The rest of the SysTick leaves the sums as they are. -/
theorem Charges.removes {charged : Machine} {more : List ThreadPtr}
    (charges : Charges threads kernel charged cvr)
    (removes : Removes linker more spare charged after) : Charges threads kernel after cvr := by
  have runtimeNew : total Thread.runtimeNew after threads =
      total Thread.runtimeNew charged threads :=
    total_congr fun thread _ => (removes.account thread).runtimeNew
  have runtimeCurr : total Thread.runtimeCurr after threads =
      total Thread.runtimeCurr charged threads :=
    total_congr fun thread _ => (removes.account thread).runtimeCurr
  constructor
  · intro stays
    rw [runtimeNew, removes.statsTick]
    exact charges.stays stays
  · intro closes
    rcases charges.closes closes with ⟨statsTick, zero, published⟩
    refine ⟨removes.statsTick.trans statsTick, ?_, runtimeCurr.trans published⟩
    exact fun thread member => (removes.account thread).runtimeNew.trans (zero thread member)

end Sums

/-! ## Statistics windows -/

/-- A thread is thrown out of the global list. -/
def Leaves (before after : Machine) : Prop :=
  ∃ thread, Listed before thread ∧ ¬ Listed after thread

/-- The cycles that an event charges to the running thread. -/
def cycles (kernel : Machine) : Event → Nat
  | .systick cvr => if kernel.schedulerStatus then slice kernel cvr else 0
  | _ => 0

/-- The event closes the statistics window. -/
def ClosesWindow (kernel : Machine) : Event → Prop
  | .systick cvr => kernel.schedulerStatus = true ∧ Closes kernel cvr
  | _ => False

/-- The system is in a statistics window that no thread has left in, the given
number of cycles after it opened. -/
inductive Window (linker : Linker) : Nat → System → Prop where
  | boot (memory : ByteMemory) : Window linker 0 (powerUp linker memory)
  | opened {before after : System} {event : Event} : Reachable linker before →
      Step before event after → ClosesWindow before.kernel event → Window linker 0 after
  | step {elapsed : Nat} {before after : System} {event : Event} :
      Window linker elapsed before → Step before event after →
      ¬ ClosesWindow before.kernel event → ¬ Leaves before.kernel after.kernel →
      Window linker (elapsed + cycles before.kernel event) after

/-- No thread is charged for time that has not passed in the window. -/
structure Balanced (linker : Linker) (threads : List ThreadPtr) (system : System) : Prop where
  tracks : Tracks linker threads system.spare system.kernel
  short : system.kernel.statsTick < systickRvr * 1000
  covered : total Thread.runtimeNew system.kernel threads ≤ system.kernel.statsTick

section Windows

variable {linker : Linker} {threads more : List ThreadPtr} {before after system : System}
  {event : Event} {cvr elapsed : Nat}

theorem Tracks.listed_iff {spare : List Nat} {kernel : Machine}
    (tracks : Tracks linker threads spare kernel) (thread : ThreadPtr) :
    Listed kernel thread ↔ thread ∈ threads := by
  constructor
  · rintro ⟨others, holds, member⟩
    have same := Represents.unique holds tracks.list.listed
    rwa [threadNode_injective.list_map same] at member
  · exact fun member => ⟨threads, tracks.list.listed, member⟩

/-- A removal that nobody notices has not happened. -/
theorem Tracks.same_of_remains {spare later : List Nat} {kernel next : Machine}
    (tracks : Tracks linker threads spare kernel) (nextTracks : Tracks linker more later next)
    (removed : Departs kernel threads more)
    (remains : ¬ Leaves kernel next) : more = threads := by
  apply removed.resolve_right
  rintro ⟨curr, member, _, _, isErase⟩
  have nodup := List.Nodup.of_map _ tracks.list.listed.nodup
  apply remains
  refine ⟨curr, (tracks.listed_iff curr).mpr member, ?_⟩
  rw [nextTracks.listed_iff, isErase]
  exact nodup.not_mem_erase

theorem inRange_of_step (step : Step before (.systick cvr) after) : cvr ≤ systickRvr := by
  cases step with
  | intro enabled _ => exact enabled.2

/-- A SysTick while the scheduler is suspended does nothing. -/
theorem systick_suspended (step : Step before (.systick cvr) after)
    (suspended : before.kernel.schedulerStatus = false) :
    after = { before with kernel := { before.kernel with systickPending := false } } := by
  cases step with
  | intro enabled returns =>
      rcases run_zoom_inv returns with ⟨kernel, runs, same⟩
      rw [run_bind_of_ok (run_enterSystick _), systickException, run_bind_of_ok (EStateM.run_get _),
        if_neg (by simp [suspended])] at runs
      cases runs
      exact same

/-- Only a SysTick charges. -/
theorem cycles_quiet (kernel : Machine) (quiet : ∀ cvr, event ≠ .systick cvr) :
    cycles kernel event = 0 := by
  cases event with
  | systick cvr => exact absurd rfl (quiet cvr)
  | _ => rfl

theorem Balanced.suspended (balanced : Balanced linker threads before)
    (step : Step before (.systick cvr) after)
    (suspended : before.kernel.schedulerStatus = false) : Balanced linker threads after := by
  rw [systick_suspended step suspended]
  refine ⟨?_, balanced.short, balanced.covered⟩
  exact balanced.tracks.adjust rfl rfl rfl balanced.tracks.still.idle balanced.tracks.curr
    balanced.tracks.next

theorem Balanced.systick (balanced : Balanced linker threads before)
    (step : Step before (.systick cvr) after) (status : before.kernel.schedulerStatus = true) :
    Charges threads before.kernel after.kernel cvr ∧
      ∃ more, Tracks linker more after.spare after.kernel ∧
        Departs before.kernel threads more := by
  cases step with
  | intro enabled returns =>
      rcases run_zoom_inv returns with ⟨kernel, runs, same⟩
      subst same
      rw [run_bind_of_ok (run_enterSystick _)] at runs
      have entered : Tracks linker threads before.spare
          { before.kernel with systickPending := false } :=
        balanced.tracks.adjust rfl rfl rfl balanced.tracks.still.idle balanced.tracks.curr
          balanced.tracks.next
      rcases entered.systick status runs with
        ⟨curr, member, running, charged, accounts, more, departs, removes⟩
      have small : total Thread.runtimeNew { before.kernel with systickPending := false } threads <
          systickRvr * 1000 := balanced.covered.trans_lt balanced.short
      have charges := charges_of_accountRuntime entered running member balanced.short enabled.2
        small accounts
      have final := charges.removes removes
      exact ⟨⟨final.stays, final.closes⟩, more, removes.tracks, departs⟩

/-- Threads that leave take what they were charged with them. -/
theorem total_le {kernel : Machine} (removed : Departs kernel threads more) (next : Machine) :
    total Thread.runtimeNew next more ≤ total Thread.runtimeNew next threads := by
  rcases removed with same | ⟨curr, member, _, _, same⟩
  · rw [same]
  · rw [same, total_erase Thread.runtimeNew next member]
    exact Nat.le_add_left ..

theorem Balanced.step (balanced : Balanced linker threads before)
    (step : Step before event after) : ∃ more, Balanced linker more after := by
  by_cases tick : ∃ cvr, event = .systick cvr
  · rcases tick with ⟨cvr, rfl⟩
    cases status : before.kernel.schedulerStatus with
    | false => exact ⟨threads, balanced.suspended step status⟩
    | true =>
        have inRange := inRange_of_step step
        rcases balanced.systick step status with ⟨charges, more, tracks, removed⟩
        have fewer := total_le removed after.kernel
        by_cases closes : Closes before.kernel cvr
        · rcases charges.closes closes with ⟨statsTick, zero, _⟩
          have nothing : total Thread.runtimeNew after.kernel threads = 0 :=
            List.sum_eq_zero fun value member => by
              rcases List.mem_map.mp member with ⟨thread, known, rfl⟩
              exact zero thread known
          refine ⟨more, tracks, ?_, ?_⟩
          · rw [statsTick]
            simp [systickRvr]
          · omega
        · have stays := charges.stays closes
          rw [closes_iff balanced.short inRange] at closes
          have covered := balanced.covered
          refine ⟨more, tracks, ?_, ?_⟩ <;> omega
  · have notTick : ∀ cvr, event ≠ .systick cvr := fun cvr same => tick ⟨cvr, same⟩
    rcases balanced.tracks.uncharged step notTick with ⟨more, tracks, _, sum, statsTick⟩
    refine ⟨more, tracks, statsTick ▸ balanced.short, ?_⟩
    rw [sum, statsTick]
    exact balanced.covered

theorem balanced_powerUp (linker : Linker) (memory : ByteMemory) :
    Balanced linker [] (powerUp linker memory) where
  tracks := {
    list := {
      listed := (bootModel_rep linker memory).refines.represents .threads
      unlisted := fun _ _ => ⟨rfl, rfl⟩
      named := fun _ member => by cases member }
    below := fun _ member => by cases member
    still := undisturbed_self
      ⟨fun _ _ => rfl, rfl, fun _ => rfl, fun _ _ => leadsToRq_none, fun _ _ => leadsToRq_none,
        fun _ _ => leadsToRq_none, fun _ _ => leadsToRq_none⟩
      (fun _ _ found => by cases found) (fun _ => by simp [powerUp, boot])
      fun _ found => by cases found
    curr := fun _ found => by cases found
    next := fun _ found => by cases found
    memory := ⟨[], _, represents_init linker memory, .nil⟩ }
  short := by simp [powerUp, boot, systickRvr]
  covered := Nat.zero_le _

theorem balanced_reachable (reachable : Reachable linker system) :
    ∃ threads, Balanced linker threads system := by
  rcases reachable with ⟨memory, events, run⟩
  apply run.invariant fun system => ∃ threads, Balanced linker threads system
  · rintro before event after ⟨threads, balanced⟩ step
    exact balanced.step step
  · exact ⟨[], balanced_powerUp linker memory⟩

/-- Within a window that nobody has left, every cycle is charged to somebody. -/
theorem Window.exact (window : Window linker elapsed system) :
    ∃ threads, Balanced linker threads system ∧
      total Thread.runtimeNew system.kernel threads = elapsed ∧
      system.kernel.statsTick = elapsed := by
  induction window with
  | boot memory => exact ⟨[], balanced_powerUp linker memory, rfl, rfl⟩
  | @opened before after event reachable step closes =>
      rcases balanced_reachable reachable with ⟨threads, balanced⟩
      cases event with
      | systick cvr =>
          rcases balanced.systick step closes.1 with ⟨charges, _⟩
          have statsTick := (charges.closes closes.2).1
          rcases balanced.step step with ⟨more, kept⟩
          have covered := kept.covered
          exact ⟨more, kept, by omega, statsTick⟩
      | _ => exact closes.elim
  | @step elapsed before after event window step stays remains induction =>
      rcases induction with ⟨threads, balanced, sum, statsTick⟩
      by_cases tick : ∃ cvr, event = .systick cvr
      · rcases tick with ⟨cvr, rfl⟩
        cases status : before.kernel.schedulerStatus with
        | false =>
            have nothing : cycles before.kernel (.systick cvr) = 0 := by
              simp [cycles, status]
            have kept := balanced.suspended step status
            rw [systick_suspended step status] at kept ⊢
            rw [nothing, Nat.add_zero]
            exact ⟨threads, kept, sum, statsTick⟩
        | true =>
            rcases balanced.systick step status with ⟨charges, more, tracks, removed⟩
            rcases charges.stays fun closes => stays ⟨status, closes⟩ with ⟨ticks, charged⟩
            have same := balanced.tracks.same_of_remains tracks removed remains
            rcases balanced.step step with ⟨others, kept⟩
            have equal : others = threads := by
              have unique := Represents.unique kept.tracks.list.listed tracks.list.listed
              rw [← same]
              exact threadNode_injective.list_map unique
            rw [equal] at kept
            have cyclesEq : cycles before.kernel (.systick cvr) = slice before.kernel cvr := by
              simp [cycles, status]
            rw [cyclesEq]
            exact ⟨threads, kept, by omega, by omega⟩
      · have notTick : ∀ cvr, event ≠ .systick cvr := fun cvr same => tick ⟨cvr, same⟩
        rcases balanced.tracks.uncharged step notTick with
          ⟨more, tracks, _, newSum, newStatsTick⟩
        rw [cycles_quiet before.kernel notTick, Nat.add_zero]
        refine ⟨more, ⟨tracks, newStatsTick ▸ balanced.short, ?_⟩, newSum.trans sum,
          newStatsTick.trans statsTick⟩
        rw [newSum, newStatsTick]
        exact balanced.covered

/-- Between two SysTicks a window only gets new threads. -/
theorem Window.calls (window : Window linker elapsed before) {events : List Event}
    (run : Run Step before events after)
    (quiet : ∀ event ∈ events, ∀ cvr, event ≠ .systick cvr) : Window linker elapsed after := by
  induction run with
  | nil => exact window
  | @cons first middle last event events step _ induction =>
      have notTick := quiet event List.mem_cons_self
      apply induction _ fun other member => quiet other (List.mem_cons_of_mem _ member)
      rcases window.exact with ⟨threads, balanced, _⟩
      rcases balanced.tracks.uncharged step notTick with ⟨more, tracks, stay, _⟩
      have remains : ¬ Leaves first.kernel middle.kernel := by
        rintro ⟨thread, listed, gone⟩
        rw [tracks.listed_iff] at gone
        exact gone (stay thread ((balanced.tracks.listed_iff thread).mp listed))
      have notCloses : ¬ ClosesWindow first.kernel event := by
        cases event with
        | systick cvr => exact absurd rfl (notTick cvr)
        | _ => exact id
      have later := window.step step notCloses remains
      rwa [cycles_quiet first.kernel notTick] at later

/-- Everything since the window opened is charged, to threads of the global list. -/
structure Conserved (elapsed : Nat) (kernel : Machine) : Prop where
  charged : ∃ threads, Holds kernel .threads threads ∧
    total Thread.runtimeNew kernel threads = kernel.statsTick
  statsTick : kernel.statsTick = elapsed
  short : kernel.statsTick < 1000 * systickRvr

/-- A whole window is published, over the threads that are listed when it closes. -/
structure Published (length : Nat) (before after : Machine) : Prop where
  published : ∃ threads, Holds before .threads threads ∧
    (¬ Leaves before after → Holds after .threads threads) ∧
    total Thread.runtimeCurr after threads = length
  long : 1000 * systickRvr ≤ length
  short : length < 1001 * systickRvr

/-- In every run, as long as no thread leaves in a window, the time the threads
are charged is the time that has passed, and that is what is published. -/
theorem run_time_conserved (window : Window linker elapsed system) :
    Conserved elapsed system.kernel ∧
      ∀ event after, Step system event after → ClosesWindow system.kernel event →
        Published (elapsed + cycles system.kernel event) system.kernel after.kernel := by
  rcases window.exact with ⟨threads, balanced, sum, statsTick⟩
  have short := balanced.short
  rw [Nat.mul_comm] at short
  refine ⟨⟨⟨threads, balanced.tracks.list.listed, sum.trans statsTick.symm⟩, statsTick, short⟩, ?_⟩
  intro event after step closes
  cases event with
  | systick cvr =>
      have inRange := inRange_of_step step
      rcases closes with ⟨status, closes⟩
      rcases balanced.systick step status with ⟨charges, more, tracks, removed⟩
      rcases charges.closes closes with ⟨_, _, published⟩
      have cyclesEq : cycles system.kernel (.systick cvr) = slice system.kernel cvr := by
        simp [cycles, status]
      have bound := @slice_le_rvr system.kernel cvr inRange
      rw [closes_iff balanced.short inRange, statsTick, Nat.mul_comm] at closes
      rw [statsTick] at short
      rw [cyclesEq]
      refine ⟨⟨threads, balanced.tracks.list.listed, ?_, published.trans (by rw [sum])⟩, closes, ?_⟩
      · intro remains
        rw [← balanced.tracks.same_of_remains tracks removed remains]
        exact tracks.list.listed
      · rw [Nat.succ_mul 1000 systickRvr]
        exact Nat.add_lt_add_of_lt_of_le short bound
  | _ => exact closes.elim

/-- The first window, after one whole slice of the first of two threads. -/
theorem run_time_conserved_slice : ∃ system : System, Conserved 300000 system.kernel := by
  have notIdle : SchedClass.application ≠ .idle := by decide
  rcases two_threads notIdle ⟨fun _ => 0, []⟩ with ⟨lists, model, run, _, _, _, two⟩
  have quiet : ∀ event ∈ twoThreadEvents .application, ∀ cvr, event ≠ .systick cvr := by
    simp [twoThreadEvents]
  have start : Window lowHeap 0 (powerUp lowHeap ⟨fun _ => 0, []⟩) := .boot _
  have window := start.calls (run_of_allowed run) quiet
  have enabled : Enabled ⟨model.withLists lists, []⟩ (.systick 0) :=
    ⟨two.systickEnabled, Nat.zero_le _⟩
  have curr : ∀ found, model.currThread = some found → found = 0x70100008 := fun found same =>
    (Option.some.inj (two.currThread.symm.trans same)).symm
  have stays : (model.thread 0x70100008).exitPending = false := by
    rw [two.first]
  have allowed : Allowed (model.withLists lists) (.systick 0) := by
    refine ⟨?_, ?_, ?_⟩
    · intro pending
      cases two.pendsvPending.symm.trans pending
    · intro found _
      have never : (model.withLists lists).rqTickToWake = 0 := two.rqTickToWake
      simp [woken, never]
    · intro found running leaving
      rw [curr found running] at leaving
      cases stays.symm.trans leaving
  rcases returns_of_run run enabled allowed rfl with ⟨after, returns⟩
  have step : Step ⟨model.withLists lists, []⟩ (.systick 0) after := .intro enabled returns
  have whole : slice (model.withLists lists) 0 = 300000 := by
    have never : (model.withLists lists).reschedulePending = false := two.reschedulePending
    simp [slice, never, systickRvr]
  have ticks : (model.withLists lists).statsTick = 0 := two.statsTick
  have notCloses : ¬ ClosesWindow (model.withLists lists) (.systick 0) := by
    intro closes
    have ends := closes.2
    rw [Closes, whole, ticks] at ends
    exact absurd ends (by decide)
  have remains : ¬ Leaves (model.withLists lists) after.kernel := by
    rcases window.exact with ⟨threads, balanced, _⟩
    rcases balanced.systick step two.schedulerStatus with ⟨_, more, tracks, departs⟩
    have same : more = threads := by
      apply departs.resolve_right
      rintro ⟨found, _, running, leaving, _⟩
      rw [curr found running] at leaving
      cases stays.symm.trans leaving
    rintro ⟨thread, listed, gone⟩
    rw [tracks.listed_iff, same] at gone
    exact gone ((balanced.tracks.listed_iff thread).mp listed)
  have charged : cycles (model.withLists lists) (.systick 0) = 300000 := by
    have status : (model.withLists lists).schedulerStatus = true := two.schedulerStatus
    simp [cycles, status, whole]
  have later := window.step step notCloses remains
  rw [charged] at later
  exact ⟨after, (run_time_conserved later).1⟩

end Windows

end Vanilla.Kernel
