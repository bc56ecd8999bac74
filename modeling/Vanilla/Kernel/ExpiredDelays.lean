import Vanilla.Kernel.Dispatch

/-! # What `process_expired_delays` leaves asleep

The loop follows the link of a thread that it has just moved to the end of a run
queue, so it ends after the first one.
-/

namespace Vanilla.Kernel

/-- Once in the run queue of its class; the idle class has none, but a pointer. -/
def InClassQueue (kernel : Machine) (thread : ThreadPtr) : Prop :=
  match KernelState.runQueue (kernel.thread thread).schedClass with
  | some queue => ∃ threads, Holds kernel queue threads ∧ threads.count thread = 1
  | none => kernel.idle = some thread

/-- Every expired thread is ready, and all the others stay where they were. -/
structure DelaysProcessed (before after : Machine) (sleepers : List ThreadPtr) : Prop where
  asleep : Holds after .sleepQ (sleepers.filter fun thread =>
    decide (before.tick ≤ (before.thread thread).tickToWake))
  kept : ∀ thread ∈ sleepers, before.tick ≤ (before.thread thread).tickToWake →
    after.thread thread = before.thread thread
  woken : ∀ thread ∈ sleepers, (before.thread thread).tickToWake < before.tick →
    (after.thread thread).tickToWake = 0 ∧ InClassQueue after thread
  order : ∀ queue threads, queue ≠ .sleepQ → Holds before queue threads →
    ∃ added, Holds after queue (threads ++ added)

def WakesExpired (lists : KernelLists) (model : Model) : Prop :=
  ∃ after, processExpiredDelays.run (model.withLists lists) = .ok () after ∧
    DelaysProcessed (model.withLists lists) after (model.queue .sleepQ)

namespace KernelState

def expiredThreads (model : Model) : List ThreadPtr :=
  (model.queue .sleepQ).filter fun thread =>
    decide ((model.thread thread).tickToWake < model.tick)

/-- The sleep queue is sorted and `tick_to_wake` is that of its first thread. -/
structure SleepOrder (model : Model) : Prop where
  sorted : (model.queue .sleepQ).Pairwise fun left right =>
    (model.thread left).tickToWake ≤ (model.thread right).tickToWake
  first : ∀ thread, (model.queue .sleepQ).head? = some thread →
    model.rqTickToWake = (model.thread thread).tickToWake

variable {model : Model} {head : ThreadPtr} {rest : List ThreadPtr}

theorem expired_cons (split : model.queue .sleepQ = head :: rest)
    (first : model.rqTickToWake = (model.thread head).tickToWake) :
    model.expired = if (model.thread head).tickToWake < model.tick ∧
      (model.thread head).tickToWake ≠ 0 then some head else none := by
  rw [expired, split, first, List.head?_cons]
  by_cases due : (model.thread head).tickToWake < model.tick
  · by_cases zero : (model.thread head).tickToWake = 0
    · rw [if_neg fun both => both.2 zero, if_neg fun both => both.2 zero]
    · rw [if_pos ⟨due.le, zero⟩, if_pos ⟨due, zero⟩]
      simp [Option.filter, due]
  · rw [if_neg fun both : _ ∧ _ => due both.1]
    simp [Option.filter, due]

/-- When some thread is expired, the first one is. -/
theorem SleepOrder.head_expired (order : model.SleepOrder)
    (split : model.queue .sleepQ = head :: rest) {thread : ThreadPtr}
    (member : thread ∈ model.expiredThreads) :
    (model.thread head).tickToWake < model.tick := by
  have sorted := order.sorted
  rw [expiredThreads, split, List.mem_filter, decide_eq_true_iff] at member
  rw [split, List.pairwise_cons] at sorted
  cases List.mem_cons.mp member.1 with
  | inl same => exact same ▸ member.2
  | inr later => exact Nat.lt_of_le_of_lt (sorted.1 thread later) member.2

theorem expiredThreads_cons (split : model.queue .sleepQ = head :: rest)
    (due : (model.thread head).tickToWake < model.tick) :
    model.expiredThreads = head :: rest.filter fun thread =>
      decide ((model.thread thread).tickToWake < model.tick) := by
  rw [expiredThreads, split, List.filter_cons_of_pos (by simpa using due)]

end KernelState

section Processed

variable {lists final : KernelLists} {model : Model} {thread : ThreadPtr}

/-- Nobody is expired, and nobody is woken. -/
theorem delaysProcessed_none (rep : ListsRep lists model.lists)
    (finalRep : ListsRep final model.processExpiredDelays.lists)
    (asleep : model.expired = none) (none : model.expiredThreads = []) :
    DelaysProcessed (model.withLists lists) (model.processExpiredDelays.withLists final)
      (model.queue .sleepQ) := by
  obtain ⟨sameLists, sameThreads⟩ := model.processExpiredDelays_none asleep
  have queues : ∀ queue, model.processExpiredDelays.queue queue = model.queue queue := by
    intro queue
    simp only [KernelState.queue, sameLists]
  have pending : ∀ thread ∈ model.queue .sleepQ,
      model.tick ≤ (model.thread thread).tickToWake := by
    intro thread member
    by_contra due
    have expired : thread ∈ model.expiredThreads :=
      List.mem_filter.mpr ⟨member, decide_eq_true (Nat.not_le.mp due)⟩
    rw [none] at expired
    cases expired
  constructor
  · rw [holds_iff finalRep, queues]
    symm
    apply List.filter_eq_self.mpr
    exact fun thread member => decide_eq_true (pending thread member)
  · intro thread _ _
    change model.processExpiredDelays.thread thread = model.thread thread
    rw [sameThreads]
  · intro thread member due
    exact absurd (pending thread member) (Nat.not_le.mpr due)
  · intro queue threads _ holds
    refine ⟨[], ?_⟩
    rw [List.append_nil, holds_iff finalRep, queues]
    exact (holds_iff rep queue threads).mp holds

/-- A woken thread is in the queue of its class. -/
theorem wake_inClassQueue (rep : ListsRep lists model.lists)
    (finalRep : ListsRep final model.processExpiredDelays.lists)
    (member : thread ∈ model.queue .sleepQ) (expired : model.expired = some thread) :
    InClassQueue (model.processExpiredDelays.withLists final) thread := by
  have identity := @KernelState.processExpiredDelays_identity model thread
  have same : ((model.processExpiredDelays.withLists final).thread thread).schedClass =
      (model.thread thread).schedClass := identity.schedClass
  rw [InClassQueue, same]
  cases runs : KernelState.runQueue (model.thread thread).schedClass with
  | none =>
      change model.processExpiredDelays.idle = some thread
      rw [KernelState.processExpiredDelays_eq, expired]
      have idle : (model.wake thread).idle = some thread := by
        rw [KernelState.wake_eq, KernelState.enqueue, KernelState.thread_setThread_self,
          KernelState.remove_thread]
        simp only [runs]
      cases split : (model.wake thread).queue .sleepQ <;>
        simp [KernelState.tickToWakeUpdate, split, idle]
  | some queue =>
      have running : queue.Running := by
        intro global
        exact KernelState.runQueue_ne_threads _ (global ▸ runs)
      have different : queue ≠ .sleepQ := by
        intro sleeps
        exact KernelState.runQueue_ne_sleepQ _ (sleeps ▸ runs)
      have absent : thread ∉ model.queue queue := fun inQueue =>
        different (rep.apart running (by simp [QueueId.Running]) inQueue member)
      refine ⟨model.queue queue ++ [thread], ?_, ?_⟩
      · rw [holds_iff finalRep, KernelState.processExpiredDelays_queue, expired]
        simp only
        rw [KernelState.wake_queue, if_pos runs]
      · rw [List.count_append, List.count_eq_zero_of_not_mem absent, List.count_singleton_self]

/-- The first sleeper is woken, and no other is expired. -/
theorem delaysProcessed_first (rep : ListsRep lists model.lists)
    (finalRep : ListsRep final model.processExpiredDelays.lists) {rest : List ThreadPtr}
    (split : model.queue .sleepQ = thread :: rest) (expired : model.expired = some thread)
    (single : model.expiredThreads = [thread]) :
    DelaysProcessed (model.withLists lists) (model.processExpiredDelays.withLists final)
      (model.queue .sleepQ) := by
  have member : thread ∈ model.queue .sleepQ := split ▸ List.mem_cons_self
  have nodup := rep.nodup .sleepQ
  rw [split, List.nodup_cons] at nodup
  have only : ∀ other ∈ model.queue .sleepQ, (model.thread other).tickToWake < model.tick →
      other = thread := by
    intro other known due
    have inExpired : other ∈ model.expiredThreads :=
      List.mem_filter.mpr ⟨known, decide_eq_true due⟩
    rw [single] at inExpired
    exact List.mem_singleton.mp inExpired
  have due : (model.thread thread).tickToWake < model.tick := by
    have inExpired : thread ∈ model.expiredThreads := single ▸ List.mem_cons_self
    exact of_decide_eq_true (List.mem_filter.mp inExpired).2
  have queues := model.processExpiredDelays_queue
  simp only [expired] at queues
  constructor
  · rw [holds_iff finalRep, queues, KernelState.wake_queue,
      if_neg (KernelState.runQueue_ne_sleepQ _), if_pos rfl, split, List.erase_cons_head]
    change rest = List.filter (fun other => decide (model.tick ≤ (model.thread other).tickToWake))
      (thread :: rest)
    rw [List.filter_cons_of_neg (by simpa using due)]
    symm
    apply List.filter_eq_self.mpr
    intro other later
    apply decide_eq_true
    by_contra expired
    have same := only other (split ▸ List.mem_cons_of_mem _ later) (Nat.not_le.mp expired)
    exact nodup.1 (same ▸ later)
  · intro other _ pending
    have different : other ≠ thread := by
      intro same
      rw [same] at pending
      exact absurd due (Nat.not_lt.mpr pending)
    change model.processExpiredDelays.thread other = model.thread other
    apply KernelState.processExpiredDelays_thread
    rw [expired]
    exact fun same => different (Option.some.inj same).symm
  · intro other known late
    have same := only other known late
    subst same
    refine ⟨?_, wake_inClassQueue rep finalRep member expired⟩
    change (model.processExpiredDelays.thread other).tickToWake = 0
    rw [(KernelState.processExpiredDelays_some expired).2]
    exact KernelState.wake_tick model other
  · intro queue threads notSleep holds
    rw [holds_iff rep] at holds
    subst holds
    by_cases runs : KernelState.runQueue (model.thread thread).schedClass = some queue
    · refine ⟨[thread], ?_⟩
      rw [holds_iff finalRep, queues, KernelState.wake_queue, if_pos runs]
    · refine ⟨[], ?_⟩
      rw [List.append_nil, holds_iff finalRep, queues, KernelState.wake_queue, if_neg runs,
        if_neg notSleep]

end Processed

section Condition

variable {lists : KernelLists} {model : Model} (rep : ListsRep lists model.lists)
  (ready : Ready model) (order : model.SleepOrder)

include rep ready order

/-- A sleeper behind the first, or one with tick 0, is not woken. -/
theorem one_expired_of_wakes (wakes : WakesExpired lists model) :
    model.expiredThreads = [] ∨
      ∃ thread, model.expiredThreads = [thread] ∧ (model.thread thread).tickToWake ≠ 0 := by
  obtain ⟨final, returns, finalRep⟩ := takes_processExpiredDelays rep ready
  obtain ⟨after, returns', processed⟩ := wakes
  rw [returns] at returns'
  cases returns'
  cases split : model.queue .sleepQ with
  | nil =>
      rw [KernelState.expiredThreads, split]
      exact .inl rfl
  | cons head rest =>
      by_cases none : model.expiredThreads = []
      · exact .inl none
      · obtain ⟨thread, member⟩ := List.exists_mem_of_ne_nil _ none
        have due := order.head_expired split member
        have expired := KernelState.expired_cons split (order.first head (by rw [split]; rfl))
        have left := (holds_iff finalRep _ _).mp processed.asleep
        change model.processExpiredDelays.queue .sleepQ = List.filter
          (fun thread => decide (model.tick ≤ (model.thread thread).tickToWake))
            (model.queue .sleepQ) at left
        rw [split, List.filter_cons_of_neg (by simpa using due),
          KernelState.processExpiredDelays_queue] at left
        by_cases zero : (model.thread head).tickToWake = 0
        · -- the guard takes tick 0 for an empty queue
          rw [if_neg fun both => both.2 zero] at expired
          simp only [expired, split] at left
          have shorter := congrArg List.length left
          have bound := List.length_filter_le
            (fun thread => decide (model.tick ≤ (model.thread thread).tickToWake)) rest
          rw [List.length_cons] at shorter
          omega
        · rw [if_pos ⟨due, zero⟩] at expired
          simp only [expired] at left
          rw [KernelState.wake_queue, if_neg (KernelState.runQueue_ne_sleepQ _), if_pos rfl,
            split, List.erase_cons_head] at left
          refine .inr ⟨head, ?_, zero⟩
          rw [KernelState.expiredThreads_cons split due, List.filter_eq_nil_iff.mpr]
          intro other later
          rw [left] at later
          have pending := of_decide_eq_true (List.mem_filter.mp later).2
          simpa using pending

theorem wakes_of_none_expired (none : model.expiredThreads = []) : WakesExpired lists model := by
  obtain ⟨final, returns, finalRep⟩ := takes_processExpiredDelays rep ready
  refine ⟨_, returns, delaysProcessed_none rep finalRep ?_ none⟩
  cases split : model.queue .sleepQ with
  | nil => simp [KernelState.expired, split]
  | cons head rest =>
      rw [KernelState.expired_cons split (order.first head (by rw [split]; rfl)), if_neg]
      intro both
      rw [KernelState.expiredThreads_cons split both.1] at none
      cases none

theorem wakes_of_one_expired {thread : ThreadPtr} (single : model.expiredThreads = [thread])
    (notZero : (model.thread thread).tickToWake ≠ 0) : WakesExpired lists model := by
  obtain ⟨final, returns, finalRep⟩ := takes_processExpiredDelays rep ready
  cases split : model.queue .sleepQ with
  | nil =>
      rw [KernelState.expiredThreads, split] at single
      cases single
  | cons head rest =>
      have due := order.head_expired split (single ▸ List.mem_cons_self)
      have same : head = thread := by
        rw [KernelState.expiredThreads_cons split due] at single
        exact (List.cons.inj single).1
      subst same
      have expired := KernelState.expired_cons split (order.first head (by rw [split]; rfl))
      rw [if_pos ⟨due, notZero⟩] at expired
      have processed := delaysProcessed_first rep finalRep split expired single
      exact ⟨_, returns, processed⟩

end Condition

/-- Every expired thread is woken, and the others stay in order, exactly when at
most one is expired, and not with tick 0. -/
theorem process_expired_delays_iff {lists : KernelLists} {model : Model}
    (rep : ListsRep lists model.lists) (ready : Ready model) (order : model.SleepOrder) :
    WakesExpired lists model ↔
      model.expiredThreads = [] ∨
        ∃ thread, model.expiredThreads = [thread] ∧ (model.thread thread).tickToWake ≠ 0 := by
  constructor
  · exact one_expired_of_wakes rep ready order
  · intro condition
    cases condition with
    | inl none => exact wakes_of_none_expired rep ready order none
    | inr one =>
        obtain ⟨thread, single, notZero⟩ := one
        exact wakes_of_one_expired rep ready order single notZero

/-! ## Two sleepers -/

/-- Both threads of a started machine sleep until tick 1, and it is tick 2. -/
def sleepingModel (started : Model) : Model :=
  let ticked := fun fields : Thread => { fields with tickToWake := 1 }
  let model := ((started.remove .rtRq 0x70100410).append .sleepQ 0x70100008).append
    .sleepQ 0x70100410
  { (model.setThread 0x70100008 ticked).setThread 0x70100410 ticked with
    tick := 2, rqTickToWake := 1 }

theorem two_sleepers : ∃ lists model, ListsRep lists model.lists ∧ Ready model ∧
    model.SleepOrder ∧ model.expiredThreads = [0x70100008, 0x70100410] := by
  obtain ⟨lists, started, _, rep, sound, _, two⟩ :=
    @two_threads .realTime (by decide) ⟨fun _ => 0, []⟩
  have running : QueueId.sleepQ.Running := by simp [QueueId.Running]
  have readyRunning : QueueId.rtRq.Running := by simp [QueueId.Running]
  have queued : started.queue .rtRq = [0x70100410] := by rw [two.queues]; rfl
  have global : started.queue .threads = [0x70100818, 0x70100410, 0x70100008] := by
    rw [two.queues]
    rfl
  have removed := takes_remove rep (show 0x70100410 ∈ started.queue .rtRq by simp [queued])
  obtain ⟨lists1, _, rep1⟩ := removed
  have queues1 : ∀ queue : QueueId, queue.Running →
      (started.remove .rtRq 0x70100410).queue queue = [] := by
    intro queue queueRunning
    cases queue with
    | threads => exact absurd rfl queueRunning
    | rtRq => rw [KernelState.remove_queue_self, queued]; rfl
    | _ => rw [KernelState.remove_queue_of_ne _ _ (by simp), two.queues]; rfl
  have first : (started.remove .rtRq 0x70100410).Unqueued 0x70100008 := by
    intro queue queueRunning member
    rw [queues1 queue queueRunning] at member
    cases member
  have inserted := takes_insertLast rep1 running first (by rw [queues1 _ running]; decide)
  obtain ⟨lists2, _, rep2⟩ := inserted
  have sleeping : ((started.remove .rtRq 0x70100410).append .sleepQ 0x70100008).queue .sleepQ =
      [0x70100008] := by
    rw [KernelState.append, KernelState.queue_setQueue_self, queues1 _ running]
    rfl
  have second : ((started.remove .rtRq 0x70100410).append .sleepQ 0x70100008).Unqueued
      0x70100410 := by
    intro queue queueRunning member
    by_cases sleeps : queue = .sleepQ
    · rw [sleeps, sleeping] at member
      exact absurd (List.mem_singleton.mp member) (by decide)
    · rw [KernelState.append, KernelState.queue_setQueue_of_ne _ _ _ _ sleeps,
        queues1 queue queueRunning] at member
      cases member
  have both := takes_insertLast rep2 running second (by rw [sleeping]; decide)
  obtain ⟨lists3, _, rep3⟩ := both
  have asleep : (sleepingModel started).queue .sleepQ = [0x70100008, 0x70100410] := by
    change (((started.remove .rtRq 0x70100410).append .sleepQ 0x70100008).append
      .sleepQ 0x70100410).queue .sleepQ = _
    rw [KernelState.append, KernelState.queue_setQueue_self, sleeping]
    rfl
  have tick : ∀ thread ∈ [0x70100008, 0x70100410],
      ((sleepingModel started).thread thread).tickToWake = 1 := by
    intro thread member
    cases List.mem_cons.mp member with
    | inl same => simp [same, sleepingModel, KernelState.setThread]
    | inr same => simp [List.mem_singleton.mp same, sleepingModel, KernelState.setThread]
  refine ⟨lists3, sleepingModel started, rep3, ?_, ⟨?_, ?_⟩, ?_⟩
  · have known1 : 0x70100008 ∈ (started.remove .rtRq 0x70100410).queue .threads := by
      rw [KernelState.remove_queue_of_ne _ _ (by simp), global]
      decide
    have known2 : 0x70100410 ∈ ((started.remove .rtRq 0x70100410).append .sleepQ
        0x70100008).queue .threads := by
      rw [KernelState.append, KernelState.queue_setQueue_of_ne _ _ _ _ (by simp),
        KernelState.remove_queue_of_ne _ _ (by simp), global]
      decide
    have ready := ((sound.placed.ready.remove readyRunning).append running known1).append
      running known2
    exact ready.of_lists rfl
  · rw [asleep]
    apply List.pairwise_of_forall_mem_list
    intro left leftMember right rightMember
    rw [tick left leftMember, tick right rightMember]
  · intro thread head
    rw [asleep] at head
    cases head
    rw [tick _ (by decide)]
    rfl
  · rw [KernelState.expiredThreads, asleep]
    apply List.filter_eq_self.mpr
    intro thread member
    rw [tick thread member]
    rfl

theorem process_expired_delays_iff_two : ∃ lists model,
    model.expiredThreads = [0x70100008, 0x70100410] ∧
      (WakesExpired lists model ↔ model.expiredThreads = [] ∨
        ∃ thread, model.expiredThreads = [thread] ∧ (model.thread thread).tickToWake ≠ 0) :=
  Exists.elim two_sleepers fun lists rest => Exists.elim rest fun model facts =>
    ⟨lists, model, facts.2.2.2, process_expired_delays_iff facts.1 facts.2.1 facts.2.2.1⟩

/-- Of two expired threads, one stays asleep. -/
theorem second_sleeper_stays : ∃ lists model, ListsRep lists model.lists ∧ Ready model ∧
    model.SleepOrder ∧ ¬ WakesExpired lists model := by
  obtain ⟨lists, model, rep, ready, order, expired⟩ := two_sleepers
  refine ⟨lists, model, rep, ready, order, ?_⟩
  intro wakes
  have one := one_expired_of_wakes rep ready order wakes
  rw [expired] at one
  cases one with
  | inl none => cases none
  | inr single =>
      obtain ⟨thread, single, _⟩ := single
      cases single

end Vanilla.Kernel
