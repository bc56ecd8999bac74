import Mathlib.Data.Finset.Card
import Mathlib.Data.Finset.Range
import Vanilla.Kernel.Simulation

/-! # Each function of the scheduler follows its model

A function needs no more than that the queues hold known threads, and that a
thread it inserts is in no queue yet.
-/

namespace Vanilla.Kernel

open Mm DlistStore

/-- The threads of every queue are in the global list, and their nodes lead
back to their control blocks. -/
structure Ready (model : Model) : Prop where
  known : ∀ queue, ∀ thread ∈ model.queue queue, thread ∈ model.queue .threads
  objects : ∀ thread ∈ model.queue .threads, ∀ field,
    model.lists.obj ⟨thread, field⟩ = some thread
  addresses : ∀ thread ∈ model.queue .threads, thread < 2 ^ 31

theorem length_le_of_nodup {list : List Nat} (nodup : list.Nodup) {bound : Nat}
    (below : ∀ value ∈ list, value < bound) : list.length ≤ bound := by
  rw [← List.toFinset_card_of_nodup nodup, ← Finset.card_range bound]
  apply Finset.card_le_card
  intro value member
  exact Finset.mem_range.mpr (below value (List.mem_toFinset.mp member))

namespace Ready

variable {lists : KernelLists} {model : Model} {queue : QueueId} {thread : ThreadPtr}

theorem object (ready : Ready model) (member : thread ∈ model.queue queue) :
    model.lists.obj (nodeIn queue thread) = some thread := by
  cases queue <;> exact ready.objects thread (ready.known _ thread member) _

/-- There are far more numbers for the size of a list than there are threads. -/
theorem room (ready : Ready model) (rep : ListsRep lists model.lists) (queue : QueueId) :
    (model.queue queue).length + 1 < 2 ^ 32 := by
  have short := length_le_of_nodup (rep.nodup queue) fun thread member =>
    ready.addresses thread (ready.known queue thread member)
  omega

theorem setThread (ready : Ready model) (change : Thread → Thread) :
    Ready (model.setThread thread change) :=
  ⟨ready.known, ready.objects, ready.addresses⟩

/-- Give a queue other than the global list any known threads. -/
theorem setQueue (ready : Ready model) (running : queue.Running) {sequence : List ThreadPtr}
    (known : ∀ thread ∈ sequence, thread ∈ model.queue .threads) :
    Ready (model.setQueue queue sequence) := by
  have same : (model.setQueue queue sequence).queue .threads = model.queue .threads :=
    model.queue_setQueue_of_ne queue .threads sequence (Ne.symm running)
  constructor
  · intro other member inOther
    rw [same]
    by_cases equal : other = queue
    · subst other
      rw [KernelState.queue_setQueue_self] at inOther
      exact known member inOther
    · rw [KernelState.queue_setQueue_of_ne _ _ _ _ equal] at inOther
      exact ready.known other member inOther
  · rw [same]
    exact ready.objects
  · rw [same]
    exact ready.addresses

theorem append (ready : Ready model) (running : queue.Running)
    (known : thread ∈ model.queue .threads) : Ready (model.append queue thread) := by
  apply ready.setQueue running
  intro other member
  rcases List.mem_append.mp member with old | new
  · exact ready.known queue other old
  · exact (List.mem_singleton.mp new) ▸ known

theorem remove (ready : Ready model) (running : queue.Running) :
    Ready (model.remove queue thread) :=
  ready.setQueue running fun other member =>
    ready.known queue other (List.mem_of_mem_erase member)

theorem of_lists (ready : Ready model) {other : Model} (same : other.lists = model.lists) :
    Ready other := by
  constructor
  · intro queue thread member
    simp only [KernelState.queue, same] at member ⊢
    exact ready.known queue thread member
  · intro thread member field
    simp only [KernelState.queue, same] at member ⊢
    exact ready.objects thread member field
  · intro thread member
    simp only [KernelState.queue, same] at member
    exact ready.addresses thread member

end Ready

theorem runQueue_running {schedClass : SchedClass} {queue : QueueId}
    (runs : KernelState.runQueue schedClass = some queue) : queue.Running := by
  cases schedClass <;> cases runs <;> simp [QueueId.Running]

section Functions

variable {lists : KernelLists} {model : Model} {thread : ThreadPtr}

/-! ## Classes -/

theorem takes_enqueue (rep : ListsRep lists model.lists) (ready : Ready model)
    (unqueued : model.Unqueued thread) :
    Takes lists model (enqueue thread) () (model.enqueue thread) := by
  apply Takes.get
  change Takes lists model ((model.thread thread).schedClass.table.enqueue thread) () _
  cases schedClass : (model.thread thread).schedClass with
  | realTime =>
      have after : model.enqueue thread = (model.append .rtRq thread).setThread thread
          fun fields => { fields with rqList := some .rtRq } := by
        simp [KernelState.enqueue, KernelState.runQueue, KernelState.enqueuedFields, schedClass,
          KernelState.setThread, KernelState.append]
      rw [after]
      apply Takes.bind
        (takes_insertLast rep (by simp [QueueId.Running]) unqueued (ready.room rep .rtRq))
      intro next nextRep
      exact Takes.setThread thread _ nextRep
  | application =>
      have after : model.enqueue thread = model.append .appRq thread := by
        simp [KernelState.enqueue, KernelState.runQueue, KernelState.enqueuedFields, schedClass,
          KernelState.setThread, KernelState.append, KernelState.setQueue]
      rw [after]
      exact takes_insertLast rep (by simp [QueueId.Running]) unqueued (ready.room rep .appRq)
  | background =>
      have after : model.enqueue thread = model.append .backgroundRq thread := by
        simp [KernelState.enqueue, KernelState.runQueue, KernelState.enqueuedFields, schedClass,
          KernelState.setThread, KernelState.append, KernelState.setQueue]
      rw [after]
      exact takes_insertLast rep (by simp [QueueId.Running]) unqueued
        (ready.room rep .backgroundRq)
  | idle =>
      have after : model.enqueue thread = { model with idle := some thread } := by
        simp [KernelState.enqueue, KernelState.runQueue, schedClass]
      rw [after]
      exact Takes.modify rep rfl rfl

/-! ## The core scheduler -/

theorem takes_pickFirst_empty (rep : ListsRep lists model.lists) {queue : QueueId}
    (empty : model.queue queue = []) :
    Takes lists model (pickFirst queue) none model := by
  apply Takes.get
  have first : ((model.withLists lists).lists.list queue).first = none := by
    change (lists.list queue).first = none
    rw [rep.first, empty]
    rfl
  rw [first]
  exact Takes.pure rep

theorem takes_pickFirst (rep : ListsRep lists model.lists) (ready : Ready model)
    {queue : QueueId} {rest : List ThreadPtr} (split : model.queue queue = thread :: rest) :
    Takes lists model (pickFirst queue) (some thread) (model.setQueue queue rest) := by
  apply Takes.get
  have first : ((model.withLists lists).lists.list queue).first =
      some (nodeIn queue thread) := by
    change (lists.list queue).first = _
    rw [rep.first, split]
    rfl
  rw [first]
  apply Takes.bind (takes_removeFirst rep split)
  intro next nextRep
  apply Takes.bind (takes_nodeThread nextRep _)
  · exact fun final finalRep => Takes.pure finalRep
  · exact ready.object (split ▸ List.mem_cons_self)

/-- A class with a run queue picks its first thread. -/
structure PicksFrom (schedClass : SchedulingClass) (queue : QueueId) : Prop where
  empty : ∀ lists (model : Model), ListsRep lists model.lists → model.queue queue = [] →
    Takes lists model schedClass.pickThread none model
  first : ∀ lists (model : Model) thread rest, ListsRep lists model.lists → Ready model →
    model.queue queue = thread :: rest →
    Takes lists model schedClass.pickThread (some thread)
      ((model.setQueue queue rest).setThread thread (KernelState.pickedFields queue))

theorem rtClass_picksFrom : PicksFrom rtClass .rtRq where
  empty := by
    intro lists model rep empty
    apply Takes.bind (takes_pickFirst_empty rep empty)
    exact fun next nextRep => Takes.pure nextRep
  first := by
    intro lists model thread rest rep ready split
    apply Takes.bind (takes_pickFirst rep ready split)
    intro next nextRep
    apply Takes.bind (Takes.setThread thread _ nextRep)
    exact fun final finalRep => Takes.pure finalRep

theorem appClass_picksFrom : PicksFrom appClass .appRq where
  empty := fun _ _ rep empty => takes_pickFirst_empty rep empty
  first := by
    intro lists model thread rest rep ready split
    rw [show KernelState.pickedFields .appRq = fun fields => fields from rfl,
      KernelState.setThread_id]
    exact takes_pickFirst rep ready split

theorem backgroundClass_picksFrom : PicksFrom backgroundClass .backgroundRq where
  empty := fun _ _ rep empty => takes_pickFirst_empty rep empty
  first := by
    intro lists model thread rest rep ready split
    rw [show KernelState.pickedFields .backgroundRq = fun fields => fields from rfl,
      KernelState.setThread_id]
    exact takes_pickFirst rep ready split

theorem takes_pickFrom_cons {schedClass : SchedulingClass} {queue : QueueId}
    (picks : PicksFrom schedClass queue) {classes : List SchedulingClass}
    {queues : List QueueId} (rep : ListsRep lists model.lists) (ready : Ready model)
    {after : Model}
    (picked : KernelState.pickFrom (queue :: queues) model = some (thread, after))
    (others : KernelState.pickFrom queues model = some (thread, after) →
      ∀ next, ListsRep next model.lists →
        Takes next model (pickFrom classes) (some thread) after) :
    Takes lists model (pickFrom (schedClass :: classes)) (some thread) after := by
  cases split : model.queue queue with
  | nil =>
      simp only [KernelState.pickFrom, split] at picked
      apply Takes.bind (picks.empty lists model rep split)
      exact others picked
  | cons head rest =>
      simp only [KernelState.pickFrom, split, Option.some.injEq, Prod.mk.injEq] at picked
      rcases picked with ⟨rfl, rfl⟩
      apply Takes.bind (picks.first lists model head rest rep ready split)
      exact fun next nextRep => Takes.pure nextRep

theorem takes_coreScheduler (rep : ListsRep lists model.lists) (ready : Ready model)
    {after : Model} (picked : model.pick = some (thread, after)) :
    Takes lists model coreScheduler (some thread) after := by
  apply takes_pickFrom_cons rtClass_picksFrom rep ready picked
  intro picked next rep
  apply takes_pickFrom_cons appClass_picksFrom rep ready picked
  intro picked next rep
  apply takes_pickFrom_cons backgroundClass_picksFrom rep ready picked
  intro picked next rep
  cases idle : model.idle with
  | none => simp [KernelState.pickFrom, idle] at picked
  | some found =>
      simp only [KernelState.pickFrom, idle, Option.map_some, Option.some.injEq,
        Prod.mk.injEq] at picked
      rcases picked with ⟨rfl, rfl⟩
      have idlePick : Takes next model idlePickThread (some found) model := by
        apply Takes.get
        rw [show (model.withLists next).idle = some found from idle]
        exact Takes.pure rep
      apply Takes.bind idlePick
      exact fun final finalRep => Takes.pure finalRep

/-! ## Sleeping -/

theorem takes_tickToWakeUpdate (rep : ListsRep lists model.lists) (ready : Ready model) :
    Takes lists model tickToWakeUpdate () model.tickToWakeUpdate := by
  apply Takes.get
  cases split : model.queue .sleepQ with
  | nil =>
      have first : ((model.withLists lists).lists.list .sleepQ).first = none := by
        change (lists.list .sleepQ).first = none
        rw [rep.first, split]
        rfl
      have after : model.tickToWakeUpdate = { model with rqTickToWake := 0 } := by
        simp only [KernelState.tickToWakeUpdate, split]
      rw [first, after]
      exact Takes.modify rep rfl rfl
  | cons head rest =>
      have first : ((model.withLists lists).lists.list .sleepQ).first = some (rqNode head) := by
        change (lists.list .sleepQ).first = _
        rw [rep.first, split]
        rfl
      have after : model.tickToWakeUpdate =
          { model with rqTickToWake := (model.thread head).tickToWake } := by
        simp only [KernelState.tickToWakeUpdate, split]
      rw [first, after]
      have object : model.lists.obj (nodeIn .sleepQ head) = some head :=
        ready.object (split ▸ List.mem_cons_self)
      apply Takes.bind (takes_nodeThread rep object)
      exact fun next nextRep => Takes.modify nextRep rfl rfl

/-- A thread taken out of its only queue is in none. -/
theorem unqueued_remove (rep : ListsRep lists model.lists) {queue : QueueId}
    (running : queue.Running) (member : thread ∈ model.queue queue) :
    (model.remove queue thread).Unqueued thread := by
  intro other otherRunning inOther
  by_cases equal : other = queue
  · subst other
    rw [KernelState.remove, KernelState.queue_setQueue_self] at inOther
    exact (rep.nodup queue).not_mem_erase inOther
  · rw [KernelState.remove, KernelState.queue_setQueue_of_ne _ _ _ _ equal] at inOther
    exact equal (rep.apart otherRunning running inOther member)

/-- A node leads to the next one of its list. -/
theorem ListsRep.next (rep : ListsRep lists model.lists) {queue : QueueId}
    {front rest : List ThreadPtr} (split : model.queue queue = front ++ thread :: rest) :
    (lists.node (nodeIn queue thread)).next = rest.head?.map (nodeIn queue) := by
  have linked := (rep.refines.represents queue).linked
  rw [show model.lists.queue queue = _ from split, List.map_append, List.map_cons] at linked
  rw [linked.neighbours.2, List.head?_map]

/-- Enqueued last or not at all, the node of a thread leads nowhere. -/
theorem next_enqueue (rep : ListsRep lists (model.enqueue thread).lists)
    (unqueued : model.Unqueued thread) :
    (lists.node (rqNode thread)).next = none := by
  cases runs : KernelState.runQueue (model.thread thread).schedClass with
  | none =>
      have same : (model.enqueue thread).lists = model.lists := by
        simp only [KernelState.enqueue, runs]
      rw [same] at rep
      exact (rep.refines.unlinked _ (rqNode_fresh unqueued)).2
  | some queue =>
      have appended : (model.enqueue thread).queue queue = model.queue queue ++ [thread] := by
        simp only [KernelState.enqueue, runs, KernelState.append,
          KernelState.queue_setThread, KernelState.queue_setQueue_self]
      have last := rep.next appended
      rw [nodeIn_of_running (runQueue_running runs)] at last
      exact last

theorem takes_wake (rep : ListsRep lists model.lists) (ready : Ready model)
    (member : thread ∈ model.queue .sleepQ) (rounds : Nat)
    (expired : (model.thread thread).tickToWake < model.tick) :
    Takes lists model (wakeExpired (rounds + 1) (some (rqNode thread))) ()
      (model.wake thread) := by
  have running : QueueId.sleepQ.Running := by simp [QueueId.Running]
  have object : model.lists.obj (nodeIn .sleepQ thread) = some thread := ready.object member
  simp only [wakeExpired]
  apply Takes.bind (takes_nodeThread rep object)
  intro lists rep
  apply Takes.get
  change Takes lists model (if (model.thread thread).tickToWake < model.tick then _ else _) () _
  rw [if_pos expired]
  have unqueued := unqueued_remove rep running member
  have unqueued' : ((model.remove .sleepQ thread).setThread thread fun fields =>
      { fields with rqList := none }).Unqueued thread := unqueued
  apply Takes.bind (takes_remove rep member)
  intro lists rep
  apply Takes.bind (Takes.setThread thread _ rep)
  intro lists rep
  apply Takes.bind (takes_enqueue rep ((ready.remove running).setThread _) unqueued')
  intro lists rep
  apply Takes.bind (Takes.setThread thread _ rep)
  intro lists rep
  apply Takes.get
  change Takes lists _ (wakeExpired rounds (lists.node (rqNode thread)).next) () _
  rw [next_enqueue rep unqueued']
  cases rounds <;> exact Takes.pure rep

theorem takes_wakeExpired_none (rep : ListsRep lists model.lists) (rounds : Nat) :
    Takes lists model (wakeExpired rounds none) () model := by
  cases rounds <;> exact Takes.pure rep

theorem takes_wakeExpired (rep : ListsRep lists model.lists) (ready : Ready model)
    (rounds : Nat) :
    Takes lists model (wakeExpired (rounds + 1) (lists.list .sleepQ).first) ()
      model.wakeFirst := by
  rw [rep.first]
  cases split : model.queue .sleepQ with
  | nil =>
      have after : model.wakeFirst = model := by simp only [KernelState.wakeFirst, split]
      rw [after]
      exact takes_wakeExpired_none rep _
  | cons head rest =>
      have member : head ∈ model.queue .sleepQ := split ▸ List.mem_cons_self
      have after : model.wakeFirst =
          if (model.thread head).tickToWake < model.tick then model.wake head else model := by
        simp only [KernelState.wakeFirst, split]
      rw [after]
      split
      · rename_i expired
        exact takes_wake rep ready member rounds expired
      · rename_i pending
        have object : model.lists.obj (nodeIn .sleepQ head) = some head := ready.object member
        simp only [List.head?_cons, Option.map_some, wakeExpired]
        apply Takes.bind (takes_nodeThread rep object)
        intro lists rep
        apply Takes.get
        change Takes lists model
          (if (model.thread head).tickToWake < model.tick then _ else _) () _
        rw [if_neg pending]
        exact Takes.pure rep

theorem loopRounds_succ : ∃ rounds, loopRounds = rounds + 1 :=
  ⟨2 ^ 32 - 1, by simp [loopRounds]⟩

/-- A loop over a list ends before its rounds do. -/
theorem ListsRep.length_le_loopRounds (rep : ListsRep lists model.lists) (queue : QueueId) :
    (model.queue queue).length ≤ loopRounds := by
  rw [loopRounds]
  exact (rep.length_lt queue).le

/-! ## What the model's functions leave ready -/

theorem Ready.enqueue (ready : Ready model) (known : thread ∈ model.queue .threads) :
    Ready (model.enqueue thread) := by
  cases runs : KernelState.runQueue (model.thread thread).schedClass with
  | none =>
      apply ready.of_lists
      simp only [KernelState.enqueue, runs]
  | some queue =>
      simp only [KernelState.enqueue, runs]
      exact (ready.append (runQueue_running runs) known).setThread _

theorem Ready.wake (ready : Ready model) (known : thread ∈ model.queue .threads) :
    Ready (model.wake thread) := by
  have running : QueueId.sleepQ.Running := by simp [QueueId.Running]
  have taken : Ready (model.remove .sleepQ thread) := ready.remove running
  have removed : Ready ((model.remove .sleepQ thread).setThread thread fun fields =>
      { fields with rqList := none }) := taken.setThread _
  have stays : thread ∈ (model.remove .sleepQ thread).queue .threads := by
    rw [KernelState.remove, KernelState.queue_setQueue_of_ne _ _ _ _ (Ne.symm running)]
    exact known
  exact (removed.enqueue stays).setThread fun fields => { fields with tickToWake := 0 }

theorem Ready.wakeFirst (ready : Ready model) : Ready model.wakeFirst := by
  cases split : model.queue .sleepQ with
  | nil => simpa only [KernelState.wakeFirst, split] using ready
  | cons head rest =>
      simp only [KernelState.wakeFirst, split]
      split
      · exact ready.wake (ready.known .sleepQ head (split ▸ List.mem_cons_self))
      · exact ready

theorem takes_processExpiredDelays (rep : ListsRep lists model.lists) (ready : Ready model) :
    Takes lists model processExpiredDelays () model.processExpiredDelays := by
  apply Takes.get
  change Takes lists model
    (if model.rqTickToWake ≤ model.tick ∧ model.rqTickToWake ≠ 0 then _ else _) () _
  simp only [KernelState.processExpiredDelays]
  split
  · rcases loopRounds_succ with ⟨rounds, same⟩
    rw [same]
    apply Takes.bind (takes_wakeExpired rep ready rounds)
    exact fun next nextRep => takes_tickToWakeUpdate nextRep ready.wakeFirst
  · exact Takes.pure rep

/-- The loop goes past the sleepers before `rest` and finds the place in it. -/
theorem takes_insertDelay (rep : ListsRep lists model.lists) (ready : Ready model)
    (unqueued : model.Unqueued thread) {front rest : List ThreadPtr} {rounds : Nat}
    (split : model.queue .sleepQ = front ++ rest) (enough : rest.length ≤ rounds) :
    Takes lists model (insertDelay thread rounds (rest.head?.map (nodeIn .sleepQ))) ()
      (model.setQueue .sleepQ (front ++ KernelState.delayed
        (fun other => (model.thread other).tickToWake) thread rest)) := by
  have running : QueueId.sleepQ.Running := by simp [QueueId.Running]
  have room := ready.room rep .sleepQ
  induction rest generalizing lists front rounds with
  | nil =>
      have whole : model.queue .sleepQ = front := by rw [split, List.append_nil]
      have placed := takes_insertLast rep running unqueued room
      rw [KernelState.append, whole] at placed
      cases rounds <;> exact placed
  | cons other rest induction =>
      cases rounds with
      | zero => cases enough
      | succ rounds =>
          have member : other ∈ model.queue .sleepQ := by simp [split]
          simp only [List.head?_cons, Option.map_some, insertDelay]
          apply Takes.bind (takes_nodeThread rep (ready.object member))
          intro lists rep
          apply Takes.get
          change Takes lists model (if (model.thread thread).tickToWake <
            (model.thread other).tickToWake then _ else _) () _
          by_cases earlier : (model.thread thread).tickToWake < (model.thread other).tickToWake
          · have placed : KernelState.delayed (fun other => (model.thread other).tickToWake)
                thread (other :: rest) = thread :: other :: rest := by
              simp [KernelState.delayed, Nat.not_le.mpr earlier]
            rw [if_pos earlier, placed]
            exact takes_insertBefore rep running unqueued room split
          · have placed : KernelState.delayed (fun other => (model.thread other).tickToWake)
                thread (other :: rest) = [other] ++ KernelState.delayed
                  (fun other => (model.thread other).tickToWake) thread rest := by
              simp [KernelState.delayed, Nat.not_lt.mp earlier]
            have passed : model.queue .sleepQ = (front ++ [other]) ++ rest := by
              rw [split, List.append_assoc]
              rfl
            rw [if_neg earlier, placed, ← List.append_assoc]
            change Takes lists model
              (insertDelay thread rounds (lists.node (nodeIn .sleepQ other)).next) () _
            rw [rep.next split]
            exact induction rep passed (Nat.le_of_succ_le_succ enough)

theorem takes_schedulerEnqueueDelay (rep : ListsRep lists model.lists) (ready : Ready model)
    (unqueued : model.Unqueued thread) (known : thread ∈ model.queue .threads) :
    Takes lists model (schedulerEnqueueDelay thread) () (model.enqueueDelay thread) := by
  have running : QueueId.sleepQ.Running := by simp [QueueId.Running]
  have room := ready.room rep .sleepQ
  have finish : ∀ sequence, KernelState.delayed
        (fun other => (model.thread other).tickToWake) thread (model.queue .sleepQ) = sequence →
      ∀ next, ListsRep next (model.setQueue .sleepQ sequence).lists →
        Takes next (model.setQueue .sleepQ sequence) (do
          setThread thread fun fields => { fields with rqList := some .sleepQ }
          tickToWakeUpdate) () (model.enqueueDelay thread) := by
    intro sequence placed lists rep
    subst placed
    apply Takes.bind (Takes.setThread thread _ rep)
    intro lists rep
    apply takes_tickToWakeUpdate rep
    apply Ready.setThread
    apply ready.setQueue running
    intro other member
    rcases List.mem_append.mp member with before | after
    · exact ready.known .sleepQ other (List.takeWhile_subset _ before)
    · rcases List.mem_cons.mp after with rfl | after
      · exact known
      · exact ready.known .sleepQ other (List.dropWhile_subset _ after)
  apply Takes.get
  have first := rep.first .sleepQ
  cases split : model.queue .sleepQ with
  | nil =>
      rw [split] at first finish
      rw [show (model.withLists lists).lists = lists from rfl, first]
      have placed := takes_insertFirst rep running unqueued room
      rw [split] at placed
      exact placed.bind (finish _ rfl)
  | cons head rest =>
      have enough := rep.length_le_loopRounds .sleepQ
      rw [split] at enough
      have whole : model.queue .sleepQ = [] ++ head :: rest := split
      have placed := takes_insertDelay rep ready unqueued whole enough
      rw [split] at first finish
      rw [show (model.withLists lists).lists = lists from rfl, first]
      exact placed.bind (finish _ rfl)

end Functions

end Vanilla.Kernel
