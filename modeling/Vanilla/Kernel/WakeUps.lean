import Vanilla.Foundation.StableInsert
import Vanilla.Kernel.LongRun

/-! # No wake-up is missed

`sleep_q` is in order of the ticks its threads sleep until, and the cached
`cpu_rq.tick_to_wake` never comes after the first of them.
-/

namespace Vanilla.Kernel

open Mm

/-- The sleepers are in order, and the cache lets a SysTick look at the first. -/
structure Timely (model : Model) : Prop where
  ordered : InOrder (fun thread => (model.thread thread).tickToWake) (model.queue .sleepQ)
  cached : ∀ first rest, model.queue .sleepQ = first :: rest →
    0 < model.rqTickToWake ∧ model.rqTickToWake ≤ (model.thread first).tickToWake
  booting : model.systickEnabled = false → model.queue .sleepQ = []

section Steps

variable {linker : Linker} {model other next : Model} {spare : List Nat} {event : Event}
  {held : List ThreadPtr} {curr thread : ThreadPtr} {cvr ms tid : Nat}

/-! ## Sleepers that leave -/

/-- The cache may come too early: to take sleepers out needs no update of it. -/
theorem Timely.of_sublist (timely : Timely model)
    (sub : (other.queue .sleepQ).Sublist (model.queue .sleepQ))
    (ticks : ∀ thread ∈ other.queue .sleepQ,
      (other.thread thread).tickToWake = (model.thread thread).tickToWake)
    (cache : other.rqTickToWake = model.rqTickToWake)
    (enabled : other.systickEnabled = model.systickEnabled) : Timely other where
  ordered := (timely.ordered.sublist sub).congr ticks
  cached := by
    intro first rest split
    have member : first ∈ other.queue .sleepQ := split ▸ List.mem_cons_self
    rw [cache, ticks first member]
    cases before : model.queue .sleepQ with
    | nil => cases before ▸ sub.subset member
    | cons head sleepers =>
        have cached := timely.cached head sleepers before
        have ordered := timely.ordered
        have inBefore := sub.subset member
        rw [before] at ordered inBefore
        exact ⟨cached.1, cached.2.trans (ordered.head_le inBefore)⟩
  booting := by
    intro disabled
    have empty := timely.booting (enabled ▸ disabled)
    exact List.sublist_nil.mp (empty ▸ sub)

/-- `tick_to_wake_update` makes the cache exact. -/
theorem timely_tickToWakeUpdate
    (ordered : InOrder (fun thread => (model.thread thread).tickToWake) (model.queue .sleepQ))
    (positive : ∀ thread ∈ model.queue .sleepQ, (model.thread thread).tickToWake ≠ 0)
    (booting : model.systickEnabled = false → model.queue .sleepQ = []) :
    Timely model.tickToWakeUpdate where
  ordered := by
    rw [KernelState.tickToWakeUpdate_queue, KernelState.tickToWakeUpdate_thread]
    exact ordered
  cached := by
    intro first rest split
    rw [KernelState.tickToWakeUpdate_queue] at split
    rw [KernelState.tickToWakeUpdate_thread]
    simp only [KernelState.tickToWakeUpdate, split]
    exact ⟨Nat.pos_of_ne_zero (positive first (split ▸ List.mem_cons_self)), le_refl _⟩
  booting := by
    rw [KernelState.tickToWakeUpdate_queue, (model.tickToWakeUpdate_outside :)]
    exact booting

/-! ## SysTick -/

theorem enqueue_tickToWake (model : Model) (thread other : ThreadPtr) :
    ((model.enqueue thread).thread other).tickToWake = (model.thread other).tickToWake := by
  simp only [KernelState.enqueue]
  split
  · rename_i queue _
    exact @KernelState.setThread_relation (model.append queue thread) thread other
      (fun before after => after.tickToWake = before.tickToWake) (fun _ => rfl) _
      (enqueuedFields_tickToWake _)
  · rfl

theorem enqueue_sleepers (model : Model) (thread : ThreadPtr) :
    (model.enqueue thread).queue .sleepQ = model.queue .sleepQ := by
  rw [KernelState.enqueue_queue, if_neg (KernelState.runQueue_ne_sleepQ _)]

theorem enqueue_rqTickToWake (model : Model) (thread : ThreadPtr) :
    (model.enqueue thread).rqTickToWake = model.rqTickToWake := by
  simp only [KernelState.enqueue]
  split <;> rfl

theorem Timely.enqueue (timely : Timely model) (thread : ThreadPtr) :
    Timely (model.enqueue thread) := by
  apply timely.of_sublist
  · rw [enqueue_sleepers]
  · exact fun other _ => enqueue_tickToWake model thread other
  · exact enqueue_rqTickToWake model thread
  · rw [(model.enqueue_outside thread :)]

theorem Timely.processExpiredDelays (timely : Timely model) (placed : Placed model held) :
    Timely model.processExpiredDelays := by
  have asleep : ∀ thread ∈ model.queue .sleepQ, (model.thread thread).tickToWake ≠ 0 :=
    fun thread member => (placed.fits .sleepQ thread member).2.1
  rw [KernelState.processExpiredDelays_eq]
  cases expired : model.expired with
  | none =>
      simp only
      split
      · exact timely_tickToWakeUpdate timely.ordered asleep timely.booting
      · exact timely
  | some found =>
      simp only
      have sleepers : (model.wake found).queue .sleepQ = (model.queue .sleepQ).erase found := by
        rw [KernelState.wake_queue, if_neg (KernelState.runQueue_ne_sleepQ _), if_pos rfl]
      have ticks : ∀ thread ∈ (model.queue .sleepQ).erase found,
          (model.wake found).thread thread = model.thread thread := by
        intro thread member
        apply KernelState.wake_thread_of_ne
        intro equal
        exact (placed.nodup .sleepQ).not_mem_erase (equal ▸ member)
      apply timely_tickToWakeUpdate
      · rw [sleepers]
        apply (timely.ordered.sublist List.erase_sublist).congr
        intro thread member
        rw [ticks thread member]
      · rw [sleepers]
        intro thread member
        rw [ticks thread member]
        exact asleep thread (List.mem_of_mem_erase member)
      · rw [sleepers, (model.wake_outside found :)]
        intro disabled
        rw [timely.booting disabled]
        rfl

theorem Timely.beforePick (timely : Timely model) (placed : Placed model held) :
    Timely (model.beforePick curr cvr) := by
  have accounted := model.accountRuntime_frame curr cvr
  have account : Timely (model.accountRuntime curr cvr) := by
    apply timely.of_sublist
    · rw [accountRuntime_queue]
    · exact fun thread _ => (accounted.threads thread).place.tickToWake
    · rw [accounted.outside]
    · rw [accounted.outside]
  have processed := account.processExpiredDelays (placed_accountRuntime placed curr cvr)
  rw [KernelState.beforePick, KernelState.requeueCurrThread]
  split
  · exact processed.enqueue curr
  · exact processed

theorem Timely.pick (timely : Timely model) (picked : model.pick = some (thread, next)) :
    Timely next := by
  have frame := pick_frame picked
  apply timely.of_sublist
  · rw [frame.queues .sleepQ (by simp [KernelState.pickOrder])]
  · exact fun other _ => frame.ticks other
  · rcases Placed.pickFrom_cases picked with ⟨_, _, _, _, _, _, _, rfl⟩ | ⟨_, _, rfl⟩ <;> rfl
  · rw [frame.outside]

theorem remove_sleepers (model : Model) (queue : QueueId) (thread : ThreadPtr) :
    ((model.remove queue thread).queue .sleepQ).Sublist (model.queue .sleepQ) := by
  by_cases equal : QueueId.sleepQ = queue
  · rw [← equal, KernelState.remove_queue_self]
    exact List.erase_sublist
  · rw [KernelState.remove_queue_of_ne _ _ equal]

theorem block_sleepers (model : Model) (thread : ThreadPtr) (list : QueueId) :
    ((model.block thread list).queue .sleepQ).Sublist (model.queue .sleepQ) := by
  rw [KernelState.block, KernelState.queue_setThread, KernelState.append,
    KernelState.queue_setQueue_of_ne _ _ _ _ (by simp)]
  exact remove_sleepers model list thread

theorem removeThread_sleepers (model : Model) (curr : ThreadPtr) (mm : MmState) :
    ((model.removeThread curr mm).queue .sleepQ).Sublist (model.queue .sleepQ) := by
  have others : (model.remove .threads curr).queue .sleepQ = model.queue .sleepQ :=
    KernelState.remove_queue_of_ne _ _ (by simp)
  simp only [KernelState.removeThread]
  split
  · rename_i list _
    rw [← others]
    exact remove_sleepers (model.remove .threads curr) list curr
  · change ((model.remove .threads curr).queue .sleepQ).Sublist _
    rw [others]

theorem Timely.removeThread (timely : Timely model) (mm : MmState) :
    Timely (model.removeThread curr mm) := by
  apply timely.of_sublist (removeThread_sleepers model curr mm)
  · intro thread _
    rw [removeThread_thread]
  · simp only [KernelState.removeThread]
    split <;> rfl
  · simp only [KernelState.removeThread]
    split <;> rfl

/-! ## Going to sleep -/

/-- The ticks of the sleepers, with the one of the thread that goes to sleep. -/
theorem threadSleep_inserts (model : Model) (curr : ThreadPtr) (ms : Nat) :
    (model.threadSleep curr ms).queue .sleepQ =
      insertByKey (fun thread => ((model.threadSleep curr ms).thread thread).tickToWake)
        (KernelState.wakeTick model.tick ms) curr (model.queue .sleepQ) := by
  have frame := threadSleep_frame model curr ms
  have ticks : (fun thread => ((model.threadSleep curr ms).thread thread).tickToWake) =
      fun other => ((model.setThread curr fun fields => { fields with
        tickToWake := KernelState.wakeTick model.tick ms }).thread other).tickToWake := by
    funext other
    by_cases equal : other = curr
    · rw [equal, frame.tick, KernelState.thread_setThread_self]
    · rw [frame.threads other equal, KernelState.thread_setThread_of_ne _ _ equal]
  rw [ticks]
  simp only [KernelState.threadSleep, KernelState.enqueueDelay]
  refine (KernelState.tickToWakeUpdate_queue _ _).trans
    ((KernelState.queue_setQueue_self ..).trans ?_)
  simp only [KernelState.delayed, insertByKey, KernelState.thread_setThread_self]
  rfl

theorem tickToWakeUpdate_first {rest : List ThreadPtr}
    (split : model.tickToWakeUpdate.queue .sleepQ = thread :: rest) :
    model.tickToWakeUpdate.rqTickToWake =
      (model.tickToWakeUpdate.thread thread).tickToWake := by
  rw [KernelState.tickToWakeUpdate_queue] at split
  rw [KernelState.tickToWakeUpdate_thread]
  simp only [KernelState.tickToWakeUpdate, split]

theorem Timely.threadSleep (timely : Timely model) (notAsleep : curr ∉ model.queue .sleepQ)
    (fits : ∀ thread ∈ (model.threadSleep curr ms).queue .sleepQ,
      Fits .sleepQ ((model.threadSleep curr ms).thread thread))
    (enabled : model.systickEnabled = true) : Timely (model.threadSleep curr ms) where
  ordered := by
    have frame := threadSleep_frame model curr ms
    have before : InOrder
        (fun thread => ((model.threadSleep curr ms).thread thread).tickToWake)
        (model.queue .sleepQ) := by
      apply timely.ordered.congr
      intro thread member
      have different : thread ≠ curr := fun equal => notAsleep (equal ▸ member)
      rw [frame.threads thread different]
    rw [threadSleep_inserts, ← frame.tick]
    exact before.insertByKey
  cached := by
    intro first rest split
    have positive := (fits first (split ▸ List.mem_cons_self)).2.1
    have exact := tickToWakeUpdate_first split
    change (model.threadSleep curr ms).rqTickToWake =
      ((model.threadSleep curr ms).thread first).tickToWake at exact
    rw [exact]
    exact ⟨Nat.pos_of_ne_zero positive, le_refl _⟩
  booting := by
    rw [(threadSleep_frame model curr ms).outside]
    intro disabled
    cases enabled.symm.trans disabled

/-! ## Every event -/

theorem newThread_rqTickToWake (model : Model) (info : ThreadInfo) (thread : ThreadPtr)
    (mm : MmState) : (model.newThread info thread mm).rqTickToWake = model.rqTickToWake := by
  cases schedClass : info.schedClass <;>
    simp only [KernelState.newThread, KernelState.runQueue, schedClass] <;> rfl

theorem Timely.mark (timely : Timely model) (thread : ThreadPtr) :
    Timely (model.setThread thread fun fields => { fields with exitPending := true }) where
  ordered := by
    apply timely.ordered.congr
    intro other _
    exact @KernelState.setThread_relation model thread other
      (fun before after => after.tickToWake = before.tickToWake) (fun _ => rfl)
      (fun fields => { fields with exitPending := true }) rfl
  cached := by
    intro first rest split
    have ticks := @KernelState.setThread_relation model thread first
      (fun before after => after.tickToWake = before.tickToWake) (fun _ => rfl)
      (fun fields => { fields with exitPending := true }) rfl
    rw [ticks]
    exact timely.cached first rest split
  booting := timely.booting

theorem Transition.timely (transition : Transition model event next) (timely : Timely model)
    (sound : Sound linker model spare) {others : List Nat} (kept : Sound linker next others) :
    Timely next := by
  cases transition with
  | @newThread info created mm _ fresh _ =>
      have frame := newThread_frame model info created mm
      apply timely.of_sublist
      · rw [frame.sleepers]
      · intro thread member
        rw [frame.sleepers] at member
        have known := sound.placed.ready.known .sleepQ thread member
        rw [frame.others thread fun equal => fresh (equal ▸ known)]
      · exact newThread_rqTickToWake model info created mm
      · rw [frame.outside]
  | @start created next mm after off _ _ _ picked _ =>
      have empty : after.queue .sleepQ = [] := by
        rw [(pick_frame picked).queues .sleepQ (by simp [KernelState.pickOrder]),
          KernelState.withIdle_queue, if_neg (by simp)]
        exact timely.booting off
      constructor
      · change InOrder _ (after.queue .sleepQ)
        rw [empty]
        exact List.Pairwise.nil
      · intro first rest split
        cases empty.symm.trans split
      · exact fun disabled => by cases disabled
  | @sleep curr ms isCurr hand =>
      have held := Option.mem_toList.mpr hand
      have enabled : model.systickEnabled = true := by
        by_contra disabled
        have stopped := (sound.booting (Bool.eq_false_of_not_eq_true disabled)).1
        cases stopped.symm.trans isCurr
      exact timely.threadSleep
        (sound.placed.heldUnqueued curr held .sleepQ (by simp [QueueId.Running]))
        (kept.placed.fits .sleepQ) enabled
  | @stays curr next cvr after _ _ _ picked =>
      have entered : Timely { model with systickPending := false } :=
        ⟨timely.ordered, timely.cached, timely.booting⟩
      have last := (entered.beforePick sound.enter.placed).pick picked
      exact ⟨last.ordered, last.cached, last.booting⟩
  | @exits curr next cvr mm after _ _ _ _ picked _ =>
      have entered : Timely { model with systickPending := false } :=
        ⟨timely.ordered, timely.cached, timely.booting⟩
      have last := ((entered.beforePick sound.enter.placed).removeThread mm).pick picked
      exact ⟨last.ordered, last.cached, last.booting⟩
  | pendsv _ _ => exact ⟨timely.ordered, timely.cached, timely.booting⟩
  | stillBlocked _ _ => exact timely
  | @block thread tid queue _ _ _ _ _ _ _ =>
      apply timely.of_sublist
      · exact block_sleepers model thread queue
      · intro other _
        exact @KernelState.setThread_relation ((model.remove queue thread).append .blockedQ
          thread) thread other (fun before after => after.tickToWake = before.tickToWake)
          (fun _ => rfl) (fun fields => { fields with rqList := some .blockedQ }) rfl
      · rfl
      · rfl
  | notBlocked _ _ => exact timely
  | @unblock thread tid _ _ member _ =>
      have sleepers : (model.unblock thread).queue .sleepQ = model.queue .sleepQ :=
        unblock_queues model thread (by simp) (by simp)
      apply timely.of_sublist
      · rw [sleepers]
      · intro other asleep
        rw [sleepers] at asleep
        have different : other ≠ thread := by
          intro equal
          have same := sound.placed.apart .sleepQ .blockedQ (by simp [QueueId.Running])
            (by simp [QueueId.Running]) thread (equal ▸ asleep) member
          cases same
        rw [KernelState.unblock, KernelState.thread_setThread_of_ne _ _ different,
          KernelState.append, KernelState.thread_setQueue,
          KernelState.thread_setThread_of_ne _ _ different, KernelState.remove_thread]
      · rfl
      · rfl
  | @exit curr _ => exact timely.mark curr
  | @kill tid =>
      rw [KernelState.killThread]
      split
      · rename_i found _
        have marked := timely.mark found
        exact ⟨marked.ordered, marked.cached, marked.booting⟩
      · exact ⟨timely.ordered, timely.cached, timely.booting⟩
  | allocate => exact ⟨timely.ordered, timely.cached, timely.booting⟩
  | release => exact ⟨timely.ordered, timely.cached, timely.booting⟩

/-! ## Arrivals -/

/-- What an event does to the sleepers: one that goes to sleep comes behind all that
are due no later, and nothing else changes the order. -/
inductive SleepersChange (before after : Machine) (event : Event)
    (sleepers later : List ThreadPtr) : Prop where
  | sleeps {ms : Nat} {curr : ThreadPtr} {front back : List ThreadPtr} : event = .sleep ms →
      before.currThread = some curr → sleepers = front ++ back → later = front ++ curr :: back →
      (∀ thread ∈ front, (before.thread thread).tickToWake ≤ (after.thread curr).tickToWake) →
      (∀ thread ∈ back, (after.thread curr).tickToWake < (before.thread thread).tickToWake) →
      SleepersChange before after event sleepers later
  | leave : (∀ ms, event ≠ .sleep ms) → later.Sublist sleepers →
      SleepersChange before after event sleepers later

theorem beforePick_sleepers (model : Model) (curr : ThreadPtr) (cvr : Nat) :
    ((model.beforePick curr cvr).queue .sleepQ).Sublist (model.queue .sleepQ) := by
  have processed : ((model.accountRuntime curr cvr).processExpiredDelays.queue
      .sleepQ).Sublist (model.queue .sleepQ) := by
    rw [KernelState.processExpiredDelays_queue, ← accountRuntime_queue model curr cvr .sleepQ]
    split
    · rw [KernelState.wake_queue, if_neg (KernelState.runQueue_ne_sleepQ _), if_pos rfl]
      exact List.erase_sublist
    · exact List.Sublist.refl _
  rw [KernelState.beforePick, KernelState.requeueCurrThread]
  split
  · rw [enqueue_sleepers]
    exact processed
  · exact processed

theorem threadSleep_sleepersChange {lists final : KernelLists} (timely : Timely model)
    (notAsleep : curr ∉ model.queue .sleepQ) (isCurr : model.currThread = some curr) :
    SleepersChange (model.withLists lists) ((model.threadSleep curr ms).withLists final)
      (.sleep ms) (model.queue .sleepQ) ((model.threadSleep curr ms).queue .sleepQ) := by
  have frame := threadSleep_frame model curr ms
  have same : ∀ thread ∈ model.queue .sleepQ,
      (model.threadSleep curr ms).thread thread = model.thread thread := fun thread member =>
    frame.threads thread fun equal => notAsleep (equal ▸ member)
  have before : InOrder (fun thread => ((model.threadSleep curr ms).thread thread).tickToWake)
      (model.queue .sleepQ) := by
    apply timely.ordered.congr
    intro thread member
    rw [same thread member]
  refine .sleeps rfl isCurr List.takeWhile_append_dropWhile.symm
    (threadSleep_inserts model curr ms) ?_ ?_
  · intro thread member
    have le := le_of_mem_takeWhile member
    rw [same thread ((List.takeWhile_sublist _).subset member), ← frame.tick] at le
    exact le
  · intro thread member
    have lt := before.lt_of_mem_dropWhile member
    rw [same thread ((List.dropWhile_sublist _).subset member), ← frame.tick] at lt
    exact lt

theorem Transition.sleepers {lists final : KernelLists}
    (transition : Transition model event next) (timely : Timely model)
    (sound : Sound linker model spare) :
    SleepersChange (model.withLists lists) (next.withLists final) event
      (model.queue .sleepQ) (next.queue .sleepQ) := by
  cases transition with
  | @newThread info created mm _ _ _ =>
      refine .leave (by simp) ?_
      rw [(newThread_frame model info created mm).sleepers]
  | @start created next mm after _ _ _ _ picked _ =>
      refine .leave (by simp) ?_
      change (after.queue .sleepQ).Sublist _
      rw [(pick_frame picked).queues .sleepQ (by simp [KernelState.pickOrder]),
        KernelState.withIdle_queue, if_neg (by simp)]
  | @sleep curr ms isCurr hand =>
      exact threadSleep_sleepersChange timely (sound.placed.heldUnqueued curr
        (Option.mem_toList.mpr hand) .sleepQ (by simp [QueueId.Running])) isCurr
  | @stays curr next cvr after _ _ _ picked =>
      refine .leave (by simp) ?_
      change (after.queue .sleepQ).Sublist _
      rw [(pick_frame picked).queues .sleepQ (by simp [KernelState.pickOrder])]
      exact beforePick_sleepers { model with systickPending := false } curr cvr
  | @exits curr next cvr mm after _ _ _ _ picked _ =>
      refine .leave (by simp) ?_
      change (after.queue .sleepQ).Sublist _
      rw [(pick_frame picked).queues .sleepQ (by simp [KernelState.pickOrder])]
      exact (removeThread_sleepers _ curr mm).trans
        (beforePick_sleepers { model with systickPending := false } curr cvr)
  | pendsv _ _ => exact .leave (by simp) (.refl _)
  | stillBlocked _ _ => exact .leave (by simp) (.refl _)
  | @block thread tid queue _ _ _ _ _ _ _ =>
      exact .leave (by simp) (block_sleepers model thread queue)
  | notBlocked _ _ => exact .leave (by simp) (.refl _)
  | @unblock thread tid _ _ _ _ =>
      refine .leave (by simp) ?_
      rw [unblock_queues model thread (by simp) (by simp)]
  | exit _ => exact .leave (by simp) (.refl _)
  | @kill tid =>
      refine .leave (by simp) ?_
      rw [KernelState.killThread]
      split <;> exact .refl _
  | allocate => exact .leave (by simp) (.refl _)
  | release => exact .leave (by simp) (.refl _)

end Steps

/-! ## Runs -/

section Runs

variable {linker : Linker} {memory : ByteMemory} {system : System} {events : List Event}

end Runs

end Vanilla.Kernel
