import Vanilla.Kernel.SchedulerRefinement

/-! # Where each thread is

`Placed` says that every thread but the idle one is in exactly one place: in a
queue whose fields it has, or in hand, which is how a thread is while it runs
or is being moved. Threads move by `take` and `put`, and each function of the
model is a few such moves.
-/

namespace Vanilla.Kernel

/-- The fields a queue expects of the threads in it. -/
def Fits (queue : QueueId) (fields : Thread) : Prop :=
  match queue with
  | .rtRq => fields.schedClass = .realTime ∧ fields.tickToWake = 0 ∧
      fields.rqList = some .rtRq
  | .appRq => fields.schedClass = .application ∧ fields.tickToWake = 0 ∧
      fields.rqList = none
  | .backgroundRq => fields.schedClass = .background ∧ fields.tickToWake = 0 ∧
      fields.rqList = none
  | .sleepQ => fields.schedClass ≠ .idle ∧ fields.tickToWake ≠ 0 ∧
      fields.rqList = some .sleepQ
  | .blockedQ => fields.schedClass = .realTime ∧ fields.rqList = some .blockedQ
  | .threads => True

/-- The fields of a thread that runs or could be enqueued. -/
def Awake (fields : Thread) : Prop := fields.tickToWake = 0 ∧ fields.rqList = none

structure Placed (model : Model) (held : List ThreadPtr) : Prop where
  ready : Ready model
  nodup : ∀ queue, (model.queue queue).Nodup
  apart : ∀ left right : QueueId, left.Running → right.Running → ∀ thread,
    thread ∈ model.queue left → thread ∈ model.queue right → left = right
  fits : ∀ queue, ∀ thread ∈ model.queue queue, Fits queue (model.thread thread)
  heldNodup : held.Nodup
  heldKnown : ∀ thread ∈ held, thread ∈ model.queue .threads
  heldUnqueued : ∀ thread ∈ held, model.Unqueued thread
  placed : ∀ thread ∈ model.queue .threads, (model.thread thread).schedClass ≠ .idle →
    thread ∈ held ∨ ∃ queue : QueueId, queue.Running ∧ thread ∈ model.queue queue
  idleKnown : ∀ thread, model.idle = some thread → thread ∈ model.queue .threads ∧
    (model.thread thread).schedClass = .idle
  onlyIdle : ∀ thread ∈ model.queue .threads, (model.thread thread).schedClass = .idle →
    model.idle = some thread ∧ Awake (model.thread thread)

theorem Fits.not_idle {queue : QueueId} {fields : Thread} (fits : Fits queue fields)
    (running : queue.Running) : fields.schedClass ≠ .idle := by
  cases queue with
  | threads => exact absurd rfl running
  | sleepQ => exact fits.1
  | _ => simp [fits.1]

/-- Fields that do not place a thread, such as its run time, may change. -/
structure SamePlace (before after : Thread) : Prop where
  schedClass : after.schedClass = before.schedClass
  tickToWake : after.tickToWake = before.tickToWake
  rqList : after.rqList = before.rqList

theorem SamePlace.fits {before after : Thread} (same : SamePlace before after)
    {queue : QueueId} (fits : Fits queue before) : Fits queue after := by
  cases queue with
  | threads => trivial
  | _ => simpa only [Fits, same.schedClass, same.tickToWake, same.rqList] using fits

theorem SamePlace.awake {before after : Thread} (same : SamePlace before after)
    (awake : Awake before) : Awake after := by
  simpa only [Awake, same.tickToWake, same.rqList] using awake

namespace Placed

variable {model : Model} {held : List ThreadPtr} {thread : ThreadPtr} {queue : QueueId}

/-! ## Moves -/

/-- Only the queues, the idle thread and some fields place the threads. -/
theorem congr (placed : Placed model held) {other : Model} (ready : Ready other)
    (queues : other.queue = model.queue) (idle : other.idle = model.idle)
    (same : ∀ thread ∈ model.queue .threads,
      SamePlace (model.thread thread) (other.thread thread)) : Placed other held where
  ready := ready
  nodup := by
    rw [queues]
    exact placed.nodup
  apart := by
    rw [queues]
    exact placed.apart
  fits := by
    rw [queues]
    intro queue thread member
    exact (same thread (placed.ready.known queue thread member)).fits
      (placed.fits queue thread member)
  heldNodup := placed.heldNodup
  heldKnown := by
    rw [queues]
    exact placed.heldKnown
  heldUnqueued := by
    intro thread member
    rw [KernelState.Unqueued, queues]
    exact placed.heldUnqueued thread member
  placed := by
    rw [queues]
    intro thread known notIdle
    rw [(same thread known).schedClass] at notIdle
    exact placed.placed thread known notIdle
  idleKnown := by
    rw [queues, idle]
    intro thread isIdle
    have known := placed.idleKnown thread isIdle
    rw [(same thread known.1).schedClass]
    exact known
  onlyIdle := by
    rw [queues, idle]
    intro thread known isIdle
    rw [(same thread known).schedClass] at isIdle
    have only := placed.onlyIdle thread known isIdle
    exact ⟨only.1, (same thread known).awake only.2⟩

/-- Change the fields of a thread in hand. -/
theorem change (placed : Placed model held) (member : thread ∈ held)
    (change : Thread → Thread)
    (sameClass : (change (model.thread thread)).schedClass = (model.thread thread).schedClass)
    (awake : (model.thread thread).schedClass = .idle → Awake (change (model.thread thread))) :
    Placed (model.setThread thread change) held := by
  have classes : ∀ other, ((model.setThread thread change).thread other).schedClass =
      (model.thread other).schedClass := by
    intro other
    by_cases equal : other = thread
    · subst equal
      rw [KernelState.thread_setThread_self, sameClass]
    · rw [KernelState.thread_setThread_of_ne _ _ equal]
  exact {
    ready := placed.ready.setThread change
    nodup := placed.nodup
    apart := placed.apart
    fits := by
      intro queue other inQueue
      by_cases equal : other = thread
      · subst equal
        by_cases running : queue.Running
        · exact absurd inQueue (placed.heldUnqueued other member queue running)
        · have isThreads : queue = .threads := not_not.mp running
          subst isThreads
          trivial
      · rw [KernelState.thread_setThread_of_ne _ _ equal]
        exact placed.fits queue other inQueue
    heldNodup := placed.heldNodup
    heldKnown := placed.heldKnown
    heldUnqueued := placed.heldUnqueued
    placed := by
      intro other known notIdle
      rw [classes] at notIdle
      exact placed.placed other known notIdle
    idleKnown := by
      intro other isIdle
      rw [classes]
      exact placed.idleKnown other isIdle
    onlyIdle := by
      intro other known isIdle
      rw [classes] at isIdle
      have only := placed.onlyIdle other known isIdle
      by_cases equal : other = thread
      · subst equal
        rw [KernelState.thread_setThread_self]
        exact ⟨only.1, awake isIdle⟩
      · rw [KernelState.thread_setThread_of_ne _ _ equal]
        exact only }

/-- The queues other than the changed one are as before. -/
theorem queue_cases (model : Model) (queue other : QueueId) (sequence : List ThreadPtr) :
    other = queue ∧ (model.setQueue queue sequence).queue other = sequence ∨
      other ≠ queue ∧ (model.setQueue queue sequence).queue other = model.queue other := by
  by_cases equal : other = queue
  · subst equal
    exact .inl ⟨rfl, model.queue_setQueue_self other sequence⟩
  · exact .inr ⟨equal, model.queue_setQueue_of_ne queue other sequence equal⟩

/-- Take a thread out of its queue into the hand. -/
theorem take (placed : Placed model held) (running : queue.Running)
    (member : thread ∈ model.queue queue) :
    Placed (model.remove queue thread) (thread :: held) := by
  have threads : (model.remove queue thread).queue .threads = model.queue .threads :=
    KernelState.queue_setQueue_of_ne _ _ _ _ (Ne.symm running)
  have subset : ∀ other, ∀ found ∈ (model.remove queue thread).queue other,
      found ∈ model.queue other := by
    intro other found inOther
    rcases queue_cases model queue other ((model.queue queue).erase thread) with
      ⟨rfl, changed⟩ | ⟨_, unchanged⟩
    · rw [KernelState.remove, changed] at inOther
      exact List.mem_of_mem_erase inOther
    · rw [KernelState.remove, unchanged] at inOther
      exact inOther
  have gone : (model.remove queue thread).Unqueued thread := by
    intro other otherRunning inOther
    have same := placed.apart other queue otherRunning running thread
      (subset other thread inOther) member
    subst same
    rw [KernelState.remove, KernelState.queue_setQueue_self] at inOther
    exact (placed.nodup other).not_mem_erase inOther
  have fresh : thread ∉ held := fun inHeld =>
    placed.heldUnqueued thread inHeld queue running member
  exact {
    ready := placed.ready.remove running
    nodup := by
      intro other
      rcases queue_cases model queue other ((model.queue queue).erase thread) with
        ⟨rfl, changed⟩ | ⟨_, unchanged⟩
      · rw [KernelState.remove, changed]
        exact (placed.nodup other).erase thread
      · rw [KernelState.remove, unchanged]
        exact placed.nodup other
    apart := fun left right leftRunning rightRunning found inLeft inRight =>
      placed.apart left right leftRunning rightRunning found (subset left found inLeft)
        (subset right found inRight)
    fits := fun other found inOther => placed.fits other found (subset other found inOther)
    heldNodup := List.nodup_cons.mpr ⟨fresh, placed.heldNodup⟩
    heldKnown := by
      intro found inHeld
      rw [threads]
      rcases List.mem_cons.mp inHeld with rfl | inHeld
      · exact placed.ready.known queue found member
      · exact placed.heldKnown found inHeld
    heldUnqueued := by
      intro found inHeld
      rcases List.mem_cons.mp inHeld with rfl | inHeld
      · exact gone
      · exact fun other otherRunning inOther =>
          placed.heldUnqueued found inHeld other otherRunning (subset other found inOther)
    placed := by
      rw [threads]
      intro found known notIdle
      by_cases isThread : found = thread
      · exact .inl (isThread ▸ List.mem_cons_self)
      · rcases placed.placed found known notIdle with inHeld | ⟨other, otherRunning, inOther⟩
        · exact .inl (List.mem_cons_of_mem _ inHeld)
        · refine .inr ⟨other, otherRunning, ?_⟩
          rcases queue_cases model queue other ((model.queue queue).erase thread) with
            ⟨rfl, changed⟩ | ⟨_, unchanged⟩
          · rw [KernelState.remove, changed]
            exact (List.mem_erase_of_ne isThread).mpr inOther
          · rw [KernelState.remove, unchanged]
            exact inOther
    idleKnown := by
      rw [threads]
      exact placed.idleKnown
    onlyIdle := by
      rw [threads]
      exact placed.onlyIdle }

/-- Put a thread from the hand into a queue. -/
theorem put (placed : Placed model (thread :: held)) (running : queue.Running)
    (fits : Fits queue (model.thread thread)) {sequence : List ThreadPtr}
    (inserted : sequence.Perm (thread :: model.queue queue)) :
    Placed (model.setQueue queue sequence) held := by
  have unqueued := placed.heldUnqueued thread List.mem_cons_self
  have known := placed.heldKnown thread List.mem_cons_self
  have threads : (model.setQueue queue sequence).queue .threads = model.queue .threads :=
    KernelState.queue_setQueue_of_ne _ _ _ _ (Ne.symm running)
  have cases : ∀ other, ∀ found ∈ (model.setQueue queue sequence).queue other,
      found = thread ∧ other = queue ∨ found ∈ model.queue other := by
    intro other found inOther
    rcases queue_cases model queue other sequence with ⟨rfl, changed⟩ | ⟨_, unchanged⟩
    · rw [changed] at inOther
      rcases List.mem_cons.mp (inserted.mem_iff.mp inOther) with rfl | inOld
      · exact .inl ⟨rfl, rfl⟩
      · exact .inr inOld
    · rw [unchanged] at inOther
      exact .inr inOther
  exact {
    ready := by
      apply placed.ready.setQueue running
      intro found inSequence
      rcases List.mem_cons.mp (inserted.mem_iff.mp inSequence) with rfl | inOld
      · exact known
      · exact placed.ready.known queue found inOld
    nodup := by
      intro other
      rcases queue_cases model queue other sequence with ⟨rfl, changed⟩ | ⟨_, unchanged⟩
      · rw [changed]
        exact inserted.nodup_iff.mpr
          (List.nodup_cons.mpr ⟨unqueued other running, placed.nodup other⟩)
      · rw [unchanged]
        exact placed.nodup other
    apart := by
      intro left right leftRunning rightRunning found inLeft inRight
      rcases cases left found inLeft with ⟨rfl, rfl⟩ | oldLeft
      · rcases cases right found inRight with ⟨_, rfl⟩ | oldRight
        · rfl
        · exact absurd oldRight (unqueued right rightRunning)
      · rcases cases right found inRight with ⟨rfl, rfl⟩ | oldRight
        · exact absurd oldLeft (unqueued left leftRunning)
        · exact placed.apart left right leftRunning rightRunning found oldLeft oldRight
    fits := by
      intro other found inOther
      rcases cases other found inOther with ⟨rfl, rfl⟩ | old
      · exact fits
      · exact placed.fits other found old
    heldNodup := (List.nodup_cons.mp placed.heldNodup).2
    heldKnown := by
      rw [threads]
      exact fun found inHeld => placed.heldKnown found (List.mem_cons_of_mem _ inHeld)
    heldUnqueued := by
      intro found inHeld other otherRunning inOther
      rcases cases other found inOther with ⟨rfl, rfl⟩ | old
      · exact (List.nodup_cons.mp placed.heldNodup).1 inHeld
      · exact placed.heldUnqueued found (List.mem_cons_of_mem _ inHeld) other otherRunning old
    placed := by
      rw [threads]
      intro found known notIdle
      have stays : ∀ other, found ∈ model.queue other →
          found ∈ (model.setQueue queue sequence).queue other := by
        intro other inOther
        rcases queue_cases model queue other sequence with ⟨rfl, changed⟩ | ⟨_, unchanged⟩
        · rw [changed]
          exact inserted.mem_iff.mpr (List.mem_cons_of_mem _ inOther)
        · rw [unchanged]
          exact inOther
      rcases placed.placed found known notIdle with inHeld | ⟨other, otherRunning, inOther⟩
      · rcases List.mem_cons.mp inHeld with rfl | inHeld
        · refine .inr ⟨queue, running, ?_⟩
          rw [KernelState.queue_setQueue_self]
          exact inserted.mem_iff.mpr List.mem_cons_self
        · exact .inl inHeld
      · exact .inr ⟨other, otherRunning, stays other inOther⟩
    idleKnown := by
      rw [threads]
      exact placed.idleKnown
    onlyIdle := by
      rw [threads]
      exact placed.onlyIdle }

/-- The idle thread may be let go: it is in no queue. -/
theorem drop (placed : Placed model (thread :: held))
    (idle : (model.thread thread).schedClass = .idle) : Placed model held where
  ready := placed.ready
  nodup := placed.nodup
  apart := placed.apart
  fits := placed.fits
  heldNodup := (List.nodup_cons.mp placed.heldNodup).2
  heldKnown := fun found inHeld => placed.heldKnown found (List.mem_cons_of_mem _ inHeld)
  heldUnqueued := fun found inHeld =>
    placed.heldUnqueued found (List.mem_cons_of_mem _ inHeld)
  placed := by
    intro found known notIdle
    rcases placed.placed found known notIdle with inHeld | inQueue
    · rcases List.mem_cons.mp inHeld with rfl | inHeld
      · exact absurd idle notIdle
      · exact .inl inHeld
    · exact .inr inQueue
  idleKnown := placed.idleKnown
  onlyIdle := placed.onlyIdle

/-- The idle thread may be picked up. -/
theorem hold (placed : Placed model held) (idle : model.idle = some thread)
    (fresh : thread ∉ held) : Placed model (thread :: held) := by
  rcases placed.idleKnown thread idle with ⟨known, isIdle⟩
  exact {
    ready := placed.ready
    nodup := placed.nodup
    apart := placed.apart
    fits := placed.fits
    heldNodup := List.nodup_cons.mpr ⟨fresh, placed.heldNodup⟩
    heldKnown := by
      intro found inHeld
      rcases List.mem_cons.mp inHeld with rfl | inHeld
      · exact known
      · exact placed.heldKnown found inHeld
    heldUnqueued := by
      intro found inHeld
      rcases List.mem_cons.mp inHeld with rfl | inHeld
      · exact fun queue running inQueue =>
          (placed.fits queue found inQueue).not_idle running isIdle
      · exact placed.heldUnqueued found inHeld
    placed := by
      intro found found_known notIdle
      rcases placed.placed found found_known notIdle with inHeld | inQueue
      · exact .inl (List.mem_cons_of_mem _ inHeld)
      · exact .inr inQueue
    idleKnown := placed.idleKnown
    onlyIdle := placed.onlyIdle }

theorem apart_of_running (placed : Placed model held) {after : Model}
    (running : ∀ queue : QueueId, queue.Running → after.queue queue = model.queue queue) :
    ∀ left right : QueueId, left.Running → right.Running → ∀ found,
      found ∈ after.queue left → found ∈ after.queue right → left = right := by
  intro left right leftRunning rightRunning
  rw [running left leftRunning, running right rightRunning]
  exact placed.apart left right leftRunning rightRunning

theorem fits_of_running (placed : Placed model held) {after : Model}
    (running : ∀ queue : QueueId, queue.Running → after.queue queue = model.queue queue)
    (fields : ∀ found, after.thread found = model.thread found) :
    ∀ queue, ∀ found ∈ after.queue queue, Fits queue (after.thread found) := by
  intro queue found member
  by_cases queueRunning : queue.Running
  · rw [running queue queueRunning] at member
    rw [fields]
    exact placed.fits queue found member
  · have isThreads : queue = .threads := not_not.mp queueRunning
    subst isThreads
    trivial

/-- Remove a thread in hand from the system. -/
theorem forget (placed : Placed model (thread :: held))
    (notIdle : (model.thread thread).schedClass ≠ .idle) :
    Placed (model.remove .threads thread) held := by
  have unqueued := placed.heldUnqueued thread List.mem_cons_self
  have fresh := (List.nodup_cons.mp placed.heldNodup).1
  have running : ∀ queue : QueueId, queue.Running →
      (model.remove .threads thread).queue queue = model.queue queue := fun queue running =>
    KernelState.queue_setQueue_of_ne _ _ _ _ running
  have threads : (model.remove .threads thread).queue .threads =
      (model.queue .threads).erase thread := KernelState.queue_setQueue_self ..
  have stays : ∀ found, found ∈ model.queue .threads → found ≠ thread →
      found ∈ (model.remove .threads thread).queue .threads := by
    intro found known different
    rw [threads]
    exact (List.mem_erase_of_ne different).mpr known
  have subset : ∀ found ∈ (model.remove .threads thread).queue .threads,
      found ∈ model.queue .threads := by
    intro found known
    rw [threads] at known
    exact List.mem_of_mem_erase known
  have different : ∀ queue : QueueId, queue.Running → ∀ found ∈ model.queue queue,
      found ≠ thread := by
    intro queue queueRunning found member equal
    exact unqueued queue queueRunning (equal ▸ member)
  exact {
    ready := {
      known := by
        intro queue found member
        by_cases queueRunning : queue.Running
        · rw [running queue queueRunning] at member
          exact stays found (placed.ready.known queue found member)
            (different queue queueRunning found member)
        · have isThreads : queue = .threads := not_not.mp queueRunning
          subst isThreads
          exact member
      objects := fun found known => placed.ready.objects found (subset found known)
      addresses := fun found known => placed.ready.addresses found (subset found known) }
    nodup := by
      intro queue
      rcases queue_cases model .threads queue ((model.queue .threads).erase thread) with
        ⟨rfl, changed⟩ | ⟨_, unchanged⟩
      · rw [KernelState.remove, changed]
        exact (placed.nodup .threads).erase thread
      · rw [KernelState.remove, unchanged]
        exact placed.nodup queue
    apart := placed.apart_of_running running
    fits := placed.fits_of_running running fun _ => rfl
    heldNodup := (List.nodup_cons.mp placed.heldNodup).2
    heldKnown := by
      intro found inHeld
      exact stays found (placed.heldKnown found (List.mem_cons_of_mem _ inHeld))
        fun equal => fresh (equal ▸ inHeld)
    heldUnqueued := by
      intro found inHeld queue queueRunning
      rw [running queue queueRunning]
      exact placed.heldUnqueued found (List.mem_cons_of_mem _ inHeld) queue queueRunning
    placed := by
      intro found known found_notIdle
      have isNot : found ≠ thread := by
        intro equal
        rw [threads, equal] at known
        exact (placed.nodup .threads).not_mem_erase known
      rcases placed.placed found (subset found known) found_notIdle with
        inHeld | ⟨queue, queueRunning, member⟩
      · rcases List.mem_cons.mp inHeld with equal | inHeld
        · exact absurd equal isNot
        · exact .inl inHeld
      · refine .inr ⟨queue, queueRunning, ?_⟩
        rw [running queue queueRunning]
        exact member
    idleKnown := by
      intro found isIdle
      have known := placed.idleKnown found isIdle
      exact ⟨stays found known.1 fun equal => notIdle (equal ▸ known.2), known.2⟩
    onlyIdle := fun found known => placed.onlyIdle found (subset found known) }

/-- Bring a new thread into the system; the idle thread comes once. -/
theorem adopt (placed : Placed model held) (fresh : thread ∉ model.queue .threads)
    (objects : ∀ field, model.lists.obj ⟨thread, field⟩ = some thread)
    (below : thread < 2 ^ 31) {idle : Option ThreadPtr}
    (new : (model.thread thread).schedClass ≠ .idle ∧ idle = model.idle ∨
      (model.thread thread).schedClass = .idle ∧ Awake (model.thread thread) ∧
        model.idle = none ∧ idle = some thread) :
    Placed ({ model with idle }.setQueue .threads (thread :: model.queue .threads))
      (thread :: held) := by
  have running : ∀ queue : QueueId, queue.Running →
      ({ model with idle }.setQueue .threads (thread :: model.queue .threads)).queue queue =
        model.queue queue := fun queue queueRunning =>
    KernelState.queue_setQueue_of_ne _ _ _ _ queueRunning
  have threads : ({ model with idle }.setQueue .threads
      (thread :: model.queue .threads)).queue .threads = thread :: model.queue .threads :=
    KernelState.queue_setQueue_self ..
  have unqueued : model.Unqueued thread := fun queue _ member =>
    fresh (placed.ready.known queue thread member)
  have notHeld : thread ∉ held := fun inHeld => fresh (placed.heldKnown thread inHeld)
  exact {
    ready := {
      known := by
        intro queue found member
        rw [threads]
        by_cases queueRunning : queue.Running
        · rw [running queue queueRunning] at member
          exact List.mem_cons_of_mem _ (placed.ready.known queue found member)
        · have isThreads : queue = .threads := not_not.mp queueRunning
          subst isThreads
          rw [threads] at member
          exact member
      objects := by
        rw [threads]
        intro found known
        rcases List.mem_cons.mp known with rfl | known
        · exact objects
        · exact placed.ready.objects found known
      addresses := by
        rw [threads]
        intro found known
        rcases List.mem_cons.mp known with rfl | known
        · exact below
        · exact placed.ready.addresses found known }
    nodup := by
      intro queue
      rcases queue_cases { model with idle } .threads queue (thread :: model.queue .threads) with
        ⟨rfl, changed⟩ | ⟨_, unchanged⟩
      · rw [changed]
        exact List.nodup_cons.mpr ⟨fresh, placed.nodup .threads⟩
      · rw [unchanged]
        exact placed.nodup queue
    apart := placed.apart_of_running running
    fits := placed.fits_of_running running fun _ => rfl
    heldNodup := List.nodup_cons.mpr ⟨notHeld, placed.heldNodup⟩
    heldKnown := by
      rw [threads]
      intro found inHeld
      rcases List.mem_cons.mp inHeld with rfl | inHeld
      · exact List.mem_cons_self
      · exact List.mem_cons_of_mem _ (placed.heldKnown found inHeld)
    heldUnqueued := by
      intro found inHeld queue queueRunning
      rw [running queue queueRunning]
      rcases List.mem_cons.mp inHeld with rfl | inHeld
      · exact unqueued queue queueRunning
      · exact placed.heldUnqueued found inHeld queue queueRunning
    placed := by
      rw [threads]
      intro found known notIdle
      rcases List.mem_cons.mp known with rfl | known
      · exact .inl List.mem_cons_self
      · rcases placed.placed found known notIdle with inHeld | ⟨queue, queueRunning, member⟩
        · exact .inl (List.mem_cons_of_mem _ inHeld)
        · refine .inr ⟨queue, queueRunning, ?_⟩
          rw [running queue queueRunning]
          exact member
    idleKnown := by
      rw [threads]
      intro found isIdle
      rcases new with ⟨_, rfl⟩ | ⟨newIdle, _, _, rfl⟩
      · have known := placed.idleKnown found isIdle
        exact ⟨List.mem_cons_of_mem _ known.1, known.2⟩
      · cases isIdle
        exact ⟨List.mem_cons_self, newIdle⟩
    onlyIdle := by
      rw [threads]
      intro found known isIdle
      rcases new with ⟨notIdle, rfl⟩ | ⟨_, awake, before, rfl⟩
      · rcases List.mem_cons.mp known with rfl | known
        · exact absurd isIdle notIdle
        · exact placed.onlyIdle found known isIdle
      · rcases List.mem_cons.mp known with rfl | known
        · exact ⟨rfl, awake⟩
        · have only := placed.onlyIdle found known isIdle
          rw [before] at only
          cases only.1 }

end Placed

end Vanilla.Kernel
