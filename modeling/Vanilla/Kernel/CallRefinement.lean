import Vanilla.Kernel.Frames
import Vanilla.Kernel.SystickRefinement

/-! # Whole exceptions and calls follow their model

Each theorem here runs a function of the source from its first line to its last.
-/

namespace Vanilla.Kernel

open Mm DlistStore

variable {lists : KernelLists} {model : Model} {curr thread next : ThreadPtr} {cvr : Nat}

/-! ## SysTick -/

theorem takes_removeExitedThread_none (rep : ListsRep lists model.lists)
    (running : model.currThread = some curr)
    (stays : (model.thread curr).exitPending = false) :
    Takes lists model removeExitedThread () model := by
  apply Takes.get
  apply Takes.bind (Takes.deref rep running)
  intro lists rep
  have condition : ¬ ((model.withLists lists).thread curr).exitPending = true := by
    rw [show ((model.withLists lists).thread curr).exitPending = false from stays]
    exact Bool.false_ne_true
  exact (if_neg condition).symm ▸ Takes.pure rep

theorem takes_removeExitedThread {mm : MmState} (rep : ListsRep lists model.lists)
    (running : model.currThread = some curr)
    (exits : (model.thread curr).exitPending = true) (known : curr ∈ model.queue .threads)
    (queued : ∀ list, (model.thread curr).rqList = some list →
      list.Running ∧ curr ∈ model.queue list)
    (alone : (model.thread curr).rqList = none → model.Unqueued curr)
    (deleted : (deleteThread (model.thread curr).codeAddr curr).run model.mm = .ok () mm) :
    Takes lists model removeExitedThread () (model.removeThread curr mm) := by
  apply Takes.get
  apply Takes.bind (Takes.deref rep running)
  intro lists rep
  have condition : ((model.withLists lists).thread curr).exitPending = true := exits
  have removed := takes_schedulerRemoveThread rep running known queued alone deleted
  exact (if_pos condition).symm ▸ removed

theorem accountRuntime_currThread (model : Model) (curr : ThreadPtr) (cvr : Nat) :
    (model.accountRuntime curr cvr).currThread = model.currThread := by
  rw [(model.accountRuntime_frame curr cvr).outside]

/-- Neither the accounting nor the wake-ups change which thread runs. -/
theorem processed_currThread (model : Model) (curr : ThreadPtr) (cvr : Nat) :
    (model.accountRuntime curr cvr).processExpiredDelays.currThread = model.currThread := by
  rw [(KernelState.processExpiredDelays_outside _ :)]
  exact accountRuntime_currThread model curr cvr

theorem Ready.accountRuntime (ready : Ready model) (curr : ThreadPtr) (cvr : Nat) :
    Ready (model.accountRuntime curr cvr) := by
  apply ready.of_lists
  rw [(model.accountRuntime_frame curr cvr).outside]

theorem takes_systickException {removed after : Model} (rep : ListsRep lists model.lists)
    (started : model.schedulerStatus = true) (running : model.currThread = some curr)
    (ready : Ready model) (processed : Ready (model.accountRuntime curr cvr).processExpiredDelays)
    (unqueued : (((model.accountRuntime curr cvr).processExpiredDelays).thread
      curr).tickToWake = 0 → (model.accountRuntime curr cvr).processExpiredDelays.Unqueued curr)
    (exits : ∀ lists, ListsRep lists (model.beforePick curr cvr).lists →
      Takes lists (model.beforePick curr cvr) removeExitedThread () removed)
    (readyRemoved : Ready removed) (picked : removed.pick = some (next, after)) :
    Takes lists model (systickException cvr) ()
      { after with nextThread := some next, pendsvPending := true } := by
  have processedRunning := (processed_currThread model curr cvr).trans running
  apply Takes.get
  have condition : (model.withLists lists).schedulerStatus = true := started
  rw [if_pos condition]
  apply Takes.bind (takes_accountRuntime rep ready running cvr)
  intro lists rep
  apply Takes.bind (takes_processExpiredDelays rep (ready.accountRuntime curr cvr))
  intro lists rep
  apply Takes.bind (takes_requeueCurrThread rep processed processedRunning unqueued)
  intro lists rep
  apply Takes.bind (exits lists rep)
  intro lists rep
  apply Takes.bind (takes_coreScheduler rep readyRemoved picked)
  exact fun final finalRep => Takes.modify finalRep rfl rfl

/-! ## PendSV -/

theorem takes_pendsvException (rep : ListsRep lists model.lists)
    (chosen : model.nextThread = some next) :
    Takes lists model pendsvException ()
      { model with currThread := some next, pendsvPending := false } := by
  apply Takes.get
  rw [show (model.withLists lists).nextThread = some next from chosen]
  exact Takes.set rep rfl (by rw [chosen]; rfl)

/-! ## The thread of an ID -/

theorem takes_findThread (rep : ListsRep lists model.lists) (ready : Ready model) (tid : Nat)
    {front rest : List ThreadPtr} {rounds : Nat}
    (split : model.queue .threads = front ++ rest) (enough : rest.length ≤ rounds) :
    Takes lists model (findThread tid rounds (rest.head?.map (nodeIn .threads)))
      (rest.find? fun thread => decide ((model.thread thread).tid = tid)) model := by
  induction rest generalizing lists front rounds with
  | nil => cases rounds <;> exact Takes.pure rep
  | cons thread rest induction =>
      cases rounds with
      | zero => cases enough
      | succ rounds =>
          have member : thread ∈ model.queue .threads := by simp [split]
          simp only [List.head?_cons, Option.map_some, findThread]
          apply Takes.bind (takes_nodeThread rep (ready.object member))
          intro lists rep
          apply Takes.get
          change Takes lists model (if (model.thread thread).tid = tid then _ else _) _ _
          by_cases found : (model.thread thread).tid = tid
          · rw [if_pos found, List.find?_cons_of_pos (by simpa using found)]
            exact Takes.pure rep
          · have passed : model.queue .threads = (front ++ [thread]) ++ rest := by
              rw [split, List.append_assoc]
              rfl
            rw [if_neg found, List.find?_cons_of_neg (by simpa using found)]
            change Takes lists model
              (findThread tid rounds (lists.node (nodeIn .threads thread)).next) _ _
            rw [rep.next split]
            exact induction rep passed (Nat.le_of_succ_le_succ enough)

theorem takes_getThread (rep : ListsRep lists model.lists) (ready : Ready model) (tid : Nat) :
    Takes lists model (getThread tid) (model.findThread tid) model := by
  have enough := rep.length_le_loopRounds .threads
  apply Takes.get
  change Takes lists model (findThread tid loopRounds (lists.list .threads).first) _ _
  rw [rep.first]
  have whole : model.queue .threads = [] ++ model.queue .threads := rfl
  exact takes_findThread rep ready tid whole enough

/-! ## Exits -/

theorem takes_threadExit (rep : ListsRep lists model.lists)
    (running : model.currThread = some curr) :
    Takes lists model threadExit ()
      (model.setThread curr fun fields => { fields with exitPending := true }) := by
  apply Takes.get
  apply Takes.bind (Takes.deref rep running)
  exact fun final finalRep => Takes.setThread curr _ finalRep

namespace KernelState

/-- A thread that is killed exits at the end of its next slice. -/
def killThread (model : Model) (tid : Nat) : Model :=
  match model.findThread tid with
  | some thread =>
      { model.setThread thread (fun fields => { fields with exitPending := true }) with
        schedulerStatus := true }
  | none => { model with schedulerStatus := true }

end KernelState

theorem takes_killThread (rep : ListsRep lists model.lists) (ready : Ready model) (tid : Nat) :
    Takes lists model (killThread tid) () (model.killThread tid) := by
  have suspended : Takes lists model suspendScheduler ()
      { model with schedulerStatus := false } := Takes.modify rep rfl rfl
  apply suspended.bind
  intro lists rep
  apply Takes.bind (takes_getThread rep (ready.of_lists rfl) tid)
  intro lists rep
  change Takes lists { model with schedulerStatus := false } (match model.findThread tid with
    | some thread => _
    | none => _) () _
  simp only [KernelState.killThread]
  cases model.findThread tid with
  | none =>
      apply Takes.bind (Takes.pure rep)
      exact fun final finalRep => Takes.modify finalRep rfl rfl
  | some thread =>
      apply Takes.bind (Takes.setThread thread _ rep)
      exact fun final finalRep => Takes.modify finalRep rfl rfl

/-! ## Blocking -/

theorem takes_rtBlock_blocked (rep : ListsRep lists model.lists)
    (blocked : (model.thread thread).rqList = some .blockedQ) :
    Takes lists model (rtBlock thread) () model := by
  apply Takes.get
  rw [show ((model.withLists lists).thread thread).rqList = some .blockedQ from blocked]
  exact Takes.pure rep

theorem takes_rtBlock {queue : QueueId} (rep : ListsRep lists model.lists) (ready : Ready model)
    (queued : (model.thread thread).rqList = some queue) (notBlocked : queue ≠ .blockedQ)
    (running : queue.Running) (member : thread ∈ model.queue queue) :
    Takes lists model (rtBlock thread) () (model.block thread queue) := by
  have removed := takes_remove rep member
  rw [nodeIn_of_running running] at removed
  have blockedRunning : QueueId.blockedQ.Running := by simp [QueueId.Running]
  have unqueued := unqueued_remove rep running member
  apply Takes.get
  rw [show ((model.withLists lists).thread thread).rqList = some queue from queued]
  cases queue with
  | blockedQ => exact absurd rfl notBlocked
  | _ =>
      apply Takes.bind removed
      intro lists rep
      apply Takes.bind (takes_insertLast rep blockedRunning unqueued
        ((ready.remove running).room rep .blockedQ))
      exact fun final finalRep => Takes.setThread thread _ finalRep

theorem takes_rtUnblock_other (rep : ListsRep lists model.lists)
    (free : (model.thread thread).rqList ≠ some .blockedQ) :
    Takes lists model (rtUnblock thread) () model := by
  apply Takes.get
  have condition : ((model.withLists lists).thread thread).rqList ≠ some .blockedQ := free
  rw [if_pos condition]
  exact Takes.pure rep

theorem takes_rtUnblock (rep : ListsRep lists model.lists) (ready : Ready model)
    (blocked : (model.thread thread).rqList = some .blockedQ)
    (member : thread ∈ model.queue .blockedQ) :
    Takes lists model (rtUnblock thread) () (model.unblock thread) := by
  have running : QueueId.blockedQ.Running := by simp [QueueId.Running]
  have rtRunning : QueueId.rtRq.Running := by simp [QueueId.Running]
  have unqueued : ((model.remove .blockedQ thread).setThread thread fun fields =>
      { fields with tickToWake := 0 }).Unqueued thread := unqueued_remove rep running member
  apply Takes.get
  have condition : ¬ ((model.withLists lists).thread thread).rqList ≠ some .blockedQ :=
    not_not.mpr blocked
  rw [if_neg condition]
  apply Takes.bind (takes_remove rep member)
  intro lists rep
  apply Takes.bind (Takes.setThread thread _ rep)
  intro lists rep
  apply Takes.bind (takes_insertLast rep rtRunning unqueued
    (((ready.remove running).setThread _).room rep .rtRq))
  exact fun final finalRep => Takes.setThread thread _ finalRep

section OnOtherThread

variable {operation : SchedulingClass → Option (ThreadPtr → Exec Machine Unit)}

/-- For a thread that does not run, `onOtherThread` is the operation of its
class. -/
theorem run_onOtherThread {kernel : Machine} (other : kernel.currThread ≠ some thread) :
    (onOtherThread operation (some thread)).run kernel =
      ((operation (kernel.thread thread).schedClass.table).elim (Exec.fault .nullDereference)
        fun code => code thread).run kernel := by
  have condition : ¬ some thread = kernel.currThread := fun same => other same.symm
  have pointer : Exec.deref (some thread) = (pure thread : Exec Machine ThreadPtr) := rfl
  rw [onOtherThread, Exec.run_bind_of_ok (EStateM.run_get kernel), if_neg condition, pointer,
    pure_bind]
  cases operation (kernel.thread thread).schedClass.table with
  | none => rfl
  | some code => rfl

theorem takes_onOtherThread {code : ThreadPtr → Exec Machine Unit} {after : Model}
    (other : model.currThread ≠ some thread)
    (present : operation (model.thread thread).schedClass.table = some code)
    (takes : Takes lists model (code thread) () after) :
    Takes lists model (onOtherThread operation (some thread)) () after := by
  have found : operation ((model.withLists lists).thread thread).schedClass.table = some code :=
    present
  rcases takes with ⟨final, returns, rep⟩
  refine ⟨final, ?_, rep⟩
  rw [run_onOtherThread other, found]
  exact returns

end OnOtherThread

end Vanilla.Kernel
