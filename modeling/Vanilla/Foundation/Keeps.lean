import Vanilla.Foundation.Exec

/-! # What an execution that returns keeps

`Keeps Holds code post`: whenever `code` returns, it keeps `Holds` and its value
meets `post`. Nothing is said about executions that fault.
-/

namespace Vanilla.Exec

variable {State Value Middle Pointer Whole Component : Type}

def Keeps (Holds : State → Prop) (code : Exec State Value) (post : Value → Prop) : Prop :=
  ∀ before value after, Holds before → code.run before = .ok value after →
    Holds after ∧ post value

/-- What a zoomed execution that returns has done. -/
theorem run_zoom_inv {view : Whole → Component} {update : Component → Whole → Whole}
    {body : Exec Component Value} {value : Value} {before after : Whole}
    (returns : (zoom view update body).run before = .ok value after) :
    ∃ part, body.run (view before) = .ok value part ∧ after = update part before := by
  cases outcome : body.run (view before) with
  | ok result part =>
      rw [run_zoom_ok outcome] at returns
      cases returns
      exact ⟨part, rfl, rfl⟩
  | error reason part =>
      rw [run_zoom_error outcome] at returns
      cases returns

namespace Keeps

variable {Holds : State → Prop} {post : Value → Prop}

theorem pure {value : Value} (meets : post value) :
    Keeps Holds (Pure.pure value : Exec State Value) post := by
  intro before result after holds returns
  cases returns
  exact ⟨holds, meets⟩

theorem bind {first : Exec State Middle} {second : Middle → Exec State Value}
    {middle : Middle → Prop} (head : Keeps Holds first middle)
    (tail : ∀ value, middle value → Keeps Holds (second value) post) :
    Keeps Holds (first >>= second) post := by
  intro before value after holds returns
  obtain ⟨between, state, firstReturns, secondReturns⟩ := run_bind_ok.mp returns
  obtain ⟨held, meets⟩ := head before between state holds firstReturns
  exact tail between meets state value after held secondReturns

/-- What is read is some state that the predicate holds of. -/
theorem get {body : State → Exec State Value}
    (rest : ∀ state, Holds state → Keeps Holds (body state) post) :
    Keeps Holds (MonadState.get >>= body) post := by
  intro before value after holds returns
  rw [run_bind_of_ok (EStateM.run_get before)] at returns
  exact rest before holds before value after holds returns

theorem set {state : State} (holds : Holds state) :
    Keeps Holds (MonadStateOf.set state : Exec State PUnit) fun _ => True := by
  intro before value after _ returns
  cases returns
  exact ⟨holds, trivial⟩

theorem fault (reason : Fault) : Keeps Holds (Exec.fault reason) post := by
  intro before value after _ returns
  cases returns

theorem panic (reason : String) : Keeps Holds (Exec.panic reason) post := fault _

theorem deref {source : Option Pointer} {meets : Pointer → Prop}
    (found : ∀ pointer, source = some pointer → meets pointer) :
    Keeps Holds (Exec.deref source) meets := by
  cases source with
  | none => exact fault _
  | some pointer => exact pure (found pointer rfl)

theorem derefAny {source : Option Pointer} :
    Keeps Holds (Exec.deref source) fun _ => True :=
  deref fun _ _ => trivial

/-- A component keeps its own predicate, and the rest of the state stands still. -/
theorem zoom {Part : Component → Prop} {HoldsWhole : Whole → Prop}
    {view : Whole → Component} {update : Component → Whole → Whole}
    {body : Exec Component Value} (keeps : Keeps Part body post)
    (viewed : ∀ whole, HoldsWhole whole → Part (view whole))
    (updated : ∀ whole part, HoldsWhole whole → Part part → HoldsWhole (update part whole)) :
    Keeps HoldsWhole (Exec.zoom view update body) post := by
  intro before value after holds returns
  obtain ⟨part, outcome, same⟩ := run_zoom_inv returns
  obtain ⟨held, meets⟩ := keeps _ _ _ (viewed before holds) outcome
  rw [same]
  exact ⟨updated before part holds held, meets⟩

end Keeps

theorem keeps_modify {Holds : State → Prop} {change : State → State}
    (keeps : ∀ state, Holds state → Holds (change state)) :
    Keeps Holds (modify change) fun _ => True := by
  intro before value after holds returns
  cases returns
  exact ⟨keeps before holds, trivial⟩

end Vanilla.Exec
