import Vanilla.Foundation.Exec

namespace Vanilla

/-! Two executions side by side: related states, and where they return, values of
which something holds. -/

namespace Lockstep

variable {State Value Other Middle Between : Type} {Related : State → State → Prop}

/-- Both executions return, or both stop in the same fault. -/
inductive Matched (Related : State → State → Prop)
    (Same : State → State → Value → Other → Prop) :
    EStateM.Result Fault State Value → EStateM.Result Fault State Other → Prop where
  | ok {left right : State} {value : Value} {other : Other} : Related left right →
      Same left right value other → Matched Related Same (.ok value left) (.ok other right)
  | error {left right : State} (reason : Fault) : Related left right →
      Matched Related Same (.error reason left) (.error reason right)

theorem Matched.bind {Passed : State → State → Middle → Between → Prop}
    {Same : State → State → Value → Other → Prop} {first : Exec State Middle}
    {second : Middle → Exec State Value} {first' : Exec State Between}
    {second' : Between → Exec State Other} {left right : State}
    (starts : Matched Related Passed (first.run left) (first'.run right))
    (goesOn : ∀ middle between later later', Related later later' →
      Passed later later' middle between →
      Matched Related Same ((second middle).run later) ((second' between).run later')) :
    Matched Related Same ((first >>= second).run left) ((first' >>= second').run right) := by
  rw [EStateM.run_bind, EStateM.run_bind]
  generalize first.run left = result at starts ⊢
  generalize first'.run right = result' at starts ⊢
  cases starts with
  | ok related passed => exact goesOn _ _ _ _ related passed
  | error reason related => exact .error reason related

theorem Matched.pure {Same : State → State → Value → Other → Prop} {left right : State}
    {value : Value} {other : Other} (related : Related left right)
    (same : Same left right value other) :
    Matched Related Same ((Pure.pure value : Exec State Value).run left)
      ((Pure.pure other : Exec State Other).run right) := .ok related same

theorem Matched.fault {Same : State → State → Value → Other → Prop} {left right : State}
    (related : Related left right) (reason : Fault) :
    Matched Related Same ((Exec.fault reason : Exec State Value).run left)
      ((Exec.fault reason : Exec State Other).run right) := .error reason related

end Lockstep

end Vanilla
