import Vanilla.Foundation.Exec

/-! # Executions with a larger bound

`Extends code more`: where `code` returns, `more` returns the same. A loop that is
cut off after some rounds is extended by the loop with more of them.
-/

namespace Vanilla.Exec

variable {State Value Middle : Type}

def Extends (code more : Exec State Value) : Prop :=
  ∀ before value after, code.run before = .ok value after → more.run before = .ok value after

namespace Extends

theorem refl (code : Exec State Value) : Extends code code := fun _ _ _ returns => returns

theorem fault (reason : Fault) (more : Exec State Value) : Extends (Exec.fault reason) more := by
  intro before value after returns
  cases returns

theorem bind {first moreFirst : Exec State Middle} {second moreSecond : Middle → Exec State Value}
    (head : Extends first moreFirst) (tail : ∀ value, Extends (second value) (moreSecond value)) :
    Extends (first >>= second) (moreFirst >>= moreSecond) := by
  intro before value after returns
  obtain ⟨middle, between, firstReturns, secondReturns⟩ := run_bind_ok.mp returns
  exact run_bind_ok.mpr ⟨middle, between, head _ _ _ firstReturns, tail _ _ _ _ secondReturns⟩

theorem then_ {first : Exec State Middle} {second moreSecond : Middle → Exec State Value}
    (tail : ∀ value, Extends (second value) (moreSecond value)) :
    Extends (first >>= second) (first >>= moreSecond) := (refl first).bind tail

end Extends

end Vanilla.Exec
