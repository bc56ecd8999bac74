import Mathlib.Logic.Function.Basic
import Vanilla.Foundation.Run

namespace Vanilla.Kernel

/-! The spinlock of spinlock.h under preemption. Its loop is two instructions with
a reservation in between, which every change to another context takes away. -/

/-- Where a context is in `spinlock_aquire`: before the `ldrex`, before the `strex`,
or past the loop. -/
inductive SpinPc where
  | outside
  | loads
  | stores
  | inside
deriving DecidableEq

section Spinlock

variable {Ctx : Type} [DecidableEq Ctx]

/-- The lock word, the exclusive monitor of the processor, and the threads and handlers,
one of which runs. -/
structure SpinCore (Ctx : Type) where
  lock : Nat
  exclusive : Bool
  running : Ctx
  pc : Ctx → SpinPc

namespace SpinCore

def goTo (pc : SpinPc) (core : SpinCore Ctx) : SpinCore Ctx :=
  { core with pc := Function.update core.pc core.running pc }

/-- `while (ldrex(&spinlock->lock))`. -/
def ldrex (core : SpinCore Ctx) : SpinCore Ctx :=
  goTo (if core.lock ≠ 0 then .loads else .stores) { core with exclusive := true }

/-- `status = strex(&spinlock->lock, 1)`: a status of 1 is back to the loop. -/
def strex (core : SpinCore Ctx) : SpinCore Ctx :=
  if core.exclusive then goTo .inside { core with lock := 1, exclusive := false }
  else goTo .loads core

/-- `spinlock_release`. -/
def release (core : SpinCore Ctx) : SpinCore Ctx := goTo .outside { core with lock := 0 }

/-- An exception is entered or left; both clear the monitor. -/
def switch (next : Ctx) (core : SpinCore Ctx) : SpinCore Ctx :=
  { core with running := next, exclusive := false }

end SpinCore

inductive SpinEvent (Ctx : Type) where
  | aquire
  | ldrex
  | strex
  | release
  | switch (next : Ctx)

/-- Only the holder releases. -/
inductive SpinStep : SpinCore Ctx → SpinEvent Ctx → SpinCore Ctx → Prop where
  | aquire {core : SpinCore Ctx} : core.pc core.running = .outside →
      SpinStep core .aquire (core.goTo .loads)
  | ldrex {core : SpinCore Ctx} : core.pc core.running = .loads → SpinStep core .ldrex core.ldrex
  | strex {core : SpinCore Ctx} : core.pc core.running = .stores → SpinStep core .strex core.strex
  | release {core : SpinCore Ctx} : core.pc core.running = .inside →
      SpinStep core .release core.release
  | switch (core : SpinCore Ctx) (next : Ctx) : SpinStep core (.switch next) (core.switch next)

/-- `spinlock_init`, and nobody has called yet. -/
structure SpinCore.Fresh (core : SpinCore Ctx) : Prop where
  free : core.lock = 0
  outside : ∀ ctx, core.pc ctx = .outside

/-- A reservation of the context that runs is for a free lock, so that no other context has
got in since the load. -/
structure SpinInvariant (core : SpinCore Ctx) : Prop where
  taken : core.lock ≠ 0 ↔ ∃ ctx, core.pc ctx = .inside
  alone : ∀ first second, core.pc first = .inside → core.pc second = .inside → first = second
  reserved : core.exclusive = true → core.pc core.running = .stores → core.lock = 0

variable {core before after : SpinCore Ctx} {event : SpinEvent Ctx} {events : List (SpinEvent Ctx)}

omit [DecidableEq Ctx] in
theorem SpinCore.Fresh.invariant (fresh : core.Fresh) : SpinInvariant core := by
  have nobody : ∀ ctx, core.pc ctx ≠ .inside := fun ctx inside =>
    SpinPc.noConfusion (inside.symm.trans (fresh.outside ctx))
  constructor
  · constructor
    · exact fun taken => absurd fresh.free taken
    · exact fun ⟨ctx, inside⟩ => absurd inside (nobody ctx)
  · exact fun first _ inside => absurd inside (nobody first)
  · exact fun _ _ => fresh.free

/-- Moving between two places outside the critical section changes nobody's hold. -/
theorem goTo_inside_iff {pc : SpinPc} (away : core.pc core.running ≠ .inside)
    (still : pc ≠ .inside) (ctx : Ctx) :
    (core.goTo pc).pc ctx = .inside ↔ core.pc ctx = .inside := by
  change Function.update core.pc core.running pc ctx = .inside ↔ _
  by_cases same : ctx = core.running
  · rw [same, Function.update_self]
    exact ⟨fun inside => absurd inside still, fun inside => absurd inside away⟩
  · rw [Function.update_of_ne same]

theorem SpinInvariant.move {pc : SpinPc} {exclusive : Bool} (invariant : SpinInvariant core)
    (away : core.pc core.running ≠ .inside) (still : pc ≠ .inside)
    (reserved : exclusive = true → pc = .stores → core.lock = 0) :
    SpinInvariant (SpinCore.goTo pc { core with exclusive := exclusive }) := by
  have inside := @goTo_inside_iff _ _ { core with exclusive := exclusive } pc away still
  constructor
  · exact invariant.taken.trans (exists_congr fun ctx => (inside ctx).symm)
  · intro first second firstInside secondInside
    exact invariant.alone _ _ ((inside first).mp firstInside) ((inside second).mp secondInside)
  · intro exclusive at_
    have here : Function.update core.pc core.running pc core.running = pc :=
      Function.update_self ..
    exact reserved exclusive (here.symm.trans at_)

/-- The store succeeds on a free lock only. -/
theorem SpinInvariant.enter (invariant : SpinInvariant core) (free : core.lock = 0) :
    SpinInvariant (SpinCore.goTo .inside { core with lock := 1, exclusive := false }) := by
  have nobody : ∀ ctx, core.pc ctx ≠ .inside :=
    fun ctx inside => invariant.taken.mpr ⟨ctx, inside⟩ free
  have only : ∀ ctx, Function.update core.pc core.running .inside ctx = .inside →
      ctx = core.running := by
    intro ctx inside
    by_contra other
    rw [Function.update_of_ne other] at inside
    exact nobody ctx inside
  constructor
  · exact ⟨fun _ => ⟨core.running, Function.update_self ..⟩, fun _ => Nat.one_ne_zero⟩
  · exact fun first second inside also => (only first inside).trans (only second also).symm
  · exact nofun

theorem SpinInvariant.leave (invariant : SpinInvariant core)
    (holds : core.pc core.running = .inside) : SpinInvariant core.release := by
  have nobody : ∀ ctx, Function.update core.pc core.running .outside ctx ≠ .inside := by
    intro ctx inside
    by_cases same : ctx = core.running
    · rw [same, Function.update_self] at inside
      cases inside
    · rw [Function.update_of_ne same] at inside
      exact same (invariant.alone ctx core.running inside holds)
  constructor
  · exact ⟨fun taken => absurd rfl taken, fun ⟨ctx, inside⟩ => absurd inside (nobody ctx)⟩
  · exact fun first _ inside => absurd inside (nobody first)
  · exact fun _ _ => rfl

theorem SpinStep.preserves (invariant : SpinInvariant before)
    (step : SpinStep before event after) : SpinInvariant after := by
  cases step with
  | aquire outside =>
      have away : before.pc before.running ≠ .inside := outside ▸ nofun
      exact invariant.move away nofun nofun
  | ldrex loads =>
      have away : before.pc before.running ≠ .inside := loads ▸ nofun
      rw [SpinCore.ldrex]
      split
      · exact invariant.move away nofun nofun
      · rename_i free
        exact invariant.move away nofun fun _ _ => not_not.mp free
  | strex stores =>
      have away : before.pc before.running ≠ .inside := stores ▸ nofun
      rw [SpinCore.strex]
      split
      · rename_i exclusive
        exact invariant.enter (invariant.reserved exclusive stores)
      · exact invariant.move away nofun nofun
  | release inside => exact invariant.leave inside
  | switch next => exact ⟨invariant.taken, invariant.alone, nofun⟩

theorem spinInvariant_of_run (fresh : core.Fresh) (run : Run SpinStep core events after) :
    SpinInvariant after :=
  run.invariant SpinInvariant (fun _ _ _ invariant step => step.preserves invariant)
    fresh.invariant

/-- However threads and handlers interrupt each other between the instructions of the lock,
one of them at most is past it, and then the lock is taken. -/
theorem spinlock_excludes (fresh : core.Fresh) (run : Run SpinStep core events after) :
    (after.lock ≠ 0 ↔ ∃ ctx, after.pc ctx = .inside) ∧
      ∀ first second, after.pc first = .inside → after.pc second = .inside → first = second :=
  ⟨(spinInvariant_of_run fresh run).taken, (spinInvariant_of_run fresh run).alone⟩

/-! ## Waiting for the lock -/

/-- What happens without this context. -/
def Excludes (holder : Ctx) : SpinEvent Ctx → Prop
  | .switch next => next ≠ holder
  | _ => True

structure HeldBy (holder : Ctx) (core : SpinCore Ctx) : Prop where
  invariant : SpinInvariant core
  inside : core.pc holder = .inside
  paused : core.running ≠ holder

theorem SpinStep.running (step : SpinStep before event after) :
    after.running = before.running ∨ event = .switch after.running := by
  cases step with
  | aquire => exact .inl rfl
  | ldrex => exact .inl rfl
  | strex =>
      rw [SpinCore.strex]
      split
      · exact .inl rfl
      · exact .inl rfl
  | release => exact .inl rfl
  | switch => exact .inr rfl

/-- A step moves the context that runs alone. -/
theorem SpinStep.pc (step : SpinStep before event after) {ctx : Ctx}
    (other : before.running ≠ ctx) : after.pc ctx = before.pc ctx := by
  cases step with
  | aquire => exact Function.update_of_ne other.symm _ _
  | ldrex => exact Function.update_of_ne other.symm _ _
  | strex =>
      rw [SpinCore.strex]
      split
      · exact Function.update_of_ne other.symm _ _
      · exact Function.update_of_ne other.symm _ _
  | release => exact Function.update_of_ne other.symm _ _
  | switch => rfl

theorem HeldBy.step {holder : Ctx} (held : HeldBy holder before) (excludes : Excludes holder event)
    (step : SpinStep before event after) : HeldBy holder after := by
  refine ⟨step.preserves held.invariant, (step.pc held.paused).trans held.inside, ?_⟩
  rcases step.running with same | switches
  · exact same ▸ held.paused
  · subst switches
    exact excludes

/-- A context that interrupts the holder does not get the lock until the holder runs again:
a handler would wait for ever. A free lock is taken in one round of the loop by a context
that is not interrupted in it. -/
theorem spinlock_waits (fresh : core.Fresh) (run : Run SpinStep core events after) :
    (∀ holder, after.pc holder = .inside → after.running ≠ holder →
      ∀ later last, (∀ event ∈ later, Excludes holder event) → Run SpinStep after later last →
        last.lock ≠ 0 ∧ ∀ ctx, last.pc ctx = .inside → ctx = holder) ∧
    (after.lock = 0 → after.pc after.running = .loads →
      ∃ last, Run SpinStep after [.ldrex, .strex] last ∧ last.pc after.running = .inside) := by
  have invariant := spinInvariant_of_run fresh run
  constructor
  · intro holder inside paused later last excludes rest
    have held : HeldBy holder last := rest.invariant_of_events (HeldBy holder) (Excludes holder)
      (fun _ _ _ held allowed step => held.step allowed step) excludes ⟨invariant, inside, paused⟩
    refine ⟨held.invariant.taken.mpr ⟨holder, held.inside⟩, fun ctx also => ?_⟩
    exact held.invariant.alone ctx holder also held.inside
  · intro free loads
    have loaded : after.ldrex.pc after.running = .stores := by
      rw [SpinCore.ldrex, if_neg (not_not.mpr free)]
      exact Function.update_self ..
    refine ⟨after.ldrex.strex, .cons (.ldrex loads) (.cons (.strex loaded) (.nil _)), ?_⟩
    have reserved : after.ldrex.exclusive = true := rfl
    rw [SpinCore.strex, if_pos reserved]
    exact Function.update_self ..

end Spinlock

/-! ## A handler between the two instructions -/

/-- A thread and a handler. -/
def twoContexts : SpinCore Bool := ⟨0, false, false, fun _ => .outside⟩

def interruptedThread : SpinCore Bool :=
  ((((((twoContexts.goTo .loads).ldrex.switch true).goTo .loads).ldrex.strex.release.switch
    false).strex.ldrex).strex)

theorem interruptedThread_run :
    Run SpinStep twoContexts [.aquire, .ldrex, .switch true, .aquire, .ldrex, .strex, .release,
      .switch false, .strex, .ldrex, .strex] interruptedThread :=
  .cons (.aquire rfl) (.cons (.ldrex rfl) (.cons (.switch _ true) (.cons (.aquire rfl)
    (.cons (.ldrex rfl) (.cons (.strex rfl) (.cons (.release rfl) (.cons (.switch _ false)
      (.cons (.strex rfl) (.cons (.ldrex rfl) (.cons (.strex rfl) (.nil _)))))))))))

theorem spinlock_excludes_interrupted : interruptedThread.pc false = .inside ∧
    ∀ ctx, interruptedThread.pc ctx = .inside → ctx = false := by
  have fresh : twoContexts.Fresh := ⟨rfl, fun _ => rfl⟩
  refine ⟨rfl, fun ctx inside => ?_⟩
  exact (spinlock_excludes fresh interruptedThread_run).2 ctx false inside rfl

/-- The handler again, while the thread holds the lock. -/
def waitingHandler : SpinCore Bool := ((interruptedThread.switch true).goTo .loads).ldrex.ldrex

theorem spinlock_waits_interrupted : waitingHandler.pc true = .loads ∧ waitingHandler.lock ≠ 0 := by
  have fresh : twoContexts.Fresh := ⟨rfl, fun _ => rfl⟩
  have run := interruptedThread_run.snoc (.switch _ true)
  have waits : Run SpinStep (interruptedThread.switch true) [.aquire, .ldrex, .ldrex]
      waitingHandler := .cons (.aquire rfl) (.cons (.ldrex rfl) (.cons (.ldrex rfl) (.nil _)))
  have excludes : ∀ event ∈ [.aquire, .ldrex, .ldrex], Excludes false event := by
    simp [Excludes]
  refine ⟨rfl, ?_⟩
  exact ((spinlock_waits fresh run).1 false rfl nofun _ waitingHandler excludes waits).1

end Vanilla.Kernel
