import Vanilla.Foundation.Run
import Vanilla.Foundation.Word
import Vanilla.Usb.Enumeration

namespace Vanilla.Usb

/-! Which pipe an interrupt is handled for. The search starts one pipe further
on at every call, whichever pipe was served. -/

def nextPipe (pipe : Nat) : Nat := if maxPipes ≤ pipe + 1 then 0 else pipe + 1

/-- The loop, with `rounds` left. -/
def searchPipe (pipeMask : Nat) : Nat → Nat → Nat
  | 0, pipeNumber => pipeNumber
  | rounds + 1, pipeNumber =>
      if pipeMask &&& 1 <<< pipeNumber ≠ 0 then pipeNumber
      else searchPipe pipeMask rounds (nextPipe pipeNumber)

/-- `usbhc_pick_interrupted_pipe`: the pipe and the next `pipe_start`. -/
def usbhcPickInterruptedPipe (pipeMask pipeStart : Nat) : Nat × Nat :=
  (searchPipe pipeMask maxPipes pipeStart, nextPipe pipeStart)

/-- A call with its mask, and the pipe that it returns. -/
structure Pick where
  pipeMask : Nat
  pipe : Nat

/-- The state is `pipe_start`. -/
def PickStep (before : Nat) (pick : Pick) (after : Nat) : Prop :=
  usbhcPickInterruptedPipe pick.pipeMask before = (pick.pipe, after)

/-! ## One call -/

theorem nextPipe_lt (pipe : Nat) : nextPipe pipe < maxPipes := by
  rw [nextPipe, maxPipes]
  split <;> omega

/-- How many calls later the search starts at a pipe. -/
def callsUntil (pipeStart pipe : Nat) : Nat :=
  if pipeStart ≤ pipe then pipe - pipeStart else pipe + maxPipes - pipeStart

theorem callsUntil_lt {pipeStart pipe : Nat} (start : pipeStart < maxPipes)
    (inside : pipe < maxPipes) : callsUntil pipeStart pipe < maxPipes := by
  rw [callsUntil]
  split <;> omega

theorem callsUntil_eq_zero {pipeStart pipe : Nat} (start : pipeStart < maxPipes)
    (zero : callsUntil pipeStart pipe = 0) : pipeStart = pipe := by
  rw [callsUntil] at zero
  split at zero <;> omega

theorem callsUntil_nextPipe {pipeStart pipe calls : Nat} (start : pipeStart < maxPipes)
    (inside : pipe < maxPipes) (later : callsUntil pipeStart pipe = calls + 1) :
    callsUntil (nextPipe pipeStart) pipe = calls := by
  rw [callsUntil] at later ⊢
  by_cases wraps : maxPipes ≤ pipeStart + 1
  · rw [nextPipe, if_pos wraps]
    split at later <;> split <;> omega
  · rw [nextPipe, if_neg wraps]
    split at later <;> split <;> omega

/-- The search passes over pipes whose bit is clear, one a round. -/
theorem searchPipe_set {pipeMask pipe : Nat} (inside : pipe < maxPipes)
    (set : pipeMask.testBit pipe = true) :
    ∀ {rounds pipeStart : Nat}, pipeStart < maxPipes → callsUntil pipeStart pipe < rounds →
      searchPipe pipeMask rounds pipeStart < maxPipes ∧
        pipeMask.testBit (searchPipe pipeMask rounds pipeStart) = true
  | rounds + 1, pipeStart, start, reaches => by
      rw [searchPipe]
      by_cases here : pipeMask &&& 1 <<< pipeStart ≠ 0
      · rw [if_pos here]
        exact ⟨start, (and_bit_ne_zero pipeMask pipeStart).mp here⟩
      · rw [if_neg here]
        apply searchPipe_set inside set (nextPipe_lt pipeStart)
        cases distance : callsUntil pipeStart pipe with
        | zero =>
            rw [callsUntil_eq_zero start distance] at here
            exact absurd ((and_bit_ne_zero pipeMask pipe).mpr set) here
        | succ calls =>
            rw [callsUntil_nextPipe start inside distance]
            omega

theorem PickStep.served {before after : Nat} {pick : Pick} (step : PickStep before pick after)
    (start : before < maxPipes)
    (some_ : ∃ pipe, pipe < maxPipes ∧ pick.pipeMask.testBit pipe = true) :
    pick.pipe < maxPipes ∧ pick.pipeMask.testBit pick.pipe = true := by
  rcases some_ with ⟨pipe, inside, set⟩
  rw [PickStep, usbhcPickInterruptedPipe, Prod.mk.injEq] at step
  rw [← step.1]
  exact searchPipe_set inside set start (callsUntil_lt start inside)

theorem PickStep.start_lt {before after : Nat} {pick : Pick}
    (step : PickStep before pick after) : after < maxPipes := by
  rw [PickStep, usbhcPickInterruptedPipe, Prod.mk.injEq] at step
  rw [← step.2]
  exact nextPipe_lt before

/-- A call that starts at a pipe whose bit is set serves it. -/
theorem PickStep.first {before after : Nat} {pick : Pick} (step : PickStep before pick after)
    (set : pick.pipeMask.testBit before = true) : pick.pipe = before := by
  rw [PickStep, usbhcPickInterruptedPipe, Prod.mk.injEq] at step
  rw [← step.1, show maxPipes = 9 + 1 from rfl, searchPipe]
  exact if_pos ((and_bit_ne_zero _ _).mpr set)

/-! ## Runs -/

theorem pipeStart_lt {picks : List Pick} {first last : Nat} (run : Run PickStep first picks last)
    (start : first < maxPipes) : last < maxPipes :=
  run.invariant (· < maxPipes) (fun _ _ _ _ step => step.start_lt) start

/-- The start comes closer to a pipe by one at every call. -/
theorem served_of_run {pipe : Nat} (inside : pipe < maxPipes) :
    ∀ {picks : List Pick} {first last : Nat}, Run PickStep first picks last →
      first < maxPipes → callsUntil first pipe < picks.length →
      (∀ pick ∈ picks, pick.pipeMask.testBit pipe = true) → ∃ pick ∈ picks, pick.pipe = pipe
  | [], _, _, _, _, reaches, _ => absurd reaches (Nat.not_lt_zero _)
  | pick :: rest, first, last, .cons step run, start, reaches, set => by
      cases distance : callsUntil first pipe with
      | zero =>
          have here : first = pipe := callsUntil_eq_zero start distance
          subst here
          exact ⟨pick, List.mem_cons_self, step.first (set pick List.mem_cons_self)⟩
      | succ calls =>
          have closer := callsUntil_nextPipe start inside distance
          have after := step
          rw [PickStep, usbhcPickInterruptedPipe, Prod.mk.injEq] at after
          rw [after.2] at closer
          rw [List.length_cons] at reaches
          have served := served_of_run inside run step.start_lt (by omega)
            fun later member => set later (List.mem_cons_of_mem _ member)
          rcases served with ⟨later, member, same⟩
          exact ⟨later, List.mem_cons_of_mem _ member, same⟩

/-- Every call serves a pipe whose bit is set, and a pipe whose bit stays set
through `MAX_PIPES` calls is served by one of them. -/
theorem pipe_interrupts_fair {picks : List Pick} {last : Nat} (run : Run PickStep 0 picks last)
    (some_ : ∀ pick ∈ picks, ∃ pipe, pipe < maxPipes ∧ pick.pipeMask.testBit pipe = true) :
    (∀ pick ∈ picks, pick.pipe < maxPipes ∧ pick.pipeMask.testBit pick.pipe = true) ∧
      ∀ before window after, picks = before ++ window ++ after → window.length = maxPipes →
        ∀ pipe, pipe < maxPipes → (∀ pick ∈ window, pick.pipeMask.testBit pipe = true) →
          ∃ pick ∈ window, pick.pipe = pipe := by
  constructor
  · intro pick member
    rcases List.append_of_mem member with ⟨before, after, rfl⟩
    rcases run.split with ⟨middle, early, late⟩
    cases late with
    | cons step _ => exact step.served (pipeStart_lt early (by decide)) (some_ pick member)
  · rintro before window after rfl length pipe inside set
    rw [List.append_assoc] at run
    rcases run.split with ⟨first, early, late⟩
    rcases late.split with ⟨second, calls, _⟩
    have start := pipeStart_lt early (by decide)
    exact served_of_run inside calls start (length ▸ callsUntil_lt start inside) set

/-- Two calls while pipes 1 and 2 are both waiting. -/
theorem pipe_interrupts_fair_two : ∃ last, Run PickStep 0 [⟨6, 1⟩, ⟨6, 1⟩, ⟨6, 2⟩] last ∧
    ∀ pick ∈ [(⟨6, 1⟩ : Pick), ⟨6, 1⟩, ⟨6, 2⟩],
      pick.pipe < maxPipes ∧ pick.pipeMask.testBit pick.pipe = true := by
  have run : Run PickStep 0 [⟨6, 1⟩, ⟨6, 1⟩, ⟨6, 2⟩] 3 :=
    .cons (show PickStep 0 ⟨6, 1⟩ 1 from rfl) (.cons (show PickStep 1 ⟨6, 1⟩ 2 from rfl)
      (.cons (show PickStep 2 ⟨6, 2⟩ 3 from rfl) (.nil 3)))
  have set : ∀ pick ∈ [(⟨6, 1⟩ : Pick), ⟨6, 1⟩, ⟨6, 2⟩], pick.pipeMask.testBit 1 = true := by
    decide
  exact ⟨3, run, (pipe_interrupts_fair run
    fun pick member => ⟨1, by decide, set pick member⟩).1⟩

end Vanilla.Usb
