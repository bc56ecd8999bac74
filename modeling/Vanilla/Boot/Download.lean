import Vanilla.Boot.Programming

namespace Vanilla.Boot

/-! The commands of a download, one frame after another. -/

variable {engine : Engine} {initial : Contents} {state : BootState}

def executeAll : List Frame → Exec BootState Unit
  | [] => pure ()
  | frame :: rest => do
      execute frame
      executeAll rest

/-- The log of a state is a part of a longer one. -/
def Within (log : List FlashAccess) (state : BootState) : Prop :=
  ∃ rest, log = state.accesses ++ rest

theorem outcome_log (frames : List Frame) : ∀ state : BootState,
    ∃ new, (outcome (executeAll frames) state).accesses = state.accesses ++ new := by
  induction frames with
  | nil => exact fun state => ⟨[], (List.append_nil _).symm⟩
  | cons frame rest induction =>
      intro state
      rcases execute_safe frame state with ⟨new, log, _⟩
      cases run : (execute frame).run state with
      | ok value next =>
          rcases induction next with ⟨later, late⟩
          have same : outcome (execute frame) state = next := by rw [outcome, run]
          refine ⟨new ++ later, ?_⟩
          rw [executeAll, outcome_bind_of_ok run, late, ← same, log, List.append_assoc]
      | error reason next =>
          have same : outcome (execute frame) state = next := by rw [outcome, run]
          refine ⟨new, ?_⟩
          rw [outcome, executeAll, Exec.run_bind_of_error run, ← log, same]

theorem Within.of_outcome {log : List FlashAccess} {frames : List Frame}
    (within : Within log (outcome (executeAll frames) state)) : Within log state := by
  rcases within with ⟨rest, whole⟩
  rcases outcome_log frames state with ⟨new, later⟩
  exact ⟨new ++ rest, by rw [whole, later, List.append_assoc]⟩

theorem Within.first {log : List FlashAccess} {frame : Frame} {rest : List Frame}
    (within : Within log (outcome (executeAll (frame :: rest)) state)) :
    Within log (outcome (execute frame) state) := by
  cases run : (execute frame).run state with
  | ok value next =>
      have same : outcome (execute frame) state = next := by rw [outcome, run]
      rw [executeAll, outcome_bind_of_ok run] at within
      rw [same]
      exact within.of_outcome
  | error reason next =>
      have same : outcome (execute frame) state = next := by rw [outcome, run]
      rw [outcome, executeAll, Exec.run_bind_of_error run] at within
      rw [same]
      exact within

theorem Obeys.within {log : List FlashAccess} {hardware : Hardware}
    (obeys : Obeys engine initial hardware log) (within : Within log state) :
    Obeys engine initial hardware state.accesses := by
  rcases within with ⟨rest, whole⟩
  rw [whole] at obeys
  exact obeys.of_append

/-! ## Page frames -/

def Frame.buffer (frame : Frame) : Page := frameBuffer frame.payload frame.size

/-- The flash with pages written from one page on. -/
def withPages : Nat → List Page → Contents → Contents
  | _, [], contents => contents
  | page, buffer :: rest, contents => withPages (page + 1) rest (withPage page buffer contents)

def PageFits (page : Nat) (buffer : Page) : Prop := page < 224 ∨ BlankPage buffer

def PagesFit : Nat → List Page → Prop
  | _, [] => True
  | page, buffer :: rest => PageFits page buffer ∧ PagesFit (page + 1) rest

/-- A page write returns true or panics, and has sent its page either way. -/
theorem writeKernelPage_ends (data : Page) (size page : Nat) (state : BootState) :
    (writeKernelPage data size page).run state =
        .ok true (afterKernelPage page (frameBuffer data size) state) ∨
      ∃ reason, (writeKernelPage data size page).run state =
        .error reason (afterKernelPage page (frameBuffer data size) state) := by
  let buffer := frameBuffer data size
  let copied : BootState := { state with flashBuffer := buffer }
  let address := u32 (kernelStart + u32 (page * 512))
  let after := afterKernelPage page buffer state
  rcases run_issue_compare .writeImagePage (pageCommand page) address buffer
    (afterLatch .writeImagePage address buffer copied) with ⟨done, issued⟩
  have written : (flashWriteImagePage page buffer).run copied = .ok done after := by
    rw [flashWriteImagePage, Exec.run_bind_of_ok (run_latchPage ..)]
    exact issued
  rw [run_writeKernelPage_filled, Exec.run_bind_of_ok written]
  cases done with
  | false => exact .inr ⟨_, rfl⟩
  | true =>
      rcases run_flashMatches (u32 (kernelStart + u32 (512 * page))) buffer after with
        ⟨equal, compared⟩
      rw [if_pos rfl, Exec.run_bind_of_ok compared]
      cases equal with
      | true => exact .inl rfl
      | false => exact .inr ⟨_, rfl⟩

theorem writeKernelPage_log (data : Page) (size page : Nat) (state : BootState) :
    (outcome (writeKernelPage data size page) state).accesses =
      (afterKernelPage page (frameBuffer data size) state).accesses := by
  cases writeKernelPage_ends data size page state with
  | inl returns => rw [outcome, returns]
  | inr panics =>
      rcases panics with ⟨reason, panics⟩
      rw [outcome, panics]

/-- A page is written and the counter moves on. -/
def afterWritePage (frame : Frame) (state : BootState) : BootState :=
  let written := afterKernelPage state.kernelPage frame.buffer
    { state with kernelPage := u32 (state.kernelPage + 1) }
  { written with responses := written.responses ++ [respOk] }

theorem run_writePage {frame : Frame} {log : List FlashAccess} (synced : Synced initial state)
    (bound : state.kernelPage < 4095) (erased : ErasedPage state.flash state.kernelPage)
    (obeys : Obeys engine initial state.hardware log)
    (within : Within log (afterWritePage frame state)) :
    (PageFits state.kernelPage frame.buffer →
        (writePage frame).run state = .ok () (afterWritePage frame state) ∧
          Synced initial (afterWritePage frame state) ∧
          (afterWritePage frame state).flash =
            withPage state.kernelPage frame.buffer state.flash) ∧
      (¬ PageFits state.kernelPage frame.buffer →
        ∃ after, (writePage frame).run state = .error (.panic "Flash write failed") after) := by
  let counted : BootState := { state with kernelPage := u32 (state.kernelPage + 1) }
  let written := afterKernelPage state.kernelPage frame.buffer counted
  have ready : Synced initial counted := ⟨synced.commands, synced.latch⟩
  have here : Obeys engine initial counted.hardware written.accesses := obeys.within within
  have small : state.kernelPage < 4096 := by omega
  have runs := run_writeKernelPage ready small frame.payload frame.size erased here
  have page := ready.kernelPage small frame.buffer here
  have stored : (set counted : Exec BootState Unit).run state = .ok () counted := rfl
  constructor
  · intro fits
    refine ⟨?_, ⟨page.1.commands, page.1.latch⟩, ?_⟩
    · rw [writePage, Exec.run_bind_of_ok (EStateM.run_get state), Exec.run_bind_of_ok stored,
        Exec.run_bind_of_ok (runs.1 fits)]
      rfl
    · exact page.2.trans (written_page small erased fits)
  · intro misfits
    refine ⟨written, ?_⟩
    rw [writePage, Exec.run_bind_of_ok (EStateM.run_get state), Exec.run_bind_of_ok stored]
    exact Exec.run_bind_of_error (runs.2 misfits)

theorem writePage_log (frame : Frame) (state : BootState) :
    (outcome (writePage frame) state).accesses = (afterWritePage frame state).accesses := by
  let counted : BootState := { state with kernelPage := u32 (state.kernelPage + 1) }
  have stored : (set counted : Exec BootState Unit).run state = .ok () counted := rfl
  have log := writeKernelPage_log frame.payload frame.size state.kernelPage counted
  rw [writePage, outcome_bind_of_ok (EStateM.run_get state), outcome_bind_of_ok stored]
  cases run : (writeKernelPage frame.payload frame.size state.kernelPage).run counted with
  | ok status next =>
      rw [outcome, run] at log
      rw [outcome_bind_of_ok run]
      cases status with
      | true => exact log
      | false => exact log
  | error reason next =>
      rw [outcome, run] at log
      rw [outcome, Exec.run_bind_of_error run]
      exact log

theorem execute_page {frame : Frame} (command : frame.cmd = 0x04) :
    execute frame = writePage frame := by
  rw [execute, command, if_neg (by decide), if_pos rfl]

/-- Page frames in a row, on pages that are erased. -/
theorem run_pages {log : List FlashAccess} :
    ∀ (frames : List Frame) (state : BootState), (∀ frame ∈ frames, frame.cmd = 0x04) →
      Synced initial state → state.kernelPage + frames.length ≤ 4095 →
      (∀ page, state.kernelPage ≤ page → page < state.kernelPage + frames.length →
        ErasedPage state.flash page) →
      Obeys engine initial state.hardware log →
      Within log (outcome (executeAll frames) state) →
      (PagesFit state.kernelPage (frames.map Frame.buffer) →
        ∃ after, (executeAll frames).run state = .ok () after ∧ Synced initial after ∧
          after.flash = withPages state.kernelPage (frames.map Frame.buffer) state.flash ∧
          after.hardware = state.hardware ∧ after.kernelTotalSize = state.kernelTotalSize ∧
          after.kernelPage = state.kernelPage + frames.length) ∧
        (¬ PagesFit state.kernelPage (frames.map Frame.buffer) →
          ∃ after, (executeAll frames).run state = .error (.panic "Flash write failed") after)
  | [], state, _, synced, _, _, _, _ =>
      ⟨fun _ => ⟨state, rfl, synced, rfl, rfl, rfl, rfl⟩, fun misfits => absurd trivial misfits⟩
  | frame :: rest, state, commands, synced, bound, erased, obeys, within => by
      rw [List.length_cons] at bound erased
      have command := execute_page (commands frame List.mem_cons_self)
      have first : Within log (afterWritePage frame state) := by
        rcases within.first with ⟨more, whole⟩
        rw [command, writePage_log] at whole
        exact ⟨more, whole⟩
      have runs := run_writePage synced (by omega)
        (erased state.kernelPage (Nat.le_refl _) (by omega)) obeys first
      have moved : (afterWritePage frame state).kernelPage = state.kernelPage + 1 :=
        u32_of_lt (by omega)
      by_cases fits : PageFits state.kernelPage frame.buffer
      · rcases runs.1 fits with ⟨run, next, flash⟩
        have later : ∀ page, (afterWritePage frame state).kernelPage ≤ page →
            page < (afterWritePage frame state).kernelPage + rest.length →
            ErasedPage (afterWritePage frame state).flash page := by
          intro page low high address inKernel here
          rw [moved] at low high
          rw [flash, withPage, if_neg (by omega)]
          exact erased page (by omega) (by omega) address inKernel here
        have remaining : Within log (outcome (executeAll rest) (afterWritePage frame state)) := by
          rw [executeAll, command, outcome_bind_of_ok run] at within
          exact within
        have induction := run_pages rest (afterWritePage frame state)
          (fun other member => commands other (List.mem_cons_of_mem _ member)) next
          (by rw [moved]; omega) later obeys remaining
        rw [moved] at induction
        constructor
        · intro all
          rcases induction.1 all.2 with ⟨after, ran, last, pages, hardware, total, counter⟩
          refine ⟨after, ?_, last, ?_, hardware, total, ?_⟩
          · rw [executeAll, command, Exec.run_bind_of_ok run]
            exact ran
          · rw [pages, flash]
            rfl
          · rw [counter, List.length_cons]
            omega
        · intro misfits
          have restMisfits : ¬ PagesFit (state.kernelPage + 1) (rest.map Frame.buffer) :=
            fun fine => misfits ⟨fits, fine⟩
          rcases induction.2 restMisfits with ⟨after, ran⟩
          refine ⟨after, ?_⟩
          rw [executeAll, command, Exec.run_bind_of_ok run]
          exact ran
      · constructor
        · exact fun all => absurd all.1 fits
        · intro _
          rcases runs.2 fits with ⟨after, panics⟩
          refine ⟨after, ?_⟩
          rw [executeAll, command]
          exact Exec.run_bind_of_error panics

end Vanilla.Boot
