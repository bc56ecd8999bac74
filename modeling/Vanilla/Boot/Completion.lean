import Vanilla.Boot.Download

namespace Vanilla.Boot

/-! The frames around the pages of a download: the erase before them, and the
last page, after which the hash is stored and the chip reset. -/

variable {engine : Engine} {initial : Contents} {state : BootState}

/-! ## The erase frame -/

def afterErase (size : Nat) (state : BootState) : BootState :=
  let erased := afterSectors 0 (sect8k size) state
  { erased with
    kernelTotalSize := 8192 * sect8k size
    responses := erased.responses ++ [respOk] }

/-- An erase leaves the counter and the hardware alone. -/
theorem afterErase_kept (size : Nat) (state : BootState) :
    (afterErase size state).kernelPage = state.kernelPage ∧
      (afterErase size state).hardware = state.hardware := by
  have counter : (afterSectors 0 (sect8k size) state).kernelPage = state.kernelPage := by
    rw [afterSectors_eq]
  have hardware : (afterSectors 0 (sect8k size) state).hardware = state.hardware := by
    rw [afterSectors_eq]
  exact ⟨counter, hardware⟩

/-- The blocks of an image that is not empty. -/
theorem sect8k_positive {size : Nat} (positive : 0 < size) : 0 < sect8k size := by
  simp only [sect8k]
  split <;> split <;> omega

theorem sect8k_few {size : Nat} (bound : size ≤ 0x1FC000) : sect8k size ≤ 254 := by
  simp only [sect8k]
  split <;> split <;> omega

theorem run_eraseFlash (works : ∀ command, state.hardware.fails command = false) {frame : Frame}
    {size : Nat} (asked : frame.payload.word 0 = size) (positive : 0 < size)
    (bound : size ≤ 0x1FC000) :
    (eraseFlash frame).run state = .ok () (afterErase size state) := by
  have nonempty := sect8k_positive positive
  have few := sect8k_few bound
  have total : u32 (sect8k size * 8192) = 8192 * sect8k size := by
    rw [u32_of_lt (by omega), Nat.mul_comm]
  have swept := eraseSectors_works (sect8k size) 0 state works (by omega)
  have erased : (flashEraseImage size).run state =
      .ok (8192 * sect8k size) (afterSectors 0 (sect8k size) state) := by
    rw [flashEraseImage, Exec.run_bind_of_ok swept, if_pos rfl, total]
    rfl
  have nonzero : 8192 * sect8k size ≠ 0 := by omega
  have image : (eraseKernelImage frame.payload).run state = .ok true
      { afterSectors 0 (sect8k size) state with kernelTotalSize := 8192 * sect8k size } := by
    rw [eraseKernelImage, asked, Exec.run_bind_of_ok erased, if_pos nonzero]
    rfl
  rw [eraseFlash, Exec.run_bind_of_ok image, if_pos rfl]
  rfl

theorem Synced.erase (synced : Synced initial state) {size : Nat} (bound : size ≤ 0x1FC000)
    (obeys : Obeys engine initial state.hardware (afterErase size state).accesses) :
    Synced initial (afterErase size state) ∧
      (afterErase size state).flash = withErased 0 (sect8k size) state.flash := by
  have few := sect8k_few bound
  rcases run_eraseSectors (sect8k size) 0 state (by omega) synced obeys with ⟨_, next, flash⟩
  exact ⟨⟨next.commands, next.latch⟩, flash⟩

/-! ## The last page -/

def answeredOk (state : BootState) : BootState :=
  { state with responses := state.responses ++ [respOk] }

def afterReset (state : BootState) : BootState :=
  { state with
    kernelTotalSize := 0, kernelPage := 0, flashBuffer := .replicate 512 0
    led := false, resets := state.resets + 1 }

/-- The hash command is given whatever the engine computes. -/
theorem storeKernelHash_returns (state : BootState) :
    ∃ stored, storeKernelHash.run state = .ok stored (afterHash state) := by
  generalize bufferEq : hashBuffer state = buffer
  let copied : BootState := { state with flashBuffer := buffer }
  let latched := afterLatch .eraseWrite (u32 (flashStart + u32 (512 * 30))) buffer copied
  have ended : Boot.afterIssue .eraseWrite hashCommand latched = afterHash state := by
    rw [afterHash, bufferEq, afterHashPage, afterPage]
  rcases run_issue_compare .eraseWrite hashCommand (u32 (flashStart + u32 (512 * 30))) buffer
    latched with ⟨done, issued⟩
  rw [ended] at issued
  have written : (flashEraseWrite 30 buffer).run copied = .ok done (afterHash state) := by
    rw [flashEraseWrite, if_neg (by decide), Exec.run_bind_of_ok (run_latchPage ..)]
    exact issued
  have filled : (set copied : Exec BootState Unit).run state = .ok () copied := rfl
  have code : ∃ stored, (set { state with flashBuffer := hashBuffer state } >>= fun _ =>
      flashEraseWrite 30 (hashBuffer state) >>= fun flashStatus =>
        if flashStatus then flashMatches (u32 (flashStart + 512 * 30)) (hashBuffer state)
        else pure false : Exec BootState Bool).run state = .ok stored (afterHash state) := by
    rw [bufferEq, Exec.run_bind_of_ok filled, Exec.run_bind_of_ok written]
    cases done with
    | true => exact run_flashMatches ..
    | false => exact ⟨false, rfl⟩
  rcases code with ⟨stored, run⟩
  refine ⟨stored, ?_⟩
  rw [storeKernelHash, Exec.run_bind_of_ok (EStateM.run_get state)]
  exact run

theorem finishDownload_log (state : BootState) :
    (outcome finishDownload state).accesses = (afterHash (answeredOk state)).accesses := by
  rcases storeKernelHash_returns (answeredOk state) with ⟨stored, returns⟩
  have start : outcome finishDownload state = outcome (storeKernelHash >>= fun stored =>
      if stored then chipReset else Exec.panic "Cannot store the hash digest")
        (answeredOk state) := rfl
  rw [start, outcome_bind_of_ok returns]
  cases stored with
  | true => rfl
  | false => rfl

theorem run_finishDownload (synced : Synced initial state)
    (obeys : Obeys engine initial state.hardware (afterHash (answeredOk state)).accesses) :
    finishDownload.run state = .ok () (afterReset (afterHash (answeredOk state))) := by
  have ready : Synced initial (answeredOk state) := ⟨synced.commands, synced.latch⟩
  have answers : (sendResponse respOk).run state = .ok () (answeredOk state) := rfl
  rw [finishDownload, Exec.run_bind_of_ok answers,
    Exec.run_bind_of_ok (run_storeKernelHash ready obeys), if_pos rfl]
  rfl

/-- The state after the last page has been written, hashed and reset. -/
def afterLastPage (frame : Frame) (state : BootState) : BootState :=
  afterReset (afterHash (answeredOk (afterKernelPage state.kernelPage frame.buffer state)))

theorem writePageLast_within {frame : Frame} {log : List FlashAccess}
    (within : Within log (outcome (writePageLast frame) state)) :
    Within log (afterKernelPage state.kernelPage frame.buffer state) := by
  have first := writeKernelPage_log frame.payload frame.size state.kernelPage state
  rcases within with ⟨rest, whole⟩
  cases run : (writeKernelPage frame.payload frame.size state.kernelPage).run state with
  | ok status next =>
      rw [outcome, run] at first
      have finished : ∃ new, (outcome (writePageLast frame) state).accesses =
          next.accesses ++ new := by
        rw [outcome, run_writePageLast_bind, Exec.run_bind_of_ok run]
        cases status with
        | true =>
            rcases finishDownload_safe next with ⟨new, late, _⟩
            exact ⟨new, late⟩
        | false =>
            rcases finishDownload_safe
              { next with responses := next.responses ++ [respFlashError] } with ⟨new, late, _⟩
            exact ⟨new, late⟩
      rcases finished with ⟨new, late⟩
      exact ⟨new ++ rest, by rw [whole, late, List.append_assoc, first]; rfl⟩
  | error reason next =>
      rw [outcome, run] at first
      rw [outcome, run_writePageLast_bind, Exec.run_bind_of_error run] at whole
      exact ⟨rest, by rw [whole, first]; rfl⟩

theorem run_writePageLast {frame : Frame} {log : List FlashAccess}
    (synced : Synced initial state) (bound : state.kernelPage < 4096)
    (erased : ErasedPage state.flash state.kernelPage)
    (obeys : Obeys engine initial state.hardware log)
    (within : Within log (outcome (writePageLast frame) state)) :
    (PageFits state.kernelPage frame.buffer →
        (writePageLast frame).run state = .ok () (afterLastPage frame state) ∧
          (afterLastPage frame state).flash =
            withHash (hashBuffer
                (answeredOk (afterKernelPage state.kernelPage frame.buffer state)))
              (withPage state.kernelPage frame.buffer state.flash)) ∧
      (¬ PageFits state.kernelPage frame.buffer →
        ∃ after, (writePageLast frame).run state =
          .error (.panic "Flash write failed") after) := by
  let written := afterKernelPage state.kernelPage frame.buffer state
  have here : Obeys engine initial state.hardware written.accesses :=
    obeys.within (writePageLast_within within)
  have runs := run_writeKernelPage synced bound frame.payload frame.size erased here
  have page := synced.kernelPage bound frame.buffer here
  constructor
  · intro fits
    have ended : outcome (writePageLast frame) state = outcome finishDownload written := by
      rw [outcome, run_writePageLast_bind, Exec.run_bind_of_ok (runs.1 fits)]
      rfl
    have hashed : Obeys engine initial state.hardware
        (afterHash (answeredOk written)).accesses := by
      rcases within with ⟨rest, whole⟩
      rw [ended, finishDownload_log] at whole
      rw [whole] at obeys
      exact obeys.of_append
    have ready : Synced initial (answeredOk written) := ⟨page.1.commands, page.1.latch⟩
    refine ⟨?_, ?_⟩
    · rw [run_writePageLast_bind, Exec.run_bind_of_ok (runs.1 fits), if_pos rfl]
      exact run_finishDownload page.1 hashed
    · have stored := (ready.hash hashed).2
      rw [← written_page bound erased fits, ← page.2]
      exact stored
  · intro misfits
    refine ⟨written, ?_⟩
    rw [run_writePageLast_bind]
    exact Exec.run_bind_of_error (runs.2 misfits)

end Vanilla.Boot
