import Vanilla.Misc.Fpi
import Vanilla.Mm.Ownership
import Vanilla.Mm.Tiling

namespace Vanilla.Misc

open Mm ByteMemory

/-! Where fpi copies to. Nothing in the loop knows the end of the block, so
every frame has to fit in what is left of it. -/

/-- Inside the last block, which no running application has, and outside theirs. -/
structure Copy.SafeIn (copy : Copy) (block : Allocation) : Prop where
  target : copy.block = some block
  inside : block.space.Holds copy.address
  unused : block ∉ copy.running
  apart : ∀ app ∈ copy.running, ¬ app.space.Holds copy.address

def Copy.Safe (copy : Copy) : Prop := ∃ block, copy.SafeIn block

/-- Frames, and what the rest of the kernel does between them. -/
inductive FpiEvent where
  | frame (frame : Frame)
  | other (call : Call)

inductive FpiStep : Fpi → FpiEvent → Fpi → Prop where
  | frame {before after : Fpi} {frame : Frame} :
      (handleFrame frame).run before = .ok () after → FpiStep before (.frame frame) after
  /-- The blocks of fpi are known to fpi only, and it frees none. -/
  | other {before : Fpi} {call : Call} {config : Config} :
      Mm.Step before.config call config →
      (∀ allocation, before.block = some allocation ∨ allocation ∈ before.running →
        call ≠ .free allocation) →
      FpiStep before (.other call) { before with config := config }

/-- What the frame brings goes into the rest of a block that has not been
launched, and a launched image is relocated inside its block. -/
structure FitsIn (before : Fpi) (frame : Frame) (block : Allocation) : Prop where
  last : before.block = some block
  unused : block ∉ before.running
  room : before.bufferPtr + frame.size ≤ block.block.stop
  links : frame.cmd = 0x03 →
    let filled := before.copyBytes frame.bytes
    ∀ memory, (dynamicLinker before.binaryBuffer).run filled.config.state.memory =
      .ok () memory → WritesOnly block.space.Holds filled.config.state.memory memory

structure FittingFrame (before : Fpi) (frame : Frame) : Prop where
  request : frame.cmd = 0x01 → frame.allocateSize ≤ 0xFFFFFFF0
  fits : frame.cmd = 0x02 ∨ frame.cmd = 0x03 → ∃ block, FitsIn before frame block

structure FittingStep (before : Fpi) (event : FpiEvent) (after : Fpi) : Prop where
  step : FpiStep before event after
  fits : ∀ frame, event = .frame frame → FittingFrame before frame

/-! ## The invariant -/

structure Sound (linker : Linker) (fpi : Fpi) : Prop where
  represented : ∃ partitions, Mm.Represents linker fpi.config partitions
  blockLive : ∀ block, fpi.block = some block → block ∈ fpi.config.live
  pointer : ∀ block, fpi.block = some block →
    block.pointer ≤ fpi.bufferPtr ∧ fpi.bufferPtr ≤ block.block.stop
  runningLive : ∀ app ∈ fpi.running, app ∈ fpi.config.live
  safe : ∀ copy ∈ fpi.copies, copy.Safe

variable {linker : Linker} {fpi : Fpi}

/-- A block ends below the last address. -/
theorem Sound.stop_lt (sound : Sound linker fpi) {block : Allocation}
    (last : fpi.block = some block) : block.block.stop < 2 ^ 32 := by
  rcases sound.represented with ⟨partitions, rep⟩
  have inside := (partitions block.bank).live_inside (rep.block_live (sound.blockLive block last))
  have bound := bankLast_lt linker block.bank
  simp only [Interval.stop] at *
  omega

theorem Sound.copyByte (sound : Sound linker fpi) {block : Allocation}
    (last : fpi.block = some block) (unused : block ∉ fpi.running)
    (room : fpi.bufferPtr < block.block.stop) (byte : UInt8) :
    Sound linker (fpi.copyByte byte) ∧ (fpi.copyByte byte).bufferPtr = fpi.bufferPtr + 1 := by
  have live := sound.blockLive block last
  have order := sound.pointer block last
  have stop := sound.stop_lt last
  have inside : block.space.Holds fpi.bufferPtr := by
    simp only [Allocation.space, Interval.Holds, Interval.stop] at *
    omega
  have advanced : u32 (fpi.bufferPtr + 1) = fpi.bufferPtr + 1 := u32_of_lt (by omega)
  rcases sound.represented with ⟨partitions, rep⟩
  have copied : Copy.Safe ⟨fpi.bufferPtr, fpi.block, fpi.running⟩ := by
    refine ⟨block, last, inside, unused, ?_⟩
    intro app member inApp
    have appLive := sound.runningLive app member
    have different : app ≠ block := fun same => unused (same ▸ member)
    exact (rep.blocks_apart live appLive different).not_holds (rep.space_in_block live inside)
      (rep.space_in_block appLive inApp)
  refine ⟨?_, advanced⟩
  exact {
    represented := ⟨partitions, rep.writes live (WritesOnly.store8 _ byte inside)⟩
    blockLive := sound.blockLive
    pointer := by
      intro other same
      cases last.symm.trans same
      change block.pointer ≤ u32 (fpi.bufferPtr + 1) ∧ u32 (fpi.bufferPtr + 1) ≤ _
      rw [advanced]
      omega
    runningLive := sound.runningLive
    safe := by
      intro copy member
      cases List.mem_append.mp member with
      | inl earlier => exact sound.safe copy earlier
      | inr here =>
          rw [List.mem_singleton.mp here]
          exact copied }

theorem Sound.copyBytes {block : Allocation} :
    ∀ (bytes : List UInt8) (fpi : Fpi), Sound linker fpi → fpi.block = some block →
      block ∉ fpi.running → fpi.bufferPtr + bytes.length ≤ block.block.stop →
      Sound linker (fpi.copyBytes bytes) ∧ (fpi.copyBytes bytes).block = some block ∧
        (fpi.copyBytes bytes).binaryBuffer = fpi.binaryBuffer
  | [], _, sound, last, _, _ => ⟨sound, last, rfl⟩
  | byte :: rest, fpi, sound, last, unused, room => by
      rw [List.length_cons] at room
      rcases sound.copyByte last unused (by omega) byte with ⟨next, advanced⟩
      exact Sound.copyBytes rest (fpi.copyByte byte) next last unused (by rw [advanced]; omega)

/-! ## Frames -/

theorem Frame.bytes_length (frame : Frame) : frame.bytes.length = frame.size := by
  rw [Frame.bytes, List.length_take, Vector.length_toList]
  exact Nat.min_eq_left frame.fits

theorem run_onState_ok {Value : Type} {body : Exec MmState Value} {fpi after : Fpi}
    {value : Value} (run : (onState body).run fpi = .ok value after) :
    ∃ state, body.run fpi.config.state = .ok value state ∧ after = fpi.setState state := by
  cases outcome : body.run fpi.config.state with
  | ok result state =>
      have same := run.symm.trans (Exec.run_zoom_ok outcome)
      cases same
      exact ⟨state, rfl, rfl⟩
  | error reason state => cases run.symm.trans (Exec.run_zoom_error outcome)

theorem run_onMemory_ok {body : Exec ByteMemory Unit} {state after : MmState}
    (run : (onMemory body).run state = .ok () after) :
    ∃ memory, body.run state.memory = .ok () memory ∧
      after = { state with memory := memory } := by
  cases outcome : body.run state.memory with
  | ok result memory =>
      have same := run.symm.trans (Exec.run_zoom_ok outcome)
      cases same
      exact ⟨memory, rfl, rfl⟩
  | error reason memory => cases run.symm.trans (Exec.run_zoom_error outcome)

/-- A block for the next application is none of the running ones. -/
theorem Sound.allocated (sound : Sound linker fpi) {size buffer : Nat} {state : MmState}
    (bound : size ≤ 0xFFFFFFF0)
    (run : (mmAlloc size .sram).run fpi.config.state = .ok buffer state) :
    Sound linker ((fpi.setState state).setBuffer size buffer) := by
  rcases sound.represented with ⟨partitions, rep⟩
  by_cases null : buffer = 0
  · subst null
    rcases rep.step (.allocNull bound run) with ⟨next, represented⟩
    exact {
      represented := ⟨next, represented⟩
      blockLive := nofun
      pointer := nofun
      runningLive := sound.runningLive
      safe := sound.safe }
  · rcases rep.step (.alloc bound run null) with ⟨next, represented⟩
    have pointers := represented.pointers _ List.mem_cons_self
    have live : ((fpi.setState state).setBuffer size buffer).config.live =
        ⟨.sram, size, buffer, blockOf state buffer⟩ :: fpi.config.live := if_neg null
    have block : ((fpi.setState state).setBuffer size buffer).block =
        some ⟨.sram, size, buffer, blockOf state buffer⟩ := if_neg null
    have config : ((fpi.setState state).setBuffer size buffer).config =
        ⟨state, ⟨.sram, size, buffer, blockOf state buffer⟩ :: fpi.config.live⟩ :=
      congrArg (Config.mk state) live
    exact {
      represented := by rw [config]; exact ⟨next, represented⟩
      blockLive := by
        intro other same
        cases block.symm.trans same
        rw [live]
        exact List.mem_cons_self
      pointer := by
        intro other same
        cases block.symm.trans same
        change buffer ≤ buffer ∧ buffer ≤ (blockOf state buffer).stop
        simp only [Interval.stop] at *
        omega
      runningLive := by
        intro app member
        rw [live]
        exact List.mem_cons_of_mem _ (sound.runningLive app member)
      safe := sound.safe }

/-- A launched image is one of the running ones from then on. -/
theorem Sound.launched (sound : Sound linker fpi) {block : Allocation}
    (last : fpi.block = some block) {memory : ByteMemory}
    (links : WritesOnly block.space.Holds fpi.config.state.memory memory) :
    Sound linker { fpi.setMemory memory with running := fpi.block.toList ++ fpi.running } := by
  have live := sound.blockLive block last
  rcases sound.represented with ⟨partitions, rep⟩
  exact {
    represented := ⟨partitions, rep.writes live links⟩
    blockLive := sound.blockLive
    pointer := sound.pointer
    runningLive := by
      intro app member
      cases List.mem_append.mp member with
      | inl new =>
          rw [last] at new
          rw [List.mem_singleton.mp new]
          exact live
      | inr old => exact sound.runningLive app old
    safe := sound.safe }

theorem Sound.frame (sound : Sound linker fpi) {after : Fpi} {frame : Frame}
    (fitting : FittingFrame fpi frame) (run : (handleFrame frame).run fpi = .ok () after) :
    Sound linker after := by
  rw [handleFrame] at run
  by_cases allocates : frame.cmd = 0x01
  · rw [if_pos allocates] at run
    rcases Exec.run_bind_ok.mp run with ⟨buffer, between, allocated, stored⟩
    rcases run_onState_ok allocated with ⟨state, returns, same⟩
    subst same
    cases stored
    exact sound.allocated (fitting.request allocates) returns
  · rw [if_neg allocates] at run
    by_cases copies : frame.cmd = 0x02 ∨ frame.cmd = 0x03
    · rw [if_pos copies] at run
      rcases fitting.fits copies with ⟨block, fits⟩
      rcases sound.copyBytes frame.bytes fpi fits.last fits.unused
        (by rw [frame.bytes_length]; exact fits.room) with ⟨filled, last, buffer⟩
      have moved : (modify fun fpi => fpi.copyBytes frame.bytes : Exec Fpi Unit).run fpi =
          .ok () (fpi.copyBytes frame.bytes) := rfl
      rw [Exec.run_bind_of_ok moved] at run
      by_cases launches : frame.cmd = 0x03
      · rw [if_pos launches, Exec.run_bind_of_ok (EStateM.run_get _)] at run
        rcases Exec.run_bind_ok.mp run with ⟨_, between, linking, marked⟩
        rcases run_onState_ok linking with ⟨state, onBanks, same⟩
        rcases run_onMemory_ok onBanks with ⟨memory, linked, memorySame⟩
        subst same
        subst memorySame
        cases marked
        rw [buffer] at linked
        exact filled.launched last (fits.links launches memory linked)
      · rw [if_neg launches] at run
        cases run
        exact filled
    · rw [if_neg copies] at run
      cases run
      exact sound

theorem Sound.step (sound : Sound linker fpi) {event : FpiEvent} {after : Fpi}
    (step : FittingStep fpi event after) : Sound linker after := by
  cases event with
  | frame frame =>
      cases step.step with
      | frame run => exact sound.frame (step.fits frame rfl) run
  | other call =>
      cases step.step with
      | other kernel keeps =>
          rcases sound.represented with ⟨partitions, rep⟩
          exact {
            represented := rep.step kernel
            blockLive := fun block last =>
              kernel.stays_live (sound.blockLive block last) (keeps block (.inl last))
            pointer := sound.pointer
            runningLive := fun app member =>
              kernel.stays_live (sound.runningLive app member) (keeps app (.inr member))
            safe := sound.safe }

/-! ## Whole sessions -/

/-- fpi when its thread starts, on a machine that has been running. -/
structure Started (linker : Linker) (fpi : Fpi) : Prop where
  reachable : Mm.Reachable linker fpi.config
  noBlock : fpi.block = none
  noneRunning : fpi.running = []
  noCopies : fpi.copies = []

theorem Started.sound (started : Started linker fpi) : Sound linker fpi where
  represented := started.reachable.represents
  blockLive := by
    rw [started.noBlock]
    exact nofun
  pointer := by
    rw [started.noBlock]
    exact nofun
  runningLive := by
    rw [started.noneRunning]
    exact fun _ member => absurd member List.not_mem_nil
  safe := by
    rw [started.noCopies]
    exact fun _ member => absurd member List.not_mem_nil

end Vanilla.Misc
