import Vanilla.Misc.FpiCopies
import Vanilla.Boot.DownloadImage
import Vanilla.Kernel.DynamicLinker

namespace Vanilla.Misc

open Mm Boot ByteMemory

/-! The host program of `app_prog.py` against fpi: what is in the block when the
dynamic linker gets it. -/

/-! ## app_prog.py -/

/-- `number_of_block * 512` -/
def allocateSize (image : List UInt8) : Nat := numberOfBlock image.length * 512

def appCmd (image : List UInt8) (index : Nat) : UInt8 :=
  if index + 1 = numberOfBlock image.length then 0x03 else 0x02

/-- What `send_frame` was called with. -/
def Frame.sent (frame : Frame) : UInt8 × List UInt8 := (frame.cmd, frame.bytes)

/-- The frames of a session, in order. -/
def sentFrames : List FpiEvent → List (UInt8 × List UInt8)
  | [] => []
  | .frame frame :: rest => frame.sent :: sentFrames rest
  | .other _ :: rest => sentFrames rest

/-- The rest of the kernel stores nothing into the block of fpi. -/
structure UploadStep (before : Fpi) (event : FpiEvent) (after : Fpi) : Prop where
  step : FpiStep before event after
  keeps : ∀ address value block, event = .other (.store address value) →
    before.block = some block → ¬ block.payload.Holds address

/-- A part of the image is copied and no more. -/
theorem run_handleFrame_part {frame : Frame} (cmd : frame.cmd = 0x02) (fpi : Fpi) :
    (handleFrame frame).run fpi = .ok () (fpi.copyBytes frame.bytes) := by
  have moved : (modify fun fpi => fpi.copyBytes frame.bytes : Exec Fpi Unit).run fpi =
      .ok () (fpi.copyBytes frame.bytes) := rfl
  rw [handleFrame, if_neg (by rw [cmd]; decide), if_pos (.inl cmd), Exec.run_bind_of_ok moved,
    if_neg (by rw [cmd]; decide)]
  rfl

theorem UploadStep.frame {before after : Fpi} {frame : Frame}
    (run : (handleFrame frame).run before = .ok () after) :
    UploadStep before (.frame frame) after :=
  ⟨.frame run, fun _ _ _ same => nomatch same⟩

theorem UploadStep.fitting {before after : Fpi} {call : Call}
    (step : UploadStep before (.other call) after) : FittingStep before (.other call) after :=
  ⟨step.step, fun _ same => nomatch same⟩

/-- The last block, with the bytes that have arrived in it. -/
structure Uploading (linker : Linker) (request : Nat) (arrived : List UInt8) (block : Allocation)
    (fpi : Fpi) : Prop where
  sound : Sound linker fpi
  last : fpi.block = some block
  unused : block ∉ fpi.running
  requested : block.request = request
  buffer : fpi.binaryBuffer = block.pointer
  filled : fpi.bufferPtr = block.pointer + arrived.length
  room : arrived.length ≤ request
  holds : ∀ index (inside : index < arrived.length),
    fpi.config.state.memory.load8 (block.pointer + index) = arrived[index]

section Uploading

variable {linker : Linker} {request : Nat} {arrived : List UInt8} {block : Allocation} {fpi : Fpi}

/-- The block is as large as the request. -/
theorem Uploading.fits (uploading : Uploading linker request arrived block fpi) :
    block.pointer + request ≤ block.block.stop := by
  rcases uploading.sound.represented with ⟨partitions, rep⟩
  have pointers := rep.pointers block (uploading.sound.blockLive block uploading.last)
  have requested := uploading.requested
  simp only [Interval.stop] at *
  omega

theorem Uploading.copyByte (uploading : Uploading linker request arrived block fpi)
    (more : arrived.length < request) (byte : UInt8) :
    Uploading linker request (arrived ++ [byte]) block (fpi.copyByte byte) := by
  have fits := uploading.fits
  have filled := uploading.filled
  rcases uploading.sound.copyByte uploading.last uploading.unused (by omega) byte with
    ⟨sound, advanced⟩
  exact {
    sound := sound
    last := uploading.last
    unused := uploading.unused
    requested := uploading.requested
    buffer := uploading.buffer
    filled := by
      rw [advanced, filled, List.length_append, List.length_singleton, Nat.add_assoc]
    room := by
      rw [List.length_append, List.length_singleton]
      exact more
    holds := by
      intro index inside
      change (fpi.config.state.memory.store8 fpi.bufferPtr byte).load8 _ = _
      by_cases earlier : index < arrived.length
      · rw [load8_store8_of_ne _ _ (by omega), List.getElem_append_left earlier]
        exact uploading.holds index earlier
      · rw [List.length_append, List.length_singleton] at inside
        have here : index = arrived.length := by omega
        subst here
        rw [filled, load8_store8_same, List.getElem_concat_length rfl] }

theorem Uploading.copyBytes : ∀ (bytes : List UInt8) {arrived : List UInt8} {fpi : Fpi},
    Uploading linker request arrived block fpi → arrived.length + bytes.length ≤ request →
    Uploading linker request (arrived ++ bytes) block (fpi.copyBytes bytes)
  | [], arrived, _, uploading, _ => by
      rw [List.append_nil]
      exact uploading
  | byte :: rest, arrived, fpi, uploading, room => by
      rw [List.length_cons] at room
      have next := uploading.copyByte (by omega) byte
      have all := Uploading.copyBytes rest next
        (by rw [List.length_append, List.length_singleton]; omega)
      rw [List.append_assoc, List.singleton_append] at all
      exact all

/-- What others do leaves the bytes that have arrived. -/
theorem Uploading.other (uploading : Uploading linker request arrived block fpi) {call : Call}
    {after : Fpi} (step : UploadStep fpi (.other call) after) :
    Uploading linker request arrived block after := by
  have sound := uploading.sound.step step.fitting
  cases step.step with
  | @other _ config kernel keeps =>
      have member := uploading.sound.blockLive block uploading.last
      have kept : ∀ address, block.payload.Holds address →
          config.state.memory.load8 address = fpi.config.state.memory.load8 address := by
        intro address inside
        rcases uploading.sound.represented with ⟨partitions, rep⟩
        have untouched := fun bank onBank => @Represents.untouched _ _ _ _ rep member _ _
          kernel (keeps block (.inl uploading.last)) bank onBank
        cases kernel with
        | alloc => rcases untouched _ rfl with ⟨_, _, same⟩; exact (same address inside).2
        | allocNull => rcases untouched _ rfl with ⟨_, _, same⟩; exact (same address inside).2
        | free => rcases untouched _ rfl with ⟨_, _, same⟩; exact (same address inside).2
        | @store _ target value owned holds =>
            have apart : address ≠ target := fun same =>
              step.keeps target value block rfl uploading.last (same ▸ inside)
            exact load8_store8_of_ne _ _ apart
      exact {
        sound := sound
        last := uploading.last
        unused := uploading.unused
        requested := uploading.requested
        buffer := uploading.buffer
        filled := uploading.filled
        room := uploading.room
        holds := by
          intro index inside
          have room := uploading.room
          have requested := uploading.requested
          have within : block.payload.Holds (block.pointer + index) := by
            simp only [Allocation.payload, Interval.Holds, Interval.stop]
            omega
          exact (kept _ within).trans (uploading.holds index inside) }

theorem Uploading.frame (uploading : Uploading linker request arrived block fpi) {frame : Frame}
    {after : Fpi} (cmd : frame.cmd = 0x02) (room : arrived.length + frame.bytes.length ≤ request)
    (run : (handleFrame frame).run fpi = .ok () after) :
    Uploading linker request (arrived ++ frame.bytes) block after := by
  rw [run_handleFrame_part cmd] at run
  cases run
  exact uploading.copyBytes frame.bytes room

/-- The frames after the request, in any interleaving with the rest of the
kernel. -/
theorem Uploading.run {last : Fpi} {events : List FpiEvent}
    (run : Run UploadStep fpi events last) :
    ∀ {arrived : List UInt8}, Uploading linker request arrived block fpi →
      (∀ part ∈ sentFrames events, part.1 = 0x02) →
      arrived.length + ((sentFrames events).flatMap Prod.snd).length ≤ request →
      Uploading linker request (arrived ++ (sentFrames events).flatMap Prod.snd) block last := by
  induction run with
  | nil fpi =>
      intro arrived uploading _ _
      rw [sentFrames, List.flatMap_nil, List.append_nil]
      exact uploading
  | @cons _ _ _ event _ step _ induction =>
      intro arrived uploading plain room
      cases event with
      | other call => exact induction (uploading.other step) plain room
      | frame frame =>
          cases step.step with
          | frame ran =>
              rw [sentFrames, List.flatMap_cons] at room ⊢
              change _ + (frame.bytes ++ _).length ≤ _ at room
              rw [List.length_append] at room
              have next := uploading.frame (plain _ List.mem_cons_self) (by omega) ran
              rw [← List.append_assoc]
              apply induction next fun part member => plain part (List.mem_cons_of_mem _ member)
              rw [List.length_append]
              omega

end Uploading

/-! ## The request -/

theorem erasePayload_allocateSize {frame : Frame} {size : Nat}
    (bytes : frame.bytes = erasePayload size) (bound : size < 2 ^ 32) :
    frame.allocateSize = size := by
  have four : frame.size = 4 := by
    rw [← frame.bytes_length, bytes, erasePayload_length]
  have byte : ∀ index < 4, frame.payload[index]? = (erasePayload size)[index]? := by
    intro index small
    rw [← bytes, Frame.bytes, four, List.getElem?_take_of_lt small, Vector.getElem?_toList]
  have first : frame.payload[0] = UInt8.ofNat (size &&& 0xFF) :=
    Option.some.inj ((Vector.getElem?_eq_getElem _).symm.trans (byte 0 (by decide)))
  have second : frame.payload[1] = UInt8.ofNat (size >>> 8 &&& 0xFF) :=
    Option.some.inj ((Vector.getElem?_eq_getElem _).symm.trans (byte 1 (by decide)))
  have third : frame.payload[2] = UInt8.ofNat (size >>> 16 &&& 0xFF) :=
    Option.some.inj ((Vector.getElem?_eq_getElem _).symm.trans (byte 2 (by decide)))
  have fourth : frame.payload[3] = UInt8.ofNat (size >>> 24 &&& 0xFF) :=
    Option.some.inj ((Vector.getElem?_eq_getElem _).symm.trans (byte 3 (by decide)))
  rw [Frame.allocateSize, first, second, third, fourth]
  simp only [show (0xFF : Nat) = 2 ^ 8 - 1 from rfl, and_low_mask, UInt8.toNat_ofNat',
    Nat.shiftRight_eq_div_pow]
  omega

section Request

variable {linker : Linker} {fpi last : Fpi} {events : List FpiEvent}

/-- An application that is still running is in a block of its own. -/
theorem Sound.requested (sound : Sound linker fpi) {frame : Frame} {after : Fpi} {size : Nat}
    (sent : frame.sent = (0x01, erasePayload size)) (bound : size ≤ 0xFFFFFFF0)
    (run : (handleFrame frame).run fpi = .ok () after) :
    after.binaryBuffer = 0 ∨ ∃ block, Uploading linker size [] block after := by
  have requests : frame.allocateSize = size :=
    erasePayload_allocateSize (congrArg Prod.snd sent) (by omega)
  rw [handleFrame, if_pos (show frame.cmd = 0x01 from congrArg Prod.fst sent), requests] at run
  rcases Exec.run_bind_ok.mp run with ⟨buffer, between, allocated, stored⟩
  rcases run_onState_ok allocated with ⟨state, returns, same⟩
  subst same
  cases stored
  by_cases null : buffer = 0
  · exact .inl null
  have next := sound.allocated bound returns
  have fresh : Allocation.mk .sram size buffer (blockOf state buffer) ∉ fpi.config.live := by
    rcases next.represented with ⟨partitions, rep⟩
    have nodup : (if buffer = 0 then fpi.config.live else
        ⟨.sram, size, buffer, blockOf state buffer⟩ :: fpi.config.live).Nodup := rep.live_nodup
    rw [if_neg null] at nodup
    exact (List.nodup_cons.mp nodup).1
  exact .inr ⟨⟨.sram, size, buffer, blockOf state buffer⟩, {
    sound := next
    last := if_neg null
    unused := fun member => fresh (sound.runningLive _ member)
    requested := rfl
    buffer := rfl
    filled := rfl
    room := Nat.zero_le _
    holds := fun _ inside => absurd inside (Nat.not_lt_zero _) }⟩

theorem copyBytes_binaryBuffer : ∀ (bytes : List UInt8) (fpi : Fpi),
    (fpi.copyBytes bytes).binaryBuffer = fpi.binaryBuffer
  | [], _ => rfl
  | byte :: rest, fpi => copyBytes_binaryBuffer rest (fpi.copyByte byte)

/-- Only a request moves the buffer. -/
theorem run_binaryBuffer (run : Run UploadStep fpi events last)
    (plain : ∀ part ∈ sentFrames events, part.1 = 0x02) :
    last.binaryBuffer = fpi.binaryBuffer := by
  induction run with
  | nil => rfl
  | @cons before _ _ event _ step _ induction =>
      cases event with
      | other call =>
          cases step.step with
          | other => exact induction plain
      | frame frame =>
          cases step.step with
          | frame ran =>
              have cmd : frame.cmd = 0x02 := plain _ List.mem_cons_self
              rw [run_handleFrame_part cmd] at ran
              cases ran
              exact (induction fun part member => plain part (List.mem_cons_of_mem _ member)).trans
                (copyBytes_binaryBuffer frame.bytes before)

theorem Sound.uploading (sound : Sound linker fpi) (run : Run UploadStep fpi events last)
    {size : Nat} {parts : List (UInt8 × List UInt8)} (bound : size ≤ 0xFFFFFFF0)
    (sent : sentFrames events = (0x01, erasePayload size) :: parts)
    (plain : ∀ part ∈ parts, part.1 = 0x02) (room : (parts.flatMap Prod.snd).length ≤ size) :
    last.binaryBuffer = 0 ∨
      ∃ block, Uploading linker size (parts.flatMap Prod.snd) block last := by
  induction run with
  | nil => cases sent
  | @cons _ _ _ event _ step rest induction =>
      cases event with
      | other call =>
          exact induction (sound.step step.fitting) sent
      | frame frame =>
          rcases List.cons.inj sent with ⟨request, same⟩
          subst same
          cases step.step with
          | frame ran =>
              cases sound.requested request bound ran with
              | inl null => exact .inl ((run_binaryBuffer rest plain).trans null)
              | inr found =>
                  rcases found with ⟨block, uploading⟩
                  have all := Uploading.run rest uploading plain
                    (by rw [List.length_nil, Nat.zero_add]; exact room)
                  exact .inr ⟨block, all⟩

end Request

/-! ## The dynamic linker, word by word -/

end Vanilla.Misc
