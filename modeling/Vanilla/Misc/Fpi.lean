import Vanilla.Mm.Runs

namespace Vanilla.Misc

open Mm

/-! fpi.c: applications received over the host interface, and the dynamic
linker that relocates them. -/

/-- A frame that has been received. -/
structure Frame where
  cmd : UInt8
  size : Nat
  payload : Vector UInt8 512
  nonempty : 1 ≤ size
  fits : size ≤ 512

/-- `*(u32 *)frame.payload` -/
def Frame.allocateSize (frame : Frame) : Nat :=
  frame.payload[0].toNat + 2 ^ 8 * frame.payload[1].toNat +
    2 ^ 16 * frame.payload[2].toNat + 2 ^ 24 * frame.payload[3].toNat

/-- A byte that `fpi` has copied, with the block for the last command 1 and the
blocks of the applications that were running. -/
structure Copy where
  address : Nat
  block : Option Allocation
  running : List Allocation

/-- The local variables of `fpi` and the memory. What is live, `block`,
`running` and `copies` only record what has happened. -/
structure Fpi where
  config : Config
  binaryBuffer : Nat
  bufferPtr : Nat
  block : Option Allocation
  running : List Allocation
  copies : List Copy

namespace Fpi

def setState (state : MmState) (fpi : Fpi) : Fpi :=
  { fpi with config := { fpi.config with state := state } }

def setMemory (memory : ByteMemory) (fpi : Fpi) : Fpi :=
  fpi.setState { fpi.config.state with memory := memory }

/-- `NULL` is no block. -/
def setBuffer (size buffer : Nat) (fpi : Fpi) : Fpi :=
  let allocation : Allocation := ⟨.sram, size, buffer, blockOf fpi.config.state buffer⟩
  { fpi with
    config := { fpi.config with
      live := if buffer = 0 then fpi.config.live else allocation :: fpi.config.live }
    binaryBuffer := buffer
    bufferPtr := buffer
    block := if buffer = 0 then none else some allocation }

/-- `*buffer_ptr++ = byte` -/
def copyByte (byte : UInt8) (fpi : Fpi) : Fpi :=
  { fpi.setMemory (fpi.config.state.memory.store8 fpi.bufferPtr byte) with
    bufferPtr := u32 (fpi.bufferPtr + 1)
    copies := fpi.copies ++ [⟨fpi.bufferPtr, fpi.block, fpi.running⟩] }

def copyBytes (fpi : Fpi) (bytes : List UInt8) : Fpi :=
  bytes.foldl (fun fpi byte => fpi.copyByte byte) fpi

end Fpi

/-! ## The dynamic linker -/

/-- The body of both loops, for the words from `word` on. -/
def relocate (binary : Nat) : Nat → Nat → ByteMemory → ByteMemory
  | 0, _, memory => memory
  | count + 1, word, memory =>
      relocate binary count (u32 (word + 4)) (memory.store32 word (memory.load32 word + binary))

/-- One of the two loops: a word pointer is counted up until it meets the end,
which it steps over when they do not agree modulo 4. -/
def relocateSection (binary start stop : Nat) : Exec ByteMemory Unit :=
  let length := u32Sub (u32 (binary + stop)) (u32 (binary + start))
  if length % 4 = 0 then modify (relocate binary (length / 4) (u32 (binary + start)))
  else Exec.fault .diverges

/-- `dynamic_linker`, on the fields of `struct app_info`. -/
def dynamicLinker (binary : Nat) : Exec ByteMemory Unit := do
  let image ← get
  relocateSection binary (image.load32 (binary + 12)) (image.load32 (binary + 16))
  let linked ← get
  relocateSection binary (linked.load32 (binary + 20)) (linked.load32 (binary + 24))

/-! ## Frames -/

def onState {Value : Type} (body : Exec MmState Value) : Exec Fpi Value :=
  Exec.zoom (fun fpi => fpi.config.state) Fpi.setState body

/-- The bytes that a frame brings. -/
def Frame.bytes (frame : Frame) : List UInt8 := frame.payload.toList.take frame.size

/-- One frame in the loop of `fpi`. `kill_thread` only marks the old thread, and
`new_thread` is one of the kernel's other calls of the memory manager. -/
def handleFrame (frame : Frame) : Exec Fpi Unit := do
  if frame.cmd = 0x01 then do
    let buffer ← onState (mmAlloc frame.allocateSize .sram)
    modify (Fpi.setBuffer frame.allocateSize buffer)
  else if frame.cmd = 0x02 ∨ frame.cmd = 0x03 then do
    modify fun fpi => fpi.copyBytes frame.bytes
    if frame.cmd = 0x03 then do
      let fpi ← get
      onState (onMemory (dynamicLinker fpi.binaryBuffer))
      modify fun fpi => { fpi with running := fpi.block.toList ++ fpi.running }
    else pure ()
  else pure ()

end Vanilla.Misc
