import Vanilla.Foundation.ByteMemory
import Vanilla.Foundation.Exec
import Vanilla.Foundation.Run

namespace Vanilla.Misc

/-! ringbuffer.c: a queue of bytes between two pointers that wrap. The serial
port's interrupt adds to it while a thread reads. -/

structure Ringbuffer where
  bufferStart : Nat
  bufferEnd : Nat
  readPtr : Nat
  writePtr : Nat

/-- `reads` records where the buffer has been read. -/
structure RingState where
  rb : Ringbuffer
  memory : ByteMemory
  reads : List Nat

namespace RingState

def setReadPtr (pointer : Nat) (ring : RingState) : RingState :=
  { ring with rb := { ring.rb with readPtr := pointer } }

def setWritePtr (pointer : Nat) (ring : RingState) : RingState :=
  { ring with rb := { ring.rb with writePtr := pointer } }

/-- `rb->read_ptr++` -/
def advanceRead (ring : RingState) : RingState := ring.setReadPtr (ring.rb.readPtr + 1)

def wrapRead (ring : RingState) : RingState :=
  if ring.rb.readPtr = ring.rb.bufferEnd then ring.setReadPtr ring.rb.bufferStart else ring

/-- `*(rb->read_ptr)` -/
def readByte (ring : RingState) : UInt8 := ring.memory.load8 ring.rb.readPtr

def recordRead (ring : RingState) : RingState :=
  { ring with reads := ring.reads ++ [ring.rb.readPtr] }

/-- `*(rb->write_ptr) = data`, and `rb->write_ptr++` -/
def writeByte (data : UInt8) (ring : RingState) : RingState :=
  { ring with memory := ring.memory.store8 ring.rb.writePtr data }.setWritePtr
    (ring.rb.writePtr + 1)

end RingState

def ringbufferInit (buffer size : Nat) : Ringbuffer where
  bufferStart := buffer
  bufferEnd := buffer + size
  readPtr := buffer
  writePtr := buffer

/-- The pointer wraps only once it has been compared with the read pointer. -/
def ringbufferAdd (data : UInt8) : Exec RingState Unit := do
  modify (RingState.writeByte data)
  let ring ← get
  if ring.rb.writePtr = ring.rb.readPtr then Exec.panic "Buffer overflow"
  else if ring.rb.writePtr = ring.rb.bufferEnd then set (ring.setWritePtr ring.rb.bufferStart)
  else pure ()

def ringbufferRead : Exec RingState UInt8 := do
  let ring ← get
  if ring.rb.readPtr ≠ ring.rb.writePtr then do
    let data := ring.readByte
    modify RingState.recordRead
    modify RingState.advanceRead
    modify RingState.wrapRead
    pure data
  else pure 0

/-- The loop of `ringbuffer_read_mult`; the bytes stored through `data`. Here
the read pointer does not wrap. -/
def ringbufferReadMult : Nat → Exec RingState (List UInt8)
  | 0 => pure []
  | size + 1 => do
      let ring ← get
      if ring.rb.readPtr = ring.rb.writePtr then pure []
      else do
        let data := ring.readByte
        modify RingState.recordRead
        modify RingState.advanceRead
        let rest ← ringbufferReadMult size
        pure (data :: rest)

/-! ## Calls -/

def afterAdd (data : UInt8) (ring : RingState) : RingState :=
  let written := ring.writeByte data
  if written.rb.writePtr = written.rb.bufferEnd then
    written.setWritePtr written.rb.bufferStart
  else written

theorem afterAdd_rb (data : UInt8) (ring : RingState) :
    (afterAdd data ring).rb = { ring.rb with
      writePtr := if ring.rb.writePtr + 1 = ring.rb.bufferEnd then ring.rb.bufferStart
        else ring.rb.writePtr + 1 } := by
  rw [afterAdd]
  by_cases last : ring.rb.writePtr + 1 = ring.rb.bufferEnd
  · rw [if_pos last]
    exact congrArg RingState.rb (if_pos last)
  · rw [if_neg last]
    exact congrArg RingState.rb (if_neg last)

theorem afterAdd_memory (data : UInt8) (ring : RingState) :
    (afterAdd data ring).memory = ring.memory.store8 ring.rb.writePtr data := by
  rw [afterAdd]
  split <;> rfl

theorem wrapRead_rb (ring : RingState) :
    ring.wrapRead.rb = { ring.rb with
      readPtr := if ring.rb.readPtr = ring.rb.bufferEnd then ring.rb.bufferStart
        else ring.rb.readPtr } := by
  rw [RingState.wrapRead]
  split <;> rfl

theorem run_ringbufferAdd {data : UInt8} {ring : RingState}
    (room : ring.rb.writePtr + 1 ≠ ring.rb.readPtr) :
    (ringbufferAdd data).run ring = .ok () (afterAdd data ring) := by
  have written : (modify (RingState.writeByte data) : Exec RingState Unit).run ring =
      .ok () (ring.writeByte data) := rfl
  have apart : ¬ (ring.writeByte data).rb.writePtr = (ring.writeByte data).rb.readPtr := room
  rw [ringbufferAdd, Exec.run_bind_of_ok written,
    Exec.run_bind_of_ok (EStateM.run_get (ring.writeByte data)), if_neg apart, afterAdd]
  by_cases last : (ring.writeByte data).rb.writePtr = (ring.writeByte data).rb.bufferEnd
  · rw [if_pos last, if_pos last]
    rfl
  · rw [if_neg last, if_neg last]
    rfl

theorem run_ringbufferAdd_full {data : UInt8} {ring : RingState}
    (full : ring.rb.writePtr + 1 = ring.rb.readPtr) :
    (ringbufferAdd data).run ring =
      .error (.panic "Buffer overflow") (ring.writeByte data) := by
  have written : (modify (RingState.writeByte data) : Exec RingState Unit).run ring =
      .ok () (ring.writeByte data) := rfl
  have meets : (ring.writeByte data).rb.writePtr = (ring.writeByte data).rb.readPtr := full
  rw [ringbufferAdd, Exec.run_bind_of_ok written,
    Exec.run_bind_of_ok (EStateM.run_get (ring.writeByte data)), if_pos meets]
  rfl

/-- A call that returns has not met the read pointer. -/
theorem ringbufferAdd_returns {data : UInt8} {ring after : RingState}
    (returns : (ringbufferAdd data).run ring = .ok () after) :
    ring.rb.writePtr + 1 ≠ ring.rb.readPtr ∧ after = afterAdd data ring := by
  by_cases full : ring.rb.writePtr + 1 = ring.rb.readPtr
  · rw [run_ringbufferAdd_full full] at returns
    cases returns
  · rw [run_ringbufferAdd full] at returns
    cases returns
    exact ⟨full, rfl⟩

def afterRead (ring : RingState) : RingState := ring.recordRead.advanceRead.wrapRead

theorem run_ringbufferRead {ring : RingState} (stored : ring.rb.readPtr ≠ ring.rb.writePtr) :
    ringbufferRead.run ring = .ok ring.readByte (afterRead ring) := by
  rw [ringbufferRead, Exec.run_bind_of_ok (EStateM.run_get ring), if_pos stored]
  rfl

theorem run_ringbufferRead_empty {ring : RingState}
    (empty : ring.rb.readPtr = ring.rb.writePtr) :
    ringbufferRead.run ring = .ok 0 ring := by
  rw [ringbufferRead, Exec.run_bind_of_ok (EStateM.run_get ring), if_neg (not_not.mpr empty)]
  rfl

end Vanilla.Misc
