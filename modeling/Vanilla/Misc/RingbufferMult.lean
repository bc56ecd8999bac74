import Vanilla.Misc.Ringbuffer

namespace Vanilla.Misc

/-! ringbuffer_read_mult against as many calls of ringbuffer_read. It does not
wrap the read pointer, so the two part at the end of the buffer. -/

/-- The bytes from the read pointer to the write pointer. -/
def Ringbuffer.storedBytes (rb : Ringbuffer) : Nat :=
  (rb.writePtr + (rb.bufferEnd - rb.bufferStart) - rb.readPtr) % (rb.bufferEnd - rb.bufferStart)

/-- So many calls of `ringbuffer_read`. -/
def readEach : Nat → Exec RingState (List UInt8)
  | 0 => pure []
  | count + 1 => do
      let data ← ringbufferRead
      let rest ← readEach count
      pure (data :: rest)

/-- The call returns as many bytes as there are, up to `size`, with the bytes
and the state of that many single reads, and has read nothing outside. -/
def AgreesWithReads (ring : RingState) (size : Nat) : Prop :=
  ∃ data after, (ringbufferReadMult size).run ring = .ok data after ∧
    data.length = min size ring.rb.storedBytes ∧
    (readEach data.length).run ring = .ok data after ∧
    ∃ addresses, after.reads = ring.reads ++ addresses ∧
      ∀ address ∈ addresses, ring.rb.bufferStart ≤ address ∧ address < ring.rb.bufferEnd

/-- The bytes that the call reads end before the end of the buffer. -/
def EndsBefore (rb : Ringbuffer) (size : Nat) : Prop :=
  rb.readPtr ≤ rb.writePtr ∨ rb.readPtr + size < rb.bufferEnd

/-! ## Pointers inside the buffer -/

structure Within (rb : Ringbuffer) : Prop where
  read : rb.bufferStart ≤ rb.readPtr ∧ rb.readPtr < rb.bufferEnd
  write : rb.bufferStart ≤ rb.writePtr ∧ rb.writePtr < rb.bufferEnd

theorem Within.add {ring : RingState} (within : Within ring.rb) (data : UInt8) :
    Within (afterAdd data ring).rb := by
  have read := within.read
  have write := within.write
  rw [afterAdd_rb]
  refine ⟨read, ?_⟩
  change ring.rb.bufferStart ≤ (if ring.rb.writePtr + 1 = ring.rb.bufferEnd then
      ring.rb.bufferStart else ring.rb.writePtr + 1) ∧
    (if ring.rb.writePtr + 1 = ring.rb.bufferEnd then ring.rb.bufferStart
      else ring.rb.writePtr + 1) < ring.rb.bufferEnd
  split <;> omega

theorem Within.afterRead {ring : RingState} (within : Within ring.rb) :
    Within (afterRead ring).rb := by
  have read := within.read
  have write := within.write
  rw [Misc.afterRead, wrapRead_rb]
  refine ⟨?_, write⟩
  change ring.rb.bufferStart ≤ (if ring.rb.readPtr + 1 = ring.rb.bufferEnd then
      ring.rb.bufferStart else ring.rb.readPtr + 1) ∧
    (if ring.rb.readPtr + 1 = ring.rb.bufferEnd then ring.rb.bufferStart
      else ring.rb.readPtr + 1) < ring.rb.bufferEnd
  split <;> omega

theorem Within.ringbufferRead {ring after : RingState} {data : UInt8} (within : Within ring.rb)
    (call : ringbufferRead.run ring = .ok data after) : Within after.rb := by
  by_cases empty : ring.rb.readPtr = ring.rb.writePtr
  · rw [run_ringbufferRead_empty empty] at call
    cases call
    exact within
  · rw [run_ringbufferRead empty] at call
    cases call
    exact within.afterRead

theorem Within.readEach : ∀ {count : Nat} {ring after : RingState} {data : List UInt8},
    Within ring.rb → (readEach count).run ring = .ok data after → Within after.rb
  | 0, _, _, _, within, calls => by
      cases calls
      exact within
  | count + 1, ring, after, data, within, calls => by
      rw [Misc.readEach] at calls
      rcases Exec.run_bind_ok.mp calls with ⟨first, middle, call, later⟩
      rcases Exec.run_bind_ok.mp later with ⟨rest, last, others, returns⟩
      cases returns
      exact Within.readEach (within.ringbufferRead call) others

/-! ## Before the end of the buffer -/

/-- The state of both calls after one byte that is not the last of the buffer. -/
def stepped (ring : RingState) : RingState := ring.recordRead.advanceRead

theorem afterRead_eq_stepped {ring : RingState}
    (notLast : ring.rb.readPtr + 1 ≠ ring.rb.bufferEnd) : afterRead ring = stepped ring := by
  rw [afterRead, RingState.wrapRead]
  exact if_neg notLast

theorem run_ringbufferReadMult_empty {ring : RingState} (size : Nat)
    (empty : ring.rb.readPtr = ring.rb.writePtr) :
    (ringbufferReadMult size).run ring = .ok [] ring := by
  cases size with
  | zero => rfl
  | succ size =>
      rw [ringbufferReadMult, Exec.run_bind_of_ok (EStateM.run_get ring), if_pos empty]
      rfl

theorem run_ringbufferReadMult_succ {ring after : RingState} {size : Nat} {rest : List UInt8}
    (stored : ring.rb.readPtr ≠ ring.rb.writePtr)
    (others : (ringbufferReadMult size).run (stepped ring) = .ok rest after) :
    (ringbufferReadMult (size + 1)).run ring = .ok (ring.readByte :: rest) after := by
  have recorded : (modify RingState.recordRead : Exec RingState Unit).run ring =
      .ok () ring.recordRead := rfl
  have moved : (modify RingState.advanceRead : Exec RingState Unit).run ring.recordRead =
      .ok () (stepped ring) := rfl
  rw [ringbufferReadMult, Exec.run_bind_of_ok (EStateM.run_get ring), if_neg stored,
    Exec.run_bind_of_ok recorded, Exec.run_bind_of_ok moved, Exec.run_bind_of_ok others]
  rfl

theorem run_readEach_succ {ring after : RingState} {count : Nat} {rest : List UInt8}
    (stored : ring.rb.readPtr ≠ ring.rb.writePtr)
    (others : (readEach count).run (afterRead ring) = .ok rest after) :
    (readEach (count + 1)).run ring = .ok (ring.readByte :: rest) after := by
  rw [readEach, Exec.run_bind_of_ok (run_ringbufferRead stored), Exec.run_bind_of_ok others]
  rfl

theorem storedBytes_empty {rb : Ringbuffer} (within : Within rb)
    (empty : rb.readPtr = rb.writePtr) : rb.storedBytes = 0 := by
  have write := within.write
  rw [Ringbuffer.storedBytes, empty, Nat.add_sub_cancel_left, Nat.mod_self]

theorem storedBytes_eq {rb : Ringbuffer} (within : Within rb) :
    rb.storedBytes = if rb.readPtr ≤ rb.writePtr then rb.writePtr - rb.readPtr
      else rb.writePtr + (rb.bufferEnd - rb.bufferStart) - rb.readPtr := by
  have read := within.read
  have write := within.write
  rw [Ringbuffer.storedBytes]
  by_cases order : rb.readPtr ≤ rb.writePtr
  · rw [if_pos order, show rb.writePtr + (rb.bufferEnd - rb.bufferStart) - rb.readPtr =
      rb.writePtr - rb.readPtr + (rb.bufferEnd - rb.bufferStart) by omega, Nat.add_mod_right]
    exact Nat.mod_eq_of_lt (by omega)
  · rw [if_neg order]
    exact Nat.mod_eq_of_lt (by omega)

theorem storedBytes_stepped {ring : RingState} (within : Within ring.rb)
    (stored : ring.rb.readPtr ≠ ring.rb.writePtr) (next : Within (stepped ring).rb) :
    ring.rb.storedBytes = (stepped ring).rb.storedBytes + 1 := by
  have read := within.read
  have write := within.write
  rw [storedBytes_eq within, storedBytes_eq next]
  change _ = (if ring.rb.readPtr + 1 ≤ ring.rb.writePtr then
    ring.rb.writePtr - (ring.rb.readPtr + 1)
    else ring.rb.writePtr + (ring.rb.bufferEnd - ring.rb.bufferStart) - (ring.rb.readPtr + 1)) + 1
  split <;> split <;> omega

theorem EndsBefore.agrees : ∀ {size : Nat} {ring : RingState}, Within ring.rb →
    EndsBefore ring.rb size → AgreesWithReads ring size
  | 0, ring, within, _ => by
      refine ⟨[], ring, rfl, ?_, rfl, [], ?_, ?_⟩
      · rw [Nat.zero_min, List.length_nil]
      · rw [List.append_nil]
      · exact fun address member => absurd member List.not_mem_nil
  | size + 1, ring, within, before => by
      have read := within.read
      have write := within.write
      by_cases empty : ring.rb.readPtr = ring.rb.writePtr
      · refine ⟨[], ring, run_ringbufferReadMult_empty _ empty, ?_, rfl, [], ?_, ?_⟩
        · rw [storedBytes_empty within empty, Nat.min_zero, List.length_nil]
        · rw [List.append_nil]
        · exact fun address member => absurd member List.not_mem_nil
      · have notLast : ring.rb.readPtr + 1 < ring.rb.bufferEnd := by
          cases before with
          | inl order => omega
          | inr ends => omega
        have next : Within (stepped ring).rb :=
          ⟨⟨Nat.le_succ_of_le read.1, notLast⟩, write⟩
        have nextBefore : EndsBefore (stepped ring).rb size := by
          cases before with
          | inl order => exact .inl (Nat.lt_of_le_of_ne order empty)
          | inr ends =>
              right
              change ring.rb.readPtr + 1 + size < ring.rb.bufferEnd
              omega
        rcases nextBefore.agrees next with ⟨rest, after, mult, count, each, addresses, log, inside⟩
        refine ⟨ring.readByte :: rest, after, run_ringbufferReadMult_succ empty mult, ?_, ?_,
          ring.rb.readPtr :: addresses, ?_, ?_⟩
        · rw [List.length_cons, count, storedBytes_stepped within empty next,
            Nat.add_min_add_right]
        · apply run_readEach_succ empty
          rw [afterRead_eq_stepped (Nat.ne_of_lt notLast)]
          exact each
        · rw [log]
          exact List.append_assoc _ [ring.rb.readPtr] addresses
        · intro address member
          cases List.mem_cons.mp member with
          | inl first => exact first ▸ read
          | inr later => exact inside address later

/-! ## Over the end of the buffer -/

/-- Above the write pointer nothing stops the call before `size` bytes. -/
theorem run_ringbufferReadMult_above : ∀ {size : Nat} {ring : RingState},
    ring.rb.writePtr < ring.rb.readPtr →
    ∃ data after, (ringbufferReadMult size).run ring = .ok data after ∧
      after.rb.readPtr = ring.rb.readPtr + size ∧ after.rb.bufferEnd = ring.rb.bufferEnd
  | 0, ring, _ => ⟨[], ring, rfl, rfl, rfl⟩
  | size + 1, ring, above => by
      have next : (stepped ring).rb.writePtr < (stepped ring).rb.readPtr :=
        Nat.lt_succ_of_lt above
      rcases run_ringbufferReadMult_above next with ⟨rest, after, mult, pointer, same⟩
      refine ⟨_, after, run_ringbufferReadMult_succ (Nat.ne_of_gt above) mult, ?_, same⟩
      rw [pointer]
      change ring.rb.readPtr + 1 + size = _
      omega

theorem AgreesWithReads.endsBefore {ring : RingState} {size : Nat} (within : Within ring.rb)
    (agrees : AgreesWithReads ring size) : EndsBefore ring.rb size := by
  by_contra beyond
  rw [EndsBefore, not_or, Nat.not_le, Nat.not_lt] at beyond
  rcases agrees with ⟨data, after, mult, _, each, _⟩
  rcases @run_ringbufferReadMult_above size ring beyond.1 with ⟨other, last, run, pointer, same⟩
  rw [mult] at run
  cases run
  have inside := (within.readEach each).read
  omega

/-! ## Whole runs -/

inductive RingCall where
  | add (data : UInt8)
  | read
  | readMult (size : Nat)

/-- A call that returns. -/
inductive CallStep : RingState → RingCall → RingState → Prop where
  | add {before after : RingState} {data : UInt8} :
      (ringbufferAdd data).run before = .ok () after → CallStep before (.add data) after
  | read {before after : RingState} {data : UInt8} :
      ringbufferRead.run before = .ok data after → CallStep before .read after
  | readMult {before after : RingState} {size : Nat} {data : List UInt8} :
      (ringbufferReadMult size).run before = .ok data after →
      CallStep before (.readMult size) after

def RingCall.EndsBefore (rb : Ringbuffer) : RingCall → Prop
  | .add _ => True
  | .read => True
  | .readMult size => Misc.EndsBefore rb size

/-- A call that reads no more than lies before the end of the buffer. -/
structure BoundedCall (before : RingState) (call : RingCall) (after : RingState) : Prop where
  step : CallStep before call after
  bounded : call.EndsBefore before.rb

theorem Within.step {before after : RingState} {call : RingCall} (within : Within before.rb)
    (bounded : BoundedCall before call after) : Within after.rb := by
  cases bounded.step with
  | add returns =>
      rcases ringbufferAdd_returns returns with ⟨_, rfl⟩
      exact within.add _
  | read returns => exact within.ringbufferRead returns
  | readMult returns =>
      rcases (bounded.bounded).agrees within with ⟨data, last, mult, _, each, _⟩
      rw [mult] at returns
      cases returns
      exact within.readEach each

theorem within_of_run {buffer size : Nat} {memory : ByteMemory} {reads : List Nat}
    {calls : List RingCall} {last : RingState} (positive : 0 < size)
    (run : Run BoundedCall ⟨ringbufferInit buffer size, memory, reads⟩ calls last) :
    Within last.rb := by
  apply run.invariant (fun ring => Within ring.rb) fun _ _ _ within step => within.step step
  have inside : buffer ≤ buffer ∧ buffer < buffer + size :=
    ⟨Nat.le_refl _, Nat.lt_add_of_pos_right positive⟩
  exact ⟨inside, inside⟩

/-- In every state that adds and reads lead to, `ringbuffer_read_mult` does what
single reads do exactly when what it reads ends before the end of the buffer. -/
theorem read_mult_agrees_iff {buffer size : Nat} {memory : ByteMemory} {reads : List Nat}
    {calls : List RingCall} {last : RingState} (positive : 0 < size)
    (run : Run BoundedCall ⟨ringbufferInit buffer size, memory, reads⟩ calls last) (count : Nat) :
    AgreesWithReads last count ↔ EndsBefore last.rb count := by
  have within := within_of_run positive run
  exact ⟨fun agrees => agrees.endsBefore within, fun before => before.agrees within⟩

/-- Three bytes added and read, and a fourth added in the last place. -/
def lastPlace : List RingCall :=
  [.add 1, .add 2, .add 3, .read, .read, .read, .add 4]

def fourBytes : RingState := ⟨ringbufferInit 0x20400000 4, ⟨fun _ => 0, []⟩, []⟩

theorem lastPlace_run : ∃ last, Run BoundedCall fourBytes lastPlace last ∧
    last.rb.readPtr = 0x20400003 ∧ last.rb.writePtr = 0x20400000 ∧
    last.rb.bufferEnd = 0x20400004 := by
  refine ⟨_, .cons ⟨.add rfl, trivial⟩ (.cons ⟨.add rfl, trivial⟩ (.cons ⟨.add rfl, trivial⟩
    (.cons ⟨.read rfl, trivial⟩ (.cons ⟨.read rfl, trivial⟩ (.cons ⟨.read rfl, trivial⟩
      (.cons ⟨.add rfl, trivial⟩ (.nil _))))))), rfl, rfl, rfl⟩

theorem read_mult_agrees_iff_last : ∃ last, Run BoundedCall fourBytes lastPlace last ∧
    (AgreesWithReads last 1 ↔ EndsBefore last.rb 1) := by
  rcases lastPlace_run with ⟨last, run, _⟩
  exact ⟨last, run, read_mult_agrees_iff (by decide) run 1⟩

/-- The call for the byte in the last place leaves the pointer at the end. -/
theorem last_place_not_wrapped : ∃ last, Run BoundedCall fourBytes lastPlace last ∧
    ¬ AgreesWithReads last 1 := by
  rcases lastPlace_run with ⟨last, run, read, write, stop⟩
  refine ⟨last, run, fun agrees => ?_⟩
  have before := agrees.endsBefore (within_of_run (by decide) run)
  rw [EndsBefore, read, write, stop] at before
  omega

end Vanilla.Misc
