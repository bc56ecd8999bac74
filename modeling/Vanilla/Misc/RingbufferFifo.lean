import Vanilla.Misc.Ringbuffer

namespace Vanilla.Misc

/-! The ring buffer as a queue. An interrupt may add a byte at any point of a
read, so a read is taken step by step. -/

/-- Where the thread stands in `ringbuffer_read`. -/
inductive Reader where
  | outside
  | nonempty
  | loaded (data : UInt8)
  | advanced (data : UInt8)

/-- `returned` holds what the reads of a buffer that was not empty have
returned. -/
structure Shared where
  ring : RingState
  reader : Reader
  added : List UInt8
  returned : List UInt8

/-- The next step of `ringbuffer_read`. -/
def Shared.readNext (shared : Shared) : Shared :=
  match shared.reader with
  | .outside =>
      if shared.ring.rb.readPtr ≠ shared.ring.rb.writePtr then
        { shared with reader := .nonempty }
      else shared
  | .nonempty =>
      { shared with ring := shared.ring.recordRead, reader := .loaded shared.ring.readByte }
  | .loaded data =>
      { shared with ring := shared.ring.advanceRead, reader := .advanced data }
  | .advanced data =>
      { shared with
        ring := shared.ring.wrapRead
        reader := .outside
        returned := shared.returned ++ [data] }

/-- Steps that nothing comes between are a call. -/
theorem readNext_call {shared : Shared} {data : UInt8} {after : RingState}
    (outside : shared.reader = .outside)
    (stored : shared.ring.rb.readPtr ≠ shared.ring.rb.writePtr)
    (call : ringbufferRead.run shared.ring = .ok data after) :
    shared.readNext.readNext.readNext.readNext =
      { shared with ring := after, returned := shared.returned ++ [data] } := by
  rw [run_ringbufferRead stored] at call
  cases call
  have first : shared.readNext = { shared with reader := .nonempty } := by
    rw [Shared.readNext, outside]
    exact if_pos stored
  rw [first]
  cases shared
  cases outside
  rfl

/-! ## Runs -/

inductive RingEvent where
  | add (data : UInt8)
  | read

inductive SharedStep : Shared → RingEvent → Shared → Prop where
  | add {before : Shared} {data : UInt8} {ring : RingState} :
      (ringbufferAdd data).run before.ring = .ok () ring →
      SharedStep before (.add data)
        { before with ring := ring, added := before.added ++ [data] }
  | read {before : Shared} : SharedStep before .read before.readNext

/-- How many bytes have been added and not yet returned. -/
def Shared.outstanding (shared : Shared) : Nat := shared.added.length - shared.returned.length

/-- A step after which no more than `limit` bytes are outstanding. -/
structure LimitedStep (limit : Nat) (before : Shared) (event : RingEvent) (after : Shared) :
    Prop where
  step : SharedStep before event after
  limited : after.outstanding ≤ limit

/-- A buffer that `ringbuffer_init` has set up, over any contents. -/
def initialized (buffer size : Nat) (memory : ByteMemory) : Shared where
  ring := { rb := ringbufferInit buffer size, memory := memory, reads := [] }
  reader := .outside
  added := []
  returned := []

/-! ## The queue in the buffer -/

/-- The position so many bytes behind the first. -/
def slot (size first offset : Nat) : Nat :=
  if first + offset < size then first + offset else first + offset - size

theorem slot_lt {size first offset : Nat} (inside : first < size) (bound : offset ≤ size) :
    slot size first offset < size := by
  rw [slot]
  split <;> omega

theorem slot_zero {size first : Nat} (inside : first < size) : slot size first 0 = first := by
  rw [slot]
  split <;> omega

theorem slot_inj {size first left right : Nat} (leftBound : left < size)
    (rightBound : right < size) (same : slot size first left = slot size first right) :
    left = right := by
  rw [slot, slot] at same
  split at same <;> split at same <;> omega

/-- One position on, where the end of the buffer is its start. -/
theorem slot_succ {size first offset : Nat} (inside : first < size) (bound : offset < size) :
    slot size first (offset + 1) =
      if slot size first offset + 1 = size then 0 else slot size first offset + 1 := by
  rw [slot, slot]
  split <;> split <;> split <;> omega

theorem slot_next {size first offset : Nat} (bound : offset + 1 < size) :
    slot size (if first + 1 = size then 0 else first + 1) offset =
      slot size first (offset + 1) := by
  rw [slot, slot]
  split <;> split <;> split <;> omega

/-- The reader is at the first byte; it keeps that byte until it returns it. -/
def Stands (pointer readPtr : Nat) (queue : List UInt8) : Reader → Prop
  | .outside => readPtr = pointer
  | .nonempty => readPtr = pointer ∧ queue ≠ []
  | .loaded data => readPtr = pointer ∧ queue.head? = some data
  | .advanced data => readPtr = pointer + 1 ∧ queue.head? = some data

/-- The bytes of `queue` lie in the buffer from `first` on. -/
structure Holds (buffer size : Nat) (shared : Shared) (first : Nat) (queue : List UInt8) :
    Prop where
  start : shared.ring.rb.bufferStart = buffer
  stop : shared.ring.rb.bufferEnd = buffer + size
  inside : first < size
  room : queue.length < size
  write : shared.ring.rb.writePtr = buffer + slot size first queue.length
  stored : ∀ (offset : Nat) (bound : offset < queue.length),
    shared.ring.memory.load8 (buffer + slot size first offset) = queue[offset]
  conserved : shared.added = shared.returned ++ queue
  reader : Stands (buffer + first) shared.ring.rb.readPtr queue shared.reader

namespace Holds

variable {buffer size first : Nat} {shared : Shared} {queue : List UInt8}

theorem initial (positive : 0 < size) (memory : ByteMemory) :
    Holds buffer size (initialized buffer size memory) 0 [] where
  start := rfl
  stop := rfl
  inside := positive
  room := positive
  write := by
    rw [List.length_nil, slot_zero positive]
    rfl
  stored := fun offset bound => absurd bound (Nat.not_lt_zero offset)
  conserved := rfl
  reader := rfl

theorem outstanding (holds : Holds buffer size shared first queue) :
    shared.outstanding = queue.length := by
  rw [Shared.outstanding, holds.conserved, List.length_append]
  omega

/-- The read pointer is past the first byte only while that byte is kept. -/
theorem readPtr_cases (holds : Holds buffer size shared first queue) :
    shared.ring.rb.readPtr = buffer + first ∨
      (∃ data, shared.reader = .advanced data) ∧
        shared.ring.rb.readPtr = buffer + first + 1 ∧ queue ≠ [] := by
  have stands := holds.reader
  cases reader : shared.reader with
  | outside =>
      rw [reader] at stands
      exact .inl stands
  | nonempty =>
      rw [reader] at stands
      exact .inl stands.1
  | loaded data =>
      rw [reader] at stands
      exact .inl stands.1
  | advanced data =>
      rw [reader] at stands
      refine .inr ⟨⟨data, rfl⟩, stands.1, ?_⟩
      intro empty
      have head := stands.2
      rw [empty] at head
      cases head

/-- With room for one more byte the write pointer does not meet the read
pointer, wherever the reader stands. -/
theorem apart (holds : Holds buffer size shared first queue)
    (room : queue.length + 1 < size) :
    shared.ring.rb.writePtr + 1 ≠ shared.ring.rb.readPtr := by
  have inside := holds.inside
  rw [holds.write, slot]
  cases holds.readPtr_cases with
  | inl before =>
      rw [before]
      split <;> omega
  | inr past =>
      have positive := List.length_pos_iff.mpr past.2.2
      rw [past.2.1]
      split <;> omega

theorem stands_append {pointer readPtr : Nat} {reader : Reader} (data : UInt8)
    (stands : Stands pointer readPtr queue reader) :
    Stands pointer readPtr (queue ++ [data]) reader := by
  cases reader with
  | outside => exact stands
  | nonempty => exact ⟨stands.1, by simp⟩
  | loaded byte => exact ⟨stands.1, by rw [List.head?_append, stands.2]; rfl⟩
  | advanced byte => exact ⟨stands.1, by rw [List.head?_append, stands.2]; rfl⟩

theorem add (holds : Holds buffer size shared first queue) (room : queue.length + 1 < size)
    (data : UInt8) :
    Holds buffer size { shared with
      ring := afterAdd data shared.ring
      added := shared.added ++ [data] } first (queue ++ [data]) := by
  have rb := afterAdd_rb data shared.ring
  constructor
  · rw [rb]
    exact holds.start
  · rw [rb]
    exact holds.stop
  · exact holds.inside
  · rw [List.length_append]
    exact room
  · rw [rb, holds.start, holds.stop, holds.write, List.length_append]
    change (if buffer + slot size first queue.length + 1 = buffer + size then buffer
      else buffer + slot size first queue.length + 1) =
        buffer + slot size first (queue.length + 1)
    rw [slot_succ holds.inside holds.room]
    split <;> split <;> omega
  · intro offset bound
    rw [List.length_append] at bound
    change (afterAdd data shared.ring).memory.load8 _ = _
    rw [afterAdd_memory, holds.write]
    by_cases old : offset < queue.length
    · have different : buffer + slot size first offset ≠
          buffer + slot size first queue.length := by
        intro same
        have equal := slot_inj (Nat.lt_trans old holds.room) holds.room (Nat.add_left_cancel same)
        exact absurd old (equal ▸ Nat.lt_irrefl _)
      rw [ByteMemory.load8_store8_of_ne _ _ different, holds.stored offset old,
        List.getElem_append_left old]
    · have last : offset = queue.length := by
        simp only [List.length_singleton] at bound
        omega
      subst last
      rw [ByteMemory.load8_store8_same, List.getElem_append_right (Nat.le_refl _)]
      simp
  · change shared.added ++ [data] = shared.returned ++ (queue ++ [data])
    rw [holds.conserved, List.append_assoc]
  · change Stands _ (afterAdd data shared.ring).rb.readPtr _ shared.reader
    rw [rb]
    exact stands_append data holds.reader

/-- The pointers meet exactly when no byte is in the buffer. -/
theorem pointers_meet_iff (holds : Holds buffer size shared first queue)
    (outside : shared.reader = .outside) :
    shared.ring.rb.readPtr = shared.ring.rb.writePtr ↔ queue = [] := by
  have read := holds.reader
  rw [outside] at read
  have inside := holds.inside
  have room := holds.room
  rw [show shared.ring.rb.readPtr = buffer + first from read, holds.write,
    ← List.length_eq_zero_iff, slot]
  split <;> omega

theorem head_stored {data : UInt8} (holds : Holds buffer size shared first queue)
    (read : shared.ring.rb.readPtr = buffer + first) (head : queue.head? = some data) :
    shared.ring.readByte = data := by
  cases queue with
  | nil => cases head
  | cons byte rest =>
      have stored := holds.stored 0 (Nat.zero_lt_succ _)
      rw [slot_zero holds.inside] at stored
      rw [RingState.readByte, read, stored]
      exact Option.some.inj head

/-- The last step of a read takes the first byte out. -/
theorem wrap {data : UInt8} (holds : Holds buffer size shared first queue)
    (advanced : shared.reader = .advanced data) :
    ∃ rest, queue = data :: rest ∧
      Holds buffer size shared.readNext (if first + 1 = size then 0 else first + 1) rest := by
  have stands := holds.reader
  rw [advanced] at stands
  have inside := holds.inside
  cases queue with
  | nil => cases stands.2
  | cons byte rest =>
      have same : byte = data := Option.some.inj stands.2
      subst same
      refine ⟨rest, rfl, ?_⟩
      have room := holds.room
      rw [List.length_cons] at room
      have next : shared.readNext = { shared with
          ring := shared.ring.wrapRead, reader := .outside
          returned := shared.returned ++ [byte] } := by
        rw [Shared.readNext, advanced]
      have rb := wrapRead_rb shared.ring
      have memory : shared.ring.wrapRead.memory = shared.ring.memory := by
        rw [RingState.wrapRead]
        split <;> rfl
      rw [next]
      constructor
      · rw [rb]
        exact holds.start
      · rw [rb]
        exact holds.stop
      · split <;> omega
      · omega
      · rw [rb]
        change shared.ring.rb.writePtr = _
        rw [slot_next room, holds.write]
        rfl
      · intro offset bound
        have stored := holds.stored (offset + 1) (Nat.succ_lt_succ bound)
        change shared.ring.wrapRead.memory.load8 _ = _
        rw [memory, slot_next (by omega), stored]
        rfl
      · change shared.added = shared.returned ++ [byte] ++ rest
        rw [holds.conserved, List.append_assoc]
        rfl
      · change shared.ring.wrapRead.rb.readPtr = _
        rw [rb, holds.start, holds.stop]
        change (if shared.ring.rb.readPtr = buffer + size then buffer
          else shared.ring.rb.readPtr) = _
        rw [stands.1]
        split <;> split <;> omega

theorem readNext (holds : Holds buffer size shared first queue) :
    ∃ next rest, Holds buffer size shared.readNext next rest := by
  have stands := holds.reader
  cases reader : shared.reader with
  | outside =>
      rw [reader] at stands
      rw [Shared.readNext, reader]
      by_cases stored : shared.ring.rb.readPtr ≠ shared.ring.rb.writePtr
      · refine ⟨first, queue, ?_⟩
        simp only [if_pos stored]
        have occupied : queue ≠ [] := fun empty =>
          stored ((holds.pointers_meet_iff reader).mpr empty)
        exact ⟨holds.start, holds.stop, holds.inside, holds.room, holds.write, holds.stored,
          holds.conserved, stands, occupied⟩
      · simp only [if_neg stored]
        exact ⟨first, queue, holds⟩
  | nonempty =>
      rw [reader] at stands
      rw [Shared.readNext, reader]
      rcases List.exists_cons_of_ne_nil stands.2 with ⟨byte, rest, rfl⟩
      have loaded := holds.head_stored stands.1 rfl
      exact ⟨first, byte :: rest, holds.start, holds.stop, holds.inside, holds.room, holds.write,
        holds.stored, holds.conserved, stands.1, congrArg some loaded.symm⟩
  | loaded data =>
      rw [reader] at stands
      rw [Shared.readNext, reader]
      exact ⟨first, queue, holds.start, holds.stop, holds.inside, holds.room, holds.write,
        holds.stored, holds.conserved, congrArg (· + 1) stands.1, stands.2⟩
  | advanced data =>
      rcases holds.wrap reader with ⟨rest, _, kept⟩
      exact ⟨_, rest, kept⟩

end Holds

/-! ## Whole runs -/

theorem holds_of_run {buffer size : Nat} {memory : ByteMemory} {events : List RingEvent}
    {last : Shared} (two : 2 ≤ size)
    (run : Run (LimitedStep (size - 1)) (initialized buffer size memory) events last) :
    ∃ first queue, Holds buffer size last first queue := by
  apply run.invariant (fun shared => ∃ first queue, Holds buffer size shared first queue) ?_
    ⟨0, [], .initial (by omega) memory⟩
  intro before event after standing limited
  rcases standing with ⟨first, queue, holds⟩
  cases limited.step with
  | @add data ring returns =>
      rcases ringbufferAdd_returns returns with ⟨_, rfl⟩
      have bound := limited.limited
      have outstanding := holds.conserved
      have room : queue.length + 1 < size := by
        rw [Shared.outstanding] at bound
        change (before.added ++ [data]).length - before.returned.length ≤ size - 1 at bound
        rw [outstanding, List.length_append, List.length_append, List.length_singleton] at bound
        omega
      exact ⟨first, queue ++ [data], holds.add room data⟩
  | read => exact holds.readNext

/-- A queue of at most `size - 1` bytes. Inside a read the pointer is at the
end of the buffer before it wraps. -/
structure IsFifo (buffer size : Nat) (shared : Shared) : Prop where
  inOrder : shared.returned <+: shared.added
  empty_iff : shared.reader = .outside →
    (shared.ring.rb.readPtr = shared.ring.rb.writePtr ↔ shared.returned = shared.added)
  accepts : ∀ data, shared.outstanding + 1 ≤ size - 1 →
    ∃ after, (ringbufferAdd data).run shared.ring = .ok () after
  writeInside : buffer ≤ shared.ring.rb.writePtr ∧ shared.ring.rb.writePtr < buffer + size
  readInside : (∀ data, shared.reader ≠ .advanced data) →
    buffer ≤ shared.ring.rb.readPtr ∧ shared.ring.rb.readPtr < buffer + size

theorem Holds.isFifo {buffer size first : Nat} {shared : Shared} {queue : List UInt8}
    (holds : Holds buffer size shared first queue) : IsFifo buffer size shared where
  inOrder := ⟨queue, holds.conserved.symm⟩
  empty_iff := by
    intro outside
    rw [holds.pointers_meet_iff outside, holds.conserved, List.self_eq_append_right]
  accepts := by
    intro data room
    rw [holds.outstanding] at room
    exact ⟨_, run_ringbufferAdd (holds.apart (by omega))⟩
  writeInside := by
    have bound := slot_lt holds.inside (Nat.le_of_lt holds.room)
    rw [holds.write]
    omega
  readInside := by
    intro wrapped
    have inside := holds.inside
    cases holds.readPtr_cases with
    | inl before => omega
    | inr past =>
        rcases past.1 with ⟨data, advanced⟩
        exact absurd advanced (wrapped data)

/-- However adds come between the steps of reads, as long as at most `size - 1`
bytes are outstanding the buffer is a queue. -/
theorem ringbuffer_fifo {buffer size : Nat} {memory : ByteMemory} {events : List RingEvent}
    {last : Shared} (two : 2 ≤ size)
    (run : Run (LimitedStep (size - 1)) (initialized buffer size memory) events last) :
    IsFifo buffer size last := by
  rcases holds_of_run two run with ⟨first, queue, holds⟩
  exact holds.isFifo

/-- A buffer of two bytes, filled, read and filled again over its end. -/
theorem ringbuffer_fifo_two :
    ∃ last, Run (LimitedStep 1) (initialized 0x20400000 2 ⟨fun _ => 0, []⟩)
        [.add 7, .read, .read, .read, .read, .add 8] last ∧ last.returned = [7] ∧
      IsFifo 0x20400000 2 last := by
  have run : ∃ last, Run (LimitedStep 1) (initialized 0x20400000 2 ⟨fun _ => 0, []⟩)
      [.add 7, .read, .read, .read, .read, .add 8] last ∧ last.returned = [7] := by
    refine ⟨_, .cons ⟨.add rfl, Nat.le_refl 1⟩ (.cons ⟨.read, Nat.le_refl 1⟩
      (.cons ⟨.read, Nat.le_refl 1⟩ (.cons ⟨.read, Nat.le_refl 1⟩
        (.cons ⟨.read, Nat.zero_le 1⟩ (.cons ⟨.add rfl, Nat.le_refl 1⟩ (.nil _)))))), rfl⟩
  rcases run with ⟨last, run, seven⟩
  exact ⟨last, run, seven, ringbuffer_fifo (by decide) run⟩

end Vanilla.Misc
