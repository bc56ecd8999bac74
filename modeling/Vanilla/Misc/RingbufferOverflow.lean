import Vanilla.Misc.RingbufferFifo
import Vanilla.Misc.RingbufferMult

namespace Vanilla.Misc

/-! The ring buffer when it is full. The write pointer is compared with the
read pointer before it wraps, so a read pointer at the start is never met. -/

/-- All places but one hold a byte. -/
def Ringbuffer.Full (rb : Ringbuffer) : Prop :=
  rb.storedBytes + 1 = rb.bufferEnd - rb.bufferStart

/-- One more byte brings the write pointer to the end of the buffer, and it
wraps onto the read pointer. -/
def Ringbuffer.WrapsOnto (rb : Ringbuffer) : Prop := rb.Full ∧ rb.readPtr = rb.bufferStart

def PanicsWhenFull (data : UInt8) (ring : RingState) : Prop :=
  ring.rb.Full → ∃ after, (ringbufferAdd data).run ring = .error (.panic "Buffer overflow") after

/-! ## Where the pointers are -/

/-- The pointers of a run. Inside a read the read pointer may be at the end. -/
structure Spans (buffer size : Nat) (shared : Shared) : Prop where
  start : shared.ring.rb.bufferStart = buffer
  stop : shared.ring.rb.bufferEnd = buffer + size
  write : buffer ≤ shared.ring.rb.writePtr ∧ shared.ring.rb.writePtr < buffer + size
  read : buffer ≤ shared.ring.rb.readPtr ∧ shared.ring.rb.readPtr ≤ buffer + size
  inside : (∀ data, shared.reader ≠ .advanced data) → shared.ring.rb.readPtr < buffer + size

namespace Spans

variable {buffer size : Nat} {shared : Shared}

theorem initial (positive : 0 < size) (memory : ByteMemory) :
    Spans buffer size (initialized buffer size memory) where
  start := rfl
  stop := rfl
  write := ⟨Nat.le_refl _, Nat.lt_add_of_pos_right positive⟩
  read := ⟨Nat.le_refl _, Nat.le_add_right _ _⟩
  inside := fun _ => Nat.lt_add_of_pos_right positive

theorem add (spans : Spans buffer size shared) (data : UInt8) :
    Spans buffer size { shared with
      ring := afterAdd data shared.ring
      added := shared.added ++ [data] } := by
  have rb := afterAdd_rb data shared.ring
  have write := spans.write
  constructor
  · rw [rb]
    exact spans.start
  · rw [rb]
    exact spans.stop
  · rw [rb, spans.start, spans.stop]
    change buffer ≤ (if shared.ring.rb.writePtr + 1 = buffer + size then buffer
        else shared.ring.rb.writePtr + 1) ∧
      (if shared.ring.rb.writePtr + 1 = buffer + size then buffer
        else shared.ring.rb.writePtr + 1) < buffer + size
    split <;> omega
  · rw [rb]
    exact spans.read
  · rw [rb]
    exact spans.inside

theorem readNext (spans : Spans buffer size shared) : Spans buffer size shared.readNext := by
  have read := spans.read
  rw [Shared.readNext]
  cases reader : shared.reader with
  | outside =>
      have inside := spans.inside (by simp [reader])
      by_cases stored : shared.ring.rb.readPtr ≠ shared.ring.rb.writePtr
      · simp only [if_pos stored]
        exact ⟨spans.start, spans.stop, spans.write, read, fun _ => inside⟩
      · simp only [if_neg stored]
        exact spans
  | nonempty =>
      have inside := spans.inside (by simp [reader])
      exact ⟨spans.start, spans.stop, spans.write, read, fun _ => inside⟩
  | loaded data =>
      have inside := spans.inside (by simp [reader])
      exact ⟨spans.start, spans.stop, spans.write, ⟨Nat.le_succ_of_le read.1, inside⟩,
        fun still => absurd rfl (still data)⟩
  | advanced data =>
      have rb := wrapRead_rb shared.ring
      have positive := spans.write
      have wrapped : buffer ≤ (if shared.ring.rb.readPtr = buffer + size then buffer
          else shared.ring.rb.readPtr) ∧
          (if shared.ring.rb.readPtr = buffer + size then buffer
            else shared.ring.rb.readPtr) < buffer + size := by
        split <;> omega
      constructor
      · rw [rb]
        exact spans.start
      · rw [rb]
        exact spans.stop
      · rw [rb]
        exact spans.write
      · rw [rb, spans.start, spans.stop]
        exact ⟨wrapped.1, Nat.le_of_lt wrapped.2⟩
      · rw [rb, spans.start, spans.stop]
        exact fun _ => wrapped.2

/-- So many bytes are stored when the write pointer is one place behind the
read pointer, or at the last place with the read pointer at the first. -/
theorem full_iff (spans : Spans buffer size shared) :
    shared.ring.rb.Full ↔
      if shared.ring.rb.readPtr = buffer then shared.ring.rb.writePtr + 1 = buffer + size
      else shared.ring.rb.writePtr + 1 = shared.ring.rb.readPtr := by
  have write := spans.write
  have read := spans.read
  rw [Ringbuffer.Full, Ringbuffer.storedBytes, spans.start, spans.stop, Nat.add_sub_cancel_left]
  by_cases order : shared.ring.rb.readPtr ≤ shared.ring.rb.writePtr
  · have distance : shared.ring.rb.writePtr + size - shared.ring.rb.readPtr =
        shared.ring.rb.writePtr - shared.ring.rb.readPtr + size := by omega
    rw [distance, Nat.add_mod_right, Nat.mod_eq_of_lt (by omega)]
    split <;> omega
  · by_cases last : shared.ring.rb.writePtr + size - shared.ring.rb.readPtr < size
    · rw [Nat.mod_eq_of_lt last]
      split <;> omega
    · omega

theorem panicsWhenFull_iff (spans : Spans buffer size shared) (data : UInt8) :
    PanicsWhenFull data shared.ring ↔ ¬ shared.ring.rb.WrapsOnto := by
  have read := spans.read
  have positive := spans.write
  rw [PanicsWhenFull, Ringbuffer.WrapsOnto, spans.start, spans.full_iff]
  constructor
  · rintro panics ⟨full, atStart⟩
    rcases panics full with ⟨after, panicked⟩
    rw [if_pos atStart] at full
    have room : shared.ring.rb.writePtr + 1 ≠ shared.ring.rb.readPtr := by omega
    cases (run_ringbufferAdd room).symm.trans panicked
  · intro apart full
    have notStart : ¬ shared.ring.rb.readPtr = buffer := fun atStart => apart ⟨full, atStart⟩
    rw [if_neg notStart] at full
    exact ⟨_, run_ringbufferAdd_full full⟩

end Spans

theorem spans_of_run {buffer size : Nat} {memory : ByteMemory} {events : List RingEvent}
    {last : Shared} (positive : 0 < size)
    (run : Run SharedStep (initialized buffer size memory) events last) :
    Spans buffer size last := by
  apply run.invariant (Spans buffer size) ?_ (.initial positive memory)
  intro before event after spans step
  cases step with
  | @add data ring returns =>
      rcases ringbufferAdd_returns returns with ⟨_, rfl⟩
      exact spans.add data
  | read => exact spans.readNext

/-! ## Sequences of calls -/

/-- A call that returns, with what has been added and returned so far. -/
inductive SharedCall : Shared → RingEvent → Shared → Prop where
  | add {before : Shared} {data : UInt8} {ring : RingState} :
      (ringbufferAdd data).run before.ring = .ok () ring →
      SharedCall before (.add data)
        { before with ring := ring, added := before.added ++ [data] }
  | read {before : Shared} {data : UInt8} {ring : RingState} :
      before.ring.rb.readPtr ≠ before.ring.rb.writePtr →
      ringbufferRead.run before.ring = .ok data ring →
      SharedCall before .read { before with ring := ring, returned := before.returned ++ [data] }
  | readEmpty {before : Shared} :
      before.ring.rb.readPtr = before.ring.rb.writePtr → SharedCall before .read before

/-- Single reads return all that has been added. -/
def Readable (shared : Shared) : Prop :=
  ∃ count last, Run SharedCall shared (.replicate count .read) last ∧
    last.returned = last.added

structure KeepingCall (before : Shared) (event : RingEvent) (after : Shared) : Prop where
  call : SharedCall before event after
  readable : Readable after

structure RoomyCall (before : Shared) (event : RingEvent) (after : Shared) : Prop where
  call : SharedCall before event after
  roomy : ∀ data, event = .add data → ¬ before.ring.rb.WrapsOnto

/-- The buffer between two calls. -/
structure Resting (buffer size : Nat) (shared : Shared) : Prop where
  outside : shared.reader = .outside
  spans : Spans buffer size shared
  holds : ∃ first queue, Holds buffer size shared first queue

namespace Resting

variable {buffer size : Nat} {shared after : Shared}

theorem initial (positive : 0 < size) (memory : ByteMemory) :
    Resting buffer size (initialized buffer size memory) :=
  ⟨rfl, .initial positive memory, 0, [], .initial positive memory⟩

theorem read {data : UInt8} {ring : RingState} (resting : Resting buffer size shared)
    (stored : shared.ring.rb.readPtr ≠ shared.ring.rb.writePtr)
    (call : ringbufferRead.run shared.ring = .ok data ring) :
    Resting buffer size
      { shared with ring := ring, returned := shared.returned ++ [data] } := by
  rcases resting.holds with ⟨first, queue, holds⟩
  rw [← readNext_call resting.outside stored call]
  rcases holds.readNext with ⟨_, _, one⟩
  rcases one.readNext with ⟨_, _, two⟩
  rcases two.readNext with ⟨_, _, three⟩
  refine ⟨?_, resting.spans.readNext.readNext.readNext.readNext, three.readNext⟩
  rw [readNext_call resting.outside stored call]
  exact resting.outside

/-- An add that returns without wrapping onto the read pointer finds room. -/
theorem add {data : UInt8} {ring : RingState} (resting : Resting buffer size shared)
    (returns : (ringbufferAdd data).run shared.ring = .ok () ring)
    (roomy : ¬ shared.ring.rb.WrapsOnto) :
    Resting buffer size { shared with ring := ring, added := shared.added ++ [data] } := by
  rcases resting.holds with ⟨first, queue, holds⟩
  rcases ringbufferAdd_returns returns with ⟨apart, rfl⟩
  refine ⟨resting.outside, resting.spans.add data, first, queue ++ [data], holds.add ?_ data⟩
  have stands := holds.reader
  rw [resting.outside] at stands
  have read : shared.ring.rb.readPtr = buffer + first := stands
  have inside := holds.inside
  have room := holds.room
  have write := holds.write
  by_contra last
  have length : queue.length = size - 1 := by omega
  rw [slot, length] at write
  rw [Ringbuffer.WrapsOnto, resting.spans.full_iff, resting.spans.start] at roomy
  by_cases atStart : first = 0
  · apply roomy
    rw [if_pos (by omega)]
    rw [if_pos (by omega)] at write
    omega
  · rw [if_neg (by omega)] at write
    omega

/-- One read after another returns the bytes that are stored. -/
theorem readable : ∀ {count : Nat} {shared : Shared}, Resting buffer size shared →
    shared.outstanding = count → Readable shared
  | 0, shared, resting, none_ => by
      rcases resting.holds with ⟨first, queue, holds⟩
      rw [holds.outstanding, List.length_eq_zero_iff] at none_
      refine ⟨0, shared, .nil _, ?_⟩
      rw [holds.conserved, none_, List.append_nil]
  | count + 1, shared, resting, some_ => by
      rcases resting.holds with ⟨first, queue, holds⟩
      have occupied : queue ≠ [] := by
        rintro rfl
        rw [holds.outstanding] at some_
        cases some_
      have stored : shared.ring.rb.readPtr ≠ shared.ring.rb.writePtr :=
        fun meet => occupied ((holds.pointers_meet_iff resting.outside).mp meet)
      have call := run_ringbufferRead stored
      have next := resting.read stored call
      have fewer : ({ shared with
          ring := afterRead shared.ring
          returned := shared.returned ++ [shared.ring.readByte] } : Shared).outstanding =
            count := by
        rw [Shared.outstanding] at some_ ⊢
        change shared.added.length - (shared.returned ++ [shared.ring.readByte]).length = count
        rw [List.length_append, List.length_singleton]
        omega
      rcases next.readable fewer with ⟨reads, last, run, all⟩
      exact ⟨reads + 1, last, .cons (.read stored call) run, all⟩

/-- Where the pointers meet, no read returns anything. -/
theorem stuck {count : Nat} {last : Shared}
    (meet : shared.ring.rb.readPtr = shared.ring.rb.writePtr)
    (run : Run SharedCall shared (.replicate count .read) last) : last = shared := by
  induction count generalizing shared with
  | zero =>
      cases run
      rfl
  | succ count induction =>
      rw [List.replicate_succ] at run
      cases run with
      | cons call rest =>
          cases call with
          | read stored _ => exact absurd meet stored
          | readEmpty _ => exact induction meet rest

/-- An add that wraps onto the read pointer makes the stored bytes unreadable. -/
theorem not_readable {data : UInt8} {ring : RingState} (resting : Resting buffer size shared)
    (returns : (ringbufferAdd data).run shared.ring = .ok () ring)
    (wraps : shared.ring.rb.WrapsOnto) :
    ¬ Readable { shared with ring := ring, added := shared.added ++ [data] } := by
  rcases ringbufferAdd_returns returns with ⟨_, rfl⟩
  have full := resting.spans.full_iff.mp wraps.1
  rw [← resting.spans.start, if_pos wraps.2, resting.spans.start,
    ← resting.spans.stop] at full
  have meet : (afterAdd data shared.ring).rb.readPtr =
      (afterAdd data shared.ring).rb.writePtr := by
    rw [afterAdd_rb, if_pos full]
    exact wraps.2
  rintro ⟨count, last, run, all⟩
  rw [stuck meet run] at all
  rcases resting.holds with ⟨first, queue, holds⟩
  have lengths := congrArg List.length all
  change shared.returned.length = (shared.added ++ [data]).length at lengths
  rw [holds.conserved, List.length_append, List.length_append, List.length_singleton] at lengths
  omega

theorem call {event : RingEvent} (resting : Resting buffer size shared)
    (roomy : RoomyCall shared event after) : Resting buffer size after := by
  cases roomy.call with
  | add returns => exact resting.add returns (roomy.roomy _ rfl)
  | read stored returns => exact resting.read stored returns
  | readEmpty _ => exact resting

theorem keeping_iff {event : RingEvent} (resting : Resting buffer size shared) :
    KeepingCall shared event after ↔ RoomyCall shared event after := by
  constructor
  · intro keeping
    refine ⟨keeping.call, fun data same wraps => ?_⟩
    subst same
    cases keeping.call with
    | add returns => exact resting.not_readable returns wraps keeping.readable
  · intro roomy
    exact ⟨roomy.call, (resting.call roomy).readable rfl⟩

theorem run_iff {events : List RingEvent} {last : Shared} (resting : Resting buffer size shared) :
    Run KeepingCall shared events last ↔ Run RoomyCall shared events last := by
  induction events generalizing shared with
  | nil =>
      constructor <;> intro run <;> cases run <;> exact .nil _
  | cons event rest induction =>
      constructor
      · intro run
        cases run with
        | cons first later =>
            have roomy := resting.keeping_iff.mp first
            exact .cons roomy ((induction (resting.call roomy)).mp later)
      · intro run
        cases run with
        | cons first later =>
            exact .cons (resting.keeping_iff.mpr first)
              ((induction (resting.call first)).mpr later)

end Resting

/-- A full buffer panics unless the read pointer is at its start, wherever in a
read the interrupt comes. And bytes stay readable in exactly the sequences of
calls that never add in that case. -/
theorem overflow_never_silent_iff {buffer size : Nat} (positive : 0 < size)
    (memory : ByteMemory) :
    (∀ events shared data, Run SharedStep (initialized buffer size memory) events shared →
      (PanicsWhenFull data shared.ring ↔ ¬ shared.ring.rb.WrapsOnto)) ∧
    ∀ events last, Run KeepingCall (initialized buffer size memory) events last ↔
      Run RoomyCall (initialized buffer size memory) events last :=
  ⟨fun _ _ data run => (spans_of_run positive run).panicsWhenFull_iff data,
    fun _ _ => (Resting.initial positive memory).run_iff⟩

theorem overflow_never_silent_iff_four :
    (∀ events shared data,
      Run SharedStep (initialized 0x20400000 4 ⟨fun _ => 0, []⟩) events shared →
      (PanicsWhenFull data shared.ring ↔ ¬ shared.ring.rb.WrapsOnto)) ∧
    ∀ events last,
      Run KeepingCall (initialized 0x20400000 4 ⟨fun _ => 0, []⟩) events last ↔
        Run RoomyCall (initialized 0x20400000 4 ⟨fun _ => 0, []⟩) events last :=
  overflow_never_silent_iff (by decide) ⟨fun _ => 0, []⟩

/-- Of a buffer of four bytes: the fourth add after `ringbuffer_init` returns,
and nothing can be read any more. -/
theorem fourth_byte_lost : ∃ full last,
    Run SharedCall (initialized 0x20400000 4 ⟨fun _ => 0, []⟩) [.add 1, .add 2, .add 3] full ∧
      full.ring.rb.Full ∧ SharedCall full (.add 4) last ∧ ¬ PanicsWhenFull 4 full.ring ∧
      ¬ Readable last := by
  refine ⟨_, _, .cons (.add rfl) (.cons (.add rfl) (.cons (.add rfl) (.nil _))), ?_, .add rfl,
    ?_, ?_⟩
  · exact rfl
  · intro panics
    rcases panics rfl with ⟨after, panicked⟩
    cases panicked
  · rintro ⟨count, last, run, all⟩
    rw [Resting.stuck rfl run] at all
    cases all

end Vanilla.Misc
