import Vanilla.Boot.Reception

namespace Vanilla.Boot

/-! What the receivers make of the sizes a frame can declare. The payload state
stores a byte before it looks at the size, and never at the buffer's length. -/

/-! ## One declared size -/

/-- From the second size byte on: `size` payload bytes, all of them stored in
the buffer, then one check byte and one end byte. -/
def Consumes (handler : Handler) (size : Nat) : Prop :=
  ∀ receiver : Receiver, receiver.busState = .payload → receiver.frameIndex = 0 →
    receiver.frame.size = size →
    ∀ (body : List UInt8) (fcs ending : UInt8), body.length = size →
      (∀ before after, body = before ++ after →
        ∃ reception, receive handler receiver before = some reception ∧
          reception.receiver.busState = if after = [] then .fcs else .payload) ∧
      ∃ reception, receive handler receiver (body ++ [fcs, ending]) = some reception ∧
        reception.receiver.busState = .idle ∧ reception.receiver.frame.fcs = fcs

/-- A receiver about to read the payload of a frame that declares `size`. -/
def declaring (size : Nat) : Receiver :=
  { Receiver.initial with busState := .payload, frame.size := size }

theorem handler_payload {handler : Handler} (reads : ReadsFrames handler) {receiver : Receiver}
    (state : receiver.busState = .payload) (data : UInt8) :
    handler receiver data = (receiver.onPayload data).map silently := by
  have busy : receiver.busState ≠ .idle := by
    rw [state]
    decide
  rw [reads.agrees receiver data (.inl busy), bootloaderReceive]
  simp only [Receiver.usart0Handler, state, Receiver.responses]
  rfl

theorem receive_cons_of_step {handler : Handler} {receiver : Receiver} {data : UInt8}
    {reaction : Reaction} (step : handler receiver data = some reaction)
    (rest : List UInt8) :
    receive handler receiver (data :: rest) =
      (receive handler reaction.receiver rest).map reaction.reception.followedBy := by
  rw [receive, step, Option.bind_some]

/-- A byte stored in the buffer. -/
def Receiver.stored (receiver : Receiver) (data : UInt8) (room : receiver.frameIndex < 512) :
    Receiver :=
  { receiver with
    frame.payload := receiver.frame.payload.set receiver.frameIndex data room
    frameIndex := receiver.frameIndex + 1 }

theorem onPayload_of_lt {receiver : Receiver} (room : receiver.frameIndex < 512)
    (data : UInt8) :
    receiver.onPayload data =
      some (if receiver.frame.size ≤ receiver.frameIndex + 1 then
        { receiver.stored data room with busState := .fcs }
      else receiver.stored data room) := by
  rw [Receiver.onPayload, dif_pos room]
  rfl

theorem onPayload_of_le {receiver : Receiver} (full : 512 ≤ receiver.frameIndex)
    (data : UInt8) : receiver.onPayload data = none := by
  rw [Receiver.onPayload, dif_neg (Nat.not_lt.mpr full)]

/-- Bytes that do not complete the payload leave the receiver in it. -/
theorem receive_payload {handler : Handler} (reads : ReadsFrames handler) :
    ∀ (bytes : List UInt8) (receiver : Receiver), receiver.busState = .payload →
      receiver.frameIndex + bytes.length < receiver.frame.size →
      receiver.frameIndex + bytes.length ≤ 512 →
      ∃ reception, receive handler receiver bytes = some reception ∧
        reception.receiver.busState = .payload ∧
        reception.receiver.frame.size = receiver.frame.size ∧
        reception.receiver.frameIndex = receiver.frameIndex + bytes.length
  | [], receiver, state, _, _ => ⟨nothingYet receiver, rfl, state, rfl, rfl⟩
  | data :: rest, receiver, state, short, bound => by
      rw [List.length_cons] at short bound
      have room : receiver.frameIndex < 512 := by omega
      have step : handler receiver data = some (silently (receiver.stored data room)) := by
        rw [handler_payload reads state, onPayload_of_lt room, if_neg (by omega)]
        rfl
      have index : (receiver.stored data room).frameIndex = receiver.frameIndex + 1 := rfl
      rcases receive_payload reads rest (receiver.stored data room) state
        (by rw [index]; change _ < receiver.frame.size; omega) (by rw [index]; omega) with
        ⟨reception, received, stays, size, last⟩
      let taken := (silently (receiver.stored data room)).reception
      have whole : receive handler receiver (data :: rest) = some (taken.followedBy reception) := by
        rw [receive_cons_of_step step]
        exact congrArg (Option.map taken.followedBy) received
      refine ⟨_, whole, stays, size, ?_⟩
      change reception.receiver.frameIndex = _
      rw [last, index, List.length_cons]
      omega

/-- The last payload byte leads to the check sequence. -/
theorem receive_last {handler : Handler} (reads : ReadsFrames handler)
    {receiver : Receiver} (state : receiver.busState = .payload)
    (room : receiver.frameIndex < 512)
    (last : receiver.frame.size ≤ receiver.frameIndex + 1) (data : UInt8) :
    receive handler receiver [data] = some
      ((silently { receiver.stored data room with busState := .fcs }).reception.followedBy
        (nothingYet { receiver.stored data room with busState := .fcs })) := by
  have step : handler receiver data =
      some (silently { receiver.stored data room with busState := .fcs }) := by
    rw [handler_payload reads state, onPayload_of_lt room, if_pos last]
    rfl
  rw [receive_cons_of_step step]
  rfl

/-- The check byte and the end byte, whatever they are. -/
theorem receive_end {handler : Handler} (reads : ReadsFrames handler)
    {receiver : Receiver} (state : receiver.busState = .fcs) (fcs ending : UInt8) :
    ∃ reception, receive handler receiver [fcs, ending] = some reception ∧
      reception.receiver.busState = .idle ∧ reception.receiver.frame.fcs = fcs := by
  let checked : Receiver := { receiver with frame.fcs := fcs, busState := .ending }
  have first : handler receiver fcs = some (silently checked) := by
    rw [reads.agrees receiver fcs (.inl (by rw [state]; decide)), bootloaderReceive]
    simp only [Receiver.usart0Handler, state, Receiver.responses]
    rfl
  have second : ∃ reaction, handler checked ending = some reaction ∧
      reaction.receiver = checked.onEnd ending := by
    rw [reads.agrees checked ending (.inl (by change BusState.ending ≠ .idle; decide))]
    exact ⟨_, rfl, rfl⟩
  rcases second with ⟨reaction, taken, last⟩
  have final : receive handler checked [ending] =
      some (reaction.reception.followedBy (nothingYet reaction.receiver)) := by
    rw [receive_cons_of_step taken]
    rfl
  refine ⟨_, by rw [receive_cons_of_step first]; exact congrArg (Option.map _) final, ?_, ?_⟩
  · change reaction.receiver.busState = .idle
    rw [last]
    rfl
  · change reaction.receiver.frame.fcs = fcs
    rw [last]
    rfl

theorem receive_append_some {handler : Handler} {first later : List UInt8}
    {receiver : Receiver} {early late : Reception}
    (begins : receive handler receiver first = some early)
    (goes : receive handler early.receiver later = some late) :
    receive handler receiver (first ++ later) = some (early.followedBy late) := by
  rw [receive_append, begins, Option.bind_some, goes]
  rfl

theorem consumes_of_fits {handler : Handler} (reads : ReadsFrames handler) {size : Nat}
    (positive : 1 ≤ size) (fits : size ≤ 512) : Consumes handler size := by
  intro receiver state index declared body fcs ending length
  have whole : ∃ reception, receive handler receiver body = some reception ∧
      reception.receiver.busState = .fcs := by
    rcases List.eq_nil_or_concat body with rfl | ⟨front, data, rfl⟩
    · simp only [List.length_nil] at length
      omega
    · rw [List.concat_eq_append, List.length_append, List.length_singleton] at length
      rcases receive_payload reads front receiver state (by omega) (by omega) with
        ⟨early, begins, stays, sizeEq, reached⟩
      have last := receive_last reads stays (by omega) (by omega) data
      exact ⟨_, by rw [List.concat_eq_append]; exact receive_append_some begins last, rfl⟩
  constructor
  · intro before after split
    cases after with
    | nil =>
        rw [List.append_nil] at split
        rw [← split, if_pos rfl]
        exact whole
    | cons data rest =>
        have shorter : before.length + (rest.length + 1) = size := by
          rw [← length, split, List.length_append, List.length_cons]
        rcases receive_payload reads before receiver state (by omega) (by omega) with
          ⟨reception, received, stays, _⟩
        exact ⟨reception, received, by rw [if_neg (by simp), stays]⟩
  · rcases whole with ⟨early, begins, reached⟩
    rcases receive_end reads reached fcs ending with ⟨late, goes, idle, check⟩
    exact ⟨_, receive_append_some begins goes, idle, check⟩

/-- A frame of no bytes still stores one. -/
theorem not_consumes_zero {handler : Handler} : ¬ Consumes handler 0 := by
  intro consumes
  rcases (consumes (declaring 0) rfl rfl rfl [] 0 0 rfl).1 [] [] rfl with
    ⟨reception, received, state⟩
  cases Option.some.inj received
  cases state

/-- The byte after a full buffer is stored past it. -/
theorem receive_overrun {handler : Handler} (reads : ReadsFrames handler)
    {receiver : Receiver} (state : receiver.busState = .payload)
    (index : receiver.frameIndex = 0) (large : 512 < receiver.frame.size) :
    receive handler receiver (List.replicate 513 0) = none := by
  have length : (List.replicate 512 (0 : UInt8)).length = 512 := List.length_replicate
  rcases receive_payload reads (List.replicate 512 0) receiver state
    (by rw [index, length]; omega) (by rw [index, length]) with
    ⟨early, begins, stays, _, reached⟩
  have full : 512 ≤ early.receiver.frameIndex := by
    rw [reached, index, length]
  have overrun : receive handler early.receiver [0] = none := by
    rw [receive, handler_payload reads stays, onPayload_of_le full]
    rfl
  have split : List.replicate 513 (0 : UInt8) = List.replicate 512 0 ++ [0] :=
    List.replicate_succ'
  rw [split, receive_append, begins, Option.bind_some, overrun]
  rfl

theorem not_consumes_large {handler : Handler} (reads : ReadsFrames handler) {size : Nat}
    (large : 512 < size) : ¬ Consumes handler size := by
  intro consumes
  let body : List UInt8 := .replicate size 0
  have split : body = List.replicate 513 0 ++ List.replicate (size - 513) 0 := by
    rw [List.replicate_append_replicate, Nat.add_sub_of_le large]
  rcases (consumes (declaring size) rfl rfl rfl body 0 0 List.length_replicate).1 _ _ split with
    ⟨reception, received, _⟩
  have overrun := receive_overrun reads
    (show (declaring size).busState = .payload from rfl) rfl large
  rw [overrun] at received
  cases received

theorem consumes_iff {handler : Handler} (reads : ReadsFrames handler) (size : Nat) :
    Consumes handler size ↔ 1 ≤ size ∧ size ≤ 512 := by
  constructor
  · intro consumes
    constructor
    · apply Nat.pos_of_ne_zero
      intro zero
      exact not_consumes_zero (zero ▸ consumes)
    · exact Nat.le_of_not_lt fun large => not_consumes_large reads large consumes
  · exact fun range => consumes_of_fits reads range.1 range.2

/-! ## Every stream -/

/-- One byte or one timeout; `none` when a byte is stored past the payload. -/
def Handler.signal (handler : Handler) (receiver : Receiver) : Signal → Option Receiver
  | .byte data => (handler receiver data).map Reaction.receiver
  | .timeout => some receiver.timer0Handler

def receiveSignals (handler : Handler) : Receiver → List Signal → Option Receiver
  | receiver, [] => some receiver
  | receiver, signal :: rest =>
      (Handler.signal handler receiver signal).bind fun next =>
        receiveSignals handler next rest

/-- A byte taken as payload is owed to the declared size, and the payload ends
when that many have come. -/
structure Delimited (receiver : Receiver) : Prop where
  owed : receiver.busState = .payload → receiver.frameIndex < receiver.frame.size
  complete : receiver.busState = .fcs → receiver.frameIndex = receiver.frame.size

/-- If this signal completes a declared size, it is one of 1 to 512. -/
def DeclaresFitting (receiver : Receiver) (signal : Signal) : Prop :=
  ∀ data, signal = .byte data → receiver.busState = .size → 1 ≤ receiver.frameIndex →
    1 ≤ (receiver.received data).frame.size ∧ (receiver.received data).frame.size ≤ 512

def FittingStream (handler : Handler) : Receiver → List Signal → Prop
  | _, [] => True
  | receiver, signal :: rest =>
      DeclaresFitting receiver signal ∧
        ∀ next, Handler.signal handler receiver signal = some next →
          FittingStream handler next rest

structure WithinBuffer (receiver : Receiver) : Prop where
  delimited : Delimited receiver
  bounded : receiver.busState = .payload → receiver.frame.size ≤ 512

theorem WithinBuffer.of_state {receiver : Receiver} (notPayload : receiver.busState ≠ .payload)
    (notFcs : receiver.busState ≠ .fcs) : WithinBuffer receiver where
  delimited := ⟨fun payload => absurd payload notPayload, fun fcs => absurd fcs notFcs⟩
  bounded := fun payload => absurd payload notPayload

/-- What the bootloader's receiver makes of a byte outside an idle zero. -/
theorem WithinBuffer.byte {receiver : Receiver} (within : WithinBuffer receiver) {data : UInt8}
    (fitting : DeclaresFitting receiver (.byte data)) :
    ∃ next, receiver.usart0Handler data = some next ∧ WithinBuffer next := by
  cases state : receiver.busState with
  | idle =>
      refine ⟨_, by rw [Receiver.usart0Handler, state], ?_⟩
      by_cases start : data = startByte <;>
        exact .of_state (by simp [Receiver.onIdle, start]) (by simp [Receiver.onIdle, start])
  | cmd =>
      exact ⟨_, by rw [Receiver.usart0Handler, state], .of_state (by simp) (by simp)⟩
  | size =>
      refine ⟨_, by rw [Receiver.usart0Handler, state], ?_⟩
      by_cases second : 2 ≤ (receiver.received data).frameIndex
      · have declared := fitting data rfl state (Nat.le_of_succ_le_succ second)
        rw [Receiver.onSize, if_pos second]
        exact ⟨⟨fun _ => declared.1, fun fcs => (by cases fcs)⟩, fun _ => declared.2⟩
      · rw [Receiver.onSize, if_neg second]
        refine .of_state ?_ ?_ <;>
          · change receiver.busState ≠ _
            rw [state]
            decide
  | payload =>
      have owed := within.delimited.owed state
      have room : receiver.frameIndex < 512 := Nat.lt_of_lt_of_le owed (within.bounded state)
      refine ⟨_, by rw [Receiver.usart0Handler, state]; exact onPayload_of_lt room data, ?_⟩
      by_cases last : receiver.frame.size ≤ receiver.frameIndex + 1
      · rw [if_pos last]
        exact ⟨⟨fun payload => (by cases payload), fun _ => Nat.le_antisymm owed last⟩,
          fun payload => (by cases payload)⟩
      · rw [if_neg last]
        refine ⟨⟨fun _ => Nat.lt_of_not_le last, ?_⟩, fun _ => within.bounded state⟩
        intro fcs
        exact absurd (state.symm.trans fcs) (by decide)
  | fcs =>
      exact ⟨_, by rw [Receiver.usart0Handler, state], .of_state (by simp) (by simp)⟩
  | ending =>
      exact ⟨_, by rw [Receiver.usart0Handler, state],
        .of_state (by simp [Receiver.onEnd]) (by simp [Receiver.onEnd])⟩

theorem WithinBuffer.signal {handler : Handler} (reads : ReadsFrames handler)
    {receiver : Receiver} (within : WithinBuffer receiver) {signal : Signal}
    (fitting : DeclaresFitting receiver signal) :
    ∃ next, Handler.signal handler receiver signal = some next ∧ WithinBuffer next := by
  cases signal with
  | timeout => exact ⟨_, rfl, .of_state (by simp [Receiver.timer0Handler])
      (by simp [Receiver.timer0Handler])⟩
  | byte data =>
      by_cases plain : receiver.busState ≠ .idle ∨ data ≠ 0
      · rcases within.byte fitting with ⟨next, step, kept⟩
        refine ⟨next, ?_, kept⟩
        rw [Handler.signal, reads.agrees receiver data plain, bootloaderReceive, step]
        rfl
      · simp only [not_or, not_not] at plain
        rcases reads.zero receiver plain.1 with ⟨reaction, taken, idle⟩
        refine ⟨reaction.receiver, by rw [Handler.signal, plain.2, taken]; rfl, ?_⟩
        exact .of_state (by rw [idle]; decide) (by rw [idle]; decide)

theorem within_stream {handler : Handler} (reads : ReadsFrames handler) :
    ∀ (signals : List Signal) (receiver : Receiver), WithinBuffer receiver →
      FittingStream handler receiver signals →
      ∃ last, receiveSignals handler receiver signals = some last ∧ WithinBuffer last
  | [], receiver, within, _ => ⟨receiver, rfl, within⟩
  | signal :: rest, receiver, within, fitting => by
      rcases within.signal reads fitting.1 with ⟨next, step, kept⟩
      rcases within_stream reads rest next kept (fitting.2 next step) with ⟨last, later, final⟩
      exact ⟨last, by rw [receiveSignals, step, Option.bind_some, later], final⟩

/-- A receiver reads a declared size as the frame format has it exactly when it
is one of 1 to 512, and so does every stream whose sizes are. -/
structure RobustExactly (handler : Handler) (size : Nat) (receiver : Receiver)
    (signals : List Signal) : Prop where
  sizes : Consumes handler size ↔ 1 ≤ size ∧ size ≤ 512
  streams : receiver.busState = .idle → FittingStream handler receiver signals →
    ∃ last, receiveSignals handler receiver signals = some last ∧ Delimited last

theorem robustExactly_of_reads {handler : Handler} (reads : ReadsFrames handler) (size : Nat)
    (receiver : Receiver) (signals : List Signal) :
    RobustExactly handler size receiver signals where
  sizes := consumes_iff reads size
  streams := by
    intro idle fitting
    have start : WithinBuffer receiver :=
      .of_state (by rw [idle]; decide) (by rw [idle]; decide)
    rcases within_stream reads signals receiver start fitting with ⟨last, received, within⟩
    exact ⟨last, received, within.delimited⟩

theorem receivers_robust_exactly (size : Nat) (receiver : Receiver) (signals : List Signal) :
    RobustExactly bootloaderReceive size receiver signals ∧
      RobustExactly usart0Exception size receiver signals :=
  ⟨robustExactly_of_reads bootloaderReceive_reads size receiver signals,
    robustExactly_of_reads usart0Exception_reads size receiver signals⟩

/-- A frame that declares 513 bytes is stored past the buffer, and the end byte
of an empty frame is taken for its check sequence. -/
theorem sizes_outside_buffer :
    receive bootloaderReceive .initial
        ([startByte, 0x07, 0x01, 0x02] ++ List.replicate 513 0) = none ∧
      (receive bootloaderReceive .initial [startByte, 0x07, 0x00, 0x00,
        crcCalculate [0x07, 0x00, 0x00] polynomial, endByte]).map
          (fun reception => (reception.receiver.busState, reception.receiver.frame.fcs)) =
        some (.ending, endByte) ∧
      ¬ ∀ size, size < 2 ^ 16 → Consumes bootloaderReceive size := by
  refine ⟨?_, by decide, fun every => not_consumes_zero (every 0 (by decide))⟩
  have header : receive bootloaderReceive .initial [startByte, 0x07, 0x01, 0x02] = some {
      receiver := { declaring 513 with frame.cmd := 0x07 }
      responses := [], reset := false, flags := [false, false, false, false] } := rfl
  have overrun := receive_overrun bootloaderReceive_reads
    (show ({ declaring 513 with frame.cmd := 0x07 } : Receiver).busState = .payload from rfl)
    rfl (show 512 < 513 by decide)
  rw [receive_append, header, Option.bind_some, overrun]
  rfl

end Vanilla.Boot
