import Vanilla.Boot.Reception

namespace Vanilla.Boot

/-! Both receivers undo the host's encoder. -/

/-! ## The check sequence -/

theorem fcsBit_eq (crc : UInt8) : fcsBit crc.toNat = (crcBit polynomial crc).toNat := by
  have bit : (crc.toNat &&& 0x01 ≠ 0) ↔ (crc &&& 0x01 ≠ 0) := by
    rw [ne_eq, ne_eq, ← UInt8.toNat_inj, UInt8.toNat_and]
    rfl
  rw [fcsBit, crcBit]
  by_cases set : crc &&& 0x01 ≠ 0
  · rw [if_pos set, if_pos (bit.mpr set), UInt8.toNat_shiftRight, UInt8.toNat_xor]
    rfl
  · rw [if_neg set, if_neg (set ∘ bit.mp), UInt8.toNat_shiftRight]
    rfl

theorem fcsByte_eq (crc data : UInt8) :
    fcsByte crc.toNat data = (crcByte polynomial crc data).toNat := by
  have rounds : ∀ (list : List Nat) (start : UInt8),
      list.foldl (fun crc _ => fcsBit crc) start.toNat =
        (list.foldl (fun crc _ => crcBit polynomial crc) start).toNat := by
    intro list
    induction list with
    | nil => exact fun _ => rfl
    | cons _ rest induction =>
        intro start
        rw [List.foldl_cons, List.foldl_cons, fcsBit_eq]
        exact induction _
  rw [fcsByte, crcByte, ← UInt8.toNat_xor]
  exact rounds _ _

theorem calculateFcs_eq (data : List UInt8) :
    calculateFcs data = (crcCalculate data polynomial).toNat := by
  have fold : ∀ (bytes : List UInt8) (start : UInt8),
      bytes.foldl fcsByte start.toNat = (bytes.foldl (crcByte polynomial) start).toNat := by
    intro bytes
    induction bytes with
    | nil => exact fun _ => rfl
    | cons byte rest induction =>
        intro start
        rw [List.foldl_cons, List.foldl_cons, fcsByte_eq]
        exact induction _
  exact fold data 0

/-! ## A frame on the wire -/

theorem sizeBytes_eq (size : Nat) :
    sizeBytes size = [UInt8.ofNat size, UInt8.ofNat (size / 2 ^ 8)] := by
  have low : UInt8.ofNat (size &&& 0xFF) = UInt8.ofNat size := by
    apply UInt8.toNat_inj.mp
    rw [show (0xFF : Nat) = 2 ^ 8 - 1 from rfl, and_low_mask, UInt8.toNat_ofNat',
      UInt8.toNat_ofNat']
    omega
  have high : UInt8.ofNat (size >>> 8 &&& 0xFF) = UInt8.ofNat (size / 2 ^ 8) := by
    apply UInt8.toNat_inj.mp
    rw [show (0xFF : Nat) = 2 ^ 8 - 1 from rfl, and_low_mask, UInt8.toNat_ofNat',
      UInt8.toNat_ofNat', Nat.shiftRight_eq_div_pow]
    omega
  rw [sizeBytes, low, high]

theorem sizeBytes_value {size : Nat} (bound : size < 2 ^ 16) :
    (UInt8.ofNat size).toNat + 2 ^ 8 * (UInt8.ofNat (size / 2 ^ 8)).toNat = size := by
  rw [UInt8.toNat_ofNat', UInt8.toNat_ofNat']
  omega

theorem sendFrame_eq (cmd : UInt8) (payload : List UInt8) :
    sendFrame cmd payload =
      [startByte] ++ [cmd] ++ sizeBytes payload.length ++ payload ++
        [crcCalculate (cmd :: sizeBytes payload.length ++ payload) polynomial] ++ [endByte] := by
  rw [sendFrame, calculateFcs_eq, UInt8.ofNat_toNat]
  simp

/-! ## Reading a frame -/

/-- Waiting for a frame, with the last one answered. -/
structure Ready (receiver : Receiver) : Prop where
  idle : receiver.busState = .idle
  answered : receiver.frameReceived = false

/-- In the payload, with these bytes of it stored. -/
structure Expecting (receiver : Receiver) (cmd : UInt8) (size : Nat) (body : List UInt8) :
    Prop where
  state : receiver.busState = .payload
  cmd : receiver.frame.cmd = cmd
  size : receiver.frame.size = size
  index : receiver.frameIndex = body.length
  holds : Holds receiver.frame body
  flag : receiver.frameReceived = false

/-- Past the payload. -/
structure Filled (receiver : Receiver) (cmd : UInt8) (body : List UInt8) : Prop where
  state : receiver.busState = .fcs
  cmd : receiver.frame.cmd = cmd
  size : receiver.frame.size = body.length
  holds : Holds receiver.frame body
  flag : receiver.frameReceived = false

theorem header_read {handler : Handler} (reads : ReadsFrames handler) {receiver : Receiver}
    (ready : Ready receiver) (cmd : UInt8) {size : Nat} (bound : size < 2 ^ 16) :
    ∃ after, Quietly handler receiver ([startByte] ++ [cmd] ++ sizeBytes size) after ∧
      Expecting after cmd size [] := by
  let low := UInt8.ofNat size
  let high := UInt8.ofNat (size / 2 ^ 8)
  let started : Receiver := receiver.onIdle startByte
  let named : Receiver := { started with
    frame.cmd := cmd, frame.size := 0, frameIndex := 0, busState := .size }
  let half : Receiver := named.onSize low
  let sized : Receiver := half.onSize high
  have idleFlag : started.frameReceived = false := by
    change (if startByte = 0 then false else receiver.frameReceived) = false
    rw [if_neg (by decide)]
    exact ready.answered
  have begin_ : Quietly handler receiver [startByte] started :=
    .of_step reads (.inr (by decide)) (by simp [ready.idle])
      (by rw [Receiver.usart0Handler, ready.idle]) idleFlag
  have command : Quietly handler started [cmd] named :=
    .of_step reads (.inl (by simp [started, Receiver.onIdle]))
      (by simp [started, Receiver.onIdle])
      (by simp [Receiver.usart0Handler, started, named, Receiver.onIdle]) idleFlag
  have first : Quietly handler named [low] half :=
    .of_step reads (.inl (by simp [named])) (by simp [named]) rfl idleFlag
  have second : Quietly handler half [high] sized :=
    .of_step reads (.inl (by simp [half, named, Receiver.onSize, Receiver.received]))
      (by simp [half, named, Receiver.onSize, Receiver.received]) rfl idleFlag
  refine ⟨sized, ?_, ?_⟩
  · rw [sizeBytes_eq]
    exact (begin_.append command).append (first.append second)
  · refine ⟨rfl, rfl, ?_, rfl, rfl, idleFlag⟩
    change 0 ||| low.toNat <<< (8 * 0) ||| high.toNat <<< (8 * 1) = size
    rw [Nat.zero_or, Nat.mul_zero, Nat.shiftLeft_zero, Nat.mul_one, size_bytes]
    exact sizeBytes_value bound

theorem payload_read {handler : Handler} (reads : ReadsFrames handler) (cmd : UInt8) :
    ∀ (rest body : List UInt8) (receiver : Receiver), rest ≠ [] →
      body.length + rest.length ≤ 512 →
      Expecting receiver cmd (body.length + rest.length) body →
      ∃ after, Quietly handler receiver rest after ∧ Filled after cmd (body ++ rest)
  | [], _, _, nonempty, _, _ => absurd rfl nonempty
  | data :: rest, body, receiver, _, bound, expecting => by
      have room : receiver.frameIndex < 512 := by
        rw [expecting.index]
        simp only [List.length_cons] at bound
        omega
      let stored : Receiver := { receiver with
        frame.payload := receiver.frame.payload.set receiver.frameIndex data room
        frameIndex := receiver.frameIndex + 1 }
      have holds : Holds stored.frame (body ++ [data]) := by
        have bodyRoom : body.length < 512 := expecting.index ▸ room
        have extended := expecting.holds.set bodyRoom data
        simp only [stored, expecting.index]
        exact extended
      have busy : receiver.busState ≠ .idle := by
        rw [expecting.state]
        decide
      have early : receiver.busState ≠ .ending := by
        rw [expecting.state]
        decide
      have step : receiver.usart0Handler data =
          some (if stored.frame.size ≤ stored.frameIndex then { stored with busState := .fcs }
            else stored) := by
        rw [Receiver.usart0Handler, expecting.state]
        simp only [Receiver.onPayload, dif_pos room]
        rfl
      have size : stored.frame.size = body.length + (rest.length + 1) := expecting.size
      have index : stored.frameIndex = body.length + 1 := congrArg (· + 1) expecting.index
      cases rest with
      | nil =>
          rw [if_pos (by rw [size, index]; simp)] at step
          refine ⟨_, .of_step reads (.inl busy) early step expecting.flag, ?_⟩
          exact ⟨rfl, expecting.cmd, by simp [size], holds, expecting.flag⟩
      | cons next others =>
          rw [if_neg (by rw [size, index]; simp)] at step
          have longer : (body ++ [data]).length + (next :: others).length =
              body.length + (data :: next :: others).length := by
            simp only [List.length_append, List.length_cons, List.length_nil]
            omega
          have expects : Expecting stored cmd
              ((body ++ [data]).length + (next :: others).length) (body ++ [data]) :=
            ⟨expecting.state, expecting.cmd, longer ▸ expecting.size, by simp [index], holds,
              expecting.flag⟩
          rcases payload_read reads cmd (next :: others) (body ++ [data]) stored (by simp)
            (longer ▸ bound) expects with ⟨after, quiet, filled⟩
          refine ⟨after, ?_, ?_⟩
          · exact (Quietly.of_step reads (.inl busy) early step expecting.flag).append quiet
          · rw [List.append_assoc] at filled
            exact filled

/-- What a receiver has when a frame has arrived as it was sent. -/
structure Decoded (handler : Handler) (before : Receiver) (frame : HostFrame)
    (after : Receiver) : Prop where
  /-- `frame_received` is set by the end byte, and nothing is sent. -/
  received : receive handler before frame.bytes = some {
    receiver := after, responses := [], reset := false
    flags := .replicate (frame.bytes.length - 1) false ++ [true] }
  idle : after.busState = .idle
  cmd : after.frame.cmd = frame.cmd
  size : after.frame.size = frame.payload.length
  payload : Holds after.frame frame.payload

theorem frame_decoded {handler : Handler} (reads : ReadsFrames handler) {receiver : Receiver}
    (ready : Ready receiver) (frame : HostFrame) :
    ∃ after, Decoded handler receiver frame after := by
  let fcs := crcCalculate (frame.cmd :: sizeBytes frame.payload.length ++ frame.payload)
    polynomial
  have bound : frame.payload.length < 2 ^ 16 := Nat.lt_of_le_of_lt frame.fits (by decide)
  rcases header_read reads ready frame.cmd bound with ⟨opened, header, expecting⟩
  rcases payload_read reads frame.cmd frame.payload [] opened
    (List.ne_nil_of_length_pos frame.nonempty) (by simpa using frame.fits)
    (by simpa using expecting) with ⟨filled, body, full⟩
  rw [List.nil_append] at full
  let checked : Receiver := { filled with frame.fcs := fcs, busState := .ending }
  have sequence : Quietly handler filled [fcs] checked := by
    refine .of_step reads (.inl ?_) ?_ ?_ full.flag
    · rw [full.state]
      decide
    · rw [full.state]
      decide
    · rw [Receiver.usart0Handler, full.state]
  have covered : checked.frame.covered =
      frame.cmd :: sizeBytes frame.payload.length ++ frame.payload := by
    have stored : checked.frame.payload.toList.take frame.payload.length = frame.payload :=
      full.holds
    rw [Frame.covered, show checked.frame.cmd = frame.cmd from full.cmd,
      show checked.frame.size = frame.payload.length from full.size, stored, sizeBytes_eq]
    rfl
  have match_ : crcCalculate checked.frame.covered polynomial = checked.frame.fcs := by
    rw [covered]
  let after := checked.onEnd endByte
  have flag : after.frameReceived = true := decide_eq_true ⟨rfl, match_⟩
  have ending : receive handler checked [endByte] = some {
      receiver := after, responses := [], reset := false, flags := [true] } := by
    have busy : checked.busState ≠ .idle := by
      change BusState.ending ≠ .idle
      decide
    have silent : checked.responses endByte = [] := by
      change checked.endResponses endByte = []
      rw [Receiver.endResponses, if_pos rfl, if_pos match_]
    rw [receive, reads.agrees checked endByte (.inl busy), bootloaderReceive]
    change (some _ : Option Reception) = _
    simp only [nothingYet, Reaction.reception, Reception.followedBy, silent]
    rw [← flag]
    rfl
  have quiet := (header.append body).append sequence
  refine ⟨after, ?_, rfl, full.cmd, full.size, full.holds⟩
  have length : (([startByte] ++ [frame.cmd] ++ sizeBytes frame.payload.length ++
      frame.payload ++ [fcs]).length) = frame.bytes.length - 1 := by
    rw [HostFrame.bytes, sendFrame_eq]
    simp only [List.length_append, List.length_cons, List.length_nil, Nat.add_sub_cancel]
  rw [Quietly, length] at quiet
  have whole := receive_append handler ([startByte] ++ [frame.cmd] ++
    sizeBytes frame.payload.length ++ frame.payload ++ [fcs]) [endByte] receiver
  rw [quiet, Option.bind_some, ending] at whole
  have sent : frame.bytes = [startByte] ++ [frame.cmd] ++ sizeBytes frame.payload.length ++
      frame.payload ++ [fcs] ++ [endByte] := sendFrame_eq ..
  rw [← sent] at whole
  exact whole

/-- The host waits for the answer before the next frame. -/
def Receiver.answered (receiver : Receiver) : Receiver :=
  { receiver with frameReceived := false }

/-- Each frame of a conversation arrives as it was sent. -/
def DecodesAll (handler : Handler) : Receiver → List HostFrame → Prop
  | _, [] => True
  | receiver, frame :: rest =>
      ∃ after, Decoded handler receiver frame after ∧ DecodesAll handler after.answered rest

theorem decodesAll_of_ready {handler : Handler} (reads : ReadsFrames handler) :
    ∀ (frames : List HostFrame) (receiver : Receiver), Ready receiver →
      DecodesAll handler receiver frames
  | [], _, _ => trivial
  | frame :: rest, _, ready => by
      rcases frame_decoded reads ready frame with ⟨after, decoded⟩
      exact ⟨after, decoded, decodesAll_of_ready reads rest after.answered ⟨decoded.idle, rfl⟩⟩

/-- Decoding undoes encoding, in the bootloader and in the kernel, and the two
check sequences agree. -/
theorem decode_undoes_encode (receiver : Receiver) (ready : Ready receiver) :
    (∀ frames, DecodesAll bootloaderReceive receiver frames) ∧
      (∀ frames, DecodesAll usart0Exception receiver frames) ∧
      ∀ data, calculateFcs data = (crcCalculate data polynomial).toNat :=
  ⟨fun frames => decodesAll_of_ready bootloaderReceive_reads frames receiver ready,
    fun frames => decodesAll_of_ready usart0Exception_reads frames receiver ready,
    calculateFcs_eq⟩

theorem decode_undoes_encode_initial :
    DecodesAll usart0Exception .initial
      [⟨0x07, [0xAA, 0x55], by decide, by decide⟩, ⟨0x03, [0x00], by decide, by decide⟩] :=
  (decode_undoes_encode .initial ⟨rfl, rfl⟩).2.1 _

end Vanilla.Boot
