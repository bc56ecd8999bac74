import Vanilla.Disk.Mmc
import Vanilla.Disk.SdProtocol

namespace Vanilla.Disk

/-! sd_protocol.c, the initialization, with the transfers of mmc.c under it. The
controller answers each command as it likes. -/

/-- `struct sd_card`. -/
structure SdSlot extends SdCard where
  rca : Nat
  cidName : List UInt8
  fourBitBusSupport : Bool
  pastV110 : Bool
  highSpeed : Bool

/-- What follows on a command: the values of the status register as it is polled,
the response registers, and the words of the data that the card sends. The last
value stays in the register. -/
structure MmcAnswer where
  polled : List Nat
  resp : Nat → Nat
  words : List Nat

/-- A command as it goes over the bus, with the registers that set up the bus,
the response to it and the data. It is `answered` once the controller reports
that it is complete. -/
structure SdCommand where
  cmd : Nat
  arg : Nat
  mr : Nat
  sdcr : Nat
  response : Nat
  words : List Nat
  answered : Bool

/-- The registers of the controller, the card as the driver knows it, and the
commands so far. -/
structure SdBus where
  mr : Nat
  sdcr : Nat
  cfg : Nat
  dtor : Nat
  cstor : Nat
  blkr : Nat
  resp : Nat → Nat
  words : List Nat
  slot : SdSlot
  log : List SdCommand

/-! ## mmc.c -/

def mmcCmdRead : Nat := 1 <<< 18
def mmcCmdByte : Nat := 4 <<< 19
def mmcCmdStartData : Nat := 1 <<< 16
def mmcCmdExtLatency : Nat := 1 <<< 12
def mmcCmdResp48 : Nat := 1 <<< 6
def mmcCmdResp136 : Nat := 2 <<< 6
def mmcCmdR1b : Nat := 3 <<< 6

def sdResp1 : Nat := mmcCmdExtLatency ||| mmcCmdResp48
def sdResp1b : Nat := mmcCmdExtLatency ||| mmcCmdR1b
def sdResp2 : Nat := mmcCmdExtLatency ||| mmcCmdResp136
def mmc1Lane : Nat := 0
def mmc4Lanes : Nat := 2

/-- All bits of a word but the given ones. -/
def clearing (bits : Nat) : Nat := 0xFFFFFFFF ^^^ bits

/-- The registers of `mmc_send_adtc`; all block sizes are whole words, and a
byte transfer has its size alone in `BLKR`. -/
def mmcPrepare (cmd blockSize blockCount : Nat) (bus : SdBus) : SdBus :=
  { bus with
    mr := if blockSize &&& 0b11 ≠ 0 then bus.mr ||| (1 <<< 11 ||| 1 <<< 12) ||| 1 <<< 13
      else (bus.mr ||| (1 <<< 11 ||| 1 <<< 12)) &&& clearing (1 <<< 13)
    blkr := if cmd >>> 19 &&& 0b111 = 4 then blockSize % 512 &&& 0xFFFF
      else u32 (blockSize <<< 16) ||| blockCount &&& 0xFFFF }

/-- The command is written, and the registers show the answer of the card. -/
def SdBus.sent (bus : SdBus) (answer : MmcAnswer) (cmd arg : Nat) (answered : Bool) : SdBus :=
  { bus with
    resp := answer.resp
    words := answer.words
    log := bus.log ++ [⟨cmd, arg, bus.mr, bus.sdcr, answer.resp 0, answer.words, answered⟩] }

/-- The polling of `mmc_send_cmd`; the statuses that are left are returned. -/
def waitCmd (checkCrc : Bool) : List Nat → Exec SdBus (List Nat)
  | [] => Exec.fault .diverges
  | status :: later =>
      if status &&& (1 <<< 16 ||| 1 <<< 17 ||| 1 <<< 19 ||| 1 <<< 20 ||| 1 <<< 23) ≠ 0 then
        Exec.panic "MMC send command error"
      else if checkCrc ∧ status &&& 1 <<< 18 ≠ 0 then
        Exec.panic "MMC send command CRC error"
      else if status &&& 0b1 ≠ 0 then pure later
      else waitCmd checkCrc later

/-- The polling of `mmc_send_adtc`. -/
def waitAdtc (checkCrc : Bool) : List Nat → Exec SdBus (List Nat)
  | [] => Exec.fault .diverges
  | status :: later =>
      if status &&& 0b1 = 0 then waitAdtc checkCrc later
      else if status &&& 0x21FB0000 ≠ 0 then Exec.panic "CMD failed"
      else if checkCrc ∧ status &&& 1 <<< 18 ≠ 0 then Exec.panic "CMD failed CRC error"
      else pure later

/-- The polling after a command of response R1b. -/
def waitBusy : Nat → List Nat → Exec SdBus Unit
  | _, [] => Exec.panic "MMC command timeout"
  | timeout, status :: later =>
      if timeout ≤ 1 then Exec.panic "MMC command timeout"
      else if status &&& 1 <<< 5 = 0 ∧ status &&& 1 <<< 4 = 0 then waitBusy (timeout - 1) later
      else pure ()

def waitR1b (cmd : Nat) (later : List Nat) : Exec SdBus Unit :=
  if cmd >>> 6 &&& 0b11 = 3 then waitBusy 0xFFFFFFFF later else pure ()

section Protocol

variable (answers : Nat → MmcAnswer)

/-- What the two functions that send a command have in common. -/
def mmcTransfer (wait : List Nat → Exec SdBus (List Nat)) (cmd arg : Nat) : Exec SdBus Bool := do
  let bus ← get
  let answer := answers bus.log.length
  set (bus.sent answer cmd arg false)
  let later ← wait answer.polled
  waitR1b cmd later
  set (bus.sent answer cmd arg true)
  pure true

def mmcSendCmd (cmd arg : Nat) (checkCrc : Bool) : Exec SdBus Bool :=
  mmcTransfer answers (waitCmd checkCrc) cmd arg

def mmcSendAdtc (cmd arg blockSize blockCount : Nat) (checkCrc : Bool) : Exec SdBus Bool := do
  modify (mmcPrepare cmd blockSize blockCount)
  mmcTransfer answers (waitAdtc checkCrc) cmd arg

def mmcReadResp48 : Exec SdBus Nat := do
  let bus ← get
  pure (bus.resp 0)

/-- `byte_reverse` of `mmc_read_resp136`. -/
def byteReverse (resp : Nat → Nat) (index : Nat) : UInt8 :=
  UInt8.ofNat (resp (index / 4) >>> (24 - 8 * (index % 4)))

def mmcReadResp136 : Exec SdBus Csd := do
  let bus ← get
  pure fun index => byteReverse bus.resp (15 - index)

/-- Without data the loop over the status register does not end. -/
def mmcReadData : Exec SdBus Nat := do
  let bus ← get
  match bus.words with
  | [] => Exec.fault .diverges
  | word :: later => do
      set { bus with words := later }
      pure word

def readWords : Nat → Exec SdBus (List Nat)
  | 0 => pure []
  | wordCount + 1 => do
      let word ← mmcReadData
      let later ← readWords wordCount
      pure (word :: later)

/-- The byte of each word that comes first ends up behind the others. -/
def mmcReadDataReverse (wordCount : Nat) : Exec SdBus Csd := do
  let words ← readWords wordCount
  pure fun index =>
    let offset := 4 * wordCount - 1 - index
    UInt8.ofNat (words.getD (offset / 4) 0 >>> (8 * (offset % 4)))

/-! ## sd_protocol.c -/

def setSlot (change : SdSlot → SdSlot) : Exec SdBus Unit :=
  modify fun bus => { bus with slot := change bus.slot }

/-- `slot_1.rca << 16`. -/
def rcaArg (slot : SdSlot) : Nat := u32 (slot.rca <<< 16)

def sdExecCmd7 : Exec SdBus Bool := do
  let bus ← get
  mmcSendCmd answers (sdResp1b ||| 7) (rcaArg bus.slot) true

def sdExecCmd9 : Exec SdBus (Option Csd) := do
  let bus ← get
  let sent ← mmcSendCmd answers (sdResp2 ||| 9) (rcaArg bus.slot) true
  if ¬ sent then pure none
  else do
    let csd ← mmcReadResp136
    pure (some csd)

def sdExecCmd55 : Exec SdBus Bool := do
  let bus ← get
  mmcSendCmd answers (sdResp1 ||| 55) (rcaArg bus.slot) true

def sdExecAcmd51 : Exec SdBus Bool := do
  let prefixed ← sdExecCmd55 answers
  if ¬ prefixed then pure false
  else do
    let sent ← mmcSendAdtc answers
      (sdResp1 ||| mmcCmdRead ||| mmcCmdStartData ||| mmcCmdByte ||| 51) 0 8 1 true
    if ¬ sent then pure false
    else do
      let csr ← mmcReadDataReverse 2
      setSlot fun slot =>
        { slot with
          fourBitBusSupport := decide ((csr 6).toNat >>> 2 &&& 0b1 = 0b1)
          pastV110 := if (csr 7).toNat &&& 0b1111 ≠ 0 then true else slot.pastV110 }
      pure true

/-- `csd_decode` on the slot. -/
def decodeSlot (csd : Csd) : Exec SdBus Unit :=
  Exec.zoom (fun bus : SdBus => (⟨bus.slot.toSdCard, [], []⟩ : SdState))
    (fun decoded bus => { bus with slot := { bus.slot with toSdCard := decoded.slot } })
    (csdDecode csd)

/-- The card is read out and selected. -/
def selectCard : Exec SdBus Unit := do
  let csd ← sdExecCmd9 answers
  match csd with
  | none => Exec.panic "Retrieve CSD failed"
  | some csd => do
      decodeSlot csd
      let selected ← sdExecCmd7 answers
      if ¬ selected then Exec.panic "CMD7 failed"
      else do
        let configured ← sdExecAcmd51 answers
        if ¬ configured then Exec.panic "ACMD51 failed" else pure ()

end Protocol

end Vanilla.Disk
