import Vanilla.Disk.SdStates
import Vanilla.Foundation.Ends

namespace Vanilla.Disk

open Exec

/-! `sd_protocol_init` against a card that answers as it likes: whatever it
sends is taken. -/

/-! ## The bus -/

/-- The divider is the one for 400 kHz, or more. -/
structure Slow (mr : Nat) : Prop where
  word : mr < 2 ^ 32
  div : 186 ≤ clkDiv mr
  odd : clkOdd mr = 1

theorem clkOdd_le (mr : Nat) : clkOdd mr ≤ 1 := Nat.and_le_right

theorem Slow.clock {mr : Nat} (slow : Slow mr) : busClock mr ≤ 400000 := by
  have div := slow.div
  have odd := slow.odd
  have clock : busClock mr ≤ (400000 : Nat) := by
    rw [busClock_le_iff, divider]
    omega
  exact_mod_cast clock

theorem Slow.limit {mr : Nat} (slow : Slow mr) (card : CardState) :
    busClock mr ≤ card.clockLimit := by
  apply slow.clock.trans
  rw [CardState.clockLimit]
  split <;> norm_num

/-- Bits of the divider that are set stay set. -/
theorem Slow.or {mr bits : Nat} (slow : Slow mr) (word : bits < 2 ^ 32) : Slow (mr ||| bits) := by
  refine ⟨Nat.or_lt_two_pow slow.word word, ?_, ?_⟩
  · rw [clkDiv_or]
    exact slow.div.trans Nat.left_le_or
  · apply Nat.le_antisymm (clkOdd_le _)
    rw [clkOdd_or]
    exact slow.odd.symm.le.trans Nat.left_le_or

/-- Neither the divider nor its odd bit is among the bits that are cleared. -/
theorem Slow.clear {mr mask : Nat} (slow : Slow mr) (low : mask &&& 0xFF = 0xFF)
    (odd : mask >>> 16 &&& 0b1 = 0b1) : Slow (mr &&& mask) := by
  refine ⟨Nat.lt_of_le_of_lt Nat.and_le_left slow.word, ?_, ?_⟩
  · rw [clkDiv, Nat.and_assoc, low]
    exact slow.div
  · rw [clkOdd, Nat.shiftRight_and_distrib, Nat.and_assoc, odd]
    exact slow.odd

theorem Slow.prepare {bus : SdBus} (slow : Slow bus.mr) (cmd : Nat) {blockSize blockCount : Nat}
    (whole : blockSize &&& 0b11 = 0) : Slow (mmcPrepare cmd blockSize blockCount bus).mr := by
  rw [mmcPrepare]
  simp only [whole, ne_eq, not_true_eq_false, if_false]
  exact (slow.or (by decide)).clear (by decide) (by decide)

/-! ## One command -/

section Command

variable {answers : Nat → MmcAnswer} {start card : CardState} {bus : SdBus} {cmd arg : Nat}

theorem waitCmd_ends {checkCrc : Bool} : ∀ statuses : List Nat,
    Ends (waitCmd checkCrc statuses) bus (fun _ after => after = bus) fun after => after = bus
  | [] => .fault rfl
  | status :: later => by
      rw [waitCmd]
      split
      · exact .panic rfl
      · split
        · exact .panic rfl
        · split
          · exact .pure rfl
          · exact waitCmd_ends later

theorem waitAdtc_ends {checkCrc : Bool} : ∀ statuses : List Nat,
    Ends (waitAdtc checkCrc statuses) bus (fun _ after => after = bus) fun after => after = bus
  | [] => .fault rfl
  | status :: later => by
      rw [waitAdtc]
      split
      · exact waitAdtc_ends later
      · split
        · exact .panic rfl
        · split
          · exact .panic rfl
          · exact .pure rfl

theorem waitBusy_ends : ∀ {timeout : Nat} (statuses : List Nat),
    Ends (waitBusy timeout statuses) bus (fun _ after => after = bus) fun after => after = bus
  | _, [] => by
      rw [waitBusy]
      exact .panic rfl
  | timeout, status :: later => by
      rw [waitBusy]
      split
      · exact .panic rfl
      · split
        · exact waitBusy_ends later
        · exact .pure rfl

theorem waitR1b_ends (later : List Nat) :
    Ends (waitR1b cmd later) bus (fun _ after => after = bus) fun after => after = bus := by
  rw [waitR1b]
  split
  · exact waitBusy_ends later
  · exact .pure rfl

/-- The command as it is logged once it is answered. -/
def SdBus.command (bus : SdBus) (answer : MmcAnswer) (cmd arg : Nat) : SdCommand :=
  ⟨cmd, arg, bus.mr, bus.sdcr, answer.resp 0, answer.words, true⟩

/-- A command that the card takes is answered, or it is the last. -/
theorem transfer_ends {wait : List Nat → Exec SdBus (List Nat)}
    (waits : ∀ between statuses, Ends (wait statuses) between (fun _ after => after = between)
      fun after => after = between)
    (clean : Conforms start bus)
    (legal : LegalCommand (partyAfter CardState.after start bus.log)
      (bus.command (answers bus.log.length) cmd arg)) :
    Ends (mmcTransfer answers wait cmd arg) bus
      (fun sent after => sent = true ∧ after = bus.sent (answers bus.log.length) cmd arg true)
      (Conforms start) := by
  have logged : Conforms start (bus.sent (answers bus.log.length) cmd arg false) :=
    clean.snoc legal
  rw [mmcTransfer]
  apply Ends.get
  apply Ends.set
  apply Ends.bind ((waits _ _).impStopped fun _ same => same ▸ logged)
  rintro later _ rfl
  apply Ends.bind ((waitR1b_ends later).impStopped fun _ same => same ▸ logged)
  rintro _ _ rfl
  exact .set (.pure ⟨rfl, rfl⟩)

theorem sendCmd_ends {checkCrc : Bool} (clean : Conforms start bus)
    (legal : LegalCommand (partyAfter CardState.after start bus.log)
      (bus.command (answers bus.log.length) cmd arg)) :
    Ends (mmcSendCmd answers cmd arg checkCrc) bus
      (fun sent after => sent = true ∧ after = bus.sent (answers bus.log.length) cmd arg true)
      (Conforms start) :=
  transfer_ends (fun _ statuses => waitCmd_ends statuses) clean legal

theorem sendAdtc_ends {checkCrc : Bool} {blockSize blockCount : Nat} {prepared : SdBus}
    (prepares : mmcPrepare cmd blockSize blockCount bus = prepared)
    (clean : Conforms start prepared)
    (legal : LegalCommand (partyAfter CardState.after start prepared.log)
      (prepared.command (answers prepared.log.length) cmd arg)) :
    Ends (mmcSendAdtc answers cmd arg blockSize blockCount checkCrc) bus
      (fun sent after =>
        sent = true ∧ after = prepared.sent (answers prepared.log.length) cmd arg true)
      (Conforms start) := by
  rw [mmcSendAdtc]
  apply Ends.modify
  rw [prepares]
  exact transfer_ends (fun _ statuses => waitAdtc_ends statuses) clean legal

/-- So many words are read, or the controller waits for more. -/
theorem readWords_ends {Stopped : SdBus → Prop} : ∀ {wordCount : Nat} {bus : SdBus},
    (∀ words, Stopped { bus with words := words }) →
    Ends (readWords wordCount) bus
      (fun words after => words = bus.words.take wordCount ∧ words.length = wordCount ∧
        after = { bus with words := bus.words.drop wordCount }) Stopped
  | 0, _, _ => .pure ⟨rfl, rfl, rfl⟩
  | wordCount + 1, bus, stops => by
      rw [readWords]
      cases left : bus.words with
      | nil =>
          have waits : mmcReadData.run bus = .error .diverges bus := by
            rw [mmcReadData, Exec.run_bind_of_ok (EStateM.run_get bus), left]
            rfl
          exact .bindError waits (stops bus.words)
      | cons word later =>
          have reads : mmcReadData.run bus = .ok word { bus with words := later } := by
            rw [mmcReadData, Exec.run_bind_of_ok (EStateM.run_get bus), left]
            rfl
          apply Ends.change reads
          apply Ends.bind (@readWords_ends _ wordCount { bus with words := later } stops)
          rintro rest _ ⟨rfl, all, rfl⟩
          exact .pure ⟨rfl, congrArg Nat.succ all, rfl⟩

end Command

/-! ## The session -/

/-- What the driver knows of the card is true, and the bus is set up for it. -/
structure Session (start : CardState) (bus : SdBus) (card : CardState) : Prop where
  followed : Followed start bus.log card
  rca : bus.slot.rca = card.rca
  rcaWord : card.rca < 2 ^ 16
  slow : Slow bus.mr
  lanes : SameLanes card bus.sdcr
  switches : bus.slot.pastV110 = card.switches

/-- The card is in the transfer state, between two commands. -/
structure Selected (start : CardState) (bus : SdBus) (card : CardState) : Prop where
  session : Session start bus card
  mode : card.mode = .tran
  app : card.app = false
  capacity : bus.slot.highCapacity = card.capacity

section Session

variable {answers : Nat → MmcAnswer} {start card : CardState} {bus : SdBus} {cmd arg : Nat}

theorem Session.conforms (session : Session start bus card) : Conforms start bus :=
  session.followed.clean

theorem rcaArg_address (session : Session start bus card) :
    rcaArg bus.slot >>> 16 = card.rca := by
  have word := session.rcaWord
  rw [rcaArg, session.rca, Nat.shiftLeft_eq, u32_of_lt (by omega), Nat.shiftRight_eq_div_pow]
  exact Nat.mul_div_cancel _ (by decide)

/-- A command that the card takes is legal, since the bus is set up for it. -/
theorem Session.legal (session : Session start bus card) {answer : MmcAnswer} {index : Nat}
    (present : card.mode ≠ .lost) (indexed : cmd &&& 0b111111 = index)
    (takes : Takes card index arg) :
    LegalCommand (partyAfter CardState.after start bus.log) (bus.command answer cmd arg) := by
  subst indexed
  rw [session.followed.card]
  exact ⟨present, session.slow.limit card, .inr (.inr ⟨session.lanes, takes⟩)⟩

theorem Session.follow (session : Session start bus card) {answer : MmcAnswer}
    {next : CardState} {index : Nat} (present : card.mode ≠ .lost)
    (indexed : cmd &&& 0b111111 = index) (takes : Takes card index arg)
    (wakes : cmd >>> 8 &&& 0b111 ≠ 1)
    (goes : (bus.command answer cmd arg).index = index →
      card.taken (bus.command answer cmd arg) = next) :
    Followed start (bus.sent answer cmd arg true).log next := by
  have legal : LegalCommand card (bus.command answer cmd arg) :=
    session.followed.card ▸ session.legal present indexed takes
  have command : (bus.command answer cmd arg).wakes = false := decide_eq_false wakes
  rw [← goes indexed, ← after_answered rfl command]
  exact session.followed.snoc legal

/-- The card has gone on with the command. -/
theorem Session.sent (session : Session start bus card) {answer : MmcAnswer} {next : CardState}
    {index : Nat} (present : card.mode ≠ .lost) (indexed : cmd &&& 0b111111 = index)
    (takes : Takes card index arg) (wakes : cmd >>> 8 &&& 0b111 ≠ 1)
    (goes : (bus.command answer cmd arg).index = index →
      card.taken (bus.command answer cmd arg) = next)
    (rca : next.rca = card.rca) (wide : next.wide = card.wide)
    (switches : next.switches = card.switches) :
    Session start (bus.sent answer cmd arg true) next := by
  constructor
  · exact session.follow present indexed takes wakes goes
  · exact session.rca.trans rca.symm
  · exact rca ▸ session.rcaWord
  · exact session.slow
  · rw [SameLanes, wide]
    exact session.lanes
  · exact session.switches.trans switches.symm

theorem present_of {mode : CardMode} (present : mode ≠ .lost) (is_ : card.mode = mode) :
    card.mode ≠ .lost := is_ ▸ present

theorem run_mmcReadResp48 (bus : SdBus) : mmcReadResp48.run bus = .ok (bus.resp 0) bus := rfl

end Session

end Vanilla.Disk
