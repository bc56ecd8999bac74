import Vanilla.Disk.SdInit
import Vanilla.Foundation.Monitor

namespace Vanilla.Disk

/-! The SD card by its specification: the states that its commands move it
through, and which command it takes in which state. -/

/-- A card that a command got no answer from is `lost`. -/
inductive CardMode where
  | idle
  | ready
  | ident
  | stby
  | tran
  | lost
deriving DecidableEq

/-- `app` is set between CMD55 and the command after it. -/
structure CardState where
  mode : CardMode
  app : Bool
  rca : Nat
  voltageAccepted : Bool
  capacity : Bool
  fourBit : Bool
  switches : Bool
  wide : Bool

def CardState.reset : CardState := ⟨.idle, false, 0, false, false, false, false, false⟩

namespace SdCommand

/-- The clock cycles that wake the card up are no command to it. -/
def wakes (command : SdCommand) : Bool := decide (command.cmd >>> 8 &&& 0b111 = 1)

def index (command : SdCommand) : Nat := command.cmd &&& 0b111111

/-- The busy bit of the OCR register is low while the card powers up. -/
def powered (command : SdCommand) : Bool := decide (command.response &&& 1 <<< 31 ≠ 0)

end SdCommand

/-- What a command that is taken does to the card. -/
def CardState.taken (card : CardState) (command : SdCommand) : CardState :=
  if command.index = 0 then .reset
  else if command.index = 8 then
    { card with voltageAccepted := decide (command.response &&& 0b111111111111 = command.arg) }
  else if command.index = 55 then { card with app := true }
  else if command.index = 41 then
    { card with
      app := false
      mode := if command.powered then .ready else .idle
      capacity := decide (command.response &&& 1 <<< 30 ≠ 0) }
  else if command.index = 2 then { card with mode := .ident }
  else if command.index = 3 then
    { card with mode := .stby, rca := command.response >>> 16 &&& 0xFFFF }
  else if command.index = 7 then { card with mode := .tran }
  else if command.index = 51 then
    { card with
      app := false
      fourBit := (command.words.getD 0 0).testBit 10
      switches := decide (command.words.getD 0 0 &&& 0b1111 ≠ 0) }
  else if command.index = 6 ∧ card.app = true then
    { card with app := false, wide := decide (command.arg = 2) }
  else { card with app := false }

def CardState.after (card : CardState) (command : SdCommand) : CardState :=
  if ¬ command.answered then { card with mode := .lost }
  else if command.wakes then card
  else card.taken command

section Commands

variable {card : CardState} {command : SdCommand}

theorem after_answered (answered : command.answered = true) (wakes : command.wakes = false) :
    card.after command = card.taken command := by
  simp [CardState.after, answered, wakes]

/-- Reading and switching commands leave the state of the card as it is. -/
theorem taken_other (index : command.index ∈ [6, 9, 13, 17]) (app : card.app = false) :
    card.taken command = card := by
  cases card
  cases app
  simp only [List.mem_cons, List.not_mem_nil, or_false] at index
  rcases index with index | index | index | index <;> simp [CardState.taken, index]

end Commands

/-- The commands that the card takes in its state, by index and argument. -/
inductive Takes (card : CardState) : Nat → Nat → Prop where
  | sendIfCond {arg : Nat} : card.mode = .idle → card.app = false → arg >>> 8 = 1 →
      Takes card 8 arg
  | appCmd {arg : Nat} : card.mode = .idle ∨ card.mode = .tran → card.app = false →
      arg >>> 16 = card.rca → Takes card 55 arg
  /-- The bit of the host's capacity is for cards that have answered CMD8. -/
  | sendOpCond {arg : Nat} : card.mode = .idle → card.app = true → arg &&& 0xFF8000 ≠ 0 →
      (arg &&& 1 <<< 30 ≠ 0 → card.voltageAccepted = true) → Takes card 41 arg
  | allSendCid {arg : Nat} : card.mode = .ready → card.app = false → Takes card 2 arg
  | sendRelativeAddr {arg : Nat} : card.mode = .ident → card.app = false → Takes card 3 arg
  | sendCsd {arg : Nat} : card.mode = .stby → card.app = false → arg >>> 16 = card.rca →
      Takes card 9 arg
  | selectCard {arg : Nat} : card.mode = .stby → card.app = false → arg >>> 16 = card.rca →
      Takes card 7 arg
  | sendStatus {arg : Nat} : card.mode = .tran → card.app = false → arg >>> 16 = card.rca →
      Takes card 13 arg
  | readSingleBlock {arg : Nat} : card.mode = .tran → card.app = false → Takes card 17 arg
  | sendScr {arg : Nat} : card.mode = .tran → card.app = true → Takes card 51 arg
  | setBusWidth {arg : Nat} : card.mode = .tran → card.app = true → arg = 2 →
      card.fourBit = true → Takes card 6 arg
  | switchFunc {arg : Nat} : card.mode = .tran → card.app = false → card.switches = true →
      Takes card 6 arg

/-- The field of `SDCR` for the data lanes. -/
def lanes (sdcr : Nat) : Nat := sdcr >>> 6 &&& 0b11

/-- The clock of the identification is 400 kHz at most, later 25 MHz. -/
def CardState.clockLimit (card : CardState) : ℚ :=
  if card.mode = .stby ∨ card.mode = .tran then 25000000 else 400000

/-- Card and controller use the same data lanes. -/
def SameLanes (card : CardState) (sdcr : Nat) : Prop :=
  lanes sdcr = if card.wide then mmc4Lanes else mmc1Lane

/-- Reset and the cycles that wake the card up are taken in any state. -/
def LegalCommand (card : CardState) (command : SdCommand) : Prop :=
  card.mode ≠ .lost ∧ busClock command.mr ≤ card.clockLimit ∧
    (command.wakes = true ∨ command.index = 0 ∨
      SameLanes card command.sdcr ∧ Takes card command.index command.arg)

/-- Where the log has brought the card, and that it took every command. -/
structure Followed (start : CardState) (log : List SdCommand) (card : CardState) : Prop where
  clean : Clean CardState.after LegalCommand start log
  card : partyAfter CardState.after start log = card

/-- Nothing has been sent that the card does not take. -/
abbrev Conforms (start : CardState) (bus : SdBus) : Prop :=
  Clean CardState.after LegalCommand start bus.log

namespace Followed

variable {start card : CardState} {log : List SdCommand} {command : SdCommand}

theorem snoc (followed : Followed start log card) (legal : LegalCommand card command) :
    Followed start (log ++ [command]) (card.after command) := by
  constructor
  · exact followed.clean.snoc (followed.card ▸ legal)
  · rw [partyAfter_snoc, followed.card]

theorem nil (start : CardState) : Followed start [] start := ⟨clean_nil, rfl⟩

end Followed

end Vanilla.Disk
