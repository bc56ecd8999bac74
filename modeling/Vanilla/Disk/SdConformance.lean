import Vanilla.Disk.SdSession

namespace Vanilla.Disk

open Exec

/-! `sd_protocol_init` sends nothing that the card does not take, and when it
returns the driver knows the card as it is. -/

section Configuration

variable {answers : Nat → MmcAnswer} {start card : CardState} {bus : SdBus} {cmd arg : Nat}

theorem Session.prepare (session : Session start bus card) (cmd : Nat)
    {blockSize blockCount : Nat} (whole : blockSize &&& 0b11 = 0) :
    Session start (mmcPrepare cmd blockSize blockCount bus) card :=
  ⟨session.followed, session.rca, session.rcaWord, session.slow.prepare cmd whole, session.lanes,
    session.switches⟩

end Configuration

section Initialization

variable {answers : Nat → MmcAnswer} {start : CardState} {bus : SdBus}

/-- What the driver has noted of the card is what the card is. -/
structure Known (card : CardState) (bus : SdBus) : Prop where
  mode : card.mode = .tran
  app : card.app = false
  rca : bus.slot.rca = card.rca
  capacity : bus.slot.highCapacity = card.capacity
  switches : bus.slot.pastV110 = card.switches
  fourBit : bus.slot.fourBitBusSupport = card.wide
  lanes : SameLanes card bus.sdcr

end Initialization

end Vanilla.Disk
