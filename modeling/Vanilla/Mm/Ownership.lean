import Mathlib.Data.List.Nodup
import Vanilla.Mm.Tiling

/-! # Payloads belong to their owners

No call of the memory manager stores into a payload that is not its own.
-/

namespace Vanilla.Mm

open ByteMemory

/-- An address in the root object, the last node or a block header of some bank. -/
def InHeader (config : Config) (address : Nat) : Prop :=
  ∃ bank, Header (config.state.physicalMemories bank).rootNode address ∨
    Header (config.state.physicalMemories bank).lastNode address ∨
    (∃ free, freeList config.state bank = some free ∧
      ∃ gap ∈ free, Header gap.addr address) ∨
    ∃ allocation ∈ config.live, allocation.bank = bank ∧
      Header (allocation.pointer - sizeofMmNode) address

structure PayloadOwned (config : Config) (allocation : Allocation) : Prop where
  aligned : 8 ∣ allocation.pointer
  inside : (config.state.physicalMemories allocation.bank).startAddr ≤ allocation.pointer ∧
    allocation.payload.stop ≤ (config.state.physicalMemories allocation.bank).startAddr +
      (config.state.physicalMemories allocation.bank).size
  /-- Every live pointer is listed once, so `other` is any other live pointer. -/
  single : config.live.Nodup
  apart : ∀ other ∈ config.live, other ≠ allocation →
    allocation.payload.Disjoint other.payload
  noHeader : ∀ address, allocation.payload.Holds address → ¬ InHeader config address

/-- A step that stores nothing to an interval. -/
def Untouched (interval : Interval) (before after : ByteMemory) : Prop :=
  ∃ stores, after.written = stores ++ before.written ∧
    ∀ address, interval.Holds address →
      address ∉ stores ∧ after.load8 address = before.load8 address

section Represents

variable {linker : Linker} {config : Config}
  {partitions : (bank : PhysmemE) → BankPartition linker bank}
  {allocation other : Allocation}

theorem Represents.block_injective (rep : Represents linker config partitions)
    (member : allocation ∈ config.live) (otherMember : other ∈ config.live)
    (sameBank : allocation.bank = other.bank) (sameBlock : allocation.block = other.block) :
    allocation = other := by
  have nodup := (rep.live other.bank).nodup_iff.mp (partitions other.bank).live_nodup
  exact List.inj_on_of_nodup_map nodup (List.mem_filter.mpr ⟨member, by simp [sameBank]⟩)
    (List.mem_filter.mpr ⟨otherMember, by simp⟩) sameBlock

theorem Represents.live_nodup (rep : Represents linker config partitions) :
    config.live.Nodup := by
  apply List.nodup_iff_count.mpr
  intro allocation
  have nodup := ((rep.live allocation.bank).nodup_iff.mp
    (partitions allocation.bank).live_nodup).of_map
  have once := List.nodup_iff_count.mp nodup allocation
  rw [List.count_filter (by simp)] at once
  exact once

theorem Represents.payload_in_block (rep : Represents linker config partitions)
    (member : allocation ∈ config.live) {address : Nat}
    (inside : allocation.payload.Holds address) : allocation.block.Holds address := by
  have pointer := rep.pointers allocation member
  simp only [Allocation.payload, Interval.Holds, Interval.stop] at *
  omega

theorem Represents.blocks_apart (rep : Represents linker config partitions)
    (member : allocation ∈ config.live) (otherMember : other ∈ config.live)
    (different : other ≠ allocation) : allocation.block.Disjoint other.block := by
  have live := rep.block_live member
  have otherLive := rep.block_live otherMember
  by_cases sameBank : allocation.bank = other.bank
  · rw [sameBank] at live
    apply (partitions other.bank).live_disjoint live otherLive
    exact fun sameBlock => different (rep.block_injective member otherMember sameBank sameBlock).symm
  · apply Interval.disjoint_of_no_common ((partitions _).livePositive _ live)
      ((partitions _).livePositive _ otherLive)
    exact fun address inBlock inOther => bankArea_apart linker sameBank
      (live_inArea _ ⟨_, live, inBlock⟩) (live_inArea _ ⟨_, otherLive, inOther⟩)

/-- Nothing a call owns reaches into a payload it does not free. -/
theorem Represents.payload_not_owned (rep : Represents linker config partitions)
    (member : allocation ∈ config.live) {call : Call} {after : Config}
    (step : Step config call after) (kept : call ≠ .free allocation) {bank : PhysmemE}
    {address : Nat} (inside : allocation.payload.Holds address) :
    ¬ Owned partitions call bank address := by
  have live := rep.block_live member
  have holds := rep.payload_in_block member inside
  intro owned
  rcases owned with inFree | ⟨released, isFree, sameBank, inReleased⟩
  · by_cases equal : allocation.bank = bank
    · subst bank
      exact (partitions allocation.bank).exclusive address inFree ⟨_, live, holds⟩
    · exact bankArea_apart linker equal (live_inArea _ ⟨_, live, holds⟩)
        (free_inArea _ inFree)
  · subst isFree
    cases step with
    | free releasedMember returns =>
        have different : released ≠ allocation := by
          intro equal
          exact kept (by rw [equal])
        exact (rep.blocks_apart member releasedMember different).not_holds holds inReleased

theorem Represents.untouched (rep : Represents linker config partitions)
    (member : allocation ∈ config.live) {call : Call} {after : Config}
    (step : Step config call after) (kept : call ≠ .free allocation) {bank : PhysmemE}
    (onBank : call.bank = some bank) :
    Untouched allocation.payload config.state.memory after.state.memory := by
  rcases rep.step_effect step onBank with ⟨owned, effect, owns⟩
  have outside : ∀ address, allocation.payload.Holds address →
      ¬ CallFootprint linker bank owned address := by
    intro address inside written
    rcases written with inRoot | covered
    · exact rep.payload_not_header member inside bank (.inl inRoot)
    · exact rep.payload_not_owned member step kept inside (owns address covered)
  rcases effect.writes.logged with ⟨stores, log, logged⟩
  refine ⟨stores, log, ?_⟩
  intro address inside
  exact ⟨fun stored => outside address inside (logged address stored),
    effect.writes.kept address (outside address inside)⟩

theorem Represents.payload_owned (rep : Represents linker config partitions)
    (member : allocation ∈ config.live) : PayloadOwned config allocation := by
  have live := rep.block_live member
  have pointer := rep.pointers allocation member
  have range := (partitions allocation.bank).live_inside live
  have bankRep := rep.banks allocation.bank
  have order := bankStart_lt_bankLast linker allocation.bank
  exact {
    aligned := by
      have aligned := ((partitions allocation.bank).liveAligned _ live).1
      omega
    inside := by
      rw [bankRep.startAddr, bankRep.size]
      simp only [Allocation.payload, Interval.stop] at *
      omega
    single := rep.live_nodup
    apart := by
      intro other otherMember different
      have apart := rep.blocks_apart member otherMember different
      have otherPointer := rep.pointers other otherMember
      simp only [Allocation.payload, Interval.Disjoint, Interval.stop] at *
      omega
    noHeader := by
      intro address inside header
      rcases header with ⟨bank, header⟩
      have notHeader := rep.payload_not_header member inside bank
      have otherRep := rep.banks bank
      rw [otherRep.rootNode, otherRep.lastNode] at header
      rcases header with inRoot | inLast | ⟨free, listed, gap, gapMember, inGap⟩ |
          ⟨other, otherMember, sameBank, inOther⟩
      · exact notHeader (.inl inRoot)
      · exact notHeader (.inr (.inl inLast))
      · have same := listed.symm.trans otherRep.freeList_eq
        cases same
        exact notHeader (.inr (.inr (.inl ⟨gap, gapMember, inGap⟩)))
      · subst sameBank
        rw [(rep.pointers other otherMember).1, sizeofMmNode, Nat.add_sub_cancel] at inOther
        exact notHeader (.inr (.inr (.inr ⟨_, rep.block_live otherMember, inOther⟩))) }

end Represents

/-- An allocation stays live until it is freed. -/
theorem Step.stays_live {config after : Config} {call : Call} {allocation : Allocation}
    (step : Step config call after) (member : allocation ∈ config.live)
    (kept : call ≠ .free allocation) : allocation ∈ after.live := by
  cases step with
  | alloc => exact List.mem_cons_of_mem _ member
  | allocNull => exact member
  | @free released _ _ _ =>
      apply (List.mem_erase_of_ne _).mpr member
      intro equal
      exact kept (by rw [equal])
  | store => exact member

/-- From the moment a pointer is returned until it is freed, its payload is
aligned, inside its bank, apart from everything else, and not stored to by any
call. -/
theorem payload_owned_of_run {linker : Linker} {config later : Config} {calls : List Call}
    {allocation : Allocation} (reachable : Reachable linker config)
    (live : allocation ∈ config.live) (run : Run Step config calls later)
    (kept : Call.free allocation ∉ calls) :
    allocation ∈ later.live ∧ PayloadOwned later allocation ∧
      ∀ call after bank, Step later call after → call.bank = some bank →
        call ≠ .free allocation →
        Untouched allocation.payload later.state.memory after.state.memory := by
  have stays : allocation ∈ later.live := by
    apply run.invariant_of_events (fun config => allocation ∈ config.live)
      (fun call => call ≠ .free allocation)
    · exact fun _ _ _ member different step => step.stays_live member different
    · exact fun call member equal => kept (equal ▸ member)
    · exact live
  rcases (reachable.run run).represents with ⟨partitions, rep⟩
  refine ⟨stays, rep.payload_owned stays, ?_⟩
  exact fun call after bank step onBank different => rep.untouched stays step different onBank

theorem payload_owned_of_run_first :
    ∃ config, config.live = [firstAllocation] ∧ PayloadOwned config firstAllocation ∧
      ∀ call after bank, Step config call after → call.bank = some bank →
        call ≠ .free firstAllocation →
        Untouched firstAllocation.payload config.state.memory after.state.memory := by
  rcases reachable_first ⟨fun _ => 0, []⟩ with ⟨after, reachable⟩
  have owned := payload_owned_of_run reachable List.mem_cons_self (.nil _)
    List.not_mem_nil
  exact ⟨_, rfl, owned.2⟩

end Vanilla.Mm
