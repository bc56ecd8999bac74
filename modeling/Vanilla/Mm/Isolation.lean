import Vanilla.Mm.History

/-! # The banks do not see each other

The tag in a header names the bank the block lies in, so `mm_free` finds the
right bank, and a call on one bank leaves all others as they were.
-/

namespace Vanilla.Mm

open ByteMemory

/-- A block lies in the address range recorded for a bank. -/
def InBank (state : MmState) (bank : PhysmemE) (block : Interval) : Prop :=
  (state.physicalMemories bank).startAddr ≤ block.addr ∧
    block.stop ≤ (state.physicalMemories bank).startAddr + (state.physicalMemories bank).size

/-- Every header carries the index of the bank its block lies in. -/
structure TagsCorrect (config : Config) : Prop where
  free : ∀ bank, ∃ free, freeList config.state bank = some free ∧
    ∀ gap ∈ free, InBank config.state bank gap ∧
      mmGetRegion (nodeSize config.state.memory gap.addr) = bank.index
  live : ∀ allocation ∈ config.live, InBank config.state allocation.bank allocation.block ∧
    allocation.pointer = allocation.block.addr + sizeofMmNode ∧
    mmGetRegion (nodeSize config.state.memory allocation.block.addr) = allocation.bank.index
  /-- No block lies in two banks. -/
  ranges : ∀ left right, left ≠ right → ∀ block, 0 < block.size →
    InBank config.state left block → ¬ InBank config.state right block

/-- A step that a bank does not notice: its record, its free list, its live
blocks and every byte of its root object and its address range are kept. -/
structure BankKept (linker : Linker) (before after : Config) (bank : PhysmemE) : Prop where
  record : after.state.physicalMemories bank = before.state.physicalMemories bank
  freeList : freeList after.state bank = freeList before.state bank
  blocks : (after.blocks bank).Perm (before.blocks bank)
  notStored : ∃ stores, after.state.memory.written = stores ++ before.state.memory.written ∧
    ∀ address ∈ stores, ¬ BankArea linker bank address
  bytes : ∀ address, BankArea linker bank address →
    after.state.memory.load8 address = before.state.memory.load8 address

section Represents

variable {linker : Linker} {config : Config}
  {partitions : (bank : PhysmemE) → BankPartition linker bank}

theorem BankRep.inBank_iff {state : MmState} {bank : PhysmemE}
    {partition : BankPartition linker bank} (rep : BankRep linker state bank partition)
    (block : Interval) : InBank state bank block ↔
      bankStart linker bank ≤ block.addr ∧ block.stop ≤ bankLast linker bank := by
  have order := bankStart_lt_bankLast linker bank
  rw [InBank, rep.startAddr, rep.size, Nat.add_sub_of_le (Nat.le_of_lt order)]

theorem Represents.tags_correct (rep : Represents linker config partitions) :
    TagsCorrect config where
  free := by
    intro bank
    have bankRep := rep.banks bank
    refine ⟨(partitions bank).free, bankRep.freeList_eq, ?_⟩
    intro gap member
    have bounds := (partitions bank).free_bounds member
    refine ⟨(bankRep.inBank_iff gap).mpr ((partitions bank).free_inside member), ?_⟩
    rw [bankRep.chain.nodeSize_eq member]
    exact mmGetRegion_tagged (bankIndex_lt bank) bounds.2.2.2
  live := by
    intro allocation member
    have bankRep := rep.banks allocation.bank
    have live := rep.block_live member
    exact ⟨(bankRep.inBank_iff _).mpr ((partitions _).live_inside live),
      (rep.pointers allocation member).1, (bankRep.live_size live).1⟩
  ranges := by
    intro left right different block positive inLeft inRight
    have leftRange := ((rep.banks left).inBank_iff block).mp inLeft
    have rightRange := ((rep.banks right).inBank_iff block).mp inRight
    have inLeftArea : BankArea linker left block.addr := by
      simp only [Interval.stop] at leftRange
      exact .inr ⟨leftRange.1, by omega⟩
    apply bankArea_apart linker different inLeftArea
    simp only [Interval.stop] at rightRange
    exact .inr ⟨rightRange.1, by omega⟩

/-- What a call owns lies in the bank of the call. -/
theorem Represents.owned_inArea (rep : Represents linker config partitions) {call : Call}
    {after : Config} (step : Step config call after) {bank : PhysmemE} {address : Nat}
    (owned : Owned partitions call bank address) : BankArea linker bank address := by
  rcases owned with inFree | ⟨allocation, isFree, sameBank, inBlock⟩
  · exact free_inArea _ inFree
  · subst isFree
    subst sameBank
    cases step with
    | free member _ => exact live_inArea _ ⟨_, rep.block_live member, inBlock⟩

theorem Step.blocks_kept {after : Config} {call : Call} (step : Step config call after)
    {bank other : PhysmemE} (onBank : call.bank = some bank) (different : other ≠ bank) :
    (after.blocks other).Perm (config.blocks other) := by
  cases step with
  | alloc =>
      cases onBank
      rw [blocks_cons, if_neg (Ne.symm different)]
      exact List.Perm.refl _
  | allocNull => exact List.Perm.refl _
  | @free allocation state member _ =>
      cases onBank
      have erased := blocks_erase config.state state member other
      rw [if_neg (Ne.symm different)] at erased
      exact erased.symm
  | store => cases onBank

theorem Represents.bank_kept (rep : Represents linker config partitions) {call : Call}
    {after : Config} (step : Step config call after) {bank other : PhysmemE}
    (onBank : call.bank = some bank) (different : other ≠ bank) :
    BankKept linker config after other := by
  rcases rep.step_effect step onBank with ⟨owned, effect, owns⟩
  have inArea : ∀ address, Intervals.Covers owned address → BankArea linker bank address :=
    fun address covered => rep.owned_inArea step (owns address covered)
  have outside : ∀ address, BankArea linker other address →
      ¬ CallFootprint linker bank owned address := by
    intro address inside written
    apply bankArea_apart linker different inside
    rcases written with inRoot | covered
    · exact .inl inRoot
    · exact inArea address covered
  exact {
    record := effect.records other different
    freeList := by
      rw [(effect.other inArea different (rep.banks other)).freeList_eq,
        (rep.banks other).freeList_eq]
    blocks := step.blocks_kept onBank different
    notStored := by
      rcases effect.writes.logged with ⟨stores, log, logged⟩
      exact ⟨stores, log, fun address stored inside =>
        outside address inside (logged address stored)⟩
    bytes := fun address inside => effect.writes.kept address (outside address inside) }

end Represents

/-- Over every run, tags name the bank of their block, and a call on one bank is
not noticed by the others. -/
theorem banks_isolated_of_reachable {linker : Linker} {config : Config}
    (reachable : Reachable linker config) :
    TagsCorrect config ∧
      ∀ call after bank, Step config call after → call.bank = some bank →
        ∀ other, other ≠ bank → BankKept linker config after other := by
  rcases reachable.represents with ⟨partitions, rep⟩
  refine ⟨rep.tags_correct, ?_⟩
  exact fun call after bank step onBank other different => rep.bank_kept step onBank different

theorem banks_isolated_of_reachable_first :
    ∃ config, config.live = [firstAllocation] ∧ TagsCorrect config ∧
      ∀ after, Step config (.free firstAllocation) after →
        BankKept lowHeap config after .dramBank3 := by
  rcases reachable_first ⟨fun _ => 0, []⟩ with ⟨state, reachable⟩
  have isolated := banks_isolated_of_reachable reachable
  refine ⟨_, rfl, isolated.1, ?_⟩
  exact fun after step => isolated.2 _ after .sram step rfl .dramBank3 (by decide)

end Vanilla.Mm
