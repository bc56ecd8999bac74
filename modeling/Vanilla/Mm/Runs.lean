import Vanilla.Foundation.Run
import Vanilla.Mm.Init
import Vanilla.Mm.Pmalloc
import Vanilla.Mm.Refinement

/-! # Runs of the memory manager

Any interleaving of `mm_alloc` and `mm_free` on the five banks, with their
callers storing into the payloads they own in between.
-/

namespace Vanilla.Mm

open ByteMemory

/-- What the caller of `mm_alloc` knows: the bank and the size it asked for, the
pointer it got, and the block behind the pointer. -/
structure Allocation where
  bank : PhysmemE
  request : Nat
  pointer : Nat
  block : Interval
deriving DecidableEq, Repr

/-- The bytes the caller may use. -/
def Allocation.payload (allocation : Allocation) : Interval :=
  ⟨allocation.pointer, allocation.request⟩

/-- The whole block behind the pointer, up to what the next one starts with. -/
def Allocation.space (allocation : Allocation) : Interval :=
  ⟨allocation.pointer, allocation.block.stop - allocation.pointer⟩

/-- The machine, with the pointers that are live. -/
structure Config where
  state : MmState
  live : List Allocation

/-- The live blocks of one bank. -/
def Config.blocks (config : Config) (bank : PhysmemE) : List Interval :=
  (config.live.filter (fun allocation => allocation.bank = bank)).map Allocation.block

inductive Call where
  | alloc (request : Nat) (bank : PhysmemE)
  | free (allocation : Allocation)
  /-- The owner of a payload stores a byte. -/
  | store (address : Nat) (value : UInt8)
deriving DecidableEq

/-- The bank a call of the memory manager works on. -/
def Call.bank : Call → Option PhysmemE
  | .alloc _ bank => some bank
  | .free allocation => some allocation.bank
  | .store _ _ => none

inductive Step : Config → Call → Config → Prop where
  | alloc {config : Config} {request pointer : Nat} {bank : PhysmemE} {after : MmState} :
      request ≤ 0xFFFFFFF0 → (mmAlloc request bank).run config.state = .ok pointer after →
      pointer ≠ 0 →
      Step config (.alloc request bank)
        ⟨after, ⟨bank, request, pointer, blockOf after pointer⟩ :: config.live⟩
  | allocNull {config : Config} {request : Nat} {bank : PhysmemE} {after : MmState} :
      request ≤ 0xFFFFFFF0 → (mmAlloc request bank).run config.state = .ok 0 after →
      Step config (.alloc request bank) ⟨after, config.live⟩
  | free {config : Config} {allocation : Allocation} {after : MmState} :
      allocation ∈ config.live → (mmFree allocation.pointer).run config.state = .ok () after →
      Step config (.free allocation) ⟨after, config.live.erase allocation⟩
  | store {config : Config} {allocation : Allocation} {address : Nat} {value : UInt8} :
      allocation ∈ config.live → allocation.payload.Holds address →
      Step config (.store address value)
        ⟨{ config.state with memory := config.state.memory.store8 address value },
          config.live⟩

/-- The configurations some run reaches after `mm_init`, on a machine that
starts with any memory. -/
def Reachable (linker : Linker) (config : Config) : Prop :=
  ∃ memory calls, Run Step ⟨mmInit linker memory, []⟩ calls config

/-! ## The invariant -/

/-- Each bank represents a partition whose live blocks are those handed out. -/
structure Represents (linker : Linker) (config : Config)
    (partitions : (bank : PhysmemE) → BankPartition linker bank) : Prop where
  banks : ∀ bank, BankRep linker config.state bank (partitions bank)
  live : ∀ bank, (partitions bank).live.Perm (config.blocks bank)
  pointers : ∀ allocation ∈ config.live, allocation.pointer = allocation.block.addr + 8 ∧
    allocation.request + 8 ≤ allocation.block.size

theorem represents_init (linker : Linker) (memory : ByteMemory) :
    Represents linker ⟨mmInit linker memory, []⟩ (wholeBank linker) where
  banks := mmInit_rep linker memory
  live := fun _ => .nil
  pointers := by simp

section Represents

variable {linker : Linker} {config : Config}
  {partitions : (bank : PhysmemE) → BankPartition linker bank}

theorem Represents.block_live (rep : Represents linker config partitions)
    {allocation : Allocation} (member : allocation ∈ config.live) :
    allocation.block ∈ (partitions allocation.bank).live := by
  apply (rep.live allocation.bank).mem_iff.mpr
  exact List.mem_map_of_mem (List.mem_filter.mpr ⟨member, by simp⟩)

/-- A call on one bank is not noticed by the others. -/
theorem CallEffect.other {bank other : PhysmemE} {owned : List Interval}
    {state after : MmState} (effect : CallEffect linker bank owned state after)
    (owns : ∀ address, Intervals.Covers owned address → BankArea linker bank address)
    (different : other ≠ bank) {partition : BankPartition linker other}
    (rep : BankRep linker state other partition) : BankRep linker after other partition := by
  apply rep.frame (effect.records other different) effect.writes
  intro address header written
  apply bankArea_apart linker different (bankHeader_inArea partition header)
  rcases written with inRoot | covered
  · exact .inl inRoot
  · exact owns address covered

theorem free_inArea {bank : PhysmemE} (partition : BankPartition linker bank) {address : Nat}
    (covered : Intervals.Covers partition.free address) : BankArea linker bank address := by
  have range := (partition.exact address).mpr (.inl covered)
  exact .inr ⟨range.1, by omega⟩

theorem live_inArea {bank : PhysmemE} (partition : BankPartition linker bank) {address : Nat}
    (covered : Intervals.Covers partition.live address) : BankArea linker bank address := by
  have range := (partition.exact address).mpr (.inr covered)
  exact .inr ⟨range.1, by omega⟩

theorem blocks_cons (state : MmState) (allocation : Allocation) (live : List Allocation)
    (bank : PhysmemE) : Config.blocks ⟨state, allocation :: live⟩ bank =
      if allocation.bank = bank then allocation.block :: Config.blocks ⟨state, live⟩ bank
      else Config.blocks ⟨state, live⟩ bank := by
  simp only [Config.blocks, List.filter_cons, decide_eq_true_eq]
  split <;> rfl

/-- A call that changes the partition of its own bank changes no other. -/
theorem Represents.update_banks (rep : Represents linker config partitions)
    {bank : PhysmemE} {partition : BankPartition linker bank} {after : MmState}
    {owned : List Interval} (changed : BankRep linker after bank partition)
    (effect : CallEffect linker bank owned config.state after)
    (owns : ∀ address, Intervals.Covers owned address → BankArea linker bank address)
    (other : PhysmemE) :
    BankRep linker after other (Function.update partitions bank partition other) := by
  by_cases equal : other = bank
  · subst other
    rw [Function.update_self]
    exact changed
  · rw [Function.update_of_ne equal]
    exact effect.other owns equal (rep.banks other)

theorem Represents.null (rep : Represents linker config partitions) {request : Nat}
    {bank : PhysmemE} (missing : bankAllocate bank request (partitions bank).free = none) :
    (mmAlloc request bank).run config.state = .ok 0 config.state :=
  mmAlloc_null (rep.banks bank) missing

theorem BankRep.blockOf_eq {state : MmState} {bank : PhysmemE}
    {partition : BankPartition linker bank} (rep : BankRep linker state bank partition)
    {block : Interval} (member : block ∈ partition.live) :
    blockOf state (block.addr + 8) = block := by
  have size := (rep.live_size member).2
  simp only [blockOf, sizeofMmNode, Nat.add_sub_cancel, size]

/-- A request that some free block can hold. -/
theorem Represents.alloc (rep : Represents linker config partitions) {request : Nat}
    {bank : PhysmemE} (requestBound : request ≤ 0xFFFFFFF0) {taken : Interval}
    {remaining : List Interval}
    (allocated : bankAllocate bank request (partitions bank).free = some (taken, remaining)) :
    ∃ after, (mmAlloc request bank).run config.state = .ok (taken.addr + 8) after ∧
      blockOf after (taken.addr + 8) = taken ∧
      Represents linker ⟨after, ⟨bank, request, taken.addr + 8, taken⟩ :: config.live⟩
        (Function.update partitions bank ((partitions bank).take requestBound allocated)) ∧
      CallEffect linker bank (partitions bank).free config.state after := by
  rcases mmAlloc_some (rep.banks bank) requestBound allocated with
    ⟨after, returns, changed, effect⟩
  have facts := blockNeed_facts requestBound (bankMinAlloc_facts bank).2.1
  have large := Intervals.need_le_taken (partitions bank).separated allocated
  refine ⟨after, returns, changed.blockOf_eq List.mem_cons_self, ?_, effect⟩
  exact {
    banks := rep.update_banks changed effect fun _ => free_inArea (partitions bank)
    live := by
      intro other
      rw [blocks_cons]
      by_cases equal : bank = other
      · subst other
        rw [Function.update_self, if_pos rfl]
        exact (rep.live bank).cons taken
      · rw [Function.update_of_ne (Ne.symm equal), if_neg equal]
        exact rep.live other
    pointers := by
      intro allocation member
      rcases List.mem_cons.mp member with rfl | member
      · exact ⟨rfl, by simp only; omega⟩
      · exact rep.pointers allocation member }

/-- The pages of a request, inside their bank and its to use. -/
structure PageBlock (linker : Linker) (bank : PhysmemE) (request : Nat)
    (allocation : Allocation) : Prop where
  isBank : allocation.bank = bank
  size : allocation.request = request
  above : bankStart linker bank < allocation.pointer
  inside : allocation.pointer + request ≤ bankLast linker bank
  aligned : 8 ∣ allocation.pointer

/-- `pmalloc` takes the first free block that can hold its pages. -/
theorem Represents.pmalloc_some (rep : Represents linker config partitions) {count : Nat}
    {bank : PhysmemE} {taken : Interval} {remaining : List Interval}
    (allocated : bankAllocate bank (u32 (count * 512)) (partitions bank).free =
      some (taken, remaining)) :
    ∃ after live next, (pmalloc count bank).run config.state = .ok (taken.addr + 8) after ∧
      Represents linker ⟨after, live⟩ next ∧ (next bank).free = remaining := by
  have requestBound : u32 (count * 512) ≤ 0xFFFFFFF0 := by
    simp only [u32]
    omega
  rcases rep.alloc requestBound allocated with ⟨after, returns, _, changed, _⟩
  refine ⟨after, _, _, ?_, changed, ?_⟩
  · rw [Mm.pmalloc, Exec.run_bind_of_ok returns, if_neg (by omega)]
    rfl
  · rw [Function.update_self]
    rfl

/-- `pmalloc` panics with nothing changed, or hands out a new block. -/
theorem Represents.pmalloc (rep : Represents linker config partitions) (count : Nat)
    (bank : PhysmemE) (requestBound : u32 (count * 512) ≤ 0xFFFFFFF0) :
    (pmalloc count bank).run config.state = .error (.panic "palloc failed") config.state ∨
      ∃ allocation after next, (pmalloc count bank).run config.state =
          .ok allocation.pointer after ∧
        PageBlock linker bank (u32 (count * 512)) allocation ∧
        Represents linker ⟨after, allocation :: config.live⟩ next := by
  simp only [Mm.pmalloc]
  cases outcome : bankAllocate bank (u32 (count * 512)) (partitions bank).free with
  | none =>
      left
      rw [Exec.run_bind_of_ok (rep.null outcome)]
      rfl
  | some result =>
      right
      rcases rep.alloc requestBound outcome with ⟨after, returns, _, changed, _⟩
      have live := changed.block_live List.mem_cons_self
      have pointer := changed.pointers _ List.mem_cons_self
      refine ⟨⟨bank, u32 (count * 512), result.1.addr + 8, result.1⟩, after, _, ?_, ?_, changed⟩
      · rw [Exec.run_bind_of_ok returns, if_neg (by omega)]
        rfl
      · have aligned := ((Function.update partitions bank _ bank).liveAligned _ live).1
        have range := (Function.update partitions bank _ bank).live_inside live
        simp only [Interval.stop] at range pointer aligned
        exact ⟨rfl, rfl, by simp only; omega, by simp only; omega, by simp only; omega⟩

/-- The blocks that stay when an allocation is released. -/
theorem blocks_erase (state after : MmState) {allocation : Allocation}
    {live : List Allocation} (member : allocation ∈ live) (bank : PhysmemE) :
    (Config.blocks ⟨state, live⟩ bank).Perm
      (if allocation.bank = bank then
        allocation.block :: Config.blocks ⟨after, live.erase allocation⟩ bank
      else Config.blocks ⟨after, live.erase allocation⟩ bank) := by
  have permuted := ((List.perm_cons_erase member).filter
    (fun allocation => decide (allocation.bank = bank))).map Allocation.block
  have equal := blocks_cons after allocation (live.erase allocation) bank
  rw [← equal]
  exact permuted

theorem Represents.free (rep : Represents linker config partitions) {allocation : Allocation}
    (member : allocation ∈ config.live) :
    ∃ after, (mmFree allocation.pointer).run config.state = .ok () after ∧
      Represents linker ⟨after, config.live.erase allocation⟩
        (Function.update partitions allocation.bank
          ((partitions allocation.bank).give (rep.block_live member))) ∧
      CallEffect linker allocation.bank
        (allocation.block :: (partitions allocation.bank).free) config.state after := by
  have live := rep.block_live member
  rcases mmFree_spec (rep.banks allocation.bank) live with ⟨after, returns, changed, effect⟩
  refine ⟨after, ?_, ?_, effect⟩
  · rw [(rep.pointers allocation member).1]
    exact returns
  · have owns : ∀ address,
        Intervals.Covers (allocation.block :: (partitions allocation.bank).free) address →
        BankArea linker allocation.bank address := by
      intro address covered
      rcases (Intervals.covers_cons ..).mp covered with inBlock | inFree
      · exact live_inArea _ ⟨allocation.block, live, inBlock⟩
      · exact free_inArea _ inFree
    exact {
      banks := rep.update_banks changed effect owns
      live := by
        intro other
        have before := blocks_erase config.state after member other
        by_cases equal : allocation.bank = other
        · subst other
          rw [if_pos rfl] at before
          rw [Function.update_self]
          exact (((List.perm_cons_erase live).symm.trans (rep.live _)).trans before).cons_inv
        · rw [if_neg equal] at before
          rw [Function.update_of_ne (Ne.symm equal)]
          exact (rep.live other).trans before
      pointers := fun other otherMember =>
        rep.pointers other (List.mem_of_mem_erase otherMember) }

theorem Represents.space_in_block (rep : Represents linker config partitions)
    {allocation : Allocation} (member : allocation ∈ config.live) {address : Nat}
    (inside : allocation.space.Holds address) : allocation.block.Holds address := by
  have pointer := rep.pointers allocation member
  simp only [Allocation.space, Interval.Holds, Interval.stop] at *
  omega

theorem Represents.payload_in_space (rep : Represents linker config partitions)
    {allocation : Allocation} (member : allocation ∈ config.live) {address : Nat}
    (inside : allocation.payload.Holds address) : allocation.space.Holds address := by
  have pointer := rep.pointers allocation member
  simp only [Allocation.space, Allocation.payload, Interval.Holds, Interval.stop] at *
  omega

/-- Behind its header, a block holds no header of any bank. -/
theorem Represents.space_not_header (rep : Represents linker config partitions)
    {allocation : Allocation} (member : allocation ∈ config.live) {address : Nat}
    (inside : allocation.space.Holds address) (bank : PhysmemE) :
    ¬ BankHeader (partitions bank) address := by
  have live := rep.block_live member
  have pointer := rep.pointers allocation member
  have inBlock := rep.space_in_block member inside
  intro header
  by_cases equal : allocation.bank = bank
  · subst bank
    have below := rootObj_below linker allocation.bank
    have range := (partitions allocation.bank).live_inside live
    rcases header with inRoot | inLast | ⟨gap, gapMember, inGap⟩ | ⟨block, blockMember, inOther⟩
    · simp only [Header, Interval.Holds] at *
      omega
    · simp only [Header, Interval.Holds, Interval.stop] at *
      omega
    · exact (partitions allocation.bank).exclusive address
        (free_header_covered _ gapMember inGap) ⟨allocation.block, live, inBlock⟩
    · have holds := live_header_holds _ blockMember inOther
      by_cases same : allocation.block = block
      · subst same
        simp only [Header, Allocation.space, Interval.Holds] at *
        omega
      · exact ((partitions allocation.bank).live_disjoint live blockMember same).not_holds
          inBlock holds
  · exact bankArea_apart linker equal (live_inArea _ ⟨allocation.block, live, inBlock⟩)
      (bankHeader_inArea _ header)

/-- A payload holds no header of any bank. -/
theorem Represents.payload_not_header (rep : Represents linker config partitions)
    {allocation : Allocation} (member : allocation ∈ config.live) {address : Nat}
    (inside : allocation.payload.Holds address) (bank : PhysmemE) :
    ¬ BankHeader (partitions bank) address :=
  rep.space_not_header member (rep.payload_in_space member inside) bank

/-- Stores in a live block leave the banks as they are. -/
theorem Represents.writes (rep : Represents linker config partitions)
    {allocation : Allocation} (member : allocation ∈ config.live) {memory : ByteMemory}
    (writes : WritesOnly allocation.space.Holds config.state.memory memory) :
    Represents linker ⟨{ config.state with memory := memory }, config.live⟩ partitions where
  banks := fun bank => BankRep.frame (rep.banks bank) rfl writes
    fun _ header inside => rep.space_not_header member inside bank header
  live := rep.live
  pointers := rep.pointers

theorem Represents.store (rep : Represents linker config partitions)
    {allocation : Allocation} (member : allocation ∈ config.live) {address : Nat}
    (inside : allocation.payload.Holds address) (value : UInt8) :
    Represents linker
      ⟨{ config.state with memory := config.state.memory.store8 address value }, config.live⟩
      partitions :=
  rep.writes member (WritesOnly.store8 _ value (rep.payload_in_space member inside))

/-- A pointer comes from an allocation of the bank. -/
theorem Represents.granted (rep : Represents linker config partitions) {request pointer : Nat}
    {bank : PhysmemE} {after : MmState}
    (returns : (mmAlloc request bank).run config.state = .ok pointer after)
    (notNull : pointer ≠ 0) :
    ∃ result, bankAllocate bank request (partitions bank).free = some result := by
  cases outcome : bankAllocate bank request (partitions bank).free with
  | none =>
      have same := returns.symm.trans (rep.null outcome)
      cases same
      exact absurd rfl notNull
  | some result => exact ⟨result, rfl⟩

/-- A refused request changes nothing. -/
theorem Represents.refused (rep : Represents linker config partitions) {request : Nat}
    {bank : PhysmemE} {after : MmState} (requestBound : request ≤ 0xFFFFFFF0)
    (returns : (mmAlloc request bank).run config.state = .ok 0 after) :
    after = config.state := by
  cases outcome : bankAllocate bank request (partitions bank).free with
  | none =>
      have same := returns.symm.trans (rep.null outcome)
      cases same
      rfl
  | some result =>
      rcases rep.alloc requestBound outcome with ⟨state', returns', _⟩
      have same := returns.symm.trans returns'
      cases same

/-- What a call owns: the free blocks of its bank and the block it gives back. -/
def Owned (partitions : (bank : PhysmemE) → BankPartition linker bank) (call : Call)
    (bank : PhysmemE) (address : Nat) : Prop :=
  Intervals.Covers (partitions bank).free address ∨
    ∃ allocation, call = .free allocation ∧ allocation.bank = bank ∧
      allocation.block.Holds address

/-- A call of the memory manager stores in the root and the blocks it owns, and
updates the record of its own bank only. -/
theorem Represents.step_effect (rep : Represents linker config partitions) {call : Call}
    {after : Config} (step : Step config call after) {bank : PhysmemE}
    (onBank : call.bank = some bank) :
    ∃ owned, CallEffect linker bank owned config.state after.state ∧
      ∀ address, Intervals.Covers owned address → Owned partitions call bank address := by
  have quiet : CallEffect linker bank [] config.state config.state :=
    ⟨WritesOnly.refl _ _, fun _ _ => rfl⟩
  cases step with
  | @alloc request pointer _ state requestBound returns notNull =>
      cases onBank
      rcases rep.granted returns notNull with ⟨result, outcome⟩
      rcases rep.alloc requestBound outcome with ⟨state', returns', _, _, effect⟩
      have same := returns.symm.trans returns'
      cases same
      exact ⟨_, effect, fun _ => .inl⟩
  | @allocNull request _ state requestBound returns =>
      cases onBank
      rw [rep.refused requestBound returns]
      exact ⟨_, quiet, by simp⟩
  | @free allocation state member returns =>
      cases onBank
      rcases rep.free member with ⟨state', returns', _, effect⟩
      have same := returns.symm.trans returns'
      cases same
      refine ⟨_, effect, ?_⟩
      intro address covered
      rcases (Intervals.covers_cons ..).mp covered with inBlock | inFree
      · exact .inr ⟨allocation, rfl, rfl, inBlock⟩
      · exact .inl inFree
  | store => cases onBank

/-- Every step keeps a representation. -/
theorem Represents.step (rep : Represents linker config partitions) {call : Call}
    {after : Config} (step : Step config call after) :
    ∃ next, Represents linker after next := by
  cases step with
  | @alloc request pointer bank state requestBound returns notNull =>
      rcases rep.granted returns notNull with ⟨result, outcome⟩
      rcases rep.alloc requestBound outcome with ⟨state', returns', block, changed, _⟩
      have same := returns.symm.trans returns'
      cases same
      rw [block]
      exact ⟨_, changed⟩
  | @allocNull request bank state requestBound returns =>
      rw [rep.refused requestBound returns]
      exact ⟨partitions, rep⟩
  | @free allocation state member returns =>
      rcases rep.free member with ⟨state', returns', changed, _⟩
      have same := returns.symm.trans returns'
      cases same
      exact ⟨_, changed⟩
  | store member inside => exact ⟨partitions, rep.store member inside _⟩

end Represents

theorem Reachable.run {linker : Linker} {config later : Config} {calls : List Call}
    (reachable : Reachable linker config) (run : Run Step config calls later) :
    Reachable linker later := by
  rcases reachable with ⟨memory, earlier, start⟩
  exact ⟨memory, earlier ++ calls, start.append run⟩

theorem Reachable.represents {linker : Linker} {config : Config}
    (reachable : Reachable linker config) :
    ∃ partitions, Represents linker config partitions := by
  rcases reachable with ⟨memory, calls, run⟩
  apply run.invariant (fun config => ∃ partitions, Represents linker config partitions)
  · intro before call after holds step
    rcases holds with ⟨partitions, rep⟩
    exact rep.step step
  · exact ⟨wholeBank linker, represents_init linker memory⟩

end Vanilla.Mm
