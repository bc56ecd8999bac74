import Vanilla.Mm.Tiling

/-! # Which block a request gets

`mm_alloc` is first fit by address: it fails only when no free block is large
enough, and splits the lowest one that is.
-/

namespace Vanilla.Mm

open ByteMemory

/-- The block size a request needs: the header added, raised to the minimum of
the bank and rounded up to 8. -/
def requestNeed (bank : PhysmemE) (request : Nat) : Nat :=
  (max (request + sizeofMmNode) (bankMinAlloc bank) + 7) / 8 * 8

/-- The lowest of the free blocks that can hold a need. -/
structure LowestFit (free : List Interval) (need : Nat) (fit : Interval) : Prop where
  listed : fit ∈ free
  large : need ≤ fit.size
  lowest : ∀ other ∈ free, need ≤ other.size → fit.addr ≤ other.addr

/-- What a grant takes from the front of the block it fits in. -/
def grantedSize (bank : PhysmemE) (need : Nat) (fit : Interval) : Nat :=
  if fit.size - need < bankMinAlloc bank then fit.size else need

structure FirstFit (state after : MmState) (bank : PhysmemE) (request pointer : Nat)
    (free : List Interval) : Prop where
  /-- A pointer is missing exactly when no block is large enough. -/
  missing : pointer = 0 ↔ ∀ gap ∈ free, gap.size < requestNeed bank request
  unchanged : pointer = 0 → after = state
  granted : pointer ≠ 0 → ∃ fit, LowestFit free (requestNeed bank request) fit ∧
    pointer = fit.addr + sizeofMmNode ∧
    blockOf after pointer = ⟨fit.addr, grantedSize bank (requestNeed bank request) fit⟩ ∧
    (after.physicalMemories bank).allocated = (state.physicalMemories bank).allocated +
      grantedSize bank (requestNeed bank request) fit

section FirstFit

variable {linker : Linker} {config : Config}
  {partitions : (bank : PhysmemE) → BankPartition linker bank}

theorem requestNeed_eq {request : Nat} (requestBound : request ≤ 0xFFFFFFF0) (bank : PhysmemE) :
    blockNeed request (bankMinAlloc bank) = requestNeed bank request :=
  blockNeed_eq requestBound (bankMinAlloc_facts bank).2.1

/-- The block an allocation takes is the front of the lowest fit. -/
theorem lowestFit_of_allocate {bank : PhysmemE} {need : Nat} {free remaining : List Interval}
    {taken : Interval} (separated : Intervals.Separated free)
    (allocated : Intervals.allocate need (bankMinAlloc bank) free = some (taken, remaining)) :
    ∃ fit, LowestFit free need fit ∧ taken = ⟨fit.addr, grantedSize bank need fit⟩ := by
  obtain ⟨left, fit, right, split, small, large, outcome⟩ :=
    Intervals.allocate_eq_some separated allocated
  have lowest : ∀ other ∈ free, need ≤ other.size → fit.addr ≤ other.addr := by
    intro other member otherLarge
    rw [split] at member separated
    cases List.mem_append.mp member with
    | inl early =>
        have tooSmall := small other early
        omega
    | inr late =>
        cases List.mem_cons.mp late with
        | inl same => rw [same]
        | inr later =>
            have apart := (List.pairwise_cons.mp
              (List.pairwise_append.mp separated.gaps).2.1).1 other later
            simp only [Interval.stop] at apart
            omega
  refine ⟨fit, ⟨?_, large, lowest⟩, ?_⟩
  · rw [split]
    exact List.mem_append_right left List.mem_cons_self
  · rw [grantedSize]
    cases outcome with
    | inl splits =>
        obtain ⟨room, equal, _⟩ := splits
        rw [equal, if_neg (by omega)]
    | inr whole =>
        obtain ⟨short, equal, _⟩ := whole
        rw [equal, if_pos (by omega)]

theorem Represents.first_fit (rep : Represents linker config partitions) {request : Nat}
    (requestBound : request ≤ 0xFFFFFFF0) (bank : PhysmemE) :
    ∃ pointer after, (mmAlloc request bank).run config.state = .ok pointer after ∧
      FirstFit config.state after bank request pointer (partitions bank).free := by
  have need := requestNeed_eq requestBound bank
  have missing := @Intervals.allocate_eq_none_iff (blockNeed request (bankMinAlloc bank))
    (bankMinAlloc bank) (partitions bank).free
  rw [need] at missing
  cases outcome : bankAllocate bank request (partitions bank).free with
  | none =>
      rw [bankAllocate, need] at outcome
      refine ⟨0, config.state, rep.null (by rw [bankAllocate, need]; exact outcome), ?_⟩
      exact {
        missing := ⟨fun _ => missing.mp outcome, fun _ => rfl⟩
        unchanged := fun _ => rfl
        granted := fun notNull => absurd rfl notNull }
  | some result =>
      obtain ⟨after, returns, block, changed, _⟩ := rep.alloc requestBound outcome
      have live := (changed.banks bank).allocated
      rw [Function.update_self] at live
      rw [bankAllocate, need] at outcome
      obtain ⟨fit, lowest, taken⟩ := lowestFit_of_allocate (partitions bank).separated outcome
      refine ⟨_, after, returns, ?_⟩
      exact {
        missing := by
          constructor
          · intro null
            omega
          · intro small
            rw [missing.mpr small] at outcome
            cases outcome
        unchanged := by
          intro null
          omega
        granted := by
          intro _
          refine ⟨fit, lowest, ?_, ?_, ?_⟩
          · rw [taken, sizeofMmNode]
          · rw [block, taken]
          · have before := (rep.banks bank).allocated
            rw [live, before]
            change Intervals.total (result.1 :: (partitions bank).live) = _
            rw [Intervals.total_cons, taken, Nat.add_comm] }

end FirstFit

/-- In every reachable state a request up to the largest that does not wrap is
answered by first fit, and the counter grows by the block granted. -/
theorem alloc_first_fit {linker : Linker} {config : Config}
    (reachable : Reachable linker config) (bank : PhysmemE) (request : Nat)
    (requestBound : request ≤ 0xFFFFFFF0) :
    ∃ free pointer after, freeList config.state bank = some free ∧
      (mmAlloc request bank).run config.state = .ok pointer after ∧
      FirstFit config.state after bank request pointer free := by
  obtain ⟨partitions, rep⟩ := reachable.represents
  obtain ⟨pointer, after, returns, fits⟩ := rep.first_fit requestBound bank
  exact ⟨_, pointer, after, (rep.banks bank).freeList_eq, returns, fits⟩

theorem alloc_first_fit_start :
    ∃ free pointer after,
      freeList (mmInit lowHeap ⟨fun _ => 0, []⟩) .sram = some free ∧
      (mmAlloc 100 .sram).run (mmInit lowHeap ⟨fun _ => 0, []⟩) = .ok pointer after ∧
      FirstFit (mmInit lowHeap ⟨fun _ => 0, []⟩) after .sram 100 pointer free :=
  alloc_first_fit ⟨⟨fun _ => 0, []⟩, [], .nil _⟩ .sram 100 (by decide)

end Vanilla.Mm
