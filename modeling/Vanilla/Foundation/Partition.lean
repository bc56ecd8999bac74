import Mathlib.Data.List.Pairwise
import Vanilla.Foundation.Intervals

namespace Vanilla

/-! # A range cut into free and live intervals

The abstract purpose of an allocator: every address of `[start, stop)` belongs
to exactly one interval, and the free ones are kept in canonical form. The two
operations move an interval from one side to the other.
-/

structure Partition (unit start stop : Nat) where
  free : List Interval
  live : List Interval
  separated : Intervals.Separated free
  livePositive : ∀ block ∈ live, 0 < block.size
  liveApart : live.Pairwise Interval.Disjoint
  freeAligned : Intervals.Aligned unit free
  liveAligned : Intervals.Aligned unit live
  exact : ∀ point, (start ≤ point ∧ point < stop) ↔
    Intervals.Covers free point ∨ Intervals.Covers live point
  exclusive : ∀ point, Intervals.Covers free point → ¬ Intervals.Covers live point
  conserved : Intervals.total free + Intervals.total live = stop - start

namespace Partition

open Intervals

variable {unit start stop : Nat}

theorem whole_exact (nonempty : start < stop) (point : Nat) :
    (start ≤ point ∧ point < stop) ↔
      Covers [⟨start, stop - start⟩] point ∨ Covers [] point := by
  simp only [covers_cons, not_covers_nil, or_false, Interval.Holds, Interval.stop]
  omega

/-- The whole range as one free interval. -/
def whole (nonempty : start < stop) (startAligned : unit ∣ start)
    (stopAligned : unit ∣ stop) : Partition unit start stop where
  free := [⟨start, stop - start⟩]
  live := []
  separated := ⟨by simp, by simp only [List.mem_singleton, forall_eq]; omega⟩
  livePositive := by simp
  liveApart := .nil
  freeAligned := (aligned_cons ..).mpr
    ⟨⟨startAligned, Nat.dvd_sub stopAligned startAligned⟩, by simp [Aligned]⟩
  liveAligned := by simp [Aligned]
  exact := whole_exact nonempty
  exclusive := by simp
  conserved := by simp

theorem free_inside (partition : Partition unit start stop) {gap : Interval}
    (member : gap ∈ partition.free) : start ≤ gap.addr ∧ gap.stop ≤ stop := by
  have positive := partition.separated.positive gap member
  have first := (partition.exact gap.addr).mpr
    (.inl ⟨gap, member, by simp only [Interval.Holds, Interval.stop]; omega⟩)
  have last := (partition.exact (gap.stop - 1)).mpr
    (.inl ⟨gap, member, by simp only [Interval.Holds, Interval.stop]; omega⟩)
  simp only [Interval.stop] at *
  omega

theorem live_inside (partition : Partition unit start stop) {block : Interval}
    (member : block ∈ partition.live) : start ≤ block.addr ∧ block.stop ≤ stop := by
  have positive := partition.livePositive block member
  have first := (partition.exact block.addr).mpr
    (.inr ⟨block, member, by simp only [Interval.Holds, Interval.stop]; omega⟩)
  have last := (partition.exact (block.stop - 1)).mpr
    (.inr ⟨block, member, by simp only [Interval.Holds, Interval.stop]; omega⟩)
  simp only [Interval.stop] at *
  omega

theorem apart (partition : Partition unit start stop) {gap block : Interval}
    (gapMember : gap ∈ partition.free) (blockMember : block ∈ partition.live) :
    gap.Disjoint block :=
  Interval.disjoint_of_no_common (partition.separated.positive gap gapMember)
    (partition.livePositive block blockMember)
    fun point inGap inBlock => partition.exclusive point ⟨gap, gapMember, inGap⟩
      ⟨block, blockMember, inBlock⟩

theorem live_nodup (partition : Partition unit start stop) : partition.live.Nodup := by
  apply partition.liveApart.imp_of_mem
  intro left right leftMember _ disjoint equal
  subst right
  have positive := partition.livePositive left leftMember
  simp only [Interval.Disjoint, Interval.stop] at disjoint
  omega

/-- Different live blocks are apart, whatever their order in the list. -/
theorem live_disjoint (partition : Partition unit start stop) {left right : Interval}
    (leftMember : left ∈ partition.live) (rightMember : right ∈ partition.live)
    (different : left ≠ right) : left.Disjoint right :=
  haveI : Std.Symm Interval.Disjoint := ⟨fun _ _ disjoint => disjoint.symm⟩
  partition.liveApart.forall leftMember rightMember different

/-- The free side is a function of the live blocks. -/
theorem free_eq_of_live_eq {left right : Partition unit start stop}
    (same : ∀ block, block ∈ left.live ↔ block ∈ right.live) :
    left.free = right.free := by
  apply left.separated.ext right.separated
  intro point
  have leftExact := left.exact point
  have rightExact := right.exact point
  have leftExclusive := left.exclusive point
  have rightExclusive := right.exclusive point
  have liveSame := covers_congr same point
  tauto

/-- Move a first fit from the free side to the live side. -/
def take (partition : Partition unit start stop) {need least : Nat}
    (needPositive : 0 < need) (needAligned : unit ∣ need) (leastPositive : 0 < least)
    {taken : Interval} {remaining : List Interval}
    (allocated : allocate need least partition.free = some (taken, remaining)) :
    Partition unit start stop where
  free := remaining
  live := taken :: partition.live
  separated := separated_allocate partition.separated leastPositive allocated
  livePositive := by
    intro block member
    rcases List.mem_cons.mp member with rfl | member
    · exact Nat.lt_of_lt_of_le needPositive (need_le_taken partition.separated allocated)
    · exact partition.livePositive block member
  liveApart := by
    refine List.pairwise_cons.mpr ⟨?_, partition.liveApart⟩
    intro block member
    apply Interval.disjoint_of_no_common
    · exact Nat.lt_of_lt_of_le needPositive (need_le_taken partition.separated allocated)
    · exact partition.livePositive block member
    · intro point inTaken inBlock
      exact partition.exclusive point
        ((covers_allocate partition.separated allocated point).mpr (.inl inTaken))
        ⟨block, member, inBlock⟩
  freeAligned := ((aligned_cons ..).mp (aligned_allocate partition.separated
    partition.freeAligned needAligned allocated)).2
  liveAligned := (aligned_cons ..).mpr ⟨((aligned_cons ..).mp (aligned_allocate
    partition.separated partition.freeAligned needAligned allocated)).1,
    partition.liveAligned⟩
  exact := by
    intro point
    rw [partition.exact, covers_allocate partition.separated allocated, covers_cons]
    tauto
  exclusive := by
    intro point covered
    have wasFree := (covers_allocate partition.separated allocated point).mpr (.inr covered)
    rw [covers_cons]
    intro alsoLive
    rcases alsoLive with inTaken | live
    · exact not_covers_remaining partition.separated allocated inTaken covered
    · exact partition.exclusive point wasFree live
  conserved := by
    have whole := partition.conserved
    rw [total_allocate partition.separated allocated] at whole
    simp only [total_cons]
    omega

section Give

variable (partition : Partition unit start stop) {block : Interval}

theorem give_separated (member : block ∈ partition.live) :
    Separated (release block partition.free) :=
  separated_release partition.separated (partition.livePositive block member)
    fun _ gapMember => partition.apart gapMember member

theorem give_livePositive : ∀ other ∈ partition.live.erase block, 0 < other.size := by
  intro other otherMember
  exact partition.livePositive other (List.mem_of_mem_erase otherMember)

theorem give_liveApart : (partition.live.erase block).Pairwise Interval.Disjoint :=
  partition.liveApart.sublist List.erase_sublist

theorem give_freeAligned (member : block ∈ partition.live) :
    Aligned unit (release block partition.free) :=
  aligned_release ((aligned_cons ..).mpr
    ⟨partition.liveAligned block member, partition.freeAligned⟩)

theorem give_liveAligned : Aligned unit (partition.live.erase block) := by
  intro other otherMember
  exact partition.liveAligned other (List.mem_of_mem_erase otherMember)

theorem give_exact (member : block ∈ partition.live) (point : Nat) :
    (start ≤ point ∧ point < stop) ↔ Covers (release block partition.free) point ∨
      Covers (partition.live.erase block) point := by
  rw [partition.exact, covers_release]
  have split : Covers partition.live point ↔
      block.Holds point ∨ Covers (partition.live.erase block) point := by
    rw [covers_congr fun _ => (List.perm_cons_erase member).mem_iff, covers_cons]
  rw [split]
  tauto

theorem give_exclusive (member : block ∈ partition.live) (point : Nat)
    (covered : Covers (release block partition.free) point) :
    ¬ Covers (partition.live.erase block) point := by
  intro live
  rcases live with ⟨other, otherMember, inOther⟩
  have otherLive := List.mem_of_mem_erase otherMember
  rcases (covers_release ..).mp covered with inBlock | free
  · have different : block ≠ other := by
      intro equal
      subst other
      exact partition.live_nodup.not_mem_erase otherMember
    exact (partition.live_disjoint member otherLive different).not_holds inBlock inOther
  · exact partition.exclusive point free ⟨other, otherLive, inOther⟩

theorem give_conserved (member : block ∈ partition.live) :
    total (release block partition.free) + total (partition.live.erase block) =
      stop - start := by
  have whole := partition.conserved
  have sizes := ((List.perm_cons_erase member).map Interval.size).sum_eq
  simp only [total_release]
  simp only [total, List.map_cons, List.sum_cons] at whole sizes ⊢
  omega

end Give

/-- Move a live block back to the free side. -/
def give (partition : Partition unit start stop) {block : Interval}
    (member : block ∈ partition.live) : Partition unit start stop where
  free := release block partition.free
  live := partition.live.erase block
  separated := partition.give_separated member
  livePositive := partition.give_livePositive
  liveApart := partition.give_liveApart
  freeAligned := partition.give_freeAligned member
  liveAligned := partition.give_liveAligned
  exact := partition.give_exact member
  exclusive := partition.give_exclusive member
  conserved := partition.give_conserved member

end Partition

end Vanilla
