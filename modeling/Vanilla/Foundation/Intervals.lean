import Mathlib.Algebra.Ring.Nat
import Mathlib.Data.List.Basic
import Mathlib.Data.List.Perm.Basic
import Mathlib.Algebra.BigOperators.Group.List.Basic

namespace Vanilla

/-! # Half-open address intervals

Ordered lists of intervals that never touch are a canonical form for the set
of addresses they cover. `release` adds an interval and merges it with its
neighbours, `allocate` takes a first fit out and gives the rest back.
-/

structure Interval where
  addr : Nat
  size : Nat
deriving DecidableEq, Repr

namespace Interval

def stop (interval : Interval) : Nat := interval.addr + interval.size

def Holds (interval : Interval) (point : Nat) : Prop :=
  interval.addr ≤ point ∧ point < interval.stop

instance (interval : Interval) (point : Nat) : Decidable (interval.Holds point) :=
  inferInstanceAs (Decidable (_ ∧ _))

def Disjoint (left right : Interval) : Prop :=
  left.stop ≤ right.addr ∨ right.stop ≤ left.addr

def Within (inner outer : Interval) : Prop :=
  outer.addr ≤ inner.addr ∧ inner.stop ≤ outer.stop

theorem Disjoint.symm {left right : Interval} (disjoint : left.Disjoint right) :
    right.Disjoint left := Or.symm disjoint

theorem Disjoint.not_holds {left right : Interval} (disjoint : left.Disjoint right)
    {point : Nat} (inside : left.Holds point) : ¬ right.Holds point := by
  simp only [Disjoint, Holds, stop] at *
  omega

/-- Nonempty intervals without a common point are apart. -/
theorem disjoint_of_no_common {left right : Interval} (leftPositive : 0 < left.size)
    (rightPositive : 0 < right.size)
    (apart : ∀ point, left.Holds point → ¬ right.Holds point) :
    left.Disjoint right := by
  by_contra overlap
  have atLeft := apart left.addr
  have atRight := apart right.addr
  simp only [Disjoint, Holds, stop] at *
  omega

end Interval

namespace Intervals

def Covers (list : List Interval) (point : Nat) : Prop :=
  ∃ interval ∈ list, interval.Holds point

def total (list : List Interval) : Nat := (list.map Interval.size).sum

/-- Increasing, nonempty, and with a gap between any two neighbours. -/
structure Separated (list : List Interval) : Prop where
  gaps : list.Pairwise fun left right => left.stop < right.addr
  positive : ∀ interval ∈ list, 0 < interval.size

@[simp] theorem not_covers_nil (point : Nat) : ¬ Covers [] point := by
  simp [Covers]

@[simp] theorem covers_cons (head : Interval) (rest : List Interval) (point : Nat) :
    Covers (head :: rest) point ↔ head.Holds point ∨ Covers rest point := by
  simp [Covers]

@[simp] theorem covers_append (left right : List Interval) (point : Nat) :
    Covers (left ++ right) point ↔ Covers left point ∨ Covers right point := by
  simp only [Covers, List.mem_append]
  constructor
  · intro covered
    rcases covered with ⟨interval, member | member, inside⟩
    · exact .inl ⟨interval, member, inside⟩
    · exact .inr ⟨interval, member, inside⟩
  · intro covered
    rcases covered with ⟨interval, member, inside⟩ | ⟨interval, member, inside⟩
    · exact ⟨interval, .inl member, inside⟩
    · exact ⟨interval, .inr member, inside⟩

theorem covers_congr {left right : List Interval}
    (same : ∀ interval, interval ∈ left ↔ interval ∈ right) (point : Nat) :
    Covers left point ↔ Covers right point := by
  simp [Covers, same]

@[simp] theorem total_nil : total [] = 0 := rfl

@[simp] theorem total_cons (head : Interval) (rest : List Interval) :
    total (head :: rest) = head.size + total rest := by
  simp [total]

@[simp] theorem total_append (left right : List Interval) :
    total (left ++ right) = total left + total right := by
  simp [total]

theorem size_le_total {list : List Interval} {interval : Interval}
    (member : interval ∈ list) : interval.size ≤ total list := by
  induction list with
  | nil => cases member
  | cons head rest induction =>
      rcases List.mem_cons.mp member with equal | member
      · subst head
        simp
      · have bound := induction member
        simp only [total_cons]
        omega

theorem length_le_total {list : List Interval} (positive : ∀ interval ∈ list, 0 < interval.size) :
    list.length ≤ total list := by
  induction list with
  | nil => simp
  | cons head rest induction =>
      have headPositive := positive head List.mem_cons_self
      have restBound := induction fun interval member =>
        positive interval (List.mem_cons_of_mem _ member)
      simp only [List.length_cons, total_cons]
      omega

/-! ## Canonicity -/

theorem Separated.tail {head : Interval} {rest : List Interval}
    (separated : Separated (head :: rest)) : Separated rest :=
  ⟨(List.pairwise_cons.mp separated.gaps).2,
    fun interval member => separated.positive interval (List.mem_cons_of_mem _ member)⟩

theorem Separated.head_lt {head : Interval} {rest : List Interval}
    (separated : Separated (head :: rest)) {interval : Interval}
    (member : interval ∈ rest) : head.stop < interval.addr :=
  (List.pairwise_cons.mp separated.gaps).1 interval member

theorem Separated.of_append {left right : List Interval}
    (separated : Separated (left ++ right)) : Separated left ∧ Separated right := by
  have gaps := List.pairwise_append.mp separated.gaps
  exact ⟨⟨gaps.1, fun interval member =>
      separated.positive interval (List.mem_append_left _ member)⟩,
    ⟨gaps.2.1, fun interval member =>
      separated.positive interval (List.mem_append_right _ member)⟩⟩

/-- Cut a separated list at an address. -/
theorem Separated.split_at {list : List Interval} (separated : Separated list) (addr : Nat) :
    ∃ left right, list = left ++ right ∧ (∀ interval ∈ left, interval.addr < addr) ∧
      ∀ interval ∈ right, addr ≤ interval.addr := by
  induction list with
  | nil => exact ⟨[], [], rfl, by simp, by simp⟩
  | cons head rest induction =>
      by_cases earlier : head.addr < addr
      · rcases induction separated.tail with ⟨left, right, equal, before, after⟩
        refine ⟨head :: left, right, by rw [equal, List.cons_append], ?_, after⟩
        intro interval member
        rcases List.mem_cons.mp member with rfl | member
        · exact earlier
        · exact before interval member
      · refine ⟨[], head :: rest, rfl, by simp, ?_⟩
        intro interval member
        rcases List.mem_cons.mp member with rfl | member
        · omega
        · have later := separated.head_lt member
          simp only [Interval.stop] at later
          omega

theorem Separated.erase {left right : List Interval} {middle : Interval}
    (separated : Separated (left ++ middle :: right)) : Separated (left ++ right) := by
  have sublist : (left ++ right).Sublist (left ++ middle :: right) :=
    List.Sublist.append (List.Sublist.refl left) (List.sublist_cons_self middle right)
  exact ⟨separated.gaps.sublist sublist,
    fun interval member => separated.positive interval (sublist.mem member)⟩

/-- No other member of a separated list holds a point of `middle`. -/
theorem Separated.not_covers_erase {left right : List Interval} {middle : Interval}
    (separated : Separated (left ++ middle :: right)) {point : Nat}
    (inside : middle.Holds point) : ¬ Covers (left ++ right) point := by
  have gaps := List.pairwise_append.mp separated.gaps
  intro covered
  rcases covered with ⟨interval, member, other⟩
  rcases List.mem_append.mp member with member | member
  · have before := gaps.2.2 interval member middle List.mem_cons_self
    simp only [Interval.Holds, Interval.stop] at *
    omega
  · have after := (List.pairwise_cons.mp gaps.2.1).1 interval member
    simp only [Interval.Holds, Interval.stop] at *
    omega

/-- A separated list starts exactly where its cover starts. -/
private theorem head_addr_le {head : Interval} {rest : List Interval}
    (separated : Separated (head :: rest)) {point : Nat}
    (covered : Covers (head :: rest) point) : head.addr ≤ point := by
  rcases (covers_cons _ _ _).mp covered with inside | ⟨interval, member, inside⟩
  · exact inside.1
  · have later := separated.head_lt member
    simp only [Interval.Holds, Interval.stop] at *
    omega

private theorem head_stop_not_covered {head : Interval} {rest : List Interval}
    (separated : Separated (head :: rest)) : ¬ Covers (head :: rest) head.stop := by
  intro covered
  rcases (covers_cons _ _ _).mp covered with inside | ⟨interval, member, inside⟩
  · exact Nat.lt_irrefl _ inside.2
  · have later := separated.head_lt member
    exact Nat.not_le_of_lt later inside.1

private theorem head_holds_addr {head : Interval} {rest : List Interval}
    (separated : Separated (head :: rest)) : head.Holds head.addr := by
  have positive := separated.positive head List.mem_cons_self
  simp only [Interval.Holds, Interval.stop]
  omega

private theorem rest_covers_iff {head : Interval} {rest : List Interval}
    (separated : Separated (head :: rest)) (point : Nat) :
    Covers rest point ↔ Covers (head :: rest) point ∧ head.stop ≤ point := by
  constructor
  · intro covered
    rcases covered with ⟨interval, member, inside⟩
    have later := separated.head_lt member
    exact ⟨⟨interval, List.mem_cons_of_mem _ member, inside⟩,
      Nat.le_of_lt (Nat.lt_of_lt_of_le later inside.1)⟩
  · intro covered
    rcases (covers_cons _ _ _).mp covered.1 with inside | inside
    · exact absurd inside.2 (Nat.not_lt_of_le covered.2)
    · exact inside

/-- Two separated lists with the same cover are the same list. -/
theorem Separated.ext : ∀ {left right : List Interval},
    Separated left → Separated right →
    (∀ point, Covers left point ↔ Covers right point) → left = right
  | [], [], _, _, _ => rfl
  | [], head :: rest, _, separated, same => by
      have covered : Covers (head :: rest) head.addr :=
        (covers_cons _ _ _).mpr (.inl (head_holds_addr separated))
      exact absurd ((same _).mpr covered) (not_covers_nil _)
  | head :: rest, [], separated, _, same => by
      have covered : Covers (head :: rest) head.addr :=
        (covers_cons _ _ _).mpr (.inl (head_holds_addr separated))
      exact absurd ((same _).mp covered) (not_covers_nil _)
  | head :: rest, other :: others, leftSeparated, rightSeparated, same => by
      have headHolds := head_holds_addr leftSeparated
      have otherHolds := head_holds_addr rightSeparated
      have addrEqual : head.addr = other.addr := by
        apply Nat.le_antisymm
        · exact head_addr_le leftSeparated ((same _).mpr
            ((covers_cons _ _ _).mpr (.inl otherHolds)))
        · exact head_addr_le rightSeparated ((same _).mp
            ((covers_cons _ _ _).mpr (.inl headHolds)))
      -- the end of either head is not covered, so neither head runs past the other
      have stopEqual : head.stop = other.stop := by
        by_contra different
        rcases Nat.lt_or_gt_of_ne different with shorter | longer
        · apply head_stop_not_covered leftSeparated
          apply (same _).mpr
          apply (covers_cons _ _ _).mpr
          left
          simp only [Interval.Holds, Interval.stop] at *
          omega
        · apply head_stop_not_covered rightSeparated
          apply (same _).mp
          apply (covers_cons _ _ _).mpr
          left
          simp only [Interval.Holds, Interval.stop] at *
          omega
      have headEqual : head = other := by
        cases head
        cases other
        simp only [Interval.stop] at addrEqual stopEqual
        simp only [Interval.mk.injEq]
        omega
      subst headEqual
      have restEqual := Separated.ext leftSeparated.tail rightSeparated.tail
        fun point => by
          rw [rest_covers_iff leftSeparated, rest_covers_iff rightSeparated, same]
      rw [restEqual]

/-! ## Giving an interval back -/

/-- Put `block` in front of the list, merging it with a head it touches. -/
def absorb (block : Interval) : List Interval → List Interval
  | [] => [block]
  | head :: rest =>
      if block.stop = head.addr then ⟨block.addr, block.size + head.size⟩ :: rest
      else block :: head :: rest

/-- Insert `block` in address order, merging it with the neighbours it touches. -/
def release (block : Interval) : List Interval → List Interval
  | [] => [block]
  | head :: rest =>
      if head.addr < block.addr then
        if head.stop = block.addr then absorb ⟨head.addr, head.size + block.size⟩ rest
        else head :: release block rest
      else absorb block (head :: rest)

@[simp] theorem covers_absorb (block : Interval) (list : List Interval) (point : Nat) :
    Covers (absorb block list) point ↔ block.Holds point ∨ Covers list point := by
  cases list with
  | nil => simp [absorb]
  | cons head rest =>
      simp only [absorb]
      split
      · rename_i touches
        simp only [covers_cons, ← or_assoc]
        apply or_congr_left
        simp only [Interval.Holds, Interval.stop] at *
        omega
      · simp

@[simp] theorem covers_release (block : Interval) (list : List Interval) (point : Nat) :
    Covers (release block list) point ↔ block.Holds point ∨ Covers list point := by
  induction list with
  | nil => simp [release]
  | cons head rest induction =>
      simp only [release]
      split
      · split
        · rename_i touches
          simp only [covers_absorb, covers_cons, ← or_assoc]
          apply or_congr_left
          simp only [Interval.Holds, Interval.stop] at *
          omega
        · simp only [covers_cons, induction]
          exact or_left_comm
      · exact covers_absorb block (head :: rest) point

@[simp] theorem total_absorb (block : Interval) (list : List Interval) :
    total (absorb block list) = block.size + total list := by
  cases list with
  | nil => simp [absorb]
  | cons head rest =>
      simp only [absorb]
      split
      · simp only [total_cons]
        omega
      · simp

@[simp] theorem total_release (block : Interval) (list : List Interval) :
    total (release block list) = block.size + total list := by
  induction list with
  | nil => simp [release]
  | cons head rest induction =>
      simp only [release]
      split
      · split
        · simp only [total_absorb, total_cons]
          omega
        · simp only [total_cons, induction]
          omega
      · exact total_absorb block (head :: rest)

/-- Every interval of the result starts where an input interval starts. -/
theorem addr_of_mem_absorb {block interval : Interval} {list : List Interval}
    (member : interval ∈ absorb block list) :
    interval.addr = block.addr ∨ ∃ old ∈ list, interval.addr = old.addr := by
  cases list with
  | nil =>
      simp only [absorb, List.mem_singleton] at member
      exact .inl (congrArg Interval.addr member)
  | cons head rest =>
      simp only [absorb] at member
      split at member
      · rcases List.mem_cons.mp member with equal | member
        · exact .inl (by rw [equal])
        · exact .inr ⟨interval, List.mem_cons_of_mem _ member, rfl⟩
      · rcases List.mem_cons.mp member with equal | member
        · exact .inl (congrArg Interval.addr equal)
        · exact .inr ⟨interval, member, rfl⟩

theorem addr_of_mem_release {block interval : Interval} {list : List Interval}
    (member : interval ∈ release block list) :
    interval.addr = block.addr ∨ ∃ old ∈ list, interval.addr = old.addr := by
  induction list with
  | nil =>
      simp only [release, List.mem_singleton] at member
      exact .inl (congrArg Interval.addr member)
  | cons head rest induction =>
      simp only [release] at member
      split at member
      · split at member
        · rcases addr_of_mem_absorb member with equal | ⟨old, oldMember, equal⟩
          · exact .inr ⟨head, List.mem_cons_self, equal⟩
          · exact .inr ⟨old, List.mem_cons_of_mem _ oldMember, equal⟩
        · rcases List.mem_cons.mp member with equal | member
          · exact .inr ⟨head, List.mem_cons_self, congrArg Interval.addr equal⟩
          · rcases induction member with equal | ⟨old, oldMember, equal⟩
            · exact .inl equal
            · exact .inr ⟨old, List.mem_cons_of_mem _ oldMember, equal⟩
      · exact addr_of_mem_absorb member

theorem separated_absorb {block : Interval} {list : List Interval}
    (separated : Separated list) (positive : 0 < block.size)
    (before : ∀ interval ∈ list, block.stop ≤ interval.addr) :
    Separated (absorb block list) := by
  cases list with
  | nil =>
      refine ⟨by simp [absorb], ?_⟩
      intro interval member
      simp only [absorb, List.mem_singleton] at member
      exact member ▸ positive
  | cons head rest =>
      have headPositive := separated.positive head List.mem_cons_self
      have headBefore := before head List.mem_cons_self
      simp only [absorb]
      split
      · refine ⟨List.pairwise_cons.mpr ⟨?_, separated.tail.gaps⟩, ?_⟩
        · intro interval member
          have later := separated.head_lt member
          simp only [Interval.stop] at *
          omega
        · intro interval member
          rcases List.mem_cons.mp member with equal | member
          · subst interval
            exact Nat.lt_of_lt_of_le positive (Nat.le_add_right _ _)
          · exact separated.tail.positive interval member
      · rename_i touchesNot
        refine ⟨List.pairwise_cons.mpr ⟨?_, separated.gaps⟩, ?_⟩
        · intro interval member
          rcases List.mem_cons.mp member with equal | member
          · subst interval
            omega
          · have later := separated.head_lt member
            simp only [Interval.stop] at *
            omega
        · intro interval member
          rcases List.mem_cons.mp member with equal | member
          · exact equal ▸ positive
          · exact separated.positive interval member

/-- Giving back an interval that overlaps nothing keeps the list separated. -/
theorem separated_release {block : Interval} {list : List Interval}
    (separated : Separated list) (positive : 0 < block.size)
    (disjoint : ∀ interval ∈ list, interval.Disjoint block) :
    Separated (release block list) := by
  induction list with
  | nil => exact separated_absorb separated positive (by simp)
  | cons head rest induction =>
      have headPositive := separated.positive head List.mem_cons_self
      have headDisjoint := disjoint head List.mem_cons_self
      have restDisjoint : ∀ interval ∈ rest, interval.Disjoint block :=
        fun interval member => disjoint interval (List.mem_cons_of_mem _ member)
      simp only [release]
      split
      · rename_i earlier
        have headStop : head.stop ≤ block.addr := by
          simp only [Interval.Disjoint, Interval.stop] at *
          omega
        split
        · apply separated_absorb separated.tail
          · exact Nat.lt_of_lt_of_le headPositive (Nat.le_add_right _ _)
          · intro interval member
            have later := separated.head_lt member
            have apart := restDisjoint interval member
            have intervalPositive := separated.tail.positive interval member
            simp only [Interval.Disjoint, Interval.stop] at *
            omega
        · have restSeparated := induction separated.tail restDisjoint
          refine ⟨List.pairwise_cons.mpr ⟨?_, restSeparated.gaps⟩, ?_⟩
          · intro interval member
            rcases addr_of_mem_release member with equal | ⟨old, oldMember, equal⟩
            · omega
            · rw [equal]
              exact separated.head_lt oldMember
          · intro interval member
            rcases List.mem_cons.mp member with equal | member
            · exact equal ▸ headPositive
            · exact restSeparated.positive interval member
      · rename_i later
        apply separated_absorb separated positive
        intro interval member
        rcases List.mem_cons.mp member with equal | member
        · subst interval
          simp only [Interval.Disjoint, Interval.stop] at *
          omega
        · have after := separated.head_lt member
          simp only [Interval.Disjoint, Interval.stop] at *
          omega

/-- `release` skips the intervals that end before the block without touching it. -/
theorem release_append_of_lt {block : Interval} {left right : List Interval}
    (earlier : ∀ interval ∈ left, interval.addr < block.addr ∧ interval.stop ≠ block.addr) :
    release block (left ++ right) = left ++ release block right := by
  induction left with
  | nil => rfl
  | cons head rest induction =>
      have headEarlier := earlier head List.mem_cons_self
      simp only [List.cons_append, release, if_pos headEarlier.1, if_neg headEarlier.2]
      rw [induction fun interval member => earlier interval (List.mem_cons_of_mem _ member)]

/-! ## Alignment -/

def Aligned (unit : Nat) (list : List Interval) : Prop :=
  ∀ interval ∈ list, unit ∣ interval.addr ∧ unit ∣ interval.size

@[simp] theorem aligned_cons (unit : Nat) (head : Interval) (rest : List Interval) :
    Aligned unit (head :: rest) ↔
      (unit ∣ head.addr ∧ unit ∣ head.size) ∧ Aligned unit rest := by
  simp [Aligned]

theorem aligned_absorb {unit : Nat} {block : Interval} {list : List Interval}
    (aligned : Aligned unit (block :: list)) : Aligned unit (absorb block list) := by
  cases list with
  | nil => exact aligned
  | cons head rest =>
      rcases (aligned_cons ..).mp aligned with ⟨blockAligned, listAligned⟩
      rcases (aligned_cons ..).mp listAligned with ⟨headAligned, restAligned⟩
      simp only [absorb]
      split
      · exact (aligned_cons ..).mpr
          ⟨⟨blockAligned.1, Nat.dvd_add blockAligned.2 headAligned.2⟩, restAligned⟩
      · exact aligned

theorem aligned_release {unit : Nat} {block : Interval} {list : List Interval}
    (aligned : Aligned unit (block :: list)) : Aligned unit (release block list) := by
  induction list with
  | nil => exact aligned
  | cons head rest induction =>
      rcases (aligned_cons ..).mp aligned with ⟨blockAligned, listAligned⟩
      rcases (aligned_cons ..).mp listAligned with ⟨headAligned, restAligned⟩
      simp only [release]
      split
      · split
        · exact aligned_absorb ((aligned_cons ..).mpr
            ⟨⟨headAligned.1, Nat.dvd_add headAligned.2 blockAligned.2⟩, restAligned⟩)
        · exact (aligned_cons ..).mpr ⟨headAligned,
            induction ((aligned_cons ..).mpr ⟨blockAligned, restAligned⟩)⟩
      · exact aligned_absorb aligned

/-! ## First fit -/

/-- Take `need` out of the first interval that is large enough, or the whole
interval when less than `least` would remain. The remainder is given back. -/
def allocate (need least : Nat) (list : List Interval) :
    Option (Interval × List Interval) :=
  match list.find? (fun interval => decide (need ≤ interval.size)) with
  | none => none
  | some fit =>
      if need + least ≤ fit.size then
        some (⟨fit.addr, need⟩,
          release ⟨fit.addr + need, fit.size - need⟩ (list.erase fit))
      else some (fit, list.erase fit)

theorem allocate_eq_none_iff {need least : Nat} {list : List Interval} :
    allocate need least list = none ↔ ∀ interval ∈ list, interval.size < need := by
  simp only [allocate]
  split
  · rename_i missing
    simpa using missing
  · rename_i fit found
    have large : need ≤ fit.size := by simpa using List.find?_some found
    have member := List.mem_of_find?_eq_some found
    constructor
    · intro impossible
      split at impossible <;> cases impossible
    · intro small
      exact absurd large (Nat.not_le_of_lt (small fit member))

/-- What an allocation is: a fit found after intervals that are all too small,
and either its front `need` bytes or all of it. -/
theorem allocate_eq_some {need least : Nat} {list remaining : List Interval}
    {taken : Interval} (separated : Separated list)
    (allocated : allocate need least list = some (taken, remaining)) :
    ∃ left fit right, list = left ++ fit :: right ∧
      (∀ interval ∈ left, interval.size < need) ∧ need ≤ fit.size ∧
      (need + least ≤ fit.size ∧ taken = ⟨fit.addr, need⟩ ∧
          remaining = release ⟨fit.addr + need, fit.size - need⟩ (left ++ right) ∨
        fit.size < need + least ∧ taken = fit ∧ remaining = left ++ right) := by
  simp only [allocate] at allocated
  split at allocated
  · cases allocated
  · rename_i fit found
    rcases List.find?_eq_some_iff_append.mp found with ⟨large, left, right, split, small⟩
    have absent : fit ∉ left := by
      intro member
      have apart := (List.pairwise_append.mp (split ▸ separated.gaps)).2.2 fit member fit
        List.mem_cons_self
      simp only [Interval.stop] at apart
      omega
    have erased : list.erase fit = left ++ right := by
      rw [split, List.erase_append_right _ absent, List.erase_cons_head]
    refine ⟨left, fit, right, split, by simpa using small, by simpa using large, ?_⟩
    rw [erased] at allocated
    split at allocated
    · rename_i splits
      cases allocated
      exact .inl ⟨splits, rfl, rfl⟩
    · rename_i whole
      cases allocated
      exact .inr ⟨by omega, rfl, rfl⟩

section Allocation

variable {need least : Nat} {list remaining : List Interval} {taken : Interval}

theorem covers_allocate (separated : Separated list)
    (allocated : allocate need least list = some (taken, remaining)) (point : Nat) :
    Covers list point ↔ taken.Holds point ∨ Covers remaining point := by
  rcases allocate_eq_some separated allocated with
    ⟨left, fit, right, rfl, _, large, ⟨_, rfl, rfl⟩ | ⟨_, rfl, rfl⟩⟩
  · have cut : fit.Holds point ↔ Interval.Holds ⟨fit.addr, need⟩ point ∨
        Interval.Holds ⟨fit.addr + need, fit.size - need⟩ point := by
      simp only [Interval.Holds, Interval.stop]
      omega
    simp only [covers_append, covers_cons, covers_release, cut]
    tauto
  · simp only [covers_append, covers_cons]
    tauto

theorem not_covers_remaining (separated : Separated list)
    (allocated : allocate need least list = some (taken, remaining)) {point : Nat}
    (inside : taken.Holds point) : ¬ Covers remaining point := by
  rcases allocate_eq_some separated allocated with
    ⟨left, fit, right, rfl, _, large, ⟨_, rfl, rfl⟩ | ⟨_, rfl, rfl⟩⟩
  · have inFit : fit.Holds point := by
      simp only [Interval.Holds, Interval.stop] at *
      omega
    rw [covers_release]
    intro covered
    rcases covered with behind | other
    · simp only [Interval.Holds, Interval.stop] at *
      omega
    · exact separated.not_covers_erase inFit other
  · exact separated.not_covers_erase inside

theorem total_allocate (separated : Separated list)
    (allocated : allocate need least list = some (taken, remaining)) :
    total list = taken.size + total remaining := by
  rcases allocate_eq_some separated allocated with
    ⟨left, fit, right, rfl, _, large, ⟨_, rfl, rfl⟩ | ⟨_, rfl, rfl⟩⟩
  · simp only [total_append, total_cons, total_release]
    omega
  · simp only [total_append, total_cons]
    omega

theorem need_le_taken (separated : Separated list)
    (allocated : allocate need least list = some (taken, remaining)) :
    need ≤ taken.size := by
  rcases allocate_eq_some separated allocated with
    ⟨left, fit, right, rfl, _, large, ⟨_, rfl, _⟩ | ⟨_, rfl, _⟩⟩
  · exact Nat.le_refl need
  · exact large

theorem separated_allocate (separated : Separated list) (leastPositive : 0 < least)
    (allocated : allocate need least list = some (taken, remaining)) :
    Separated remaining := by
  rcases allocate_eq_some separated allocated with
    ⟨left, fit, right, rfl, _, large, ⟨splits, rfl, rfl⟩ | ⟨_, rfl, rfl⟩⟩
  · have positive : 0 < fit.size - need := by omega
    apply separated_release separated.erase positive
    intro interval member
    apply Interval.disjoint_of_no_common (separated.erase.positive interval member) positive
    intro point other inside
    have inFit : fit.Holds point := by
      simp only [Interval.Holds, Interval.stop] at *
      omega
    exact separated.not_covers_erase inFit ⟨interval, member, other⟩
  · exact separated.erase

theorem aligned_allocate {unit : Nat} (separated : Separated list)
    (aligned : Aligned unit list) (needAligned : unit ∣ need)
    (allocated : allocate need least list = some (taken, remaining)) :
    Aligned unit (taken :: remaining) := by
  rcases allocate_eq_some separated allocated with
    ⟨left, fit, right, rfl, _, large, outcome⟩
  have fitAligned := aligned fit (by simp)
  have restAligned : Aligned unit (left ++ right) := by
    intro interval member
    apply aligned interval
    rcases List.mem_append.mp member with member | member <;> simp [member]
  rcases outcome with ⟨_, rfl, rfl⟩ | ⟨_, rfl, rfl⟩
  · refine (aligned_cons ..).mpr ⟨⟨fitAligned.1, needAligned⟩, aligned_release ?_⟩
    exact (aligned_cons ..).mpr ⟨⟨Nat.dvd_add fitAligned.1 needAligned,
      Nat.dvd_sub fitAligned.2 needAligned⟩, restAligned⟩
  · exact (aligned_cons ..).mpr ⟨fitAligned, restAligned⟩

end Allocation

end Intervals

end Vanilla
