import Mathlib.Data.Finset.Card
import Mathlib.Data.Finset.Range
import Mathlib.Data.List.Nodup
import Mathlib.Data.Nat.Find
import Vanilla.Mm.Umalloc

/-! # The bitmap allocator as a set of indices

`UmallocRep` ties the bitmap and the counter of a descriptor to the list of
indices in use; each function returns and changes that list as its name says.
-/

namespace Vanilla.Mm

open ByteMemory

/-- A descriptor as `umalloc_new` lays it out. -/
structure UmallocDesc.Wellformed (desc : UmallocDesc) : Prop where
  sized : 1 ≤ desc.blockSize
  words : 32 ∣ desc.blockCount
  placed : desc.bitmap = desc.arena + desc.blockCount * desc.blockSize
  fits : desc.bitmap + desc.blockCount / 8 ≤ 2 ^ 32

/-- The bit of a block: set while the block is free. -/
def freeBit (memory : ByteMemory) (bitmap index : Nat) : Bool :=
  (memory.load32 (bitmap + 4 * (index / 32))).testBit (index % 32)

/-- The address of a block. -/
def UmallocDesc.block (desc : UmallocDesc) (index : Nat) : Nat :=
  desc.arena + desc.blockSize * index

structure UmallocRep (state : UmallocState) (used : List Nat) : Prop where
  wellformed : state.desc.Wellformed
  nodup : used.Nodup
  bound : ∀ index ∈ used, index < state.desc.blockCount
  bits : ∀ index, index < state.desc.blockCount →
    freeBit state.memory state.desc.bitmap index = decide (index ∉ used)
  count : state.desc.usedBlocks = used.length

/-! ## Addresses -/

section Addresses

variable {desc : UmallocDesc} {index : Nat}

theorem UmallocDesc.Wellformed.block_bound (wellformed : desc.Wellformed)
    (bound : index < desc.blockCount) :
    desc.block index + desc.blockSize ≤ desc.bitmap := by
  have within : desc.blockSize * index + desc.blockSize ≤ desc.blockCount * desc.blockSize := by
    rw [← Nat.mul_succ, Nat.mul_comm]
    exact Nat.mul_le_mul_right _ bound
  rw [UmallocDesc.block, wellformed.placed]
  omega

theorem UmallocDesc.Wellformed.indexToAddr (wellformed : desc.Wellformed)
    (bound : index < desc.blockCount) : indexToAddr desc index = desc.block index := by
  have within := wellformed.block_bound bound
  have sized := wellformed.sized
  have fits := wellformed.fits
  rw [UmallocDesc.block] at *
  have product : u32 (desc.blockSize * index) = desc.blockSize * index := u32_of_lt (by omega)
  rw [Mm.indexToAddr, product, u32_of_lt (by omega)]

theorem UmallocDesc.Wellformed.block_injective (wellformed : desc.Wellformed) {other : Nat}
    (same : desc.block index = desc.block other) : index = other := by
  simp only [UmallocDesc.block] at same
  exact Nat.eq_of_mul_eq_mul_left wellformed.sized (by omega)

/-- Exactly the addresses of blocks have an index. -/
theorem UmallocDesc.Wellformed.addrToIndex (wellformed : desc.Wellformed) (pointer : Nat) :
    addrToIndex desc pointer = some index ↔
      index < desc.blockCount ∧ pointer = desc.block index := by
  have sized := wellformed.sized
  have fits := wellformed.fits
  constructor
  · intro found
    simp only [Mm.addrToIndex] at found
    split at found
    · cases found
    · rename_i inside
      have offset : u32Sub pointer desc.arena = pointer - desc.arena :=
        u32Sub_of_le (by omega) (by omega)
      rw [offset] at found
      split at found
      · cases found
      · rename_i aligned
        cases found
        have exact : desc.blockSize * ((pointer - desc.arena) / desc.blockSize) =
            pointer - desc.arena := Nat.mul_div_cancel' (Nat.dvd_of_mod_eq_zero (by omega))
        refine ⟨?_, by rw [UmallocDesc.block, exact]; omega⟩
        apply Nat.div_lt_of_lt_mul
        have placed := wellformed.placed
        rw [Nat.mul_comm] at placed
        omega
  · intro isBlock
    rcases isBlock with ⟨bound, rfl⟩
    have within := wellformed.block_bound bound
    have inside : ¬ (desc.block index < desc.arena ∨ desc.block index ≥ desc.bitmap) := by
      rw [UmallocDesc.block] at *
      omega
    have offset : u32Sub (desc.block index) desc.arena = desc.blockSize * index := by
      rw [u32Sub_of_le (by omega) (by omega), UmallocDesc.block]
      omega
    simp only [Mm.addrToIndex, if_neg inside, offset]
    rw [if_neg (by simp), Nat.mul_div_cancel_left _ (by omega)]

theorem UmallocDesc.Wellformed.bitmapWord (wellformed : desc.Wellformed) {word : Nat}
    (bound : word < desc.blockCount / 32) : bitmapWord desc word = desc.bitmap + 4 * word := by
  have fits := wellformed.fits
  have words := wellformed.words
  exact u32_of_lt (by omega)

end Addresses

/-! ## Bits -/

section Bits

variable {memory : ByteMemory} {desc : UmallocDesc}

theorem firstFreeBit_some {bitmask bit : Nat} (found : firstFreeBit bitmask = some bit) :
    bit < 32 ∧ bitmask.testBit bit = true ∧ ∀ other, other < bit →
      bitmask.testBit other = false := by
  simp only [firstFreeBit] at found
  split at found
  · cases found
  · rcases List.find?_range_eq_some.mp found with ⟨set, inRange, first⟩
    refine ⟨List.mem_range.mp inRange, (and_bit_ne_zero ..).mp (of_decide_eq_true set), ?_⟩
    intro other before
    have clear := first other before
    simpa only [and_bit_ne_zero, Bool.not_eq_true', decide_eq_false_iff_not,
      Bool.not_eq_true] using clear

theorem firstFreeBit_none {bitmask : Nat} (missing : firstFreeBit bitmask = none) (bit : Nat)
    (bound : bit < 32) : bitmask.testBit bit = false := by
  simp only [firstFreeBit] at missing
  split at missing
  · rename_i zero
    rw [zero, Nat.zero_testBit]
  · have clear := List.find?_range_eq_none.mp missing bit bound
    simpa only [and_bit_ne_zero, Bool.not_eq_true', decide_eq_false_iff_not,
      Bool.not_eq_true] using clear

/-- The search finds the lowest free block. -/
theorem firstFree_some (wellformed : desc.Wellformed) {word bit : Nat}
    (found : firstFree memory desc = some (word, bit)) :
    word < desc.blockCount / 32 ∧ bit < 32 ∧ freeBit memory desc.bitmap (32 * word + bit) = true ∧
      ∀ index, index < 32 * word + bit → freeBit memory desc.bitmap index = false := by
  rcases List.findSome?_eq_some_iff.mp found with ⟨before, at_, rest, split, here, earlier⟩
  have position : before = List.range at_ ∧ at_ < desc.blockCount / 32 := by
    have length := congrArg List.length split
    have taken := congrArg (List.take before.length) split
    have read := congrArg (fun list => list[before.length]?) split
    simp only [List.length_range, List.length_append, List.length_cons] at length
    simp only [List.take_range, List.take_left'] at taken
    simp [show before.length < desc.blockCount / 32 by omega] at read
    rw [Nat.min_eq_left (by omega)] at taken
    subst read
    exact ⟨taken.symm, by omega⟩
  rcases Option.map_eq_some_iff.mp here with ⟨hit, first, same⟩
  cases same
  have inWord := wellformed.bitmapWord position.2
  rw [inWord] at first
  rcases firstFreeBit_some first with ⟨low, set, clear⟩
  refine ⟨position.2, low, ?_, ?_⟩
  · rw [freeBit, show (32 * word + bit) / 32 = word by omega,
      show (32 * word + bit) % 32 = bit by omega]
    exact set
  · intro index lower
    rw [freeBit]
    by_cases sameWord : index / 32 = word
    · rw [sameWord]
      exact clear _ (by omega)
    · have inBefore : index / 32 ∈ before := by
        rw [position.1]
        exact List.mem_range.mpr (by omega)
      have none := earlier _ inBefore
      rw [Option.map_eq_none_iff, wellformed.bitmapWord (by omega)] at none
      exact firstFreeBit_none none _ (by omega)

theorem firstFree_none (wellformed : desc.Wellformed)
    (missing : firstFree memory desc = none) {index : Nat} (bound : index < desc.blockCount) :
    freeBit memory desc.bitmap index = false := by
  have words := wellformed.words
  have none := List.findSome?_eq_none_iff.mp missing (index / 32)
    (List.mem_range.mpr (by omega))
  rw [Option.map_eq_none_iff, wellformed.bitmapWord (by omega)] at none
  exact firstFreeBit_none none _ (by omega)

end Bits

/-! ## Stores -/

section Stores

variable {memory : ByteMemory} {bitmap : Nat}

/-- Store one word of the bitmap: the bits of the other words stay. -/
theorem freeBit_store32 (word value index : Nat) :
    freeBit (memory.store32 (bitmap + 4 * word) value) bitmap index =
      if index / 32 = word then (value % 2 ^ 32).testBit (index % 32)
      else freeBit memory bitmap index := by
  rw [freeBit]
  split
  · rename_i same
    rw [same, load32_store32_same]
  · rename_i different
    rw [load32_store32_of_disjoint _ _ (by omega), freeBit]

theorem freeBit_take {word bit : Nat} (low : bit < 32) (index : Nat) :
    freeBit (memory.store32 (bitmap + 4 * word)
        (memory.load32 (bitmap + 4 * word) &&& (0xFFFFFFFF ^^^ (1 <<< bit)))) bitmap index =
      (freeBit memory bitmap index && decide (index ≠ 32 * word + bit)) := by
  rw [freeBit_store32]
  have inWord : index % 32 < 32 := Nat.mod_lt _ (by decide)
  split
  · rename_i same
    rw [Nat.testBit_mod_two_pow, testBit_clearBit _ inWord, freeBit, same]
    have place : index % 32 = bit ↔ index = 32 * word + bit := by omega
    simp [inWord, place]
  · rename_i different
    have other : index ≠ 32 * word + bit := by omega
    simp [other]

theorem freeBit_clear (index other : Nat) :
    freeBit (memory.store32 (bitmap + 4 * (index / 32))
        (memory.load32 (bitmap + 4 * (index / 32)) ||| (1 <<< (index % 32)))) bitmap other =
      (freeBit memory bitmap other || decide (other = index)) := by
  rw [freeBit_store32]
  have inWord : other % 32 < 32 := Nat.mod_lt _ (by decide)
  split
  · rename_i same
    rw [Nat.testBit_mod_two_pow, testBit_setBit, freeBit, same]
    have place : other % 32 = index % 32 ↔ other = index := by omega
    simp [inWord, place]
  · rename_i different
    have notIndex : other ≠ index := fun equal => different (equal ▸ rfl)
    simp [notIndex]

/-- Stores below the bitmap leave it alone. -/
theorem freeBit_frame {footprint : Nat → Prop} {after : ByteMemory}
    (writes : WritesOnly footprint memory after)
    (below : ∀ address, footprint address → address < bitmap) (index : Nat) :
    freeBit after bitmap index = freeBit memory bitmap index := by
  rw [freeBit, freeBit, writes.load32_eq]
  intro other lower _ inside
  have before := below other inside
  omega

end Stores

/-! ## The functions -/

section Functions

variable {state : UmallocState} {used : List Nat}

/-- The lowest free index. -/
def LowestFree (desc : UmallocDesc) (used : List Nat) (index : Nat) : Prop :=
  index < desc.blockCount ∧ index ∉ used ∧ ∀ other, other < index → other ∈ used

theorem LowestFree.unique {desc : UmallocDesc} {left right : Nat}
    (isLeft : LowestFree desc used left) (isRight : LowestFree desc used right) :
    left = right := by
  by_contra different
  rcases Nat.lt_or_gt_of_ne different with below | above
  · exact isLeft.2.1 (isRight.2.2 left below)
  · exact isRight.2.1 (isLeft.2.2 right above)

/-- Unless every index is in use, there is a lowest free one. -/
theorem exists_lowestFree {desc : UmallocDesc} {index : Nat} (bound : index < desc.blockCount)
    (free : index ∉ used) : ∃ lowest, LowestFree desc used lowest := by
  have found : ∃ index, index ∉ used := ⟨index, free⟩
  have minimal := Nat.find_min' found free
  refine ⟨Nat.find found, by omega, Nat.find_spec found, ?_⟩
  intro other before
  exact not_not.mp (Nat.find_min found before)

theorem UmallocRep.firstFree (rep : UmallocRep state used) {index : Nat}
    (lowest : LowestFree state.desc used index) :
    firstFree state.memory state.desc = some (index / 32, index % 32) := by
  have words := rep.wellformed.words
  cases found : Mm.firstFree state.memory state.desc with
  | none =>
      have clear := firstFree_none rep.wellformed found lowest.1
      rw [rep.bits index lowest.1] at clear
      exact absurd (of_decide_eq_false clear) (not_not.mpr lowest.2.1)
  | some position =>
      rcases position with ⟨word, bit⟩
      rcases firstFree_some rep.wellformed found with ⟨inWords, low, set, earlier⟩
      have bound : 32 * word + bit < state.desc.blockCount := by omega
      rw [rep.bits _ bound] at set
      have isLowest : LowestFree state.desc used (32 * word + bit) := by
        refine ⟨bound, of_decide_eq_true set, ?_⟩
        intro other before
        have clear := earlier other before
        rw [rep.bits other (by omega)] at clear
        exact not_not.mp (of_decide_eq_false clear)
      have same := lowest.unique isLowest
      rw [same, show (32 * word + bit) / 32 = word by omega,
        show (32 * word + bit) % 32 = bit by omega]

theorem UmallocRep.firstFree_full (rep : UmallocRep state used)
    (full : ∀ index, index < state.desc.blockCount → index ∈ used) :
    Mm.firstFree state.memory state.desc = none := by
  cases found : Mm.firstFree state.memory state.desc with
  | none => rfl
  | some position =>
      rcases position with ⟨word, bit⟩
      have words := rep.wellformed.words
      rcases firstFree_some rep.wellformed found with ⟨inWords, low, set, _⟩
      have bound : 32 * word + bit < state.desc.blockCount := by omega
      rw [rep.bits _ bound] at set
      exact absurd (full _ bound) (of_decide_eq_true set)

/-- There is room for the counter. -/
theorem UmallocRep.length_lt (rep : UmallocRep state used) : used.length + 1 < 2 ^ 32 := by
  have short : used.length ≤ state.desc.blockCount := by
    rw [← List.toFinset_card_of_nodup rep.nodup, ← Finset.card_range state.desc.blockCount]
    apply Finset.card_le_card
    intro index member
    exact Finset.mem_range.mpr (rep.bound index (List.mem_toFinset.mp member))
  have fits := rep.wellformed.fits
  have placed := rep.wellformed.placed
  have sized := rep.wellformed.sized
  have large := Nat.mul_le_mul_left state.desc.blockCount sized
  omega

/-- Take a block: its bit is cleared and the counter goes up. -/
def UmallocState.take (state : UmallocState) (index : Nat) : UmallocState :=
  let word := state.desc.bitmap + 4 * (index / 32)
  { state.setMemory (state.memory.store32 word
      (state.memory.load32 word &&& (0xFFFFFFFF ^^^ (1 <<< (index % 32))))) with
    desc := { state.desc with usedBlocks := u32 (state.desc.usedBlocks + 1) } }

/-- Give a block back: its bit is set and the counter goes down. -/
def UmallocState.give (state : UmallocState) (index : Nat) : UmallocState :=
  let word := state.desc.bitmap + 4 * (index / 32)
  { state.setMemory (state.memory.store32 word
      (state.memory.load32 word ||| (1 <<< (index % 32)))) with
    desc := { state.desc with usedBlocks := state.desc.usedBlocks - 1 } }

theorem umalloc_spec (rep : UmallocRep state used) {index : Nat}
    (lowest : LowestFree state.desc used index) :
    ∃ after, umalloc.run state = .ok (state.desc.block index) after ∧
      UmallocRep after (index :: used) ∧
      after.desc = { state.desc with usedBlocks := used.length + 1 } := by
  have room := rep.length_lt
  have words := rep.wellformed.words
  have word : bitmapWord state.desc (index / 32) = state.desc.bitmap + 4 * (index / 32) := by
    have bound := lowest.1
    exact rep.wellformed.bitmapWord (by omega)
  have first : getFirstFreeIndex.run state = .ok (some index) (state.setMemory
      (state.memory.store32 (state.desc.bitmap + 4 * (index / 32))
        (state.memory.load32 (state.desc.bitmap + 4 * (index / 32)) &&&
          (0xFFFFFFFF ^^^ (1 <<< (index % 32)))))) := by
    simp only [getFirstFreeIndex]
    rw [Exec.run_bind_of_ok (EStateM.run_get state), rep.firstFree lowest]
    simp only [word]
    rw [Exec.run_bind_of_ok (EStateM.run_set _ _), EStateM.run_pure,
      show 32 * (index / 32) + index % 32 = index by omega]
  refine ⟨state.take index, ?_, ?_, ?_⟩
  · simp only [umalloc]
    rw [Exec.run_bind_of_ok first, ← rep.wellformed.indexToAddr lowest.1]
    rfl
  · exact {
      wellformed := ⟨rep.wellformed.sized, rep.wellformed.words, rep.wellformed.placed,
        rep.wellformed.fits⟩
      nodup := List.nodup_cons.mpr ⟨lowest.2.1, rep.nodup⟩
      bound := List.forall_mem_cons.mpr ⟨lowest.1, rep.bound⟩
      bits := by
        intro other bound
        have taken : freeBit (state.take index).memory state.desc.bitmap other = _ :=
          freeBit_take (Nat.mod_lt _ (by decide)) other
        rw [show 32 * (index / 32) + index % 32 = index by omega, rep.bits other bound] at taken
        refine taken.trans ?_
        simp [Bool.and_comm]
      count := by
        rw [List.length_cons, ← rep.count]
        exact u32_of_lt (by rw [rep.count]; omega) }
  · rw [← rep.count]
    have same : u32 (state.desc.usedBlocks + 1) = state.desc.usedBlocks + 1 :=
      u32_of_lt (by rw [rep.count]; omega)
    rw [← same]
    rfl

theorem umalloc_full (rep : UmallocRep state used)
    (full : ∀ index, index < state.desc.blockCount → index ∈ used) :
    umalloc.run state = .error (.panic "ups") state := by
  have none : getFirstFreeIndex.run state = .ok none state := by
    simp only [getFirstFreeIndex]
    rw [Exec.run_bind_of_ok (EStateM.run_get state), rep.firstFree_full full]
    rfl
  simp only [umalloc]
  rw [Exec.run_bind_of_ok none]
  rfl

/-- Clear or fill the payload of a block. -/
theorem UmallocRep.store (rep : UmallocRep state used) {footprint : Nat → Prop}
    {after : ByteMemory} (writes : WritesOnly footprint state.memory after)
    (below : ∀ address, footprint address → address < state.desc.bitmap) :
    UmallocRep (state.setMemory after) used where
  wellformed := rep.wellformed
  nodup := rep.nodup
  bound := rep.bound
  bits := fun index bound => (freeBit_frame writes below index).trans (rep.bits index bound)
  count := rep.count

theorem ucalloc_spec (rep : UmallocRep state used) {index : Nat}
    (lowest : LowestFree state.desc used index) :
    ∃ after, ucalloc.run state = .ok (state.desc.block index) after ∧
      UmallocRep after (index :: used) ∧
      after.desc = { state.desc with usedBlocks := used.length + 1 } := by
  rcases umalloc_spec rep lowest with ⟨between, returns, taken, desc⟩
  have within := rep.wellformed.block_bound lowest.1
  have cleared := taken.store (WritesOnly.fill 0x00 between.desc.blockSize between.memory
      (state.desc.block index) (fun _ lower upper => And.intro lower upper)) (by
    intro address inside
    rw [desc] at *
    simp only at *
    omega)
  refine ⟨_, ?_, cleared, desc⟩
  simp only [ucalloc]
  rw [Exec.run_bind_of_ok returns]
  rfl

theorem ucalloc_full (rep : UmallocRep state used)
    (full : ∀ index, index < state.desc.blockCount → index ∈ used) :
    ucalloc.run state = .error (.panic "ups") state := by
  simp only [ucalloc, EStateM.run_bind, umalloc_full rep full]

theorem getBitmapValue_eq (wellformed : state.desc.Wellformed) {index : Nat}
    (bound : index < state.desc.blockCount) :
    getBitmapValue state.memory state.desc index =
      if freeBit state.memory state.desc.bitmap index = true then 1 else 0 := by
  have words := wellformed.words
  simp only [getBitmapValue, freeBit]
  rw [wellformed.bitmapWord (by omega)]
  exact if_congr (and_bit_ne_zero ..) rfl rfl

theorem ufree_spec (rep : UmallocRep state used) {index : Nat} (member : index ∈ used) :
    ∃ after, (ufree (state.desc.block index)).run state = .ok () after ∧
      UmallocRep after (used.erase index) ∧
      after.desc = { state.desc with usedBlocks := used.length - 1 } := by
  have bound := rep.bound index member
  have words := rep.wellformed.words
  have word : bitmapWord state.desc (index / 32) = state.desc.bitmap + 4 * (index / 32) :=
    rep.wellformed.bitmapWord (by omega)
  have clear : freeBit state.memory state.desc.bitmap index = false := by
    rw [rep.bits index bound]
    exact decide_eq_false (not_not.mpr member)
  have positive : state.desc.usedBlocks ≠ 0 := by
    rw [rep.count]
    exact (List.length_pos_of_mem member).ne'
  have found := (rep.wellformed.addrToIndex (state.desc.block index)).mpr ⟨bound, rfl⟩
  refine ⟨state.give index, ?_, ?_, ?_⟩
  · simp only [ufree]
    rw [Exec.run_bind_of_ok (EStateM.run_get state), found]
    simp only [getBitmapValue_eq rep.wellformed bound, clear, clearBitInBitmap, word]
    rw [if_neg (by decide), Exec.run_bind_of_ok (EStateM.run_set _ _)]
    exact (congrArg (fun code => EStateM.run code _) (if_pos positive)).trans rfl
  · exact {
      wellformed := ⟨rep.wellformed.sized, rep.wellformed.words, rep.wellformed.placed,
        rep.wellformed.fits⟩
      nodup := rep.nodup.erase index
      bound := fun other inUsed => rep.bound other (List.mem_of_mem_erase inUsed)
      bits := by
        intro other otherBound
        have cleared : freeBit (state.give index).memory state.desc.bitmap other = _ :=
          freeBit_clear index other
        rw [rep.bits other otherBound] at cleared
        refine cleared.trans ?_
        by_cases equal : other = index <;> simp [rep.nodup.mem_erase_iff, equal]
      count := by
        rw [List.length_erase_of_mem member, ← rep.count]
        rfl }
  · rw [← rep.count]
    rfl

/-- Every pointer that is no block in use is refused. -/
theorem ufree_refuses (rep : UmallocRep state used) {pointer : Nat}
    (foreign : ∀ index ∈ used, pointer ≠ state.desc.block index) :
    (ufree pointer).run state = .error (.panic "bfree failed") state := by
  simp only [ufree]
  rw [Exec.run_bind_of_ok (EStateM.run_get state)]
  cases found : addrToIndex state.desc pointer with
  | none => rfl
  | some index =>
      rcases (rep.wellformed.addrToIndex pointer).mp found with ⟨bound, isBlock⟩
      have free : freeBit state.memory state.desc.bitmap index = true := by
        rw [rep.bits index bound]
        exact decide_eq_true fun member => foreign index member isBlock
      simp only [getBitmapValue_eq rep.wellformed bound, free]
      rfl

end Functions

end Vanilla.Mm
