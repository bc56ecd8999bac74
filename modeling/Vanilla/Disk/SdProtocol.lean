import Vanilla.Foundation.Exec
import Vanilla.Foundation.Word

namespace Vanilla.Disk

/-! sd_protocol.c: the size of a card from its CSD register, and the blocks that
`sd_read` asks the card for. -/

/-- The bytes of the register, the least significant first. -/
abbrev Csd := Nat → UInt8

structure SdCard where
  highCapacity : Bool
  kibSize : Nat

/-- The arguments of the read commands that have been sent, and the words that
have been stored. -/
structure SdState where
  slot : SdCard
  sent : List Nat
  buffer : List Nat

/-- What the card answers for the block that is read next: whether it becomes
ready, the words of the block, and the status. -/
structure SdAnswers where
  ready : Nat → Bool
  word : Nat → Nat → Nat
  status : Nat → Nat

def csdStructure (csd : Csd) : Nat := ((csd 15).toNat >>> 6) &&& 0b11

/-- `csd_decode`, without its warnings. -/
def csdDecode (csd : Csd) : Exec SdState Unit :=
  let byte := fun index => (csd index).toNat
  if csdStructure csd = 0 then
    let cSize := ((byte 7 >>> 6) &&& 0b11) ||| byte 8 <<< 2 ||| (byte 9 &&& 0b11) <<< 10
    let cSizeMult := (byte 6 &&& 0b11) <<< 1 ||| ((byte 5 >>> 7) &&& 0b1)
    let readBlLen := byte 10 &&& 0b1111
    let bytes := u32 (u32 ((cSize + 1) * 1 <<< (cSizeMult + 2)) * 1 <<< readBlLen)
    modify fun state => { state with slot := { state.slot with kibSize := bytes / 1000 } }
  else if csdStructure csd = 1 then
    let cSize := (byte 8 &&& 0x3F) <<< 16 ||| byte 7 <<< 8 ||| byte 6
    modify fun state => { state with slot := { state.slot with kibSize := u32 (cSize * 512) } }
  else Exec.panic "CSD structure error"

/-- The loop of `sd_read`, with so many blocks left. -/
def readBlocks (answers : SdAnswers) (sector : Nat) : Nat → Nat → Exec SdState Unit
  | 0, _ => pure ()
  | remaining + 1, i =>
      if ¬ answers.ready i then Exec.panic "Card is not ready"
      else do
        modify fun state =>
          { state with
            sent := state.sent ++ [if state.slot.highCapacity then u32 (sector + i)
              else u32 (u32 (sector + i) * 512)]
            buffer := state.buffer ++ (List.range 128).map (answers.word i) }
        if answers.status i &&& 0xFFF80000 ≠ 0 then Exec.panic "Write error"
        else readBlocks answers sector remaining (i + 1)

def sdRead (answers : SdAnswers) (sector count : Nat) : Exec SdState Unit := do
  let state ← get
  if u32 (state.slot.kibSize * 2) < u32 (sector + count) then Exec.panic "Block size wrong"
  else readBlocks answers sector count 0

/-! ## The card by the SD specification -/

/-- The register as a number. -/
def csdRegister (csd : Csd) : Nat → Nat
  | 0 => 0
  | bytes + 1 => csdRegister csd bytes + (csd bytes).toNat * 2 ^ (8 * bytes)

/-- The bits of a field, from the lowest on. -/
def csdField (csd : Csd) (lowest width : Nat) : Nat :=
  csdRegister csd 16 / 2 ^ lowest % 2 ^ width

/-- The bytes of a card of structure version 1.0. -/
def cardBytes (csd : Csd) : Nat :=
  (csdField csd 62 12 + 1) * 2 ^ (csdField csd 47 3 + 2) * 2 ^ csdField csd 80 4

/-- The number of blocks of 512 bytes. -/
def cardBlocks (csd : Csd) : Nat :=
  if csdField csd 126 2 = 0 then cardBytes csd / 512 else (csdField csd 48 22 + 1) * 1024

/-- `sd_read` goes on to the card. -/
def Proceeds (answers : SdAnswers) (sector count : Nat) (state : SdState) : Prop :=
  ¬ ∃ after, (sdRead answers sector count).run state = .error (.panic "Block size wrong") after

/-- The card of this register is decoded, and a transfer goes on exactly if it
ends inside the card. -/
def TransferBounded (csd : Csd) (answers : SdAnswers) (sector count : Nat) (state : SdState) :
    Prop :=
  ∃ decoded, (csdDecode csd).run state = .ok () decoded ∧
    (Proceeds answers sector count decoded ↔ sector + count ≤ cardBlocks csd)

/-- Twice the size that the driver computes: for version 1.0 in units of 1000
bytes, from a product that wraps; for version 2.0 without the one that the
specification adds. -/
def takenBlocks (csd : Csd) : Nat :=
  if csdField csd 126 2 = 0 then 2 * (cardBytes csd % 2 ^ 32 / 1000)
  else csdField csd 48 22 * 1024

/-- The end of the transfer is not between the two sizes; nor does it wrap to a
block that the driver takes the card to have. -/
def EndsApart (csd : Csd) (last : Nat) : Prop :=
  last < 2 ^ 32 ∧ (last ≤ takenBlocks csd ↔ last ≤ cardBlocks csd) ∨
    2 ^ 32 ≤ last ∧ (2 ^ 32 + takenBlocks csd < last ∨ last = cardBlocks csd)

/-! ## The fields -/

section Fields

variable {csd : Csd}

theorem csdRegister_lt (csd : Csd) (bytes : Nat) : csdRegister csd bytes < 2 ^ (8 * bytes) := by
  induction bytes with
  | zero => exact Nat.one_pos
  | succ bytes induction =>
      have byte := (csd bytes).toNat_lt
      have most : (csd bytes).toNat * 2 ^ (8 * bytes) ≤ 255 * 2 ^ (8 * bytes) :=
        Nat.mul_le_mul_right _ (by omega)
      rw [csdRegister, Nat.mul_succ, Nat.pow_add]
      omega

theorem csdRegister_add (csd : Csd) (low high : Nat) :
    csdRegister csd (low + high) =
      csdRegister csd low + 2 ^ (8 * low) * csdRegister (fun index => csd (low + index)) high := by
  induction high with
  | zero => rw [csdRegister, Nat.mul_zero, Nat.add_zero, Nat.add_zero]
  | succ high induction =>
      rw [← Nat.add_assoc, csdRegister, induction, csdRegister, Nat.mul_add 8, Nat.pow_add,
        Nat.mul_add, Nat.add_assoc, Nat.mul_left_comm]

/-- A field is read from the bytes that it lies in. -/
theorem csdField_window (csd : Csd) {first count rest bit width : Nat}
    (whole : first + (count + rest) = 16) (inside : bit + width ≤ 8 * count) :
    csdField csd (8 * first + bit) width =
      csdRegister (fun index => csd (first + index)) count / 2 ^ bit % 2 ^ width := by
  have split : 2 ^ (8 * count) = 2 ^ bit * (2 ^ width * 2 ^ (8 * count - bit - width)) := by
    rw [← Nat.pow_add, ← Nat.pow_add]
    congr 1
    omega
  rw [csdField, ← whole, csdRegister_add, csdRegister_add, Nat.pow_add, ← Nat.div_div_eq_div_mul,
    Nat.add_mul_div_left _ _ (Nat.two_pow_pos _), Nat.div_eq_of_lt (csdRegister_lt csd first),
    Nat.zero_add, split, Nat.mul_assoc, Nat.add_mul_div_left _ _ (Nat.two_pow_pos _),
    Nat.mul_assoc, Nat.add_mul_mod_self_left]

theorem csdField_version (csd : Csd) : csdField csd 126 2 = (csd 15).toNat / 64 := by
  have top := (csd 15).toNat_lt
  rw [@csdField_window csd 15 1 0 6 2 rfl (by decide)]
  simp only [csdRegister, Nat.reduceAdd]
  omega

theorem csdField_readBlLen (csd : Csd) : csdField csd 80 4 = (csd 10).toNat % 16 := by
  rw [@csdField_window csd 10 1 5 0 4 rfl (by decide)]
  simp only [csdRegister, Nat.reduceAdd]
  omega

theorem csdField_cSizeMult (csd : Csd) :
    csdField csd 47 3 = (csd 6).toNat % 4 * 2 + (csd 5).toNat / 128 := by
  have five := (csd 5).toNat_lt
  rw [@csdField_window csd 5 2 9 7 3 rfl (by decide)]
  simp only [csdRegister, Nat.reduceAdd]
  omega

theorem csdField_cSize (csd : Csd) : csdField csd 62 12 =
    (csd 9).toNat % 4 * 2 ^ 10 + ((csd 8).toNat * 2 ^ 2 + (csd 7).toNat / 64) := by
  have seven := (csd 7).toNat_lt
  have eight := (csd 8).toNat_lt
  rw [@csdField_window csd 7 3 6 6 12 rfl (by decide)]
  simp only [csdRegister, Nat.reduceAdd]
  omega

theorem csdField_cSize_v2 (csd : Csd) : csdField csd 48 22 =
    (csd 8).toNat % 64 * 2 ^ 16 + (csd 7).toNat * 2 ^ 8 + (csd 6).toNat := by
  have six := (csd 6).toNat_lt
  have seven := (csd 7).toNat_lt
  rw [@csdField_window csd 6 3 7 0 22 rfl (by decide)]
  simp only [csdRegister, Nat.reduceAdd]
  omega

theorem shiftRight_byte (byte : UInt8) (low : Nat) : byte.toNat >>> low = byte.toNat / 2 ^ low :=
  Nat.shiftRight_eq_div_pow ..

theorem csdStructure_eq : csdStructure csd = csdField csd 126 2 := by
  have top := (csd 15).toNat_lt
  rw [csdStructure, csdField_version, shiftRight_byte]
  change (csd 15).toNat / 64 &&& (2 ^ 2 - 1) = _
  rw [and_low_mask]
  omega

theorem cSize_eq : ((csd 7).toNat >>> 6 &&& 0b11) ||| (csd 8).toNat <<< 2 |||
    ((csd 9).toNat &&& 0b11) <<< 10 = csdField csd 62 12 := by
  have seven := (csd 7).toNat_lt
  have eight := (csd 8).toNat_lt
  have low : (csd 7).toNat / 2 ^ 6 < 2 ^ 2 := by omega
  rw [csdField_cSize, shiftRight_byte,
    show (0b11 : Nat) = 2 ^ 2 - 1 from rfl, and_low_mask, and_low_mask, Nat.mod_eq_of_lt low,
    or_shiftLeft_eq _ low, or_shiftLeft_eq _ (by omega)]
  rfl

theorem cSizeMult_eq : ((csd 6).toNat &&& 0b11) <<< 1 ||| ((csd 5).toNat >>> 7 &&& 0b1) =
    csdField csd 47 3 := by
  have five := (csd 5).toNat_lt
  have low : (csd 5).toNat / 2 ^ 7 < 2 ^ 1 := by omega
  have lowest : (csd 5).toNat / 2 ^ 7 &&& 0b1 = (csd 5).toNat / 2 ^ 7 :=
    (and_low_mask _ 1).trans (Nat.mod_eq_of_lt low)
  rw [csdField_cSizeMult, shiftRight_byte, lowest, Nat.or_comm, or_shiftLeft_eq _ low,
    show (0b11 : Nat) = 2 ^ 2 - 1 from rfl, and_low_mask]
  rfl

theorem readBlLen_eq : (csd 10).toNat &&& 0b1111 = csdField csd 80 4 := by
  rw [csdField_readBlLen]
  exact and_low_mask _ 4

theorem cSize_v2_eq : ((csd 8).toNat &&& 0x3F) <<< 16 ||| (csd 7).toNat <<< 8 |||
    (csd 6).toNat = csdField csd 48 22 := by
  have six := (csd 6).toNat_lt
  have seven := (csd 7).toNat_lt
  have middle : (csd 6).toNat ||| (csd 7).toNat <<< 8 = (csd 7).toNat * 2 ^ 8 + (csd 6).toNat :=
    or_shiftLeft_eq _ six
  rw [csdField_cSize_v2, Nat.or_assoc, Nat.or_comm ((csd 7).toNat <<< 8), middle,
    Nat.or_comm, show (0x3F : Nat) = 2 ^ 6 - 1 from rfl, and_low_mask,
    or_shiftLeft_eq _ (by omega), Nat.add_assoc]
  rfl

end Fields

/-! ## The size and the transfer -/

section Transfer

variable {csd : Csd} {answers : SdAnswers} {sector count : Nat} {state : SdState}

theorem csdField_lt (csd : Csd) (lowest width : Nat) : csdField csd lowest width < 2 ^ width :=
  Nat.mod_lt _ (Nat.two_pow_pos width)

theorem run_csdDecode_one (version : csdField csd 126 2 = 0) :
    (csdDecode csd).run state = .ok () { state with
      slot := { state.slot with kibSize := cardBytes csd % 2 ^ 32 / 1000 } } := by
  have bytes : u32 (u32 ((csdField csd 62 12 + 1) * 1 <<< (csdField csd 47 3 + 2)) *
      1 <<< csdField csd 80 4) = cardBytes csd % 2 ^ 32 := by
    rw [u32, u32, Nat.mod_mul_mod, Nat.one_shiftLeft, Nat.one_shiftLeft, cardBytes]
  simp only [csdDecode, csdStructure_eq, version, cSize_eq, cSizeMult_eq, readBlLen_eq, bytes,
    if_true]
  rfl

theorem run_csdDecode_two (version : csdField csd 126 2 = 1) :
    (csdDecode csd).run state = .ok () { state with
      slot := { state.slot with kibSize := csdField csd 48 22 * 512 } } := by
  have bound := csdField_lt csd 48 22
  have word : u32 (csdField csd 48 22 * 512) = csdField csd 48 22 * 512 := u32_of_lt (by omega)
  simp only [csdDecode, csdStructure_eq, version, cSize_v2_eq, word, if_true, Nat.one_ne_zero,
    if_false]
  rfl

/-- Both structure versions are decoded. -/
theorem csdDecode_taken (version : csdField csd 126 2 ≤ 1) (state : SdState) :
    ∃ decoded, (csdDecode csd).run state = .ok () decoded ∧
      u32 (decoded.slot.kibSize * 2) = takenBlocks csd := by
  rw [takenBlocks]
  cases Nat.le_one_iff_eq_zero_or_eq_one.mp version with
  | inl one =>
      refine ⟨_, run_csdDecode_one one, ?_⟩
      rw [if_pos one, Nat.mul_comm 2]
      exact u32_of_lt (by simp only []; omega)
  | inr two =>
      have bound := csdField_lt csd 48 22
      refine ⟨_, run_csdDecode_two two, ?_⟩
      rw [if_neg (by omega)]
      simp only []
      rw [u32_of_lt (by omega)]
      omega

theorem readBlocks_panics : ∀ {remaining i : Nat} {state after : SdState} {reason : Fault},
    (readBlocks answers sector remaining i).run state = .error reason after →
      reason ≠ .panic "Block size wrong"
  | 0, _, _, _, _, run => by cases run
  | remaining + 1, i, state, after, reason, run => by
      rw [readBlocks] at run
      by_cases ready : answers.ready i = true
      · rw [if_neg (not_not.mpr ready)] at run
        by_cases error : answers.status i &&& 0xFFF80000 ≠ 0
        · rw [if_pos error] at run
          cases run
          decide
        · rw [if_neg error] at run
          exact readBlocks_panics run
      · rw [if_pos ready] at run
        cases run
        decide

theorem proceeds_iff : Proceeds answers sector count state ↔
    u32 (sector + count) ≤ u32 (state.slot.kibSize * 2) := by
  have guarded : (sdRead answers sector count).run state =
      (if u32 (state.slot.kibSize * 2) < u32 (sector + count) then Exec.panic "Block size wrong"
      else readBlocks answers sector count 0 : Exec SdState Unit).run state := by
    rw [sdRead, Exec.run_bind_of_ok (EStateM.run_get state)]
  rw [Proceeds, guarded]
  by_cases beyond : u32 (state.slot.kibSize * 2) < u32 (sector + count)
  · rw [if_pos beyond]
    exact ⟨fun none_ => absurd ⟨state, rfl⟩ none_, fun fits => absurd beyond (by omega)⟩
  · rw [if_neg beyond]
    refine ⟨fun _ => Nat.le_of_not_lt beyond, fun _ => ?_⟩
    rintro ⟨after, panicked⟩
    exact readBlocks_panics panicked rfl

theorem cardBlocks_le (csd : Csd) : cardBlocks csd ≤ 2 ^ 32 := by
  have size := csdField_lt csd 62 12
  have mult := csdField_lt csd 47 3
  have length := csdField_lt csd 80 4
  have size_v2 := csdField_lt csd 48 22
  rw [cardBlocks]
  by_cases one : csdField csd 126 2 = 0
  · have bytes : cardBytes csd ≤ 2 ^ 12 * 2 ^ 9 * 2 ^ 15 := by
      rw [cardBytes]
      apply Nat.mul_le_mul (Nat.mul_le_mul (by omega) ?_) ?_ <;>
        exact Nat.pow_le_pow_right (by decide) (by omega)
    rw [if_pos one]
    omega
  · rw [if_neg one]
    omega

theorem transferBounded_iff (version : csdField csd 126 2 ≤ 1) :
    TransferBounded csd answers sector count state ↔
      (u32 (sector + count) ≤ takenBlocks csd ↔ sector + count ≤ cardBlocks csd) := by
  rcases csdDecode_taken version state with ⟨decoded, decodes, taken⟩
  rw [← taken, ← proceeds_iff]
  constructor
  · rintro ⟨other, same, right⟩
    cases decodes.symm.trans same
    exact right
  · exact fun right => ⟨decoded, decodes, right⟩

/-- A transfer is let through as it should exactly if it does not end between
the size that is taken and the size by the specification. -/
theorem transfer_bounded_iff (version : csdField csd 126 2 ≤ 1) (sectorWord : sector < 2 ^ 32)
    (countWord : count < 2 ^ 32) :
    TransferBounded csd answers sector count state ↔ EndsApart csd (sector + count) := by
  have blocks := cardBlocks_le csd
  rw [transferBounded_iff version, EndsApart, u32]
  by_cases fits : sector + count < 2 ^ 32
  · rw [Nat.mod_eq_of_lt fits]
    omega
  · have wraps : (sector + count) % 2 ^ 32 = sector + count - 2 ^ 32 := by omega
    rw [wraps]
    omega

end Transfer

/-- A card of version 2.0 with C_SIZE 15159, which has 15160 times 1024 blocks. -/
def eightGigabytes : Csd := fun index =>
  if index = 15 then 0x40 else if index = 7 then 0x3B else if index = 6 then 0x37 else 0

/-- A card that answers every command. -/
def goodAnswers : SdAnswers := ⟨fun _ => true, fun _ _ => 0, fun _ => 0⟩

def powerOn : SdState := ⟨⟨true, 0⟩, [], []⟩

theorem transfer_bounded_iff_first :
    TransferBounded eightGigabytes goodAnswers 0 1 powerOn ↔ EndsApart eightGigabytes (0 + 1) :=
  transfer_bounded_iff (by decide) (by decide) (by decide)

/-- The last block of the card is refused. -/
theorem last_block_refused : cardBlocks eightGigabytes = 15523840 ∧
    ¬ TransferBounded eightGigabytes goodAnswers 15523839 1 powerOn := by
  have version : csdField eightGigabytes 126 2 ≤ 1 := by decide
  have blocks : cardBlocks eightGigabytes = 15523840 := by decide
  have taken : takenBlocks eightGigabytes = 15522816 := by decide
  refine ⟨blocks, ?_⟩
  rw [transferBounded_iff version, blocks, taken, u32]
  decide

end Vanilla.Disk
