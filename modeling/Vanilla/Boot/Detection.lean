import Vanilla.Boot.Framing

namespace Vanilla.Boot

/-! What the check sequence says about a frame with one corrupted byte. The update
is linear over exclusive or, so only the difference has to be followed. -/

section Linear

variable (polynomial : UInt8)

/-- One bit round: the feedback is the polynomial without its lowest bit. -/
theorem crcBit_eq (crc : UInt8) :
    crcBit polynomial crc =
      (crc >>> 1) ^^^ (if crc &&& 0x01 ≠ 0 then polynomial >>> 1 else 0) := by
  rw [crcBit]
  by_cases set : crc &&& 0x01 ≠ 0
  · rw [if_pos set, if_pos set, UInt8.shiftRight_xor]
  · rw [if_neg set, if_neg set, UInt8.xor_zero]

theorem low_bit_cases (crc : UInt8) : crc &&& 0x01 = 0 ∨ crc &&& 0x01 = 1 := by
  have bit : (crc &&& 0x01).toNat = crc.toNat % 2 := by
    rw [UInt8.toNat_and]
    exact Nat.and_one_is_mod _
  rcases Nat.mod_two_eq_zero_or_one crc.toNat with even | odd
  · exact .inl (UInt8.toNat_inj.mp (bit.trans even))
  · exact .inr (UInt8.toNat_inj.mp (bit.trans odd))

theorem crcBit_xor (left right : UInt8) :
    crcBit polynomial (left ^^^ right) =
      crcBit polynomial left ^^^ crcBit polynomial right := by
  have low : (left ^^^ right) &&& 0x01 = (left &&& 0x01) ^^^ (right &&& 0x01) := by
    apply UInt8.toNat_inj.mp
    simp only [UInt8.toNat_and, UInt8.toNat_xor]
    exact Nat.and_xor_distrib_right
  rw [crcBit_eq, crcBit_eq, crcBit_eq, low, UInt8.shiftRight_xor]
  rcases low_bit_cases left with leftBit | leftBit <;>
    rcases low_bit_cases right with rightBit | rightBit <;>
    simp only [leftBit, rightBit]
  · simp
  · simp [UInt8.xor_assoc]
  · rw [UInt8.xor_assoc, UInt8.xor_assoc]
    simp [UInt8.xor_comm]
  · generalize polynomial >>> 1 = feedback
    have cancel : (left >>> 1 ^^^ feedback) ^^^ (right >>> 1 ^^^ feedback) =
        (left >>> 1 ^^^ right >>> 1) ^^^ (feedback ^^^ feedback) := by
      rw [UInt8.xor_assoc, UInt8.xor_assoc, ← UInt8.xor_assoc feedback,
        UInt8.xor_comm feedback, UInt8.xor_assoc]
    simp [cancel]

/-- The rounds of one byte, without the byte itself. -/
def crcRounds (rounds : Nat) (crc : UInt8) : UInt8 :=
  (List.range rounds).foldl (fun crc _ => crcBit polynomial crc) crc

theorem crcRounds_xor (rounds : Nat) (left right : UInt8) :
    crcRounds polynomial rounds (left ^^^ right) =
      crcRounds polynomial rounds left ^^^ crcRounds polynomial rounds right := by
  induction rounds with
  | zero => rfl
  | succ rounds induction =>
      simp only [crcRounds, List.range_succ, List.foldl_append, List.foldl_cons,
        List.foldl_nil] at induction ⊢
      rw [induction, crcBit_xor]

/-- What a difference in the running value becomes over the next byte. -/
theorem crcByte_difference (crc difference data : UInt8) :
    crcByte polynomial (crc ^^^ difference) data =
      crcByte polynomial crc data ^^^ crcRounds polynomial 8 difference := by
  change crcRounds polynomial 8 _ = crcRounds polynomial 8 _ ^^^ _
  rw [← crcRounds_xor, UInt8.xor_assoc, UInt8.xor_assoc, UInt8.xor_comm difference]

theorem crcByte_corrupted (crc data pattern : UInt8) :
    crcByte polynomial crc (data ^^^ pattern) =
      crcByte polynomial crc data ^^^ crcRounds polynomial 8 pattern := by
  change crcRounds polynomial 8 _ = crcRounds polynomial 8 _ ^^^ _
  rw [← crcRounds_xor, UInt8.xor_assoc]

end Linear

/-- The differences that one byte of rounds forgets. The bit shifted out is the one the
polynomial was added for, so only seven bits survive the first round. -/
theorem crcRounds_eq_zero_iff (difference : UInt8) :
    crcRounds polynomial 8 difference = 0 ↔ difference = 0 ∨ difference = 0xB3 := by
  have values : ∀ index : Fin 256,
      crcRounds polynomial 8 (UInt8.ofFin index) = 0 ↔
        UInt8.ofFin index = 0 ∨ UInt8.ofFin index = 0xB3 := by
    decide +kernel
  exact values difference.toFin

/-- Both parts of a bit round are shifted. -/
theorem crcBit_lt (feedback crc : UInt8) : crcBit feedback crc < 0x80 := by
  have half : ∀ value : UInt8, (value >>> 1).toNat < 2 ^ 7 := by
    intro value
    have shifted : (value >>> 1).toNat = value.toNat / 2 := by
      rw [UInt8.toNat_shiftRight]
      exact Nat.shiftRight_one _
    have bound := value.toNat_lt
    omega
  rw [crcBit_eq, UInt8.lt_iff_toNat_lt, UInt8.toNat_xor]
  apply Nat.xor_lt_two_pow (half crc)
  split
  · exact half feedback
  · decide

theorem crcRounds_lt (difference : UInt8) : crcRounds polynomial 8 difference < 0x80 :=
  crcBit_lt polynomial (crcRounds polynomial 7 difference)

/-- A difference that outlives its own byte outlives all that follow. -/
theorem crc_difference_survives (back : List UInt8) {crc difference : UInt8}
    (present : difference ≠ 0) (small : difference < 0x80) :
    back.foldl (crcByte polynomial) (crc ^^^ difference) ≠
      back.foldl (crcByte polynomial) crc := by
  induction back generalizing crc difference with
  | nil =>
      intro same
      apply present
      apply (UInt8.xor_right_inj crc).mp
      rw [UInt8.xor_zero]
      exact same
  | cons data back induction =>
      rw [List.foldl_cons, List.foldl_cons, crcByte_difference]
      apply induction _ (crcRounds_lt difference)
      intro forgotten
      rcases (crcRounds_eq_zero_iff difference).mp forgotten with zero | pattern
      · exact present zero
      · rw [pattern] at small
        exact absurd small (by decide)

theorem crcCalculate_corrupted (front back : List UInt8) (data pattern : UInt8) :
    crcCalculate (front ++ (data ^^^ pattern) :: back) polynomial =
        crcCalculate (front ++ data :: back) polynomial ↔
      pattern = 0 ∨ pattern = 0xB3 := by
  rw [← crcRounds_eq_zero_iff, crcCalculate, crcCalculate, List.foldl_append,
    List.foldl_append, List.foldl_cons, List.foldl_cons, crcByte_corrupted]
  constructor
  · intro same
    by_contra present
    exact crc_difference_survives back present (crcRounds_lt pattern) same
  · intro forgotten
    rw [forgotten, UInt8.xor_zero]

/-- Neither the board nor the host's `calculate_fcs` sees one byte changed by this
pattern, and both see every other change of one byte. -/
theorem calculateFcs_corrupted (front back : List UInt8) (data pattern : UInt8) :
    calculateFcs (front ++ (data ^^^ pattern) :: back) =
        calculateFcs (front ++ data :: back) ↔
      pattern = 0 ∨ pattern = 0xB3 := by
  rw [← crcCalculate_corrupted front back data, calculateFcs_eq, calculateFcs_eq,
    UInt8.toNat_inj]

/-- The check sequence of a string tells it from the string with one byte changed by a
non-zero pattern, but for one pattern: the polynomial with its lowest bit set. -/
theorem crc_detects_corrupted_byte_iff (front back : List UInt8) (data : UInt8)
    {pattern : UInt8} (changed : pattern ≠ 0) :
    crcCalculate (front ++ (data ^^^ pattern) :: back) polynomial ≠
        crcCalculate (front ++ data :: back) polynomial ↔
      pattern ≠ 0xB3 := by
  rw [ne_eq, crcCalculate_corrupted, or_iff_right changed]

theorem crc_detects_corrupted_byte_iff_stop :
    crcCalculate ([0x07, 0x00] ++ (0x00 ^^^ 0xB3) :: [0x11]) polynomial ≠
        crcCalculate ([0x07, 0x00] ++ 0x00 :: [0x11]) polynomial ↔
      (0xB3 : UInt8) ≠ 0xB3 :=
  crc_detects_corrupted_byte_iff [0x07, 0x00] [0x11] 0x00 (by decide)

/-- A frame check that does not move when its only byte does. -/
theorem crc_misses_corrupted_byte :
    ¬ ∀ (front back : List UInt8) (data pattern : UInt8), pattern ≠ 0 →
      crcCalculate (front ++ (data ^^^ pattern) :: back) polynomial ≠
        crcCalculate (front ++ data :: back) polynomial := by
  intro detects
  exact detects [] [] 0x00 0xB3 (by decide) (by decide)

end Vanilla.Boot
