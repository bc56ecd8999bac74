import Mathlib.Data.Nat.Bitwise

namespace Vanilla

/-! Unsigned C integers as natural numbers. Where an operation can wrap, its
definition says so; bit masks are reduced to arithmetic once, here. -/

/-- The value a `u32` holds after an operation. -/
def u32 (value : Nat) : Nat := value % 2 ^ 32

def u32Sub (left right : Nat) : Nat := (left + 2 ^ 32 - right) % 2 ^ 32

/-- The value a `u64` holds after an operation. -/
def u64 (value : Nat) : Nat := value % 2 ^ 64

theorem u32_of_lt {value : Nat} (bound : value < 2 ^ 32) : u32 value = value :=
  Nat.mod_eq_of_lt bound

theorem u32_lt (value : Nat) : u32 value < 2 ^ 32 := Nat.mod_lt _ (by decide)

theorem u32Sub_of_le {left right : Nat} (bound : left < 2 ^ 32) (order : right ≤ left) :
    u32Sub left right = left - right := by
  simp only [u32Sub]
  omega

theorem u64_of_lt {value : Nat} (bound : value < 2 ^ 64) : u64 value = value :=
  Nat.mod_eq_of_lt bound

/-- A mask of low bits is a remainder. -/
theorem and_low_mask (value width : Nat) :
    value &&& (2 ^ width - 1) = value % 2 ^ width :=
  Nat.and_two_pow_sub_one_eq_mod value width

/-- A mask of the bits from `low` up clears the remainder. -/
theorem and_high_mask {value : Nat} (low width : Nat) (bound : value < 2 ^ width)
    (order : low ≤ width) :
    value &&& (2 ^ width - 2 ^ low) = value / 2 ^ low * 2 ^ low := by
  have mask : 2 ^ width - 2 ^ low = (2 ^ (width - low) - 1) <<< low := by
    rw [Nat.shiftLeft_eq, Nat.sub_mul, ← Nat.pow_add, Nat.sub_add_cancel order, one_mul]
  rw [mask, ← Nat.shiftRight_eq_div_pow, ← Nat.shiftLeft_eq]
  apply Nat.eq_of_testBit_eq
  intro index
  simp only [Nat.testBit_and, Nat.testBit_shiftLeft, Nat.testBit_shiftRight,
    Nat.testBit_two_pow_sub_one]
  by_cases lower : low ≤ index
  · by_cases upper : index < width
    · simp [lower, show index - low < width - low by omega]
    · have clear : value.testBit index = false := by
        apply Nat.testBit_lt_two_pow
        exact Nat.lt_of_lt_of_le bound (Nat.pow_le_pow_right (by decide) (by omega))
      simp [clear, Nat.add_sub_of_le lower]
  · simp [lower]

/-- Two fields that do not overlap: the upper one shifted, the lower one added. -/
theorem or_shiftLeft_eq {low : Nat} {width : Nat} (high : Nat) (bound : low < 2 ^ width) :
    low ||| high <<< width = high * 2 ^ width + low := by
  rw [Nat.or_comm, ← Nat.shiftLeft_add_eq_or_of_lt bound, Nat.shiftLeft_eq]

/-! ## Single bits -/

theorem and_bit_ne_zero (word bit : Nat) :
    word &&& (1 <<< bit) ≠ 0 ↔ word.testBit bit = true := by
  constructor
  · intro notZero
    by_contra clear
    apply notZero
    apply Nat.eq_of_testBit_eq
    intro index
    simp only [Nat.testBit_and, Nat.one_shiftLeft, Nat.testBit_two_pow, Nat.zero_testBit,
      Bool.and_eq_false_imp, decide_eq_false_iff_not]
    intro set equal
    exact clear (equal ▸ set)
  · intro set zero
    have bits := congrArg (fun value => value.testBit bit) zero
    simp [Nat.testBit_and, Nat.one_shiftLeft, set] at bits

theorem testBit_clearBit (word : Nat) {bit index : Nat} (bound : index < 32) :
    (word &&& (0xFFFFFFFF ^^^ (1 <<< bit))).testBit index =
      (word.testBit index && decide (index ≠ bit)) := by
  have ones : (0xFFFFFFFF : Nat).testBit index = true := by
    rw [show (0xFFFFFFFF : Nat) = 2 ^ 32 - 1 from rfl, Nat.testBit_two_pow_sub_one]
    exact decide_eq_true bound
  simp [Nat.testBit_and, Nat.testBit_xor, Nat.one_shiftLeft, Nat.testBit_two_pow, ones,
    eq_comm]

theorem testBit_setBit (word bit index : Nat) :
    (word ||| (1 <<< bit)).testBit index = (word.testBit index || decide (index = bit)) := by
  simp [Nat.testBit_or, Nat.one_shiftLeft, Nat.testBit_two_pow, eq_comm]

end Vanilla
