import Vanilla.Foundation.Word

namespace Vanilla.Usb

/-! The size field of a pipe: `usbhc_size_to_pipe_size` takes the highest bit of
the size asked for and rounds up. -/

/-- `1 << amount`; a shift by the width or more has no value. -/
def shiftOne (amount : Nat) : Option Nat := if amount < 32 then some (1 <<< amount) else none

/-- The loop, with `i` as its test finds it; the test that fails leaves `i` at
its largest value. -/
def highestBit (size : Nat) : Nat → Option Nat
  | 0 => some (u32Sub 0 1)
  | i + 1 => do
      let bit ← shiftOne i
      if size &&& bit ≠ 0 then some i else highestBit size i

/-- `usbhc_size_to_pipe_size`: `none` for a shift that has no value, and the
inner `none` when 0 is returned. -/
def usbhcSizeToPipeSize (size : Nat) : Option (Option Nat) := do
  let i ← highestBit size 32
  let num ← shiftOne i
  let rounded := if size &&& u32Sub num 1 ≠ 0 then u32 (i + 1) else i
  pure (if 3 ≤ rounded ∧ rounded ≤ 10 then some (rounded - 3) else none)

/-! ## The sizes of a pipe -/

/-- A power of two from 8 to 1024. -/
def Supported (bytes : Nat) : Prop := ∃ code, code ≤ 7 ∧ bytes = 8 <<< code

structure SmallestSupported (size bytes : Nat) : Prop where
  supported : Supported bytes
  enough : size ≤ bytes
  least : ∀ other, Supported other → size ≤ other → bytes ≤ other

/-- Every size up to 1024 gets the smallest pipe that holds it. -/
def SizeRounded (size : Nat) : Prop :=
  ∃ result, usbhcSizeToPipeSize size = some result ∧
    (result.isSome ↔ 1 ≤ size ∧ size ≤ 1024) ∧
    ∀ code, result = some code → SmallestSupported size (8 <<< code)

theorem eight_shiftLeft (code : Nat) : 8 <<< code = 2 ^ (code + 3) := by
  rw [Nat.shiftLeft_eq, Nat.pow_add, Nat.mul_comm]

/-! ## Rounding -/

theorem highestBit_zero : ∀ i, i ≤ 32 → highestBit 0 i = some (2 ^ 32 - 1)
  | 0, _ => rfl
  | i + 1, bound => by
      rw [highestBit, shiftOne, if_pos (Nat.lt_of_succ_le bound)]
      change (if 0 &&& 1 <<< i ≠ 0 then some i else highestBit 0 i) = _
      rw [if_neg (by simp), highestBit_zero i (Nat.le_of_succ_le bound)]

theorem highestBit_spec {size : Nat} (positive : 0 < size) :
    ∀ i, i ≤ 32 → size < 2 ^ i →
      ∃ highest, highestBit size i = some highest ∧ highest < i ∧
        2 ^ highest ≤ size ∧ size < 2 ^ (highest + 1)
  | 0, _, small => by
      rw [Nat.pow_zero] at small
      omega
  | i + 1, bound, small => by
      have shift : highestBit size (i + 1) =
          if size &&& 1 <<< i ≠ 0 then some i else highestBit size i := by
        rw [highestBit, shiftOne, if_pos (Nat.lt_of_succ_le bound)]
        rfl
      rw [shift]
      by_cases reaches : 2 ^ i ≤ size
      · have set : size &&& 1 <<< i ≠ 0 := by
          rw [and_bit_ne_zero]
          exact Nat.testBit_of_two_pow_le_and_two_pow_add_one_gt reaches small
        rw [if_pos set]
        exact ⟨i, rfl, Nat.lt_succ_self i, reaches, small⟩
      · have below : size < 2 ^ i := Nat.lt_of_not_le reaches
        have clear : ¬ size &&& 1 <<< i ≠ 0 := by
          rw [and_bit_ne_zero, Nat.testBit_lt_two_pow below]
          decide
        rw [if_neg clear]
        rcases highestBit_spec positive i (Nat.le_of_succ_le bound) below with
          ⟨highest, found, lower, bounds⟩
        exact ⟨highest, found, Nat.lt_succ_of_lt lower, bounds⟩

/-- The result is the exponent of the next power of two. -/
theorem usbhcSizeToPipeSize_spec {size : Nat} (positive : 0 < size) (small : size < 2 ^ 32) :
    ∃ exponent, size ≤ 2 ^ exponent ∧ 2 ^ exponent < 2 * size ∧
      usbhcSizeToPipeSize size =
        some (if 3 ≤ exponent ∧ exponent ≤ 10 then some (exponent - 3) else none) := by
  rcases highestBit_spec positive 32 (Nat.le_refl 32) small with
    ⟨highest, found, below, lower, upper⟩
  have shift : shiftOne highest = some (2 ^ highest) := by
    rw [shiftOne, if_pos below, Nat.one_shiftLeft]
  have mask : size &&& u32Sub (2 ^ highest) 1 = size % 2 ^ highest := by
    have width : 2 ^ highest < 2 ^ 32 := Nat.pow_lt_pow_right (by decide) below
    rw [u32Sub_of_le width (Nat.one_le_two_pow), and_low_mask]
  have double : 2 ^ (highest + 1) = 2 * 2 ^ highest := by rw [Nat.pow_succ, Nat.mul_comm]
  have result : usbhcSizeToPipeSize size = some (
      if 3 ≤ (if size % 2 ^ highest ≠ 0 then u32 (highest + 1) else highest) ∧
          (if size % 2 ^ highest ≠ 0 then u32 (highest + 1) else highest) ≤ 10 then
        some ((if size % 2 ^ highest ≠ 0 then u32 (highest + 1) else highest) - 3)
      else none) := by
    rw [usbhcSizeToPipeSize, found, Option.bind_eq_bind, Option.bind_some, shift,
      Option.bind_some, mask]
    rfl
  have remainder : size % 2 ^ highest = size - 2 ^ highest := by
    rw [Nat.mod_eq_sub_mod lower]
    exact Nat.mod_eq_of_lt (by omega)
  rw [result]
  by_cases exact_ : size % 2 ^ highest = 0
  · have power : size = 2 ^ highest := by omega
    refine ⟨highest, Nat.le_of_eq power, ?_, ?_⟩
    · omega
    · rw [if_neg (not_not.mpr exact_)]
  · have above : 2 ^ highest < size := by omega
    have word : u32 (highest + 1) = highest + 1 := u32_of_lt (by omega)
    refine ⟨highest + 1, Nat.le_of_lt upper, ?_, ?_⟩
    · omega
    · rw [if_pos exact_, word]

theorem exponent_range {size exponent : Nat} (enough : size ≤ 2 ^ exponent)
    (tight : 2 ^ exponent < 2 * size) :
    (3 ≤ exponent ↔ 5 ≤ size) ∧ (exponent ≤ 10 ↔ size ≤ 1024) := by
  refine ⟨⟨fun low => ?_, fun large => ?_⟩, ⟨fun high => ?_, fun fits => ?_⟩⟩
  · have eight : 2 ^ 3 ≤ 2 ^ exponent := Nat.pow_le_pow_right (by decide) low
    omega
  · by_contra low
    have four : 2 ^ exponent ≤ 2 ^ 2 := Nat.pow_le_pow_right (by decide) (by omega)
    omega
  · have most : 2 ^ exponent ≤ 2 ^ 10 := Nat.pow_le_pow_right (by decide) high
    omega
  · by_contra high
    have beyond : 2 ^ 11 ≤ 2 ^ exponent := Nat.pow_le_pow_right (by decide) (by omega)
    omega

theorem smallestSupported_of_exponent {size exponent : Nat} (enough : size ≤ 2 ^ exponent)
    (tight : 2 ^ exponent < 2 * size) (low : 3 ≤ exponent) (high : exponent ≤ 10) :
    SmallestSupported size (8 <<< (exponent - 3)) := by
  have bytes : 8 <<< (exponent - 3) = 2 ^ exponent := by
    rw [eight_shiftLeft, Nat.sub_add_cancel low]
  rw [bytes]
  refine ⟨⟨exponent - 3, by omega, bytes.symm⟩, enough, ?_⟩
  intro other supported holds
  rcases supported with ⟨code, _, rfl⟩
  rw [eight_shiftLeft] at holds ⊢
  apply Nat.pow_le_pow_right (by decide)
  by_contra smaller
  have half : 2 ^ (code + 3 + 1) ≤ 2 ^ exponent := Nat.pow_le_pow_right (by decide) (by omega)
  rw [Nat.pow_succ] at half
  omega

/-- Sizes below 5 get no pipe, and at 0 a shift has no value. -/
theorem pipe_size_rounded_iff {size : Nat} (small : size < 2 ^ 32) :
    SizeRounded size ↔ 5 ≤ size := by
  cases Nat.eq_zero_or_pos size with
  | inl zero =>
      subst zero
      constructor
      · intro rounded
        rcases rounded with ⟨result, run, _⟩
        rw [usbhcSizeToPipeSize, highestBit_zero 32 (Nat.le_refl 32)] at run
        cases run
      · omega
  | inr positive =>
      rcases usbhcSizeToPipeSize_spec positive small with ⟨exponent, enough, tight, run⟩
      have range := exponent_range enough tight
      constructor
      · intro rounded
        rcases rounded with ⟨result, same, returns, _⟩
        cases run.symm.trans same
        by_contra tiny
        rw [if_neg fun both => tiny (range.1.mp both.1)] at returns
        have none_ := returns.mpr ⟨positive, by omega⟩
        cases none_
      · intro large
        have low : 3 ≤ exponent := range.1.mpr large
        by_cases high : exponent ≤ 10
        · rw [if_pos ⟨low, high⟩] at run
          refine ⟨_, run, ⟨fun _ => ⟨positive, range.2.mp high⟩, fun _ => rfl⟩, ?_⟩
          intro code same
          cases same
          exact smallestSupported_of_exponent enough tight low high
        · rw [if_neg fun both => high both.2] at run
          refine ⟨_, run, ⟨fun some_ => ?_, fun fits => ?_⟩, fun code same => ?_⟩
          · cases some_
          · exact absurd (range.2.mpr fits.2) high
          · cases same

theorem pipe_size_rounded_iff_full_speed : SizeRounded 64 ↔ 5 ≤ 64 :=
  pipe_size_rounded_iff (by decide)

/-- Four bytes are not rounded up to the smallest pipe. -/
theorem four_bytes_rejected : usbhcSizeToPipeSize 4 = some none ∧ ¬ SizeRounded 4 := by
  have run : usbhcSizeToPipeSize 4 = some none := by decide
  refine ⟨run, ?_⟩
  rintro ⟨result, same, returns, _⟩
  rw [run] at same
  cases same
  cases returns.mpr ⟨by decide, by decide⟩

end Vanilla.Usb
