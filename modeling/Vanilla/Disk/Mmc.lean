import Mathlib.Algebra.Order.Field.Rat
import Mathlib.Tactic.NormNum
import Vanilla.Foundation.Word

namespace Vanilla.Disk

/-! mmc.c: the divider of the bus clock in the mode register. A call adds bits
to the fields of the register and clears none. -/

/-- `prescaler` of `mmc_set_bus_freq`; 0 when the fields stay 0. -/
def prescaler (frequency : Nat) : Nat :=
  if 2 * frequency < 150000000 then
    u32Sub (150000000 / frequency) 2 + if 150000000 % frequency ≠ 0 then 1 else 0
  else 0

/-- `div` and `odd`, which are bytes. -/
def busDiv (frequency : Nat) : Nat := (prescaler frequency >>> 1) % 2 ^ 8
def busOdd (frequency : Nat) : Nat := prescaler frequency &&& 0b1

/-- `mmc_set_bus_freq`, on `MMC->MR`; the mask that should clear the fields is
`~((1 << 16) & 0xFF)`. -/
def mmcSetBusFreq (frequency mr : Nat) : Nat :=
  (mr &&& (0xFFFFFFFF ^^^ (1 <<< 16 &&& 0xFF))) ||| (busOdd frequency <<< 16 ||| busDiv frequency)

/-! ## The fields and the clock -/

def clkDiv (mr : Nat) : Nat := mr &&& 0xFF
def clkOdd (mr : Nat) : Nat := (mr >>> 16) &&& 0b1

def divider (mr : Nat) : Nat := 2 * clkDiv mr + clkOdd mr + 2

def busClock (mr : Nat) : ℚ := 150000000 / divider mr

/-- One call after another. -/
def setBusFreqs (frequencies : List Nat) (mr : Nat) : Nat :=
  frequencies.foldl (fun mr frequency => mmcSetBusFreq frequency mr) mr

/-- The clock is the one of the last call alone and does not exceed what that
call asks for; the bits of the register outside the two fields are as before. -/
structure SetByLast (before after last : Nat) : Prop where
  clock : busClock after = busClock (mmcSetBusFreq last 0)
  bounded : busClock after ≤ last
  others : ∀ bit, 8 ≤ bit → bit ≠ 16 → after.testBit bit = before.testBit bit

/-- The bits of the fields are among those that a call sets. -/
structure Covered (mr frequency : Nat) : Prop where
  div : clkDiv mr ||| busDiv frequency = busDiv frequency
  odd : clkOdd mr ||| busOdd frequency = busOdd frequency

section Fields

variable {mr frequency : Nat}

theorem mmcSetBusFreq_eq (word : mr < 2 ^ 32) :
    mmcSetBusFreq frequency mr = mr ||| (busOdd frequency <<< 16 ||| busDiv frequency) := by
  have kept : mr &&& (0xFFFFFFFF ^^^ (1 <<< 16 &&& 0xFF)) = mr := by
    change mr &&& (2 ^ 32 - 1) = mr
    rw [and_low_mask, Nat.mod_eq_of_lt word]
  rw [mmcSetBusFreq, kept]

theorem busDiv_lt (frequency : Nat) : busDiv frequency < 2 ^ 8 := Nat.mod_lt _ (by decide)

theorem busOdd_lt (frequency : Nat) : busOdd frequency < 2 := by
  rw [busOdd, show (0b1 : Nat) = 2 ^ 1 - 1 from rfl, and_low_mask]
  exact Nat.mod_lt _ (by decide)

theorem clkDiv_or (left right : Nat) : clkDiv (left ||| right) = clkDiv left ||| clkDiv right :=
  Nat.and_or_distrib_right ..

theorem clkOdd_or (left right : Nat) : clkOdd (left ||| right) = clkOdd left ||| clkOdd right := by
  rw [clkOdd, Nat.shiftRight_or_distrib, Nat.and_or_distrib_right]
  rfl

theorem setting_eq (frequency : Nat) : busOdd frequency <<< 16 ||| busDiv frequency =
    busOdd frequency * 2 ^ 16 + busDiv frequency := by
  have small := busDiv_lt frequency
  rw [Nat.or_comm, or_shiftLeft_eq _ (by omega)]

theorem clkDiv_setting (frequency : Nat) :
    clkDiv (busOdd frequency <<< 16 ||| busDiv frequency) = busDiv frequency := by
  have small := busDiv_lt frequency
  rw [setting_eq, clkDiv, show (0xFF : Nat) = 2 ^ 8 - 1 from rfl, and_low_mask]
  omega

theorem clkOdd_setting (frequency : Nat) :
    clkOdd (busOdd frequency <<< 16 ||| busDiv frequency) = busOdd frequency := by
  have small := busDiv_lt frequency
  have odd := busOdd_lt frequency
  rw [setting_eq, clkOdd, show (0b1 : Nat) = 2 ^ 1 - 1 from rfl, and_low_mask,
    Nat.shiftRight_eq_div_pow]
  omega

/-- A call adds the bits of its divider. -/
theorem clkDiv_mmcSetBusFreq (word : mr < 2 ^ 32) :
    clkDiv (mmcSetBusFreq frequency mr) = clkDiv mr ||| busDiv frequency := by
  rw [mmcSetBusFreq_eq word, clkDiv_or, clkDiv_setting]

theorem clkOdd_mmcSetBusFreq (word : mr < 2 ^ 32) :
    clkOdd (mmcSetBusFreq frequency mr) = clkOdd mr ||| busOdd frequency := by
  rw [mmcSetBusFreq_eq word, clkOdd_or, clkOdd_setting]

theorem mmcSetBusFreq_lt (word : mr < 2 ^ 32) : mmcSetBusFreq frequency mr < 2 ^ 32 := by
  have small := busDiv_lt frequency
  have odd := busOdd_lt frequency
  rw [mmcSetBusFreq_eq word, setting_eq]
  exact Nat.or_lt_two_pow word (by omega)

theorem testBit_mmcSetBusFreq (word : mr < 2 ^ 32) {bit : Nat} (above : 8 ≤ bit)
    (notOdd : bit ≠ 16) : (mmcSetBusFreq frequency mr).testBit bit = mr.testBit bit := by
  have clearDiv : (busDiv frequency).testBit bit = false :=
    Nat.testBit_lt_two_pow (Nat.lt_of_lt_of_le (busDiv_lt frequency)
      (Nat.pow_le_pow_right (by decide) above))
  have clearOdd : (busOdd frequency <<< 16).testBit bit = false := by
    rw [Nat.testBit_shiftLeft]
    by_cases high : 16 ≤ bit
    · have clear : (busOdd frequency).testBit (bit - 16) = false :=
        Nat.testBit_lt_two_pow (Nat.lt_of_lt_of_le (busOdd_lt frequency)
          (Nat.le_self_pow (by omega) 2))
      rw [clear, Bool.and_false]
    · rw [decide_eq_false high, Bool.false_and]
  rw [mmcSetBusFreq_eq word, Nat.testBit_or, Nat.testBit_or, clearDiv, clearOdd, Bool.or_false,
    Bool.or_false]

end Fields

/-! ## The divider -/

/-- The divider of a call alone is rounded up. -/
theorem divider_enough {frequency : Nat} (slow : 400000 ≤ frequency) :
    150000000 ≤ frequency * (2 * busDiv frequency + busOdd frequency + 2) := by
  have whole := Nat.div_add_mod 150000000 frequency
  have rest : 150000000 % frequency < frequency := Nat.mod_lt _ (by omega)
  have few : 150000000 / frequency ≤ 375 :=
    (Nat.div_le_div_left slow (by decide)).trans (by decide)
  have halves : 2 * (prescaler frequency >>> 1) + busOdd frequency = prescaler frequency := by
    rw [busOdd, show (0b1 : Nat) = 2 ^ 1 - 1 from rfl, and_low_mask, Nat.shiftRight_eq_div_pow]
    omega
  by_cases divides : 2 * frequency < 150000000
  · have two : 2 ≤ 150000000 / frequency := (Nat.le_div_iff_mul_le (by omega)).mpr (by omega)
    have subtracted : u32Sub (150000000 / frequency) 2 = 150000000 / frequency - 2 :=
      u32Sub_of_le (by omega) two
    have value : prescaler frequency + 2 = 150000000 / frequency +
        if 150000000 % frequency ≠ 0 then 1 else 0 := by
      rw [prescaler, if_pos divides, subtracted]
      split <;> omega
    have small : prescaler frequency < 2 ^ 9 := by
      split at value <;> omega
    have div : busDiv frequency = prescaler frequency >>> 1 := by
      apply Nat.mod_eq_of_lt
      rw [Nat.shiftRight_eq_div_pow]
      omega
    rw [div, halves, value]
    split
    · rw [Nat.mul_add, Nat.mul_one]
      omega
    · rename_i exact_
      rw [Nat.add_zero]
      omega
  · have none_ : prescaler frequency = 0 := if_neg divides
    rw [busDiv, busOdd, none_]
    change 150000000 ≤ frequency * 2
    omega

theorem divider_pos (mr : Nat) : 0 < divider mr := Nat.succ_pos _

theorem busClock_eq_iff (left right : Nat) :
    busClock left = busClock right ↔ divider left = divider right := by
  have leftPos : (divider left : ℚ) ≠ 0 := Nat.cast_ne_zero.mpr (divider_pos left).ne'
  have rightPos : (divider right : ℚ) ≠ 0 := Nat.cast_ne_zero.mpr (divider_pos right).ne'
  rw [busClock, busClock, div_eq_div_iff leftPos rightPos]
  constructor
  · intro same
    have swapped := mul_left_cancel₀ (by norm_num : (150000000 : ℚ) ≠ 0) same
    exact (Nat.cast_injective swapped).symm
  · exact fun same => by rw [same]

theorem busClock_le_iff (mr frequency : Nat) :
    busClock mr ≤ frequency ↔ 150000000 ≤ frequency * divider mr := by
  have positive : (0 : ℚ) < divider mr := Nat.cast_pos.mpr (divider_pos mr)
  rw [busClock, div_le_iff₀ positive]
  exact_mod_cast Iff.rfl

theorem setByLast_iff {mr last : Nat} (word : mr < 2 ^ 32) (slow : 400000 ≤ last) :
    SetByLast mr (mmcSetBusFreq last mr) last ↔ Covered mr last := by
  have alone : divider (mmcSetBusFreq last 0) = 2 * busDiv last + busOdd last + 2 := by
    rw [divider, clkDiv_mmcSetBusFreq (by decide), clkOdd_mmcSetBusFreq (by decide),
      show clkDiv 0 = 0 from rfl, show clkOdd 0 = 0 from rfl, Nat.zero_or, Nat.zero_or]
  have both : divider (mmcSetBusFreq last mr) =
      2 * (clkDiv mr ||| busDiv last) + (clkOdd mr ||| busOdd last) + 2 := by
    rw [divider, clkDiv_mmcSetBusFreq word, clkOdd_mmcSetBusFreq word]
  have moreDiv : busDiv last ≤ clkDiv mr ||| busDiv last := Nat.right_le_or
  have moreOdd : busOdd last ≤ clkOdd mr ||| busOdd last := Nat.right_le_or
  constructor
  · intro set
    have same := (busClock_eq_iff _ _).mp set.clock
    rw [alone, both] at same
    constructor <;> omega
  · intro covered
    refine ⟨?_, ?_, fun bit above notOdd => testBit_mmcSetBusFreq word above notOdd⟩
    · rw [busClock_eq_iff, alone, both, covered.div, covered.odd]
    · rw [busClock_le_iff, both, covered.div, covered.odd]
      exact divider_enough slow

/-! ## Sequences of calls -/

theorem or_or_eq_right {left right last : Nat} :
    left ||| right ||| last = last ↔ left ||| last = last ∧ right ||| last = last := by
  constructor
  · intro same
    constructor
    · apply Nat.le_antisymm _ Nat.right_le_or
      calc left ||| last ≤ right ||| (left ||| last) := Nat.right_le_or
        _ = last := by rw [← Nat.or_assoc, Nat.or_comm right, same]
    · apply Nat.le_antisymm _ Nat.right_le_or
      calc right ||| last ≤ left ||| (right ||| last) := Nat.right_le_or
        _ = last := by rw [← Nat.or_assoc, same]
  · rintro ⟨first, second⟩
    rw [Nat.or_assoc, second, first]

/-- Bits that a call has set are covered when those of its own divider are. -/
theorem covered_mmcSetBusFreq_iff {mr frequency last : Nat} (word : mr < 2 ^ 32) :
    Covered (mmcSetBusFreq frequency mr) last ↔
      Covered mr last ∧ Covered (mmcSetBusFreq frequency 0) last := by
  have div := @clkDiv_mmcSetBusFreq mr frequency word
  have odd := @clkOdd_mmcSetBusFreq mr frequency word
  have divAlone : clkDiv (mmcSetBusFreq frequency 0) = busDiv frequency := by
    rw [clkDiv_mmcSetBusFreq (by decide), show clkDiv 0 = 0 from rfl, Nat.zero_or]
  have oddAlone : clkOdd (mmcSetBusFreq frequency 0) = busOdd frequency := by
    rw [clkOdd_mmcSetBusFreq (by decide), show clkOdd 0 = 0 from rfl, Nat.zero_or]
  constructor
  · intro covered
    have divs := covered.div
    have odds := covered.odd
    rw [div, or_or_eq_right] at divs
    rw [odd, or_or_eq_right] at odds
    exact ⟨⟨divs.1, odds.1⟩, divAlone ▸ divs.2, oddAlone ▸ odds.2⟩
  · rintro ⟨before, alone⟩
    constructor
    · rw [div, or_or_eq_right]
      exact ⟨before.div, divAlone ▸ alone.div⟩
    · rw [odd, or_or_eq_right]
      exact ⟨before.odd, oddAlone ▸ alone.odd⟩

theorem setBusFreqs_lt : ∀ {frequencies : List Nat} {mr : Nat}, mr < 2 ^ 32 →
    setBusFreqs frequencies mr < 2 ^ 32
  | [], _, word => word
  | _ :: rest, _, word => @setBusFreqs_lt rest _ (mmcSetBusFreq_lt word)

theorem testBit_setBusFreqs {bit : Nat} (above : 8 ≤ bit) (notOdd : bit ≠ 16) :
    ∀ {frequencies : List Nat} {mr : Nat}, mr < 2 ^ 32 →
      (setBusFreqs frequencies mr).testBit bit = mr.testBit bit
  | [], _, _ => rfl
  | frequency :: rest, mr, word => by
      have later : (setBusFreqs rest (mmcSetBusFreq frequency mr)).testBit bit =
          (mmcSetBusFreq frequency mr).testBit bit :=
        testBit_setBusFreqs above notOdd (mmcSetBusFreq_lt word)
      exact later.trans (testBit_mmcSetBusFreq word above notOdd)

theorem covered_setBusFreqs_iff {last : Nat} : ∀ {earlier : List Nat} {mr : Nat}, mr < 2 ^ 32 →
    (Covered (setBusFreqs earlier mr) last ↔
      Covered mr last ∧ ∀ frequency ∈ earlier, Covered (mmcSetBusFreq frequency 0) last)
  | [], mr, _ => ⟨fun covered => ⟨covered, by simp⟩, And.left⟩
  | frequency :: rest, mr, word => by
      have later : Covered (setBusFreqs rest (mmcSetBusFreq frequency mr)) last ↔
          Covered (mmcSetBusFreq frequency mr) last ∧
            ∀ other ∈ rest, Covered (mmcSetBusFreq other 0) last :=
        covered_setBusFreqs_iff (mmcSetBusFreq_lt word)
      rw [List.forall_mem_cons, ← and_assoc, ← covered_mmcSetBusFreq_iff word]
      exact later

/-- The clock is the last call's exactly when that call sets all the bits that
the register held and that the earlier calls have set. -/
theorem clock_set_by_last_iff {mr last : Nat} {earlier : List Nat} (word : mr < 2 ^ 32)
    (inRange : ∀ frequency ∈ earlier ++ [last], 400000 ≤ frequency ∧ frequency ≤ 75000000) :
    SetByLast mr (setBusFreqs (earlier ++ [last]) mr) last ↔
      Covered mr last ∧ ∀ frequency ∈ earlier, Covered (mmcSetBusFreq frequency 0) last := by
  have slow := (inRange last (List.mem_append_right _ List.mem_cons_self)).1
  have before := @setBusFreqs_lt earlier mr word
  have run : setBusFreqs (earlier ++ [last]) mr =
      mmcSetBusFreq last (setBusFreqs earlier mr) := by
    rw [setBusFreqs, List.foldl_append]
    rfl
  rw [run, ← covered_setBusFreqs_iff word, ← setByLast_iff before slow]
  have kept : ∀ bit, 8 ≤ bit → bit ≠ 16 →
      (setBusFreqs earlier mr).testBit bit = mr.testBit bit :=
    fun bit above notOdd => testBit_setBusFreqs above notOdd word
  constructor
  · intro set
    exact ⟨set.clock, set.bounded,
      fun bit above notOdd => (set.others bit above notOdd).trans (kept bit above notOdd).symm⟩
  · intro set
    exact ⟨set.clock, set.bounded,
      fun bit above notOdd => (set.others bit above notOdd).trans (kept bit above notOdd)⟩

theorem clock_set_by_last_iff_slower :
    SetByLast 0 (setBusFreqs ([25000000] ++ [400000]) 0) 400000 ↔
      Covered 0 400000 ∧ ∀ frequency ∈ [25000000], Covered (mmcSetBusFreq frequency 0) 400000 :=
  clock_set_by_last_iff (by decide) (by decide)

/-- The two calls of `sd_protocol_init` leave the clock at 400 kHz. -/
theorem clock_stays_slow : setBusFreqs ([400000] ++ [25000000]) 0 = setBusFreqs [400000] 0 ∧
    ¬ SetByLast 0 (setBusFreqs ([400000] ++ [25000000]) 0) 25000000 := by
  have stays : setBusFreqs ([400000] ++ [25000000]) 0 = setBusFreqs [400000] 0 := by decide
  refine ⟨stays, fun set => ?_⟩
  have clocks := set.clock
  rw [stays, busClock_eq_iff] at clocks
  revert clocks
  decide

end Vanilla.Disk
