import Mathlib.Data.List.Induction
import Mathlib.Data.Nat.Digits.Defs
import Vanilla.Misc.Sprint

namespace Vanilla.Misc

/-! What print_uint_to_buffer prints: the loop fills `int_buffer` from the
lowest digit, and copying it back turns the digits round. -/

def digitChar (digit : Nat) : UInt8 := UInt8.ofNat (48 + digit)

/-- The decimal numeral without leading zeros. -/
def decimal (value : Nat) : List UInt8 :=
  (if value / 10 = 0 then [] else decimal (value / 10)) ++ [digitChar (value % 10)]
termination_by value
decreasing_by omega

/-- The number that a text of digits stands for. -/
def numeralValue (text : List UInt8) : Nat :=
  Nat.ofDigits 10 (text.reverse.map (fun char => char.toNat - 48))

theorem digitChar_toNat {digit : Nat} (small : digit < 10) :
    (digitChar digit).toNat = 48 + digit := by
  simp only [digitChar, UInt8.toNat_ofNat']
  omega

theorem digitChar_isDigit {digit : Nat} (small : digit < 10) :
    isDigit (digitChar digit) := by
  have value := digitChar_toNat small
  constructor
  · rw [UInt8.le_iff_toNat_le, value]
    exact Nat.le_add_right 48 digit
  · rw [UInt8.le_iff_toNat_le, value]
    have nine : (ascii '9').toNat = 57 := rfl
    omega

theorem decimal_last {value : Nat} (small : value / 10 = 0) :
    decimal value = [digitChar (value % 10)] := by
  rw [decimal, if_pos small, List.nil_append]

theorem decimal_more {value : Nat} (more : value / 10 ≠ 0) :
    decimal value = decimal (value / 10) ++ [digitChar (value % 10)] := by
  rw [decimal, if_neg more]

theorem decimal_ne_nil (value : Nat) : decimal value ≠ [] := by
  rw [decimal]
  exact List.append_ne_nil_of_right_ne_nil _ (List.cons_ne_nil _ _)

/-- One induction for all that holds of the numerals. -/
theorem decimal_induction {holds : Nat → Prop}
    (last : ∀ value, value / 10 = 0 → holds value)
    (more : ∀ value, value / 10 ≠ 0 → holds (value / 10) → holds value)
    (value : Nat) : holds value := by
  induction value using Nat.strong_induction_on with
  | _ value induction =>
      by_cases small : value / 10 = 0
      · exact last value small
      · exact more value small (induction (value / 10) (by omega))

theorem decimal_digits (value : Nat) : ∀ char ∈ decimal value, isDigit char := by
  have lowest (value : Nat) : isDigit (digitChar (value % 10)) :=
    digitChar_isDigit (Nat.mod_lt value (by decide))
  induction value using decimal_induction with
  | last value small =>
      rw [decimal_last small]
      exact List.forall_mem_singleton.mpr (lowest value)
  | more value rest induction =>
      rw [decimal_more rest]
      exact List.forall_mem_append.mpr
        ⟨induction, List.forall_mem_singleton.mpr (lowest value)⟩

theorem numeralValue_decimal (value : Nat) : numeralValue (decimal value) = value := by
  have lowest (value : Nat) : (digitChar (value % 10)).toNat - 48 = value % 10 := by
    rw [digitChar_toNat (Nat.mod_lt value (by decide)), Nat.add_sub_cancel_left]
  induction value using decimal_induction with
  | last value small =>
      rw [decimal_last small, numeralValue, List.reverse_singleton, List.map_singleton,
        Nat.ofDigits_singleton, lowest]
      omega
  | more value rest induction =>
      rw [numeralValue] at induction
      rw [decimal_more rest, numeralValue, List.reverse_append, List.reverse_singleton,
        List.singleton_append, List.map_cons, Nat.ofDigits_cons, induction, lowest]
      exact Nat.mod_add_div value 10

theorem decimal_no_leading_zero (value : Nat)
    (zero : (decimal value).head? = some (ascii '0')) : value = 0 := by
  induction value using decimal_induction with
  | last value small =>
      rw [decimal_last small, List.head?_cons] at zero
      have same := congrArg UInt8.toNat (Option.some.inj zero)
      rw [digitChar_toNat (Nat.mod_lt value (by decide))] at same
      have digit : (ascii '0').toNat = 48 := rfl
      omega
  | more value rest induction =>
      rw [decimal_more rest, List.head?_append] at zero
      cases first : (decimal (value / 10)).head? with
      | none => exact absurd (List.head?_eq_none_iff.mp first) (decimal_ne_nil _)
      | some char =>
          rw [first] at zero
          exact absurd (induction (first.trans zero)) rest

theorem decimal_length_pos (value : Nat) : 1 ≤ (decimal value).length :=
  List.length_pos_iff.mpr (decimal_ne_nil value)

theorem decimal_length_le {value count : Nat} (bound : value < 10 ^ (count + 1)) :
    (decimal value).length ≤ count + 1 := by
  induction count generalizing value with
  | zero =>
      have small : value / 10 = 0 := by omega
      rw [decimal_last small]
      exact Nat.le_refl 1
  | succ count induction =>
      by_cases small : value / 10 = 0
      · rw [decimal_last small]
        exact Nat.le_add_left 1 _
      · have fewer := induction (Nat.div_lt_of_lt_mul (by rw [Nat.pow_succ'] at bound; exact bound))
        rw [decimal_more small, List.length_append, List.length_singleton]
        exact Nat.succ_le_succ fewer

theorem decimal_length_word {value : Nat} (word : value < 2 ^ 32) :
    (decimal value).length ≤ 10 :=
  decimal_length_le (Nat.lt_trans word (by decide))

/-! ## The two loops -/

namespace IntBuffer

/-- The buffer holds these digits, the lowest first, and the pointer stands
behind them. -/
structure Holds (low : List UInt8) (buffer : IntBuffer) : Prop where
  pointer : buffer.pointer = low.length
  size : buffer.size = low.length
  chars : ∀ index : Nat, ∀ inside : index < low.length,
    buffer.chars index = low[index]
  used : ∀ index ∈ buffer.used, 0 ≤ index ∧ index < low.length

theorem storeDigit_holds {low : List UInt8} {buffer : IntBuffer} (holds : buffer.Holds low)
    (short : low.length < 255) (value : Nat) :
    Holds (low ++ [digitChar (value % 10)])
      { buffer.storeDigit value with pointer := buffer.pointer + 1 } where
  pointer := by rw [holds.pointer, List.length_append, List.length_singleton, Nat.cast_succ]
  size := by
    simp only [storeDigit, holds.size, List.length_append, List.length_singleton]
    omega
  chars := by
    intro index inside
    rw [List.length_append, List.length_singleton] at inside
    rcases Nat.lt_succ_iff_lt_or_eq.mp inside with before | last
    · rw [List.getElem_append_left before, ← holds.chars index before]
      apply Function.update_of_ne
      rw [holds.pointer]
      omega
    · subst last
      rw [List.getElem_concat_length rfl, ← holds.pointer]
      exact Function.update_self ..
  used := by
    intro index member
    rw [List.length_append, List.length_singleton]
    rcases List.mem_append.mp member with before | last
    · have inside := holds.used index before
      omega
    · rw [List.mem_singleton.mp last, holds.pointer]
      omega

/-- All rounds together, with the last digit. -/
theorem digitLoop_holds {rounds value : Nat} (enough : value ≤ rounds) {low : List UInt8}
    {buffer : IntBuffer} (holds : buffer.Holds low)
    (short : low.length + (decimal value).length ≤ 255) :
    let digits := digitLoop rounds value buffer
    Holds (low ++ (decimal value).reverse)
      { digits.2.storeDigit digits.1 with pointer := digits.2.pointer + 1 } := by
  have one := decimal_length_pos value
  have stored := storeDigit_holds holds (by omega) value
  induction rounds generalizing value low buffer with
  | zero =>
      have zero : value = 0 := Nat.le_zero.mp enough
      subst zero
      rw [decimal_last rfl]
      exact stored
  | succ rounds induction =>
      rw [digitLoop]
      by_cases small : value / 10 = 0
      · rw [if_neg (not_not_intro small), decimal_last small]
        exact stored
      · have longer := decimal_more small
        rw [longer, List.length_append, List.length_singleton] at short
        have left := decimal_length_pos (value / 10)
        have room : (low ++ [digitChar (value % 10)]).length + (decimal (value / 10)).length
            ≤ 255 := by
          rw [List.length_append, List.length_singleton]
          omega
        rw [if_pos small, longer, List.reverse_append, List.reverse_singleton,
          ← List.append_assoc]
        exact induction (by omega) stored room left
          (storeDigit_holds stored (by omega) (value / 10))

theorem copyBack_eq {low : List UInt8} {buffer : IntBuffer}
    (pointer : buffer.pointer = low.length - 1)
    (chars : ∀ index : Nat, ∀ inside : index < low.length, buffer.chars index = low[index])
    (offset : Nat) (sink : Sink) :
    (buffer.copyBack low.length offset sink).1 = sink.storeAll offset low.reverse ∧
      ∀ index ∈ (buffer.copyBack low.length offset sink).2,
        index ∈ buffer.used ∨ 0 ≤ index ∧ index < low.length := by
  induction low using List.reverseRecOn generalizing buffer offset sink with
  | nil =>
      refine ⟨rfl, ?_⟩
      intro index member
      exact .inl member
  | append_singleton front last induction =>
      have length : (front ++ [last]).length = front.length + 1 := List.length_append
      have highest : buffer.pointer = front.length := by
        rw [pointer, length]
        omega
      rw [length, copyBack, highest, chars front.length (length ▸ Nat.lt_succ_self _),
        List.getElem_concat_length rfl, List.reverse_append, List.reverse_singleton]
      rcases @induction { buffer with
          pointer := front.length - 1
          used := buffer.used ++ [(front.length : Int)] } rfl (by
        intro index inside
        have copied := chars index (by omega)
        rw [List.getElem_append_left inside] at copied
        exact copied) (offset + 1) (sink.store offset last) with ⟨copied, used⟩
      refine ⟨copied, ?_⟩
      intro index member
      rcases used index member with before | inside
      · rcases List.mem_append.mp before with before | now
        · exact .inl before
        · rw [List.mem_singleton.mp now]
          omega
      · omega

end IntBuffer

/-- The numeral is stored from the offset on, its length is returned, and
`int_buffer` is used at the places of the digits only. -/
theorem printUintToBuffer_eq (locals : Int → UInt8) (offset : Nat) {value : Nat}
    (short : (decimal value).length ≤ 255) (sink : Sink) :
    (printUintToBuffer locals offset value sink).sink =
        sink.storeAll offset (decimal value) ∧
      (printUintToBuffer locals offset value sink).size = (decimal value).length ∧
      ∀ index ∈ (printUintToBuffer locals offset value sink).used,
        0 ≤ index ∧ index < (decimal value).length := by
  have empty : IntBuffer.Holds [] ⟨locals, 0, [], 0⟩ := by
    refine ⟨rfl, rfl, ?_, ?_⟩
    · intro index inside
      cases inside
    · intro index member
      cases member
  have all : 0 + (decimal value).length ≤ 255 := by omega
  have filled := IntBuffer.digitLoop_holds (Nat.le_refl value) empty all
  let digits := IntBuffer.digitLoop value value ⟨locals, 0, [], 0⟩
  let buffer := digits.2.storeDigit digits.1
  have size : buffer.size = (decimal value).reverse.length := filled.size
  have pointer : buffer.pointer = ((decimal value).reverse.length : Int) - 1 :=
    eq_sub_of_add_eq filled.pointer
  rcases IntBuffer.copyBack_eq pointer filled.chars offset sink with ⟨copied, used⟩
  rw [← size] at copied used
  refine ⟨?_, ?_, ?_⟩
  · rw [List.reverse_reverse] at copied
    exact copied
  · rw [← List.length_reverse]
    exact size
  · intro index member
    rw [← List.length_reverse, ← size]
    rcases used index member with before | inside
    · exact size ▸ filled.used index before
    · exact inside

/-! ## The property -/

/-- What has been printed from the offset on. -/
def UintPrinted.text (offset : Nat) (printed : UintPrinted) : List UInt8 :=
  (List.range printed.size).map (fun place => printed.sink.chars (offset + place))

theorem storeAll_text (text : List UInt8) (offset : Nat) (sink : Sink) :
    (List.range text.length).map
      (fun place => (sink.storeAll offset text).chars (offset + place)) = text := by
  apply List.ext_getElem
  · rw [List.length_map, List.length_range]
  · intro place inside stored
    rw [List.getElem_map, List.getElem_range]
    exact Sink.storeAll_inside offset stored sink

/-- Between one and ten digits are printed, the first of them no zero unless the
value is zero; they stand for the value, and are all that is stored. The local
array is used inside its ten bytes. -/
theorem uint_printed (locals : Int → UInt8) (offset value : Nat) (sink : Sink)
    (word : value < 2 ^ 32) :
    let printed := printUintToBuffer locals offset value sink
    let text := printed.text offset
    1 ≤ printed.size ∧ printed.size ≤ 10 ∧
      (∀ char ∈ text, isDigit char) ∧
      (text.head? = some (ascii '0') → value = 0 ∧ text = [ascii '0']) ∧
      numeralValue text = value ∧
      printed.sink.stores = sink.stores ++ List.range' offset printed.size ∧
      (∀ place, place < offset ∨ offset + printed.size ≤ place →
        printed.sink.chars place = sink.chars place) ∧
      ∀ index ∈ printed.used, 0 ≤ index ∧ index < 10 := by
  intro printed text
  have ten := decimal_length_word word
  have short : (decimal value).length ≤ 255 := Nat.le_trans ten (by decide)
  rcases printUintToBuffer_eq locals offset short sink with ⟨stored, size, used⟩
  have same : text = decimal value := by
    rw [← storeAll_text (decimal value) offset sink, ← stored, ← size]
    rfl
  refine ⟨?_, ?_, ?_, ?_, ?_, ?_, ?_, ?_⟩
  · exact size ▸ decimal_length_pos value
  · exact size ▸ ten
  · exact same ▸ decimal_digits value
  · rw [same]
    intro zero
    have nothing := decimal_no_leading_zero value zero
    subst nothing
    exact ⟨rfl, decimal_last rfl⟩
  · rw [same]
    exact numeralValue_decimal value
  · rw [stored, size]
    exact Sink.storeAll_stores ..
  · rw [stored, size]
    intro place outside
    exact Sink.storeAll_outside outside sink
  · intro index member
    have inside := used index member
    omega

/-- The largest word. -/
theorem uint_printed_largest :
    numeralValue ((printUintToBuffer (fun _ => 0) 3 4294967295 ⟨fun _ => 0, []⟩).text 3) =
      4294967295 := by
  rcases uint_printed (fun _ => 0) 3 4294967295 ⟨fun _ => 0, []⟩ (by decide) with
    ⟨-, -, -, -, value, -⟩
  exact value

end Vanilla.Misc
