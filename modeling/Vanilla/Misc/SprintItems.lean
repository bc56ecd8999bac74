import Vanilla.Misc.SprintRun

namespace Vanilla.Misc

/-! What the documented directives of sprint.c are to print, and when
print_to_buffer_va prints it. -/

/-! ## The documented formats -/

inductive Directive where
  | string
  | char
  | unsigned
  | signed
  | binary
  | hex
  | happy
deriving DecidableEq

/-- A piece of a format as it is written; the digits are those of the optional
number. -/
inductive Item where
  | literal (char : UInt8)
  | directive (kind : Directive) (digits : List UInt8)

namespace Directive

def letter : Directive → UInt8
  | .string => ascii 's'
  | .char => ascii 'c'
  | .unsigned => ascii 'u'
  | .signed => ascii 'd'
  | .binary => ascii 'b'
  | .hex => ascii 'h'
  | .happy => ascii 'e'

/-- Which numbers there may be. -/
def Documented (digits : List UInt8) : Directive → Prop
  | .string => True
  | .char => digits = []
  | .unsigned => digits = []
  | .signed => digits = []
  | .binary => numeralValue digits ≤ 32
  | .hex => numeralValue digits ≤ 4
  | .happy => True

def takes : Directive → Nat
  | .happy => 0
  | _ => 1

end Directive

namespace Item

def encode : Item → List UInt8
  | .literal char => [char]
  | .directive kind digits => ascii '%' :: (digits ++ [kind.letter])

def Documented : Item → Prop
  | .literal char => char ≠ 0 ∧ char ≠ ascii '%'
  | .directive kind digits => (∀ char ∈ digits, isDigit char) ∧ kind.Documented digits

def takes : Item → Nat
  | .literal _ => 0
  | .directive kind _ => kind.takes

end Item

/-! ## What they are to print -/

/-- No limit is given by no number or zero. -/
def stringText (limit : Nat) (text : List UInt8) : List UInt8 :=
  if limit = 0 then text else text.take limit

def signedText (value : Int) : List UInt8 :=
  if value < 0 then ascii '-' :: decimal value.natAbs else decimal value.natAbs

/-- The low bits, the highest first, in groups of eight. -/
def bitsText (word : Nat) : Nat → List UInt8
  | 0 => []
  | bit + 1 =>
      (if word.testBit bit then ascii '1' else ascii '0') ::
        ((if bit % 8 = 0 then [ascii ' '] else []) ++ bitsText word bit)

def hexDigit (digit : Nat) : UInt8 :=
  if digit < 10 then ascii '0' + UInt8.ofNat digit else ascii 'A' + UInt8.ofNat (digit - 10)

/-- The low bytes, the most significant first. -/
def bytesText (word : Nat) : Nat → List UInt8
  | 0 => []
  | byte + 1 =>
      hexDigit (word / 256 ^ byte % 256 / 16) :: hexDigit (word / 256 ^ byte % 16) ::
        bytesText word byte

def Directive.text (number : Nat) (arg : Arg) : Directive → List UInt8
  | .string => stringText number arg.text.chars
  | .char => [UInt8.ofNat arg.word.toNat]
  | .unsigned => decimal arg.word.toNat
  | .signed => signedText arg.word.toBitVec.toInt
  | .binary => bitsText arg.word.toNat number
  | .hex => bytesText arg.word.toNat number
  | .happy => (List.replicate number [ascii ':', ascii 'D']).flatten

def Item.text (arg : Arg) : Item → List UInt8
  | .literal char => [char]
  | .directive kind digits => kind.text (numeralValue digits) arg

def itemsTake (items : List Item) : Nat := (items.map Item.takes).sum

/-- The literals and the texts of the arguments, one after the other. -/
def itemsText : List Item → (Nat → Arg) → List UInt8
  | [], _ => []
  | item :: rest, args =>
      item.text (args 0) ++ itemsText rest (fun index => args (item.takes + index))

/-- Wherever the format lies, exactly the text is stored, the arguments are used
up, and the number of characters is returned. -/
def Printed (platform : Platform) (args : Nat → Arg) (sink : Sink) (items : List Item) :
    Prop :=
  ∀ format, Spells format 0 (items.flatMap Item.encode) →
    ∃ last, Prints platform format args sink last ∧
      last.sink = sink.storeAll 0 (itemsText items args) ∧
      last.size = (itemsText items args).length ∧
      last.taken = itemsTake items

/-! ## When they print it -/

/-- The number is a byte, and `u` prints a signed integer. -/
def Directive.Fits (number : Nat) (arg : Arg) : Directive → Prop
  | .string => number < 256 ∨
      arg.text.chars.length ≤ if number % 256 = 0 then number else number % 256
  | .unsigned => arg.word.toNat < 2 ^ 31
  | .happy => number < 256
  | _ => True

/-- The digits are counted in a byte. -/
def Item.Fits (arg : Arg) : Item → Prop
  | .literal _ => True
  | .directive kind digits => digits.length < 256 ∧ kind.Fits (numeralValue digits) arg

def AllFit : List Item → (Nat → Arg) → Prop
  | [], _ => True
  | item :: rest, args => item.Fits (args 0) ∧ AllFit rest (fun index => args (item.takes + index))

/-! ## The conversions -/

def Directive.conversion : Directive → Conversion
  | .string => .string
  | .char => .char
  | .unsigned => .integer
  | .signed => .integer
  | .binary => .binary
  | .hex => .hex
  | .happy => .happy

theorem Directive.conversion_letter (kind : Directive) :
    Vanilla.Misc.conversion kind.letter = some kind.conversion := by
  cases kind <;> decide

theorem Directive.conversion_takes (kind : Directive) :
    kind.conversion.takes = kind.takes := by
  cases kind <;> rfl

theorem string_fits_iff (number : Nat) (text : List UInt8) :
    (if number % 2 ^ 8 = 0 then text else text.take (number % 2 ^ 8)) = stringText number text ↔
      number < 256 ∨ text.length ≤ if number % 256 = 0 then number else number % 256 := by
  have whole {limit : Nat} (enough : text.length ≤ limit) : text.take limit = text :=
    List.take_of_length_le enough
  rw [stringText]
  by_cases small : number < 256
  · have same : number % 2 ^ 8 = number := Nat.mod_eq_of_lt small
    rw [same]
    exact ⟨fun _ => .inl small, fun _ => rfl⟩
  · have positive : number ≠ 0 := by omega
    rw [if_neg positive]
    by_cases zero : number % 256 = 0
    · have none : number % 2 ^ 8 = 0 := zero
      rw [if_pos none, if_pos zero]
      constructor
      · intro same
        have lengths := congrArg List.length same
        rw [List.length_take] at lengths
        right
        omega
      · intro fits
        exact (whole (fits.resolve_left small)).symm
    · have some : number % 2 ^ 8 ≠ 0 := zero
      rw [if_neg some, if_neg zero]
      constructor
      · intro same
        have lengths := congrArg List.length same
        rw [List.length_take, List.length_take] at lengths
        have less : number % 2 ^ 8 < number := by omega
        right
        omega
      · intro fits
        have short := fits.resolve_left small
        have less : number % 2 ^ 8 < number := by omega
        exact (whole short).trans (whole (Nat.le_trans short (Nat.le_of_lt less))).symm

theorem minus_not_digit : ¬isDigit (ascii '-') := by decide

theorem unsigned_fits_iff {word : Nat} : integerText word = decimal word ↔ word < 2 ^ 31 := by
  rw [integerText]
  constructor
  · intro same
    by_contra large
    rw [if_pos (Nat.le_of_not_lt large)] at same
    have digit := decimal_digits word (ascii '-') (same ▸ List.mem_cons_self)
    exact minus_not_digit digit
  · intro small
    rw [if_neg (Nat.not_le_of_lt small)]

theorem integerText_signed (word : UInt32) :
    integerText word.toNat = signedText word.toBitVec.toInt := by
  have bound := word.toNat_lt
  have value := BitVec.toInt_eq_toNat_cond word.toBitVec
  rw [UInt32.toNat_toBitVec] at value
  rw [integerText, signedText]
  by_cases negative : 2 ^ 31 ≤ word.toNat
  · rw [if_neg (by omega)] at value
    have magnitude : word.toBitVec.toInt.natAbs = 2 ^ 32 - word.toNat := by omega
    rw [if_pos negative, if_pos (by omega), magnitude]
  · rw [if_pos (by omega)] at value
    have magnitude : word.toBitVec.toInt.natAbs = word.toNat := by omega
    rw [if_neg negative, if_neg (by omega), magnitude]

theorem binaryText_eq (shifts : Shifts) (word : Nat) {number : Nat} (bits : number ≤ 32) :
    binaryText shifts word number = bitsText word number := by
  induction number with
  | zero => rfl
  | succ bit induction =>
      have one : shifts.one bit = 2 ^ bit := by
        rw [Shifts.one, if_pos (by omega), Nat.one_shiftLeft]
      have set : word &&& shifts.one bit ≠ 0 ↔ word.testBit bit = true := by
        rw [one, Nat.and_comm, Nat.two_pow_and]
        cases word.testBit bit with
        | false => simp
        | true => simp
      rw [binaryText, bitsText, induction (by omega)]
      simp only [set]

theorem hexTable_eq {digit : Nat} (nibble : digit < 16) :
    Printer.hexTable digit = hexDigit digit := by
  have all : ∀ digit : Fin 16, Printer.hexTable digit = hexDigit digit := by decide
  exact all ⟨digit, nibble⟩

theorem hexText_eq (shifts : Shifts) (word : Nat) {number : Nat} (bytes : number ≤ 4) :
    hexText shifts word number = bytesText word number := by
  induction number with
  | zero => rfl
  | succ byte induction =>
      have shifted : shifts.byte word (byte * 8) = word / 256 ^ byte % 256 := by
        rw [Shifts.byte, if_pos (by omega), Nat.shiftRight_eq_div_pow, Nat.mul_comm byte,
          Nat.pow_mul]
        rfl
      have upper : shifts.byte word (byte * 8) >>> 4 = word / 256 ^ byte % 256 / 16 := by
        rw [shifted, Nat.shiftRight_eq_div_pow]
      have lower : shifts.byte word (byte * 8) &&& 0b1111 = word / 256 ^ byte % 16 := by
        have mask : word / 256 ^ byte % 256 &&& 0b1111 = word / 256 ^ byte % 256 % 16 :=
          and_low_mask (word / 256 ^ byte % 256) 4
        rw [shifted, mask]
        omega
      rw [hexText, bytesText, induction (by omega)]
      simp only [upper, lower]
      rw [hexTable_eq (by omega), hexTable_eq (by omega)]

theorem happyText_eq (number : Nat) :
    happyText number = (List.replicate number [ascii ':', ascii 'D']).flatten := by
  induction number with
  | zero => rfl
  | succ left induction =>
      rw [happyText, induction, List.replicate_succ, List.flatten_cons]
      rfl

theorem happy_fits_iff (number : Nat) :
    happyText (number % 2 ^ 8) = (List.replicate number [ascii ':', ascii 'D']).flatten ↔
      number < 256 := by
  rw [← happyText_eq]
  constructor
  · intro same
    have length (number : Nat) : (happyText number).length = number * 2 := by
      rw [happyText_eq, List.length_flatten, List.map_replicate, List.sum_replicate_nat]
      rfl
    have lengths := congrArg List.length same
    rw [length, length] at lengths
    omega
  · intro small
    have byte : number % 2 ^ 8 = number := Nat.mod_eq_of_lt small
    rw [byte]

/-- A documented directive prints its text exactly if it fits. -/
theorem Directive.text_iff (shifts : Shifts) {kind : Directive} {digits : List UInt8}
    (documented : kind.Documented digits) (arg : Arg) :
    kind.conversion.text shifts (numeralValue digits % 2 ^ 8) arg =
        kind.text (numeralValue digits) arg ↔
      kind.Fits (numeralValue digits) arg := by
  cases kind with
  | string => exact string_fits_iff ..
  | char => exact iff_of_true rfl trivial
  | unsigned => exact unsigned_fits_iff
  | signed => exact iff_of_true (integerText_signed arg.word) trivial
  | binary =>
      have bits : numeralValue digits ≤ 32 := documented
      have byte : numeralValue digits % 2 ^ 8 = numeralValue digits :=
        Nat.mod_eq_of_lt (Nat.lt_of_le_of_lt bits (by decide))
      rw [byte]
      exact iff_of_true (binaryText_eq shifts _ bits) trivial
  | hex =>
      have bytes : numeralValue digits ≤ 4 := documented
      have byte : numeralValue digits % 2 ^ 8 = numeralValue digits :=
        Nat.mod_eq_of_lt (Nat.lt_of_le_of_lt bytes (by decide))
      rw [byte]
      exact iff_of_true (hexText_eq shifts _ bytes) trivial
  | happy => exact happy_fits_iff ..

end Vanilla.Misc
