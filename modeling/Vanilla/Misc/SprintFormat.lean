import Vanilla.Misc.SprintDecimal

namespace Vanilla.Misc

/-! What print_to_buffer_va prints, as a function of the format and the
arguments: the format is taken apart into pieces, each of which has a text. -/

/-! ## The text of a conversion -/

/-- The bits below `i`, the highest first, with a space behind each that ends a
byte. -/
def binaryText (shifts : Shifts) (word : Nat) : Nat → List UInt8
  | 0 => []
  | i + 1 =>
      (if word &&& shifts.one i ≠ 0 then ascii '1' else ascii '0') ::
        ((if i % 8 = 0 then [ascii ' '] else []) ++ binaryText shifts word i)

def hexText (shifts : Shifts) (word : Nat) : Nat → List UInt8
  | 0 => []
  | left + 1 =>
      let byte := shifts.byte word (left * 8)
      Printer.hexTable (byte >>> 4) :: Printer.hexTable (byte &&& 0b1111) ::
        hexText shifts word left

def happyText : Nat → List UInt8
  | 0 => []
  | left + 1 => ascii ':' :: ascii 'D' :: happyText left

def integerText (word : Nat) : List UInt8 :=
  if 2 ^ 31 ≤ word then ascii '-' :: decimal (2 ^ 32 - word) else decimal word

def Conversion.text (shifts : Shifts) (number : Nat) (arg : Arg) : Conversion → List UInt8
  | .string => if number = 0 then arg.text.chars else arg.text.chars.take number
  | .char => [UInt8.ofNat arg.word.toNat]
  | .integer => integerText arg.word.toNat
  | .binary => binaryText shifts arg.word.toNat number
  | .hex => hexText shifts arg.word.toNat number
  | .happy => happyText number

namespace Printer

theorem copyString_append (front back : List UInt8) (printer : Printer) :
    printer.copyString (front ++ back) = (printer.copyString front).copyString back := by
  induction front generalizing printer with
  | nil => rfl
  | cons char rest induction => exact induction (printer.put char)

theorem copyString_sink (text : List UInt8) (printer : Printer) :
    (printer.copyString text).sink = printer.sink.storeAll printer.dest text := by
  induction text generalizing printer with
  | nil => rfl
  | cons char rest induction => exact induction (printer.put char)

theorem copyString_dest (text : List UInt8) (printer : Printer) :
    (printer.copyString text).dest = printer.dest + text.length := by
  induction text generalizing printer with
  | nil => rfl
  | cons char rest induction =>
      rw [copyString, induction, List.length_cons, Nat.add_comm rest.length, ← Nat.add_assoc]
      rfl

theorem copyString_size (text : List UInt8) {printer : Printer} (word : printer.size < 2 ^ 16) :
    (printer.copyString text).size = (printer.size + text.length) % 2 ^ 16 := by
  induction text generalizing printer with
  | nil => exact (Nat.mod_eq_of_lt word).symm
  | cons char rest induction =>
      have put : (printer.put char).size = (printer.size + 1) % 2 ^ 16 := rfl
      rw [copyString, induction (put ▸ Nat.mod_lt _ (by decide)), put, List.length_cons,
        Nat.mod_add_mod, Nat.add_assoc, Nat.add_comm 1]

/-- Copying is apart from where the scanner stands. -/
theorem copyString_frame (text : List UInt8) (printer : Printer) (phase : Phase)
    (src taken : Nat) (reads : List Nat) :
    copyString text { printer with phase := phase, src := src, taken := taken, reads := reads } =
      { printer.copyString text with
        phase := phase, src := src, taken := taken, reads := reads } := by
  induction text generalizing printer with
  | nil => rfl
  | cons char rest induction => exact induction (printer.put char)

/-- The scanner stays where it is. -/
theorem copyString_scanner (text : List UInt8) (printer : Printer) :
    printer.copyString text =
      { printer with
        sink := (printer.copyString text).sink
        dest := (printer.copyString text).dest
        size := (printer.copyString text).size } := by
  induction text generalizing printer with
  | nil => rfl
  | cons char rest induction => exact induction (printer.put char)

theorem copyLimited_eq (limit : Nat) (text : List UInt8) (printer : Printer) :
    printer.copyLimited limit text = printer.copyString (text.take limit) := by
  induction limit generalizing text printer with
  | zero => rfl
  | succ limit induction =>
      cases text with
      | nil => rfl
      | cons char rest => exact induction rest (printer.put char)

theorem putUint_eq (locals : Int → UInt8) {value : Nat} (word : value < 2 ^ 32)
    {printer : Printer} (size : printer.size < 2 ^ 16) :
    printer.putUint locals value = printer.copyString (decimal value) := by
  have short : (decimal value).length ≤ 255 :=
    Nat.le_trans (decimal_length_word word) (by decide)
  rcases printUintToBuffer_eq locals printer.dest short printer.sink with
    ⟨stored, printed, -⟩
  rw [putUint, stored, printed, ← copyString_sink, ← copyString_dest, ← copyString_size _ size]
  exact (copyString_scanner (decimal value) printer).symm

theorem binaryLoop_eq (shifts : Shifts) (word i : Nat) (printer : Printer) :
    printer.binaryLoop shifts word i = printer.copyString (binaryText shifts word i) := by
  induction i generalizing printer with
  | zero => rfl
  | succ i induction =>
      rw [binaryLoop, binaryText]
      by_cases byte : i % 8 = 0
      · simp only [byte, if_true]
        exact induction _
      · simp only [byte, if_false]
        exact induction _

theorem hexLoop_eq (shifts : Shifts) (word left : Nat) (printer : Printer) :
    printer.hexLoop shifts word left = printer.copyString (hexText shifts word left) := by
  induction left generalizing printer with
  | zero => rfl
  | succ left induction => exact induction _

theorem happyLoop_eq (left : Nat) (printer : Printer) :
    printer.happyLoop left = printer.copyString (happyText left) := by
  induction left generalizing printer with
  | zero => rfl
  | succ left induction => exact induction _

end Printer

/-- Every case of the switch copies the text of the conversion. -/
theorem Conversion.convert_eq (platform : Platform) (optFmt : Nat) (arg : Arg)
    (conversion : Conversion) {printer : Printer} (size : printer.size < 2 ^ 16) :
    conversion.convert platform optFmt arg printer =
      printer.copyString (conversion.text platform.shifts optFmt arg) := by
  have word := arg.word.toNat_lt
  cases conversion with
  | string =>
      rw [convert, text]
      by_cases whole : optFmt = 0
      · rw [if_neg (not_not_intro whole), if_pos whole]
      · rw [if_pos whole, if_neg whole, Printer.copyLimited_eq]
  | char => rfl
  | integer =>
      rw [convert, text, integerText]
      by_cases negative : 2 ^ 31 ≤ arg.word.toNat
      · have magnitude : u32Sub 0 arg.word.toNat = 2 ^ 32 - arg.word.toNat := by
          simp only [u32Sub]
          omega
        have minus : (printer.put (ascii '-')).size < 2 ^ 16 := Nat.mod_lt _ (by decide)
        rw [if_pos negative, if_pos negative, magnitude,
          Printer.putUint_eq platform.locals (by omega) minus]
        rfl
      · rw [if_neg negative, if_neg negative, Printer.putUint_eq platform.locals word size]
  | binary => exact Printer.binaryLoop_eq ..
  | hex => exact Printer.hexLoop_eq ..
  | happy => exact Printer.happyLoop_eq ..

/-! ## The pieces of a format -/

/-- A directive has no letter where the format ends behind its number. -/
inductive Piece where
  | literal (char : UInt8)
  | directive (number : Nat) (letter : Option UInt8)

def digitsOf (chars : List UInt8) : List UInt8 :=
  chars.takeWhile (fun char => decide (isDigit char))

/-- How many digits the scanner takes for the number: it counts them in a
byte. -/
def digitCount (chars : List UInt8) : Nat := (digitsOf chars).length % 2 ^ 8

def parse : List UInt8 → List Piece
  | [] => []
  | char :: rest =>
      if char = ascii '%' then
        .directive (numeralValue (rest.take (digitCount rest)) % 2 ^ 8)
          rest[digitCount rest]? :: parse (rest.drop (digitCount rest + 1))
      else .literal char :: parse rest
termination_by chars => chars.length
decreasing_by
  · rw [List.length_drop, List.length_cons]
    omega
  · exact Nat.lt_succ_self rest.length

namespace Piece

def text (shifts : Shifts) (arg : Arg) : Piece → List UInt8
  | .literal char => [char]
  | .directive number letter =>
      match letter.bind conversion with
      | none => []
      | some conversion => conversion.text shifts number arg

def takes : Piece → Nat
  | .literal _ => 0
  | .directive _ letter =>
      match letter.bind conversion with
      | none => 0
      | some conversion => conversion.takes

/-- The format does not end inside the piece. -/
def Complete : Piece → Prop
  | .literal _ => True
  | .directive _ letter => letter ≠ none

end Piece

def piecesTake (pieces : List Piece) : Nat := (pieces.map Piece.takes).sum

/-- What the pieces print with the arguments that are left. -/
def piecesText (shifts : Shifts) : List Piece → (Nat → Arg) → List UInt8
  | [], _ => []
  | piece :: rest, args =>
      piece.text shifts (args 0) ++
        piecesText shifts rest (fun index => args (piece.takes + index))

theorem args_from_zero (args : Nat → Arg) : (fun index => args (0 + index)) = args :=
  funext fun index => congrArg args (Nat.zero_add index)

theorem piecesText_append (shifts : Shifts) (front back : List Piece) (args : Nat → Arg) :
    piecesText shifts (front ++ back) args = piecesText shifts front args ++
      piecesText shifts back (fun index => args (piecesTake front + index)) := by
  induction front generalizing args with
  | nil => simp [piecesText, piecesTake]
  | cons piece rest induction =>
      rw [List.cons_append, piecesText, piecesText, induction, List.append_assoc]
      simp only [piecesTake, List.map_cons, List.sum_cons, Nat.add_assoc]

theorem piecesTake_append (front back : List Piece) :
    piecesTake (front ++ back) = piecesTake front + piecesTake back := by
  rw [piecesTake, List.map_append, List.sum_append]
  rfl

theorem parse_nil : parse [] = [] := by rw [parse]

theorem parse_literals {chars : List UInt8} (literals : ∀ char ∈ chars, char ≠ ascii '%') :
    parse chars = chars.map .literal := by
  induction chars with
  | nil => exact parse_nil
  | cons char rest induction =>
      rcases List.forall_mem_cons.mp literals with ⟨first, others⟩
      rw [parse, if_neg first, induction others, List.map_cons]

/-! ## The number of a directive -/

theorem power_ten (exp : Nat) : power 10 exp = 10 ^ exp % 2 ^ 32 := by
  induction exp with
  | zero => rfl
  | succ exp induction => rw [power, induction, u32, Nat.mod_mul_mod, ← Nat.pow_succ]

theorem numeralValue_cons (digit : UInt8) (rest : List UInt8) :
    numeralValue (digit :: rest) =
      numeralValue rest + (digit.toNat - 48) * 10 ^ rest.length := by
  rw [numeralValue, List.reverse_cons, List.map_append, Nat.ofDigits_append,
    List.map_singleton, Nat.ofDigits_singleton, List.length_map, List.length_reverse,
    Nat.mul_comm (10 ^ rest.length)]
  rfl

theorem spelled_tail {format : Nat → UInt8} {start : Nat} {char : UInt8} {rest : List UInt8}
    (spelled : ∀ place, ∀ inside : place < (char :: rest).length,
      format (start + place) = (char :: rest)[place]) :
    ∀ place, ∀ inside : place < rest.length, format (start + 1 + place) = rest[place] := by
  intro place inside
  have next := spelled (place + 1) (Nat.succ_lt_succ inside)
  rw [Nat.add_assoc, Nat.add_comm 1]
  exact next

theorem optFmtLoop_eq {format : Nat → UInt8} {digits : List UInt8} {src optFmt : Nat}
    (spelled : ∀ place, ∀ inside : place < digits.length,
      format (src + place) = digits[place])
    (byte : optFmt < 2 ^ 8) :
    optFmtLoop format digits.length src optFmt = (optFmt + numeralValue digits) % 2 ^ 8 := by
  induction digits generalizing src optFmt with
  | nil => exact (Nat.mod_eq_of_lt byte).symm
  | cons digit rest induction =>
      have first : format src = digit := spelled 0 (Nat.succ_pos _)
      rw [List.length_cons, optFmtLoop,
        induction (spelled_tail spelled) (Nat.mod_lt _ (by decide)), first, power_ten, u32, Nat.mul_mod_mod, numeralValue_cons]
      omega

end Vanilla.Misc
