import Vanilla.Foundation.Loop
import Vanilla.Foundation.Word

namespace Vanilla.Misc

/-! sprint.c: formatted printing into a buffer. The format is read as it lies in
memory, also behind its end. -/

def ascii (char : Char) : UInt8 := UInt8.ofNat char.toNat

/-- A string without its terminator. -/
structure CString where
  chars : List UInt8
  nonzero : ∀ char ∈ chars, char ≠ 0

/-- What `va_arg` gives: the word, and the string that it points at if it is
taken for a pointer. -/
structure Arg where
  word : UInt32
  text : CString

/-- What a shift by 32 or more gives is up to the processor. -/
structure Shifts where
  left : Nat → Nat
  right : Nat → Nat → Nat

/-- `1 << amount` -/
def Shifts.one (shifts : Shifts) (amount : Nat) : Nat :=
  if amount < 32 then 1 <<< amount else shifts.left amount

/-- `(uint8_t)(word >> amount)` -/
def Shifts.byte (shifts : Shifts) (word amount : Nat) : Nat :=
  (if amount < 32 then word >>> amount else shifts.right word amount) % 2 ^ 8

/-- The output buffer from its start, and where it has been stored to. -/
structure Sink where
  chars : Nat → UInt8
  stores : List Nat

namespace Sink

def store (offset : Nat) (char : UInt8) (sink : Sink) : Sink where
  chars := Function.update sink.chars offset char
  stores := sink.stores ++ [offset]

def storeAll : Nat → List UInt8 → Sink → Sink
  | _, [], sink => sink
  | offset, char :: rest, sink => storeAll (offset + 1) rest (sink.store offset char)

theorem storeAll_stores (text : List UInt8) (offset : Nat) (sink : Sink) :
    (sink.storeAll offset text).stores =
      sink.stores ++ List.range' offset text.length := by
  induction text generalizing offset sink with
  | nil => simp [storeAll]
  | cons char rest induction =>
      rw [storeAll, induction]
      simp [store, List.range'_succ]

theorem storeAll_outside {text : List UInt8} {offset place : Nat}
    (outside : place < offset ∨ offset + text.length ≤ place) (sink : Sink) :
    (sink.storeAll offset text).chars place = sink.chars place := by
  induction text generalizing offset sink with
  | nil => rfl
  | cons char rest induction =>
      rw [List.length_cons] at outside
      have elsewhere : place ≠ offset := by omega
      rw [storeAll, induction (by omega)]
      exact Function.update_of_ne elsewhere _ _

theorem storeAll_inside {text : List UInt8} {place : Nat} (offset : Nat)
    (inside : place < text.length) (sink : Sink) :
    (sink.storeAll offset text).chars (offset + place) = text[place] := by
  induction text generalizing offset place sink with
  | nil => cases inside
  | cons char rest induction =>
      cases place with
      | zero =>
          have first : offset < offset + 1 := Nat.lt_succ_self offset
          rw [storeAll, Nat.add_zero offset, storeAll_outside (.inl first)]
          exact Function.update_self ..
      | succ place =>
          have later := induction (offset + 1) (Nat.lt_of_succ_lt_succ inside)
            (sink.store offset char)
          rw [storeAll, ← Nat.add_assoc, Nat.add_right_comm, later]
          rfl

end Sink

/-! ## print_uint_to_buffer -/

/-- `int_buffer` with the index that `int_buffer_ptr` stands at, and the indices
that have been used. -/
structure IntBuffer where
  chars : Int → UInt8
  pointer : Int
  used : List Int
  size : Nat

namespace IntBuffer

/-- `*int_buffer_ptr = '0' + (value % 10)`, and `size++` -/
def storeDigit (value : Nat) (buffer : IntBuffer) : IntBuffer :=
  { buffer with
    chars := Function.update buffer.chars buffer.pointer (UInt8.ofNat (48 + value % 10))
    used := buffer.used ++ [buffer.pointer]
    size := (buffer.size + 1) % 2 ^ 8 }

/-- The loop over all digits but the last; `value` rounds are enough. -/
def digitLoop : Nat → Nat → IntBuffer → Nat × IntBuffer
  | 0, value, buffer => (value, buffer)
  | rounds + 1, value, buffer =>
      if value / 10 ≠ 0 then
        let stored := buffer.storeDigit value
        digitLoop rounds (value / 10) { stored with pointer := stored.pointer + 1 }
      else (value, buffer)

/-- `*buffer++ = *int_buffer_ptr--`, so many times. -/
def copyBack : Nat → Nat → IntBuffer → Sink → Sink × List Int
  | 0, _, buffer, sink => (sink, buffer.used)
  | count + 1, offset, buffer, sink =>
      copyBack count (offset + 1)
        { buffer with
          pointer := buffer.pointer - 1
          used := buffer.used ++ [buffer.pointer] }
        (sink.store offset (buffer.chars buffer.pointer))

end IntBuffer

structure UintPrinted where
  sink : Sink
  size : Nat
  /-- Where `int_buffer` has been read and stored to. -/
  used : List Int

/-- `print_uint_to_buffer`, over any contents of its local array. -/
def printUintToBuffer (locals : Int → UInt8) (offset value : Nat) (sink : Sink) :
    UintPrinted :=
  let digits := IntBuffer.digitLoop value value ⟨locals, 0, [], 0⟩
  let buffer := digits.2.storeDigit digits.1
  let copied := buffer.copyBack buffer.size offset sink
  ⟨copied.1, buffer.size, copied.2⟩

def power (base : Nat) : Nat → Nat
  | 0 => 1
  | exp + 1 => u32 (power base exp * base)

/-! ## print_to_buffer_va -/

/-- What the scanner is at: the text, or the digits behind a percent sign, with
`opt_fmt_ptr` and `opt_fmt_size`. -/
inductive Phase where
  | text
  | number (optFmtPtr optFmtSize : Nat)

/-- `reads` are the places of the format that have been read, from its start. -/
structure Printer where
  phase : Phase
  src : Nat
  dest : Nat
  size : Nat
  sink : Sink
  taken : Nat
  reads : List Nat

namespace Printer

/-- `*dest_ptr++ = char`, and `size++` -/
def put (char : UInt8) (printer : Printer) : Printer :=
  { printer with
    sink := printer.sink.store printer.dest char
    dest := printer.dest + 1
    size := (printer.size + 1) % 2 ^ 16 }

def read (offset : Nat) (printer : Printer) : Printer :=
  { printer with reads := printer.reads ++ [offset] }

/-- The string is copied up to its end or the limit. -/
def copyLimited : Nat → List UInt8 → Printer → Printer
  | 0, _, printer => printer
  | _ + 1, [], printer => printer
  | limit + 1, char :: rest, printer => copyLimited limit rest (printer.put char)

def copyString : List UInt8 → Printer → Printer
  | [], printer => printer
  | char :: rest, printer => copyString rest (printer.put char)

def putUint (locals : Int → UInt8) (value : Nat) (printer : Printer) : Printer :=
  let printed := printUintToBuffer locals printer.dest value printer.sink
  { printer with
    sink := printed.sink
    dest := printer.dest + printed.size
    size := (printer.size + printed.size) % 2 ^ 16 }

/-- The bits below `i`. -/
def binaryLoop (shifts : Shifts) (word : Nat) : Nat → Printer → Printer
  | 0, printer => printer
  | i + 1, printer =>
      let bit := printer.put (if word &&& shifts.one i ≠ 0 then ascii '1' else ascii '0')
      binaryLoop shifts word i (if i % 8 = 0 then bit.put (ascii ' ') else bit)

def hexTable (digit : Nat) : UInt8 :=
  if digit < 10 then UInt8.ofNat (48 + digit) else UInt8.ofNat (55 + digit)

/-- The bytes below the one that the loop stands at; `left` is
`opt_fmt - i`. -/
def hexLoop (shifts : Shifts) (word : Nat) : Nat → Printer → Printer
  | 0, printer => printer
  | left + 1, printer =>
      let byte := shifts.byte word (left * 8)
      hexLoop shifts word left ((printer.put (hexTable (byte >>> 4))).put
        (hexTable (byte &&& 0b1111)))

def happyLoop : Nat → Printer → Printer
  | 0, printer => printer
  | left + 1, printer => happyLoop left ((printer.put (ascii ':')).put (ascii 'D'))

end Printer

/-- What the formatting character stands for; `u` falls through to `d`. -/
inductive Conversion where
  | string
  | char
  | integer
  | binary
  | hex
  | happy
deriving DecidableEq

def conversion (letter : UInt8) : Option Conversion :=
  if letter = ascii 's' then some .string
  else if letter = ascii 'c' then some .char
  else if letter = ascii 'u' then some .integer
  else if letter = ascii 'd' then some .integer
  else if letter = ascii 'b' then some .binary
  else if letter = ascii 'h' then some .hex
  else if letter = ascii 'e' then some .happy
  else none

/-- How many arguments it takes. -/
def Conversion.takes : Conversion → Nat
  | .happy => 0
  | _ => 1

/-- What the printing depends on besides the format and the arguments: the
shifts, and what the local array of `print_uint_to_buffer` holds. -/
structure Platform where
  shifts : Shifts
  locals : Int → UInt8

/-- A case of the switch. -/
def Conversion.convert (platform : Platform) (optFmt : Nat) (arg : Arg) :
    Conversion → Printer → Printer
  | .string, printer =>
      if optFmt ≠ 0 then printer.copyLimited optFmt arg.text.chars
      else printer.copyString arg.text.chars
  | .char, printer => printer.put (UInt8.ofNat arg.word.toNat)
  | .integer, printer =>
      if 2 ^ 31 ≤ arg.word.toNat then
        -- the sign is changed in 32 bits, that of the least integer with no effect
        (printer.put (ascii '-')).putUint platform.locals (u32Sub 0 arg.word.toNat)
      else printer.putUint platform.locals arg.word.toNat
  | .binary, printer => printer.binaryLoop platform.shifts arg.word.toNat optFmt
  | .hex, printer => printer.hexLoop platform.shifts arg.word.toNat optFmt
  | .happy, printer => printer.happyLoop optFmt

def isDigit (char : UInt8) : Prop := ascii '0' ≤ char ∧ char ≤ ascii '9'

instance (char : UInt8) : Decidable (isDigit char) :=
  inferInstanceAs (Decidable (ascii '0' ≤ char ∧ char ≤ ascii '9'))

/-- `opt_fmt`, a byte, with so many digits left. They are read again, all at
places that have been read before. -/
def optFmtLoop (format : Nat → UInt8) : Nat → Nat → Nat → Nat
  | 0, _, optFmt => optFmt
  | size + 1, src, optFmt =>
      optFmtLoop format size (src + 1)
        ((optFmt + u32 (((format src).toNat - 48) * power 10 size)) % 2 ^ 8)

/-- The end of a directive, from the number on. -/
def Printer.directive (platform : Platform) (format : Nat → UInt8) (args : Nat → Arg)
    (optFmtSize : Nat) (printer : Printer) : Printer :=
  let optFmt := optFmtLoop format optFmtSize printer.src 0
  let src := printer.src + optFmtSize
  let looked := printer.read src
  let converted := match conversion (format src) with
    | none => looked
    | some conversion =>
        { conversion.convert platform optFmt (args printer.taken) looked with
          taken := printer.taken + conversion.takes }
  { converted with phase := .text, src := src + 1 }

/-- A round of the loop over the format, or of the loop over a number. -/
def printRound (platform : Platform) (format : Nat → UInt8) (args : Nat → Arg)
    (printer : Printer) : Printer ⊕ Printer :=
  match printer.phase with
  | .text =>
      let looked := printer.read printer.src
      if format printer.src = 0 then .inl looked
      else if format printer.src = ascii '%' then
        .inr { looked with phase := .number (printer.src + 1) 0, src := printer.src + 1 }
      else .inr { looked.put (format printer.src) with src := printer.src + 1 }
  | .number optFmtPtr optFmtSize =>
      let looked := printer.read optFmtPtr
      if isDigit (format optFmtPtr) then
        .inr { looked with phase := .number (optFmtPtr + 1) ((optFmtSize + 1) % 2 ^ 8) }
      else .inr (looked.directive platform format args optFmtSize)

def printerStart (sink : Sink) : Printer where
  phase := .text
  src := 0
  dest := 0
  size := 0
  sink := sink
  taken := 0
  reads := []

/-- `print_to_buffer_va` comes to its end with these variables. -/
def Prints (platform : Platform) (format : Nat → UInt8) (args : Nat → Arg) (sink : Sink)
    (last : Printer) : Prop :=
  Loop.Returns (printRound platform format args) (printerStart sink) last

end Vanilla.Misc
