import Mathlib.Data.Nat.Log
import Vanilla.Misc.SprintRun

namespace Vanilla.Misc

/-! print.c: formatted printing to the serial port over `debug_buffer`. Neither
the scanner nor the output is bounded, so that a call stays inside the format and
the buffer only if the format is not cut off and the text fits. -/

/-! ## print and printl -/

/-- This buffer sets the maximum print limit. -/
def debugBufferSize : Nat := 64

inductive PrintCall where
  | print
  | printl
deriving DecidableEq

/-- What is sent behind the text. -/
def PrintCall.ending : PrintCall → List UInt8
  | .print => []
  | .printl => [ascii '\n']

/-- A call formats into `debug_buffer` and sends from there; `left` is `size`. -/
inductive CallState where
  | formatting (printer : Printer)
  | sending (left src : Nat) (sent : List UInt8) (last : Printer)

def CallState.printer : CallState → Printer
  | .formatting printer => printer
  | .sending _ _ _ last => last

def callStart (buffer : Nat → UInt8) : CallState := .formatting (printerStart ⟨buffer, []⟩)

def callRound (platform : Platform) (format : Nat → UInt8) (args : Nat → Arg) (call : PrintCall) :
    CallState → List UInt8 ⊕ CallState
  | .formatting printer =>
      match printRound platform format args printer with
      | .inl last => .inr (.sending last.size 0 [] last)
      | .inr later => .inr (.formatting later)
  | .sending 0 _ sent _ => .inl (sent ++ call.ending)
  | .sending (left + 1) src sent last =>
      .inr (.sending left (src + 1) (sent ++ [last.sink.chars src]) last)

/-! ## What a run touches -/

/-- The variables at some moment of print_to_buffer_va, its end included. -/
def Moment (platform : Platform) (format : Nat → UInt8) (args : Nat → Arg) (sink : Sink)
    (printer : Printer) : Prop :=
  Loop.Reaches (printRound platform format args) (printerStart sink) printer ∨
    Prints platform format args sink printer

/-- Nothing of the format is read behind its terminator. -/
def ReadsInside (platform : Platform) (format : Nat → UInt8) (args : Nat → Arg) (sink : Sink)
    (length : Nat) : Prop :=
  ∀ printer, Moment platform format args sink printer →
    ∀ offset ∈ printer.reads, offset ≤ length

/-- Neither is the format read behind its terminator, nor is anything written
outside `debug_buffer`. -/
def CallInside (platform : Platform) (format : Nat → UInt8) (args : Nat → Arg) (call : PrintCall)
    (buffer : Nat → UInt8) (length : Nat) : Prop :=
  ∀ state, Loop.Reaches (callRound platform format args call) (callStart buffer) state →
    (∀ offset ∈ state.printer.reads, offset ≤ length) ∧
    ∀ offset ∈ state.printer.sink.stores, offset < debugBufferSize

section

variable {platform : Platform} {format : Nat → UInt8} {args : Nat → Arg}

theorem call_reaches {call : PrintCall} {printer later : Printer}
    (reaches : Loop.Reaches (printRound platform format args) printer later) :
    Loop.Reaches (callRound platform format args call) (.formatting printer)
      (.formatting later) := by
  induction reaches with
  | here printer => exact .here _
  | next goesOn _ induction =>
      refine .next ?_ induction
      rw [callRound, goesOn]

/-- Formatting leads to sending. -/
theorem call_formats {call : PrintCall} {printer last : Printer}
    (returns : Loop.Returns (printRound platform format args) printer last) :
    Loop.Reaches (callRound platform format args call) (.formatting printer)
      (.sending last.size 0 [] last) := by
  induction returns with
  | done stops =>
      refine .next ?_ (.here _)
      rw [callRound, stops]
  | next goesOn _ induction =>
      refine .next ?_ induction
      rw [callRound, goesOn]

/-- A call comes through the moments of print_to_buffer_va and no others. -/
theorem moment_iff {call : PrintCall} {buffer : Nat → UInt8} {printer : Printer} :
    Moment platform format args ⟨buffer, []⟩ printer ↔
      ∃ state, Loop.Reaches (callRound platform format args call) (callStart buffer) state ∧
        state.printer = printer := by
  constructor
  · rintro (reaches | prints)
    · exact ⟨_, call_reaches reaches, rfl⟩
    · exact ⟨_, call_formats prints, rfl⟩
  · rintro ⟨state, reaches, rfl⟩
    let Inside : CallState → Prop
      | .formatting now => Loop.Reaches (printRound platform format args)
          (printerStart ⟨buffer, []⟩) now
      | .sending _ _ _ last => Prints platform format args ⟨buffer, []⟩ last
    have inside : Inside state := by
      refine reaches.keeps Inside ?_ (Loop.Reaches.here _)
      intro state later inside round
      cases state with
      | formatting now =>
          rw [callRound] at round
          cases outcome : printRound platform format args now with
          | inl last =>
              rw [outcome] at round
              cases round
              exact inside.returns (.done outcome)
          | inr next =>
              rw [outcome] at round
              cases round
              exact inside.trans (.next outcome (.here _))
      | sending left src sent last =>
          cases left with
          | zero => cases round
          | succ left =>
              cases round
              exact inside
    cases state with
    | formatting now => exact .inl inside
    | sending left src sent last => exact .inr inside

/-- What has been read and stored to only grows. -/
structure Grown (printer later : Printer) : Prop where
  size : later.size < 2 ^ 16
  reads : ∀ offset ∈ printer.reads, offset ∈ later.reads
  stores : ∀ offset ∈ printer.sink.stores, offset ∈ later.sink.stores

theorem Grown.trans {first second third : Printer} (early : Grown first second)
    (late : Grown second third) : Grown first third where
  size := late.size
  reads := fun offset member => late.reads offset (early.reads offset member)
  stores := fun offset member => late.stores offset (early.stores offset member)

theorem copyString_grown (text : List UInt8) {printer : Printer}
    (size : printer.size < 2 ^ 16) : Grown printer (printer.copyString text) where
  size := Printer.copyString_size text size ▸ Nat.mod_lt _ (by decide)
  reads := by
    intro offset member
    rw [Printer.copyString_scanner]
    exact member
  stores := by
    intro offset member
    rw [Printer.copyString_sink, Sink.storeAll_stores]
    exact List.mem_append_left _ member

theorem read_grown (offset : Nat) {printer : Printer} (size : printer.size < 2 ^ 16) :
    Grown printer (printer.read offset) where
  size := size
  reads := fun _ member => List.mem_append_left _ member
  stores := fun _ member => member

theorem directive_grown (optFmtSize : Nat) {printer : Printer}
    (size : printer.size < 2 ^ 16) :
    Grown printer (printer.directive platform format args optFmtSize) := by
  let looked := printer.read (printer.src + optFmtSize)
  have grown : Grown printer looked := read_grown _ size
  rw [Printer.directive]
  cases conversion (format (printer.src + optFmtSize)) with
  | none => exact ⟨grown.size, grown.reads, grown.stores⟩
  | some conversion =>
      have copied := copyString_grown (conversion.text platform.shifts
        (optFmtLoop format optFmtSize printer.src 0) (args printer.taken)) grown.size
      simp only []
      rw [conversion.convert_eq platform _ _ grown.size]
      have all := grown.trans copied
      exact ⟨all.size, all.reads, all.stores⟩

theorem printRound_grown {printer : Printer} (size : printer.size < 2 ^ 16) :
    Grown printer ((printRound platform format args printer).elim id id) := by
  rw [printRound]
  cases printer.phase with
  | text =>
      have looked := read_grown printer.src size
      simp only []
      split_ifs with ends percent
      · exact looked
      · exact ⟨looked.size, looked.reads, looked.stores⟩
      · have put := looked.trans (copyString_grown [format printer.src] looked.size)
        exact ⟨put.size, put.reads, put.stores⟩
  | number optFmtPtr optFmtSize =>
      have looked := read_grown optFmtPtr size
      simp only []
      split_ifs with digit
      · exact ⟨looked.size, looked.reads, looked.stores⟩
      · exact looked.trans (directive_grown optFmtSize looked.size)

theorem reaches_grown {printer later : Printer} (size : printer.size < 2 ^ 16)
    (reaches : Loop.Reaches (printRound platform format args) printer later) :
    Grown printer later := by
  have start : Grown printer printer := ⟨size, fun _ member => member, fun _ member => member⟩
  refine reaches.keeps (Grown printer) ?_ start
  intro now next grown round
  have more := @printRound_grown platform format args now grown.size
  rw [round] at more
  exact grown.trans more

theorem returns_grown {printer last : Printer} (size : printer.size < 2 ^ 16)
    (returns : Loop.Returns (printRound platform format args) printer last) :
    Grown printer last := by
  induction returns with
  | @done printer last stops =>
      have grown := @printRound_grown platform format args printer size
      rw [stops] at grown
      exact grown
  | @next printer later last goesOn _ induction =>
      have grown := @printRound_grown platform format args printer size
      rw [goesOn] at grown
      exact grown.trans (induction grown.size)

/-- Whatever has been touched at some moment has been touched at the end. -/
theorem moment_grown {sink : Sink} {printer last : Printer}
    (moment : Moment platform format args sink printer)
    (prints : Prints platform format args sink last) : Grown printer last := by
  have size : (printerStart sink).size < 2 ^ 16 := Nat.two_pow_pos 16
  rcases moment with reaches | ends
  · exact returns_grown (reaches_grown size reaches).size (reaches.returns_rest prints)
  · rw [ends.unique prints]
    have grown := returns_grown size prints
    exact ⟨grown.size, fun _ member => member, fun _ member => member⟩

end

/-! ## How much is printed -/

def decimalLength (value : Nat) : Nat := Nat.log 10 value + 1

def Conversion.length (number : Nat) (arg : Arg) : Conversion → Nat
  | .string =>
      if number = 0 then arg.text.chars.length else min number arg.text.chars.length
  | .char => 1
  | .integer =>
      if 2 ^ 31 ≤ arg.word.toNat then 1 + decimalLength (2 ^ 32 - arg.word.toNat)
      else decimalLength arg.word.toNat
  | .binary => number + (number + 7) / 8
  | .hex => 2 * number
  | .happy => 2 * number

def Piece.length (arg : Arg) : Piece → Nat
  | .literal _ => 1
  | .directive number letter =>
      match letter.bind conversion with
      | none => 0
      | some conversion => conversion.length number arg

def printedLength : List Piece → (Nat → Arg) → Nat
  | [], _ => 0
  | piece :: rest, args =>
      piece.length (args 0) + printedLength rest (fun index => args (piece.takes + index))

theorem decimal_length (value : Nat) : (decimal value).length = decimalLength value := by
  induction value using decimal_induction with
  | last value small =>
      rw [decimal_last small, decimalLength, Nat.log_of_lt (by omega)]
      rfl
  | more value rest induction =>
      rw [decimal_more rest, List.length_append, induction, decimalLength, decimalLength,
        Nat.log_of_one_lt_of_le (by decide) (by omega : 10 ≤ value)]
      rfl

theorem binaryText_length (shifts : Shifts) (word number : Nat) :
    (binaryText shifts word number).length = number + (number + 7) / 8 := by
  induction number with
  | zero => rfl
  | succ i induction =>
      rw [binaryText, List.length_cons, List.length_append, induction]
      split_ifs with byte
      · rw [List.length_singleton]
        omega
      · rw [List.length_nil]
        omega

theorem hexText_length (shifts : Shifts) (word number : Nat) :
    (hexText shifts word number).length = 2 * number := by
  induction number with
  | zero => rfl
  | succ left induction =>
      rw [hexText, List.length_cons, List.length_cons, induction]
      omega

theorem happyText_length (number : Nat) : (happyText number).length = 2 * number := by
  induction number with
  | zero => rfl
  | succ left induction =>
      rw [happyText, List.length_cons, List.length_cons, induction]
      omega

theorem Conversion.text_length (shifts : Shifts) (number : Nat) (arg : Arg)
    (conversion : Conversion) :
    (conversion.text shifts number arg).length = conversion.length number arg := by
  cases conversion with
  | string =>
      rw [text, length]
      split_ifs with whole
      · rfl
      · exact List.length_take
  | char => rfl
  | integer =>
      rw [text, length, integerText]
      split_ifs with negative
      · rw [List.length_cons, decimal_length, Nat.add_comm]
      · exact decimal_length _
  | binary => exact binaryText_length ..
  | hex => exact hexText_length ..
  | happy => exact happyText_length ..

theorem Piece.text_length (shifts : Shifts) (arg : Arg) (piece : Piece) :
    (piece.text shifts arg).length = piece.length arg := by
  cases piece with
  | literal char => rfl
  | directive number letter =>
      rw [text, length]
      cases letter.bind conversion with
      | none => rfl
      | some conversion => exact conversion.text_length shifts number arg

theorem piecesText_length (shifts : Shifts) (pieces : List Piece) (args : Nat → Arg) :
    (piecesText shifts pieces args).length = printedLength pieces args := by
  induction pieces generalizing args with
  | nil => rfl
  | cons piece rest induction =>
      rw [piecesText, List.length_append, Piece.text_length, induction, printedLength]

theorem printedLength_literals (chars : List UInt8) (args : Nat → Arg) :
    printedLength (chars.map .literal) args = chars.length := by
  induction chars generalizing args with
  | nil => rfl
  | cons char rest induction =>
      rw [List.map_cons, printedLength, induction, List.length_cons]
      exact Nat.add_comm ..

/-! ## The bounds -/

/-- No directive of the format is cut off by its end. -/
def Whole (chars : List UInt8) : Prop := ∀ piece ∈ parse chars, piece.Complete

section

variable {format : Nat → UInt8} {chars : List UInt8}

theorem reads_inside (platform : Platform) (args : Nat → Arg)
    (spells : Spells format 0 chars) (whole : Whole chars) (sink : Sink) :
    ReadsInside platform format args sink chars.length := by
  rcases prints_text platform args spells whole sink with ⟨last, prints, -, -, -, inside⟩
  intro printer moment offset member
  exact inside offset ((moment_grown moment prints).reads offset member)

/-- The scanner looks for more of the format behind the terminator. -/
theorem cut_reads (platform : Platform) (args : Nat → Arg)
    (spells : Spells format 0 chars) (cut : ¬Whole chars) (sink : Sink) :
    ¬ReadsInside platform format args sink chars.length := by
  have broken : ∃ piece ∈ parse chars, ¬piece.Complete := by
    simpa only [Whole, not_forall, exists_prop] using cut
  have size : (printerStart sink).size < 2 ^ 16 := Nat.two_pow_pos 16
  rcases cut_reached platform args spells broken (rfl : (printerStart sink).phase = .text) rfl
    size with ⟨later, reaches, phase, src⟩
  rw [Nat.zero_add] at src
  have looked : later.src ∈ ((printRound platform format args later).elim id id).reads := by
    rw [printRound, phase]
    simp only []
    split_ifs
    all_goals exact List.mem_append_right _ List.mem_cons_self
  intro inside
  cases outcome : printRound platform format args later with
  | inl last =>
      rw [outcome] at looked
      have within := inside last (.inr (reaches.returns (.done outcome))) later.src looked
      omega
  | inr next =>
      rw [outcome] at looked
      have within := inside next (.inl (reaches.trans (.next outcome (.here _)))) later.src looked
      omega

/-- The stores of a run over a format that is not cut off lie below the printed
length, and all of these are stored to. -/
theorem stores_below_iff (platform : Platform) (args : Nat → Arg)
    (spells : Spells format 0 chars) (whole : Whole chars) (buffer : Nat → UInt8)
    (bound : Nat) :
    (∀ printer, Moment platform format args ⟨buffer, []⟩ printer →
        ∀ offset ∈ printer.sink.stores, offset < bound) ↔
      printedLength (parse chars) args ≤ bound := by
  rcases prints_text platform args spells whole ⟨buffer, []⟩ with ⟨last, prints, sink, -⟩
  have stores : last.sink.stores = List.range' 0 (printedLength (parse chars) args) := by
    rw [sink, Sink.storeAll_stores, piecesText_length]
    rfl
  constructor
  · intro inside
    by_contra long
    have stored : bound ∈ last.sink.stores := by
      rw [stores, List.mem_range'_1]
      omega
    exact absurd (inside last (.inr prints) bound stored) (Nat.lt_irrefl bound)
  · intro fits printer moment offset member
    have kept := (moment_grown moment prints).stores offset member
    rw [stores, List.mem_range'_1] at kept
    omega

theorem callInside_iff {platform : Platform} {args : Nat → Arg} {call : PrintCall}
    {buffer : Nat → UInt8} {length : Nat} :
    CallInside platform format args call buffer length ↔
      ReadsInside platform format args ⟨buffer, []⟩ length ∧
      ∀ printer, Moment platform format args ⟨buffer, []⟩ printer →
        ∀ offset ∈ printer.sink.stores, offset < debugBufferSize := by
  constructor
  · intro inside
    have moments (printer : Printer) (moment : Moment platform format args ⟨buffer, []⟩ printer) :
        (∀ offset ∈ printer.reads, offset ≤ length) ∧
          ∀ offset ∈ printer.sink.stores, offset < debugBufferSize := by
      rcases (@moment_iff platform format args call buffer printer).mp moment with
        ⟨state, reaches, rfl⟩
      exact inside state reaches
    exact ⟨fun printer moment => (moments printer moment).1,
      fun printer moment => (moments printer moment).2⟩
  · rintro ⟨reads, stores⟩ state reaches
    have moment : Moment platform format args ⟨buffer, []⟩ state.printer :=
      moment_iff.mpr ⟨state, reaches, rfl⟩
    exact ⟨reads _ moment, stores _ moment⟩

/-- A call that stays inside sends the text. -/
theorem call_sends (platform : Platform) (args : Nat → Arg)
    (spells : Spells format 0 chars) (whole : Whole chars)
    (fits : printedLength (parse chars) args ≤ debugBufferSize) (call : PrintCall)
    (buffer : Nat → UInt8) :
    Loop.Returns (callRound platform format args call) (callStart buffer)
      (piecesText platform.shifts (parse chars) args ++ call.ending) := by
  rcases prints_text platform args spells whole ⟨buffer, []⟩ with
    ⟨last, prints, sink, size, -⟩
  let text := piecesText platform.shifts (parse chars) args
  have short : text.length < 2 ^ 16 := by
    rw [piecesText_length]
    exact Nat.lt_of_le_of_lt fits (by decide)
  have sends (left src : Nat) (sent : List UInt8) :
      Loop.Returns (callRound platform format args call) (.sending left src sent last)
        (sent ++ (List.range' src left).map last.sink.chars ++ call.ending) := by
    induction left generalizing src sent with
    | zero =>
        rw [List.range'_zero, List.map_nil, List.append_nil]
        exact .done rfl
    | succ left induction =>
        rw [List.range'_succ, List.map_cons, ← List.singleton_append, ← List.append_assoc]
        exact .next rfl (induction (src + 1) (sent ++ [last.sink.chars src]))
  have stored : (List.range' 0 text.length).map last.sink.chars = text := by
    have all := storeAll_text text 0 ⟨buffer, []⟩
    rw [← sink] at all
    simp only [Nat.zero_add, List.range_eq_range'] at all
    exact all
  have ends := sends last.size 0 []
  rw [size, Nat.mod_eq_of_lt short, stored, List.nil_append] at ends
  have formatted : Loop.Reaches (callRound platform format args call) (callStart buffer)
      (.sending last.size 0 [] last) := call_formats prints
  rw [size, Nat.mod_eq_of_lt short] at formatted
  exact formatted.returns ends

/-- print_to_buffer_va stays inside the format exactly if no directive is cut off
by the end of the format; a call of print or printl stays inside the format and
`debug_buffer` exactly if, moreover, the text is not longer than the buffer. -/
theorem print_inside_iff (platform : Platform) (args : Nat → Arg)
    (spells : Spells format 0 chars) (sink : Sink) (call : PrintCall) (buffer : Nat → UInt8) :
    (ReadsInside platform format args sink chars.length ↔ Whole chars) ∧
      (CallInside platform format args call buffer chars.length ↔
        Whole chars ∧ printedLength (parse chars) args ≤ debugBufferSize) := by
  have reads (sink : Sink) :
      ReadsInside platform format args sink chars.length ↔ Whole chars := by
    constructor
    · intro inside
      by_contra cut
      exact cut_reads platform args spells cut sink inside
    · intro whole
      exact reads_inside platform args spells whole sink
  refine ⟨reads sink, ?_⟩
  rw [callInside_iff, reads]
  constructor
  · rintro ⟨whole, stores⟩
    exact ⟨whole, (stores_below_iff platform args spells whole buffer _).mp stores⟩
  · rintro ⟨whole, fits⟩
    exact ⟨whole, (stores_below_iff platform args spells whole buffer _).mpr fits⟩

end

/-- A letter and a new line. -/
theorem print_inside_letter :
    CallInside ⟨⟨fun _ => 0, fun _ _ => 0⟩, fun _ => 0⟩ (memoryOf [ascii 'a'])
      (fun _ => ⟨0, ⟨[], List.forall_mem_nil _⟩⟩) .printl (fun _ => 0) [ascii 'a'].length := by
  have literals : parse [ascii 'a'] = [ascii 'a'].map .literal :=
    parse_literals (List.forall_mem_singleton.mpr (by decide))
  have nonzero : ∀ char ∈ [ascii 'a'], char ≠ 0 := List.forall_mem_singleton.mpr (by decide)
  refine (print_inside_iff _ _ (memoryOf_spells nonzero) ⟨fun _ => 0, []⟩ .printl _).2.mpr
    ⟨?_, ?_⟩
  · rw [Whole, literals]
    exact List.forall_mem_singleton.mpr trivial
  · rw [literals, printedLength_literals]
    decide

/-- Behind a percent sign at the end the scanner steps over the terminator, and a
text of 65 characters is written over the end of `debug_buffer`. -/
theorem percent_steps_over :
    ¬ReadsInside ⟨⟨fun _ => 0, fun _ _ => 0⟩, fun _ => 0⟩ (memoryOf [ascii '%'])
        (fun _ => ⟨0, ⟨[], List.forall_mem_nil _⟩⟩) ⟨fun _ => 0, []⟩ [ascii '%'].length ∧
      ¬CallInside ⟨⟨fun _ => 0, fun _ _ => 0⟩, fun _ => 0⟩
        (memoryOf (List.replicate 65 (ascii 'a'))) (fun _ => ⟨0, ⟨[], List.forall_mem_nil _⟩⟩)
        .print (fun _ => 0) (List.replicate 65 (ascii 'a')).length := by
  constructor
  · have cut : ¬Whole [ascii '%'] := by
      intro whole
      rw [Whole, parse, if_pos rfl] at whole
      exact whole _ List.mem_cons_self rfl
    have nonzero : ∀ char ∈ [ascii '%'], char ≠ 0 :=
      List.forall_mem_singleton.mpr (by decide)
    exact cut_reads _ _ (memoryOf_spells nonzero) cut _
  · have letters (char : UInt8) (member : char ∈ List.replicate 65 (ascii 'a')) :
        char = ascii 'a' := List.eq_of_mem_replicate member
    have literals : parse (List.replicate 65 (ascii 'a')) =
        (List.replicate 65 (ascii 'a')).map .literal := by
      apply parse_literals
      intro char member
      rw [letters char member]
      decide
    have spells : Spells (memoryOf (List.replicate 65 (ascii 'a'))) 0
        (List.replicate 65 (ascii 'a')) := by
      apply memoryOf_spells
      intro char member
      rw [letters char member]
      decide
    have whole : Whole (List.replicate 65 (ascii 'a')) := by
      intro piece member
      rw [literals] at member
      rcases List.mem_map.mp member with ⟨char, _, rfl⟩
      trivial
    intro inside
    have fits := (stores_below_iff _ _ spells whole _ _).mp (callInside_iff.mp inside).2
    rw [literals, printedLength_literals, List.length_replicate] at fits
    exact absurd fits (by decide)

end Vanilla.Misc
