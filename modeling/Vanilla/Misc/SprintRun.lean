import Mathlib.Data.List.TakeWhile
import Vanilla.Misc.SprintFormat

namespace Vanilla.Misc

/-! The run of print_to_buffer_va over a format in memory: piece by piece it
stores the texts and comes to the terminator, unless the last piece is cut
off. -/

/-! ## The format in memory -/

/-- The format lies at the base, with its terminator. -/
structure Spells (format : Nat → UInt8) (base : Nat) (chars : List UInt8) : Prop where
  spelled : ∀ place, ∀ inside : place < chars.length, format (base + place) = chars[place]
  nonzero : ∀ char ∈ chars, char ≠ 0
  terminator : format (base + chars.length) = 0

namespace Spells

variable {format : Nat → UInt8} {base : Nat} {chars : List UInt8}

theorem drop (spells : Spells format base chars) {count : Nat} (inside : count ≤ chars.length) :
    Spells format (base + count) (chars.drop count) where
  spelled := by
    intro place within
    rw [List.length_drop] at within
    rw [List.getElem_drop, Nat.add_assoc]
    exact spells.spelled (count + place) (by omega)
  nonzero := by
    intro char member
    exact spells.nonzero char (List.mem_of_mem_drop member)
  terminator := by
    rw [List.length_drop, Nat.add_assoc, Nat.add_sub_cancel' inside]
    exact spells.terminator

/-- What is left behind a first character and some of the others. -/
theorem behind {char : UInt8} {rest : List UInt8} (spells : Spells format base (char :: rest))
    {count : Nat} (within : count ≤ rest.length) :
    Spells format (base + 1 + count) (rest.drop count) := by
  have later := spells.drop (Nat.succ_le_succ within)
  rw [Nat.add_right_comm]
  exact later

theorem letter (spells : Spells format base chars) {place : Nat}
    (inside : place ≤ chars.length) : format (base + place) = chars[place]?.getD 0 := by
  rcases Nat.lt_or_eq_of_le inside with before | last
  · rw [List.getElem?_eq_getElem before, Option.getD_some]
    exact spells.spelled place before
  · rw [last, List.getElem?_eq_none (Nat.le_refl _), Option.getD_none]
    exact spells.terminator

end Spells

/-- A memory that holds nothing but the format. -/
def memoryOf (chars : List UInt8) (place : Nat) : UInt8 := chars[place]?.getD 0

theorem memoryOf_spells {chars : List UInt8} (nonzero : ∀ char ∈ chars, char ≠ 0) :
    Spells (memoryOf chars) 0 chars where
  spelled := by
    intro place inside
    rw [Nat.zero_add, memoryOf, List.getElem?_eq_getElem inside, Option.getD_some]
  nonzero := nonzero
  terminator := by
    rw [Nat.zero_add, memoryOf, List.getElem?_eq_none (Nat.le_refl _), Option.getD_none]

/-! ## The run over the format -/

theorem digitsOf_isDigit (chars : List UInt8) : ∀ char ∈ digitsOf chars, isDigit char := by
  intro char member
  have taken := List.mem_takeWhile_imp member
  exact of_decide_eq_true taken

theorem digitsOf_length_le (chars : List UInt8) : (digitsOf chars).length ≤ chars.length :=
  (List.takeWhile_prefix _).length_le

/-- Behind the digits is none, nor is the terminator one. -/
theorem digitsOf_end (chars : List UInt8) :
    ¬isDigit (chars[(digitsOf chars).length]?.getD 0) := by
  induction chars with
  | nil => decide
  | cons char rest induction =>
      by_cases digit : isDigit char
      · have more : digitsOf (char :: rest) = char :: digitsOf rest :=
          List.takeWhile_cons_of_pos (decide_eq_true digit)
        rw [more, List.length_cons, List.getElem?_cons_succ]
        exact induction
      · have none : digitsOf (char :: rest) = [] :=
          List.takeWhile_cons_of_neg (mt of_decide_eq_true digit)
        rw [none]
        exact digit

theorem digitCount_le (chars : List UInt8) : digitCount chars ≤ (digitsOf chars).length :=
  Nat.mod_le _ _

theorem conversion_letter {chars : List UInt8} {place : Nat} :
    conversion (chars[place]?.getD 0) = chars[place]?.bind conversion := by
  cases chars[place]? with
  | none => rfl
  | some char => rfl

/-- Where the scanner stands behind a text. -/
def Printer.behind (text : List UInt8) (src takes : Nat) (reads : List Nat)
    (printer : Printer) : Printer :=
  { printer.copyString text with
    phase := .text
    src := src
    taken := printer.taken + takes
    reads := reads }

theorem Printer.behind_moved (text : List UInt8) (src takes : Nat) (reads : List Nat)
    (printer : Printer) (phase : Phase) (place : Nat) (before : List Nat) :
    behind text src takes reads
        { printer with phase := phase, src := place, reads := before } =
      printer.behind text src takes reads := by
  have moved := copyString_frame text printer phase place printer.taken before
  simp only [behind, moved]

theorem Printer.behind_behind (front back : List UInt8) (src later takes more : Nat)
    (reads others : List Nat) (printer : Printer) :
    (printer.behind front src takes reads).behind back later more others =
      printer.behind (front ++ back) later (takes + more) others := by
  have moved := copyString_frame back (printer.copyString front) .text src
    (printer.taken + takes) reads
  simp only [behind, moved, copyString_append, Nat.add_assoc]

theorem behind_size_lt (text : List UInt8) (src takes : Nat) (reads : List Nat)
    {printer : Printer} (size : printer.size < 2 ^ 16) :
    (printer.behind text src takes reads).size < 2 ^ 16 := by
  have stored := Printer.copyString_size text size
  exact stored ▸ Nat.mod_lt _ (by decide)

section

variable {platform : Platform} {format : Nat → UInt8} {args : Nat → Arg} {base : Nat}
  {printer : Printer}

/-- The loop over the digits of a number. -/
theorem digits_reached {digits : List UInt8} (isDigits : ∀ char ∈ digits, isDigit char)
    {start size : Nat} (spelled : ∀ place, ∀ inside : place < digits.length,
      format (start + place) = digits[place])
    (byte : size < 2 ^ 8) (phase : printer.phase = .number start size) :
    Loop.Reaches (printRound platform format args) printer
      { printer with
        phase := .number (start + digits.length) ((size + digits.length) % 2 ^ 8)
        reads := printer.reads ++ List.range' start digits.length } := by
  induction digits generalizing start size printer with
  | nil =>
      have same : { printer with
          phase := .number (start + 0) ((size + 0) % 2 ^ 8)
          reads := printer.reads ++ [] } = printer := by
        rw [Nat.add_zero, Nat.add_zero, Nat.mod_eq_of_lt byte, ← phase, List.append_nil]
      exact (congrArg (Loop.Reaches (printRound platform format args) printer) same).mpr
        (.here printer)
  | cons digit rest induction =>
      have first : format start = digit := spelled 0 (Nat.succ_pos _)
      let next : Printer := { printer with
        phase := .number (start + 1) ((size + 1) % 2 ^ 8)
        reads := printer.reads ++ [start] }
      have round : printRound platform format args printer = .inr next := by
        rw [printRound, phase]
        exact if_pos (first ▸ isDigits digit List.mem_cons_self)
      have others := induction (fun char member => isDigits char (List.mem_cons_of_mem _ member))
        (spelled_tail spelled) (Nat.mod_lt (size + 1) (by decide)) (rfl : next.phase = _)
      have last : start + 1 + rest.length = start + (digit :: rest).length := by
        rw [List.length_cons]
        omega
      have count : ((size + 1) % 2 ^ 8 + rest.length) % 2 ^ 8 =
          (size + (digit :: rest).length) % 2 ^ 8 := by
        rw [List.length_cons]
        omega
      have reads : next.reads ++ List.range' (start + 1) rest.length =
          printer.reads ++ List.range' start (digit :: rest).length := by
        rw [List.length_cons, List.range'_succ, ← List.singleton_append, ← List.append_assoc]
      rw [last, count, reads] at others
      exact .next round others

/-- From the number on, a directive is one piece. -/
theorem directive_eq {chars : List UInt8} {count : Nat}
    (spells : Spells format base chars) (inside : count ≤ chars.length)
    (src : printer.src = base) (size : printer.size < 2 ^ 16) :
    let piece := Piece.directive (numeralValue (chars.take count) % 2 ^ 8) chars[count]?
    printer.directive platform format args count =
      printer.behind (piece.text platform.shifts (args printer.taken)) (base + (count + 1))
        piece.takes (printer.reads ++ [base + count]) := by
  have length : (chars.take count).length = count := List.length_take_of_le inside
  have number : optFmtLoop format count base 0 = numeralValue (chars.take count) % 2 ^ 8 := by
    have spelled (place : Nat) (within : place < (chars.take count).length) :
        format (base + place) = (chars.take count)[place] := by
      rw [List.getElem_take]
      exact spells.spelled place (by omega)
    have loop := optFmtLoop_eq spelled (by decide : 0 < 2 ^ 8)
    rw [length, Nat.zero_add] at loop
    exact loop
  intro piece
  simp only [piece]
  rw [Printer.directive, src, spells.letter inside, conversion_letter, number]
  simp only [Piece.text, Piece.takes]
  cases chars[count]?.bind conversion with
  | none => rfl
  | some conversion =>
      have word : (printer.read (base + count)).size < 2 ^ 16 := size
      simp only []
      rw [conversion.convert_eq platform _ _ word, Printer.read,
        Printer.copyString_frame _ printer printer.phase printer.src printer.taken]
      rfl

/-- From the percent sign to behind the letter. -/
theorem directive_reached {rest : List UInt8} (spells : Spells format base (ascii '%' :: rest))
    (phase : printer.phase = .text) (src : printer.src = base) (size : printer.size < 2 ^ 16) :
    let piece := Piece.directive (numeralValue (rest.take (digitCount rest)) % 2 ^ 8)
      rest[digitCount rest]?
    ∃ reads, Loop.Reaches (printRound platform format args) printer
        (printer.behind (piece.text platform.shifts (args printer.taken))
          (base + 1 + (digitCount rest + 1)) piece.takes reads) ∧
      ∀ offset ∈ reads, offset ∈ printer.reads ∨ offset ≤ base + 1 + rest.length := by
  intro piece
  have tail : Spells format (base + 1) rest := spells.drop (Nat.le_add_left 1 _)
  have counted := digitCount_le rest
  have digits := digitsOf_length_le rest
  have percent : format base = ascii '%' := spells.spelled 0 (Nat.succ_pos _)
  let start : Printer := { printer with
    phase := .number (base + 1) 0
    src := base + 1
    reads := printer.reads ++ [base] }
  have sign : printRound platform format args printer = .inr start := by
    rw [printRound, phase, src, percent]
    rfl
  have spelled (place : Nat) (inside : place < (digitsOf rest).length) :
      format (base + 1 + place) = (digitsOf rest)[place] := by
    rw [tail.spelled place (by omega)]
    exact ((List.takeWhile_prefix _).getElem inside).symm
  have scanned := @digits_reached platform format args start _ (digitsOf_isDigit rest) _ _
    spelled (by decide) rfl
  rw [Nat.zero_add] at scanned
  let last : Printer := { start with
    phase := .number (base + 1 + (digitsOf rest).length) (digitCount rest)
    reads := start.reads ++ List.range' (base + 1) (digitsOf rest).length }
  let looked := last.read (base + 1 + (digitsOf rest).length)
  have letter : printRound platform format args last =
      .inr (looked.directive platform format args (digitCount rest)) := by
    have behind := digitsOf_end rest
    rw [← tail.letter digits] at behind
    exact if_neg behind
  have directive := @directive_eq platform format args (base + 1) looked rest (digitCount rest)
    tail (Nat.le_trans counted digits) rfl size
  refine ⟨looked.reads ++ [base + 1 + digitCount rest], ?_, ?_⟩
  · refine .next sign (scanned.trans (.next letter ?_))
    have moved := Printer.behind_moved (piece.text platform.shifts (args printer.taken))
      (base + 1 + (digitCount rest + 1)) piece.takes (looked.reads ++ [base + 1 + digitCount rest])
      printer looked.phase looked.src looked.reads
    exact (directive.trans moved) ▸ .here _
  · intro offset member
    simp only [looked, last, start, Printer.read, List.mem_append, List.mem_singleton,
      List.mem_range'_1] at member
    rcases member with (((before | sign) | digit) | behind) | letter
    · exact .inl before
    all_goals
      right
      omega

theorem literal_reached {char : UInt8} {rest : List UInt8}
    (spells : Spells format base (char :: rest)) (literal : char ≠ ascii '%')
    (phase : printer.phase = .text) (src : printer.src = base) :
    Loop.Reaches (printRound platform format args) printer
      (printer.behind [char] (base + 1) 0 (printer.reads ++ [base])) := by
  have first : format base = char := spells.spelled 0 (Nat.succ_pos _)
  have nonzero := spells.nonzero char List.mem_cons_self
  refine .next ?_ (.here _)
  rw [printRound, phase]
  simp only [src, first]
  rw [if_neg nonzero, if_neg literal]
  simp only [Printer.behind, Printer.copyString, Printer.put, Printer.read, phase, Nat.add_zero]

/-- One piece of the format. The scanner goes behind the end only if the piece
is cut off. -/
theorem piece_reached (platform : Platform) (args : Nat → Arg) {char : UInt8}
    {rest : List UInt8} (spells : Spells format base (char :: rest))
    (phase : printer.phase = .text) (src : printer.src = base) (size : printer.size < 2 ^ 16) :
    ∃ piece count reads, parse (char :: rest) = piece :: parse (rest.drop count) ∧
      (piece.Complete ∧ count ≤ rest.length ∨ ¬piece.Complete ∧ count = rest.length + 1) ∧
      Loop.Reaches (printRound platform format args) printer
        (printer.behind (piece.text platform.shifts (args printer.taken)) (base + 1 + count)
          piece.takes reads) ∧
      ∀ offset ∈ reads, offset ∈ printer.reads ∨ offset ≤ base + 1 + rest.length := by
  by_cases percent : char = ascii '%'
  · subst percent
    rcases @directive_reached platform format args base printer rest spells phase src size with
      ⟨reads, reaches, inside⟩
    refine ⟨_, digitCount rest + 1, reads, ?_, ?_, reaches, inside⟩
    · rw [parse, if_pos rfl]
    · have counted := digitCount_le rest
      have digits := digitsOf_length_le rest
      rcases Nat.lt_or_eq_of_le (Nat.le_trans counted digits) with before | last
      · refine .inl ⟨?_, before⟩
        rw [Piece.Complete, List.getElem?_eq_getElem before]
        exact Option.some_ne_none _
      · refine .inr ⟨?_, congrArg (· + 1) last⟩
        rw [Piece.Complete, List.getElem?_eq_none (Nat.le_of_eq last.symm)]
        exact not_not_intro rfl
  · refine ⟨.literal char, 0, _, ?_, .inl ⟨trivial, Nat.zero_le _⟩,
      literal_reached spells percent phase src, ?_⟩
    · rw [parse, if_neg percent, List.drop_zero]
    · intro offset member
      rcases List.mem_append.mp member with before | now
      · exact .inl before
      · have place := List.mem_singleton.mp now
        omega

/-- The scanner comes to the terminator behind a format that is not cut off. -/
theorem text_reached (platform : Platform) (args : Nat → Arg) {chars : List UInt8}
    (spells : Spells format base chars) (complete : ∀ piece ∈ parse chars, piece.Complete)
    (phase : printer.phase = .text) (src : printer.src = base) (size : printer.size < 2 ^ 16) :
    ∃ reads, Loop.Reaches (printRound platform format args) printer
        (printer.behind (piecesText platform.shifts (parse chars)
          (fun index => args (printer.taken + index)))
          (base + chars.length) (piecesTake (parse chars)) reads) ∧
      ∀ offset ∈ reads, offset ∈ printer.reads ∨ offset ≤ base + chars.length := by
  induction measure : chars.length using Nat.strong_induction_on
    generalizing chars base printer with
  | _ length induction =>
      cases chars with
      | nil =>
          subst measure
          refine ⟨printer.reads, ?_, fun offset member => .inl member⟩
          have same : printer.behind [] (base + 0) 0 printer.reads = printer := by
            rw [← src, Nat.add_zero, Printer.behind, ← phase]
            rfl
          rw [parse]
          exact (congrArg (Loop.Reaches (printRound platform format args) printer) same).mpr
            (.here printer)
      | cons char rest =>
          rcases piece_reached platform args spells phase src size with
            ⟨piece, count, reads, pieces, ends, reaches, inside⟩
          rw [pieces] at complete
          have whole := complete piece List.mem_cons_self
          have within : count ≤ rest.length := by
            rcases ends with ⟨_, within⟩ | ⟨cut, _⟩
            · exact within
            · exact absurd whole cut
          subst measure
          let first := printer.behind (piece.text platform.shifts (args printer.taken))
            (base + 1 + count) piece.takes reads
          have left : (rest.drop count).length = rest.length - count := List.length_drop
          rcases @induction (rest.drop count).length (by rw [left, List.length_cons]; omega)
            _ first _ (spells.behind within)
            (fun piece member => complete piece (List.mem_cons_of_mem _ member)) rfl rfl
            (behind_size_lt _ _ _ _ size) rfl
            with ⟨later, arrives, all⟩
          have ending : base + 1 + count + (rest.drop count).length =
              base + (char :: rest).length := by
            rw [left, List.length_cons]
            omega
          refine ⟨later, ?_, ?_⟩
          · refine reaches.trans ?_
            rw [ending] at arrives
            rw [pieces, piecesText, piecesTake, List.map_cons, List.sum_cons, ← piecesTake,
              ← Printer.behind_behind _ _ (base + 1 + count) _ _ _ reads]
            have taken (index : Nat) : first.taken + index =
                printer.taken + (piece.takes + index) := Nat.add_assoc ..
            simp only [taken] at arrives
            exact arrives
          · intro offset member
            rcases all offset member with before | now
            · rcases inside offset before with earlier | here
              · exact .inl earlier
              · right
                rw [List.length_cons]
                omega
            · exact .inr (ending ▸ now)

/-- A format that is cut off brings the scanner behind the terminator. -/
theorem cut_reached (platform : Platform) (args : Nat → Arg) {chars : List UInt8}
    (spells : Spells format base chars) (cut : ∃ piece ∈ parse chars, ¬piece.Complete)
    (phase : printer.phase = .text) (src : printer.src = base) (size : printer.size < 2 ^ 16) :
    ∃ later, Loop.Reaches (printRound platform format args) printer later ∧
      later.phase = .text ∧ later.src = base + chars.length + 1 := by
  induction measure : chars.length using Nat.strong_induction_on
    generalizing chars base printer with
  | _ length induction =>
      cases chars with
      | nil =>
          rw [parse] at cut
          rcases cut with ⟨_, member, _⟩
          cases member
      | cons char rest =>
          rcases piece_reached platform args spells phase src size with
            ⟨piece, count, reads, pieces, ends, reaches, -⟩
          subst measure
          rcases ends with ⟨whole, within⟩ | ⟨_, behind⟩
          · have left : (rest.drop count).length = rest.length - count := List.length_drop
            have later : ∃ piece ∈ parse (rest.drop count), ¬piece.Complete := by
              rw [pieces] at cut
              rcases cut with ⟨other, member, broken⟩
              rcases List.mem_cons.mp member with same | member
              · exact absurd whole (same ▸ broken)
              · exact ⟨other, member, broken⟩
            rcases induction (rest.drop count).length (by rw [left, List.length_cons]; omega)
              (spells.behind within) later rfl rfl (behind_size_lt _ _ _ _ size) rfl with
              ⟨last, arrives, text, place⟩
            refine ⟨last, reaches.trans arrives, text, ?_⟩
            rw [place, left, List.length_cons]
            omega
          · refine ⟨_, reaches, rfl, ?_⟩
            rw [behind, List.length_cons]
            exact congrArg (· + 1) (Nat.add_right_comm ..)

/-- A format that is not cut off: the call ends, and all texts are stored from
the start of the buffer. -/
theorem prints_text (platform : Platform) (args : Nat → Arg) {chars : List UInt8}
    (spells : Spells format 0 chars) (complete : ∀ piece ∈ parse chars, piece.Complete)
    (sink : Sink) :
    ∃ last, Prints platform format args sink last ∧
      last.sink = sink.storeAll 0 (piecesText platform.shifts (parse chars) args) ∧
      last.size = (piecesText platform.shifts (parse chars) args).length % 2 ^ 16 ∧
      last.taken = piecesTake (parse chars) ∧
      ∀ offset ∈ last.reads, offset ≤ chars.length := by
  let start := printerStart sink
  have word : start.size < 2 ^ 16 := Nat.two_pow_pos 16
  rcases text_reached platform args spells complete (rfl : start.phase = .text) rfl word with
    ⟨reads, reaches, inside⟩
  have given : (fun index => args (start.taken + index)) = args := args_from_zero args
  rw [given, Nat.zero_add] at reaches
  rw [Nat.zero_add] at inside
  let text := piecesText platform.shifts (parse chars) args
  let last := start.behind text chars.length (piecesTake (parse chars)) reads
  have stops : printRound platform format args last = .inl (last.read chars.length) := by
    have ending := spells.terminator
    rw [Nat.zero_add] at ending
    exact if_pos ending
  have sink_eq : last.sink = sink.storeAll 0 text := Printer.copyString_sink text start
  have size_eq : last.size = (0 + text.length) % 2 ^ 16 := Printer.copyString_size text word
  refine ⟨last.read chars.length, reaches.returns (.done stops), sink_eq, ?_, ?_, ?_⟩
  · rw [Nat.zero_add] at size_eq
    exact size_eq
  · exact Nat.zero_add _
  · intro offset member
    rcases List.mem_append.mp member with before | now
    · rcases inside offset before with none | within
      · cases none
      · exact within
    · exact Nat.le_of_eq (List.mem_singleton.mp now)

end

end Vanilla.Misc
