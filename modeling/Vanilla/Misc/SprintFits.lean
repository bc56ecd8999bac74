import Mathlib.Data.List.Induction
import Vanilla.Misc.SprintItems

namespace Vanilla.Misc

/-! The pieces that the scanner makes of the documented formats, and from them
when print_to_buffer_va prints what the directives are to print. -/

theorem letter_not_digit (kind : Directive) : ¬isDigit kind.letter := by
  cases kind <;> decide

theorem letter_ne_zero (kind : Directive) : kind.letter ≠ 0 := by
  cases kind <;> decide

theorem digit_ne_zero {char : UInt8} (digit : isDigit char) : char ≠ 0 := by
  rintro rfl
  exact absurd digit (by decide)

theorem digit_ne_percent {char : UInt8} (digit : isDigit char) : char ≠ ascii '%' := by
  rintro rfl
  exact absurd digit (by decide)

theorem conversion_digit {char : UInt8} (digit : isDigit char) : conversion char = none := by
  have other {letter : UInt8} (notDigit : ¬isDigit letter) : char ≠ letter := by
    rintro rfl
    exact notDigit digit
  rw [conversion, if_neg (other (by decide)), if_neg (other (by decide)),
    if_neg (other (by decide)), if_neg (other (by decide)), if_neg (other (by decide)),
    if_neg (other (by decide)), if_neg (other (by decide))]

theorem encode_ne_zero {item : Item} (documented : item.Documented) :
    ∀ char ∈ item.encode, char ≠ 0 := by
  cases item with
  | literal char => exact List.forall_mem_singleton.mpr documented.1
  | directive kind digits =>
      refine List.forall_mem_cons.mpr ⟨by decide, List.forall_mem_append.mpr ⟨?_, ?_⟩⟩
      · intro char member
        exact digit_ne_zero (documented.1 char member)
      · exact List.forall_mem_singleton.mpr (letter_ne_zero kind)

/-! ## The pieces of an item -/

def Item.piece : Item → Piece
  | .literal char => .literal char
  | .directive kind digits =>
      .directive (numeralValue digits % 2 ^ 8) (some kind.letter)

/-- The scanner takes all digits of the number. -/
def Item.Short : Item → Prop
  | .literal _ => True
  | .directive _ digits => digits.length < 256

theorem Item.Fits.short {item : Item} {arg : Arg} (fits : item.Fits arg) : item.Short := by
  cases item with
  | literal char => trivial
  | directive kind digits => exact fits.1

theorem Item.piece_takes (item : Item) : item.piece.takes = item.takes := by
  cases item with
  | literal char => rfl
  | directive kind digits =>
      rw [piece, Piece.takes, Option.bind_some, kind.conversion_letter]
      exact kind.conversion_takes

theorem Item.piece_complete (item : Item) : item.piece.Complete := by
  cases item with
  | literal char => trivial
  | directive kind digits => exact Option.some_ne_none _

theorem Item.piece_text_iff (shifts : Shifts) {item : Item} (documented : item.Documented)
    (short : item.Short) (arg : Arg) :
    item.piece.text shifts arg = item.text arg ↔ item.Fits arg := by
  cases item with
  | literal char => exact iff_of_true rfl trivial
  | directive kind digits =>
      rw [piece, Piece.text, Option.bind_some, kind.conversion_letter, text, Fits]
      have same := kind.text_iff shifts documented.2 arg
      exact same.trans ⟨fun fits => ⟨short, fits⟩, fun fits => fits.2⟩

theorem digitsOf_append {digits : List UInt8} (isDigits : ∀ char ∈ digits, isDigit char)
    {letter : UInt8} (notDigit : ¬isDigit letter) (rest : List UInt8) :
    digitsOf (digits ++ letter :: rest) = digits := by
  have all (char : UInt8) (member : char ∈ digits) : decide (isDigit char) = true :=
    decide_eq_true (isDigits char member)
  have none : digitsOf (letter :: rest) = [] :=
    List.takeWhile_cons_of_neg (mt of_decide_eq_true notDigit)
  rw [digitsOf] at none ⊢
  rw [List.takeWhile_append_of_pos all, none, List.append_nil]

theorem parse_encode {item : Item} (documented : item.Documented) (short : item.Short)
    (rest : List UInt8) : parse (item.encode ++ rest) = item.piece :: parse rest := by
  cases item with
  | literal char =>
      rw [Item.encode, List.singleton_append, parse, if_neg documented.2]
      rfl
  | directive kind digits =>
      have found := digitsOf_append documented.1 (letter_not_digit kind) rest
      have count : digitCount (digits ++ kind.letter :: rest) = digits.length := by
        rw [digitCount, found]
        exact Nat.mod_eq_of_lt short
      have letter : (digits ++ kind.letter :: rest)[digits.length]? = some kind.letter := by
        rw [List.getElem?_append_right (Nat.le_refl _), Nat.sub_self]
        rfl
      have behind : (digits ++ kind.letter :: rest).drop (digits.length + 1) = rest := by
        rw [List.drop_append, List.drop_of_length_le (Nat.le_succ _), Nat.add_sub_cancel_left]
        rfl
      rw [Item.encode, List.cons_append, List.append_assoc, List.singleton_append, parse,
        if_pos rfl, count, List.take_left, letter, behind]
      rfl

theorem parse_items {items : List Item} (documented : ∀ item ∈ items, item.Documented)
    (short : ∀ item ∈ items, item.Short) (rest : List UInt8) :
    parse (items.flatMap Item.encode ++ rest) = items.map Item.piece ++ parse rest := by
  induction items with
  | nil => rfl
  | cons item others induction =>
      rcases List.forall_mem_cons.mp documented with ⟨first, remaining⟩
      rcases List.forall_mem_cons.mp short with ⟨counted, more⟩
      rw [List.flatMap_cons, List.append_assoc, parse_encode first counted,
        induction remaining more, List.map_cons, List.cons_append]

theorem parse_encode_only {item : Item} (documented : item.Documented) (short : item.Short) :
    parse item.encode = [item.piece] := by
  have parsed := parse_encode documented short []
  rw [List.append_nil, parse_nil] at parsed
  exact parsed

/-- Of a number with too many digits one of these is taken for the letter, and
those behind it are printed. -/
theorem parse_long (kind : Directive) {digits : List UInt8}
    (isDigits : ∀ char ∈ digits, isDigit char) (long : 256 ≤ digits.length) :
    ∃ number digit text, isDigit digit ∧
      parse (Item.directive kind digits).encode = .directive number (some digit) ::
        (text ++ [kind.letter]).map .literal := by
  let count := digits.length % 2 ^ 8
  have fewer : count < digits.length := Nat.lt_of_lt_of_le (Nat.mod_lt _ (by decide)) long
  have counted : digitCount (digits ++ [kind.letter]) = count := by
    rw [digitCount, digitsOf_append isDigits (letter_not_digit kind)]
  have letter : (digits ++ [kind.letter])[count]? = some digits[count] := by
    rw [List.getElem?_append_left fewer, List.getElem?_eq_getElem fewer]
  have behind : (digits ++ [kind.letter]).drop (count + 1) =
      digits.drop (count + 1) ++ [kind.letter] := List.drop_append_of_le_length fewer
  have literals : ∀ char ∈ digits.drop (count + 1) ++ [kind.letter], char ≠ ascii '%' := by
    refine List.forall_mem_append.mpr ⟨?_, ?_⟩
    · intro char member
      exact digit_ne_percent (isDigits char (List.mem_of_mem_drop member))
    · have letter : kind.letter ≠ ascii '%' := by cases kind <;> decide
      exact List.forall_mem_singleton.mpr letter
  refine ⟨numeralValue ((digits ++ [kind.letter]).take count) % 2 ^ 8, digits[count],
    digits.drop (count + 1), isDigits _ (List.getElem_mem fewer), ?_⟩
  rw [Item.encode, parse, if_pos rfl, counted, letter, behind, parse_literals literals]

theorem piecesText_literals (shifts : Shifts) (chars : List UInt8) (args : Nat → Arg) :
    piecesText shifts (chars.map .literal) args = chars := by
  induction chars generalizing args with
  | nil => rfl
  | cons char rest induction =>
      rw [List.map_cons, piecesText, induction]
      rfl

theorem piecesTake_literals (chars : List UInt8) :
    piecesTake (chars.map .literal) = 0 := by
  induction chars with
  | nil => rfl
  | cons char rest induction =>
      rw [piecesTake] at induction ⊢
      rw [List.map_cons, List.map_cons, List.sum_cons, induction]
      rfl

theorem item_whole {item : Item} (documented : item.Documented) :
    ∀ piece ∈ parse item.encode, piece.Complete := by
  by_cases short : item.Short
  · rw [parse_encode_only documented short]
    exact List.forall_mem_singleton.mpr item.piece_complete
  · cases item with
    | literal char => exact absurd trivial short
    | directive kind digits =>
        rcases parse_long kind documented.1 (Nat.le_of_not_lt short) with
          ⟨number, digit, text, _, parsed⟩
        rw [parsed]
        refine List.forall_mem_cons.mpr ⟨Option.some_ne_none _, ?_⟩
        intro piece member
        rcases List.mem_map.mp member with ⟨char, _, rfl⟩
        trivial

/-- A documented item prints its text, with its arguments, exactly if it fits. -/
theorem item_prints_iff (shifts : Shifts) {item : Item} (documented : item.Documented)
    (args : Nat → Arg) :
    piecesText shifts (parse item.encode) args = item.text (args 0) ∧
        piecesTake (parse item.encode) = item.takes ↔
      item.Fits (args 0) := by
  by_cases short : item.Short
  · have text : piecesText shifts [item.piece] args = item.piece.text shifts (args 0) :=
      List.append_nil _
    have takes : piecesTake [item.piece] = item.takes := item.piece_takes
    rw [parse_encode_only documented short, text, takes,
      item.piece_text_iff shifts documented short]
    exact and_iff_left rfl
  · cases item with
    | literal char => exact absurd trivial short
    | directive kind digits =>
        rcases parse_long kind documented.1 (Nat.le_of_not_lt short) with
          ⟨number, digit, text, isDigit, parsed⟩
        have nothing : (Piece.directive number (some digit)).takes = 0 := by
          rw [Piece.takes, Option.bind_some, conversion_digit isDigit]
        have silent : (Piece.directive number (some digit)).text shifts (args 0) = [] := by
          rw [Piece.text, Option.bind_some, conversion_digit isDigit]
        have takes : piecesTake (parse (Item.directive kind digits).encode) = 0 := by
          have literals := piecesTake_literals (text ++ [kind.letter])
          rw [parsed, piecesTake, List.map_cons, List.sum_cons, nothing, Nat.zero_add]
          exact literals
        have printed : piecesText shifts (parse (Item.directive kind digits).encode) args =
            text ++ [kind.letter] := by
          rw [parsed, piecesText, silent, piecesText_literals]
          rfl
        refine iff_of_false ?_ (fun fits => short fits.short)
        rintro ⟨same, all⟩
        rw [takes] at all
        rw [printed] at same
        -- an argument is left, or the letter of %e is printed
        cases kind with
        | happy =>
            have letter : ascii 'e' ∈ (List.replicate (numeralValue digits)
                [ascii ':', ascii 'D']).flatten := by
              have last : ascii 'e' ∈ text ++ [Directive.happy.letter] :=
                List.mem_append_right _ List.mem_cons_self
              rw [same] at last
              exact last
            rcases List.mem_flatten.mp letter with ⟨pair, pairs, member⟩
            rw [List.eq_of_mem_replicate pairs] at member
            exact absurd member (by decide)
        | string => cases all
        | char => cases all
        | unsigned => cases all
        | signed => cases all
        | binary => cases all
        | hex => cases all

/-! ## Lists of items -/

theorem itemsTake_append (front back : List Item) :
    itemsTake (front ++ back) = itemsTake front + itemsTake back := by
  rw [itemsTake, List.map_append, List.sum_append]
  rfl

theorem itemsText_append (front back : List Item) (args : Nat → Arg) :
    itemsText (front ++ back) args = itemsText front args ++
      itemsText back (fun index => args (itemsTake front + index)) := by
  induction front generalizing args with
  | nil =>
      have given : (fun index => args (itemsTake [] + index)) = args := args_from_zero args
      rw [given]
      rfl
  | cons item rest induction =>
      rw [List.cons_append, itemsText, itemsText, induction, List.append_assoc]
      simp only [itemsTake, List.map_cons, List.sum_cons, Nat.add_assoc]

theorem allFit_append (front back : List Item) (args : Nat → Arg) :
    AllFit (front ++ back) args ↔
      AllFit front args ∧ AllFit back (fun index => args (itemsTake front + index)) := by
  induction front generalizing args with
  | nil =>
      have given : (fun index => args (itemsTake [] + index)) = args := args_from_zero args
      rw [given]
      exact (and_iff_right trivial).symm
  | cons item rest induction =>
      rw [List.cons_append, AllFit, AllFit, induction, and_assoc]
      simp only [itemsTake, List.map_cons, List.sum_cons, Nat.add_assoc]

theorem AllFit.short {items : List Item} {args : Nat → Arg} (fits : AllFit items args) :
    ∀ item ∈ items, item.Short := by
  induction items generalizing args with
  | nil => exact List.forall_mem_nil _
  | cons item rest induction =>
      exact List.forall_mem_cons.mpr ⟨fits.1.short, induction fits.2⟩

theorem pieces_take (items : List Item) :
    piecesTake (items.map Item.piece) = itemsTake items := by
  rw [piecesTake, itemsTake, List.map_map]
  congr 1
  exact List.map_congr_left fun item _ => item.piece_takes

theorem pieces_text (shifts : Shifts) {items : List Item} {args : Nat → Arg}
    (documented : ∀ item ∈ items, item.Documented) (fits : AllFit items args) :
    piecesText shifts (items.map Item.piece) args = itemsText items args := by
  induction items generalizing args with
  | nil => rfl
  | cons item rest induction =>
      rcases List.forall_mem_cons.mp documented with ⟨first, others⟩
      have text := (item.piece_text_iff shifts first fits.1.short (args 0)).mpr fits.1
      rw [List.map_cons, piecesText, itemsText, text, item.piece_takes,
        induction others fits.2]

theorem encode_items_ne_zero {items : List Item}
    (documented : ∀ item ∈ items, item.Documented) :
    ∀ char ∈ items.flatMap Item.encode, char ≠ 0 := by
  intro char member
  rcases List.mem_flatMap.mp member with ⟨item, among, inside⟩
  exact encode_ne_zero (documented item among) char inside

/-! ## The calls -/

theorem storeAll_injective {offset : Nat} {sink : Sink} {left right : List UInt8}
    (same : sink.storeAll offset left = sink.storeAll offset right) : left = right := by
  have stores := congrArg Sink.stores same
  rw [Sink.storeAll_stores, Sink.storeAll_stores] at stores
  have length := congrArg List.length (List.append_cancel_left stores)
  rw [List.length_range', List.length_range'] at length
  rw [← storeAll_text left offset sink, ← storeAll_text right offset sink, same, length]

section

variable {platform : Platform} {args : Nat → Arg} {sink : Sink} {items front : List Item}
  {item : Item}

/-- The call prints the items exactly if the pieces that the scanner finds say
the same. -/
theorem printed_iff (documented : ∀ item ∈ items, item.Documented)
    (whole : ∀ piece ∈ parse (items.flatMap Item.encode), piece.Complete)
    (short : (itemsText items args).length < 2 ^ 16) :
    Printed platform args sink items ↔
      piecesText platform.shifts (parse (items.flatMap Item.encode)) args =
          itemsText items args ∧
        piecesTake (parse (items.flatMap Item.encode)) = itemsTake items := by
  constructor
  · intro printed
    have spells := memoryOf_spells (encode_items_ne_zero documented)
    rcases printed _ spells with ⟨last, prints, text, -, takes⟩
    rcases prints_text platform args spells whole sink with
      ⟨other, others, pieces, -, taken, -⟩
    have same := prints.unique others
    subst same
    exact ⟨storeAll_injective (pieces.symm.trans text), taken.symm.trans takes⟩
  · rintro ⟨text, takes⟩ format spells
    rcases prints_text platform args spells whole sink with
      ⟨last, prints, pieces, size, taken, -⟩
    rw [text] at pieces size
    rw [takes] at taken
    exact ⟨last, prints, pieces, size.trans (Nat.mod_eq_of_lt short), taken⟩

theorem fits_printed (documented : ∀ item ∈ items, item.Documented)
    (short : (itemsText items args).length < 2 ^ 16) (fits : AllFit items args) :
    Printed platform args sink items := by
  have parsed := parse_items documented fits.short []
  rw [List.append_nil, parse_nil, List.append_nil] at parsed
  have whole : ∀ piece ∈ parse (items.flatMap Item.encode), piece.Complete := by
    intro piece member
    rw [parsed] at member
    rcases List.mem_map.mp member with ⟨item, _, rfl⟩
    exact item.piece_complete
  rw [printed_iff documented whole short, parsed]
  exact ⟨pieces_text platform.shifts documented fits, pieces_take items⟩

/-- Behind items that fit, one more is printed only if it fits too. -/
theorem snoc_fits (documented : ∀ entry ∈ front ++ [item], entry.Documented)
    (short : (itemsText (front ++ [item]) args).length < 2 ^ 16) (fits : AllFit front args)
    (printed : Printed platform args sink (front ++ [item])) :
    AllFit (front ++ [item]) args := by
  rcases List.forall_mem_append.mp documented with ⟨before, last⟩
  have this := List.forall_mem_singleton.mp last
  have parsed : parse ((front ++ [item]).flatMap Item.encode) =
      front.map Item.piece ++ parse item.encode := by
    rw [List.flatMap_append, List.flatMap_singleton]
    exact parse_items before fits.short item.encode
  have whole : ∀ piece ∈ parse ((front ++ [item]).flatMap Item.encode), piece.Complete := by
    rw [parsed]
    refine List.forall_mem_append.mpr ⟨?_, item_whole this⟩
    intro piece member
    rcases List.mem_map.mp member with ⟨other, _, rfl⟩
    exact other.piece_complete
  rcases (printed_iff documented whole short).mp printed with ⟨text, takes⟩
  rw [parsed, piecesText_append, itemsText_append, pieces_text platform.shifts before fits,
    pieces_take] at text
  rw [parsed, piecesTake_append, itemsTake_append, pieces_take] at takes
  have one := (item_prints_iff platform.shifts this
    (fun index => args (itemsTake front + index))).mp
    ⟨(List.append_cancel_left text).trans (List.append_nil _), Nat.add_left_cancel takes⟩
  exact (allFit_append front [item] args).mpr ⟨fits, one, trivial⟩

/-- A call prints the documented items, at whatever directive its format ends,
exactly if each directive fits its argument. -/
theorem items_printed_iff (documented : ∀ item ∈ items, item.Documented)
    (short : (itemsText items args).length < 2 ^ 16) :
    (∀ front, front <+: items → Printed platform args sink front) ↔ AllFit items args := by
  have shorter {front back : List Item}
      (short : (itemsText (front ++ back) args).length < 2 ^ 16) :
      (itemsText front args).length < 2 ^ 16 := by
    rw [itemsText_append, List.length_append] at short
    omega
  constructor
  · intro printed
    induction items using List.reverseRecOn with
    | nil => trivial
    | append_singleton front item induction =>
        have before := (List.forall_mem_append.mp documented).1
        have fits := induction before (shorter short) (fun earlier isPrefix =>
          printed earlier (isPrefix.trans (List.prefix_append front [item])))
        exact snoc_fits documented short fits (printed _ (List.prefix_refl _))
  · rintro fits front ⟨back, rfl⟩
    exact fits_printed (List.forall_mem_append.mp documented).1 (shorter short)
      ((allFit_append front back args).mp fits).1

end

/-- The low two bytes behind a letter. -/
theorem items_printed_bytes :
    Printed ⟨⟨fun _ => 0, fun _ _ => 0⟩, fun _ => 0⟩
      (fun _ => ⟨0x1234BEEF, ⟨[], List.forall_mem_nil _⟩⟩) ⟨fun _ => 0, []⟩
      [.literal (ascii 'x'), .directive .hex [ascii '2']] := by
  have two : numeralValue [ascii '2'] = 2 := by decide
  refine (items_printed_iff ?_ ?_).mpr ?_ _ (List.prefix_refl _)
  · refine List.forall_mem_cons.mpr ⟨⟨by decide, by decide⟩, List.forall_mem_singleton.mpr ?_⟩
    refine ⟨List.forall_mem_singleton.mpr (by decide), ?_⟩
    rw [Directive.Documented, two]
    decide
  · simp only [itemsText, Item.text, Directive.text, two]
    decide
  · exact ⟨trivial, ⟨by decide, trivial⟩, trivial⟩

/-- %u prints the word with the highest bit as a negative number. -/
theorem unsigned_printed_negative :
    (∀ item ∈ [Item.directive .unsigned []], item.Documented) ∧
      (itemsText [Item.directive .unsigned []]
        (fun _ => ⟨2147483648, ⟨[], List.forall_mem_nil _⟩⟩)).length < 2 ^ 16 ∧
      ¬Printed ⟨⟨fun _ => 0, fun _ _ => 0⟩, fun _ => 0⟩
        (fun _ => ⟨2147483648, ⟨[], List.forall_mem_nil _⟩⟩) ⟨fun _ => 0, []⟩
        [.directive .unsigned []] := by
  have documented : ∀ item ∈ [] ++ [Item.directive .unsigned []], item.Documented :=
    List.forall_mem_singleton.mpr ⟨List.forall_mem_nil _, rfl⟩
  have short : (itemsText ([] ++ [Item.directive .unsigned []])
      (fun _ => ⟨2147483648, ⟨[], List.forall_mem_nil _⟩⟩)).length < 2 ^ 16 := by
    have word : (2147483648 : UInt32).toNat < 2 ^ 32 := by decide
    have ten := decimal_length_word word
    simp only [List.nil_append, itemsText, List.append_nil, Item.text, Directive.text]
    exact Nat.lt_of_le_of_lt ten (by decide)
  refine ⟨documented, short, ?_⟩
  intro printed
  have fits := snoc_fits documented short trivial printed
  have signed : (2147483648 : UInt32).toNat < 2 ^ 31 := fits.1.2
  exact absurd signed (by decide)

end Vanilla.Misc
