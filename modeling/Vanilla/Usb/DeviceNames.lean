import Vanilla.Foundation.Word
import Vanilla.Usb.Usbhc

namespace Vanilla.Usb

/-! The names of a device: string descriptors turned into C strings. Behind a
header of two bytes come the code units, low byte first. -/

def usbDevNameMaxSize : Nat := 64
def usbStringOffset : Nat := 2

/-- A char array, and where it has been stored to. -/
structure Text where
  chars : Nat → UInt8
  written : List Nat

def Text.store (index : Nat) (char : UInt8) (text : Text) : Text where
  chars := Function.update text.chars index char
  written := text.written ++ [index]

/-- `reads` records the addresses that have been read. -/
structure Conversion where
  text : Text
  reads : List Nat

/-- `string[ascii_pos] = uni[uni_pos]` -/
def Conversion.copyChar (memory : Nat → UInt8) (uni uniPos asciiPos : Nat)
    (conversion : Conversion) : Conversion where
  text := conversion.text.store asciiPos (memory (u32 (uni + uniPos)))
  reads := conversion.reads ++ [u32 (uni + uniPos)]

/-- The loop, with room for so many characters; returns `ascii_pos`. -/
def uniLoop (memory : Nat → UInt8) (uni uniSize : Nat) :
    Nat → Nat → Nat → Conversion → Nat × Conversion
  | 0, _, asciiPos, conversion => (asciiPos, conversion)
  | room + 1, uniPos, asciiPos, conversion =>
      if uniPos < uniSize then
        uniLoop memory uni uniSize room (uniPos + 2) (asciiPos + 1)
          (conversion.copyChar memory uni uniPos asciiPos)
      else (asciiPos, conversion)

/-- `usbc_uni_to_string`; one char is kept for the termination. -/
def usbcUniToString (memory : Nat → UInt8) (uni uniSize : Nat) :
    Nat → Conversion → Conversion
  | 0, conversion => conversion
  | room + 1, conversion =>
      let copied := uniLoop memory uni uniSize room 0 0 conversion
      { copied.2 with text := copied.2.text.store copied.1 0 }

/-- What the two callbacks have in common. Index 0 stands for no string. -/
def nameDone (memory : Nat → UInt8) (urb : Urb) (conversion : Conversion) : Conversion :=
  if urb.setupBuffer[2]! = 0 then conversion
  else usbcUniToString memory (u32 (urb.transferBuffer + usbStringOffset))
    (u32Sub urb.acctualLength 2) usbDevNameMaxSize conversion

/-- The two strings of `struct usb_dev`. -/
structure DevNames where
  product : Text
  manufacturer : Text
  reads : List Nat

def usbcGetProductNameDone (memory : Nat → UInt8) (urb : Urb) (dev : DevNames) : DevNames :=
  let after := nameDone memory urb ⟨dev.product, dev.reads⟩
  { dev with product := after.text, reads := after.reads }

def usbcGetManufacturerNameDone (memory : Nat → UInt8) (urb : Urb) (dev : DevNames) :
    DevNames :=
  let after := nameDone memory urb ⟨dev.manufacturer, dev.reads⟩
  { dev with manufacturer := after.text, reads := after.reads }

/-! ## Names -/

/-- The first code units of the answer, as many as there is space for, are the
characters of the string, and only received bytes have been read. -/
structure Extracted (units : Nat) (memory : Nat → UInt8) (urb : Urb)
    (before after : Conversion) : Prop where
  reads : ∃ addresses, after.reads = before.reads ++ addresses ∧
    ∀ address ∈ addresses, ∃ offset, offset < urb.acctualLength ∧
      address = u32 (urb.transferBuffer + offset)
  writes : ∃ indices, after.text.written = before.text.written ++ indices ∧
    indices.length ≤ usbDevNameMaxSize ∧ ∀ index ∈ indices, index < usbDevNameMaxSize
  chars : ∀ index, index < min units (usbDevNameMaxSize - 1) →
    after.text.chars index = memory (u32 (urb.transferBuffer + usbStringOffset + 2 * index))
  terminated : after.text.chars (min units (usbDevNameMaxSize - 1)) = 0

/-- Without a string nothing changes. -/
def NameExtracted (units : Nat) (memory : Nat → UInt8) (urb : Urb)
    (before after : Conversion) : Prop :=
  (urb.setupBuffer[2]! = 0 → after = before) ∧
    (urb.setupBuffer[2]! ≠ 0 → Extracted units memory urb before after)

/-- Both callbacks extract the name from an answer with so many code units. -/
def NamesExtracted (units : Nat) (memory : Nat → UInt8) (urb : Urb) (dev : DevNames) : Prop :=
  let product := usbcGetProductNameDone memory urb dev
  let manufacturer := usbcGetManufacturerNameDone memory urb dev
  NameExtracted units memory urb ⟨dev.product, dev.reads⟩ ⟨product.product, product.reads⟩ ∧
    NameExtracted units memory urb ⟨dev.manufacturer, dev.reads⟩
      ⟨manufacturer.manufacturer, manufacturer.reads⟩

/-- The code units that have been received whole. -/
def wholeUnits (received : Nat) : Nat := (received - usbStringOffset) / 2

/-- The code units whose low byte has been received. -/
def startedUnits (received : Nat) : Nat := (received - usbStringOffset + 1) / 2

/-! ## The conversion -/

/-- How many characters the loop copies from a position on. -/
def copiedUnits (uniSize room asciiPos : Nat) : Nat := min room ((uniSize + 1) / 2 - asciiPos)

theorem uniLoop_spec (memory : Nat → UInt8) (uni uniSize : Nat) :
    ∀ (room asciiPos : Nat) (conversion : Conversion),
      ∃ after, uniLoop memory uni uniSize room (2 * asciiPos) asciiPos conversion =
          (asciiPos + copiedUnits uniSize room asciiPos, after) ∧
        after.reads = conversion.reads ++
          (List.range' asciiPos (copiedUnits uniSize room asciiPos)).map
            (fun index => u32 (uni + 2 * index)) ∧
        after.text.written = conversion.text.written ++
          List.range' asciiPos (copiedUnits uniSize room asciiPos) ∧
        ∀ index, after.text.chars index =
          if asciiPos ≤ index ∧ index < asciiPos + copiedUnits uniSize room asciiPos then
            memory (u32 (uni + 2 * index))
          else conversion.text.chars index
  | 0, asciiPos, conversion => by
      have none_ : copiedUnits uniSize 0 asciiPos = 0 := Nat.zero_min _
      rw [none_]
      refine ⟨conversion, rfl, (List.append_nil _).symm, (List.append_nil _).symm, ?_⟩
      intro index
      rw [if_neg (by omega)]
  | room + 1, asciiPos, conversion => by
      rw [uniLoop]
      by_cases more : 2 * asciiPos < uniSize
      · have one : copiedUnits uniSize (room + 1) asciiPos =
            copiedUnits uniSize room (asciiPos + 1) + 1 := by
          rw [copiedUnits, copiedUnits]
          omega
        have rest := uniLoop_spec memory uni uniSize room (asciiPos + 1)
          (conversion.copyChar memory uni (2 * asciiPos) asciiPos)
        rcases rest with ⟨after, run, reads, written, chars⟩
        refine ⟨after, ?_, ?_, ?_, ?_⟩
        · rw [if_pos more, one]
          refine run.trans ?_
          rw [Nat.add_assoc, Nat.add_comm 1]
        · rw [reads, one, List.range'_succ, List.map_cons]
          exact List.append_assoc _ [_] _
        · rw [written, one, List.range'_succ]
          exact List.append_assoc _ [_] _
        · intro index
          rw [chars, one]
          change _ = if _ then _ else _
          by_cases here : index = asciiPos
          · rw [here, if_neg (by omega), if_pos (by omega)]
            exact Function.update_self ..
          · have other : (conversion.copyChar memory uni (2 * asciiPos) asciiPos).text.chars index =
                conversion.text.chars index := Function.update_of_ne here ..
            rw [other]
            by_cases later : asciiPos + 1 ≤ index ∧
                index < asciiPos + 1 + copiedUnits uniSize room (asciiPos + 1)
            · rw [if_pos later, if_pos (by omega)]
            · rw [if_neg later, if_neg (by omega)]
      · have none_ : copiedUnits uniSize (room + 1) asciiPos = 0 := by
          rw [copiedUnits]
          omega
        rw [if_neg more, none_]
        refine ⟨conversion, rfl, (List.append_nil _).symm, (List.append_nil _).symm, ?_⟩
        intro index
        rw [if_neg (by omega)]

/-- How many characters an answer gives. -/
def copiedOf (received : Nat) : Nat := copiedUnits (u32Sub received 2) (usbDevNameMaxSize - 1) 0

theorem u32_offset (base first second : Nat) :
    u32 (u32 (base + first) + second) = u32 (base + first + second) := by
  rw [u32, u32, u32, Nat.mod_add_mod]

/-- What a callback does with an answer for a string. -/
theorem nameDone_spec (memory : Nat → UInt8) {urb : Urb} (before : Conversion)
    (named : urb.setupBuffer[2]! ≠ 0) :
    (nameDone memory urb before).reads = before.reads ++
        (List.range' 0 (copiedOf urb.acctualLength)).map
          (fun index => u32 (urb.transferBuffer + usbStringOffset + 2 * index)) ∧
      (nameDone memory urb before).text.written = before.text.written ++
        (List.range' 0 (copiedOf urb.acctualLength) ++ [copiedOf urb.acctualLength]) ∧
      (∀ index, index < copiedOf urb.acctualLength →
        (nameDone memory urb before).text.chars index =
          memory (u32 (urb.transferBuffer + usbStringOffset + 2 * index))) ∧
      (nameDone memory urb before).text.chars (copiedOf urb.acctualLength) = 0 := by
  have spec := uniLoop_spec memory (u32 (urb.transferBuffer + usbStringOffset))
    (u32Sub urb.acctualLength 2) (usbDevNameMaxSize - 1) 0 before
  rcases spec with ⟨after, run, reads, written, chars⟩
  rw [Nat.mul_zero, Nat.zero_add] at run
  have result : nameDone memory urb before =
      { after with text := after.text.store (copiedOf urb.acctualLength) 0 } := by
    rw [nameDone, if_neg named]
    rw [usbDevNameMaxSize, usbcUniToString]
    rw [usbDevNameMaxSize] at run
    simp only [run]
    rfl
  rw [result]
  refine ⟨?_, ?_, ?_, ?_⟩
  · simp only [u32_offset] at reads
    exact reads
  · change after.text.written ++ [copiedOf urb.acctualLength] = _
    rw [written, List.append_assoc]
    rfl
  · intro index bound
    change Function.update after.text.chars (copiedOf urb.acctualLength) 0 index = _
    rw [Function.update_of_ne (Nat.ne_of_lt bound), chars, if_pos, u32_offset]
    exact ⟨Nat.zero_le index, by rw [Nat.zero_add]; exact bound⟩
  · exact Function.update_self ..

theorem copiedOf_le (received : Nat) : copiedOf received ≤ usbDevNameMaxSize - 1 :=
  Nat.min_le_left _ _

theorem copiedOf_received {received : Nat} (word : received < 2 ^ 32)
    (header : usbStringOffset ≤ received) :
    copiedOf received = min (startedUnits received) (usbDevNameMaxSize - 1) := by
  have size : u32Sub received 2 = received - usbStringOffset := u32Sub_of_le word header
  rw [copiedOf, copiedUnits, size, startedUnits, Nat.sub_zero, Nat.min_comm]

/-- Without the header the size of the string wraps, and the loop stops at the
end of the space only. -/
theorem copiedOf_short {received : Nat} (short : received < usbStringOffset) :
    copiedOf received = usbDevNameMaxSize - 1 := by
  rw [usbStringOffset] at short
  rw [copiedOf, copiedUnits, u32Sub, usbDevNameMaxSize]
  omega

/-! ## When the names are extracted -/

theorem short_reads_outside {units : Nat} {memory : Nat → UInt8} {urb : Urb}
    {before : Conversion} (named : urb.setupBuffer[2]! ≠ 0)
    (short : urb.acctualLength < usbStringOffset) :
    ¬ Extracted units memory urb before (nameDone memory urb before) := by
  intro extracted
  rcases extracted.reads with ⟨addresses, log, inside⟩
  rw [(nameDone_spec memory before named).1, List.append_cancel_left_eq,
    copiedOf_short short] at log
  have first : u32 (urb.transferBuffer + usbStringOffset + 2 * 0) ∈ addresses := by
    rw [← log]
    exact List.mem_map.mpr ⟨0, by decide, rfl⟩
  rcases inside _ first with ⟨offset, bound, same⟩
  rw [usbStringOffset] at same short
  rw [u32, u32] at same
  omega

/-- With the header received, the reads and the stores are in place. -/
theorem extracted_iff {units : Nat} {memory : Nat → UInt8} {urb : Urb} {before : Conversion}
    (named : urb.setupBuffer[2]! ≠ 0) (word : urb.acctualLength < 2 ^ 32)
    (header : usbStringOffset ≤ urb.acctualLength) :
    Extracted units memory urb before (nameDone memory urb before) ↔
      (∀ index, index < min units (usbDevNameMaxSize - 1) →
        (nameDone memory urb before).text.chars index =
          memory (u32 (urb.transferBuffer + usbStringOffset + 2 * index))) ∧
      (nameDone memory urb before).text.chars (min units (usbDevNameMaxSize - 1)) = 0 := by
  constructor
  · exact fun extracted => ⟨extracted.chars, extracted.terminated⟩
  · intro contents
    rcases nameDone_spec memory before named with ⟨reads, written, _⟩
    have limit := copiedOf_le urb.acctualLength
    constructor
    · refine ⟨_, reads, ?_⟩
      intro address member
      rcases List.mem_map.mp member with ⟨index, range, rfl⟩
      have bound := (List.mem_range'_1.mp range).2
      rw [copiedOf_received word header, startedUnits] at bound
      exact ⟨usbStringOffset + 2 * index, by omega, by rw [← Nat.add_assoc]⟩
    · refine ⟨_, written, ?_, ?_⟩
      · rw [List.length_append, List.length_range', List.length_singleton]
        exact Nat.succ_le_of_lt (Nat.lt_of_le_of_lt limit (by decide))
      · intro index member
        rw [List.mem_append, List.mem_range'_1, List.mem_singleton] at member
        rw [usbDevNameMaxSize] at limit ⊢
        omega
    · exact contents.1
    · exact contents.2

theorem nameExtracted_started_iff {memory : Nat → UInt8} {urb : Urb} (before : Conversion)
    (word : urb.acctualLength < 2 ^ 32) :
    NameExtracted (startedUnits urb.acctualLength) memory urb before
        (nameDone memory urb before) ↔
      urb.setupBuffer[2]! = 0 ∨ usbStringOffset ≤ urb.acctualLength := by
  by_cases named : urb.setupBuffer[2]! = 0
  · refine ⟨fun _ => .inl named, fun _ => ⟨fun _ => ?_, fun other => absurd named other⟩⟩
    rw [nameDone, if_pos named]
  · by_cases header : usbStringOffset ≤ urb.acctualLength
    · refine ⟨fun _ => .inr header, fun _ => ⟨fun none_ => absurd none_ named, fun _ => ?_⟩⟩
      rcases nameDone_spec memory before named with ⟨_, _, chars, terminated⟩
      rw [extracted_iff named word header, ← copiedOf_received word header]
      exact ⟨chars, terminated⟩
    · refine ⟨fun extracted => ?_, fun either => ?_⟩
      · exact absurd (extracted.2 named) (short_reads_outside named (Nat.lt_of_not_le header))
      · exact absurd either (not_or.mpr ⟨named, header⟩)

/-- The last received byte is not the low byte of a code unit whose high byte
is missing, or it leaves no trace. -/
def TailUnseen (memory : Nat → UInt8) (urb : Urb) : Prop :=
  urb.acctualLength % 2 = 0 ∨ 2 * usbDevNameMaxSize ≤ urb.acctualLength ∨
    memory (u32 (urb.transferBuffer + (urb.acctualLength - 1))) = 0

/-- No half of a code unit is copied when there is none, or no space for it. -/
theorem copiedOf_whole {received : Nat} (word : received < 2 ^ 32)
    (header : usbStringOffset ≤ received)
    (whole : received % 2 = 0 ∨ 2 * usbDevNameMaxSize ≤ received) :
    copiedOf received = min (wholeUnits received) (usbDevNameMaxSize - 1) := by
  rw [copiedOf_received word header, wholeUnits, startedUnits, usbStringOffset]
  rw [usbStringOffset] at header
  simp only [usbDevNameMaxSize] at whole ⊢
  omega

/-- Otherwise it is the last that is copied, from the last byte received. -/
theorem copiedOf_half {received : Nat} (word : received < 2 ^ 32)
    (header : usbStringOffset ≤ received) (odd : ¬ received % 2 = 0)
    (space : ¬ 2 * usbDevNameMaxSize ≤ received) :
    copiedOf received = min (wholeUnits received) (usbDevNameMaxSize - 1) + 1 ∧
      usbStringOffset + 2 * min (wholeUnits received) (usbDevNameMaxSize - 1) =
        received - 1 := by
  rw [copiedOf_received word header, wholeUnits, startedUnits, usbStringOffset]
  rw [usbStringOffset] at header
  simp only [usbDevNameMaxSize] at space ⊢
  omega

theorem extracted_whole_iff {memory : Nat → UInt8} {urb : Urb} {before : Conversion}
    (named : urb.setupBuffer[2]! ≠ 0) (word : urb.acctualLength < 2 ^ 32)
    (header : usbStringOffset ≤ urb.acctualLength) :
    Extracted (wholeUnits urb.acctualLength) memory urb before (nameDone memory urb before) ↔
      TailUnseen memory urb := by
  rcases nameDone_spec memory before named with ⟨_, _, chars, terminated⟩
  rw [extracted_iff named word header]
  by_cases whole : urb.acctualLength % 2 = 0 ∨ 2 * usbDevNameMaxSize ≤ urb.acctualLength
  · have unseen : TailUnseen memory urb := whole.imp_right .inl
    rw [← copiedOf_whole word header whole]
    exact ⟨fun _ => unseen, fun _ => ⟨chars, terminated⟩⟩
  · rcases not_or.mp whole with ⟨odd, space⟩
    rcases copiedOf_half word header odd space with ⟨next, offset⟩
    -- the place behind the whole units holds the byte of the half
    have last := chars _ (Nat.lt_of_succ_le (Nat.le_of_eq next.symm))
    rw [Nat.add_assoc, offset] at last
    rw [last]
    constructor
    · exact fun contents => .inr (.inr contents.2)
    · intro unseen
      refine ⟨fun index bound => chars index ?_, (unseen.resolve_left odd).resolve_left space⟩
      rw [next]
      exact Nat.lt_succ_of_lt bound

theorem nameExtracted_whole_iff {memory : Nat → UInt8} {urb : Urb} (before : Conversion)
    (word : urb.acctualLength < 2 ^ 32) :
    NameExtracted (wholeUnits urb.acctualLength) memory urb before
        (nameDone memory urb before) ↔
      urb.setupBuffer[2]! = 0 ∨
        usbStringOffset ≤ urb.acctualLength ∧ TailUnseen memory urb := by
  by_cases named : urb.setupBuffer[2]! = 0
  · refine ⟨fun _ => .inl named, fun _ => ⟨fun _ => ?_, fun other => absurd named other⟩⟩
    rw [nameDone, if_pos named]
  · by_cases header : usbStringOffset ≤ urb.acctualLength
    · have extracts := @extracted_whole_iff memory urb before named word header
      constructor
      · exact fun extracted => .inr ⟨header, extracts.mp (extracted.2 named)⟩
      · exact fun either => ⟨fun none_ => absurd none_ named,
          fun _ => extracts.mpr (either.resolve_left named).2⟩
    · refine ⟨fun extracted => ?_, fun either => ?_⟩
      · exact absurd (extracted.2 named) (short_reads_outside named (Nat.lt_of_not_le header))
      · exact absurd (either.resolve_left named).1 header

/-- The names are extracted when the header has been received and no half of a
code unit is taken for a character; with such a half counted, whenever the
header has been received. -/
theorem names_extracted_iff {memory : Nat → UInt8} {urb : Urb} (dev : DevNames)
    (word : urb.acctualLength < 2 ^ 32) :
    (NamesExtracted (wholeUnits urb.acctualLength) memory urb dev ↔
      urb.setupBuffer[2]! = 0 ∨
        usbStringOffset ≤ urb.acctualLength ∧ TailUnseen memory urb) ∧
    (NamesExtracted (startedUnits urb.acctualLength) memory urb dev ↔
      urb.setupBuffer[2]! = 0 ∨ usbStringOffset ≤ urb.acctualLength) := by
  constructor
  · have product := @nameExtracted_whole_iff memory urb ⟨dev.product, dev.reads⟩ word
    have manufacturer := @nameExtracted_whole_iff memory urb ⟨dev.manufacturer, dev.reads⟩ word
    exact ⟨fun both => product.mp both.1, fun meets => ⟨product.mpr meets, manufacturer.mpr meets⟩⟩
  · have product := @nameExtracted_started_iff memory urb ⟨dev.product, dev.reads⟩ word
    have manufacturer := @nameExtracted_started_iff memory urb ⟨dev.manufacturer, dev.reads⟩ word
    exact ⟨fun both => product.mp both.1, fun meets => ⟨product.mpr meets, manufacturer.mpr meets⟩⟩

/-- The answer to a request for string 1, of which so many bytes came. -/
def stringAnswer (received : Nat) : Urb where
  flags := urbFlagsSetup
  setupBuffer := #v[0x80, 0x06, 0x01, 0x03, 0x00, 0x00, 0x00, 0x04]
  transferBuffer := 0x20400000
  transferLength := 1024
  acctualLength := received
  status := .ok

def unnamed : DevNames := ⟨⟨fun _ => 0, []⟩, ⟨fun _ => 0, []⟩, []⟩

theorem names_extracted_iff_four :
    (NamesExtracted (wholeUnits 4) (fun _ => 65) (stringAnswer 4) unnamed ↔
      (stringAnswer 4).setupBuffer[2]! = 0 ∨
        usbStringOffset ≤ 4 ∧ TailUnseen (fun _ => 65) (stringAnswer 4)) ∧
    (NamesExtracted (startedUnits 4) (fun _ => 65) (stringAnswer 4) unnamed ↔
      (stringAnswer 4).setupBuffer[2]! = 0 ∨ usbStringOffset ≤ 4) :=
  @names_extracted_iff (fun _ => 65) (stringAnswer 4) unnamed (by decide)

/-- One byte makes the size of the string wrap. -/
theorem one_byte_reads_outside :
    ¬ NamesExtracted (wholeUnits 1) (fun _ => 65) (stringAnswer 1) unnamed ∧
      ¬ NamesExtracted (startedUnits 1) (fun _ => 65) (stringAnswer 1) unnamed := by
  constructor <;> intro extracted <;>
    exact short_reads_outside (by decide) (by decide) (extracted.1.2 (by decide))

end Vanilla.Usb
