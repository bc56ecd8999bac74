import Vanilla.Disk.NameLookup

namespace Vanilla.Disk

/-! What `fat_dir_search` returns `1` for, compared with the names of the entries,
and how far it reads the name it is given. -/

/-! ## The names of an entry -/

/-- The entries in front of a short entry end with the parts of this long name, bound
to it by their sequence and its checksum. -/
def HasLongName (before : List Slot) (short : Slot) (chars : List UInt8) : Prop :=
  ∃ (name : LongName) (front longs : List Slot), before = front ++ longs ∧
    name.Encoded (fatGetSfnCrc short) name.parts longs ∧ name.chars = chars

/-- An entry in use whose long name or 8.3 name this is. -/
structure Named (before : List Slot) (slot : Slot) (chars : List UInt8) : Prop where
  entry : slot.isEntry = true
  named : HasLongName before slot chars ∨ sameName slot.shortChars chars

/-- A search passes these entries, and they set its two flags. -/
inductive Carries (name : List UInt8) (size : Nat) :
    UInt8 → Bool → List Slot → UInt8 → Bool → Prop where
  | nil (lfnCrc : UInt8) (lfnMatch : Bool) : Carries name size lfnCrc lfnMatch [] lfnCrc lfnMatch
  | cons {lfnCrc nextCrc lastCrc : UInt8} {lfnMatch nextMatch lastMatch : Bool} {slot : Slot}
      {slots : List Slot} :
      searchStep slot name size lfnCrc lfnMatch = .next nextCrc nextMatch →
      Carries name size nextCrc nextMatch slots lastCrc lastMatch →
      Carries name size lfnCrc lfnMatch (slot :: slots) lastCrc lastMatch

/-! ## The characters of the name that are read -/

/-- How many characters of the name the loop of `fat_dir_sfn_cmp` reads. -/
def sfnReadsLoop (buffer : Sector) : Nat → List UInt8 → Nat → Nat
  | _, _, 0 => 0
  | offset, name, size + 1 =>
      if offset < 512 ∧ toUpper (name.headD 0) = buffer.load8 offset then
        sfnReadsLoop buffer (offset + 1) name.tail size + 1
      else 1

def sfnReads (slot : Slot) (name : List UInt8) (size : Nat) : Nat :=
  let size := size % 2 ^ 8
  let size := if 8 < size then 8 else size
  sfnReadsLoop slot.buffer slot.offset name (if size = 0 then 256 else size)

/-- Which characters of the name the loop of `fat_dir_lfn_cmp` reads. -/
def lfnReadsLoop (slot : Slot) (name : List UInt8) (size : Nat) : Nat → List Nat → List Nat
  | _, [] => []
  | nameOff, column :: columns =>
      let char := slot.byte column
      if char = 0x00 ∨ char = 0xFF then []
      else if size ≤ nameOff then []
      else if char ≠ name.getD nameOff 0 then [nameOff]
      else nameOff :: lfnReadsLoop slot name size (nameOff + 1) columns

/-- Which characters of the name the search reads at an entry. -/
def readsAt (slot : Slot) (name : List UInt8) (size : Nat) (lfnCrc : UInt8)
    (lfnMatch : Bool) : List Nat :=
  if slot.byte 0 = 0x05 ∨ slot.byte 0 = 0xE5 then []
  else if slot.isLong then
    lfnReadsLoop slot name size (13 * ((slot.byte 0 &&& 0x1F) - 1)).toNat lfnLut
  else if lfnCrc ≠ 0 ∧ lfnMatch = true then []
  else List.range (sfnReads slot name size)

/-- The search for the first characters of a string returns `1` only for an entry with
that name, and reads no other characters of the string. -/
structure SearchSound (geometry : Geometry) (sectors : Nat → Sector) (state : FatState)
    (dir : Dir) (chars rest : List UInt8) : Prop where
  named : ∀ rounds opened after,
    (fatDirSearch rounds dir (chars ++ rest) chars.length).run state = .ok (true, opened) after →
    ∃ before slot lfnCrc lfnMatch,
      Entries geometry sectors (dir.rewound geometry) (before ++ [slot]) ∧
      Carries (chars ++ rest) chars.length 0 true before lfnCrc lfnMatch ∧
      searchStep slot (chars ++ rest) chars.length lfnCrc lfnMatch = .found ∧
      opened = slot.opened geometry ∧ Named before slot chars
  within : ∀ before slot lfnCrc lfnMatch,
    Entries geometry sectors (dir.rewound geometry) (before ++ [slot]) →
    Carries (chars ++ rest) chars.length 0 true before lfnCrc lfnMatch →
    ∀ place ∈ readsAt slot (chars ++ rest) chars.length lfnCrc lfnMatch, place < chars.length

/-! ## What the comparisons leave open -/

/-- The part of the 8.3 name in front of the dot. -/
def Slot.base (slot : Slot) : List UInt8 :=
  ((List.range 8).map slot.byte).rdropWhile (· = 0x20)

/-- The entries in front of a short entry end with the parts of a long name that is as
long as this one, and has the same characters in part 5 where that is not the last:
they are not compared. -/
def LongAlike (before : List Slot) (short : Slot) (chars : List UInt8) : Prop :=
  ∃ (name : LongName) (front longs : List Slot), before = front ++ longs ∧
    name.Encoded (fatGetSfnCrc short) name.parts longs ∧
    name.chars.length = chars.length ∧ (5 < name.parts → ∀ place, 52 ≤ place → place < 65 →
      name.chars.getD place 0 = chars.getD place 0)

/-- The 8.3 name is as long as this one, and has the same characters behind the eighth
and from the dot on: they are not compared. -/
def ShortAlike (slot : Slot) (chars : List UInt8) : Prop :=
  slot.shortChars.length = chars.length ∧ ∀ place, place < chars.length →
    8 ≤ place ∨ slot.base.length ≤ place →
    toUpper (slot.shortChars.getD place 0) = toUpper (chars.getD place 0)

/-- An entry that is accepted by its long name, or by its 8.3 name, has the name that is
looked for in what the comparison leaves open. -/
def Whole (before : List Slot) (slot : Slot) (chars : List UInt8) (lfnCrc : UInt8)
    (lfnMatch : Bool) : Prop :=
  if lfnCrc ≠ 0 ∧ lfnMatch = true then
    LongAlike before slot chars ∨ sameName slot.shortChars chars
  else ShortAlike slot chars ∨ HasLongName before slot chars

/-! ## What a comparison has compared -/

section Compare

variable {name : List UInt8} {size : Nat} {slot : Slot}

/-- The stored characters up to the first blank one are those of the name. -/
theorem lfnCmpLoop_inv {nameOff : Nat} {columns : List Nat}
    (compares : lfnCmpLoop slot name size nameOff columns = true) {later column : Nat}
    (at_ : columns[later]? = some column)
    (isStored : ∀ earlier other, earlier ≤ later → columns[earlier]? = some other →
      slot.stored other = true) :
    nameOff + later < size ∧ slot.byte column = name.getD (nameOff + later) 0 := by
  induction columns generalizing nameOff later with
  | nil => cases at_
  | cons first columns induction =>
      have here := isStored 0 first (Nat.zero_le _) rfl
      have unblank : ¬ (slot.byte first = 0x00 ∨ slot.byte first = 0xFF) := by
        simpa [Slot.stored, not_or] using here
      rw [lfnCmpLoop, if_neg unblank] at compares
      by_cases ends : size ≤ nameOff
      · rw [if_pos ends] at compares
        cases compares
      · rw [if_neg ends] at compares
        by_cases same : slot.byte first = name.getD nameOff 0
        · rw [if_neg (not_not.mpr same)] at compares
          cases later with
          | zero =>
              cases at_
              exact ⟨Nat.lt_of_not_le ends, same⟩
          | succ later =>
              have rest := induction compares at_ fun earlier other below found =>
                isStored (earlier + 1) other (Nat.succ_le_succ below) found
              rw [Nat.add_assoc, Nat.add_comm 1] at rest
              exact rest
        · rw [if_pos same] at compares
          cases compares

theorem sfnCmpLoop_inv {buffer : Sector} {offset count : Nat}
    (compares : sfnCmpLoop buffer offset name count = some true) {place : Nat}
    (below : place < count) : toUpper (name.getD place 0) = buffer.load8 (offset + place) := by
  induction count generalizing offset name place with
  | zero => cases below
  | succ count induction =>
      rw [sfnCmpLoop] at compares
      by_cases inside : offset < 512
      · rw [if_pos inside] at compares
        by_cases same : toUpper (name.headD 0) = buffer.load8 offset
        · rw [if_pos same] at compares
          cases place with
          | zero =>
              rw [Nat.add_zero, ← same]
              cases name <;> rfl
          | succ place =>
              have rest := induction compares (Nat.lt_of_succ_lt_succ below)
              rw [Nat.add_assoc, Nat.add_comm 1] at rest
              rw [← rest]
              cases name with
              | nil => simp
              | cons => rfl
        · rw [if_neg same] at compares
          cases compares
      · rw [if_neg inside] at compares
        cases compares

theorem toUpper_toUpper (char : UInt8) : toUpper (toUpper char) = toUpper char := by
  by_cases lower : 97 ≤ char ∧ char ≤ 122
  · have upper : toUpper char = char - 32 := if_pos lower
    rw [upper, toUpper, if_neg]
    rintro ⟨still, _⟩
    rw [UInt8.le_iff_toNat_le] at lower still
    rw [UInt8.le_iff_toNat_le] at lower
    have moved : (char - 32).toNat = char.toNat - 32 :=
      UInt8.toNat_sub_of_le _ _ (UInt8.le_iff_toNat_le.mpr (le_trans (by decide) lower.1))
    have bound : char.toNat ≤ 122 := lower.2
    rw [moved] at still
    have reached : 97 ≤ char.toNat - 32 := still
    omega
  · have same : toUpper char = char := if_neg lower
    rw [same, same]

/-- In front of the dot, the 8.3 name holds the bytes of the entry. -/
theorem shortChars_getD {place : Nat} (inside : place < slot.base.length) :
    slot.shortChars.getD place 0 = slot.byte place ∧ place < 8 := by
  have before : slot.base <+: (List.range 8).map slot.byte := List.rdropWhile_prefix _ _
  rcases before with ⟨blanks, split⟩
  have bound : place < 8 := by
    have total := congrArg List.length split
    rw [List.length_append, List.length_map, List.length_range] at total
    omega
  have base : slot.base.getD place 0 = slot.byte place := by
    have whole : ((List.range 8).map slot.byte).getD place 0 = slot.byte place := by
      rw [List.getD_eq_getElem _ _ (by simpa using bound)]
      simp
    rw [← whole, ← split, List.getD_append _ _ _ _ inside]
  refine ⟨?_, bound⟩
  rw [← base]
  have shape : slot.shortChars = slot.base ∨ ∃ extension,
      slot.shortChars = slot.base ++ extension := by
    rw [Slot.shortChars]
    split
    · exact .inl rfl
    · exact .inr ⟨_, rfl⟩
  rcases shape with same | ⟨extension, same⟩
  · rw [same]
  · rw [same, List.getD_append _ _ _ _ inside]

theorem fatDirSfnCmp_inv (compares : fatDirSfnCmp slot name size = some true) {place : Nat}
    (first : place < 8) (below : place < size) (small : size < 256) :
    toUpper (name.getD place 0) = slot.byte place := by
  have whole : size % 2 ^ 8 = size := Nat.mod_eq_of_lt small
  rw [fatDirSfnCmp, whole] at compares
  apply sfnCmpLoop_inv compares
  by_cases large : 8 < size
  · rw [if_pos large, if_neg (by decide)]
    exact first
  · rw [if_neg large, if_neg (by omega)]
    exact below

theorem rdropWhile_length_le (slot : Slot) (columns : List Nat) :
    ((columns.map slot.byte).rdropWhile (· = 0x20)).length ≤ columns.length := by
  have shorter := (List.rdropWhile_prefix (· = 0x20) (columns.map slot.byte)).length_le
  rwa [List.length_map] at shorter

theorem Slot.shortChars_length (slot : Slot) : slot.shortChars.length ≤ 12 := by
  have base := rdropWhile_length_le slot (List.range 8)
  have extension := rdropWhile_length_le slot (List.range' 8 3)
  rw [List.length_range] at base
  rw [List.length_range'] at extension
  rw [Slot.shortChars]
  split
  · omega
  · rw [List.length_append, List.length_cons]
    omega

end Compare

/-! ## Accepted entries -/

section Accepted

variable {name : List UInt8} {size : Nat} {lfnCrc nextCrc lastCrc : UInt8}
  {lfnMatch nextMatch lastMatch : Bool} {slot other : Slot} {slots before behind : List Slot}

theorem Carries.append_inv {first second : List Slot}
    (carries : Carries name size lfnCrc lfnMatch (first ++ second) lastCrc lastMatch) :
    ∃ nextCrc nextMatch, Carries name size lfnCrc lfnMatch first nextCrc nextMatch ∧
      Carries name size nextCrc nextMatch second lastCrc lastMatch := by
  induction first generalizing lfnCrc lfnMatch with
  | nil => exact ⟨lfnCrc, lfnMatch, .nil _ _, carries⟩
  | cons slot first induction =>
      cases carries with
      | cons passed rest =>
          rcases induction rest with ⟨nextCrc, nextMatch, carried, later⟩
          exact ⟨nextCrc, nextMatch, .cons passed carried, later⟩

/-- Once a part has been refused, the search takes the long name for another one. -/
theorem Carries.keeps (carries : Carries name size lfnCrc lfnMatch slots lastCrc lastMatch)
    (passed : ∀ slot ∈ slots, slot.Passed) (matches_ : lastMatch = true) :
    lfnMatch = true ∧ ∀ slot ∈ slots, slot.keeps name size = true := by
  induction carries with
  | nil => exact ⟨matches_, by simp⟩
  | cons step _ induction =>
      rcases List.forall_mem_cons.mp passed with ⟨here, others⟩
      rcases induction others matches_ with ⟨later, kept⟩
      rw [searchStep_passed here] at step
      cases step
      rw [Bool.and_eq_true] at later
      exact ⟨later.1, List.forall_mem_cons.mpr ⟨later.2, kept⟩⟩

theorem stopsAt_iff_carries : StopsAt name size lfnCrc lfnMatch slots slot ↔
    ∃ before behind nextCrc nextMatch, slots = before ++ slot :: behind ∧
      Carries name size lfnCrc lfnMatch before nextCrc nextMatch ∧
      searchStep slot name size nextCrc nextMatch = .found := by
  constructor
  · intro stops
    induction stops with
    | @found lfnCrc lfnMatch slot slots accepted =>
        exact ⟨[], slots, lfnCrc, lfnMatch, rfl, .nil _ _, accepted⟩
    | @next _ _ _ _ first _ _ passed _ induction =>
        rcases induction with ⟨before, behind, nextCrc, nextMatch, split, carries, accepted⟩
        exact ⟨first :: before, behind, nextCrc, nextMatch, congrArg _ split,
          .cons passed carries, accepted⟩
  · rintro ⟨before, behind, nextCrc, nextMatch, rfl, carries, accepted⟩
    induction carries with
    | nil => exact .found accepted
    | cons passed _ induction => exact .next passed (induction accepted)

/-- The search stops at one entry. -/
theorem carries_found_unique {before' behind' : List Slot} {otherCrc : UInt8}
    {otherMatch : Bool} (same : before ++ slot :: behind = before' ++ other :: behind')
    (carries : Carries name size lfnCrc lfnMatch before nextCrc nextMatch)
    (accepted : searchStep slot name size nextCrc nextMatch = .found)
    (carries' : Carries name size lfnCrc lfnMatch before' otherCrc otherMatch)
    (accepted' : searchStep other name size otherCrc otherMatch = .found) :
    before = before' ∧ slot = other := by
  induction carries generalizing before' with
  | nil =>
      cases carries' with
      | nil =>
          cases same
          exact ⟨rfl, rfl⟩
      | cons passed _ =>
          cases same
          cases accepted.symm.trans passed
  | cons passed _ induction =>
      cases carries' with
      | nil =>
          cases same
          cases accepted'.symm.trans passed
      | cons passed' rest =>
          rcases List.cons.inj same with ⟨rfl, later⟩
          cases passed.symm.trans passed'
          rcases induction later accepted rest with ⟨rfl, rfl⟩
          exact ⟨rfl, rfl⟩

theorem Entries.inside {geometry : Geometry} {sectors : Nat → Sector} {dir : Dir}
    (entries : Entries geometry sectors dir slots) : ∀ slot ∈ slots, slot.byte 0 ≠ 0 := by
  induction entries with
  | one used => exact List.forall_mem_singleton.mpr used.unmarked
  | cons used _ _ induction => exact List.forall_mem_cons.mpr ⟨used.unmarked, induction⟩

/-- Of the first entries of one directory, the longer ones begin with the others. -/
theorem Entries.comparable {geometry : Geometry} {sectors : Nat → Sector} {dir : Dir}
    (entries : Entries geometry sectors dir before) (others : Entries geometry sectors dir behind) :
    before <+: behind ∨ behind <+: before := by
  induction entries generalizing behind with
  | one _ =>
      cases others with
      | one _ => exact .inl (List.prefix_refl _)
      | cons _ _ _ => exact .inl ⟨_, rfl⟩
  | cons _ _ _ induction =>
      cases others with
      | one _ => exact .inr ⟨_, rfl⟩
      | cons _ _ later =>
          exact (induction later).imp (List.prefix_cons_inj _).mpr (List.prefix_cons_inj _).mpr

theorem Entries.found_unique {geometry : Geometry} {sectors : Nat → Sector} {dir : Dir}
    {before' : List Slot} {otherCrc : UInt8} {otherMatch : Bool}
    (entries : Entries geometry sectors dir (before ++ [slot]))
    (carries : Carries name size lfnCrc lfnMatch before nextCrc nextMatch)
    (accepted : searchStep slot name size nextCrc nextMatch = .found)
    (entries' : Entries geometry sectors dir (before' ++ [other]))
    (carries' : Carries name size lfnCrc lfnMatch before' otherCrc otherMatch)
    (accepted' : searchStep other name size otherCrc otherMatch = .found) :
    before = before' ∧ slot = other := by
  rcases entries.comparable entries' with ⟨rest, split⟩ | ⟨rest, split⟩
  · rw [List.append_assoc] at split
    exact carries_found_unique split carries accepted carries' accepted'
  · rw [List.append_assoc] at split
    exact carries_found_unique split.symm carries accepted carries' accepted'

theorem Entries.take {geometry : Geometry} {sectors : Nat → Sector} {dir : Dir}
    (entries : Entries geometry sectors dir (before ++ slot :: behind)) :
    Entries geometry sectors dir (before ++ [slot]) := by
  induction before generalizing dir with
  | nil =>
      cases entries with
      | one used => exact .one used
      | cons used _ _ => exact .one used
  | cons first before induction =>
      generalize split : first :: before ++ slot :: behind = slots at entries
      cases entries with
      | one _ => simp at split
      | cons used moves later =>
          rw [List.cons_append] at split
          rcases List.cons.inj split with ⟨rfl, rfl⟩
          exact .cons used moves (induction later)

theorem isEntry_of_found (unmarked : slot.byte 0 ≠ 0)
    (accepted : searchStep slot name size lfnCrc lfnMatch = .found) : slot.isEntry = true := by
  by_contra passed
  have step := @searchStep_passed name size lfnCrc lfnMatch slot
    ⟨unmarked, by simpa using passed⟩
  cases step.symm.trans accepted

theorem LongName.Encoded.part_mem {name : LongName} {part : Nat}
    (encoded : name.Encoded lfnCrc part slots) {sequence : Nat} (some_ : 0 < sequence)
    (bound : sequence ≤ part) : ∃ slot ∈ slots, HoldsPart name lfnCrc sequence slot := by
  induction encoded with
  | nil => omega
  | @cons part slot slots holds _ induction =>
      rcases Nat.lt_or_ge part sequence with last | earlier
      · have same : sequence = part + 1 := by omega
        exact ⟨slot, List.mem_cons_self, same ▸ holds⟩
      · rcases induction earlier with ⟨found, member, holds⟩
        exact ⟨found, List.mem_cons_of_mem _ member, holds⟩

/-- A long name of the right length whose parts are all taken for the name is the name,
up to part 5. -/
theorem chars_eq_of_keeps {chars rest : List UInt8} {name : LongName} {longs : List Slot}
    (encoded : name.Encoded lfnCrc name.parts longs)
    (keeps : ∀ long ∈ longs, long.keeps (chars ++ rest) chars.length = true)
    (length : name.chars.length = chars.length)
    (open_ : 5 < name.parts → ∀ place, 52 ≤ place → place < 65 →
      name.chars.getD place 0 = chars.getD place 0) : name.chars = chars := by
  apply List.ext_getElem length
  intro place inside inside'
  have covers := name.parts_covers
  have bound : place / 13 + 1 ≤ name.parts := by omega
  rcases encoded.part_mem (Nat.succ_pos _) bound with ⟨long, member, holds⟩
  have same : name.chars.getD place 0 = chars.getD place 0 := by
    by_cases part : long.namePart = true
    · have compares : fatDirLfnCmp long (chars ++ rest) chars.length = true := by
        simpa [Slot.keeps, part] using keeps long member
      have below : place % 13 < lfnLut.length := Nat.mod_lt _ (by decide)
      have at_ := List.getElem?_eq_getElem below
      have whole : 13 * (place / 13 + 1 - 1) + place % 13 = place := by omega
      rw [fatDirLfnCmp, holds.compared_from (Nat.succ_pos _) bound] at compares
      have found := lfnCmpLoop_inv compares at_ (by
        intro earlier other before other_
        rw [holds.stored_iff other_]
        omega)
      rw [whole] at found
      have byte := holds.chars _ _ at_
      rw [whole, LongName.unit, if_pos inside] at byte
      rw [← byte, found.2, List.getD_append _ _ _ _ inside']
    · rw [holds.namePart_iff name.parts_le (Nat.succ_pos _) bound, not_not] at part
      exact open_ (by omega) place (by omega) (by omega)
  rwa [List.getD_eq_getElem _ _ inside, List.getD_eq_getElem _ _ inside'] at same

/-- An 8.3 name that is taken for a name of its length is that name, up to what is not
compared. -/
theorem sameName_iff_shortAlike {chars rest : List UInt8}
    (compares : fatDirSfnCmp slot (chars ++ rest) chars.length = some true) :
    sameName slot.shortChars chars ↔ ShortAlike slot chars := by
  constructor
  · intro same
    have length : slot.shortChars.length = chars.length := by
      simpa using congrArg List.length same
    refine ⟨length, ?_⟩
    intro place inside _
    have inside' : place < slot.shortChars.length := length ▸ inside
    rw [List.getD_eq_getElem _ _ inside, List.getD_eq_getElem _ _ inside']
    have upper := List.getElem_of_eq same (by simpa using inside')
    rwa [List.getElem_map, List.getElem_map] at upper
  · rintro ⟨length, open_⟩
    apply List.ext_getElem (by simpa using length)
    intro place inside' inside
    rw [List.length_map] at inside inside'
    rw [List.getElem_map, List.getElem_map, ← List.getD_eq_getElem _ 0 inside,
      ← List.getD_eq_getElem _ 0 inside']
    by_cases away : 8 ≤ place ∨ slot.base.length ≤ place
    · exact open_ place inside away
    · rw [not_or, Nat.not_le, Nat.not_le] at away
      have short := slot.shortChars_length
      have found := fatDirSfnCmp_inv compares away.1 inside (by omega)
      rw [(shortChars_getD away.2).1, ← found, toUpper_toUpper,
        List.getD_append _ _ _ _ inside]

/-- An entry that is accepted has the name that is looked for exactly if it has it in
what its comparison leaves open. -/
theorem named_iff_whole {chars rest : List UInt8} (unmarked : slot.byte 0 ≠ 0)
    (carries : Carries (chars ++ rest) chars.length 0 true before lfnCrc lfnMatch)
    (accepted : searchStep slot (chars ++ rest) chars.length lfnCrc lfnMatch = .found) :
    Named before slot chars ↔ Whole before slot chars lfnCrc lfnMatch := by
  have entry := isEntry_of_found unmarked accepted
  have named : Named before slot chars ↔
      HasLongName before slot chars ∨ sameName slot.shortChars chars :=
    ⟨Named.named, Named.mk entry⟩
  rw [named, Whole]
  rw [searchStep_entry entry] at accepted
  by_cases long : lfnCrc ≠ 0 ∧ lfnMatch = true
  · rw [if_pos long]
    apply or_congr_left
    constructor
    · rintro ⟨name, front, longs, split, encoded, same⟩
      exact ⟨name, front, longs, split, encoded, by rw [same], fun _ _ _ _ => by rw [same]⟩
    · rintro ⟨name, front, longs, rfl, encoded, length, open_⟩
      rcases carries.append_inv with ⟨_, _, _, carried⟩
      have kept := (carried.keeps (encoded.passed (Nat.le_refl _)) long.2).2
      exact ⟨name, front, longs, rfl, encoded, chars_eq_of_keeps encoded kept length open_⟩
  · rw [if_neg long] at accepted ⊢
    have compares : fatDirSfnCmp slot (chars ++ rest) chars.length = some true := by
      cases compared : fatDirSfnCmp slot (chars ++ rest) chars.length with
      | none => simp [compared] at accepted
      | some same =>
          cases same with
          | true => rfl
          | false => simp [compared] at accepted
    rw [sameName_iff_shortAlike compares, or_comm]

end Accepted

/-! ## Reading past the end -/

section Reads

variable {name : List UInt8} {size : Nat} {slot : Slot} {lfnCrc : UInt8} {lfnMatch : Bool}

theorem lfnReadsLoop_within (nameOff : Nat) (columns : List Nat) :
    ∀ place ∈ lfnReadsLoop slot name size nameOff columns, place < size := by
  induction columns generalizing nameOff with
  | nil => simp [lfnReadsLoop]
  | cons column columns induction =>
      rw [lfnReadsLoop]
      by_cases blank : slot.byte column = 0x00 ∨ slot.byte column = 0xFF
      · rw [if_pos blank]
        simp
      · rw [if_neg blank]
        by_cases ends : size ≤ nameOff
        · rw [if_pos ends]
          simp
        · rw [if_neg ends]
          have here := Nat.lt_of_not_le ends
          by_cases differs : slot.byte column ≠ name.getD nameOff 0
          · rw [if_pos differs]
            exact List.forall_mem_singleton.mpr here
          · rw [if_neg differs]
            exact List.forall_mem_cons.mpr ⟨here, induction _⟩

theorem sfnReadsLoop_le (buffer : Sector) (offset count : Nat) :
    sfnReadsLoop buffer offset name count ≤ count := by
  induction count generalizing offset name with
  | zero => exact Nat.le_refl 0
  | succ count induction =>
      rw [sfnReadsLoop]
      split
      · exact Nat.succ_le_succ (induction _)
      · exact Nat.succ_le_succ (Nat.zero_le _)

theorem sfnReads_pos : 0 < sfnReads slot name size := by
  have some_ : ∀ count, 0 < count → 0 < sfnReadsLoop slot.buffer slot.offset name count := by
    intro count positive
    cases count with
    | zero => exact positive
    | succ count =>
        rw [sfnReadsLoop]
        split <;> exact Nat.succ_pos _
  rw [sfnReads]
  apply some_
  generalize (if 8 < size % 2 ^ 8 then 8 else size % 2 ^ 8) = count
  by_cases none_ : count = 0
  · rw [if_pos none_]
    decide
  · rw [if_neg none_]
    exact Nat.pos_of_ne_zero none_

/-- Only a size of zero makes the short comparison read further than the size. -/
theorem sfnReads_le (some_ : 0 < size) : sfnReads slot name size ≤ size := by
  apply (sfnReadsLoop_le _ _ _).trans
  have bound := Nat.mod_le size (2 ^ 8)
  by_cases large : 8 < size % 2 ^ 8
  · rw [if_pos large, if_neg (by decide)]
    omega
  · rw [if_neg large]
    by_cases none_ : size % 2 ^ 8 = 0
    · rw [if_pos none_]
      omega
    · rw [if_neg none_]
      exact bound

/-- The short comparison is made at this entry. -/
def ComparesShort (slot : Slot) (lfnCrc : UInt8) (lfnMatch : Bool) : Prop :=
  slot.isEntry = true ∧ ¬ (lfnCrc ≠ 0 ∧ lfnMatch = true)

theorem reads_within_iff (unmarked : slot.byte 0 ≠ 0) :
    (∀ place ∈ readsAt slot name size lfnCrc lfnMatch, place < size) ↔
      0 < size ∨ ¬ ComparesShort slot lfnCrc lfnMatch := by
  rw [readsAt, ComparesShort]
  by_cases unused : slot.byte 0 = 0x05 ∨ slot.byte 0 = 0xE5
  · rw [if_pos unused]
    have quiet : slot.isEntry = false := by
      rcases unused with unused | unused <;> simp [Slot.isEntry, unused]
    simp [quiet]
  · rw [if_neg unused]
    cases long : slot.isLong with
    | true =>
        have quiet : slot.isEntry = false := by simp [Slot.isEntry, long]
        rw [if_pos rfl]
        exact iff_of_true (lfnReadsLoop_within _ _) (.inr (by simp [quiet]))
    | false =>
        rw [not_or] at unused
        have entry : slot.isEntry = true := by
          simp [Slot.isEntry, unmarked, unused.1, unused.2, long]
        rw [if_neg (by decide)]
        by_cases checked : lfnCrc ≠ 0 ∧ lfnMatch = true
        · rw [if_pos checked]
          exact iff_of_true (by simp) (.inr fun compares => compares.2 checked)
        · rw [if_neg checked]
          have compares : slot.isEntry = true ∧ ¬ (lfnCrc ≠ 0 ∧ lfnMatch = true) :=
            ⟨entry, checked⟩
          rw [or_iff_left (not_not.mpr compares)]
          constructor
          · intro within
            exact Nat.zero_lt_of_lt (within 0 (List.mem_range.mpr sfnReads_pos))
          · intro some_ place member
            exact (List.mem_range.mp member).trans_le (sfnReads_le some_)

end Reads

/-! ## The search -/

section Search

variable {geometry : Geometry} {sectors : Nat → Sector} {state : FatState} {dir : Dir}

/-- A search returns `1` at the first entry that is accepted, in every directory. -/
theorem fatDirSearch_accepts_iff {name : List UInt8} {size : Nat}
    (working : Working geometry sectors state)
    (real : state.volume.buffer = sectors state.volume.bufferLba ∨ dir.startSect ≠ 0)
    (opened : Dir) :
    (∃ rounds after, (fatDirSearch rounds dir name size).run state = .ok (true, opened) after) ↔
      ∃ before slot lfnCrc lfnMatch,
        Entries geometry sectors (dir.rewound geometry) (before ++ [slot]) ∧
        Carries name size 0 true before lfnCrc lfnMatch ∧
        searchStep slot name size lfnCrc lfnMatch = .found ∧ opened = slot.opened geometry := by
  rw [fatDirSearch_stops_iff working real]
  constructor
  · rintro ⟨slots, slot, entries, stops, same⟩
    rcases stopsAt_iff_carries.mp stops with
      ⟨before, behind, lfnCrc, lfnMatch, rfl, carries, accepted⟩
    exact ⟨before, slot, lfnCrc, lfnMatch, entries.take, carries, accepted, same⟩
  · rintro ⟨before, slot, lfnCrc, lfnMatch, entries, carries, accepted, same⟩
    have stops := stopsAt_iff_carries.mpr
      ⟨before, [], lfnCrc, lfnMatch, rfl, carries, accepted⟩
    exact ⟨before ++ [slot], slot, entries, stops, same⟩

/-- The search for a name is sound in a directory exactly if the entry it accepts, where
there is one, has that name in what its comparison leaves open, and the name has a
character or is compared with no 8.3 name. -/
theorem search_sound_iff (working : Working geometry sectors state)
    (real : state.volume.buffer = sectors state.volume.bufferLba ∨ dir.startSect ≠ 0)
    (chars rest : List UInt8) :
    SearchSound geometry sectors state dir chars rest ↔
      (∀ before slot lfnCrc lfnMatch,
        Entries geometry sectors (dir.rewound geometry) (before ++ [slot]) →
        Carries (chars ++ rest) chars.length 0 true before lfnCrc lfnMatch →
        searchStep slot (chars ++ rest) chars.length lfnCrc lfnMatch = .found →
        Whole before slot chars lfnCrc lfnMatch) ∧
      (chars ≠ [] ∨ ∀ before slot lfnCrc lfnMatch,
        Entries geometry sectors (dir.rewound geometry) (before ++ [slot]) →
        Carries (chars ++ rest) chars.length 0 true before lfnCrc lfnMatch →
        ¬ ComparesShort slot lfnCrc lfnMatch) := by
  constructor
  · intro sound
    constructor
    · intro before slot lfnCrc lfnMatch entries carries accepted
      rcases (fatDirSearch_accepts_iff working real (slot.opened geometry)).mpr
        ⟨before, slot, lfnCrc, lfnMatch, entries, carries, accepted, rfl⟩ with
        ⟨rounds, after, returns⟩
      rcases sound.named rounds _ after returns with
        ⟨before', other, lfnCrc', lfnMatch', entries', carries', accepted', _, named⟩
      rcases entries.found_unique carries accepted entries' carries' accepted' with ⟨rfl, rfl⟩
      have unmarked := entries.inside slot (by simp)
      exact (named_iff_whole unmarked carries accepted).mp named
    · by_cases empty : chars = []
      · refine .inr ?_
        intro before slot lfnCrc lfnMatch entries carries
        have within := (reads_within_iff (entries.inside slot (by simp))).mp
          (sound.within before slot lfnCrc lfnMatch entries carries)
        exact within.resolve_left (by simp [empty])
      · exact .inl empty
  · rintro ⟨whole, reads⟩
    constructor
    · intro rounds opened after returns
      rcases (fatDirSearch_accepts_iff working real opened).mp ⟨rounds, after, returns⟩ with
        ⟨before, slot, lfnCrc, lfnMatch, entries, carries, accepted, same⟩
      have unmarked := entries.inside slot (by simp)
      have named := (named_iff_whole unmarked carries accepted).mpr
        (whole before slot lfnCrc lfnMatch entries carries accepted)
      exact ⟨before, slot, lfnCrc, lfnMatch, entries, carries, accepted, same, named⟩
    · intro before slot lfnCrc lfnMatch entries carries
      have unmarked := entries.inside slot (by simp)
      apply (reads_within_iff unmarked).mpr
      rcases reads with some_ | short
      · exact .inl (List.length_pos_iff.mpr some_)
      · exact .inr (short before slot lfnCrc lfnMatch entries carries)

end Search

theorem search_sound_iff_nameA :
    SearchSound (namedVolume aliasA 0x80).volume.toGeometry (namedVolume aliasA 0x80).logical
      (namedVolume aliasA 0x80) (rootDir (namedVolume aliasA 0x80).volume.toGeometry)
      [0x61] [] ↔
    (∀ before slot lfnCrc lfnMatch,
      Entries (namedVolume aliasA 0x80).volume.toGeometry (namedVolume aliasA 0x80).logical
        ((rootDir (namedVolume aliasA 0x80).volume.toGeometry).rewound
          (namedVolume aliasA 0x80).volume.toGeometry) (before ++ [slot]) →
      Carries [0x61] 1 0 true before lfnCrc lfnMatch →
      searchStep slot [0x61] 1 lfnCrc lfnMatch = .found →
      Whole before slot [0x61] lfnCrc lfnMatch) ∧
    (([0x61] : List UInt8) ≠ [] ∨ ∀ before slot lfnCrc lfnMatch,
      Entries (namedVolume aliasA 0x80).volume.toGeometry (namedVolume aliasA 0x80).logical
        ((rootDir (namedVolume aliasA 0x80).volume.toGeometry).rewound
          (namedVolume aliasA 0x80).volume.toGeometry) (before ++ [slot]) →
      Carries [0x61] 1 0 true before lfnCrc lfnMatch →
      ¬ ComparesShort slot lfnCrc lfnMatch) :=
  search_sound_iff named_working (.inr (by decide)) [0x61] []

theorem shortChars_aliasA : (shortSlot aliasA 0x80).shortChars = [0x41] := by
  have bytes : ∀ columns : List Nat, (∀ column ∈ columns, column < 32) →
      columns.map (shortSlot aliasA 0x80).byte =
        columns.map fun column => namedByte aliasA 0x80 (32 + column) := by
    intro columns inside
    exact List.map_congr_left fun column member => shortSlot_byte (inside column member)
  rw [Slot.shortChars, bytes _ (by decide), bytes _ (by decide)]
  rfl

/-- Looking "ab" up finds the entry whose long name is "a". -/
theorem prefix_is_found :
    ¬ SearchSound (namedVolume aliasA 0x80).volume.toGeometry (namedVolume aliasA 0x80).logical
      (namedVolume aliasA 0x80) (rootDir (namedVolume aliasA 0x80).volume.toGeometry)
      [0x61, 0x62] [] := by
  intro sound
  have checksum : fatGetSfnCrc (shortSlot aliasA 0x80) = 0x80 := shortSlot_crc.trans rfl
  have listing := @named_listing aliasA 0x80 (by decide) (by decide)
  have entries : Entries _ _ _ ([longSlot aliasA 0x80] ++ [shortSlot aliasA 0x80]) :=
    listing.entries (List.append_nil _).symm (List.cons_ne_nil _ _)
  have passed := (@nameA_encoded aliasA 0x80).passed (Nat.le_refl _)
  have holds := @nameA_holdsPart aliasA 0x80
  have kept : (longSlot aliasA 0x80).keeps [0x61, 0x62] 2 = true :=
    holds.keeps (Nat.succ_pos 0) (Nat.le_refl _) (⟨[0x62], rfl⟩ : nameA.chars <+: [0x61, 0x62])
  have part := (holds.namePart_iff nameA.parts_le (Nat.succ_pos 0) (Nat.le_refl _)).mpr
    fun five => absurd five.1 (by decide)
  have step : searchStep (longSlot aliasA 0x80) [0x61, 0x62] 2 0 true = .next 0x80 true := by
    rw [searchStep_passed (List.forall_mem_singleton.mp passed), Slot.checksum, if_pos part,
      holds.checksum, kept]
    rfl
  have carries : Carries [0x61, 0x62] 2 0 true [longSlot aliasA 0x80] 0x80 true :=
    .cons step (.nil _ _)
  have accepted : searchStep (shortSlot aliasA 0x80) [0x61, 0x62] 2 0x80 true = .found := by
    rw [searchStep_entry (shortSlot_isEntry (.inl rfl) rfl), checksum]
    rfl
  rcases (fatDirSearch_accepts_iff named_working (.inr (by decide)) _).mpr
    ⟨_, _, _, _, entries, carries, accepted, rfl⟩ with ⟨rounds, after, returns⟩
  rcases sound.named rounds _ after returns with
    ⟨before, slot, _, _, entries', carries', accepted', _, named⟩
  rcases entries.found_unique carries accepted entries' carries' accepted' with ⟨rfl, rfl⟩
  rcases named.named with ⟨name, front, longs, split, encoded, chars⟩ | same
  · rcases encoded.part_mem (Nat.succ_pos 0) name.parts_pos with ⟨part, member, holds⟩
    have same : part = longSlot aliasA 0x80 :=
      List.mem_singleton.mp (split ▸ List.mem_append_right _ member)
    have second := (longSlot_byte (by decide)).symm.trans (same ▸ holds.chars 1 3 rfl)
    rw [LongName.unit, chars] at second
    cases second
  · rw [shortChars_aliasA] at same
    cases congrArg List.length same

end Vanilla.Disk
