import Mathlib.Tactic.IntervalCases
import Vanilla.Disk.DirectoryStores

namespace Vanilla.Disk

/-! Long names as they are written to a directory, and what `fat_dir_read` makes of
them. -/

structure LongName where
  chars : List UInt8
  nonempty : chars ≠ []
  bounded : chars.length ≤ 255
  ascii : ∀ char ∈ chars, char ≠ 0 ∧ char < 0x80

namespace LongName

/-- How many entries the name takes, 13 characters each. -/
def parts (name : LongName) : Nat := (name.chars.length + 12) / 13

/-- The low byte of a UCS-2 character of the name, its terminator or its padding. -/
def unit (name : LongName) (place : Nat) : UInt8 :=
  if place < name.chars.length then name.chars.getD place 0
  else if place = name.chars.length then 0x00 else 0xFF

/-- The high byte of that character. -/
def unitHigh (name : LongName) (place : Nat) : UInt8 :=
  if place ≤ name.chars.length then 0x00 else 0xFF

end LongName

/-- An entry of a long name of some entries in all; the last part carries a flag. -/
structure LongEntry (total : Nat) (lfnCrc : UInt8) (sequence : Nat) (slot : Slot) : Prop where
  sequenced : slot.byte 0 = UInt8.ofNat (if sequence = total then sequence + 0x40 else sequence)
  long : slot.byte 11 = 0x0F
  checksum : slot.byte 13 = lfnCrc

/-- Entries of a long name in descending sequence. -/
inductive Descending (total : Nat) (lfnCrc : UInt8) : Nat → List Slot → Prop where
  | nil : Descending total lfnCrc 0 []
  | cons {sequence : Nat} {slot : Slot} {slots : List Slot} :
      LongEntry total lfnCrc (sequence + 1) slot → Descending total lfnCrc sequence slots →
      Descending total lfnCrc (sequence + 1) (slot :: slots)

/-- The entry holds this part of the name. -/
structure HoldsPart (name : LongName) (lfnCrc : UInt8) (sequence : Nat) (slot : Slot) : Prop
    extends LongEntry name.parts lfnCrc sequence slot where
  chars : ∀ index column, lfnLut[index]? = some column →
    slot.byte column = name.unit (13 * (sequence - 1) + index)
  high : ∀ index column, lfnLut[index]? = some column →
    slot.byte (column + 1) = name.unitHigh (13 * (sequence - 1) + index)

/-- The entries hold the parts up to this one, in descending sequence. -/
inductive LongName.Encoded (name : LongName) (lfnCrc : UInt8) : Nat → List Slot → Prop where
  | nil : Encoded name lfnCrc 0 []
  | cons {part : Nat} {slot : Slot} {slots : List Slot} :
      HoldsPart name lfnCrc (part + 1) slot → Encoded name lfnCrc part slots →
      Encoded name lfnCrc (part + 1) (slot :: slots)

/-! ## One part -/

section Part

variable {name : LongName} {lfnCrc : UInt8} {sequence : Nat} {slot : Slot} {reading : Reading}

theorem LongName.parts_le (name : LongName) : name.parts ≤ 20 := by
  have bounded := name.bounded
  rw [LongName.parts]
  omega

theorem LongName.parts_covers (name : LongName) :
    name.chars.length ≤ 13 * name.parts ∧ 13 * name.parts < name.chars.length + 13 := by
  rw [LongName.parts]
  omega

theorem LongName.unit_stored_iff (name : LongName) (place : Nat) :
    (name.unit place ≠ 0x00 ∧ name.unit place ≠ 0xFF) ↔ place < name.chars.length := by
  rw [LongName.unit]
  by_cases inside : place < name.chars.length
  · rw [if_pos inside, List.getD_eq_getElem _ _ inside]
    have ascii := name.ascii _ (List.getElem_mem inside)
    refine iff_of_true ⟨ascii.1, ?_⟩ inside
    intro same
    rw [same] at ascii
    exact absurd ascii.2 (by decide)
  · rw [if_neg inside]
    by_cases ends : place = name.chars.length
    · simp [ends]
    · simp [ends, inside]

theorem LongEntry.first_byte {total : Nat} (entry : LongEntry total lfnCrc sequence slot)
    (few : total ≤ 20) (some_ : 0 < sequence) (bound : sequence ≤ total) :
    slot.byte 0 ≠ 0 ∧ slot.byte 0 ≠ 0xE5 ∧
      (slot.byte 0 = 0x05 ↔ sequence = 5 ∧ total ≠ 5) ∧
      slot.byte 0 &&& 0x1F = UInt8.ofNat sequence := by
  have all : ∀ sequence ≤ 20, 0 < sequence →
      (UInt8.ofNat sequence ≠ 0 ∧ UInt8.ofNat sequence ≠ 0xE5 ∧
        (UInt8.ofNat sequence = 0x05 ↔ sequence = 5) ∧
        UInt8.ofNat sequence &&& 0x1F = UInt8.ofNat sequence) ∧
      (UInt8.ofNat (sequence + 0x40) ≠ 0 ∧ UInt8.ofNat (sequence + 0x40) ≠ 0xE5 ∧
        UInt8.ofNat (sequence + 0x40) ≠ 0x05 ∧
        UInt8.ofNat (sequence + 0x40) &&& 0x1F = UInt8.ofNat sequence) := by
    decide
  rcases all sequence (bound.trans few) some_ with ⟨plain, flagged⟩
  rw [entry.sequenced]
  by_cases last : sequence = total
  · rw [if_pos last]
    refine ⟨flagged.1, flagged.2.1, iff_of_false flagged.2.2.1 ?_, flagged.2.2.2⟩
    rintro ⟨five, other⟩
    exact other (last ▸ five)
  · rw [if_neg last]
    refine ⟨plain.1, plain.2.1, plain.2.2.1.trans ?_, plain.2.2.2⟩
    exact ⟨fun five => ⟨five, fun same => last (five.trans same.symm)⟩, And.left⟩

theorem LongEntry.isLong {total : Nat} (entry : LongEntry total lfnCrc sequence slot) :
    slot.isLong = true := by
  rw [Slot.isLong, entry.long]
  rfl

theorem LongEntry.passed {total : Nat} (entry : LongEntry total lfnCrc sequence slot)
    (few : total ≤ 20) (some_ : 0 < sequence) (bound : sequence ≤ total) : slot.Passed :=
  ⟨(entry.first_byte few some_ bound).1, by simp [Slot.isEntry, entry.isLong]⟩

/-- Part 5 is taken for an entry not in use, unless it is the last part. -/
theorem LongEntry.namePart_iff {total : Nat} (entry : LongEntry total lfnCrc sequence slot)
    (few : total ≤ 20) (some_ : 0 < sequence) (bound : sequence ≤ total) :
    slot.namePart = true ↔ ¬ (sequence = 5 ∧ total ≠ 5) := by
  rcases entry.first_byte few some_ bound with ⟨unmarked, notDeleted, five, _⟩
  rw [← five]
  simp [Slot.namePart, entry.isLong, unmarked, notDeleted]

theorem HoldsPart.stored_iff (holds : HoldsPart name lfnCrc sequence slot) {index column : Nat}
    (at_ : lfnLut[index]? = some column) :
    slot.stored column = true ↔ 13 * (sequence - 1) + index < name.chars.length := by
  rw [← name.unit_stored_iff, ← holds.chars index column at_]
  simp [Slot.stored]

theorem countP_below (base length count : Nat) :
    (List.range count).countP (fun index => decide (base + index < length)) =
      min count (length - base) := by
  induction count with
  | zero => simp
  | succ count induction =>
      rw [List.range_succ, List.countP_append, induction, List.countP_singleton]
      by_cases below : base + count < length
      · rw [if_pos (by simpa using below)]
        omega
      · rw [if_neg (by simpa using below)]
        omega

theorem HoldsPart.countP_stored (holds : HoldsPart name lfnCrc sequence slot) :
    lfnLut.countP slot.stored = min 13 (name.chars.length - 13 * (sequence - 1)) := by
  have columns : lfnLut = (List.range 13).map fun index => lfnLut.getD index 0 := rfl
  rw [columns, List.countP_map, ← countP_below]
  apply List.countP_congr
  intro index member
  have at_ : lfnLut[index]? = some (lfnLut.getD index 0) := by
    have below : index < lfnLut.length := List.mem_range.mp member
    rw [List.getElem?_eq_getElem below, List.getD_eq_getElem _ _ below]
  simpa using holds.stored_iff at_

/-- A stored column sets its place; later columns leave it alone. -/
theorem storeLongLoop_name (nameOffset : UInt8) (index : Nat) (columns : List Nat) (place : Nat) :
    (∀ later column, columns[later]? = some column → slot.stored column = true →
      place = nameOffset.toNat + (index + later) →
      (storeLongLoop slot nameOffset index columns reading).name place = slot.byte column) ∧
    (place ∉ storedPlaces slot nameOffset.toNat index columns →
      (storeLongLoop slot nameOffset index columns reading).name place = reading.name place) := by
  induction columns generalizing index reading with
  | nil => exact ⟨nofun, fun _ => rfl⟩
  | cons column columns induction =>
      rw [storeLongLoop, storedPlaces]
      by_cases blank : slot.byte column = 0x00 ∨ slot.byte column = 0xFF
      · have skipped : slot.stored column = false := by
          rcases blank with blank | blank <;> simp [Slot.stored, blank]
        rw [if_pos blank, if_neg (by simp [skipped])]
        refine ⟨?_, (induction _).2⟩
        intro later other at_ isStored same
        cases later with
        | zero =>
            cases at_
            cases skipped.symm.trans isStored
        | succ later =>
            refine (induction (index + 1)).1 later other at_ isStored ?_
            omega
      · have isStored : slot.stored column = true := by
          simpa [Slot.stored, not_or] using blank
        rw [if_neg blank, if_pos isStored]
        refine ⟨?_, ?_⟩
        · intro later other at_ otherStored same
          cases later with
          | zero =>
              cases at_
              have apart : place ∉ storedPlaces slot nameOffset.toNat (index + 1) columns := by
                intro member
                rcases mem_storedPlaces.mp member with ⟨_, _, _, _, again⟩
                omega
              rw [(induction (index + 1)).2 apart, Reading.store, same]
              exact Function.update_self ..
          | succ later =>
              refine (induction (index + 1)).1 later other at_ otherStored ?_
              omega
        · intro apart
          rw [List.mem_cons, not_or] at apart
          rw [(induction (index + 1)).2 apart.2, Reading.store]
          exact Function.update_of_ne apart.1 ..

/-- What the parts but the skipped one do to the name gathered so far. -/
theorem HoldsPart.pass_name (holds : HoldsPart name lfnCrc sequence slot) (some_ : 0 < sequence)
    (bound : sequence ≤ name.parts) (few : name.parts ≤ 5) (place : Nat) :
    (reading.pass slot).name place =
      if 13 * (sequence - 1) ≤ place ∧ place < 13 * sequence ∧ place < name.chars.length then
        name.chars.getD place 0
      else reading.name place := by
  have part : slot.namePart = true := by
    rw [holds.namePart_iff name.parts_le some_ bound]
    omega
  have offset : slot.nameOffset.toNat = 13 * (sequence - 1) := by
    have all : ∀ sequence ≤ 5, 0 < sequence →
        (13 * (UInt8.ofNat sequence - 1)).toNat = 13 * (sequence - 1) := by decide
    rw [Slot.nameOffset, (holds.first_byte name.parts_le some_ bound).2.2.2]
    exact all sequence (bound.trans few) some_
  have step : reading.pass slot = { storeLong slot reading with lfnCrc := slot.byte 13 } := by
    have first := holds.first_byte name.parts_le some_ bound
    have used : slot.byte 0 ≠ 0xE5 ∧ slot.byte 0 ≠ 0x05 := by
      refine ⟨first.2.1, ?_⟩
      rw [Ne, first.2.2.1]
      omega
    rw [Reading.pass, readStep, if_neg first.1, if_pos used, if_pos holds.isLong]
  have stores := @storeLongLoop_name slot reading slot.nameOffset 0 lfnLut place
  rw [step]
  by_cases covered : 13 * (sequence - 1) ≤ place ∧ place < 13 * sequence ∧
      place < name.chars.length
  · rcases covered with ⟨from_, to_, inside⟩
    have below : place - 13 * (sequence - 1) < lfnLut.length := by
      have size : lfnLut.length = 13 := rfl
      omega
    have at_ := List.getElem?_eq_getElem below
    have isStored := (holds.stored_iff at_).mpr (by omega)
    refine (stores.1 _ _ at_ isStored (by omega)).trans ?_
    rw [if_pos ⟨from_, to_, inside⟩, holds.chars _ _ at_, LongName.unit,
      Nat.add_sub_cancel' from_, if_pos inside]
  · rw [if_neg covered]
    refine stores.2 ?_
    intro member
    rcases mem_storedPlaces.mp member with ⟨later, column, at_, isStored, same⟩
    have inside := (holds.stored_iff at_).mp isStored
    have below : later < 13 := (List.getElem?_eq_some_iff.mp at_).1
    omega

end Part

/-! ## All parts -/

section Descending

variable {total sequence : Nat} {lfnCrc : UInt8} {slots : List Slot}

theorem Descending.passed (descending : Descending total lfnCrc sequence slots)
    (few : total ≤ 20) (bound : sequence ≤ total) : ∀ slot ∈ slots, slot.Passed := by
  induction descending with
  | nil => simp
  | cons entry _ induction =>
      exact List.forall_mem_cons.mpr
        ⟨entry.passed few (Nat.succ_pos _) bound, induction (Nat.le_of_succ_le bound)⟩

theorem Descending.checksum (descending : Descending total lfnCrc sequence slots)
    (few : total ≤ 20) (bound : sequence ≤ total) (start : UInt8) :
    slots.foldl (fun lfnCrc slot => slot.checksum lfnCrc) start =
      if sequence = 0 then start else lfnCrc := by
  induction descending generalizing start with
  | nil => rfl
  | @cons sequence slot slots entry rest induction =>
      rw [List.foldl_cons, induction (Nat.le_of_succ_le bound),
        if_neg (Nat.succ_ne_zero sequence)]
      by_cases first : sequence = 0
      · have isPart : slot.namePart = true := by
          rw [entry.namePart_iff few (Nat.succ_pos _) bound]
          omega
        rw [if_pos first, Slot.checksum, if_pos isPart, entry.checksum]
      · rw [if_neg first]

end Descending

namespace LongName.Encoded

variable {name : LongName} {lfnCrc : UInt8} {part : Nat} {slots : List Slot}

theorem descending (encoded : name.Encoded lfnCrc part slots) :
    Descending name.parts lfnCrc part slots := by
  induction encoded with
  | nil => exact .nil
  | cons holds _ induction => exact .cons holds.toLongEntry induction

theorem passed (encoded : name.Encoded lfnCrc part slots) (bound : part ≤ name.parts) :
    ∀ slot ∈ slots, slot.Passed :=
  encoded.descending.passed name.parts_le bound

theorem checksum (encoded : name.Encoded lfnCrc part slots) (bound : part ≤ name.parts)
    (start : UInt8) : slots.foldl (fun lfnCrc slot => slot.checksum lfnCrc) start =
      if part = 0 then start else lfnCrc :=
  encoded.descending.checksum name.parts_le bound start

/-- Part 5 is not counted, unless it is the last. -/
theorem chars (encoded : name.Encoded lfnCrc part slots) (bound : part ≤ name.parts) :
    (slots.map Slot.chars).sum + (if 5 ≤ part ∧ name.parts ≠ 5 then 13 else 0) =
      min (13 * part) name.chars.length := by
  induction encoded with
  | nil => simp
  | @cons part slot slots holds rest induction =>
      have sum := induction (Nat.le_of_succ_le bound)
      have covers := name.parts_covers
      rw [List.map_cons, List.sum_cons, Slot.chars, holds.countP_stored]
      have isPart := holds.namePart_iff name.parts_le (Nat.succ_pos _) bound
      by_cases skipped : part + 1 = 5 ∧ name.parts ≠ 5
      · rw [if_neg (by rw [isPart]; exact not_not.mpr skipped), if_pos (by omega)]
        rw [if_neg (by omega)] at sum
        omega
      · rw [if_pos (isPart.mpr skipped)]
        by_cases behind : 5 ≤ part ∧ name.parts ≠ 5
        · rw [if_pos behind] at sum
          rw [if_pos (by omega)]
          omega
        · rw [if_neg behind] at sum
          rw [if_neg (by omega)]
          omega

theorem gather_name (encoded : name.Encoded lfnCrc part slots) (bound : part ≤ name.parts)
    (few : name.parts ≤ 5) (reading : Reading) (place : Nat) :
    (gather reading slots).name place =
      if place < 13 * part ∧ place < name.chars.length then name.chars.getD place 0
      else reading.name place := by
  induction encoded generalizing reading with
  | nil => simp [gather]
  | @cons part slot slots holds rest induction =>
      have later := induction (Nat.le_of_succ_le bound) (reading.pass slot)
      rw [holds.pass_name (Nat.succ_pos _) bound few place] at later
      refine later.trans ?_
      by_cases lower : place < 13 * part ∧ place < name.chars.length
      · rw [if_pos lower, if_pos (by omega)]
      · rw [if_neg lower]
        by_cases upper : place < 13 * (part + 1) ∧ place < name.chars.length
        · rw [if_pos upper, if_pos (by omega)]
        · rw [if_neg upper, if_neg (by omega)]

end LongName.Encoded

/-! ## Reading a name -/

/-- The position some entries further on. -/
def Dir.walk (geometry : Geometry) (sectors : Nat → Sector) : Nat → Dir → Dir
  | 0, dir => dir
  | count + 1, dir => Dir.walk geometry sectors count (dir.move geometry sectors).2

/-- The fields besides the name are those of the entry. -/
structure Info.Fields (info : Info) (slot : Slot) : Prop where
  attributes : info.attributes = slot.byte 11
  cTimeTenth : info.cTimeTenth = slot.byte 13
  cTime : info.cTime = slot.buffer.load16 (slot.offset + 14)
  cDate : info.cDate = slot.buffer.load16 (slot.offset + 16)
  aDate : info.aDate = slot.buffer.load16 (slot.offset + 18)
  wTime : info.wTime = slot.buffer.load16 (slot.offset + 22)
  wDate : info.wDate = slot.buffer.load16 (slot.offset + 24)
  size : info.size = slot.buffer.load32 (slot.offset + 28)

theorem describe_fields (slot : Slot) (reading : Reading) :
    (slot.describe reading).Fields slot := ⟨rfl, rfl, rfl, rfl, rfl, rfl, rfl, rfl⟩

/-- A call has returned this name, with the fields of its short entry. -/
structure ReadsBack (name : LongName) (short : Slot) (next : Dir) (result : DirReadResult) :
    Prop where
  status : result.status = .ok
  chars : ∀ place, place < name.chars.length → result.info.name place = name.chars.getD place 0
  length : result.info.nameLength.toNat = name.chars.length
  fields : result.info.Fields short
  next : result.dir = next

section Calls

variable {geometry : Geometry} {sectors : Nat → Sector} {state : FatState} {dir : Dir}
  {info : Info} {reading last : Reading} {slots : List Slot} {slot : Slot}

/-- On a device that answers, a call returns what the loop over the sectors comes to. -/
theorem fatDirRead_returns_iff (working : Working geometry sectors state)
    (real : state.volume.buffer = sectors state.volume.bufferLba ∨ dir.sector ≠ 0)
    {result : DirReadResult} :
    (∃ rounds after, (fatDirRead rounds dir info).run state = .ok result after) ↔
      Loop.Returns (readRound geometry sectors info) (dir, ⟨0, 0, info.name, []⟩)
        (.ok result) := by
  rw [← Loop.returns_iff]
  refine exists_congr fun rounds => ?_
  rcases @run_dirReadLoop_eq _ _ _ dir info rounds ⟨0, 0, info.name, []⟩ working real with
    ⟨after, runs, _⟩
  rw [fatDirRead, runs]
  constructor
  · rintro ⟨final, returns⟩
    cases outcome : Loop.run (readRound geometry sectors info) rounds
        (dir, ⟨0, 0, info.name, []⟩) with
    | none =>
        rw [outcome] at returns
        cases returns
    | some value =>
        rw [outcome] at returns
        cases value with
        | error reason => cases returns
        | ok value =>
            cases returns
            rfl
  · intro outcome
    rw [outcome]
    exact ⟨after, rfl⟩

/-- A call that passes the first entries returns the one behind them. -/
theorem readRound_returns (entries : Entries geometry sectors dir (slots ++ [slot]))
    (passed : ∀ slot ∈ slots, slot.Passed)
    (step : readStep slot (gather reading slots) = .entry last) :
    Loop.Returns (readRound geometry sectors info) (dir, reading)
      (.ok ⟨.ok, dir.walk geometry sectors (slots.length + 1), slot.describe last,
        last.stores⟩) := by
  induction slots generalizing dir reading with
  | nil =>
      have here : Used sectors dir ∧ slot = slotAt sectors dir := by
        cases entries with
        | one used => exact ⟨used, rfl⟩
        | cons _ _ rest => cases rest
      refine .done ?_
      rw [readRound_inside here.1.inside, ← here.2]
      have first : readStep slot reading = .entry last := step
      rw [first]
      rfl
  | cons first slots induction =>
      rcases List.forall_mem_cons.mp passed with ⟨passes, others⟩
      have here : Used sectors dir ∧ first = slotAt sectors dir ∧
          Entries geometry sectors (dir.move geometry sectors).2 (slots ++ [slot]) := by
        generalize same : first :: slots ++ [slot] = whole at entries
        cases entries with
        | one used => simp at same
        | cons used moves rest =>
            cases same
            exact ⟨used, rfl, rest⟩
      have next := @readStep_pass first reading passes.1 passes.2
      refine .next ?_ (induction here.2.2 others step)
      rw [readRound_inside here.1.inside, ← here.2.1, next]

end Calls

/-- A name that is written as a long name, with the checksum of its short entry, is
read back exactly if the checksum is not zero and the name has at most 65 characters. -/
theorem long_name_round_trip_iff {geometry : Geometry} {sectors : Nat → Sector}
    {state : FatState} {dir : Dir} (working : Working geometry sectors state)
    (real : state.volume.buffer = sectors state.volume.bufferLba ∨ dir.sector ≠ 0)
    (name : LongName) {longs : List Slot} {short : Slot}
    (encoded : name.Encoded (fatGetSfnCrc short) name.parts longs)
    (entry : short.isEntry = true)
    (entries : Entries geometry sectors dir (longs ++ [short])) (info : Info) :
    (∃ rounds result after, (fatDirRead rounds dir info).run state = .ok result after ∧
      ReadsBack name short (dir.walk geometry sectors (longs.length + 1)) result) ↔
    fatGetSfnCrc short ≠ 0 ∧ name.chars.length ≤ 65 := by
  have bound := Nat.le_refl name.parts
  have passed := encoded.passed bound
  have covers := name.parts_covers
  have bounded := name.bounded
  have positive := List.length_pos_iff.mpr name.nonempty
  have checksum : checksumOf longs = fatGetSfnCrc short := by
    refine (encoded.checksum bound 0).trans (if_neg ?_)
    omega
  rcases reported_spec passed entry (.inr checksum) info with ⟨last, step, counted, length, _⟩
  have returns : Loop.Returns (readRound geometry sectors info) _ _ :=
    readRound_returns entries passed step
  rw [charsOf, checksum] at length
  have sum := encoded.chars bound
  constructor
  · rintro ⟨rounds, result, after, runs, reads⟩
    have same := ((fatDirRead_returns_iff working real).mp ⟨rounds, after, runs⟩).unique returns
    cases same
    have reports : last.nameLength.toNat = name.chars.length := reads.length
    rw [counted, UInt8.toNat_ofNat', length] at reports
    by_cases zero : fatGetSfnCrc short = 0
    · rw [if_pos zero] at reports
      split at sum <;> omega
    · rw [if_neg zero] at reports
      refine ⟨zero, ?_⟩
      split at sum <;> omega
  · rintro ⟨some_, few⟩
    rcases (fatDirRead_returns_iff working real).mpr returns with ⟨rounds, after, runs⟩
    refine ⟨rounds, _, after, runs, rfl, ?_, ?_, describe_fields _ _, rfl⟩
    · intro place inside
      have gathers : last = gather ⟨0, 0, info.name, []⟩ longs := by
        rw [readStep_entry entry, (gathered passed info).1, checksum, if_pos some_,
          if_neg (not_not.mpr rfl)] at step
        cases step
        rfl
      have named := encoded.gather_name bound (by omega) ⟨0, 0, info.name, []⟩ place
      rw [if_pos ⟨by omega, inside⟩] at named
      rw [gathers]
      exact named
    · refine (congrArg UInt8.toNat counted).trans ?_
      rw [UInt8.toNat_ofNat', length, if_neg some_]
      rw [if_neg (by omega)] at sum
      omega

/-! ### Two names in front of their aliases -/

def nameA : LongName where
  chars := [0x61]
  nonempty := List.cons_ne_nil _ _
  bounded := by decide
  ascii := List.forall_mem_singleton.mpr ⟨by decide, by decide⟩

/-- The bytes of the one part of that name and of a short entry behind it. -/
def namedByte (alias_ : List UInt8) (lfnCrc : UInt8) : Nat → UInt8
  | 0 => 0x41
  | 1 => 0x61
  | 2 => 0x00
  | 3 => 0x00
  | 4 => 0x00
  | 11 => 0x0F
  | 13 => lfnCrc
  | column => if column < 32 then 0xFF else alias_.getD (column - 32) 0

def namedSector (alias_ : List UInt8) (lfnCrc : UInt8) : Sector :=
  Vector.ofFn fun column => namedByte alias_ lfnCrc column.val

/-- A volume on a disk of which every sector holds these two entries. -/
def namedVolume (alias_ : List UInt8) (lfnCrc : UInt8) : FatState :=
  { blankVolume with
    device := { blankVolume.device with sector := fun _ => namedSector alias_ lfnCrc } }

def aliasA : List UInt8 := [0x41, 0x20, 0x20, 0x20, 0x20, 0x20, 0x20, 0x20, 0x20, 0x20, 0x20]

/-- The checksum of this alias is zero. -/
def aliasBBP : List UInt8 := [0x42, 0x42, 0x50, 0x20, 0x20, 0x20, 0x20, 0x20, 0x20, 0x20, 0x20]

def longSlot (alias_ : List UInt8) (lfnCrc : UInt8) : Slot := ⟨namedSector alias_ lfnCrc, 0⟩

def shortSlot (alias_ : List UInt8) (lfnCrc : UInt8) : Slot := ⟨namedSector alias_ lfnCrc, 32⟩

section Named

variable {alias_ : List UInt8} {lfnCrc : UInt8}

theorem namedSector_load8 {offset : Nat} (inside : offset < 512) :
    (namedSector alias_ lfnCrc).load8 offset = namedByte alias_ lfnCrc offset := by
  simp [namedSector, Sector.load8, inside]

theorem longSlot_byte {column : Nat} (inside : column < 32) :
    (longSlot alias_ lfnCrc).byte column = namedByte alias_ lfnCrc column := by
  have below : 0 + column < 512 := by omega
  exact (namedSector_load8 below).trans (congrArg _ (Nat.zero_add _))

theorem shortSlot_byte {column : Nat} (inside : column < 32) :
    (shortSlot alias_ lfnCrc).byte column = namedByte alias_ lfnCrc (32 + column) := by
  have below : 32 + column < 512 := by omega
  exact namedSector_load8 below

theorem nameA_holdsPart : HoldsPart nameA lfnCrc 1 (longSlot alias_ lfnCrc) where
  sequenced := longSlot_byte (by decide)
  long := longSlot_byte (by decide)
  checksum := longSlot_byte (by decide)
  chars := by
    intro index column at_
    have below : index < 13 := (List.getElem?_eq_some_iff.mp at_).1
    interval_cases index <;> cases at_ <;> exact longSlot_byte (by decide)
  high := by
    intro index column at_
    have below : index < 13 := (List.getElem?_eq_some_iff.mp at_).1
    interval_cases index <;> cases at_ <;> exact longSlot_byte (by decide)

theorem nameA_encoded : nameA.Encoded lfnCrc nameA.parts [longSlot alias_ lfnCrc] :=
  .cons nameA_holdsPart .nil

theorem shortSlot_crc : fatGetSfnCrc (shortSlot alias_ lfnCrc) =
    (List.range 11).foldl (fun (crc : UInt8) column =>
      ((crc &&& 1) <<< 7) + (crc >>> 1) + namedByte alias_ lfnCrc (32 + column)) 0 := by
  rw [fatGetSfnCrc]
  apply List.foldl_ext
  intro crc column member
  have inside := List.mem_range.mp member
  rw [shortSlot_byte (by omega)]

theorem shortSlot_isEntry (plain : namedByte alias_ lfnCrc 32 = 0x41 ∨
      namedByte alias_ lfnCrc 32 = 0x42) (attributes : namedByte alias_ lfnCrc 43 = 0) :
    (shortSlot alias_ lfnCrc).isEntry = true := by
  rw [Slot.isEntry, Slot.isLong, shortSlot_byte (by decide), shortSlot_byte (by decide),
    attributes]
  rcases plain with plain | plain <;> rw [plain] <;> rfl

theorem longSlot_unmarked : (longSlot alias_ lfnCrc).byte 0 ≠ 0 := by
  rw [longSlot_byte (by decide)]
  exact nofun

theorem shortSlot_unmarked (plain : namedByte alias_ lfnCrc 32 ≠ 0) :
    (shortSlot alias_ lfnCrc).byte 0 ≠ 0 := by
  rw [shortSlot_byte (by decide)]
  exact plain

theorem named_entries (plain : namedByte alias_ lfnCrc 32 ≠ 0) :
    Entries (namedVolume alias_ lfnCrc).volume.toGeometry (namedVolume alias_ lfnCrc).logical
      (rootDir (namedVolume alias_ lfnCrc).volume.toGeometry)
      ([longSlot alias_ lfnCrc] ++ [shortSlot alias_ lfnCrc]) := by
  exact .cons ⟨(by decide : 0 + 32 ≤ 512), longSlot_unmarked⟩ rfl
    (.one ⟨(by decide : 32 + 32 ≤ 512), shortSlot_unmarked plain⟩)

theorem named_working : Working (namedVolume alias_ lfnCrc).volume.toGeometry
    (namedVolume alias_ lfnCrc).logical (namedVolume alias_ lfnCrc) :=
  ⟨rfl, rfl, fun _ used => absurd rfl used, fun _ => rfl⟩

end Named

theorem long_name_round_trip_iff_nameA :
    (∃ rounds result after,
      (fatDirRead rounds (rootDir (namedVolume aliasA 0x80).volume.toGeometry)
        ⟨fun _ => 0, 0, 0, 0, 0, 0, 0, 0, 0, 0⟩).run (namedVolume aliasA 0x80) =
          .ok result after ∧
      ReadsBack nameA (shortSlot aliasA 0x80)
        ((rootDir (namedVolume aliasA 0x80).volume.toGeometry).walk
          (namedVolume aliasA 0x80).volume.toGeometry (namedVolume aliasA 0x80).logical 2)
        result) ↔
    fatGetSfnCrc (shortSlot aliasA 0x80) ≠ 0 ∧ nameA.chars.length ≤ 65 := by
  have checksum : fatGetSfnCrc (shortSlot aliasA 0x80) = 0x80 := shortSlot_crc.trans rfl
  exact long_name_round_trip_iff named_working (.inr (by decide)) nameA
    (by rw [checksum]; exact nameA_encoded) (shortSlot_isEntry (.inl rfl) rfl)
    (named_entries (by decide)) ⟨fun _ => 0, 0, 0, 0, 0, 0, 0, 0, 0, 0⟩

/-- Behind an alias with checksum zero, the name comes back with eleven characters
more. -/
theorem zero_checksum_name_is_lost :
    nameA.Encoded (fatGetSfnCrc (shortSlot aliasBBP 0)) nameA.parts [longSlot aliasBBP 0] ∧
      (shortSlot aliasBBP 0).isEntry = true ∧
      Entries (namedVolume aliasBBP 0).volume.toGeometry (namedVolume aliasBBP 0).logical
        (rootDir (namedVolume aliasBBP 0).volume.toGeometry)
        ([longSlot aliasBBP 0] ++ [shortSlot aliasBBP 0]) ∧
      ¬ ∃ rounds result after,
        (fatDirRead rounds (rootDir (namedVolume aliasBBP 0).volume.toGeometry)
          ⟨fun _ => 0, 0, 0, 0, 0, 0, 0, 0, 0, 0⟩).run (namedVolume aliasBBP 0) =
            .ok result after ∧
        result.info.nameLength.toNat = nameA.chars.length := by
  have checksum : fatGetSfnCrc (shortSlot aliasBBP 0) = 0 := shortSlot_crc.trans rfl
  have entry : (shortSlot aliasBBP 0).isEntry = true := shortSlot_isEntry (.inr rfl) rfl
  have entries := @named_entries aliasBBP 0 (by decide)
  refine ⟨by rw [checksum]; exact nameA_encoded, entry, entries, ?_⟩
  have encoded := @nameA_encoded aliasBBP 0
  have passed := encoded.passed (Nat.le_refl _)
  have sum := encoded.chars (Nat.le_refl _)
  have zero : checksumOf [longSlot aliasBBP 0] = 0 := encoded.checksum (Nat.le_refl _) 0
  rcases reported_spec passed entry (.inl zero) ⟨fun _ => 0, 0, 0, 0, 0, 0, 0, 0, 0, 0⟩ with
    ⟨last, step, counted, length, _⟩
  have returns : Loop.Returns (readRound (namedVolume aliasBBP 0).volume.toGeometry
      (namedVolume aliasBBP 0).logical ⟨fun _ => 0, 0, 0, 0, 0, 0, 0, 0, 0, 0⟩) _ _ :=
    readRound_returns entries passed step
  rintro ⟨rounds, result, after, runs, reads⟩
  have same := ((fatDirRead_returns_iff named_working (.inr (by decide))).mp
    ⟨rounds, after, runs⟩).unique returns
  cases same
  have reports : last.nameLength.toNat = 1 := reads
  rw [charsOf, zero, if_pos rfl] at length
  rw [counted, UInt8.toNat_ofNat', length] at reports
  have one : nameA.chars.length = 1 := rfl
  have single : nameA.parts = 1 := rfl
  rw [one, single] at sum
  rw [if_neg (by decide)] at sum
  omega

end Vanilla.Disk
