import Vanilla.Disk.DirectoryScan
import Vanilla.Disk.FilePosition

namespace Vanilla.Disk

/-! The places of the name that `fat_dir_read` stores to, and the length that it
reports. -/

namespace Slot

/-- The loop of `fat_dir_read` stores this character of a long name. -/
def stored (slot : Slot) (column : Nat) : Bool :=
  slot.byte column != 0x00 && slot.byte column != 0xFF

/-- The entry is read as a part of a long name. -/
def namePart (slot : Slot) : Bool :=
  slot.byte 0 != 0 && slot.byte 0 != 0xE5 && slot.byte 0 != 0x05 && slot.isLong

/-- How many characters the entry adds to a long name. -/
def chars (slot : Slot) : Nat := if slot.namePart then lfnLut.countP slot.stored else 0

/-- The entry has sequence number 20, whose part of the name begins at place 247,
and it has a tenth character or a later one. -/
def overruns (slot : Slot) : Bool :=
  slot.namePart && slot.byte 0 &&& 0x1F == 20 && [22, 24, 28, 30].any slot.stored

/-- `lfn_crc` after the entry. -/
def checksum (slot : Slot) (lfnCrc : UInt8) : UInt8 :=
  if slot.namePart then slot.byte 13 else lfnCrc

end Slot

/-! ## One entry -/

/-- The places that are stored to, from a character of the entry on. -/
def storedPlaces (slot : Slot) (offset : Nat) : Nat → List Nat → List Nat
  | _, [] => []
  | index, column :: columns =>
      if slot.stored column then (offset + index) :: storedPlaces slot offset (index + 1) columns
      else storedPlaces slot offset (index + 1) columns

section Entry

variable {slot : Slot} {reading : Reading}

theorem length_storedPlaces (offset index : Nat) (columns : List Nat) :
    (storedPlaces slot offset index columns).length = columns.countP slot.stored := by
  induction columns generalizing index with
  | nil => rfl
  | cons column columns induction =>
      rw [storedPlaces, List.countP_cons]
      cases slot.stored column with
      | true =>
          rw [if_pos rfl, if_pos rfl, List.length_cons, induction]
      | false =>
          rw [if_neg (by simp), if_neg (by simp), induction]
          rfl

theorem mem_storedPlaces {place offset index : Nat} {columns : List Nat} :
    place ∈ storedPlaces slot offset index columns ↔
      ∃ later column, columns[later]? = some column ∧ slot.stored column = true ∧
        place = offset + (index + later) := by
  induction columns generalizing index with
  | nil => simp [storedPlaces]
  | cons column columns induction =>
      have rest : place ∈ storedPlaces slot offset (index + 1) columns ↔
          ∃ later other, (column :: columns)[later + 1]? = some other ∧
            slot.stored other = true ∧ place = offset + (index + (later + 1)) := by
        rw [induction]
        simp only [List.getElem?_cons_succ, Nat.add_comm 1, Nat.add_assoc]
      rw [storedPlaces]
      constructor
      · intro member
        cases isStored : slot.stored column with
        | true =>
            rw [isStored, if_pos rfl, List.mem_cons] at member
            rcases member with here | member
            · exact ⟨0, column, rfl, isStored, here⟩
            · rcases rest.mp member with ⟨later, other, found⟩
              exact ⟨later + 1, other, found⟩
        | false =>
            rw [isStored, if_neg (by simp)] at member
            rcases rest.mp member with ⟨later, other, found⟩
            exact ⟨later + 1, other, found⟩
      · rintro ⟨later, other, at_, isStored, same⟩
        cases later with
        | zero =>
            cases at_
            rw [isStored, if_pos rfl]
            exact List.mem_cons.mpr (.inl same)
        | succ later =>
            have member := rest.mpr ⟨later, other, at_, isStored, same⟩
            split
            · exact List.mem_cons_of_mem _ member
            · exact member

theorem storeLongLoop_stores (nameOffset : UInt8) (index : Nat) (columns : List Nat) :
    (storeLongLoop slot nameOffset index columns reading).stores =
      reading.stores ++ storedPlaces slot nameOffset.toNat index columns := by
  induction columns generalizing index reading with
  | nil => exact (List.append_nil _).symm
  | cons column columns induction =>
      rw [storeLongLoop, induction, storedPlaces]
      by_cases blank : slot.byte column = 0x00 ∨ slot.byte column = 0xFF
      · have skipped : slot.stored column = false := by
          rcases blank with blank | blank <;> simp [Slot.stored, blank]
        rw [if_pos blank, if_neg (by simp [skipped])]
      · have isStored : slot.stored column = true := by
          simpa [Slot.stored, not_or] using blank
        rw [if_neg blank, if_pos isStored]
        exact List.append_assoc _ [_] _

/-- The length is the number of stores so far, as 8 bits. -/
def Reading.Counted (reading : Reading) : Prop :=
  reading.nameLength = UInt8.ofNat reading.stores.length

theorem Reading.Counted.store (counted : reading.Counted) (index : Nat) (char : UInt8) :
    (reading.store index char).Counted := by
  rw [Reading.Counted, Reading.store, counted, List.length_append]
  exact (UInt8.ofNat_add _ 1).symm

theorem Reading.Counted.storeLongLoop (counted : reading.Counted) (nameOffset : UInt8)
    (index : Nat) (columns : List Nat) :
    (storeLongLoop slot nameOffset index columns reading).Counted := by
  induction columns generalizing index reading with
  | nil => exact counted
  | cons column columns induction =>
      rw [Disk.storeLongLoop]
      apply induction
      split
      · exact counted
      · exact counted.store _ _

theorem storeShort_eq : storeShort slot reading =
    (List.range 11).foldl (fun reading index => reading.store index (slot.byte index)) reading :=
  rfl

theorem Reading.Counted.storeShort (counted : reading.Counted) :
    (storeShort slot reading).Counted := by
  rw [storeShort_eq]
  generalize List.range 11 = places
  induction places generalizing reading with
  | nil => exact counted
  | cons place places induction => exact induction (counted.store _ _)

theorem storeShort_stores : (storeShort slot reading).stores =
    reading.stores ++ List.range 11 := by
  rw [storeShort_eq]
  generalize List.range 11 = places
  induction places generalizing reading with
  | nil => exact (List.append_nil _).symm
  | cons place places induction =>
      rw [List.foldl_cons, induction]
      exact List.append_assoc _ [_] _

/-- Where a part of a long name begins, as 8 bits. -/
def Slot.nameOffset (slot : Slot) : UInt8 := 13 * ((slot.byte 0 &&& 0x1F) - 1)

theorem nameOffset_cases (slot : Slot) :
    slot.byte 0 &&& 0x1F = 20 ∧ slot.nameOffset.toNat = 247 ∨
      slot.byte 0 &&& 0x1F ≠ 20 ∧ slot.nameOffset.toNat ≤ 243 := by
  have sequences : ∀ sequence < 32, UInt8.ofNat sequence = 20 ∧
      (13 * (UInt8.ofNat sequence - 1)).toNat = 247 ∨
        UInt8.ofNat sequence ≠ 20 ∧ (13 * (UInt8.ofNat sequence - 1)).toNat ≤ 243 := by
    decide
  have bound : (slot.byte 0 &&& 0x1F).toNat < 32 := by
    rw [UInt8.toNat_and]
    exact Nat.lt_of_le_of_lt Nat.and_le_right (by decide)
  have whole := sequences _ bound
  rw [UInt8.ofNat_toNat] at whole
  exact whole

/-- Only the later characters of part 20 are stored behind the name. -/
theorem storedPlaces_within_iff (part : slot.namePart = true) :
    (∀ place ∈ storedPlaces slot slot.nameOffset.toNat 0 lfnLut, place < 256) ↔
      slot.overruns = false := by
  have columns : ∀ later column, lfnLut[later]? = some column → later < 13 ∧
      (column ∈ [22, 24, 28, 30] ↔ 9 ≤ later) := by
    intro later column at_
    have below : later < 13 := (List.getElem?_eq_some_iff.mp at_).1
    have all : ∀ later < 13, ∀ column ∈ lfnLut[later]?,
        (column ∈ [22, 24, 28, 30] ↔ 9 ≤ later) := by decide
    exact ⟨below, all later below column at_⟩
  rcases nameOffset_cases slot with ⟨twenty, offset⟩ | ⟨other, offset⟩
  · simp only [Slot.overruns, part, twenty, Bool.true_and, beq_self_eq_true, List.any_eq_false,
      Bool.not_eq_true]
    constructor
    · intro within column late
      have inside : ∀ column ∈ [22, 24, 28, 30], column ∈ lfnLut := by decide
      rcases List.getElem?_of_mem (inside column late) with ⟨later, at_⟩
      have nine := (columns later column at_).2.mp late
      by_contra isStored
      have place := within _ (mem_storedPlaces.mpr
        ⟨later, column, at_, by simpa using isStored, rfl⟩)
      omega
    · intro blank place member
      rcases mem_storedPlaces.mp member with ⟨later, column, at_, isStored, same⟩
      by_contra behind
      have late := (columns later column at_).2.mpr (by omega)
      rw [blank column late] at isStored
      cases isStored
  · have quiet : slot.overruns = false := by simp [Slot.overruns, other]
    refine iff_of_true ?_ quiet
    intro place member
    rcases mem_storedPlaces.mp member with ⟨later, column, at_, _, same⟩
    have below := (columns later column at_).1
    omega

theorem isEntry_of_readStep {last : Reading} (step : readStep slot reading = .entry last) :
    slot.isEntry = true := by
  apply @isEntry_of_stops reading
  · rw [step]
    intro ended
    cases ended
  · rw [step]
    intro more next
    cases next

theorem passed_of_readStep {more : Reading} (step : readStep slot reading = .next more) :
    slot.byte 0 ≠ 0 ∧ slot.isEntry = false := by
  constructor
  · intro marked
    cases (readStep_marked marked).symm.trans step
  · by_contra entry
    rw [readStep_entry (by simpa using entry)] at step
    split at step
    · split at step <;> cases step
    · cases step

/-- What an entry that is passed does to the reading. -/
theorem readStep_next {more : Reading} (step : readStep slot reading = .next more) :
    more.lfnCrc = slot.checksum reading.lfnCrc ∧
      more.stores = reading.stores ++ (if slot.namePart then
        storedPlaces slot slot.nameOffset.toNat 0 lfnLut else []) ∧
      (reading.Counted → more.Counted) := by
  rw [readStep] at step
  by_cases marked : slot.byte 0 = 0x00
  · rw [if_pos marked] at step
    cases step
  rw [if_neg marked] at step
  by_cases used : slot.byte 0 ≠ 0xE5 ∧ slot.byte 0 ≠ 0x05
  · rw [if_pos used] at step
    by_cases long : slot.isLong = true
    · have part : slot.namePart = true := by simp [Slot.namePart, marked, used, long]
      rw [if_pos long] at step
      cases step
      rw [Slot.checksum, if_pos part, if_pos part]
      exact ⟨rfl, storeLongLoop_stores _ _ _, fun counted => counted.storeLongLoop _ _ _⟩
    · rw [if_neg long] at step
      split at step
      · split at step <;> cases step
      · cases step
  · have passed : slot.namePart = false := by
      simp only [not_and, not_not] at used
      by_cases deleted : slot.byte 0 = 0xE5
      · simp [Slot.namePart, deleted]
      · simp [Slot.namePart, used deleted]
    rw [if_neg used] at step
    cases step
    rw [Slot.checksum, passed, if_neg (by simp), if_neg (by simp), List.append_nil]
    exact ⟨rfl, rfl, id⟩

end Entry

/-! ## A call -/

theorem fatDirGetNext_returns (dir : Dir) (state : FatState) :
    ∃ moved after, (fatDirGetNext dir).run state = .ok moved after := by
  rw [fatDirGetNext, Exec.run_bind_of_ok (EStateM.run_get state)]
  dsimp only
  split
  · split
    · rcases fatTableGet_returns dir.cluster state with ⟨entry, after, get⟩
      rw [Exec.run_bind_of_ok get]
      cases entry with
      | none => exact ⟨_, _, rfl⟩
      | some newCluster =>
          dsimp only
          cases endOfChain newCluster <;> exact ⟨_, _, rfl⟩
    · exact ⟨_, _, rfl⟩
  · exact ⟨_, _, rfl⟩

/-- A call passes these entries: they are parts of long names or not in use. -/
inductive Passes : FatState → Dir → List Slot → FatState → Dir → Prop where
  | nil (state : FatState) (dir : Dir) : Passes state dir [] state dir
  | cons {state cached between later : FatState} {dir final : Dir} {moved : Bool × Dir}
      {slot : Slot} {slots : List Slot} : (fatRead dir.sector).run state = .ok true cached →
      Inside dir → slot = ⟨cached.volume.buffer, dir.rwOffset⟩ → slot.byte 0 ≠ 0 →
      slot.isEntry = false → (fatDirGetNext dir).run cached = .ok moved between →
      Passes between moved.2 slots later final → Passes state dir (slot :: slots) later final

/-- Having passed the entries, a call comes to an entry in use. -/
def ComesTo (state : FatState) (dir : Dir) (slots : List Slot) (slot : Slot) : Prop :=
  ∃ later final cached, Passes state dir slots later final ∧
    (fatRead final.sector).run later = .ok true cached ∧ Inside final ∧
    slot = ⟨cached.volume.buffer, final.rwOffset⟩ ∧ slot.isEntry = true

def Reading.pass (reading : Reading) (slot : Slot) : Reading :=
  match readStep slot reading with
  | .next more => more
  | _ => reading

/-- What a call has gathered once it has passed the entries. -/
def gather (reading : Reading) (slots : List Slot) : Reading := slots.foldl Reading.pass reading

/-- `lfn_crc` once the entries have been passed. -/
def checksumOf (slots : List Slot) : UInt8 :=
  slots.foldl (fun lfnCrc slot => slot.checksum lfnCrc) 0

/-- The checksum does not keep the call from returning the entry. -/
def Slot.reported (slot : Slot) (slots : List Slot) : Prop :=
  checksumOf slots = 0 ∨ checksumOf slots = fatGetSfnCrc slot

/-- How many characters are stored for an entry behind these. -/
def charsOf (slots : List Slot) : Nat :=
  (slots.map Slot.chars).sum + if checksumOf slots = 0 then 11 else 0

/-- A call stores within the name, however far it has come, and a name length that
it reports is the number of characters it stored. -/
structure StoresRight (state : FatState) (dir : Dir) (info : Info) : Prop where
  passing : ∀ slots later final, Passes state dir slots later final →
    ∀ place ∈ (gather ⟨0, 0, info.name, []⟩ slots).stores, place < 256
  returned : ∀ rounds result after, (fatDirRead rounds dir info).run state = .ok result after →
    (∀ place ∈ result.stores, place < 256) ∧
      (result.status = .ok → result.info.nameLength.toNat = result.stores.length)

section Call

variable {state later : FatState} {dir final : Dir} {slots : List Slot} {slot : Slot}
  {reading : Reading} {info : Info}

theorem readStep_pass (unmarked : slot.byte 0 ≠ 0) (passed : slot.isEntry = false) :
    readStep slot reading = .next (reading.pass slot) := by
  rcases @readStep_passed reading _ unmarked passed with ⟨more, step⟩
  rw [Reading.pass, step]

theorem run_dirReadLoop_pass {cached between : FatState} {moved : Bool × Dir}
    (read : (fatRead dir.sector).run state = .ok true cached) (inside : Inside dir)
    (same : slot = ⟨cached.volume.buffer, dir.rwOffset⟩) (unmarked : slot.byte 0 ≠ 0)
    (passed : slot.isEntry = false) (goes : (fatDirGetNext dir).run cached = .ok moved between)
    (rounds : Nat) : (dirReadLoop info (rounds + 1) dir reading).run state =
      (dirReadLoop info rounds moved.2 (reading.pass slot)).run between := by
  rw [dirReadLoop, Exec.run_bind_of_ok read, if_pos rfl,
    Exec.run_bind_of_ok (EStateM.run_get cached)]
  dsimp only
  have within : dir.rwOffset + 32 ≤ 512 := inside
  rw [if_pos within, ← same, readStep_pass unmarked passed]
  exact Exec.run_bind_of_ok goes

/-- The loop goes over the entries that are passed. -/
theorem Passes.run (passes : Passes state dir slots later final) (reading : Reading)
    (rounds : Nat) : (dirReadLoop info (rounds + slots.length) dir reading).run state =
      (dirReadLoop info rounds final (gather reading slots)).run later := by
  induction passes generalizing reading with
  | nil => rfl
  | cons read inside same unmarked passed goes _ induction =>
      rw [List.length_cons, ← Nat.add_assoc,
        run_dirReadLoop_pass read inside same unmarked passed goes]
      exact induction _

theorem ComesTo.run {last : Reading} (comes : ComesTo state dir slots slot)
    (step : readStep slot (gather reading slots) = .entry last) :
    ∃ rounds result after, (dirReadLoop info rounds dir reading).run state = .ok result after ∧
      result.status = .ok ∧ result.stores = last.stores ∧
      result.info.nameLength = last.nameLength := by
  rcases comes with ⟨later, final, cached, passes, read, inside, same, _⟩
  rcases fatDirGetNext_returns final cached with ⟨moved, after, goes⟩
  refine ⟨1 + slots.length, ⟨.ok, moved.2, slot.describe last, last.stores⟩, after, ?_, rfl, rfl,
    rfl⟩
  rw [passes.run reading 1, dirReadLoop, Exec.run_bind_of_ok read, if_pos rfl,
    Exec.run_bind_of_ok (EStateM.run_get cached)]
  dsimp only
  have within : final.rwOffset + 32 ≤ 512 := inside
  rw [if_pos within, ← same, step]
  exact Exec.run_bind_of_ok goes

/-- A call that returns has passed entries, and then reports one, or returns with
what it has gathered. -/
theorem dirReadLoop_returned {rounds : Nat} {result : DirReadResult} {after : FatState}
    (returns : (dirReadLoop info rounds dir reading).run state = .ok result after) :
    ∃ slots later final, Passes state dir slots later final ∧
      (result.status ≠ .ok ∧ result.stores = (gather reading slots).stores ∨
        ∃ slot last, ComesTo state dir slots slot ∧
          readStep slot (gather reading slots) = .entry last ∧ result.stores = last.stores ∧
          result.info.nameLength = last.nameLength) := by
  induction rounds generalizing state dir reading with
  | zero => cases returns
  | succ rounds induction =>
      rw [dirReadLoop] at returns
      rcases Exec.run_bind_ok.mp returns with ⟨isCached, cached, read, round⟩
      cases isCached with
      | false =>
          cases round
          exact ⟨[], state, dir, .nil state dir, .inl ⟨(by decide : FStatus.error ≠ .ok), rfl⟩⟩
      | true =>
          rw [if_pos rfl, Exec.run_bind_of_ok (EStateM.run_get cached)] at round
          by_cases inside : dir.rwOffset + 32 ≤ 512
          · rw [if_pos inside] at round
            generalize same : (⟨cached.volume.buffer, dir.rwOffset⟩ : Slot) = slot at round
            dsimp only at round
            cases step : readStep slot reading with
            | eof =>
                rw [step] at round
                cases round
                exact ⟨[], state, dir, .nil state dir,
                  .inl ⟨(by decide : FStatus.eof ≠ .ok), rfl⟩⟩
            | crcError =>
                rw [step] at round
                cases round
                exact ⟨[], state, dir, .nil state dir,
                  .inl ⟨(by decide : FStatus.error ≠ .ok), rfl⟩⟩
            | entry last =>
                rw [step] at round
                rcases Exec.run_bind_ok.mp round with ⟨moved, between, _, stops⟩
                cases stops
                refine ⟨[], state, dir, .nil state dir, .inr ⟨slot, last, ?_, step, rfl, rfl⟩⟩
                exact ⟨state, dir, cached, .nil state dir, read, inside, same.symm,
                  isEntry_of_readStep step⟩
            | next more =>
                rw [step] at round
                rcases Exec.run_bind_ok.mp round with ⟨moved, between, goes, rest⟩
                rcases passed_of_readStep step with ⟨unmarked, passed⟩
                have gathered : more = reading.pass slot := by rw [Reading.pass, step]
                subst gathered
                rcases induction rest with ⟨slots, later, final, passes, ends⟩
                refine ⟨slot :: slots, later, final,
                  .cons read inside same.symm unmarked passed goes passes, ends.imp id ?_⟩
                rintro ⟨found, last, comes, entry⟩
                rcases comes with ⟨later, final, loaded, walks, rest⟩
                exact ⟨found, last, ⟨later, final, loaded,
                  .cons read inside same.symm unmarked passed goes walks, rest⟩, entry⟩
          · rw [if_neg inside] at round
            cases round

/-- The places that are stored to for an entry that is passed. -/
def Slot.placed (slot : Slot) : List Nat :=
  if slot.namePart then storedPlaces slot slot.nameOffset.toNat 0 lfnLut else []

theorem Slot.length_placed (slot : Slot) : slot.placed.length = slot.chars := by
  rw [Slot.placed, Slot.chars]
  split
  · exact length_storedPlaces _ _ _
  · rfl

theorem Slot.placed_within_iff (slot : Slot) :
    (∀ place ∈ slot.placed, place < 256) ↔ slot.overruns = false := by
  rw [Slot.placed]
  cases part : slot.namePart with
  | true => exact storedPlaces_within_iff part
  | false => simp [Slot.overruns, part]

/-- A call that comes to the entry passes it. -/
def Slot.Passed (slot : Slot) : Prop := slot.byte 0 ≠ 0 ∧ slot.isEntry = false

theorem Passes.passed (passes : Passes state dir slots later final) :
    ∀ slot ∈ slots, slot.Passed := by
  induction passes with
  | nil => simp
  | cons _ _ _ unmarked passed _ _ induction =>
      exact List.forall_mem_cons.mpr ⟨⟨unmarked, passed⟩, induction⟩

theorem gather_eq (passed : ∀ slot ∈ slots, slot.Passed) (reading : Reading) :
    (gather reading slots).lfnCrc =
        slots.foldl (fun lfnCrc slot => slot.checksum lfnCrc) reading.lfnCrc ∧
      (gather reading slots).stores = reading.stores ++ slots.flatMap Slot.placed ∧
      (reading.Counted → (gather reading slots).Counted) := by
  induction slots generalizing reading with
  | nil => exact ⟨rfl, (List.append_nil _).symm, id⟩
  | cons slot slots induction =>
      have first := passed slot List.mem_cons_self
      rcases readStep_next (@readStep_pass slot reading first.1 first.2) with
        ⟨checksum, stores, counted⟩
      rcases induction (fun other member => passed other (List.mem_cons_of_mem _ member))
        (reading.pass slot) with ⟨rest, restStores, restCounted⟩
      refine ⟨?_, ?_, fun start => restCounted (counted start)⟩
      · rw [checksum] at rest
        exact rest
      · rw [stores] at restStores
        exact restStores.trans (List.append_assoc _ _ _)

theorem gathered (passed : ∀ slot ∈ slots, slot.Passed) (info : Info) :
    (gather ⟨0, 0, info.name, []⟩ slots).lfnCrc = checksumOf slots ∧
      (gather ⟨0, 0, info.name, []⟩ slots).stores = slots.flatMap Slot.placed ∧
      (gather ⟨0, 0, info.name, []⟩ slots).Counted := by
  rcases gather_eq passed ⟨0, 0, info.name, []⟩ with ⟨checksum, stores, counted⟩
  exact ⟨checksum, stores, counted rfl⟩

theorem within_iff (slots : List Slot) : (∀ place ∈ slots.flatMap Slot.placed, place < 256) ↔
    ∀ slot ∈ slots, slot.overruns = false := by
  constructor
  · intro within slot member
    refine slot.placed_within_iff.mp ?_
    intro place stored
    exact within place (List.mem_flatMap.mpr ⟨slot, member, stored⟩)
  · intro quiet place member
    rcases List.mem_flatMap.mp member with ⟨slot, among, stored⟩
    exact slot.placed_within_iff.mpr (quiet slot among) place stored

theorem length_placed_all (slots : List Slot) :
    (slots.flatMap Slot.placed).length = (slots.map Slot.chars).sum := by
  rw [List.length_flatMap]
  exact congrArg List.sum (List.map_congr_left fun slot _ => slot.length_placed)

/-- The entry that is reported, with what has been stored for it. -/
theorem reported_spec (passed : ∀ slot ∈ slots, slot.Passed) (entry : slot.isEntry = true)
    (reported : slot.reported slots) (info : Info) :
    ∃ last, readStep slot (gather ⟨0, 0, info.name, []⟩ slots) = .entry last ∧ last.Counted ∧
      last.stores.length = charsOf slots ∧
      ((∀ slot ∈ slots, slot.overruns = false) → ∀ place ∈ last.stores, place < 256) := by
  rcases gathered passed info with ⟨checksum, stores, counted⟩
  have step := @readStep_entry (gather ⟨0, 0, info.name, []⟩ slots) slot entry
  rw [checksum] at step
  by_cases zero : checksumOf slots = 0
  · rw [if_neg (not_not.mpr zero)] at step
    refine ⟨_, step, counted.storeShort, ?_, ?_⟩
    · rw [storeShort_stores, stores, List.length_append, length_placed_all, charsOf, if_pos zero,
        List.length_range]
    · intro quiet place member
      rw [storeShort_stores, stores, List.mem_append] at member
      rcases member with passed | short
      · exact (within_iff slots).mpr quiet place passed
      · have below := List.mem_range.mp short
        omega
  · rw [if_pos zero, if_neg (not_not.mpr (reported.resolve_left zero))] at step
    refine ⟨_, step, counted, ?_, ?_⟩
    · rw [stores, length_placed_all, charsOf, if_neg zero, Nat.add_zero]
    · rw [stores]
      exact (within_iff slots).mpr

theorem reported_of_readStep {last : Reading} (passed : ∀ slot ∈ slots, slot.Passed)
    (entry : slot.isEntry = true)
    (step : readStep slot (gather ⟨0, 0, info.name, []⟩ slots) = .entry last) :
    slot.reported slots := by
  rw [readStep_entry entry, (gathered passed info).1] at step
  by_cases zero : checksumOf slots = 0
  · exact .inl zero
  · by_cases fits : checksumOf slots = fatGetSfnCrc slot
    · exact .inr fits
    · rw [if_pos zero, if_pos fits] at step
      cases step

theorem Reading.Counted.length_iff (counted : reading.Counted) :
    reading.nameLength.toNat = reading.stores.length ↔ reading.stores.length < 256 := by
  rw [counted, UInt8.toNat_ofNat']
  constructor
  · intro same
    have below := Nat.mod_lt reading.stores.length (by decide : 0 < 2 ^ 8)
    omega
  · exact Nat.mod_eq_of_lt

end Call

/-- A call of `fat_dir_read` stores within the name and reports the number of
characters that it stored, exactly if it passes no part with sequence number 20
that has more than nine characters, and the entry it reports has fewer than 256
characters with all the parts that were passed. -/
theorem fat_dir_read_stores_right_iff (state : FatState) (dir : Dir) (info : Info) :
    StoresRight state dir info ↔
      (∀ slots later final, Passes state dir slots later final →
        ∀ slot ∈ slots, slot.overruns = false) ∧
      ∀ slots slot, ComesTo state dir slots slot → slot.reported slots → charsOf slots < 256 := by
  constructor
  · intro right
    refine ⟨?_, ?_⟩
    · intro slots later final passes
      have within := right.passing slots later final passes
      rw [(gathered passes.passed info).2.1] at within
      exact (within_iff slots).mp within
    · intro slots slot comes reported
      have whole := comes
      rcases whole with ⟨later, final, cached, passes, _, _, _, entry⟩
      rcases reported_spec passes.passed entry reported info with ⟨last, step, counted, length, _⟩
      rcases comes.run step with ⟨rounds, result, after, returns, ok, stores, reports⟩
      have same := (right.returned rounds result after returns).2 ok
      rw [stores, reports] at same
      exact length ▸ counted.length_iff.mp same
  · rintro ⟨quiet, short⟩
    constructor
    · intro slots later final passes
      rw [(gathered passes.passed info).2.1]
      exact (within_iff slots).mpr (quiet slots later final passes)
    · intro rounds result after returns
      rcases dirReadLoop_returned returns with ⟨slots, later, final, passes, ends⟩
      rcases ends with ⟨notOk, stores⟩ | ⟨slot, last, comes, step, stores, reports⟩
      · refine ⟨?_, fun ok => absurd ok notOk⟩
        rw [stores, (gathered passes.passed info).2.1]
        exact (within_iff slots).mpr (quiet slots later final passes)
      · have whole := comes
        rcases whole with ⟨_, _, _, walks, _, _, _, entry⟩
        have reported := reported_of_readStep walks.passed entry step
        rcases reported_spec walks.passed entry reported info with
          ⟨other, sameStep, counted, length, within⟩
        cases step.symm.trans sameStep
        rw [stores, reports]
        refine ⟨within (quiet _ _ _ walks), fun _ => counted.length_iff.mpr ?_⟩
        rw [length]
        exact short slots slot comes reported

/-! ### A directory full of part 20 -/

/-- A volume on a disk of which every sector begins with a part of a long name with
sequence number 20. -/
def farNameVolume : FatState :=
  { blankVolume with
    device := { blankVolume.device with
      sector := fun _ => (Vector.replicate 512 0x54).set 11 0x0F } }

/-- The tenth character of that part is stored behind the name. -/
theorem far_name_stores_outside :
    ¬ StoresRight farNameVolume (rootDir farNameVolume.volume.toGeometry)
      ⟨fun _ => 0, 0, 0, 0, 0, 0, 0, 0, 0, 0⟩ := by
  intro right
  have passes : ∃ slot later final, Passes farNameVolume
      (rootDir farNameVolume.volume.toGeometry) [slot] later final ∧
      256 ∈ (gather ⟨0, 0, fun _ => 0, []⟩ [slot]).stores :=
    ⟨_, _, _, .cons rfl (by decide) rfl (by decide) (by decide) rfl (.nil _ _), by decide⟩
  rcases passes with ⟨slot, later, final, passes, member⟩
  exact absurd (right.passing _ _ _ passes 256 member) (by decide)

end Vanilla.Disk
