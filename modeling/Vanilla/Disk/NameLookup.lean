import Vanilla.Disk.LongName

namespace Vanilla.Disk

/-! Looking a name up with `fat_dir_search`, in a directory whose entries are
known. -/

/-- The search still takes the long name for the one it looks for. -/
def Slot.keeps (slot : Slot) (name : List UInt8) (size : Nat) : Bool :=
  !slot.namePart || fatDirLfnCmp slot name size

/-! ## One entry -/

section Entry

variable {name : List UInt8} {size : Nat} {lfnCrc : UInt8} {lfnMatch : Bool} {slot : Slot}

theorem searchStep_passed (passed : slot.Passed) :
    searchStep slot name size lfnCrc lfnMatch =
      .next (slot.checksum lfnCrc) (lfnMatch && slot.keeps name size) := by
  rcases passed with ⟨unmarked, notEntry⟩
  rw [searchStep, Slot.checksum, Slot.keeps]
  by_cases unused : slot.byte 0 = 0x05 ∨ slot.byte 0 = 0xE5
  · have quiet : slot.namePart = false := by
      rcases unused with unused | unused <;> simp [Slot.namePart, unused]
    rw [if_pos unused, quiet, if_neg (by simp)]
    simp
  · rw [not_or] at unused
    have long : slot.isLong = true := by
      simpa [Slot.isEntry, unmarked, unused.1, unused.2] using notEntry
    have part : slot.namePart = true := by
      simp [Slot.namePart, unmarked, unused.1, unused.2, long]
    rw [if_neg (not_or.mpr unused), if_pos long, part, if_pos rfl]
    simp

theorem searchStep_entry (entry : slot.isEntry = true) :
    searchStep slot name size lfnCrc lfnMatch =
      if lfnCrc ≠ 0 ∧ lfnMatch = true then
        if lfnCrc = fatGetSfnCrc slot then .found else .next 0 true
      else
        match fatDirSfnCmp slot name size with
        | some true => .found
        | some false => .next 0 true
        | none => .outside := by
  simp only [Slot.isEntry, bne_iff_ne, Bool.and_eq_true, Bool.not_eq_true', ne_eq] at entry
  rcases entry with ⟨⟨⟨_, notDeleted⟩, notFive⟩, short⟩
  rw [searchStep, if_neg (not_or.mpr ⟨notFive, notDeleted⟩)]
  exact if_neg (by simp [short])

theorem sfnCmpLoop_inside {buffer : Sector} {offset : Nat} (inside : offset + size ≤ 512) :
    ∃ same, sfnCmpLoop buffer offset name size = some same := by
  induction size generalizing offset name with
  | zero => exact ⟨true, rfl⟩
  | succ size induction =>
      rw [sfnCmpLoop, if_pos (by omega)]
      split
      · exact induction (by omega)
      · exact ⟨false, rfl⟩

/-- With a size of 1 to 255, the short comparison stays in the entry. -/
theorem fatDirSfnCmp_inside (inside : slot.offset + 32 ≤ 512) (some_ : size % 2 ^ 8 ≠ 0) :
    ∃ same, fatDirSfnCmp slot name size = some same := by
  rw [fatDirSfnCmp]
  apply sfnCmpLoop_inside
  by_cases large : 8 < size % 2 ^ 8
  · rw [if_pos large, if_neg (by decide)]
    omega
  · rw [if_neg large, if_neg some_]
    omega

/-- A part whose characters are those of the name is taken for it. -/
theorem lfnCmpLoop_of_chars {nameOff : Nat} {columns : List Nat}
    (chars : ∀ later column, columns[later]? = some column → slot.stored column = true →
      nameOff + later < size ∧ slot.byte column = name.getD (nameOff + later) 0) :
    lfnCmpLoop slot name size nameOff columns = true := by
  induction columns generalizing nameOff with
  | nil => rfl
  | cons column columns induction =>
      rw [lfnCmpLoop]
      by_cases blank : slot.byte column = 0x00 ∨ slot.byte column = 0xFF
      · rw [if_pos blank]
      · have isStored : slot.stored column = true := by
          simpa [Slot.stored, not_or] using blank
        rcases chars 0 column rfl isStored with ⟨inside, same⟩
        rw [Nat.add_zero] at inside same
        rw [if_neg blank, if_neg (Nat.not_le.mpr inside), if_neg (not_not.mpr same)]
        apply induction
        intro later other at_ otherStored
        have shifted := chars (later + 1) other at_ otherStored
        rw [Nat.add_assoc, Nat.add_comm 1]
        exact shifted

end Entry

/-! ## The entry that a search stops at -/

section Stop

variable {name : List UInt8} {size : Nat} {lfnCrc : UInt8} {lfnMatch : Bool} {slot : Slot}
  {slots first rest : List Slot} {geometry : Geometry} {sectors : Nat → Sector} {dir : Dir}
  {state : FatState}

theorem StopsAt.append (stops : StopsAt name size lfnCrc lfnMatch slots slot)
    (rest : List Slot) : StopsAt name size lfnCrc lfnMatch (slots ++ rest) slot := by
  induction stops with
  | found accepted => exact .found accepted
  | next passed _ induction => exact .next passed induction

theorem StopsAt.split (stops : StopsAt name size lfnCrc lfnMatch slots slot) :
    ∃ before rest, slots = (before ++ [slot]) ++ rest ∧
      StopsAt name size lfnCrc lfnMatch (before ++ [slot]) slot := by
  induction stops with
  | @found _ _ slot slots accepted => exact ⟨[], slots, rfl, .found accepted⟩
  | @next _ _ _ _ slot _ _ passed _ induction =>
      rcases induction with ⟨before, rest, split, stops⟩
      exact ⟨slot :: before, rest, congrArg _ split, .next passed stops⟩

theorem Entries.prefix_of (entries : Entries geometry sectors dir first)
    (listing : Listing geometry sectors dir slots) : ∃ rest, slots = first ++ rest := by
  induction entries generalizing slots with
  | one used =>
      cases listing with
      | marked mark => exact absurd mark used.unmarked
      | last _ _ => exact ⟨[], rfl⟩
      | @cons _ slots _ _ _ => exact ⟨slots, rfl⟩
  | cons used moves _ induction =>
      cases listing with
      | marked mark => exact absurd mark used.unmarked
      | last _ ends => cases ends.symm.trans moves
      | cons _ _ later =>
          rcases induction later with ⟨rest, split⟩
          exact ⟨rest, congrArg _ split⟩

theorem Listing.entries (listing : Listing geometry sectors dir slots)
    (split : slots = first ++ rest) (some_ : first ≠ []) :
    Entries geometry sectors dir first := by
  induction listing generalizing first with
  | marked => exact absurd (List.append_eq_nil_iff.mp split.symm).1 some_
  | last used _ =>
      cases first with
      | nil => exact absurd rfl some_
      | cons slot first =>
          cases first with
          | nil =>
              cases split
              exact .one used
          | cons => simp at split
  | cons used moves _ induction =>
      cases first with
      | nil => exact absurd rfl some_
      | cons slot first =>
          cases first with
          | nil =>
              cases split
              exact .one used
          | cons second first =>
              rw [List.cons_append] at split
              rcases List.cons.inj split with ⟨rfl, later⟩
              exact .cons used moves (induction later (List.cons_ne_nil _ _))

theorem Listing.inside (listing : Listing geometry sectors dir slots) :
    ∀ slot ∈ slots, slot.offset + 32 ≤ 512 ∧ slot.byte 0 ≠ 0 := by
  induction listing with
  | marked => simp
  | last used _ =>
      intro slot member
      rw [List.mem_singleton.mp member]
      exact ⟨used.inside, used.unmarked⟩
  | cons used _ _ induction =>
      exact List.forall_mem_cons.mpr ⟨⟨used.inside, used.unmarked⟩, induction⟩

/-- On a device that answers, a search returns `1` for the entry that its
comparisons stop at. -/
theorem fatDirSearch_stops_iff (working : Working geometry sectors state)
    (real : state.volume.buffer = sectors state.volume.bufferLba ∨ dir.startSect ≠ 0)
    (opened : Dir) :
    (∃ rounds after, (fatDirSearch rounds dir name size).run state = .ok (true, opened) after) ↔
      ∃ slots slot, Entries geometry sectors (dir.rewound geometry) slots ∧
        StopsAt name size 0 true slots slot ∧ opened = slot.opened geometry := by
  have placed := real.imp id (dir.rewound_sector geometry).trans_ne
  constructor
  · rintro ⟨rounds, after, returns⟩
    rw [run_fatDirSearch, working.geometry] at returns
    rcases searchLoop_inv working placed returns with ⟨_, found | stuck⟩
    · exact found.2
    · cases stuck.1
  · rintro ⟨slots, slot, entries, stops, rfl⟩
    rcases run_searchLoop working placed entries stops with ⟨after, _, runs⟩
    refine ⟨slots.length, after, ?_⟩
    rw [run_fatDirSearch, working.geometry]
    exact runs _ (Nat.le_refl _)

/-- In a directory whose entries are known, these are all there are to stop at. -/
theorem fatDirSearch_returns_iff (working : Working geometry sectors state)
    (real : state.volume.buffer = sectors state.volume.bufferLba ∨ dir.startSect ≠ 0)
    (listing : Listing geometry sectors (dir.rewound geometry) slots) (opened : Dir) :
    (∃ rounds after, (fatDirSearch rounds dir name size).run state = .ok (true, opened) after) ↔
      ∃ slot, StopsAt name size 0 true slots slot ∧ opened = slot.opened geometry := by
  rw [fatDirSearch_stops_iff working real]
  constructor
  · rintro ⟨first, slot, entries, stops, same⟩
    rcases entries.prefix_of listing with ⟨rest, split⟩
    rw [split]
    exact ⟨slot, stops.append rest, same⟩
  · rintro ⟨slot, stops, same⟩
    rcases stops.split with ⟨before, rest, split, stops⟩
    have entries := listing.entries split (List.append_ne_nil_of_right_ne_nil _ (by simp))
    exact ⟨before ++ [slot], slot, entries, stops, same⟩

/-- Entries that are passed set the two flags of the search. -/
theorem stopsAt_passed_iff (passed : ∀ slot ∈ first, slot.Passed) :
    StopsAt name size lfnCrc lfnMatch (first ++ rest) slot ↔
      StopsAt name size (first.foldl (fun lfnCrc slot => slot.checksum lfnCrc) lfnCrc)
        (lfnMatch && first.all fun slot => slot.keeps name size) rest slot := by
  induction first generalizing lfnCrc lfnMatch with
  | nil => simp
  | cons here first induction =>
      rcases List.forall_mem_cons.mp passed with ⟨passes, others⟩
      have step : searchStep here name size lfnCrc lfnMatch = _ := searchStep_passed passes
      rw [List.foldl_cons, List.all_cons, ← Bool.and_assoc, ← induction others]
      constructor
      · intro stops
        cases stops with
        | found accepted => cases step.symm.trans accepted
        | next passed later =>
            cases step.symm.trans passed
            exact later
      · exact .next step

theorem stopsAt_cons_iff (entry : slot.isEntry = true) (inside : slot.offset + 32 ≤ 512)
    (some_ : size % 2 ^ 8 ≠ 0) :
    (∃ stop, StopsAt name size lfnCrc lfnMatch (slot :: slots) stop) ↔
      (if lfnCrc ≠ 0 ∧ lfnMatch = true then lfnCrc = fatGetSfnCrc slot
        else fatDirSfnCmp slot name size = some true) ∨
      ∃ stop, StopsAt name size 0 true slots stop := by
  have step := @searchStep_entry name size lfnCrc lfnMatch slot entry
  have outcome : searchStep slot name size lfnCrc lfnMatch = .found ∧
      (if lfnCrc ≠ 0 ∧ lfnMatch = true then lfnCrc = fatGetSfnCrc slot
        else fatDirSfnCmp slot name size = some true) ∨
      searchStep slot name size lfnCrc lfnMatch = .next 0 true ∧
      ¬ (if lfnCrc ≠ 0 ∧ lfnMatch = true then lfnCrc = fatGetSfnCrc slot
        else fatDirSfnCmp slot name size = some true) := by
    rw [step]
    by_cases long : lfnCrc ≠ 0 ∧ lfnMatch = true
    · rw [if_pos long, if_pos long]
      by_cases fits : lfnCrc = fatGetSfnCrc slot
      · exact .inl ⟨if_pos fits, fits⟩
      · exact .inr ⟨if_neg fits, fits⟩
    · rw [if_neg long, if_neg long]
      rcases @fatDirSfnCmp_inside name size slot inside some_ with ⟨same, compares⟩
      rw [compares]
      cases same with
      | true => exact .inl ⟨rfl, rfl⟩
      | false => exact .inr ⟨rfl, by simp⟩
  rcases outcome with ⟨found, accepted⟩ | ⟨passed, refused⟩
  · exact iff_of_true ⟨slot, .found found⟩ (.inl accepted)
  · constructor
    · rintro ⟨stop, stops⟩
      cases stops with
      | found accepted => cases passed.symm.trans accepted
      | next goesOn later =>
          cases passed.symm.trans goesOn
          exact .inr ⟨stop, later⟩
    · rintro (accepted | ⟨stop, later⟩)
      · exact absurd accepted refused
      · exact ⟨stop, .next passed later⟩

end Stop

/-! ## Well-formed directories -/

/-- The entries of a directory, taken together: each entry in use has the entries of
its long name in front of it. Between them there may be entries not in use. -/
inductive Grouped : List Slot → List (List Slot × Slot) → Prop where
  | nil : Grouped [] []
  | unused {slot : Slot} {slots : List Slot} {groups : List (List Slot × Slot)} :
      slot.byte 0 = 0xE5 ∨ slot.byte 0 = 0x05 → Grouped slots groups →
      Grouped (slot :: slots) groups
  | group {longs slots : List Slot} {short : Slot} {groups : List (List Slot × Slot)} :
      longs.length ≤ 20 → Descending longs.length (fatGetSfnCrc short) longs.length longs →
      short.isEntry = true → Grouped slots groups →
      Grouped (longs ++ short :: slots) ((longs, short) :: groups)

/-- The comparisons of the search accept the entry: its parts are taken for the name,
and the checksum shows that there are parts, or the 8.3 name is taken for it. -/
def Accepts (name : List UInt8) (size : Nat) (group : List Slot × Slot) : Prop :=
  (group.1 ≠ [] ∧ fatGetSfnCrc group.2 ≠ 0 ∧ ∀ long ∈ group.1, long.keeps name size = true) ∨
    fatDirSfnCmp group.2 name size = some true

section Groups

variable {name : List UInt8} {size : Nat} {slots : List Slot}
  {groups : List (List Slot × Slot)}

/-- The search stops in a well-formed directory if it accepts one of the entries. -/
theorem stopsAt_grouped_iff (grouped : Grouped slots groups)
    (inside : ∀ slot ∈ slots, slot.offset + 32 ≤ 512 ∧ slot.byte 0 ≠ 0)
    (some_ : size % 2 ^ 8 ≠ 0) :
    (∃ stop, StopsAt name size 0 true slots stop) ↔ ∃ group ∈ groups, Accepts name size group := by
  induction grouped with
  | nil =>
      constructor
      · rintro ⟨stop, stops⟩
        cases stops
      · rintro ⟨group, member, _⟩
        cases member
  | @unused slot slots groups unused _ induction =>
      rcases List.forall_mem_cons.mp inside with ⟨⟨_, unmarked⟩, others⟩
      have quiet : slot.namePart = false ∧ slot.isEntry = false := by
        rcases unused with unused | unused <;> simp [Slot.namePart, Slot.isEntry, unused]
      rw [← induction others]
      refine exists_congr fun stop => ?_
      have passes : ∀ other ∈ [slot], other.Passed :=
        List.forall_mem_singleton.mpr ⟨unmarked, quiet.2⟩
      have flags := @stopsAt_passed_iff name size 0 true stop [slot] slots passes
      simpa [Slot.checksum, Slot.keeps, quiet.1] using flags
  | @group longs slots short groups few descending entry _ induction =>
      have bound := Nat.le_refl longs.length
      have place := inside short (by simp)
      have others : ∀ slot ∈ slots, slot.offset + 32 ≤ 512 ∧ slot.byte 0 ≠ 0 :=
        fun slot member => inside slot (by simp [member])
      have flags := fun stop => @stopsAt_passed_iff name size 0 true stop longs (short :: slots)
        (descending.passed few bound)
      rw [exists_congr flags, stopsAt_cons_iff entry place.1 some_, induction others,
        List.exists_mem_cons_iff]
      refine or_congr ?_ Iff.rfl
      rw [descending.checksum few bound, Bool.true_and, Accepts]
      by_cases empty : longs = []
      · simp [empty]
      · have count : longs.length ≠ 0 := fun none_ => empty (List.eq_nil_of_length_eq_zero none_)
        rw [if_neg count]
        by_cases long : fatGetSfnCrc short ≠ 0 ∧
            longs.all (fun slot => slot.keeps name size) = true
        · rw [if_pos long]
          exact iff_of_true rfl (.inl ⟨empty, long.1, List.all_eq_true.mp long.2⟩)
        · rw [if_neg long]
          refine (or_iff_right ?_).symm
          exact fun accepted => long ⟨accepted.2.1, List.all_eq_true.mpr accepted.2.2⟩

end Groups

/-! ## Looking up a long name -/

section Lookup

variable {name : LongName} {lfnCrc : UInt8} {sequence : Nat} {slot : Slot} {slots : List Slot}

/-- The place in the name that the comparison of a part begins with. -/
theorem HoldsPart.compared_from (holds : HoldsPart name lfnCrc sequence slot)
    (some_ : 0 < sequence) (bound : sequence ≤ name.parts) :
    (13 * ((slot.byte 0 &&& 0x1F) - 1)).toNat = 13 * (sequence - 1) := by
  have all : ∀ sequence ≤ 20, 0 < sequence →
      (13 * (UInt8.ofNat sequence - 1)).toNat = 13 * (sequence - 1) := by decide
  rw [(holds.first_byte name.parts_le some_ bound).2.2.2]
  exact all sequence (bound.trans name.parts_le) some_

/-- A part of a long name is taken for every name that begins with that one. -/
theorem HoldsPart.keeps (holds : HoldsPart name lfnCrc sequence slot) (some_ : 0 < sequence)
    (bound : sequence ≤ name.parts) {longer : List UInt8} (begins : name.chars <+: longer) :
    slot.keeps longer longer.length = true := by
  have compares : fatDirLfnCmp slot longer longer.length = true := by
    rw [fatDirLfnCmp]
    apply lfnCmpLoop_of_chars
    intro later column at_ isStored
    have inside := (holds.stored_iff at_).mp isStored
    rw [holds.compared_from some_ bound]
    refine ⟨inside.trans_le begins.length_le, ?_⟩
    rcases begins with ⟨rest, rfl⟩
    rw [holds.chars later column at_, LongName.unit, if_pos inside,
      List.getD_append _ _ _ _ inside]
  rw [Slot.keeps, compares, Bool.or_true]

theorem LongName.Encoded.keeps {part : Nat} (encoded : name.Encoded lfnCrc part slots)
    (bound : part ≤ name.parts) {longer : List UInt8} (begins : name.chars <+: longer) :
    ∀ slot ∈ slots, slot.keeps longer longer.length = true := by
  induction encoded with
  | nil => simp
  | cons holds _ induction =>
      exact List.forall_mem_cons.mpr
        ⟨holds.keeps (Nat.succ_pos _) bound begins, induction (Nat.le_of_succ_le bound)⟩

theorem LongName.parts_pos (name : LongName) : 0 < name.parts := by
  have positive := List.length_pos_iff.mpr name.nonempty
  rw [LongName.parts]
  omega

/-- The long name of an entry itself is accepted, unless the checksum is zero and the
8.3 name is not taken for it. -/
theorem accepts_own_iff {longs : List Slot} {short : Slot}
    (encoded : name.Encoded (fatGetSfnCrc short) name.parts longs) :
    Accepts name.chars name.chars.length (longs, short) ↔
      fatGetSfnCrc short ≠ 0 ∨ fatDirSfnCmp short name.chars name.chars.length = some true := by
  have some_ : longs ≠ [] := by
    have positive := name.parts_pos
    rintro rfl
    generalize name.parts = part at encoded positive
    cases encoded
    exact Nat.lt_irrefl 0 positive
  have keeps := encoded.keeps (Nat.le_refl _) (List.prefix_refl _)
  exact or_congr_left ⟨fun own => own.2.1, fun own => ⟨some_, own, keeps⟩⟩

end Lookup

/-- In a well-formed directory, looking up the long name of one of its entries finds
something exactly if the checksum of the entry is not zero, or its 8.3 name is taken
for the name, or another entry is accepted for it. -/
theorem long_name_lookup_iff {geometry : Geometry} {sectors : Nat → Sector} {state : FatState}
    {dir : Dir} (working : Working geometry sectors state)
    (real : state.volume.buffer = sectors state.volume.bufferLba ∨ dir.startSect ≠ 0)
    {slots longs : List Slot} {short : Slot} {before behind : List (List Slot × Slot)}
    (listing : Listing geometry sectors (dir.rewound geometry) slots)
    (grouped : Grouped slots (before ++ (longs, short) :: behind)) (name : LongName)
    (encoded : name.Encoded (fatGetSfnCrc short) name.parts longs) :
    (∃ rounds opened after, (fatDirSearch rounds dir name.chars name.chars.length).run state =
      .ok (true, opened) after) ↔
    fatGetSfnCrc short ≠ 0 ∨ fatDirSfnCmp short name.chars name.chars.length = some true ∨
      ∃ group ∈ before ++ behind, Accepts name.chars name.chars.length group := by
  have size : name.chars.length % 2 ^ 8 ≠ 0 := by
    have positive := List.length_pos_iff.mpr name.nonempty
    have bounded := name.bounded
    omega
  have finds : (∃ rounds opened after,
      (fatDirSearch rounds dir name.chars name.chars.length).run state =
        .ok (true, opened) after) ↔
      ∃ stop, StopsAt name.chars name.chars.length 0 true slots stop := by
    constructor
    · rintro ⟨rounds, opened, after, returns⟩
      rcases (fatDirSearch_returns_iff working real listing opened).mp
        ⟨rounds, after, returns⟩ with ⟨stop, stops, _⟩
      exact ⟨stop, stops⟩
    · rintro ⟨stop, stops⟩
      rcases (fatDirSearch_returns_iff working real listing _).mpr ⟨stop, stops, rfl⟩ with
        ⟨rounds, after, returns⟩
      exact ⟨rounds, _, after, returns⟩
  rw [finds, stopsAt_grouped_iff grouped listing.inside size, ← or_assoc,
    ← accepts_own_iff encoded]
  constructor
  · rintro ⟨group, member, accepted⟩
    rcases List.mem_append.mp member with first | later
    · exact .inr ⟨group, List.mem_append_left _ first, accepted⟩
    · rcases List.mem_cons.mp later with rfl | later
      · exact .inl accepted
      · exact .inr ⟨group, List.mem_append_right _ later, accepted⟩
  · rintro (own | ⟨group, member, accepted⟩)
    · exact ⟨_, List.mem_append_right _ List.mem_cons_self, own⟩
    · rcases List.mem_append.mp member with first | later
      · exact ⟨group, List.mem_append_left _ first, accepted⟩
      · exact ⟨group, List.mem_append_right _ (List.mem_cons_of_mem _ later), accepted⟩

/-! ### The two names again -/

section Named

variable {alias_ : List UInt8} {lfnCrc : UInt8}

theorem named_listing (plain : namedByte alias_ lfnCrc 32 ≠ 0)
    (ends : namedByte alias_ lfnCrc 64 = 0) :
    Listing (namedVolume alias_ lfnCrc).volume.toGeometry (namedVolume alias_ lfnCrc).logical
      ((rootDir (namedVolume alias_ lfnCrc).volume.toGeometry).rewound
        (namedVolume alias_ lfnCrc).volume.toGeometry)
      [longSlot alias_ lfnCrc, shortSlot alias_ lfnCrc] := by
  have mark : (namedSector alias_ lfnCrc).load8 64 = 0 :=
    (namedSector_load8 (by decide)).trans ends
  exact .cons ⟨(by decide : 0 + 32 ≤ 512), longSlot_unmarked⟩ rfl
    (.cons ⟨(by decide : 32 + 32 ≤ 512), shortSlot_unmarked plain⟩ rfl (.marked mark))

theorem named_grouped (checksum : fatGetSfnCrc (shortSlot alias_ lfnCrc) = lfnCrc)
    (entry : (shortSlot alias_ lfnCrc).isEntry = true) :
    Grouped [longSlot alias_ lfnCrc, shortSlot alias_ lfnCrc]
      [([longSlot alias_ lfnCrc], shortSlot alias_ lfnCrc)] := by
  have descending : Descending 1 (fatGetSfnCrc (shortSlot alias_ lfnCrc)) 1
      [longSlot alias_ lfnCrc] := by
    rw [checksum]
    exact .cons nameA_holdsPart.toLongEntry .nil
  exact @Grouped.group [longSlot alias_ lfnCrc] [] (shortSlot alias_ lfnCrc) []
    (by decide : 1 ≤ 20) descending entry .nil

end Named

theorem long_name_lookup_iff_nameA :
    (∃ rounds opened after,
      (fatDirSearch rounds (rootDir (namedVolume aliasA 0x80).volume.toGeometry) nameA.chars
        nameA.chars.length).run (namedVolume aliasA 0x80) = .ok (true, opened) after) ↔
    fatGetSfnCrc (shortSlot aliasA 0x80) ≠ 0 ∨
      fatDirSfnCmp (shortSlot aliasA 0x80) nameA.chars nameA.chars.length = some true ∨
      ∃ group ∈ [] ++ [], Accepts nameA.chars nameA.chars.length group := by
  have checksum : fatGetSfnCrc (shortSlot aliasA 0x80) = 0x80 := shortSlot_crc.trans rfl
  exact long_name_lookup_iff named_working (.inr (by decide))
    (named_listing (by decide) (by decide))
    (named_grouped checksum (shortSlot_isEntry (.inl rfl) rfl)) nameA
    (by rw [checksum]; exact nameA_encoded)

/-- In front of an alias with checksum zero, the long name is not found. -/
theorem zero_checksum_name_is_not_found :
    nameA.Encoded (fatGetSfnCrc (shortSlot aliasBBP 0)) nameA.parts [longSlot aliasBBP 0] ∧
      Listing (namedVolume aliasBBP 0).volume.toGeometry (namedVolume aliasBBP 0).logical
        ((rootDir (namedVolume aliasBBP 0).volume.toGeometry).rewound
          (namedVolume aliasBBP 0).volume.toGeometry)
        [longSlot aliasBBP 0, shortSlot aliasBBP 0] ∧
      Grouped [longSlot aliasBBP 0, shortSlot aliasBBP 0]
        [([longSlot aliasBBP 0], shortSlot aliasBBP 0)] ∧
      ¬ ∃ rounds opened after,
        (fatDirSearch rounds (rootDir (namedVolume aliasBBP 0).volume.toGeometry) nameA.chars
          nameA.chars.length).run (namedVolume aliasBBP 0) = .ok (true, opened) after := by
  have checksum : fatGetSfnCrc (shortSlot aliasBBP 0) = 0 := shortSlot_crc.trans rfl
  have encoded : nameA.Encoded (fatGetSfnCrc (shortSlot aliasBBP 0)) nameA.parts
      [longSlot aliasBBP 0] := by
    rw [checksum]
    exact nameA_encoded
  have listing := @named_listing aliasBBP 0 (by decide) (by decide)
  have grouped := @named_grouped aliasBBP 0 checksum (shortSlot_isEntry (.inr rfl) rfl)
  refine ⟨encoded, listing, grouped, ?_⟩
  rintro ⟨rounds, opened, after, returns⟩
  rcases (fatDirSearch_returns_iff named_working (.inr (by decide)) listing opened).mp
    ⟨rounds, after, returns⟩ with ⟨stop, stops, _⟩
  rcases (stopsAt_grouped_iff grouped listing.inside (by decide)).mp ⟨stop, stops⟩ with
    ⟨group, member, accepted⟩
  rw [List.mem_singleton.mp member, accepts_own_iff encoded] at accepted
  rcases accepted with some_ | same
  · exact some_ checksum
  · have first : (shortSlot aliasBBP 0).buffer.load8 32 = 0x42 :=
      namedSector_load8 (by decide)
    have refused : fatDirSfnCmp (shortSlot aliasBBP 0) nameA.chars nameA.chars.length =
        some false := by
      change sfnCmpLoop _ 32 [0x61] 1 = _
      rw [sfnCmpLoop, if_pos (by decide), first]
      rfl
    cases refused.symm.trans same

end Vanilla.Disk
