import Vanilla.Foundation.Loop
import Vanilla.Disk.DirectoryLookup
import Vanilla.Disk.DirectoryRead

namespace Vanilla.Disk

/-! The three loops over a directory, on a device that answers: what they do
depends on the sectors only. -/

/-- The outcome of an execution, from what a loop by rounds has come to. -/
def settle {Value : Type} (outcome : Option (Except Fault Value)) (after : FatState) :
    EStateM.Result Fault FatState Value :=
  match outcome with
  | some (.ok value) => .ok value after
  | some (.error reason) => .error reason after
  | none => .error .diverges after

/-- One round of `fat_dir_search`. -/
def searchRound (geometry : Geometry) (sectors : Nat → Sector) (name : List UInt8) (size : Nat)
    (position : Dir × UInt8 × Bool) : Except Fault (Bool × Dir) ⊕ Dir × UInt8 × Bool :=
  let dir := position.1
  let slot := slotAt sectors dir
  if dir.rwOffset + 32 ≤ 512 then
    if slot.byte 0 = 0 then .inl (.ok (false, dir))
    else
      match searchStep slot name size position.2.1 position.2.2 with
      | .found => .inl (.ok (true, slot.opened geometry))
      | .outside => .inl (.error .outOfBounds)
      | .next lfnCrc lfnMatch =>
          let moved := dir.move geometry sectors
          if moved.1 then .inr (moved.2, lfnCrc, lfnMatch) else .inl (.ok (false, moved.2))
  else .inl (.error .outOfBounds)

/-- One round of `fat_dir_read`. -/
def readRound (geometry : Geometry) (sectors : Nat → Sector) (info : Info)
    (position : Dir × Reading) : Except Fault DirReadResult ⊕ Dir × Reading :=
  let dir := position.1
  let slot := slotAt sectors dir
  let moved := (dir.move geometry sectors).2
  if dir.rwOffset + 32 ≤ 512 then
    match readStep slot position.2 with
    | .eof => .inl (.ok ⟨.eof, dir, { info with name := position.2.name }, position.2.stores⟩)
    | .crcError =>
        .inl (.ok ⟨.error, dir, { info with name := position.2.name }, position.2.stores⟩)
    | .entry reading => .inl (.ok ⟨.ok, moved, slot.describe reading, reading.stores⟩)
    | .next reading => .inr (moved, reading)
  else .inl (.error .outOfBounds)

/-- One round of `fat_get_vol_label`. -/
def labelRound (geometry : Geometry) (sectors : Nat → Sector) (dir : Dir) :
    Except Fault (FStatus × List UInt8) ⊕ Dir :=
  let slot := slotAt sectors dir
  if dir.rwOffset + 32 ≤ 512 then
    if slot.holdsLabel then .inl (.ok (.error, (List.range 11).map slot.byte))
    else
      let moved := dir.move geometry sectors
      if moved.1 then .inr moved.2 else .inl (.ok (.error, []))
  else .inl (.error .outOfBounds)

section Rounds

variable {geometry : Geometry} {sectors : Nat → Sector} {state : FatState} {dir : Dir}

/-- On the sectors, the search is a loop of its rounds. -/
theorem run_searchLoop_eq {name : List UInt8} {size : Nat} (rounds : Nat)
    {lfnCrc : UInt8} {lfnMatch : Bool} (working : Working geometry sectors state)
    (real : state.volume.buffer = sectors state.volume.bufferLba ∨ dir.sector ≠ 0) :
    ∃ after, (searchLoop name size rounds dir lfnCrc lfnMatch).run state =
        settle (Loop.run (searchRound geometry sectors name size) rounds (dir, lfnCrc, lfnMatch))
          after ∧
      ∀ outcome, Loop.run (searchRound geometry sectors name size) rounds
        (dir, lfnCrc, lfnMatch) = some outcome → Loaded geometry sectors after := by
  induction rounds generalizing state dir lfnCrc lfnMatch with
  | zero => exact ⟨state, rfl, fun _ ends => by cases ends⟩
  | succ rounds induction =>
      rcases run_searchLoop_round working real name size with ⟨cached, loaded, round⟩
      rw [round rounds, Loop.run, searchRound]
      dsimp only
      by_cases inside : dir.rwOffset + 32 ≤ 512
      · rw [if_pos inside, if_pos inside]
        by_cases marked : (slotAt sectors dir).byte 0 = 0
        · rw [if_pos marked, if_pos marked]
          exact ⟨cached, rfl, fun _ _ => loaded⟩
        · rw [if_neg marked, if_neg marked]
          cases searchStep (slotAt sectors dir) name size lfnCrc lfnMatch with
          | found => exact ⟨cached, rfl, fun _ _ => loaded⟩
          | outside => exact ⟨cached, rfl, fun _ _ => loaded⟩
          | next nextCrc nextMatch =>
              rcases loaded.dirGetNext dir with ⟨moved, goes, still⟩
              dsimp only
              rw [Exec.run_bind_of_ok goes]
              cases (dir.move geometry sectors).1 with
              | true =>
                  rw [if_pos rfl, if_pos rfl]
                  exact induction still.working (.inl still.buffer)
              | false => exact ⟨moved, rfl, fun _ _ => still⟩
      · rw [if_neg inside, if_neg inside]
        exact ⟨cached, rfl, fun _ _ => loaded⟩

theorem slotAt_eq (sectors : Nat → Sector) (dir : Dir) :
    (⟨sectors dir.sector, dir.rwOffset⟩ : Slot) = slotAt sectors dir := rfl

theorem run_dirReadLoop_eq (info : Info) (rounds : Nat) {reading : Reading}
    (working : Working geometry sectors state)
    (real : state.volume.buffer = sectors state.volume.bufferLba ∨ dir.sector ≠ 0) :
    ∃ after, (dirReadLoop info rounds dir reading).run state =
        settle (Loop.run (readRound geometry sectors info) rounds (dir, reading)) after ∧
      ∀ outcome, Loop.run (readRound geometry sectors info) rounds (dir, reading) =
        some outcome → Loaded geometry sectors after := by
  induction rounds generalizing state dir reading with
  | zero => exact ⟨state, rfl, fun _ ends => by cases ends⟩
  | succ rounds induction =>
      rcases run_fatRead working real with ⟨cached, read, loaded, buffer⟩
      rw [dirReadLoop, Loop.run, readRound, Exec.run_bind_of_ok read, if_pos rfl,
        Exec.run_bind_of_ok (EStateM.run_get cached), buffer]
      dsimp only
      rw [slotAt_eq]
      by_cases inside : dir.rwOffset + 32 ≤ 512
      · rw [if_pos inside, if_pos inside]
        rcases loaded.dirGetNext dir with ⟨moved, goes, still⟩
        cases readStep (slotAt sectors dir) reading with
        | eof => exact ⟨cached, rfl, fun _ _ => loaded⟩
        | crcError => exact ⟨cached, rfl, fun _ _ => loaded⟩
        | entry reading =>
            dsimp only
            rw [Exec.run_bind_of_ok goes]
            exact ⟨moved, rfl, fun _ _ => still⟩
        | next reading =>
            dsimp only
            rw [Exec.run_bind_of_ok goes]
            exact induction still.working (.inl still.buffer)
      · rw [if_neg inside, if_neg inside]
        exact ⟨cached, rfl, fun _ _ => loaded⟩

theorem run_labelLoop_eq (rounds : Nat) (working : Working geometry sectors state)
    (real : state.volume.buffer = sectors state.volume.bufferLba ∨ dir.sector ≠ 0) :
    ∃ after, (labelLoop rounds dir).run state =
        settle (Loop.run (labelRound geometry sectors) rounds dir) after ∧
      ∀ outcome, Loop.run (labelRound geometry sectors) rounds dir = some outcome →
        Loaded geometry sectors after := by
  induction rounds generalizing state dir with
  | zero => exact ⟨state, rfl, fun _ ends => by cases ends⟩
  | succ rounds induction =>
      rcases run_fatRead working real with ⟨cached, read, loaded, buffer⟩
      rw [labelLoop, Loop.run, labelRound, Exec.run_bind_of_ok read, if_pos rfl,
        Exec.run_bind_of_ok (EStateM.run_get cached), buffer]
      dsimp only
      rw [slotAt_eq]
      by_cases inside : dir.rwOffset + 32 ≤ 512
      · rw [if_pos inside, if_pos inside]
        by_cases label : (slotAt sectors dir).holdsLabel = true
        · rw [if_pos label, if_pos label]
          exact ⟨cached, rfl, fun _ _ => loaded⟩
        · rcases loaded.dirGetNext dir with ⟨moved, goes, still⟩
          rw [if_neg label, if_neg label, Exec.run_bind_of_ok goes]
          cases (dir.move geometry sectors).1 with
          | true =>
              rw [if_pos rfl, if_pos rfl]
              exact induction still.working (.inl still.buffer)
          | false => exact ⟨moved, rfl, fun _ _ => still⟩
      · rw [if_neg inside, if_neg inside]
        exact ⟨cached, rfl, fun _ _ => loaded⟩

end Rounds

/-! ## Where the loops end -/

/-- Some number of rounds is enough. -/
def Terminates {Value : Type} (code : Nat → Exec FatState Value) (state : FatState) : Prop :=
  ∃ rounds, ∀ after, (code rounds).run state ≠ .error .diverges after

/-- Walking on within the cluster chain, one comes to such a position. -/
inductive Comes (geometry : Geometry) (sectors : Nat → Sector) (Stop : Dir → Prop) :
    Dir → Prop where
  | here {dir : Dir} : Stop dir → Comes geometry sectors Stop dir
  | later {dir : Dir} : (dir.move geometry sectors).1 = true →
      Comes geometry sectors Stop (dir.move geometry sectors).2 → Comes geometry sectors Stop dir

/-- The comparisons of the search stop at one of the entries. -/
def stopsWithin (name : List UInt8) (size : Nat) : UInt8 → Bool → List Slot → Bool
  | _, _, [] => false
  | lfnCrc, lfnMatch, slot :: slots =>
      match searchStep slot name size lfnCrc lfnMatch with
      | .next lfnCrc lfnMatch => stopsWithin name size lfnCrc lfnMatch slots
      | _ => true

/-- The position lies in the sector buffer. -/
def Inside (dir : Dir) : Prop := dir.rwOffset + 32 ≤ 512

instance (dir : Dir) : Decidable (Inside dir) := by
  unfold Inside
  infer_instance

section Ends

variable {geometry : Geometry} {sectors : Nat → Sector} {state : FatState} {dir : Dir}

/-- A short entry in use. -/
def Slot.isEntry (slot : Slot) : Bool :=
  slot.byte 0 != 0 && slot.byte 0 != 0xE5 && slot.byte 0 != 0x05 && !slot.isLong

theorem terminates_iff {Value Position : Type} {code : Nat → Exec FatState Value}
    {round : Position → Except Fault Value ⊕ Position} {position : Position}
    (simulates : ∀ rounds, ∃ after, (code rounds).run state =
      settle (Loop.run round rounds position) after)
    (other : ∀ position reason, round position = .inl (.error reason) → reason ≠ .diverges) :
    Terminates code state ↔ ∃ outcome, Loop.Returns round position outcome := by
  have proper : ∀ position outcome, Loop.Returns round position outcome →
      outcome ≠ .error .diverges := by
    intro position outcome returns same
    subst same
    generalize isError : Except.error Fault.diverges = outcome at returns
    induction returns with
    | done stops =>
        subst isError
        exact other _ _ stops rfl
    | next _ _ induction => exact induction isError
  constructor
  · rintro ⟨rounds, ends⟩
    rcases simulates rounds with ⟨after, runs⟩
    cases outcome : Loop.run round rounds position with
    | none =>
        rw [outcome] at runs
        exact absurd runs (ends after)
    | some value => exact ⟨value, Loop.returns_of_run outcome⟩
  · rintro ⟨outcome, returns⟩
    rcases returns.run_eq with ⟨enough, stops⟩
    rcases simulates enough with ⟨final, runs⟩
    refine ⟨enough, ?_⟩
    intro after diverges
    rw [stops enough (Nat.le_refl _)] at runs
    have same := runs.symm.trans diverges
    cases outcome with
    | ok value => cases same
    | error reason =>
        cases same
        exact proper _ _ returns rfl

/-! ### fat_get_vol_label -/

theorem labelRound_outside (outside : ¬ Inside dir) :
    labelRound geometry sectors dir = .inl (.error .outOfBounds) := by
  rw [labelRound]
  exact if_neg outside

theorem labelRound_found (inside : Inside dir) (label : (slotAt sectors dir).holdsLabel = true) :
    labelRound geometry sectors dir =
      .inl (.ok (.error, (List.range 11).map (slotAt sectors dir).byte)) := by
  rw [labelRound]
  exact (if_pos inside).trans (if_pos label)

theorem labelRound_last (inside : Inside dir) (label : (slotAt sectors dir).holdsLabel = false)
    (last : (dir.move geometry sectors).1 = false) :
    labelRound geometry sectors dir = .inl (.ok (.error, [])) := by
  rw [labelRound]
  exact (if_pos inside).trans ((if_neg (by simp [label])).trans (if_neg (by simp [last])))

theorem labelRound_next (inside : Inside dir) (label : (slotAt sectors dir).holdsLabel = false)
    (moves : (dir.move geometry sectors).1 = true) :
    labelRound geometry sectors dir = .inr (dir.move geometry sectors).2 := by
  rw [labelRound]
  exact (if_pos inside).trans ((if_neg (by simp [label])).trans (if_pos moves))

/-- Where a round of the label loop is the last. -/
def LabelStop (geometry : Geometry) (sectors : Nat → Sector) (dir : Dir) : Prop :=
  ¬ Inside dir ∨ (slotAt sectors dir).holdsLabel = true ∨ (dir.move geometry sectors).1 = false

theorem labelRound_stop (stop : LabelStop geometry sectors dir) :
    ∃ outcome, outcome ≠ .error .diverges ∧ labelRound geometry sectors dir = .inl outcome := by
  by_cases inside : Inside dir
  · cases label : (slotAt sectors dir).holdsLabel with
    | true => exact ⟨_, by simp, labelRound_found inside label⟩
    | false =>
        have last := (stop.resolve_left (not_not.mpr inside)).resolve_left (by simp [label])
        exact ⟨_, by simp, labelRound_last inside label last⟩
  · exact ⟨_, by simp, labelRound_outside inside⟩

theorem labelRound_goesOn (goesOn : ¬ LabelStop geometry sectors dir) :
    (dir.move geometry sectors).1 = true ∧
      labelRound geometry sectors dir = .inr (dir.move geometry sectors).2 := by
  simp only [LabelStop, not_or, not_not, Bool.not_eq_true, Bool.not_eq_false] at goesOn
  exact ⟨goesOn.2.2, labelRound_next goesOn.1 goesOn.2.1 goesOn.2.2⟩

theorem labelRound_error {reason : Fault}
    (stops : labelRound geometry sectors dir = .inl (.error reason)) : reason ≠ .diverges := by
  by_cases stop : LabelStop geometry sectors dir
  · rcases labelRound_stop stop with ⟨outcome, proper, ends⟩
    cases ends.symm.trans stops
    exact fun same => proper (congrArg _ same)
  · cases (labelRound_goesOn stop).2.symm.trans stops

theorem label_returns_iff : (∃ outcome, Loop.Returns (labelRound geometry sectors) dir outcome) ↔
    Comes geometry sectors (LabelStop geometry sectors) dir := by
  constructor
  · rintro ⟨outcome, returns⟩
    induction returns with
    | @done dir result stops =>
        by_contra away
        have goesOn := labelRound_goesOn fun stop => away (.here stop)
        cases stops.symm.trans goesOn.2
    | @next dir later result next _ induction =>
        by_cases stop : LabelStop geometry sectors dir
        · exact .here stop
        · have goesOn := labelRound_goesOn stop
          cases next.symm.trans goesOn.2
          exact .later goesOn.1 induction
  · intro comes
    induction comes with
    | here stop =>
        rcases labelRound_stop stop with ⟨outcome, _, stops⟩
        exact ⟨outcome, .done stops⟩
    | @later dir _ _ induction =>
        rcases induction with ⟨outcome, returns⟩
        by_cases stop : LabelStop geometry sectors dir
        · rcases labelRound_stop stop with ⟨outcome, _, stops⟩
          exact ⟨outcome, .done stops⟩
        · exact ⟨outcome, .next (labelRound_goesOn stop).2 returns⟩

/-! ### fat_dir_search -/

variable {name : List UInt8} {size : Nat} {lfnCrc : UInt8} {lfnMatch : Bool}

theorem searchRound_outside (outside : ¬ Inside dir) :
    searchRound geometry sectors name size (dir, lfnCrc, lfnMatch) =
      .inl (.error .outOfBounds) := by
  rw [searchRound]
  exact if_neg outside

theorem searchRound_marked (inside : Inside dir) (marked : (slotAt sectors dir).byte 0 = 0) :
    searchRound geometry sectors name size (dir, lfnCrc, lfnMatch) = .inl (.ok (false, dir)) := by
  rw [searchRound]
  exact (if_pos inside).trans (if_pos marked)

theorem searchRound_used (used : Used sectors dir) :
    searchRound geometry sectors name size (dir, lfnCrc, lfnMatch) =
      match searchStep (slotAt sectors dir) name size lfnCrc lfnMatch with
      | .found => .inl (.ok (true, (slotAt sectors dir).opened geometry))
      | .outside => .inl (.error .outOfBounds)
      | .next lfnCrc lfnMatch =>
          if (dir.move geometry sectors).1 then
            .inr ((dir.move geometry sectors).2, lfnCrc, lfnMatch)
          else .inl (.ok (false, (dir.move geometry sectors).2)) := by
  rw [searchRound]
  exact (if_pos used.inside).trans (if_neg used.unmarked)

/-- Where a round of the search is the last, whatever the name. -/
def SearchStop (geometry : Geometry) (sectors : Nat → Sector) (dir : Dir) : Prop :=
  ¬ Inside dir ∨ (slotAt sectors dir).byte 0 = 0 ∨ (dir.move geometry sectors).1 = false

theorem used_of_goesOn (goesOn : ¬ SearchStop geometry sectors dir) :
    Used sectors dir ∧ (dir.move geometry sectors).1 = true := by
  simp only [SearchStop, not_or, not_not, Bool.not_eq_false] at goesOn
  exact ⟨⟨goesOn.1, goesOn.2.1⟩, goesOn.2.2⟩

theorem searchRound_stop (stop : SearchStop geometry sectors dir) : ∃ outcome,
    searchRound geometry sectors name size (dir, lfnCrc, lfnMatch) = .inl outcome := by
  by_cases inside : Inside dir
  · by_cases marked : (slotAt sectors dir).byte 0 = 0
    · exact ⟨_, searchRound_marked inside marked⟩
    · have last := (stop.resolve_left (not_not.mpr inside)).resolve_left marked
      rw [searchRound_used ⟨inside, marked⟩, last]
      cases searchStep (slotAt sectors dir) name size lfnCrc lfnMatch <;> exact ⟨_, rfl⟩
  · exact ⟨_, searchRound_outside inside⟩

theorem searchRound_error {position : Dir × UInt8 × Bool} {reason : Fault}
    (stops : searchRound geometry sectors name size position = .inl (.error reason)) :
    reason ≠ .diverges := by
  rcases position with ⟨dir, lfnCrc, lfnMatch⟩
  by_cases inside : Inside dir
  · by_cases marked : (slotAt sectors dir).byte 0 = 0
    · cases (searchRound_marked inside marked).symm.trans stops
    · rw [searchRound_used ⟨inside, marked⟩] at stops
      cases step : searchStep (slotAt sectors dir) name size lfnCrc lfnMatch with
      | found =>
          rw [step] at stops
          cases stops
      | outside =>
          rw [step] at stops
          cases stops
          simp
      | next nextCrc nextMatch =>
          rw [step] at stops
          cases moves : (dir.move geometry sectors).1 <;> rw [moves] at stops <;> cases stops
  · cases (searchRound_outside inside).symm.trans stops
    simp

/-- A round that is not the last has passed an entry. -/
theorem searchRound_goesOn {later : Dir × UInt8 × Bool} (used : Used sectors dir)
    (goesOn : searchRound geometry sectors name size (dir, lfnCrc, lfnMatch) = .inr later) :
    ∃ nextCrc nextMatch,
      searchStep (slotAt sectors dir) name size lfnCrc lfnMatch = .next nextCrc nextMatch ∧
      (dir.move geometry sectors).1 = true ∧
      later = ((dir.move geometry sectors).2, nextCrc, nextMatch) := by
  rw [searchRound_used used] at goesOn
  cases step : searchStep (slotAt sectors dir) name size lfnCrc lfnMatch with
  | found =>
      rw [step] at goesOn
      cases goesOn
  | outside =>
      rw [step] at goesOn
      cases goesOn
  | next nextCrc nextMatch =>
      rw [step] at goesOn
      cases moves : (dir.move geometry sectors).1 with
      | true =>
          rw [moves] at goesOn
          cases goesOn
          exact ⟨nextCrc, nextMatch, rfl, rfl, rfl⟩
      | false =>
          rw [moves] at goesOn
          cases goesOn

/-- From an entry on, the search returns if it does from the next one on, where it
passes the entry. -/
theorem search_returns_used (used : Used sectors dir)
    (later : ∀ nextCrc nextMatch,
      searchStep (slotAt sectors dir) name size lfnCrc lfnMatch = .next nextCrc nextMatch →
      (dir.move geometry sectors).1 = true ∧
        ∃ outcome, Loop.Returns (searchRound geometry sectors name size)
          ((dir.move geometry sectors).2, nextCrc, nextMatch) outcome) :
    ∃ outcome, Loop.Returns (searchRound geometry sectors name size)
      (dir, lfnCrc, lfnMatch) outcome := by
  have round := @searchRound_used geometry _ _ name size lfnCrc lfnMatch used
  cases step : searchStep (slotAt sectors dir) name size lfnCrc lfnMatch with
  | found =>
      rw [step] at round
      exact ⟨_, .done round⟩
  | outside =>
      rw [step] at round
      exact ⟨_, .done round⟩
  | next nextCrc nextMatch =>
      rw [step] at round
      rcases later nextCrc nextMatch step with ⟨moves, outcome, returns⟩
      exact ⟨outcome, .next (round.trans (if_pos moves)) returns⟩

theorem search_returns_of_comes (comes : Comes geometry sectors (SearchStop geometry sectors) dir) :
    ∃ outcome, Loop.Returns (searchRound geometry sectors name size)
      (dir, lfnCrc, lfnMatch) outcome := by
  induction comes generalizing lfnCrc lfnMatch with
  | here stop =>
      rcases @searchRound_stop _ _ _ name size lfnCrc lfnMatch stop with ⟨outcome, ends⟩
      exact ⟨outcome, .done ends⟩
  | @later dir moves _ induction =>
      by_cases stop : SearchStop geometry sectors dir
      · rcases @searchRound_stop _ _ _ name size lfnCrc lfnMatch stop with ⟨outcome, ends⟩
        exact ⟨outcome, .done ends⟩
      · rcases used_of_goesOn stop with ⟨used, _⟩
        exact search_returns_used used fun _ _ _ => ⟨moves, induction⟩

theorem search_returns_of_entries {slots : List Slot} (entries : Entries geometry sectors dir slots)
    (stops : stopsWithin name size lfnCrc lfnMatch slots = true) :
    ∃ outcome, Loop.Returns (searchRound geometry sectors name size)
      (dir, lfnCrc, lfnMatch) outcome := by
  induction entries generalizing lfnCrc lfnMatch with
  | one used =>
      apply search_returns_used used
      intro nextCrc nextMatch step
      rw [stopsWithin, step] at stops
      cases stops
  | cons used moves _ induction =>
      apply search_returns_used used
      intro nextCrc nextMatch step
      rw [stopsWithin, step] at stops
      exact ⟨moves, induction stops⟩

theorem comes_of_search_returns {position : Dir × UInt8 × Bool}
    {outcome : Except Fault (Bool × Dir)}
    (returns : Loop.Returns (searchRound geometry sectors name size) position outcome) :
    Comes geometry sectors (SearchStop geometry sectors) position.1 ∨
      ∃ slots, Entries geometry sectors position.1 slots ∧
        stopsWithin name size position.2.1 position.2.2 slots = true := by
  induction returns with
  | @done position _ ends =>
      rcases position with ⟨dir, lfnCrc, lfnMatch⟩
      by_cases stop : SearchStop geometry sectors dir
      · exact .inl (.here stop)
      · rcases used_of_goesOn stop with ⟨used, moves⟩
        refine .inr ⟨_, .one used, ?_⟩
        rw [searchRound_used used, moves] at ends
        rw [stopsWithin]
        cases step : searchStep (slotAt sectors dir) name size lfnCrc lfnMatch with
        | found => rfl
        | outside => rfl
        | next nextCrc nextMatch =>
            rw [step] at ends
            cases ends
  | @next position _ _ goesOn _ induction =>
      rcases position with ⟨dir, lfnCrc, lfnMatch⟩
      by_cases stop : SearchStop geometry sectors dir
      · exact .inl (.here stop)
      · rcases used_of_goesOn stop with ⟨used, _⟩
        rcases searchRound_goesOn used goesOn with ⟨nextCrc, nextMatch, step, moves, rfl⟩
        rcases induction with comes | ⟨slots, entries, stops⟩
        · exact .inl (.later moves comes)
        · refine .inr ⟨_, .cons used moves entries, ?_⟩
          rw [stopsWithin, step]
          exact stops

theorem search_returns_iff : (∃ outcome, Loop.Returns (searchRound geometry sectors name size)
      (dir, lfnCrc, lfnMatch) outcome) ↔
    Comes geometry sectors (SearchStop geometry sectors) dir ∨
      ∃ slots, Entries geometry sectors dir slots ∧
        stopsWithin name size lfnCrc lfnMatch slots = true := by
  constructor
  · rintro ⟨outcome, returns⟩
    exact comes_of_search_returns returns
  · rintro (comes | ⟨slots, entries, stops⟩)
    · exact search_returns_of_comes comes
    · exact search_returns_of_entries entries stops

/-! ### fat_dir_read -/

variable {info : Info} {reading : Reading}

theorem readRound_outside (outside : ¬ Inside dir) :
    readRound geometry sectors info (dir, reading) = .inl (.error .outOfBounds) := by
  rw [readRound]
  exact if_neg outside

theorem readRound_inside (inside : Inside dir) :
    readRound geometry sectors info (dir, reading) =
      match readStep (slotAt sectors dir) reading with
      | .eof => .inl (.ok ⟨.eof, dir, { info with name := reading.name }, reading.stores⟩)
      | .crcError => .inl (.ok ⟨.error, dir, { info with name := reading.name }, reading.stores⟩)
      | .entry reading => .inl (.ok ⟨.ok, (dir.move geometry sectors).2,
          (slotAt sectors dir).describe reading, reading.stores⟩)
      | .next reading => .inr ((dir.move geometry sectors).2, reading) := by
  rw [readRound]
  exact if_pos inside

theorem readStep_marked {slot : Slot} (marked : slot.byte 0 = 0) :
    readStep slot reading = .eof := by
  rw [readStep, if_pos marked]

/-- An entry that is neither the end mark nor a short one in use is passed. -/
theorem readStep_passed {slot : Slot} (unmarked : slot.byte 0 ≠ 0)
    (passed : slot.isEntry = false) : ∃ more, readStep slot reading = .next more := by
  rw [readStep, if_neg unmarked]
  by_cases used : slot.byte 0 ≠ 0xE5 ∧ slot.byte 0 ≠ 0x05
  · have long : slot.isLong = true := by simpa [Slot.isEntry, unmarked, used] using passed
    rw [if_pos used, if_pos long]
    exact ⟨_, rfl⟩
  · rw [if_neg used]
    exact ⟨_, rfl⟩

/-- What is neither the end nor passed is an entry. -/
theorem isEntry_of_stops {slot : Slot} (unended : readStep slot reading ≠ .eof)
    (stops : ∀ more, readStep slot reading ≠ .next more) : slot.isEntry = true := by
  by_contra passed
  by_cases marked : slot.byte 0 = 0
  · exact unended (readStep_marked marked)
  · rcases @readStep_passed reading _ marked (by simpa using passed) with ⟨more, next⟩
    exact stops more next

theorem readStep_entry {slot : Slot} (entry : slot.isEntry = true) :
    readStep slot reading =
      if reading.lfnCrc ≠ 0 then
        if reading.lfnCrc ≠ fatGetSfnCrc slot then .crcError else .entry reading
      else .entry (storeShort slot reading) := by
  simp only [Slot.isEntry, bne_iff_ne, Bool.and_eq_true, Bool.not_eq_true', ne_eq] at entry
  rcases entry with ⟨⟨⟨unmarked, notDeleted⟩, notFive⟩, short⟩
  rw [readStep, if_neg unmarked, if_pos ⟨notDeleted, notFive⟩, if_neg (by simp [short])]

/-- Where a call of `fat_dir_read` returns. -/
def ReadStop (sectors : Nat → Sector) (dir : Dir) : Prop :=
  ¬ Inside dir ∨ (slotAt sectors dir).byte 0 = 0 ∨ (slotAt sectors dir).isEntry = true

theorem readRound_stop (stop : ReadStop sectors dir) :
    ∃ outcome, readRound geometry sectors info (dir, reading) = .inl outcome := by
  by_cases inside : Inside dir
  · rw [readRound_inside inside]
    by_cases marked : (slotAt sectors dir).byte 0 = 0
    · rw [readStep_marked marked]
      exact ⟨_, rfl⟩
    · have entry := (stop.resolve_left (not_not.mpr inside)).resolve_left marked
      have step := @readStep_entry reading _ entry
      split at step
      · split at step <;> rw [step] <;> exact ⟨_, rfl⟩
      · rw [step]
        exact ⟨_, rfl⟩
  · exact ⟨_, readRound_outside inside⟩

theorem readRound_goesOn (goesOn : ¬ ReadStop sectors dir) : ∃ more,
    readRound geometry sectors info (dir, reading) = .inr ((dir.move geometry sectors).2, more) := by
  simp only [ReadStop, not_or, not_not, Bool.not_eq_true] at goesOn
  rcases goesOn with ⟨inside, unmarked, passed⟩
  rcases @readStep_passed reading _ unmarked passed with ⟨more, step⟩
  rw [readRound_inside inside, step]
  exact ⟨more, rfl⟩

theorem readRound_error {position : Dir × Reading} {reason : Fault}
    (stops : readRound geometry sectors info position = .inl (.error reason)) :
    reason ≠ .diverges := by
  rcases position with ⟨dir, reading⟩
  by_cases inside : Inside dir
  · rw [readRound_inside inside] at stops
    cases step : readStep (slotAt sectors dir) reading <;> rw [step] at stops <;> cases stops
  · cases (readRound_outside inside).symm.trans stops
    simp

theorem read_returns (comes : Comes geometry sectors (ReadStop sectors) dir) :
    ∃ outcome, Loop.Returns (readRound geometry sectors info) (dir, reading) outcome := by
  induction comes generalizing reading with
  | here stop =>
      rcases @readRound_stop geometry _ _ info reading stop with ⟨outcome, ends⟩
      exact ⟨outcome, .done ends⟩
  | @later dir _ _ induction =>
      by_cases stop : ReadStop sectors dir
      · rcases @readRound_stop geometry _ _ info reading stop with ⟨outcome, ends⟩
        exact ⟨outcome, .done ends⟩
      · rcases @readRound_goesOn geometry _ _ info reading stop with ⟨more, next⟩
        rcases @induction more with ⟨outcome, returns⟩
        exact ⟨outcome, .next next returns⟩

/-! ### The functions -/

/-- The directory that `fat_dir_search` starts with. -/
def Dir.rewound (geometry : Geometry) (dir : Dir) : Dir :=
  if dir.startSect ≠ dir.sector then
    { dir with
      sector := dir.startSect
      cluster := fatSectToClust geometry dir.startSect
      rwOffset := 0 }
  else dir

theorem Dir.rewound_sector (geometry : Geometry) (dir : Dir) :
    (dir.rewound geometry).sector = dir.startSect := by
  rw [Dir.rewound]
  split
  · rfl
  · rename_i same
    exact (not_not.mp same).symm

theorem run_fatDirSearch (rounds : Nat) (dir : Dir) (name : List UInt8) (size : Nat)
    (state : FatState) : (fatDirSearch rounds dir name size).run state =
      (searchLoop name size rounds (dir.rewound state.volume.toGeometry) 0 true).run state := by
  rw [fatDirSearch, Exec.run_bind_of_ok (EStateM.run_get state)]
  rfl

/-- The root directory as `fat_get_vol_label` sets it. -/
def labelDir (geometry : Geometry) : Dir where
  sector := geometry.rootLba
  cluster := fatSectToClust geometry geometry.rootLba
  rwOffset := 0
  startSect := 0
  size := 0

theorem run_fatGetVolLabel (rounds : Nat) (state : FatState) :
    (fatGetVolLabel rounds).run state =
      (labelLoop rounds (labelDir state.volume.toGeometry)).run state := by
  rw [fatGetVolLabel, Exec.run_bind_of_ok (EStateM.run_get state)]
  rfl

/-- On a device that answers, the search and the volume label come to an end
exactly when the walk over the directory does, or they find something; reading an
entry does when there is an entry or the end mark in the cluster chain. -/
theorem directory_loops_terminate (working : Working state.volume.toGeometry state.logical state)
    (dir : Dir) (real : state.volume.buffer = state.logical state.volume.bufferLba ∨
      dir.startSect ≠ 0 ∧ dir.sector ≠ 0 ∧ state.volume.rootLba ≠ 0)
    (name : List UInt8) (size : Nat) (info : Info) :
    (Terminates (fun rounds => fatDirSearch rounds dir name size) state ↔
      Comes state.volume.toGeometry state.logical
          (SearchStop state.volume.toGeometry state.logical)
          (dir.rewound state.volume.toGeometry) ∨
        ∃ slots, Entries state.volume.toGeometry state.logical
            (dir.rewound state.volume.toGeometry) slots ∧
          stopsWithin name size 0 true slots = true) ∧
    (Terminates fatGetVolLabel state ↔ Comes state.volume.toGeometry state.logical
      (LabelStop state.volume.toGeometry state.logical) (labelDir state.volume.toGeometry)) ∧
    (Comes state.volume.toGeometry state.logical (ReadStop state.logical) dir →
      Terminates (fun rounds => fatDirRead rounds dir info) state) := by
  have searches : ∀ rounds, ∃ after, (fatDirSearch rounds dir name size).run state =
      settle (Loop.run (searchRound state.volume.toGeometry state.logical name size) rounds
        (dir.rewound state.volume.toGeometry, 0, true)) after := by
    intro rounds
    have placed := real.imp id fun placed =>
      (dir.rewound_sector state.volume.toGeometry).trans_ne placed.1
    rcases @run_searchLoop_eq _ _ _ _ name size rounds 0 true working placed with ⟨after, runs, _⟩
    exact ⟨after, (run_fatDirSearch rounds dir name size state).trans runs⟩
  have labels : ∀ rounds, ∃ after, (fatGetVolLabel rounds).run state =
      settle (Loop.run (labelRound state.volume.toGeometry state.logical) rounds
        (labelDir state.volume.toGeometry)) after := by
    intro rounds
    have placed := real.imp id fun placed => placed.2.2
    rcases @run_labelLoop_eq _ _ _ (labelDir state.volume.toGeometry) rounds working placed with
      ⟨after, runs, _⟩
    exact ⟨after, (run_fatGetVolLabel rounds state).trans runs⟩
  have reads : ∀ rounds, ∃ after, (fatDirRead rounds dir info).run state =
      settle (Loop.run (readRound state.volume.toGeometry state.logical info) rounds
        (dir, ⟨0, 0, info.name, []⟩)) after := by
    intro rounds
    have placed := real.imp id fun placed => placed.2.1
    rcases @run_dirReadLoop_eq _ _ _ dir info rounds ⟨0, 0, info.name, []⟩ working placed with
      ⟨after, runs, _⟩
    exact ⟨after, runs⟩
  refine ⟨?_, ?_, ?_⟩
  · rw [terminates_iff searches fun _ _ => searchRound_error]
    exact search_returns_iff
  · rw [terminates_iff labels fun _ reason stops => ?_]
    · exact label_returns_iff
    · exact labelRound_error stops
  · intro comes
    rw [terminates_iff reads fun _ _ => readRound_error]
    exact read_returns comes

end Ends

theorem blank_directory_loops_terminate :
    Terminates (fun rounds => fatDirSearch rounds (rootDir blankVolume.volume.toGeometry) [0x41] 1)
      blankVolume :=
  (directory_loops_terminate blankVolume_usable.working (rootDir blankVolume.volume.toGeometry)
    (.inr (by decide)) [0x41] 1 ⟨fun _ => 0, 0, 0, 0, 0, 0, 0, 0, 0, 0⟩).1.mpr
      (.inl (.here (.inr (.inl (blankVolume_mark _)))))

/-! ### A disk without an end -/

/-- A volume on a disk of which every byte is `0xE5`: all entries are deleted, and
no table entry ends a chain. -/
def deletedVolume : FatState :=
  { blankVolume with
    device := { blankVolume.device with sector := fun _ => .replicate 512 0xE5 } }

/-- The position is at an entry of its sector. -/
def Aligned (dir : Dir) : Prop := dir.rwOffset % 32 = 0 ∧ dir.rwOffset < 512

theorem Aligned.inside {dir : Dir} (aligned : Aligned dir) : Inside dir := by
  rcases aligned with ⟨whole, below⟩
  rw [Inside]
  omega

theorem deleted_byte {dir : Dir} {column : Nat} (inside : dir.rwOffset + column < 512) :
    (slotAt deletedVolume.logical dir).byte column = 0xE5 := by
  have all : deletedVolume.logical dir.sector = Vector.replicate 512 0xE5 := rfl
  simp [slotAt, Slot.byte, Sector.load8, all, inside]

theorem deleted_tableEntry (cluster : Nat) :
    tableEntry deletedVolume.volume.toGeometry deletedVolume.logical cluster = 0xE5E5E5E5 := by
  have all : deletedVolume.logical (tableSector deletedVolume.volume.toGeometry cluster) =
      Vector.replicate 512 0xE5 := rfl
  have bound := tableOffset_bound cluster
  rw [tableEntry, all]
  simp only [Sector.load32, Sector.load8]
  rw [Vector.getElem?_eq_getElem (by omega), Vector.getElem?_eq_getElem (by omega),
    Vector.getElem?_eq_getElem (by omega), Vector.getElem?_eq_getElem (by omega)]
  simp

theorem deleted_move {dir : Dir} (aligned : Aligned dir) :
    (dir.move deletedVolume.volume.toGeometry deletedVolume.logical).1 = true ∧
      Aligned (dir.move deletedVolume.volume.toGeometry deletedVolume.logical).2 := by
  rcases aligned with ⟨whole, below⟩
  have next : u32 (dir.rwOffset + 32) = dir.rwOffset + 32 := u32_of_lt (by omega)
  have size : deletedVolume.volume.toGeometry.sectorSize = 512 := rfl
  rw [Dir.move, next]
  dsimp only
  rw [deleted_tableEntry, size]
  by_cases overflow : 512 ≤ dir.rwOffset + 32
  · rw [if_pos overflow]
    split
    · rw [if_neg (by decide)]
      exact ⟨rfl, by simp only [Aligned]; omega⟩
    · exact ⟨rfl, by simp only [Aligned]; omega⟩
  · rw [if_neg overflow]
    exact ⟨rfl, by simp only [Aligned]; omega⟩

theorem deleted_working :
    Working deletedVolume.volume.toGeometry deletedVolume.logical deletedVolume :=
  ⟨rfl, rfl, fun _ used => absurd rfl used, fun _ => rfl⟩

theorem deleted_first {dir : Dir} (aligned : Aligned dir) :
    (slotAt deletedVolume.logical dir).byte 0 = 0xE5 := deleted_byte aligned.2

theorem aligned_of_start {dir : Dir} (zero : dir.rwOffset = 0) : Aligned dir := by
  rw [Aligned, zero]
  decide

theorem deleted_search_never_ends : ¬ Terminates (fun rounds => fatDirSearch rounds
    (rootDir deletedVolume.volume.toGeometry) [0x41] 1) deletedVolume := by
  rintro ⟨rounds, ends⟩
  rcases @run_searchLoop_eq _ _ _ (rootDir deletedVolume.volume.toGeometry) [0x41] 1 rounds 0
    true deleted_working (.inr (by decide)) with ⟨after, runs, _⟩
  rw [Loop.run_eq_none (fun position => Aligned position.1) _ (aligned_of_start rfl)] at runs
  · exact ends after ((run_fatDirSearch _ _ _ _ _).trans runs)
  · rintro ⟨dir, lfnCrc, lfnMatch⟩ aligned
    have moves := deleted_move aligned
    have used : Used deletedVolume.logical dir :=
      ⟨aligned.inside, by rw [deleted_first aligned]; decide⟩
    refine ⟨(_, lfnCrc, lfnMatch), ?_, moves.2⟩
    rw [searchRound_used used, searchStep, if_pos (.inr (deleted_first aligned))]
    exact if_pos moves.1

theorem deleted_label_never_ends : ¬ Terminates fatGetVolLabel deletedVolume := by
  rintro ⟨rounds, ends⟩
  rcases @run_labelLoop_eq _ _ _ (labelDir deletedVolume.volume.toGeometry) rounds
    deleted_working (.inr (by decide)) with ⟨after, runs, _⟩
  rw [Loop.run_eq_none Aligned _ (aligned_of_start rfl)] at runs
  · exact ends after ((run_fatGetVolLabel _ _).trans runs)
  · intro dir aligned
    have moves := deleted_move aligned
    have inside : dir.rwOffset + 32 ≤ 512 := aligned.inside
    have label : (slotAt deletedVolume.logical dir).holdsLabel = false := by
      rw [Slot.holdsLabel, deleted_byte (by omega)]
      rfl
    exact ⟨_, labelRound_next aligned.inside label moves.1, moves.2⟩

theorem deleted_read_never_ends : ¬ Terminates (fun rounds => fatDirRead rounds
    (rootDir deletedVolume.volume.toGeometry) ⟨fun _ => 0, 0, 0, 0, 0, 0, 0, 0, 0, 0⟩)
    deletedVolume := by
  rintro ⟨rounds, ends⟩
  rcases @run_dirReadLoop_eq _ _ _ (rootDir deletedVolume.volume.toGeometry)
    ⟨fun _ => 0, 0, 0, 0, 0, 0, 0, 0, 0, 0⟩ rounds ⟨0, 0, fun _ => 0, []⟩ deleted_working
    (.inr (by decide)) with ⟨after, runs, _⟩
  rw [Loop.run_eq_none (fun position => Aligned position.1) _ (aligned_of_start rfl)] at runs
  · exact ends after runs
  · rintro ⟨dir, reading⟩ aligned
    have moves := deleted_move aligned
    have goesOn : ¬ ReadStop deletedVolume.logical dir := by
      simp [ReadStop, aligned.inside, deleted_first aligned, Slot.isEntry]
    rcases readRound_goesOn goesOn with ⟨more, next⟩
    exact ⟨_, next, moves.2⟩

/-- None of the loops ends on that disk. -/
theorem deleted_disk_never_ends :
    ¬ Terminates (fun rounds => fatDirSearch rounds
      (rootDir deletedVolume.volume.toGeometry) [0x41] 1) deletedVolume ∧
    ¬ Terminates fatGetVolLabel deletedVolume ∧
    ¬ Terminates (fun rounds => fatDirRead rounds (rootDir deletedVolume.volume.toGeometry)
      ⟨fun _ => 0, 0, 0, 0, 0, 0, 0, 0, 0, 0⟩) deletedVolume :=
  ⟨deleted_search_never_ends, deleted_label_never_ends, deleted_read_never_ends⟩

end Vanilla.Disk
