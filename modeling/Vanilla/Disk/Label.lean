import Vanilla.Disk.DirectoryScan
import Vanilla.Disk.Table

namespace Vanilla.Disk

/-! The label of a volume is written and read by two scans over the root directory. -/

/-! ## fat32.c -/

/-- The volume label is padded with spaces; `name` has at least `length` characters. -/
def labelChar (name : List UInt8) (length index : Nat) : UInt8 :=
  if length ≤ index then 0x20 else name.getD index 0

/-- The loop that copies to `src`. -/
def storeChars (offset : Nat) (char : Nat → UInt8) : Nat → Sector → Sector
  | 0, sector => sector
  | count + 1, sector =>
      (storeChars offset char count sector).setIfInBounds (offset + count) (char count)

def storeLabel (name : List UInt8) (length offset : Nat) (sector : Sector) : Sector :=
  storeChars offset (labelChar name length) 11 sector

/-- The loop of `volume_set_label`. It returns `1`, which is `FSTATUS_ERROR`, when it has
written the label, and `0`, which is `FSTATUS_OK`, when there is none. -/
def setLabelLoop (name : List UInt8) (length : Nat) : Nat → Dir → Exec FatState FStatus
  | 0, _ => Exec.fault .diverges
  | rounds + 1, dir => do
      let cached ← fatRead dir.sector
      if cached then do
        let state ← get
        if dir.rwOffset + 32 ≤ 512 then
          let slot : Slot := ⟨state.volume.buffer, dir.rwOffset⟩
          if slot.holdsLabel then do
            set { state with
              volume.buffer := storeLabel name length dir.rwOffset state.volume.buffer
              volume.bufferDirty := true }
            -- The result of this flush is not looked at.
            let _ ← fatFlush
            pure .error
          else do
            let moved ← fatDirGetNext dir
            if moved.1 then setLabelLoop name length rounds moved.2 else pure .ok
        else Exec.fault .outOfBounds
      else
        pure .error

def volumeSetLabel (rounds : Nat) (name : List UInt8) (length : Nat) : Exec FatState FStatus := do
  let state ← get
  let geometry := state.volume.toGeometry
  setLabelLoop name length rounds
    { sector := geometry.rootLba
      cluster := fatSectToClust geometry geometry.rootLba
      rwOffset := 0
      startSect := 0
      size := 0 }

def volumeGetLabel (rounds : Nat) : Exec FatState (FStatus × List UInt8) := fatGetVolLabel rounds

/-! ## Characters in a sector -/

section Characters

variable {sector : Sector} {char : Nat → UInt8} {offset count index : Nat}

theorem load8_storeChars (bound : offset + count ≤ 512) (among : index < count) :
    (storeChars offset char count sector).load8 (offset + index) = char index := by
  induction count with
  | zero => cases among
  | succ count induction =>
      rw [storeChars]
      rcases Nat.lt_succ_iff_lt_or_eq.mp among with before | last
      · rw [Sector.load8_setIfInBounds_of_ne _ (by omega)]
        exact induction (by omega) before
      · rw [last, Sector.load8_setIfInBounds_same _ (by omega)]

theorem setIfInBounds_load8 (sector : Sector) (offset : Nat) :
    sector.setIfInBounds offset (sector.load8 offset) = sector := by
  apply Vector.ext
  intro index bound
  rw [Vector.getElem_setIfInBounds]
  split
  · rename_i same
    subst same
    simp [Sector.load8, bound]
  · rfl

/-- Characters that are there already change nothing. -/
theorem storeChars_of_held (held : ∀ index < count, sector.load8 (offset + index) = char index) :
    storeChars offset char count sector = sector := by
  induction count with
  | zero => rfl
  | succ count induction =>
      have earlier := induction fun index before => held index (Nat.lt_succ_of_lt before)
      rw [storeChars, earlier, ← held count (Nat.lt_succ_self count)]
      exact setIfInBounds_load8 sector _

theorem storeChars_eq_self_iff (bound : offset + count ≤ 512) :
    storeChars offset char count sector = sector ↔
      ∀ index < count, sector.load8 (offset + index) = char index := by
  constructor
  · intro same index among
    rw [← @load8_storeChars sector char offset count index bound among, same]
  · exact storeChars_of_held

end Characters

/-- The label as it stands in a directory. -/
def padded (name : List UInt8) : List UInt8 := name ++ List.replicate (11 - name.length) 0x20

theorem map_labelChar {name : List UInt8} (short : name.length ≤ 11) :
    (List.range 11).map (labelChar name name.length) = padded name := by
  apply List.ext_getElem
  · rw [List.length_map, List.length_range, padded, List.length_append, List.length_replicate]
    omega
  · intro index inside _
    rw [List.length_map, List.length_range] at inside
    rw [List.getElem_map, List.getElem_range, labelChar]
    by_cases later : name.length ≤ index
    · rw [if_pos later]
      simp [padded, List.getElem_append_right later]
    · have before : index < name.length := Nat.not_le.mp later
      rw [if_neg later]
      simp [padded, List.getElem_append_left before, before]

/-! ## What the scans come to -/

/-- The scans stop at a slot by its attributes alone: neither the end mark nor a deleted
entry is looked at. -/
inductive FindsLabel (geometry : Geometry) (sectors : Nat → Sector) : Dir → Dir → Prop where
  | here {dir : Dir} : Inside dir → (slotAt sectors dir).holdsLabel = true →
      FindsLabel geometry sectors dir dir
  | later {dir found : Dir} : Inside dir → (slotAt sectors dir).holdsLabel = false →
      (dir.move geometry sectors).1 = true →
      FindsLabel geometry sectors (dir.move geometry sectors).2 found →
      FindsLabel geometry sectors dir found

/-- There is a label entry in use before the end mark. -/
inductive LiveLabel (geometry : Geometry) (sectors : Nat → Sector) : Dir → Prop where
  | here {dir : Dir} : Used sectors dir → (slotAt sectors dir).byte 0 ≠ 0xE5 →
      (slotAt sectors dir).holdsLabel = true → LiveLabel geometry sectors dir
  | later {dir : Dir} : Used sectors dir → (dir.move geometry sectors).1 = true →
      LiveLabel geometry sectors (dir.move geometry sectors).2 → LiveLabel geometry sectors dir

/-- The disk with a label written to a slot. -/
def labelled (name : List UInt8) (sectors : Nat → Sector) (dir : Dir) : Nat → Sector :=
  Function.update sectors dir.sector
    (storeLabel name name.length dir.rwOffset (sectors dir.sector))

section Scans

variable {geometry : Geometry} {sectors : Nat → Sector} {state : FatState} {dir found : Dir}
  {name : List UInt8}

theorem FindsLabel.inside (finds : FindsLabel geometry sectors dir found) : Inside found := by
  induction finds with
  | here inside _ => exact inside
  | later _ _ _ _ induction => exact induction

theorem labelled_eq_iff (inside : Inside found) (short : name.length ≤ 11) :
    labelled name sectors found = sectors ↔
      (List.range 11).map (slotAt sectors found).byte = padded name := by
  have bound : found.rwOffset + 11 ≤ 512 := by
    rw [Inside] at inside
    omega
  have written : storeLabel name name.length found.rwOffset (sectors found.sector) =
      sectors found.sector ↔ ∀ index < 11,
        (slotAt sectors found).byte index = labelChar name name.length index :=
    storeChars_eq_self_iff bound
  rw [labelled, Function.update_eq_self_iff, written, ← map_labelChar short]
  simp

theorem run_setLabelLoop_round (working : Working geometry sectors state)
    (real : state.volume.buffer = sectors state.volume.bufferLba ∨ dir.sector ≠ 0)
    (name : List UInt8) (length : Nat) :
    ∃ cached, Loaded geometry sectors cached ∧ cached.volume.bufferLba = dir.sector ∧
      ∀ rounds, (setLabelLoop name length (rounds + 1) dir).run state = (
        if dir.rwOffset + 32 ≤ 512 then
          if (slotAt sectors dir).holdsLabel then do
            set { cached with
              volume.buffer := storeLabel name length dir.rwOffset (sectors dir.sector)
              volume.bufferDirty := true }
            let _ ← fatFlush
            pure .error
          else do
            let moved ← fatDirGetNext dir
            if moved.1 then setLabelLoop name length rounds moved.2 else pure .ok
        else Exec.fault .outOfBounds : Exec FatState FStatus).run cached := by
  rcases run_fatRead working real with ⟨cached, read, loaded, buffer⟩
  rcases working.fatRead dir.sector with ⟨other, also, _, held⟩
  cases read.symm.trans also
  refine ⟨cached, loaded, held, ?_⟩
  intro rounds
  rw [setLabelLoop, Exec.run_bind_of_ok read, if_pos rfl,
    Exec.run_bind_of_ok (EStateM.run_get cached), buffer]
  rfl

/-- What is written to the buffer goes to the disk. -/
theorem run_flush_stored (loaded : Loaded geometry sectors state) (buffer : Sector) :
    ∃ after, (do
        set { state with volume.buffer := buffer, volume.bufferDirty := true }
        let _ ← fatFlush
        pure .error : Exec FatState FStatus).run state = .ok .error after ∧
      Working geometry (Function.update sectors state.volume.bufferLba buffer) after := by
  let changed : FatState := { state with volume.buffer := buffer, volume.bufferDirty := true }
  have coherent : changed.Coherent := WriteBack.Coherent.of_dirty rfl
  have stored : changed.logical = Function.update state.logical state.volume.bufferLba buffer :=
    WriteBack.logical_stored state.cache buffer
  rw [loaded.working.logical] at stored
  rcases fatFlush_spec coherent with ⟨flushed, after, flush, quiet, _⟩
  have works : Working geometry (Function.update sectors state.volume.bufferLba buffer) changed :=
    ⟨loaded.working.geometry, stored, coherent, loaded.working.fails⟩
  refine ⟨after, ?_, works.of_transparent quiet⟩
  have sets : (set changed : Exec FatState Unit).run state = .ok () changed := rfl
  rw [Exec.run_bind_of_ok sets, Exec.run_bind_of_ok flush]
  rfl

/-- The scan that writes stops where it finds a label, and writes there. -/
theorem FindsLabel.run_setLabelLoop (finds : FindsLabel geometry sectors dir found)
    (working : Working geometry sectors state)
    (real : state.volume.buffer = sectors state.volume.bufferLba ∨ dir.sector ≠ 0)
    (name : List UInt8) : ∃ enough after, ∀ rounds, enough ≤ rounds →
      (setLabelLoop name name.length rounds dir).run state = .ok .error after ∧
        Working geometry (labelled name sectors found) after := by
  induction finds generalizing state with
  | @here dir inside label =>
      rcases run_setLabelLoop_round working real name name.length with
        ⟨cached, loaded, held, round⟩
      rcases run_flush_stored loaded
        (storeLabel name name.length dir.rwOffset (sectors dir.sector)) with ⟨after, writes, works⟩
      rw [held] at works
      refine ⟨1, after, ?_⟩
      intro rounds enough
      cases rounds with
      | zero => cases enough
      | succ rounds =>
          have position : dir.rwOffset + 32 ≤ 512 := inside
          rw [round rounds, if_pos position, if_pos label]
          exact ⟨writes, works⟩
  | @later dir found inside unlabelled moves _ induction =>
      rcases run_setLabelLoop_round working real name name.length with
        ⟨cached, loaded, held, round⟩
      rcases loaded.dirGetNext dir with ⟨moved, goes, still⟩
      rcases induction still.working (.inl still.buffer) with ⟨enough, after, rest⟩
      refine ⟨enough + 1, after, ?_⟩
      intro rounds more
      cases rounds with
      | zero => cases more
      | succ rounds =>
          have position : dir.rwOffset + 32 ≤ 512 := inside
          rw [round rounds, if_pos position, if_neg (by simp [unlabelled]),
            Exec.run_bind_of_ok goes, if_pos moves]
          exact rest rounds (Nat.le_of_succ_le_succ more)

/-- A return other than `FSTATUS_OK` has written a label. -/
theorem setLabelLoop_inv {rounds : Nat} {status : FStatus} {after : FatState}
    (working : Working geometry sectors state)
    (real : state.volume.buffer = sectors state.volume.bufferLba ∨ dir.sector ≠ 0)
    (returns : (setLabelLoop name name.length rounds dir).run state = .ok status after)
    (failed : status ≠ .ok) : ∃ found, FindsLabel geometry sectors dir found ∧
      after.logical = labelled name sectors found := by
  induction rounds generalizing state dir with
  | zero => cases returns
  | succ rounds induction =>
      rcases run_setLabelLoop_round working real name name.length with
        ⟨cached, loaded, held, round⟩
      rw [round rounds] at returns
      by_cases inside : dir.rwOffset + 32 ≤ 512
      · rw [if_pos inside] at returns
        cases label : (slotAt sectors dir).holdsLabel with
        | true =>
            rcases run_flush_stored loaded
              (storeLabel name name.length dir.rwOffset (sectors dir.sector)) with
              ⟨final, writes, works⟩
            rw [if_pos label] at returns
            cases writes.symm.trans returns
            rw [held] at works
            exact ⟨dir, .here inside label, works.logical⟩
        | false =>
            rcases loaded.dirGetNext dir with ⟨moved, goes, still⟩
            rw [if_neg (by simp [label]), Exec.run_bind_of_ok goes] at returns
            cases moves : (dir.move geometry sectors).1 with
            | true =>
                rw [if_pos moves] at returns
                rcases induction still.working (.inl still.buffer) returns with
                  ⟨found, finds, stored⟩
                exact ⟨found, .later inside label moves finds, stored⟩
            | false =>
                rw [if_neg (by simp [moves])] at returns
                cases returns
                exact absurd rfl failed
      · rw [if_neg inside] at returns
        cases returns

/-- The other scan stops there too, and reports an error as well. -/
theorem FindsLabel.returns (finds : FindsLabel geometry sectors dir found) :
    Loop.Returns (labelRound geometry sectors) dir
      (.ok (.error, (List.range 11).map (slotAt sectors found).byte)) := by
  induction finds with
  | here inside label => exact .done (labelRound_found inside label)
  | later inside unlabelled moves _ induction =>
      exact .next (labelRound_next inside unlabelled moves) induction

theorem FindsLabel.run_labelLoop (finds : FindsLabel geometry sectors dir found)
    (working : Working geometry sectors state)
    (real : state.volume.buffer = sectors state.volume.bufferLba ∨ dir.sector ≠ 0) :
    ∃ rounds after, (labelLoop rounds dir).run state =
      .ok (.error, (List.range 11).map (slotAt sectors found).byte) after := by
  rcases finds.returns.run_eq with ⟨enough, runs⟩
  rcases run_labelLoop_eq enough working real with ⟨after, settles, _⟩
  rw [runs enough (Nat.le_refl enough)] at settles
  exact ⟨enough, after, settles⟩

/-- `fat_get_vol_label` has no exit with `FSTATUS_OK`. -/
theorem labelLoop_not_ok {rounds : Nat} {status : FStatus} {label : List UInt8}
    {after : FatState} (returns : (labelLoop rounds dir).run state = .ok (status, label) after) :
    status = .error := by
  induction rounds generalizing state dir with
  | zero => cases returns
  | succ rounds induction =>
      rw [labelLoop] at returns
      rcases Exec.run_bind_ok.mp returns with ⟨cached, between, _, rest⟩
      cases cached with
      | false =>
          cases rest
          rfl
      | true =>
          rw [if_pos rfl, Exec.run_bind_of_ok (EStateM.run_get between)] at rest
          dsimp only at rest
          by_cases inside : dir.rwOffset + 32 ≤ 512
          · rw [if_pos inside] at rest
            by_cases found : (⟨between.volume.buffer, dir.rwOffset⟩ : Slot).holdsLabel = true
            · rw [if_pos found] at rest
              cases rest
              rfl
            · rw [if_neg found] at rest
              rcases Exec.run_bind_ok.mp rest with ⟨moved, middle, _, later⟩
              cases goes : moved.1 with
              | true =>
                  rw [if_pos goes] at later
                  exact induction later
              | false =>
                  rw [if_neg (by simp [goes])] at later
                  cases later
                  rfl
          · rw [if_neg inside] at rest
            cases rest

end Scans

/-! ## The functions -/

/-- Setting a label and getting it, as they are to work: a label in use is replaced and
reported back, and without one both calls fail and the disk stays as it is. -/
def SetsLabel (state : FatState) (name : List UInt8) : Prop :=
  let live := LiveLabel state.volume.toGeometry state.logical (labelDir state.volume.toGeometry)
  ∃ rounds status after, (volumeSetLabel rounds name name.length).run state = .ok status after ∧
    ∃ rounds reported label final,
      (volumeGetLabel rounds).run after = .ok (reported, label) final ∧
      (live → status = .ok ∧ reported = .ok ∧ label = padded name) ∧
      (¬ live → status ≠ .ok ∧ reported ≠ .ok ∧ after.logical = state.logical)

theorem run_volumeSetLabel (rounds : Nat) (name : List UInt8) (length : Nat) (state : FatState) :
    (volumeSetLabel rounds name length).run state =
      (setLabelLoop name length rounds (labelDir state.volume.toGeometry)).run state := by
  rw [volumeSetLabel, Exec.run_bind_of_ok (EStateM.run_get state)]
  rfl

/-- A label in use is never set and reported as it should be. Without one the two calls are
right just when the slot that they take for the label holds these characters already. -/
theorem volume_label_right_iff {state : FatState} (usable : Usable state) {name : List UInt8}
    (short : name.length ≤ 11) : SetsLabel state name ↔
      ¬ LiveLabel state.volume.toGeometry state.logical (labelDir state.volume.toGeometry) ∧
      ∃ found, FindsLabel state.volume.toGeometry state.logical
          (labelDir state.volume.toGeometry) found ∧
        (List.range 11).map (slotAt state.logical found).byte = padded name := by
  have real : state.volume.buffer = state.logical state.volume.bufferLba ∨
      (labelDir state.volume.toGeometry).sector ≠ 0 := .inr usable.rooted
  constructor
  · rintro ⟨rounds, status, after, sets, later, reported, label, final, gets, withLabel, without⟩
    rw [volumeGetLabel, run_fatGetVolLabel] at gets
    rw [run_volumeSetLabel] at sets
    have absent : ¬ LiveLabel state.volume.toGeometry state.logical
        (labelDir state.volume.toGeometry) := by
      intro live
      have error := labelLoop_not_ok gets
      cases error.symm.trans (withLabel live).2.1
    rcases without absent with ⟨failed, _, same⟩
    rcases setLabelLoop_inv usable.working real sets failed with ⟨found, finds, stored⟩
    exact ⟨absent, found, finds, (labelled_eq_iff finds.inside short).mp (stored.symm.trans same)⟩
  · rintro ⟨absent, found, finds, held⟩
    have unchanged := (labelled_eq_iff finds.inside short).mpr held
    rcases finds.run_setLabelLoop usable.working real name with ⟨enough, after, sets⟩
    rcases sets enough (Nat.le_refl enough) with ⟨returns, works⟩
    rw [unchanged] at works
    have rooted : (labelDir state.volume.toGeometry).sector ≠ 0 := usable.rooted
    rcases finds.run_labelLoop works (.inr rooted) with ⟨rounds, final, gets⟩
    rw [held] at gets
    refine ⟨enough, .error, after, ?_, rounds, .error, padded name, final, ?_,
      fun live => absurd live absent, fun _ => ⟨by simp, by simp, works.logical⟩⟩
    · rw [run_volumeSetLabel]
      exact returns
    · rw [volumeGetLabel, run_fatGetVolLabel, works.geometry]
      exact gets

/-- The label `A` in a slot of the root directory, which is otherwise blank. -/
def sectorWithLabel (slot lba offset : Nat) : UInt8 :=
  if lba = 64 ∧ offset / 32 = slot then
    match offset % 32 with
    | 0 => 0x41
    | 11 => 0x08
    | column => if column < 11 then 0x20 else 0
  else 0

def volumeWithLabel (slot : Nat) : FatState :=
  { blankVolume with
    device := { blankVolume.device with
      sector := fun lba => .ofFn fun offset => sectorWithLabel slot lba offset } }

theorem volumeWithLabel_usable (slot : Nat) : Usable (volumeWithLabel slot) where
  working := ⟨rfl, rfl, fun _ used => absurd rfl used, fun _ => rfl⟩
  rooted := blankVolume_usable.rooted

theorem volumeWithLabel_byte {slot column : Nat} {dir : Dir} (inside : dir.rwOffset + column < 512) :
    (slotAt (volumeWithLabel slot).logical dir).byte column =
      sectorWithLabel slot dir.sector (dir.rwOffset + column) :=
  Sector.load8_ofFn (fun offset => sectorWithLabel slot dir.sector offset) inside

theorem volumeWithLabel_holdsLabel {slot : Nat} {dir : Dir} (inside : Inside dir)
    (label : sectorWithLabel slot dir.sector (dir.rwOffset + 11) = 0x08) :
    (slotAt (volumeWithLabel slot).logical dir).holdsLabel = true := by
  rw [Inside] at inside
  rw [Slot.holdsLabel, Slot.isLong, @volumeWithLabel_byte slot 11 dir (by omega), label]
  decide

/-- An old label `A` behind the end mark: setting `A` fails, and changes nothing. -/
theorem volume_label_right_iff_old : SetsLabel (volumeWithLabel 1) [0x41] := by
  let start := labelDir (volumeWithLabel 1).volume.toGeometry
  have marked : (slotAt (volumeWithLabel 1).logical start).byte 0 = 0 :=
    (@volumeWithLabel_byte 1 0 start (by decide)).trans (by decide)
  have unlabelled : (slotAt (volumeWithLabel 1).logical start).holdsLabel = false := by
    rw [Slot.holdsLabel, @volumeWithLabel_byte 1 11 start (by decide)]
    decide
  apply (volume_label_right_iff (volumeWithLabel_usable 1) (by decide)).mpr
  refine ⟨?_, { start with rwOffset := 32 }, .later (by decide) unlabelled (by decide)
    (.here (by decide) (volumeWithLabel_holdsLabel (by decide) (by decide))), ?_⟩
  · intro live
    cases live with
    | here used _ _ => exact used.unmarked marked
    | later used _ _ => exact used.unmarked marked
  · have bytes : ∀ index < 11, (slotAt (volumeWithLabel 1).logical
        { start with rwOffset := 32 }).byte index = labelChar [0x41] 1 index := by
      intro index bound
      rw [volumeWithLabel_byte (show 32 + index < 512 by omega)]
      revert index
      decide
    rw [← map_labelChar (by decide)]
    exact List.map_congr_left fun index member => bytes index (List.mem_range.mp member)

/-- The label in the first slot is replaced, and both calls report an error. -/
theorem volume_label_reports_error :
    LiveLabel (volumeWithLabel 0).volume.toGeometry (volumeWithLabel 0).logical
      (labelDir (volumeWithLabel 0).volume.toGeometry) ∧
    (∃ rounds after,
      (volumeSetLabel rounds [0x42] 1).run (volumeWithLabel 0) = .ok .error after) ∧
    ¬ SetsLabel (volumeWithLabel 0) [0x42] := by
  have usable := volumeWithLabel_usable 0
  let start := labelDir (volumeWithLabel 0).volume.toGeometry
  have first : (slotAt (volumeWithLabel 0).logical start).byte 0 = 0x41 :=
    (@volumeWithLabel_byte 0 0 start (by decide)).trans (by decide)
  have label : (slotAt (volumeWithLabel 0).logical start).holdsLabel = true :=
    volumeWithLabel_holdsLabel (by decide) (by decide)
  have live : LiveLabel (volumeWithLabel 0).volume.toGeometry (volumeWithLabel 0).logical start :=
    .here ⟨by decide, by rw [first]; decide⟩ (by rw [first]; decide) label
  have finds : FindsLabel (volumeWithLabel 0).volume.toGeometry (volumeWithLabel 0).logical start
      start := .here (by decide) label
  refine ⟨live, ?_, ?_⟩
  · have rooted : (labelDir (volumeWithLabel 0).volume.toGeometry).sector ≠ 0 := usable.rooted
    rcases finds.run_setLabelLoop usable.working (.inr rooted) [0x42] with ⟨enough, after, sets⟩
    refine ⟨enough, after, ?_⟩
    rw [run_volumeSetLabel]
    exact (sets enough (Nat.le_refl enough)).1
  · rintro ⟨_, _, after, _, rounds, reported, label, final, gets, withLabel, _⟩
    rw [volumeGetLabel, run_fatGetVolLabel] at gets
    cases (labelLoop_not_ok gets).symm.trans (withLabel live).2.1

end Vanilla.Disk
