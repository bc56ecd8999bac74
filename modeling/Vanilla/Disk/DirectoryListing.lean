import Vanilla.Disk.LongName
import Vanilla.Disk.Traversal

namespace Vanilla.Disk

/-! Listing a directory by repeated calls of `fat_dir_read`. -/

/-- The position is that of a slot of the chain: its sector, its cluster and its
offset are consistent. -/
structure StandsAt (geometry : Geometry) (extent : Extent) (index : Nat) (dir : Dir) : Prop where
  sector : dir.sector = fileSector geometry extent (index / 16)
  cluster : dir.cluster = extent.cluster (index / 16 / geometry.clusterSize)
  rwOffset : dir.rwOffset = index % 16 * 32

/-- The position of a slot of the chain. -/
def chainPlace (geometry : Geometry) (extent : Extent) (dir : Dir) (index : Nat) : Dir :=
  { dir with
    sector := fileSector geometry extent (index / 16)
    cluster := extent.cluster (index / 16 / geometry.clusterSize)
    rwOffset := index % 16 * 32 }

/-- How many slots the chain has. -/
def slotCount (geometry : Geometry) (extent : Extent) : Nat :=
  extent.clusters * geometry.clusterSize * 16

/-- The entries in use from a slot of the chain on, up to the end mark or the end
of the chain. -/
def chainEntries (geometry : Geometry) (sectors : Nat → Sector) (extent : Extent) (dir : Dir)
    (index : Nat) : List Dir :=
  (((List.range' index (slotCount geometry extent - index)).map
    (chainPlace geometry extent dir)).takeWhile
      fun place => (slotAt sectors place).byte 0 != 0).filter
        fun place => (slotAt sectors place).isEntry

/-- Repeated calls return the entries at these positions one by one, and then the
end of the directory. A call that returns the error for a wrong checksum returns no
entry. -/
inductive Lists (geometry : Geometry) (sectors : Nat → Sector) :
    FatState → Dir → Info → List Dir → Prop where
  | eof {state after : FatState} {dir : Dir} {info : Info} {rounds : Nat}
      {result : DirReadResult} : (fatDirRead rounds dir info).run state = .ok result after →
      result.status = .eof → Lists geometry sectors state dir info []
  | error {state after : FatState} {dir : Dir} {info : Info} {rounds : Nat}
      {result : DirReadResult} {places : List Dir} :
      (fatDirRead rounds dir info).run state = .ok result after → result.status = .error →
      Lists geometry sectors after result.dir result.info places →
      Lists geometry sectors state dir info places
  | entry {state after : FatState} {dir place : Dir} {info : Info} {rounds : Nat}
      {result : DirReadResult} {places : List Dir} :
      (fatDirRead rounds dir info).run state = .ok result after → result.status = .ok →
      result.info.Fields (slotAt sectors place) →
      result.dir = (place.move geometry sectors).2 →
      Lists geometry sectors after result.dir result.info places →
      Lists geometry sectors state dir info (place :: places)

/-! ## Positions -/

section Positions

variable {geometry : Geometry} {sectors : Nat → Sector} {dir : Dir} {extent : Extent}

theorem Dir.walk_add (first second : Nat) : dir.walk geometry sectors (first + second) =
    (dir.walk geometry sectors first).walk geometry sectors second := by
  induction first generalizing dir with
  | zero => rw [Nat.zero_add, Dir.walk]
  | succ first induction =>
      rw [Nat.succ_add, Dir.walk, Dir.walk]
      exact induction

theorem Dir.walk_succ (count : Nat) : dir.walk geometry sectors (count + 1) =
    ((dir.walk geometry sectors count).move geometry sectors).2 :=
  Dir.walk_add count 1

theorem Aligned.move (sectorSize : geometry.sectorSize = 512) (aligned : Aligned dir) :
    Aligned (dir.move geometry sectors).2 := by
  rcases aligned with ⟨whole, below⟩
  by_cases last : dir.rwOffset = 480
  · rw [move_over sectorSize last]
    split
    · split <;> exact ⟨rfl, (by decide : 0 < 512)⟩
    · exact ⟨rfl, (by decide : 0 < 512)⟩
  · rw [move_within sectorSize (by omega)]
    constructor
    · change (dir.rwOffset + 32) % 32 = 0
      omega
    · change dir.rwOffset + 32 < 512
      omega

theorem Aligned.walk (sectorSize : geometry.sectorSize = 512) (aligned : Aligned dir)
    (count : Nat) : Aligned (dir.walk geometry sectors count) := by
  induction count generalizing dir with
  | zero => exact aligned
  | succ count induction => exact induction (aligned.move sectorSize)

theorem StandsAt.aligned {index : Nat} (stands : StandsAt geometry extent index dir) :
    Aligned dir := by
  rw [Aligned, stands.rwOffset]
  omega

/-- Within the chain, the next position is that of the next slot. -/
theorem StandsAt.move (chain : DirectoryChain geometry sectors extent) {index : Nat}
    (stands : StandsAt geometry extent index dir) (bound : index + 1 < slotCount geometry extent) :
    StandsAt geometry extent (index + 1) (dir.move geometry sectors).2 := by
  rw [slotCount] at bound
  by_cases last : index % 16 = 15
  · have nextSector : (index + 1) / 16 = index / 16 + 1 := by omega
    have nextOffset : (index + 1) % 16 = 0 := by omega
    have nextBound : index / 16 + 1 < extent.clusters * geometry.clusterSize := by omega
    have here : index / 16 < extent.clusters * geometry.clusterSize := by omega
    have inside : (index / 16 + 1) / geometry.clusterSize < extent.clusters :=
      Nat.div_lt_of_lt_mul (by rwa [Nat.mul_comm])
    have offset : dir.rwOffset = 480 := by rw [stands.rwOffset, last]
    have fires := fires_iff chain here
    rw [← stands.cluster, ← stands.sector] at fires
    rw [move_over chain.sectorSize offset]
    rcases succ_index (index / 16) chain.clusterSize with
      ⟨within, same, step⟩ | ⟨full, next, start⟩
    · have placed := chain.placed _ inside
      rw [if_neg (by rw [fires]; omega)]
      refine ⟨?_, ?_, ?_⟩
      · change u32 (dir.sector + 1) = _
        rw [same] at placed
        rw [nextSector, stands.sector, fileSector, fileSector, same, step, u32_of_lt (by omega),
          Nat.add_assoc]
      · rw [nextSector, same]
        exact stands.cluster
      · rw [nextOffset]
    · have linked := chain.linked (index / 16 / geometry.clusterSize) (by rw [← next]; exact inside)
      rw [← next, ← stands.cluster] at linked
      have goesOn := chain.toWellFormed.not_endOfChain inside
      rw [if_pos (fires.mpr full), linked, goesOn, if_neg Bool.false_ne_true]
      refine ⟨?_, ?_, ?_⟩
      · change fatClustToSect geometry _ = _
        rw [chain.toWellFormed.fatClustToSect_eq inside, nextSector, fileSector, start]
        rfl
      · rw [nextSector]
      · rw [nextOffset]
  · have sameSector : (index + 1) / 16 = index / 16 := by omega
    have nextOffset : (index + 1) % 16 = index % 16 + 1 := by omega
    have offset := stands.rwOffset
    rw [move_within chain.sectorSize (by omega)]
    refine ⟨?_, ?_, ?_⟩
    · rw [sameSector]
      exact stands.sector
    · rw [sameSector]
      exact stands.cluster
    · change dir.rwOffset + 32 = _
      omega

/-- A move keeps what is recorded of the start of the directory. -/
theorem move_eq : ∃ sector cluster rwOffset, (dir.move geometry sectors).2 =
    { dir with sector := sector, cluster := cluster, rwOffset := rwOffset } := by
  rw [Dir.move]
  dsimp only
  split
  · split
    · split
      · exact ⟨_, _, _, rfl⟩
      · exact ⟨_, _, _, rfl⟩
    · exact ⟨_, _, _, rfl⟩
  · exact ⟨_, _, _, rfl⟩

theorem StandsAt.walk (chain : DirectoryChain geometry sectors extent) {index count : Nat}
    (stands : StandsAt geometry extent index dir)
    (bound : index + count < slotCount geometry extent) :
    dir.walk geometry sectors count = chainPlace geometry extent dir (index + count) := by
  have place : StandsAt geometry extent (index + count) (dir.walk geometry sectors count) ∧
      (dir.walk geometry sectors count).startSect = dir.startSect ∧
      (dir.walk geometry sectors count).size = dir.size := by
    induction count with
    | zero => exact ⟨stands, rfl, rfl⟩
    | succ count induction =>
        rcases induction (by omega) with ⟨before, start, size⟩
        rw [Dir.walk_succ]
        refine ⟨before.move chain (by omega), ?_⟩
        rcases @move_eq geometry sectors (dir.walk geometry sectors count) with ⟨_, _, _, moved⟩
        rw [moved]
        exact ⟨start, size⟩
  rcases place with ⟨⟨sector, cluster, offset⟩, start, size⟩
  generalize dir.walk geometry sectors count = other at sector cluster offset start size
  cases other
  dsimp only at sector cluster offset start size
  subst sector cluster offset start size
  rfl

end Positions

/-! ## One call -/

section Calls

variable {geometry : Geometry} {sectors : Nat → Sector} {state after : FatState} {dir : Dir}
  {info : Info} {reading : Reading} {result : DirReadResult}

/-- The slot some entries further on. -/
def slotBehind (geometry : Geometry) (sectors : Nat → Sector) (dir : Dir) (count : Nat) : Slot :=
  slotAt sectors (dir.walk geometry sectors count)

/-- What a call has returned, by the number of entries that it passed. -/
inductive Returned (geometry : Geometry) (sectors : Nat → Sector) (dir : Dir) (lfnCrc : UInt8)
    (result : DirReadResult) (count : Nat) : Prop where
  | eof : (slotBehind geometry sectors dir count).byte 0 = 0 → result.status = .eof →
      Returned geometry sectors dir lfnCrc result count
  | entry : (slotBehind geometry sectors dir count).isEntry = true → result.status = .ok →
      result.info.Fields (slotBehind geometry sectors dir count) →
      result.dir = dir.walk geometry sectors (count + 1) →
      Returned geometry sectors dir lfnCrc result count
  | error : (slotBehind geometry sectors dir count).isEntry = true → result.status = .error →
      result.dir = dir.walk geometry sectors count → (count = 0 → lfnCrc ≠ 0) →
      Returned geometry sectors dir lfnCrc result count

theorem marked_of_eof {slot : Slot} (step : readStep slot reading = .eof) :
    slot.byte 0 = 0 := by
  by_contra unmarked
  cases entry : slot.isEntry with
  | true =>
      rw [readStep_entry entry] at step
      split at step
      · split at step <;> cases step
      · cases step
  | false =>
      rcases @readStep_passed reading _ unmarked entry with ⟨more, next⟩
      cases next.symm.trans step

theorem isEntry_of_crcError {slot : Slot} (step : readStep slot reading = .crcError) :
    slot.isEntry = true := by
  apply @isEntry_of_stops reading
  · rw [step]
    intro ended
    cases ended
  · rw [step]
    intro more next
    cases next

/-- The last round of a call, at the entry that it does not pass. -/
theorem readRound_last
    (stops : readRound geometry sectors info (dir, reading) = .inl (.ok result)) :
    Returned geometry sectors dir reading.lfnCrc result 0 := by
  by_cases inside : Inside dir
  · rw [readRound_inside inside] at stops
    cases step : readStep (slotAt sectors dir) reading with
    | eof =>
        rw [step] at stops
        cases stops
        exact .eof (marked_of_eof step) rfl
    | crcError =>
        rw [step] at stops
        cases stops
        have entry := isEntry_of_crcError step
        refine .error entry rfl rfl ?_
        intro _ zero
        rw [readStep_entry entry, if_neg (not_not.mpr zero)] at step
        cases step
    | entry last =>
        rw [step] at stops
        cases stops
        exact .entry (isEntry_of_readStep step) rfl (describe_fields _ _) rfl
    | next more =>
        rw [step] at stops
        cases stops
  · cases (readRound_outside inside).symm.trans stops

/-- Any other round passes an entry. -/
theorem readRound_next {later : Dir × Reading}
    (goesOn : readRound geometry sectors info (dir, reading) = .inr later) :
    (slotAt sectors dir).Passed ∧ later.1 = (dir.move geometry sectors).2 := by
  by_cases inside : Inside dir
  · rw [readRound_inside inside] at goesOn
    cases step : readStep (slotAt sectors dir) reading with
    | next more =>
        rw [step] at goesOn
        cases goesOn
        exact ⟨passed_of_readStep step, rfl⟩
    | _ =>
        rw [step] at goesOn
        cases goesOn
  · cases (readRound_outside inside).symm.trans goesOn

theorem readRound_inv {position : Dir × Reading} {outcome : Except Fault DirReadResult}
    (returns : Loop.Returns (readRound geometry sectors info) position outcome)
    (ok : outcome = .ok result) : ∃ count,
      (∀ earlier < count, (slotBehind geometry sectors position.1 earlier).Passed) ∧
      Returned geometry sectors position.1 position.2.lfnCrc result count := by
  induction returns with
  | done stops =>
      subst ok
      exact ⟨0, nofun, readRound_last stops⟩
  | next goesOn _ induction =>
      rcases readRound_next goesOn with ⟨here, moved⟩
      rcases induction ok with ⟨count, passed, returned⟩
      rw [moved] at passed returned
      refine ⟨count + 1, ?_, ?_⟩
      · intro earlier below
        cases earlier with
        | zero => exact here
        | succ earlier => exact passed earlier (Nat.lt_of_succ_lt_succ below)
      · cases returned with
        | eof marked eof => exact .eof marked eof
        | entry entry ok fields later => exact .entry entry ok fields later
        | error entry error later _ =>
            exact .error entry error later fun none_ => absurd none_ (Nat.succ_ne_zero _)

theorem readRound_done (inside : Inside dir) (stop : ¬ (slotAt sectors dir).Passed) :
    ∃ result, readRound geometry sectors info (dir, reading) = .inl (.ok result) := by
  rw [readRound_inside inside]
  cases step : readStep (slotAt sectors dir) reading with
  | next more => exact absurd (passed_of_readStep step) stop
  | eof => exact ⟨_, rfl⟩
  | crcError => exact ⟨_, rfl⟩
  | entry last => exact ⟨_, rfl⟩

/-- A call ends at the latest at an entry that cannot be passed. -/
theorem readRound_ends (sectorSize : geometry.sectorSize = 512) (aligned : Aligned dir)
    {count : Nat} (stop : ¬ (slotBehind geometry sectors dir count).Passed) :
    ∃ result, Loop.Returns (readRound geometry sectors info) (dir, reading) (.ok result) := by
  induction count generalizing dir reading with
  | zero =>
      rcases @readRound_done geometry _ _ info reading aligned.inside stop with ⟨result, done⟩
      exact ⟨result, .done done⟩
  | succ count induction =>
      by_cases here : (slotAt sectors dir).Passed
      · rcases @induction _ (reading.pass (slotAt sectors dir)) (aligned.move sectorSize) stop with
          ⟨result, returns⟩
        refine ⟨result, .next ?_ returns⟩
        rw [readRound_inside aligned.inside, readStep_pass here.1 here.2]
      · rcases @readRound_done geometry _ _ info reading aligned.inside here with ⟨result, done⟩
        exact ⟨result, .done done⟩

theorem fatDirRead_inv (working : Working geometry sectors state)
    (real : state.volume.buffer = sectors state.volume.bufferLba ∨ dir.sector ≠ 0) {rounds : Nat}
    (returns : (fatDirRead rounds dir info).run state = .ok result after) :
    Loaded geometry sectors after ∧ ∃ count,
      (∀ earlier < count, (slotBehind geometry sectors dir earlier).Passed) ∧
      Returned geometry sectors dir 0 result count := by
  rcases @run_dirReadLoop_eq _ _ _ dir info rounds ⟨0, 0, info.name, []⟩ working real with
    ⟨final, runs, loaded⟩
  have outcome := (fatDirRead_returns_iff working real).mp ⟨rounds, after, returns⟩
  rw [fatDirRead, runs] at returns
  refine ⟨?_, readRound_inv outcome rfl⟩
  cases ends : Loop.run (readRound geometry sectors info) rounds
      (dir, ⟨0, 0, info.name, []⟩) with
  | none =>
      rw [ends] at returns
      cases returns
  | some value =>
      rw [ends] at returns
      cases value with
      | error reason => cases returns
      | ok value =>
          cases returns
          exact loaded _ ends

/-- A call from a position from which the directory does not go on for ever. -/
theorem fatDirRead_call (working : Working geometry sectors state)
    (real : state.volume.buffer = sectors state.volume.bufferLba ∨ dir.sector ≠ 0)
    (sectorSize : geometry.sectorSize = 512) (aligned : Aligned dir) (info : Info) {count : Nat}
    (stop : ¬ (slotBehind geometry sectors dir count).Passed) :
    ∃ rounds result after, (fatDirRead rounds dir info).run state = .ok result after := by
  rcases @readRound_ends _ _ _ info ⟨0, 0, info.name, []⟩ sectorSize aligned _ stop with
    ⟨result, returns⟩
  rcases (fatDirRead_returns_iff working real).mpr returns with ⟨rounds, after, runs⟩
  exact ⟨rounds, result, after, runs⟩

end Calls

/-! ## All calls -/

/-- The positions of the entries in use among the next ones. -/
def entriesBefore (geometry : Geometry) (sectors : Nat → Sector) (dir : Dir) (count : Nat) :
    List Dir :=
  ((List.range count).map fun earlier => dir.walk geometry sectors earlier).filter
    fun place => (slotAt sectors place).isEntry

/-- The first end mark from a position on. -/
structure FirstMark (geometry : Geometry) (sectors : Nat → Sector) (dir : Dir) (count : Nat) :
    Prop where
  unmarked : ∀ earlier < count, (slotBehind geometry sectors dir earlier).byte 0 ≠ 0
  marked : (slotBehind geometry sectors dir count).byte 0 = 0

section Listing

variable {geometry : Geometry} {sectors : Nat → Sector} {state : FatState} {dir : Dir}
  {info : Info} {extent : Extent}

theorem entriesBefore_add (first second : Nat) :
    entriesBefore geometry sectors dir (first + second) =
      entriesBefore geometry sectors dir first ++
        entriesBefore geometry sectors (dir.walk geometry sectors first) second := by
  have later : (fun earlier => dir.walk geometry sectors earlier) ∘ (first + ·) =
      fun earlier => (dir.walk geometry sectors first).walk geometry sectors earlier := by
    funext count
    exact Dir.walk_add first count
  rw [entriesBefore, List.range_add, List.map_append, List.filter_append, List.map_map, later]
  rfl

theorem entriesBefore_eq_nil_iff {count : Nat} : entriesBefore geometry sectors dir count = [] ↔
    ∀ earlier < count, (slotBehind geometry sectors dir earlier).isEntry = false := by
  rw [entriesBefore, List.filter_eq_nil_iff]
  constructor
  · intro none_ earlier below
    have quiet := none_ _ (List.mem_map.mpr ⟨earlier, List.mem_range.mpr below, rfl⟩)
    exact Bool.eq_false_iff.mpr quiet
  · intro quiet place member
    rcases List.mem_map.mp member with ⟨earlier, below, same⟩
    have passed := quiet earlier (List.mem_range.mp below)
    rw [slotBehind, same] at passed
    simp [passed]

theorem entriesBefore_passed {count : Nat}
    (passed : ∀ earlier < count, (slotBehind geometry sectors dir earlier).Passed) :
    entriesBefore geometry sectors dir count = [] :=
  entriesBefore_eq_nil_iff.mpr fun earlier below => (passed earlier below).2

theorem entriesBefore_one (entry : (slotAt sectors dir).isEntry = true) :
    entriesBefore geometry sectors dir 1 = [dir] := by
  simp [entriesBefore, Dir.walk, entry]

theorem slotBehind_add (first second : Nat) :
    slotBehind geometry sectors (dir.walk geometry sectors first) second =
      slotBehind geometry sectors dir (first + second) := by
  rw [slotBehind, slotBehind, Dir.walk_add]

theorem FirstMark.later {first second : Nat}
    (mark : FirstMark geometry sectors dir (first + second)) :
    FirstMark geometry sectors (dir.walk geometry sectors first) second where
  unmarked earlier below := by
    rw [slotBehind_add]
    exact mark.unmarked _ (Nat.add_lt_add_left below first)
  marked := by
    rw [slotBehind_add]
    exact mark.marked

theorem FirstMark.extend {first second : Nat}
    (mark : FirstMark geometry sectors (dir.walk geometry sectors first) second)
    (unmarked : ∀ earlier < first, (slotBehind geometry sectors dir earlier).byte 0 ≠ 0) :
    FirstMark geometry sectors dir (first + second) where
  unmarked earlier below := by
    rcases Nat.lt_or_ge earlier first with before | behind
    · exact unmarked earlier before
    · have there := mark.unmarked (earlier - first) (by omega)
      rw [slotBehind_add, Nat.add_sub_cancel' behind] at there
      exact there
  marked := by
    have there := mark.marked
    rw [slotBehind_add] at there
    exact there

/-- Up to an end mark, the calls return every entry in use. -/
theorem Lists.of_mark (working : Working geometry sectors state)
    (real : state.volume.buffer = sectors state.volume.bufferLba ∨ dir.sector ≠ 0)
    (sectorSize : geometry.sectorSize = 512) (aligned : Aligned dir) {count : Nat}
    (mark : FirstMark geometry sectors dir count) :
    Lists geometry sectors state dir info (entriesBefore geometry sectors dir count) := by
  induction count using Nat.strong_induction_on generalizing state dir info with
  | _ count induction =>
      have stop : ¬ (slotBehind geometry sectors dir count).Passed :=
        fun passed => passed.1 mark.marked
      rcases fatDirRead_call working real sectorSize aligned info stop with
        ⟨rounds, result, after, runs⟩
      rcases fatDirRead_inv working real runs with ⟨loaded, passes, passed, returned⟩
      have within : passes ≤ count := by
        by_contra beyond
        exact stop (passed count (Nat.lt_of_not_le beyond))
      have none_ := entriesBefore_passed passed
      cases returned with
      | eof marked eof =>
          have here : passes = count := by
            by_contra apart
            exact mark.unmarked passes (Nat.lt_of_le_of_ne within apart) marked
          rw [← here, none_]
          exact .eof runs eof
      | entry entry ok fields next =>
          have before : passes < count := by
            refine Nat.lt_of_le_of_ne within ?_
            rintro rfl
            rw [Slot.isEntry, mark.marked] at entry
            cases entry
          have split : count = passes + 1 + (count - (passes + 1)) := by omega
          rw [split] at mark
          have later := @induction (count - (passes + 1)) (by omega) _ _ result.info loaded.working
            (.inl loaded.buffer) (aligned.walk sectorSize _) mark.later
          rw [split, entriesBefore_add, entriesBefore_add, none_, List.nil_append,
            entriesBefore_one entry]
          rw [← next] at later ⊢
          refine .entry runs ok fields ?_ later
          rw [next, Dir.walk_succ]
      | error entry error here progress =>
          have some_ : passes ≠ 0 := fun none_ => progress none_ rfl
          have split : count = passes + (count - passes) := by omega
          rw [split] at mark
          have later := @induction (count - passes) (by omega) _ _ result.info loaded.working
            (.inl loaded.buffer) (aligned.walk sectorSize _) mark.later
          rw [split, entriesBefore_add, none_, List.nil_append]
          rw [← here] at later ⊢
          exact .error runs error later

/-- Calls that come to the end of the directory have come to an end mark, and have
returned as many entries as there are before it. -/
theorem Lists.mark {places : List Dir} (lists : Lists geometry sectors state dir info places)
    (working : Working geometry sectors state)
    (real : state.volume.buffer = sectors state.volume.bufferLba ∨ dir.sector ≠ 0) :
    ∃ count, FirstMark geometry sectors dir count ∧
      (entriesBefore geometry sectors dir count).length = places.length := by
  induction lists with
  | eof runs eof =>
      rcases fatDirRead_inv working real runs with ⟨_, passes, passed, returned⟩
      cases returned with
      | eof marked _ =>
          refine ⟨passes, ⟨fun earlier below => (passed earlier below).1, marked⟩, ?_⟩
          rw [entriesBefore_passed passed]
      | entry _ ok _ _ => cases eof.symm.trans ok
      | error _ error _ _ => cases eof.symm.trans error
  | error runs error _ induction =>
      rcases fatDirRead_inv working real runs with ⟨loaded, passes, passed, returned⟩
      cases returned with
      | eof _ eof => cases eof.symm.trans error
      | entry _ ok _ _ => cases ok.symm.trans error
      | error _ _ here _ =>
          rcases induction loaded.working (.inl loaded.buffer) with ⟨count, mark, same⟩
          rw [here] at mark same
          refine ⟨passes + count, ?_, ?_⟩
          · refine mark.extend ?_
            exact fun earlier below => (passed earlier below).1
          · rw [entriesBefore_add, entriesBefore_passed passed, List.nil_append]
            exact same
  | entry runs ok _ _ _ induction =>
      rcases fatDirRead_inv working real runs with ⟨loaded, passes, passed, returned⟩
      cases returned with
      | eof _ eof => cases eof.symm.trans ok
      | error _ error _ _ => cases ok.symm.trans error
      | entry entry _ _ next =>
          rcases induction loaded.working (.inl loaded.buffer) with ⟨count, mark, same⟩
          rw [next] at mark same
          refine ⟨passes + 1 + count, ?_, ?_⟩
          · refine mark.extend ?_
            intro earlier below
            rcases Nat.lt_succ_iff_lt_or_eq.mp below with before | here
            · exact (passed earlier before).1
            · intro marked
              rw [here] at marked
              rw [Slot.isEntry, marked] at entry
              cases entry
          · rw [entriesBefore_add, entriesBefore_add, entriesBefore_passed passed,
              List.nil_append, entriesBefore_one entry, List.length_append, same]
            exact Nat.add_comm _ _

theorem takeWhile_range {Item : Type} (item : Nat → Item) (accepts : Item → Bool)
    {first total : Nat} (before : ∀ index < first, accepts (item index) = true)
    (ends : first < total → accepts (item first) = false) :
    ((List.range total).map item).takeWhile accepts = (List.range (min first total)).map item := by
  rcases Nat.lt_or_ge first total with inside | outside
  · have split : total = first + (total - first - 1 + 1) := by omega
    have accepted : ∀ value ∈ (List.range first).map item, accepts value = true := by
      intro value member
      rcases List.mem_map.mp member with ⟨index, below, rfl⟩
      exact before index (List.mem_range.mp below)
    rw [Nat.min_eq_left (Nat.le_of_lt inside), split, List.range_add, List.map_append,
      List.takeWhile_append_of_pos accepted, List.range_succ_eq_map, List.map_cons, List.map_cons,
      List.takeWhile_cons_of_neg (by simp [ends inside]), List.append_nil]
  · rw [Nat.min_eq_right outside, List.takeWhile_eq_self_iff]
    intro value member
    rcases List.mem_map.mp member with ⟨index, below, rfl⟩
    exact before index (Nat.lt_of_lt_of_le (List.mem_range.mp below) outside)

/-- The entries of the chain are those before the first end mark, if it is in the
chain, and else those of the rest of the chain. -/
theorem chainEntries_eq (chain : DirectoryChain geometry sectors extent) {index count : Nat}
    (stands : StandsAt geometry extent index dir) (bound : index < slotCount geometry extent)
    (mark : FirstMark geometry sectors dir count) :
    chainEntries geometry sectors extent dir index =
      entriesBefore geometry sectors dir (min count (slotCount geometry extent - index)) := by
  have places : (List.range' index (slotCount geometry extent - index)).map
      (chainPlace geometry extent dir) =
        (List.range (slotCount geometry extent - index)).map
          fun earlier => dir.walk geometry sectors earlier := by
    rw [List.range'_eq_map_range, List.map_map]
    apply List.map_congr_left
    intro earlier member
    have below := List.mem_range.mp member
    exact (stands.walk chain (by omega)).symm
  have before : ∀ earlier < count,
      ((slotAt sectors (dir.walk geometry sectors earlier)).byte 0 != 0) = true :=
    fun earlier below => bne_iff_ne.mpr (mark.unmarked earlier below)
  have ends : ((slotAt sectors (dir.walk geometry sectors count)).byte 0 != 0) = false :=
    bne_eq_false_iff_eq.mpr mark.marked
  rw [chainEntries, places, takeWhile_range (fun earlier => dir.walk geometry sectors earlier)
    (fun place => (slotAt sectors place).byte 0 != 0) before fun _ => ends]
  rfl

/-- The calls of `fat_dir_read` from a slot of a directory on return its entries in
use and then the end, exactly if there is an end mark, in the chain or behind it, and
no entry in use between the end of the chain and the mark. -/
theorem directory_listing_iff (working : Working geometry sectors state)
    (real : state.volume.buffer = sectors state.volume.bufferLba ∨ dir.sector ≠ 0)
    (chain : DirectoryChain geometry sectors extent) {index : Nat}
    (stands : StandsAt geometry extent index dir) (bound : index < slotCount geometry extent)
    (info : Info) :
    Lists geometry sectors state dir info (chainEntries geometry sectors extent dir index) ↔
      ∃ count, FirstMark geometry sectors dir count ∧
        ∀ behind, slotCount geometry extent - index ≤ behind → behind < count →
          (slotBehind geometry sectors dir behind).isEntry = false := by
  constructor
  · intro lists
    rcases lists.mark working real with ⟨count, mark, same⟩
    refine ⟨count, mark, ?_⟩
    intro behind outside before
    have split : count = slotCount geometry extent - index +
        (count - (slotCount geometry extent - index)) := by omega
    rw [chainEntries_eq chain stands bound mark, Nat.min_eq_right (by omega), split,
      entriesBefore_add, List.length_append] at same
    have none_ := List.eq_nil_of_length_eq_zero (Nat.add_left_cancel same)
    have quiet := entriesBefore_eq_nil_iff.mp none_
      (behind - (slotCount geometry extent - index)) (by omega)
    rw [slotBehind_add, Nat.add_sub_cancel' outside] at quiet
    exact quiet
  · rintro ⟨count, mark, quiet⟩
    have lists := @Lists.of_mark _ _ _ _ info working real chain.sectorSize stands.aligned _ mark
    rw [chainEntries_eq chain stands bound mark]
    rcases Nat.le_total count (slotCount geometry extent - index) with within | beyond
    · rw [Nat.min_eq_left within]
      exact lists
    · have split : count = slotCount geometry extent - index +
          (count - (slotCount geometry extent - index)) := by omega
      have none_ : entriesBefore geometry sectors
          (dir.walk geometry sectors (slotCount geometry extent - index))
          (count - (slotCount geometry extent - index)) = [] := by
        rw [entriesBefore_eq_nil_iff]
        intro earlier below
        rw [slotBehind_add]
        exact quiet _ (by omega) (by omega)
      rw [split, entriesBefore_add, none_, List.append_nil] at lists
      rw [Nat.min_eq_right beyond]
      exact lists

end Listing

/-! ### A full disk -/

/-- A volume on a disk that is full of entries in use, and whose table ends every
chain. -/
def fullVolume : FatState :=
  { blankVolume with
    device := { blankVolume.device with
      sector := fun lba => if lba = 32 then .replicate 512 0xFF else .replicate 512 0x41 } }

theorem fullVolume_working :
    Working fullVolume.volume.toGeometry fullVolume.logical fullVolume :=
  ⟨rfl, rfl, fun _ used => absurd rfl used, fun _ => rfl⟩

theorem fullVolume_chain :
    DirectoryChain fullVolume.volume.toGeometry fullVolume.logical rootCluster :=
  rootCluster_chain rfl

theorem fullVolume_stands : StandsAt fullVolume.volume.toGeometry rootCluster 0
    (rootDir fullVolume.volume.toGeometry) := ⟨rfl, rfl, rfl⟩

theorem directory_listing_iff_full :
    Lists fullVolume.volume.toGeometry fullVolume.logical fullVolume
        (rootDir fullVolume.volume.toGeometry) ⟨fun _ => 0, 0, 0, 0, 0, 0, 0, 0, 0, 0⟩
        (chainEntries fullVolume.volume.toGeometry fullVolume.logical rootCluster
          (rootDir fullVolume.volume.toGeometry) 0) ↔
      ∃ count, FirstMark fullVolume.volume.toGeometry fullVolume.logical
          (rootDir fullVolume.volume.toGeometry) count ∧
        ∀ behind, slotCount fullVolume.volume.toGeometry rootCluster - 0 ≤ behind →
          behind < count → (slotBehind fullVolume.volume.toGeometry fullVolume.logical
            (rootDir fullVolume.volume.toGeometry) behind).isEntry = false :=
  directory_listing_iff fullVolume_working (.inr (by decide)) fullVolume_chain fullVolume_stands
    (by decide) ⟨fun _ => 0, 0, 0, 0, 0, 0, 0, 0, 0, 0⟩

/-- The calls on its full root directory do not come to the end. -/
theorem full_directory_has_no_end :
    DirectoryChain fullVolume.volume.toGeometry fullVolume.logical rootCluster ∧
      StandsAt fullVolume.volume.toGeometry rootCluster 0
        (rootDir fullVolume.volume.toGeometry) ∧
      ∀ places, ¬ Lists fullVolume.volume.toGeometry fullVolume.logical fullVolume
        (rootDir fullVolume.volume.toGeometry) ⟨fun _ => 0, 0, 0, 0, 0, 0, 0, 0, 0, 0⟩
        places := by
  refine ⟨fullVolume_chain, fullVolume_stands, ?_⟩
  intro places lists
  rcases lists.mark fullVolume_working (.inr (by decide)) with ⟨count, mark, _⟩
  have aligned : Aligned ((rootDir fullVolume.volume.toGeometry).walk
      fullVolume.volume.toGeometry fullVolume.logical count) :=
    fullVolume_stands.aligned.walk rfl count
  have marked := mark.marked
  rw [slotBehind, Slot.byte, slotAt] at marked
  generalize (rootDir fullVolume.volume.toGeometry).walk fullVolume.volume.toGeometry
    fullVolume.logical count = place at aligned marked
  have filled : fullVolume.logical place.sector = .replicate 512 0xFF ∨
      fullVolume.logical place.sector = .replicate 512 0x41 := by
    change (if place.sector = 32 then _ else _) = _ ∨ (if place.sector = 32 then _ else _) = _
    split
    · exact .inl rfl
    · exact .inr rfl
  rcases filled with filled | filled <;>
    simp [filled, Sector.load8, aligned.2] at marked

end Vanilla.Disk
