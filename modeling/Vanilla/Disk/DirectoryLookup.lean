import Mathlib.Data.List.DropRight
import Vanilla.Disk.Directory
import Vanilla.Disk.FileRead

namespace Vanilla.Disk

/-! Opening a directory by its path, compared with the names that the
directories on the way hold. -/

/-- The name of a directory in a path. -/
structure Component where
  chars : List UInt8
  nonempty : chars ≠ []
  noSlash : slash ∉ chars
  noDot : dot ∉ chars
  noEnd : (0 : UInt8) ∉ chars

/-- A path from its first slash on. -/
def tailPath (names : List Component) : List UInt8 :=
  names.flatMap fun name => slash :: name.chars

def letterC : UInt8 := 0x43

def pathOf (names : List Component) : List UInt8 := letterC :: colon :: tailPath names

/-! ## What a directory holds -/

/-- The position after an entry of a directory, and whether there is an entry:
`false` at the end of the cluster chain. -/
def Dir.move (geometry : Geometry) (sectors : Nat → Sector) (dir : Dir) : Bool × Dir :=
  let moved := { dir with rwOffset := u32 (dir.rwOffset + 32) }
  if geometry.sectorSize ≤ moved.rwOffset then
    let next := { moved with
      rwOffset := moved.rwOffset - geometry.sectorSize
      sector := u32 (moved.sector + 1) }
    if u32 (fatClustToSect geometry next.cluster + geometry.clusterSize) ≤ next.sector then
      let entry := tableEntry geometry sectors next.cluster
      if endOfChain entry then (false, next)
      else (true, { next with
        cluster := entry
        sector := fatClustToSect geometry entry })
    else (true, next)
  else (true, moved)

def slotAt (sectors : Nat → Sector) (dir : Dir) : Slot := ⟨sectors dir.sector, dir.rwOffset⟩

/-- There is an entry at the position, and it lies in the sector buffer. -/
structure Used (sectors : Nat → Sector) (dir : Dir) : Prop where
  inside : dir.rwOffset + 32 ≤ 512
  unmarked : (slotAt sectors dir).byte 0 ≠ 0

/-- The entries of a directory from a position on, up to the end mark or the end
of the cluster chain. -/
inductive Listing (geometry : Geometry) (sectors : Nat → Sector) : Dir → List Slot → Prop where
  | marked {dir : Dir} : (slotAt sectors dir).byte 0 = 0 → Listing geometry sectors dir []
  | last {dir : Dir} : Used sectors dir → (dir.move geometry sectors).1 = false →
      Listing geometry sectors dir [slotAt sectors dir]
  | cons {dir : Dir} {slots : List Slot} : Used sectors dir →
      (dir.move geometry sectors).1 = true →
      Listing geometry sectors (dir.move geometry sectors).2 slots →
      Listing geometry sectors dir (slotAt sectors dir :: slots)

namespace Slot

/-- The characters of a long name that the entry holds. -/
def longChars (slot : Slot) : List UInt8 :=
  (lfnLut.map slot.byte).takeWhile fun char => char ≠ 0x00 ∧ char ≠ 0xFF

/-- The 8.3 name: both parts are filled up with blanks. -/
def shortChars (slot : Slot) : List UInt8 :=
  let base := ((List.range 8).map slot.byte).rdropWhile (· = 0x20)
  let extension := ((List.range' 8 3).map slot.byte).rdropWhile (· = 0x20)
  if extension = [] then base else base ++ dot :: extension

/-- The entry is the label of the volume. -/
def isLabel (slot : Slot) : Bool := slot.byte 11 &&& 0x08 != 0

def isDirectory (slot : Slot) : Bool := slot.byte 11 &&& 0x10 != 0

end Slot

/-- Names do not differ in case. -/
def sameName (left right : List UInt8) : Prop := left.map toUpper = right.map toUpper

instance (left right : List UInt8) : Decidable (sameName left right) := by
  unfold sameName
  infer_instance

/-- The first entry with this name, long or short. The parts of a long name come
before its entry, the last part first. -/
def entryNamed (name : List UInt8) : List UInt8 → List Slot → Option Slot
  | _, [] => none
  | long, slot :: slots =>
      if slot.byte 0 = 0xE5 then entryNamed name [] slots
      else if slot.isLong then entryNamed name (slot.longChars ++ long) slots
      else if slot.isLabel = false ∧ (sameName long name ∨ sameName slot.shortChars name) then
        some slot
      else entryNamed name [] slots

/-- The position is the start of a directory: its first entry is in use, and its
cluster has sectors. -/
structure StartsDirectory (geometry : Geometry) (sectors : Nat → Sector) (dir : Dir) :
    Prop where
  unmarked : (slotAt sectors dir).byte 0 ≠ 0
  placed : dir.sector < u32 (fatClustToSect geometry dir.cluster + geometry.clusterSize)

/-- Each name is in the directory before it and leads to a directory; the last one
leads to `final`. -/
inductive Resolves (geometry : Geometry) (sectors : Nat → Sector) :
    Dir → List Component → Dir → Prop where
  | nil (dir : Dir) : Resolves geometry sectors dir [] dir
  | cons {dir final : Dir} {name : Component} {names : List Component} {slots : List Slot}
      {slot : Slot} : Listing geometry sectors dir slots →
      entryNamed name.chars [] slots = some slot → slot.isDirectory →
      StartsDirectory geometry sectors (slot.opened geometry) →
      Resolves geometry sectors (slot.opened geometry) names final →
      Resolves geometry sectors dir (name :: names) final

/-- The root directory. -/
def rootDir (geometry : Geometry) : Dir where
  sector := geometry.rootLba
  cluster := fatSectToClust geometry geometry.rootLba
  rwOffset := 0
  startSect := geometry.rootLba
  size := 0

/-- `fat_dir_open` does as its interface says: an error for a path with a missing
component, and else the start of the named directory. -/
def OpensRight (state : FatState) (dir : Dir) (names : List Component) : Prop :=
  ∃ rounds status opened after,
    (fatDirOpen letterC rounds dir (pathOf names) (pathOf names).length).run state =
      .ok (status, opened) after ∧
    ((¬ ∃ final, Resolves state.volume.toGeometry state.logical
      (rootDir state.volume.toGeometry) names final) → status ≠ .ok) ∧
    ∀ final, Resolves state.volume.toGeometry state.logical
      (rootDir state.volume.toGeometry) names final → status = .ok ∧ opened = final

/-! ## What the search stops at -/

/-- The entry that `fat_dir_search` stops at, by its own comparisons. -/
inductive StopsAt (name : List UInt8) (size : Nat) :
    UInt8 → Bool → List Slot → Slot → Prop where
  | found {lfnCrc : UInt8} {lfnMatch : Bool} {slot : Slot} {slots : List Slot} :
      searchStep slot name size lfnCrc lfnMatch = .found →
      StopsAt name size lfnCrc lfnMatch (slot :: slots) slot
  | next {lfnCrc nextCrc : UInt8} {lfnMatch nextMatch : Bool} {slot stop : Slot}
      {slots : List Slot} :
      searchStep slot name size lfnCrc lfnMatch = .next nextCrc nextMatch →
      StopsAt name size nextCrc nextMatch slots stop →
      StopsAt name size lfnCrc lfnMatch (slot :: slots) stop

/-- The first entries of a directory from a position on, at least one. -/
inductive Entries (geometry : Geometry) (sectors : Nat → Sector) : Dir → List Slot → Prop where
  | one {dir : Dir} : Used sectors dir → Entries geometry sectors dir [slotAt sectors dir]
  | cons {dir : Dir} {slots : List Slot} : Used sectors dir →
      (dir.move geometry sectors).1 = true →
      Entries geometry sectors (dir.move geometry sectors).2 slots →
      Entries geometry sectors dir (slotAt sectors dir :: slots)

/-- The searches stop at entries that lead to `final`. A search is given the
component with what follows it in the path, and its length as 8 bits. -/
inductive LooksUp (geometry : Geometry) (sectors : Nat → Sector) :
    Dir → List Component → Dir → Prop where
  | nil (dir : Dir) : LooksUp geometry sectors dir [] dir
  | cons {dir final : Dir} {name : Component} {names : List Component} {slots : List Slot}
      {slot : Slot} : Entries geometry sectors dir slots →
      StopsAt (name.chars ++ tailPath names) (name.chars.length % 2 ^ 8) 0 true slots slot →
      LooksUp geometry sectors (slot.opened geometry) names final →
      LooksUp geometry sectors dir (name :: names) final

/-- The root directory as `fat_follow_path` sets it: its cluster is not the one
of the root. -/
def followRoot (geometry : Geometry) (dir : Dir) : Dir :=
  { dir with
    startSect := geometry.rootLba
    sector := geometry.rootLba
    cluster := fatClustToSect geometry geometry.rootLba
    rwOffset := 0 }

section Unique

variable {geometry : Geometry} {sectors : Nat → Sector} {dir final other : Dir}
  {slots slots' : List Slot} {names : List Component}

theorem Listing.unique (listing : Listing geometry sectors dir slots)
    (listing' : Listing geometry sectors dir slots') : slots = slots' := by
  induction listing generalizing slots' with
  | marked mark =>
      cases listing' with
      | marked _ => rfl
      | last used _ => exact absurd mark used.unmarked
      | cons used _ _ => exact absurd mark used.unmarked
  | last used ends =>
      cases listing' with
      | marked mark => exact absurd mark used.unmarked
      | last _ _ => rfl
      | cons _ moves _ => cases ends.symm.trans moves
  | cons used moves _ induction =>
      cases listing' with
      | marked mark => exact absurd mark used.unmarked
      | last _ ends => cases ends.symm.trans moves
      | cons _ _ rest => rw [induction rest]

theorem Resolves.unique (resolves : Resolves geometry sectors dir names final)
    (resolves' : Resolves geometry sectors dir names other) : final = other := by
  induction resolves with
  | nil dir =>
      cases resolves' with
      | nil _ => rfl
  | cons listing named _ _ _ induction =>
      cases resolves' with
      | cons listing' named' _ _ rest =>
          cases listing.unique listing'
          cases named.symm.trans named'
          exact induction rest

/-- What a path of at least one name leads to is the start of a directory. -/
theorem Resolves.startsDirectory {name : Component}
    (resolves : Resolves geometry sectors dir (name :: names) final) :
    StartsDirectory geometry sectors final := by
  generalize same : name :: names = whole at resolves
  induction resolves generalizing name names with
  | nil dir => cases same
  | @cons dir final first rest slots slot _ _ _ starts later induction =>
      cases rest with
      | nil =>
          cases later
          exact starts
      | cons second rest => exact induction rfl

end Unique

/-! ## The code on a volume whose device works -/

/-- The volume works, and its buffer holds the sector that it is tagged with. -/
structure Loaded (geometry : Geometry) (sectors : Nat → Sector) (state : FatState) : Prop where
  working : Working geometry sectors state
  buffer : state.volume.buffer = sectors state.volume.bufferLba

section Working

variable {geometry : Geometry} {sectors : Nat → Sector} {state : FatState} {dir : Dir}

/-- A sector is read, and the buffer is that sector: if it was not cached, the
device has been asked for it. -/
theorem run_fatRead (working : Working geometry sectors state) {lba : Nat}
    (real : state.volume.buffer = sectors state.volume.bufferLba ∨ lba ≠ 0) :
    ∃ after, (fatRead lba).run state = .ok true after ∧ Loaded geometry sectors after ∧
      after.volume.buffer = sectors lba := by
  rcases working.fatRead lba with ⟨after, read, works, held⟩
  have buffer : after.volume.buffer = sectors lba := by
    by_cases zero : lba = 0
    · have loaded := real.resolve_right (not_not.mpr zero)
      by_cases same : state.volume.bufferLba = lba
      · rw [fatRead, Exec.run_bind_of_ok (EStateM.run_get state), if_pos same] at read
        cases read
        rw [loaded, same]
      · rcases fatFlush_spec working.coherent with ⟨flushed, middle, flush, quiet, clean, _, refused⟩
        rw [fatRead, Exec.run_bind_of_ok (EStateM.run_get state), if_neg same,
          Exec.run_bind_of_ok flush] at read
        cases flushed with
        | false => cases read
        | true =>
            have isClean : middle.cache.dirty = false := clean rfl
            have answers : ¬ middle.device.fails middle.device.transfers = true := by
              rw [quiet.fails, working.fails]
              simp
            have fetched := run_diskRead lba middle
            rw [if_neg answers] at fetched
            rw [if_pos rfl, Exec.run_bind_of_ok fetched] at read
            cases read
            have backing : middle.logical = middle.device.sector :=
              WriteBack.logical_of_clean isClean
            rw [← working.logical, ← quiet.logical, backing]
    · exact works.buffered held zero
  exact ⟨after, read, ⟨works, by rw [buffer, held]⟩, buffer⟩

theorem Loaded.readTable (loaded : Loaded geometry sectors state) (cluster : Nat) :
    ∃ after, (fatTableGet cluster).run state =
      .ok (some (tableEntry geometry sectors cluster)) after ∧ Loaded geometry sectors after := by
  rcases @run_fatRead geometry sectors state loaded.working (tableSector geometry cluster)
    (.inl loaded.buffer) with ⟨after, read, later, buffer⟩
  refine ⟨after, ?_, later⟩
  have loads := run_fatLoad32 (tableOffset_bound cluster) after
  rw [buffer] at loads
  rw [fatTableGet, Exec.run_bind_of_ok (EStateM.run_get state), loaded.working.geometry,
    Exec.run_bind_of_ok read, if_pos rfl, Exec.run_bind_of_ok loads]
  rfl

theorem Loaded.dirGetNext (loaded : Loaded geometry sectors state) (dir : Dir) :
    ∃ after, (fatDirGetNext dir).run state = .ok (dir.move geometry sectors) after ∧
      Loaded geometry sectors after := by
  rw [fatDirGetNext, Exec.run_bind_of_ok (EStateM.run_get state), loaded.working.geometry, Dir.move]
  dsimp only
  split
  · split
    · rcases loaded.readTable dir.cluster with ⟨after, get, later⟩
      refine ⟨after, ?_, later⟩
      rw [Exec.run_bind_of_ok get]
      dsimp only
      split <;> rfl
    · exact ⟨state, rfl, loaded⟩
  · exact ⟨state, rfl, loaded⟩

/-- One round of the search, at a position inside the sector buffer. -/
theorem run_searchLoop_round {lfnCrc : UInt8} {lfnMatch : Bool}
    (working : Working geometry sectors state)
    (real : state.volume.buffer = sectors state.volume.bufferLba ∨ dir.sector ≠ 0)
    (name : List UInt8) (size : Nat) :
    ∃ cached, Loaded geometry sectors cached ∧ ∀ rounds,
      (searchLoop name size (rounds + 1) dir lfnCrc lfnMatch).run state = (
        if dir.rwOffset + 32 ≤ 512 then
          if (slotAt sectors dir).byte 0 = 0 then pure (false, dir)
          else
            match searchStep (slotAt sectors dir) name size lfnCrc lfnMatch with
            | .found => pure (true, (slotAt sectors dir).opened geometry)
            | .outside => Exec.fault .outOfBounds
            | .next lfnCrc lfnMatch => do
                let moved ← fatDirGetNext dir
                if moved.1 then searchLoop name size rounds moved.2 lfnCrc lfnMatch
                else pure (false, moved.2)
        else Exec.fault .outOfBounds : Exec FatState (Bool × Dir)).run cached := by
  rcases run_fatRead working real with ⟨cached, read, loaded, buffer⟩
  refine ⟨cached, loaded, ?_⟩
  intro rounds
  rw [searchLoop, Exec.run_bind_of_ok read, if_pos rfl,
    Exec.run_bind_of_ok (EStateM.run_get cached), buffer, loaded.working.geometry]
  rfl

/-- The search goes over the entries to the one that its comparisons accept. -/
theorem run_searchLoop {name : List UInt8} {size : Nat} {lfnCrc : UInt8} {lfnMatch : Bool}
    {slots : List Slot} {slot : Slot} (working : Working geometry sectors state)
    (real : state.volume.buffer = sectors state.volume.bufferLba ∨ dir.sector ≠ 0)
    (entries : Entries geometry sectors dir slots)
    (stops : StopsAt name size lfnCrc lfnMatch slots slot) :
    ∃ after, Loaded geometry sectors after ∧ ∀ rounds, slots.length ≤ rounds →
      (searchLoop name size rounds dir lfnCrc lfnMatch).run state =
        .ok (true, slot.opened geometry) after := by
  induction entries generalizing state lfnCrc lfnMatch with
  | @one dir used =>
      rcases run_searchLoop_round working real name size with ⟨cached, loaded, round⟩
      refine ⟨cached, loaded, ?_⟩
      intro rounds enough
      cases rounds with
      | zero => cases enough
      | succ rounds =>
          rw [round rounds, if_pos used.inside, if_neg used.unmarked]
          cases stops with
          | found accepted => rw [accepted]; rfl
          | next _ later => cases later
  | @cons dir slots used moves rest induction =>
      rcases run_searchLoop_round working real name size with ⟨cached, loaded, round⟩
      cases stops with
      | found accepted =>
          refine ⟨cached, loaded, ?_⟩
          intro rounds enough
          cases rounds with
          | zero => cases enough
          | succ rounds =>
              rw [round rounds, if_pos used.inside, if_neg used.unmarked, accepted]
              rfl
      | next passed later =>
          rcases loaded.dirGetNext dir with ⟨moved, goes, still⟩
          rcases induction still.working (.inl still.buffer) later with ⟨after, final, runs⟩
          refine ⟨after, final, ?_⟩
          intro rounds enough
          cases rounds with
          | zero => cases enough
          | succ rounds =>
              rw [round rounds, if_pos used.inside, if_neg used.unmarked, passed]
              refine (Exec.run_bind_of_ok goes).trans ?_
              rw [if_pos moves]
              exact runs rounds (Nat.le_of_succ_le_succ enough)

/-- Where a search that finds nothing leaves the directory. -/
def Stuck (geometry : Geometry) (sectors : Nat → Sector) (dir : Dir) : Prop :=
  (slotAt sectors dir).byte 0 = 0 ∨
    u32 (fatClustToSect geometry dir.cluster + geometry.clusterSize) ≤ dir.sector

theorem stuck_of_move (ends : (dir.move geometry sectors).1 = false) :
    Stuck geometry sectors (dir.move geometry sectors).2 := by
  rw [Dir.move] at ends ⊢
  dsimp only at ends ⊢
  split at ends
  · rename_i overflow
    rw [if_pos overflow]
    split at ends
    · rename_i leaves
      rw [if_pos leaves]
      split at ends
      · rename_i last
        rw [if_pos last]
        exact .inr leaves
      · cases ends
    · cases ends
  · cases ends

/-- A search that returns has stopped at an entry, or is stuck. -/
theorem searchLoop_inv {name : List UInt8} {size rounds : Nat} {lfnCrc : UInt8} {lfnMatch : Bool}
    {result : Bool × Dir} {after : FatState} (working : Working geometry sectors state)
    (real : state.volume.buffer = sectors state.volume.bufferLba ∨ dir.sector ≠ 0)
    (returns : (searchLoop name size rounds dir lfnCrc lfnMatch).run state = .ok result after) :
    Loaded geometry sectors after ∧
      (result.1 = true ∧ (∃ slots slot, Entries geometry sectors dir slots ∧
        StopsAt name size lfnCrc lfnMatch slots slot ∧ result.2 = slot.opened geometry) ∨
        result.1 = false ∧ Stuck geometry sectors result.2) := by
  induction rounds generalizing dir lfnCrc lfnMatch state with
  | zero => cases returns
  | succ rounds induction =>
      rcases run_searchLoop_round working real name size with ⟨cached, loaded, round⟩
      rw [round rounds] at returns
      split at returns
      · rename_i inside
        split at returns
        · rename_i marked
          cases returns
          exact ⟨loaded, .inr ⟨rfl, .inl marked⟩⟩
        · rename_i unmarked
          have used : Used sectors dir := ⟨inside, unmarked⟩
          cases step : searchStep (slotAt sectors dir) name size lfnCrc lfnMatch with
          | found =>
              rw [step] at returns
              cases returns
              exact ⟨loaded, .inl ⟨rfl, _, _, .one used, .found step, rfl⟩⟩
          | outside =>
              rw [step] at returns
              cases returns
          | next nextCrc nextMatch =>
              rw [step] at returns
              rcases loaded.dirGetNext dir with ⟨moved, goes, still⟩
              have rest := (Exec.run_bind_of_ok goes).symm.trans returns
              cases moves : (dir.move geometry sectors).1 with
              | true =>
                  rw [if_pos moves] at rest
                  rcases induction still.working (.inl still.buffer) rest with ⟨final, found⟩
                  refine ⟨final, found.imp ?_ id⟩
                  rintro ⟨isFound, slots, slot, entries, stops, opened⟩
                  exact ⟨isFound, _, _, .cons used moves entries, .next step stops, opened⟩
              | false =>
                  rw [if_neg (by simp [moves])] at rest
                  cases rest
                  exact ⟨still, .inr ⟨rfl, stuck_of_move moves⟩⟩
      · cases returns

end Working

/-! ## The path -/

section Path

variable {geometry : Geometry} {sectors : Nat → Sector} {state : FatState} {dir final : Dir}
  {names : List Component}

theorem dropWhile_slash {skip rest : List UInt8} (noSlash : slash ∉ skip) :
    (skip ++ slash :: rest).dropWhile (· ≠ slash) = slash :: rest := by
  rw [List.dropWhile_append_of_pos]
  · simp
  · intro char member
    have different : char ≠ slash := fun same => noSlash (same ▸ member)
    simpa using different

theorem takeWhile_chars (name : Component) (names : List Component) :
    (name.chars ++ tailPath names).takeWhile (· ≠ slash) = name.chars := by
  have before : ∀ char ∈ name.chars, decide (char ≠ slash) = true := by
    intro char member
    have different : char ≠ slash := fun same => name.noSlash (same ▸ member)
    simpa using different
  rw [List.takeWhile_append_of_pos before]
  cases names with
  | nil => simp [tailPath]
  | cons next rest => simp [tailPath]

/-- One turn of the loop takes one component off the path. -/
theorem followLoop_turn {skip : List UInt8} (noSlash : slash ∉ skip) (rounds turns : Nat)
    (dir : Dir) (name : Component) (names : List Component) :
    followLoop rounds (turns + 1) dir (skip ++ tailPath (name :: names)) = (do
      let found ← fatDirSearch rounds dir (name.chars ++ tailPath names)
        (name.chars.length % 2 ^ 8)
      if found.1 then followLoop rounds turns found.2 (name.chars ++ tailPath names)
      else pure (.ok, found.2)) := by
  have fragment : (skip ++ tailPath (name :: names)).dropWhile (· ≠ slash) =
      slash :: (name.chars ++ tailPath names) := by
    have split : tailPath (name :: names) = slash :: (name.chars ++ tailPath names) := by
      simp [tailPath]
    rw [split, dropWhile_slash noSlash]
  have chars := takeWhile_chars name names
  have nonempty : name.chars ++ tailPath names ≠ [] :=
    List.append_ne_nil_of_left_ne_nil name.nonempty _
  rw [followLoop, fragment]
  generalize name.chars ++ tailPath names = text at chars nonempty
  cases text with
  | nil => exact absurd rfl nonempty
  | cons first others =>
      dsimp only
      rw [chars, if_neg name.noDot]

theorem followLoop_end {skip : List UInt8} (noSlash : slash ∉ skip) (rounds turns : Nat)
    (dir : Dir) :
    followLoop rounds (turns + 1) dir (skip ++ tailPath []) = pure (.ok, dir) := by
  have nothing : (skip ++ tailPath []).dropWhile (· ≠ slash) = [] := by
    rw [List.dropWhile_eq_nil_iff]
    intro char member
    have inSkip : char ∈ skip := by simpa [tailPath] using member
    have different : char ≠ slash := fun same => noSlash (same ▸ inSkip)
    simpa using different
  rw [followLoop, nothing]

theorem fatDirSearch_start (start : dir.startSect = dir.sector) (rounds : Nat)
    (name : List UInt8) (size : Nat) (state : FatState) :
    (fatDirSearch rounds dir name size).run state =
      (searchLoop name size rounds dir 0 true).run state := by
  rw [fatDirSearch, Exec.run_bind_of_ok (EStateM.run_get state), if_neg (not_not.mpr start)]

/-- Searches that stop at entries lead through the whole path. -/
theorem run_followLoop (looks : LooksUp geometry sectors dir names final)
    (working : Working geometry sectors state)
    (real : state.volume.buffer = sectors state.volume.bufferLba ∨ dir.sector ≠ 0)
    (start : dir.startSect = dir.sector) {skip : List UInt8} (noSlash : slash ∉ skip) :
    ∃ enough after, ∀ rounds turns, enough ≤ rounds → names.length < turns →
      (followLoop rounds turns dir (skip ++ tailPath names)).run state =
        .ok (.ok, final) after := by
  induction looks generalizing state skip with
  | nil dir =>
      refine ⟨0, state, ?_⟩
      intro rounds turns _ more
      cases turns with
      | zero => cases more
      | succ turns =>
          rw [followLoop_end noSlash]
          rfl
  | @cons dir final name names slots slot entries stops _ induction =>
      rcases run_searchLoop working real entries stops with ⟨found, loaded, searches⟩
      rcases induction loaded.working (.inl loaded.buffer) rfl name.noSlash with
        ⟨enough, after, follows⟩
      refine ⟨max slots.length enough, after, ?_⟩
      intro rounds turns many more
      cases turns with
      | zero => cases more
      | succ turns =>
          have search := (fatDirSearch_start start rounds _ _ state).trans
            (searches rounds (le_trans (le_max_left ..) many))
          rw [followLoop_turn noSlash, Exec.run_bind_of_ok search]
          exact follows rounds turns (le_trans (le_max_right ..) many)
            (Nat.lt_of_succ_lt_succ more)

/-- Where the loop returns, the searches have stopped at entries, or one is stuck. -/
theorem followLoop_inv {rounds turns : Nat} {skip : List UInt8} {status : FStatus}
    {opened : Dir} {after : FatState} (working : Working geometry sectors state)
    (real : state.volume.buffer = sectors state.volume.bufferLba ∨ dir.sector ≠ 0)
    (start : dir.startSect = dir.sector) (noSlash : slash ∉ skip)
    (returns : (followLoop rounds turns dir (skip ++ tailPath names)).run state =
      .ok (status, opened) after) :
    LooksUp geometry sectors dir names opened ∨ Stuck geometry sectors opened := by
  induction names generalizing dir state turns skip with
  | nil =>
      cases turns with
      | zero => cases returns
      | succ turns =>
          rw [followLoop_end noSlash] at returns
          cases returns
          exact .inl (.nil _)
  | cons name names induction =>
      cases turns with
      | zero => cases returns
      | succ turns =>
          rw [followLoop_turn noSlash] at returns
          rcases Exec.run_bind_ok.mp returns with ⟨result, searched, search, rest⟩
          rw [fatDirSearch_start start] at search
          rcases searchLoop_inv working real search with ⟨loaded, found | stuck⟩
          · rcases found with ⟨isFound, slots, slot, entries, stops, isOpened⟩
            rw [if_pos isFound, isOpened] at rest
            have later := induction loaded.working (.inl loaded.buffer) rfl name.noSlash rest
            exact later.imp (fun looks => .cons entries stops looks) id
          · rcases stuck with ⟨notFound, stuck⟩
            rw [if_neg (by simp [notFound])] at rest
            cases rest
            exact .inr stuck

/-- Whatever the loop finds, it reports success. -/
theorem followLoop_ok {rounds turns : Nat} {path : List UInt8} {status : FStatus}
    {opened : Dir} {after : FatState}
    (returns : (followLoop rounds turns dir path).run state = .ok (status, opened) after) :
    status = .ok := by
  induction turns generalizing dir path state with
  | zero => cases returns
  | succ turns induction =>
      rw [followLoop] at returns
      split at returns
      · cases returns
        rfl
      · cases returns
        rfl
      · dsimp only at returns
        split at returns
        · cases returns
          rfl
        · rcases Exec.run_bind_ok.mp returns with ⟨found, searched, _, rest⟩
          split at rest
          · exact induction rest
          · cases rest
            rfl

/-- The path leads from the root into the loop. -/
theorem run_fatDirOpen (state : FatState) (dir : Dir) (rounds : Nat) (first : Component)
    (rest : List Component) (length : Nat) :
    (fatDirOpen letterC rounds dir (pathOf (first :: rest)) length).run state =
      (followLoop rounds ((pathOf (first :: rest)).length + 1)
        (followRoot state.volume.toGeometry dir) (tailPath (first :: rest))).run state := by
  have letter : (pathOf (first :: rest)).headD 0 = letterC := rfl
  have mark : (pathOf (first :: rest)).tail.headD 0 = colon := rfl
  have begins : (pathOf (first :: rest)).tail.tail.headD 0 = slash := rfl
  rw [fatDirOpen, fatFollowPath, if_neg (not_not.mpr letter),
    Exec.run_bind_of_ok (EStateM.run_get state)]
  dsimp only
  rw [if_neg (not_not.mpr mark), if_neg (not_not.mpr begins)]
  rfl

theorem length_lt_pathOf (names : List Component) : names.length < (pathOf names).length + 1 := by
  have each : names.length ≤ (tailPath names).length := by
    induction names with
    | nil => exact Nat.le_refl _
    | cons name names induction =>
        simp only [tailPath, List.flatMap_cons, List.length_append, List.length_cons] at *
        omega
  simp only [pathOf, List.length_cons]
  omega

/-- A missing component is not reported. -/
theorem OpensRight.resolves {first : Component} {rest : List Component}
    (right : OpensRight state dir (first :: rest)) :
    ∃ final, Resolves state.volume.toGeometry state.logical (rootDir state.volume.toGeometry)
      (first :: rest) final := by
  rcases right with ⟨rounds, status, opened, after, returns, missing, _⟩
  by_contra absent
  rw [run_fatDirOpen] at returns
  exact missing absent (followLoop_ok returns)

/-- A mounted volume whose device answers. -/
structure Usable (state : FatState) : Prop where
  working : Working state.volume.toGeometry state.logical state
  rooted : state.volume.rootLba ≠ 0

/-- `fat_dir_open` is right exactly for the paths whose components all exist and
are what its searches stop at. -/
theorem fat_dir_open_right_iff (usable : Usable state) (dir : Dir) (first : Component)
    (rest : List Component) : OpensRight state dir (first :: rest) ↔
      ∃ final, Resolves state.volume.toGeometry state.logical
          (rootDir state.volume.toGeometry) (first :: rest) final ∧
        LooksUp state.volume.toGeometry state.logical
          (followRoot state.volume.toGeometry dir) (first :: rest) final := by
  have noSlash : slash ∉ ([] : List UInt8) := List.not_mem_nil
  constructor
  · intro right
    rcases right.resolves with ⟨final, resolves⟩
    refine ⟨final, resolves, ?_⟩
    rcases right with ⟨rounds, status, opened, after, returns, _, opens⟩
    rw [run_fatDirOpen] at returns
    rcases opens final resolves with ⟨_, same⟩
    subst same
    rw [← List.nil_append (tailPath (first :: rest))] at returns
    have inverted := followLoop_inv usable.working (.inr usable.rooted) rfl noSlash returns
    apply inverted.resolve_right
    intro stuck
    have starts := resolves.startsDirectory
    cases stuck with
    | inl marked => exact starts.unmarked marked
    | inr ends => exact absurd starts.placed (Nat.not_lt.mpr ends)
  · rintro ⟨final, resolves, looks⟩
    rcases run_followLoop looks usable.working (.inr usable.rooted) rfl noSlash with
      ⟨enough, after, follows⟩
    refine ⟨enough, .ok, final, after, ?_, fun absent => absurd ⟨final, resolves⟩ absent, ?_⟩
    · rw [run_fatDirOpen]
      exact follows enough _ (Nat.le_refl _) (length_lt_pathOf _)
    · exact fun other resolves' => ⟨rfl, resolves.unique resolves'⟩

end Path

/-! ## A root directory with and without the directory `A` -/

def componentA : Component where
  chars := [0x41]
  nonempty := by decide
  noSlash := by decide
  noDot := by decide
  noEnd := by decide

theorem blankVolume_usable : Usable blankVolume where
  working := ⟨rfl, rfl, fun _ used => absurd rfl used, fun _ => rfl⟩
  rooted := by decide

theorem blankVolume_mark (dir : Dir) : (slotAt blankVolume.logical dir).byte 0 = 0 := by
  have blank : blankVolume.logical dir.sector = Vector.replicate 512 0 := rfl
  simp only [slotAt, Slot.byte, Sector.load8, blank]
  grind

/-- The blank volume has no directory `A`, and opening it succeeds. -/
theorem missing_directory_opens : (∃ rounds opened after,
      (fatDirOpen letterC rounds (rootDir blankVolume.volume.toGeometry)
        (pathOf [componentA]) 4).run blankVolume = .ok (.ok, opened) after) ∧
    ¬ OpensRight blankVolume (rootDir blankVolume.volume.toGeometry) [componentA] := by
  have usable := blankVolume_usable
  constructor
  · rcases @run_searchLoop_round _ _ _
      (followRoot blankVolume.volume.toGeometry (rootDir blankVolume.volume.toGeometry)) 0 true
      usable.working (.inr usable.rooted) [0x41] 1 with ⟨cached, _, round⟩
    have search := round 0
    rw [if_pos (by decide), if_pos (blankVolume_mark _)] at search
    refine ⟨1, followRoot blankVolume.volume.toGeometry (rootDir blankVolume.volume.toGeometry),
      cached, ?_⟩
    have noSlash : slash ∉ ([] : List UInt8) := List.not_mem_nil
    rw [run_fatDirOpen, ← List.nil_append (tailPath [componentA]), followLoop_turn noSlash]
    exact Exec.run_bind_of_ok search
  · intro right
    rcases right.resolves with ⟨final, resolves⟩
    cases resolves with
    | cons listing named _ _ _ =>
        cases listing with
        | marked _ => cases named
        | last used _ => exact used.unmarked (blankVolume_mark _)
        | cons used _ _ => exact used.unmarked (blankVolume_mark _)

/-- A directory entry for `A` in cluster 3, and the first byte of that directory. -/
def sectorWithA (lba offset : Nat) : UInt8 :=
  if lba = 64 then
    match offset with
    | 0 => 0x41
    | 11 => 0x10
    | 26 => 3
    | offset => if offset < 11 then 0x20 else 0
  else if lba = 72 ∧ offset = 0 then 0x2E
  else 0

def volumeWithA : FatState :=
  { blankVolume with
    device := { blankVolume.device with
      sector := fun lba => .ofFn fun offset => sectorWithA lba offset } }

theorem fat_dir_open_right_iff_with_A :
    OpensRight volumeWithA (rootDir volumeWithA.volume.toGeometry) [componentA] := by
  have usable : Usable volumeWithA :=
    ⟨⟨rfl, rfl, fun _ used => absurd rfl used, fun _ => rfl⟩, by decide⟩
  have used : Used volumeWithA.logical (rootDir volumeWithA.volume.toGeometry) :=
    ⟨by decide, by decide +kernel⟩
  have listing : Listing volumeWithA.volume.toGeometry volumeWithA.logical
      (rootDir volumeWithA.volume.toGeometry)
      [slotAt volumeWithA.logical (rootDir volumeWithA.volume.toGeometry)] :=
    .cons used (by decide +kernel) (.marked (by decide +kernel))
  have named : entryNamed [0x41] []
      [slotAt volumeWithA.logical (rootDir volumeWithA.volume.toGeometry)] =
      some (slotAt volumeWithA.logical (rootDir volumeWithA.volume.toGeometry)) := by
    rw [entryNamed, if_neg (by decide +kernel), if_neg (by decide +kernel),
      if_pos (by decide +kernel)]
  have starts : StartsDirectory volumeWithA.volume.toGeometry volumeWithA.logical
      ((slotAt volumeWithA.logical (rootDir volumeWithA.volume.toGeometry)).opened
        volumeWithA.volume.toGeometry) :=
    ⟨by decide +kernel, by decide +kernel⟩
  apply (fat_dir_open_right_iff usable _ componentA []).mpr
  refine ⟨_, .cons listing named (by decide +kernel) starts (.nil _), ?_⟩
  exact .cons (.one ⟨used.inside, used.unmarked⟩) (.found (by decide +kernel)) (.nil _)

end Vanilla.Disk
