import Mathlib.Data.List.Induction
import Vanilla.Disk.NameLookup
import Vanilla.Disk.Traversal
import Vanilla.Foundation.Extends

namespace Vanilla.Disk

/-! Opening a file by its path: `fat_follow_path` leads to a directory, and the
last fragment of the path is searched for in it. -/

/-- The backward scan of `fat_file_open` from a place of the path on: where it
stops at a slash, and the length of the fragment as 8 bits; `none` at the end
mark. A path without a slash is left at its front. -/
def scanBack (path : List UInt8) : Nat → Nat → Exec FatState (Option (Nat × Nat))
  | place, fragSize =>
      if path.getD place 0 = slash then pure (some (place, fragSize))
      else if path.getD place 0 = 0x00 then pure none
      else
        match place with
        | 0 => Exec.fault .outOfBounds
        | place + 1 => scanBack path place ((fragSize + 1) % 2 ^ 8)

/-- What `fat_file_open` takes over from the entry. -/
def Dir.file (dir : Dir) : File where
  sector := dir.sector
  cluster := dir.cluster
  rwOffset := 0
  size := dir.size
  startSect := dir.sector
  globOffset := 0

/-- What is done once the directory is known, with the place of the last character. -/
def openLast (rounds : Nat) (file : File) (dir : Dir) (path : List UInt8) (last : Nat) :
    Exec FatState (FStatus × File) :=
  if path.getD last 0 = 0x00 then pure (.pathErr, file)
  else do
    let scanned ← scanBack path (if path.getD last 0 = slash then last - 1 else last) 0
    match scanned with
    | none => pure (.pathErr, file)
    | some (place, fragSize) => do
        let found ← fatDirSearch rounds dir (path.drop (place + 1)) fragSize
        if found.1 then pure (.ok, found.2.file) else pure (.pathErr, file)

/-- `dir` is what the stack holds before. A path that is empty or a slash alone is
left at its front. -/
def fatFileOpen (letter : UInt8) (rounds : Nat) (dir : Dir) (file : File) (path : List UInt8)
    (length : Nat) : Exec FatState (FStatus × File) := do
  let followed ← fatFollowPath letter rounds dir path
  if followed.1 ≠ .ok then pure (followed.1, file)
  else if length = 0 then Exec.fault .outOfBounds
  else openLast rounds file followed.2 path (length - 1)

/-- A fragment of a path. -/
structure Fragment where
  chars : List UInt8
  nonempty : chars ≠ []
  noSlash : slash ∉ chars
  noEnd : (0 : UInt8) ∉ chars

/-- A path with this last fragment, and a slash behind it or none. -/
structure EndsWith (path : List UInt8) (front : List UInt8) (fragment : Fragment)
    (trail : List UInt8) : Prop where
  split : path = front ++ slash :: (fragment.chars ++ trail)
  trail : trail = [] ∨ trail = [slash]

/-! ## Loops with more rounds -/

section Rounds

variable {rounds more : Nat}

theorem searchLoop_extends {name : List UInt8} {size : Nat} {dir : Dir} {lfnCrc : UInt8}
    {lfnMatch : Bool} (enough : rounds ≤ more) :
    Exec.Extends (searchLoop name size rounds dir lfnCrc lfnMatch)
      (searchLoop name size more dir lfnCrc lfnMatch) := by
  induction rounds generalizing more dir lfnCrc lfnMatch with
  | zero => exact .fault _ _
  | succ rounds induction =>
      cases more with
      | zero => cases enough
      | succ more =>
          rw [searchLoop, searchLoop]
          apply Exec.Extends.then_
          intro cached
          split
          · apply Exec.Extends.then_
            intro state
            split
            · dsimp only
              split
              · exact .refl _
              · split
                · exact .refl _
                · exact .refl _
                · apply Exec.Extends.then_
                  intro moved
                  split
                  · exact induction (Nat.le_of_succ_le_succ enough)
                  · exact .refl _
            · exact .refl _
          · exact .refl _

theorem fatDirSearch_extends {dir : Dir} {name : List UInt8} {size : Nat} (enough : rounds ≤ more) :
    Exec.Extends (fatDirSearch rounds dir name size) (fatDirSearch more dir name size) :=
  .then_ fun _ => searchLoop_extends enough

theorem followLoop_extends {turns : Nat} {dir : Dir} {path : List UInt8} (enough : rounds ≤ more) :
    Exec.Extends (followLoop rounds turns dir path) (followLoop more turns dir path) := by
  induction turns generalizing dir path with
  | zero => exact .fault _ _
  | succ turns induction =>
      rw [followLoop, followLoop]
      split
      · exact .refl _
      · exact .refl _
      · dsimp only
        split
        · exact .refl _
        · apply Exec.Extends.bind (fatDirSearch_extends enough)
          intro found
          split
          · exact induction
          · exact .refl _

theorem fatFollowPath_extends {letter : UInt8} {dir : Dir} {path : List UInt8}
    (enough : rounds ≤ more) :
    Exec.Extends (fatFollowPath letter rounds dir path) (fatFollowPath letter more dir path) := by
  rw [fatFollowPath, fatFollowPath]
  split
  · exact .refl _
  · apply Exec.Extends.then_
    intro state
    dsimp only
    split
    · exact .refl _
    · split
      · exact .refl _
      · exact followLoop_extends enough

theorem fatFileOpen_extends {letter : UInt8} {dir : Dir} {file : File} {path : List UInt8}
    {length : Nat} (enough : rounds ≤ more) :
    Exec.Extends (fatFileOpen letter rounds dir file path length)
      (fatFileOpen letter more dir file path length) := by
  apply Exec.Extends.bind (fatFollowPath_extends enough)
  intro followed
  split
  · exact .refl _
  · split
    · exact .refl _
    · rw [openLast, openLast]
      split
      · exact .refl _
      · apply Exec.Extends.then_
        intro scanned
        split
        · exact .refl _
        · exact .bind (fatDirSearch_extends enough) fun _ => .refl _

end Rounds

/-! ## The last fragment -/

section Scan

variable {front trail : List UInt8} {state : FatState}

/-- The scan goes back over characters that are neither slash nor end mark. -/
theorem run_scanBack {chars rest : List UInt8} (noSlash : slash ∉ chars)
    (noEnd : (0 : UInt8) ∉ chars) {fragSize : Nat} (byte : fragSize < 2 ^ 8) :
    (scanBack (front ++ slash :: (chars ++ rest)) (front.length + chars.length) fragSize).run
      state = .ok (some (front.length, (fragSize + chars.length) % 2 ^ 8)) state := by
  induction chars using List.reverseRecOn generalizing rest fragSize with
  | nil =>
      have here : (front ++ slash :: ([] ++ rest)).getD front.length 0 = slash := by simp
      rw [scanBack.eq_def]
      simp only [List.length_nil, Nat.add_zero, here, if_true, Nat.mod_eq_of_lt byte]
      rfl
  | append_singleton chars char induction =>
      have own : slash ∉ chars := fun member => noSlash (List.mem_append_left _ member)
      have ended : (0 : UInt8) ∉ chars := fun member => noEnd (List.mem_append_left _ member)
      have notSlash : char ≠ slash := fun same => noSlash (by simp [same])
      have notEnd : char ≠ 0 := fun same => noEnd (by simp [same])
      have length : front.length + (chars ++ [char]).length = front.length + chars.length + 1 := by
        rw [List.length_append, List.length_singleton, Nat.add_assoc]
      have here : (front ++ slash :: (chars ++ [char] ++ rest)).getD
          (front.length + chars.length + 1) 0 = char := by
        have place : front.length + chars.length + 1 - front.length = chars.length + 1 := by omega
        rw [List.getD_append_right _ _ _ _ (by omega), place, List.getD_cons_succ,
          List.append_assoc, List.getD_append_right _ _ _ _ (Nat.le_refl _), Nat.sub_self]
        rfl
      have before := @induction (char :: rest) own ended ((fragSize + 1) % 2 ^ 8)
        (Nat.mod_lt _ (by decide))
      have total : ((fragSize + 1) % 2 ^ 8 + chars.length) % 2 ^ 8 =
          (fragSize + (chars ++ [char]).length) % 2 ^ 8 := by
        rw [List.length_append, List.length_singleton]
        omega
      rw [length, scanBack.eq_def]
      simp only [here, if_neg notSlash, if_neg notEnd]
      rw [← total, ← before, List.append_assoc]
      rfl

/-- Where the path ends and where the scan starts. -/
theorem EndsWith.last {path : List UInt8} {fragment : Fragment}
    (ends : EndsWith path front fragment trail) :
    path.getD (path.length - 1) 0 ≠ 0x00 ∧
      (if path.getD (path.length - 1) 0 = slash then path.length - 1 - 1 else path.length - 1) =
        front.length + fragment.chars.length := by
  have split := ends.split
  subst split
  have some_ : 0 < fragment.chars.length := List.length_pos_iff.mpr fragment.nonempty
  cases ends.trail with
  | inl none_ =>
      subst none_
      have last : (front ++ slash :: (fragment.chars ++ [])).length - 1 =
          front.length + (fragment.chars.length - 1 + 1) := by
        simp
        omega
      have here : (front ++ slash :: (fragment.chars ++ [])).getD
          (front.length + (fragment.chars.length - 1 + 1)) 0 ∈ fragment.chars := by
        rw [List.getD_append_right _ _ _ _ (by omega), Nat.add_sub_cancel_left,
          List.getD_cons_succ, List.append_nil, List.getD_eq_getElem _ _ (by omega)]
        exact List.getElem_mem _
      rw [last, if_neg fun same => fragment.noSlash (by rwa [same] at here)]
      exact ⟨fun same => fragment.noEnd (by rwa [same] at here), by omega⟩
  | inr slashed =>
      subst slashed
      have last : (front ++ slash :: (fragment.chars ++ [slash])).length - 1 =
          front.length + (fragment.chars.length + 1) := by simp
      have here : (front ++ slash :: (fragment.chars ++ [slash])).getD
          (front.length + (fragment.chars.length + 1)) 0 = slash := by
        rw [List.getD_append_right _ _ _ _ (by omega), Nat.add_sub_cancel_left,
          List.getD_cons_succ, List.getD_append_right _ _ _ _ (Nat.le_refl _), Nat.sub_self]
        rfl
      rw [last, here, if_pos rfl]
      exact ⟨by decide, by omega⟩

/-- The fragment is looked up with what stands behind it, under its length as a
byte. -/
theorem run_openLast {path : List UInt8} {fragment : Fragment}
    (ends : EndsWith path front fragment trail) (rounds : Nat) (file : File) (dir : Dir) :
    (openLast rounds file dir path (path.length - 1)).run state =
      (do
        let found ← fatDirSearch rounds dir (fragment.chars ++ trail)
          (fragment.chars.length % 2 ^ 8)
        if found.1 then pure (.ok, found.2.file) else pure (.pathErr, file) :
          Exec FatState (FStatus × File)).run state := by
  have drops : path.drop (front.length + 1) = fragment.chars ++ trail := by
    rw [ends.split, List.drop_append, Nat.add_sub_cancel_left]
    simp
  have scans := @run_scanBack front state fragment.chars trail fragment.noSlash fragment.noEnd 0
    (by decide)
  rw [Nat.zero_add, ← ends.split] at scans
  rw [openLast, if_neg ends.last.1, ends.last.2, Exec.run_bind_of_ok scans]
  dsimp only
  rw [drops]

end Scan

/-! ## Opening -/

section Opening

variable {state : FatState} {dir final : Dir} {file : File} {path front trail rest : List UInt8}
  {fragment : Fragment} {slots : List Slot} {letter : UInt8}

/-- Where the path leads to, with the volume still working. -/
theorem run_fatFollowPath_found {geometry : Geometry} {sectors : Nat → Sector}
    (loaded : Loaded geometry sectors state)
    (reached : FindsAll geometry sectors (followRoot geometry dir)
      (searches (rest.length + 4) (slash :: rest)) final) :
    ∃ enough after, Loaded geometry sectors after ∧ ∀ rounds, enough ≤ rounds →
      (fatFollowPath letter rounds dir (letter :: colon :: slash :: rest)).run state =
        .ok (.ok, final) after := by
  rcases run_followLoop_found reached loaded rfl (by simp) with ⟨enough, after, later, follows⟩
  refine ⟨enough, after, later, ?_⟩
  intro rounds many
  rw [fatFollowPath, if_neg (by simp), Exec.run_bind_of_ok (EStateM.run_get state),
    loaded.working.geometry]
  exact follows rounds many

theorem FindsAll.startSect {geometry : Geometry} {sectors : Nat → Sector}
    {paths : List (List UInt8)} (finds : FindsAll geometry sectors dir paths final)
    (start : dir.startSect = dir.sector) : final.startSect = final.sector := by
  cases paths with
  | nil =>
      cases finds
      exact start
  | cons path paths =>
      rcases finds.opened (List.cons_ne_nil _ _) with ⟨slot, rfl⟩
      rfl

/-- Past the bound of the path, what is left of the call is the search. -/
theorem run_fatFileOpen_found {after : FatState} {rounds : Nat}
    (ends : EndsWith path front fragment trail)
    (follows : (fatFollowPath letter rounds dir path).run state = .ok (.ok, final) after) :
    (fatFileOpen letter rounds dir file path path.length).run state =
      (do
        let found ← fatDirSearch rounds final (fragment.chars ++ trail)
          (fragment.chars.length % 2 ^ 8)
        if found.1 then pure (.ok, found.2.file) else pure (.pathErr, file) :
          Exec FatState (FStatus × File)).run after := by
  have some_ : path.length ≠ 0 := by
    rw [ends.split, List.length_append, List.length_cons]
    omega
  rw [fatFileOpen, Exec.run_bind_of_ok follows, if_neg (by simp), if_neg some_]
  exact run_openLast ends rounds file final

/-- With the directory found, the file is opened exactly if the search for its name
stops at an entry there, and it is the file of that entry. A call that does not
open it reports the path and leaves the file object as it was. -/
theorem file_open_iff (loaded : Loaded state.volume.toGeometry state.logical state)
    (start : path = letter :: colon :: slash :: rest)
    (ends : EndsWith path front fragment trail)
    (reached : FindsAll state.volume.toGeometry state.logical
      (followRoot state.volume.toGeometry dir) (searches (rest.length + 4) (slash :: rest)) final)
    (listing : Listing state.volume.toGeometry state.logical final slots) :
    (∀ opened, (∃ rounds after,
        (fatFileOpen letter rounds dir file path path.length).run state =
          .ok (.ok, opened) after) ↔
      ∃ slot, StopsAt (fragment.chars ++ trail) (fragment.chars.length % 2 ^ 8) 0 true slots slot ∧
        opened = (slot.opened state.volume.toGeometry).file) ∧
    ∀ rounds status opened after,
      (fatFileOpen letter rounds dir file path path.length).run state =
        .ok (status, opened) after → status ≠ .ok → status = .pathErr ∧ opened = file := by
  rcases @run_fatFollowPath_found _ _ _ _ letter _ _ loaded reached with
    ⟨enough, between, later, follows⟩
  have rewound : final.rewound state.volume.toGeometry = final :=
    if_neg (not_not.mpr (reached.startSect rfl))
  have opens := fun rounds (many : enough ≤ rounds) =>
    @run_fatFileOpen_found state dir final file path front trail fragment letter between rounds
      ends (start ▸ follows rounds many)
  have finds : ∀ found, (∃ rounds last, (fatDirSearch rounds final (fragment.chars ++ trail)
      (fragment.chars.length % 2 ^ 8)).run between = .ok (true, found) last) ↔
      ∃ slot, StopsAt (fragment.chars ++ trail) (fragment.chars.length % 2 ^ 8) 0 true slots slot ∧
        found = slot.opened state.volume.toGeometry :=
    fun found => fatDirSearch_returns_iff later.working (.inl later.buffer)
      (rewound.symm ▸ listing) found
  -- A call that returns has gone through the search, also with more rounds.
  have searched : ∀ {rounds status opened after},
      (fatFileOpen letter rounds dir file path path.length).run state =
        .ok (status, opened) after → ∃ found last,
      (fatDirSearch (max rounds enough) final (fragment.chars ++ trail)
        (fragment.chars.length % 2 ^ 8)).run between = .ok found last ∧
      (status, opened) = if found.1 then (.ok, found.2.file) else (.pathErr, file) := by
    intro rounds status opened after returns
    have extended := fatFileOpen_extends (Nat.le_max_left rounds enough) _ _ _ returns
    rw [opens _ (Nat.le_max_right rounds enough)] at extended
    rcases Exec.run_bind_ok.mp extended with ⟨found, last, search, rest⟩
    refine ⟨found, last, search, ?_⟩
    split at rest
    · cases rest
      rename_i isFound
      rw [if_pos isFound]
    · cases rest
      rename_i isFound
      rw [if_neg isFound]
  constructor
  · intro opened
    constructor
    · rintro ⟨rounds, after, returns⟩
      rcases searched returns with ⟨⟨isFound, found⟩, last, search, same⟩
      cases isFound with
      | false => cases same
      | true =>
          rcases (finds found).mp ⟨_, last, search⟩ with ⟨slot, stops, rfl⟩
          exact ⟨slot, stops, congrArg Prod.snd same⟩
    · rintro ⟨slot, stops, rfl⟩
      rcases (finds _).mpr ⟨slot, stops, rfl⟩ with ⟨rounds, last, search⟩
      refine ⟨max rounds enough, last, ?_⟩
      have more := fatDirSearch_extends (Nat.le_max_left rounds enough) _ _ _ search
      rw [opens _ (Nat.le_max_right rounds enough), Exec.run_bind_of_ok more]
      rfl
  · intro rounds status opened after returns failed
    rcases searched returns with ⟨⟨isFound, found⟩, last, _, same⟩
    cases isFound with
    | true => exact absurd (congrArg Prod.fst same) failed
    | false => exact ⟨congrArg Prod.fst same, congrArg Prod.snd same⟩

/-- The bytes of the file are there for any reads and jumps behind each other. -/
def ReadsFile (geometry : Geometry) (sectors : Nat → Sector) (extent : Extent)
    (opened : FatState × File) : Prop :=
  ∀ events state file, Run FileStep opened events (state, file) →
    ∀ count, file.globOffset < extent.size → ∃ moved after,
      (fatFileRead file count).run state =
        .ok ⟨.ok, moved, ((fileBytes geometry sectors extent 0 extent.size).drop
          file.globOffset).take (min count (extent.size - file.globOffset)),
          min count (extent.size - file.globOffset)⟩ after ∧
        moved.globOffset = file.globOffset + min count (extent.size - file.globOffset)

theorem Opened.readsFile {geometry : Geometry} {sectors : Nat → Sector} {extent : Extent}
    (formed : WellFormed geometry sectors extent) (nonempty : 0 < extent.size)
    (working : Working geometry sectors state) (opened : Opened geometry extent file) :
    ReadsFile geometry sectors extent (state, file) := by
  intro events later moved run count inside
  have placed := opened.atOffset formed nonempty
  have positioned : Positioned geometry sectors extent (later, moved) := by
    apply run.invariant (Positioned geometry sectors extent)
    · exact fun before event after holds step => holds.step formed step
    · exact ⟨working, placed.globOffset ▸ placed⟩
  rcases fatFileRead_spec positioned.1 formed positioned.2 inside count with
    ⟨next, after, returns, -, final⟩
  rw [fileBytes_eq_take_drop inside] at returns
  exact ⟨next, after, returns, final.globOffset⟩

/-- The chain of the file that the entry is about. -/
structure Slot.Describes (slot : Slot) (extent : Extent) : Prop where
  first : slot.cluster = extent.cluster 0
  size : slot.buffer.load32 (slot.offset + 28) = extent.size

theorem Slot.Describes.opened {geometry : Geometry} {sectors : Nat → Sector} {extent : Extent}
    {slot : Slot} (describes : slot.Describes extent)
    (formed : WellFormed geometry sectors extent) (nonempty : 0 < extent.size) :
    Opened geometry extent (slot.opened geometry).file := by
  have some_ : 0 < extent.clusters := by
    have bound := formed.cluster_lt nonempty
    simpa using bound
  have sector : fatClustToSect geometry slot.cluster = firstSector geometry (extent.cluster 0) := by
    rw [describes.first]
    exact formed.fatClustToSect_eq some_
  exact ⟨describes.size, sector, rfl, describes.first, rfl, rfl⟩

/-- By the directories of the volume the path leads to the entry of a file with these
clusters; `dir` is what the stack holds before. -/
inductive LeadsTo (geometry : Geometry) (sectors : Nat → Sector) (letter : UInt8) (dir : Dir)
    (extent : Extent) : List UInt8 → Prop where
  | intro {front trail rest : List UInt8} {fragment : Fragment} {final : Dir} {slots : List Slot}
      {slot : Slot} {path : List UInt8} :
      path = letter :: colon :: slash :: rest → EndsWith path front fragment trail →
      FindsAll geometry sectors (followRoot geometry dir)
        (searches (rest.length + 4) (slash :: rest)) final →
      Listing geometry sectors final slots →
      StopsAt (fragment.chars ++ trail) (fragment.chars.length % 2 ^ 8) 0 true slots slot →
      slot.Describes extent → LeadsTo geometry sectors letter dir extent path

/-- A file that the path leads to is opened, and from then on any reads and jumps deliver
its bytes. -/
theorem opens_then_reads {geometry : Geometry} {sectors : Nat → Sector}
    (loaded : Loaded geometry sectors state) {extent : Extent}
    (leads : LeadsTo geometry sectors letter dir extent path)
    (formed : WellFormed geometry sectors extent) (nonempty : 0 < extent.size) :
    ∃ rounds opened after,
      (fatFileOpen letter rounds dir file path path.length).run state =
        .ok (.ok, opened) after ∧ ReadsFile geometry sectors extent (after, opened) := by
  obtain rfl := loaded.working.geometry
  rcases leads with ⟨start, ends, reached, listing, stops, describes⟩
  rename_i slot
  rcases @run_fatFollowPath_found _ _ _ _ letter _ _ loaded reached with
    ⟨enough, between, later, follows⟩
  rcases stops.split with ⟨before, behind, split, stops⟩
  have entries := listing.entries split (List.append_ne_nil_of_right_ne_nil _ (by simp))
  rcases run_searchLoop later.working (.inl later.buffer) entries stops with ⟨after, still, runs⟩
  let rounds := max enough (before ++ [slot]).length
  have search := (fatDirSearch_start (reached.startSect rfl) rounds _ _ between).trans
    (runs rounds (Nat.le_max_right ..))
  refine ⟨rounds, (slot.opened state.volume.toGeometry).file, after, ?_, ?_⟩
  · rw [run_fatFileOpen_found ends (start ▸ follows rounds (Nat.le_max_left ..)),
      Exec.run_bind_of_ok search]
    rfl
  · exact (describes.opened formed nonempty).readsFile formed nonempty still.working

end Opening

/-! ## A root directory with one file -/

/-- The entry for `A.B` of one byte in cluster 3. -/
def sectorWithFile (lba offset : Nat) : UInt8 :=
  if lba = 64 then
    match offset with
    | 0 => 0x41
    | 1 => 0x2E
    | 2 => 0x42
    | 11 => 0x20
    | 26 => 3
    | 28 => 1
    | offset => if offset < 11 then 0x20 else 0
  else 0

def volumeWithFile : FatState :=
  { blankVolume with
    device := { blankVolume.device with
      sector := fun lba => .ofFn fun offset => sectorWithFile lba offset }
    volume := { blankVolume.volume with
      buffer := .ofFn fun offset => sectorWithFile 0 offset } }

def fragmentAB : Fragment where
  chars := [0x41, dot, 0x42]
  nonempty := by decide
  noSlash := by decide
  noEnd := by decide

def pathAB : List UInt8 := [letterC, colon, slash, 0x41, dot, 0x42]

def rootAB : Dir := followRoot volumeWithFile.volume.toGeometry noDir

theorem volumeWithFile_loaded :
    Loaded volumeWithFile.volume.toGeometry volumeWithFile.logical volumeWithFile where
  working := ⟨rfl, rfl, fun _ used => absurd rfl used, fun _ => rfl⟩
  buffer := rfl

theorem pathAB_endsWith : EndsWith pathAB [letterC, colon] fragmentAB [] := ⟨rfl, .inl rfl⟩

theorem rootAB_listing : Listing volumeWithFile.volume.toGeometry volumeWithFile.logical rootAB
    [slotAt volumeWithFile.logical rootAB] :=
  .cons ⟨by decide, by decide +kernel⟩ (by decide +kernel) (.marked (by decide +kernel))

theorem fragmentAB_stops : StopsAt (fragmentAB.chars ++ []) (fragmentAB.chars.length % 2 ^ 8) 0 true
    [slotAt volumeWithFile.logical rootAB] (slotAt volumeWithFile.logical rootAB) :=
  .found (by decide +kernel)

theorem file_open_iff_AB : ∃ rounds after,
    (fatFileOpen letterC rounds noDir oneByteHandle pathAB pathAB.length).run volumeWithFile =
      .ok (.ok, ((slotAt volumeWithFile.logical rootAB).opened
        volumeWithFile.volume.toGeometry).file) after :=
  ((@file_open_iff volumeWithFile noDir rootAB oneByteHandle pathAB [letterC, colon] []
    [0x41, dot, 0x42] fragmentAB _ letterC volumeWithFile_loaded rfl pathAB_endsWith (.nil _)
    rootAB_listing).1 _).mpr ⟨_, fragmentAB_stops, rfl⟩

end Vanilla.Disk
