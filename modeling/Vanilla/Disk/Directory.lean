import Vanilla.Disk.File

namespace Vanilla.Disk

/-! Directories of fat32.c: walking over the entries of a directory, searching a
name in it and following a path. -/

/-- `struct dir`, on the volume of the state. -/
structure Dir where
  sector : Nat
  cluster : Nat
  rwOffset : Nat
  startSect : Nat
  size : Nat
deriving DecidableEq

/-- The directory after the call and whether it returned `1`. -/
def fatDirGetNext (dir : Dir) : Exec FatState (Bool × Dir) := do
  let state ← get
  let geometry := state.volume.toGeometry
  let moved := { dir with rwOffset := u32 (dir.rwOffset + 32) }
  if geometry.sectorSize ≤ moved.rwOffset then
    let next := { moved with
      rwOffset := moved.rwOffset - geometry.sectorSize
      sector := u32 (moved.sector + 1) }
    if u32 (fatClustToSect geometry next.cluster + geometry.clusterSize) ≤ next.sector then do
      let entry ← fatTableGet next.cluster
      match entry with
      | none => pure (false, next)
      | some newCluster =>
          if endOfChain newCluster then pure (false, next)
          else pure (true, { next with
            cluster := newCluster
            sector := fatClustToSect geometry newCluster })
    else
      pure (true, next)
  else
    pure (true, moved)

/-! ## Directory entries -/

/-- A 32-byte directory entry, by its place in a sector. -/
structure Slot where
  buffer : Sector
  offset : Nat

namespace Slot

def byte (slot : Slot) (column : Nat) : UInt8 := slot.buffer.load8 (slot.offset + column)

/-- `ATTR_LFN` in the attributes: the entry holds a part of a long name. -/
def isLong (slot : Slot) : Bool := slot.byte 11 &&& 0x0F == 0x0F

/-- The cluster the entry leads to. -/
def cluster (slot : Slot) : Nat :=
  slot.buffer.load16 (slot.offset + 20) * 2 ^ 16 + slot.buffer.load16 (slot.offset + 26)

/-- The directory object for the directory that the entry is about. -/
def opened (geometry : Geometry) (slot : Slot) : Dir where
  sector := fatClustToSect geometry slot.cluster
  cluster := slot.cluster
  rwOffset := 0
  startSect := fatClustToSect geometry slot.cluster
  size := slot.buffer.load32 (slot.offset + 28)

end Slot

/-- `lfn_lut` -/
def lfnLut : List Nat := [1, 3, 5, 7, 9, 14, 16, 18, 20, 22, 24, 28, 30]

def toUpper (char : UInt8) : UInt8 := if 97 ≤ char ∧ char ≤ 122 then char - 32 else char

/-- The loop of `fat_dir_sfn_cmp`; `none` when it leaves the sector buffer. -/
def sfnCmpLoop (buffer : Sector) : Nat → List UInt8 → Nat → Option Bool
  | _, _, 0 => some true
  | offset, name, size + 1 =>
      if offset < 512 then
        if toUpper (name.headD 0) = buffer.load8 offset then
          sfnCmpLoop buffer (offset + 1) name.tail size
        else some false
      else none

/-- `name` is the rest of the path from the fragment on, and `size` is taken as 8
bits. The loop of the source tests after it decrements `size`, so zero stands for
256. -/
def fatDirSfnCmp (slot : Slot) (name : List UInt8) (size : Nat) : Option Bool :=
  let size := size % 2 ^ 8
  let size := if 8 < size then 8 else size
  sfnCmpLoop slot.buffer slot.offset name (if size = 0 then 256 else size)

/-- The loop of `fat_dir_lfn_cmp`, from character `nameOff` of the name on. -/
def lfnCmpLoop (slot : Slot) (name : List UInt8) (size : Nat) : Nat → List Nat → Bool
  | _, [] => true
  | nameOff, column :: columns =>
      let char := slot.byte column
      if char = 0x00 ∨ char = 0xFF then true
      else if size ≤ nameOff then false
      else if char ≠ name.getD nameOff 0 then false
      else lfnCmpLoop slot name size (nameOff + 1) columns

def fatDirLfnCmp (slot : Slot) (name : List UInt8) (size : Nat) : Bool :=
  let nameOff := 13 * ((slot.byte 0 &&& 0x1F) - 1)
  lfnCmpLoop slot name size nameOff.toNat lfnLut

def fatGetSfnCrc (slot : Slot) : UInt8 :=
  (List.range 11).foldl
    (fun crc column => ((crc &&& 1) <<< 7) + (crc >>> 1) + slot.byte column) 0

/-! ## fat_dir_search -/

/-- What the search makes of an entry: it stops there, or goes on with new values
of `lfn_crc` and `lfn_match`, or its comparison leaves the sector buffer. -/
inductive SearchStep where
  | found
  | next (lfnCrc : UInt8) (lfnMatch : Bool)
  | outside
deriving DecidableEq

def searchStep (slot : Slot) (name : List UInt8) (size : Nat) (lfnCrc : UInt8)
    (lfnMatch : Bool) : SearchStep :=
  if slot.byte 0 = 0x05 ∨ slot.byte 0 = 0xE5 then
    .next lfnCrc lfnMatch
  else if slot.isLong then
    .next (slot.byte 13) (lfnMatch && fatDirLfnCmp slot name size)
  else if lfnCrc ≠ 0 ∧ lfnMatch = true then
    -- The entry is the last of a sequence of long name entries.
    if lfnCrc = fatGetSfnCrc slot then .found else .next 0 true
  else
    match fatDirSfnCmp slot name size with
    | some true => .found
    | some false => .next 0 true
    | none => .outside

/-- The loop of `fat_dir_search`: the directory after it and whether it returned
`1`. -/
def searchLoop (name : List UInt8) (size : Nat) :
    Nat → Dir → UInt8 → Bool → Exec FatState (Bool × Dir)
  | 0, _, _, _ => Exec.fault .diverges
  | rounds + 1, dir, lfnCrc, lfnMatch => do
      let cached ← fatRead dir.sector
      if cached then do
        let state ← get
        if dir.rwOffset + 32 ≤ 512 then
          let slot : Slot := ⟨state.volume.buffer, dir.rwOffset⟩
          if slot.byte 0 = 0 then pure (false, dir)
          else
            match searchStep slot name size lfnCrc lfnMatch with
            | .found => pure (true, slot.opened state.volume.toGeometry)
            | .outside => Exec.fault .outOfBounds
            | .next lfnCrc lfnMatch => do
                let moved ← fatDirGetNext dir
                if moved.1 then searchLoop name size rounds moved.2 lfnCrc lfnMatch
                else pure (false, moved.2)
        else Exec.fault .outOfBounds
      else
        pure (false, dir)

/-- `rounds` bounds the loop, which the source does not. -/
def fatDirSearch (rounds : Nat) (dir : Dir) (name : List UInt8) (size : Nat) :
    Exec FatState (Bool × Dir) := do
  let state ← get
  let dir :=
    if dir.startSect ≠ dir.sector then
      { dir with
        sector := dir.startSect
        cluster := fatSectToClust state.volume.toGeometry dir.startSect
        rwOffset := 0 }
    else dir
  searchLoop name size rounds dir 0 true

/-! ## fat_follow_path -/

def slash : UInt8 := 0x2F

def dot : UInt8 := 0x2E

def colon : UInt8 := 0x3A

/-- The loop of `fat_follow_path`, with what is left of the path. The path ends
where the list does. -/
def followLoop (rounds : Nat) : Nat → Dir → List UInt8 → Exec FatState (FStatus × Dir)
  | 0, _, _ => Exec.fault .diverges
  | turns + 1, dir, path =>
      match path.dropWhile (· ≠ slash) with
      | [] => pure (.ok, dir)
      | [_] => pure (.ok, dir)
      | _ :: path =>
          let frag := path.takeWhile (· ≠ slash)
          if dot ∈ frag then
            -- The fragment describes a file.
            pure (.ok, dir)
          else do
            let found ← fatDirSearch rounds dir path (frag.length % 2 ^ 8)
            if found.1 then followLoop rounds turns found.2 path
            -- `return 0`
            else pure (.ok, found.2)

/-- The volume of the state is the one mounted as `letter`, and the only one. -/
def fatFollowPath (letter : UInt8) (rounds : Nat) (dir : Dir) (path : List UInt8) :
    Exec FatState (FStatus × Dir) := do
  if path.headD 0 ≠ letter then
    pure (.noVolume, dir)
  else do
    let state ← get
    let geometry := state.volume.toGeometry
    let dir := { dir with
      startSect := geometry.rootLba
      sector := geometry.rootLba
      cluster := fatClustToSect geometry geometry.rootLba
      rwOffset := 0 }
    if path.tail.headD 0 ≠ colon then pure (.pathErr, dir)
    else if path.tail.tail.headD 0 ≠ slash then pure (.pathErr, dir)
    else followLoop rounds (path.length + 1) dir path.tail.tail

/-- The length of the path is not looked at. -/
def fatDirOpen (letter : UInt8) (rounds : Nat) (dir : Dir) (path : List UInt8)
    (_length : Nat) : Exec FatState (FStatus × Dir) :=
  fatFollowPath letter rounds dir path

end Vanilla.Disk
