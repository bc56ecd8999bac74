import Vanilla.Disk.Directory

namespace Vanilla.Disk

/-! Reading a directory entry by entry, and the label of the volume, as fat32.c
does. -/

/-- `struct info`. The name is the bytes from `info->name` on, of which 256 are
its own. -/
structure Info where
  name : Nat → UInt8
  nameLength : UInt8
  attributes : UInt8
  cTimeTenth : UInt8
  cTime : Nat
  cDate : Nat
  aDate : Nat
  wTime : Nat
  wDate : Nat
  size : Nat

/-- What `fat_dir_read` has gathered: its two locals, the name so far and the
places in it that were stored to. -/
structure Reading where
  lfnCrc : UInt8
  nameLength : UInt8
  name : Nat → UInt8
  stores : List Nat

namespace Reading

/-- `info->name[index] = char` and `name_length++`. -/
def store (reading : Reading) (index : Nat) (char : UInt8) : Reading where
  lfnCrc := reading.lfnCrc
  nameLength := reading.nameLength + 1
  name := Function.update reading.name index char
  stores := reading.stores ++ [index]

end Reading

/-- The loop over `lfn_lut`, from character `index` of the entry on. -/
def storeLongLoop (slot : Slot) (nameOffset : UInt8) : Nat → List Nat → Reading → Reading
  | _, [], reading => reading
  | index, column :: columns, reading =>
      let char := slot.byte column
      storeLongLoop slot nameOffset (index + 1) columns
        (if char = 0x00 ∨ char = 0xFF then reading
        else reading.store (nameOffset.toNat + index) char)

def storeLong (slot : Slot) (reading : Reading) : Reading :=
  storeLongLoop slot (13 * ((slot.byte 0 &&& 0x1F) - 1)) 0 lfnLut reading

/-- The loop that copies an 8.3 name as it stands. -/
def storeShort (slot : Slot) (reading : Reading) : Reading :=
  (List.range 11).foldl (fun reading index => reading.store index (slot.byte index)) reading

/-- What `fat_dir_read` makes of an entry. -/
inductive ReadStep where
  | eof
  | next (reading : Reading)
  | crcError
  | entry (reading : Reading)

def readStep (slot : Slot) (reading : Reading) : ReadStep :=
  if slot.byte 0 = 0x00 then .eof
  else if slot.byte 0 ≠ 0xE5 ∧ slot.byte 0 ≠ 0x05 then
    if slot.isLong then .next { storeLong slot reading with lfnCrc := slot.byte 13 }
    else if reading.lfnCrc ≠ 0 then
      -- The last entry in a chain of long name entries.
      if reading.lfnCrc ≠ fatGetSfnCrc slot then .crcError else .entry reading
    else .entry (storeShort slot reading)
  else .next reading

/-- `info` once the entry has been read. -/
def Slot.describe (slot : Slot) (reading : Reading) : Info where
  name := reading.name
  nameLength := reading.nameLength
  attributes := slot.byte 11
  cTimeTenth := slot.byte 13
  cTime := slot.buffer.load16 (slot.offset + 14)
  cDate := slot.buffer.load16 (slot.offset + 16)
  aDate := slot.buffer.load16 (slot.offset + 18)
  wTime := slot.buffer.load16 (slot.offset + 22)
  wDate := slot.buffer.load16 (slot.offset + 24)
  size := slot.buffer.load32 (slot.offset + 28)

/-- What a call leaves. The status says whether the fields of `info` besides the
name have been written. -/
structure DirReadResult where
  status : FStatus
  dir : Dir
  info : Info
  stores : List Nat

/-- The loop of `fat_dir_read`. -/
def dirReadLoop (info : Info) : Nat → Dir → Reading → Exec FatState DirReadResult
  | 0, _, _ => Exec.fault .diverges
  | rounds + 1, dir, reading => do
      let cached ← fatRead dir.sector
      if cached then do
        let state ← get
        if dir.rwOffset + 32 ≤ 512 then
          let slot : Slot := ⟨state.volume.buffer, dir.rwOffset⟩
          match readStep slot reading with
          | .eof => pure ⟨.eof, dir, { info with name := reading.name }, reading.stores⟩
          | .crcError => pure ⟨.error, dir, { info with name := reading.name }, reading.stores⟩
          | .entry reading => do
              -- Neither here nor below is it looked at whether there is a next entry.
              let moved ← fatDirGetNext dir
              pure ⟨.ok, moved.2, slot.describe reading, reading.stores⟩
          | .next reading => do
              let moved ← fatDirGetNext dir
              dirReadLoop info rounds moved.2 reading
        else Exec.fault .outOfBounds
      else
        pure ⟨.error, dir, { info with name := reading.name }, reading.stores⟩

/-- `rounds` bounds the loop, which the source does not. -/
def fatDirRead (rounds : Nat) (dir : Dir) (info : Info) : Exec FatState DirReadResult :=
  dirReadLoop info rounds dir ⟨0, 0, info.name, []⟩

/-! ## The label of the volume -/

/-- `ATTR_VOL_LABEL` without being part of a long name. -/
def Slot.holdsLabel (slot : Slot) : Bool := slot.byte 11 &&& 0x08 != 0 && !slot.isLong

/-- The loop of `fat_get_vol_label`: its status and the characters of the label.
When it has found a label it returns `1`, which is `FSTATUS_ERROR`. -/
def labelLoop : Nat → Dir → Exec FatState (FStatus × List UInt8)
  | 0, _ => Exec.fault .diverges
  | rounds + 1, dir => do
      let cached ← fatRead dir.sector
      if cached then do
        let state ← get
        if dir.rwOffset + 32 ≤ 512 then
          let slot : Slot := ⟨state.volume.buffer, dir.rwOffset⟩
          if slot.holdsLabel then pure (.error, (List.range 11).map slot.byte)
          else do
            let moved ← fatDirGetNext dir
            if moved.1 then labelLoop rounds moved.2 else pure (.error, [])
        else Exec.fault .outOfBounds
      else
        pure (.error, [])

def fatGetVolLabel (rounds : Nat) : Exec FatState (FStatus × List UInt8) := do
  let state ← get
  let geometry := state.volume.toGeometry
  labelLoop rounds
    { sector := geometry.rootLba
      cluster := fatSectToClust geometry geometry.rootLba
      rwOffset := 0
      startSect := 0
      size := 0 }

end Vanilla.Disk
