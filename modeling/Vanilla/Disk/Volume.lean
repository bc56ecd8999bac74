import Vanilla.Foundation.Exec
import Vanilla.Foundation.Word
import Vanilla.Foundation.WriteBack

namespace Vanilla.Disk

/-! A mounted FAT32 volume and the storage device under it. Every file-system
operation goes through the one-sector buffer of the volume. -/

abbrev Sector := Vector UInt8 512

namespace Sector

def load8 (sector : Sector) (offset : Nat) : UInt8 := sector[offset]?.getD 0

def load16 (sector : Sector) (offset : Nat) : Nat :=
  (sector.load8 offset).toNat + 2 ^ 8 * (sector.load8 (offset + 1)).toNat

def load32 (sector : Sector) (offset : Nat) : Nat :=
  (sector.load8 offset).toNat +
    2 ^ 8 * (sector.load8 (offset + 1)).toNat +
    2 ^ 16 * (sector.load8 (offset + 2)).toNat +
    2 ^ 24 * (sector.load8 (offset + 3)).toNat

def store32 (sector : Sector) (offset value : Nat) : Sector :=
  (((sector.setIfInBounds offset (UInt8.ofNat value)).setIfInBounds
    (offset + 1) (UInt8.ofNat (value / 2 ^ 8))).setIfInBounds
    (offset + 2) (UInt8.ofNat (value / 2 ^ 16))).setIfInBounds
    (offset + 3) (UInt8.ofNat (value / 2 ^ 24))

end Sector

/-- The storage device. Transfer number `n` since power-up fails when
`fails n`; a failed transfer moves nothing. -/
structure Device where
  sector : Nat → Sector
  fails : Nat → Bool
  transfers : Nat

namespace Device

def counted (device : Device) : Device := { device with transfers := device.transfers + 1 }

def write (device : Device) (buffer : Sector) (lba : Nat) : Device :=
  { device with sector := Function.update device.sector lba buffer }

end Device

/-- The FAT32 information of `struct volume`, fixed when it is mounted. -/
structure Geometry where
  sectorSize : Nat
  clusterSize : Nat
  fatLba : Nat
  fsinfoLba : Nat
  dataLba : Nat
  rootLba : Nat
deriving DecidableEq

structure Volume extends Geometry where
  buffer : Sector
  bufferLba : Nat
  bufferDirty : Bool

structure FatState where
  device : Device
  volume : Volume

namespace FatState

/-- The volume buffer as a cache of the device. -/
def cache (state : FatState) : WriteBack Nat Sector where
  backing := state.device.sector
  tag := state.volume.bufferLba
  line := state.volume.buffer
  dirty := state.volume.bufferDirty

/-- The device contents overlaid with a dirty buffer. -/
def logical (state : FatState) : Nat → Sector := state.cache.logical

end FatState

/-! ## disk_io.c -/

/-- `disk_read(vol->disk, vol->buffer, lba, 1)`. -/
def diskRead (lba : Nat) : Exec FatState Bool := do
  let state ← get
  let device := state.device
  if device.fails device.transfers then do
    set { state with device := device.counted }
    pure false
  else do
    set { state with device := device.counted, volume.buffer := device.sector lba }
    pure true

/-- `disk_write(vol->disk, vol->buffer, vol->buffer_lba, 1)`. -/
def diskWrite : Exec FatState Bool := do
  let state ← get
  let device := state.device
  if device.fails device.transfers then do
    set { state with device := device.counted }
    pure false
  else do
    set { state with
      device := device.counted.write state.volume.buffer state.volume.bufferLba }
    pure true

/-! ## fat32.c: the sector buffer -/

def fatFlush : Exec FatState Bool := do
  let state ← get
  if state.volume.bufferDirty then do
    let written ← diskWrite
    if written then do
      modify fun state => { state with volume.bufferDirty := false }
      pure true
    else
      pure false
  else
    pure true

def fatRead (lba : Nat) : Exec FatState Bool := do
  let state ← get
  if state.volume.bufferLba = lba then
    -- The sector is already cached.
    pure true
  else do
    let flushed ← fatFlush
    if flushed then do
      let fetched ← diskRead lba
      if fetched then do
        modify fun state => { state with volume.bufferLba := lba }
        pure true
      else
        pure false
    else
      pure false

def fatLoad8 (offset : Nat) : Exec FatState UInt8 := do
  let state ← get
  if offset < 512 then pure (state.volume.buffer.load8 offset)
  else Exec.fault .outOfBounds

def fatLoad32 (offset : Nat) : Exec FatState Nat := do
  let state ← get
  if offset + 4 ≤ 512 then pure (state.volume.buffer.load32 offset)
  else Exec.fault .outOfBounds

def fatStore32 (offset value : Nat) : Exec FatState Unit := do
  let state ← get
  if offset + 4 ≤ 512 then
    set { state with volume.buffer := state.volume.buffer.store32 offset value }
  else Exec.fault .outOfBounds

/-! ## fat32.c: the allocation table -/

/-- The sector that holds the table entry of `cluster`. -/
def tableSector (geometry : Geometry) (cluster : Nat) : Nat :=
  u32 (geometry.fatLba + cluster / 128)

/-- `none` where the source returns `0`. -/
def fatTableGet (cluster : Nat) : Exec FatState (Option Nat) := do
  let state ← get
  let cached ← fatRead (tableSector state.volume.toGeometry cluster)
  if cached then do
    let entry ← fatLoad32 (cluster % 128 * 4)
    pure (some entry)
  else
    pure none

def fatTableSet (cluster fatEntry : Nat) : Exec FatState Bool := do
  let state ← get
  let cached ← fatRead (tableSector state.volume.toGeometry cluster)
  if cached then do
    fatStore32 (4 * (cluster % 128)) fatEntry
    modify fun state => { state with volume.bufferDirty := true }
    -- The result of this flush is not looked at.
    let _ ← fatFlush
    pure true
  else
    pure false

end Vanilla.Disk
