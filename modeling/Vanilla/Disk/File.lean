import Vanilla.Disk.Volume

namespace Vanilla.Disk

/-! File objects of fat32.c: the redundant position of `struct file`, reading
and jumping. -/

inductive FStatus where
  | ok
  | error
  | noVolume
  | pathErr
  | eof
deriving DecidableEq, Repr

/-- `struct file`, on the volume of the state. -/
structure File where
  sector : Nat
  cluster : Nat
  rwOffset : Nat
  size : Nat
  startSect : Nat
  globOffset : Nat
deriving DecidableEq

def fatSectToClust (geometry : Geometry) (sect : Nat) : Nat :=
  u32 (u32Sub sect geometry.dataLba / geometry.clusterSize + 2)

def fatClustToSect (geometry : Geometry) (clust : Nat) : Nat :=
  u32 (u32Sub clust 2 * geometry.clusterSize + geometry.dataLba)

/-- The end-of-chain test on the low 28 bits of a table entry. -/
def endOfChain (entry : Nat) : Bool :=
  let eocValue := entry % 2 ^ 28
  decide (0xFFFFFF8 ≤ eocValue ∧ eocValue ≤ 0xFFFFFFF)

/-- The file after the call and whether it returned `1`. -/
def fatFileAddrResolve (file : File) : Exec FatState (Bool × File) := do
  let state ← get
  let geometry := state.volume.toGeometry
  if geometry.sectorSize ≤ file.rwOffset then
    let next := { file with
      rwOffset := file.rwOffset - geometry.sectorSize
      sector := u32 (file.sector + 1) }
    if u32 (fatClustToSect geometry file.cluster + geometry.clusterSize) ≤ next.sector then do
      let entry ← fatTableGet file.cluster
      match entry with
      | none => pure (false, next)
      | some newCluster =>
          if endOfChain newCluster then pure (false, next)
          else pure (true, { next with
            cluster := newCluster
            sector := fatClustToSect geometry newCluster })
    else
      pure (true, next)
  else
    pure (true, file)

/-! ## fat_file_read -/

/-- What a read leaves: the bytes it stored and `*status`, their number. -/
structure ReadResult where
  result : FStatus
  file : File
  stored : List UInt8
  status : Nat

/-- The position for the next byte, with its sector in the buffer; `none` when
that sector cannot be read. -/
def nextPosition (sectorSize : Nat) (file : File) : Exec FatState (Bool × File) :=
  if sectorSize ≤ file.rwOffset then do
    -- The result of the resolution is not looked at.
    let resolved ← fatFileAddrResolve file
    let cached ← fatRead resolved.2.sector
    pure (cached, resolved.2)
  else
    pure (true, file)

/-- The loop of `fat_file_read`, with `count` bytes to go. -/
def readLoop (sectorSize fileSize : Nat) :
    Nat → File → List UInt8 → Nat → Exec FatState ReadResult
  | 0, file, stored, status => pure ⟨.ok, file, stored, status⟩
  | count + 1, file, stored, status => do
      let position ← nextPosition sectorSize file
      if position.1 then do
        let byte ← fatLoad8 position.2.rwOffset
        let after := { position.2 with
          rwOffset := u32 (position.2.rwOffset + 1)
          globOffset := u32 (position.2.globOffset + 1) }
        if fileSize ≤ after.globOffset then
          pure ⟨.ok, after, stored ++ [byte], u32 (status + 1)⟩
        else
          readLoop sectorSize fileSize count after (stored ++ [byte]) (u32 (status + 1))
      else
        pure ⟨.error, position.2, stored, status⟩

def fatFileRead (file : File) (count : Nat) : Exec FatState ReadResult := do
  let state ← get
  let cached ← fatRead file.sector
  if cached then readLoop state.volume.sectorSize file.size count file [] 0
  else pure ⟨.error, file, [], 0⟩

/-! ## fat_file_jump -/

inductive ChainEnd where
  | reached
  | failed
  | ended
deriving DecidableEq

/-- Follow `clusterOffset` table entries, to the cluster where the loop stops. -/
def followChain : Nat → Nat → Exec FatState (ChainEnd × Nat)
  | 0, cluster => pure (.reached, cluster)
  | clusterOffset + 1, cluster => do
      let entry ← fatTableGet cluster
      match entry with
      | none => pure (.failed, cluster)
      | some newCluster =>
          if endOfChain newCluster then pure (.ended, cluster)
          else followChain clusterOffset newCluster

def fatFileJump (file : File) (offset : Nat) : Exec FatState (FStatus × File) := do
  let state ← get
  let geometry := state.volume.toGeometry
  let sectorOffset := offset / geometry.sectorSize
  let found ← followChain (sectorOffset / geometry.clusterSize)
    (fatSectToClust geometry file.startSect)
  match found.1 with
  | .failed => pure (.error, { file with cluster := found.2 })
  -- The source returns 0 here, which is `FSTATUS_OK`.
  | .ended => pure (.ok, { file with cluster := found.2 })
  | .reached => pure (.ok, { file with
      cluster := found.2
      sector := u32 (fatClustToSect geometry found.2 + sectorOffset % geometry.clusterSize)
      rwOffset := offset % geometry.sectorSize
      globOffset := offset })

end Vanilla.Disk
