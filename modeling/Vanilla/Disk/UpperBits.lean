import Vanilla.Disk.Directory
import Vanilla.Disk.FileRead
import Vanilla.Disk.Traversal
import Vanilla.Foundation.Lockstep

namespace Vanilla.Disk

/-! Two volumes that differ in the upper four bits of table entries. -/

/-- The sectors of the allocation tables. -/
def InTable (geometry : Geometry) (lba : Nat) : Prop :=
  geometry.fatLba ≤ lba ∧ lba < geometry.dataLba

instance (geometry : Geometry) (lba : Nat) : Decidable (InTable geometry lba) := by
  unfold InTable
  infer_instance

/-- The sectors of two volumes are the same up to the upper four bits of table entries. -/
def Alike (geometry : Geometry) (lba : Nat) (left right : Sector) : Prop :=
  if InTable geometry lba then
    ∀ entry < 128, left.load32 (entry * 4) % 2 ^ 28 = right.load32 (entry * 4) % 2 ^ 28
  else left = right

/-- Two volumes in the same state, up to the upper four bits of table entries. -/
structure Alongside (geometry : Geometry) (left right : FatState) : Prop where
  bufferLba : left.volume.bufferLba = right.volume.bufferLba
  bufferDirty : left.volume.bufferDirty = right.volume.bufferDirty
  fails : left.device.fails = right.device.fails
  transfers : left.device.transfers = right.device.transfers
  device : ∀ lba, Alike geometry lba (left.device.sector lba) (right.device.sector lba)
  buffer : Alike geometry left.volume.bufferLba left.volume.buffer right.volume.buffer

/-- Two such volumes with these logical disks. -/
structure Twins (geometry : Geometry) (first second : Nat → Sector)
    (failing : Nat → Bool) (left right : FatState) : Prop extends Alongside geometry left right where
  leftGeometry : left.volume.toGeometry = geometry
  rightGeometry : right.volume.toGeometry = geometry
  leftLogical : left.logical = first
  rightLogical : right.logical = second
  leftCoherent : left.Coherent
  rightCoherent : right.Coherent
  leftFails : left.device.fails = failing

section Cache

variable {geometry : Geometry} {first second : Nat → Sector} {failing : Nat → Bool}
  {left right : FatState}

theorem Alongside.alike_write (alongside : Alongside geometry left right) (lba : Nat) :
    Alike geometry lba
      (Function.update left.device.sector left.volume.bufferLba left.volume.buffer lba)
      (Function.update right.device.sector right.volume.bufferLba right.volume.buffer lba) := by
  rw [← alongside.bufferLba]
  by_cases same : lba = left.volume.bufferLba
  · rw [same, Function.update_self, Function.update_self]
    exact alongside.buffer
  · rw [Function.update_of_ne same, Function.update_of_ne same]
    exact alongside.device lba

theorem Alongside.fatFlush (alongside : Alongside geometry left right) :
    ∃ flushed left' right', fatFlush.run left = .ok flushed left' ∧
      fatFlush.run right = .ok flushed right' ∧ Alongside geometry left' right' := by
  have sameDirty := alongside.bufferDirty
  have written := run_diskWrite left
  have written' := run_diskWrite right
  rw [Disk.fatFlush, Exec.run_bind_of_ok (EStateM.run_get left),
    Exec.run_bind_of_ok (EStateM.run_get right), ← sameDirty]
  cases dirty : left.volume.bufferDirty with
  | false => exact ⟨true, left, right, rfl, rfl, alongside⟩
  | true =>
      rw [← alongside.fails, ← alongside.transfers] at written'
      rw [if_pos rfl]
      cases failed : left.device.fails left.device.transfers with
      | true =>
          rw [if_pos failed] at written written'
          rw [Exec.run_bind_of_ok written, Exec.run_bind_of_ok written']
          refine ⟨false, _, _, rfl, rfl, ?_⟩
          exact { alongside with transfers := congrArg (· + 1) alongside.transfers }
      | false =>
          rw [if_neg (by simp [failed])] at written written'
          rw [Exec.run_bind_of_ok written, Exec.run_bind_of_ok written']
          refine ⟨true, { left with
              device := left.device.counted.write left.volume.buffer left.volume.bufferLba,
              volume.bufferDirty := false }, { right with
              device := right.device.counted.write right.volume.buffer right.volume.bufferLba,
              volume.bufferDirty := false }, rfl, rfl, ?_⟩
          exact {
            bufferLba := alongside.bufferLba
            bufferDirty := rfl
            fails := alongside.fails
            transfers := congrArg Nat.succ alongside.transfers
            device := alongside.alike_write
            buffer := alongside.buffer }

theorem Alongside.fatRead (alongside : Alongside geometry left right) (lba : Nat) :
    ∃ cached left' right', (fatRead lba).run left = .ok cached left' ∧
      (fatRead lba).run right = .ok cached right' ∧ Alongside geometry left' right' := by
  rw [Disk.fatRead, Exec.run_bind_of_ok (EStateM.run_get left),
    Exec.run_bind_of_ok (EStateM.run_get right), ← alongside.bufferLba]
  by_cases cached : left.volume.bufferLba = lba
  · rw [if_pos cached]
    exact ⟨true, left, right, rfl, rfl, alongside⟩
  · rcases alongside.fatFlush with ⟨flushed, middle, middle', flush, flush', clean⟩
    rw [if_neg cached, Exec.run_bind_of_ok flush, Exec.run_bind_of_ok flush']
    cases flushed with
    | false => exact ⟨false, middle, middle', rfl, rfl, clean⟩
    | true =>
        have fetched := run_diskRead lba middle
        have fetched' := run_diskRead lba middle'
        rw [← clean.fails, ← clean.transfers] at fetched'
        rw [if_pos rfl]
        cases failed : middle.device.fails middle.device.transfers with
        | true =>
            rw [if_pos failed] at fetched fetched'
            rw [Exec.run_bind_of_ok fetched, Exec.run_bind_of_ok fetched']
            refine ⟨false, _, _, rfl, rfl, ?_⟩
            exact { clean with transfers := congrArg (· + 1) clean.transfers }
        | false =>
            rw [if_neg (by simp [failed])] at fetched fetched'
            rw [Exec.run_bind_of_ok fetched, Exec.run_bind_of_ok fetched']
            refine ⟨true, _, _, rfl, rfl, ?_⟩
            exact ⟨rfl, clean.bufferDirty, clean.fails, congrArg (· + 1) clean.transfers,
              clean.device, clean.device lba⟩

theorem Twins.of_transparent {left' right' : FatState}
    (twins : Twins geometry first second failing left right) (leftQuiet : Transparent left left')
    (rightQuiet : Transparent right right') (alongside : Alongside geometry left' right') :
    Twins geometry first second failing left' right' where
  toAlongside := alongside
  leftGeometry := leftQuiet.geometry.trans twins.leftGeometry
  rightGeometry := rightQuiet.geometry.trans twins.rightGeometry
  leftLogical := leftQuiet.logical.trans twins.leftLogical
  rightLogical := rightQuiet.logical.trans twins.rightLogical
  leftCoherent := leftQuiet.coherent
  rightCoherent := rightQuiet.coherent
  leftFails := leftQuiet.fails.trans twins.leftFails

theorem Twins.fatRead (twins : Twins geometry first second failing left right) (lba : Nat) :
    ∃ cached left' right', (fatRead lba).run left = .ok cached left' ∧
      (fatRead lba).run right = .ok cached right' ∧
      Twins geometry first second failing left' right' ∧
      (cached = true → left'.volume.bufferLba = lba) ∧
      (cached = false → ∃ transfer, failing transfer = true) := by
  rcases twins.toAlongside.fatRead lba with ⟨cached, left', right', read, read', alongside⟩
  rcases fatRead_spec twins.leftCoherent lba with ⟨_, _, again, leftQuiet, held, refused⟩
  rcases fatRead_spec twins.rightCoherent lba with ⟨_, _, again', rightQuiet, _⟩
  cases read.symm.trans again
  cases read'.symm.trans again'
  rw [twins.leftFails] at refused
  exact ⟨cached, left', right', read, read',
    twins.of_transparent leftQuiet rightQuiet alongside, held, refused⟩

end Cache

/-! ## Following the table -/

/-- The entry ends the chain, or it is the same on both volumes. It is not looked up
in the boot sector. -/
def AgreeAt (geometry : Geometry) (first second : Nat → Sector) (cluster : Nat) : Prop :=
  tableSector geometry cluster ≠ 0 ∧
    (endOfChain (tableEntry geometry first cluster) = true ∨
      tableEntry geometry first cluster = tableEntry geometry second cluster)

/-- What the two lookups of an entry find. -/
inductive Looked (geometry : Geometry) (first : Nat → Sector) (failing : Nat → Bool)
    (cluster : Nat) : Option Nat → Option Nat → Prop where
  | failed {transfer : Nat} : failing transfer = true →
      Looked geometry first failing cluster none none
  | ended {entry other : Nat} : endOfChain entry = true → endOfChain other = true →
      endOfChain (tableEntry geometry first cluster) = true →
      Looked geometry first failing cluster (some entry) (some other)
  | next : endOfChain (tableEntry geometry first cluster) = false →
      Looked geometry first failing cluster (some (tableEntry geometry first cluster))
        (some (tableEntry geometry first cluster))

section Table

variable {geometry : Geometry} {first second : Nat → Sector} {failing : Nat → Bool}
  {left right : FatState}

theorem endOfChain_congr {entry other : Nat} (low : entry % 2 ^ 28 = other % 2 ^ 28) :
    endOfChain entry = endOfChain other := by
  rw [endOfChain, endOfChain, low]

theorem alike_load32 {lba : Nat} {sector other : Sector} (alike : Alike geometry lba sector other)
    (cluster : Nat) : sector.load32 (cluster % 128 * 4) % 2 ^ 28 =
      other.load32 (cluster % 128 * 4) % 2 ^ 28 := by
  rw [Alike] at alike
  split at alike
  · exact alike _ (Nat.mod_lt _ (by decide))
  · rw [alike]

theorem Twins.fatTableGet (twins : Twins geometry first second failing left right)
    {cluster : Nat} (agree : AgreeAt geometry first second cluster) :
    ∃ entry entry' left' right', (fatTableGet cluster).run left = .ok entry left' ∧
      (fatTableGet cluster).run right = .ok entry' right' ∧
      Twins geometry first second failing left' right' ∧
      Looked geometry first failing cluster entry entry' := by
  rcases agree with ⟨real, same⟩
  rcases fatTableGet_spec twins.leftCoherent cluster with ⟨entry, final, get, _, value, _⟩
  rcases fatTableGet_spec twins.rightCoherent cluster with ⟨entry', final', get', _, value', _⟩
  rw [twins.leftGeometry, twins.leftLogical] at value
  rw [twins.rightGeometry, twins.rightLogical] at value'
  rcases twins.fatRead (tableSector geometry cluster) with
    ⟨cached, left', right', read, read', later, _, refused⟩
  refine ⟨entry, entry', final, final', get, get', ?_⟩
  rw [Disk.fatTableGet, Exec.run_bind_of_ok (EStateM.run_get left), twins.leftGeometry,
    Exec.run_bind_of_ok read] at get
  rw [Disk.fatTableGet, Exec.run_bind_of_ok (EStateM.run_get right), twins.rightGeometry,
    Exec.run_bind_of_ok read'] at get'
  cases cached with
  | false =>
      cases get
      cases get'
      rcases refused rfl with ⟨transfer, failed⟩
      exact ⟨later, .failed failed⟩
  | true =>
      have bound := tableOffset_bound cluster
      rw [if_pos rfl, Exec.run_bind_of_ok (run_fatLoad32 bound left')] at get
      rw [if_pos rfl, Exec.run_bind_of_ok (run_fatLoad32 bound right')] at get'
      have ends := endOfChain_congr (alike_load32 later.buffer cluster)
      cases get
      cases get'
      have loads := value _ rfl real
      have loads' := value' _ rfl real
      rw [loads, loads'] at ends
      rw [loads, loads']
      refine ⟨later, ?_⟩
      change endOfChain (tableEntry geometry first cluster) =
        endOfChain (tableEntry geometry second cluster) at ends
      change Looked geometry first failing cluster (some (tableEntry geometry first cluster))
        (some (tableEntry geometry second cluster))
      cases last : endOfChain (tableEntry geometry first cluster) with
      | true => exact .ended last (ends.symm.trans last) last
      | false =>
          rw [last] at same
          rw [← same.resolve_left Bool.false_ne_true]
          exact .next last

end Table

/-! ## The calls -/

/-- Behind this sector the end test finds the end of the cluster. -/
def EndsCluster (geometry : Geometry) (sector cluster : Nat) : Prop :=
  u32 (fatClustToSect geometry cluster + geometry.clusterSize) ≤ u32 (sector + 1)

instance (geometry : Geometry) (sector cluster : Nat) :
    Decidable (EndsCluster geometry sector cluster) := by
  unfold EndsCluster
  infer_instance

/-- The entry that moving on behind this offset looks up, if it does. -/
def MoveAgrees (geometry : Geometry) (first second : Nat → Sector)
    (rwOffset sector cluster : Nat) : Prop :=
  geometry.sectorSize ≤ rwOffset → EndsCluster geometry sector cluster →
    AgreeAt geometry first second cluster

/-- Where a file comes to, by sector and cluster, when it goes on to the next sector.
A file whose chain ends goes on behind it; so does one whose lookup fails. -/
inductive Advances (geometry : Geometry) (first : Nat → Sector) (failing : Nat → Bool)
    (sector cluster : Nat) : Nat → Nat → Prop where
  | inside : ¬ EndsCluster geometry sector cluster →
      Advances geometry first failing sector cluster (u32 (sector + 1)) cluster
  | behind : EndsCluster geometry sector cluster →
      endOfChain (tableEntry geometry first cluster) = true →
      Advances geometry first failing sector cluster (u32 (sector + 1)) cluster
  | failed {transfer : Nat} : EndsCluster geometry sector cluster → failing transfer = true →
      Advances geometry first failing sector cluster (u32 (sector + 1)) cluster
  | linked : EndsCluster geometry sector cluster →
      endOfChain (tableEntry geometry first cluster) = false →
      Advances geometry first failing sector cluster
        (fatClustToSect geometry (tableEntry geometry first cluster))
        (tableEntry geometry first cluster)

/-- As far as a read of some bytes can come, its sectors lie outside the table and the
entries it looks up agree. -/
def ReadAgrees (geometry : Geometry) (first second : Nat → Sector) (failing : Nat → Bool) :
    Nat → Nat → Nat → Prop
  | 0, sector, _ => ¬ InTable geometry sector
  | count + 1, sector, cluster => ¬ InTable geometry sector ∧
      (EndsCluster geometry sector cluster → AgreeAt geometry first second cluster) ∧
      ∀ nextSector nextCluster,
        Advances geometry first failing sector cluster nextSector nextCluster →
        ReadAgrees geometry first second failing count nextSector nextCluster

/-- The entries of a chain agree, for as many as are followed. -/
def ChainAgrees (geometry : Geometry) (first second : Nat → Sector) : Nat → Nat → Prop
  | 0, _ => True
  | count + 1, cluster => AgreeAt geometry first second cluster ∧
      (endOfChain (tableEntry geometry first cluster) = false →
        ChainAgrees geometry first second count (tableEntry geometry first cluster))

section Calls

variable {geometry : Geometry} {first second : Nat → Sector} {failing : Nat → Bool}
  {left right : FatState}

open Lockstep

theorem ReadAgrees.less {count sector cluster : Nat}
    (agrees : ReadAgrees geometry first second failing (count + 1) sector cluster) :
    ReadAgrees geometry first second failing count sector cluster := by
  induction count generalizing sector cluster with
  | zero => exact agrees.1
  | succ count induction =>
      exact ⟨agrees.1, agrees.2.1, fun _ _ advances => induction (agrees.2.2 _ _ advances)⟩

theorem ReadAgrees.outside {count sector cluster : Nat}
    (agrees : ReadAgrees geometry first second failing count sector cluster) :
    ¬ InTable geometry sector := by
  cases count with
  | zero => exact agrees
  | succ count => exact agrees.1

end Calls

/-! ## Sequences of calls -/

/-- A call on a directory or file object. -/
inductive VolumeCall where
  | dirGetNext (dir : Dir)
  | fileRead (file : File) (count : Nat)
  | fileJump (file : File) (offset : Nat)

/-- What a call gives: the object it leaves, and its bytes and status. -/
inductive VolumeReply where
  | dirGetNext (found : Bool) (dir : Dir)
  | fileRead (result : ReadResult)
  | fileJump (status : FStatus) (file : File)

namespace VolumeCall

def code : VolumeCall → Exec FatState VolumeReply
  | dirGetNext dir => do
      let moved ← fatDirGetNext dir
      pure (.dirGetNext moved.1 moved.2)
  | fileRead file count => do
      let result ← fatFileRead file count
      pure (.fileRead result)
  | fileJump file offset => do
      let jumped ← fatFileJump file offset
      pure (.fileJump jumped.1 jumped.2)

/-- The table entries that the call follows have the same upper bits on both volumes,
and it reads no bytes of the table. -/
def Agrees (geometry : Geometry) (first second : Nat → Sector) (failing : Nat → Bool) :
    VolumeCall → Prop
  | dirGetNext dir =>
      MoveAgrees geometry first second (u32 (dir.rwOffset + 32)) dir.sector dir.cluster
  | fileRead file count =>
      ReadAgrees geometry first second failing count file.sector file.cluster
  | fileJump file offset =>
      ChainAgrees geometry first second (offset / geometry.sectorSize / geometry.clusterSize)
        (fatSectToClust geometry file.startSect)

end VolumeCall

section Runs

variable {geometry : Geometry} {first second : Nat → Sector} {failing : Nat → Bool}
  {left right : FatState}

open Lockstep

end Runs

end Vanilla.Disk
