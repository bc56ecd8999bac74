import Vanilla.Disk.BootSector
import Vanilla.Disk.FileOpen
import Vanilla.Disk.Table
import Vanilla.Disk.VolumeMounts
import Vanilla.Foundation.Ends

namespace Vanilla.Disk

open Exec

/-! `disk_mount`: from the sectors of a disk to the volumes in the list. -/

/-- `struct partition`, by its entry in the first sector of the disk. -/
structure Partition where
  lba : Nat
  size : Nat
  type : UInt8
  status : UInt8

/-- The disk, the blocks that `mm_alloc` gives out next, the list of the volumes
and what their memory holds. -/
structure MountState where
  device : Device
  heap : List VolumePtr
  table : VolumeTable
  volume : VolumePtr → Volume
  label : VolumePtr → List UInt8

/-- A volume with the disk that it is on. -/
def MountState.at (vol : VolumePtr) (state : MountState) : FatState :=
  ⟨state.device, state.volume vol⟩

def MountState.setAt (vol : VolumePtr) (part : FatState) (state : MountState) : MountState :=
  { state with
    device := part.device
    volume := Function.update state.volume vol part.volume }

/-! ## fat32.c -/

def partitionAt (mbr : Sector) (i : Nat) : Partition :=
  let offset := 446 + i * 16
  { lba := mbr.load32 (offset + 8)
    size := mbr.load32 (offset + 12)
    type := mbr.load8 (offset + 4)
    status := mbr.load8 (offset + 0) }

def partitions (mbr : Sector) : List Partition := (List.range 4).map (partitionAt mbr)

/-- `disk_read(disk, mount_buffer, lba, 1)`; a failure panics for the given reason. -/
def mountRead (reason : String) (lba : Nat) : Exec MountState Sector := do
  let state ← get
  set { state with device := state.device.counted }
  if state.device.fails state.device.transfers then Exec.panic reason
  else pure (state.device.sector lba)

/-- What is taken from the boot sector of a partition. -/
def bpbGeometry (lba : Nat) (bpb : Sector) : Geometry :=
  let fatLba := u32 (lba + bpb.load16 14)
  let geometry : Geometry :=
    { sectorSize := bpb.load16 11
      clusterSize := (bpb.load8 13).toNat
      fatLba := fatLba
      fsinfoLba := u32 (lba + bpb.load16 48)
      dataLba := u32 (fatLba + u32 (bpb.load32 36 * (bpb.load8 16).toNat))
      rootLba := 0 }
  { geometry with rootLba := fatClustToSect geometry (bpb.load32 44) }

/-- The fields of a volume; its buffer is what the block held before. -/
def fillVolume (disk : Nat) (vol : VolumePtr) (geometry : Geometry) (state : MountState) :
    MountState :=
  { state with
    table := { state.table with
      disk := Function.update state.table.disk vol disk
      bufferDirty := Function.update state.table.bufferDirty vol false }
    volume := Function.update state.volume vol
      { geometry with
        buffer := (state.volume vol).buffer
        bufferLba := 0
        bufferDirty := false } }

/-- `mm_alloc` returns `NULL` when it has no block, and the fields are written through it. -/
def mmAllocVolume : Exec MountState VolumePtr := do
  let state ← get
  match state.heap with
  | [] => Exec.fault .nullDereference
  | vol :: heap => do
      set { state with heap := heap }
      pure vol

/-- What is done for a partition with a FAT32 file system. -/
def mountVolumeOf (rounds disk lba : Nat) (bpb : Sector) : Exec MountState Unit := do
  let vol ← mmAllocVolume
  modify (fillVolume disk vol (bpbGeometry lba bpb))
  let label ← Exec.zoom (MountState.at vol) (MountState.setAt vol) (fatGetVolLabel rounds)
  modify fun state => { state with label := Function.update state.label vol label.2 }
  -- The volume is new, so that it is added.
  let _ ← Exec.zoom MountState.table (fun table state => { state with table := table })
    (fatVolumeAdd vol)
  pure ()

/-- The loop of `disk_mount` over the partitions. A division by zero in `fat_search` is a
fault of the processor. -/
def mountPartitions (rounds disk : Nat) : List Partition → Exec MountState Unit
  | [] => pure ()
  | partition :: later => do
      if partition.lba = 0 then mountPartitions rounds disk later
      else do
        let bpb ← mountRead "Disk error" partition.lba
        match fatSearch bpb with
        | none => Exec.panic "Usage fault"
        | some false => mountPartitions rounds disk later
        | some true => do
            mountVolumeOf rounds disk partition.lba bpb
            mountPartitions rounds disk later

/-- `present` is what `disk_get_status` returns, `ready` what `disk_initialize` does. -/
def diskMount (rounds : Nat) (present ready : Bool) (disk : Nat) : Exec MountState Bool := do
  if ¬ present then Exec.panic "SD card not connected"
  else if ¬ ready then Exec.panic "SD protocol error"
  else do
    let mbr ← mountRead "Read failed" 0
    if mbr.load16 510 ≠ 0xAA55 then pure false
    else do
      mountPartitions rounds disk (partitions mbr)
      pure true

/-- `fat_file_open` on the volume that the letter of the path finds. -/
def fileOpen (rounds : Nat) (dir : Dir) (file : File) (path : List UInt8) (length : Nat) :
    Exec MountState (FStatus × File) := do
  let vol ← Exec.zoom MountState.table (fun table state => { state with table := table })
    (volumeGet (path.headD 0).toNat)
  match vol with
  | none => pure (.noVolume, file)
  | some vol =>
      Exec.zoom (MountState.at vol) (MountState.setAt vol)
        (fatFileOpen (path.headD 0) rounds dir file path length)

/-! ## The format -/

/-- The numbers of the sectors of a FAT32 volume, from its boot sector. -/
def formatGeometry (lba : Nat) (bpb : Sector) : Geometry where
  sectorSize := Bpb.sectorSize bpb
  clusterSize := Bpb.clusterSize bpb
  fatLba := lba + Bpb.rsvdCnt bpb
  fsinfoLba := lba + bpb.load16 48
  dataLba := lba + Bpb.rsvdCnt bpb + Bpb.numFats bpb * bpb.load32 36
  rootLba := lba + Bpb.rsvdCnt bpb + Bpb.numFats bpb * bpb.load32 36 +
    (bpb.load32 44 - 2) * Bpb.clusterSize bpb

/-- The root directory and the sector of the free counts have a number. -/
structure InRange (lba : Nat) (bpb : Sector) : Prop where
  root : 2 ≤ bpb.load32 44
  placed : (formatGeometry lba bpb).rootLba < 2 ^ 32
  fsinfo : lba + bpb.load16 48 < 2 ^ 32

theorem bpbGeometry_eq {lba : Nat} {bpb : Sector} (inRange : InRange lba bpb) :
    bpbGeometry lba bpb = formatGeometry lba bpb := by
  have word := Sector.load32_lt bpb 44
  have placed : lba + bpb.load16 14 + (bpb.load8 16).toNat * bpb.load32 36 +
      (bpb.load32 44 - 2) * (bpb.load8 13).toNat < 2 ^ 32 := inRange.placed
  have fat : u32 (lba + bpb.load16 14) = lba + bpb.load16 14 := u32_of_lt (by omega)
  have size : u32 (bpb.load32 36 * (bpb.load8 16).toNat) =
      (bpb.load8 16).toNat * bpb.load32 36 := by
    rw [Nat.mul_comm]
    exact u32_of_lt (by omega)
  have data : u32 (lba + bpb.load16 14 + (bpb.load8 16).toNat * bpb.load32 36) =
      lba + bpb.load16 14 + (bpb.load8 16).toNat * bpb.load32 36 := u32_of_lt (by omega)
  have root : u32 ((bpb.load32 44 - 2) * (bpb.load8 13).toNat +
      (lba + bpb.load16 14 + (bpb.load8 16).toNat * bpb.load32 36)) =
      lba + bpb.load16 14 + (bpb.load8 16).toNat * bpb.load32 36 +
        (bpb.load32 44 - 2) * (bpb.load8 13).toNat := by
    rw [Nat.add_comm]
    exact u32_of_lt placed
  simp only [bpbGeometry, fatClustToSect, fat, size, data, u32Sub_of_le word inRange.root, root,
    u32_of_lt inRange.fsinfo]
  rfl

/-! ## A volume that is only read -/

/-- Nothing is to be written back, and the disk holds these sectors. -/
structure Calm (geometry : Geometry) (sectors : Nat → Sector) (state : FatState) : Prop where
  geometry : state.volume.toGeometry = geometry
  sector : state.device.sector = sectors
  clean : state.volume.bufferDirty = false
  fails : ∀ transfer, state.device.fails transfer = false

/-- The buffer is the sector that it is tagged with. -/
def Held (sectors : Nat → Sector) (state : FatState) : Prop :=
  state.volume.buffer = sectors state.volume.bufferLba

section Reading

variable {geometry : Geometry} {sectors : Nat → Sector} {state : FatState}

theorem Calm.loaded (calm : Calm geometry sectors state) (held : Held sectors state) :
    Loaded geometry sectors state := by
  have logical : state.logical = sectors :=
    (WriteBack.logical_of_clean calm.clean).trans calm.sector
  refine ⟨⟨calm.geometry, logical, ?_, calm.fails⟩, held⟩
  intro _ _
  exact held.trans (congrFun calm.sector.symm _)

/-- Reading leaves the disk alone also where it does not return. -/
abbrev Reads (geometry : Geometry) (sectors : Nat → Sector) {Value : Type}
    (code : Exec FatState Value) (state : FatState) (holds : Prop) : Prop :=
  Ends code state (fun _ after => Calm geometry sectors after ∧ (holds → Held sectors after))
    fun after => after.device.sector = sectors

theorem fatRead_reads (calm : Calm geometry sectors state) (lba : Nat) :
    Reads geometry sectors (fatRead lba) state
      (Held sectors state ∨ state.volume.bufferLba ≠ lba) := by
  rw [fatRead]
  apply Ends.get
  split
  · rename_i same
    exact .pure ⟨calm, fun real => real.resolve_right (not_not.mpr same)⟩
  · have flush : fatFlush.run state = .ok true state := by
      have clean : ¬ state.volume.bufferDirty = true := Bool.eq_false_iff.mp calm.clean
      rw [fatFlush, Exec.run_bind_of_ok (EStateM.run_get state), if_neg clean]
      rfl
    have fetched := run_diskRead lba state
    rw [if_neg (Bool.eq_false_iff.mp (calm.fails _))] at fetched
    apply Ends.change flush
    rw [if_pos rfl]
    apply Ends.change fetched
    rw [if_pos rfl]
    refine .modify (.pure ⟨⟨calm.geometry, calm.sector, calm.clean, calm.fails⟩, fun _ => ?_⟩)
    exact congrFun calm.sector lba

theorem fatTableGet_reads (calm : Calm geometry sectors state) (cluster : Nat) :
    Reads geometry sectors (fatTableGet cluster) state (Held sectors state) := by
  rw [fatTableGet]
  apply Ends.get
  apply Ends.bind (fatRead_reads calm _)
  rintro cached between ⟨calm, held⟩
  split
  · apply Ends.change (run_fatLoad32 (tableOffset_bound cluster) between)
    exact .pure ⟨calm, fun before => held (.inl before)⟩
  · exact .pure ⟨calm, fun before => held (.inl before)⟩

theorem fatDirGetNext_reads (calm : Calm geometry sectors state) (dir : Dir) :
    Reads geometry sectors (fatDirGetNext dir) state (Held sectors state) := by
  rw [fatDirGetNext]
  apply Ends.get
  dsimp only
  split
  · split
    · apply Ends.bind (fatTableGet_reads calm _)
      rintro entry between read
      cases entry with
      | none => exact .pure read
      | some newCluster =>
          dsimp only
          split
          · exact .pure read
          · exact .pure read
    · exact .pure ⟨calm, id⟩
  · exact .pure ⟨calm, id⟩

theorem labelLoop_reads : ∀ {rounds : Nat} {state : FatState} {dir : Dir},
    Calm geometry sectors state →
    Reads geometry sectors (labelLoop rounds dir) state
      (Held sectors state ∨ state.volume.bufferLba ≠ dir.sector)
  | 0, _, _, calm => .fault calm.sector
  | rounds + 1, state, dir, calm => by
      rw [labelLoop]
      apply Ends.bind (fatRead_reads calm dir.sector)
      rintro cached between ⟨calm, held⟩
      split
      · apply Ends.get
        split
        · dsimp only
          split
          · exact .pure ⟨calm, held⟩
          · apply Ends.bind (fatDirGetNext_reads calm dir)
            rintro moved next ⟨calm, still⟩
            split
            · exact (labelLoop_reads calm).imp fun _ _ read =>
                ⟨read.1, fun before => read.2 (.inl (still (held before)))⟩
            · exact .pure ⟨calm, fun before => still (held before)⟩
        · exact .fault calm.sector
      · exact .pure ⟨calm, held⟩

theorem fatGetVolLabel_reads {rounds : Nat} (calm : Calm geometry sectors state) :
    Reads geometry sectors (fatGetVolLabel rounds) state
      (Held sectors state ∨ state.volume.bufferLba ≠ geometry.rootLba) := by
  rw [fatGetVolLabel]
  apply Ends.get
  rw [calm.geometry]
  exact labelLoop_reads calm

end Reading

/-! ## Volumes of a disk -/

/-- The volumes that are mounted one after the other. -/
def mountAll (mounts : List Mount) (vols : List VolumePtr) : List Mount :=
  vols.foldl mountVolume mounts

/-- Where the partitions with a FAT32 file system start. -/
def fat32Lbas (sectors : Nat → Sector) (partitions : List Partition) : List Nat :=
  (partitions.map Partition.lba).filter fun lba =>
    decide (lba ≠ 0 ∧ fatSearch (sectors lba) = some true)

/-- The volume is on the disk, and for the functions on files it is the one that the format
says of the partition. -/
structure MountedAs (sectors : Nat → Sector) (disk : Nat) (state : MountState)
    (vol : VolumePtr) (lba : Nat) : Prop where
  disk : state.table.disk vol = disk
  loaded : InRange lba (sectors lba) →
    Loaded (formatGeometry lba (sectors lba)) sectors (state.at vol)

section Mounting

variable {sectors : Nat → Sector} {disk lba : Nat} {mounts : List Mount} {vol other : VolumePtr}
  {before state : MountState} {volumes : List (VolumePtr × Nat)} {table : VolumeTable}

theorem mem_mountVolume : other ∈ (mountVolume mounts vol).map Mount.volume ↔
    other ∈ mounts.map Mount.volume ∨ other = vol := by
  rw [mountVolume]
  split
  · rename_i member
    constructor
    · exact .inl
    · rintro (old | rfl)
      · exact old
      · exact member
  · rw [List.map_append, List.mem_append]
    simp

theorem length_mountVolume_le : (mountVolume mounts vol).length ≤ mounts.length + 1 := by
  rw [mountVolume]
  split
  · exact Nat.le_succ _
  · rw [List.length_append]
    exact Nat.le_refl _

theorem mountAll_snoc {vols : List VolumePtr} :
    mountAll mounts (vols ++ [vol]) = mountVolume (mountAll mounts vols) vol := by
  rw [mountAll, List.foldl_append]
  rfl

theorem Loaded.of_device {geometry : Geometry} {device : Device} {volume : Volume}
    {part : Device} (loaded : Loaded geometry sectors ⟨device, volume⟩)
    (sector : part.sector = device.sector) (fails : part.fails = device.fails) :
    Loaded geometry sectors ⟨part, volume⟩ := by
  have cache : FatState.cache ⟨part, volume⟩ = FatState.cache ⟨device, volume⟩ := by
    simp only [FatState.cache, sector]
  refine ⟨⟨loaded.working.geometry, ?_, ?_, ?_⟩, loaded.buffer⟩
  · rw [FatState.logical, cache]
    exact loaded.working.logical
  · rw [FatState.Coherent, cache]
    exact loaded.working.coherent
  · intro transfer
    exact (congrFun fails transfer).trans (loaded.working.fails transfer)

theorem Listed.of_fields (listed : Listed table mounts) (disk : VolumePtr → Nat)
    (bufferDirty : VolumePtr → Bool) :
    Listed { table with disk := disk, bufferDirty := bufferDirty } mounts :=
  ⟨listed.chain, listed.letters, listed.indices, listed.small, listed.bits, listed.alive⟩

/-- A new volume is listed, on the disk that it was on. -/
theorem Listed.add_fresh (listed : Listed table mounts) (room : mounts.length < 32)
    (absent : vol ∉ mounts.map Mount.volume) (live : vol ∉ table.freed) :
    ∃ after, (fatVolumeAdd vol).run table = .ok true after ∧
      Listed after (mountVolume mounts vol) ∧ after.freed = table.freed ∧
      after.disk = table.disk := by
  rcases listed.add_new room absent live with ⟨after, adds, added, freed, _⟩
  rcases listed.add_links absent with ⟨base, next, links, _⟩
  refine ⟨after, adds, added, freed, ?_⟩
  cases adds.symm.trans links
  rw [assignLetter]
  split
  · rfl
  · rfl

theorem fillVolume_volume (disk : Nat) (vol : VolumePtr) (geometry : Geometry)
    (state : MountState) : (fillVolume disk vol geometry state).volume vol =
      { geometry with
        buffer := (state.volume vol).buffer
        bufferLba := 0
        bufferDirty := false } := Function.update_self ..

theorem fillVolume_calm {geometry : Geometry} (sector : state.device.sector = sectors)
    (fails : ∀ transfer, state.device.fails transfer = false) :
    Calm geometry sectors ((fillVolume disk vol geometry state).at vol) := by
  refine ⟨?_, sector, ?_, fails⟩
  · rw [MountState.at, fillVolume_volume]
  · rw [MountState.at, fillVolume_volume]

/-- What holds when these volumes of the disk have been mounted. -/
structure Mounting (sectors : Nat → Sector) (disk : Nat) (mounts : List Mount)
    (before : MountState) (volumes : List (VolumePtr × Nat)) (state : MountState) : Prop where
  sector : state.device.sector = sectors
  fails : ∀ transfer, state.device.fails transfer = false
  listed : Listed state.table (mountAll mounts (volumes.map Prod.fst))
  among : ∀ entry ∈ volumes, entry.1 ∈ (mountAll mounts (volumes.map Prod.fst)).map Mount.volume
  nodup : state.heap.Nodup
  fresh : ∀ vol ∈ state.heap, vol ∉ state.table.freed ∧
    vol ∉ (mountAll mounts (volumes.map Prod.fst)).map Mount.volume
  mounted : ∀ entry ∈ volumes, MountedAs sectors disk state entry.1 entry.2
  kept : ∀ vol ∉ volumes.map Prod.fst, state.volume vol = before.volume vol

/-- One volume more, in the first block of the heap. -/
theorem Mounting.add {heap : List VolumePtr} {after : MountState}
    (mounting : Mounting sectors disk mounts before volumes state)
    (blocks : state.heap = vol :: heap) (start : lba ≠ 0)
    (calm : Calm (bpbGeometry lba (sectors lba)) sectors (after.at vol))
    (held : (bpbGeometry lba (sectors lba)).rootLba ≠ 0 → Held sectors (after.at vol))
    (rest : after.heap = heap) (others : ∀ other ≠ vol, after.volume other = state.volume other)
    (listed : Listed after.table (mountVolume (mountAll mounts (volumes.map Prod.fst)) vol))
    (freed : after.table.freed = state.table.freed)
    (disks : after.table.disk = Function.update state.table.disk vol disk) :
    Mounting sectors disk mounts before (volumes ++ [(vol, lba)]) after := by
  have absent := (mounting.fresh vol (blocks ▸ List.mem_cons_self ..)).2
  have nodup := mounting.nodup
  rw [blocks, List.nodup_cons] at nodup
  have all : mountAll mounts ((volumes ++ [(vol, lba)]).map Prod.fst) =
      mountVolume (mountAll mounts (volumes.map Prod.fst)) vol := by
    rw [List.map_append]
    exact mountAll_snoc
  constructor
  · exact calm.sector
  · exact calm.fails
  · rw [all]
    exact listed
  · intro entry member
    rw [all, mem_mountVolume]
    rcases List.mem_append.mp member with old | new
    · exact .inl (mounting.among entry old)
    · cases List.mem_singleton.mp new
      exact .inr rfl
  · exact rest ▸ nodup.2
  · intro other member
    rw [rest] at member
    have unused := mounting.fresh other (blocks ▸ List.mem_cons_of_mem _ member)
    rw [all, mem_mountVolume, freed]
    refine ⟨unused.1, ?_⟩
    rintro (old | rfl)
    · exact unused.2 old
    · exact nodup.1 member
  · intro entry member
    rcases List.mem_append.mp member with old | new
    · have apart : entry.1 ≠ vol := fun same => absent (same ▸ mounting.among entry old)
      have mounted := mounting.mounted entry old
      constructor
      · rw [disks, Function.update_of_ne apart]
        exact mounted.disk
      · intro inRange
        rw [MountState.at, others _ apart]
        apply (mounted.loaded inRange).of_device (calm.sector.trans mounting.sector.symm)
        funext transfer
        exact (calm.fails transfer).trans (mounting.fails transfer).symm
    · cases List.mem_singleton.mp new
      constructor
      · rw [disks, Function.update_self]
      · intro inRange
        have same := bpbGeometry_eq inRange
        rw [same] at calm held
        have first : lba ≤ (formatGeometry lba (sectors lba)).rootLba := by
          simp only [formatGeometry]
          omega
        have rooted : (formatGeometry lba (sectors lba)).rootLba ≠ 0 := by omega
        exact calm.loaded (held rooted)
  · intro other absent
    rw [List.map_append, List.mem_append, not_or] at absent
    have apart : other ≠ vol := fun same => absent.2 (same ▸ List.mem_singleton_self _)
    exact (others other apart).trans (mounting.kept other absent.1)

theorem mountVolumeOf_ends {rounds : Nat}
    (mounting : Mounting sectors disk mounts before volumes state)
    (room : (mountAll mounts (volumes.map Prod.fst)).length < 32) (start : lba ≠ 0) :
    Ends (mountVolumeOf rounds disk lba (sectors lba)) state
      (fun _ after => ∃ vol, Mounting sectors disk mounts before (volumes ++ [(vol, lba)]) after)
      fun after => after.device.sector = sectors := by
  rw [mountVolumeOf]
  cases blocks : state.heap with
  | nil =>
      have null : mmAllocVolume.run state = .error .nullDereference state := by
        rw [mmAllocVolume, Exec.run_bind_of_ok (EStateM.run_get state), blocks]
        rfl
      exact .bindError null mounting.sector
  | cons vol heap =>
      have allocates : mmAllocVolume.run state = .ok vol { state with heap := heap } := by
        rw [mmAllocVolume, Exec.run_bind_of_ok (EStateM.run_get state), blocks]
        rfl
      apply Ends.change allocates
      apply Ends.modify
      let geometry := bpbGeometry lba (sectors lba)
      let filled := fillVolume disk vol geometry { state with heap := heap }
      have calm : Calm geometry sectors (filled.at vol) :=
        fillVolume_calm mounting.sector mounting.fails
      have blank : (filled.at vol).volume.bufferLba = 0 :=
        congrArg (fun volume : Volume => volume.bufferLba) (fillVolume_volume disk vol _ _)
      apply @Ends.bind _ _ _ _ _ _ _ _ (fun _ whole => ∃ part,
        whole = MountState.setAt vol part filled ∧ Calm geometry sectors part ∧
          (geometry.rootLba ≠ 0 → Held sectors part))
      · apply (fatGetVolLabel_reads calm).zoom
        · rintro label part ⟨calm, held⟩
          exact ⟨part, rfl, calm, fun rooted => held (.inr (blank ▸ rooted.symm))⟩
        · exact fun part read => read
      rintro label _ ⟨part, rfl, calm, held⟩
      apply Ends.modify
      have unused := mounting.fresh vol (blocks ▸ List.mem_cons_self ..)
      have listed : Listed filled.table (mountAll mounts (volumes.map Prod.fst)) :=
        mounting.listed.of_fields _ _
      rcases listed.add_fresh room unused.2 unused.1 with ⟨table, adds, added, freed, disks⟩
      let labelled : MountState :=
        { MountState.setAt vol part filled with
          label := Function.update filled.label vol label.2 }
      have run := @run_zoom_ok _ _ _ MountState.table
        (fun table state => { state with table := table }) _ labelled _ _ adds
      apply Ends.change run
      have volume : Function.update filled.volume vol part.volume vol = part.volume :=
        Function.update_self ..
      have at_ : MountState.at vol { labelled with table := table } = part := by
        rw [MountState.at]
        simp only [labelled, MountState.setAt, volume]
      refine .pure ⟨vol, mounting.add blocks start ?_ ?_ rfl ?_ added freed disks⟩
      · rw [at_]
        exact calm
      · rw [at_]
        exact held
      · intro other apart
        exact (Function.update_of_ne apart _ _).trans (Function.update_of_ne apart _ _)

theorem mountRead_ends {reason : String} {lba : Nat} :
    Ends (mountRead reason lba) state
      (fun read after => read = state.device.sector lba ∧
        after = { state with device := state.device.counted })
      fun after => after = { state with device := state.device.counted } := by
  rw [mountRead]
  apply Ends.get
  apply Ends.set
  split
  · exact .panic rfl
  · exact .pure ⟨rfl, rfl⟩

theorem Mounting.counted (mounting : Mounting sectors disk mounts before volumes state) :
    Mounting sectors disk mounts before volumes { state with device := state.device.counted } := by
  refine ⟨mounting.sector, mounting.fails, mounting.listed, mounting.among, mounting.nodup,
    mounting.fresh, fun entry member => ⟨(mounting.mounted entry member).disk, ?_⟩, mounting.kept⟩
  exact fun inRange => ((mounting.mounted entry member).loaded inRange).of_device rfl rfl

/-- The rest of the partitions is mounted behind the volumes so far. -/
theorem mountPartitions_ends {rounds : Nat} : ∀ {partitions : List Partition} {state : MountState}
    {volumes : List (VolumePtr × Nat)}, Mounting sectors disk mounts before volumes state →
    (mountAll mounts (volumes.map Prod.fst)).length + partitions.length ≤ 32 →
    Ends (mountPartitions rounds disk partitions) state
      (fun _ after => ∃ added, added.map Prod.snd = fat32Lbas sectors partitions ∧
        Mounting sectors disk mounts before (volumes ++ added) after)
      fun after => after.device.sector = sectors
  | [], _, volumes, mounting, _ =>
      .pure ⟨[], rfl, (List.append_nil volumes).symm ▸ mounting⟩
  | partition :: later, state, volumes, mounting, room => by
      rw [List.length_cons] at room
      rw [mountPartitions]
      split
      · rename_i unused
        have skipped : fat32Lbas sectors (partition :: later) = fat32Lbas sectors later := by
          simp [fat32Lbas, unused]
        rw [skipped]
        exact mountPartitions_ends mounting (by omega)
      · rename_i used
        apply Ends.bind (mountRead_ends.impStopped fun _ same => same ▸ mounting.sector)
        rintro bpb _ ⟨rfl, rfl⟩
        have counted := mounting.counted
        rw [mounting.sector]
        split
        · exact .panic mounting.sector
        · rename_i other
          have skipped : fat32Lbas sectors (partition :: later) = fat32Lbas sectors later := by
            simp [fat32Lbas, other]
          rw [skipped]
          exact mountPartitions_ends counted (by omega)
        · rename_i found
          have first : fat32Lbas sectors (partition :: later) =
              partition.lba :: fat32Lbas sectors later := by
            simp [fat32Lbas, found, used]
          apply Ends.bind (mountVolumeOf_ends counted (by omega) used)
          rintro _ between ⟨vol, mounting⟩
          have longer : (mountAll mounts ((volumes ++ [(vol, partition.lba)]).map
              Prod.fst)).length ≤ (mountAll mounts (volumes.map Prod.fst)).length + 1 := by
            rw [List.map_append]
            exact mountAll_snoc ▸ length_mountVolume_le
          apply (mountPartitions_ends mounting (by omega)).imp
          rintro _ after ⟨added, rest, mounting⟩
          refine ⟨(vol, partition.lba) :: added, ?_, ?_⟩
          · rw [List.map_cons, rest, first]
          · rwa [List.append_cons]

/-- Each FAT32 partition of the disk has become a volume, in order, and nothing else. -/
structure MountsDisk (disk : Nat) (mounts : List Mount) (before after : MountState)
    (volumes : List (VolumePtr × Nat)) : Prop where
  partitions : volumes.map Prod.snd =
    fat32Lbas before.device.sector (partitions (before.device.sector 0))
  listed : Listed after.table (mountAll mounts (volumes.map Prod.fst))
  mounted : ∀ entry ∈ volumes, MountedAs before.device.sector disk after entry.1 entry.2
  kept : ∀ vol ∉ volumes.map Prod.fst, after.volume vol = before.volume vol

theorem diskMount_ends (rounds : Nat) (present ready : Bool) (disk : Nat)
    (answers : ∀ transfer, state.device.fails transfer = false)
    (listed : Listed state.table mounts) (room : mounts.length + 4 ≤ 32)
    (nodup : state.heap.Nodup)
    (fresh : ∀ vol ∈ state.heap, vol ∉ state.table.freed ∧ vol ∉ mounts.map Mount.volume) :
    Ends (diskMount rounds present ready disk) state
      (fun mounted after => after.device.sector = state.device.sector ∧
        (mounted = true → (state.device.sector 0).load16 510 = 0xAA55 ∧
          ∃ volumes, MountsDisk disk mounts state after volumes ∧
            Mounting state.device.sector disk mounts state volumes after) ∧
        (mounted = false → (state.device.sector 0).load16 510 ≠ 0xAA55 ∧
          after = { state with device := state.device.counted }))
      fun after => after.device.sector = state.device.sector := by
  have start : Mounting state.device.sector disk mounts state [] state :=
    ⟨rfl, answers, listed, fun _ member => (nomatch member), nodup, fresh,
      fun _ member => (nomatch member), fun _ _ => rfl⟩
  rw [diskMount]
  split
  · exact .panic rfl
  · split
    · exact .panic rfl
    · apply Ends.bind (mountRead_ends.impStopped fun _ same => same ▸ rfl)
      rintro mbr _ ⟨rfl, rfl⟩
      split
      · rename_i unsigned
        exact .pure ⟨rfl, nofun, fun _ => ⟨unsigned, rfl⟩⟩
      · rename_i signed
        have enough : (mountAll mounts []).length + (partitions (state.device.sector 0)).length ≤
            32 := room
        apply Ends.bind (mountPartitions_ends start.counted enough)
        rintro _ after ⟨volumes, lbas, mounting⟩
        refine .pure ⟨mounting.sector, fun _ => ⟨not_not.mp signed, volumes, ?_, mounting⟩, nofun⟩
        exact ⟨lbas, mounting.listed, mounting.mounted, mounting.kept⟩

/-- A disk is mounted as its first sector and the boot sectors of its partitions say; in no
run is anything written to it. -/
theorem disk_mounts_partitions (rounds : Nat) (present ready : Bool) (disk : Nat)
    (answers : ∀ transfer, state.device.fails transfer = false)
    (listed : Listed state.table mounts) (room : mounts.length + 4 ≤ 32)
    (nodup : state.heap.Nodup)
    (fresh : ∀ vol ∈ state.heap, vol ∉ state.table.freed ∧ vol ∉ mounts.map Mount.volume) :
    Ends (diskMount rounds present ready disk) state
      (fun mounted after => after.device.sector = state.device.sector ∧
        (mounted = true → (state.device.sector 0).load16 510 = 0xAA55 ∧
          ∃ volumes, MountsDisk disk mounts state after volumes) ∧
        (mounted = false → (state.device.sector 0).load16 510 ≠ 0xAA55 ∧
          after.table = state.table ∧ after.volume = state.volume))
      fun after => after.device.sector = state.device.sector := by
  apply (diskMount_ends rounds present ready disk answers listed room nodup fresh).imp
  rintro mounted after ⟨sector, done, refused⟩
  refine ⟨sector, fun signed => ?_, fun unsigned => ?_⟩
  · rcases done signed with ⟨signature, volumes, mounts, _⟩
    exact ⟨signature, volumes, mounts⟩
  · rcases refused unsigned with ⟨signature, rfl⟩
    exact ⟨signature, rfl, rfl⟩

/-- The letter of a mounted volume leads to it. -/
theorem Mounting.opens (mounting : Mounting sectors disk mounts before volumes state)
    {entry : VolumePtr × Nat} (member : entry ∈ volumes) {letter : UInt8} {path : List UInt8}
    (given : letter.toNat = state.table.letter entry.1) (first : path.headD 0 = letter)
    {rounds : Nat} {dir : Dir} {file : File} {status : FStatus} {opened : File} {part : FatState}
    (opens : (fatFileOpen letter rounds dir file path path.length).run (state.at entry.1) =
      .ok (status, opened) part) :
    (fileOpen rounds dir file path path.length).run state =
      .ok (status, opened) (MountState.setAt entry.1 part state) := by
  rcases mounting.listed.lookup letter.toNat with ⟨found, lookup, agrees⟩
  have some_ : found = some entry.1 :=
    (agrees entry.1).mpr ⟨mounting.among entry member, given.symm⟩
  subst first
  rw [fileOpen, Exec.run_bind_of_ok (run_zoom_ok lookup), some_]
  exact run_zoom_ok opens

/-- Every file of the partition is opened by the letter of the volume, and read. -/
def FilesRead (sectors : Nat → Sector) (lba : Nat) (vol : VolumePtr) (state : MountState) : Prop :=
  ∀ letter dir file path extent, letter.toNat = state.table.letter vol →
    LeadsTo (formatGeometry lba (sectors lba)) sectors letter dir extent path →
    WellFormed (formatGeometry lba (sectors lba)) sectors extent → 0 < extent.size →
    ∃ rounds opened after,
      (fileOpen rounds dir file path path.length).run state = .ok (.ok, opened) after ∧
      ReadsFile (formatGeometry lba (sectors lba)) sectors extent (after.at vol, opened)

theorem Mounting.filesRead (mounting : Mounting sectors disk mounts before volumes state)
    {entry : VolumePtr × Nat} (member : entry ∈ volumes)
    (inRange : InRange entry.2 (sectors entry.2)) :
    FilesRead sectors entry.2 entry.1 state := by
  intro letter dir file path extent given leads formed nonempty
  have loaded := (mounting.mounted entry member).loaded inRange
  rcases opens_then_reads loaded leads formed nonempty with ⟨rounds, opened, part, opens, reads⟩
  have first : path.headD 0 = letter := by
    cases leads with
    | intro start => exact start ▸ rfl
  refine ⟨rounds, opened, _, mounting.opens member given first opens, ?_⟩
  have volume : (MountState.setAt entry.1 part state).at entry.1 = part := by
    simp only [MountState.at, MountState.setAt, Function.update_self]
  rw [volume]
  exact reads

/-- From the sectors of a disk to the bytes of a file: when the disk has been mounted, the
files of all its FAT32 partitions are opened by their paths and read. -/
theorem mounted_files_read (rounds : Nat) (present ready : Bool) (disk : Nat)
    (answers : ∀ transfer, state.device.fails transfer = false)
    (listed : Listed state.table mounts) (room : mounts.length + 4 ≤ 32)
    (nodup : state.heap.Nodup)
    (fresh : ∀ vol ∈ state.heap, vol ∉ state.table.freed ∧ vol ∉ mounts.map Mount.volume) :
    Ends (diskMount rounds present ready disk) state
      (fun mounted after => mounted = true → ∃ volumes,
        MountsDisk disk mounts state after volumes ∧
        ∀ entry ∈ volumes, InRange entry.2 (state.device.sector entry.2) →
          FilesRead state.device.sector entry.2 entry.1 after)
      fun after => after.device.sector = state.device.sector := by
  apply (diskMount_ends rounds present ready disk answers listed room nodup fresh).imp
  rintro mounted after ⟨_, done, _⟩ signed
  rcases done signed with ⟨_, volumes, mounts, mounting⟩
  exact ⟨volumes, mounts, fun entry member => mounting.filesRead member⟩

end Mounting

/-! ## A disk with one partition -/

def sectorOf (bytes : List (Nat × UInt8)) : Sector :=
  bytes.foldl (fun sector byte => sector.setIfInBounds byte.1 byte.2) (.replicate 512 0)

/-- The partition starts at sector 16, its table at 32 and its root directory at 64, with the
file `A.B` of one byte in cluster 3 and a label. -/
def partitionSector : Nat → Sector
  | 0 => sectorOf [(454, 16), (510, 0x55), (511, 0xAA)]
  | 16 => sectorOf
      [(12, 2), (13, 8), (14, 16), (16, 1), (34, 9), (36, 32), (44, 2), (48, 1), (82, 0x46),
        (83, 0x41), (84, 0x54), (510, 0x55), (511, 0xAA)]
  | 64 => sectorOf
      [(0, 0x41), (1, 0x2E), (2, 0x42), (3, 0x20), (4, 0x20), (5, 0x20), (6, 0x20), (7, 0x20),
        (8, 0x20), (9, 0x20), (10, 0x20), (11, 0x20), (26, 3), (28, 1), (32, 0x4C), (33, 0x20),
        (34, 0x20), (35, 0x20), (36, 0x20), (37, 0x20), (38, 0x20), (39, 0x20), (40, 0x20),
        (41, 0x20), (42, 0x20), (43, 0x08)]
  | _ => sectorOf []

def formattedDisk : MountState where
  device :=
    { sector := partitionSector
      fails := fun _ => false
      transfers := 0 }
  heap := [0x20400000]
  table := ⟨none, 0, fun _ => none, fun _ => 0, fun _ => 0, fun _ => false, [], []⟩
  volume := fun _ => blankVolume.volume
  label := fun _ => []

theorem formattedDisk_listed : Listed formattedDisk.table [] :=
  VolumeTable.Fresh.listed ⟨rfl, rfl, rfl⟩

theorem formattedDisk_returns :
    Ends (diskMount 3 true true 0) formattedDisk (fun mounted _ => mounted = true)
      fun _ => False := by
  decide +kernel

theorem disk_mounts_partitions_one : ∃ after volumes,
    (diskMount 3 true true 0).run formattedDisk = .ok true after ∧
      MountsDisk 0 [] formattedDisk after volumes := by
  have mounts := @disk_mounts_partitions [] formattedDisk 3 true true 0 (fun _ => rfl)
    formattedDisk_listed (by decide) (by decide) (by decide)
  cases outcome : (diskMount 3 true true 0).run formattedDisk with
  | error reason after => exact (formattedDisk_returns.error reason after outcome).elim
  | ok mounted after =>
      cases formattedDisk_returns.ok mounted after outcome
      rcases ((mounts.ok true after outcome).2.1 rfl).2 with ⟨volumes, mountsDisk⟩
      exact ⟨after, volumes, rfl, mountsDisk⟩

/-- One byte, in cluster 3. -/
def extentAB : Extent := ⟨1, 1, fun _ => 3⟩

def sectorsAB : Nat → Sector := formattedDisk.device.sector

theorem formatGeometry_AB : formatGeometry 16 (sectorsAB 16) = ⟨512, 8, 32, 17, 64, 64⟩ := by
  decide +kernel

theorem extentAB_formed : WellFormed (formatGeometry 16 (sectorsAB 16)) sectorsAB extentAB := by
  rw [formatGeometry_AB]
  exact
    { sectorSize := rfl
      clusterSize := by decide
      tablePlaced := by decide
      dataPlaced := by decide
      data := fun _ _ => (by decide : 2 ≤ 3)
      below := fun _ _ => (by decide : 3 < 0xFFFFFF8)
      placed := fun _ _ => (by decide : 80 < 2 ^ 32)
      listed := fun _ _ => (by decide : 32 + 3 / 128 < 2 ^ 32)
      linked := fun index bound => absurd (show index + 1 < 1 from bound) (by omega)
      held := by decide
      sizeBound := by decide }

theorem pathAB_leads :
    LeadsTo (formatGeometry 16 (sectorsAB 16)) sectorsAB letterC noDir extentAB pathAB := by
  rw [formatGeometry_AB]
  let root := followRoot ⟨512, 8, 32, 17, 64, 64⟩ noDir
  -- The label stands behind the entry of the file.
  have listing : ∃ slots, Listing ⟨512, 8, 32, 17, 64, 64⟩ sectorsAB root
      (slotAt sectorsAB root :: slots) :=
    ⟨_, .cons ⟨by decide, by decide +kernel⟩ (by decide +kernel)
      (.cons ⟨by decide +kernel, by decide +kernel⟩ (by decide +kernel)
        (.marked (by decide +kernel)))⟩
  rcases listing with ⟨slots, listing⟩
  have stops : StopsAt (fragmentAB.chars ++ []) (fragmentAB.chars.length % 2 ^ 8) 0 true
      (slotAt sectorsAB root :: slots) (slotAt sectorsAB root) := .found (by decide +kernel)
  exact .intro rfl pathAB_endsWith (.nil _) listing stops ⟨by decide +kernel, by decide +kernel⟩

theorem mounted_files_read_AB : ∃ after rounds opened final vol,
    (diskMount 3 true true 0).run formattedDisk = .ok true after ∧
    (fileOpen rounds noDir oneByteHandle pathAB pathAB.length).run after =
      .ok (.ok, opened) final ∧
    ReadsFile (formatGeometry 16 (sectorsAB 16)) sectorsAB extentAB
      (MountState.at vol final, opened) := by
  have reads := @mounted_files_read [] formattedDisk 3 true true 0 (fun _ => rfl)
    formattedDisk_listed (by decide) (by decide) (by decide)
  cases outcome : (diskMount 3 true true 0).run formattedDisk with
  | error reason after => exact (formattedDisk_returns.error reason after outcome).elim
  | ok mounted after =>
      cases formattedDisk_returns.ok mounted after outcome
      rcases reads.ok true after outcome rfl with ⟨volumes, mountsDisk, files⟩
      have lbas : volumes.map Prod.snd = [16] := mountsDisk.partitions.trans (by decide +kernel)
      rcases List.map_eq_singleton_iff.mp lbas with ⟨entry, rfl, start⟩
      have letter : after.table.letter entry.1 = 67 :=
        mountsDisk.listed.letters ⟨entry.1, 0⟩ (List.mem_singleton_self _)
      have inRange : InRange entry.2 (sectorsAB entry.2) := by
        rw [start]
        exact ⟨by decide +kernel, by decide +kernel, by decide +kernel⟩
      have file := files entry (List.mem_singleton_self _) inRange
      rw [start] at file
      rcases file letterC noDir oneByteHandle pathAB extentAB letter.symm pathAB_leads
        extentAB_formed (by decide) with ⟨rounds, opened, final, opens, delivers⟩
      exact ⟨after, rounds, opened, final, entry.1, rfl, opens, delivers⟩

end Vanilla.Disk
