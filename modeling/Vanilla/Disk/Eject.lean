import Vanilla.Disk.VolumeMounts

namespace Vanilla.Disk

/-! `disk_eject` unmounts the volumes of a disk, but goes on from one it has freed. -/

open VolumeTable (load)

section Loop

variable {table : VolumeTable} {mounts kept todo rest : List Mount} {mount : Mount} {disk : Nat}

/-- The volumes of a disk, in the order of the list. -/
def onDisk (table : VolumeTable) (disk : Nat) (mounts : List Mount) : List VolumePtr :=
  (mounts.filter fun mount => decide (table.disk mount.volume = disk)).map Mount.volume

def elsewhere (table : VolumeTable) (disk : Nat) (mounts : List Mount) : List Mount :=
  mounts.filter fun mount => decide (table.disk mount.volume ≠ disk)

theorem onDisk_here (here : table.disk mount.volume = disk) :
    onDisk table disk (mount :: rest) = mount.volume :: onDisk table disk rest := by
  simp [onDisk, here]

theorem onDisk_apart (apart : table.disk mount.volume ≠ disk) :
    onDisk table disk (mount :: rest) = onDisk table disk rest := by
  simp [onDisk, apart]

theorem elsewhere_here (here : table.disk mount.volume = disk) :
    elsewhere table disk (mount :: rest) = elsewhere table disk rest := by
  simp [elsewhere, here]

theorem elsewhere_apart (apart : table.disk mount.volume ≠ disk) :
    elsewhere table disk (mount :: rest) = mount :: elsewhere table disk rest := by
  simp [elsewhere, apart]

/-- A volume that was unlinked is not missed when its memory is given back. -/
theorem Listed.free (listed : Listed table mounts) {vol : VolumePtr}
    (absent : vol ∉ mounts.map Mount.volume) : Listed (freeVolume vol table) mounts where
  chain := listed.chain
  letters := listed.letters
  indices := listed.indices
  small := listed.small
  bits := listed.bits
  alive := by
    intro other member freed
    rcases List.mem_cons.mp freed with same | earlier
    · exact absent (same ▸ member)
    · exact listed.alive other member earlier

theorem Listed.next_eq (listed : Listed table (kept ++ mount :: rest)) :
    table.next mount.volume = (rest.map Mount.volume).head? := by
  have chain := listed.chain
  rw [List.map_append, List.map_cons] at chain
  exact chain.suffix.2.head_eq

/-- A volume of the disk: it is unlinked and freed. -/
theorem Listed.ejectVolume_here (listed : Listed table (kept ++ mount :: rest))
    (here : table.disk mount.volume = disk) :
    ∃ after, (ejectVolume disk mount.volume).run table = .ok true after ∧
      Listed after (kept ++ rest) ∧ after.freed = mount.volume :: table.freed ∧
      after.readLate = table.readLate ∧ after.disk = table.disk ∧
      after.bufferDirty = table.bufferDirty ∧
      after.next mount.volume = (rest.map Mount.volume).head? := by
  have live := listed.alive mount.volume (by simp)
  have absent : mount.volume ∉ (kept ++ rest).map Mount.volume := by
    have once := listed.chain.nodup
    rw [List.map_append, List.map_cons, List.nodup_middle, ← List.map_append] at once
    exact (List.nodup_cons.mp once).1
  rcases listed.remove_present with ⟨after, removes⟩
  refine ⟨freeVolume mount.volume after, ?_, removes.listed.free absent,
    congrArg _ removes.freed, removes.readLate, removes.disk, removes.bufferDirty,
    removes.next.trans listed.next_eq⟩
  rw [ejectVolume, Exec.run_bind_of_ok (run_load live), if_pos here,
    Exec.run_bind_of_ok (run_load live), listed.letters mount (by simp),
    Exec.run_bind_of_ok removes.returns]
  rfl

theorem Listed.ejectVolume_elsewhere (listed : Listed table (kept ++ mount :: rest))
    (apart : table.disk mount.volume ≠ disk) :
    (ejectVolume disk mount.volume).run table = .ok true table := by
  rw [ejectVolume, Exec.run_bind_of_ok (run_load (listed.alive mount.volume (by simp))),
    if_neg apart]
  rfl

/-- What `disk_eject` does: each volume of the disk is unmounted and freed, and then its link
is read. -/
theorem Listed.run_ejectFrom (listed : Listed table (kept ++ todo)) {rounds : Nat}
    (enough : todo.length ≤ rounds) :
    ∃ after, (ejectFrom disk rounds (todo.map Mount.volume).head?).run table = .ok true after ∧
      Listed after (kept ++ elsewhere table disk todo) ∧
      after.freed = (onDisk table disk todo).reverse ++ table.freed ∧
      after.readLate = (onDisk table disk todo).reverse ++ table.readLate ∧
      after.bufferDirty = table.bufferDirty := by
  induction todo generalizing table kept rounds with
  | nil => cases rounds <;> exact ⟨table, rfl, listed, rfl, rfl, rfl⟩
  | cons mount rest induction =>
      cases rounds with
      | zero => cases enough
      | succ rounds =>
          have fewer := Nat.le_of_succ_le_succ enough
          rw [List.map_cons, List.head?_cons, ejectFrom]
          by_cases here : table.disk mount.volume = disk
          · rcases listed.ejectVolume_here here with
              ⟨middle, ejects, left, freed, late, disks, dirty, next⟩
            have marked : Listed { middle with
                readLate := mount.volume :: middle.readLate } (kept ++ rest) :=
              ⟨left.chain, left.letters, left.indices, left.small, left.bits, left.alive⟩
            rcases induction marked fewer with ⟨after, runs, last, freedLast, lateLast, dirtyLast⟩
            have reads : (load VolumeTable.next mount.volume).run middle =
                .ok (rest.map Mount.volume).head?
                  { middle with readLate := mount.volume :: middle.readLate } := by
              have gone : mount.volume ∈ middle.freed := freed ▸ List.mem_cons_self
              rw [load, Exec.run_bind_of_ok (EStateM.run_get middle), if_pos gone, ← next]
              rfl
            refine ⟨after, ?_, ?_, ?_, ?_, dirtyLast.trans dirty⟩
            · rw [Exec.run_bind_of_ok ejects, if_pos rfl, Exec.run_bind_of_ok reads]
              exact runs
            · rw [elsewhere_here here]
              simpa only [elsewhere, disks] using last
            · rw [onDisk_here here, freedLast, freed]
              simp [onDisk, disks]
            · rw [onDisk_here here, lateLast, late]
              simp [onDisk, disks]
          · have live := listed.alive mount.volume (by simp)
            have moved : Listed table (kept ++ [mount] ++ rest) := by
              rw [List.append_assoc]
              exact listed
            rcases induction moved fewer with ⟨after, runs, last, freed, late, dirty⟩
            rw [onDisk_apart here, elsewhere_apart here]
            refine ⟨after, ?_, ?_, freed, late, dirty⟩
            · rw [Exec.run_bind_of_ok (listed.ejectVolume_elsewhere here), if_pos rfl,
                Exec.run_bind_of_ok (run_load live), listed.next_eq]
              exact runs
            · rw [List.append_assoc] at last
              exact last

theorem Listed.run_diskEject (listed : Listed table mounts) (disk : Nat) :
    ∃ after, (diskEject disk).run table = .ok true after ∧
      Listed after (elsewhere table disk mounts) ∧
      after.freed = (onDisk table disk mounts).reverse ++ table.freed ∧
      after.readLate = (onDisk table disk mounts).reverse ++ table.readLate ∧
      after.bufferDirty = table.bufferDirty := by
  have enough := listed.enough.le
  rw [List.length_map] at enough
  rcases @Listed.run_ejectFrom table [] mounts disk listed loopRounds enough with
    ⟨after, runs, rest⟩
  refine ⟨after, ?_, rest⟩
  rw [diskEject, Exec.run_bind_of_ok (rfl : volumeGetFirst.run table = .ok table.base table),
    listed.chain.head_eq]
  exact runs

end Loop

/-- What ejecting a disk is to do with the mounted volumes. -/
structure EjectsDisk (table : VolumeTable) (mounts : List Mount) (disk : Nat)
    (result : Bool) (after : VolumeTable) : Prop where
  kept : Listed after (elsewhere table disk mounts)
  freed : after.freed.Perm (onDisk table disk mounts ++ table.freed)
  written : ∀ vol ∈ onDisk table disk mounts,
    table.bufferDirty vol = true → after.bufferDirty vol = false ∨ result = false
  readLate : after.readLate = table.readLate

/-- Ejecting is sound just when there is nothing to eject. -/
theorem disk_eject_sound_iff (table : VolumeTable) (mounts : List Mount)
    (listed : Listed table mounts) (disk : Nat) :
    (∃ result after, (diskEject disk).run table = .ok result after ∧
      EjectsDisk table mounts disk result after) ↔
    ∀ mount ∈ mounts, table.disk mount.volume ≠ disk := by
  rcases listed.run_diskEject disk with ⟨after, runs, kept, freed, late, dirty⟩
  constructor
  · rintro ⟨result, other, same, ejects⟩ mount member here
    cases runs.symm.trans same
    have nothing : onDisk table disk mounts = [] := by
      have lengths := congrArg List.length (late.symm.trans ejects.readLate)
      rw [List.length_append, List.length_reverse] at lengths
      exact List.length_eq_zero_iff.mp (by omega)
    have ejected : mount.volume ∈ onDisk table disk mounts :=
      List.mem_map_of_mem (List.mem_filter.mpr ⟨member, decide_eq_true here⟩)
    rw [nothing] at ejected
    cases ejected
  · intro apart
    have nothing : onDisk table disk mounts = [] := by
      rw [onDisk, List.map_eq_nil_iff, List.filter_eq_nil_iff]
      intro mount member
      simpa using apart mount member
    refine ⟨true, after, runs, kept, ?_, ?_, ?_⟩
    · rw [freed, nothing]
      rfl
    · rw [nothing]
      exact fun vol member => nomatch member
    · rw [late, nothing]
      rfl

/-- One volume on disk 2, with a sector that is not written. -/
def dirtyVolume : VolumeTable where
  base := some 1
  bitmask := 1
  next := fun _ => none
  letter := fun _ => 67
  disk := fun _ => 2
  bufferDirty := fun _ => true
  freed := []
  readLate := []

theorem dirtyVolume_listed : Listed dirtyVolume [⟨1, 0⟩] where
  chain := ⟨rfl, rfl⟩
  letters := by simp [dirtyVolume]
  indices := List.nodup_singleton _
  small := by simp
  bits := by decide
  alive := by simp [dirtyVolume]

/-- With no volume on disk 0, ejecting it changes nothing. -/
theorem disk_eject_sound_iff_other :
    ∃ result after, (diskEject 0).run dirtyVolume = .ok result after ∧
      EjectsDisk dirtyVolume [⟨1, 0⟩] 0 result after :=
  (disk_eject_sound_iff dirtyVolume [⟨1, 0⟩] dirtyVolume_listed 0).mpr (by decide)

/-- Ejecting disk 2 frees the volume, then reads its link; its sector is lost. -/
theorem disk_eject_reads_freed : ∃ after, (diskEject 2).run dirtyVolume = .ok true after ∧
    after.freed = [1] ∧ after.readLate = [1] ∧ after.bufferDirty 1 = true ∧
    ¬ EjectsDisk dirtyVolume [⟨1, 0⟩] 2 true after := by
  rcases dirtyVolume_listed.run_diskEject 2 with ⟨after, runs, _, freed, late, dirty⟩
  refine ⟨after, runs, freed, late, congrFun dirty 1, ?_⟩
  intro ejects
  cases late.symm.trans ejects.readLate

end Vanilla.Disk
