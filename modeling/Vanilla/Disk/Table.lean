import Vanilla.Disk.FilePosition

namespace Vanilla.Disk

/-! The allocation table as an array of 32-bit words: little-endian words in a
sector, and entries through the one-sector buffer. -/

/-! ## Words in a sector -/

namespace Sector

variable (sector : Sector)

theorem load8_setIfInBounds_same {offset : Nat} (bound : offset < 512) (value : UInt8) :
    load8 (sector.setIfInBounds offset value) offset = value := by
  simp [load8, bound]

theorem load8_setIfInBounds_of_ne {offset other : Nat} (apart : offset ≠ other)
    (value : UInt8) :
    load8 (sector.setIfInBounds offset value) other = sector.load8 other := by
  simp [load8, Vector.getElem?_setIfInBounds_ne apart]

theorem load8_store32_of_disjoint {offset other : Nat} (value : Nat)
    (apart : other < offset ∨ offset + 4 ≤ other) :
    (sector.store32 offset value).load8 other = sector.load8 other := by
  rw [store32, load8_setIfInBounds_of_ne _ (by omega), load8_setIfInBounds_of_ne _ (by omega),
    load8_setIfInBounds_of_ne _ (by omega), load8_setIfInBounds_of_ne _ (by omega)]

theorem load32_store32_of_disjoint {offset other : Nat} (value : Nat)
    (apart : other + 4 ≤ offset ∨ offset + 4 ≤ other) :
    (sector.store32 offset value).load32 other = sector.load32 other := by
  simp only [load32]
  rw [load8_store32_of_disjoint _ _ (by omega), load8_store32_of_disjoint _ _ (by omega),
    load8_store32_of_disjoint _ _ (by omega), load8_store32_of_disjoint _ _ (by omega)]

omit sector in
theorem load8_ofFn (bytes : Fin 512 → UInt8) {offset : Nat} (bound : offset < 512) :
    load8 (Vector.ofFn bytes) offset = bytes ⟨offset, bound⟩ := by
  simp [load8, bound]

theorem load32_lt (offset : Nat) : sector.load32 offset < 2 ^ 32 := by
  have first := (sector.load8 offset).toNat_lt
  have second := (sector.load8 (offset + 1)).toNat_lt
  have third := (sector.load8 (offset + 2)).toNat_lt
  have fourth := (sector.load8 (offset + 3)).toNat_lt
  simp only [load32]
  omega

/-- The four bytes of a stored word are its base-256 digits. -/
theorem load32_store32_same {offset value : Nat} (bound : offset + 4 ≤ 512)
    (word : value < 2 ^ 32) : (sector.store32 offset value).load32 offset = value := by
  have first : (sector.store32 offset value).load8 offset = UInt8.ofNat value := by
    rw [store32, load8_setIfInBounds_of_ne _ (by omega), load8_setIfInBounds_of_ne _ (by omega),
      load8_setIfInBounds_of_ne _ (by omega), load8_setIfInBounds_same _ (by omega)]
  have second :
      (sector.store32 offset value).load8 (offset + 1) = UInt8.ofNat (value / 2 ^ 8) := by
    rw [store32, load8_setIfInBounds_of_ne _ (by omega), load8_setIfInBounds_of_ne _ (by omega),
      load8_setIfInBounds_same _ (by omega)]
  have third :
      (sector.store32 offset value).load8 (offset + 2) = UInt8.ofNat (value / 2 ^ 16) := by
    rw [store32, load8_setIfInBounds_of_ne _ (by omega), load8_setIfInBounds_same _ (by omega)]
  have fourth :
      (sector.store32 offset value).load8 (offset + 3) = UInt8.ofNat (value / 2 ^ 24) := by
    rw [store32, load8_setIfInBounds_same _ (by omega)]
  rw [load32, first, second, third, fourth]
  simp only [UInt8.toNat_ofNat']
  omega

end Sector

/-! ## Entries -/

/-- The entry of `cluster` lies in the allocation table: behind the reserved sectors, which
start with the boot sector, and before the data. -/
structure WithinFat (geometry : Geometry) (cluster : Nat) : Prop where
  reserved : 0 < geometry.fatLba
  inside : geometry.fatLba + cluster / 128 < geometry.dataLba
  representable : geometry.dataLba < 2 ^ 32

namespace WithinFat

variable {geometry : Geometry} {cluster other : Nat}

theorem tableSector_eq (within : WithinFat geometry cluster) :
    tableSector geometry cluster = geometry.fatLba + cluster / 128 :=
  u32_of_lt (within.inside.trans within.representable)

theorem tableSector_ne_zero (within : WithinFat geometry cluster) :
    tableSector geometry cluster ≠ 0 := by
  have reserved := within.reserved
  rw [within.tableSector_eq]
  omega

theorem tableSector_inj (within : WithinFat geometry cluster)
    (otherWithin : WithinFat geometry other) :
    tableSector geometry other = tableSector geometry cluster ↔ other / 128 = cluster / 128 := by
  rw [within.tableSector_eq, otherWithin.tableSector_eq]
  omega

end WithinFat

/-- Storing a word in one entry changes that entry and no other. -/
theorem tableEntry_update {geometry : Geometry} (sectors : Nat → Sector) {cluster other value : Nat}
    (within : WithinFat geometry cluster) (otherWithin : WithinFat geometry other)
    (word : value < 2 ^ 32) :
    tableEntry geometry
        (Function.update sectors (tableSector geometry cluster)
          ((sectors (tableSector geometry cluster)).store32 (4 * (cluster % 128)) value)) other =
      if other = cluster then value else tableEntry geometry sectors other := by
  have bound := tableOffset_bound cluster
  rw [tableEntry]
  by_cases sameSector : tableSector geometry other = tableSector geometry cluster
  · have quotient := (within.tableSector_inj otherWithin).mp sameSector
    rw [sameSector, Function.update_self, Nat.mul_comm 4]
    by_cases same : other = cluster
    · rw [if_pos same, same, Sector.load32_store32_same _ bound word]
    · rw [if_neg same, Sector.load32_store32_of_disjoint _ _ (by omega), tableEntry, sameSector]
  · have differ : other ≠ cluster := fun same => sameSector (congrArg _ same)
    rw [Function.update_of_ne sameSector, if_neg differ, tableEntry]

/-- Reads of other sectors, in the run of calls between two table calls. -/
theorem reads_transparent {before after : FatState} {lbas : List Nat}
    (coherent : before.Coherent)
    (run : Run VolumeStep before (lbas.map VolumeEvent.read) after) :
    Transparent before after := by
  induction lbas generalizing before with
  | nil =>
      cases run
      exact Transparent.refl coherent
  | cons lba lbas induction =>
      rcases run with _ | ⟨step, rest⟩
      rcases step with ⟨reply, returns⟩
      rcases fatRead_spec coherent lba with ⟨cached, middle, read, quiet, -⟩
      rw [VolumeEvent.code, Exec.run_bind_of_ok read] at returns
      cases returns
      exact quiet.trans (induction quiet.coherent rest)

/-- On a volume in any state a run from the mount can reach: after an update that reported
success and any reads, a lookup returns, an entry it reports is the one of an array with that
word stored, no entry is missing unless a transfer failed, and the other sectors are as they
were. -/
theorem fat_is_array_of_words {mounted state stored middle : FatState}
    {events : List VolumeEvent} {lbas : List Nat} {c d v : Nat}
    (fresh : Mounted mounted) (run : Run VolumeStep mounted events state)
    (within : WithinFat state.volume.toGeometry c)
    (otherWithin : WithinFat state.volume.toGeometry d) (word : v < 2 ^ 32)
    (set : (fatTableSet c v).run state = .ok true stored)
    (reads : Run VolumeStep stored (lbas.map VolumeEvent.read) middle) :
    (∃ entry after, (fatTableGet d).run middle = .ok entry after ∧
      (∀ found, entry = some found →
        found = if d = c then v else tableEntry state.volume.toGeometry state.logical d) ∧
      (entry = none → ∃ transfer, middle.device.fails transfer = true) ∧
      ∀ lba ≠ tableSector state.volume.toGeometry c, after.logical lba = state.logical lba) ∧
    ∀ lba ≠ tableSector state.volume.toGeometry c, middle.logical lba = state.logical lba := by
  have coherent := coherent_of_run fresh run
  rcases fatTableSet_spec coherent c v with
    ⟨_, _, update, geometry, storedCoherent, -, succeeded⟩
  rw [set] at update
  cases update
  have quiet := reads_transparent storedCoherent reads
  rcases succeeded rfl with ⟨sector, changed, held⟩
  rw [held within.tableSector_ne_zero] at changed
  have others : ∀ lba ≠ tableSector state.volume.toGeometry c,
      middle.logical lba = state.logical lba := by
    intro lba apart
    rw [quiet.logical, changed, Function.update_of_ne apart]
  have sameGeometry : middle.volume.toGeometry = state.volume.toGeometry :=
    quiet.geometry.trans geometry
  rcases fatTableGet_spec quiet.coherent d with ⟨entry, after, get, silent, found, missing⟩
  refine ⟨⟨entry, after, get, ?_, missing, ?_⟩, others⟩
  · intro value reported
    rw [sameGeometry] at found
    rw [found value reported otherWithin.tableSector_ne_zero, quiet.logical, changed]
    exact tableEntry_update state.logical within otherWithin word
  · intro lba apart
    rw [silent.logical, others lba apart]

/-- On the blank volume the entry of cluster 130 is read back after its sector was evicted. -/
theorem fat_is_array_of_words_blank : ∃ stored middle,
    (fatTableSet 130 7).run blankVolume = .ok true stored ∧
    Run VolumeStep stored [.read 64] middle ∧
    (∃ entry after, (fatTableGet 130).run middle = .ok entry after ∧
      (∀ found, entry = some found → found = if 130 = 130 then 7 else
        tableEntry blankVolume.volume.toGeometry blankVolume.logical 130) ∧
      (entry = none → ∃ transfer, middle.device.fails transfer = true) ∧
      ∀ lba ≠ tableSector blankVolume.volume.toGeometry 130,
        after.logical lba = blankVolume.logical lba) ∧
    ∀ lba ≠ tableSector blankVolume.volume.toGeometry 130,
      middle.logical lba = blankVolume.logical lba := by
  have within : WithinFat blankVolume.volume.toGeometry 130 :=
    ⟨by decide, by decide, by decide⟩
  rcases fatRead_returns 64 _ with ⟨cached, middle, read, -⟩
  have reads : Run VolumeStep _ ([64].map VolumeEvent.read) middle :=
    .cons ⟨.status cached, by rw [VolumeEvent.code, Exec.run_bind_of_ok read]; rfl⟩ (.nil middle)
  have set : (fatTableSet 130 7).run blankVolume = .ok true _ := rfl
  exact ⟨_, middle, set, reads,
    fat_is_array_of_words ⟨rfl, rfl⟩ (.nil blankVolume) within within (by decide) set reads⟩

end Vanilla.Disk
