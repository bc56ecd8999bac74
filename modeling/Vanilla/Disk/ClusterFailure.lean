import Vanilla.Disk.ClusterAllocation

namespace Vanilla.Disk

/-! When `fat_get_cluster` ends, stays inside the table and leaves the table alone if it
fails. -/

/-- A sector of the allocation table. -/
def InFat (geometry : Geometry) (entries lba : Nat) : Prop :=
  geometry.fatLba ≤ lba ∧ lba < geometry.fatLba + (entries + 127) / 128

/-- A sector that the allocation has business with. -/
def Concerned (geometry : Geometry) (entries lba : Nat) : Prop :=
  lba = geometry.fsinfoLba ∨ InFat geometry entries lba

/-- The call ends, asks for and changes only sectors of the table and the FSinfo sector, and
has not changed the table when it returns `0`. -/
def Contained (geometry : Geometry) (entries : Nat) (state : FatState) : Prop :=
  ∃ rounds result final, (fatGetCluster rounds).run ⟨state, []⟩ = .ok result final ∧
    (∀ lba ∈ final.asked, Concerned geometry entries lba) ∧
    (∀ lba, ¬ Concerned geometry entries lba → final.fat.logical lba = state.logical lba) ∧
    (result.1 = false → ∀ lba, InFat geometry entries lba →
      final.fat.logical lba = state.logical lba)

/-- The sectors of these entries are all of the table, or the FSinfo sector. -/
def StaysWithin (geometry : Geometry) (entries first last : Nat) : Prop :=
  ∀ index, first ≤ index → index ≤ last → Concerned geometry entries (tableSector geometry index)

/-- The FSinfo sector cannot be read, or a sector of the table cannot be read before an entry
looked free, or two entries that look free lie in the table and all reads succeed. An entry
whose sector is the FSinfo sector is stored into without harm to the table. -/
inductive FailsCleanly (geometry : Geometry) (entries : Nat) (state : FatState) : Prop where
  | info {info : FatState} :
      (fatRead geometry.fsinfoLba).run state = .ok false info →
      FailsCleanly geometry entries state
  | unread {info after : FatState} {stop : Nat} :
      (fatRead geometry.fsinfoLba).run state = .ok true info →
      Sticks geometry info (infoHint info) after stop →
      StaysWithin geometry entries (infoHint info) stop → FailsCleanly geometry entries state
  | unreadAgain {info found after : FatState} {first stop : Nat} :
      (fatRead geometry.fsinfoLba).run state = .ok true info →
      Finds geometry info (infoHint info) found first →
      StaysWithin geometry entries (infoHint info) first →
      Sticks geometry (takenAt found first) (first + 1) after stop →
      StaysWithin geometry entries (first + 1) stop →
      ¬ InFat geometry entries (tableSector geometry first) →
      FailsCleanly geometry entries state
  | both {info found second last : FatState} {first next : Nat} {again : Bool} :
      (fatRead geometry.fsinfoLba).run state = .ok true info →
      Finds geometry info (infoHint info) found first →
      StaysWithin geometry entries (infoHint info) first →
      Finds geometry (takenAt found first) (first + 1) second next →
      StaysWithin geometry entries (first + 1) next →
      (fatRead geometry.fsinfoLba).run second = .ok again last →
      again = true ∨ ¬ InFat geometry entries (tableSector geometry first) →
      FailsCleanly geometry entries state

section Sectors

variable {geometry : Geometry} {entries first last lba : Nat} {sectors : Nat → Sector}
  {state : FatState}

theorem staysWithin_iff : StaysWithin geometry entries first last ↔
    ∀ lba ∈ sectorsBetween geometry first last, Concerned geometry entries lba := by
  constructor
  · intro within lba member
    rcases mem_sectorsBetween.mp member with ⟨index, lower, upper, same⟩
    rw [← same]
    exact within index lower upper
  · intro all index lower upper
    exact all _ (mem_sectorsBetween.mpr ⟨index, lower, upper, rfl⟩)

/-- The log of a scan up to one entry. -/
theorem asked_once_iff :
    (∀ lba ∈ sectorsBetween geometry first last ++ [geometry.fsinfoLba],
      Concerned geometry entries lba) ↔ StaysWithin geometry entries first last := by
  rw [List.forall_mem_append, List.forall_mem_singleton, ← staysWithin_iff]
  exact and_iff_left (.inl rfl)

/-- The log of a scan up to one entry and on to a second. -/
theorem asked_twice_iff {hint next : Nat} :
    (∀ lba ∈ sectorsBetween geometry (first + 1) next ++
        (sectorsBetween geometry hint first ++ [geometry.fsinfoLba]),
      Concerned geometry entries lba) ↔
    StaysWithin geometry entries (first + 1) next ∧ StaysWithin geometry entries hint first := by
  rw [List.forall_mem_append, asked_once_iff, ← staysWithin_iff]

theorem marked_of_ne (apart : lba ≠ tableSector geometry first) :
    marked geometry sectors first lba = sectors lba := Function.update_of_ne apart _ _

/-- Marking an entry that looks free changes its sector. -/
theorem marked_ne (free : looksFree (tableEntry geometry sectors first) = true) :
    marked geometry sectors first (tableSector geometry first) ≠
      sectors (tableSector geometry first) := by
  intro same
  have entry := congrArg (fun sector => Sector.load32 sector (first % 128 * 4)) same
  simp only [marked, Function.update_self] at entry
  rw [Sector.load32_store32_same _ (tableOffset_bound first) (by decide)] at entry
  rw [tableEntry, ← entry] at free
  exact absurd free (by decide)

theorem allocated_of_ne {next : Nat} (apart : lba ≠ geometry.fsinfoLba)
    (other : lba ≠ tableSector geometry first) :
    allocated geometry sectors first next lba = sectors lba := by
  rw [allocated, Function.update_of_ne apart, marked_of_ne other]

/-- The logical disk when a call has failed after its first match. -/
theorem fat_marked {info found : FatState}
    (same : state.volume.toGeometry = geometry) (coherent : state.Coherent)
    (real : geometry.fsinfoLba ≠ 0)
    (read : (fatRead geometry.fsinfoLba).run state = .ok true info)
    (finds : Finds geometry info (infoHint info) found first) :
    looksFree (tableEntry geometry state.logical first) = true ∧
      Buffered geometry (marked geometry state.logical first) (takenAt found first) := by
  have buffered := (fatRead_buffered same coherent real read).1
  exact ⟨(finds.buffered buffered).2.2.looksFree, finds.marked buffered⟩

theorem Contained.failsCleanly (placed : Placed state.volume.toGeometry entries)
    (coherent : state.Coherent) (contained : Contained state.volume.toGeometry entries state) :
    FailsCleanly state.volume.toGeometry entries state := by
  have real : state.volume.fsinfoLba ≠ 0 := Nat.ne_of_gt placed.info
  rcases contained with ⟨rounds, result, final, returns, asked, -, kept⟩
  have outcome := (fatGetCluster_iff placed.sectorSize placed.fatLba_lt rfl).mp
    ⟨rounds, returns⟩
  cases outcome with
  | infoUnread read => exact .info read
  | stuck read sticks => exact .unread read sticks (asked_once_iff.mp asked)
  | stuckAgain read finds sticks =>
      rcases fat_marked rfl coherent real read finds with ⟨free, buffered⟩
      rcases asked_twice_iff.mp asked with ⟨second, first⟩
      refine .unreadAgain read finds first sticks second ?_
      intro inside
      apply marked_ne free
      rw [← sticks.logical buffered]
      exact kept rfl _ inside
  | infoUnreadAgain read finds findsNext again =>
      rcases fat_marked rfl coherent real read finds with ⟨free, buffered⟩
      have later := (findsNext.buffered buffered).1
      rcases asked_twice_iff.mp (List.forall_mem_cons.mp asked).2 with ⟨second, first⟩
      refine .both read finds first findsNext second again (.inr ?_)
      intro inside
      apply marked_ne free
      rw [← later.logical, ← (fatRead_transparent later.coherent again).logical]
      exact kept rfl _ inside
  | done read finds findsNext again _ =>
      rcases asked_twice_iff.mp (List.forall_mem_cons.mp asked).2 with ⟨second, first⟩
      exact .both read finds first findsNext second again (.inl rfl)

theorem FailsCleanly.contained (placed : Placed state.volume.toGeometry entries)
    (coherent : state.Coherent) (cleanly : FailsCleanly state.volume.toGeometry entries state) :
    Contained state.volume.toGeometry entries state := by
  have real : state.volume.fsinfoLba ≠ 0 := Nat.ne_of_gt placed.info
  have ends : ∀ {result final}, Outcome state.volume.toGeometry state result final →
      ∃ rounds, (fatGetCluster rounds).run ⟨state, []⟩ = .ok result final :=
    fun outcome => (fatGetCluster_iff placed.sectorSize placed.fatLba_lt rfl).mpr outcome
  have infoSector : Concerned state.volume.toGeometry entries state.volume.fsinfoLba := .inl rfl
  cases cleanly with
  | info read =>
      have quiet := fatRead_transparent coherent read
      rcases ends (.infoUnread read) with ⟨rounds, returns⟩
      refine ⟨rounds, _, _, returns, List.forall_mem_singleton.mpr infoSector, ?_, ?_⟩
      · exact fun lba _ => congrFun quiet.logical lba
      · exact fun _ lba _ => congrFun quiet.logical lba
  | unread read sticks within =>
      have buffered := (fatRead_buffered rfl coherent real read).1
      rcases ends (.stuck read sticks) with ⟨rounds, returns⟩
      refine ⟨rounds, _, _, returns, asked_once_iff.mpr within, ?_, ?_⟩
      · exact fun lba _ => congrFun (sticks.logical buffered) lba
      · exact fun _ lba _ => congrFun (sticks.logical buffered) lba
  | @unreadAgain info found after first stop read finds within sticks withinAgain harmless =>
      have buffered := (fat_marked rfl coherent real read finds).2
      have concerned := within first finds.le (Nat.le_refl _)
      rcases ends (.stuckAgain read finds sticks) with ⟨rounds, returns⟩
      have logical : ∀ lba, lba ≠ tableSector state.volume.toGeometry first →
          after.logical lba = state.logical lba := by
        intro lba apart
        rw [sticks.logical buffered, marked_of_ne apart]
      refine ⟨rounds, _, _, returns, asked_twice_iff.mpr ⟨withinAgain, within⟩, ?_, ?_⟩
      · exact fun lba outside => logical lba fun same => outside (same ▸ concerned)
      · exact fun _ lba inside => logical lba fun same => harmless (same ▸ inside)
  | @both info found second last first next again read finds within findsNext withinAgain
      readAgain fine =>
      have buffered := (fat_marked rfl coherent real read finds).2
      have concerned := within first finds.le (Nat.le_refl _)
      have logged := List.forall_mem_cons.mpr
        ⟨infoSector, asked_twice_iff.mpr ⟨withinAgain, within⟩⟩
      cases again with
      | true =>
          rcases fatFlush_returns (infoStored last (u32 next) (u32Sub (infoCount info) 1)) with
            ⟨flushed, after, flush, -⟩
          rcases ends (.done read finds findsNext readAgain flush) with ⟨rounds, returns⟩
          have logical := (allocation_logical placed coherent rfl read finds findsNext readAgain
            flush).2.2
          refine ⟨rounds, _, _, returns, logged, ?_, fun impossible => nomatch impossible⟩
          intro lba outside
          change after.logical lba = _
          rw [logical]
          exact allocated_of_ne (fun same => outside (same ▸ infoSector))
            (fun same => outside (same ▸ concerned))
      | false =>
          have harmless := fine.resolve_left Bool.false_ne_true
          have later := (findsNext.buffered buffered).1
          rcases ends (.infoUnreadAgain read finds findsNext readAgain) with ⟨rounds, returns⟩
          have logical : ∀ lba, lba ≠ tableSector state.volume.toGeometry first →
              last.logical lba = state.logical lba := by
            intro lba apart
            rw [(fatRead_transparent later.coherent readAgain).logical, later.logical,
              marked_of_ne apart]
          refine ⟨rounds, _, _, returns, logged, ?_, ?_⟩
          · exact fun lba outside => logical lba fun same => outside (same ▸ concerned)
          · exact fun _ lba inside => logical lba fun same => harmless (same ▸ inside)

end Sectors

/-- In every run from the mount, with every failure pattern: the call ends, stays with the
table and the FSinfo sector and fails cleanly exactly under these conditions. -/
theorem fat_get_cluster_contained_iff {mounted state : FatState} {events : List VolumeEvent}
    {entries : Nat} (fresh : Mounted mounted) (run : Run VolumeStep mounted events state)
    (placed : Placed state.volume.toGeometry entries) :
    Contained state.volume.toGeometry entries state ↔
      FailsCleanly state.volume.toGeometry entries state := by
  have coherent := coherent_of_run fresh run
  constructor
  · exact fun contained => contained.failsCleanly placed coherent
  · exact fun cleanly => cleanly.contained placed coherent

theorem fat_get_cluster_contained_iff_blank :
    Contained blankVolume.volume.toGeometry 4096 blankVolume ↔
      FailsCleanly blankVolume.volume.toGeometry 4096 blankVolume :=
  fat_get_cluster_contained_iff (show Mounted blankVolume from ⟨rfl, rfl⟩) (.nil _)
    hintVolume_placed

/-- Past the FSinfo sector, every call asks for the sector of the hint. -/
theorem Outcome.asks_hint {geometry : Geometry} {state info : FatState}
    {result : Bool × Option Nat} {final : Asking} (outcome : Outcome geometry state result final)
    (known : (fatRead geometry.fsinfoLba).run state = .ok true info) :
    tableSector geometry (infoHint info) ∈ final.asked := by
  have first : ∀ {stop}, infoHint info ≤ stop →
      tableSector geometry (infoHint info) ∈ sectorsBetween geometry (infoHint info) stop :=
    fun order => mem_sectorsBetween.mpr ⟨_, Nat.le_refl _, order, rfl⟩
  cases outcome with
  | infoUnread read => cases known.symm.trans read
  | stuck read sticks =>
      cases known.symm.trans read
      exact List.mem_append_left _ (first sticks.le)
  | stuckAgain read finds sticks =>
      cases known.symm.trans read
      exact List.mem_append_right _ (List.mem_append_left _ (first finds.le))
  | infoUnreadAgain read finds findsNext again =>
      cases known.symm.trans read
      exact List.mem_cons_of_mem _
        (List.mem_append_right _ (List.mem_append_left _ (first finds.le)))
  | done read finds findsNext again flush =>
      cases known.symm.trans read
      exact List.mem_cons_of_mem _
        (List.mem_append_right _ (List.mem_append_left _ (first finds.le)))

/-- A volume whose FSinfo sector does not know a free cluster. -/
def unknownHintVolume : FatState :=
  { blankVolume with
    device := { blankVolume.device with
      sector := fun lba => if lba = 1 then .replicate 512 0xFF else .replicate 512 0 } }

/-- An unknown hint leads the search far behind the table. -/
theorem fat_get_cluster_leaves_table :
    ¬ ∀ (mounted state : FatState) (events : List VolumeEvent) (entries : Nat),
      Mounted mounted → Run VolumeStep mounted events state →
      Placed state.volume.toGeometry entries →
      Contained state.volume.toGeometry entries state := by
  intro contained
  rcases contained unknownHintVolume unknownHintVolume [] 4096 ⟨rfl, rfl⟩ (.nil _)
    hintVolume_placed with ⟨rounds, result, final, returns, asked, -⟩
  have outcome := (@fatGetCluster_iff blankVolume.volume.toGeometry unknownHintVolume rfl
    hintVolume_placed.fatLba_lt rfl _ _).mp ⟨rounds, returns⟩
  let info : FatState := { unknownHintVolume with
    device := unknownHintVolume.device.counted
    volume.buffer := .replicate 512 0xFF
    volume.bufferLba := 1 }
  have read : (fatRead 1).run unknownHintVolume = .ok true info := rfl
  have hint : infoHint info = 0xFFFFFFFF := by
    simp [info, infoHint, Sector.load32, Sector.load8]
  have member := asked _ (outcome.asks_hint read)
  rw [hint] at member
  rcases member with same | ⟨-, upper⟩
  · exact absurd same (by decide)
  · exact absurd upper (by decide)

end Vanilla.Disk
