import Vanilla.Foundation.Run
import Vanilla.Disk.Volume

namespace Vanilla.Disk

/-! The one-sector volume cache refines an array of sectors. Sector zero is the
tag of a buffer that nothing was read into since the mount. -/

namespace FatState

def Coherent (state : FatState) : Prop := state.cache.Coherent 0

end FatState

/-- A step that leaves the logical disk as it is: it may fill the buffer or
write it back, and keeps the rest of the volume. -/
structure Transparent (before after : FatState) : Prop where
  geometry : after.volume.toGeometry = before.volume.toGeometry
  fails : after.device.fails = before.device.fails
  logical : after.logical = before.logical
  coherent : after.Coherent

namespace Transparent

theorem refl {state : FatState} (coherent : state.Coherent) : Transparent state state :=
  ⟨rfl, rfl, rfl, coherent⟩

theorem trans {first second third : FatState} (left : Transparent first second)
    (right : Transparent second third) : Transparent first third :=
  ⟨right.geometry.trans left.geometry, right.fails.trans left.fails,
    right.logical.trans left.logical, right.coherent⟩

end Transparent

/-! ## The transfers -/

theorem run_diskWrite (state : FatState) :
    diskWrite.run state =
      if state.device.fails state.device.transfers then
        .ok false { state with device := state.device.counted }
      else
        .ok true { state with
          device := state.device.counted.write state.volume.buffer state.volume.bufferLba } := by
  cases failed : state.device.fails state.device.transfers <;>
    (simp only [diskWrite, EStateM.run_bind, EStateM.run_get, failed]; rfl)

theorem run_diskRead (lba : Nat) (state : FatState) :
    (diskRead lba).run state =
      if state.device.fails state.device.transfers then
        .ok false { state with device := state.device.counted }
      else
        .ok true { state with
          device := state.device.counted, volume.buffer := state.device.sector lba } := by
  cases failed : state.device.fails state.device.transfers <;>
    (simp only [diskRead, EStateM.run_bind, EStateM.run_get, failed]; rfl)

/-! ## fat_flush -/

/-- The flush returns, with a clean buffer exactly when it reports success. A
clean buffer costs no transfer. -/
theorem fatFlush_spec {state : FatState} (coherent : state.Coherent) :
    ∃ flushed after, fatFlush.run state = .ok flushed after ∧ Transparent state after ∧
      (flushed = true → after.volume.bufferDirty = false) ∧
      (state.volume.bufferDirty = false → flushed = true ∧ after = state) ∧
      (flushed = false → state.device.fails state.device.transfers = true) := by
  cases dirty : state.volume.bufferDirty with
  | false =>
      refine ⟨true, state, ?_, Transparent.refl coherent, fun _ => dirty,
        fun _ => ⟨rfl, rfl⟩, by simp⟩
      simp [fatFlush, dirty]
  | true =>
      cases failed : state.device.fails state.device.transfers with
      | true =>
          refine ⟨false, { state with device := state.device.counted }, ?_,
            ⟨rfl, rfl, rfl, coherent⟩, by simp, by simp, fun _ => rfl⟩
          have written := run_diskWrite state
          rw [if_pos failed] at written
          simp [fatFlush, dirty, written]
      | false =>
          have written := run_diskWrite state
          rw [if_neg (by simp [failed])] at written
          refine ⟨true, { state with
            device := state.device.counted.write state.volume.buffer state.volume.bufferLba,
            volume.bufferDirty := false }, ?_, ⟨rfl, rfl, ?_, ?_⟩, fun _ => rfl, by simp,
            by simp⟩
          · simp only [fatFlush, EStateM.run_bind, EStateM.run_get, dirty, if_true, written]
            rfl
          · exact WriteBack.logical_writtenBack state.cache dirty
          · exact WriteBack.coherent_writtenBack state.cache

/-! ## fat_read -/

/-- The read returns; the buffer holds the asked sector exactly when it reports
success. -/
theorem fatRead_spec {state : FatState} (coherent : state.Coherent) (lba : Nat) :
    ∃ cached after, (fatRead lba).run state = .ok cached after ∧ Transparent state after ∧
      (cached = true → after.volume.bufferLba = lba) ∧
      (cached = false → ∃ transfer, state.device.fails transfer = true) := by
  by_cases same : state.volume.bufferLba = lba
  · refine ⟨true, state, ?_, Transparent.refl coherent, fun _ => same, by simp⟩
    simp [fatRead, same]
  · rcases fatFlush_spec coherent with ⟨flushed, middle, flush, quiet, clean, -, refused⟩
    cases flushed with
    | false =>
        refine ⟨false, middle, ?_, quiet, by simp, fun _ => ⟨_, refused rfl⟩⟩
        simp [fatRead, same, flush]
    | true =>
        have fetched := run_diskRead lba middle
        cases failed : middle.device.fails middle.device.transfers with
        | true =>
            rw [if_pos failed] at fetched
            refine ⟨false, { middle with device := middle.device.counted }, ?_,
              quiet.trans ⟨rfl, rfl, rfl, quiet.coherent⟩, by simp,
              fun _ => ⟨_, quiet.fails ▸ failed⟩⟩
            simp [fatRead, same, flush, fetched]
        | false =>
            rw [if_neg (by simp [failed])] at fetched
            refine ⟨true, { middle with
              device := middle.device.counted,
              volume.buffer := middle.device.sector lba,
              volume.bufferLba := lba }, ?_, quiet.trans ⟨rfl, rfl, ?_, ?_⟩, fun _ => rfl,
              by simp⟩
            · simp only [fatRead, EStateM.run_bind, EStateM.run_get, if_neg same, flush,
                if_true, fetched]
              rfl
            · exact WriteBack.logical_filled middle.cache (clean rfl) lba
            · exact WriteBack.coherent_filled middle.cache lba

theorem FatState.Coherent.buffer_eq {state : FatState} (coherent : state.Coherent)
    (used : state.volume.bufferLba ≠ 0) :
    state.volume.buffer = state.logical state.volume.bufferLba :=
  WriteBack.line_eq_logical coherent used

/-- A successful read of a real sector has it in the buffer. -/
theorem Transparent.buffer_eq {before after : FatState} (quiet : Transparent before after)
    {lba : Nat} (cached : after.volume.bufferLba = lba) (real : lba ≠ 0) :
    after.volume.buffer = before.logical lba := by
  rw [← quiet.logical, ← cached]
  exact quiet.coherent.buffer_eq (cached ▸ real)

/-! ## The table calls -/

theorem tableOffset_bound (cluster : Nat) : cluster % 128 * 4 + 4 ≤ 512 := by
  have bound := Nat.mod_lt cluster (show 0 < 128 by decide)
  omega

theorem run_fatLoad32 {offset : Nat} (bound : offset + 4 ≤ 512) (state : FatState) :
    (fatLoad32 offset).run state = .ok (state.volume.buffer.load32 offset) state := by
  simp only [fatLoad32, EStateM.run_bind, EStateM.run_get, if_pos bound]
  rfl

theorem run_fatStore32 {offset : Nat} (bound : offset + 4 ≤ 512) (value : Nat)
    (state : FatState) :
    (fatStore32 offset value).run state =
      .ok () { state with volume.buffer := state.volume.buffer.store32 offset value } := by
  simp only [fatStore32, EStateM.run_bind, EStateM.run_get, if_pos bound]
  rfl

/-- The lookup returns; an entry it reports is the one in the logical table. -/
theorem fatTableGet_spec {state : FatState} (coherent : state.Coherent) (cluster : Nat) :
    ∃ entry after, (fatTableGet cluster).run state = .ok entry after ∧
      Transparent state after ∧
      (∀ value, entry = some value → tableSector state.volume.toGeometry cluster ≠ 0 →
        value = (state.logical (tableSector state.volume.toGeometry cluster)).load32
          (cluster % 128 * 4)) ∧
      (entry = none → ∃ transfer, state.device.fails transfer = true) := by
  rcases fatRead_spec coherent (tableSector state.volume.toGeometry cluster) with
    ⟨cached, after, read, quiet, held, refused⟩
  cases cached with
  | false =>
      refine ⟨none, after, ?_, quiet, by simp, fun _ => refused rfl⟩
      simp only [fatTableGet, EStateM.run_bind, EStateM.run_get, read]
      rfl
  | true =>
      have loaded := run_fatLoad32 (tableOffset_bound cluster) after
      refine ⟨some (after.volume.buffer.load32 (cluster % 128 * 4)), after, ?_, quiet, ?_,
        by simp⟩
      · simp only [fatTableGet, EStateM.run_bind, EStateM.run_get, read, if_true, loaded]
        rfl
      · intro value found real
        cases found
        rw [quiet.buffer_eq (held rfl) real]

/-- The update returns; reporting success means that the logical table has the
new entry, whatever became of the flush. -/
theorem fatTableSet_spec {state : FatState} (coherent : state.Coherent)
    (cluster fatEntry : Nat) :
    ∃ stored after, (fatTableSet cluster fatEntry).run state = .ok stored after ∧
      after.volume.toGeometry = state.volume.toGeometry ∧ after.Coherent ∧
      (stored = false → after.logical = state.logical) ∧
      (stored = true → ∃ sector : Sector,
        after.logical = Function.update state.logical
          (tableSector state.volume.toGeometry cluster)
          (sector.store32 (4 * (cluster % 128)) fatEntry) ∧
        (tableSector state.volume.toGeometry cluster ≠ 0 →
          sector = state.logical (tableSector state.volume.toGeometry cluster))) := by
  rcases fatRead_spec coherent (tableSector state.volume.toGeometry cluster) with
    ⟨cached, middle, read, quiet, held, -⟩
  cases cached with
  | false =>
      refine ⟨false, middle, ?_, quiet.geometry, quiet.coherent, fun _ => quiet.logical,
        by simp⟩
      simp only [fatTableSet, EStateM.run_bind, EStateM.run_get, read]
      rfl
  | true =>
      have bound : 4 * (cluster % 128) + 4 ≤ 512 := by
        rw [Nat.mul_comm]
        exact tableOffset_bound cluster
      let buffer := middle.volume.buffer.store32 (4 * (cluster % 128)) fatEntry
      let changed : FatState :=
        { middle with volume.buffer := buffer, volume.bufferDirty := true }
      have dirty : changed.Coherent := WriteBack.Coherent.of_dirty rfl
      rcases fatFlush_spec dirty with ⟨flushed, after, flush, silent, -, -, -⟩
      refine ⟨true, after, ?_, silent.geometry.trans quiet.geometry, silent.coherent,
        by simp, ?_⟩
      · rw [fatTableSet, Exec.run_bind_of_ok (EStateM.run_get state),
          Exec.run_bind_of_ok read]
        simp only [if_true]
        rw [Exec.run_bind_of_ok (run_fatStore32 bound fatEntry middle)]
        change (fatFlush >>= fun _ => pure true).run changed = _
        rw [Exec.run_bind_of_ok flush]
        rfl
      · intro _
        refine ⟨middle.volume.buffer, ?_, quiet.buffer_eq (held rfl)⟩
        rw [silent.logical, ← quiet.logical, ← held rfl]
        exact WriteBack.logical_stored middle.cache buffer

/-! ## Runs of the volume -/

inductive VolumeEvent where
  | read (lba : Nat)
  /-- In-buffer stores that leave `contents`, then `buffer_dirty = 1`. -/
  | store (contents : Sector)
  | tableGet (cluster : Nat)
  | tableSet (cluster fatEntry : Nat)
  | flush

inductive Reply where
  | status (ok : Bool)
  | entry (found : Option Nat)
deriving DecidableEq

def VolumeEvent.code : VolumeEvent → Exec FatState Reply
  | .read lba => fatRead lba >>= fun result => pure (.status result)
  | .store contents => do
      modify fun state =>
        { state with volume.buffer := contents, volume.bufferDirty := true }
      pure (.status true)
  | .tableGet cluster => fatTableGet cluster >>= fun result => pure (.entry result)
  | .tableSet cluster fatEntry => fatTableSet cluster fatEntry >>= fun result => pure (.status result)
  | .flush => fatFlush >>= fun result => pure (.status result)

def VolumeStep (before : FatState) (event : VolumeEvent) (after : FatState) : Prop :=
  ∃ reply, event.code.run before = .ok reply after

/-- What `disk_mount` leaves in a new volume. -/
structure Mounted (state : FatState) : Prop where
  bufferLba : state.volume.bufferLba = 0
  clean : state.volume.bufferDirty = false

/-- A dirty sector stays buffered or reaches the device. -/
def Keeps (before after : FatState) : Prop :=
  before.volume.bufferDirty = true →
    (after.volume.bufferDirty = true ∧ after.volume.bufferLba = before.volume.bufferLba ∧
      after.volume.buffer = before.volume.buffer) ∨
    after.device.sector before.volume.bufferLba = before.volume.buffer

/-- What an event does to the array of sectors and what its reply says. -/
inductive VolumeEffect (before after : FatState) : VolumeEvent → Reply → Prop where
  | read {lba : Nat} {ok : Bool} (same : after.logical = before.logical)
      (kept : Keeps before after)
      (holds : ok = true → lba ≠ 0 → after.volume.buffer = before.logical lba) :
      VolumeEffect before after (.read lba) (.status ok)
  | store {contents : Sector}
      (changed : after.logical =
        Function.update before.logical before.volume.bufferLba contents) :
      VolumeEffect before after (.store contents) (.status true)
  | tableGet {cluster : Nat} {found : Option Nat} (same : after.logical = before.logical)
      (kept : Keeps before after)
      (holds : ∀ value, found = some value →
        tableSector before.volume.toGeometry cluster ≠ 0 →
        value = (before.logical (tableSector before.volume.toGeometry cluster)).load32
          (cluster % 128 * 4)) :
      VolumeEffect before after (.tableGet cluster) (.entry found)
  | tableSetFailed {cluster fatEntry : Nat} (same : after.logical = before.logical)
      (kept : Keeps before after) :
      VolumeEffect before after (.tableSet cluster fatEntry) (.status false)
  | tableSet {cluster fatEntry : Nat} (sector : Sector)
      (changed : after.logical = Function.update before.logical
        (tableSector before.volume.toGeometry cluster)
        (sector.store32 (4 * (cluster % 128)) fatEntry))
      (holds : tableSector before.volume.toGeometry cluster ≠ 0 →
        sector = before.logical (tableSector before.volume.toGeometry cluster)) :
      VolumeEffect before after (.tableSet cluster fatEntry) (.status true)
  | flush {ok : Bool} (same : after.logical = before.logical) (kept : Keeps before after)
      (written : ok = true → after.device.sector = before.logical) :
      VolumeEffect before after .flush (.status ok)

theorem keeps_of_logical {before after : FatState}
    (same : after.logical = before.logical) : Keeps before after :=
  fun dirty => WriteBack.dirty_kept before.cache after.cache same dirty

theorem volumeEvent_spec {state : FatState} (coherent : state.Coherent)
    (event : VolumeEvent) :
    ∃ reply after, event.code.run state = .ok reply after ∧ after.Coherent ∧
      VolumeEffect state after event reply := by
  cases event with
  | read lba =>
      rcases fatRead_spec coherent lba with ⟨cached, after, read, quiet, held, -⟩
      refine ⟨.status cached, after, ?_, quiet.coherent,
        .read quiet.logical (keeps_of_logical quiet.logical) ?_⟩
      · rw [VolumeEvent.code, Exec.run_bind_of_ok read]
        rfl
      · intro ok real
        exact quiet.buffer_eq (held ok) real
  | store contents =>
      refine ⟨.status true, _, rfl, WriteBack.Coherent.of_dirty rfl, .store ?_⟩
      exact WriteBack.logical_stored state.cache contents
  | tableGet cluster =>
      rcases fatTableGet_spec coherent cluster with ⟨found, after, get, quiet, holds, -⟩
      refine ⟨.entry found, after, ?_, quiet.coherent,
        .tableGet quiet.logical (keeps_of_logical quiet.logical) holds⟩
      rw [VolumeEvent.code, Exec.run_bind_of_ok get]
      rfl
  | tableSet cluster fatEntry =>
      rcases fatTableSet_spec coherent cluster fatEntry with
        ⟨stored, after, update, -, stays, failed, succeeded⟩
      refine ⟨.status stored, after, ?_, stays, ?_⟩
      · rw [VolumeEvent.code, Exec.run_bind_of_ok update]
        rfl
      · cases stored with
        | false =>
            exact .tableSetFailed (failed rfl) (keeps_of_logical (failed rfl))
        | true =>
            rcases succeeded rfl with ⟨sector, changed, holds⟩
            exact .tableSet sector changed holds
  | flush =>
      rcases fatFlush_spec coherent with ⟨flushed, after, flush, quiet, clean, -, -⟩
      refine ⟨.status flushed, after, ?_, quiet.coherent,
        .flush quiet.logical (keeps_of_logical quiet.logical) ?_⟩
      · rw [VolumeEvent.code, Exec.run_bind_of_ok flush]
        rfl
      · intro ok
        rw [← quiet.logical]
        have device : after.logical = after.device.sector :=
          WriteBack.logical_of_clean (clean ok)
        exact device.symm

theorem Mounted.coherent {state : FatState} (mounted : Mounted state) : state.Coherent :=
  fun _ used => absurd mounted.bufferLba used

theorem coherent_of_run {mounted state : FatState} {events : List VolumeEvent}
    (fresh : Mounted mounted) (run : Run VolumeStep mounted events state) :
    state.Coherent := by
  apply run.invariant FatState.Coherent _ fresh.coherent
  intro before event after coherent step
  rcases volumeEvent_spec coherent event with ⟨_, final, returns, stays, -⟩
  rcases step with ⟨_, result⟩
  rw [result] at returns
  cases returns
  exact stays

/-- In every run from a mount, under every failure pattern, each event returns
and acts on the logical disk as on a plain array of sectors. -/
theorem volume_cache_refines_sectors {mounted state : FatState} {events : List VolumeEvent}
    (fresh : Mounted mounted) (run : Run VolumeStep mounted events state)
    (event : VolumeEvent) :
    ∃ reply after, event.code.run state = .ok reply after ∧
      VolumeEffect state after event reply := by
  rcases volumeEvent_spec (coherent_of_run fresh run) event with
    ⟨reply, after, returns, -, effect⟩
  exact ⟨reply, after, returns, effect⟩

def blankVolume : FatState where
  device := { sector := fun _ => .replicate 512 0, fails := fun _ => false, transfers := 0 }
  volume := {
    sectorSize := 512, clusterSize := 8, fatLba := 32, fsinfoLba := 1, dataLba := 64,
    rootLba := 64, buffer := .replicate 512 0, bufferLba := 0, bufferDirty := false }

theorem volume_cache_refines_sectors_mounted :
    ∃ reply after, (VolumeEvent.read 64).code.run blankVolume = .ok reply after ∧
      VolumeEffect blankVolume after (.read 64) reply :=
  volume_cache_refines_sectors ⟨rfl, rfl⟩ (.nil blankVolume) (.read 64)

end Vanilla.Disk
