import Vanilla.Disk.DiskMount
import Vanilla.Disk.Eject

namespace Vanilla.Disk

open Exec

/-! `fat32_thread`: the volumes come and go with the card in the slot. -/

/-- Where the thread is: at its first test, with so many attempts left, or at its second. -/
inductive CardPlace where
  | inserted
  | mounting (left : Nat)
  | removed

/-- The variables of the thread, the pin of the slot and the disks. The ghost `seen` is what
was on the card that was mounted last. -/
structure CardThread where
  place : CardPlace
  sdStatus : Bool
  connected : Bool
  disks : MountState
  seen : Nat → Sector

/-! ## fat32.c -/

/-- `DISK_SD_CARD`. -/
def sdCard : Nat := 0

/-- `disk_initialize` returns 1 for the card if it returns. -/
def tryMount (rounds left : Nat) : Exec CardThread Unit := do
  let state ← get
  let mounted ← Exec.zoom CardThread.disks (fun disks state => { state with disks := disks })
    (diskMount rounds state.connected true sdCard)
  if mounted then modify fun state =>
    { state with
      sdStatus := true
      seen := state.disks.device.sector
      place := .removed }
  else modify fun state => { state with place := .mounting left }

def ejectRemoved : Exec CardThread Unit := do
  let state ← get
  if ¬ state.connected ∧ state.sdStatus then
    let ejected ← Exec.zoom (fun state : CardThread => state.disks.table)
      (fun table state => { state with disks.table := table }) (diskEject sdCard)
    if ejected then modify fun state => { state with sdStatus := false, place := .inserted }
    else Exec.panic "SD eject failed"
  else modify fun state => { state with place := .inserted }

/-- `fat32_thread` from one of its tests or attempts to the next. -/
def fat32Thread (rounds : Nat) : Exec CardThread Unit := do
  let state ← get
  match state.place with
  | .inserted => modify fun state =>
      { state with
        place := if state.connected ∧ ¬ state.sdStatus then .mounting 10 else .removed }
  | .mounting 0 => modify fun state => { state with place := .removed }
  | .mounting (left + 1) => tryMount rounds left
  | .removed => ejectRemoved

/-! ## The card and the thread -/

inductive CardEvent where
  | insert (card : Device)
  | remove
  | thread

inductive CardStep : CardThread → CardEvent → CardThread → Prop where
  | insert (state : CardThread) (card : Device) :
      CardStep state (.insert card) { state with connected := true, disks.device := card }
  | remove (state : CardThread) : CardStep state .remove { state with connected := false }
  | thread {state after : CardThread} {rounds : Nat} :
      (fat32Thread rounds).run state = .ok () after → CardStep state .thread after

/-- A card whose sectors can all be read. -/
def CardEvent.Answers : CardEvent → Prop
  | .insert card => ∀ transfer, card.fails transfer = false
  | _ => True

/-- The thread as it starts; the blocks of the heap are told apart by when they are given
out, so that none of them comes back. -/
structure CardThread.Fresh (state : CardThread) : Prop where
  place : state.place = .inserted
  sdStatus : state.sdStatus = false
  table : state.disks.table.Fresh
  heap : state.disks.heap.Nodup
  answers : CardEvent.Answers (.insert state.disks.device)

/-- The disks with a card of these contents in the slot. -/
def MountState.holding (sectors : Nat → Sector) (disks : MountState) : MountState :=
  { disks with device := ⟨sectors, fun _ => false, 0⟩ }

variable {sectors : Nat → Sector} {disk : Nat} {before disks : MountState}
  {volumes : List (VolumePtr × Nat)} {state after : CardThread} {events : List CardEvent}

/-- What is said of a mounted disk is said of any disk with its contents. -/
theorem Mounting.of_contents {other : MountState}
    (mounting : Mounting sectors disk [] before volumes disks)
    (sector : other.device.sector = sectors)
    (fails : ∀ transfer, other.device.fails transfer = false) (heap : other.heap = disks.heap)
    (table : other.table = disks.table) (volume : other.volume = disks.volume) :
    Mounting sectors disk [] other volumes other := by
  refine ⟨sector, fails, table ▸ mounting.listed, mounting.among, heap ▸ mounting.nodup,
    ?_, ?_, fun _ _ => rfl⟩
  · rw [heap, table]
    exact mounting.fresh
  · intro entry member
    have mounted := mounting.mounted entry member
    refine ⟨table ▸ mounted.disk, fun inRange => ?_⟩
    rw [MountState.at, volume]
    apply (mounted.loaded inRange).of_device (sector.trans mounting.sector.symm)
    funext transfer
    exact (fails transfer).trans (mounting.fails transfer).symm

/-- The volumes are those of the card that was seen, and there are none without a card. -/
structure Attends (volumes : List (VolumePtr × Nat)) (state : CardThread) : Prop where
  answers : ∀ transfer, state.disks.device.fails transfer = false
  mounting : Mounting state.seen sdCard [] (state.disks.holding state.seen) volumes
    (state.disks.holding state.seen)
  absent : state.sdStatus = false → volumes = []
  signed : state.sdStatus = true → (state.seen 0).load16 510 = 0xAA55
  partitions : state.sdStatus = true →
    volumes.map Prod.snd = fat32Lbas state.seen (partitions (state.seen 0))
  attempting : ∀ left, state.place = .mounting left → state.sdStatus = false

/-- A state without volumes. -/
theorem Attends.empty (answers : ∀ transfer, state.disks.device.fails transfer = false)
    (listed : Listed state.disks.table []) (nodup : state.disks.heap.Nodup)
    (fresh : ∀ vol ∈ state.disks.heap, vol ∉ state.disks.table.freed)
    (idle : state.sdStatus = false) (place : state.place = .inserted) : Attends [] state where
  answers := answers
  mounting := by
    refine ⟨rfl, fun _ => rfl, listed, nofun, nodup, ?_, nofun, fun _ _ => rfl⟩
    exact fun vol member => ⟨fresh vol member, nofun⟩
  absent _ := rfl
  signed mounted := absurd (idle.symm.trans mounted) nofun
  partitions mounted := absurd (idle.symm.trans mounted) nofun
  attempting _ attempts := absurd (place.symm.trans attempts) nofun

theorem CardThread.Fresh.attends (fresh : state.Fresh) : Attends [] state := by
  apply Attends.empty fresh.answers fresh.table.listed fresh.heap _ fresh.sdStatus fresh.place
  intro vol _
  rw [fresh.table.freed]
  exact nofun

/-- Nothing changes for the volumes when the thread goes to another place. -/
theorem Attends.goTo (attends : Attends volumes state) {place : CardPlace}
    (attempting : ∀ left, place = .mounting left → state.sdStatus = false) :
    Attends volumes { state with place := place } :=
  ⟨attends.answers, attends.mounting, attends.absent, attends.signed, attends.partitions,
    attempting⟩

theorem Attends.insert (attends : Attends volumes state) {card : Device}
    (answers : CardEvent.Answers (.insert card)) :
    Attends volumes { state with connected := true, disks.device := card } :=
  ⟨answers, attends.mounting, attends.absent, attends.signed, attends.partitions,
    attends.attempting⟩

theorem Attends.remove (attends : Attends volumes state) :
    Attends volumes { state with connected := false } :=
  ⟨attends.answers, attends.mounting, attends.absent, attends.signed, attends.partitions,
    attends.attempting⟩

/-- One attempt, without volumes: it mounts what is on the card, or changes nothing. -/
theorem Attends.diskMount (attends : Attends [] state) (rounds : Nat) :
    Ends (diskMount rounds state.connected true sdCard) state.disks
      (fun mounted disks =>
        (mounted = true → ∃ volumes, Attends volumes
          { state with
            disks := disks
            sdStatus := true
            seen := disks.device.sector
            place := .removed }) ∧
        (mounted = false → Attends [] { state with disks := disks }))
      fun _ => True := by
  have ends := @diskMount_ends [] state.disks rounds state.connected true sdCard attends.answers
    attends.mounting.listed (by decide) attends.mounting.nodup attends.mounting.fresh
  apply (ends.impStopped fun _ _ => trivial).imp
  rintro mounted disks ⟨sector, done, refused⟩
  constructor
  · intro signed
    rcases done signed with ⟨signature, volumes, mounts, mounting⟩
    refine ⟨volumes, mounting.fails, ?_, nofun, fun _ => ?_, fun _ => ?_, nofun⟩
    · change Mounting disks.device.sector sdCard [] (disks.holding disks.device.sector) volumes
        (disks.holding disks.device.sector)
      rw [sector]
      exact mounting.of_contents rfl (fun _ => rfl) rfl rfl rfl
    · exact sector ▸ signature
    · exact sector ▸ mounts.partitions
  · intro unsigned
    rcases refused unsigned with ⟨_, rfl⟩
    exact ⟨attends.answers, attends.mounting, attends.absent, attends.signed, attends.partitions,
      attends.attempting⟩

theorem Attends.tryMount (attends : Attends volumes state) (idle : state.sdStatus = false)
    (rounds left : Nat) :
    Ends (tryMount rounds left) state (fun _ after => ∃ volumes, Attends volumes after)
      fun _ => True := by
  cases attends.absent idle
  rw [Disk.tryMount]
  apply Ends.get
  apply @Ends.bind _ _ _ _ _ _ _ _ fun mounted whole =>
    (mounted = true → ∃ volumes, Attends volumes
      { whole with sdStatus := true, seen := whole.disks.device.sector, place := .removed }) ∧
    (mounted = false → whole.sdStatus = false ∧ Attends [] whole)
  · apply (attends.diskMount rounds).zoom
    · exact fun mounted disks ends => ⟨ends.1, fun unsigned => ⟨idle, ends.2 unsigned⟩⟩
    · exact fun _ _ => trivial
  · rintro mounted whole ⟨done, refused⟩
    split
    · rename_i signed
      exact .of_ok rfl (done signed)
    · rename_i unsigned
      rcases refused (Bool.eq_false_iff.mpr unsigned) with ⟨still, attends⟩
      exact .of_ok rfl ⟨[], attends.goTo fun _ _ => still⟩

theorem mem_mountAll {vol : VolumePtr} {mounts : List Mount} : ∀ {vols : List VolumePtr},
    vol ∈ (mountAll mounts vols).map Mount.volume → vol ∈ mounts.map Mount.volume ∨ vol ∈ vols := by
  intro vols
  induction vols using List.reverseRecOn with
  | nil => exact .inl
  | append_singleton vols last induction =>
      rw [mountAll_snoc, mem_mountVolume]
      rintro (earlier | rfl)
      · exact (induction earlier).imp_right (List.mem_append_left _)
      · exact .inr (List.mem_append_right _ (List.mem_singleton_self _))

/-- All volumes are those of the card, so that the list is empty without it. -/
theorem Attends.diskEject (attends : Attends volumes state) :
    ∃ table, (diskEject sdCard).run state.disks.table = .ok true table ∧
      Attends [] { state with sdStatus := false, place := .inserted, disks.table := table } := by
  let mounts := mountAll [] (volumes.map Prod.fst)
  have mounting := attends.mounting
  rcases mounting.listed.run_diskEject sdCard with ⟨table, runs, listed, freed, _, _⟩
  have onCard : ∀ mount ∈ mounts, state.disks.table.disk mount.volume = sdCard := by
    intro mount member
    have volume : mount.volume ∈ mounts.map Mount.volume := List.mem_map_of_mem member
    rcases mem_mountAll volume with none | among
    · cases none
    · rcases List.mem_map.mp among with ⟨entry, member, same⟩
      exact same ▸ (mounting.mounted entry member).disk
  have empty : elsewhere state.disks.table sdCard mounts = [] := by
    rw [elsewhere, List.filter_eq_nil_iff]
    intro mount member
    simp [onCard mount member]
  have fresh : ∀ vol ∈ state.disks.heap, vol ∉ table.freed := by
    intro vol member
    rcases mounting.fresh vol member with ⟨unfreed, unlisted⟩
    rw [freed, List.mem_append, List.mem_reverse]
    rintro (ejected | earlier)
    · rcases List.mem_map.mp ejected with ⟨mount, listed, rfl⟩
      exact unlisted (List.mem_map_of_mem (List.mem_of_mem_filter listed))
    · exact unfreed earlier
  exact ⟨table, runs, .empty attends.answers (empty ▸ listed) mounting.nodup fresh rfl
    rfl⟩

theorem Attends.ejectRemoved (attends : Attends volumes state) :
    Ends ejectRemoved state (fun _ after => ∃ volumes, Attends volumes after) fun _ => True := by
  rw [Disk.ejectRemoved]
  apply Ends.get
  split
  · rcases attends.diskEject with ⟨table, runs, left⟩
    have ejects := @run_zoom_ok _ _ _ (fun state : CardThread => state.disks.table)
      (fun table state => { state with disks.table := table }) _ state _ _ runs
    apply Ends.change ejects
    exact .of_ok rfl ⟨[], left⟩
  · exact .of_ok rfl ⟨volumes, attends.goTo nofun⟩

theorem Attends.fat32Thread (attends : Attends volumes state) (rounds : Nat) :
    Ends (fat32Thread rounds) state (fun _ after => ∃ volumes, Attends volumes after)
      fun _ => True := by
  rw [Disk.fat32Thread]
  apply Ends.get
  split
  · refine .of_ok rfl ⟨volumes, attends.goTo fun left attempts => ?_⟩
    split at attempts
    · rename_i found
      exact Bool.eq_false_iff.mpr found.2
    · cases attempts
  · exact .of_ok rfl ⟨volumes, attends.goTo nofun⟩
  · rename_i left place
    exact attends.tryMount (attends.attempting _ place) rounds left
  · exact attends.ejectRemoved

theorem CardStep.attends {event : CardEvent} (step : CardStep state event after)
    (answers : event.Answers) (attends : ∃ volumes, Attends volumes state) :
    ∃ volumes, Attends volumes after := by
  rcases attends with ⟨volumes, attends⟩
  cases step with
  | insert card => exact ⟨volumes, attends.insert answers⟩
  | remove => exact ⟨volumes, attends.remove⟩
  | thread returns => exact (attends.fat32Thread _).ok _ _ returns

/-- However cards are put in and taken out while the thread runs, the list holds no volume, or
the volumes of the card that was mounted last; their files are read as long as such a card is
in the slot. -/
theorem card_volumes_follow (fresh : state.Fresh) (answers : ∀ event ∈ events, event.Answers)
    (run : Run CardStep state events after) :
    (after.sdStatus = false → Listed after.disks.table []) ∧
    (after.sdStatus = true → (after.seen 0).load16 510 = 0xAA55 ∧
      ∃ volumes : List (VolumePtr × Nat),
        volumes.map Prod.snd = fat32Lbas after.seen (partitions (after.seen 0)) ∧
        Listed after.disks.table (mountAll [] (volumes.map Prod.fst)) ∧
        (after.connected → after.disks.device.sector = after.seen → ∀ entry ∈ volumes,
          InRange entry.2 (after.seen entry.2) →
            FilesRead after.seen entry.2 entry.1 after.disks)) := by
  have kept := run.invariant_of_events (fun state => ∃ volumes, Attends volumes state)
    CardEvent.Answers (fun _ _ _ attends answers step => step.attends answers attends) answers
    ⟨[], fresh.attends⟩
  rcases kept with ⟨volumes, attends⟩
  constructor
  · intro idle
    cases attends.absent idle
    exact attends.mounting.listed
  · intro mounted
    refine ⟨attends.signed mounted, volumes, attends.partitions mounted,
      attends.mounting.listed, ?_⟩
    intro _ same entry member inRange
    have mounting := @Mounting.of_contents _ _ _ _ _ after.disks attends.mounting same
      attends.answers rfl rfl rfl
    exact mounting.filesRead member inRange

/-- The disk with one partition is put in. -/
def emptySlot : CardThread := ⟨.inserted, false, false, formattedDisk, formattedDisk.device.sector⟩

def attempting : CardThread := { emptySlot with connected := true, place := .mounting 10 }

theorem attempting_mounts :
    Ends (fat32Thread 3) attempting
      (fun _ after => after.sdStatus = true ∧
        fat32Lbas after.seen (partitions (after.seen 0)) = [16])
      fun _ => False := by
  decide +kernel

theorem card_volumes_follow_one :
    ∃ after, Run CardStep emptySlot [.insert formattedDisk.device, .thread, .thread] after ∧
      ∃ volumes : List (VolumePtr × Nat), volumes.map Prod.snd = [16] ∧
        Listed after.disks.table (mountAll [] (volumes.map Prod.fst)) := by
  have fresh : emptySlot.Fresh := ⟨rfl, rfl, ⟨rfl, rfl, rfl⟩, by decide, fun _ => rfl⟩
  have answers : ∀ event ∈ [CardEvent.insert formattedDisk.device, .thread, .thread],
      event.Answers := by
    simp [CardEvent.Answers, formattedDisk]
  cases outcome : (fat32Thread 3).run attempting with
  | error reason after => exact (attempting_mounts.error reason after outcome).elim
  | ok done after =>
      have run : Run CardStep emptySlot [.insert formattedDisk.device, .thread, .thread] after :=
        .cons (.insert _ _) (.cons (@CardStep.thread _ _ 3 rfl) (.cons (.thread outcome) (.nil _)))
      rcases attempting_mounts.ok done after outcome with ⟨mounted, lbas⟩
      rcases (card_volumes_follow fresh answers run).2 mounted with ⟨_, volumes, starts, listed, _⟩
      exact ⟨after, run, volumes, starts.trans lbas, listed⟩

end Vanilla.Disk
