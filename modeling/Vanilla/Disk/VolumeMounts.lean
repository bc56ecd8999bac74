import Mathlib.Data.List.Find
import Mathlib.Data.List.Infix
import Mathlib.Data.List.Nodup
import Mathlib.Data.List.Perm.Subperm
import Vanilla.Disk.VolumeList

namespace Vanilla.Disk

/-! The volume list keeps the mounted volumes, each with a letter of its own, however adds
and removes are mixed. -/

/-- A mounted volume, and which letter from `C` on it has. -/
structure Mount where
  volume : VolumePtr
  index : Nat
deriving DecidableEq

def freeIndex (mounts : List Mount) : Option Nat :=
  (List.range 32).find? fun index => decide (index ∉ mounts.map Mount.index)

/-- Mount a volume under the first letter that is not in use; more than 32 do not get one. -/
def mountVolume (mounts : List Mount) (vol : VolumePtr) : List Mount :=
  if vol ∈ mounts.map Mount.volume then mounts
  else mounts ++ [⟨vol, (freeIndex mounts).getD 32⟩]

def unmountLetter (mounts : List Mount) (letter : Nat) : List Mount :=
  mounts.filter fun mount => decide (67 + mount.index ≠ letter)

/-- The list and the bitmask are two representations of the same mounts. -/
structure Listed (table : VolumeTable) (mounts : List Mount) : Prop where
  chain : NullChain table.next table.base (mounts.map Mount.volume)
  letters : ∀ mount ∈ mounts, table.letter mount.volume = 67 + mount.index
  indices : (mounts.map Mount.index).Nodup
  small : ∀ index ∈ mounts.map Mount.index, index < 32
  bits : ∀ index < 32, table.bitmask.testBit index = true ↔ index ∈ mounts.map Mount.index
  alive : ∀ vol ∈ mounts.map Mount.volume, vol ∉ table.freed

section Listed

variable {table : VolumeTable} {mounts front rest : List Mount} {vol letter : Nat}
  {mount : Mount}

theorem Listed.length_le (listed : Listed table mounts) : mounts.length ≤ 32 := by
  have inside : mounts.map Mount.index ⊆ List.range 32 :=
    fun index member => List.mem_range.mpr (listed.small index member)
  have lengths := (List.subperm_of_subset listed.indices inside).length_le
  rwa [List.length_map, List.length_range] at lengths

theorem Listed.enough (listed : Listed table mounts) :
    (mounts.map Mount.volume).length < loopRounds := by
  have length := listed.length_le
  rw [List.length_map, loopRounds]
  omega

/-- Fewer than 32 mounts leave a letter. -/
theorem freeIndex_some (room : mounts.length < 32) : ∃ index, freeIndex mounts = some index := by
  cases found : freeIndex mounts with
  | some index => exact ⟨index, rfl⟩
  | none =>
      have all : List.range 32 ⊆ mounts.map Mount.index := by
        intro index member
        have used := List.find?_eq_none.mp found index member
        simpa using used
      have lengths := (List.subperm_of_subset List.nodup_range all).length_le
      rw [List.length_map, List.length_range] at lengths
      omega

/-- The bitmask knows the first letter that is not in use. -/
theorem assignLetter_eq
    (bits : ∀ index < 32, table.bitmask.testBit index = true ↔ index ∈ mounts.map Mount.index)
    {index : Nat} (free : freeIndex mounts = some index) :
    assignLetter vol table = { table with
      bitmask := table.bitmask ||| (1 <<< index)
      letter := Function.update table.letter vol (67 + index) } := by
  have same : ((List.range 32).find? fun bit =>
      decide (table.bitmask &&& (1 <<< bit) = 0)) = freeIndex mounts := by
    apply List.find?_congr
    intro bit member
    have used := bits bit (List.mem_range.mp member)
    rw [← and_bit_ne_zero] at used
    exact decide_eq_decide.mpr (by rw [← used, not_not])
  rw [assignLetter, same, free]

theorem Listed.add_mounted (listed : Listed table mounts)
    (member : vol ∈ mounts.map Mount.volume) :
    (fatVolumeAdd vol).run table = .ok false table := by
  rw [fatVolumeAdd, Exec.run_bind_of_ok (EStateM.run_get table),
    Exec.run_bind_of_ok (run_findVolume listed.chain listed.alive listed.enough.le),
    decide_eq_true member]
  rfl

/-- The links of a list with one more volume at its end. -/
theorem Listed.add_links (listed : Listed table mounts) (absent : vol ∉ mounts.map Mount.volume) :
    ∃ base next, (fatVolumeAdd vol).run table =
        .ok true (assignLetter vol { table with base := base, next := next }) ∧
      NullChain next base (mounts.map Mount.volume ++ [vol]) := by
  have search := @run_findVolume _ _ _ vol _ listed.chain listed.alive listed.enough.le
  rw [decide_eq_false absent] at search
  have chain := listed.chain
  have alive := listed.alive
  have enough := listed.enough
  rw [fatVolumeAdd, Exec.run_bind_of_ok (EStateM.run_get table), Exec.run_bind_of_ok search]
  generalize mounts.map Mount.volume = volumes at chain alive enough absent
  rcases List.eq_nil_or_concat volumes with empty | ⟨before, last, split⟩
  · subst empty
    have base : table.base = none := chain
    rw [base]
    refine ⟨some vol, Function.update table.next vol none, rfl, rfl, ?_⟩
    rw [Function.update_self]
    rfl
  · rw [List.concat_eq_append] at split
    subst split
    cases base : table.base with
    | none =>
        rw [base] at chain
        cases before <;> cases chain.1
    | some first =>
        rw [base] at chain
        have fewer : before.length < loopRounds := by
          rw [List.length_append] at enough
          omega
        refine ⟨some first, _, ?_, chain.append absent⟩
        change (do
          let last ← lastVolume loopRounds first
          modify fun table => { table with next := Function.update table.next last (some vol) }
          modify fun table => { table with next := Function.update table.next vol none }
          modify (assignLetter vol)
          pure true : Exec VolumeTable Bool).run table = _
        rw [Exec.run_bind_of_ok (run_lastVolume chain alive fewer), ← base]
        rfl

/-- A new volume gets the first letter that is not in use. -/
theorem Listed.add_new (listed : Listed table mounts) (room : mounts.length < 32)
    (absent : vol ∉ mounts.map Mount.volume) (live : vol ∉ table.freed) :
    ∃ after, (fatVolumeAdd vol).run table = .ok true after ∧
      Listed after (mountVolume mounts vol) ∧ after.freed = table.freed ∧
      after.readLate = table.readLate := by
  rcases freeIndex_some room with ⟨index, free⟩
  rcases listed.add_links absent with ⟨base, next, adds, chain⟩
  have bound : index < 32 := List.mem_range.mp (List.mem_of_find?_eq_some free)
  have unused : index ∉ mounts.map Mount.index := by
    have test := List.find?_some free
    simpa using test
  rw [@assignLetter_eq { table with base := base, next := next } mounts vol listed.bits index
    free] at adds
  refine ⟨_, adds, ?_, rfl, rfl⟩
  rw [mountVolume, if_neg absent, free]
  constructor
  · simpa using chain
  · intro mount member
    rcases List.mem_append.mp member with old | new
    · have apart : mount.volume ≠ vol := by
        rintro rfl
        exact absent (List.mem_map_of_mem old)
      exact (Function.update_of_ne apart _ _).trans (listed.letters mount old)
    · cases List.mem_singleton.mp new
      exact Function.update_self ..
  · rw [List.map_append]
    apply listed.indices.append (List.nodup_singleton _)
    rw [List.disjoint_singleton]
    exact unused
  · intro other member
    rw [List.map_append, List.mem_append] at member
    rcases member with old | new
    · exact listed.small other old
    · cases List.mem_singleton.mp new
      exact bound
  · intro other small
    have bits := listed.bits other small
    simp only [testBit_setBit, Bool.or_eq_true, decide_eq_true_eq, List.map_append,
      List.mem_append, bits]
    simp
  · intro other member
    rw [List.map_append, List.mem_append] at member
    rcases member with old | new
    · exact listed.alive other old
    · cases List.mem_singleton.mp new
      exact live

/-- What is left when one mount is taken out of both representations. -/
theorem Listed.clear (listed : Listed table (front ++ mount :: rest))
    {base : Option VolumePtr} {next : VolumePtr → Option VolumePtr}
    (chain : NullChain next base ((front ++ rest).map Mount.volume)) :
    Listed (clearLetter (67 + mount.index) { table with base := base, next := next })
      (front ++ rest) := by
  have bound : mount.index < 32 := listed.small mount.index (by simp)
  have kept : ∀ other ∈ front ++ rest, other ∈ front ++ mount :: rest := by
    intro other member
    rcases List.mem_append.mp member with early | late
    · exact List.mem_append_left _ early
    · exact List.mem_append_right _ (List.mem_cons_of_mem _ late)
  have position : (67 + mount.index + 256 - 67) % 256 = mount.index := by omega
  have indices := listed.indices
  rw [List.map_append, List.map_cons, List.nodup_middle, ← List.map_append] at indices
  constructor
  · exact chain
  · exact fun other member => listed.letters other (kept other member)
  · exact (List.nodup_cons.mp indices).2
  · intro index member
    rcases List.mem_map.mp member with ⟨other, inside, rfl⟩
    exact listed.small _ (List.mem_map_of_mem (kept other inside))
  · intro index small
    rw [clearLetter, position]
    simp only [testBit_clearBit _ small, Bool.and_eq_true, listed.bits index small,
      decide_eq_true_eq]
    constructor
    · rintro ⟨member, apart⟩
      simp only [List.map_append, List.map_cons, List.mem_append, List.mem_cons] at member ⊢
      tauto
    · intro member
      refine ⟨?_, fun same => (List.nodup_cons.mp indices).1 (same ▸ member)⟩
      simp only [List.map_append, List.map_cons, List.mem_append, List.mem_cons] at member ⊢
      tauto
  · intro other member
    rcases List.mem_map.mp member with ⟨holder, inside, rfl⟩
    exact listed.alive _ (List.mem_map_of_mem (kept holder inside))

theorem run_releaseLetter (live : vol ∉ table.freed) :
    (releaseLetter vol).run table = .ok true (clearLetter (table.letter vol) table) := by
  rw [releaseLetter, Exec.run_bind_of_ok (run_load live)]
  rfl

/-- The mounts in front have other letters. -/
theorem Listed.letter_ne (listed : Listed table (front ++ mount :: rest)) {other : Mount}
    (member : other ∈ front) : table.letter other.volume ≠ 67 + mount.index := by
  intro same
  have indices := listed.indices
  rw [listed.letters other (List.mem_append_left _ member)] at same
  rw [List.map_append, List.nodup_append] at indices
  exact indices.2.2 other.index (List.mem_map_of_mem member) mount.index (by simp) (by omega)

/-- What a removal leaves, of everything but the letters. -/
structure Unmounts (table : VolumeTable) (mount : Mount) (left : List Mount)
    (after : VolumeTable) : Prop where
  returns : (fatVolumeRemove (67 + mount.index)).run table = .ok true after
  listed : Listed after left
  freed : after.freed = table.freed
  readLate : after.readLate = table.readLate
  disk : after.disk = table.disk
  bufferDirty : after.bufferDirty = table.bufferDirty
  next : after.next mount.volume = table.next mount.volume

theorem Listed.remove_first (listed : Listed table (mount :: rest)) :
    ∃ after, Unmounts table mount rest after := by
  have chain := listed.chain
  have base : table.base = some mount.volume := chain.1
  have letter := listed.letters mount List.mem_cons_self
  have live := listed.alive mount.volume (by simp)
  have released := @run_releaseLetter { table with base := table.next mount.volume }
    mount.volume live
  simp only [letter] at released
  refine ⟨_, ?_, @Listed.clear table [] rest mount listed _ _ chain.2, rfl, rfl, rfl, rfl, rfl⟩
  rw [fatVolumeRemove, Exec.run_bind_of_ok (EStateM.run_get table), base]
  dsimp only
  rw [Exec.run_bind_of_ok (run_load live), if_pos letter, Exec.run_bind_of_ok (run_load live)]
  exact released

/-- Behind the first volume, the loop seeks the one with the letter and its predecessor. -/
theorem Listed.remove_later {first : Mount}
    (listed : Listed table (first :: front ++ mount :: rest)) :
    ∃ after, Unmounts table mount (first :: front ++ rest) after := by
  have chain := listed.chain
  have alive := listed.alive
  have enough := listed.enough
  have base : table.base = some first.volume := chain.1
  have letter := listed.letters mount (by simp)
  have live := listed.alive mount.volume (by simp)
  have firstLive := listed.alive first.volume (by simp)
  have volumes : (first :: front ++ mount :: rest).map Mount.volume =
      first.volume :: (front.map Mount.volume ++ mount.volume :: rest.map Mount.volume) := by
    simp
  rw [volumes] at chain alive enough
  have early : ∀ vol ∈ front.map Mount.volume, table.letter vol ≠ 67 + mount.index := by
    intro vol member
    rcases List.mem_map.mp member with ⟨holder, inside, rfl⟩
    exact listed.letter_ne (List.mem_cons_of_mem _ inside)
  have fewer : (front.map Mount.volume).length < loopRounds := by
    simp only [List.length_cons, List.length_append] at enough
    omega
  rcases @run_seekLetter_found table (table.next first.volume) mount.volume loopRounds
      (67 + mount.index) first.volume (front.map Mount.volume) (rest.map Mount.volume) chain.2
      (fun vol member => alive vol (List.mem_cons_of_mem _ member)) fewer early letter with
    ⟨before, last, split, seeks⟩
  rw [← List.cons_append, split, List.append_assoc] at chain
  have bridged := chain.bridge
  have shorter : (first :: front ++ rest).map Mount.volume =
      before ++ last :: rest.map Mount.volume := by
    rw [List.map_append, List.map_cons, split, List.append_assoc]
    rfl
  rw [← shorter] at bridged
  have apart : mount.volume ≠ last := by
    have distinct := chain.nodup
    rw [List.nodup_append] at distinct
    have tail := (List.nodup_cons.mp distinct.2.1).1
    rintro rfl
    exact tail List.mem_cons_self
  have released := @run_releaseLetter
    { table with next := Function.update table.next last (table.next mount.volume) }
    mount.volume live
  simp only [letter] at released
  refine ⟨_, ?_, listed.clear bridged, rfl, rfl, rfl, rfl, Function.update_of_ne apart _ _⟩
  rw [fatVolumeRemove, Exec.run_bind_of_ok (EStateM.run_get table), base]
  dsimp only
  rw [Exec.run_bind_of_ok (run_load firstLive),
    if_neg (listed.letter_ne List.mem_cons_self),
    Exec.run_bind_of_ok (run_load firstLive), Exec.run_bind_of_ok seeks]
  dsimp only
  rw [Exec.run_bind_of_ok (run_load live)]
  exact base ▸ released

/-- The volume with a letter is unlinked and its letter is free. -/
theorem Listed.remove_present (listed : Listed table (front ++ mount :: rest)) :
    ∃ after, Unmounts table mount (front ++ rest) after := by
  cases front with
  | nil => exact listed.remove_first
  | cons first front => exact listed.remove_later

theorem Listed.remove_absent (listed : Listed table mounts)
    (absent : ∀ mount ∈ mounts, 67 + mount.index ≠ letter) :
    (fatVolumeRemove letter).run table = .ok false table := by
  have chain := listed.chain
  have enough := listed.enough
  rw [fatVolumeRemove, Exec.run_bind_of_ok (EStateM.run_get table)]
  cases mounts with
  | nil =>
      have base : table.base = none := chain
      rw [base]
      rfl
  | cons first rest =>
      have base : table.base = some first.volume := chain.1
      have live := listed.alive first.volume (by simp)
      have other := absent first List.mem_cons_self
      rw [← listed.letters first List.mem_cons_self] at other
      rw [base]
      dsimp only
      rw [Exec.run_bind_of_ok (run_load live), if_neg other, Exec.run_bind_of_ok (run_load live)]
      rcases @run_seekLetter_absent table (rest.map Mount.volume) (table.next first.volume)
          loopRounds letter first.volume chain.2
          (fun vol member => listed.alive vol (List.mem_cons_of_mem _ member))
          (by
            rw [List.map_cons, List.length_cons] at enough
            omega)
          (by
            intro vol member
            rcases List.mem_map.mp member with ⟨mount, inside, rfl⟩
            rw [listed.letters mount (List.mem_cons_of_mem _ inside)]
            exact absent mount (List.mem_cons_of_mem _ inside)) with ⟨last, seeks⟩
      rw [Exec.run_bind_of_ok seeks]
      rfl

/-- A letter belongs to one mount only. -/
theorem unmountLetter_middle (indices : ((front ++ mount :: rest).map Mount.index).Nodup) :
    unmountLetter (front ++ mount :: rest) (67 + mount.index) = front ++ rest := by
  rw [List.map_append, List.map_cons, List.nodup_middle, ← List.map_append] at indices
  have others : ∀ other ∈ front ++ rest, other.index ≠ mount.index := by
    intro other member same
    exact (List.nodup_cons.mp indices).1 (same ▸ List.mem_map_of_mem member)
  rw [unmountLetter, List.filter_append, List.filter_cons, decide_eq_false (by simp),
    if_neg Bool.false_ne_true, ← List.filter_append, List.filter_eq_self]
  intro other member
  have apart := others other member
  exact decide_eq_true (by omega)

theorem unmountLetter_absent (absent : ∀ mount ∈ mounts, 67 + mount.index ≠ letter) :
    unmountLetter mounts letter = mounts := by
  rw [unmountLetter, List.filter_eq_self]
  exact fun mount member => decide_eq_true (absent mount member)

/-- Removing a letter in use takes out its mount, and no other. -/
theorem Listed.remove_mounted (listed : Listed table mounts) (member : mount ∈ mounts) :
    ∃ after, (fatVolumeRemove (67 + mount.index)).run table = .ok true after ∧
      Listed after (unmountLetter mounts (67 + mount.index)) ∧ after.freed = table.freed := by
  rcases List.append_of_mem member with ⟨front, rest, split⟩
  subst split
  rcases listed.remove_present with ⟨after, removes⟩
  rw [unmountLetter_middle listed.indices]
  exact ⟨after, removes.returns, removes.listed, removes.freed⟩

end Listed

/-! ## Runs -/

inductive MountEvent where
  | add (vol : VolumePtr)
  | remove (letter : Nat)
deriving DecidableEq

def MountEvent.perform : MountEvent → Exec VolumeTable Bool
  | .add vol => fatVolumeAdd vol
  | .remove letter => fatVolumeRemove letter

def MountEvent.apply (mounts : List Mount) : MountEvent → List Mount
  | .add vol => mountVolume mounts vol
  | .remove letter => unmountLetter mounts letter

def volumeRun : List MountEvent → Exec VolumeTable Unit
  | [] => pure ()
  | event :: events => do
      let _ ← event.perform
      volumeRun events

/-- The mounts a run of the volume list is to leave. -/
def mountsAfter (mounts : List Mount) (events : List MountEvent) : List Mount :=
  events.foldl MountEvent.apply mounts

section Runs

variable {table : VolumeTable} {mounts : List Mount}

theorem Listed.perform (listed : Listed table mounts) (none : table.freed = [])
    (event : MountEvent) (room : (event.apply mounts).length ≤ 32) :
    ∃ result after, event.perform.run table = .ok result after ∧
      Listed after (event.apply mounts) ∧ after.freed = [] := by
  cases event with
  | add vol =>
      by_cases member : vol ∈ mounts.map Mount.volume
      · have same : mountVolume mounts vol = mounts := if_pos member
        refine ⟨false, table, listed.add_mounted member, ?_, none⟩
        rw [MountEvent.apply, same]
        exact listed
      · have grown : (mountVolume mounts vol).length = mounts.length + 1 := by
          rw [mountVolume, if_neg member, List.length_append, List.length_singleton]
        have live : vol ∉ table.freed := none ▸ List.not_mem_nil
        have fewer : mounts.length < 32 := by
          rw [MountEvent.apply, grown] at room
          exact room
        rcases listed.add_new fewer member live with ⟨after, adds, kept, freed, _⟩
        exact ⟨true, after, adds, kept, freed.trans none⟩
  | remove letter =>
      by_cases used : ∃ mount ∈ mounts, 67 + mount.index = letter
      · rcases used with ⟨mount, member, rfl⟩
        rcases listed.remove_mounted member with ⟨after, removes, kept, freed⟩
        exact ⟨true, after, removes, kept, freed.trans none⟩
      · have absent : ∀ mount ∈ mounts, 67 + mount.index ≠ letter :=
          fun mount member same => used ⟨mount, member, same⟩
        have same := unmountLetter_absent absent
        refine ⟨false, table, listed.remove_absent absent, ?_, none⟩
        rw [MountEvent.apply, same]
        exact listed

theorem Listed.volumeRun (listed : Listed table mounts) (none : table.freed = [])
    (events : List MountEvent)
    (room : ∀ before, before <+: events → (mountsAfter mounts before).length ≤ 32) :
    ∃ after, (volumeRun events).run table = .ok () after ∧
      Listed after (mountsAfter mounts events) ∧ after.freed = [] := by
  induction events generalizing table mounts with
  | nil => exact ⟨table, rfl, listed, none⟩
  | cons event events induction =>
      have first : (event.apply mounts).length ≤ 32 := by
        apply room [event]
        exact List.prefix_append [event] events
      rcases listed.perform none event first with ⟨result, middle, performs, kept, freed⟩
      have later : ∀ before, before <+: events →
          (mountsAfter (event.apply mounts) before).length ≤ 32 := by
        intro before early
        apply room (event :: before)
        exact List.cons_prefix_cons.mpr ⟨rfl, early⟩
      rcases induction kept freed later with ⟨after, runs, last⟩
      exact ⟨after, (Exec.run_bind_of_ok performs).trans runs, last⟩

/-- What a user of the volume list may rely on. -/
structure VolumesAgree (table : VolumeTable) (mounts : List Mount) : Prop where
  linked : NullChain table.next table.base (mounts.map Mount.volume)
  once : (mounts.map Mount.volume).Nodup
  letters : ∀ mount ∈ mounts, table.letter mount.volume = 67 + mount.index
  distinct : (mounts.map fun mount => table.letter mount.volume).Nodup
  bits : ∀ index < 32, table.bitmask.testBit index = true ↔
    ∃ mount ∈ mounts, table.letter mount.volume = 67 + index
  lookup : ∀ letter, ∃ found, (volumeGet letter).run table = .ok found table ∧
    ∀ vol, found = some vol ↔ vol ∈ mounts.map Mount.volume ∧ table.letter vol = letter
  again : ∀ vol ∈ mounts.map Mount.volume, (fatVolumeAdd vol).run table = .ok false table
  fresh : ∀ vol ∉ mounts.map Mount.volume, mounts.length < 32 → ∃ after,
    (fatVolumeAdd vol).run table = .ok true after ∧ Listed after (mountVolume mounts vol)
  unmount : ∀ mount ∈ mounts, ∃ after,
    (fatVolumeRemove (table.letter mount.volume)).run table = .ok true after ∧
    Listed after (mounts.erase mount)
  unknown : ∀ letter, (∀ mount ∈ mounts, table.letter mount.volume ≠ letter) →
    (fatVolumeRemove letter).run table = .ok false table

/-- A letter is found where it was given. -/
theorem Listed.lookup (listed : Listed table mounts) (letter : Nat) :
    ∃ found, (volumeGet letter).run table = .ok found table ∧
      ∀ vol, found = some vol ↔
        vol ∈ mounts.map Mount.volume ∧ table.letter vol = letter := by
  refine ⟨_, (Exec.run_bind_of_ok (EStateM.run_get table)).trans
    (run_getFrom listed.chain listed.alive listed.enough.le), ?_⟩
  intro vol
  constructor
  · intro found
    exact ⟨List.mem_of_find?_eq_some found, by simpa using List.find?_some found⟩
  · rintro ⟨member, same⟩
    rcases List.mem_map.mp member with ⟨mount, inside, rfl⟩
    cases found : (mounts.map Mount.volume).find? fun vol => decide (table.letter vol = letter)
    with
    | none =>
        have never := List.find?_eq_none.mp found mount.volume member
        exact absurd (decide_eq_true same) never
    | some other =>
        rcases List.mem_map.mp (List.mem_of_find?_eq_some found) with ⟨holder, among, rfl⟩
        have also : table.letter holder.volume = letter := by
          simpa using List.find?_some found
        rw [listed.letters mount inside] at same
        rw [listed.letters holder among] at also
        have equal : holder = mount :=
          List.inj_on_of_nodup_map listed.indices among inside (by omega)
        rw [equal]

theorem Listed.unmount_eq_erase (listed : Listed table mounts) {mount : Mount}
    (member : mount ∈ mounts) :
    unmountLetter mounts (67 + mount.index) = mounts.erase mount := by
  rw [listed.indices.of_map.erase_eq_filter, unmountLetter]
  apply List.filter_congr
  intro other inside
  by_cases same : other = mount
  · rw [same]
    simp
  · have apart : other.index ≠ mount.index :=
      fun equal => same (List.inj_on_of_nodup_map listed.indices inside member equal)
    rw [decide_eq_true (by omega)]
    exact (bne_iff_ne.mpr same).symm

/-- One representation of the mounts does not drift from the other. -/
theorem Listed.agree (listed : Listed table mounts) (none : table.freed = []) :
    VolumesAgree table mounts where
  linked := listed.chain
  once := listed.chain.nodup
  letters := listed.letters
  distinct := by
    have indices := listed.indices.map (fun left right same => Nat.add_left_cancel same :
      Function.Injective fun index => 67 + index)
    rw [List.map_map] at indices
    rw [List.map_congr_left listed.letters]
    exact indices
  bits := by
    intro index small
    rw [listed.bits index small, List.mem_map]
    apply exists_congr
    intro mount
    apply and_congr_right
    intro member
    rw [listed.letters mount member]
    omega
  lookup := listed.lookup
  again := fun vol member => listed.add_mounted member
  fresh := by
    intro vol absent room
    rcases listed.add_new room absent (none ▸ List.not_mem_nil) with ⟨after, adds, kept, _⟩
    exact ⟨after, adds, kept⟩
  unmount := by
    intro mount member
    rcases listed.remove_mounted member with ⟨after, removes, kept, _⟩
    rw [listed.letters mount member]
    exact ⟨after, removes, listed.unmount_eq_erase member ▸ kept⟩
  unknown := by
    intro letter absent
    apply listed.remove_absent
    intro mount member
    rw [← listed.letters mount member]
    exact absent mount member

end Runs

/-- No volume is mounted and no memory has been given back. -/
structure VolumeTable.Fresh (table : VolumeTable) : Prop where
  base : table.base = none
  bitmask : table.bitmask = 0
  freed : table.freed = []

theorem VolumeTable.Fresh.listed {table : VolumeTable} (fresh : table.Fresh) :
    Listed table [] where
  chain := fresh.base
  letters := fun _ member => nomatch member
  indices := List.nodup_nil
  small := fun _ member => nomatch member
  bits := by
    intro index _
    rw [fresh.bitmask, Nat.zero_testBit]
    simp
  alive := fun _ member => nomatch member

/-- However adds and removes are mixed, the list and the letters are those of the volumes that
are mounted. -/
theorem volume_list_agrees (table : VolumeTable) (fresh : table.Fresh)
    (events : List MountEvent)
    (room : ∀ before, before <+: events → (mountsAfter [] before).length ≤ 32) :
    ∃ after, (volumeRun events).run table = .ok () after ∧
      VolumesAgree after (mountsAfter [] events) := by
  rcases fresh.listed.volumeRun fresh.freed events room with ⟨after, runs, listed, freed⟩
  exact ⟨after, runs, listed.agree freed⟩

/-- The letter `C` is given out again after the first of two volumes was removed. -/
theorem volume_list_agrees_recycled :
    let events : List MountEvent := [.add 1, .add 2, .remove 67, .add 3]
    let table : VolumeTable := ⟨none, 0, fun _ => none, fun _ => 0, fun _ => 0,
      fun _ => false, [], []⟩
    mountsAfter [] events = [⟨2, 1⟩, ⟨3, 0⟩] ∧
      ∃ after, (volumeRun events).run table = .ok () after ∧
        VolumesAgree after (mountsAfter [] events) := by
  intro events table
  refine ⟨by decide, volume_list_agrees table ⟨rfl, rfl, rfl⟩ events ?_⟩
  have small : ∀ before ∈ events.inits, (mountsAfter [] before).length ≤ 32 := by decide
  exact fun before early => small before ((List.mem_inits before events).mpr early)

end Vanilla.Disk
