import Vanilla.Foundation.Exec
import Vanilla.Foundation.NullChain
import Vanilla.Foundation.Run
import Vanilla.Foundation.Word

namespace Vanilla.Disk

/-! The list of the mounted volumes and the letters they are given. -/

/-- The address of a `struct volume`. -/
abbrev VolumePtr := Nat

/-- `volume_base`, `volume_bitmask` and the fields of the volumes they are about. The ghost
lists hold the volumes whose memory was given back, and those of them that were read after. -/
structure VolumeTable where
  base : Option VolumePtr
  bitmask : Nat
  next : VolumePtr → Option VolumePtr
  letter : VolumePtr → Nat
  disk : VolumePtr → Nat
  bufferDirty : VolumePtr → Bool
  freed : List VolumePtr
  readLate : List VolumePtr

/-! ## fat32.c -/

/-- Read a field of a volume. -/
def VolumeTable.load {Value : Type} (field : VolumeTable → VolumePtr → Value)
    (vol : VolumePtr) : Exec VolumeTable Value := do
  let table ← get
  if vol ∈ table.freed then
    set { table with readLate := vol :: table.readLate }
    pure (field table vol)
  else pure (field table vol)

open VolumeTable (load)

/-- The first loop of `fat_volume_add`. -/
def findVolume (vol : VolumePtr) : Nat → Option VolumePtr → Exec VolumeTable Bool
  | _, none => pure false
  | 0, some _ => Exec.fault .diverges
  | rounds + 1, some tmp =>
      if tmp = vol then pure true
      else do
        let next ← load VolumeTable.next tmp
        findVolume vol rounds next

def lastVolume : Nat → VolumePtr → Exec VolumeTable VolumePtr
  | 0, _ => Exec.fault .diverges
  | rounds + 1, volIt => do
      let next ← load VolumeTable.next volIt
      match next with
      | none => pure volIt
      | some next => lastVolume rounds next

/-- The letter of a clear bit is given out; a volume too many keeps what it had. -/
def assignLetter (vol : VolumePtr) (table : VolumeTable) : VolumeTable :=
  match (List.range 32).find? fun bit => decide (table.bitmask &&& (1 <<< bit) = 0) with
  | some bit => { table with
      bitmask := table.bitmask ||| (1 <<< bit)
      letter := Function.update table.letter vol (67 + bit) }
  | none => table

def fatVolumeAdd (vol : VolumePtr) : Exec VolumeTable Bool := do
  let table ← get
  let found ← findVolume vol loopRounds table.base
  if found then pure false
  else do
    match table.base with
    | none => modify fun table => { table with base := some vol }
    | some first => do
        let last ← lastVolume loopRounds first
        modify fun table => { table with next := Function.update table.next last (some vol) }
    modify fun table => { table with next := Function.update table.next vol none }
    modify (assignLetter vol)
    pure true

/-- The loop of `fat_volume_remove`: `prev` and `curr`. -/
def seekLetter (letter : Nat) :
    Nat → VolumePtr → Option VolumePtr → Exec VolumeTable (VolumePtr × Option VolumePtr)
  | _, prev, none => pure (prev, none)
  | 0, _, some _ => Exec.fault .diverges
  | rounds + 1, prev, some curr => do
      let found ← load VolumeTable.letter curr
      if found = letter then pure (prev, some curr)
      else do
        let next ← load VolumeTable.next curr
        seekLetter letter rounds curr next

/-- The bit of a letter; `bit_pos` is a `u8`. -/
def clearLetter (letter : Nat) (table : VolumeTable) : VolumeTable :=
  { table with bitmask := table.bitmask &&& (0xFFFFFFFF ^^^ (1 <<< ((letter + 256 - 67) % 256))) }

def releaseLetter (curr : VolumePtr) : Exec VolumeTable Bool := do
  let letter ← load VolumeTable.letter curr
  modify (clearLetter letter)
  pure true

def fatVolumeRemove (letter : Nat) : Exec VolumeTable Bool := do
  let table ← get
  match table.base with
  | none => pure false
  | some first => do
      let firstLetter ← load VolumeTable.letter first
      if firstLetter = letter then do
        let next ← load VolumeTable.next first
        modify fun table => { table with base := next }
        releaseLetter first
      else do
        let second ← load VolumeTable.next first
        let found ← seekLetter letter loopRounds first second
        match found.2 with
        | none => pure false
        | some curr => do
            let next ← load VolumeTable.next curr
            modify fun table => { table with next := Function.update table.next found.1 next }
            releaseLetter curr

/-- The loop of `volume_get`. -/
def getFrom (letter : Nat) : Nat → Option VolumePtr → Exec VolumeTable (Option VolumePtr)
  | _, none => pure none
  | 0, some _ => Exec.fault .diverges
  | rounds + 1, some vol => do
      let found ← load VolumeTable.letter vol
      if found = letter then pure (some vol)
      else do
        let next ← load VolumeTable.next vol
        getFrom letter rounds next

def volumeGetFirst : Exec VolumeTable (Option VolumePtr) := do
  let table ← get
  pure table.base

def volumeGet (letter : Nat) : Exec VolumeTable (Option VolumePtr) := do
  let table ← get
  getFrom letter loopRounds table.base

/-- `mm_free(vol)`: the block is given back with what it holds. -/
def freeVolume (vol : VolumePtr) (table : VolumeTable) : VolumeTable :=
  { table with freed := vol :: table.freed }

/-- One round of `disk_eject`, up to its last line: whether the loop goes on. -/
def ejectVolume (disk : Nat) (vol : VolumePtr) : Exec VolumeTable Bool := do
  let volDisk ← load VolumeTable.disk vol
  if volDisk = disk then do
    let letter ← load VolumeTable.letter vol
    let removed ← fatVolumeRemove letter
    if removed then do
      modify (freeVolume vol)
      pure true
    else pure false
  else pure true

def ejectFrom (disk : Nat) : Nat → Option VolumePtr → Exec VolumeTable Bool
  | _, none => pure true
  | 0, some _ => Exec.fault .diverges
  | rounds + 1, some vol => do
      let goesOn ← ejectVolume disk vol
      if goesOn then do
        let next ← load VolumeTable.next vol
        ejectFrom disk rounds next
      else pure false

def diskEject (disk : Nat) : Exec VolumeTable Bool := do
  let vol ← volumeGetFirst
  ejectFrom disk loopRounds vol

/-! ## The loops over a list of live volumes -/

section Loops

variable {table : VolumeTable} {volumes : List VolumePtr} {head : Option VolumePtr}
  {vol : VolumePtr} {rounds letter : Nat}

theorem run_load {Value : Type} {field : VolumeTable → VolumePtr → Value}
    (alive : vol ∉ table.freed) : (load field vol).run table = .ok (field table vol) table := by
  rw [load, Exec.run_bind_of_ok (EStateM.run_get table), if_neg alive]
  rfl

theorem run_findVolume (chain : NullChain table.next head volumes)
    (alive : ∀ vol ∈ volumes, vol ∉ table.freed) (enough : volumes.length ≤ rounds) :
    (findVolume vol rounds head).run table = .ok (decide (vol ∈ volumes)) table := by
  induction volumes generalizing head rounds with
  | nil =>
      cases chain
      cases rounds <;> rfl
  | cons first rest induction =>
      cases chain.1
      cases rounds with
      | zero => cases enough
      | succ rounds =>
          rw [findVolume]
          by_cases same : first = vol
          · rw [if_pos same, same, decide_eq_true List.mem_cons_self]
            rfl
          · rw [if_neg same, Exec.run_bind_of_ok (run_load (alive first List.mem_cons_self)),
              induction chain.2 (fun vol member => alive vol (List.mem_cons_of_mem _ member))
                (Nat.le_of_succ_le_succ enough)]
            have member : vol ∈ first :: rest ↔ vol ∈ rest := by
              simp [Ne.symm same]
            simp only [member]

theorem run_lastVolume {first last : VolumePtr} {front : List VolumePtr}
    (chain : NullChain table.next (some first) (front ++ [last]))
    (alive : ∀ vol ∈ front ++ [last], vol ∉ table.freed) (enough : front.length < rounds) :
    (lastVolume rounds first).run table = .ok last table := by
  induction front generalizing first rounds with
  | nil =>
      cases chain.1
      cases rounds with
      | zero => cases enough
      | succ rounds =>
          have ends : table.next last = none := chain.2
          rw [lastVolume, Exec.run_bind_of_ok (run_load (alive last (by simp))), ends]
          rfl
  | cons node front induction =>
      cases chain.1
      cases rounds with
      | zero => cases enough
      | succ rounds =>
          rw [lastVolume, Exec.run_bind_of_ok (run_load (alive node (by simp)))]
          cases following : table.next node with
          | none =>
              have rest := chain.2
              rw [following] at rest
              cases front <;> cases rest.1
          | some second =>
              have rest := chain.2
              rw [following] at rest
              exact induction rest (fun vol member => alive vol (List.mem_cons_of_mem _ member))
                (Nat.lt_of_succ_lt_succ enough)

theorem run_getFrom (chain : NullChain table.next head volumes)
    (alive : ∀ vol ∈ volumes, vol ∉ table.freed) (enough : volumes.length ≤ rounds) :
    (getFrom letter rounds head).run table =
      .ok (volumes.find? fun vol => decide (table.letter vol = letter)) table := by
  induction volumes generalizing head rounds with
  | nil =>
      cases chain
      cases rounds <;> rfl
  | cons first rest induction =>
      cases chain.1
      cases rounds with
      | zero => cases enough
      | succ rounds =>
          have here := alive first List.mem_cons_self
          rw [getFrom, Exec.run_bind_of_ok (run_load here), List.find?_cons]
          by_cases same : table.letter first = letter
          · rw [if_pos same, decide_eq_true same]
            rfl
          · rw [if_neg same, decide_eq_false same, Exec.run_bind_of_ok (run_load here)]
            exact induction chain.2 (fun vol member => alive vol (List.mem_cons_of_mem _ member))
              (Nat.le_of_succ_le_succ enough)

theorem run_seekLetter_absent {prev : VolumePtr} (chain : NullChain table.next head volumes)
    (alive : ∀ vol ∈ volumes, vol ∉ table.freed) (enough : volumes.length ≤ rounds)
    (absent : ∀ vol ∈ volumes, table.letter vol ≠ letter) :
    ∃ last, (seekLetter letter rounds prev head).run table = .ok (last, none) table := by
  induction volumes generalizing head rounds prev with
  | nil =>
      cases chain
      cases rounds <;> exact ⟨prev, rfl⟩
  | cons first rest induction =>
      cases chain.1
      cases rounds with
      | zero => cases enough
      | succ rounds =>
          have here := alive first List.mem_cons_self
          rw [seekLetter, Exec.run_bind_of_ok (run_load here),
            if_neg (absent first List.mem_cons_self), Exec.run_bind_of_ok (run_load here)]
          exact induction chain.2 (fun vol member => alive vol (List.mem_cons_of_mem _ member))
            (Nat.le_of_succ_le_succ enough)
            (fun vol member => absent vol (List.mem_cons_of_mem _ member))

/-- The loop stops at the volume with the letter, one behind the last of those before. -/
theorem run_seekLetter_found {prev : VolumePtr} {front rest : List VolumePtr}
    (chain : NullChain table.next head (front ++ vol :: rest))
    (alive : ∀ node ∈ front ++ vol :: rest, node ∉ table.freed) (enough : front.length < rounds)
    (absent : ∀ node ∈ front, table.letter node ≠ letter) (found : table.letter vol = letter) :
    ∃ before last, prev :: front = before ++ [last] ∧
      (seekLetter letter rounds prev head).run table = .ok (last, some vol) table := by
  induction front generalizing head rounds prev with
  | nil =>
      cases chain.1
      cases rounds with
      | zero => cases enough
      | succ rounds =>
          refine ⟨[], prev, rfl, ?_⟩
          rw [seekLetter, Exec.run_bind_of_ok (run_load (alive vol (by simp))), if_pos found]
          rfl
  | cons first front induction =>
      cases chain.1
      cases rounds with
      | zero => cases enough
      | succ rounds =>
          have here := alive first List.mem_cons_self
          rcases @induction (table.next first) rounds first chain.2
            (fun vol member => alive vol (List.mem_cons_of_mem _ member))
            (Nat.lt_of_succ_lt_succ enough)
            (fun vol member => absent vol (List.mem_cons_of_mem _ member)) with
            ⟨before, last, split, seeks⟩
          refine ⟨prev :: before, last, by rw [split, List.cons_append], ?_⟩
          rw [seekLetter, Exec.run_bind_of_ok (run_load here),
            if_neg (absent first List.mem_cons_self), Exec.run_bind_of_ok (run_load here)]
          exact seeks

end Loops

end Vanilla.Disk
