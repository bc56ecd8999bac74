import Vanilla.Disk.FilePosition
import Vanilla.Disk.Table

namespace Vanilla.Disk

/-! The search of the allocation table by `fat_get_cluster`. -/

/-- The volume, and a ghost log of the sectors asked from its buffer, most recent first. -/
structure Asking where
  fat : FatState
  asked : List Nat

namespace Asking

def onFat {Value : Type} (body : Exec FatState Value) : Exec Asking Value :=
  Exec.zoom fat (fun part state => { state with fat := part }) body

def fatRead (lba : Nat) : Exec Asking Bool := do
  modify fun state => { state with asked := lba :: state.asked }
  onFat (Disk.fatRead lba)

end Asking

/-! ## fat32.c -/

/-- `sector` and `rw`: an entry of the table. -/
structure TablePosition where
  sector : Nat
  rw : Nat
deriving DecidableEq

/-- `(entry & 0b1111111) == 0`. -/
def looksFree (entry : Nat) : Bool := decide (entry &&& 0b1111111 = 0)

def positionCluster (geometry : Geometry) (position : TablePosition) : Nat :=
  u32 (u32 (128 * u32Sub position.sector geometry.fatLba) + position.rw / 4)

def nextEntry (geometry : Geometry) (position : TablePosition) : TablePosition :=
  if geometry.sectorSize ≤ position.rw + 4 then ⟨u32 (position.sector + 1), 0⟩
  else ⟨position.sector, position.rw + 4⟩

/-- The store into the first match. -/
def takeEntry (rw : Nat) : Exec FatState Unit := do
  fatStore32 rw 0xFFFFFFF
  modify fun state => { state with volume.bufferDirty := true }

/-- What the loop leaves: whether it came to its `break`, and `*cluster`, which is set as soon
as `match_found` is. -/
structure Scan where
  ended : Bool
  position : TablePosition
  cluster : Option Nat

def clusterLoop : Nat → TablePosition → Option Nat → Exec Asking Scan
  | 0, _, _ => Exec.fault .diverges
  | rounds + 1, position, cluster => do
      let cached ← Asking.fatRead position.sector
      if cached then do
        let entry ← Asking.onFat (fatLoad32 position.rw)
        let state ← get
        let geometry := state.fat.volume.toGeometry
        if looksFree entry then
          match cluster with
          | some _ => pure ⟨true, position, cluster⟩
          | none => do
              Asking.onFat (takeEntry position.rw)
              clusterLoop rounds (nextEntry geometry position)
                (some (positionCluster geometry position))
        else clusterLoop rounds (nextEntry geometry position) cluster
      else pure ⟨false, position, cluster⟩

/-- The stores into the FSinfo sector and the flush, whose result is not looked at. -/
def updateInfo (nextFree totFree : Nat) : Exec FatState Unit := do
  fatStore32 492 nextFree
  fatStore32 488 totFree
  modify fun state => { state with volume.bufferDirty := true }
  let _ ← fatFlush
  pure ()

def fatGetCluster (rounds : Nat) : Exec Asking (Bool × Option Nat) := do
  let state ← get
  let geometry := state.fat.volume.toGeometry
  let cached ← Asking.fatRead geometry.fsinfoLba
  if cached then do
    let nextFree ← Asking.onFat (fatLoad32 492)
    let totFree ← Asking.onFat (fatLoad32 488)
    let scan ← clusterLoop rounds
      ⟨u32 (geometry.fatLba + nextFree / 128), nextFree % 128 * 4⟩ none
    if scan.ended then do
      let again ← Asking.fatRead geometry.fsinfoLba
      if again then do
        Asking.onFat (updateInfo (positionCluster geometry scan.position) (u32Sub totFree 1))
        pure (true, scan.cluster)
      else pure (false, scan.cluster)
    else pure (false, scan.cluster)
  else pure (false, none)

/-! ## Positions -/

/-- The entry with this number, counted on past the end of the table. -/
def tablePosition (geometry : Geometry) (index : Nat) : TablePosition :=
  ⟨tableSector geometry index, index % 128 * 4⟩

theorem nextEntry_tablePosition {geometry : Geometry} (size : geometry.sectorSize = 512)
    (index : Nat) :
    nextEntry geometry (tablePosition geometry index) = tablePosition geometry (index + 1) := by
  simp only [nextEntry, tablePosition, tableSector, u32, size]
  by_cases last : index % 128 = 127
  · rw [if_pos (by omega)]
    congr 1
    · omega
    · omega
  · rw [if_neg (by omega)]
    congr 1
    · omega
    · omega

theorem positionCluster_tablePosition {geometry : Geometry} (small : geometry.fatLba < 2 ^ 32)
    (index : Nat) : positionCluster geometry (tablePosition geometry index) = u32 index := by
  simp only [positionCluster, tablePosition, tableSector, u32, u32Sub]
  omega

/-! ## One round -/

section Rounds

variable {fat after : FatState} {asked : List Nat} {position : TablePosition}
  {cluster : Option Nat}

theorem run_fatRead_asking {lba : Nat} {cached : Bool}
    (read : (fatRead lba).run fat = .ok cached after) :
    (Asking.fatRead lba).run ⟨fat, asked⟩ = .ok cached ⟨after, lba :: asked⟩ := by
  have zoomed : (Asking.onFat (fatRead lba)).run ⟨fat, lba :: asked⟩ =
      .ok cached ⟨after, lba :: asked⟩ := Exec.run_zoom_ok read
  exact zoomed

theorem run_clusterLoop_unread (rounds : Nat)
    (read : (fatRead position.sector).run fat = .ok false after) :
    (clusterLoop (rounds + 1) position cluster).run ⟨fat, asked⟩ =
      .ok ⟨false, position, cluster⟩ ⟨after, position.sector :: asked⟩ := by
  rw [clusterLoop, Exec.run_bind_of_ok (run_fatRead_asking read)]
  rfl

/-- A round whose sector is read depends on the entry. -/
theorem run_clusterLoop_read (rounds : Nat) (bound : position.rw + 4 ≤ 512)
    (read : (fatRead position.sector).run fat = .ok true after) :
    (clusterLoop (rounds + 1) position cluster).run ⟨fat, asked⟩ =
      (if looksFree (after.volume.buffer.load32 position.rw) then
        match cluster with
        | some _ => pure ⟨true, position, cluster⟩
        | none => do
            Asking.onFat (takeEntry position.rw)
            clusterLoop rounds (nextEntry after.volume.toGeometry position)
              (some (positionCluster after.volume.toGeometry position))
      else clusterLoop rounds (nextEntry after.volume.toGeometry position) cluster :
        Exec Asking Scan).run ⟨after, position.sector :: asked⟩ := by
  have loaded : (Asking.onFat (fatLoad32 position.rw)).run ⟨after, position.sector :: asked⟩ =
      .ok (after.volume.buffer.load32 position.rw) ⟨after, position.sector :: asked⟩ :=
    Exec.run_zoom_ok (run_fatLoad32 bound after)
  rw [clusterLoop, Exec.run_bind_of_ok (run_fatRead_asking read), if_pos rfl,
    Exec.run_bind_of_ok loaded, Exec.run_bind_of_ok (EStateM.run_get _)]

/-- The state after the store into an entry of the buffered sector. -/
def taken (fat : FatState) (rw : Nat) : FatState :=
  { fat with
    volume.buffer := fat.volume.buffer.store32 rw 0xFFFFFFF
    volume.bufferDirty := true }

theorem taken_geometry (fat : FatState) (rw : Nat) :
    (taken fat rw).volume.toGeometry = fat.volume.toGeometry := by
  rw [taken]

theorem run_takeEntry {rw : Nat} (bound : rw + 4 ≤ 512) :
    (Asking.onFat (takeEntry rw)).run ⟨fat, asked⟩ = .ok () ⟨taken fat rw, asked⟩ := by
  have stored : (takeEntry rw).run fat = .ok () (taken fat rw) := by
    rw [takeEntry, Exec.run_bind_of_ok (run_fatStore32 bound 0xFFFFFFF fat)]
    rfl
  exact Exec.run_zoom_ok stored

end Rounds

theorem fatRead_geometry {lba : Nat} {state after : FatState} {cached : Bool}
    (read : (fatRead lba).run state = .ok cached after) :
    after.volume.toGeometry = state.volume.toGeometry := by
  rcases fatRead_returns lba state with ⟨other, same, returns, geometry⟩
  rw [read] at returns
  cases returns
  exact geometry

/-! ## Stretches of the table -/

/-- The entries from one number up to another are read and do not look free. -/
inductive Skips (geometry : Geometry) : FatState → Nat → FatState → Nat → Prop where
  | nil (state : FatState) (index : Nat) : Skips geometry state index state index
  | cons {state between after : FatState} {index last : Nat} :
      (fatRead (tableSector geometry index)).run state = .ok true between →
      looksFree (between.volume.buffer.load32 (index % 128 * 4)) = false →
      Skips geometry between (index + 1) after last → Skips geometry state index after last

/-- The first entry from `index` on that looks free, all sectors up to it being read. -/
def Finds (geometry : Geometry) (state : FatState) (index : Nat) (after : FatState)
    (found : Nat) : Prop :=
  ∃ between, Skips geometry state index between found ∧
    (fatRead (tableSector geometry found)).run between = .ok true after ∧
    looksFree (after.volume.buffer.load32 (found % 128 * 4)) = true

/-- No entry from `index` on looks free up to one whose sector cannot be read. -/
def Sticks (geometry : Geometry) (state : FatState) (index : Nat) (after : FatState)
    (stop : Nat) : Prop :=
  ∃ between, Skips geometry state index between stop ∧
    (fatRead (tableSector geometry stop)).run between = .ok false after

/-- The sectors of the entries from one number to another, the last one first. -/
def sectorsBetween (geometry : Geometry) (first last : Nat) : List Nat :=
  ((List.range' first (last + 1 - first)).map (tableSector geometry)).reverse

section Stretches

variable {geometry : Geometry} {state between after : FatState} {index last : Nat}
  {log asked : List Nat}

theorem sectorsBetween_eq {first last : Nat} (order : first ≤ last) :
    sectorsBetween geometry first last =
      sectorsBetween geometry (first + 1) last ++ [tableSector geometry first] := by
  have count : last + 1 - first = (last + 1 - (first + 1)) + 1 := by omega
  rw [sectorsBetween, count, List.range'_succ, List.map_cons, List.reverse_cons]
  rfl

theorem sectorsBetween_self (index : Nat) :
    sectorsBetween geometry index index = [tableSector geometry index] := by
  have none_ : sectorsBetween geometry (index + 1) index = [] := by
    rw [sectorsBetween, Nat.sub_self]
    rfl
  rw [sectorsBetween_eq (Nat.le_refl index), none_, List.nil_append]

theorem mem_sectorsBetween {first last lba : Nat} :
    lba ∈ sectorsBetween geometry first last ↔
      ∃ index, first ≤ index ∧ index ≤ last ∧ tableSector geometry index = lba := by
  rw [sectorsBetween, List.mem_reverse, List.mem_map]
  apply exists_congr
  intro index
  rw [List.mem_range'_1, ← and_assoc]
  apply and_congr_left
  intro _
  omega

theorem Skips.le (skips : Skips geometry state index after last) : index ≤ last := by
  induction skips with
  | nil => exact Nat.le_refl _
  | cons _ _ _ induction => omega

theorem Finds.le (finds : Finds geometry state index after last) : index ≤ last := by
  rcases finds with ⟨_, skips, -⟩
  exact skips.le

theorem Sticks.le (sticks : Sticks geometry state index after last) : index ≤ last := by
  rcases sticks with ⟨_, skips, -⟩
  exact skips.le

theorem Skips.keeps (skips : Skips geometry state index after last)
    (same : state.volume.toGeometry = geometry) : after.volume.toGeometry = geometry := by
  induction skips with
  | nil => exact same
  | cons read _ _ induction => exact induction ((fatRead_geometry read).trans same)

theorem Finds.keeps (finds : Finds geometry state index after last)
    (same : state.volume.toGeometry = geometry) : after.volume.toGeometry = geometry := by
  rcases finds with ⟨between, skips, read, -⟩
  exact (fatRead_geometry read).trans (skips.keeps same)

theorem tablePosition_bound (geometry : Geometry) (index : Nat) :
    (tablePosition geometry index).rw + 4 ≤ 512 := tableOffset_bound index

/-- The rounds over a stretch that is passed, in front of a run from its end. -/
theorem Skips.run (skips : Skips geometry state index after last)
    (size : geometry.sectorSize = 512) (same : state.volume.toGeometry = geometry)
    {cluster : Option Nat} {scan : Scan} {final : FatState} {later : List Nat}
    (rest : ∀ asked, ∃ rounds,
      (clusterLoop rounds (tablePosition geometry last) cluster).run ⟨after, asked⟩ =
        .ok scan ⟨final, later ++ (tableSector geometry last :: asked)⟩) (asked : List Nat) :
    ∃ rounds, (clusterLoop rounds (tablePosition geometry index) cluster).run ⟨state, asked⟩ =
      .ok scan ⟨final, later ++ (sectorsBetween geometry index last ++ asked)⟩ := by
  induction skips generalizing asked with
  | nil state index =>
      rcases rest asked with ⟨rounds, run⟩
      exact ⟨rounds, by rw [run, sectorsBetween_self, List.singleton_append]⟩
  | @cons state between after index last read taken skips induction =>
      have kept : between.volume.toGeometry = geometry := (fatRead_geometry read).trans same
      rcases induction kept rest (tableSector geometry index :: asked) with ⟨rounds, run⟩
      have position : (fatRead (tablePosition geometry index).sector).run state =
          .ok true between := read
      have entry : looksFree (between.volume.buffer.load32
          (tablePosition geometry index).rw) = false := taken
      refine ⟨rounds + 1, ?_⟩
      rw [run_clusterLoop_read _ (tablePosition_bound geometry index) position, entry,
        if_neg Bool.false_ne_true, kept, nextEntry_tablePosition size]
      have order := skips.le
      rw [sectorsBetween_eq (show index ≤ last by omega), List.append_assoc]
      exact run

theorem Sticks.run (sticks : Sticks geometry state index after last)
    (size : geometry.sectorSize = 512) (same : state.volume.toGeometry = geometry)
    (cluster : Option Nat) (asked : List Nat) :
    ∃ rounds, (clusterLoop rounds (tablePosition geometry index) cluster).run ⟨state, asked⟩ =
      .ok ⟨false, tablePosition geometry last, cluster⟩
        ⟨after, sectorsBetween geometry index last ++ asked⟩ := by
  rcases sticks with ⟨between, skips, read⟩
  apply @Skips.run _ _ _ _ _ skips size same _ _ _ []
  intro asked
  exact ⟨1, run_clusterLoop_unread 0 read⟩

theorem Finds.run_second (finds : Finds geometry state index after last)
    (size : geometry.sectorSize = 512) (same : state.volume.toGeometry = geometry)
    (cluster : Nat) (asked : List Nat) :
    ∃ rounds, (clusterLoop rounds (tablePosition geometry index) (some cluster)).run
        ⟨state, asked⟩ = .ok ⟨true, tablePosition geometry last, some cluster⟩
          ⟨after, sectorsBetween geometry index last ++ asked⟩ := by
  rcases finds with ⟨between, skips, read, free⟩
  apply @Skips.run _ _ _ _ _ skips size same _ _ _ []
  intro asked
  refine ⟨1, ?_⟩
  have entry : looksFree (after.volume.buffer.load32 (tablePosition geometry last).rw) = true :=
    free
  rw [run_clusterLoop_read 0 (tablePosition_bound geometry last) read, entry, if_pos rfl]
  rfl

theorem Finds.run_first (finds : Finds geometry state index after last)
    (size : geometry.sectorSize = 512) (small : geometry.fatLba < 2 ^ 32)
    (same : state.volume.toGeometry = geometry) {scan : Scan} {final : FatState}
    {later : List Nat}
    (rest : ∀ asked, ∃ rounds, (clusterLoop rounds (tablePosition geometry (last + 1))
      (some (u32 last))).run ⟨taken after (last % 128 * 4), asked⟩ =
        .ok scan ⟨final, later ++ asked⟩) (asked : List Nat) :
    ∃ rounds, (clusterLoop rounds (tablePosition geometry index) none).run ⟨state, asked⟩ =
      .ok scan ⟨final, later ++ (sectorsBetween geometry index last ++ asked)⟩ := by
  have stays := finds.keeps same
  rcases finds with ⟨between, skips, read, free⟩
  apply @Skips.run _ _ _ _ _ skips size same
  intro asked
  rcases rest (tableSector geometry last :: asked) with ⟨rounds, run⟩
  refine ⟨rounds + 1, ?_⟩
  have entry : looksFree (after.volume.buffer.load32 (tablePosition geometry last).rw) = true :=
    free
  rw [run_clusterLoop_read rounds (tablePosition_bound geometry last) read, entry, if_pos rfl,
    stays]
  dsimp only
  rw [Exec.run_bind_of_ok (run_takeEntry (tablePosition_bound geometry last)),
    nextEntry_tablePosition size, positionCluster_tablePosition small]
  exact run

/-- What a run of the loop has come to: an unreadable sector, the second match, or the first
match and the run from there. -/
theorem clusterLoop_outcome (size : geometry.sectorSize = 512)
    (small : geometry.fatLba < 2 ^ 32) {rounds : Nat} {cluster : Option Nat} {scan : Scan}
    {final : Asking} (same : state.volume.toGeometry = geometry)
    (returns : (clusterLoop rounds (tablePosition geometry index) cluster).run ⟨state, asked⟩ =
      .ok scan final) :
    ∃ stop after, after.volume.toGeometry = geometry ∧
      (Sticks geometry state index after stop ∧
          final = ⟨after, sectorsBetween geometry index stop ++ asked⟩ ∧
          scan = ⟨false, tablePosition geometry stop, cluster⟩ ∨
        Finds geometry state index after stop ∧
          ((∃ taken, cluster = some taken ∧
              final = ⟨after, sectorsBetween geometry index stop ++ asked⟩ ∧
              scan = ⟨true, tablePosition geometry stop, cluster⟩) ∨
            cluster = none ∧ ∃ rest, (clusterLoop rest (tablePosition geometry (stop + 1))
              (some (u32 stop))).run ⟨taken after (stop % 128 * 4),
                sectorsBetween geometry index stop ++ asked⟩ = .ok scan final)) := by
  induction rounds generalizing state index asked with
  | zero => cases returns
  | succ rounds induction =>
      rcases fatRead_returns (tablePosition geometry index).sector state with
        ⟨cached, between, read, stays⟩
      have kept : between.volume.toGeometry = geometry := stays.trans same
      cases cached with
      | false =>
          rw [run_clusterLoop_unread rounds read] at returns
          cases returns
          refine ⟨index, between, kept, .inl ⟨⟨state, .nil _ _, read⟩, ?_, rfl⟩⟩
          rw [sectorsBetween_self, List.singleton_append]
          rfl
      | true =>
          rw [run_clusterLoop_read rounds (tablePosition_bound geometry index) read, kept]
            at returns
          cases entry : looksFree (between.volume.buffer.load32
            (tablePosition geometry index).rw) with
          | true =>
              have finds : Finds geometry state index between index :=
                ⟨state, .nil _ _, read, entry⟩
              rw [entry, if_pos rfl] at returns
              refine ⟨index, between, kept, .inr ⟨finds, ?_⟩⟩
              rw [sectorsBetween_self, List.singleton_append]
              cases cluster with
              | some taken =>
                  cases returns
                  exact .inl ⟨taken, rfl, rfl, rfl⟩
              | none =>
                  dsimp only at returns
                  rw [Exec.run_bind_of_ok (run_takeEntry (tablePosition_bound geometry index)),
                    nextEntry_tablePosition size, positionCluster_tablePosition small] at returns
                  exact .inr ⟨rfl, rounds, returns⟩
          | false =>
              rw [entry, if_neg Bool.false_ne_true, nextEntry_tablePosition size] at returns
              rcases induction kept returns with ⟨stop, after, stay, outcome⟩
              have order : index + 1 ≤ stop := by
                rcases outcome with ⟨sticks, -⟩ | ⟨finds, -⟩
                · exact sticks.le
                · exact finds.le
              refine ⟨stop, after, stay, ?_⟩
              rw [sectorsBetween_eq (show index ≤ stop by omega), List.append_assoc]
              rcases outcome with ⟨⟨before, skips, stuck⟩, ends⟩ |
                ⟨⟨before, skips, reads, free⟩, ends⟩
              · exact .inl ⟨⟨before, .cons read entry skips, stuck⟩, ends⟩
              · exact .inr ⟨⟨before, .cons read entry skips, reads, free⟩, ends⟩

end Stretches

/-! ## The whole call -/

/-- The FSinfo hint in the buffer. -/
def infoHint (info : FatState) : Nat := info.volume.buffer.load32 492

def infoCount (info : FatState) : Nat := info.volume.buffer.load32 488

/-- The state after the stores into the FSinfo sector. -/
def infoStored (fat : FatState) (nextFree totFree : Nat) : FatState :=
  { fat with
    volume.buffer := (fat.volume.buffer.store32 492 nextFree).store32 488 totFree
    volume.bufferDirty := true }

/-- The first match is stored into before the search for the second. -/
def takenAt (found : FatState) (first : Nat) : FatState := taken found (first % 128 * 4)

/-- How a call of `fat_get_cluster` can end. -/
inductive Outcome (geometry : Geometry) (state : FatState) : Bool × Option Nat → Asking → Prop where
  | infoUnread {info : FatState} :
      (fatRead geometry.fsinfoLba).run state = .ok false info →
      Outcome geometry state (false, none) ⟨info, [geometry.fsinfoLba]⟩
  | stuck {info after : FatState} {stop : Nat} :
      (fatRead geometry.fsinfoLba).run state = .ok true info →
      Sticks geometry info (infoHint info) after stop →
      Outcome geometry state (false, none)
        ⟨after, sectorsBetween geometry (infoHint info) stop ++ [geometry.fsinfoLba]⟩
  | stuckAgain {info found after : FatState} {first stop : Nat} :
      (fatRead geometry.fsinfoLba).run state = .ok true info →
      Finds geometry info (infoHint info) found first →
      Sticks geometry (takenAt found first) (first + 1) after stop →
      Outcome geometry state (false, some (u32 first))
        ⟨after, sectorsBetween geometry (first + 1) stop ++
          (sectorsBetween geometry (infoHint info) first ++ [geometry.fsinfoLba])⟩
  | infoUnreadAgain {info found second after : FatState} {first next : Nat} :
      (fatRead geometry.fsinfoLba).run state = .ok true info →
      Finds geometry info (infoHint info) found first →
      Finds geometry (takenAt found first) (first + 1) second next →
      (fatRead geometry.fsinfoLba).run second = .ok false after →
      Outcome geometry state (false, some (u32 first))
        ⟨after, geometry.fsinfoLba :: (sectorsBetween geometry (first + 1) next ++
          (sectorsBetween geometry (infoHint info) first ++ [geometry.fsinfoLba]))⟩
  | done {info found second last after : FatState} {first next : Nat} {flushed : Bool} :
      (fatRead geometry.fsinfoLba).run state = .ok true info →
      Finds geometry info (infoHint info) found first →
      Finds geometry (takenAt found first) (first + 1) second next →
      (fatRead geometry.fsinfoLba).run second = .ok true last →
      fatFlush.run (infoStored last (u32 next) (u32Sub (infoCount info) 1)) =
        .ok flushed after →
      Outcome geometry state (true, some (u32 first))
        ⟨after, geometry.fsinfoLba :: (sectorsBetween geometry (first + 1) next ++
          (sectorsBetween geometry (infoHint info) first ++ [geometry.fsinfoLba]))⟩

section Call

variable {geometry : Geometry} {state info : FatState}

theorem run_updateInfo {fat after : FatState} {asked : List Nat} {flushed : Bool}
    (nextFree totFree : Nat)
    (flush : fatFlush.run (infoStored fat nextFree totFree) = .ok flushed after) :
    (Asking.onFat (updateInfo nextFree totFree)).run ⟨fat, asked⟩ = .ok () ⟨after, asked⟩ := by
  have updated : (updateInfo nextFree totFree).run fat = .ok () after := by
    rw [updateInfo, Exec.run_bind_of_ok (run_fatStore32 (by decide) nextFree fat),
      Exec.run_bind_of_ok (run_fatStore32 (by decide) totFree _)]
    change (fatFlush >>= fun _ => pure ()).run (infoStored fat nextFree totFree) = _
    rw [Exec.run_bind_of_ok flush]
    rfl
  exact Exec.run_zoom_ok updated

/-- The call up to the loop. -/
theorem run_fatGetCluster_read (same : state.volume.toGeometry = geometry)
    (read : (fatRead geometry.fsinfoLba).run state = .ok true info) (rounds : Nat) :
    (fatGetCluster rounds).run ⟨state, []⟩ = (do
      let scan ← clusterLoop rounds (tablePosition geometry (infoHint info)) none
      if scan.ended then do
        let again ← Asking.fatRead geometry.fsinfoLba
        if again then do
          Asking.onFat (updateInfo (positionCluster geometry scan.position)
            (u32Sub (infoCount info) 1))
          pure (true, scan.cluster)
        else pure (false, scan.cluster)
      else pure (false, scan.cluster) : Exec Asking (Bool × Option Nat)).run
        ⟨info, [geometry.fsinfoLba]⟩ := by
  have hint : (Asking.onFat (fatLoad32 492)).run ⟨info, [geometry.fsinfoLba]⟩ =
      .ok (infoHint info) ⟨info, [geometry.fsinfoLba]⟩ :=
    Exec.run_zoom_ok (run_fatLoad32 (by decide) info)
  have count : (Asking.onFat (fatLoad32 488)).run ⟨info, [geometry.fsinfoLba]⟩ =
      .ok (infoCount info) ⟨info, [geometry.fsinfoLba]⟩ :=
    Exec.run_zoom_ok (run_fatLoad32 (by decide) info)
  rw [fatGetCluster, Exec.run_bind_of_ok (EStateM.run_get _)]
  simp only [same]
  rw [Exec.run_bind_of_ok (run_fatRead_asking read), if_pos rfl, Exec.run_bind_of_ok hint,
    Exec.run_bind_of_ok count]
  rfl

/-- The end of the call, behind a loop that has found both entries. -/
theorem run_finish {second : FatState} {asked : List Nat} {first next count : Nat}
    {result : Bool × Option Nat} {final : Asking} (small : geometry.fatLba < 2 ^ 32)
    (returns : (do
      let again ← Asking.fatRead geometry.fsinfoLba
      if again then do
        Asking.onFat (updateInfo (positionCluster geometry (tablePosition geometry next)) count)
        pure (true, some first)
      else pure (false, some first) : Exec Asking (Bool × Option Nat)).run ⟨second, asked⟩ =
        .ok result final) :
    (∃ after, (fatRead geometry.fsinfoLba).run second = .ok false after ∧
        result = (false, some first) ∧ final = ⟨after, geometry.fsinfoLba :: asked⟩) ∨
      ∃ last flushed after, (fatRead geometry.fsinfoLba).run second = .ok true last ∧
        fatFlush.run (infoStored last (u32 next) count) = .ok flushed after ∧
        result = (true, some first) ∧ final = ⟨after, geometry.fsinfoLba :: asked⟩ := by
  rcases fatRead_returns geometry.fsinfoLba second with ⟨cached, last, read, -⟩
  rw [Exec.run_bind_of_ok (run_fatRead_asking read)] at returns
  cases cached with
  | false =>
      cases returns
      exact .inl ⟨last, read, rfl, rfl⟩
  | true =>
      rw [if_pos rfl, positionCluster_tablePosition small] at returns
      rcases fatFlush_returns (infoStored last (u32 next) count) with
        ⟨flushed, after, flush, -⟩
      rw [Exec.run_bind_of_ok (run_updateInfo (u32 next) count flush)] at returns
      cases returns
      exact .inr ⟨last, flushed, after, read, flush, rfl, rfl⟩

theorem takenAt_geometry {found : FatState} (same : found.volume.toGeometry = geometry)
    (first : Nat) : (takenAt found first).volume.toGeometry = geometry :=
  (taken_geometry found _).trans same

theorem run_fatGetCluster_unread (same : state.volume.toGeometry = geometry)
    (read : (fatRead geometry.fsinfoLba).run state = .ok false info) (rounds : Nat) :
    (fatGetCluster rounds).run ⟨state, []⟩ = .ok (false, none) ⟨info, [geometry.fsinfoLba]⟩ := by
  rw [fatGetCluster, Exec.run_bind_of_ok (EStateM.run_get _)]
  simp only [same]
  rw [Exec.run_bind_of_ok (run_fatRead_asking read)]
  rfl

theorem outcome_of_run (size : geometry.sectorSize = 512) (small : geometry.fatLba < 2 ^ 32)
    (same : state.volume.toGeometry = geometry) {rounds : Nat} {result : Bool × Option Nat}
    {final : Asking} (returns : (fatGetCluster rounds).run ⟨state, []⟩ = .ok result final) :
    Outcome geometry state result final := by
  rcases fatRead_returns geometry.fsinfoLba state with ⟨cached, info, read, -⟩
  cases cached with
  | false =>
      rw [run_fatGetCluster_unread same read] at returns
      cases returns
      exact .infoUnread read
  | true =>
      have kept := (fatRead_geometry read).trans same
      rw [run_fatGetCluster_read same read] at returns
      rcases Exec.run_bind_ok.mp returns with ⟨scan, middle, loop, rest⟩
      rcases clusterLoop_outcome size small kept loop with
        ⟨first, found, stays, ⟨sticks, rfl, rfl⟩ | ⟨finds, ⟨_, impossible, -⟩ | ⟨-, more⟩⟩⟩
      · cases rest
        exact .stuck read sticks
      · cases impossible
      · rcases more with ⟨others, loop⟩
        have marked : (takenAt found first).volume.toGeometry = geometry :=
          takenAt_geometry stays first
        rcases clusterLoop_outcome size small marked loop with
          ⟨next, second, -, ⟨sticks, rfl, rfl⟩ | ⟨findsNext, ⟨_, _, rfl, rfl⟩ | ⟨impossible, -⟩⟩⟩
        · cases rest
          exact .stuckAgain read finds sticks
        · rcases run_finish small rest with ⟨after, again, rfl, rfl⟩ |
            ⟨last, flushed, after, again, flush, rfl, rfl⟩
          · exact .infoUnreadAgain read finds findsNext again
          · exact .done read finds findsNext again flush
        · cases impossible

/-- The loop over both matches. -/
theorem run_both {found second : FatState} {first next : Nat}
    (size : geometry.sectorSize = 512) (small : geometry.fatLba < 2 ^ 32)
    (same : info.volume.toGeometry = geometry)
    (finds : Finds geometry info (infoHint info) found first)
    (findsNext : Finds geometry (takenAt found first) (first + 1) second next) :
    ∃ rounds, (clusterLoop rounds (tablePosition geometry (infoHint info)) none).run
        ⟨info, [geometry.fsinfoLba]⟩ =
      .ok ⟨true, tablePosition geometry next, some (u32 first)⟩
        ⟨second, sectorsBetween geometry (first + 1) next ++
          (sectorsBetween geometry (infoHint info) first ++ [geometry.fsinfoLba])⟩ := by
  have marked : (takenAt found first).volume.toGeometry = geometry :=
    takenAt_geometry (finds.keeps same) first
  exact finds.run_first size small same
    (fun asked => findsNext.run_second size marked _ asked) [geometry.fsinfoLba]

theorem Outcome.run {result : Bool × Option Nat} {final : Asking}
    (outcome : Outcome geometry state result final) (size : geometry.sectorSize = 512)
    (small : geometry.fatLba < 2 ^ 32) (same : state.volume.toGeometry = geometry) :
    ∃ rounds, (fatGetCluster rounds).run ⟨state, []⟩ = .ok result final := by
  cases outcome with
  | infoUnread read => exact ⟨0, run_fatGetCluster_unread same read 0⟩
  | stuck read sticks =>
      have kept := (fatRead_geometry read).trans same
      rcases sticks.run size kept none [geometry.fsinfoLba] with ⟨rounds, loop⟩
      refine ⟨rounds, ?_⟩
      rw [run_fatGetCluster_read same read, Exec.run_bind_of_ok loop]
      rfl
  | @stuckAgain _ _ _ first _ read finds sticks =>
      have kept := (fatRead_geometry read).trans same
      have marked := takenAt_geometry (finds.keeps kept) first
      rcases finds.run_first size small kept (fun asked => sticks.run size marked _ asked)
        [geometry.fsinfoLba] with ⟨rounds, loop⟩
      refine ⟨rounds, ?_⟩
      rw [run_fatGetCluster_read same read, Exec.run_bind_of_ok loop]
      rfl
  | infoUnreadAgain read finds findsNext again =>
      have kept := (fatRead_geometry read).trans same
      rcases run_both size small kept finds findsNext with ⟨rounds, loop⟩
      refine ⟨rounds, ?_⟩
      rw [run_fatGetCluster_read same read, Exec.run_bind_of_ok loop, if_pos rfl,
        Exec.run_bind_of_ok (run_fatRead_asking again)]
      rfl
  | done read finds findsNext again flush =>
      have kept := (fatRead_geometry read).trans same
      rcases run_both size small kept finds findsNext with ⟨rounds, loop⟩
      refine ⟨rounds, ?_⟩
      rw [run_fatGetCluster_read same read, Exec.run_bind_of_ok loop, if_pos rfl,
        Exec.run_bind_of_ok (run_fatRead_asking again), if_pos rfl,
        positionCluster_tablePosition small, Exec.run_bind_of_ok (run_updateInfo _ _ flush)]
      rfl

/-- A call ends, in some number of rounds, exactly in one of the five ways. -/
theorem fatGetCluster_iff (size : geometry.sectorSize = 512) (small : geometry.fatLba < 2 ^ 32)
    (same : state.volume.toGeometry = geometry) {result : Bool × Option Nat} {final : Asking} :
    (∃ rounds, (fatGetCluster rounds).run ⟨state, []⟩ = .ok result final) ↔
      Outcome geometry state result final := by
  constructor
  · rintro ⟨rounds, returns⟩
    exact outcome_of_run size small same returns
  · exact fun outcome => outcome.run size small same

end Call

end Vanilla.Disk
