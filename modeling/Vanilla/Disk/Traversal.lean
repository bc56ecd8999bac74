import Vanilla.Disk.DirectoryLookup
import Vanilla.Disk.FilePosition

namespace Vanilla.Disk

/-! Walking over the slots of a directory with `fat_dir_get_next`, compared with
its cluster chain. -/

/-- A directory on a well-formed volume: its chain has a cluster at least, and the
table entry of the last one ends it. -/
structure DirectoryChain (geometry : Geometry) (sectors : Nat → Sector) (extent : Extent) : Prop
    extends WellFormed geometry sectors extent where
  nonempty : 0 < extent.clusters
  ended : endOfChain (tableEntry geometry sectors (extent.cluster (extent.clusters - 1))) = true

/-- The sectors of the chain, in order. -/
def chainSectors (geometry : Geometry) (extent : Extent) : List Nat :=
  (List.range (extent.clusters * geometry.clusterSize)).map (fileSector geometry extent)

/-- The slots of a sector from one on, as pairs of sector and offset. -/
def sectorSlots (sector first count : Nat) : List (Nat × Nat) :=
  (List.range' first count).map fun index => (sector, index * 32)

def slotsOf (sectors : List Nat) : List (Nat × Nat) :=
  sectors.flatMap fun sector => sectorSlots sector 0 16

/-- Repeated calls of `fat_dir_get_next` visit exactly these slots; the last call
returns `0`. -/
def Visits : List (Nat × Nat) → Dir → FatState → Prop
  | [], _, _ => False
  | [place], dir, state => (dir.sector, dir.rwOffset) = place ∧
      ∃ moved after, (fatDirGetNext dir).run state = .ok (false, moved) after
  | place :: next :: rest, dir, state => (dir.sector, dir.rwOffset) = place ∧
      ∃ moved after, (fatDirGetNext dir).run state = .ok (true, moved) after ∧
        Visits (next :: rest) moved after

/-- The walk of `Visits` on the sectors of a device that answers. -/
def MovesOver (geometry : Geometry) (sectors : Nat → Sector) : List (Nat × Nat) → Dir → Prop
  | [], _ => False
  | [place], dir => (dir.sector, dir.rwOffset) = place ∧ (dir.move geometry sectors).1 = false
  | place :: next :: rest, dir => (dir.sector, dir.rwOffset) = place ∧
      (dir.move geometry sectors).1 = true ∧
      MovesOver geometry sectors (next :: rest) (dir.move geometry sectors).2

/-- Behind this sector the end test finds the end of the recorded cluster. -/
def Fires (geometry : Geometry) (recorded sector : Nat) : Prop :=
  u32 (fatClustToSect geometry recorded + geometry.clusterSize) ≤ u32 (sector + 1)

instance (geometry : Geometry) (recorded sector : Nat) :
    Decidable (Fires geometry recorded sector) := by
  unfold Fires
  infer_instance

/-- A recorded cluster number stands for these sectors: behind each of them the
end test does not fire and the next one follows on the disk, or it fires and the
table entry of the recorded cluster leads to the next one. -/
def Stands (geometry : Geometry) (sectors : Nat → Sector) : List Nat → Nat → Prop
  | [], _ => False
  | [sector], recorded => Fires geometry recorded sector ∧
      endOfChain (tableEntry geometry sectors recorded) = true
  | sector :: next :: rest, recorded =>
      if Fires geometry recorded sector then
        endOfChain (tableEntry geometry sectors recorded) = false ∧
          fatClustToSect geometry (tableEntry geometry sectors recorded) = next ∧
          Stands geometry sectors (next :: rest) (tableEntry geometry sectors recorded)
      else u32 (sector + 1) = next ∧ Stands geometry sectors (next :: rest) recorded

section Walk

variable {geometry : Geometry} {sectors : Nat → Sector} {state : FatState} {dir : Dir}

theorem visits_iff (loaded : Loaded geometry sectors state) (places : List (Nat × Nat)) :
    Visits places dir state ↔ MovesOver geometry sectors places dir := by
  induction places generalizing dir state with
  | nil => exact Iff.rfl
  | cons place rest induction =>
      rcases loaded.dirGetNext dir with ⟨after, goes, later⟩
      cases rest with
      | nil =>
          rw [Visits, MovesOver]
          generalize dir.move geometry sectors = result at goes
          constructor
          · rintro ⟨here, moved, final, ends⟩
            cases goes.symm.trans ends
            exact ⟨here, rfl⟩
          · rintro ⟨here, ends⟩
            rcases result with ⟨found, moved⟩
            change found = false at ends
            subst ends
            exact ⟨here, moved, after, goes⟩
      | cons next rest =>
          rw [Visits, MovesOver]
          generalize dir.move geometry sectors = result at goes
          constructor
          · rintro ⟨here, moved, final, walks, visits⟩
            cases goes.symm.trans walks
            exact ⟨here, rfl, (induction later).mp visits⟩
          · rintro ⟨here, walks, moves⟩
            rcases result with ⟨found, moved⟩
            change found = true at walks
            subst walks
            exact ⟨here, moved, after, goes, (induction later).mpr moves⟩

/-! ## One sector -/

theorem move_within (sectorSize : geometry.sectorSize = 512) (inside : dir.rwOffset + 32 < 512) :
    dir.move geometry sectors = (true, { dir with rwOffset := dir.rwOffset + 32 }) := by
  have next : u32 (dir.rwOffset + 32) = dir.rwOffset + 32 := u32_of_lt (by omega)
  rw [Dir.move, next, sectorSize]
  exact if_neg (Nat.not_le.mpr inside)

theorem move_over (sectorSize : geometry.sectorSize = 512) (last : dir.rwOffset = 480) :
    dir.move geometry sectors =
      if Fires geometry dir.cluster dir.sector then
        if endOfChain (tableEntry geometry sectors dir.cluster) then
          (false, { dir with rwOffset := 0, sector := u32 (dir.sector + 1) })
        else (true, { dir with
          rwOffset := 0
          cluster := tableEntry geometry sectors dir.cluster
          sector := fatClustToSect geometry (tableEntry geometry sectors dir.cluster) })
      else (true, { dir with rwOffset := 0, sector := u32 (dir.sector + 1) }) := by
  have next : u32 (480 + 32) = 512 := rfl
  rw [Dir.move, last, next, sectorSize]
  dsimp only
  rw [if_pos (Nat.le_refl 512), Nat.sub_self]
  by_cases fires : Fires geometry dir.cluster dir.sector
  · have ends : u32 (fatClustToSect geometry dir.cluster + geometry.clusterSize) ≤
        u32 (dir.sector + 1) := fires
    rw [if_pos fires, if_pos ends]
  · have goesOn : ¬ u32 (fatClustToSect geometry dir.cluster + geometry.clusterSize) ≤
        u32 (dir.sector + 1) := fires
    rw [if_neg fires, if_neg goesOn]

theorem sectorSlots_succ (sector first count : Nat) :
    sectorSlots sector first (count + 1) =
      (sector, first * 32) :: sectorSlots sector (first + 1) count := by
  rw [sectorSlots, List.range'_succ, List.map_cons]
  rfl

/-- Up to the last slot of a sector, the walk only moves the offset. -/
theorem movesOver_within (sectorSize : geometry.sectorSize = 512) (rest : List (Nat × Nat))
    {first count : Nat} (total : first + count = 15) (offset : dir.rwOffset = first * 32) :
    MovesOver geometry sectors (sectorSlots dir.sector first (count + 1) ++ rest) dir ↔
      MovesOver geometry sectors ((dir.sector, 480) :: rest) { dir with rwOffset := 480 } := by
  induction count generalizing first dir with
  | zero =>
      have last : dir.rwOffset = 480 := by omega
      have same : { dir with rwOffset := 480 } = dir := by rw [← last]
      have slots : sectorSlots dir.sector first (0 + 1) = [(dir.sector, 480)] := by
        rw [sectorSlots_succ, ← offset, last]
        rfl
      rw [same, slots]
      rfl
  | succ count induction =>
      have moves := @move_within geometry sectors dir sectorSize (by omega)
      have later := @induction { dir with rwOffset := dir.rwOffset + 32 } (first + 1) (by omega)
        (by change dir.rwOffset + 32 = _; omega)
      rw [← later, sectorSlots_succ, sectorSlots_succ dir.sector (first + 1), List.cons_append,
        List.cons_append, MovesOver, moves, offset]
      exact ⟨fun walks => walks.2.2, fun walks => ⟨rfl, rfl, walks⟩⟩

theorem slotsOf_cons (sector : Nat) (rest : List Nat) :
    slotsOf (sector :: rest) = (sector, 0) :: (sectorSlots sector 1 15 ++ slotsOf rest) := by
  rw [slotsOf, List.flatMap_cons, sectorSlots_succ, List.cons_append, Nat.zero_mul]
  rfl

theorem movesOver_start {sector : Nat} {rest : List Nat}
    (walks : MovesOver geometry sectors (slotsOf (sector :: rest)) dir) : dir.sector = sector := by
  rw [slotsOf_cons, sectorSlots_succ, List.cons_append, MovesOver] at walks
  exact congrArg Prod.fst walks.1

/-- The walk over the slots of one sector, to the end of the directory. -/
theorem movesOver_last_sector (sectorSize : geometry.sectorSize = 512) (zero : dir.rwOffset = 0) :
    MovesOver geometry sectors (slotsOf [dir.sector]) dir ↔
      Fires geometry dir.cluster dir.sector ∧
        endOfChain (tableEntry geometry sectors dir.cluster) = true := by
  have within := @movesOver_within geometry sectors dir sectorSize [] 0 15 rfl (by rw [zero])
  rw [List.append_nil] at within
  rw [slotsOf, List.flatMap_singleton, within, MovesOver, move_over sectorSize rfl]
  dsimp only
  constructor
  · rintro ⟨_, ends⟩
    split at ends
    · rename_i fires
      refine ⟨fires, ?_⟩
      split at ends
      · assumption
      · cases ends
    · cases ends
  · rintro ⟨fires, ends⟩
    rw [if_pos fires, if_pos ends]
    exact ⟨rfl, rfl⟩

/-- The walk over the slots of one sector, on to the next one. -/
theorem movesOver_next_sector (sectorSize : geometry.sectorSize = 512) (zero : dir.rwOffset = 0)
    (next : Nat) (rest : List Nat) :
    MovesOver geometry sectors (slotsOf (dir.sector :: next :: rest)) dir ↔
      if Fires geometry dir.cluster dir.sector then
        endOfChain (tableEntry geometry sectors dir.cluster) = false ∧
          MovesOver geometry sectors (slotsOf (next :: rest)) { dir with
            rwOffset := 0
            cluster := tableEntry geometry sectors dir.cluster
            sector := fatClustToSect geometry (tableEntry geometry sectors dir.cluster) }
      else MovesOver geometry sectors (slotsOf (next :: rest))
        { dir with rwOffset := 0, sector := u32 (dir.sector + 1) } := by
  have within := @movesOver_within geometry sectors dir sectorSize
    (slotsOf (next :: rest)) 0 15 rfl (by rw [zero])
  have split : slotsOf (dir.sector :: next :: rest) =
      sectorSlots dir.sector 0 16 ++ slotsOf (next :: rest) := rfl
  have head := slotsOf_cons next rest
  rw [split, within, head, MovesOver, ← head, move_over sectorSize rfl]
  dsimp only
  by_cases fires : Fires geometry dir.cluster dir.sector
  · rw [if_pos fires, if_pos fires]
    cases ends : endOfChain (tableEntry geometry sectors dir.cluster) with
    | true => simp
    | false => simp
  · rw [if_neg fires, if_neg fires]
    exact ⟨fun walks => walks.2.2, fun walks => ⟨rfl, rfl, walks⟩⟩

/-- The slots of some sectors are walked over exactly if the recorded cluster
stands for them. -/
theorem movesOver_iff (sectorSize : geometry.sectorSize = 512) :
    ∀ (list : List Nat) (dir : Dir), dir.rwOffset = 0 → list.head? = some dir.sector →
      (MovesOver geometry sectors (slotsOf list) dir ↔
        Stands geometry sectors list dir.cluster)
  | [], dir, _, start => by cases start
  | [sector], dir, zero, start => by
      cases start
      exact movesOver_last_sector sectorSize zero
  | sector :: next :: rest, dir, zero, start => by
      cases start
      have later : ∀ dir : Dir, dir.rwOffset = 0 →
          (MovesOver geometry sectors (slotsOf (next :: rest)) dir ↔
            dir.sector = next ∧ Stands geometry sectors (next :: rest) dir.cluster) := by
        intro dir zero
        constructor
        · intro walks
          have here := movesOver_start walks
          exact ⟨here, (movesOver_iff sectorSize _ dir zero (by rw [here]; rfl)).mp walks⟩
        · rintro ⟨here, stands⟩
          exact (movesOver_iff sectorSize _ dir zero (by rw [here]; rfl)).mpr stands
      rw [movesOver_next_sector sectorSize zero, later _ rfl, later _ rfl]
      exact Iff.rfl

/-! ## The chain's own clusters -/

theorem fires_iff {extent : Extent} (chain : DirectoryChain geometry sectors extent)
    {index : Nat} (bound : index < extent.clusters * geometry.clusterSize) :
    Fires geometry (extent.cluster (index / geometry.clusterSize))
        (fileSector geometry extent index) ↔
      index % geometry.clusterSize + 1 = geometry.clusterSize := by
  have inside : index / geometry.clusterSize < extent.clusters :=
    Nat.div_lt_of_lt_mul (by rwa [Nat.mul_comm])
  have placed := chain.placed _ inside
  have offset := Nat.mod_lt index chain.clusterSize
  rw [Fires, chain.toWellFormed.fatClustToSect_eq inside, fileSector, u32_of_lt (by omega),
    u32_of_lt (by omega)]
  omega

/-- The clusters of the chain stand for their own sectors. -/
theorem stands_chain {extent : Extent} (chain : DirectoryChain geometry sectors extent) :
    ∀ (count index : Nat), index + count + 1 = extent.clusters * geometry.clusterSize →
      Stands geometry sectors ((List.range' index (count + 1)).map (fileSector geometry extent))
        (extent.cluster (index / geometry.clusterSize))
  | 0, index, total => by
      have total : index + 1 = extent.clusters * geometry.clusterSize := total
      have whole : (index + 1) % geometry.clusterSize = 0 := by
        rw [total]
        exact Nat.mul_mod_left ..
      have last : (index + 1) / geometry.clusterSize = extent.clusters := by
        rw [total]
        exact Nat.mul_div_cancel _ chain.clusterSize
      rcases succ_index index chain.clusterSize with inside | ⟨full, next, _⟩
      · omega
      · have here : index / geometry.clusterSize = extent.clusters - 1 :=
          Nat.eq_sub_of_add_eq (next.symm.trans last)
        have bound : index < extent.clusters * geometry.clusterSize := by
          rw [← total]
          exact Nat.lt_succ_self index
        refine ⟨(fires_iff chain bound).mpr full, ?_⟩
        rw [here]
        exact chain.ended
  | count + 1, index, total => by
      have bound : index < extent.clusters * geometry.clusterSize := by omega
      have nextBound : index + 1 < extent.clusters * geometry.clusterSize := by omega
      have inside : (index + 1) / geometry.clusterSize < extent.clusters :=
        Nat.div_lt_of_lt_mul (by rwa [Nat.mul_comm])
      have later := stands_chain chain count (index + 1) (by omega)
      rw [List.range'_succ, List.range'_succ, List.map_cons, List.map_cons, Stands]
      rw [List.range'_succ, List.map_cons] at later
      rcases succ_index index chain.clusterSize with ⟨within, same, step⟩ | ⟨full, next, start⟩
      · have placed := chain.placed _ inside
        rw [if_neg (by rw [fires_iff chain bound]; omega)]
        rw [same] at later
        refine ⟨?_, later⟩
        rw [same] at placed
        rw [fileSector, fileSector, same, step, u32_of_lt (by omega), Nat.add_assoc]
      · rw [next] at inside later
        have here : index / geometry.clusterSize < extent.clusters := by omega
        rw [if_pos ((fires_iff chain bound).mpr full), chain.linked _ inside]
        refine ⟨chain.toWellFormed.not_endOfChain inside, ?_, later⟩
        rw [chain.toWellFormed.fatClustToSect_eq inside, fileSector, next, start]
        rfl

/-- The walk from the start of a directory visits its chain exactly if the
recorded cluster stands for the sectors of the chain. -/
theorem visits_chain_iff (loaded : Loaded geometry sectors state) {extent : Extent}
    (chain : DirectoryChain geometry sectors extent) (offset : dir.rwOffset = 0)
    (start : dir.sector = firstSector geometry (extent.cluster 0)) :
    Visits (slotsOf (chainSectors geometry extent)) dir state ↔
      Stands geometry sectors (chainSectors geometry extent) dir.cluster := by
  rw [visits_iff loaded]
  apply movesOver_iff chain.sectorSize _ _ offset
  have some_ : extent.clusters * geometry.clusterSize ≠ 0 :=
    Nat.mul_ne_zero (Nat.ne_of_gt chain.nonempty) (Nat.ne_of_gt chain.clusterSize)
  rcases Nat.exists_eq_succ_of_ne_zero some_ with ⟨count, sameCount⟩
  rw [chainSectors, sameCount, List.range_succ_eq_map, List.map_cons, List.head?_cons, start,
    fileSector, Nat.zero_div, Nat.zero_mod, Nat.add_zero]

theorem stands_own {extent : Extent} (chain : DirectoryChain geometry sectors extent) :
    Stands geometry sectors (chainSectors geometry extent) (extent.cluster 0) := by
  have some_ : extent.clusters * geometry.clusterSize ≠ 0 :=
    Nat.mul_ne_zero (Nat.ne_of_gt chain.nonempty) (Nat.ne_of_gt chain.clusterSize)
  rcases Nat.exists_eq_succ_of_ne_zero some_ with ⟨count, sameCount⟩
  have stands := stands_chain chain count 0 (by omega)
  have total : count + 1 = extent.clusters * geometry.clusterSize := sameCount.symm
  rwa [Nat.zero_div, total, ← List.range_eq_range'] at stands

end Walk

/-! ## The directories that a path leads to -/

/-- What `fat_follow_path` searches for: the rest of the path from each of the
fragments on that it takes for directories. -/
def searches : Nat → List UInt8 → List (List UInt8)
  | 0, _ => []
  | turns + 1, path =>
      match path.dropWhile (· ≠ slash) with
      | [] => []
      | [_] => []
      | _ :: path =>
          if dot ∈ path.takeWhile (· ≠ slash) then [] else path :: searches turns path

def fragSize (path : List UInt8) : Nat := (path.takeWhile (· ≠ slash)).length % 2 ^ 8

/-- All of these searches stop at an entry, the last one at that of `final`. -/
inductive FindsAll (geometry : Geometry) (sectors : Nat → Sector) :
    Dir → List (List UInt8) → Dir → Prop where
  | nil (dir : Dir) : FindsAll geometry sectors dir [] dir
  | cons {dir final : Dir} {path : List UInt8} {paths : List (List UInt8)} {slots : List Slot}
      {slot : Slot} : Entries geometry sectors dir slots →
      StopsAt path (fragSize path) 0 true slots slot →
      FindsAll geometry sectors (slot.opened geometry) paths final →
      FindsAll geometry sectors dir (path :: paths) final

section Path

variable {geometry : Geometry} {sectors : Nat → Sector} {state : FatState} {dir final : Dir}

theorem FindsAll.opened {paths : List (List UInt8)}
    (finds : FindsAll geometry sectors dir paths final) (some_ : paths ≠ []) :
    ∃ slot, final = Slot.opened geometry slot := by
  induction finds with
  | nil => exact absurd rfl some_
  | @cons dir final path paths slots slot _ _ rest induction =>
      cases paths with
      | nil =>
          cases rest
          exact ⟨slot, rfl⟩
      | cons next others => exact induction (List.cons_ne_nil _ _)

theorem searches_cons {turns : Nat} {path next : List UInt8} {others : List (List UInt8)}
    (some_ : searches (turns + 1) path = next :: others) :
    ∃ first, path.dropWhile (· ≠ slash) = first :: next ∧ next ≠ [] ∧
      dot ∉ next.takeWhile (· ≠ slash) ∧ others = searches turns next := by
  rw [searches] at some_
  generalize path.dropWhile (· ≠ slash) = text at some_
  cases text with
  | nil => cases some_
  | cons first rest =>
      cases rest with
      | nil => cases some_
      | cons char rest =>
          dsimp only at some_
          by_cases dotted : dot ∈ (char :: rest).takeWhile (· ≠ slash)
          · rw [if_pos dotted] at some_
            cases some_
          · rw [if_neg dotted] at some_
            cases some_
            exact ⟨first, rfl, List.cons_ne_nil _ _, dotted, rfl⟩

/-- Where there is nothing to search for, the loop stays at the directory. -/
theorem run_followLoop_nil {turns : Nat} {path : List UInt8}
    (none_ : searches (turns + 1) path = []) (rounds : Nat) :
    (followLoop rounds (turns + 1) dir path).run state = .ok (.ok, dir) state := by
  rw [searches] at none_
  rw [followLoop]
  generalize path.dropWhile (· ≠ slash) = text at none_
  cases text with
  | nil => rfl
  | cons first rest =>
      cases rest with
      | nil => rfl
      | cons char rest =>
          dsimp only at none_
          by_cases dotted : dot ∈ (char :: rest).takeWhile (· ≠ slash)
          · exact congrArg (EStateM.run · state) (if_pos dotted)
          · rw [if_neg dotted] at none_
            cases none_

/-- Where all searches find something, the loop leads to the last directory. -/
theorem run_followLoop_found {turns : Nat} {path : List UInt8}
    (finds : FindsAll geometry sectors dir (searches turns path) final)
    (loaded : Loaded geometry sectors state) (start : dir.startSect = dir.sector)
    (long : path.length < turns) : ∃ enough after, Loaded geometry sectors after ∧
      ∀ rounds, enough ≤ rounds →
        (followLoop rounds turns dir path).run state = .ok (.ok, final) after := by
  induction turns generalizing dir path state with
  | zero => cases long
  | succ turns induction =>
      generalize searched : searches (turns + 1) path = paths at finds
      cases finds with
      | nil => exact ⟨0, state, loaded, fun rounds _ => run_followLoop_nil searched rounds⟩
      | @cons _ _ next others slots slot entries stops rest =>
          rcases searches_cons searched with ⟨first, fragment, some_, undotted, rfl⟩
          rcases run_searchLoop loaded.working (.inl loaded.buffer) entries stops with
            ⟨found, later, searchRuns⟩
          have bound : next.length < turns := by
            have shorter := List.length_dropWhile_le (· ≠ slash) path
            rw [fragment, List.length_cons] at shorter
            omega
          rcases induction rest later rfl bound with ⟨enough, after, still, follows⟩
          refine ⟨max slots.length enough, after, still, ?_⟩
          intro rounds many
          have search := (fatDirSearch_start start rounds _ _ state).trans
            (searchRuns rounds (le_trans (le_max_left ..) many))
          rcases List.exists_cons_of_ne_nil some_ with ⟨char, behind, rfl⟩
          rw [followLoop, fragment]
          dsimp only
          rw [if_neg undotted]
          refine (Exec.run_bind_of_ok search).trans ?_
          exact follows rounds (le_trans (le_max_right ..) many)

/-- The walk over a directory that a path leads to visits the slots of its chain
exactly if a fragment named the directory, or it is the root and the number that
is recorded for it happens to stand for its chain. -/
theorem dir_get_next_visits_chain_iff
    (loaded : Loaded state.volume.toGeometry state.logical state) (letter : UInt8)
    (rest : List UInt8)
    (reached : FindsAll state.volume.toGeometry state.logical
      (followRoot state.volume.toGeometry dir) (searches (rest.length + 4) (slash :: rest)) final)
    {extent : Extent} (chain : DirectoryChain state.volume.toGeometry state.logical extent)
    (own : extent.cluster 0 = if searches (rest.length + 4) (slash :: rest) = [] then
      fatSectToClust state.volume.toGeometry state.volume.rootLba else final.cluster)
    (rooted : state.volume.rootLba = firstSector state.volume.toGeometry
      (fatSectToClust state.volume.toGeometry state.volume.rootLba)) :
    ∃ rounds after,
      (fatFollowPath letter rounds dir (letter :: colon :: slash :: rest)).run state =
        .ok (.ok, final) after ∧
      (Visits (slotsOf (chainSectors state.volume.toGeometry extent)) final after ↔
        searches (rest.length + 4) (slash :: rest) ≠ [] ∨
          Stands state.volume.toGeometry state.logical
            (chainSectors state.volume.toGeometry extent)
            (fatClustToSect state.volume.toGeometry state.volume.rootLba)) := by
  rcases run_followLoop_found reached loaded rfl (by simp) with ⟨enough, after, later, follows⟩
  refine ⟨enough, after, ?_, ?_⟩
  · rw [fatFollowPath, if_neg (by simp), Exec.run_bind_of_ok (EStateM.run_get state)]
    exact follows enough (Nat.le_refl _)
  · by_cases none_ : searches (rest.length + 4) (slash :: rest) = []
    · rw [none_] at reached
      rw [if_pos none_] at own
      cases reached
      have start : state.volume.rootLba =
          firstSector state.volume.toGeometry (extent.cluster 0) := by
        rw [own]
        exact rooted
      rw [visits_chain_iff later chain rfl start]
      exact (or_iff_right (not_not.mpr none_)).symm
    · rcases reached.opened none_ with ⟨slot, opened⟩
      rw [if_neg none_] at own
      have start : final.sector =
          firstSector state.volume.toGeometry (extent.cluster 0) := by
        rw [← chain.toWellFormed.fatClustToSect_eq chain.nonempty, own, opened]
        rfl
      rw [visits_chain_iff later chain (by rw [opened]; rfl) start, ← own]
      exact ⟨fun _ => .inl none_, fun _ => stands_own chain⟩

end Path

/-! ## A root directory of one cluster -/

/-- A volume whose table ends every chain. -/
def mountedClusters : FatState :=
  { lastClusters with volume.buffer := .replicate 512 0xFF }

def rootCluster : Extent := ⟨0, 1, fun _ => 2⟩

def rootPath : List UInt8 := [0x43, colon, slash]

def noDir : Dir := ⟨0, 0, 0, 0, 0⟩

theorem mountedClusters_loaded :
    Loaded mountedClusters.volume.toGeometry mountedClusters.logical mountedClusters where
  working := ⟨rfl, rfl, fun _ _ => rfl, fun _ => rfl⟩
  buffer := rfl

/-- The first cluster is a directory of its own where the table ends its chain. -/
theorem rootCluster_chain {sectors : Nat → Sector}
    (ended : endOfChain (tableEntry blankVolume.volume.toGeometry sectors 2) = true) :
    DirectoryChain blankVolume.volume.toGeometry sectors rootCluster where
  sectorSize := rfl
  clusterSize := by decide
  tablePlaced := by decide
  dataPlaced := by decide
  data _ _ := Nat.le_refl 2
  below _ _ := (by decide : 2 < 0xFFFFFF8)
  placed _ _ := (by decide : 72 < 2 ^ 32)
  listed _ _ := (by decide : 32 + 2 / 128 < 2 ^ 32)
  linked index bound := absurd (show index + 1 < 1 from bound) (by omega)
  held := Nat.zero_le _
  sizeBound := by decide
  nonempty := Nat.one_pos
  ended := ended

theorem mountedClusters_chain :
    DirectoryChain mountedClusters.volume.toGeometry mountedClusters.logical rootCluster :=
  rootCluster_chain rfl

theorem dir_get_next_visits_chain_iff_root :
    ∃ rounds after,
      (fatFollowPath 0x43 rounds noDir rootPath).run mountedClusters =
        .ok (.ok, followRoot mountedClusters.volume.toGeometry noDir) after ∧
      (Visits (slotsOf (chainSectors mountedClusters.volume.toGeometry rootCluster))
        (followRoot mountedClusters.volume.toGeometry noDir) after ↔
          searches 4 [slash] ≠ [] ∨
            Stands mountedClusters.volume.toGeometry mountedClusters.logical
              (chainSectors mountedClusters.volume.toGeometry rootCluster)
              (fatClustToSect mountedClusters.volume.toGeometry 64)) :=
  dir_get_next_visits_chain_iff mountedClusters_loaded 0x43 [] (.nil _) mountedClusters_chain rfl rfl

/-- The walk over the root directory leaves its only cluster. -/
theorem root_walk_leaves_chain :
    DirectoryChain mountedClusters.volume.toGeometry mountedClusters.logical rootCluster ∧
      ∃ after,
        (fatFollowPath 0x43 1 noDir rootPath).run mountedClusters =
          .ok (.ok, followRoot mountedClusters.volume.toGeometry noDir) after ∧
        ¬ Visits (slotsOf (chainSectors mountedClusters.volume.toGeometry rootCluster))
          (followRoot mountedClusters.volume.toGeometry noDir) after := by
  refine ⟨mountedClusters_chain, mountedClusters, rfl, ?_⟩
  rw [visits_chain_iff mountedClusters_loaded mountedClusters_chain rfl rfl]
  -- The number recorded for the root is 560, far behind its sectors 64 to 71.
  have sectors : chainSectors mountedClusters.volume.toGeometry rootCluster =
      [64, 65, 66, 67, 68, 69, 70, 71] := rfl
  rw [sectors]
  simp only [Stands]
  intro stands
  have quiet : ∀ sector < 72, ¬ Fires mountedClusters.volume.toGeometry
      (followRoot mountedClusters.volume.toGeometry noDir).cluster sector := by decide
  simp only [quiet, if_neg, Nat.reduceLT, not_false_eq_true, false_and, and_false] at stands

end Vanilla.Disk
