import Vanilla.Disk.Cache
import Vanilla.Disk.File

namespace Vanilla.Disk

/-! Reads and jumps see a file as one sequence of bytes, the sectors of its
cluster chain in order. -/

/-- Where a file lies: its size and its chain of clusters. -/
structure Extent where
  size : Nat
  clusters : Nat
  cluster : Nat → Nat

def tableEntry (geometry : Geometry) (sectors : Nat → Sector) (cluster : Nat) : Nat :=
  (sectors (tableSector geometry cluster)).load32 (cluster % 128 * 4)

/-- The first sector of a data cluster. -/
def firstSector (geometry : Geometry) (cluster : Nat) : Nat :=
  geometry.dataLba + (cluster - 2) * geometry.clusterSize

/-- The sector that holds the file's `index`-th 512 bytes. -/
def fileSector (geometry : Geometry) (extent : Extent) (index : Nat) : Nat :=
  firstSector geometry (extent.cluster (index / geometry.clusterSize)) +
    index % geometry.clusterSize

def fileByte (geometry : Geometry) (sectors : Nat → Sector) (extent : Extent)
    (offset : Nat) : UInt8 :=
  (sectors (fileSector geometry extent (offset / 512))).load8 (offset % 512)

/-- A file on a well-formed volume: the clusters of its chain are data clusters
whose sectors and table entries have 32-bit numbers, each entry names the next
cluster, and the chain holds the size. -/
structure WellFormed (geometry : Geometry) (sectors : Nat → Sector) (extent : Extent) :
    Prop where
  sectorSize : geometry.sectorSize = 512
  clusterSize : 0 < geometry.clusterSize
  tablePlaced : 0 < geometry.fatLba
  dataPlaced : 0 < geometry.dataLba
  data : ∀ index, index < extent.clusters → 2 ≤ extent.cluster index
  below : ∀ index, index < extent.clusters → extent.cluster index < 0xFFFFFF8
  placed : ∀ index, index < extent.clusters →
    firstSector geometry (extent.cluster index) + geometry.clusterSize < 2 ^ 32
  listed : ∀ index, index < extent.clusters →
    geometry.fatLba + extent.cluster index / 128 < 2 ^ 32
  linked : ∀ index, index + 1 < extent.clusters →
    tableEntry geometry sectors (extent.cluster index) = extent.cluster (index + 1)
  held : extent.size ≤ extent.clusters * geometry.clusterSize * 512
  sizeBound : extent.size < 2 ^ 32

namespace WellFormed

variable {geometry : Geometry} {sectors : Nat → Sector} {extent : Extent}

theorem fatClustToSect_eq (formed : WellFormed geometry sectors extent) {index : Nat}
    (bound : index < extent.clusters) :
    fatClustToSect geometry (extent.cluster index) =
      firstSector geometry (extent.cluster index) := by
  have data := formed.data index bound
  have below := formed.below index bound
  have placed := formed.placed index bound
  simp only [firstSector] at placed ⊢
  rw [fatClustToSect, u32Sub_of_le (by omega) data, u32_of_lt (by omega), Nat.add_comm]

theorem fatSectToClust_eq (formed : WellFormed geometry sectors extent) {index : Nat}
    (bound : index < extent.clusters) :
    fatSectToClust geometry (firstSector geometry (extent.cluster index)) =
      extent.cluster index := by
  have data := formed.data index bound
  have below := formed.below index bound
  have placed := formed.placed index bound
  simp only [firstSector] at placed ⊢
  rw [fatSectToClust, u32Sub_of_le (by omega) (Nat.le_add_right ..), Nat.add_sub_cancel_left,
    Nat.mul_div_cancel _ formed.clusterSize, u32_of_lt (by omega)]
  omega

theorem tableSector_ne_zero (formed : WellFormed geometry sectors extent) {index : Nat}
    (bound : index < extent.clusters) :
    tableSector geometry (extent.cluster index) ≠ 0 := by
  have placed := formed.tablePlaced
  rw [tableSector, u32_of_lt (formed.listed index bound)]
  omega

theorem not_endOfChain (formed : WellFormed geometry sectors extent) {index : Nat}
    (bound : index < extent.clusters) : endOfChain (extent.cluster index) = false := by
  have below := formed.below index bound
  simp only [endOfChain, decide_eq_false_iff_not]
  omega

theorem fileSector_ne_zero (formed : WellFormed geometry sectors extent) (index : Nat) :
    fileSector geometry extent index ≠ 0 := by
  have placed := formed.dataPlaced
  simp only [fileSector, firstSector]
  omega

/-- The sector of a byte of the file lies in a cluster of the chain. -/
theorem cluster_lt (formed : WellFormed geometry sectors extent) {offset : Nat}
    (bound : offset < extent.size) :
    offset / 512 / geometry.clusterSize < extent.clusters := by
  have held := formed.held
  rw [Nat.div_lt_iff_lt_mul formed.clusterSize, Nat.div_lt_iff_lt_mul (by decide)]
  omega

end WellFormed

/-! ## The position of a file object -/

/-- The position says `offset`: a sector of the file and at most 512 bytes into
it. The end of a sector stands for the start of the next one until a byte is
wanted. -/
structure AtOffset (geometry : Geometry) (extent : Extent) (file : File) (offset : Nat) :
    Prop where
  size : file.size = extent.size
  startSect : file.startSect = firstSector geometry (extent.cluster 0)
  globOffset : file.globOffset = offset
  position : ∃ index, offset = index * 512 + file.rwOffset ∧ file.rwOffset ≤ 512 ∧
    index / geometry.clusterSize < extent.clusters ∧
    file.cluster = extent.cluster (index / geometry.clusterSize) ∧
    file.sector = fileSector geometry extent index

theorem AtOffset.sector_ne_zero {geometry : Geometry} {sectors : Nat → Sector}
    {extent : Extent} {file : File} {offset : Nat} (at_ : AtOffset geometry extent file offset)
    (formed : WellFormed geometry sectors extent) : file.sector ≠ 0 := by
  rcases at_.position with ⟨index, -, -, -, -, sector⟩
  rw [sector]
  exact formed.fileSector_ne_zero index

/-! ## A volume whose device works -/

/-- The volume in use: its logical disk is `sectors` and no transfer fails. -/
structure Working (geometry : Geometry) (sectors : Nat → Sector) (state : FatState) :
    Prop where
  geometry : state.volume.toGeometry = geometry
  logical : state.logical = sectors
  coherent : state.Coherent
  fails : ∀ transfer, state.device.fails transfer = false

section Working

variable {geometry : Geometry} {sectors : Nat → Sector} {extent : Extent}
  {state : FatState}

theorem Working.of_transparent {after : FatState} (working : Working geometry sectors state)
    (quiet : Transparent state after) : Working geometry sectors after where
  geometry := quiet.geometry.trans working.geometry
  logical := quiet.logical.trans working.logical
  coherent := quiet.coherent
  fails := quiet.fails ▸ working.fails

theorem Working.not_failed (working : Working geometry sectors state) :
    ¬ ∃ transfer, state.device.fails transfer = true := by
  intro failed
  rcases failed with ⟨transfer, failed⟩
  rw [working.fails transfer] at failed
  cases failed

theorem Working.fatRead (working : Working geometry sectors state) (lba : Nat) :
    ∃ after, (fatRead lba).run state = .ok true after ∧ Working geometry sectors after ∧
      after.volume.bufferLba = lba := by
  rcases fatRead_spec working.coherent lba with ⟨cached, after, read, quiet, held, refused⟩
  cases cached with
  | false => exact absurd (refused rfl) working.not_failed
  | true => exact ⟨after, read, working.of_transparent quiet, held rfl⟩

/-- Following the chain from a cluster that is not the last. -/
theorem Working.fatTableGet (working : Working geometry sectors state)
    (formed : WellFormed geometry sectors extent) {index : Nat}
    (bound : index + 1 < extent.clusters) :
    ∃ after, (fatTableGet (extent.cluster index)).run state =
      .ok (some (extent.cluster (index + 1))) after ∧ Working geometry sectors after := by
  rcases fatTableGet_spec working.coherent (extent.cluster index) with
    ⟨entry, after, get, quiet, holds, refused⟩
  cases entry with
  | none => exact absurd (refused rfl) working.not_failed
  | some value =>
      have here : index < extent.clusters := Nat.lt_of_succ_lt bound
      have real := formed.tableSector_ne_zero here
      have found := holds value rfl
      rw [working.geometry, working.logical] at found
      have linked := formed.linked index bound
      rw [tableEntry] at linked
      rw [found real, linked] at get
      exact ⟨after, get, working.of_transparent quiet⟩

theorem Working.buffered (working : Working geometry sectors state) {lba : Nat}
    (cached : state.volume.bufferLba = lba) (real : lba ≠ 0) :
    state.volume.buffer = sectors lba := by
  rw [← working.logical, ← cached]
  exact working.coherent.buffer_eq (cached ▸ real)

end Working

/-! ## The next byte -/

/-- One sector further in the file: in the same cluster, or at the start of the
next one. -/
theorem succ_index {clusterSize : Nat} (index : Nat) (positive : 0 < clusterSize) :
    (index % clusterSize + 1 < clusterSize ∧
      (index + 1) / clusterSize = index / clusterSize ∧
      (index + 1) % clusterSize = index % clusterSize + 1) ∨
    (index % clusterSize + 1 = clusterSize ∧
      (index + 1) / clusterSize = index / clusterSize + 1 ∧
      (index + 1) % clusterSize = 0) := by
  have bound := Nat.mod_lt index positive
  have split := Nat.div_add_mod index clusterSize
  rcases Nat.lt_or_ge (index % clusterSize + 1) clusterSize with inside | outside
  · have unique := (Nat.div_mod_unique (a := index + 1) positive).mpr
      ⟨show index % clusterSize + 1 + clusterSize * (index / clusterSize) = index + 1 by omega,
        inside⟩
    exact .inl ⟨inside, unique.1, unique.2⟩
  · have unique := (Nat.div_mod_unique (a := index + 1) (c := 0)
      (d := index / clusterSize + 1) positive).mpr
      ⟨by rw [Nat.mul_add]; omega, positive⟩
    exact .inr ⟨by omega, unique.1, unique.2⟩

section Positions

variable {geometry : Geometry} {sectors : Nat → Sector} {extent : Extent}
  {state : FatState} {file : File} {offset : Nat}

/-- Resolving the end of a sector inside the file moves to the next sector,
through the table where the cluster ends. -/
theorem fatFileAddrResolve_spec (working : Working geometry sectors state)
    (formed : WellFormed geometry sectors extent)
    (placed : AtOffset geometry extent file offset) (inside : offset < extent.size)
    (full : 512 ≤ file.rwOffset) :
    ∃ moved after, (fatFileAddrResolve file).run state = .ok (true, moved) after ∧
      Working geometry sectors after ∧ AtOffset geometry extent moved offset ∧
      moved.rwOffset < 512 := by
  rcases placed.position with ⟨index, offsetEq, rwBound, clusterBound, cluster, sector⟩
  have rw512 : file.rwOffset = 512 := Nat.le_antisymm rwBound full
  have nextOffset : offset = (index + 1) * 512 + (file.rwOffset - 512) := by
    rw [offsetEq, rw512, Nat.sub_self, Nat.add_zero, Nat.succ_mul]
  have start512 : file.rwOffset - 512 < 512 := by
    rw [rw512]
    decide
  have nextBound := formed.cluster_lt inside
  rw [offsetEq, rw512, show (index * 512 + 512) / 512 = index + 1 by omega] at nextBound
  have first := formed.fatClustToSect_eq clusterBound
  have sectors32 := formed.placed _ clusterBound
  have modBound := Nat.mod_lt index formed.clusterSize
  have next : u32 (file.sector + 1) = file.sector + 1 := by
    apply u32_of_lt
    rw [sector, fileSector]
    omega
  have limit : u32 (fatClustToSect geometry file.cluster + geometry.clusterSize) =
      firstSector geometry file.cluster + geometry.clusterSize := by
    rw [cluster, first, u32_of_lt sectors32]
  rw [fatFileAddrResolve, Exec.run_bind_of_ok (EStateM.run_get state), working.geometry]
  simp only [formed.sectorSize, if_pos full, next, limit]
  rcases succ_index index formed.clusterSize with same | crossed
  · rcases same with ⟨room, quotient, remainder⟩
    refine ⟨{ file with rwOffset := file.rwOffset - 512, sector := file.sector + 1 }, state,
      ?_, working, ⟨placed.size, placed.startSect, placed.globOffset, index + 1, nextOffset,
        start512.le, ?_, ?_, ?_⟩, start512⟩
    · rw [if_neg]
      · rfl
      · rw [sector, fileSector, cluster]
        omega
    · rw [quotient]
      exact clusterBound
    · rw [quotient]
      exact cluster
    · simp only [sector, fileSector, quotient, remainder]
      omega
  · rcases crossed with ⟨last, quotient, remainder⟩
    rw [quotient] at nextBound
    rcases working.fatTableGet formed nextBound with ⟨after, get, still⟩
    have start := formed.fatClustToSect_eq nextBound
    refine ⟨{ file with
      rwOffset := file.rwOffset - 512
      cluster := extent.cluster (index / geometry.clusterSize + 1)
      sector := fatClustToSect geometry (extent.cluster (index / geometry.clusterSize + 1)) },
      after, ?_, still, ⟨placed.size, placed.startSect, placed.globOffset, index + 1,
        nextOffset, start512.le, ?_, ?_, ?_⟩, start512⟩
    · rw [if_pos]
      · rw [cluster, Exec.run_bind_of_ok get]
        simp only [formed.not_endOfChain nextBound]
        rfl
      · rw [sector, fileSector, cluster]
        omega
    · rw [quotient]
      exact nextBound
    · rw [quotient]
    · simp only [start, fileSector, quotient, remainder, Nat.add_zero]

/-- Before each byte the position is resolved and its sector is in the buffer. -/
theorem nextPosition_spec (working : Working geometry sectors state)
    (formed : WellFormed geometry sectors extent)
    (placed : AtOffset geometry extent file offset) (inside : offset < extent.size)
    (cached : state.volume.bufferLba = file.sector) :
    ∃ moved after, (nextPosition 512 file).run state = .ok (true, moved) after ∧
      Working geometry sectors after ∧ AtOffset geometry extent moved offset ∧
      moved.rwOffset < 512 ∧ after.volume.bufferLba = moved.sector := by
  by_cases full : 512 ≤ file.rwOffset
  · rcases fatFileAddrResolve_spec working formed placed inside full with
      ⟨moved, middle, resolve, still, position, bound⟩
    rcases still.fatRead moved.sector with ⟨after, read, works, held⟩
    refine ⟨moved, after, ?_, works, position, bound, held⟩
    rw [nextPosition, if_pos full, Exec.run_bind_of_ok resolve, Exec.run_bind_of_ok read]
    rfl
  · refine ⟨file, state, ?_, working, placed, by omega, cached⟩
    rw [nextPosition, if_neg full]
    rfl

/-- A resolved position is inside one sector of the file. -/
theorem AtOffset.byte (placed : AtOffset geometry extent file offset)
    (bound : file.rwOffset < 512) :
    (sectors file.sector).load8 file.rwOffset = fileByte geometry sectors extent offset := by
  rcases placed.position with ⟨index, offsetEq, -, -, -, sector⟩
  rw [fileByte, sector, show offset / 512 = index by omega,
    show offset % 512 = file.rwOffset by omega]

theorem AtOffset.advance (placed : AtOffset geometry extent file offset)
    (bound : file.rwOffset < 512) :
    AtOffset geometry extent
      { file with rwOffset := file.rwOffset + 1, globOffset := offset + 1 } (offset + 1) := by
  rcases placed.position with ⟨index, offsetEq, -, clusterBound, cluster, sector⟩
  exact ⟨placed.size, placed.startSect, rfl, index, by simp only; omega, by simp only; omega,
    clusterBound, cluster, sector⟩

end Positions

/-! ## fat_file_read -/

def fileBytes (geometry : Geometry) (sectors : Nat → Sector) (extent : Extent)
    (offset count : Nat) : List UInt8 :=
  (List.range count).map fun index => fileByte geometry sectors extent (offset + index)

section Reads

variable {geometry : Geometry} {sectors : Nat → Sector} {extent : Extent}

theorem fileBytes_succ (offset count : Nat) :
    fileBytes geometry sectors extent offset (count + 1) =
      fileByte geometry sectors extent offset ::
        fileBytes geometry sectors extent (offset + 1) count := by
  simp only [fileBytes, List.range_succ_eq_map, List.map_cons, List.map_map, Nat.add_zero]
  congr 1
  apply List.map_congr_left
  intro index _
  simp only [Function.comp_apply]
  congr 1
  omega

/-- Reading on where a read stopped gives what one longer read gives. -/
theorem fileBytes_append (geometry : Geometry) (sectors : Nat → Sector) (extent : Extent)
    (offset first second : Nat) :
    fileBytes geometry sectors extent offset (first + second) =
      fileBytes geometry sectors extent offset first ++
        fileBytes geometry sectors extent (offset + first) second := by
  induction first generalizing offset with
  | zero => simp [fileBytes]
  | succ first induction =>
      rw [Nat.add_right_comm, fileBytes_succ, fileBytes_succ, induction (offset + 1),
        List.cons_append]
      congr 3
      omega

/-- How many bytes a read of `count` bytes stores. -/
def readCount (extent : Extent) (offset count : Nat) : Nat :=
  min count (extent.size - offset)

theorem run_fatLoad8 {offset : Nat} (bound : offset < 512) (state : FatState) :
    (fatLoad8 offset).run state = .ok (state.volume.buffer.load8 offset) state := by
  rw [fatLoad8, Exec.run_bind_of_ok (EStateM.run_get state), if_pos bound]
  rfl

theorem readLoop_spec (formed : WellFormed geometry sectors extent) :
    ∀ (count : Nat) {state : FatState} {file : File} {offset : Nat} (stored : List UInt8)
      (status : Nat),
      Working geometry sectors state → AtOffset geometry extent file offset →
      offset < extent.size → state.volume.bufferLba = file.sector →
      status + readCount extent offset count < 2 ^ 32 →
      ∃ moved after,
        (readLoop 512 extent.size count file stored status).run state =
          .ok ⟨.ok, moved, stored ++ fileBytes geometry sectors extent offset
            (readCount extent offset count), status + readCount extent offset count⟩ after ∧
        Working geometry sectors after ∧
        AtOffset geometry extent moved (offset + readCount extent offset count)
  | 0, state, file, offset, stored, status, working, placed, _, _, _ => by
      refine ⟨file, state, ?_, working, ?_⟩
      · simp [readLoop, readCount, fileBytes]
      · simpa [readCount] using placed
  | count + 1, state, file, offset, stored, status, working, placed, inside, cached, bound => by
      rcases nextPosition_spec working formed placed inside cached with
        ⟨position, middle, next, works, at_, rwBound, held⟩
      have sizeBound := formed.sizeBound
      have value : middle.volume.buffer.load8 position.rwOffset =
          fileByte geometry sectors extent offset := by
        rw [works.buffered held (at_.sector_ne_zero formed)]
        exact at_.byte rwBound
      have advanced := at_.advance rwBound
      have counted : readCount extent offset (count + 1) =
          readCount extent (offset + 1) count + 1 := by
        simp only [readCount]
        omega
      rw [counted] at bound ⊢
      rw [readLoop, Exec.run_bind_of_ok next]
      simp only [if_true]
      rw [Exec.run_bind_of_ok (run_fatLoad8 rwBound middle), value, at_.globOffset,
        u32_of_lt (show position.rwOffset + 1 < 2 ^ 32 by omega),
        u32_of_lt (show offset + 1 < 2 ^ 32 by omega),
        u32_of_lt (show status + 1 < 2 ^ 32 by omega)]
      by_cases finished : extent.size ≤ offset + 1
      · have none : readCount extent (offset + 1) count = 0 := by
          simp only [readCount]
          omega
        rw [none]
        refine ⟨_, middle, ?_, works, advanced⟩
        simp only [if_pos finished]
        rfl
      · rcases readLoop_spec formed count (stored ++ [fileByte geometry sectors extent offset])
          (status + 1) works advanced (by omega) held (by omega) with
          ⟨moved, after, rest, still, final⟩
        refine ⟨moved, after, ?_, still, ?_⟩
        · simp only [if_neg finished]
          rw [rest, fileBytes_succ, List.append_assoc, List.singleton_append,
            Nat.add_assoc status, Nat.add_comm 1]
        · rw [Nat.add_assoc, Nat.add_comm 1] at final
          exact final

variable {state : FatState} {file : File} {offset : Nat}

theorem fatFileRead_spec (working : Working geometry sectors state)
    (formed : WellFormed geometry sectors extent)
    (placed : AtOffset geometry extent file offset) (inside : offset < extent.size)
    (count : Nat) :
    ∃ moved after, (fatFileRead file count).run state =
        .ok ⟨.ok, moved, fileBytes geometry sectors extent offset
          (readCount extent offset count), readCount extent offset count⟩ after ∧
      Working geometry sectors after ∧
      AtOffset geometry extent moved (offset + readCount extent offset count) := by
  rcases working.fatRead file.sector with ⟨middle, read, works, held⟩
  have sizeBound := formed.sizeBound
  have bound : 0 + readCount extent offset count < 2 ^ 32 := by
    simp only [readCount]
    omega
  rcases readLoop_spec formed count [] 0 works placed inside held bound with
    ⟨moved, after, loop, still, final⟩
  refine ⟨moved, after, ?_, still, final⟩
  rw [fatFileRead, Exec.run_bind_of_ok (EStateM.run_get state), Exec.run_bind_of_ok read,
    working.geometry, formed.sectorSize, placed.size]
  simp only [if_true]
  rw [loop, Nat.zero_add, List.nil_append]

/-! ## fat_file_jump -/

theorem followChain_spec (formed : WellFormed geometry sectors extent) :
    ∀ (clusterOffset index : Nat) {state : FatState}, Working geometry sectors state →
      index + clusterOffset < extent.clusters →
      ∃ after, (followChain clusterOffset (extent.cluster index)).run state =
          .ok (.reached, extent.cluster (index + clusterOffset)) after ∧
        Working geometry sectors after
  | 0, index, state, working, _ => ⟨state, rfl, working⟩
  | clusterOffset + 1, index, state, working, bound => by
      have here : index + 1 < extent.clusters := by omega
      rcases working.fatTableGet formed here with ⟨middle, get, works⟩
      rcases followChain_spec formed clusterOffset (index + 1) works (by omega) with
        ⟨after, rest, still⟩
      refine ⟨after, ?_, still⟩
      rw [followChain, Exec.run_bind_of_ok get]
      simp only [formed.not_endOfChain here]
      rw [show index + (clusterOffset + 1) = index + 1 + clusterOffset by omega]
      exact rest

theorem fatFileJump_spec (working : Working geometry sectors state)
    (formed : WellFormed geometry sectors extent)
    (startSect : file.startSect = firstSector geometry (extent.cluster 0))
    (size : file.size = extent.size) (inside : offset < extent.size) :
    ∃ moved after, (fatFileJump file offset).run state = .ok (.ok, moved) after ∧
      Working geometry sectors after ∧ AtOffset geometry extent moved offset := by
  have bound := formed.cluster_lt inside
  have first : 0 < extent.clusters := Nat.lt_of_le_of_lt (Nat.zero_le _) bound
  have start : fatSectToClust geometry file.startSect = extent.cluster 0 := by
    rw [startSect, formed.fatSectToClust_eq first]
  have last : 0 + offset / 512 / geometry.clusterSize < extent.clusters := by
    rw [Nat.zero_add]
    exact bound
  rcases followChain_spec formed (offset / 512 / geometry.clusterSize) 0 working last with
    ⟨after, follow, works⟩
  rw [Nat.zero_add] at follow
  have placed := formed.placed _ bound
  have remainder := Nat.mod_lt (offset / 512) formed.clusterSize
  let moved : File := { file with
    cluster := extent.cluster (offset / 512 / geometry.clusterSize)
    sector := u32 (fatClustToSect geometry
      (extent.cluster (offset / 512 / geometry.clusterSize)) + offset / 512 % geometry.clusterSize)
    rwOffset := offset % 512
    globOffset := offset }
  have sector : moved.sector = fileSector geometry extent (offset / 512) := by
    simp only [moved, fileSector, formed.fatClustToSect_eq bound]
    exact u32_of_lt (by omega)
  refine ⟨moved, after, ?_, works, size, startSect, rfl, offset / 512,
    (Nat.div_add_mod' offset 512).symm, (Nat.mod_lt offset (by decide)).le, bound, rfl, sector⟩
  rw [fatFileJump, Exec.run_bind_of_ok (EStateM.run_get state), working.geometry]
  simp only [formed.sectorSize, start]
  rw [Exec.run_bind_of_ok follow]
  rfl

end Reads

/-! ## Runs of reads and jumps -/

inductive FileEvent where
  | jump (offset : Nat)
  | read (count : Nat)

/-- Jumps go inside the file and reads start inside it. -/
def FileStep (before : FatState × File) : FileEvent → FatState × File → Prop
  | .jump offset, after => offset < before.2.size ∧ ∃ status,
      (fatFileJump before.2 offset).run before.1 = .ok (status, after.2) after.1
  | .read count, after => before.2.globOffset < before.2.size ∧ ∃ read,
      (fatFileRead before.2 count).run before.1 = .ok read after.1 ∧ read.file = after.2

/-- What `fat_file_open` leaves for a file. -/
structure Opened (geometry : Geometry) (extent : Extent) (file : File) : Prop where
  size : file.size = extent.size
  startSect : file.startSect = firstSector geometry (extent.cluster 0)
  sector : file.sector = file.startSect
  cluster : file.cluster = extent.cluster 0
  rwOffset : file.rwOffset = 0
  globOffset : file.globOffset = 0

section Runs

variable {geometry : Geometry} {sectors : Nat → Sector} {extent : Extent}

theorem Opened.atOffset {file : File} (opened : Opened geometry extent file)
    (formed : WellFormed geometry sectors extent) (nonempty : 0 < extent.size) :
    AtOffset geometry extent file 0 where
  size := opened.size
  startSect := opened.startSect
  globOffset := opened.globOffset
  position := by
    have bound := formed.cluster_lt nonempty
    refine ⟨0, by rw [opened.rwOffset], by rw [opened.rwOffset]; decide, by simpa using bound,
      by simpa using opened.cluster, ?_⟩
    rw [opened.sector, opened.startSect]
    simp [fileSector]

/-- The volume works and the position of the file is some offset. -/
def Positioned (geometry : Geometry) (sectors : Nat → Sector) (extent : Extent)
    (state : FatState × File) : Prop :=
  Working geometry sectors state.1 ∧ AtOffset geometry extent state.2 state.2.globOffset

theorem Positioned.step (formed : WellFormed geometry sectors extent)
    {before after : FatState × File} {event : FileEvent}
    (positioned : Positioned geometry sectors extent before)
    (step : FileStep before event after) : Positioned geometry sectors extent after := by
  cases event with
  | jump offset =>
      rcases step with ⟨inside, status, jumps⟩
      rw [positioned.2.size] at inside
      rcases fatFileJump_spec positioned.1 formed positioned.2.startSect positioned.2.size
        inside with ⟨moved, final, returns, works, placed⟩
      rw [jumps] at returns
      cases returns
      refine ⟨works, ?_⟩
      rw [placed.globOffset]
      exact placed
  | read count =>
      rcases step with ⟨inside, read, reads, file⟩
      rw [positioned.2.size] at inside
      rcases fatFileRead_spec positioned.1 formed positioned.2 inside count with
        ⟨moved, final, returns, works, placed⟩
      rw [reads] at returns
      cases returns
      subst file
      refine ⟨works, ?_⟩
      rw [placed.globOffset]
      exact placed

/-- The bytes from `offset` on are a part of the file read whole. -/
theorem fileBytes_eq_take_drop {offset count : Nat} (inside : offset < extent.size) :
    fileBytes geometry sectors extent offset (readCount extent offset count) =
      ((fileBytes geometry sectors extent 0 extent.size).drop offset).take
        (readCount extent offset count) := by
  have bound : readCount extent offset count ≤ extent.size - offset := Nat.min_le_right ..
  have whole := fileBytes_append geometry sectors extent 0 offset (readCount extent offset count +
      (extent.size - offset - readCount extent offset count))
  have rest := fileBytes_append geometry sectors extent offset (readCount extent offset count)
      (extent.size - offset - readCount extent offset count)
  rw [show offset + (readCount extent offset count +
    (extent.size - offset - readCount extent offset count)) = extent.size by omega,
    Nat.zero_add, rest] at whole
  rw [whole, List.drop_left' (by simp [fileBytes]), List.take_left' (by simp [fileBytes])]

/-- After any reads and jumps, a jump succeeds and a read stores the part of the
file that starts at the position: how the file was cut into calls does not
matter. -/
theorem file_reads_whole_file {start state : FatState} {opened file : File}
    {events : List FileEvent} (formed : WellFormed geometry sectors extent)
    (nonempty : 0 < extent.size) (working : Working geometry sectors start)
    (open_ : Opened geometry extent opened)
    (run : Run FileStep (start, opened) events (state, file)) :
    (∀ offset, offset < extent.size → ∃ moved after,
      (fatFileJump file offset).run state = .ok (.ok, moved) after ∧
        moved.globOffset = offset) ∧
    ∀ count, file.globOffset < extent.size → ∃ moved after,
      (fatFileRead file count).run state =
        .ok ⟨.ok, moved, ((fileBytes geometry sectors extent 0 extent.size).drop
          file.globOffset).take (min count (extent.size - file.globOffset)),
          min count (extent.size - file.globOffset)⟩ after ∧
        moved.globOffset = file.globOffset + min count (extent.size - file.globOffset) := by
  have placed := open_.atOffset formed nonempty
  have positioned : Positioned geometry sectors extent (state, file) := by
    apply run.invariant (Positioned geometry sectors extent)
    · intro before event after holds step
      exact holds.step formed step
    · exact ⟨working, placed.globOffset ▸ placed⟩
  constructor
  · intro offset inside
    rcases fatFileJump_spec positioned.1 formed positioned.2.startSect positioned.2.size
      inside with ⟨moved, after, returns, -, final⟩
    exact ⟨moved, after, returns, final.globOffset⟩
  · intro count inside
    rcases fatFileRead_spec positioned.1 formed positioned.2 inside count with
      ⟨moved, after, returns, -, final⟩
    rw [fileBytes_eq_take_drop inside] at returns
    exact ⟨moved, after, returns, final.globOffset⟩

def oneByteFile : Extent where
  size := 1
  clusters := 1
  cluster := fun _ => 2

def oneByteHandle : File where
  sector := 64
  cluster := 2
  rwOffset := 0
  size := 1
  startSect := 64
  globOffset := 0

theorem oneByteFile_formed :
    WellFormed blankVolume.volume.toGeometry blankVolume.logical oneByteFile where
  sectorSize := rfl
  clusterSize := by decide
  tablePlaced := by decide
  dataPlaced := by decide
  data := fun _ _ => Nat.le_refl 2
  below := fun _ _ => by decide +revert
  placed := fun _ _ => by decide +revert
  listed := fun _ _ => by decide +revert
  linked := fun index bound => absurd bound (by simp [oneByteFile])
  held := by decide
  sizeBound := by decide

theorem file_reads_whole_file_one_byte :
    ∃ moved after, (fatFileRead oneByteHandle 3).run blankVolume =
      .ok ⟨.ok, moved, ((fileBytes blankVolume.volume.toGeometry blankVolume.logical
        oneByteFile 0 1).drop 0).take 1, 1⟩ after ∧ moved.globOffset = 1 :=
  (file_reads_whole_file oneByteFile_formed (by decide)
    ⟨rfl, rfl, (show Mounted blankVolume from ⟨rfl, rfl⟩).coherent, fun _ => rfl⟩
    ⟨rfl, rfl, rfl, rfl, rfl, rfl⟩ (.nil (blankVolume, oneByteHandle))).2 3 (by decide)

end Runs

end Vanilla.Disk
