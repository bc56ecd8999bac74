import Vanilla.Disk.FileRead

namespace Vanilla.Disk

/-! The position of a file object where there is nothing more to read, and after
a jump that cannot reach its cluster. -/

/-! ## Calls that always return -/

theorem fatFlush_returns (state : FatState) :
    ∃ flushed after, fatFlush.run state = .ok flushed after ∧
      after.volume.toGeometry = state.volume.toGeometry := by
  rw [fatFlush, Exec.run_bind_of_ok (EStateM.run_get state)]
  by_cases dirty : state.volume.bufferDirty = true
  · rw [if_pos dirty]
    have writes := run_diskWrite state
    by_cases fails : state.device.fails state.device.transfers = true
    · rw [if_pos fails] at writes
      rw [Exec.run_bind_of_ok writes]
      exact ⟨_, _, rfl, rfl⟩
    · rw [if_neg fails] at writes
      rw [Exec.run_bind_of_ok writes]
      exact ⟨_, _, rfl, rfl⟩
  · rw [if_neg dirty]
    exact ⟨_, _, rfl, rfl⟩

theorem fatRead_returns (lba : Nat) (state : FatState) :
    ∃ cached after, (fatRead lba).run state = .ok cached after ∧
      after.volume.toGeometry = state.volume.toGeometry := by
  rw [fatRead, Exec.run_bind_of_ok (EStateM.run_get state)]
  by_cases buffered : state.volume.bufferLba = lba
  · rw [if_pos buffered]
    exact ⟨_, _, rfl, rfl⟩
  · rw [if_neg buffered]
    rcases fatFlush_returns state with ⟨flushed, between, flush, same⟩
    rw [Exec.run_bind_of_ok flush]
    cases flushed with
    | false => exact ⟨_, _, rfl, same⟩
    | true =>
        rw [if_pos rfl]
        have reads := run_diskRead lba between
        by_cases fails : between.device.fails between.device.transfers = true
        · rw [if_pos fails] at reads
          rw [Exec.run_bind_of_ok reads]
          exact ⟨_, _, rfl, same⟩
        · rw [if_neg fails] at reads
          rw [Exec.run_bind_of_ok reads]
          exact ⟨_, _, rfl, same⟩

theorem fatTableGet_returns (cluster : Nat) (state : FatState) :
    ∃ entry after, (fatTableGet cluster).run state = .ok entry after := by
  rcases fatRead_returns (tableSector state.volume.toGeometry cluster) state with
    ⟨cached, between, read, _⟩
  rw [fatTableGet, Exec.run_bind_of_ok (EStateM.run_get state), Exec.run_bind_of_ok read]
  cases cached with
  | false => exact ⟨_, _, rfl⟩
  | true =>
      rw [if_pos rfl, Exec.run_bind_of_ok (run_fatLoad32 (tableOffset_bound cluster) between)]
      exact ⟨_, _, rfl⟩

/-! ## Reading at the end of a file -/

theorem readLoop_stored {sectorSize fileSize count status : Nat} {file : File}
    {stored : List UInt8} {state after : FatState} {result : ReadResult}
    (returns : (readLoop sectorSize fileSize count file stored status).run state =
      .ok result after) : ∃ more, result.stored = stored ++ more := by
  induction count generalizing file stored status state with
  | zero =>
      cases returns
      exact ⟨[], (List.append_nil _).symm⟩
  | succ count induction =>
      rw [readLoop] at returns
      rcases Exec.run_bind_ok.mp returns with ⟨position, between, _, rest⟩
      split at rest
      · rcases Exec.run_bind_ok.mp rest with ⟨byte, loaded, _, rest⟩
        dsimp only at rest
        split at rest
        · cases rest
          exact ⟨[byte], rfl⟩
        · rcases induction rest with ⟨more, appended⟩
          exact ⟨byte :: more, by rw [appended, List.append_assoc, List.singleton_append]⟩
      · cases rest
        exact ⟨[], (List.append_nil _).symm⟩

theorem fatFileAddrResolve_rwOffset {file : File} {state after : FatState}
    {resolved : Bool × File} (overflow : state.volume.sectorSize ≤ file.rwOffset)
    (returns : (fatFileAddrResolve file).run state = .ok resolved after) :
    resolved.2.rwOffset = file.rwOffset - state.volume.sectorSize := by
  rw [fatFileAddrResolve, Exec.run_bind_of_ok (EStateM.run_get state)] at returns
  dsimp only at returns
  rw [if_pos overflow] at returns
  split at returns
  · rcases Exec.run_bind_ok.mp returns with ⟨entry, between, _, rest⟩
    cases entry with
    | none =>
        cases rest
        rfl
    | some newCluster =>
        dsimp only at rest
        split at rest
        · cases rest
          rfl
        · cases rest
          rfl
  · cases returns
    rfl

/-- Where no byte can be read, the position has moved for nothing. -/
theorem nextPosition_moves {file : File} {state after : FatState} {position : Bool × File}
    (positive : 0 < state.volume.sectorSize) (refused : position.1 ≠ true)
    (returns : (nextPosition state.volume.sectorSize file).run state = .ok position after) :
    position.2 ≠ file := by
  rw [nextPosition] at returns
  split at returns
  · rename_i overflow
    rcases Exec.run_bind_ok.mp returns with ⟨resolved, moved, resolution, rest⟩
    rcases Exec.run_bind_ok.mp rest with ⟨cached, read, _, rest⟩
    cases rest
    have offset := fatFileAddrResolve_rwOffset overflow resolution
    intro same
    change resolved.2 = file at same
    rw [same] at offset
    omega
  · cases returns
    exact absurd rfl refused

/-- Either the loop stores a byte, or it moves the position. -/
theorem readLoop_moves {fileSize count : Nat} {file : File} {state after : FatState}
    {result : ReadResult} (positive : 0 < state.volume.sectorSize)
    (returns : (readLoop state.volume.sectorSize fileSize (count + 1) file [] 0).run state =
      .ok result after) : result.stored ≠ [] ∨ result.file ≠ file := by
  rw [readLoop] at returns
  rcases Exec.run_bind_ok.mp returns with ⟨position, between, next, rest⟩
  split at rest
  · rcases Exec.run_bind_ok.mp rest with ⟨byte, loaded, _, rest⟩
    dsimp only at rest
    split at rest
    · cases rest
      exact .inl (by simp)
    · rcases readLoop_stored rest with ⟨more, appended⟩
      exact .inl (by simp [appended])
  · rename_i refused
    cases rest
    exact .inr (nextPosition_moves positive refused next)

/-- At the end of the file a read stores nothing, says so and moves nothing. -/
def StableAtEnd (state : FatState) (file : File) (count : Nat) : Prop :=
  file.size ≤ file.globOffset → ∃ result after,
    (fatFileRead file count).run state = .ok result after ∧
      result.stored = [] ∧ result.status = 0 ∧ result.file = file

/-- A read at the end of a file, however its position came about, stores a byte
from behind it unless it is not asked for any or cannot read its sector. -/
theorem fat_file_read_at_end_iff {state : FatState} (positive : 0 < state.volume.sectorSize)
    (file : File) (count : Nat) : StableAtEnd state file count ↔
      file.globOffset < file.size ∨ count = 0 ∨
        ∃ after, (fatRead file.sector).run state = .ok false after := by
  rcases fatRead_returns file.sector state with ⟨cached, between, read, geometry⟩
  have sectorSize : between.volume.sectorSize = state.volume.sectorSize :=
    congrArg Geometry.sectorSize geometry
  have starts : (fatFileRead file count).run state = (if cached then
      readLoop between.volume.sectorSize file.size count file [] 0
      else pure ⟨.error, file, [], 0⟩ : Exec FatState ReadResult).run between := by
    rw [fatFileRead, Exec.run_bind_of_ok (EStateM.run_get state), Exec.run_bind_of_ok read,
      sectorSize]
  constructor
  · intro stable
    by_contra neither
    simp only [not_or, Nat.not_lt] at neither
    rcases neither with ⟨atEnd, some_, readable⟩
    rcases stable atEnd with ⟨result, after, returns, nothing, _, stays⟩
    rw [starts] at returns
    cases cached with
    | false => exact readable ⟨between, read⟩
    | true =>
        cases count with
        | zero => exact some_ rfl
        | succ count =>
            rw [← sectorSize] at positive
            cases readLoop_moves positive returns with
            | inl stores => exact stores nothing
            | inr moves => exact moves stays
  · rintro inside atEnd
    rw [starts]
    rcases inside with before | none_ | unreadable
    · exact absurd atEnd (Nat.not_le.mpr before)
    · subst none_
      cases cached with
      | false => exact ⟨_, _, rfl, rfl, rfl, rfl⟩
      | true => exact ⟨_, _, rfl, rfl, rfl, rfl⟩
    · rcases unreadable with ⟨after, refuses⟩
      cases read.symm.trans refuses
      exact ⟨_, _, rfl, rfl, rfl, rfl⟩

theorem fat_file_read_at_end_iff_none : StableAtEnd blankVolume ⟨64, 2, 0, 0, 64, 0⟩ 0 :=
  (fat_file_read_at_end_iff (by decide) _ 0).mpr (.inr (.inl rfl))

/-- A byte is read from an empty file. -/
theorem empty_file_has_a_byte : (∃ result after,
      (fatFileRead ⟨64, 2, 0, 0, 64, 0⟩ 512).run blankVolume = .ok result after ∧
        result.result = .ok ∧ result.stored = [0] ∧ result.status = 1 ∧
        result.file.globOffset = 1) ∧
    ¬ StableAtEnd blankVolume ⟨64, 2, 0, 0, 64, 0⟩ 512 := by
  have reads : ∃ result after,
      (fatFileRead ⟨64, 2, 0, 0, 64, 0⟩ 512).run blankVolume = .ok result after ∧
        result.result = .ok ∧ result.stored = [0] ∧ result.status = 1 ∧
        result.file.globOffset = 1 := ⟨_, _, rfl, rfl, by decide +kernel, rfl, rfl⟩
  refine ⟨reads, ?_⟩
  intro stable
  rcases reads with ⟨result, after, returns, _, _, status, _⟩
  rcases stable (Nat.le_refl 0) with ⟨other, _, same, _, none_, _⟩
  cases returns.symm.trans same
  rw [none_] at status
  cases status

section AtEnd

variable {geometry : Geometry} {sectors : Nat → Sector} {state : FatState} {file : File}

/-- A working device gives some table entry for every cluster. -/
theorem Working.fatTableGet_some (working : Working geometry sectors state) (cluster : Nat) :
    ∃ entry after, (Disk.fatTableGet cluster).run state = .ok (some entry) after ∧
      Working geometry sectors after := by
  rcases fatTableGet_spec working.coherent cluster with ⟨entry, after, get, quiet, -, refused⟩
  cases entry with
  | none => exact absurd (refused rfl) working.not_failed
  | some entry => exact ⟨entry, after, get, working.of_transparent quiet⟩

-- Checking this by computation would compare the sectors of two positions.
theorem globOffset_mk (sector cluster rwOffset size startSect globOffset : Nat) :
    (File.mk sector cluster rwOffset size startSect globOffset).globOffset = globOffset := rfl

/-- Whether or not the chain goes on, the offset goes back to the start of a sector. -/
theorem Working.fatFileAddrResolve_full (working : Working geometry sectors state)
    (sectorSize : geometry.sectorSize = 512) (full : file.rwOffset = 512) :
    ∃ resolved after, (fatFileAddrResolve file).run state = .ok resolved after ∧
      Working geometry sectors after ∧ resolved.2.rwOffset = 0 ∧
      resolved.2.globOffset = file.globOffset := by
  have size : state.volume.sectorSize = 512 := by
    rw [working.geometry, sectorSize]
  have start : file.rwOffset - state.volume.sectorSize = 0 := by omega
  rw [fatFileAddrResolve, Exec.run_bind_of_ok (EStateM.run_get state)]
  simp only [if_pos (show state.volume.sectorSize ≤ file.rwOffset by omega)]
  by_cases last : u32 (fatClustToSect state.volume.toGeometry file.cluster +
      state.volume.clusterSize) ≤ u32 (file.sector + 1)
  · rw [if_pos last]
    rcases working.fatTableGet_some file.cluster with ⟨entry, after, get, works⟩
    rw [Exec.run_bind_of_ok get]
    by_cases ends : endOfChain entry = true
    · simp only [if_pos ends]
      exact ⟨_, _, rfl, works, start, globOffset_mk ..⟩
    · simp only [if_neg ends]
      exact ⟨_, _, rfl, works, start, globOffset_mk ..⟩
  · rw [if_neg last]
    exact ⟨_, _, rfl, working, start, globOffset_mk ..⟩

theorem Working.nextPosition_total (working : Working geometry sectors state)
    (sectorSize : geometry.sectorSize = 512) (bound : file.rwOffset ≤ 512) :
    ∃ moved after, (nextPosition 512 file).run state = .ok (true, moved) after ∧
      Working geometry sectors after ∧ moved.rwOffset < 512 ∧
      moved.globOffset = file.globOffset := by
  rw [nextPosition]
  by_cases full : 512 ≤ file.rwOffset
  · rw [if_pos full]
    rcases working.fatFileAddrResolve_full sectorSize (Nat.le_antisymm bound full) with
      ⟨resolved, middle, resolve, works, start, same⟩
    rcases works.fatRead resolved.2.sector with ⟨after, read, still, -⟩
    rw [Exec.run_bind_of_ok resolve, Exec.run_bind_of_ok read]
    exact ⟨_, _, rfl, still, by rw [start]; decide, same⟩
  · rw [if_neg full]
    exact ⟨_, _, rfl, working, Nat.lt_of_not_le full, rfl⟩

/-- A read at or behind the end of the file stores one byte. -/
theorem Working.fatFileRead_atEnd (working : Working geometry sectors state)
    (sectorSize : geometry.sectorSize = 512) (bound : file.rwOffset ≤ 512)
    (atEnd : file.size ≤ file.globOffset) (below : file.globOffset + 1 < 2 ^ 32) (count : Nat) :
    ∃ moved byte after, (fatFileRead file (count + 1)).run state =
        .ok ⟨.ok, moved, [byte], 1⟩ after ∧ Working geometry sectors after := by
  rcases working.fatRead file.sector with ⟨middle, read, works, -⟩
  rcases works.nextPosition_total sectorSize bound with ⟨moved, after, next, still, inside, same⟩
  have size : state.volume.sectorSize = 512 := by
    rw [working.geometry, sectorSize]
  rw [fatFileRead, Exec.run_bind_of_ok (EStateM.run_get state), Exec.run_bind_of_ok read,
    if_pos rfl, size, readLoop, Exec.run_bind_of_ok next, if_pos rfl,
    Exec.run_bind_of_ok (run_fatLoad8 inside after)]
  dsimp only
  rw [same, u32_of_lt below, if_pos (by omega)]
  exact ⟨_, _, _, rfl, still⟩

end AtEnd

/-! ## Jumps -/

/-- `length` entries of the table lead from a cluster to another, each of them
read and none the last of a chain. -/
inductive Follows : FatState → Nat → Nat → FatState → Nat → Prop where
  | nil (state : FatState) (cluster : Nat) : Follows state cluster 0 state cluster
  | cons {state between after : FatState} {cluster next last length : Nat} :
      (fatTableGet cluster).run state = .ok (some next) between → endOfChain next = false →
      Follows between next length after last → Follows state cluster (length + 1) after last

/-- After some of `length` entries, the one of this cluster cannot be read. -/
def RefusesAt (state : FatState) (first length cluster : Nat) : Prop :=
  ∃ passed rest between after, length = passed + (rest + 1) ∧
    Follows state first passed between cluster ∧
    (fatTableGet cluster).run between = .ok none after

/-- After some of `length` entries, the one of this cluster ends the chain. -/
def EndsAt (state : FatState) (first length cluster : Nat) : Prop :=
  ∃ passed rest entry between after, length = passed + (rest + 1) ∧
    Follows state first passed between cluster ∧
    (fatTableGet cluster).run between = .ok (some entry) after ∧ endOfChain entry = true

section Jump

variable {state between after : FatState} {first cluster last length passed rest : Nat}

theorem Follows.run_followChain (follows : Follows state first passed between cluster)
    (rest : Nat) : (followChain (passed + rest) first).run state =
      (followChain rest cluster).run between := by
  induction follows with
  | nil state cluster => rw [Nat.zero_add]
  | cons get inside _ induction =>
      rw [Nat.add_right_comm, followChain, Exec.run_bind_of_ok get]
      dsimp only
      rw [if_neg (by simp [inside])]
      exact induction

theorem RefusesAt.step {next : Nat} (refuses : RefusesAt between next length last)
    (get : (fatTableGet cluster).run state = .ok (some next) between)
    (inside : endOfChain next = false) : RefusesAt state cluster (length + 1) last := by
  rcases refuses with ⟨passed, rest, stop, after, split, follows, refuses⟩
  exact ⟨passed + 1, rest, stop, after, by omega, .cons get inside follows, refuses⟩

theorem EndsAt.step {next : Nat} (ends : EndsAt between next length last)
    (get : (fatTableGet cluster).run state = .ok (some next) between)
    (inside : endOfChain next = false) : EndsAt state cluster (length + 1) last := by
  rcases ends with ⟨passed, rest, entry, stop, after, split, follows, found, ends⟩
  exact ⟨passed + 1, rest, entry, stop, after, by omega, .cons get inside follows, found, ends⟩

/-- The walk of a jump reaches its cluster, or stops before at an entry. -/
theorem followChain_outcome (length : Nat) (state : FatState) (first : Nat) :
    ∃ outcome after, (followChain length first).run state = .ok outcome after ∧
      (outcome.1 = .reached ∧ Follows state first length after outcome.2 ∨
        outcome.1 = .failed ∧ RefusesAt state first length outcome.2 ∨
        outcome.1 = .ended ∧ EndsAt state first length outcome.2) := by
  induction length generalizing state first with
  | zero => exact ⟨_, _, rfl, .inl ⟨rfl, .nil state first⟩⟩
  | succ length induction =>
      rcases fatTableGet_returns first state with ⟨entry, between, get⟩
      rw [followChain, Exec.run_bind_of_ok get]
      have here : length + 1 = 0 + (length + 1) := (Nat.zero_add _).symm
      cases entry with
      | none =>
          exact ⟨_, _, rfl, .inr (.inl ⟨rfl, 0, length, state, between, here, .nil _ _, get⟩)⟩
      | some next =>
          dsimp only
          cases ends : endOfChain next with
          | true =>
              rw [if_pos rfl]
              exact ⟨_, _, rfl,
                .inr (.inr ⟨rfl, 0, length, next, state, between, here, .nil _ _, get, ends⟩)⟩
          | false =>
              rw [if_neg Bool.false_ne_true]
              rcases induction between next with ⟨outcome, after, runs, shape⟩
              refine ⟨outcome, after, runs, ?_⟩
              rcases shape with ⟨isReached, follows⟩ | ⟨isFailed, refuses⟩ | ⟨isEnded, stops⟩
              · exact .inl ⟨isReached, .cons get ends follows⟩
              · exact .inr (.inl ⟨isFailed, refuses.step get ends⟩)
              · exact .inr (.inr ⟨isEnded, stops.step get ends⟩)

theorem RefusesAt.run_followChain (refuses : RefusesAt state first length cluster) :
    ∃ after, (followChain length first).run state = .ok (.failed, cluster) after := by
  rcases refuses with ⟨passed, rest, between, after, split, follows, refuses⟩
  refine ⟨after, ?_⟩
  rw [split, follows.run_followChain, followChain, Exec.run_bind_of_ok refuses]
  rfl

end Jump

/-- The number of table entries between the start of a file and an offset. -/
def clusterOffset (geometry : Geometry) (offset : Nat) : Nat :=
  offset / geometry.sectorSize / geometry.clusterSize

/-- The chain of the file leads to the cluster of the offset. -/
def Reaches (state : FatState) (file : File) (offset : Nat) : Prop :=
  ∃ after last, Follows state (fatSectToClust state.volume.toGeometry file.startSect)
    (clusterOffset state.volume.toGeometry offset) after last

/-- A jump that does not reach its cluster fails and leaves the position alone. -/
def AtomicSeek (state : FatState) (file : File) (offset : Nat) : Prop :=
  ¬ Reaches state file offset → ∃ status moved after,
    (fatFileJump file offset).run state = .ok (status, moved) after ∧ status ≠ .ok ∧
      moved.cluster = file.cluster ∧ moved.sector = file.sector ∧
      moved.rwOffset = file.rwOffset ∧ moved.globOffset = file.globOffset

/-- A jump that fails is atomic exactly when a sector of the table cannot be read,
at the cluster that the file was in before. -/
theorem fat_file_jump_atomic_iff (state : FatState) (file : File) (offset : Nat) :
    AtomicSeek state file offset ↔ Reaches state file offset ∨
      RefusesAt state (fatSectToClust state.volume.toGeometry file.startSect)
        (clusterOffset state.volume.toGeometry offset) file.cluster := by
  constructor
  · intro atomic
    apply or_iff_not_imp_left.mpr
    intro unreached
    rcases atomic unreached with ⟨status, moved, final, returns, notOk, cluster, _⟩
    rcases followChain_outcome (clusterOffset state.volume.toGeometry offset) state
      (fatSectToClust state.volume.toGeometry file.startSect) with ⟨outcome, after, runs, shape⟩
    rw [fatFileJump, Exec.run_bind_of_ok (EStateM.run_get state)] at returns
    have rest := (Exec.run_bind_of_ok runs).symm.trans returns
    rcases shape with ⟨_, follows⟩ | ⟨isFailed, refuses⟩ | ⟨isEnded, _⟩
    · exact absurd ⟨after, outcome.2, follows⟩ unreached
    · rw [isFailed] at rest
      cases rest
      rwa [← cluster]
    · rw [isEnded] at rest
      cases rest
      exact absurd rfl notOk
  · rintro (reaches | refuses) unreached
    · exact absurd reaches unreached
    · rcases refuses.run_followChain with ⟨after, runs⟩
      refine ⟨.error, file, after, ?_, by simp, rfl, rfl, rfl, rfl⟩
      rw [fatFileJump, Exec.run_bind_of_ok (EStateM.run_get state)]
      exact (Exec.run_bind_of_ok runs).trans rfl

/-- A volume whose clusters are all the last of a chain. -/
def lastClusters : FatState :=
  { blankVolume with
    device := { blankVolume.device with sector := fun _ => .replicate 512 0xFF } }

/-- A jump past the end of a file of one cluster reports success. -/
theorem jump_past_the_end_succeeds : (∃ moved after,
      (fatFileJump ⟨64, 2, 0, 100, 64, 0⟩ 4096).run lastClusters = .ok (.ok, moved) after ∧
        moved.globOffset = 0) ∧
    ¬ AtomicSeek lastClusters ⟨64, 2, 0, 100, 64, 0⟩ 4096 := by
  have jumps : ∃ moved after,
      (fatFileJump ⟨64, 2, 0, 100, 64, 0⟩ 4096).run lastClusters = .ok (.ok, moved) after ∧
        moved.globOffset = 0 := ⟨_, _, rfl, rfl⟩
  refine ⟨jumps, ?_⟩
  intro atomic
  have unreached : ¬ Reaches lastClusters ⟨64, 2, 0, 100, 64, 0⟩ 4096 := by
    rintro ⟨after, last, follows⟩
    have one : clusterOffset lastClusters.volume.toGeometry 4096 = 0 + 1 := rfl
    rw [one] at follows
    cases follows with
    | cons get inside _ =>
        have ends : ∃ between, (fatTableGet 2).run lastClusters =
            .ok (some 0xFFFFFFFF) between := ⟨_, rfl⟩
        rcases ends with ⟨between, ends⟩
        cases ends.symm.trans get
        exact absurd inside (by decide)
  rcases jumps with ⟨moved, after, returns, _⟩
  rcases atomic unreached with ⟨status, other, final, same, notOk, _⟩
  cases returns.symm.trans same
  exact notOk rfl

end Vanilla.Disk
