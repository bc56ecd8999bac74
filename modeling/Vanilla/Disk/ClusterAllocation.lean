import Vanilla.Disk.ClusterSearch

namespace Vanilla.Disk

/-! Which clusters `fat_get_cluster` takes, and what it does to the table. -/

/-- The buffer holds its sector of the logical disk. -/
structure Buffered (geometry : Geometry) (sectors : Nat → Sector) (state : FatState) : Prop where
  geometry : state.volume.toGeometry = geometry
  logical : state.logical = sectors
  coherent : state.Coherent
  buffer : state.volume.buffer = sectors state.volume.bufferLba

section Buffer

variable {geometry : Geometry} {sectors : Nat → Sector} {state after : FatState} {lba : Nat}
  {cached : Bool}

theorem fatRead_transparent (coherent : state.Coherent)
    (read : (fatRead lba).run state = .ok cached after) : Transparent state after := by
  rcases fatRead_spec coherent lba with ⟨_, _, returns, quiet, -⟩
  rw [read] at returns
  cases returns
  exact quiet

theorem fatRead_tag (coherent : state.Coherent)
    (read : (fatRead lba).run state = .ok true after) : after.volume.bufferLba = lba := by
  rcases fatRead_spec coherent lba with ⟨_, _, returns, -, held, -⟩
  rw [read] at returns
  cases returns
  exact held rfl

/-- The first read of a call. -/
theorem fatRead_buffered (same : state.volume.toGeometry = geometry) (coherent : state.Coherent)
    (real : lba ≠ 0) (read : (fatRead lba).run state = .ok true after) :
    Buffered geometry state.logical after ∧ after.volume.bufferLba = lba := by
  have quiet := fatRead_transparent coherent read
  have tag := fatRead_tag coherent read
  refine ⟨⟨quiet.geometry.trans same, quiet.logical, quiet.coherent, ?_⟩, tag⟩
  rw [quiet.buffer_eq tag real, tag]

/-- A sector that is fetched comes from the device, whatever its number. -/
theorem fatRead_fetched (coherent : state.Coherent) (other : state.volume.bufferLba ≠ lba)
    (read : (fatRead lba).run state = .ok true after) :
    after.volume.buffer = state.logical lba := by
  rw [fatRead, Exec.run_bind_of_ok (EStateM.run_get state), if_neg other] at read
  rcases fatFlush_spec coherent with ⟨flushed, middle, flush, quiet, clean, -, -⟩
  rw [Exec.run_bind_of_ok flush] at read
  cases flushed with
  | false => cases read
  | true =>
      have fetched := run_diskRead lba middle
      have device : middle.logical = middle.device.sector := WriteBack.logical_of_clean (clean rfl)
      rw [if_pos rfl] at read
      cases failed : middle.device.fails middle.device.transfers with
      | true =>
          rw [if_pos failed] at fetched
          rw [Exec.run_bind_of_ok fetched] at read
          cases read
      | false =>
          rw [if_neg (by simp [failed])] at fetched
          rw [Exec.run_bind_of_ok fetched] at read
          cases read
          rw [← quiet.logical, device]

theorem Buffered.read (buffered : Buffered geometry sectors state)
    (read : (fatRead lba).run state = .ok true after) :
    Buffered geometry sectors after ∧ after.volume.buffer = sectors lba := by
  have quiet := fatRead_transparent buffered.coherent read
  have tag := fatRead_tag buffered.coherent read
  have buffer : after.volume.buffer = sectors lba := by
    by_cases same : state.volume.bufferLba = lba
    · rw [fatRead, Exec.run_bind_of_ok (EStateM.run_get state), if_pos same] at read
      cases read
      rw [buffered.buffer, same]
    · rw [fatRead_fetched buffered.coherent same read, buffered.logical]
  refine ⟨⟨quiet.geometry.trans buffered.geometry, quiet.logical.trans buffered.logical,
    quiet.coherent, ?_⟩, buffer⟩
  rw [buffer, tag]

/-- A store into the buffered sector. -/
theorem Buffered.store (buffered : Buffered geometry sectors state)
    (tag : state.volume.bufferLba = lba) (buffer : Sector) :
    Buffered geometry (Function.update sectors lba buffer)
      { state with volume.buffer := buffer, volume.bufferDirty := true } where
  geometry := buffered.geometry
  logical := by
    rw [← buffered.logical, ← tag]
    exact WriteBack.logical_stored state.cache buffer
  coherent := WriteBack.Coherent.of_dirty rfl
  buffer := by
    change buffer = Function.update sectors lba buffer state.volume.bufferLba
    rw [tag, Function.update_self]

end Buffer

/-! ## Stretches on the logical table -/

/-- The logical disk with an entry marked as taken. -/
def marked (geometry : Geometry) (sectors : Nat → Sector) (index : Nat) : Nat → Sector :=
  Function.update sectors (tableSector geometry index)
    ((sectors (tableSector geometry index)).store32 (index % 128 * 4) 0xFFFFFFF)

/-- The first entry from `index` on whose low seven bits are zero. -/
structure FirstCandidate (geometry : Geometry) (sectors : Nat → Sector) (index found : Nat) :
    Prop where
  order : index ≤ found
  looksFree : looksFree (tableEntry geometry sectors found) = true
  first : ∀ other, index ≤ other → other < found →
    Disk.looksFree (tableEntry geometry sectors other) = false

section Stretches

variable {geometry : Geometry} {sectors : Nat → Sector} {state after : FatState}
  {index last : Nat}

theorem Skips.buffered (skips : Skips geometry state index after last)
    (buffered : Buffered geometry sectors state) :
    Buffered geometry sectors after ∧ ∀ other, index ≤ other → other < last →
      looksFree (tableEntry geometry sectors other) = false := by
  induction skips with
  | nil => exact ⟨buffered, fun other lower upper => by omega⟩
  | @cons state between after index last read taken _ induction =>
      rcases buffered.read read with ⟨still, buffer⟩
      rcases induction still with ⟨later, others⟩
      refine ⟨later, ?_⟩
      intro other lower upper
      by_cases here : other = index
      · rw [here, tableEntry, ← buffer]
        exact taken
      · exact others other (by omega) upper

theorem Finds.buffered (finds : Finds geometry state index after last)
    (buffered : Buffered geometry sectors state) :
    Buffered geometry sectors after ∧ after.volume.bufferLba = tableSector geometry last ∧
      FirstCandidate geometry sectors index last := by
  rcases finds with ⟨between, skips, read, free⟩
  rcases skips.buffered buffered with ⟨still, others⟩
  rcases still.read read with ⟨later, buffer⟩
  refine ⟨later, fatRead_tag still.coherent read, skips.le, ?_, others⟩
  rw [tableEntry, ← buffer]
  exact free

theorem Finds.marked (finds : Finds geometry state index after last)
    (buffered : Buffered geometry sectors state) :
    Buffered geometry (Disk.marked geometry sectors last) (takenAt after last) := by
  rcases finds.buffered buffered with ⟨still, tag, -⟩
  have buffer : after.volume.buffer = sectors (tableSector geometry last) := by
    rw [still.buffer, tag]
  have stored := still.store tag (after.volume.buffer.store32 (last % 128 * 4) 0xFFFFFFF)
  rw [buffer] at stored
  rw [takenAt, taken, buffer]
  exact stored

theorem Sticks.logical (sticks : Sticks geometry state index after last)
    (buffered : Buffered geometry sectors state) : after.logical = sectors := by
  rcases sticks with ⟨between, skips, read⟩
  have still := (skips.buffered buffered).1
  exact (fatRead_transparent still.coherent read).logical.trans still.logical

end Stretches

/-! ## A volume with a table of so many entries -/

/-- The FSinfo sector lies in the reserved sectors, behind them the table, and behind that
the data. -/
structure Placed (geometry : Geometry) (entries : Nat) : Prop where
  sectorSize : geometry.sectorSize = 512
  info : 0 < geometry.fsinfoLba
  reserved : geometry.fsinfoLba < geometry.fatLba
  table : geometry.fatLba + (entries + 127) / 128 ≤ geometry.dataLba
  representable : geometry.dataLba < 2 ^ 32
  entries : entries ≤ 2 ^ 32

/-- The cluster that the FSinfo sector names as the next free one. -/
def hintOf (geometry : Geometry) (sectors : Nat → Sector) : Nat :=
  (sectors geometry.fsinfoLba).load32 492

def countOf (geometry : Geometry) (sectors : Nat → Sector) : Nat :=
  (sectors geometry.fsinfoLba).load32 488

/-- What a call does to the logical disk when it returns `1`. -/
def allocated (geometry : Geometry) (sectors : Nat → Sector) (first next : Nat) :
    Nat → Sector :=
  Function.update (marked geometry sectors first) geometry.fsinfoLba
    (((marked geometry sectors first geometry.fsinfoLba).store32 492 (u32 next)).store32 488
      (u32Sub (countOf geometry sectors) 1))

theorem countOf_lt (geometry : Geometry) (sectors : Nat → Sector) :
    countOf geometry sectors < 2 ^ 32 := Sector.load32_lt _ 488

section Placed

variable {geometry : Geometry} {entries : Nat} {sectors : Nat → Sector} {state : FatState}
  {cluster : Nat}

theorem Placed.fatLba_lt (placed : Placed geometry entries) : geometry.fatLba < 2 ^ 32 := by
  have table := placed.table
  have representable := placed.representable
  omega

theorem Placed.withinFat (placed : Placed geometry entries) (inside : cluster < entries) :
    WithinFat geometry cluster where
  reserved := Nat.lt_of_le_of_lt (Nat.zero_le _) placed.reserved
  inside := by
    have table := placed.table
    omega
  representable := placed.representable

theorem Placed.tableSector_ne_info (placed : Placed geometry entries)
    (inside : cluster < entries) : tableSector geometry cluster ≠ geometry.fsinfoLba := by
  have reserved := placed.reserved
  rw [(placed.withinFat inside).tableSector_eq]
  omega

theorem tableEntry_marked (placed : Placed geometry entries) {first other : Nat}
    (inside : first < entries) (otherInside : other < entries) :
    tableEntry geometry (marked geometry sectors first) other =
      if other = first then 0xFFFFFFF else tableEntry geometry sectors other := by
  have update := @tableEntry_update geometry sectors first other 0xFFFFFFF
    (placed.withinFat inside) (placed.withinFat otherInside) (by decide)
  rw [Nat.mul_comm 4] at update
  exact update

theorem tableEntry_allocated (placed : Placed geometry entries) (first next : Nat)
    (inside : cluster < entries) :
    tableEntry geometry (allocated geometry sectors first next) cluster =
      tableEntry geometry (marked geometry sectors first) cluster := by
  rw [tableEntry, allocated, Function.update_of_ne (placed.tableSector_ne_info inside), tableEntry]

theorem hintOf_allocated (first next : Nat) :
    hintOf geometry (allocated geometry sectors first next) = u32 next := by
  rw [hintOf, allocated, Function.update_self, Sector.load32_store32_of_disjoint _ _ (by decide),
    Sector.load32_store32_same _ (by decide) (u32_lt next)]

theorem countOf_allocated (first next : Nat) :
    countOf geometry (allocated geometry sectors first next) =
      u32Sub (countOf geometry sectors) 1 := by
  rw [countOf, allocated, Function.update_self]
  exact Sector.load32_store32_same _ (by decide) (Nat.mod_lt _ (by decide))

/-- The stores of a call that finds both entries and reads the FSinfo sector again. -/
theorem allocation_logical (placed : Placed geometry entries) (coherent : state.Coherent)
    (same : state.volume.toGeometry = geometry) {info found second last after : FatState}
    {first next : Nat} {flushed : Bool}
    (read : (fatRead geometry.fsinfoLba).run state = .ok true info)
    (finds : Finds geometry info (infoHint info) found first)
    (findsNext : Finds geometry (takenAt found first) (first + 1) second next)
    (again : (fatRead geometry.fsinfoLba).run second = .ok true last)
    (flush : fatFlush.run (infoStored last (u32 next) (u32Sub (infoCount info) 1)) =
      .ok flushed after) :
    FirstCandidate geometry state.logical (hintOf geometry state.logical) first ∧
      FirstCandidate geometry (marked geometry state.logical first) (first + 1) next ∧
      after.logical = allocated geometry state.logical first next := by
  rcases fatRead_buffered same coherent (Nat.ne_of_gt placed.info) read with ⟨buffered, tag⟩
  have content : info.volume.buffer = state.logical geometry.fsinfoLba := by
    rw [buffered.buffer, tag]
  have hint : infoHint info = hintOf geometry state.logical := by
    rw [infoHint, content, hintOf]
  have count : infoCount info = countOf geometry state.logical := by
    rw [infoCount, content, countOf]
  rcases findsNext.buffered (finds.marked buffered) with ⟨later, -, nextCandidate⟩
  rcases later.read again with ⟨held, buffer⟩
  have ended := held.store (fatRead_tag later.coherent again)
    ((last.volume.buffer.store32 492 (u32 next)).store32 488 (u32Sub (infoCount info) 1))
  rcases fatFlush_spec ended.coherent with ⟨_, _, flushes, quiet, -⟩
  have sameFlush := flush.symm.trans flushes
  cases sameFlush
  refine ⟨hint ▸ (finds.buffered buffered).2.2, nextCandidate, ?_⟩
  rw [quiet.logical, ended.logical, buffer, count]
  rfl

/-- A call that returns `1` has come to two entries whose low seven bits are zero. -/
theorem outcome_true (placed : Placed geometry entries) (coherent : state.Coherent)
    (same : state.volume.toGeometry = geometry) {cluster : Option Nat} {final : Asking}
    (outcome : Outcome geometry state (true, cluster) final) :
    ∃ first next, cluster = some (u32 first) ∧
      FirstCandidate geometry state.logical (hintOf geometry state.logical) first ∧
      FirstCandidate geometry (marked geometry state.logical first) (first + 1) next ∧
      final.fat.logical = allocated geometry state.logical first next := by
  cases outcome with
  | done read finds findsNext again flush =>
      exact ⟨_, _, rfl, allocation_logical placed coherent same read finds findsNext again flush⟩

end Placed

/-! ## The allocation takes a free cluster -/

/-- The call took the first free cluster at or after the hint, and left a true hint. -/
structure TakesFree (geometry : Geometry) (entries : Nat) (before after : Nat → Sector)
    (cluster : Nat) : Prop where
  inside : cluster < entries
  wasFree : tableEntry geometry before cluster % 2 ^ 28 = 0
  hinted : hintOf geometry before ≤ cluster
  first : ∀ other, hintOf geometry before ≤ other → other < cluster →
    tableEntry geometry before other % 2 ^ 28 ≠ 0
  taken : tableEntry geometry after cluster = 0x0FFFFFFF
  others : ∀ other < entries, other ≠ cluster →
    tableEntry geometry after other = tableEntry geometry before other
  hintInside : hintOf geometry after < entries
  hintFree : tableEntry geometry after (hintOf geometry after) % 2 ^ 28 = 0
  count : countOf geometry after + 1 = countOf geometry before

/-- The two entries that the scan comes to, whose low seven bits are zero, are entries of the
table and free, and the free count is not zero. -/
structure ScansFree (geometry : Geometry) (entries : Nat) (sectors : Nat → Sector)
    (first next : Nat) : Prop where
  candidate : FirstCandidate geometry sectors (hintOf geometry sectors) first
  inside : first < entries
  free : tableEntry geometry sectors first % 2 ^ 28 = 0
  nextCandidate : FirstCandidate geometry (marked geometry sectors first) (first + 1) next
  nextInside : u32 next < entries
  nextFree : tableEntry geometry (marked geometry sectors first) (u32 next) % 2 ^ 28 = 0
  counted : countOf geometry sectors ≠ 0

theorem looksFree_of_free {entry : Nat} (free : entry % 2 ^ 28 = 0) : looksFree entry = true := by
  rw [looksFree, decide_eq_true_eq, show (0b1111111 : Nat) = 2 ^ 7 - 1 from rfl, and_low_mask]
  omega

theorem FirstCandidate.unique {geometry : Geometry} {sectors : Nat → Sector}
    {index first other : Nat} (left : FirstCandidate geometry sectors index first)
    (right : FirstCandidate geometry sectors index other) : first = other := by
  by_contra apart
  rcases Nat.lt_or_gt_of_ne apart with before | after
  · have busy := right.first first left.order before
    rw [left.looksFree] at busy
    cases busy
  · have busy := left.first other right.order after
    rw [right.looksFree] at busy
    cases busy

section Scans

variable {geometry : Geometry} {entries first next : Nat} {sectors : Nat → Sector}

theorem ScansFree.takesFree (scans : ScansFree geometry entries sectors first next)
    (placed : Placed geometry entries) :
    TakesFree geometry entries sectors (allocated geometry sectors first next) first where
  inside := scans.inside
  wasFree := scans.free
  hinted := scans.candidate.order
  first := by
    intro other lower upper free
    have busy := scans.candidate.first other lower upper
    rw [looksFree_of_free free] at busy
    cases busy
  taken := by
    rw [tableEntry_allocated placed first next scans.inside,
      tableEntry_marked placed scans.inside scans.inside, if_pos rfl]
  others := by
    intro other inside apart
    rw [tableEntry_allocated placed first next inside,
      tableEntry_marked placed scans.inside inside, if_neg apart]
  hintInside := by
    rw [hintOf_allocated]
    exact scans.nextInside
  hintFree := by
    rw [hintOf_allocated, tableEntry_allocated placed first next scans.nextInside]
    exact scans.nextFree
  count := by
    have positive := Nat.pos_of_ne_zero scans.counted
    rw [countOf_allocated, u32Sub_of_le (countOf_lt _ _) positive]
    exact Nat.sub_add_cancel positive

/-- The cluster number is not the wrapped number of an entry far behind the table: the entry
with that number would have been come to before. -/
theorem TakesFree.scansFree (placed : Placed geometry entries)
    (candidate : FirstCandidate geometry sectors (hintOf geometry sectors) first)
    (nextCandidate : FirstCandidate geometry (marked geometry sectors first) (first + 1) next)
    (takes : TakesFree geometry entries sectors (allocated geometry sectors first next)
      (u32 first)) : ScansFree geometry entries sectors first next := by
  have word : u32 first = first := by
    apply u32_of_lt
    by_contra large
    have busy := candidate.first (u32 first) takes.hinted
      ((u32_lt first).trans_le (Nat.le_of_not_lt large))
    rw [looksFree_of_free takes.wasFree] at busy
    cases busy
  have inside := takes.inside
  have free := takes.wasFree
  have nextInside := takes.hintInside
  have nextFree := takes.hintFree
  have count := takes.count
  rw [word] at inside free
  rw [hintOf_allocated] at nextInside nextFree
  rw [tableEntry_allocated placed first next nextInside] at nextFree
  exact ⟨candidate, inside, free, nextCandidate, nextInside, nextFree, by omega⟩

end Scans

/-- A call that returns `1`, from any state of the volume that a run from its mount reaches,
took a free cluster exactly when the two entries it came to are free entries of the table. -/
theorem fat_get_cluster_takes_free_iff {mounted state : FatState} {events : List VolumeEvent}
    {entries rounds cluster : Nat} {final : Asking} (fresh : Mounted mounted)
    (run : Run VolumeStep mounted events state)
    (placed : Placed state.volume.toGeometry entries)
    (returns : (fatGetCluster rounds).run ⟨state, []⟩ = .ok (true, some cluster) final) :
    TakesFree state.volume.toGeometry entries state.logical final.fat.logical cluster ↔
      ∃ first next, ScansFree state.volume.toGeometry entries state.logical first next := by
  have coherent := coherent_of_run fresh run
  have outcome := (fatGetCluster_iff placed.sectorSize placed.fatLba_lt rfl).mp
    ⟨rounds, returns⟩
  rcases outcome_true placed coherent rfl outcome with
    ⟨first, next, taken, candidate, nextCandidate, logical⟩
  cases taken
  rw [logical]
  constructor
  · intro takes
    exact ⟨first, next, takes.scansFree placed candidate nextCandidate⟩
  · rintro ⟨other, later, scans⟩
    have sameFirst := candidate.unique scans.candidate
    subst sameFirst
    have sameNext := nextCandidate.unique scans.nextCandidate
    subst sameNext
    have word : u32 first = first := u32_of_lt (scans.inside.trans_le placed.entries)
    rw [word]
    exact scans.takesFree placed

/-- A volume whose FSinfo hint is cluster 2, with this lowest byte in its entry. -/
def hintVolume (link : UInt8) : FatState :=
  { blankVolume with
    device := { blankVolume.device with
      sector := fun lba =>
        if lba = 1 then Vector.ofFn fun column =>
          if column.val = 492 then 2 else if column.val = 488 then 5 else 0
        else if lba = 32 then Vector.ofFn fun column => if column.val = 8 then link else 0
        else .replicate 512 0 } }

theorem hintVolume_placed : Placed blankVolume.volume.toGeometry 4096 :=
  ⟨rfl, by decide, by decide, by decide, by decide, by decide⟩

/-- The call takes cluster 2 for an entry whose low seven bits are zero, and finds cluster 3. -/
theorem hintVolume_outcome {link : UInt8} (free : looksFree link.toNat = true) :
    ∃ rounds final, (fatGetCluster rounds).run ⟨hintVolume link, []⟩ =
      .ok (true, some 2) final := by
  let info : FatState := { hintVolume link with
    device := (hintVolume link).device.counted
    volume.buffer := (hintVolume link).device.sector 1
    volume.bufferLba := 1 }
  let found : FatState := { info with
    device := info.device.counted
    volume.buffer := (hintVolume link).device.sector 32
    volume.bufferLba := 32 }
  have hint : infoHint info = 2 := by
    simp [info, infoHint, Sector.load32, hintVolume, Sector.load8_ofFn]
  have entry : looksFree (found.volume.buffer.load32 (2 % 128 * 4)) = true := by
    have word : found.volume.buffer.load32 8 = link.toNat := by
      simp [found, Sector.load32, hintVolume, Sector.load8_ofFn]
    rw [word]
    exact free
  have nextEntry : looksFree ((takenAt found 2).volume.buffer.load32 (3 % 128 * 4)) = true := by
    have word : (takenAt found 2).volume.buffer.load32 12 = 0 := by
      rw [takenAt, taken, Sector.load32_store32_of_disjoint _ _ (by decide)]
      simp [found, Sector.load32, hintVolume, Sector.load8_ofFn]
    rw [word]
    rfl
  have read : (fatRead 1).run (hintVolume link) = .ok true info := rfl
  have finds : Finds blankVolume.volume.toGeometry info (infoHint info) found 2 := by
    rw [hint]
    exact ⟨info, .nil _ _, rfl, entry⟩
  have findsNext : Finds blankVolume.volume.toGeometry (takenAt found 2) 3 (takenAt found 2) 3 :=
    ⟨takenAt found 2, .nil _ _, rfl, nextEntry⟩
  have outcome : Outcome blankVolume.volume.toGeometry (hintVolume link) (true, some (u32 2)) _ :=
    .done read finds findsNext rfl rfl
  rcases (@fatGetCluster_iff blankVolume.volume.toGeometry (hintVolume link) rfl
    hintVolume_placed.fatLba_lt rfl _ _).mpr outcome with ⟨rounds, returns⟩
  exact ⟨rounds, _, returns⟩

theorem fat_get_cluster_takes_free_iff_hint : ∃ rounds final,
    (fatGetCluster rounds).run ⟨hintVolume 0, []⟩ = .ok (true, some 2) final ∧
      (TakesFree (hintVolume 0).volume.toGeometry 4096 (hintVolume 0).logical final.fat.logical 2 ↔
        ∃ first next,
          ScansFree (hintVolume 0).volume.toGeometry 4096 (hintVolume 0).logical first next) := by
  rcases @hintVolume_outcome 0 (by decide) with ⟨rounds, final, returns⟩
  exact ⟨rounds, final, returns, fat_get_cluster_takes_free_iff
    (show Mounted (hintVolume 0) from ⟨rfl, rfl⟩) (.nil _) hintVolume_placed returns⟩

/-- A cluster that links to cluster 128 is taken for a free one. -/
theorem fat_get_cluster_takes_used :
    ¬ ∀ (mounted state : FatState) (events : List VolumeEvent) (entries rounds cluster : Nat)
      (final : Asking), Mounted mounted → Run VolumeStep mounted events state →
      Placed state.volume.toGeometry entries →
      (fatGetCluster rounds).run ⟨state, []⟩ = .ok (true, some cluster) final →
      TakesFree state.volume.toGeometry entries state.logical final.fat.logical cluster := by
  intro takes
  rcases @hintVolume_outcome 0x80 (by decide) with ⟨rounds, final, returns⟩
  have free := (takes (hintVolume 0x80) (hintVolume 0x80) [] 4096 rounds 2 final ⟨rfl, rfl⟩
    (.nil _) hintVolume_placed returns).wasFree
  have entry : tableEntry (hintVolume 0x80).volume.toGeometry (hintVolume 0x80).device.sector 2 =
      0x80 := by
    have sector : tableSector (hintVolume 0x80).volume.toGeometry 2 = 32 := rfl
    rw [tableEntry, sector]
    simp [Sector.load32, hintVolume, Sector.load8_ofFn]
  have clean : (hintVolume 0x80).logical = (hintVolume 0x80).device.sector :=
    WriteBack.logical_of_clean rfl
  rw [clean, entry] at free
  exact absurd free (by decide)

end Vanilla.Disk
