import Mathlib.Tactic.IntervalCases
import Vanilla.Disk.Table

namespace Vanilla.Disk

/-! Which boot sectors `fat_search` takes for the start of a FAT32 volume. -/

/-! ## fat32.c: the search -/

def fatMemcmp (src1 src2 : Nat → UInt8) : Nat → Bool
  | 0 => true
  | count + 1 =>
      if src1 0 ≠ src2 0 then false
      else fatMemcmp (fun index => src1 (index + 1)) (fun index => src2 (index + 1)) count

/-- The characters of `"FAT"`. -/
def fatString : Nat → UInt8
  | 0 => 0x46
  | 1 => 0x41
  | 2 => 0x54
  | _ => 0

/-- A signed division. `none` where the source divides by zero. -/
def intDivide (dividend divisor : Int) : Option Int :=
  if divisor = 0 then none else some (dividend.tdiv divisor)

def u32Divide (dividend divisor : Nat) : Option Nat :=
  if divisor = 0 then none else some (dividend / divisor)

/-- The conversion of an `int` to a `u32`. -/
def u32OfInt (value : Int) : Nat := (value % 2 ^ 32).toNat

namespace Bpb

variable (bpb : Sector)

def sectorSize : Nat := bpb.load16 11
def clusterSize : Nat := (bpb.load8 13).toNat
def rsvdCnt : Nat := bpb.load16 14
def numFats : Nat := (bpb.load8 16).toNat
def rootEntCnt : Nat := bpb.load16 17

/-- The 16-bit field where it is in use, else the 32-bit field. -/
def fatSize : Nat := if bpb.load16 22 ≠ 0 then bpb.load16 22 else bpb.load32 36

def totSect : Nat := if bpb.load16 19 ≠ 0 then bpb.load16 19 else bpb.load32 32

end Bpb

open Bpb

/-- `none` where the source divides by zero. -/
def fatSearch (bpb : Sector) : Option Bool :=
  if bpb.load16 510 ≠ 0xAA55 then some false
  else if !fatMemcmp (fun index => bpb.load8 (82 + index)) fatString 3 &&
      !fatMemcmp (fun index => bpb.load8 (54 + index)) fatString 3 then some false
  else do
    -- The operands are promoted to `int`; no value here leaves its range.
    let rootSectors ← intDivide (rootEntCnt bpb * 32 + ((sectorSize bpb : Int) - 1))
      ((sectorSize bpb : Int) - 1)
    let dataSectors := u32Sub (totSect bpb)
      (u32 (u32 (rsvdCnt bpb + u32 (numFats bpb * fatSize bpb)) + u32OfInt rootSectors))
    let dataClusters ← u32Divide dataSectors (clusterSize bpb)
    if dataClusters < 65525 then some false else some true

/-! ## The classification by the format -/

/-- A boot sector of some FAT file system. -/
structure Signed (bpb : Sector) : Prop where
  signature : bpb.load16 510 = 0xAA55
  fstype : (∀ index < 3, bpb.load8 (82 + index) = fatString index) ∨
    ∀ index < 3, bpb.load8 (54 + index) = fatString index

/-- The sectors of a FAT12 or FAT16 root directory, rounded up. -/
def rootDirSectors (bpb : Sector) : Nat :=
  (rootEntCnt bpb * 32 + (sectorSize bpb - 1)) / sectorSize bpb

/-- The sectors before the data. -/
def metaSectors (bpb : Sector) : Nat :=
  rsvdCnt bpb + numFats bpb * fatSize bpb + rootDirSectors bpb

structure IsFat32 (bpb : Sector) : Prop where
  sized : sectorSize bpb ≠ 0
  clustered : clusterSize bpb ≠ 0
  fits : metaSectors bpb ≤ totSect bpb
  clusters : 65525 ≤ (totSect bpb - metaSectors bpb) / clusterSize bpb

/-- The search returns, and says yes exactly to the sectors of FAT32 volumes. -/
def Classified (bpb : Sector) : Prop :=
  ∃ found, fatSearch bpb = some found ∧ (found = true ↔ IsFat32 bpb)

/-! ## The search in exact integers -/

/-- The sectors before the data as the source counts them: it divides by one less than
the sector size. -/
def countedSectors (bpb : Sector) : Int :=
  rsvdCnt bpb + numFats bpb * fatSize bpb +
    (rootEntCnt bpb * 32 + ((sectorSize bpb : Int) - 1)).tdiv ((sectorSize bpb : Int) - 1)

/-- The data sectors of the smallest FAT32 volume. -/
def leastSectors (bpb : Sector) : Nat := 65525 * clusterSize bpb

/-- The total is, up to a multiple of `2 ^ 32`, too close behind the counted sectors. -/
def LeavesTooFew (bpb : Sector) : Prop :=
  ∃ turns : Int, countedSectors bpb ≤ totSect bpb + turns * 2 ^ 32 ∧
    totSect bpb + turns * 2 ^ 32 < countedSectors bpb + leastSectors bpb

theorem fatMemcmp_iff (count : Nat) (src1 src2 : Nat → UInt8) :
    fatMemcmp src1 src2 count = true ↔ ∀ index < count, src1 index = src2 index := by
  induction count generalizing src1 src2 with
  | zero => simp [fatMemcmp]
  | succ count induction =>
      rw [fatMemcmp]
      by_cases first : src1 0 = src2 0
      · rw [if_neg (not_not_intro first), induction]
        constructor
        · intro rest index bound
          cases index with
          | zero => exact first
          | succ index => exact rest index (by omega)
        · exact fun all index bound => all (index + 1) (by omega)
      · rw [if_pos first]
        constructor
        · intro impossible
          cases impossible
        · exact fun all => absurd (all 0 (by omega)) first

theorem Signed.named {bpb : Sector} (signed : Signed bpb) :
    ¬ ((!fatMemcmp (fun index => bpb.load8 (82 + index)) fatString 3 &&
      !fatMemcmp (fun index => bpb.load8 (54 + index)) fatString 3) = true) := by
  rcases signed.fstype with new | old
  · simp [(fatMemcmp_iff 3 _ _).mpr new]
  · simp [(fatMemcmp_iff 3 _ _).mpr old]

theorem load16_lt (sector : Sector) (offset : Nat) : sector.load16 offset < 2 ^ 16 := by
  have low := (sector.load8 offset).toNat_lt
  have high := (sector.load8 (offset + 1)).toNat_lt
  simp only [Sector.load16]
  omega

theorem totSect_lt (bpb : Sector) : totSect bpb < 2 ^ 32 := by
  have small := load16_lt bpb 19
  have large := bpb.load32_lt 32
  rw [totSect]
  split <;> omega

theorem leastSectors_lt (bpb : Sector) : leastSectors bpb < 2 ^ 24 := by
  have bound := (bpb.load8 13).toNat_lt
  simp only [leastSectors, clusterSize]
  omega

/-- The remainder of a difference is small exactly when some multiple of the modulus
brings the difference into that range. -/
theorem emod_lt_iff {difference modulus bound : Int} (positive : 0 < modulus)
    (small : bound ≤ modulus) :
    difference % modulus < bound ↔
      ∃ turns : Int, 0 ≤ difference + turns * modulus ∧
        difference + turns * modulus < bound := by
  constructor
  · intro remainder
    refine ⟨-(difference / modulus), ?_⟩
    have split := Int.emod_add_mul_ediv difference modulus
    have lower := Int.emod_nonneg difference (Int.ne_of_gt positive)
    have same : difference + -(difference / modulus) * modulus = difference % modulus := by
      rw [Int.neg_mul, Int.mul_comm]
      omega
    rw [same]
    exact ⟨lower, remainder⟩
  · rintro ⟨turns, lower, upper⟩
    rw [← Int.add_mul_emod_self_right difference turns modulus,
      Int.emod_eq_of_lt lower (by omega)]
    exact upper

/-- The chain of wrapping operations computes the difference modulo `2 ^ 32`. -/
theorem dataSectors_eq (total reserved product : Nat) (root : Int) (bound : total < 2 ^ 32) :
    (u32Sub total (u32 (u32 (reserved + u32 product) + u32OfInt root)) : Int) =
      (total - (reserved + product + root)) % 2 ^ 32 := by
  simp only [u32Sub, u32, u32OfInt]
  omega

theorem intDivide_of_ne {dividend divisor : Int} (apart : divisor ≠ 0) :
    intDivide dividend divisor = some (dividend.tdiv divisor) := if_neg apart

theorem u32Divide_of_ne {dividend divisor : Nat} (apart : divisor ≠ 0) :
    u32Divide dividend divisor = some (dividend / divisor) := if_neg apart

/-- Where the divisors are not zero, the answer is in terms of exact integers. -/
theorem fatSearch_eq {bpb : Sector} (signed : Signed bpb) (cluster : clusterSize bpb ≠ 0)
    (size : sectorSize bpb ≠ 1) :
    ∃ found, fatSearch bpb = some found ∧ (found = false ↔ LeavesTooFew bpb) := by
  have divisor : (sectorSize bpb : Int) - 1 ≠ 0 := by omega
  rw [fatSearch, if_neg (not_not_intro signed.signature), if_neg signed.named,
    intDivide_of_ne divisor, Option.bind_eq_bind, Option.bind_some]
  dsimp only
  rw [u32Divide_of_ne cluster, Option.bind_eq_bind, Option.bind_some]
  generalize exact : (rootEntCnt bpb * 32 + ((sectorSize bpb : Int) - 1)).tdiv
    ((sectorSize bpb : Int) - 1) = root
  have value := dataSectors_eq (totSect bpb) (rsvdCnt bpb) (numFats bpb * fatSize bpb) root
    (totSect_lt bpb)
  have few : u32Sub (totSect bpb) (u32 (u32 (rsvdCnt bpb + u32 (numFats bpb * fatSize bpb)) +
      u32OfInt root)) / clusterSize bpb < 65525 ↔ LeavesTooFew bpb := by
    rw [Nat.div_lt_iff_lt_mul (by omega), ← Int.ofNat_lt, value,
      emod_lt_iff (by decide) (by
        have least := leastSectors_lt bpb
        rw [leastSectors] at least
        omega), LeavesTooFew, countedSectors, exact, leastSectors]
    apply exists_congr
    intro turns
    push_cast
    constructor <;> (rintro ⟨lower, upper⟩; constructor <;> omega)
  by_cases short : u32Sub (totSect bpb) (u32 (u32 (rsvdCnt bpb +
      u32 (numFats bpb * fatSize bpb)) + u32OfInt root)) / clusterSize bpb < 65525
  · rw [if_pos short]
    exact ⟨false, rfl, iff_of_true rfl (few.mp short)⟩
  · rw [if_neg short]
    exact ⟨true, rfl, iff_of_false Bool.noConfusion (short ∘ few.mpr)⟩

theorem fatSearch_eq_none {bpb : Sector} (signed : Signed bpb)
    (zero : clusterSize bpb = 0 ∨ sectorSize bpb = 1) : fatSearch bpb = none := by
  rw [fatSearch, if_neg (not_not_intro signed.signature), if_neg signed.named]
  by_cases size : sectorSize bpb = 1
  · rw [intDivide, if_pos (by omega), Option.bind_eq_bind, Option.bind_none]
  · rw [intDivide_of_ne (by omega), Option.bind_eq_bind, Option.bind_some]
    dsimp only
    rw [u32Divide, if_pos (zero.resolve_right size), Option.bind_eq_bind, Option.bind_none]

theorem isFat32_iff {bpb : Sector} (sized : sectorSize bpb ≠ 0)
    (clustered : clusterSize bpb ≠ 0) :
    IsFat32 bpb ↔ metaSectors bpb + leastSectors bpb ≤ totSect bpb := by
  have enough : 65525 ≤ (totSect bpb - metaSectors bpb) / clusterSize bpb ↔
      leastSectors bpb ≤ totSect bpb - metaSectors bpb :=
    Nat.le_div_iff_mul_le (Nat.pos_of_ne_zero clustered)
  have positive : 0 < leastSectors bpb :=
    Nat.mul_pos (by decide) (Nat.pos_of_ne_zero clustered)
  constructor
  · intro fat32
    have clusters := enough.mp fat32.clusters
    have fits := fat32.fits
    omega
  · intro room
    exact ⟨sized, clustered, by omega, enough.mpr (by omega)⟩

/-- Dividing by one less counts at least as many root sectors, and not many more. -/
theorem countedSectors_bounds {bpb : Sector} (size : 2 ≤ sectorSize bpb) :
    (metaSectors bpb : Int) ≤ countedSectors bpb ∧
      countedSectors bpb < metaSectors bpb + 2 ^ 22 := by
  have entries : rootEntCnt bpb < 2 ^ 16 := load16_lt bpb 17
  have sector : sectorSize bpb < 2 ^ 16 := load16_lt bpb 11
  have root : (rootEntCnt bpb * 32 + ((sectorSize bpb : Int) - 1)).tdiv
      ((sectorSize bpb : Int) - 1) =
        ((rootEntCnt bpb * 32 + (sectorSize bpb - 1)) / (sectorSize bpb - 1) : Nat) := by
    rw [show (sectorSize bpb : Int) - 1 = (sectorSize bpb - 1 : Nat) by omega]
    exact (Int.ofNat_tdiv _ _).symm
  have more : rootDirSectors bpb ≤
      (rootEntCnt bpb * 32 + (sectorSize bpb - 1)) / (sectorSize bpb - 1) :=
    Nat.div_le_div_left (by omega) (by omega)
  have most := Nat.div_le_self (rootEntCnt bpb * 32 + (sectorSize bpb - 1))
    (sectorSize bpb - 1)
  rw [countedSectors, metaSectors, root]
  generalize (rootEntCnt bpb * 32 + (sectorSize bpb - 1)) / (sectorSize bpb - 1) = counted
    at more most
  push_cast
  constructor <;> omega

/-- Where the search classifies: it does not divide by zero, and neither the divisor nor
the wrapping difference changes the answer. -/
structure CountsWell (bpb : Sector) : Prop where
  clustered : clusterSize bpb ≠ 0
  size : sectorSize bpb ≠ 1
  unsized : sectorSize bpb = 0 → LeavesTooFew bpb
  /-- A FAT32 volume keeps its room with the larger count, or loses all of it. -/
  large : sectorSize bpb ≠ 0 → metaSectors bpb + leastSectors bpb ≤ totSect bpb →
    countedSectors bpb + leastSectors bpb ≤ totSect bpb ∨ totSect bpb < countedSectors bpb
  /-- A smaller volume holds the counted sectors, or wraps to a small difference. -/
  small : sectorSize bpb ≠ 0 → totSect bpb < metaSectors bpb + leastSectors bpb →
    countedSectors bpb ≤ totSect bpb ∨ LeavesTooFew bpb

theorem leavesTooFew_of_between {bpb : Sector} (lower : countedSectors bpb ≤ totSect bpb)
    (upper : totSect bpb < countedSectors bpb + leastSectors bpb) : LeavesTooFew bpb :=
  ⟨0, by omega, by omega⟩

/-- A total below the counted sectors of a FAT32 volume wraps to a large difference. -/
theorem not_leavesTooFew_iff {bpb : Sector} (size : 2 ≤ sectorSize bpb)
    (room : metaSectors bpb + leastSectors bpb ≤ totSect bpb) :
    ¬ LeavesTooFew bpb ↔
      countedSectors bpb + leastSectors bpb ≤ totSect bpb ∨
        totSect bpb < countedSectors bpb := by
  have bounds := countedSectors_bounds size
  have least := leastSectors_lt bpb
  have total := totSect_lt bpb
  constructor
  · intro enough
    by_contra between
    exact enough (leavesTooFew_of_between (by omega) (by omega))
  · rintro (room | short) ⟨turns, lower, upper⟩
    · omega
    · omega

theorem leavesTooFew_iff {bpb : Sector} (size : 2 ≤ sectorSize bpb)
    (short : totSect bpb < metaSectors bpb + leastSectors bpb) :
    LeavesTooFew bpb ↔ countedSectors bpb ≤ totSect bpb ∨ LeavesTooFew bpb := by
  have bounds := countedSectors_bounds size
  constructor
  · exact .inr
  · rintro (lower | few)
    · exact leavesTooFew_of_between lower (by omega)
    · exact few

/-- On a boot sector with the signature and a FAT string, the search classifies exactly
where it counts well. -/
theorem fat_search_classifies_iff {bpb : Sector} (signed : Signed bpb) :
    Classified bpb ↔ CountsWell bpb := by
  by_cases zero : clusterSize bpb = 0 ∨ sectorSize bpb = 1
  · have divides := fatSearch_eq_none signed zero
    constructor
    · rintro ⟨found, returns, -⟩
      rw [divides] at returns
      cases returns
    · intro well
      exact absurd zero (not_or.mpr ⟨well.clustered, well.size⟩)
  · rcases not_or.mp zero with ⟨clustered, size⟩
    rcases fatSearch_eq signed clustered size with ⟨found, returns, few⟩
    have classified : Classified bpb ↔ (found = true ↔ IsFat32 bpb) := by
      constructor
      · rintro ⟨other, otherReturns, agrees⟩
        rw [returns] at otherReturns
        cases otherReturns
        exact agrees
      · exact fun agrees => ⟨found, returns, agrees⟩
    have accepts : found = true ↔ ¬ LeavesTooFew bpb := by
      rw [← few, Bool.not_eq_false]
    rw [classified, accepts]
    by_cases unsized : sectorSize bpb = 0
    · have not32 : ¬ IsFat32 bpb := fun fat32 => fat32.sized unsized
      constructor
      · intro agrees
        have tooFew := not_not.mp (mt agrees.mp not32)
        exact ⟨clustered, size, fun _ => tooFew, fun sized => absurd unsized sized,
          fun sized => absurd unsized sized⟩
      · intro well
        exact iff_of_false (not_not_intro (well.unsized unsized)) not32
    · have sized : 2 ≤ sectorSize bpb := by omega
      rw [isFat32_iff unsized clustered]
      by_cases room : metaSectors bpb + leastSectors bpb ≤ totSect bpb
      · rw [not_leavesTooFew_iff sized room, iff_true_right room]
        constructor
        · exact fun outside => ⟨clustered, size, fun zero => absurd zero unsized,
            fun _ _ => outside, fun _ short => absurd room (by omega)⟩
        · exact fun well => well.large unsized room
      · have short := Nat.lt_of_not_le room
        rw [iff_false_right room, not_not, leavesTooFew_iff sized short]
        constructor
        · exact fun wraps => ⟨clustered, size, fun zero => absurd zero unsized,
            fun _ fits => absurd fits room, fun _ _ => wraps⟩
        · exact fun well => well.small unsized short

/-! ## A volume of exactly 65525 clusters -/

/-- Sectors of 512 bytes, eight a cluster, 32 reserved, two tables of 512 and 525256 in
all. -/
def smallestByte : Nat → UInt8
  | 12 => 2
  | 13 => 8
  | 14 => 32
  | 16 => 2
  | 32 => 0xC8
  | 33 => 3
  | 34 => 8
  | 37 => 2
  | 82 => 0x46
  | 83 => 0x41
  | 84 => 0x54
  | 510 => 0x55
  | 511 => 0xAA
  | _ => 0

def smallestFat32 : Sector := Vector.ofFn fun column => smallestByte column

theorem smallestFat32_load8 {offset : Nat} (bound : offset < 512) :
    smallestFat32.load8 offset = smallestByte offset :=
  Sector.load8_ofFn (fun column => smallestByte column) bound

theorem load16_of_bytes {sector : Sector} {offset : Nat} {low high : UInt8}
    (lower : sector.load8 offset = low) (upper : sector.load8 (offset + 1) = high) :
    sector.load16 offset = low.toNat + 2 ^ 8 * high.toNat := by
  rw [Sector.load16, lower, upper]

theorem smallestFat32_signed : Signed smallestFat32 where
  signature := by
    have low : smallestFat32.load8 510 = 0x55 := smallestFat32_load8 (by decide)
    have high : smallestFat32.load8 (510 + 1) = 0xAA := smallestFat32_load8 (by decide)
    have word : (0x55 : UInt8).toNat + 2 ^ 8 * (0xAA : UInt8).toNat = 0xAA55 := rfl
    exact (load16_of_bytes low high).trans word
  fstype := by
    left
    intro index bound
    interval_cases index <;> simp [smallestFat32_load8, smallestByte, fatString]

theorem smallestFat32_fields : clusterSize smallestFat32 = 8 ∧
    sectorSize smallestFat32 = 512 ∧ metaSectors smallestFat32 = 1056 ∧
    totSect smallestFat32 = 525256 ∧ countedSectors smallestFat32 = 1057 := by
  simp [clusterSize, sectorSize, metaSectors, totSect, countedSectors, rsvdCnt, numFats, fatSize,
    rootDirSectors, rootEntCnt, Sector.load16, Sector.load32, smallestFat32_load8, smallestByte]

theorem fat_search_classifies_iff_smallest :
    Classified smallestFat32 ↔ CountsWell smallestFat32 :=
  fat_search_classifies_iff smallestFat32_signed

/-- The source counts a root sector where there are no root entries, and turns the smallest
volume away. -/
theorem fat_search_refuses_smallest :
    ¬ ∀ bpb : Sector, Signed bpb → Classified bpb := by
  intro classifies
  rcases classifies smallestFat32 smallestFat32_signed with ⟨found, returns, agrees⟩
  rcases smallestFat32_fields with ⟨cluster, size, before, total, counted⟩
  have fat32 : IsFat32 smallestFat32 := by
    rw [isFat32_iff (by omega) (by omega), leastSectors]
    omega
  rcases fatSearch_eq smallestFat32_signed (by omega) (by omega) with ⟨other, search, few⟩
  rw [returns] at search
  cases search
  have tooFew : LeavesTooFew smallestFat32 :=
    leavesTooFew_of_between (by omega) (by rw [leastSectors]; omega)
  have refused := few.mpr tooFew
  rw [agrees.mpr fat32] at refused
  cases refused

end Vanilla.Disk
