import Vanilla.Boot.Flash

namespace Vanilla.Boot

/-! The hash driver and the check of the stored digest. The engine reads whole
blocks of 64 bytes; the driver tells it how many. -/

/-! ## hash.c -/

/-- `struct icm_desc`. -/
structure IcmDesc where
  startAddr : Nat
  cfg : Nat
  size : Nat
  next : Nat

/-- What the driver writes to `region_one`. -/
def regionOne (data size : Nat) : IcmDesc where
  startAddr := data
  cfg := 1 <<< 12 ||| 1 <<< 2
  size := u32Sub (size / 32) 1
  next := 0

abbrev Contents := Nat → UInt8

/-- The hash engine, a function of the bytes it reads. -/
abbrev Engine := List UInt8 → Vector UInt8 32

/-- The `size + 1` blocks of 512 bits the engine reads. -/
def IcmDesc.bytes (desc : IcmDesc) (contents : Contents) : List UInt8 :=
  (List.range (64 * (desc.size + 1))).map fun index => contents (u32 (desc.startAddr + index))

/-- `hash256_generate` when the engine reports no error. -/
def hash256Generate (engine : Engine) (contents : Contents) (data size : Nat) :
    Vector UInt8 32 :=
  engine ((regionOne data size).bytes contents)

/-! ## bootloader.c -/

/-- Sector 30, `struct hash`. -/
def hashSector : Nat := flashStart + 512 * 30

/-- `flash_hash->size`. -/
def hashSize (contents : Contents) : Nat :=
  (contents (hashSector + 32)).toNat + 2 ^ 8 * (contents (hashSector + 33)).toNat +
    2 ^ 16 * (contents (hashSector + 34)).toNat + 2 ^ 24 * (contents (hashSector + 35)).toNat

def verifyKernelHash (engine : Engine) (contents : Contents) : Bool :=
  if hashSize contents = 0 ∨ hashSize contents = 0xFFFFFFFF then false
  else
    let digest := hash256Generate engine contents kernelStart (hashSize contents)
    (List.range 32).all fun index => digest[index]?.getD 0 == contents (hashSector + index)

/-! ## What the digest covers -/

/-- The flash agrees on so many bytes of the kernel area. -/
def AgreeOn (left right : Contents) (size : Nat) : Prop :=
  ∀ index, index < size → left (u32 (kernelStart + index)) = right (u32 (kernelStart + index))

def SameSector (left right : Contents) : Prop :=
  ∀ index, index < 512 → left (hashSector + index) = right (hashSector + index)

/-- The bytes from the start of the kernel area. -/
def kernelBytes (contents : Contents) (size : Nat) : List UInt8 :=
  (List.range size).map fun index => contents (u32 (kernelStart + index))

/-- The hash sector holds the digest of twice `size` bytes of the kernel area. -/
def Stored (engine : Engine) (contents : Contents) (size : Nat) : Prop :=
  ∀ index, index < 32 →
    (engine (kernelBytes contents (2 * size)))[index]?.getD 0 = contents (hashSector + index)

/-- The driver divides by 32 where a block has 64 bytes. -/
theorem regionOne_bytes {size : Nat} (positive : 0 < size) (sectors : 8192 ∣ size)
    (bound : size < 2 ^ 32) (contents : Contents) :
    (regionOne kernelStart size).bytes contents = kernelBytes contents (2 * size) := by
  have blocks : 64 * (u32Sub (size / 32) 1 + 1) = 2 * size := by
    rw [u32Sub_of_le (by omega) (by omega)]
    omega
  rw [IcmDesc.bytes, kernelBytes, regionOne, blocks]

theorem kernelBytes_eq_iff (left right : Contents) (size : Nat) :
    kernelBytes left size = kernelBytes right size ↔ AgreeOn left right size := by
  rw [kernelBytes, kernelBytes, List.map_inj_left]
  simp only [List.mem_range, AgreeOn]

theorem AgreeOn.mono {left right : Contents} {small large : Nat} (order : small ≤ large)
    (agree : AgreeOn left right large) : AgreeOn left right small :=
  fun index bound => agree index (Nat.lt_of_lt_of_le bound order)

theorem hashSize_congr {left right : Contents} (same : SameSector left right) :
    hashSize left = hashSize right := by
  have byte : ∀ index, index < 512 → left (hashSector + index) = right (hashSector + index) :=
    same
  rw [hashSize, hashSize, byte 32 (by decide), byte 33 (by decide), byte 34 (by decide),
    byte 35 (by decide)]

theorem verifyKernelHash_iff {engine : Engine} {contents : Contents} {size : Nat}
    (positive : 0 < size) (sectors : 8192 ∣ size) (bound : size < 2 ^ 32)
    (recorded : hashSize contents = size) :
    verifyKernelHash engine contents = true ↔ Stored engine contents size := by
  have usable : ¬ (hashSize contents = 0 ∨ hashSize contents = 0xFFFFFFFF) := by omega
  rw [verifyKernelHash, if_neg usable, recorded, hash256Generate,
    regionOne_bytes positive sectors bound]
  simp only [List.all_eq_true, List.mem_range, beq_iff_eq, Stored]

theorem Stored.congr {engine : Engine} {left right : Contents} {size : Nat}
    (same : SameSector left right) (agree : AgreeOn left right (2 * size))
    (stored : Stored engine left size) : Stored engine right size := by
  intro index bound
  have bytes := (kernelBytes_eq_iff left right (2 * size)).mpr agree
  have sector := same index (Nat.lt_trans bound (by decide))
  rw [← bytes, ← sector]
  exact stored index bound

/-- Both digests are in the one hash sector, so the engine read the same. -/
theorem Stored.agree {engine : Engine} {left right : Contents} {size : Nat}
    (same : SameSector left right)
    (distinguishes : engine (kernelBytes left (2 * size)) = engine (kernelBytes right (2 * size)) →
      kernelBytes left (2 * size) = kernelBytes right (2 * size))
    (storedLeft : Stored engine left size) (storedRight : Stored engine right size) :
    AgreeOn left right (2 * size) := by
  apply (kernelBytes_eq_iff left right (2 * size)).mp
  apply distinguishes
  apply Vector.ext
  intro index bound
  have leftByte := storedLeft index bound
  have rightByte := storedRight index bound
  have sector := same index (Nat.lt_trans bound (by decide))
  rw [Vector.getElem?_eq_getElem bound, Option.getD_some] at leftByte rightByte
  rw [leftByte, rightByte, sector]

/-- The verdict depends on exactly the erased bytes. -/
structure CoversKernelArea (engine : Engine) (left right : Contents) (size : Nat) : Prop where
  agreeing : AgreeOn left right size →
    verifyKernelHash engine left = verifyKernelHash engine right
  differing : ¬ AgreeOn left right size →
    ¬ (verifyKernelHash engine left = true ∧ verifyKernelHash engine right = true)

/-- The digest covers twice the erased bytes: the verdict depends on the erased
ones alone unless the two differ behind them and the digest is that of one. -/
theorem digest_covers_exactly (engine : Engine) (left right : Contents) (size : Nat)
    (positive : 0 < size) (sectors : 8192 ∣ size) (bound : size < 2 ^ 32)
    (same : SameSector left right) (recorded : hashSize left = size)
    (distinguishes : engine (kernelBytes left (2 * size)) = engine (kernelBytes right (2 * size)) →
      kernelBytes left (2 * size) = kernelBytes right (2 * size)) :
    CoversKernelArea engine left right size ↔
      (AgreeOn left right size → AgreeOn left right (2 * size) ∨
        ¬ Stored engine left size ∧ ¬ Stored engine right size) := by
  have recordedRight : hashSize right = size := (hashSize_congr same).symm.trans recorded
  have leftVerdict := @verifyKernelHash_iff engine left size positive sectors bound recorded
  have rightVerdict :=
    @verifyKernelHash_iff engine right size positive sectors bound recordedRight
  have both : Stored engine left size → Stored engine right size →
      AgreeOn left right (2 * size) := Stored.agree same distinguishes
  constructor
  · intro covers agree
    by_cases stored : Stored engine left size
    · have verdict := covers.agreeing agree
      rw [leftVerdict.mpr stored] at verdict
      exact .inl (both stored (rightVerdict.mp verdict.symm))
    · refine .inr ⟨stored, fun storedRight => stored (leftVerdict.mp ?_)⟩
      rw [covers.agreeing agree]
      exact rightVerdict.mpr storedRight
  · intro condition
    constructor
    · intro agree
      rw [Bool.eq_iff_iff, leftVerdict, rightVerdict]
      cases condition agree with
      | inl twice =>
          exact ⟨Stored.congr same twice,
            Stored.congr (fun index bound => (same index bound).symm)
              fun index bound => (twice index bound).symm⟩
      | inr neither =>
          exact ⟨fun stored => absurd stored neither.1, fun stored => absurd stored neither.2⟩
    · intro differ verdicts
      have agree := both (leftVerdict.mp verdicts.1) (rightVerdict.mp verdicts.2)
      exact differ (agree.mono (Nat.le_mul_of_pos_left size (by decide)))

/-! ## A byte behind the erased ones -/

/-- An engine that repeats the byte it finds 8192 bytes in. -/
def echoEngine : Engine := fun bytes => .replicate 32 (bytes[8192]?.getD 0)

/-- A recorded size of 8192 and zeros elsewhere. -/
def zeroFlash : Contents := fun address => if address = hashSector + 33 then 0x20 else 0

def markedFlash : Contents := fun address => if address = 0x00406000 then 1 else zeroFlash address

theorem echoEngine_kernelBytes (contents : Contents) {size : Nat} (bound : 8192 < size) :
    echoEngine (kernelBytes contents size) = .replicate 32 (contents 0x00406000) := by
  rw [echoEngine, kernelBytes, List.getElem?_map, List.getElem?_range bound]
  rfl

theorem markedFlash_elsewhere {address : Nat} (elsewhere : address ≠ 0x00406000) :
    markedFlash address = zeroFlash address := if_neg elsewhere

theorem flashes_same : SameSector zeroFlash markedFlash := by
  intro index bound
  apply (markedFlash_elsewhere _).symm
  unfold hashSector flashStart
  omega

theorem zeroFlash_stored : Stored echoEngine zeroFlash 8192 := by
  intro index bound
  have plain : hashSector + index ≠ hashSector + 33 := by omega
  have byte : zeroFlash (hashSector + index) = 0 := if_neg plain
  have mark : zeroFlash 0x00406000 = 0 := rfl
  rw [echoEngine_kernelBytes zeroFlash (by decide), byte, mark,
    Vector.getElem?_eq_getElem bound, Vector.getElem_replicate]
  rfl

theorem markedFlash_not_stored : ¬ Stored echoEngine markedFlash 8192 := by
  intro stored
  have first := stored 0 (by decide)
  rw [echoEngine_kernelBytes markedFlash (by decide)] at first
  exact absurd first (by decide)

theorem flashes_agree : AgreeOn zeroFlash markedFlash 8192 := by
  intro index bound
  apply (markedFlash_elsewhere _).symm
  simp only [u32, kernelStart]
  omega

theorem flashes_distinguished :
    echoEngine (kernelBytes zeroFlash (2 * 8192)) = echoEngine (kernelBytes markedFlash (2 * 8192)) →
      kernelBytes zeroFlash (2 * 8192) = kernelBytes markedFlash (2 * 8192) := by
  intro equal
  rw [echoEngine_kernelBytes _ (by decide), echoEngine_kernelBytes _ (by decide)] at equal
  exact absurd equal (by decide)

theorem digest_covers_exactly_marked :
    CoversKernelArea echoEngine zeroFlash markedFlash 8192 ↔
      (AgreeOn zeroFlash markedFlash 8192 → AgreeOn zeroFlash markedFlash (2 * 8192) ∨
        ¬ Stored echoEngine zeroFlash 8192 ∧ ¬ Stored echoEngine markedFlash 8192) :=
  digest_covers_exactly echoEngine zeroFlash markedFlash 8192 (by decide) (by decide)
    (by decide) flashes_same (by decide) flashes_distinguished

/-- The kernel area is the same, the verdict is not. -/
theorem marked_flash_rejected :
    SameSector zeroFlash markedFlash ∧ AgreeOn zeroFlash markedFlash 8192 ∧
      verifyKernelHash echoEngine zeroFlash = true ∧
      verifyKernelHash echoEngine markedFlash = false ∧
      ¬ CoversKernelArea echoEngine zeroFlash markedFlash 8192 := by
  have accepted : verifyKernelHash echoEngine zeroFlash = true :=
    (verifyKernelHash_iff (by decide) (by decide) (by decide) (by decide)).mpr zeroFlash_stored
  have rejected : verifyKernelHash echoEngine markedFlash = false := by
    rw [← Bool.not_eq_true]
    intro verdict
    exact markedFlash_not_stored
      ((verifyKernelHash_iff (by decide) (by decide) (by decide) (by decide)).mp verdict)
  refine ⟨flashes_same, flashes_agree, accepted, rejected, fun covers => ?_⟩
  have verdicts := covers.agreeing flashes_agree
  rw [accepted, rejected] at verdicts
  cases verdicts

end Vanilla.Boot
