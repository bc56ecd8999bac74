import Mathlib.Algebra.Ring.Nat
import Mathlib.Data.List.Basic

namespace Vanilla

/-! Byte-addressed little-endian memory. Every store is recorded in a ghost
log, so that "this code does not write there" can be stated without comparing
contents. -/

structure ByteMemory where
  byte : Nat → UInt8
  /-- Addresses stored to so far, most recent first. -/
  written : List Nat

namespace ByteMemory

def load8 (memory : ByteMemory) (address : Nat) : UInt8 := memory.byte address

def store8 (memory : ByteMemory) (address : Nat) (value : UInt8) : ByteMemory where
  byte := fun other => if other = address then value else memory.byte other
  written := address :: memory.written

def load32 (memory : ByteMemory) (address : Nat) : Nat :=
  (memory.load8 address).toNat +
    2 ^ 8 * (memory.load8 (address + 1)).toNat +
    2 ^ 16 * (memory.load8 (address + 2)).toNat +
    2 ^ 24 * (memory.load8 (address + 3)).toNat

/-- Store the low 32 bits of `value`. -/
def store32 (memory : ByteMemory) (address value : Nat) : ByteMemory :=
  (((memory.store8 address (UInt8.ofNat value)).store8
    (address + 1) (UInt8.ofNat (value / 2 ^ 8))).store8
    (address + 2) (UInt8.ofNat (value / 2 ^ 16))).store8
    (address + 3) (UInt8.ofNat (value / 2 ^ 24))

/-- `fill value memory address count` stores `value` to `count` consecutive
bytes, lowest address first. -/
def fill (value : UInt8) : ByteMemory → Nat → Nat → ByteMemory
  | memory, _, 0 => memory
  | memory, address, count + 1 =>
      fill value (memory.store8 address value) (address + 1) count

/-! ## Loads after stores -/

@[simp] theorem load8_store8_same (memory : ByteMemory) (address : Nat)
    (value : UInt8) : (memory.store8 address value).load8 address = value := by
  simp [load8, store8]

theorem load8_store8_of_ne (memory : ByteMemory) {address other : Nat}
    (value : UInt8) (different : other ≠ address) :
    (memory.store8 address value).load8 other = memory.load8 other := by
  simp [load8, store8, different]

theorem load32_lt (memory : ByteMemory) (address : Nat) :
    memory.load32 address < 2 ^ 32 := by
  have first := (memory.load8 address).toNat_lt
  have second := (memory.load8 (address + 1)).toNat_lt
  have third := (memory.load8 (address + 2)).toNat_lt
  have fourth := (memory.load8 (address + 3)).toNat_lt
  simp only [load32]
  omega

@[simp] theorem load32_store32_same (memory : ByteMemory) (address value : Nat) :
    (memory.store32 address value).load32 address = value % 2 ^ 32 := by
  simp only [load32, load8, store32, store8]
  simp only [show address ≠ address + 1 by omega, show address ≠ address + 2 by omega,
    show address ≠ address + 3 by omega, show address + 1 ≠ address + 2 by omega,
    show address + 1 ≠ address + 3 by omega, show address + 2 ≠ address + 3 by omega,
    if_true, if_false, UInt8.toNat_ofNat']
  omega

theorem load8_store32_of_disjoint (memory : ByteMemory) {address other : Nat}
    (value : Nat) (disjoint : other < address ∨ address + 4 ≤ other) :
    (memory.store32 address value).load8 other = memory.load8 other := by
  simp only [store32]
  rw [load8_store8_of_ne _ _ (by omega), load8_store8_of_ne _ _ (by omega),
    load8_store8_of_ne _ _ (by omega), load8_store8_of_ne _ _ (by omega)]

/-- A word load sees only its own four bytes. -/
theorem load32_congr {left right : ByteMemory} {address : Nat}
    (agree : ∀ offset, offset < 4 →
      left.load8 (address + offset) = right.load8 (address + offset)) :
    left.load32 address = right.load32 address := by
  have first := agree 0 (by omega)
  rw [Nat.add_zero] at first
  simp only [load32, first, agree 1 (by omega), agree 2 (by omega),
    agree 3 (by omega)]

theorem load32_store32_of_disjoint (memory : ByteMemory) {address other : Nat}
    (value : Nat) (disjoint : other + 4 ≤ address ∨ address + 4 ≤ other) :
    (memory.store32 address value).load32 other = memory.load32 other := by
  apply load32_congr
  intro offset bound
  exact load8_store32_of_disjoint memory value (by omega)

@[simp] theorem written_store32 (memory : ByteMemory) (address value : Nat) :
    (memory.store32 address value).written =
      (address + 3) :: (address + 2) :: (address + 1) :: address ::
        memory.written := rfl

/-! ## Write footprints -/

/-- Going from `before` to `after` stored only to addresses in `footprint`:
both the log and the contents say so. -/
structure WritesOnly (footprint : Nat → Prop) (before after : ByteMemory) : Prop where
  logged : ∃ stores, after.written = stores ++ before.written ∧
    ∀ address ∈ stores, footprint address
  kept : ∀ address, ¬ footprint address → after.load8 address = before.load8 address

namespace WritesOnly

theorem refl (footprint : Nat → Prop) (memory : ByteMemory) :
    WritesOnly footprint memory memory :=
  ⟨⟨[], rfl, by simp⟩, fun _ _ => rfl⟩

theorem trans {footprint : Nat → Prop} {first second third : ByteMemory}
    (left : WritesOnly footprint first second)
    (right : WritesOnly footprint second third) :
    WritesOnly footprint first third := by
  rcases left.logged with ⟨earlier, earlierLog, earlierInside⟩
  rcases right.logged with ⟨later, laterLog, laterInside⟩
  refine ⟨⟨later ++ earlier, by rw [laterLog, earlierLog, List.append_assoc], ?_⟩, ?_⟩
  · intro address member
    rcases List.mem_append.mp member with member | member
    · exact laterInside address member
    · exact earlierInside address member
  · intro address outside
    exact (right.kept address outside).trans (left.kept address outside)

theorem mono {small large : Nat → Prop} {before after : ByteMemory}
    (writes : WritesOnly small before after)
    (included : ∀ address, small address → large address) :
    WritesOnly large before after := by
  rcases writes.logged with ⟨stores, log, inside⟩
  exact ⟨⟨stores, log, fun address member => included address (inside address member)⟩,
    fun address outside => writes.kept address fun inSmall =>
      outside (included address inSmall)⟩

theorem store8 (memory : ByteMemory) {footprint : Nat → Prop} {address : Nat}
    (value : UInt8) (inside : footprint address) :
    WritesOnly footprint memory (memory.store8 address value) := by
  refine ⟨⟨[address], rfl, by simpa using inside⟩, ?_⟩
  intro other outside
  apply load8_store8_of_ne
  intro equal
  exact outside (equal ▸ inside)

theorem store32 (memory : ByteMemory) {footprint : Nat → Prop} {address : Nat}
    (value : Nat)
    (inside : ∀ other, address ≤ other → other < address + 4 → footprint other) :
    WritesOnly footprint memory (memory.store32 address value) := by
  have first := WritesOnly.store8 memory (UInt8.ofNat value)
    (inside address (by omega) (by omega))
  have second := first.trans (WritesOnly.store8 _ (UInt8.ofNat (value / 2 ^ 8))
    (inside (address + 1) (by omega) (by omega)))
  have third := second.trans (WritesOnly.store8 _ (UInt8.ofNat (value / 2 ^ 16))
    (inside (address + 2) (by omega) (by omega)))
  exact third.trans (WritesOnly.store8 _ (UInt8.ofNat (value / 2 ^ 24))
    (inside (address + 3) (by omega) (by omega)))

theorem fill (value : UInt8) {footprint : Nat → Prop} :
    ∀ (count : Nat) (memory : ByteMemory) (address : Nat),
      (∀ other, address ≤ other → other < address + count → footprint other) →
      WritesOnly footprint memory (ByteMemory.fill value memory address count)
  | 0, memory, _, _ => refl footprint memory
  | count + 1, memory, address, inside => by
      have first := WritesOnly.store8 memory value
        (inside address (by omega) (by omega))
      have rest := fill value count (memory.store8 address value) (address + 1)
        fun other lower upper => inside other (by omega) (by omega)
      exact first.trans rest

/-- A word none of whose bytes is in the footprint reads the same. -/
theorem load32_eq {footprint : Nat → Prop} {before after : ByteMemory}
    (writes : WritesOnly footprint before after) {address : Nat}
    (outside : ∀ other, address ≤ other → other < address + 4 → ¬ footprint other) :
    after.load32 address = before.load32 address := by
  apply load32_congr
  intro offset bound
  exact writes.kept _ (outside _ (by omega) (by omega))

end WritesOnly

end ByteMemory

end Vanilla
