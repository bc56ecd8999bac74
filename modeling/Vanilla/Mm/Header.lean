import Vanilla.Mm.Mm

/-! # Block headers

Reading and writing `struct mm_node` in memory: what the two fields of a node
hold after a store to the same node, and that a store to another node is not
seen.
-/

namespace Vanilla.Mm

open ByteMemory

/-! ## The tagged size word -/

/-- A header word: bank index above, block size below. -/
def tagged (region size : Nat) : Nat := region * 2 ^ 28 + size

theorem tagged_lt {region size : Nat} (regionBound : region < 16)
    (sizeBound : size < 2 ^ 28) : tagged region size < 2 ^ 32 := by
  simp only [tagged]
  omega

theorem mmGetSize_eq (word : Nat) : mmGetSize word = word % 2 ^ 28 :=
  and_low_mask word 28

@[simp] theorem mmGetSize_tagged (region : Nat) {size : Nat} (sizeBound : size < 2 ^ 28) :
    mmGetSize (tagged region size) = size := by
  rw [mmGetSize_eq, tagged]
  omega

theorem mmGetRegion_eq (word : Nat) : mmGetRegion word = word / 2 ^ 28 % 16 := by
  rw [mmGetRegion, Nat.shiftRight_eq_div_pow]
  exact and_low_mask _ 4

@[simp] theorem mmGetRegion_tagged {region size : Nat} (regionBound : region < 16)
    (sizeBound : size < 2 ^ 28) : mmGetRegion (tagged region size) = region := by
  rw [mmGetRegion_eq, tagged]
  omega

/-- The new tag replaces whatever tag the word held. -/
theorem mmSetRegion_eq (word region : Nat) :
    mmSetRegion word region = tagged region (word % 2 ^ 28) := by
  have low : word &&& 0x0FFFFFFF = word % 2 ^ 28 := and_low_mask word 28
  rw [mmSetRegion, low, or_shiftLeft_eq region (Nat.mod_lt _ (by decide)), tagged]

/-- The new size replaces the old one and leaves the tag alone. -/
theorem mmSetSize_eq {word newSize : Nat} (wordBound : word < 2 ^ 32)
    (sizeBound : newSize < 2 ^ 28) :
    mmSetSize word newSize = tagged (word / 2 ^ 28) newSize := by
  have high : word &&& 0xF0000000 = word / 2 ^ 28 * 2 ^ 28 :=
    and_high_mask 28 32 wordBound (by decide)
  rw [mmSetSize, high, Nat.or_comm, ← Nat.shiftLeft_eq, or_shiftLeft_eq _ sizeBound, tagged]

theorem alignDown_eq {value : Nat} (bound : value < 2 ^ 32) :
    alignDown value = value / 8 * 8 :=
  and_high_mask 3 32 bound (by decide)

theorem alignUp_eq {value : Nat} (bound : value + 8 ≤ 2 ^ 32) :
    alignUp value = (value + 7) / 8 * 8 := by
  have low : value &&& 7 = value % 8 := and_low_mask value 3
  rw [alignUp, low]
  split
  · by_cases wraps : value + 8 = 2 ^ 32
    · omega
    · rw [u32_of_lt (by omega), alignDown_eq (by omega)]
      omega
  · omega

/-! ## Nodes in memory -/

/-- The eight bytes of a node. -/
def Header (node address : Nat) : Prop := node ≤ address ∧ address < node + 8

def NodesApart (left right : Nat) : Prop := left + 8 ≤ right ∨ right + 8 ≤ left

theorem NodesApart.symm {left right : Nat} (apart : NodesApart left right) :
    NodesApart right left := Or.symm apart

theorem nodeNext_lt (memory : ByteMemory) (node : Nat) :
    nodeNext memory node < 2 ^ 32 := memory.load32_lt node

theorem nodeNext_setNext_same (memory : ByteMemory) (node : Nat) {value : Nat}
    (bound : value < 2 ^ 32) : nodeNext (setNext memory node value) node = value := by
  rw [nodeNext, setNext, load32_store32_same, Nat.mod_eq_of_lt bound]

theorem nodeSize_setSize_same (memory : ByteMemory) (node : Nat) {value : Nat}
    (bound : value < 2 ^ 32) : nodeSize (setSize memory node value) node = value := by
  rw [nodeSize, setSize, load32_store32_same, Nat.mod_eq_of_lt bound]

@[simp] theorem nodeSize_setNext_same (memory : ByteMemory) (node value : Nat) :
    nodeSize (setNext memory node value) node = nodeSize memory node :=
  load32_store32_of_disjoint memory value (.inr (Nat.le_refl _))

@[simp] theorem nodeNext_setSize_same (memory : ByteMemory) (node value : Nat) :
    nodeNext (setSize memory node value) node = nodeNext memory node :=
  load32_store32_of_disjoint memory value (.inl (Nat.le_refl _))

theorem setNext_writes (memory : ByteMemory) (node value : Nat) :
    WritesOnly (Header node) memory (setNext memory node value) :=
  WritesOnly.store32 memory value fun _ lower upper => ⟨lower, by omega⟩

theorem setSize_writes (memory : ByteMemory) (node value : Nat) :
    WritesOnly (Header node) memory (setSize memory node value) :=
  WritesOnly.store32 memory value fun _ lower upper => ⟨by omega, by omega⟩

section Frame

variable {footprint : Nat → Prop} {before after : ByteMemory} {node : Nat}

/-- Both fields of a node outside the footprint read the same. -/
theorem nodeNext_of_writes (writes : WritesOnly footprint before after)
    (outside : ∀ address, Header node address → ¬ footprint address) :
    nodeNext after node = nodeNext before node :=
  writes.load32_eq fun address lower upper => outside address ⟨lower, by omega⟩

theorem nodeSize_of_writes (writes : WritesOnly footprint before after)
    (outside : ∀ address, Header node address → ¬ footprint address) :
    nodeSize after node = nodeSize before node :=
  writes.load32_eq fun address lower upper => outside address ⟨by omega, by omega⟩

end Frame

theorem NodesApart.not_header {left right : Nat} (apart : NodesApart left right)
    (address : Nat) (inRight : Header right address) : ¬ Header left address := by
  simp only [NodesApart, Header] at *
  omega

section Apart

variable (memory : ByteMemory) {node other : Nat} (value : Nat)

theorem nodeNext_setNext_apart (apart : NodesApart node other) :
    nodeNext (setNext memory node value) other = nodeNext memory other :=
  nodeNext_of_writes (setNext_writes memory node value) apart.not_header

theorem nodeSize_setNext_apart (apart : NodesApart node other) :
    nodeSize (setNext memory node value) other = nodeSize memory other :=
  nodeSize_of_writes (setNext_writes memory node value) apart.not_header

theorem nodeNext_setSize_apart (apart : NodesApart node other) :
    nodeNext (setSize memory node value) other = nodeNext memory other :=
  nodeNext_of_writes (setSize_writes memory node value) apart.not_header

theorem nodeSize_setSize_apart (apart : NodesApart node other) :
    nodeSize (setSize memory node value) other = nodeSize memory other :=
  nodeSize_of_writes (setSize_writes memory node value) apart.not_header

end Apart

end Vanilla.Mm
