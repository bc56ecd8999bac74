import Vanilla.Mm.Bank

/-! # After `mm_init`

Every bank is one free block.
-/

namespace Vanilla.Mm

open ByteMemory

/-- The partition of a bank nothing was allocated from. -/
def wholeBank (linker : Linker) (bank : PhysmemE) : BankPartition linker bank :=
  Partition.whole (bankStart_lt_bankLast linker bank) (bankStart_aligned linker bank)
    (bankLast_aligned linker bank)

/-- Where initializing a bank stores. The erased range of an odd-sized bank
reaches past its last node. -/
def InitFootprint (linker : Linker) (bank : PhysmemE) (address : Nat) : Prop :=
  Header (linker.rootObj bank) address ∨
    bankStart linker bank ≤ address ∧ address < bankLast linker bank + 16

theorem initFootprint_apart (linker : Linker) {left right : PhysmemE}
    (different : left ≠ right) {address : Nat} (inLeft : BankArea linker left address) :
    ¬ InitFootprint linker right address := by
  have leftRoot := linker.rootBelowHeap left
  have rightRoot := linker.rootBelowHeap right
  have roots := linker.rootApart left right different
  have heap := linker.heapFits
  simp only [BankArea, InitFootprint, Header] at *
  cases left <;> cases right <;> simp only [bankStart, bankLast] at * <;>
    first | exact absurd rfl different | omega

/-- The five stores that make a bank one free block. -/
def formatBank (linker : Linker) (bank : PhysmemE) (memory : ByteMemory) : ByteMemory :=
  let first := bankStart linker bank
  let last := bankLast linker bank
  let memory := setSize memory (linker.rootObj bank) 0
  let memory := setNext memory (linker.rootObj bank) first
  let memory := setNext memory first last
  let memory := setSize memory first (mmSetSize 0 (last - first))
  let memory := setSize memory first (mmSetRegion (nodeSize memory first) bank.index)
  let memory := setNext memory last 0
  setSize memory last 0

/-- The addresses `mm_init` starts from; the end may be odd. -/
theorem placeHeap_default (linker : Linker) (bank : PhysmemE) :
    ∃ stop, bankLast linker bank + 8 ≤ stop ∧ stop < bankLast linker bank + 16 ∧
      placeHeap linker (physmemDefault bank) =
        { startAddr := bankStart linker bank, endAddr := stop,
          minAlloc := bankMinAlloc bank } := by
  cases bank with
  | sram =>
      refine ⟨linker.heapEnd, ?_, ?_, rfl⟩ <;> simp only [bankLast, Linker.heapEnd] <;> omega
  | dramBank1 => exact ⟨0x7007FFFF, by simp [bankLast], by simp [bankLast], rfl⟩
  | dramBank2 => exact ⟨0x700FFFFF, by simp [bankLast], by simp [bankLast], rfl⟩
  | dramBank3 => exact ⟨0x7017FFFF, by simp [bankLast], by simp [bankLast], rfl⟩
  | dramBank4 => exact ⟨0x701FFFFF, by simp [bankLast], by simp [bankLast], rfl⟩

theorem bankLast_lt_below (linker : Linker) (bank : PhysmemE) :
    bankLast linker bank + 16 ≤ 0x80000000 := by
  have heap := linker.heapFits
  cases bank <;> simp only [bankLast] <;> omega

theorem mmInitBank_eq (linker : Linker) (state : MmState) (bank : PhysmemE)
    (fresh : state.physicalMemories bank = physmemDefault bank) :
    ∃ count, bankStart linker bank + count ≤ bankLast linker bank + 16 ∧
      mmInitBank linker state bank =
        ⟨formatBank linker bank (fill 0 state.memory (bankStart linker bank) count),
          Function.update state.physicalMemories bank
            { startAddr := bankStart linker bank
              endAddr := bankLast linker bank + 8
              size := bankLast linker bank - bankStart linker bank
              allocated := 0
              minAlloc := bankMinAlloc bank
              rootNode := linker.rootObj bank
              lastNode := bankLast linker bank }⟩ := by
  rcases placeHeap_default linker bank with ⟨stop, above, below, placed⟩
  have high := bankLast_lt_below linker bank
  have order := bankStart_lt_bankLast linker bank
  have startAligned := bankStart_aligned linker bank
  have lastAligned := bankLast_aligned linker bank
  have start : alignUp (bankStart linker bank) = bankStart linker bank := by
    rw [alignUp_eq (by omega)]
    omega
  have down : alignDown stop = bankLast linker bank + 8 := by
    rw [alignDown_eq (by omega)]
    omega
  have last : u32Sub (bankLast linker bank + 8) sizeofMmNode = bankLast linker bank := by
    simp only [sizeofMmNode]
    rw [u32Sub_of_le (by omega) (by omega)]
    omega
  have extent : u32Sub stop (bankStart linker bank) = stop - bankStart linker bank :=
    u32Sub_of_le (by omega) (by omega)
  have size : u32Sub (bankLast linker bank) (bankStart linker bank) =
      bankLast linker bank - bankStart linker bank := u32Sub_of_le (by omega) (by omega)
  refine ⟨stop - bankStart linker bank, by omega, ?_⟩
  simp only [mmInitBank, fresh, placed, start, down, last, extent, size, formatBank]

/-- The headers of a formatted bank. -/
theorem formatBank_spec (linker : Linker) (bank : PhysmemE) (memory : ByteMemory) :
    nodeNext (formatBank linker bank memory) (linker.rootObj bank) = bankStart linker bank ∧
      nodeSize (formatBank linker bank memory) (linker.rootObj bank) = 0 ∧
      nodeNext (formatBank linker bank memory) (bankStart linker bank) =
        bankLast linker bank ∧
      nodeSize (formatBank linker bank memory) (bankStart linker bank) =
        tagged bank.index (bankLast linker bank - bankStart linker bank) ∧
      nodeNext (formatBank linker bank memory) (bankLast linker bank) = 0 := by
  have high := bankLast_lt_below linker bank
  have order := bankStart_lt_bankLast linker bank
  have startAligned := bankStart_aligned linker bank
  have lastAligned := bankLast_aligned linker bank
  have below := rootObj_below linker bank
  have bound := bankSize_lt linker bank
  have region := bankIndex_lt bank
  have rootFirst : NodesApart (linker.rootObj bank) (bankStart linker bank) := .inl below
  have rootLast : NodesApart (linker.rootObj bank) (bankLast linker bank) := .inl (by omega)
  have firstLast : NodesApart (bankStart linker bank) (bankLast linker bank) :=
    .inl (by omega)
  have sized : mmSetSize 0 (bankLast linker bank - bankStart linker bank) =
      tagged 0 (bankLast linker bank - bankStart linker bank) := by
    rw [mmSetSize_eq (by decide) bound, Nat.zero_div]
  have sizeMod : tagged 0 (bankLast linker bank - bankStart linker bank) % 2 ^ 28 =
      bankLast linker bank - bankStart linker bank := by
    simp only [tagged]
    omega
  have tag : ∀ (memory : ByteMemory), nodeSize (setSize memory (bankStart linker bank)
      (tagged 0 (bankLast linker bank - bankStart linker bank))) (bankStart linker bank) =
      tagged 0 (bankLast linker bank - bankStart linker bank) :=
    fun memory => nodeSize_setSize_same memory _ (tagged_lt (by decide) bound)
  have startBound : bankStart linker bank < 2 ^ 32 := by omega
  have lastBound : bankLast linker bank < 2 ^ 32 := by omega
  have wordBound := tagged_lt region bound
  simp only [formatBank, sized, tag, mmSetRegion_eq, sizeMod]
  refine ⟨?_, ?_, ?_, ?_, ?_⟩
  · rw [nodeNext_setSize_apart _ _ rootLast.symm, nodeNext_setNext_apart _ _ rootLast.symm,
      nodeNext_setSize_apart _ _ rootFirst.symm, nodeNext_setSize_apart _ _ rootFirst.symm,
      nodeNext_setNext_apart _ _ rootFirst.symm, nodeNext_setNext_same _ _ startBound]
  · rw [nodeSize_setSize_apart _ _ rootLast.symm, nodeSize_setNext_apart _ _ rootLast.symm,
      nodeSize_setSize_apart _ _ rootFirst.symm, nodeSize_setSize_apart _ _ rootFirst.symm,
      nodeSize_setNext_apart _ _ rootFirst.symm, nodeSize_setNext_same,
      nodeSize_setSize_same _ _ (by decide)]
  · rw [nodeNext_setSize_apart _ _ firstLast.symm, nodeNext_setNext_apart _ _ firstLast.symm,
      nodeNext_setSize_same, nodeNext_setSize_same, nodeNext_setNext_same _ _ lastBound]
  · rw [nodeSize_setSize_apart _ _ firstLast.symm, nodeSize_setNext_apart _ _ firstLast.symm,
      nodeSize_setSize_same _ _ wordBound]
  · rw [nodeNext_setSize_same, nodeNext_setNext_same _ _ (by decide)]

theorem formatBank_writes (linker : Linker) (bank : PhysmemE) (memory : ByteMemory) :
    WritesOnly (InitFootprint linker bank) memory (formatBank linker bank memory) := by
  have order := bankStart_lt_bankLast linker bank
  have root : ∀ address, Header (linker.rootObj bank) address →
      InitFootprint linker bank address := fun _ => .inl
  have first : ∀ address, Header (bankStart linker bank) address →
      InitFootprint linker bank address := by
    intro address inside
    simp only [Header] at inside
    exact .inr (by omega)
  have last : ∀ address, Header (bankLast linker bank) address →
      InitFootprint linker bank address := by
    intro address inside
    simp only [Header] at inside
    exact .inr (by omega)
  simp only [formatBank]
  apply WritesOnly.trans _ ((setSize_writes _ _ _).mono last)
  apply WritesOnly.trans _ ((setNext_writes _ _ _).mono last)
  apply WritesOnly.trans _ ((setSize_writes _ _ _).mono first)
  apply WritesOnly.trans _ ((setSize_writes _ _ _).mono first)
  apply WritesOnly.trans _ ((setNext_writes _ _ _).mono first)
  exact ((setSize_writes _ _ _).mono root).trans ((setNext_writes _ _ _).mono root)

section Bank

variable {linker : Linker} {state : MmState} {bank : PhysmemE}

theorem mmInitBank_rep (fresh : state.physicalMemories bank = physmemDefault bank) :
    BankRep linker (mmInitBank linker state bank) bank (wholeBank linker bank) := by
  rcases mmInitBank_eq linker state bank fresh with ⟨count, _, equal⟩
  rcases formatBank_spec linker bank (fill 0 state.memory (bankStart linker bank) count) with
    ⟨rootNext, rootSize, firstNext, firstSize, lastNext⟩
  rw [equal]
  exact {
    startAddr := by simp
    size := by simp
    allocated := by simp [wholeBank, Partition.whole]
    minAlloc := by simp
    rootNode := by simp
    lastNode := by simp
    chain := ⟨rootNext, firstSize, firstNext⟩
    rootSize := rootSize
    lastNext := lastNext
    live := by simp [wholeBank, Partition.whole] }

/-- Initializing one bank leaves a bank that is already initialized alone. -/
theorem mmInitBank_frame {other : PhysmemE} (different : other ≠ bank)
    (fresh : state.physicalMemories bank = physmemDefault bank)
    {partition : BankPartition linker other} (rep : BankRep linker state other partition) :
    BankRep linker (mmInitBank linker state bank) other partition := by
  rcases mmInitBank_eq linker state bank fresh with ⟨count, bound, equal⟩
  have order := bankStart_lt_bankLast linker bank
  have erases : WritesOnly (InitFootprint linker bank) state.memory
      (fill 0 state.memory (bankStart linker bank) count) := by
    apply WritesOnly.fill
    intro address lower upper
    exact .inr ⟨lower, by omega⟩
  rw [equal]
  refine rep.frame (Function.update_of_ne different ..)
    (erases.trans (formatBank_writes linker bank _)) ?_
  exact fun address header =>
    initFootprint_apart linker different (bankHeader_inArea partition header)

theorem mmInitBank_records {other : PhysmemE} (different : other ≠ bank) :
    (mmInitBank linker state bank).physicalMemories other = state.physicalMemories other :=
  Function.update_of_ne different ..

end Bank

theorem mmInit_fold (linker : Linker) :
    ∀ (banks : List PhysmemE) (state : MmState), banks.Nodup →
      (∀ bank ∈ banks, state.physicalMemories bank = physmemDefault bank) →
      (∀ bank, bank ∉ banks → BankRep linker state bank (wholeBank linker bank)) →
      ∀ bank, BankRep linker (banks.foldl (mmInitBank linker) state) bank
        (wholeBank linker bank)
  | [], _, _, _, done, bank => done bank (by simp)
  | head :: rest, state, nodup, fresh, done, bank => by
      rcases List.nodup_cons.mp nodup with ⟨headNew, restNodup⟩
      have headFresh := fresh head List.mem_cons_self
      apply mmInit_fold linker rest (mmInitBank linker state head) restNodup
      · intro other member
        have different : other ≠ head := fun equal => headNew (equal ▸ member)
        rw [mmInitBank_records different]
        exact fresh other (List.mem_cons_of_mem _ member)
      · intro other outside
        by_cases equal : other = head
        · subst other
          exact mmInitBank_rep headFresh
        · apply mmInitBank_frame equal headFresh
          exact done other (by simp [equal, outside])

/-- `mm_init` makes one free block of every bank, whatever memory held. -/
theorem mmInit_rep (linker : Linker) (memory : ByteMemory) (bank : PhysmemE) :
    BankRep linker (mmInit linker memory) bank (wholeBank linker bank) := by
  apply mmInit_fold linker physicalMemoryList _ (by decide)
  · exact fun _ _ => rfl
  · intro other outside
    cases other <;> simp [physicalMemoryList] at outside

end Vanilla.Mm
