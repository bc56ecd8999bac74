import Vanilla.Kernel.Frames
import Vanilla.Mm.Ownership

/-! # The memory of the threads

Every live allocation is the control block of a thread, its code, or in the
hands of somebody else, and none is two of these.
-/

namespace Vanilla.Mm

section Represents

variable {linker : Linker} {config : Config}
  {partitions : (bank : PhysmemE) → BankPartition linker bank}

/-- Two live allocations have two pointers. -/
theorem Represents.pointer_injective (rep : Represents linker config partitions)
    {left right : Allocation} (leftMember : left ∈ config.live) (rightMember : right ∈ config.live)
    (same : left.pointer = right.pointer) : left = right := by
  by_contra different
  have apart := rep.blocks_apart leftMember rightMember (Ne.symm different)
  have leftPointer := rep.pointers left leftMember
  have rightPointer := rep.pointers right rightMember
  simp only [Interval.Disjoint, Interval.stop] at apart
  omega

theorem Represents.pointers_nodup (rep : Represents linker config partitions) :
    (config.live.map Allocation.pointer).Nodup := by
  apply List.Nodup.map_on _ rep.live_nodup
  exact fun left leftMember right rightMember same =>
    rep.pointer_injective leftMember rightMember same

theorem Represents.pointer_positive (rep : Represents linker config partitions)
    {pointer : Nat} (member : pointer ∈ config.live.map Allocation.pointer) : pointer ≠ 0 := by
  rcases List.mem_map.mp member with ⟨allocation, live, rfl⟩
  have facts := rep.pointers allocation live
  omega

end Represents

end Vanilla.Mm

namespace Vanilla.Kernel

open Mm

/-- Some list of allocations accounts for the memory, with these pointers. -/
def Accounts (linker : Linker) (mm : MmState) (pointers : List Nat) : Prop :=
  ∃ live partitions, Mm.Represents linker ⟨mm, live⟩ partitions ∧
    (live.map Allocation.pointer).Perm pointers

namespace Accounts

variable {linker : Linker} {mm : MmState} {pointers : List Nat}

theorem nodup (accounts : Accounts linker mm pointers) : pointers.Nodup := by
  rcases accounts with ⟨live, partitions, rep, permuted⟩
  exact permuted.nodup_iff.mp rep.pointers_nodup

theorem positive (accounts : Accounts linker mm pointers) : 0 ∉ pointers := by
  rcases accounts with ⟨live, partitions, rep, permuted⟩
  exact fun member => rep.pointer_positive (permuted.mem_iff.mpr member) rfl

theorem perm (accounts : Accounts linker mm pointers) {others : List Nat}
    (permuted : pointers.Perm others) : Accounts linker mm others := by
  rcases accounts with ⟨live, partitions, rep, known⟩
  exact ⟨live, partitions, rep, known.trans permuted⟩

theorem free {pointer : Nat} (accounts : Accounts linker mm (pointer :: pointers)) :
    ∃ after, (mmFree pointer).run mm = .ok () after ∧ Accounts linker after pointers := by
  rcases accounts with ⟨live, partitions, rep, permuted⟩
  have member := permuted.mem_iff.mpr List.mem_cons_self
  rcases List.mem_map.mp member with ⟨allocation, isLive, rfl⟩
  rcases rep.free isLive with ⟨after, returns, freed, _⟩
  refine ⟨after, returns, _, _, freed, ?_⟩
  have erased := (List.perm_cons_erase isLive).map Allocation.pointer
  exact (erased.symm.trans permuted).cons_inv

/-- A page allocation, when it does not panic, brings a new pointer. -/
theorem pmalloc (accounts : Accounts linker mm pointers) (count : Nat) (bank : PhysmemE) :
    (Mm.pmalloc count bank).run mm = .error (.panic "palloc failed") mm ∨
      ∃ pointer after, (Mm.pmalloc count bank).run mm = .ok pointer after ∧
        pointer < 2 ^ 31 ∧ Accounts linker after (pointer :: pointers) := by
  rcases accounts with ⟨live, partitions, rep, permuted⟩
  have requestBound : u32 (count * 512) ≤ 0xFFFFFFF0 := by
    simp only [u32]
    omega
  rcases rep.pmalloc count bank requestBound with
    panics | ⟨allocation, after, next, returns, page, changed⟩
  · exact .inl panics
  · have below := bankLast_lt_below linker bank
    have inside := page.inside
    refine .inr ⟨allocation.pointer, after, returns, by omega, _, next, changed, ?_⟩
    exact permuted.cons _

end Accounts

namespace KernelState

/-- The code blocks of some threads. -/
def codes (thread : ThreadPtr → Thread) (threads : List ThreadPtr) : List Nat :=
  (threads.map fun found => (thread found).codeAddr).filter fun code => decide (code ≠ 0)

/-- What the threads own. -/
def owned (model : Model) : List Nat :=
  model.queue .threads ++ codes model.thread (model.queue .threads)

variable {model other : Model}

theorem codes_cons (thread : ThreadPtr → Thread) (found : ThreadPtr)
    (threads : List ThreadPtr) : codes thread (found :: threads) =
      if (thread found).codeAddr ≠ 0 then (thread found).codeAddr :: codes thread threads
      else codes thread threads := by
  simp only [codes, List.map_cons, List.filter_cons, decide_eq_true_eq]

theorem codes_congr {before after : ThreadPtr → Thread} {threads : List ThreadPtr}
    (same : ∀ found ∈ threads, (after found).codeAddr = (before found).codeAddr) :
    codes after threads = codes before threads := by
  unfold codes
  rw [List.map_congr_left same]

theorem codes_perm {thread : ThreadPtr → Thread} {threads others : List ThreadPtr}
    (permuted : threads.Perm others) : (codes thread threads).Perm (codes thread others) :=
  (permuted.map _).filter _

theorem owned_congr (threads : other.queue .threads = model.queue .threads)
    (same : ∀ found ∈ model.queue .threads,
      (other.thread found).codeAddr = (model.thread found).codeAddr) :
    owned other = owned model := by
  rw [owned, owned, threads, codes_congr same]

end KernelState

namespace Accounts

variable {linker : Linker} {mm : MmState} {threads : List ThreadPtr} {thread : ThreadPtr}
  {before after : ThreadPtr → Thread} {spare : List Nat}

/-- The blocks of a thread go back to the memory manager, its code first. -/
theorem delete (accounts : Accounts linker mm
      (threads ++ KernelState.codes before threads ++ spare)) (known : thread ∈ threads) :
    ∃ final, (deleteThread (before thread).codeAddr thread).run mm = .ok () final ∧
      Accounts linker final (threads.erase thread ++
        KernelState.codes before (threads.erase thread) ++ spare) := by
  have split := List.perm_cons_erase known
  have codes : (KernelState.codes before threads).Perm
      (KernelState.codes before (thread :: threads.erase thread)) :=
    KernelState.codes_perm split
  rw [KernelState.codes_cons] at codes
  by_cases loaded : (before thread).codeAddr ≠ 0
  · rw [if_pos loaded] at codes
    have both : Accounts linker mm ((before thread).codeAddr :: thread ::
        (threads.erase thread ++ KernelState.codes before (threads.erase thread) ++ spare)) := by
      apply accounts.perm
      apply ((split.append codes).append_right spare).trans
      simp only [List.cons_append, List.append_assoc]
      exact ((List.perm_middle.cons thread).trans (List.Perm.swap ..))
    obtain ⟨between, codeFreed, rest⟩ := both.free
    obtain ⟨final, freed, rest⟩ := rest.free
    refine ⟨final, ?_, rest⟩
    rw [deleteThread, if_pos loaded]
    rw [Exec.run_bind_of_ok codeFreed]
    exact freed
  · rw [if_neg loaded] at codes
    have one : Accounts linker mm (thread ::
        (threads.erase thread ++ KernelState.codes before (threads.erase thread) ++ spare)) :=
      accounts.perm ((split.append codes).append_right spare)
    obtain ⟨final, freed, rest⟩ := one.free
    refine ⟨final, ?_, rest⟩
    rw [deleteThread, if_neg loaded]
    exact freed

/-- A new thread has a block of its own and takes over the block its code is in. -/
theorem load (accounts : Accounts linker mm
      (thread :: (threads ++ KernelState.codes before threads ++ spare)))
    (same : ∀ found ∈ threads, (after found).codeAddr = (before found).codeAddr)
    (code : (after thread).codeAddr = 0 ∨ (after thread).codeAddr ∈ spare) :
    Accounts linker mm ((thread :: threads) ++ KernelState.codes after (thread :: threads) ++
      spare.erase (after thread).codeAddr) := by
  rw [KernelState.codes_cons, KernelState.codes_congr same]
  apply accounts.perm
  by_cases loaded : (after thread).codeAddr ≠ 0
  · rw [if_pos loaded]
    have taken := List.perm_cons_erase (code.resolve_left loaded)
    simp only [List.cons_append, List.append_assoc]
    apply List.Perm.cons
    apply List.Perm.append_left
    exact (taken.append_left _).trans List.perm_middle
  · have absent : (after thread).codeAddr ∉ spare := by
      rw [not_not.mp loaded]
      intro member
      exact accounts.positive (List.mem_cons_of_mem _ (List.mem_append_right _ member))
    rw [if_neg loaded, List.erase_of_not_mem absent]
    exact .refl _

end Accounts

/-- The memory is what the threads own and what is spare. -/
def Memory (linker : Linker) (model : Model) (spare : List Nat) : Prop :=
  Accounts linker model.mm (model.owned ++ spare)

namespace Memory

variable {linker : Linker} {model other : Model} {spare : List Nat} {thread : ThreadPtr}

theorem congr (memory : Memory linker model spare) (mm : other.mm = model.mm)
    (threads : other.queue .threads = model.queue .threads)
    (same : ∀ found ∈ model.queue .threads,
      (other.thread found).codeAddr = (model.thread found).codeAddr) :
    Memory linker other spare := by
  rw [Memory, KernelState.owned_congr threads same, mm]
  exact memory

/-- The blocks of a thread go back to the memory manager. -/
theorem delete (memory : Memory linker model spare) (known : thread ∈ model.queue .threads) :
    ∃ mm, (deleteThread (model.thread thread).codeAddr thread).run model.mm = .ok () mm ∧
      ∀ other : Model, other.mm = mm →
        other.queue .threads = (model.queue .threads).erase thread →
        (∀ found ∈ other.queue .threads,
          (other.thread found).codeAddr = (model.thread found).codeAddr) →
        Memory linker other spare := by
  obtain ⟨mm, deleted, accounts⟩ := Accounts.delete memory known
  refine ⟨mm, deleted, ?_⟩
  intro other sameMm threads same
  rw [Memory, KernelState.owned, KernelState.codes_congr same, threads, sameMm]
  exact accounts

end Memory

end Vanilla.Kernel
