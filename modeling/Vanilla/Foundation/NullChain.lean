import Mathlib.Data.List.Nodup
import Mathlib.Logic.Function.Basic

namespace Vanilla

/-! Singly linked lists that end in a null pointer. The links are one map;
`NullChain` says which nodes follow one another from a head. -/

variable {Node : Type}

def NullChain (next : Node → Option Node) : Option Node → List Node → Prop
  | head, [] => head = none
  | head, node :: rest => head = some node ∧ NullChain next (next node) rest

namespace NullChain

variable {next other : Node → Option Node} {head : Option Node}
  {nodes front rest : List Node} {node prev new : Node}

theorem congr (chain : NullChain next head nodes)
    (agree : ∀ node ∈ nodes, other node = next node) : NullChain other head nodes := by
  induction nodes generalizing head with
  | nil => exact chain
  | cons node rest induction =>
      refine ⟨chain.1, ?_⟩
      rw [agree node List.mem_cons_self]
      exact induction chain.2 fun node member => agree node (List.mem_cons_of_mem _ member)

theorem head_eq (chain : NullChain next head nodes) : head = nodes.head? := by
  cases nodes with
  | nil => exact chain
  | cons node rest => exact chain.1

/-- The links determine the list. -/
theorem unique {others : List Node} (chain : NullChain next head nodes)
    (same : NullChain next head others) : nodes = others := by
  induction nodes generalizing head others with
  | nil =>
      cases others with
      | nil => rfl
      | cons node rest => cases chain.symm.trans same.1
  | cons node rest induction =>
      cases others with
      | nil => cases same.symm.trans chain.1
      | cons first others =>
          cases chain.1.symm.trans same.1
          rw [induction chain.2 same.2]

theorem suffix (chain : NullChain next head (front ++ node :: rest)) :
    NullChain next (some node) (node :: rest) := by
  induction front generalizing head with
  | nil => exact ⟨rfl, chain.2⟩
  | cons _ _ induction => exact induction chain.2

/-- No node comes twice: the list from a node on is the same each time. -/
theorem nodup (chain : NullChain next head nodes) : nodes.Nodup := by
  induction nodes generalizing head with
  | nil => exact List.nodup_nil
  | cons node rest induction =>
      refine List.nodup_cons.mpr ⟨?_, induction chain.2⟩
      intro member
      rcases List.append_of_mem member with ⟨before, after, split⟩
      have whole : NullChain next (some node) (node :: rest) := ⟨rfl, chain.2⟩
      rw [split] at whole
      have later : NullChain next (some node) (node :: after) :=
        @suffix _ next (some node) (node :: before) after node whole
      have lengths := congrArg List.length (whole.unique later)
      simp only [List.length_cons, List.length_append] at lengths
      omega

variable [DecidableEq Node]

/-- A new last node. -/
theorem append (chain : NullChain next head (front ++ [prev]))
    (absent : new ∉ front ++ [prev]) :
    NullChain (Function.update (Function.update next prev (some new)) new none) head
      (front ++ [prev] ++ [new]) := by
  have distinct := chain.nodup
  induction front generalizing head with
  | nil =>
      have apart : prev ≠ new := fun same => absent (by simp [same])
      refine ⟨chain.1, ?_, ?_⟩
      · rw [Function.update_of_ne apart, Function.update_self]
      · rw [Function.update_self]
        rfl
  | cons node front induction =>
      have apart : node ≠ new := fun same => absent (by simp [same])
      have notLast : node ≠ prev := by
        rintro rfl
        exact (List.nodup_cons.mp distinct).1 (by simp)
      refine ⟨chain.1, ?_⟩
      rw [Function.update_of_ne apart, Function.update_of_ne notLast]
      exact induction chain.2 (fun member => absent (List.mem_cons_of_mem _ member))
        (List.nodup_cons.mp distinct).2

/-- A node is bridged by its predecessor. -/
theorem bridge (chain : NullChain next head (front ++ prev :: node :: rest)) :
    NullChain (Function.update next prev (next node)) head (front ++ prev :: rest) := by
  have distinct := chain.nodup
  induction front generalizing head with
  | nil =>
      refine ⟨chain.1, ?_⟩
      rw [Function.update_self]
      apply chain.2.2.congr
      intro other member
      apply Function.update_of_ne
      rintro rfl
      exact (List.nodup_cons.mp distinct).1 (List.mem_cons_of_mem _ member)
  | cons first front induction =>
      have apart : first ≠ prev := by
        rintro rfl
        exact (List.nodup_cons.mp distinct).1 (by simp)
      refine ⟨chain.1, ?_⟩
      rw [Function.update_of_ne apart]
      exact induction chain.2 (List.nodup_cons.mp distinct).2

end NullChain

end Vanilla
