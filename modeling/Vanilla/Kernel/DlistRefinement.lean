import Vanilla.Kernel.DlistSequence

/-! # The operations on represented lists

Each operation of `dlist.c` returns and changes the sequence of its own list;
the `obj` fields stay as they are.
-/

namespace Vanilla

open DlistStore

variable {Node Id Object : Type} {store : DlistStore Node Id Object} {list : Id} {node : Node}

section Parts

theorem run_dlistCheckFree [DecidableEq Node] (prev : (store.node node).prev = none)
    (next : (store.node node).next = none)
    (notFirst : some node ≠ (store.list list).first) :
    (dlistCheckFree node list).run store = .ok () store := by
  simp [dlistCheckFree, prev, next, notFirst]

/-- A linked node, or one that is first in the list, cannot be inserted. -/
theorem run_dlistCheckFree_error [DecidableEq Node]
    (occupied : (store.node node).prev ≠ none ∨ (store.node node).next ≠ none ∨
      some node = (store.list list).first) :
    (dlistCheckFree node list).run store = .error (.panic "List error") store := by
  simp only [dlistCheckFree]
  rw [Exec.run_bind_of_ok (EStateM.run_get store)]
  by_cases linked : (store.node node).next ≠ none ∨ (store.node node).prev ≠ none
  · rw [if_pos linked]
    rfl
  · have first : some node = (store.list list).first := by tauto
    rw [if_neg linked, if_pos first]
    rfl

@[simp] theorem run_dlistGrow [DecidableEq Id] : (dlistGrow list).run store =
    .ok () (setSize list (u32 ((store.list list).size + 1)) store) := rfl

theorem run_dlistShrink [DecidableEq Id] {reason : String}
    (positive : (store.list list).size ≠ 0) :
    (dlistShrink list reason).run store =
      .ok () (setSize list ((store.list list).size - 1) store) := by
  simp [dlistShrink, positive]

@[simp] theorem run_dlistUnlink [DecidableEq Node] : (dlistUnlink node).run store =
    .ok () (setPrev node none (DlistStore.setNext node none store)) := rfl

/-- The end of each removal: the size goes down, and the node is free again. -/
theorem run_detach [DecidableEq Node] [DecidableEq Id] {changed : DlistStore Node Id Object}
    {reason : String} (positive : (changed.list list).size ≠ 0) :
    (do
      set changed
      dlistShrink list reason
      dlistUnlink node
      return node : Exec (DlistStore Node Id Object) Node).run store =
      .ok node (setPrev node none (DlistStore.setNext node none
        (setSize list ((changed.list list).size - 1) changed))) := by
  rw [Exec.run_bind_of_ok (EStateM.run_set _ _), Exec.run_bind_of_ok (run_dlistShrink positive),
    Exec.run_bind_of_ok run_dlistUnlink, EStateM.run_pure]

end Parts

variable [DecidableEq Node] [DecidableEq Id] {sequence : List Node}

omit [DecidableEq Id] in
theorem Fresh.check (fresh : Fresh store sequence node)
    (rep : Represents store list sequence) :
    (dlistCheckFree node list).run store = .ok () store := by
  apply run_dlistCheckFree fresh.prev fresh.next
  rw [rep.first]
  intro equal
  exact fresh.absent (List.mem_of_head? equal.symm)

/-! ## Insertion -/

section Insert

theorem dlistInsertFirst_spec (rep : Represents store list sequence)
    (fresh : Fresh store sequence node) :
    ∃ after, (dlistInsertFirst node list).run store = .ok () after ∧
      Inserted store after list [] sequence node := by
  simp only [dlistInsertFirst]
  rw [Exec.run_bind_of_ok (fresh.check rep), Exec.run_bind_of_ok (EStateM.run_get store),
    rep.first]
  cases elements : sequence with
  | nil =>
      refine ⟨_, rfl, ?_⟩
      constructor
      · intro other
        by_cases isNode : other = node <;> simp [isNode, fresh.prev]
      · intro other
        by_cases isNode : other = node <;> simp [isNode, fresh.next]
      · simp
      · simp
      · simp
      · simp
      · intro other different
        simp [list_setSize_of_ne, list_setFirst_of_ne, list_setLast_of_ne, different]
  | cons head rest =>
      have notHead : head ≠ node := by
        intro equal
        exact fresh.absent (by simp [elements, equal])
      refine ⟨_, rfl, ?_⟩
      constructor
      · intro other
        by_cases isNode : other = node
        · simp [isNode, fresh.prev, Ne.symm notHead]
        · simp [isNode, eq_comm]
      · intro other
        by_cases isNode : other = node <;> simp [isNode]
      · simp
      · simp
      · simp [rep.last, elements]
      · simp
      · intro other different
        simp [list_setSize_of_ne, list_setFirst_of_ne, different]

theorem dlistInsertLast_spec (rep : Represents store list sequence)
    (fresh : Fresh store sequence node) :
    ∃ after, (dlistInsertLast node list).run store = .ok () after ∧
      Inserted store after list sequence [] node := by
  simp only [dlistInsertLast]
  rw [Exec.run_bind_of_ok (fresh.check rep), Exec.run_bind_of_ok (EStateM.run_get store),
    rep.last]
  cases boundary : sequence.getLast? with
  | none =>
      have elements : sequence = [] := List.getLast?_eq_none_iff.mp boundary
      refine ⟨_, rfl, ?_⟩
      constructor
      · intro other
        by_cases isNode : other = node <;> simp [isNode, fresh.prev, elements]
      · intro other
        by_cases isNode : other = node <;> simp [isNode, fresh.next, elements]
      · simp
      · simp [elements]
      · simp
      · simp
      · intro other different
        simp [list_setSize_of_ne, list_setFirst_of_ne, list_setLast_of_ne, different]
  | some last =>
      have member : last ∈ sequence := List.mem_of_getLast? boundary
      have notLast : last ≠ node := fun equal => fresh.absent (equal ▸ member)
      refine ⟨_, rfl, ?_⟩
      constructor
      · intro other
        by_cases isNode : other = node <;> simp [isNode, boundary]
      · intro other
        by_cases isNode : other = node
        · simp [isNode, fresh.next, Ne.symm notLast]
        · simp [isNode, boundary, eq_comm]
      · simp
      · cases elements : sequence with
        | nil => simp [elements] at member
        | cons head rest => simp [rep.first, elements]
      · simp
      · simp
      · intro other different
        simp [list_setSize_of_ne, list_setLast_of_ne, different]

theorem dlistInsertBefore_spec (rep : Represents store list sequence)
    (fresh : Fresh store sequence node) {left right : List Node} {target : Node}
    (split : sequence = left ++ target :: right) :
    ∃ after, (dlistInsertBefore node target list).run store = .ok () after ∧
      Inserted store after list left (target :: right) node := by
  have nodup := rep.nodup
  rw [split] at nodup
  rcases List.nodup_cons.mp (List.nodup_middle.mp nodup) with ⟨absent, rest⟩
  have linked := rep.linked
  rw [split] at linked
  have notTarget : target ≠ node := by
    intro equal
    exact fresh.absent (by simp [split, equal])
  simp only [dlistInsertBefore]
  rw [Exec.run_bind_of_ok (fresh.check rep), Exec.run_bind_of_ok (EStateM.run_get store),
    rep.first, split]
  cases boundary : left.getLast? with
  | none =>
      have empty : left = [] := List.getLast?_eq_none_iff.mp boundary
      subst empty
      rw [if_pos (by simp)]
      have inserted : ∃ after, (dlistInsertFirst node list).run store = .ok () after ∧
          Inserted store after list [] sequence node :=
        dlistInsertFirst_spec rep fresh
      rw [split] at inserted
      exact inserted
  | some last =>
      have member : last ∈ left := List.mem_of_getLast? boundary
      have notFirst : ¬ some target = (left ++ target :: right).head? := by
        cases left with
        | nil => simp at member
        | cons head others =>
            intro equal
            cases equal
            exact absent (by simp)
      have notLast : last ≠ node := by
        intro equal
        exact fresh.absent (by rw [split]; simp [← equal, member])
      have lastTarget : last ≠ target := by
        intro equal
        exact absent (List.mem_append_left _ (equal ▸ member))
      rw [if_neg notFirst]
      have prev : (store.node target).prev = some last := by
        rw [linked.neighbours.1, boundary]
      rw [prev]
      refine ⟨_, rfl, ?_⟩
      constructor
      · intro other
        by_cases isNode : other = node
        · simp [isNode, boundary, Ne.symm notTarget]
        · simp [isNode, eq_comm]
      · intro other
        by_cases isNode : other = node
        · simp [isNode]
        · simp [isNode, boundary, eq_comm]
      · simp
      · cases left with
        | nil => simp at member
        | cons head others => simp [rep.first, split]
      · simp [rep.last, split, List.getLast?_append, List.getLast?_cons]
      · simp
      · intro other different
        simp [list_setSize_of_ne, different]

theorem dlistInsertAfter_spec (rep : Represents store list sequence)
    (fresh : Fresh store sequence node) {left right : List Node} {target : Node}
    (split : sequence = left ++ target :: right) :
    ∃ after, (dlistInsertAfter node target list).run store = .ok () after ∧
      Inserted store after list (left ++ [target]) right node := by
  have linked := rep.linked
  have nodup := rep.nodup
  rw [split] at linked nodup
  rcases List.nodup_cons.mp (List.nodup_middle.mp nodup) with ⟨absent, rest⟩
  have notTarget : target ≠ node := by
    intro equal
    exact fresh.absent (by simp [split, equal])
  simp only [dlistInsertAfter]
  rw [Exec.run_bind_of_ok (fresh.check rep), Exec.run_bind_of_ok (EStateM.run_get store),
    rep.last, split]
  cases right with
  | nil =>
      rw [if_pos (by simp)]
      rw [← split]
      exact dlistInsertLast_spec rep fresh
  | cons head others =>
      have notLast : ¬ some target = (left ++ target :: head :: others).getLast? := by
        intro equal
        rw [List.getLast?_append, List.getLast?_cons_cons] at equal
        have inRight : target ∈ head :: others := by
          apply List.mem_of_getLast?
          simpa [List.getLast?_cons] using equal.symm
        exact absent (List.mem_append_right _ inRight)
      have notHead : head ≠ node := by
        intro equal
        exact fresh.absent (by simp [split, ← equal])
      have headTarget : head ≠ target := by
        intro equal
        exact absent (by simp [equal])
      rw [if_neg notLast]
      have next : (store.node target).next = some head := linked.neighbours.2
      rw [next]
      refine ⟨_, rfl, ?_⟩
      constructor
      · intro other
        by_cases isNode : other = node
        · simp [isNode]
        · simp [isNode, eq_comm]
      · intro other
        by_cases isNode : other = node
        · simp [isNode, Ne.symm notTarget]
        · simp [isNode, eq_comm]
      · simp
      · cases left <;> simp [rep.first, split]
      · simp [rep.last, split, List.getLast?_append, List.getLast?_cons]
      · simp
      · intro other different
        simp [list_setSize_of_ne, different]

end Insert

/-! ## Removal -/

section Remove

variable {left right : List Node}

theorem dlistRemoveFirst_spec (rep : Represents store list sequence)
    (split : sequence = node :: right) :
    ∃ after, (dlistRemoveFirst list).run store = .ok node after ∧
      Removed store after list [] right node := by
  have linked := rep.linked
  rw [split] at linked
  have next : (store.node node).next = right.head? := by simpa using linked.2.1
  have size : (store.list list).size = right.length + 1 := by rw [rep.size, split]; rfl
  simp only [dlistRemoveFirst]
  rw [Exec.run_bind_of_ok (EStateM.run_get store), rep.first, split]
  simp only [List.head?_cons, next]
  cases right with
  | nil =>
      simp only [List.head?_nil]
      rw [run_detach (by simp [size])]
      refine ⟨_, rfl, ?_⟩
      constructor
      · intro other
        by_cases isNode : other = node <;> simp [isNode]
      · intro other
        by_cases isNode : other = node <;> simp [isNode]
      · simp
      · simp
      · simp
      · simp
      · intro other different
        simp [list_setSize_of_ne, list_setFirst_of_ne, list_setLast_of_ne, different]
  | cons second others =>
      have nodup := rep.nodup
      rw [split] at nodup
      have notSecond : second ≠ node := by
        intro equal
        exact (List.nodup_cons.mp nodup).1 (by simp [equal])
      simp only [List.head?_cons]
      rw [run_detach (by simp [size])]
      refine ⟨_, rfl, ?_⟩
      constructor
      · intro other
        by_cases isNode : other = node
        · simp [isNode]
        · simp [isNode, eq_comm]
      · intro other
        by_cases isNode : other = node <;> simp [isNode]
      · simp
      · simp
      · simp [rep.last, split, List.getLast?_cons]
      · simp
      · intro other different
        simp [list_setSize_of_ne, list_setFirst_of_ne, different]

theorem dlistRemoveLast_spec (rep : Represents store list sequence)
    (split : sequence = left ++ [node]) :
    ∃ after, (dlistRemoveLast list).run store = .ok node after ∧
      Removed store after list left [] node := by
  have linked := rep.linked
  rw [split] at linked
  have prev : (store.node node).prev = left.getLast? := linked.neighbours.1
  have size : (store.list list).size = left.length + 1 := by rw [rep.size, split]; simp
  simp only [dlistRemoveLast]
  rw [Exec.run_bind_of_ok (EStateM.run_get store), rep.last, split]
  simp only [List.getLast?_append, List.getLast?_singleton, Option.some_or, prev]
  cases boundary : left.getLast? with
  | none =>
      have empty : left = [] := List.getLast?_eq_none_iff.mp boundary
      subst empty
      simp only
      rw [run_detach (by simp [size])]
      refine ⟨_, rfl, ?_⟩
      constructor
      · intro other
        by_cases isNode : other = node <;> simp [isNode]
      · intro other
        by_cases isNode : other = node <;> simp [isNode]
      · simp
      · simp
      · simp
      · simp
      · intro other different
        simp [list_setSize_of_ne, list_setFirst_of_ne, list_setLast_of_ne, different]
  | some last =>
      have member : last ∈ left := List.mem_of_getLast? boundary
      have nodup := rep.nodup
      rw [split] at nodup
      have notLast : last ≠ node := by
        intro equal
        exact (List.nodup_append.mp nodup).2.2 last member node (by simp) equal
      simp only
      rw [run_detach (by simp [size])]
      refine ⟨_, rfl, ?_⟩
      constructor
      · intro other
        by_cases isNode : other = node <;> simp [isNode]
      · intro other
        by_cases isNode : other = node
        · simp [isNode]
        · simp [isNode, boundary, eq_comm]
      · simp
      · cases left with
        | nil => simp at member
        | cons head others => simp [rep.first, split]
      · simp [boundary]
      · simp
      · intro other different
        simp [list_setSize_of_ne, list_setLast_of_ne, different]

omit [DecidableEq Id] in
/-- Unlinking a node that has been removed changes nothing. -/
theorem Removed.unlink {before after : DlistStore Node Id Object}
    (removed : Removed before after list left right node) :
    Removed before (setPrev node none (DlistStore.setNext node none after)) list left right
      node where
  prev := by
    intro other
    by_cases isNode : other = node <;> simp [isNode, removed.prev]
  next := by
    intro other
    by_cases isNode : other = node <;> simp [isNode, removed.next]
  obj := by simp [removed.obj]
  first := by simpa using removed.first
  last := by simpa using removed.last
  size := by simpa using removed.size
  lists := by simpa using removed.lists

theorem dlistRemove_spec (rep : Represents store list sequence)
    (split : sequence = left ++ node :: right) :
    ∃ after, (dlistRemove node list).run store = .ok node after ∧
      Removed store after list left right node := by
  have linked := rep.linked
  have nodup := rep.nodup
  rw [split] at linked nodup
  rcases List.nodup_cons.mp (List.nodup_middle.mp nodup) with ⟨absent, rest⟩
  rcases linked.neighbours with ⟨prev, next⟩
  simp only [dlistRemove]
  rw [Exec.run_bind_of_ok (EStateM.run_get store)]
  cases beforeNode : left.getLast? with
  | none =>
      have empty : left = [] := List.getLast?_eq_none_iff.mp beforeNode
      subst empty
      rcases dlistRemoveFirst_spec rep split with ⟨after, returns, removed⟩
      rw [if_pos (by rw [rep.first, split]; rfl), Exec.run_bind_of_ok returns,
        Exec.run_bind_of_ok run_dlistUnlink, EStateM.run_pure]
      exact ⟨_, rfl, removed.unlink⟩
  | some last =>
      have lastMember : last ∈ left := List.mem_of_getLast? beforeNode
      have notFirst : ¬ some node = (store.list list).first := by
        rw [rep.first, split]
        cases left with
        | nil => simp at lastMember
        | cons head others =>
            intro equal
            cases equal
            exact absent (by simp)
      rw [if_neg notFirst]
      cases afterNode : right.head? with
      | none =>
          have empty : right = [] := List.head?_eq_none_iff.mp afterNode
          subst empty
          rcases dlistRemoveLast_spec rep split with ⟨after, returns, removed⟩
          rw [if_pos (by rw [rep.last, split]; simp), Exec.run_bind_of_ok returns,
            Exec.run_bind_of_ok run_dlistUnlink, EStateM.run_pure]
          exact ⟨_, rfl, removed.unlink⟩
      | some second =>
          have secondMember : second ∈ right := List.mem_of_head? afterNode
          have notLast : ¬ some node = (store.list list).last := by
            rw [rep.last, split, List.getLast?_append]
            cases right with
            | nil => simp at secondMember
            | cons head others =>
                intro equal
                have inRight : node ∈ head :: others := by
                  apply List.mem_of_getLast?
                  simpa [List.getLast?_cons] using equal.symm
                exact absent (List.mem_append_right _ inRight)
          have lastNode : last ≠ node := fun equal =>
            absent (List.mem_append_left _ (equal ▸ lastMember))
          have secondNode : second ≠ node := fun equal =>
            absent (List.mem_append_right _ (equal ▸ secondMember))
          have size : (store.list list).size ≠ 0 := by
            rw [rep.size, split]
            simp
          have nextAfter : ((setNext last (store.node node).next store).node node).next =
              some second := by
            rw [node_setNext_next, if_neg (Ne.symm lastNode), next, afterNode]
          rw [if_neg notLast, prev, beforeNode, Exec.run_bind_of_ok (Exec.run_deref_some ..),
            Exec.run_bind_of_ok (EStateM.run_modify _ _),
            Exec.run_bind_of_ok (EStateM.run_get _), nextAfter,
            Exec.run_bind_of_ok (Exec.run_deref_some ..),
            Exec.run_bind_of_ok (EStateM.run_set _ _),
            Exec.run_bind_of_ok (run_dlistShrink (by simpa using size)),
            Exec.run_bind_of_ok run_dlistUnlink, EStateM.run_pure]
          refine ⟨_, rfl, ?_⟩
          constructor
          · intro other
            by_cases isNode : other = node
            · simp [isNode]
            · simp [isNode, beforeNode, afterNode, prev, eq_comm]
          · intro other
            by_cases isNode : other = node
            · simp [isNode]
            · simp [isNode, beforeNode, afterNode, next, eq_comm]
          · simp
          · cases left with
            | nil => simp at lastMember
            | cons head others => simp [rep.first, split]
          · cases right with
            | nil => simp at secondMember
            | cons head others => simp [rep.last, split, List.getLast?_append, List.getLast?_cons]
          · simp
          · intro other different
            simp [list_setSize_of_ne, different]

end Remove

end Vanilla
