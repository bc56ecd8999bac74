import Mathlib.Data.Finset.Card
import Mathlib.Data.Finset.Range
import Mathlib.Data.List.Induction
import Vanilla.Kernel.DlistRefinement

/-! # Every list operation is one on sequences

`DlistOperation` names the operations of `dlist.h`. Each has its code and its
meaning on a sequence, and the code of each refines its meaning.
-/

namespace Vanilla

open DlistStore

variable {Node Id Object : Type}

inductive DlistOperation (Node : Type) where
  | insertFirst (node : Node)
  | insertLast (node : Node)
  | insertAfter (node target : Node)
  | insertBefore (node target : Node)
  | removeFirst
  | removeLast
  | remove (node : Node)
  | search (node : Node)
deriving DecidableEq, Repr

/-- What an operation returns. -/
inductive DlistReply (Node : Type) where
  | done
  | removed (node : Node)
  | found (answer : Bool)
deriving DecidableEq, Repr

namespace DlistOperation

section Code

variable [DecidableEq Node] [DecidableEq Id]

def code (list : Id) : DlistOperation Node → Exec (DlistStore Node Id Object) (DlistReply Node)
  | insertFirst node => do
      dlistInsertFirst node list
      return .done
  | insertLast node => do
      dlistInsertLast node list
      return .done
  | insertAfter node target => do
      dlistInsertAfter node target list
      return .done
  | insertBefore node target => do
      dlistInsertBefore node target list
      return .done
  | removeFirst => do return .removed (← dlistRemoveFirst list)
  | removeLast => do return .removed (← dlistRemoveLast list)
  | remove node => do return .removed (← dlistRemove node list)
  | search node => do return .found (← dlistSearch node list)

end Code

/-- The node an operation inserts. -/
def inserted : DlistOperation Node → Option Node
  | insertFirst node | insertLast node | insertAfter node _ | insertBefore node _ => some node
  | _ => none

/-- The elements of the sequence that an operation relies on. -/
def Applies (sequence : List Node) : DlistOperation Node → Prop
  | insertFirst node | insertLast node => node ∉ sequence
  | insertAfter node target | insertBefore node target => node ∉ sequence ∧ target ∈ sequence
  | removeFirst | removeLast => sequence ≠ []
  | remove node => node ∈ sequence
  | search _ => True

/-! ## Meaning -/

section Meaning

variable [DecidableEq Node]

def placeAfter (node target : Node) : List Node → List Node
  | [] => []
  | head :: rest =>
      if head = target then head :: node :: rest else head :: placeAfter node target rest

def placeBefore (node target : Node) : List Node → List Node
  | [] => []
  | head :: rest =>
      if head = target then node :: head :: rest else head :: placeBefore node target rest

def apply (sequence : List Node) : DlistOperation Node → List Node
  | insertFirst node => node :: sequence
  | insertLast node => sequence ++ [node]
  | insertAfter node target => placeAfter node target sequence
  | insertBefore node target => placeBefore node target sequence
  | removeFirst => sequence.tail
  | removeLast => sequence.dropLast
  | remove node => sequence.erase node
  | search _ => sequence

def Answers (sequence : List Node) : DlistOperation Node → DlistReply Node → Prop
  | removeFirst, reply => ∃ node, sequence.head? = some node ∧ reply = .removed node
  | removeLast, reply => ∃ node, sequence.getLast? = some node ∧ reply = .removed node
  | remove node, reply => reply = .removed node
  | search node, reply => reply = .found (decide (node ∈ sequence))
  | _, reply => reply = .done

theorem placeAfter_middle {node target : Node} {left right : List Node}
    (absent : target ∉ left) : placeAfter node target (left ++ target :: right) =
      left ++ target :: node :: right := by
  induction left with
  | nil => simp [placeAfter]
  | cons head rest induction =>
      have parts := not_or.mp (fun inLeft => absent (List.mem_cons.mpr inLeft))
      rw [List.cons_append, placeAfter, if_neg (Ne.symm parts.1), induction parts.2]
      rfl

theorem placeBefore_middle {node target : Node} {left right : List Node}
    (absent : target ∉ left) : placeBefore node target (left ++ target :: right) =
      left ++ node :: target :: right := by
  induction left with
  | nil => simp [placeBefore]
  | cons head rest induction =>
      have parts := not_or.mp (fun inLeft => absent (List.mem_cons.mpr inLeft))
      rw [List.cons_append, placeBefore, if_neg (Ne.symm parts.1), induction parts.2]
      rfl

end Meaning

end DlistOperation

/-! ## Traversals -/

/-- Follow links from a node on; `rounds` bounds the nodes visited. -/
def traverse (link : Node → Option Node) : Nat → Option Node → List Node
  | _, none => []
  | 0, some _ => []
  | rounds + 1, some node => node :: traverse link rounds (link node)

section Traverse

variable {node : Node → DlistNode Node Object} {sequence : List Node} {rounds : Nat}
  {prev : Option Node}

theorem Linked.forward (linked : Linked node prev sequence none)
    (enough : sequence.length ≤ rounds) :
    traverse (fun member => (node member).next) rounds sequence.head? = sequence := by
  induction sequence generalizing prev rounds with
  | nil => cases rounds <;> rfl
  | cons head rest induction =>
      cases rounds with
      | zero => cases enough
      | succ rounds =>
          have next : (node head).next = rest.head? := by rw [linked.2.1, Option.or_none]
          simp only [List.head?_cons, traverse, next]
          rw [induction linked.2.2 (Nat.le_of_succ_le_succ enough)]

/-- Backward from the end of a front part, the front part comes out reversed. -/
theorem Linked.backward {back : List Node} (linked : Linked node none (sequence ++ back) none)
    (enough : sequence.length ≤ rounds) :
    traverse (fun member => (node member).prev) rounds sequence.getLast? =
      sequence.reverse := by
  induction sequence using List.reverseRecOn generalizing back rounds with
  | nil => cases rounds <;> rfl
  | append_singleton front last induction =>
      rw [List.length_append, List.length_singleton] at enough
      rw [List.append_assoc, List.singleton_append] at linked
      cases rounds with
      | zero => cases enough
      | succ rounds =>
          rw [List.getLast?_concat, traverse, linked.neighbours.1,
            induction linked (Nat.le_of_succ_le_succ enough), List.reverse_append]
          rfl

end Traverse

/-! ## Refinement -/

section Search

variable [DecidableEq Node] {store : DlistStore Node Id Object} {node : Node}
  {prev : Option Node}

theorem run_searchFrom {sequence : List Node} {rounds : Nat}
    (linked : Linked store.node prev sequence none) (enough : sequence.length ≤ rounds) :
    (searchFrom node rounds sequence.head?).run store =
      .ok (decide (node ∈ sequence)) store := by
  induction sequence generalizing prev rounds with
  | nil => cases rounds <;> rfl
  | cons head rest induction =>
      cases rounds with
      | zero => cases enough
      | succ rounds =>
          have next : (store.node head).next = rest.head? := by rw [linked.2.1, Option.or_none]
          simp only [List.head?_cons, searchFrom]
          by_cases found : head = node
          · rw [if_pos found, EStateM.run_pure]
            simp [found]
          · rw [if_neg found, Exec.run_bind_of_ok (EStateM.run_get store), next,
              induction linked.2.2 (Nat.le_of_succ_le_succ enough)]
            simp [Ne.symm found]

end Search

/-- The address of a `struct dlist_node`: it starts with a pointer, so it is
aligned to a word. -/
@[ext] structure NodeAddr where
  address : Nat
  below : address < 2 ^ 32
  aligned : address % 4 = 0
deriving DecidableEq

/-- There are not enough addresses to overflow the size of a list. -/
theorem nodeAddr_room {sequence : List NodeAddr} (nodup : sequence.Nodup) :
    sequence.length + 1 < 2 ^ 32 := by
  have words : (sequence.map fun node => node.address / 4).Nodup := by
    apply nodup.map
    intro left right equal
    have equalWords : left.address / 4 = right.address / 4 := equal
    have leftAligned := left.aligned
    have rightAligned := right.aligned
    apply NodeAddr.ext
    omega
  have bound : (sequence.map fun node => node.address / 4).length ≤ 2 ^ 30 := by
    rw [← List.toFinset_card_of_nodup words, ← Finset.card_range (2 ^ 30)]
    apply Finset.card_le_card
    intro word member
    rcases List.mem_map.mp (List.mem_toFinset.mp member) with ⟨node, _, rfl⟩
    have inRange := node.below
    exact Finset.mem_range.mpr (by omega)
  rw [List.length_map] at bound
  omega

variable [DecidableEq Id] {store : DlistStore NodeAddr Id Object} {list : Id}
  {sequence : List NodeAddr}

/-- What an operation leaves behind besides its reply. -/
structure DlistEffect (operation : DlistOperation NodeAddr) (list : Id)
    (sequence : List NodeAddr) (before after : DlistStore NodeAddr Id Object) : Prop where
  represents : Represents after list (operation.apply sequence)
  removed : ∀ node ∈ sequence, node ∉ operation.apply sequence →
    (after.node node).prev = none ∧ (after.node node).next = none
  outside : ∀ node, node ∉ sequence → operation.inserted ≠ some node →
    (after.node node).prev = (before.node node).prev ∧
      (after.node node).next = (before.node node).next
  obj : ∀ node, (after.node node).obj = (before.node node).obj
  lists : ∀ other, other ≠ list → after.list other = before.list other

omit [DecidableEq Id] in
theorem Inserted.effect {operation : DlistOperation NodeAddr} {node : NodeAddr}
    {after : DlistStore NodeAddr Id Object} {left right : List NodeAddr}
    (inserted : Inserted store after list left right node)
    (rep : Represents store list sequence) (fresh : Fresh store sequence node)
    (split : sequence = left ++ right) (isNode : operation.inserted = some node)
    (applied : operation.apply sequence = left ++ node :: right) :
    DlistEffect operation list sequence store after where
  represents := by
    rw [applied]
    rw [split] at rep fresh
    exact rep.inserted fresh (nodeAddr_room rep.nodup) inserted
  removed := by
    intro member inOld notNew
    rw [applied, mem_middle, ← split] at notNew
    exact absurd (.inr inOld) notNew
  outside := by
    intro member notOld notInserted
    apply inserted.outside
    · exact fun equal => notInserted (equal ▸ isNode)
    · exact split ▸ notOld
  obj := inserted.obj
  lists := inserted.lists

omit [DecidableEq Id] in
theorem Removed.effect {operation : DlistOperation NodeAddr} {node : NodeAddr}
    {after : DlistStore NodeAddr Id Object} {left right : List NodeAddr}
    (removed : Removed store after list left right node)
    (rep : Represents store list sequence) (split : sequence = left ++ node :: right)
    (applied : operation.apply sequence = left ++ right) :
    DlistEffect operation list sequence store after where
  represents := by
    rw [applied]
    rw [split] at rep
    exact rep.removed removed
  removed := by
    intro member inOld notNew
    rw [applied] at notNew
    rw [split, mem_middle] at inOld
    have isNode : member = node := inOld.resolve_right notNew
    rw [removed.prev, removed.next, if_pos isNode, if_pos isNode]
    exact ⟨rfl, rfl⟩
  outside := by
    intro member notOld _
    rw [split, mem_middle] at notOld
    exact removed.outside (fun equal => notOld (.inl equal)) fun inList => notOld (.inr inList)
  obj := removed.obj
  lists := removed.lists

/-- The code of an operation that applies returns its answer and has its effect. -/
theorem DlistOperation.refines (operation : DlistOperation NodeAddr)
    (rep : Represents store list sequence) (applies : operation.Applies sequence)
    (unlinked : ∀ node, operation.inserted = some node →
      (store.node node).prev = none ∧ (store.node node).next = none) :
    ∃ reply after, (operation.code list).run store = .ok reply after ∧
      operation.Answers sequence reply ∧ DlistEffect operation list sequence store after := by
  have fresh : ∀ node, operation.inserted = some node → node ∉ sequence →
      Fresh store sequence node := fun node isNode absent =>
    ⟨(unlinked node isNode).1, (unlinked node isNode).2, absent⟩
  cases operation with
  | insertFirst node =>
      have free := fresh node rfl applies
      rcases dlistInsertFirst_spec rep free with ⟨after, returns, inserted⟩
      exact ⟨_, after, Exec.run_bind_of_ok returns, rfl, inserted.effect rep free rfl rfl rfl⟩
  | insertLast node =>
      have free := fresh node rfl applies
      rcases dlistInsertLast_spec rep free with ⟨after, returns, inserted⟩
      exact ⟨_, after, Exec.run_bind_of_ok returns, rfl,
        inserted.effect rep free (List.append_nil _).symm rfl rfl⟩
  | insertAfter node target =>
      have free := fresh node rfl applies.1
      rcases List.append_of_mem applies.2 with ⟨left, right, split⟩
      rcases dlistInsertAfter_spec rep free split with ⟨after, returns, inserted⟩
      have nodup := rep.nodup
      rw [split] at nodup
      have absent : target ∉ left := fun inLeft =>
        (List.nodup_cons.mp (List.nodup_middle.mp nodup)).1 (List.mem_append_left _ inLeft)
      refine ⟨_, after, Exec.run_bind_of_ok returns, rfl, inserted.effect rep free ?_ rfl ?_⟩
      · rw [split, List.append_assoc]
        rfl
      · rw [split, DlistOperation.apply, placeAfter_middle absent, List.append_assoc]
        rfl
  | insertBefore node target =>
      have free := fresh node rfl applies.1
      rcases List.append_of_mem applies.2 with ⟨left, right, split⟩
      rcases dlistInsertBefore_spec rep free split with ⟨after, returns, inserted⟩
      have nodup := rep.nodup
      rw [split] at nodup
      have absent : target ∉ left := fun inLeft =>
        (List.nodup_cons.mp (List.nodup_middle.mp nodup)).1 (List.mem_append_left _ inLeft)
      refine ⟨_, after, Exec.run_bind_of_ok returns, rfl,
        inserted.effect rep free split rfl ?_⟩
      rw [split, DlistOperation.apply, placeBefore_middle absent]
  | removeFirst =>
      cases split : sequence with
      | nil => exact absurd split applies
      | cons head rest =>
          rcases dlistRemoveFirst_spec rep split with ⟨after, returns, removed⟩
          exact ⟨_, after, Exec.run_bind_of_ok returns, ⟨head, rfl, rfl⟩,
            removed.effect (split ▸ rep) rfl rfl⟩
  | removeLast =>
      have split := (List.dropLast_append_getLast applies).symm
      rcases dlistRemoveLast_spec rep split with ⟨after, returns, removed⟩
      exact ⟨_, after, Exec.run_bind_of_ok returns,
        ⟨_, List.getLast?_eq_getLast_of_ne_nil applies, rfl⟩,
        removed.effect rep split (List.append_nil _).symm⟩
  | remove node =>
      rcases List.append_of_mem applies with ⟨left, right, split⟩
      rcases dlistRemove_spec rep split with ⟨after, returns, removed⟩
      have nodup := rep.nodup
      rw [split] at nodup
      have absent : node ∉ left := fun inLeft =>
        (List.nodup_cons.mp (List.nodup_middle.mp nodup)).1 (List.mem_append_left _ inLeft)
      refine ⟨_, after, Exec.run_bind_of_ok returns, rfl, removed.effect rep split ?_⟩
      simp only [split, DlistOperation.apply]
      rw [List.erase_append_right _ absent, List.erase_cons_head]
  | search node =>
      have enough : sequence.length ≤ loopRounds := by
        rw [loopRounds]
        exact rep.bound.le
      have searched : (searchFrom node loopRounds sequence.head?).run store = _ :=
        run_searchFrom rep.linked enough
      have returns : (dlistSearch node list).run store =
          .ok (decide (node ∈ sequence)) store := by
        rw [dlistSearch, Exec.run_bind_of_ok (EStateM.run_get store), rep.first]
        exact searched
      refine ⟨_, store, Exec.run_bind_of_ok returns, rfl, ?_⟩
      exact {
        represents := rep
        removed := fun member inOld notNew => absurd inOld notNew
        outside := fun _ _ _ => ⟨rfl, rfl⟩
        obj := fun _ => rfl
        lists := fun _ _ => rfl }

omit [DecidableEq Id] in
/-- A node that is in the list has a link or is its first node. -/
theorem Represents.occupied (rep : Represents store list sequence) {node : NodeAddr}
    (member : node ∈ sequence) : (store.node node).prev ≠ none ∨
      (store.node node).next ≠ none ∨ some node = (store.list list).first := by
  rcases List.append_of_mem member with ⟨left, right, split⟩
  have linked := rep.linked
  rw [split] at linked
  rcases linked.neighbours with ⟨prev, next⟩
  rw [rep.first, split, prev, next]
  cases left using List.reverseRecOn with
  | nil => exact .inr (.inr rfl)
  | append_singleton front last => simp

/-- A node with a link, or that is first in the list, is not inserted. -/
theorem DlistOperation.refuses {operation : DlistOperation NodeAddr} {node : NodeAddr}
    (inserts : operation.inserted = some node)
    (occupied : (store.node node).prev ≠ none ∨ (store.node node).next ≠ none ∨
      some node = (store.list list).first) :
    (operation.code list).run store = .error (.panic "List error") store := by
  have check : (dlistCheckFree node list).run store = .error (.panic "List error") store :=
    run_dlistCheckFree_error occupied
  cases operation with
  | insertFirst other | insertLast other | insertAfter other target | insertBefore other target =>
      cases inserts
      simp only [DlistOperation.code, dlistInsertFirst, dlistInsertLast, dlistInsertAfter,
        dlistInsertBefore, EStateM.run_bind, check]
  | _ => cases inserts

/-- For a list that represents a sequence of distinct nodes: both traversals,
every operation with unlinked nodes, and the insertion of an element. -/
theorem dlist_refines_sequence (store : DlistStore NodeAddr Id Object) (list : Id)
    (sequence : List NodeAddr) (rep : Represents store list sequence) :
    (traverse (fun node => (store.node node).next) loopRounds (store.list list).first =
        sequence ∧
      traverse (fun node => (store.node node).prev) loopRounds (store.list list).last =
        sequence.reverse ∧
      (store.list list).size = sequence.length) ∧
    (∀ operation : DlistOperation NodeAddr, operation.Applies sequence →
      (∀ node, operation.inserted = some node →
        (store.node node).prev = none ∧ (store.node node).next = none) →
      ∃ reply after, (operation.code list).run store = .ok reply after ∧
        operation.Answers sequence reply ∧
        DlistEffect operation list sequence store after) ∧
    (∀ operation : DlistOperation NodeAddr, ∀ node, operation.inserted = some node →
      node ∈ sequence →
      (operation.code list).run store = .error (.panic "List error") store) := by
  have enough : sequence.length ≤ loopRounds := by
    rw [loopRounds]
    exact rep.bound.le
  refine ⟨⟨?_, ?_, rep.size⟩, ?_, ?_⟩
  · rw [rep.first]
    exact rep.linked.forward enough
  · have linked : Linked store.node none (sequence ++ []) none := by
      rw [List.append_nil]
      exact rep.linked
    rw [rep.last]
    exact linked.backward enough
  · exact fun operation applies unlinked => operation.refines rep applies unlinked
  · exact fun operation node inserts member => operation.refuses inserts (rep.occupied member)

/-- An empty list can be inserted into. -/
theorem dlist_refines_sequence_empty :
    ∃ reply after, ((DlistOperation.insertLast ⟨4, by decide, by decide⟩).code ()).run
        (⟨fun _ => {}, fun _ => {}⟩ : DlistStore NodeAddr Unit Nat) = .ok reply after ∧
      Represents after () [⟨4, by decide, by decide⟩] := by
  have empty : Represents (⟨fun _ => {}, fun _ => {}⟩ : DlistStore NodeAddr Unit Nat) () [] :=
    ⟨rfl, rfl, rfl, by simp, List.nodup_nil, trivial⟩
  rcases (dlist_refines_sequence _ () [] empty).2.1
    (.insertLast ⟨4, by decide, by decide⟩) (by simp [DlistOperation.Applies])
    (fun _ _ => ⟨rfl, rfl⟩) with ⟨reply, after, returns, _, effect⟩
  exact ⟨reply, after, returns, effect.represents⟩

end Vanilla
