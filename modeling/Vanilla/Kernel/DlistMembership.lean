import Vanilla.Kernel.DlistOperations

/-! # Inserting a node that is in another list

The insertions look at the links of the node and at the first node of their own
list. The only element of another list passes both tests.
-/

namespace Vanilla

open DlistStore

variable {Id Object : Type} [DecidableEq Id] {store : DlistStore NodeAddr Id Object}
  {source target : Id} {sequence : List NodeAddr} {node : NodeAddr}

/-- An insertion panics, and every list is as it was. -/
def InsertionPanics (operation : DlistOperation NodeAddr) (list : Id)
    (store : DlistStore NodeAddr Id Object) : Prop :=
  ∃ reason, (operation.code list).run store = .error (.panic reason) store

omit [DecidableEq Id] in
/-- An element without links is the only one. -/
theorem Represents.alone (rep : Represents store source sequence) (member : node ∈ sequence)
    (prev : (store.node node).prev = none) (next : (store.node node).next = none) :
    sequence = [node] := by
  rcases List.append_of_mem member with ⟨left, right, split⟩
  have linked := rep.linked
  rw [split] at linked
  rcases linked.neighbours with ⟨before, after⟩
  rw [prev] at before
  rw [next] at after
  have noLeft : left = [] := by
    cases left using List.reverseRecOn with
    | nil => rfl
    | append_singleton front last => simp at before
  have noRight : right = [] := by
    cases right with
    | nil => rfl
    | cons head rest => simp at after
  rw [split, noLeft, noRight]
  rfl

omit [DecidableEq Id] in
theorem Represents.unlinked_of_alone (rep : Represents store source [node]) :
    (store.node node).prev = none ∧ (store.node node).next = none :=
  ⟨rep.linked.1, rep.linked.2.1⟩

theorem insertFirst_not_panics (check : (dlistCheckFree node target).run store = .ok () store)
    (reason : String) (after : DlistStore NodeAddr Id Object) :
    (dlistInsertFirst node target).run store ≠ .error (.panic reason) after := by
  rw [dlistInsertFirst, Exec.run_bind_of_ok check, Exec.run_bind_of_ok (EStateM.run_get store)]
  intro panics
  cases first : (store.list target).first with
  | none =>
      rw [first] at panics
      cases panics
  | some head =>
      rw [first] at panics
      cases panics

theorem insertLast_not_panics (check : (dlistCheckFree node target).run store = .ok () store)
    (reason : String) (after : DlistStore NodeAddr Id Object) :
    (dlistInsertLast node target).run store ≠ .error (.panic reason) after := by
  rw [dlistInsertLast, Exec.run_bind_of_ok check, Exec.run_bind_of_ok (EStateM.run_get store)]
  intro panics
  cases last : (store.list target).last with
  | none =>
      rw [last] at panics
      cases panics
  | some tail =>
      rw [last] at panics
      cases panics

theorem insertAfter_not_panics (check : (dlistCheckFree node target).run store = .ok () store)
    (place : NodeAddr) (reason : String) (after : DlistStore NodeAddr Id Object) :
    (dlistInsertAfter node place target).run store ≠ .error (.panic reason) after := by
  rw [dlistInsertAfter, Exec.run_bind_of_ok check, Exec.run_bind_of_ok (EStateM.run_get store)]
  by_cases last : some place = (store.list target).last
  · rw [if_pos last]
    exact insertLast_not_panics check reason after
  · rw [if_neg last]
    intro panics
    cases next : (store.node place).next with
    | none =>
        rw [next] at panics
        cases panics
    | some follower =>
        rw [next] at panics
        cases panics

theorem insertBefore_not_panics (check : (dlistCheckFree node target).run store = .ok () store)
    (place : NodeAddr) (reason : String) (after : DlistStore NodeAddr Id Object) :
    (dlistInsertBefore node place target).run store ≠ .error (.panic reason) after := by
  rw [dlistInsertBefore, Exec.run_bind_of_ok check, Exec.run_bind_of_ok (EStateM.run_get store)]
  by_cases first : some place = (store.list target).first
  · rw [if_pos first]
    exact insertFirst_not_panics check reason after
  · rw [if_neg first]
    intro panics
    cases prev : (store.node place).prev with
    | none =>
        rw [prev] at panics
        cases panics
    | some leader =>
        rw [prev] at panics
        cases panics

omit [DecidableEq Id] in
theorem run_code_of_done {body : Exec (DlistStore NodeAddr Id Object) Unit} {reason : String}
    {after : DlistStore NodeAddr Id Object}
    (panics : (do body; return DlistReply.done : Exec _ (DlistReply NodeAddr)).run store =
      .error (.panic reason) after) : body.run store = .error (.panic reason) after := by
  cases run : body.run store with
  | ok value next =>
      rw [Exec.run_bind_of_ok run] at panics
      cases panics
  | error fault next =>
      rw [Exec.run_bind_of_error run] at panics
      rcases EStateM.Result.error.inj panics with ⟨rfl, rfl⟩
      rfl

/-- A node without links that is not first in the list is never refused. -/
theorem DlistOperation.not_panics {operation : DlistOperation NodeAddr}
    (inserts : operation.inserted = some node)
    (check : (dlistCheckFree node target).run store = .ok () store) :
    ¬ InsertionPanics operation target store := by
  intro panics
  rcases panics with ⟨reason, panics⟩
  cases operation with
  | insertFirst other =>
      cases inserts
      exact insertFirst_not_panics check reason store (run_code_of_done panics)
  | insertLast other =>
      cases inserts
      exact insertLast_not_panics check reason store (run_code_of_done panics)
  | insertAfter other place =>
      cases inserts
      exact insertAfter_not_panics check place reason store (run_code_of_done panics)
  | insertBefore other place =>
      cases inserts
      exact insertBefore_not_panics check place reason store (run_code_of_done panics)
  | removeFirst => cases inserts
  | removeLast => cases inserts
  | remove other => cases inserts
  | search other => cases inserts

/-- An element of one list is refused by another exactly when it is not alone in
its own, or is first in the other one as well. -/
theorem insertion_panics_iff (operation : DlistOperation NodeAddr) (node : NodeAddr)
    (others : List NodeAddr) (rep : Represents store source sequence)
    (targetRep : Represents store target others) (member : node ∈ sequence)
    (inserts : operation.inserted = some node) :
    InsertionPanics operation target store ↔
      sequence ≠ [node] ∨ others.head? = some node := by
  constructor
  · intro panics
    by_contra neither
    rw [not_or, not_not] at neither
    have unlinked := (neither.1 ▸ rep).unlinked_of_alone
    refine DlistOperation.not_panics inserts ?_ panics
    apply run_dlistCheckFree unlinked.1 unlinked.2
    rw [targetRep.first]
    exact fun same => neither.2 same.symm
  · intro condition
    refine ⟨"List error", DlistOperation.refuses inserts ?_⟩
    by_contra free
    rw [not_or, not_or, not_not, not_not] at free
    cases condition with
    | inl several => exact several (rep.alone member free.1 free.2.1)
    | inr first =>
        rw [targetRep.first] at free
        exact free.2.2 first.symm

/-! ## The only element of a list -/

def loneNode : NodeAddr := ⟨4, by decide, by decide⟩

/-- Two lists: the first has one element, the second none. -/
def loneStore : DlistStore NodeAddr Bool Nat where
  node := fun _ => {}
  list := fun list => if list then { first := some loneNode, last := some loneNode, size := 1 }
    else {}

theorem loneStore_source : Represents loneStore true [loneNode] :=
  ⟨rfl, rfl, rfl, by decide, List.nodup_singleton _, rfl, rfl, trivial⟩

theorem loneStore_target : Represents loneStore false [] :=
  ⟨rfl, rfl, rfl, by decide, List.nodup_nil, trivial⟩

theorem insertion_panics_iff_lone :
    InsertionPanics (.insertLast loneNode) false loneStore ↔
      [loneNode] ≠ [loneNode] ∨ ([] : List NodeAddr).head? = some loneNode :=
  insertion_panics_iff (.insertLast loneNode) loneNode [] loneStore_source loneStore_target
    List.mem_cons_self rfl

/-- The insertion returns, and both lists have the node. -/
theorem lone_node_in_two_lists :
    ∃ after, ((DlistOperation.insertLast loneNode).code false).run loneStore =
        .ok .done after ∧
      Represents after true [loneNode] ∧ Represents after false [loneNode] ∧
      ¬ InsertionPanics (.insertLast loneNode) false loneStore := by
  refine ⟨_, rfl, ?_, ?_, ?_⟩
  · exact ⟨rfl, rfl, rfl, by decide, List.nodup_singleton _, rfl, rfl, trivial⟩
  · exact ⟨rfl, rfl, rfl, by decide, List.nodup_singleton _, rfl, rfl, trivial⟩
  · intro panics
    rcases panics with ⟨reason, panics⟩
    cases panics

end Vanilla
