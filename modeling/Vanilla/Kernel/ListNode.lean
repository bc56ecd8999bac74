import Mathlib.Data.Fintype.Card
import Vanilla.Foundation.CircularList
import Vanilla.Foundation.Exec
import Vanilla.Foundation.Word

namespace Vanilla.Kernel

/-! list.h: circular lists in which the head is a node like the others, against
the sequences that they stand for. -/

section Operations

variable {Node : Type} [DecidableEq Node]

def listInit (list : Node) : Exec (Vanilla.Links Node) Unit := do
  modify fun links => links.setPrev list (some list)
  modify fun links => links.setNext list (some list)

/-- `_list_add` -/
def listAdd (new : Node) (prev next : Option Node) : Exec (Vanilla.Links Node) Unit := do
  let prev ← Exec.deref prev
  modify fun links => links.setNext prev (some new)
  let next ← Exec.deref next
  modify fun links => links.setPrev next (some new)
  modify fun links => links.setNext new (some next)
  modify fun links => links.setPrev new (some prev)

/-- `_list_delete` -/
def listDelete (prev next : Option Node) : Exec (Vanilla.Links Node) Unit := do
  let before ← Exec.deref prev
  modify fun links => links.setNext before next
  let behind ← Exec.deref next
  modify fun links => links.setPrev behind prev

def listAddFirst (new list : Node) : Exec (Vanilla.Links Node) Unit := do
  let links ← get
  listAdd new (some list) (links.next list)

def listAddLast (new list : Node) : Exec (Vanilla.Links Node) Unit := do
  let links ← get
  listAdd new (links.prev list) (some list)

def listDeleteNode (node : Node) : Exec (Vanilla.Links Node) Unit := do
  let links ← get
  listDelete (links.prev node) (links.next node)
  modify fun links => links.setNext node none
  modify fun links => links.setPrev node none

def listDeleteFirst (list : Node) : Exec (Vanilla.Links Node) Unit := do
  let links ← get
  if links.next list = some list then pure ()
  else do
    let first ← Exec.deref (links.next list)
    listDeleteNode first

def listDeleteLast (list : Node) : Exec (Vanilla.Links Node) Unit := do
  let links ← get
  if links.next list = some list then pure ()
  else do
    let last ← Exec.deref (links.prev list)
    listDeleteNode last

def listIsEmpty (list : Node) : Exec (Vanilla.Links Node) Bool := do
  let links ← get
  pure (decide (links.next list = some list))

/-- The rounds of `list_iterate`, whose body goes from one value to the next
and leaves the links alone. -/
def iterateFrom {Value : Type} (body : Value → Node → Value) (list : Node) :
    Nat → Option Node → Value → Exec (Vanilla.Links Node) Value
  | 0, _, _ => Exec.fault .diverges
  | rounds + 1, node, value =>
      if node = some list then pure value
      else do
        let current ← Exec.deref node
        let links ← get
        iterateFrom body list rounds (links.next current) (body value current)

def listIterate {Value : Type} (body : Value → Node → Value) (list : Node) (value : Value) :
    Exec (Vanilla.Links Node) Value := do
  let links ← get
  iterateFrom body list loopRounds (links.next list) value

def listGetSize (list : Node) : Exec (Vanilla.Links Node) Nat :=
  listIterate (fun size _ => u32 (size + 1)) list 0

end Operations

/-! ## The functions on well-formed lists -/

section Lists

variable {Node : Type} [DecidableEq Node] {links after : Vanilla.Links Node} {list : Node}
  {nodes : List Node}

theorem run_listInit (list : Node) (links : Vanilla.Links Node) :
    (listInit list).run links = .ok () (links.init list) := rfl

theorem run_listAdd (new prev next : Node) (links : Vanilla.Links Node) :
    (listAdd new (some prev) (some next)).run links = .ok () (links.add new prev next) := rfl

theorem run_listAddFirst {new : Node} (added : links.addFirst new list = some after) :
    (listAddFirst new list).run links = .ok () after := by
  rcases Option.map_eq_some_iff.mp added with ⟨first, behind, rfl⟩
  rw [listAddFirst, Exec.run_bind_of_ok (EStateM.run_get links), behind]
  exact run_listAdd new list first links

theorem run_listAddLast {new : Node} (added : links.addLast new list = some after) :
    (listAddLast new list).run links = .ok () after := by
  rcases Option.map_eq_some_iff.mp added with ⟨last, before, rfl⟩
  rw [listAddLast, Exec.run_bind_of_ok (EStateM.run_get links), before]
  exact run_listAdd new last list links

theorem run_listDeleteNode {node : Node} (deleted : links.deleteNode node = some after) :
    (listDeleteNode node).run links = .ok () after := by
  rcases Option.bind_eq_some_iff.mp deleted with ⟨prev, before, joined⟩
  rcases Option.map_eq_some_iff.mp joined with ⟨next, behind, rfl⟩
  rw [listDeleteNode, Exec.run_bind_of_ok (EStateM.run_get links), before, behind]
  rfl

/-- Nothing is deleted from an empty list. -/
theorem run_listDeleteFirst_nil (ring : Ring links list []) :
    (listDeleteFirst list).run links = .ok () links := by
  rw [listDeleteFirst, Exec.run_bind_of_ok (EStateM.run_get links), if_pos ring.next_nil]
  rfl

theorem run_listDeleteFirst_cons {node : Node} (ring : Ring links list (node :: nodes))
    (deleted : links.deleteNode node = some after) :
    (listDeleteFirst list).run links = .ok () after := by
  have occupied : ¬ links.next list = some list :=
    fun self => by cases ring.next_self_iff.mp self
  rw [listDeleteFirst, Exec.run_bind_of_ok (EStateM.run_get links), if_neg occupied,
    ring.next_cons, Exec.run_bind_of_ok (Exec.run_deref_some node links)]
  exact run_listDeleteNode deleted

theorem run_listDeleteLast_nil (ring : Ring links list []) :
    (listDeleteLast list).run links = .ok () links := by
  rw [listDeleteLast, Exec.run_bind_of_ok (EStateM.run_get links), if_pos ring.next_nil]
  rfl

theorem run_listDeleteLast_concat {node : Node} (ring : Ring links list (nodes ++ [node]))
    (deleted : links.deleteNode node = some after) :
    (listDeleteLast list).run links = .ok () after := by
  have occupied : ¬ links.next list = some list := fun self => by
    have empty := ring.next_self_iff.mp self
    simp at empty
  rw [listDeleteLast, Exec.run_bind_of_ok (EStateM.run_get links), if_neg occupied,
    ring.prev_concat, Exec.run_bind_of_ok (Exec.run_deref_some node links)]
  exact run_listDeleteNode deleted

theorem run_listIsEmpty (ring : Ring links list nodes) :
    (listIsEmpty list).run links = .ok (decide (nodes = [])) links := by
  rw [listIsEmpty, Exec.run_bind_of_ok (EStateM.run_get links)]
  simp only [ring.next_self_iff]
  rfl

/-- The loop goes once over the nodes that are left. -/
theorem run_iterateFrom {Value : Type} (body : Value → Node → Value) :
    ∀ {nodes : List Node} {first : Node} {rounds : Nat} (value : Value),
      Chained links first nodes list → list ∉ nodes → nodes.length < rounds →
      (iterateFrom body list rounds (links.next first) value).run links =
        .ok (nodes.foldl body value) links
  | _, _, 0, _, _, _, enough => absurd enough (Nat.not_lt_zero _)
  | [], first, rounds + 1, value, chained, _, _ => by
      rw [iterateFrom, if_pos chained.1]
      rfl
  | node :: rest, first, rounds + 1, value, chained, outside, enough => by
      have other : ¬ some node = some list :=
        fun same => outside (Option.some.inj same ▸ List.mem_cons_self)
      rw [chained.1, iterateFrom, if_neg other,
        Exec.run_bind_of_ok (Exec.run_deref_some node links),
        Exec.run_bind_of_ok (EStateM.run_get links)]
      exact run_iterateFrom body (body value node) chained.2.2
        (fun member => outside (List.mem_cons_of_mem _ member)) (Nat.lt_of_succ_lt_succ enough)

theorem run_listIterate {Value : Type} (body : Value → Node → Value) (value : Value)
    (ring : Ring links list nodes) (few : nodes.length < 2 ^ 32) :
    (listIterate body list value).run links = .ok (nodes.foldl body value) links := by
  have enough : nodes.length < loopRounds := by
    rw [loopRounds]
    exact few
  rw [listIterate, Exec.run_bind_of_ok (EStateM.run_get links)]
  exact run_iterateFrom body value ring.chained (List.nodup_cons.mp ring.distinct).1 enough

omit [DecidableEq Node] in
theorem foldl_count : ∀ (nodes : List Node) (size : Nat), size + nodes.length < 2 ^ 32 →
    nodes.foldl (fun size _ => u32 (size + 1)) size = size + nodes.length
  | [], _, _ => rfl
  | node :: rest, size, few => by
      rw [List.length_cons] at few
      rw [List.foldl_cons, u32_of_lt (by omega), foldl_count rest (size + 1) (by omega),
        List.length_cons]
      omega

theorem run_listGetSize (ring : Ring links list nodes) (few : nodes.length < 2 ^ 32) :
    (listGetSize list).run links = .ok nodes.length links := by
  rw [listGetSize, run_listIterate _ 0 ring few, foldl_count nodes 0 (by omega), Nat.zero_add]

end Lists

/-! ## The sequence that a list stands for -/

inductive ListOperation (Node : Type) where
  | addFirst (new : Node)
  | addLast (new : Node)
  | deleteNode (node : Node)
  | deleteFirst
  | deleteLast

namespace ListOperation

variable {Node : Type} [DecidableEq Node]

def perform (list : Node) : ListOperation Node → Exec (Vanilla.Links Node) Unit
  | .addFirst new => listAddFirst new list
  | .addLast new => listAddLast new list
  | .deleteNode node => listDeleteNode node
  | .deleteFirst => listDeleteFirst list
  | .deleteLast => listDeleteLast list

def onSequence (nodes : List Node) : ListOperation Node → List Node
  | .addFirst new => new :: nodes
  | .addLast new => nodes ++ [new]
  | .deleteNode node => nodes.erase node
  | .deleteFirst => nodes.tail
  | .deleteLast => nodes.dropLast

/-- A node is added that is neither the head nor in the list, and one of the
list is deleted. -/
def Fits (list : Node) (nodes : List Node) : ListOperation Node → Prop
  | .addFirst new => new ∉ list :: nodes
  | .addLast new => new ∉ list :: nodes
  | .deleteNode node => node ∈ nodes
  | .deleteFirst => True
  | .deleteLast => True

def added : ListOperation Node → List Node
  | .addFirst new => [new]
  | .addLast new => [new]
  | _ => []

end ListOperation

/-- The list stands for the new sequence, a node that is no longer in it has
null pointers, and no other node is touched. -/
structure Performed {Node : Type} [DecidableEq Node] (operation : ListOperation Node)
    (list : Node) (nodes : List Node) (before after : Vanilla.Links Node) : Prop where
  ring : Ring after list (operation.onSequence nodes)
  cleared : ∀ node ∈ nodes, node ∉ operation.onSequence nodes →
    after.next node = none ∧ after.prev node = none
  untouched : before.SameOutside after (operation.added ++ list :: nodes)
  others : ∀ other sequence, Ring before other sequence →
    (∀ node ∈ other :: sequence, node ∉ operation.added ++ list :: nodes) →
    Ring after other sequence

section Refinement

variable {Node : Type} [DecidableEq Node] {links after : Vanilla.Links Node} {list : Node}
  {nodes : List Node} {operation : ListOperation Node}

theorem Performed.of_untouched (ring : Ring after list (operation.onSequence nodes))
    (cleared : ∀ node ∈ nodes, node ∉ operation.onSequence nodes →
      after.next node = none ∧ after.prev node = none)
    (untouched : links.SameOutside after (operation.added ++ list :: nodes)) :
    Performed operation list nodes links after :=
  ⟨ring, cleared, untouched, fun _ _ other apart => other.congr untouched apart⟩

/-- Deleting takes the node out wherever it stands. -/
theorem performed_delete {node : Node} {front back : List Node}
    (ring : Ring links list (front ++ node :: back)) (none_ : operation.added = [])
    (sequence : operation.onSequence (front ++ node :: back) = front ++ back) :
    ∃ after, links.deleteNode node = some after ∧
      Performed operation list (front ++ node :: back) links after := by
  rcases ring.delete with ⟨after, deleted, shorter⟩
  refine ⟨after, deleted, .of_untouched (sequence ▸ shorter) ?_ ?_⟩
  · intro other member gone
    rw [sequence] at gone
    have same : other = node := by
      simp only [List.mem_append, List.mem_cons] at member gone
      tauto
    rw [same]
    exact Vanilla.Links.deleteNode_cleared deleted
  · rw [none_]
    exact ring.delete_sameOutside deleted

theorem perform_performed (ring : Ring links list nodes) (fits : operation.Fits list nodes) :
    ∃ after, (operation.perform list).run links = .ok () after ∧
      Performed operation list nodes links after := by
  cases operation with
  | addFirst new =>
      rcases ring.addFirst fits with ⟨after, added, longer⟩
      refine ⟨after, run_listAddFirst added, .of_untouched longer ?_
        (ring.addFirst_sameOutside added)⟩
      exact fun node member gone => absurd (List.mem_cons_of_mem _ member) gone
  | addLast new =>
      rcases ring.addLast fits with ⟨after, added, longer⟩
      refine ⟨after, run_listAddLast added, .of_untouched longer ?_
        (ring.addLast_sameOutside added)⟩
      exact fun node member gone => absurd (List.mem_append_left _ member) gone
  | deleteNode node =>
      rcases List.exists_erase_eq fits with ⟨front, back, _, rfl, erased⟩
      rcases @performed_delete _ _ links list (.deleteNode node) node front back ring rfl erased
        with ⟨after, deleted, performed⟩
      exact ⟨after, run_listDeleteNode deleted, performed⟩
  | deleteFirst =>
      cases nodes with
      | nil =>
          refine ⟨links, run_listDeleteFirst_nil ring, .of_untouched ring ?_
            fun _ _ => ⟨rfl, rfl⟩⟩
          exact fun node member => absurd member List.not_mem_nil
      | cons head rest =>
          rcases @performed_delete _ _ links list .deleteFirst head [] rest ring rfl rfl with
            ⟨after, deleted, performed⟩
          exact ⟨after, run_listDeleteFirst_cons ring deleted, performed⟩
  | deleteLast =>
      rcases List.eq_nil_or_concat nodes with rfl | ⟨front, last, rfl⟩
      · refine ⟨links, run_listDeleteLast_nil ring, .of_untouched ring ?_
          fun _ _ => ⟨rfl, rfl⟩⟩
        exact fun node member => absurd member List.not_mem_nil
      · rw [List.concat_eq_append] at ring ⊢
        have sequence : (ListOperation.deleteLast : ListOperation Node).onSequence
            (front ++ [last]) = front ++ [] := by
          rw [List.append_nil]
          exact List.dropLast_concat
        rcases @performed_delete _ _ links list .deleteLast last front [] ring rfl sequence with
          ⟨after, deleted, performed⟩
        exact ⟨after, run_listDeleteLast_concat ring deleted, performed⟩

end Refinement

/-- The address of a `struct list_node`. -/
abbrev ListNodePtr := Fin (2 ^ 32)

/-- list.h on the sequence that a list stands for. -/
theorem list_refines_sequence {links : Vanilla.Links ListNodePtr} {list : ListNodePtr}
    {nodes : List ListNodePtr} (ring : Ring links list nodes) :
    (∀ operation : ListOperation ListNodePtr, operation.Fits list nodes →
      ∃ after, (operation.perform list).run links = .ok () after ∧
        Performed operation list nodes links after) ∧
    (listIsEmpty list).run links = .ok (decide (nodes = [])) links ∧
    (listGetSize list).run links = .ok nodes.length links ∧
    (∀ (Value : Type) (body : Value → ListNodePtr → Value) (value : Value),
      (listIterate body list value).run links = .ok (nodes.foldl body value) links) ∧
    ∀ head, ∃ after, (listInit head).run links = .ok () after ∧ Ring after head [] ∧
      links.SameOutside after [head] := by
  have few : nodes.length < 2 ^ 32 := by
    have cards := ring.distinct.length_le_card
    rw [List.length_cons, Fintype.card_fin] at cards
    exact cards
  refine ⟨fun operation fits => perform_performed ring fits, run_listIsEmpty ring,
    run_listGetSize ring few, fun Value body value => run_listIterate body value ring few, ?_⟩
  intro head
  refine ⟨_, run_listInit head links, .of_init links head, ?_⟩
  intro node outside
  have other : node ≠ head := fun same => outside (same ▸ List.mem_cons_self)
  simp [Vanilla.Links.init, other]

/-- A list of two nodes. -/
theorem list_refines_sequence_two :
    ∃ links, (∀ operation : ListOperation ListNodePtr, operation.Fits 0x1000 [0x2000, 0x3000] →
      ∃ after, (operation.perform 0x1000).run links = .ok () after ∧
        Performed operation 0x1000 [0x2000, 0x3000] links after) ∧
    (listIsEmpty 0x1000).run links = .ok (decide ([0x2000, 0x3000] = ([] : List ListNodePtr)))
      links ∧
    (listGetSize 0x1000).run links = .ok [0x2000, 0x3000].length links ∧
    (∀ (Value : Type) (body : Value → ListNodePtr → Value) (value : Value),
      (listIterate body 0x1000 value).run links =
        .ok ([0x2000, 0x3000].foldl body value) links) ∧
    ∀ head, ∃ after, (listInit head).run links = .ok () after ∧ Ring after head [] ∧
      links.SameOutside after [head] := by
  have empty := Ring.of_init ⟨fun _ => none, fun _ => none⟩ (0x1000 : ListNodePtr)
  rcases @Ring.addLast _ _ _ _ _ empty 0x2000 (by decide) with ⟨one, _, single⟩
  rcases @Ring.addLast _ _ _ _ _ single 0x3000 (by decide) with ⟨two, _, double⟩
  exact ⟨two, list_refines_sequence double⟩

end Vanilla.Kernel
