import Mathlib.Data.List.Nodup
import Vanilla.Kernel.Dlist

/-! # Lists as sequences

`Refines` says that a store represents one duplicate-free sequence for each of
its lists. Every insertion puts a node between a left and a right part, every
removal takes one out, so one lemma about each carries all the operations.
-/

namespace Vanilla

variable {Node Id Object : Type}

/-! ## Segments -/

/-- The nodes of `sequence` are linked to each other in order, the first back
to `prev` and the last on to `next`. -/
def Linked (node : Node → DlistNode Node Object) :
    Option Node → List Node → Option Node → Prop
  | _, [], _ => True
  | prev, head :: rest, next =>
      (node head).prev = prev ∧ (node head).next = rest.head?.or next ∧
      Linked node (some head) rest next

section Linked

variable {node after : Node → DlistNode Node Object} {prev next : Option Node}
  {sequence left right : List Node}

theorem linked_append : Linked node prev (left ++ right) next ↔
    Linked node prev left (right.head?.or next) ∧
      Linked node (left.getLast?.or prev) right next := by
  induction left generalizing prev with
  | nil => simp [Linked]
  | cons head rest induction =>
      have link : (rest ++ right).head?.or next = rest.head?.or (right.head?.or next) := by
        cases rest <;> simp
      have last : ((head :: rest).getLast?.or prev) = rest.getLast?.or (some head) := by
        cases rest with
        | nil => simp
        | cons second others => simp [List.getLast?_cons]
      simp only [List.cons_append, Linked, link, last, induction]
      tauto

/-- Only the links of the nodes of a segment matter. -/
theorem Linked.congr (linked : Linked node prev sequence next)
    (same : ∀ member ∈ sequence, (after member).prev = (node member).prev ∧
      (after member).next = (node member).next) : Linked after prev sequence next := by
  induction sequence generalizing prev with
  | nil => trivial
  | cons head rest induction =>
      have headSame := same head List.mem_cons_self
      exact ⟨headSame.1.trans linked.1, headSame.2.trans linked.2.1,
        induction linked.2.2 fun member inRest => same member (List.mem_cons_of_mem _ inRest)⟩

/-- Change where the last node of a segment leads. -/
theorem Linked.relast {target : Option Node} [DecidableEq Node]
    (linked : Linked node prev sequence next) (nodup : sequence.Nodup)
    (same : ∀ member ∈ sequence, (after member).prev = (node member).prev ∧
      (after member).next =
        if sequence.getLast? = some member then target else (node member).next) :
    Linked after prev sequence target := by
  induction sequence generalizing prev with
  | nil => trivial
  | cons head rest induction =>
      have headSame := same head List.mem_cons_self
      rcases List.nodup_cons.mp nodup with ⟨headNew, restNodup⟩
      cases rest with
      | nil => exact ⟨headSame.1.trans linked.1, by simpa using headSame.2, trivial⟩
      | cons second others =>
          have notLast : (head :: second :: others).getLast? ≠ some head := by
            intro equal
            have member := List.mem_of_getLast? equal
            rw [List.getLast?_cons_cons] at equal
            exact headNew (List.mem_of_getLast? equal)
          rw [if_neg notLast] at headSame
          refine ⟨headSame.1.trans linked.1, ?_, ?_⟩
          · exact headSame.2.trans linked.2.1
          · apply induction linked.2.2 restNodup
            intro member inRest
            have memberSame := same member (List.mem_cons_of_mem _ inRest)
            rw [List.getLast?_cons_cons] at memberSame
            exact memberSame

/-- Change where the first node of a segment leads back to. -/
theorem Linked.rehead {target : Option Node} [DecidableEq Node]
    (linked : Linked node prev sequence next) (nodup : sequence.Nodup)
    (same : ∀ member ∈ sequence, (after member).next = (node member).next ∧
      (after member).prev =
        if sequence.head? = some member then target else (node member).prev) :
    Linked after target sequence next := by
  cases sequence with
  | nil => trivial
  | cons head rest =>
      have headSame := same head List.mem_cons_self
      rcases List.nodup_cons.mp nodup with ⟨headNew, restNodup⟩
      refine ⟨by simpa using headSame.2, headSame.1.trans linked.2.1, ?_⟩
      apply linked.2.2.congr
      intro member inRest
      have memberSame := same member (List.mem_cons_of_mem _ inRest)
      have notHead : (head :: rest).head? ≠ some member := by
        intro equal
        cases equal
        exact headNew inRest
      rw [if_neg notHead] at memberSame
      exact ⟨memberSame.2, memberSame.1⟩

/-- The links of a node inside a segment are its neighbours. -/
theorem Linked.neighbours {member : Node}
    (linked : Linked node none (left ++ member :: right) none) :
    (node member).prev = left.getLast? ∧ (node member).next = right.head? := by
  have parts := (linked_append.mp linked).2
  exact ⟨by simpa using parts.1, by simpa using parts.2.1⟩

end Linked

/-! ## Representation -/

structure Represents (store : DlistStore Node Id Object) (list : Id)
    (sequence : List Node) : Prop where
  first : (store.list list).first = sequence.head?
  last : (store.list list).last = sequence.getLast?
  size : (store.list list).size = sequence.length
  bound : sequence.length < 2 ^ 32
  nodup : sequence.Nodup
  linked : Linked store.node none sequence none

/-- A node that may be inserted: it has no links and is not in the list. -/
structure Fresh (store : DlistStore Node Id Object) (sequence : List Node) (node : Node) :
    Prop where
  prev : (store.node node).prev = none
  next : (store.node node).next = none
  absent : node ∉ sequence

/-- Every list of the store represents its sequence, no node is in two of them,
and a node in none of them has no links. -/
structure Refines (store : DlistStore Node Id Object) (sequences : Id → List Node) : Prop where
  represents : ∀ list, Represents store list (sequences list)
  apart : ∀ left right node, node ∈ sequences left → node ∈ sequences right → left = right
  unlinked : ∀ node, (∀ list, node ∉ sequences list) →
    (store.node node).prev = none ∧ (store.node node).next = none

/-- What an insertion of `node` between `left` and `right` leaves behind. -/
structure Inserted [DecidableEq Node] (before after : DlistStore Node Id Object) (list : Id)
    (left right : List Node) (node : Node) : Prop where
  prev : ∀ other, (after.node other).prev =
    if other = node then left.getLast?
    else if right.head? = some other then some node else (before.node other).prev
  next : ∀ other, (after.node other).next =
    if other = node then right.head?
    else if left.getLast? = some other then some node else (before.node other).next
  obj : ∀ other, (after.node other).obj = (before.node other).obj
  first : (after.list list).first = (left ++ node :: right).head?
  last : (after.list list).last = (left ++ node :: right).getLast?
  size : (after.list list).size = u32 ((before.list list).size + 1)
  lists : ∀ other, other ≠ list → after.list other = before.list other

/-- What the removal of `node` from between `left` and `right` leaves behind. -/
structure Removed [DecidableEq Node] (before after : DlistStore Node Id Object) (list : Id)
    (left right : List Node) (node : Node) : Prop where
  prev : ∀ other, (after.node other).prev =
    if other = node then none
    else if right.head? = some other then left.getLast? else (before.node other).prev
  next : ∀ other, (after.node other).next =
    if other = node then none
    else if left.getLast? = some other then right.head? else (before.node other).next
  obj : ∀ other, (after.node other).obj = (before.node other).obj
  first : (after.list list).first = (left ++ right).head?
  last : (after.list list).last = (left ++ right).getLast?
  size : (after.list list).size = (before.list list).size - 1
  lists : ∀ other, other ≠ list → after.list other = before.list other

theorem mem_of_boundary {left right : List Node} {other : Node}
    (boundary : left.getLast? = some other ∨ right.head? = some other) :
    other ∈ left ++ right := by
  rcases boundary with last | head
  · exact List.mem_append_left _ (List.mem_of_getLast? last)
  · exact List.mem_append_right _ (List.mem_of_head? head)

section Changes

variable [DecidableEq Node] {store after : DlistStore Node Id Object} {list : Id}
  {left right : List Node} {node : Node}

theorem Inserted.outside (inserted : Inserted store after list left right node) {member : Node}
    (notNode : member ≠ node) (outside : member ∉ left ++ right) :
    (after.node member).prev = (store.node member).prev ∧
      (after.node member).next = (store.node member).next := by
  have notBoundary : ¬ (left.getLast? = some member ∨ right.head? = some member) :=
    fun boundary => outside (mem_of_boundary boundary)
  rw [inserted.prev, inserted.next, if_neg notNode, if_neg notNode,
    if_neg fun head => notBoundary (.inr head), if_neg fun last => notBoundary (.inl last)]
  exact ⟨rfl, rfl⟩

theorem Inserted.linked (inserted : Inserted store after list left right node)
    (linked : Linked store.node none (left ++ right) none) (nodup : (left ++ right).Nodup)
    (absent : node ∉ left ++ right) :
    Linked after.node none (left ++ node :: right) none := by
  have parts := linked_append.mp linked
  have nodups := List.nodup_append.mp nodup
  refine linked_append.mpr ⟨?_, ?_, ?_, ?_⟩
  · apply parts.1.relast nodups.1
    intro member inLeft
    have notNode : member ≠ node := fun equal =>
      absent (List.mem_append_left _ (equal ▸ inLeft))
    have notHead : right.head? ≠ some member := fun equal =>
      nodups.2.2 member inLeft member (List.mem_of_head? equal) rfl
    rw [inserted.prev, inserted.next, if_neg notNode, if_neg notNode, if_neg notHead]
    exact ⟨rfl, rfl⟩
  · rw [inserted.prev, if_pos rfl, Option.or_none]
  · rw [inserted.next, if_pos rfl, Option.or_none]
  · apply parts.2.rehead nodups.2.1
    intro member inRight
    have notNode : member ≠ node := fun equal =>
      absent (List.mem_append_right _ (equal ▸ inRight))
    have notLast : left.getLast? ≠ some member := fun equal =>
      nodups.2.2 member (List.mem_of_getLast? equal) member inRight rfl
    rw [inserted.prev, inserted.next, if_neg notNode, if_neg notNode, if_neg notLast]
    exact ⟨rfl, rfl⟩

theorem Removed.outside (removed : Removed store after list left right node) {member : Node}
    (notNode : member ≠ node) (outside : member ∉ left ++ right) :
    (after.node member).prev = (store.node member).prev ∧
      (after.node member).next = (store.node member).next := by
  have notBoundary : ¬ (left.getLast? = some member ∨ right.head? = some member) :=
    fun boundary => outside (mem_of_boundary boundary)
  rw [removed.prev, removed.next, if_neg notNode, if_neg notNode,
    if_neg fun head => notBoundary (.inr head), if_neg fun last => notBoundary (.inl last)]
  exact ⟨rfl, rfl⟩

theorem Removed.linked (removed : Removed store after list left right node)
    (linked : Linked store.node none (left ++ node :: right) none)
    (nodup : (left ++ node :: right).Nodup) :
    Linked after.node none (left ++ right) none := by
  rcases List.nodup_cons.mp (List.nodup_middle.mp nodup) with ⟨absent, rest⟩
  have nodups := List.nodup_append.mp rest
  have parts := linked_append.mp linked
  have notNode : ∀ member ∈ left ++ right, member ≠ node :=
    fun member inList equal => absent (equal ▸ inList)
  refine linked_append.mpr ⟨?_, ?_⟩
  · apply parts.1.relast nodups.1
    intro member inLeft
    have notHead : right.head? ≠ some member := fun equal =>
      nodups.2.2 member inLeft member (List.mem_of_head? equal) rfl
    have different := notNode member (List.mem_append_left _ inLeft)
    rw [removed.prev, removed.next, if_neg different, if_neg different, if_neg notHead,
      Option.or_none]
    exact ⟨rfl, rfl⟩
  · rw [Option.or_none]
    apply parts.2.2.2.rehead nodups.2.1
    intro member inRight
    have notLast : left.getLast? ≠ some member := fun equal =>
      nodups.2.2 member (List.mem_of_getLast? equal) member inRight rfl
    have different := notNode member (List.mem_append_right _ inRight)
    rw [removed.prev, removed.next, if_neg different, if_neg different, if_neg notLast]
    exact ⟨rfl, rfl⟩

theorem Represents.inserted (rep : Represents store list (left ++ right))
    (fresh : Fresh store (left ++ right) node) (room : (left ++ right).length + 1 < 2 ^ 32)
    (inserted : Inserted store after list left right node) :
    Represents after list (left ++ node :: right) where
  first := inserted.first
  last := inserted.last
  size := by
    simp only [List.length_append] at room
    rw [inserted.size, rep.size, List.length_append, u32_of_lt (by omega)]
    simp only [List.length_append, List.length_cons]
    omega
  bound := by
    simp only [List.length_append, List.length_cons] at room ⊢
    omega
  nodup := List.nodup_middle.mpr (List.nodup_cons.mpr ⟨fresh.absent, rep.nodup⟩)
  linked := inserted.linked rep.linked rep.nodup fresh.absent

theorem Represents.removed (rep : Represents store list (left ++ node :: right))
    (removed : Removed store after list left right node) :
    Represents after list (left ++ right) where
  first := removed.first
  last := removed.last
  size := by
    rw [removed.size, rep.size]
    simp only [List.length_append, List.length_cons]
    omega
  bound := by
    have bound := rep.bound
    simp only [List.length_append, List.length_cons] at bound ⊢
    omega
  nodup := (List.nodup_cons.mp (List.nodup_middle.mp rep.nodup)).2
  linked := removed.linked rep.linked rep.nodup

end Changes

section Sequences

variable [DecidableEq Node] [DecidableEq Id] {store after : DlistStore Node Id Object}
  {sequences : Id → List Node} {list : Id} {left right : List Node} {node : Node}

/-- Give one list a new sequence: the nodes it drops lose their links, the other
lists do not notice. -/
theorem Refines.replace (refines : Refines store sequences) {sequence : List Node}
    (represents : Represents after list sequence)
    (lists : ∀ other, other ≠ list → after.list other = store.list other)
    (same : ∀ member, member ∉ sequence → member ∉ sequences list →
      (after.node member).prev = (store.node member).prev ∧
        (after.node member).next = (store.node member).next)
    (fresh : ∀ other, other ≠ list → ∀ member ∈ sequence, member ∉ sequences other)
    (dropped : ∀ member ∈ sequences list, member ∉ sequence →
      (after.node member).prev = none ∧ (after.node member).next = none) :
    Refines after (Function.update sequences list sequence) := by
  constructor
  · intro other
    by_cases equal : other = list
    · subst other
      rw [Function.update_self]
      exact represents
    · rw [Function.update_of_ne equal]
      have rep := refines.represents other
      have headSame := lists other equal
      exact {
        first := headSame ▸ rep.first
        last := headSame ▸ rep.last
        size := headSame ▸ rep.size
        bound := rep.bound
        nodup := rep.nodup
        linked := by
          apply rep.linked.congr
          intro member inOther
          apply same member
          · exact fun inNew => fresh other equal member inNew inOther
          · exact fun inOld => equal (refines.apart other list member inOther inOld) }
  · intro one two member inOne inTwo
    by_cases oneList : one = list
    · by_cases twoList : two = list
      · exact oneList.trans twoList.symm
      · subst one
        rw [Function.update_self] at inOne
        rw [Function.update_of_ne twoList] at inTwo
        exact absurd inTwo (fresh two twoList member inOne)
    · rw [Function.update_of_ne oneList] at inOne
      by_cases twoList : two = list
      · subst two
        rw [Function.update_self] at inTwo
        exact absurd inOne (fresh one oneList member inTwo)
      · rw [Function.update_of_ne twoList] at inTwo
        exact refines.apart one two member inOne inTwo
  · intro member nowhere
    have notNew := nowhere list
    rw [Function.update_self] at notNew
    by_cases inOld : member ∈ sequences list
    · exact dropped member inOld notNew
    · rw [(same member notNew inOld).1, (same member notNew inOld).2]
      apply refines.unlinked member
      intro other inOther
      by_cases equal : other = list
      · exact inOld (equal ▸ inOther)
      · have still := nowhere other
        rw [Function.update_of_ne equal] at still
        exact still inOther

omit [DecidableEq Node] [DecidableEq Id] in
/-- Two segments that start at the same node are the same. -/
theorem Linked.unique {sequence other : List Node} {prev before : Option Node}
    (linked : Linked store.node prev sequence none) (again : Linked store.node before other none)
    (heads : sequence.head? = other.head?) : sequence = other := by
  induction sequence generalizing other prev before with
  | nil =>
      cases other with
      | nil => rfl
      | cons _ _ => simp at heads
  | cons head rest induction =>
      cases other with
      | nil => simp at heads
      | cons otherHead otherRest =>
          simp only [List.head?_cons, Option.some.injEq] at heads
          subst heads
          have nexts := linked.2.1.symm.trans again.2.1
          rw [Option.or_none, Option.or_none] at nexts
          rw [induction linked.2.2 again.2.2 nexts]

omit [DecidableEq Node] [DecidableEq Id] in
/-- A list represents one sequence. -/
theorem Represents.unique {sequence other : List Node} (rep : Represents store list sequence)
    (again : Represents store list other) : sequence = other :=
  rep.linked.unique again.linked (rep.first.symm.trans again.first)

omit [DecidableEq Node] [DecidableEq Id] in
/-- Only the links of the nodes and the lists matter. -/
theorem Refines.congr {other : DlistStore Node Id Object} (refines : Refines store sequences)
    (lists : other.list = store.list)
    (links : ∀ node, (other.node node).prev = (store.node node).prev ∧
      (other.node node).next = (store.node node).next) : Refines other sequences where
  represents := by
    intro list
    have rep := refines.represents list
    exact {
      first := by
        rw [lists]
        exact rep.first
      last := by
        rw [lists]
        exact rep.last
      size := by
        rw [lists]
        exact rep.size
      bound := rep.bound
      nodup := rep.nodup
      linked := rep.linked.congr fun node _ => links node }
  apart := refines.apart
  unlinked := by
    intro node absent
    rw [(links node).1, (links node).2]
    exact refines.unlinked node absent

omit [DecidableEq Node] [DecidableEq Id] in
theorem Refines.fresh (refines : Refines store sequences)
    (fresh : ∀ other, node ∉ sequences other) : Fresh store (sequences list) node :=
  ⟨(refines.unlinked node fresh).1, (refines.unlinked node fresh).2, fresh list⟩

omit [DecidableEq Node] [DecidableEq Id] in
theorem mem_middle {member : Node} : member ∈ left ++ node :: right ↔
    member = node ∨ member ∈ left ++ right := by
  simp only [List.mem_append, List.mem_cons]
  tauto

theorem Refines.inserted (refines : Refines store sequences)
    (split : sequences list = left ++ right) (fresh : ∀ other, node ∉ sequences other)
    (room : (sequences list).length + 1 < 2 ^ 32)
    (inserted : Inserted store after list left right node) :
    Refines after (Function.update sequences list (left ++ node :: right)) := by
  have rep := refines.represents list
  have free : Fresh store (sequences list) node := refines.fresh fresh
  rw [split] at rep free room
  apply refines.replace (rep.inserted free room inserted) inserted.lists
  · intro member notNew notOld
    rw [mem_middle] at notNew
    apply inserted.outside
    · exact fun equal => notNew (.inl equal)
    · exact fun inList => notNew (.inr inList)
  · intro other different member inNew inOther
    rcases mem_middle.mp inNew with isNode | inList
    · exact fresh other (isNode ▸ inOther)
    · exact different (refines.apart other list member inOther (split ▸ inList))
  · intro member inOld notNew
    exact absurd (mem_middle.mpr (.inr (split ▸ inOld))) notNew

theorem Refines.removed (refines : Refines store sequences)
    (split : sequences list = left ++ node :: right)
    (removed : Removed store after list left right node) :
    Refines after (Function.update sequences list (left ++ right)) := by
  have rep := refines.represents list
  rw [split] at rep
  apply refines.replace (rep.removed removed) removed.lists
  · intro member notNew notOld
    rw [split, mem_middle] at notOld
    exact removed.outside (fun equal => notOld (.inl equal)) notNew
  · intro other different member inNew inOther
    have inList : member ∈ sequences list := by
      rw [split, mem_middle]
      exact .inr inNew
    exact different (refines.apart other list member inOther inList)
  · intro member inOld notNew
    rw [split, mem_middle] at inOld
    rcases inOld with isNode | inList
    · rw [removed.prev, removed.next, if_pos isNode, if_pos isNode]
      exact ⟨rfl, rfl⟩
    · exact absurd inList notNew

end Sequences

end Vanilla
