import Mathlib.Data.List.Nodup
import Mathlib.Logic.Function.Basic

namespace Vanilla

/-! Circular doubly linked lists with a head node that is part of the circle.
The links are two maps; `Ring` says which nodes they chain up. -/

/-- The two pointers of every node; `none` is a null pointer. -/
structure Links (Node : Type) where
  next : Node → Option Node
  prev : Node → Option Node

namespace Links

variable {Node : Type} [DecidableEq Node]

def setNext (links : Links Node) (node : Node) (value : Option Node) : Links Node :=
  { links with next := Function.update links.next node value }

def setPrev (links : Links Node) (node : Node) (value : Option Node) : Links Node :=
  { links with prev := Function.update links.prev node value }

@[simp] theorem setNext_next (links : Links Node) (node : Node) (value : Option Node) :
    (links.setNext node value).next = Function.update links.next node value := rfl

@[simp] theorem setNext_prev (links : Links Node) (node : Node) (value : Option Node) :
    (links.setNext node value).prev = links.prev := rfl

@[simp] theorem setPrev_next (links : Links Node) (node : Node) (value : Option Node) :
    (links.setPrev node value).next = links.next := rfl

@[simp] theorem setPrev_prev (links : Links Node) (node : Node) (value : Option Node) :
    (links.setPrev node value).prev = Function.update links.prev node value := rfl

/-- A head alone. -/
def init (links : Links Node) (list : Node) : Links Node :=
  (links.setPrev list (some list)).setNext list (some list)

/-- Insert between two neighbours. -/
def add (links : Links Node) (new prev next : Node) : Links Node :=
  (((links.setNext prev (some new)).setPrev next (some new)).setNext new (some next)).setPrev
    new (some prev)

/-- Insert after the last node; `none` on a null pointer. -/
def addLast (links : Links Node) (new list : Node) : Option (Links Node) :=
  (links.prev list).map fun last => links.add new last list

/-- Insert before the first node. -/
def addFirst (links : Links Node) (new list : Node) : Option (Links Node) :=
  (links.next list).map fun first => links.add new list first

/-- Join the neighbours and clear the node's pointers. -/
def deleteNode (links : Links Node) (node : Node) : Option (Links Node) :=
  (links.prev node).bind fun prev =>
    (links.next node).map fun next =>
      (((links.setNext prev (some next)).setPrev next (some prev)).setNext node none).setPrev
        node none

/-- The pointers of all nodes but these are the same. -/
def SameOutside (links other : Links Node) (nodes : List Node) : Prop :=
  ∀ node ∉ nodes, other.next node = links.next node ∧ other.prev node = links.prev node

/-- No node outside the list is linked. -/
def Only (links : Links Node) (nodes : List Node) : Prop :=
  ∀ node ∉ nodes, links.next node = none ∧ links.prev node = none

omit [DecidableEq Node] in
theorem SameOutside.mono {links other : Links Node} {nodes more : List Node}
    (same : links.SameOutside other nodes) (subset : nodes ⊆ more) :
    links.SameOutside other more :=
  fun node outside => same node fun member => outside (subset member)

theorem add_sameOutside (links : Links Node) (new prev next : Node) :
    links.SameOutside (links.add new prev next) [new, prev, next] := by
  intro node outside
  simp only [List.mem_cons, List.not_mem_nil, or_false, not_or] at outside
  simp [add, outside]

theorem deleteNode_cleared {links after : Links Node} {node : Node}
    (deleted : links.deleteNode node = some after) :
    after.next node = none ∧ after.prev node = none := by
  rcases Option.bind_eq_some_iff.mp deleted with ⟨prev, _, joined⟩
  rcases Option.map_eq_some_iff.mp joined with ⟨next, _, rfl⟩
  simp

theorem deleteNode_next {links after : Links Node} {node : Node}
    (deleted : links.deleteNode node = some after) : after.next node = none :=
  (deleteNode_cleared deleted).1

end Links

variable {Node : Type}

/-- From `first` through `nodes` to `last`. -/
def Chained (links : Links Node) : Node → List Node → Node → Prop
  | first, [], last => links.next first = some last ∧ links.prev last = some first
  | first, node :: rest, last =>
      links.next first = some node ∧ links.prev node = some first ∧ Chained links node rest last

/-- A head and the nodes of its list, in order. -/
structure Ring (links : Links Node) (list : Node) (nodes : List Node) : Prop where
  chained : Chained links list nodes list
  distinct : (list :: nodes).Nodup

theorem chained_append (links : Links Node) (middle : Node) :
    ∀ (front back : List Node) (first last : Node),
      Chained links first (front ++ middle :: back) last ↔
        Chained links first front middle ∧ Chained links middle back last
  | [], back, first, last => by simp only [List.nil_append, Chained, and_assoc]
  | node :: rest, back, first, last => by
      simp only [List.cons_append, Chained, chained_append links middle rest back node last,
        and_assoc]

/-- Links that agree on the nodes of a chain link it alike. -/
theorem Chained.congr {links other : Links Node} :
    ∀ {nodes : List Node} {first last : Node}, Chained links first nodes last →
      (∀ node ∈ first :: nodes, other.next node = links.next node) →
      (∀ node ∈ nodes ++ [last], other.prev node = links.prev node) →
      Chained other first nodes last
  | [], first, last, chained, nextSame, prevSame => by
      refine ⟨?_, ?_⟩
      · rw [nextSame first (by simp)]
        exact chained.1
      · rw [prevSame last (by simp)]
        exact chained.2
  | node :: rest, first, last, chained, nextSame, prevSame => by
      refine ⟨?_, ?_, chained.2.2.congr ?_ ?_⟩
      · rw [nextSame first (by simp)]
        exact chained.1
      · rw [prevSame node (by simp)]
        exact chained.2.1
      · exact fun node member => nextSame node (List.mem_cons_of_mem _ member)
      · exact fun node member => prevSame node (List.mem_cons_of_mem _ member)

/-- A node taken out of a chain between two others. -/
theorem Chained.unlink [DecidableEq Node] {links : Links Node} {node last : Node}
    {back : List Node} : ∀ {front : List Node} {first : Node},
      Chained links first (front ++ node :: back) last → (front ++ node :: back).Nodup →
      first ∉ front ++ node :: back → last ∉ front ++ node :: back →
      ∃ prev next, prev ∈ first :: front ∧ next ∈ back ++ [last] ∧
        links.prev node = some prev ∧ links.next node = some next ∧
        Chained ((((links.setNext prev (some next)).setPrev next (some prev)).setNext node
          none).setPrev node none) first (front ++ back) last
  | [], first, chained, distinct, firstApart, lastApart => by
      have notFirst : first ≠ node := fun same => firstApart (same ▸ List.mem_cons_self)
      have notLast : last ≠ node := fun same => lastApart (same ▸ List.mem_cons_self)
      refine ⟨first, ?_⟩
      cases back with
      | nil =>
          refine ⟨last, List.mem_cons_self, by simp, chained.2.1, chained.2.2.1, ?_⟩
          simp [Chained, notFirst, notLast]
      | cons second others =>
          refine ⟨second, List.mem_cons_self, by simp, chained.2.1, chained.2.2.1, ?_⟩
          have parts := List.nodup_cons.mp distinct
          have notSecond : second ≠ node := fun same => parts.1 (same ▸ List.mem_cons_self)
          refine ⟨by simp [notFirst], by simp [notSecond], chained.2.2.2.2.congr ?_ ?_⟩
          · intro other member
            have notNode : other ≠ node := fun same => parts.1 (same ▸ member)
            have notPrev : other ≠ first :=
              fun same => firstApart (List.mem_cons_of_mem _ (same ▸ member))
            simp [notNode, notPrev]
          · intro other member
            have apart := List.nodup_cons.mp parts.2
            have notNode : other ≠ node := by
              cases List.mem_append.mp member with
              | inl inside => exact fun same => parts.1 (List.mem_cons_of_mem _ (same ▸ inside))
              | inr end_ => exact fun same => notLast ((List.mem_singleton.mp end_).symm.trans same)
            have notNext : other ≠ second := by
              cases List.mem_append.mp member with
              | inl inside => exact fun same => apart.1 (same ▸ inside)
              | inr end_ =>
                  intro same
                  rw [List.mem_singleton.mp end_] at same
                  exact lastApart (by simp [same])
            simp [notNode, notNext]
  | head :: rest, first, chained, distinct, firstApart, lastApart => by
      have parts := List.nodup_cons.mp distinct
      rcases chained.2.2.unlink parts.2 parts.1
          (fun member => lastApart (List.mem_cons_of_mem _ member)) with
        ⟨prev, next, prevMember, nextMember, before, behind, joined⟩
      refine ⟨prev, next, List.mem_cons_of_mem _ prevMember, nextMember, before, behind, ?_, ?_,
        joined⟩
      · have notPrev : first ≠ prev := by
          rintro rfl
          apply firstApart
          cases List.mem_cons.mp prevMember with
          | inl same => exact same ▸ List.mem_cons_self
          | inr inside => exact List.mem_cons_of_mem _ (List.mem_append_left _ inside)
        have notNode : first ≠ node := fun same => firstApart (by simp [same])
        simpa [notPrev, notNode] using chained.1
      · have notNext : head ≠ next := by
          rintro rfl
          cases List.mem_append.mp nextMember with
          | inl inside =>
              exact parts.1 (List.mem_append_right _ (List.mem_cons_of_mem _ inside))
          | inr end_ =>
              rw [List.mem_singleton.mp end_] at lastApart
              exact lastApart List.mem_cons_self
        have notNode : head ≠ node := fun same => parts.1 (by simp [same])
        simpa [notNext, notNode] using chained.2.1

namespace Ring

variable {links : Links Node} {list : Node} {nodes : List Node}

theorem next_nil (ring : Ring links list []) : links.next list = some list := ring.chained.1

theorem next_cons {node : Node} (ring : Ring links list (node :: nodes)) :
    links.next list = some node := ring.chained.1

/-- The head points to itself exactly when the list is empty. -/
theorem next_self_iff (ring : Ring links list nodes) :
    links.next list = some list ↔ nodes = [] := by
  cases nodes with
  | nil => exact ⟨fun _ => rfl, fun _ => ring.next_nil⟩
  | cons node rest =>
      constructor
      · intro self
        have same : node = list := Option.some.inj (ring.next_cons.symm.trans self)
        exact absurd (same ▸ List.mem_cons_self) (List.nodup_cons.mp ring.distinct).1
      · exact fun empty => nomatch empty

variable [DecidableEq Node]

theorem of_init (links : Links Node) (list : Node) : Ring (links.init list) list [] where
  chained := by simp [Chained, Links.init]
  distinct := by simp

theorem addLast (ring : Ring links list nodes) {new : Node} (fresh : new ∉ list :: nodes) :
    ∃ after, links.addLast new list = some after ∧ Ring after list (nodes ++ [new]) := by
  have notList : new ≠ list := fun same => fresh (same ▸ List.mem_cons_self)
  have distinct : (list :: (nodes ++ [new])).Nodup := by
    rw [← List.cons_append]
    exact List.nodup_append.mpr ⟨ring.distinct, List.nodup_singleton new, by
      intro node member other single same
      rw [List.mem_singleton] at single
      exact fresh (single ▸ same ▸ member)⟩
  rcases List.eq_nil_or_concat nodes with rfl | ⟨front, last, rfl⟩
  · refine ⟨links.add new list list, by rw [Links.addLast, ring.chained.2]; rfl, ?_, distinct⟩
    simp [Chained, Links.add, notList.symm]
  · rw [List.concat_eq_append] at ring fresh distinct ⊢
    have split := (chained_append links last front [] list list).mp ring.chained
    refine ⟨links.add new last list, by rw [Links.addLast, split.2.2]; rfl, ?_, distinct⟩
    have notLast : new ≠ last := fun same => fresh (by simp [same])
    have apart := ring.distinct
    rw [← List.cons_append, List.nodup_append] at apart
    have notFront : ∀ node ∈ list :: front, node ≠ last :=
      fun node member => apart.2.2 node member last (List.mem_singleton.mpr rfl)
    rw [List.append_assoc, List.singleton_append, chained_append]
    refine ⟨split.1.congr ?_ ?_, ?_⟩
    · intro node member
      have other : node ≠ new := by
        intro same
        rw [same] at member
        exact fresh (by simpa using (List.mem_cons.mp member).imp_right .inl)
      simp [Links.add, other, notFront node member]
    · intro node member
      have other : node ≠ new := by
        intro same
        rw [same] at member
        exact fresh (List.mem_cons_of_mem _ member)
      have notHead : node ≠ list := fun same =>
        (List.nodup_cons.mp ring.distinct).1 (same ▸ member)
      simp [Links.add, other, notHead]
    · have lastNotList : last ≠ list := (notFront list List.mem_cons_self).symm
      simp [Chained, Links.add, notList.symm, notLast.symm]

theorem addFirst (ring : Ring links list nodes) {new : Node} (fresh : new ∉ list :: nodes) :
    ∃ after, links.addFirst new list = some after ∧ Ring after list (new :: nodes) := by
  have notList : new ≠ list := fun same => fresh (same ▸ List.mem_cons_self)
  have distinct : (list :: new :: nodes).Nodup := by
    have apart := List.nodup_cons.mp ring.distinct
    have notMember : new ∉ nodes := fun member => fresh (List.mem_cons_of_mem _ member)
    simp [apart.1, apart.2, notMember, notList.symm]
  cases nodes with
  | nil =>
      refine ⟨links.add new list list, by rw [Links.addFirst, ring.next_nil]; rfl, ?_, distinct⟩
      simp [Chained, Links.add, notList.symm]
  | cons head rest =>
      refine ⟨links.add new list head, by rw [Links.addFirst, ring.next_cons]; rfl, ?_, distinct⟩
      have apart := List.nodup_cons.mp ring.distinct
      have inner := List.nodup_cons.mp apart.2
      have notHead : head ≠ new := fun same => fresh (by simp [same])
      refine ⟨?_, ?_, ?_, ?_, ring.chained.2.2.congr ?_ ?_⟩
      · simp [Links.add, notList.symm]
      · simp [Links.add]
      · simp [Links.add]
      · simp [Links.add, notHead]
      · intro node member
        have notNew : node ≠ new := fun same => fresh (List.mem_cons_of_mem _ (same ▸ member))
        have outside : node ≠ list := fun same => apart.1 (same ▸ member)
        simp [Links.add, notNew, outside]
      · intro node member
        have notNew : node ≠ new := by
          rintro rfl
          cases List.mem_append.mp member with
          | inl inside => exact fresh (List.mem_cons_of_mem _ (List.mem_cons_of_mem _ inside))
          | inr end_ => exact notList (List.mem_singleton.mp end_)
        have outside : node ≠ head := by
          rintro rfl
          cases List.mem_append.mp member with
          | inl inside => exact inner.1 inside
          | inr end_ => exact apart.1 (List.mem_singleton.mp end_ ▸ List.mem_cons_self)
        simp [Links.add, notNew, outside]

/-- Deleting a node leaves the list of the others. -/
theorem delete {node : Node} {front back : List Node}
    (ring : Ring links list (front ++ node :: back)) :
    ∃ after, links.deleteNode node = some after ∧ Ring after list (front ++ back) := by
  have apart := List.nodup_cons.mp ring.distinct
  rcases ring.chained.unlink apart.2 apart.1 apart.1 with
    ⟨prev, next, _, _, before, behind, joined⟩
  refine ⟨(((links.setNext prev (some next)).setPrev next (some prev)).setNext node none).setPrev
    node none, ?_, joined, ?_⟩
  · rw [Links.deleteNode, before, Option.bind_some, behind]
    rfl
  · have kept : (front ++ back).Sublist (front ++ node :: back) :=
      (List.Sublist.refl front).append (List.sublist_cons_self node back)
    exact ring.distinct.sublist (kept.cons_cons list)

/-- Deleting the first node leaves the list of the others. -/
theorem deleteFirst {node : Node} (ring : Ring links list (node :: nodes)) :
    ∃ after, links.deleteNode node = some after ∧ Ring after list nodes :=
  @delete _ links list _ node [] nodes ring

/-! Nodes outside the list. -/

omit [DecidableEq Node] in
theorem prev_concat {front : List Node} {last : Node}
    (ring : Ring links list (front ++ [last])) : links.prev list = some last :=
  ((chained_append links last front [] list list).mp ring.chained).2.2

omit [DecidableEq Node] in
theorem prev_list_mem (ring : Ring links list nodes) {last : Node}
    (before : links.prev list = some last) : last ∈ list :: nodes := by
  rcases List.eq_nil_or_concat nodes with rfl | ⟨front, back, rfl⟩
  · have self := before.symm.trans ring.chained.2
    exact Option.some.inj self ▸ List.mem_cons_self
  · rw [List.concat_eq_append] at ring ⊢
    have self := before.symm.trans ring.prev_concat
    simp [Option.some.inj self]

omit [DecidableEq Node] in
theorem next_list_mem (ring : Ring links list nodes) {first : Node}
    (behind : links.next list = some first) : first ∈ list :: nodes := by
  cases nodes with
  | nil =>
      have self := behind.symm.trans ring.next_nil
      exact Option.some.inj self ▸ List.mem_cons_self
  | cons head rest =>
      have self := behind.symm.trans ring.next_cons
      simp [Option.some.inj self]

theorem addFirst_sameOutside (ring : Ring links list nodes) {new : Node} {after : Links Node}
    (added : links.addFirst new list = some after) :
    links.SameOutside after (new :: list :: nodes) := by
  rcases Option.map_eq_some_iff.mp added with ⟨first, behind, rfl⟩
  apply (links.add_sameOutside new list first).mono
  have member := ring.next_list_mem behind
  simp [List.subset_def, List.mem_cons.mp member]

theorem addLast_sameOutside (ring : Ring links list nodes) {new : Node} {after : Links Node}
    (added : links.addLast new list = some after) :
    links.SameOutside after (new :: list :: nodes) := by
  rcases Option.map_eq_some_iff.mp added with ⟨last, before, rfl⟩
  apply (links.add_sameOutside new last list).mono
  have member := ring.prev_list_mem before
  simp [List.subset_def, List.mem_cons.mp member]

theorem delete_sameOutside {node : Node} {front back : List Node}
    (ring : Ring links list (front ++ node :: back)) {after : Links Node}
    (deleted : links.deleteNode node = some after) :
    links.SameOutside after (list :: (front ++ node :: back)) := by
  have apart := List.nodup_cons.mp ring.distinct
  rcases ring.chained.unlink apart.2 apart.1 apart.1 with
    ⟨prev, next, prevMember, nextMember, before, behind, _⟩
  rw [Links.deleteNode, before, Option.bind_some, behind] at deleted
  cases deleted
  intro other outside
  have notNode : other ≠ node := fun same => outside (by simp [same])
  have notPrev : other ≠ prev := by
    rintro rfl
    cases List.mem_cons.mp prevMember with
    | inl head => exact outside (head ▸ List.mem_cons_self)
    | inr inside => exact outside (List.mem_cons_of_mem _ (List.mem_append_left _ inside))
  have notNext : other ≠ next := by
    rintro rfl
    cases List.mem_append.mp nextMember with
    | inl inside =>
        exact outside (List.mem_cons_of_mem _
          (List.mem_append_right _ (List.mem_cons_of_mem _ inside)))
    | inr head => exact outside (List.mem_singleton.mp head ▸ List.mem_cons_self)
  simp [notNode, notPrev, notNext]

omit [DecidableEq Node] in
/-- A list of other nodes is still there. -/
theorem congr {other : Links Node} {touched : List Node} (ring : Ring links list nodes)
    (same : links.SameOutside other touched) (apart : ∀ node ∈ list :: nodes, node ∉ touched) :
    Ring other list nodes where
  chained := by
    apply ring.chained.congr
    · exact fun node member => (same node (apart node member)).1
    · intro node member
      refine (same node (apart node ?_)).2
      cases List.mem_append.mp member with
      | inl inside => exact List.mem_cons_of_mem _ inside
      | inr head => exact List.mem_singleton.mp head ▸ List.mem_cons_self
  distinct := ring.distinct

theorem addLast_only (ring : Ring links list nodes) (only : links.Only (list :: nodes))
    {new : Node} {after : Links Node} (added : links.addLast new list = some after) :
    after.Only (list :: (nodes ++ [new])) := by
  intro node outside
  have notNew : node ≠ new := fun same => outside (by simp [same])
  have notOld : node ∉ list :: nodes := by
    intro old
    apply outside
    rw [← List.cons_append]
    exact List.mem_append_left _ old
  have same := ring.addLast_sameOutside added node (List.not_mem_cons_of_ne_of_not_mem notNew notOld)
  rw [same.1, same.2]
  exact only node notOld

theorem delete_only {node : Node} {front back : List Node}
    (ring : Ring links list (front ++ node :: back))
    (only : links.Only (list :: (front ++ node :: back))) {after : Links Node}
    (deleted : links.deleteNode node = some after) : after.Only (list :: (front ++ back)) := by
  intro other outside
  by_cases same : other = node
  · rw [same]
    exact Links.deleteNode_cleared deleted
  · have notOld : other ∉ list :: (front ++ node :: back) := by
      intro old
      apply outside
      simp only [List.mem_cons, List.mem_append] at old ⊢
      tauto
    have kept := ring.delete_sameOutside deleted other notOld
    rw [kept.1, kept.2]
    exact only other notOld

end Ring

end Vanilla
