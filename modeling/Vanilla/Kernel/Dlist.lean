import Mathlib.Logic.Function.Basic
import Vanilla.Foundation.Exec
import Vanilla.Foundation.Word

/-! # Double linked lists (`dlist.c`)

All nodes and all list heads of a machine, by address: `Node` and `Id` are the
types of the two kinds of address, `Object` is what the `obj` fields point to.
-/

namespace Vanilla

variable {Node Id Object : Type}

/-- `struct dlist_node` -/
structure DlistNode (Node Object : Type) where
  prev : Option Node := none
  next : Option Node := none
  obj : Option Object := none

/-- `struct dlist` -/
structure DlistHead (Node : Type) where
  first : Option Node := none
  last : Option Node := none
  size : Nat := 0

structure DlistStore (Node Id Object : Type) where
  node : Node → DlistNode Node Object
  list : Id → DlistHead Node

namespace DlistStore

section NodeFields

variable [DecidableEq Node]

def setPrev (node : Node) (value : Option Node) (store : DlistStore Node Id Object) :
    DlistStore Node Id Object :=
  { store with
    node := Function.update store.node node { store.node node with prev := value } }

def setNext (node : Node) (value : Option Node) (store : DlistStore Node Id Object) :
    DlistStore Node Id Object :=
  { store with
    node := Function.update store.node node { store.node node with next := value } }

def setObj (node : Node) (value : Option Object) (store : DlistStore Node Id Object) :
    DlistStore Node Id Object :=
  { store with
    node := Function.update store.node node { store.node node with obj := value } }

variable (store : DlistStore Node Id Object) (node other : Node)

@[simp] theorem node_setPrev_prev (value : Option Node) :
    ((setPrev node value store).node other).prev =
      if other = node then value else (store.node other).prev := by
  by_cases equal : other = node <;> simp [setPrev, equal]

@[simp] theorem node_setPrev_next (value : Option Node) :
    ((setPrev node value store).node other).next = (store.node other).next := by
  by_cases equal : other = node <;> simp [setPrev, equal]

@[simp] theorem node_setPrev_obj (value : Option Node) :
    ((setPrev node value store).node other).obj = (store.node other).obj := by
  by_cases equal : other = node <;> simp [setPrev, equal]

@[simp] theorem list_setPrev (value : Option Node) :
    (setPrev node value store).list = store.list := rfl

@[simp] theorem node_setNext_prev (value : Option Node) :
    ((setNext node value store).node other).prev = (store.node other).prev := by
  by_cases equal : other = node <;> simp [setNext, equal]

@[simp] theorem node_setNext_next (value : Option Node) :
    ((setNext node value store).node other).next =
      if other = node then value else (store.node other).next := by
  by_cases equal : other = node <;> simp [setNext, equal]

@[simp] theorem node_setNext_obj (value : Option Node) :
    ((setNext node value store).node other).obj = (store.node other).obj := by
  by_cases equal : other = node <;> simp [setNext, equal]

@[simp] theorem list_setNext (value : Option Node) :
    (setNext node value store).list = store.list := rfl

@[simp] theorem node_setObj_prev (value : Option Object) :
    ((setObj node value store).node other).prev = (store.node other).prev := by
  by_cases equal : other = node <;> simp [setObj, equal]

@[simp] theorem node_setObj_next (value : Option Object) :
    ((setObj node value store).node other).next = (store.node other).next := by
  by_cases equal : other = node <;> simp [setObj, equal]

@[simp] theorem node_setObj_obj (value : Option Object) :
    ((setObj node value store).node other).obj =
      if other = node then value else (store.node other).obj := by
  by_cases equal : other = node <;> simp [setObj, equal]

@[simp] theorem list_setObj (value : Option Object) :
    (setObj node value store).list = store.list := rfl

end NodeFields

section ListFields

variable [DecidableEq Id]

def setFirst (list : Id) (value : Option Node) (store : DlistStore Node Id Object) :
    DlistStore Node Id Object :=
  { store with
    list := Function.update store.list list { store.list list with first := value } }

def setLast (list : Id) (value : Option Node) (store : DlistStore Node Id Object) :
    DlistStore Node Id Object :=
  { store with
    list := Function.update store.list list { store.list list with last := value } }

def setSize (list : Id) (value : Nat) (store : DlistStore Node Id Object) :
    DlistStore Node Id Object :=
  { store with
    list := Function.update store.list list { store.list list with size := value } }

variable (store : DlistStore Node Id Object) (list otherList : Id)

@[simp] theorem list_setFirst_first (value : Option Node) :
    ((setFirst list value store).list list).first = value := by
  simp [setFirst]

@[simp] theorem list_setFirst_last (value : Option Node) :
    ((setFirst list value store).list list).last = (store.list list).last := by
  simp [setFirst]

@[simp] theorem list_setFirst_size (value : Option Node) :
    ((setFirst list value store).list list).size = (store.list list).size := by
  simp [setFirst]

theorem list_setFirst_of_ne (value : Option Node) (different : otherList ≠ list) :
    (setFirst list value store).list otherList = store.list otherList := by
  simp [setFirst, different]

@[simp] theorem node_setFirst (value : Option Node) :
    (setFirst list value store).node = store.node := rfl

@[simp] theorem list_setLast_first (value : Option Node) :
    ((setLast list value store).list list).first = (store.list list).first := by
  simp [setLast]

@[simp] theorem list_setLast_last (value : Option Node) :
    ((setLast list value store).list list).last = value := by
  simp [setLast]

@[simp] theorem list_setLast_size (value : Option Node) :
    ((setLast list value store).list list).size = (store.list list).size := by
  simp [setLast]

theorem list_setLast_of_ne (value : Option Node) (different : otherList ≠ list) :
    (setLast list value store).list otherList = store.list otherList := by
  simp [setLast, different]

@[simp] theorem node_setLast (value : Option Node) :
    (setLast list value store).node = store.node := rfl

@[simp] theorem list_setSize_first (value : Nat) :
    ((setSize list value store).list list).first = (store.list list).first := by
  simp [setSize]

@[simp] theorem list_setSize_last (value : Nat) :
    ((setSize list value store).list list).last = (store.list list).last := by
  simp [setSize]

@[simp] theorem list_setSize_size (value : Nat) :
    ((setSize list value store).list list).size = value := by
  simp [setSize]

theorem list_setSize_of_ne (value : Nat) (different : otherList ≠ list) :
    (setSize list value store).list otherList = store.list otherList := by
  simp [setSize, different]

@[simp] theorem node_setSize (value : Nat) :
    (setSize list value store).node = store.node := rfl

end ListFields

end DlistStore

open DlistStore

variable [DecidableEq Node] [DecidableEq Id]

/-- The two checks every insertion starts with. -/
def dlistCheckFree (node : Node) (list : Id) : Exec (DlistStore Node Id Object) Unit := do
  let store ← get
  if (store.node node).next ≠ none ∨ (store.node node).prev ≠ none then
    Exec.panic "List error"
  if some node = (store.list list).first then
    Exec.panic "List error"

/-- `list->size++` -/
def dlistGrow (list : Id) : Exec (DlistStore Node Id Object) Unit :=
  modify fun store => setSize list (u32 ((store.list list).size + 1)) store

/-- `list->size--`, after the check for zero. -/
def dlistShrink (list : Id) (reason : String) : Exec (DlistStore Node Id Object) Unit := do
  let store ← get
  if (store.list list).size = 0 then
    Exec.panic reason
  set (setSize list ((store.list list).size - 1) store)

def dlistInsertFirst (node : Node) (list : Id) : Exec (DlistStore Node Id Object) Unit := do
  dlistCheckFree node list
  let store ← get
  match (store.list list).first with
  | some first =>
      set (setFirst list (some node)
        (setPrev first (some node) (setNext node (some first) store)))
  | none => set (setLast list (some node) (setFirst list (some node) store))
  dlistGrow list

def dlistInsertLast (node : Node) (list : Id) : Exec (DlistStore Node Id Object) Unit := do
  dlistCheckFree node list
  let store ← get
  match (store.list list).last with
  | some last =>
      set (setLast list (some node)
        (setNext last (some node) (setPrev node (some last) store)))
  | none => set (setLast list (some node) (setFirst list (some node) store))
  dlistGrow list

def dlistInsertAfter (iNode aNode : Node) (list : Id) :
    Exec (DlistStore Node Id Object) Unit := do
  dlistCheckFree iNode list
  let store ← get
  if some aNode = (store.list list).last then
    dlistInsertLast iNode list
  else
    set (setNext iNode (store.node aNode).next store)
    let next ← Exec.deref (store.node aNode).next
    modify (setPrev next (some iNode))
    modify (setNext aNode (some iNode))
    modify (setPrev iNode (some aNode))
    dlistGrow list

def dlistInsertBefore (iNode bNode : Node) (list : Id) :
    Exec (DlistStore Node Id Object) Unit := do
  dlistCheckFree iNode list
  let store ← get
  if some bNode = (store.list list).first then
    dlistInsertFirst iNode list
  else
    set (setPrev iNode (store.node bNode).prev store)
    let prev ← Exec.deref (store.node bNode).prev
    modify (setNext prev (some iNode))
    modify (setNext iNode (some bNode))
    modify (setPrev bNode (some iNode))
    dlistGrow list

/-- `node->next = NULL; node->prev = NULL;` -/
def dlistUnlink (node : Node) : Exec (DlistStore Node Id Object) Unit :=
  modify fun store => setPrev node none (setNext node none store)

def dlistRemoveFirst (list : Id) : Exec (DlistStore Node Id Object) Node := do
  let store ← get
  match (store.list list).first with
  | none => Exec.panic "List does not contain any elements"
  | some first =>
      match (store.node first).next with
      | some next => set (setFirst list (some next) (setPrev next none store))
      | none => set (setLast list none (setFirst list none store))
      dlistShrink list "List size is zero"
      dlistUnlink first
      return first

def dlistRemoveLast (list : Id) : Exec (DlistStore Node Id Object) Node := do
  let store ← get
  match (store.list list).last with
  | none => Exec.panic "List error"
  | some last =>
      match (store.node last).prev with
      | some prev => set (setLast list (some prev) (setNext prev none store))
      | none => set (setFirst list none (setLast list none store))
      dlistShrink list "List error"
      dlistUnlink last
      return last

def dlistRemove (node : Node) (list : Id) : Exec (DlistStore Node Id Object) Node := do
  let store ← get
  if some node = (store.list list).first then
    let _ ← dlistRemoveFirst list
  else if some node = (store.list list).last then
    let _ ← dlistRemoveLast list
  else
    let prev ← Exec.deref (store.node node).prev
    modify fun store => setNext prev (store.node node).next store
    let store ← get
    let next ← Exec.deref (store.node node).next
    set (setPrev next (store.node node).prev store)
    dlistShrink list "List error"
  dlistUnlink node
  return node

/-- The loop of `dlist_search`. -/
def searchFrom (node : Node) : Nat → Option Node → Exec (DlistStore Node Id Object) Bool
  | _, none => return false
  | 0, some _ => Exec.fault .diverges
  | rounds + 1, some iter => do
      if iter = node then
        return true
      let store ← get
      searchFrom node rounds (store.node iter).next

def dlistSearch (node : Node) (list : Id) : Exec (DlistStore Node Id Object) Bool := do
  let store ← get
  searchFrom node loopRounds (store.list list).first

end Vanilla
