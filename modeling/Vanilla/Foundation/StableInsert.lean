import Mathlib.Data.List.TakeWhile
import Mathlib.Order.Lattice

/-! # Stable insertion

A list kept in order of a key. An item goes behind all that have its key, so
items with equal keys stay in the order they arrived in.
-/

namespace Vanilla

variable {Item Key : Type} [LinearOrder Key] (key : Item → Key) {items : List Item}

/-- The list is in order of its keys. -/
def InOrder (items : List Item) : Prop := items.Pairwise fun left right => key left ≤ key right

def insertByKey (bound : Key) (item : Item) (items : List Item) : List Item :=
  items.takeWhile (fun other => decide (key other ≤ bound)) ++
    item :: items.dropWhile (fun other => decide (key other ≤ bound))

variable {key}

theorem InOrder.sublist {others : List Item} (ordered : InOrder key items)
    (sub : others.Sublist items) : InOrder key others :=
  List.Pairwise.sublist sub ordered

theorem InOrder.congr {other : Item → Key} (ordered : InOrder key items)
    (same : ∀ item ∈ items, other item = key item) : InOrder other items := by
  apply List.Pairwise.imp_of_mem _ ordered
  intro left right leftMember rightMember le
  rw [same left leftMember, same right rightMember]
  exact le

theorem InOrder.head_le {head item : Item} {rest : List Item}
    (ordered : InOrder key (head :: rest)) (member : item ∈ head :: rest) :
    key head ≤ key item := by
  cases member with
  | head => exact le_refl _
  | tail _ member => exact (List.pairwise_cons.mp ordered).1 item member

/-- What comes behind the new item has a greater key. -/
theorem InOrder.lt_of_mem_dropWhile {bound : Key} {item : Item} (ordered : InOrder key items)
    (member : item ∈ items.dropWhile fun other => decide (key other ≤ bound)) :
    bound < key item := by
  induction items with
  | nil => cases member
  | cons head rest induction =>
      by_cases below : key head ≤ bound
      · rw [List.dropWhile_cons_of_pos (by simpa using below)] at member
        exact induction (List.pairwise_cons.mp ordered).2 member
      · rw [List.dropWhile_cons_of_neg (by simpa using below)] at member
        exact lt_of_lt_of_le (not_le.mp below) (ordered.head_le member)

theorem le_of_mem_takeWhile {bound : Key} {item : Item}
    (member : item ∈ items.takeWhile fun other => decide (key other ≤ bound)) :
    key item ≤ bound := by
  have below := List.mem_takeWhile_imp member
  simpa using below

/-- The list stays in order. -/
theorem InOrder.insertByKey {item : Item} (ordered : InOrder key items) :
    InOrder key (insertByKey key (key item) item items) := by
  have whole := ordered
  rw [← List.takeWhile_append_dropWhile
    (p := fun other => decide (key other ≤ key item)) (l := items)] at whole
  rcases List.pairwise_append.mp whole with ⟨front, back, across⟩
  apply List.pairwise_append.mpr
  refine ⟨front, ?_, ?_⟩
  · apply List.pairwise_cons.mpr
    exact ⟨fun other member => le_of_lt (ordered.lt_of_mem_dropWhile member), back⟩
  · intro left leftMember right rightMember
    cases rightMember with
    | head => exact le_of_mem_takeWhile leftMember
    | tail _ rightMember => exact across left leftMember right rightMember

end Vanilla
