import Vanilla.Mm.Header

/-! # The free list in memory

`Chain` reads a list of blocks off the links in memory. The search loop of
`mm_alloc` is a first fit over that list.
-/

namespace Vanilla.Mm

open ByteMemory

/-- Following `next` from `node` leads through the blocks of `list`, in order
and with the headers they should have, to `last`. -/
def Chain (memory : ByteMemory) (region : Nat) : Nat → List Interval → Nat → Prop
  | node, [], last => nodeNext memory node = last
  | node, block :: rest, last =>
      nodeNext memory node = block.addr ∧
      nodeSize memory block.addr = tagged region block.size ∧
      Chain memory region block.addr rest last

/-- The node whose link leaves the list. -/
def endNode : Nat → List Interval → Nat
  | node, [] => node
  | _, block :: rest => endNode block.addr rest

/-- The node a link into the list leads to. -/
def firstNode (last : Nat) : List Interval → Nat
  | [] => last
  | block :: _ => block.addr

@[simp] theorem endNode_append_cons (block : Interval) (right : List Interval) :
    ∀ (node : Nat) (left : List Interval),
      endNode node (left ++ block :: right) = endNode block.addr right
  | _, [] => rfl
  | _, head :: rest => endNode_append_cons block right head.addr rest

theorem endNode_mem (node : Nat) (list : List Interval) :
    endNode node list = node ∨ ∃ block ∈ list, endNode node list = block.addr := by
  induction list generalizing node with
  | nil => exact .inl rfl
  | cons head rest induction =>
      right
      rcases induction head.addr with equal | ⟨block, member, equal⟩
      · exact ⟨head, List.mem_cons_self, equal⟩
      · exact ⟨block, List.mem_cons_of_mem _ member, equal⟩

section Chain

variable {memory after : ByteMemory} {region node last : Nat} {list : List Interval}

theorem Chain.next_eq (chain : Chain memory region node list last) :
    nodeNext memory node = firstNode last list := by
  cases list with
  | nil => exact chain
  | cons head rest => exact chain.1

theorem Chain.next_ne_zero (chain : Chain memory region node list last) (nonzero : last ≠ 0)
    (linked : ∀ block ∈ list, block.addr ≠ 0) : nodeNext memory node ≠ 0 := by
  rw [chain.next_eq]
  cases list with
  | nil => exact nonzero
  | cons head rest => exact linked head List.mem_cons_self

theorem chain_append_cons (block : Interval) (right : List Interval) :
    ∀ (node : Nat) (left : List Interval),
      Chain memory region node (left ++ block :: right) last ↔
        Chain memory region node left block.addr ∧
        nodeSize memory block.addr = tagged region block.size ∧
        Chain memory region block.addr right last
  | _, [] => Iff.rfl
  | node, head :: rest => by
      simp only [List.cons_append, Chain]
      rw [chain_append_cons block right head.addr rest]
      simp only [and_assoc]

/-- The link out of any prefix leads to the first node after it. -/
theorem chain_append_next (right : List Interval) :
    ∀ (node : Nat) (left : List Interval),
      Chain memory region node (left ++ right) last →
      nodeNext memory (endNode node left) = firstNode last right
  | _, [], chain => chain.next_eq
  | _, head :: rest, chain => chain_append_next right head.addr rest chain.2.2

theorem chain_append_right (right : List Interval) :
    ∀ (node : Nat) (left : List Interval),
      Chain memory region node (left ++ right) last →
      Chain memory region (endNode node left) right last
  | _, [], chain => chain
  | _, head :: rest, chain => chain_append_right right head.addr rest chain.2.2

theorem chain_append_left (right : List Interval) :
    ∀ (node : Nat) (left : List Interval),
      Chain memory region node (left ++ right) last →
      Chain memory region node left (firstNode last right)
  | _, [], chain => chain.next_eq
  | _, head :: rest, chain =>
      ⟨chain.1, chain.2.1, chain_append_left right head.addr rest chain.2.2⟩

theorem chain_append (right : List Interval) :
    ∀ (node : Nat) (left : List Interval),
      Chain memory region node left (firstNode last right) →
      Chain memory region (endNode node left) right last →
      Chain memory region node (left ++ right) last
  | _, [], _, chain => chain
  | _, head :: rest, front, back =>
      ⟨front.1, front.2.1, chain_append right head.addr rest front.2.2 back⟩

/-- A chain depends only on the links of its nodes and the sizes of its blocks. -/
theorem Chain.congr (chain : Chain memory region node list last)
    (startSame : nodeNext after node = nodeNext memory node)
    (blocksSame : ∀ block ∈ list,
      nodeNext after block.addr = nodeNext memory block.addr ∧
      nodeSize after block.addr = nodeSize memory block.addr) :
    Chain after region node list last := by
  induction list generalizing node with
  | nil => exact startSame.trans chain
  | cons head rest induction =>
      have headSame := blocksSame head List.mem_cons_self
      exact ⟨startSame.trans chain.1, headSame.2.trans chain.2.1,
        induction chain.2.2 headSame.1 fun block member =>
          blocksSame block (List.mem_cons_of_mem _ member)⟩

/-- A store that misses every header of the chain leaves the chain alone. -/
theorem Chain.frame {footprint : Nat → Prop}
    (chain : Chain memory region node list last)
    (writes : WritesOnly footprint memory after)
    (startOutside : ∀ address, Header node address → ¬ footprint address)
    (blocksOutside : ∀ block ∈ list,
      ∀ address, Header block.addr address → ¬ footprint address) :
    Chain after region node list last :=
  chain.congr (nodeNext_of_writes writes startOutside) fun block member =>
    ⟨nodeNext_of_writes writes (blocksOutside block member),
      nodeSize_of_writes writes (blocksOutside block member)⟩

/-- Redirecting the link of the end node redirects the chain. -/
theorem Chain.redirect {target : Nat} (chain : Chain memory region node list last)
    (bound : target < 2 ^ 32)
    (apart : (node :: list.map Interval.addr).Pairwise NodesApart) :
    Chain (setNext memory (endNode node list) target) region node list target := by
  induction list generalizing node with
  | nil => exact nodeNext_setNext_same memory node bound
  | cons head rest induction =>
      rcases List.pairwise_cons.mp apart with ⟨nodeApart, restApart⟩
      have endApart : NodesApart (endNode head.addr rest) node := by
        apply NodesApart.symm
        apply nodeApart
        rcases endNode_mem head.addr rest with equal | ⟨block, member, equal⟩
        · simp [equal]
        · rw [equal]
          exact List.mem_cons_of_mem _ (List.mem_map_of_mem member)
      refine ⟨?_, ?_, induction chain.2.2 restApart⟩
      · rw [endNode, nodeNext_setNext_apart _ _ endApart]
        exact chain.1
      · have sizeSame : nodeSize (setNext memory (endNode head.addr rest) target) head.addr =
            nodeSize memory head.addr := by
          rcases endNode_mem head.addr rest with equal | ⟨block, member, equal⟩
          · rw [equal, nodeSize_setNext_same]
          · apply nodeSize_setNext_apart
            rw [equal]
            exact ((List.pairwise_cons.mp restApart).1 _ (List.mem_map_of_mem member)).symm
        exact sizeSame.trans chain.2.1

/-- A node with the same link starts the same chain. -/
theorem Chain.restart {other : Nat} (chain : Chain memory region node list last)
    (same : nodeNext memory other = nodeNext memory node) :
    Chain memory region other list last := by
  cases list with
  | nil => exact same.trans chain
  | cons head rest => exact ⟨same.trans chain.1, chain.2⟩

/-- Skipping a block: link the node before it to the node after it. -/
theorem Chain.unlink {left right : List Interval} {block : Interval}
    (chain : Chain memory region node (left ++ block :: right) last)
    (apart : (node :: (left ++ block :: right).map Interval.addr).Pairwise NodesApart) :
    Chain (setNext memory (endNode node left) (nodeNext memory block.addr)) region node
      (left ++ right) last := by
  rcases (chain_append_cons block right node left).mp chain with ⟨front, _, back⟩
  rw [List.map_append, List.map_cons, ← List.cons_append] at apart
  rcases List.pairwise_append.mp apart with ⟨leftApart, rightApart, across⟩
  have endMember : endNode node left ∈ node :: left.map Interval.addr := by
    rcases endNode_mem node left with equal | ⟨gap, member, equal⟩
    · simp [equal]
    · rw [equal]
      exact List.mem_cons_of_mem _ (List.mem_map_of_mem member)
  have linkBound := nodeNext_lt memory block.addr
  have newFront := front.redirect linkBound leftApart
  rw [back.next_eq] at newFront ⊢
  refine chain_append right node left newFront ?_
  have blockApart : NodesApart (endNode node left) block.addr :=
    across _ endMember _ List.mem_cons_self
  have moved : Chain (setNext memory (endNode node left) (firstNode last right)) region
      block.addr right last := by
    apply back.frame (setNext_writes memory _ _) blockApart.not_header
    intro gap member
    apply NodesApart.not_header
    exact across _ endMember _ (List.mem_cons_of_mem _ (List.mem_map_of_mem member))
  apply moved.restart
  rw [nodeNext_setNext_same _ _ (back.next_eq ▸ linkBound), nodeNext_setNext_apart _ _ blockApart,
    back.next_eq]

/-- The headers of a chain say what it lists. -/
theorem Chain.nodeSize_eq {block : Interval} (chain : Chain memory region node list last)
    (member : block ∈ list) : nodeSize memory block.addr = tagged region block.size := by
  rcases List.append_of_mem member with ⟨front, back, cut⟩
  exact ((chain_append_cons block back node front).mp (cut ▸ chain)).2.1

/-- Walking a chain reads its list. -/
theorem Chain.walkFree_eq :
    ∀ {list : List Interval} {node : Nat} (rounds : Nat),
      Chain memory region node list last →
      (∀ block ∈ list, block.addr ≠ last ∧ block.size < 2 ^ 28) →
      list.length < rounds → walkFree memory last rounds node = some list
  | _, _, 0, _, _, enough => absurd enough (Nat.not_lt_zero _)
  | [], node, rounds + 1, chain, _, _ => by
      have next : nodeNext memory node = last := chain
      simp only [walkFree, next, if_true]
  | head :: rest, node, rounds + 1, chain, blocks, enough => by
      have headFacts := blocks head List.mem_cons_self
      have walked := Chain.walkFree_eq rounds chain.2.2
        (fun block member => blocks block (List.mem_cons_of_mem _ member))
        (Nat.lt_of_succ_lt_succ enough)
      simp only [walkFree, chain.1, if_neg headFacts.1, walked, chain.2.1,
        mmGetSize_tagged region headFacts.2, Option.map_some]

end Chain

/-! ## Finding a block -/

section FindFit

variable {memory : ByteMemory} {region last need : Nat}

theorem findFit_found {fit : Interval} {right : List Interval}
    (large : need ≤ fit.size) (fitBound : fit.size < 2 ^ 28)
    (linked : ∀ block ∈ fit :: right, block.addr ≠ 0) (lastNonzero : last ≠ 0) :
    ∀ (left : List Interval) (node rounds : Nat),
      Chain memory region node (left ++ fit :: right) last →
      (∀ block ∈ left, block.size < need ∧ block.addr ≠ 0) →
      left.length < rounds →
      findFit memory need rounds node (nodeNext memory node) =
        some (endNode node left, fit.addr)
  | _, _, 0, _, _, enough => absurd enough (Nat.not_lt_zero _)
  | [], node, rounds + 1, chain, _, _ => by
      have fitNext : nodeNext memory fit.addr ≠ 0 :=
        chain.2.2.next_ne_zero lastNonzero fun block member =>
          linked block (List.mem_cons_of_mem _ member)
      have fits : need ≤ mmGetSize (nodeSize memory fit.addr) := by
        rw [chain.2.1, mmGetSize_tagged region fitBound]
        exact large
      simp only [findFit, chain.1]
      rw [if_pos fitNext, if_pos fits, endNode]
  | head :: rest, node, rounds + 1, chain, small, enough => by
      have headSmall := small head List.mem_cons_self
      have headNext : nodeNext memory head.addr ≠ 0 := by
        apply Chain.next_ne_zero chain.2.2 lastNonzero
        intro block member
        rcases List.mem_append.mp member with before | after
        · exact (small block (List.mem_cons_of_mem _ before)).2
        · exact linked block after
      have tooSmall : ¬ need ≤ mmGetSize (nodeSize memory head.addr) := by
        rw [chain.2.1, mmGetSize_eq, tagged]
        omega
      have found := findFit_found large fitBound linked lastNonzero rest head.addr rounds
        chain.2.2 (fun block member => small block (List.mem_cons_of_mem _ member))
        (Nat.lt_of_succ_lt_succ enough)
      simp only [findFit, chain.1]
      rw [if_pos headNext, if_neg tooSmall, found, endNode]

theorem findFit_missing (lastEnd : nodeNext memory last = 0) (lastNonzero : last ≠ 0) :
    ∀ (list : List Interval) (node rounds : Nat),
      Chain memory region node list last →
      (∀ block ∈ list, block.size < need ∧ block.addr ≠ 0) →
      list.length < rounds →
      findFit memory need rounds node (nodeNext memory node) = some (endNode node list, last)
  | _, _, 0, _, _, enough => absurd enough (Nat.not_lt_zero _)
  | [], node, rounds + 1, chain, _, _ => by
      have next : nodeNext memory node = last := chain
      simp only [findFit, next, lastEnd, ne_eq, not_true_eq_false, if_false, endNode]
  | head :: rest, node, rounds + 1, chain, small, enough => by
      have headSmall := small head List.mem_cons_self
      have headNext : nodeNext memory head.addr ≠ 0 :=
        chain.2.2.next_ne_zero lastNonzero fun block member =>
          (small block (List.mem_cons_of_mem _ member)).2
      have tooSmall : ¬ need ≤ mmGetSize (nodeSize memory head.addr) := by
        rw [chain.2.1, mmGetSize_eq, tagged]
        omega
      have missing := findFit_missing lastEnd lastNonzero rest head.addr rounds chain.2.2
        (fun block member => small block (List.mem_cons_of_mem _ member))
        (Nat.lt_of_succ_lt_succ enough)
      simp only [findFit, chain.1]
      rw [if_pos headNext, if_neg tooSmall, missing, endNode]

end FindFit

end Vanilla.Mm
