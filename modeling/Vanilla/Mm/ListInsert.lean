import Vanilla.Mm.FreeList

/-! # Inserting a node into the free list

`mm_list_insert` on a well-formed chain is `Intervals.release`: the merge with
the block before, the merge with the block after, both, or neither.
-/

namespace Vanilla.Mm

open ByteMemory

/-- What `mm_list_insert` may rely on: a well-formed chain, and a block that
overlaps none of it and whose header holds its size and tag. -/
structure InsertReady (memory : ByteMemory) (region root last : Nat)
    (free : List Interval) (block : Interval) : Prop where
  chain : Chain memory region root free last
  rootSize : nodeSize memory root = 0
  blockSize : nodeSize memory block.addr = tagged region block.size
  separated : Intervals.Separated free
  disjoint : ∀ gap ∈ free, gap.Disjoint block
  room : ∀ interval ∈ block :: free,
    root + 8 ≤ interval.addr ∧ 8 ≤ interval.size ∧ interval.stop ≤ last
  lastBound : last < 2 ^ 32
  regionBound : region < 16
  sizes : block.size + Intervals.total free < 2 ^ 28

theorem seekBefore_eq {memory : ByteMemory} {region last target : Nat}
    {right : List Interval} :
    ∀ (left : List Interval) (node rounds : Nat),
      Chain memory region node (left ++ right) last →
      (∀ block ∈ left, block.addr < target) → target ≤ firstNode last right →
      left.length < rounds →
      seekBefore memory target rounds node = some (endNode node left)
  | _, _, 0, _, _, _, enough => absurd enough (Nat.not_lt_zero _)
  | [], node, rounds + 1, chain, _, after, _ => by
      have next : nodeNext memory node = firstNode last right := chain.next_eq
      simp only [seekBefore, next, if_neg (Nat.not_lt_of_le after), endNode]
  | head :: rest, node, rounds + 1, chain, before, after, enough => by
      have next : nodeNext memory node = head.addr := chain.1
      have headBefore := before head List.mem_cons_self
      simp only [seekBefore, next, if_pos headBefore, endNode]
      exact seekBefore_eq rest head.addr rounds chain.2.2
        (fun block member => before block (List.mem_cons_of_mem _ member)) after
        (Nat.lt_of_succ_lt_succ enough)

section Merge

variable {memory : ByteMemory} {region iter node last size : Nat} {right : List Interval}

/-- The forward half of the insertion: `node` ends up in front of the blocks
after `iter`, as `Intervals.absorb` puts it there. -/
theorem mergeForward_spec (chain : Chain memory region iter right last)
    (nodeHeader : nodeSize memory node = tagged region size)
    (separated : Intervals.Separated right)
    (iterApart : iter = node ∨ NodesApart node iter)
    (nodeLarge : 8 ≤ size) (nodeLast : node + size ≤ last)
    (after : ∀ block ∈ right, node + size ≤ block.addr ∧ block.stop ≤ last)
    (lastBound : last < 2 ^ 32) (regionBound : region < 16)
    (sizes : size + Intervals.total right < 2 ^ 28) :
    ∃ newSize newRight,
      Intervals.absorb ⟨node, size⟩ right = ⟨node, newSize⟩ :: newRight ∧
      Chain (mergeForward memory iter node last) region node newRight last ∧
      nodeSize (mergeForward memory iter node last) node = tagged region newSize ∧
      WritesOnly (Header node) memory (mergeForward memory iter node last) := by
  have sizeBound : size < 2 ^ 28 := by omega
  have nodeEnd : u32 (node + size) = node + size := u32_of_lt (by omega)
  cases right with
  | nil =>
      have next : nodeNext memory iter = last := chain
      -- both branches of the source write the same link
      have result : mergeForward memory iter node last = setNext memory node last := by
        simp only [mergeForward, next, if_true, ite_self]
      rw [result]
      exact ⟨size, [], rfl, nodeNext_setNext_same memory node lastBound,
        by rw [nodeSize_setNext_same, nodeHeader], setNext_writes memory node last⟩
  | cons head rest =>
      have next : nodeNext memory iter = head.addr := chain.1
      have headAfter := after head List.mem_cons_self
      have headPositive := separated.positive head List.mem_cons_self
      have headNotLast : head.addr ≠ last := by
        simp only [Interval.stop] at headAfter
        omega
      have headApart : NodesApart node head.addr := .inl (by omega)
      have restApart : ∀ block ∈ rest, NodesApart node block.addr := by
        intro block member
        have blockAfter := after block (List.mem_cons_of_mem _ member)
        exact .inl (by omega)
      have headBound : head.size < 2 ^ 28 := by
        simp only [Intervals.total_cons] at sizes
        omega
      have headGet : mmGetSize (nodeSize memory head.addr) = head.size := by
        rw [chain.2.1, mmGetSize_tagged region headBound]
      have nodeGet : mmGetSize (nodeSize memory node) = size := by
        rw [nodeHeader, mmGetSize_tagged region sizeBound]
      by_cases touches : node + size = head.addr
      · have grown : nodeSize memory node + head.size = tagged region (size + head.size) := by
          rw [nodeHeader, tagged, tagged]
          omega
        have grownBound : tagged region (size + head.size) < 2 ^ 32 := by
          apply tagged_lt regionBound
          simp only [Intervals.total_cons] at sizes
          omega
        let sized := setSize memory node (tagged region (size + head.size))
        have iterNext : nodeNext sized iter = head.addr := by
          rcases iterApart with rfl | apart
          · exact (nodeNext_setSize_same memory iter _).trans next
          · exact (nodeNext_setSize_apart memory _ apart).trans next
        have headNext : nodeNext sized head.addr = nodeNext memory head.addr :=
          nodeNext_setSize_apart memory _ headApart
        have result : mergeForward memory iter node last =
            setNext sized node (nodeNext memory head.addr) := by
          simp only [mergeForward, next, nodeGet, headGet, nodeEnd, if_pos touches,
            if_neg headNotLast, grown]
          rw [show setSize memory node (tagged region (size + head.size)) = sized from rfl,
            iterNext, headNext]
        have writes : WritesOnly (Header node) memory
            (setNext sized node (nodeNext memory head.addr)) :=
          (setSize_writes memory node _).trans (setNext_writes sized node _)
        rw [result]
        refine ⟨size + head.size, rest, ?_, ?_, ?_, writes⟩
        · simp only [Intervals.absorb, Interval.stop]
          exact if_pos touches
        · have moved : Chain (setNext sized node (nodeNext memory head.addr)) region
              head.addr rest last :=
            chain.2.2.frame writes headApart.not_header fun block member =>
              (restApart block member).not_header
          apply moved.restart
          rw [nodeNext_setNext_same _ _ (nodeNext_lt memory head.addr),
            nodeNext_setNext_apart _ _ headApart, headNext]
        · rw [nodeSize_setNext_same, nodeSize_setSize_same _ _ grownBound]
      · have result : mergeForward memory iter node last = setNext memory node head.addr := by
          simp only [mergeForward, next, nodeGet, nodeEnd, if_neg touches]
        have writes := setNext_writes memory node head.addr
        have headAddrBound : head.addr < 2 ^ 32 := by
          simp only [Interval.stop] at headAfter
          omega
        rw [result]
        refine ⟨size, head :: rest, ?_, ⟨?_, ?_, ?_⟩, ?_, writes⟩
        · simp only [Intervals.absorb, Interval.stop]
          exact if_neg touches
        · exact nodeNext_setNext_same memory node headAddrBound
        · exact (nodeSize_setNext_apart memory _ headApart).trans chain.2.1
        · exact chain.2.2.frame writes headApart.not_header fun block member =>
            (restApart block member).not_header
        · rw [nodeSize_setNext_same, nodeHeader]

end Merge

/-- Everything an insertion may store to. -/
def InsertFootprint (root : Nat) (free : List Interval) (block : Interval)
    (address : Nat) : Prop :=
  Header root address ∨ Header block.addr address ∨
    ∃ gap ∈ free, Header gap.addr address

namespace InsertReady

variable {memory : ByteMemory} {region root last : Nat} {free : List Interval}
  {block : Interval}

theorem gap_size_lt (ready : InsertReady memory region root last free block)
    {gap : Interval} (member : gap ∈ free) : gap.size < 2 ^ 28 := by
  have bound := Intervals.size_le_total member
  have sizes := ready.sizes
  omega

theorem gap_apart_block (ready : InsertReady memory region root last free block)
    {gap : Interval} (member : gap ∈ free) : NodesApart gap.addr block.addr := by
  have disjoint := ready.disjoint gap member
  have gapRoom := ready.room gap (List.mem_cons_of_mem _ member)
  have blockRoom := ready.room block List.mem_cons_self
  simp only [Interval.Disjoint, Interval.stop, NodesApart] at *
  omega

/-- The root and the free blocks have separate headers. -/
theorem nodes_apart (ready : InsertReady memory region root last free block) :
    (root :: free.map Interval.addr).Pairwise NodesApart := by
  refine List.pairwise_cons.mpr ⟨?_, ?_⟩
  · intro addr member
    rcases List.mem_map.mp member with ⟨gap, gapMember, rfl⟩
    exact .inl (ready.room gap (List.mem_cons_of_mem _ gapMember)).1
  · apply List.pairwise_map.mpr
    apply ready.separated.gaps.imp_of_mem
    intro left right leftMember _ gap
    have large := (ready.room left (List.mem_cons_of_mem _ leftMember)).2.1
    simp only [Interval.stop] at gap
    exact .inl (by omega)

end InsertReady

/-- Blocks from the inserted one on: `release` starts with `absorb`. -/
theorem release_eq_absorb {block : Interval} {right : List Interval}
    (after : ∀ gap ∈ right, block.addr ≤ gap.addr) :
    Intervals.release block right = Intervals.absorb block right := by
  cases right with
  | nil => rfl
  | cons head rest =>
      simp only [Intervals.release]
      exact if_neg (Nat.not_lt_of_le (after head List.mem_cons_self))

/-- A free list cut where the block belongs: the blocks before and after it. -/
structure InsertSplit (free left right : List Interval) (block : Interval) (last : Nat) :
    Prop where
  equal : free = left ++ right
  before : ∀ gap ∈ left, gap.stop ≤ block.addr
  after : ∀ gap ∈ right, block.stop ≤ gap.addr ∧ gap.stop ≤ last

theorem InsertReady.split {memory : ByteMemory} {region root last : Nat}
    {free : List Interval} {block : Interval}
    (ready : InsertReady memory region root last free block) :
    ∃ left right, InsertSplit free left right block last := by
  rcases ready.separated.split_at block.addr with ⟨left, right, equal, before, notBefore⟩
  refine ⟨left, right, equal, ?_, ?_⟩
  · intro gap member
    have gapFree : gap ∈ free := by simp [equal, member]
    have disjoint := ready.disjoint gap gapFree
    have order := before gap member
    simp only [Interval.Disjoint, Interval.stop] at *
    omega
  · intro gap member
    have gapFree : gap ∈ free := by simp [equal, member]
    have disjoint := ready.disjoint gap gapFree
    have room := ready.room gap (List.mem_cons_of_mem _ gapFree)
    have order := notBefore gap member
    simp only [Interval.Disjoint, Interval.stop] at *
    omega

section Insert

variable {memory : ByteMemory} {region root last : Nat} {free left right : List Interval}
  {block : Interval}

theorem InsertReady.seeks (ready : InsertReady memory region root last free block)
    (split : InsertSplit free left right block last) :
    seekBefore memory block.addr loopRounds root = some (endNode root left) := by
  have chain := ready.chain
  rw [split.equal] at chain
  have room := ready.room block List.mem_cons_self
  apply seekBefore_eq left root loopRounds chain
  · intro gap member
    have positive := ready.separated.positive gap (by simp [split.equal, member])
    have stops := split.before gap member
    simp only [Interval.stop] at stops
    omega
  · cases right with
    | nil =>
        simp only [firstNode, Interval.stop] at *
        omega
    | cons head rest =>
        have later := split.after head List.mem_cons_self
        simp only [firstNode, Interval.stop] at *
        omega
  · have short := Intervals.length_le_total ready.separated.positive
    have sizes := ready.sizes
    rw [split.equal, List.length_append, ← split.equal] at short
    simp only [loopRounds]
    omega

theorem InsertReady.blockGet (ready : InsertReady memory region root last free block) :
    mmGetSize (nodeSize memory block.addr) = block.size := by
  rw [ready.blockSize]
  exact mmGetSize_tagged region (by have sizes := ready.sizes; omega)

theorem InsertSplit.mem_left (split : InsertSplit free left right block last) {gap : Interval}
    (member : gap ∈ left) : gap ∈ free := by
  rw [split.equal]
  exact List.mem_append_left _ member

/-- The node in front of the block is the root or a free block that ends before it. -/
theorem InsertReady.endNode_before (ready : InsertReady memory region root last free block)
    (split : InsertSplit free left right block last) : endNode root left + 8 ≤ block.addr := by
  rcases endNode_mem root left with equal | ⟨gap, member, equal⟩
  · rw [equal]
    exact (ready.room block List.mem_cons_self).1
  · have large := (ready.room gap (List.mem_cons_of_mem _ (split.mem_left member))).2.1
    have stops := split.before gap member
    simp only [Interval.stop] at stops
    omega

theorem InsertReady.mergeBackward_alone
    (ready : InsertReady memory region root last free block)
    (split : InsertSplit free left right block last)
    (alone : ∀ gap ∈ left, gap.stop ≠ block.addr) :
    mergeBackward memory (endNode root left) block.addr = (memory, block.addr) := by
  have blockRoom := ready.room block List.mem_cons_self
  have lastBound := ready.lastBound
  simp only [mergeBackward]
  apply if_neg
  rcases endNode_mem root left with equal | ⟨gap, member, equal⟩
  · rw [equal, ready.rootSize]
    simp only [mmGetSize_eq, u32, Interval.stop] at *
    omega
  · have header : nodeSize memory gap.addr = tagged region gap.size := by
      rcases List.append_of_mem (split.mem_left member) with ⟨front, back, cut⟩
      exact ((chain_append_cons gap back root front).mp (cut ▸ ready.chain)).2.1
    have stops := split.before gap member
    have alone := alone gap member
    rw [equal, header, mmGetSize_tagged region (ready.gap_size_lt (split.mem_left member))]
    simp only [u32, Interval.stop] at *
    omega

/-- The free blocks with the block among them, as the forward merge leaves them. -/
theorem InsertReady.release_alone (ready : InsertReady memory region root last free block)
    (split : InsertSplit free left right block last)
    (alone : ∀ gap ∈ left, gap.stop ≠ block.addr) :
    Intervals.release block free = left ++ Intervals.absorb block right := by
  rw [split.equal, Intervals.release_append_of_lt, release_eq_absorb]
  · intro gap member
    have later := split.after gap member
    simp only [Interval.stop] at later
    omega
  · intro gap member
    have stops := split.before gap member
    have positive := ready.separated.positive gap (split.mem_left member)
    exact ⟨by simp only [Interval.stop] at stops; omega, alone gap member⟩

/-- No free block ends where the block starts: it gets a node of its own. -/
theorem InsertReady.insert_alone (ready : InsertReady memory region root last free block)
    (split : InsertSplit free left right block last)
    (alone : ∀ gap ∈ left, gap.stop ≠ block.addr) :
    ∃ after, (mmListInsert block.addr root last).run memory = .ok () after ∧
      Chain after region root (Intervals.release block free) last ∧
      nodeSize after root = 0 ∧
      WritesOnly (InsertFootprint root free block) memory after := by
  let iter := endNode root left
  have blockRoom := ready.room block List.mem_cons_self
  have lastBound := ready.lastBound
  have sizes := ready.sizes
  have chain := ready.chain
  rw [split.equal] at chain
  have separated := ready.separated
  rw [split.equal] at separated
  rw [split.equal, Intervals.total_append] at sizes
  have iterCase : iter = root ∨ ∃ gap ∈ left, iter = gap.addr := endNode_mem root left
  have iterBefore : iter + 8 ≤ block.addr := ready.endNode_before split
  have iterApart : NodesApart block.addr iter := .inr iterBefore
  rcases mergeForward_spec (chain_append_right right root left chain) ready.blockSize
      separated.of_append.2 (.inr iterApart) blockRoom.2.1 blockRoom.2.2 split.after lastBound
      ready.regionBound (by omega) with
    ⟨newSize, newRight, absorbed, newChain, newHeader, forwardWrites⟩
  let forward := mergeForward memory iter block.addr last
  refine ⟨setNext forward iter block.addr, ?_, ?_, ?_, ?_⟩
  · have notIter : block.addr ≠ iter := by omega
    have inRange : ¬ (block.addr < root ∨ last < block.addr) := by
      simp only [Interval.stop] at blockRoom
      omega
    simp only [mmListInsert, EStateM.run_bind, EStateM.run_get, if_neg inRange,
      ready.seeks split]
    rw [ready.mergeBackward_alone split alone, show endNode root left = iter from rfl]
    simp only [if_pos notIter]
    rfl
  · have nodes := ready.nodes_apart
    rw [split.equal, List.map_append] at nodes
    have leftNodes : (root :: left.map Interval.addr).Pairwise NodesApart :=
      nodes.sublist (List.Sublist.cons_cons root (List.sublist_append_left _ _))
    have leftForward : Chain forward region root left (firstNode last right) := by
      apply (chain_append_left right root left chain).frame forwardWrites
      · exact (NodesApart.symm (.inl blockRoom.1)).not_header
      · exact fun gap member =>
          (ready.gap_apart_block (split.mem_left member)).symm.not_header
    have blockBound : block.addr < 2 ^ 32 := by
      simp only [Interval.stop] at blockRoom
      omega
    have front : Chain (setNext forward iter block.addr) region root left block.addr :=
      leftForward.redirect blockBound leftNodes
    have newApart : ∀ gap ∈ newRight, NodesApart iter gap.addr := by
      intro gap member
      have origin : gap ∈ Intervals.absorb block right := by
        rw [show Intervals.absorb block right = _ from absorbed]
        exact List.mem_cons_of_mem _ member
      rcases Intervals.addr_of_mem_absorb origin with equal | ⟨old, oldMember, equal⟩
      · exact .inl (by omega)
      · have later := split.after old oldMember
        simp only [Interval.stop] at later
        exact .inl (by omega)
    have back : Chain (setNext forward iter block.addr) region block.addr newRight last :=
      newChain.frame (setNext_writes forward iter block.addr) iterApart.symm.not_header
        fun gap member => (newApart gap member).not_header
    rw [ready.release_alone split alone, show Intervals.absorb block right = _ from absorbed]
    refine (chain_append_cons _ newRight root left).mpr ⟨front, ?_, back⟩
    exact (nodeSize_setNext_apart forward _ iterApart.symm).trans newHeader
  · have forwardRoot : nodeSize forward root = 0 :=
      (nodeSize_of_writes forwardWrites (NodesApart.symm (.inl blockRoom.1)).not_header).trans
        ready.rootSize
    rcases iterCase with equal | ⟨gap, member, equal⟩
    · rw [equal, nodeSize_setNext_same]
      exact forwardRoot
    · have gapRoom := ready.room gap (List.mem_cons_of_mem _ (split.mem_left member))
      rw [equal, nodeSize_setNext_apart _ _ (.inr gapRoom.1)]
      exact forwardRoot
  · apply (forwardWrites.mono fun _ inside => .inr (.inl inside)).trans
    apply (setNext_writes forward iter block.addr).mono
    intro address inside
    rcases iterCase with equal | ⟨gap, member, equal⟩
    · exact .inl (equal ▸ inside)
    · exact .inr (.inr ⟨gap, split.mem_left member, equal ▸ inside⟩)

/-- The free block `gap` ends where the block starts: the block joins it, and its own
header stays as it is. -/
theorem InsertReady.insert_merged {front : List Interval} {gap : Interval}
    (ready : InsertReady memory region root last free block)
    (split : InsertSplit free (front ++ [gap]) right block last)
    (touches : gap.stop = block.addr) :
    ∃ after, (mmListInsert block.addr root last).run memory = .ok () after ∧
      Chain after region root (Intervals.release block free) last ∧
      nodeSize after root = 0 ∧
      WritesOnly (Header gap.addr) memory after := by
  have equal : free = front ++ gap :: right := by
    rw [split.equal, List.append_assoc, List.singleton_append]
  have gapFree : gap ∈ free := by simp [equal]
  have chain := ready.chain
  have separated := ready.separated
  have sizes := ready.sizes
  rw [equal] at chain separated
  rw [equal, Intervals.total_append, Intervals.total_cons] at sizes
  have blockRoom := ready.room block List.mem_cons_self
  have gapRoom := ready.room gap (List.mem_cons_of_mem _ gapFree)
  have gaps := List.pairwise_append.mp separated.gaps
  rcases (chain_append_cons gap right root front).mp chain with ⟨frontChain, gapHeader, gapChain⟩
  have gapGet : mmGetSize (nodeSize memory gap.addr) = gap.size := by
    rw [gapHeader, mmGetSize_tagged region (by omega)]
  let sized := setSize memory gap.addr (nodeSize memory gap.addr + block.size)
  have backward : mergeBackward memory gap.addr block.addr = (sized, gap.addr) := by
    have meets : u32 (gap.addr + gap.size) = block.addr := by
      have lastBound := ready.lastBound
      simp only [Interval.stop] at *
      rw [u32_of_lt (by omega), touches]
    simp only [mergeBackward, gapGet, ready.blockGet, if_pos meets]
    rfl
  have sizedWrites : WritesOnly (Header gap.addr) memory sized := setSize_writes memory _ _
  have sizedHeader : nodeSize sized gap.addr = tagged region (gap.size + block.size) := by
    have grown : nodeSize memory gap.addr + block.size = tagged region (gap.size + block.size) := by
      rw [gapHeader, tagged, tagged]
      omega
    simp only [sized, grown]
    exact nodeSize_setSize_same _ _ (tagged_lt ready.regionBound (by omega))
  have rightApart : ∀ other ∈ right, NodesApart gap.addr other.addr := by
    intro other member
    have later := (List.pairwise_cons.mp gaps.2.1).1 other member
    simp only [Interval.stop] at later
    exact .inl (by omega)
  have sizedChain : Chain sized region gap.addr right last :=
    gapChain.congr (nodeNext_setSize_same memory _ _) fun other member =>
      ⟨nodeNext_setSize_apart memory _ (rightApart other member),
        nodeSize_setSize_apart memory _ (rightApart other member)⟩
  have after : ∀ other ∈ right,
      gap.addr + (gap.size + block.size) ≤ other.addr ∧ other.stop ≤ last := by
    intro other member
    have later := split.after other member
    simp only [Interval.stop] at *
    omega
  rcases mergeForward_spec sizedChain sizedHeader separated.of_append.2.tail (.inl rfl)
      (by omega) (by simp only [Interval.stop] at *; omega) after ready.lastBound
      ready.regionBound (by omega) with
    ⟨newSize, newRight, absorbed, newChain, newHeader, forwardWrites⟩
  have writes := sizedWrites.trans forwardWrites
  refine ⟨mergeForward sized gap.addr gap.addr last, ?_, ?_, ?_, ?_⟩
  · have inRange : ¬ (block.addr < root ∨ last < block.addr) := by
      simp only [Interval.stop] at blockRoom
      omega
    have seeks := ready.seeks split
    rw [endNode_append_cons, endNode] at seeks
    simp only [mmListInsert, EStateM.run_bind, EStateM.run_get, if_neg inRange, seeks, backward,
      ne_eq, not_true_eq_false, if_false]
    rfl
  · have released : Intervals.release block free = front ++ ⟨gap.addr, newSize⟩ :: newRight := by
      rw [equal, Intervals.release_append_of_lt, ← absorbed]
      · have starts : gap.addr < block.addr := by
          simp only [Interval.stop] at touches
          omega
        simp only [Intervals.release]
        rw [if_pos starts, if_pos touches]
      · intro other member
        have earlier := gaps.2.2 other member gap List.mem_cons_self
        simp only [Interval.stop] at *
        omega
    rw [released]
    refine (chain_append_cons _ newRight root front).mpr ⟨?_, newHeader, newChain⟩
    apply frontChain.frame writes
    · exact (NodesApart.symm (.inl gapRoom.1)).not_header
    · intro other member
      have large := (ready.room other (List.mem_cons_of_mem _ (by simp [equal, member]))).2.1
      have earlier := gaps.2.2 other member gap List.mem_cons_self
      simp only [Interval.stop] at earlier
      exact NodesApart.not_header (.inr (by omega))
  · exact (nodeSize_of_writes writes (NodesApart.symm (.inl gapRoom.1)).not_header).trans
      ready.rootSize
  · exact writes

end Insert

/-- A block that ends where the inserted one starts is the last one before it. -/
theorem InsertReady.split_touching {memory : ByteMemory} {region root last : Nat}
    {free left right : List Interval} {block gap : Interval}
    (ready : InsertReady memory region root last free block)
    (split : InsertSplit free left right block last) (member : gap ∈ left)
    (touches : gap.stop = block.addr) : ∃ front, left = front ++ [gap] := by
  rcases List.append_of_mem member with ⟨front, tail, cut⟩
  -- a block after `gap` would start before the inserted block and after its end
  have tailEmpty : tail = [] := by
    apply List.eq_nil_iff_forall_not_mem.mpr
    intro other otherMember
    have separated := ready.separated
    rw [split.equal, cut, List.append_assoc] at separated
    have order := (List.pairwise_cons.mp (List.pairwise_append.mp separated.gaps).2.1).1 other
      (List.mem_append_left _ otherMember)
    have stops := split.before other (by simp [cut, otherMember])
    simp only [Interval.stop] at *
    omega
  exact ⟨front, by rw [cut, tailEmpty]⟩

/-- `mm_list_insert` returns, and turns the chain of `free` into the chain of
`Intervals.release block free`. -/
theorem mmListInsert_spec {memory : ByteMemory} {region root last : Nat}
    {free : List Interval} {block : Interval}
    (ready : InsertReady memory region root last free block) :
    ∃ after, (mmListInsert block.addr root last).run memory = .ok () after ∧
      Chain after region root (Intervals.release block free) last ∧
      nodeSize after root = 0 ∧
      WritesOnly (InsertFootprint root free block) memory after := by
  rcases ready.split with ⟨left, right, split⟩
  by_cases touching : ∃ gap ∈ left, gap.stop = block.addr
  · rcases touching with ⟨gap, member, touches⟩
    rcases ready.split_touching split member touches with ⟨front, cut⟩
    subst cut
    have gapFree : gap ∈ free := by simp [split.equal]
    rcases ready.insert_merged split touches with ⟨after, returns, chain, rootSize, writes⟩
    exact ⟨after, returns, chain, rootSize,
      writes.mono fun _ inside => .inr (.inr ⟨gap, gapFree, inside⟩)⟩
  · exact ready.insert_alone split fun gap member equal => touching ⟨gap, member, equal⟩

end Vanilla.Mm
