import Vanilla.Foundation.ByteMemory
import Vanilla.Foundation.Exec
import Vanilla.Foundation.Word

namespace Vanilla.Kernel

/-! The relocation of an application image by `dynamic_linker`. -/

open ByteMemory (WritesOnly)

/-! ## dynamic_linker.c -/

/-- The loop over one table. The pointer has come back to where it started after `2 ^ 30`
words, so a loop that goes on for more rounds than there are addresses never ends. -/
def linkTable (binary stop : Nat) : Nat → Nat → Exec ByteMemory Unit
  | 0, _ => Exec.fault .diverges
  | rounds + 1, start =>
      if start = stop then pure ()
      else do
        modify fun memory => memory.store32 start (memory.load32 start + binary)
        linkTable binary stop rounds (u32 (start + 4))

def dynamicLinker (binary : Nat) : Exec ByteMemory Unit := do
  let memory ← get
  let gotStart := u32 (binary + memory.load32 (binary + 12))
  let gotEnd := u32 (binary + memory.load32 (binary + 16))
  linkTable binary gotEnd loopRounds gotStart
  let memory ← get
  let pltStart := u32 (binary + memory.load32 (binary + 20))
  let pltEnd := u32 (binary + memory.load32 (binary + 24))
  linkTable binary pltEnd loopRounds pltStart

/-! ## Tables of words -/

/-- Two offsets of the image's header. -/
structure Table where
  start : Nat
  stop : Nat

namespace Table

def got (image : ByteMemory) (binary : Nat) : Table where
  start := image.load32 (binary + 12)
  stop := image.load32 (binary + 16)

def plt (image : ByteMemory) (binary : Nat) : Table where
  start := image.load32 (binary + 20)
  stop := image.load32 (binary + 24)

/-- A byte of the table. -/
def Holds (table : Table) (offset : Nat) : Prop :=
  table.start ≤ offset ∧ offset < table.stop

/-- The first byte of a whole word of the table. -/
def Word (table : Table) (offset : Nat) : Prop :=
  ∃ index, offset = table.start + 4 * index ∧ offset + 4 ≤ table.stop

/-- Whole words inside an image of this size. -/
structure Proper (size : Nat) (table : Table) : Prop where
  ordered : table.start ≤ table.stop
  whole : (table.stop - table.start) % 4 = 0
  inside : table.stop ≤ size

end Table

/-- What relocating an image at `binary` is meant to do: every word of both tables has
grown by the load address, and no other byte was stored to. -/
structure Linked (binary size : Nat) (before after : ByteMemory) : Prop where
  words : ∀ offset, (Table.got before binary).Word offset ∨ (Table.plt before binary).Word offset →
    after.load32 (binary + offset) = u32 (before.load32 (binary + offset) + binary)
  others : WritesOnly (fun address => ∃ offset,
    ((Table.got before binary).Word offset ∨ (Table.plt before binary).Word offset) ∧
      binary + offset ≤ address ∧ address < binary + offset + 4) before after
  inside : WritesOnly (fun address => binary ≤ address ∧ address < binary + size) before after

/-- The linker comes to an end and has linked the image. -/
def Links (binary size : Nat) (image : ByteMemory) : Prop :=
  ∃ after, (dynamicLinker binary).run image = .ok () after ∧ Linked binary size image after

/-! ## One table -/

theorem run_linkTable_succ {binary stop rounds start : Nat} {memory : ByteMemory}
    (apart : start ≠ stop) :
    (linkTable binary stop (rounds + 1) start).run memory =
      (linkTable binary stop rounds (u32 (start + 4))).run
        (memory.store32 start (memory.load32 start + binary)) := by
  rw [linkTable, if_neg apart]
  rfl

theorem linkTable_spec (binary : Nat) {count rounds start : Nat} (memory : ByteMemory)
    (enough : count < rounds) (short : 4 * count < 2 ^ 32)
    (fits : start + 4 * count ≤ 2 ^ 32) :
    ∃ after, (linkTable binary (u32 (start + 4 * count)) rounds (u32 start)).run memory =
        .ok () after ∧
      (∀ index < count, after.load32 (start + 4 * index) =
        u32 (memory.load32 (start + 4 * index) + binary)) ∧
      WritesOnly (fun address => start ≤ address ∧ address < start + 4 * count)
        memory after := by
  induction count generalizing rounds start memory with
  | zero =>
      cases rounds with
      | zero => cases enough
      | succ rounds =>
          refine ⟨memory, ?_, ?_, WritesOnly.refl _ memory⟩
          · rw [Nat.mul_zero, Nat.add_zero, linkTable, if_pos rfl]
            rfl
          · intro index bound
            cases bound
  | succ count induction =>
      cases rounds with
      | zero => cases enough
      | succ rounds =>
          have address : u32 start = start := u32_of_lt (by omega)
          have apart : u32 start ≠ u32 (start + 4 * (count + 1)) := by
            simp only [u32]
            omega
          have wrapped : u32 (u32 start + 4) = u32 (start + 4) := by rw [address]
          have same : start + 4 * (count + 1) = start + 4 + 4 * count := by omega
          let middle := memory.store32 start (memory.load32 start + binary)
          rcases induction middle (Nat.lt_of_succ_lt_succ enough) (by omega)
            (show start + 4 + 4 * count ≤ 2 ^ 32 by omega) with ⟨after, returns, words, others⟩
          refine ⟨after, ?_, ?_, ?_⟩
          · rw [run_linkTable_succ apart, wrapped, address, same]
            exact returns
          · intro index bound
            cases index with
            | zero =>
                have kept : after.load32 start = middle.load32 start :=
                  others.load32_eq fun other lower upper inside => by omega
                rw [Nat.mul_zero, Nat.add_zero, kept]
                exact ByteMemory.load32_store32_same memory start _
            | succ index =>
                have word := words index (Nat.lt_of_succ_lt_succ bound)
                have earlier : middle.load32 (start + 4 + 4 * index) =
                    memory.load32 (start + 4 + 4 * index) :=
                  ByteMemory.load32_store32_of_disjoint memory _ (.inr (by omega))
                rw [earlier] at word
                rw [show start + 4 * (index + 1) = start + 4 + 4 * index by omega]
                exact word
          · have first : WritesOnly
                (fun address => start ≤ address ∧ address < start + 4 * (count + 1))
                memory middle :=
              WritesOnly.store32 memory _ fun other lower upper => ⟨lower, by omega⟩
            exact first.trans (others.mono fun address inside => ⟨by omega, by omega⟩)

/-- Pointers that are not a whole number of words apart never meet. -/
theorem linkTable_diverges (binary : Nat) {stop rounds start : Nat} (memory : ByteMemory)
    (misaligned : start % 4 ≠ stop % 4) :
    ∃ after, (linkTable binary stop rounds start).run memory = .error .diverges after := by
  induction rounds generalizing start memory with
  | zero => exact ⟨memory, rfl⟩
  | succ rounds induction =>
      have apart : start ≠ stop := fun same => misaligned (same ▸ rfl)
      rw [run_linkTable_succ apart]
      apply induction
      simp only [u32]
      omega

/-! ## Both tables -/

theorem loopRounds_enough {count : Nat} (short : 4 * count < 2 ^ 32) : count < loopRounds := by
  rw [loopRounds]
  omega

/-- Linking a proper table of an image at `binary`. -/
theorem linkTable_proper {binary size : Nat} {table : Table} (memory : ByteMemory)
    (proper : table.Proper size) (fits : binary + size ≤ 2 ^ 32) (start : table.start < 2 ^ 32)
    (stop : table.stop < 2 ^ 32) :
    ∃ after, (linkTable binary (u32 (binary + table.stop)) loopRounds
        (u32 (binary + table.start))).run memory = .ok () after ∧
      (∀ offset, table.Word offset →
        after.load32 (binary + offset) = u32 (memory.load32 (binary + offset) + binary)) ∧
      WritesOnly (fun address => ∃ offset, table.Word offset ∧ binary + offset ≤ address ∧
        address < binary + offset + 4) memory after := by
  have ordered := proper.ordered
  have whole := proper.whole
  have inside := proper.inside
  let count := (table.stop - table.start) / 4
  have length : table.start + 4 * count = table.stop := by omega
  rcases linkTable_spec binary memory (loopRounds_enough (show 4 * count < 2 ^ 32 by omega))
    (by omega) (show binary + table.start + 4 * count ≤ 2 ^ 32 by omega) with
    ⟨after, returns, words, others⟩
  refine ⟨after, ?_, ?_, ?_⟩
  · rw [Nat.add_assoc, length] at returns
    exact returns
  · rintro offset ⟨index, place, bound⟩
    have word := words index (by omega)
    rw [Nat.add_assoc, ← place] at word
    exact word
  · apply others.mono
    rintro address ⟨lower, upper⟩
    -- The word that this byte is part of.
    let index := (address - (binary + table.start)) / 4
    exact ⟨table.start + 4 * index, ⟨index, rfl, by omega⟩, by omega, by omega⟩

/-- An image of this size at `binary` whose header describes tables of whole words inside
the image. No byte is in both tables, and relocating the first leaves the header's
description of the second. -/
structure Linkable (binary size : Nat) (image : ByteMemory) : Prop where
  fits : binary + size ≤ 2 ^ 32
  got : (Table.got image binary).Proper size
  plt : (Table.plt image binary).Proper size
  apart : ∀ offset, (Table.got image binary).Holds offset →
    ¬ (Table.plt image binary).Holds offset
  header : ∀ offset, (Table.got image binary).Holds offset → ¬ (20 ≤ offset ∧ offset < 28)

theorem Table.Word.inside {table : Table} {size offset : Nat} (word : table.Word offset)
    (proper : table.Proper size) : offset + 4 ≤ size := by
  rcases word with ⟨index, -, last⟩
  exact last.trans proper.inside

theorem Table.Word.holds {table : Table} {offset byte : Nat} (word : table.Word offset)
    (lower : offset ≤ byte) (upper : byte < offset + 4) : table.Holds byte := by
  rcases word with ⟨index, place, bound⟩
  exact ⟨by omega, by omega⟩

/-- Every linkable image is linked: the loops end, each word of the two tables has grown
by the load address once, and nothing else was written. -/
theorem dynamic_linker_links {binary size : Nat} {image : ByteMemory}
    (linkable : Linkable binary size image) : Links binary size image := by
  have gotStart := image.load32_lt (binary + 12)
  have gotStop := image.load32_lt (binary + 16)
  have pltStart := image.load32_lt (binary + 20)
  have pltStop := image.load32_lt (binary + 24)
  rcases linkTable_proper image linkable.got linkable.fits gotStart gotStop with
    ⟨middle, first, gotWords, gotOthers⟩
  have outside : ∀ offset, (∀ byte, offset ≤ byte → byte < offset + 4 →
      ¬ (Table.got image binary).Holds byte) →
      middle.load32 (binary + offset) = image.load32 (binary + offset) := by
    intro offset apart
    apply gotOthers.load32_eq
    rintro address lower upper ⟨word, isWord, wordLower, wordUpper⟩
    exact apart (address - binary) (by omega) (by omega)
      (isWord.holds (by omega) (by omega))
  have startKept : middle.load32 (binary + 20) = image.load32 (binary + 20) :=
    outside 20 fun byte lower upper holds => linkable.header byte holds ⟨by omega, by omega⟩
  have stopKept : middle.load32 (binary + 24) = image.load32 (binary + 24) :=
    outside 24 fun byte lower upper holds => linkable.header byte holds ⟨by omega, by omega⟩
  rcases linkTable_proper middle linkable.plt linkable.fits pltStart pltStop with
    ⟨after, second, pltWords, pltOthers⟩
  refine ⟨after, ?_, ?_, ?_, ?_⟩
  · rw [dynamicLinker, Exec.run_bind_of_ok (EStateM.run_get image)]
    change (linkTable binary (u32 (binary + (Table.got image binary).stop)) loopRounds
      (u32 (binary + (Table.got image binary).start)) >>= _).run image = _
    rw [Exec.run_bind_of_ok first, Exec.run_bind_of_ok (EStateM.run_get middle), startKept,
      stopKept]
    exact second
  · rintro offset (word | word)
    · have kept : after.load32 (binary + offset) = middle.load32 (binary + offset) := by
        apply pltOthers.load32_eq
        rintro address lower upper ⟨other, isWord, otherLower, otherUpper⟩
        exact linkable.apart (address - binary) (word.holds (by omega) (by omega))
          (isWord.holds (by omega) (by omega))
      rw [kept]
      exact gotWords offset word
    · rw [pltWords offset word, outside offset fun byte lower upper holds =>
        linkable.apart byte holds (word.holds lower upper)]
  · apply (gotOthers.mono _).trans (pltOthers.mono _)
    · rintro address ⟨offset, word, place⟩
      exact ⟨offset, .inl word, place⟩
    · rintro address ⟨offset, word, place⟩
      exact ⟨offset, .inr word, place⟩
  · apply (gotOthers.mono _).trans (pltOthers.mono _)
    · rintro address ⟨offset, word, lower, upper⟩
      have last := word.inside linkable.got
      omega
    · rintro address ⟨offset, word, lower, upper⟩
      have last := word.inside linkable.plt
      omega

/-! ## Images with small headers -/

/-- The header of an image in bank one: both tables start at 32, and end at these offsets. -/
def tableImage (gotStop pltStop : UInt8) : ByteMemory where
  byte := fun address =>
    if address = 0x70000000 + 12 then 32 else if address = 0x70000000 + 16 then gotStop
    else if address = 0x70000000 + 20 then 32 else if address = 0x70000000 + 24 then pltStop
    else 0
  written := []

theorem tableImage_got (gotStop pltStop : UInt8) :
    Table.got (tableImage gotStop pltStop) 0x70000000 = ⟨32, gotStop.toNat⟩ := by
  simp [Table.got, ByteMemory.load32, ByteMemory.load8, tableImage]

theorem tableImage_plt (gotStop pltStop : UInt8) :
    Table.plt (tableImage gotStop pltStop) 0x70000000 = ⟨32, pltStop.toNat⟩ := by
  simp [Table.plt, ByteMemory.load32, ByteMemory.load8, tableImage]

theorem dynamic_linker_links_two_words : Links 0x70000000 64 (tableImage 40 32) := by
  apply dynamic_linker_links
  refine ⟨by decide, ?_, ?_, ?_, ?_⟩
  · rw [tableImage_got]
    exact ⟨by decide, by decide, by decide⟩
  · rw [tableImage_plt]
    exact ⟨by decide, by decide, by decide⟩
  · rw [tableImage_plt]
    rintro offset - ⟨lower, upper⟩
    exact absurd lower (Nat.not_le_of_lt upper)
  · rw [tableImage_got]
    rintro offset ⟨lower, upper⟩ ⟨fieldLower, fieldUpper⟩
    exact absurd (lower.trans_lt fieldUpper) (by decide)

/-- A table that is not a whole number of words keeps the linker going for ever. -/
theorem dynamic_linker_need_not_end :
    ¬ ∀ (binary size : Nat) (image : ByteMemory), binary + size ≤ 2 ^ 32 →
      Links binary size image := by
  intro links
  rcases links 0x70000000 64 (tableImage 34 32) (by decide) with ⟨after, returns, -⟩
  rcases @linkTable_diverges 0x70000000 (u32 (0x70000000 + 34)) loopRounds
    (u32 (0x70000000 + 32)) (tableImage 34 32) (by decide) with ⟨stuck, diverges⟩
  have got := tableImage_got 34 32
  rw [dynamicLinker, Exec.run_bind_of_ok (EStateM.run_get _)] at returns
  change (linkTable 0x70000000
    (u32 (0x70000000 + (Table.got (tableImage 34 32) 0x70000000).stop)) loopRounds
    (u32 (0x70000000 + (Table.got (tableImage 34 32) 0x70000000).start)) >>= _).run _ = _
    at returns
  rw [got] at returns
  change (linkTable 0x70000000 (u32 (0x70000000 + 34)) loopRounds
    (u32 (0x70000000 + 32)) >>= _).run _ = _ at returns
  rw [Exec.run_bind_of_error diverges] at returns
  cases returns

end Vanilla.Kernel
