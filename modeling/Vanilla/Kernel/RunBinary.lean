import Vanilla.Disk.FilePosition
import Vanilla.Kernel.Memory
import Vanilla.Mm.Wrapping

namespace Vanilla.Kernel

/-! Loading an application from a file: the block is sized from a word of the file, and
filled by reads up to the end of the file. -/

open Disk Mm
open ByteMemory (WritesOnly)

/-! ## run.c -/

/-- The volume of the file and the memory. -/
structure Loader where
  fat : FatState
  mm : MmState

namespace Loader

def onFat {Value : Type} (body : Exec FatState Value) : Exec Loader Value :=
  Exec.zoom fat (fun part loader => { loader with fat := part }) body

def onMm {Value : Type} (body : Exec MmState Value) : Exec Loader Value :=
  Exec.zoom mm (fun part loader => { loader with mm := part }) body

end Loader

/-- The bytes that a read stored, from `pointer` on. -/
def storeBytes (memory : ByteMemory) (pointer : Nat) : List UInt8 → ByteMemory
  | [] => memory
  | byte :: bytes => storeBytes (memory.store8 pointer byte) (pointer + 1) bytes

/-- A `u32` whose bytes, lowest first, were stored one by one. -/
def wordOf (bytes : List UInt8) : Nat :=
  (bytes.getD 0 0).toNat + 2 ^ 8 * (bytes.getD 1 0).toNat + 2 ^ 16 * (bytes.getD 2 0).toNat +
    2 ^ 24 * (bytes.getD 3 0).toNat

def pageCount (binarySize : Nat) : Nat :=
  if binarySize &&& 512 ≠ 0 then binarySize / 512 + 1 else binarySize / 512

/-- The loop that reads the file, 512 bytes at a time. -/
def readBinary : Nat → File → Nat → Exec Loader Unit
  | 0, _, _ => Exec.fault .diverges
  | rounds + 1, file, pointer => do
      let read ← Loader.onFat (fatFileRead file 512)
      modify fun loader =>
        { loader with mm.memory := storeBytes loader.mm.memory pointer read.stored }
      if read.result = .ok then
        if read.status = 512 then readBinary rounds read.file (pointer + 512) else pure ()
      else Exec.panic "Cant read from file"

/-- `run_binary` from what `fat_file_open` gave, up to the call of `dynamic_linker_run`,
which gets the returned block. -/
def runBinary (opened : FStatus × File) : Exec Loader Nat := do
  if opened.1 = .ok then do
    let header ← Loader.onFat (fatFileRead opened.2 4)
    if header.result = .ok then
      if header.status = 4 then do
        let binary ← Loader.onMm (pmalloc (pageCount (wordOf header.stored)) .dramBank1)
        let jumped ← Loader.onFat (fatFileJump header.file 0)
        readBinary loopRounds jumped.2 binary
        pure binary
      else Exec.panic "Cant read binary size"
    else Exec.panic "Cant read"
  else Exec.panic "Cant open file"

/-! ## Stored bytes -/

section Stored

variable {memory : ByteMemory} {pointer : Nat}

theorem storeBytes_append (first second : List UInt8) :
    storeBytes memory pointer (first ++ second) =
      storeBytes (storeBytes memory pointer first) (pointer + first.length) second := by
  induction first generalizing memory pointer with
  | nil => rfl
  | cons byte bytes induction =>
      rw [List.cons_append, storeBytes, storeBytes, induction, List.length_cons,
        Nat.add_assoc, Nat.add_comm 1]

theorem storeBytes_writesOnly (bytes : List UInt8) :
    WritesOnly (fun address => pointer ≤ address ∧ address < pointer + bytes.length) memory
      (storeBytes memory pointer bytes) := by
  induction bytes generalizing memory pointer with
  | nil => exact WritesOnly.refl _ memory
  | cons byte bytes induction =>
      rw [List.length_cons, storeBytes]
      have first : WritesOnly
          (fun address => pointer ≤ address ∧ address < pointer + (bytes.length + 1)) memory
          (memory.store8 pointer byte) :=
        WritesOnly.store8 memory byte ⟨Nat.le_refl _, by omega⟩
      exact first.trans (induction.mono fun address inside => ⟨by omega, by omega⟩)

theorem load8_storeBytes (bytes : List UInt8) {index : Nat} (bound : index < bytes.length) :
    (storeBytes memory pointer bytes).load8 (pointer + index) = bytes.getD index 0 := by
  induction bytes generalizing memory pointer index with
  | nil => cases bound
  | cons byte bytes induction =>
      rw [storeBytes]
      cases index with
      | zero =>
          have kept := (@storeBytes_writesOnly (memory.store8 pointer byte) (pointer + 1)
            bytes).kept pointer (fun inside => by omega)
          exact kept.trans (ByteMemory.load8_store8_same memory pointer byte)
      | succ index =>
          rw [show pointer + (index + 1) = pointer + 1 + index by omega,
            induction (Nat.lt_of_succ_lt_succ bound)]
          rfl

/-- Every address of the bytes was stored to. -/
theorem written_storeBytes (bytes : List UInt8) :
    ∃ stores, (storeBytes memory pointer bytes).written = stores ++ memory.written ∧
      ∀ index < bytes.length, pointer + index ∈ stores := by
  induction bytes generalizing memory pointer with
  | nil =>
      refine ⟨[], rfl, ?_⟩
      intro index bound
      cases bound
  | cons byte bytes induction =>
      rcases @induction (memory.store8 pointer byte) (pointer + 1) with ⟨stores, log, members⟩
      refine ⟨stores ++ [pointer], ?_, ?_⟩
      · rw [storeBytes, log, List.append_assoc]
        rfl
      · intro index bound
        cases index with
        | zero => exact List.mem_append_right _ (List.mem_singleton.mpr rfl)
        | succ index =>
            have member := members index (Nat.lt_of_succ_lt_succ bound)
            rw [show pointer + 1 + index = pointer + (index + 1) by omega] at member
            exact List.mem_append_left _ member

/-- The bytes stay inside a block exactly when there are not more of them. -/
theorem storeBytes_inside_iff (bytes : List UInt8) (size : Nat) :
    WritesOnly (fun address => pointer ≤ address ∧ address < pointer + size) memory
        (storeBytes memory pointer bytes) ↔ bytes.length ≤ size := by
  constructor
  · intro inside
    by_contra larger
    rcases inside.logged with ⟨stores, log, bounded⟩
    rcases @written_storeBytes memory pointer bytes with ⟨others, sameLog, members⟩
    have same : stores = others := List.append_cancel_right (log.symm.trans sameLog)
    have member := members size (Nat.lt_of_not_le larger)
    have bound := (bounded _ (same ▸ member)).2
    omega
  · intro enough
    exact (storeBytes_writesOnly bytes).mono fun address inside => ⟨by omega, by omega⟩

end Stored

/-! ## The whole file -/

section Load

variable {geometry : Geometry} {sectors : Nat → Sector} {extent : Extent}

/-- The bytes that the loop stores for a file of this size: a file that ends with a full
read is asked for more, and gives one byte from behind its end. -/
def storedBytes (size : Nat) : Nat := if size % 512 = 0 then size + 1 else size

theorem run_readBinary {file : File} {loader : Loader} {pointer rounds : Nat}
    {read : ReadResult} {fat : FatState}
    (reads : (fatFileRead file 512).run loader.fat = .ok read fat) (ok : read.result = .ok) :
    (readBinary (rounds + 1) file pointer).run loader =
      (if read.status = 512 then readBinary rounds read.file (pointer + 512)
        else pure () : Exec Loader Unit).run
        ⟨fat, { loader.mm with memory := storeBytes loader.mm.memory pointer read.stored }⟩ := by
  have zoomed : (Loader.onFat (fatFileRead file 512)).run loader = .ok read ⟨fat, loader.mm⟩ :=
    Exec.run_zoom_ok reads
  rw [readBinary, Exec.run_bind_of_ok zoomed]
  change (if read.result = .ok then _ else _ : Exec Loader Unit).run _ = _
  rw [if_pos ok]

/-- From a multiple of 512 inside the file, the loop stores the rest of it, and the byte
behind it when the rest is a multiple of 512 too. -/
theorem readBinary_spec (formed : WellFormed geometry sectors extent) {rounds : Nat}
    {file : File} {loader : Loader} {offset pointer : Nat}
    (working : Working geometry sectors loader.fat)
    (placed : AtOffset geometry extent file offset) (aligned : offset % 512 = 0)
    (inside : offset < extent.size) (enough : (extent.size - offset) / 512 + 1 < rounds) :
    ∃ extra after, (readBinary rounds file pointer).run loader = .ok () after ∧
      (fileBytes geometry sectors extent offset (extent.size - offset) ++ extra).length =
        storedBytes extent.size - offset ∧
      after.mm.memory = storeBytes loader.mm.memory pointer
        (fileBytes geometry sectors extent offset (extent.size - offset) ++ extra) := by
  induction rounds generalizing file loader offset pointer with
  | zero => cases enough
  | succ rounds induction =>
      rcases fatFileRead_spec working formed placed inside 512 with
        ⟨moved, fat, reads, works, next⟩
      have length : ∀ start count, (fileBytes geometry sectors extent start count).length = count := by
        intro start count
        rw [fileBytes, List.length_map, List.length_range]
      rw [run_readBinary reads rfl]
      dsimp only
      by_cases more : extent.size - offset < 512
      · have count : readCount extent offset 512 = extent.size - offset :=
          Nat.min_eq_right (by omega)
        rw [count, if_neg (by omega)]
        refine ⟨[], _, rfl, ?_, by rw [List.append_nil]⟩
        rw [List.append_nil, length, storedBytes, if_neg (by omega)]
      · have count : readCount extent offset 512 = 512 := Nat.min_eq_left (by omega)
        rw [count] at next ⊢
        rw [if_pos rfl]
        have split : extent.size - offset = 512 + (extent.size - (offset + 512)) := by omega
        have joined : ∀ extra, storeBytes
            (storeBytes loader.mm.memory pointer (fileBytes geometry sectors extent offset 512))
            (pointer + 512)
            (fileBytes geometry sectors extent (offset + 512) (extent.size - (offset + 512)) ++
              extra) = storeBytes loader.mm.memory pointer
            (fileBytes geometry sectors extent offset (extent.size - offset) ++ extra) := by
          intro extra
          rw [split, fileBytes_append, List.append_assoc, storeBytes_append
            (fileBytes geometry sectors extent offset 512), length]
        by_cases last : extent.size = offset + 512
        · rcases next.position with ⟨index, place, bound, -⟩
          have atEnd : moved.size ≤ moved.globOffset := by
            rw [next.size, next.globOffset]
            omega
          have below : moved.globOffset + 1 < 2 ^ 32 := by
            have sizeBound := formed.sizeBound
            rw [next.globOffset]
            omega
          rcases works.fatFileRead_atEnd formed.sectorSize bound atEnd below 511 with
            ⟨stay, byte, final, again, -⟩
          cases rounds with
          | zero => omega
          | succ rounds =>
              rw [@run_readBinary _ ⟨fat, _⟩ _ _ _ _ again rfl]
              refine ⟨[byte], _, rfl, ?_, ?_⟩
              · rw [List.length_append, length, storedBytes, if_pos (by omega)]
                simp only [List.length_singleton]
                omega
              · have rest := joined [byte]
                have nothing : fileBytes geometry sectors extent (offset + 512) 0 = [] := rfl
                rw [show extent.size - (offset + 512) = 0 by omega, nothing,
                  List.nil_append] at rest
                rw [← rest]
        · rcases @induction moved ⟨fat, _⟩ (offset + 512) (pointer + 512) works next (by omega)
            (by omega) (by omega) with ⟨extra, after, returns, total, memory⟩
          refine ⟨extra, after, returns, ?_, ?_⟩
          · rw [split, fileBytes_append, List.append_assoc, List.length_append, length, total,
              storedBytes]
            split <;> omega
          · rw [← joined extra, memory]

/-! ## run_binary -/

/-- The image size that the header states. -/
def headerWord (geometry : Geometry) (sectors : Nat → Sector) (extent : Extent) : Nat :=
  wordOf (fileBytes geometry sectors extent 0 4)

/-- What `pmalloc` is asked for. -/
def blockBytes (binarySize : Nat) : Nat := u32 (pageCount binarySize * 512)

/-- The file as `fat_file_open` leaves it. An empty file has no cluster. -/
structure OpenedFile (geometry : Geometry) (extent : Extent) (file : File) : Prop where
  size : file.size = extent.size
  rwOffset : file.rwOffset = 0
  globOffset : file.globOffset = 0
  opened : 0 < extent.size → Opened geometry extent file

def Refuses (opened : FStatus × File) (loader : Loader) : Prop :=
  ∃ reason after, (runBinary opened).run loader = .error (.panic reason) after

/-- The whole file is in the block, nothing was written behind the block, and the block is
as large as the header says the image is. -/
def Loads (geometry : Geometry) (sectors : Nat → Sector) (extent : Extent)
    (opened : FStatus × File) (loader : Loader) : Prop :=
  ∃ binary allocated after,
    (pmalloc (pageCount (headerWord geometry sectors extent)) .dramBank1).run loader.mm =
      .ok binary allocated ∧
    (runBinary opened).run loader = .ok binary after ∧
    (∀ index < extent.size,
      after.mm.memory.load8 (binary + index) = fileByte geometry sectors extent index) ∧
    WritesOnly (fun address => binary ≤ address ∧
      address < binary + blockBytes (headerWord geometry sectors extent))
      allocated.memory after.mm.memory ∧
    headerWord geometry sectors extent ≤ blockBytes (headerWord geometry sectors extent)

/-- Bank one has no block for this image. -/
def NoPages (mm : MmState) (binarySize : Nat) : Prop :=
  (pmalloc (pageCount binarySize) .dramBank1).run mm = .error (.panic "palloc failed") mm

/-- The rounding up happens where bit 9 of the size is set, whatever the remainder. -/
structure HoldsFile (binarySize size : Nat) : Prop where
  rounded : binarySize % 512 = 0 ∨ binarySize.testBit 9 = true
  representable : binarySize < 2 ^ 32 - 512
  enough : storedBytes size ≤
    binarySize / 512 * 512 + if binarySize.testBit 9 = true then 512 else 0

theorem wordOf_lt (bytes : List UInt8) : wordOf bytes < 2 ^ 32 := by
  have first := (bytes.getD 0 0).toNat_lt
  have second := (bytes.getD 1 0).toNat_lt
  have third := (bytes.getD 2 0).toNat_lt
  have fourth := (bytes.getD 3 0).toNat_lt
  simp only [wordOf]
  omega

theorem pageCount_bytes (binarySize : Nat) : pageCount binarySize * 512 =
    binarySize / 512 * 512 + if binarySize.testBit 9 = true then 512 else 0 := by
  have bit : binarySize &&& 512 ≠ 0 ↔ binarySize.testBit 9 = true :=
    and_bit_ne_zero binarySize 9
  rw [pageCount]
  by_cases set : binarySize.testBit 9 = true
  · rw [if_pos (bit.mpr set), if_pos set, Nat.succ_mul]
  · rw [if_neg (set ∘ bit.mp), if_neg set, Nat.add_zero]

/-- The topmost sizes have bit 9 set. -/
theorem testBit_nine_of_large {binarySize : Nat} (word : binarySize < 2 ^ 32)
    (large : 2 ^ 32 - 512 ≤ binarySize) : binarySize.testBit 9 = true := by
  rw [Nat.testBit_eq_decide_div_mod_eq, decide_eq_true_eq]
  omega

theorem holdsFile_iff {binarySize size : Nat} (word : binarySize < 2 ^ 32) :
    HoldsFile binarySize size ↔
      binarySize ≤ blockBytes binarySize ∧ storedBytes size ≤ blockBytes binarySize := by
  have bytes := pageCount_bytes binarySize
  constructor
  · intro fits
    have representable := fits.representable
    have exact_ : blockBytes binarySize = pageCount binarySize * 512 := by
      apply u32_of_lt
      rw [bytes]
      split <;> omega
    rw [exact_, bytes]
    refine ⟨?_, fits.enough⟩
    rcases fits.rounded with whole | set
    · omega
    · rw [if_pos set]
      omega
  · rintro ⟨room, enough⟩
    have representable : binarySize < 2 ^ 32 - 512 := by
      by_contra large
      have set := testBit_nine_of_large word (Nat.le_of_not_lt large)
      rw [if_pos set] at bytes
      rw [blockBytes, u32] at room
      omega
    have exact_ : blockBytes binarySize = pageCount binarySize * 512 := by
      apply u32_of_lt
      rw [bytes]
      split <;> omega
    rw [exact_, bytes] at room enough
    refine ⟨?_, representable, enough⟩
    by_cases set : binarySize.testBit 9 = true
    · exact .inr set
    · rw [if_neg set] at room
      exact .inl (by omega)

section Cases

variable {opened : FStatus × File} {loader : Loader} {file : File}

theorem refuses_unopened (closed : opened.1 ≠ .ok) : Refuses opened loader :=
  ⟨"Cant open file", loader, by rw [runBinary, if_neg closed, Exec.run_panic]⟩

/-- A header of fewer than four bytes. -/
theorem refuses_short {moved : File} {stored : List UInt8} {status : Nat} {fat : FatState}
    (read : (fatFileRead file 4).run loader.fat = .ok ⟨.ok, moved, stored, status⟩ fat)
    (short : status ≠ 4) : Refuses (.ok, file) loader := by
  refine ⟨"Cant read binary size", ⟨fat, loader.mm⟩, ?_⟩
  have zoomed : (Loader.onFat (fatFileRead file 4)).run loader = .ok _ ⟨fat, loader.mm⟩ :=
    Exec.run_zoom_ok read
  rw [runBinary, if_pos rfl, Exec.run_bind_of_ok zoomed, if_pos rfl, if_neg short]
  exact Exec.run_panic _ _

theorem OpenedFile.refuses (working : Working geometry sectors loader.fat)
    (formed : WellFormed geometry sectors extent) (given : OpenedFile geometry extent file)
    (short : extent.size < 4) : Refuses (.ok, file) loader := by
  by_cases empty : extent.size = 0
  · have atEnd : file.size ≤ file.globOffset := by
      rw [given.size, empty]
      exact Nat.zero_le _
    rcases working.fatFileRead_atEnd formed.sectorSize (by rw [given.rwOffset]; decide) atEnd
      (by rw [given.globOffset]; decide) 3 with ⟨moved, byte, after, read, -⟩
    exact refuses_short read (by decide)
  · have positive := Nat.pos_of_ne_zero empty
    rcases fatFileRead_spec working formed ((given.opened positive).atOffset formed positive)
      positive 4 with ⟨moved, after, read, -, -⟩
    apply refuses_short read
    rw [readCount]
    omega

/-- A file with a header: the loader takes the pages and reads the file into them. -/
theorem OpenedFile.run (working : Working geometry sectors loader.fat)
    (formed : WellFormed geometry sectors extent) (given : OpenedFile geometry extent file)
    (long : 4 ≤ extent.size) :
    (NoPages loader.mm (headerWord geometry sectors extent) → Refuses (.ok, file) loader) ∧
    ∀ binary allocated,
      (pmalloc (pageCount (headerWord geometry sectors extent)) .dramBank1).run loader.mm =
        .ok binary allocated →
      ∃ bytes after, (runBinary (.ok, file)).run loader = .ok binary after ∧
        bytes.length = storedBytes extent.size ∧
        (∀ index < extent.size,
          bytes.getD index 0 = fileByte geometry sectors extent index) ∧
        after.mm.memory = storeBytes allocated.memory binary bytes := by
  have positive : 0 < extent.size := by omega
  rcases fatFileRead_spec working formed ((given.opened positive).atOffset formed positive)
    positive 4 with ⟨moved, fat, read, works, placed⟩
  have count : readCount extent 0 4 = 4 := Nat.min_eq_left (by omega)
  rw [count] at read
  have zoomed : (Loader.onFat (fatFileRead file 4)).run loader = .ok _ ⟨fat, loader.mm⟩ :=
    Exec.run_zoom_ok read
  rw [runBinary, if_pos rfl]
  constructor
  · intro missing
    refine ⟨"palloc failed", ⟨fat, loader.mm⟩, ?_⟩
    have panics : (Loader.onMm (pmalloc (pageCount (headerWord geometry sectors extent))
        .dramBank1)).run ⟨fat, loader.mm⟩ = .error (.panic "palloc failed") ⟨fat, loader.mm⟩ :=
      Exec.run_zoom_error missing
    rw [runBinary, if_pos rfl, Exec.run_bind_of_ok zoomed, if_pos rfl, if_pos rfl]
    exact Exec.run_bind_of_error panics
  · intro binary allocated allocates
    have pages : (Loader.onMm (pmalloc (pageCount (headerWord geometry sectors extent))
        .dramBank1)).run ⟨fat, loader.mm⟩ = .ok binary ⟨fat, allocated⟩ :=
      Exec.run_zoom_ok allocates
    rcases fatFileJump_spec works formed placed.startSect placed.size positive with
      ⟨start, jumped, jump, still, first⟩
    have jumps : (Loader.onFat (fatFileJump moved 0)).run ⟨fat, allocated⟩ =
        .ok _ ⟨jumped, allocated⟩ := Exec.run_zoom_ok jump
    have enough : (extent.size - 0) / 512 + 1 < loopRounds := by
      have sizeBound := formed.sizeBound
      rw [loopRounds]
      omega
    rcases @readBinary_spec _ _ _ formed loopRounds start ⟨jumped, allocated⟩ 0 binary still first
      rfl positive enough with ⟨extra, after, loads, length, memory⟩
    refine ⟨_, after, ?_, length, ?_, memory⟩
    · rw [Exec.run_bind_of_ok zoomed, if_pos rfl, if_pos rfl]
      refine (Exec.run_bind_of_ok pages).trans ?_
      refine (Exec.run_bind_of_ok jumps).trans ?_
      exact Exec.run_bind_of_ok loads
    · intro index inside
      rw [List.getD_append _ _ _ _ (by rw [fileBytes, List.length_map, List.length_range]; omega),
        fileBytes, List.getD_eq_getElem _ _ (by simpa using inside), List.getElem_map,
        List.getElem_range, Nat.zero_add]

end Cases

/-- On a working device, for a file of any length with any header and whatever the allocator
holds: the loader refuses the file or reads it into its block exactly when it cannot open it,
the file is shorter than the header word, there are no pages, or the pages hold the file. -/
theorem run_binary_stays_in_block_iff {linker : Linker} {pointers : List Nat} {loader : Loader}
    {opened : FStatus × File} (working : Working geometry sectors loader.fat)
    (formed : WellFormed geometry sectors extent)
    (accounts : Accounts linker loader.mm pointers)
    (given : opened.1 = .ok → OpenedFile geometry extent opened.2) :
    Refuses opened loader ∨ Loads geometry sectors extent opened loader ↔
      opened.1 ≠ .ok ∨ extent.size < 4 ∨
        NoPages loader.mm (headerWord geometry sectors extent) ∨
        HoldsFile (headerWord geometry sectors extent) extent.size := by
  have fits := @holdsFile_iff (headerWord geometry sectors extent) extent.size
    (wordOf_lt (fileBytes geometry sectors extent 0 4))
  by_cases closed : opened.1 ≠ .ok
  · exact iff_of_true (.inl (refuses_unopened closed)) (.inl closed)
  · rcases opened with ⟨status, file⟩
    cases not_not.mp closed
    by_cases short : extent.size < 4
    · exact iff_of_true (.inl ((given rfl).refuses working formed short)) (.inr (.inl short))
    · rcases (given rfl).run working formed (Nat.le_of_not_lt short) with ⟨missing, loads⟩
      rcases accounts.pmalloc (pageCount (headerWord geometry sectors extent)) .dramBank1 with
        noPages | ⟨binary, allocated, allocates, -, -⟩
      · exact iff_of_true (.inl (missing noPages)) (.inr (.inr (.inl noPages)))
      · rcases loads binary allocated allocates with
          ⟨bytes, after, returns, length, content, memory⟩
        constructor
        · rintro (⟨reason, final, panics⟩ | ⟨pointer, mm, final, again, same, -, inside, room⟩)
          · rw [returns] at panics
            cases panics
          · rw [allocates] at again
            cases again
            rw [returns] at same
            cases same
            rw [memory, storeBytes_inside_iff, length] at inside
            exact .inr (.inr (.inr (fits.mpr ⟨room, inside⟩)))
        · rintro (closed | short | noPages | holds)
          · exact absurd rfl closed
          · omega
          · rw [NoPages, allocates] at noPages
            cases noPages
          · rcases fits.mp holds with ⟨room, inside⟩
            refine .inr ⟨binary, allocated, after, allocates, returns, ?_, ?_, room⟩
            · intro index bound
              have stored : index < bytes.length := by
                rw [length, storedBytes]
                split <;> omega
              rw [memory, load8_storeBytes bytes stored, content index bound]
            · rw [memory, storeBytes_inside_iff, length]
              exact inside

end Load

/-! ## A file of one word -/

/-- A volume whose cluster 2 holds the word 4. -/
def wordVolume : FatState :=
  { blankVolume with
    device := { blankVolume.device with
      sector := fun lba =>
        if lba = 64 then Vector.ofFn fun column => if column.val = 0 then 4 else 0
        else .replicate 512 0 } }

def wordFile : Extent := { oneByteFile with size := 4 }

def wordHandle : File := { oneByteHandle with size := 4 }

def wordLoader : Loader := ⟨wordVolume, startConfig.state⟩

theorem wordFile_working :
    Working blankVolume.volume.toGeometry wordVolume.device.sector wordLoader.fat :=
  ⟨rfl, rfl, (show Mounted wordVolume from ⟨rfl, rfl⟩).coherent, fun _ => rfl⟩

theorem wordFile_formed :
    WellFormed blankVolume.volume.toGeometry wordVolume.device.sector wordFile where
  sectorSize := rfl
  clusterSize := by decide
  tablePlaced := by decide
  dataPlaced := by decide
  data := fun _ _ => Nat.le_refl 2
  below := fun _ _ => by decide +revert
  placed := fun _ _ => by decide +revert
  listed := fun _ _ => by decide +revert
  linked := fun index bound => absurd bound (by simp [wordFile, oneByteFile])
  held := by decide
  sizeBound := by decide

theorem wordHandle_opened : OpenedFile blankVolume.volume.toGeometry wordFile wordHandle :=
  ⟨rfl, rfl, rfl, fun _ => ⟨rfl, rfl, rfl, rfl, rfl, rfl⟩⟩

theorem startConfig_accounts : Accounts lowHeap startConfig.state [] :=
  ⟨[], _, startConfig_represents, .refl _⟩

theorem wordFile_header :
    headerWord blankVolume.volume.toGeometry wordVolume.device.sector wordFile = 4 := by
  decide +kernel

theorem run_binary_stays_in_block_iff_word :
    Refuses (.ok, wordHandle) wordLoader ∨ Loads blankVolume.volume.toGeometry
        wordVolume.device.sector wordFile (.ok, wordHandle) wordLoader ↔
      FStatus.ok ≠ FStatus.ok ∨ 4 < 4 ∨
        NoPages startConfig.state
          (headerWord blankVolume.volume.toGeometry wordVolume.device.sector wordFile) ∨
        HoldsFile (headerWord blankVolume.volume.toGeometry wordVolume.device.sector wordFile)
          4 :=
  run_binary_stays_in_block_iff wordFile_working wordFile_formed startConfig_accounts
    fun _ => wordHandle_opened

/-- An image smaller than half a page gets no page at all. -/
theorem run_binary_overflows_block :
    ¬ ∀ (geometry : Geometry) (sectors : Nat → Sector) (extent : Extent) (linker : Linker)
      (pointers : List Nat) (opened : FStatus × File) (loader : Loader),
      Working geometry sectors loader.fat → WellFormed geometry sectors extent →
      Accounts linker loader.mm pointers →
      (opened.1 = .ok → OpenedFile geometry extent opened.2) →
      Refuses opened loader ∨ Loads geometry sectors extent opened loader := by
  intro stays
  rcases wordHandle_opened.run wordFile_working wordFile_formed (Nat.le_refl 4) with ⟨-, loads⟩
  rcases @Represents.pmalloc_some _ _ _ startConfig_represents (pageCount 4) .dramBank1
    ⟨0x70000000, 256⟩ [⟨0x70000100, 524016⟩] (by decide +kernel) with
    ⟨allocated, live, next, allocates, -⟩
  rw [← wordFile_header] at allocates
  rcases loads _ allocated allocates with ⟨bytes, after, returns, -⟩
  rcases stays _ _ _ lowHeap [] (.ok, wordHandle) wordLoader wordFile_working wordFile_formed
    startConfig_accounts (fun _ => wordHandle_opened) with
    ⟨reason, final, panics⟩ | ⟨_, _, _, _, _, _, _, room⟩
  · rw [returns] at panics
    cases panics
  · rw [wordFile_header] at room
    exact absurd room (by decide)

end Vanilla.Kernel
