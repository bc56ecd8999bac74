import Vanilla.Boot.LoadKernel

namespace Vanilla.Boot

/-! A download whose last page gets through: what is in the flash then. -/

variable {engine : Engine} {initial : Contents} {state : BootState}

/-! ## The bytes of a frame -/

theorem Holds.byte {frame : Frame} {body : List UInt8} (holds : Holds frame body) {index : Nat}
    (bound : index < body.length) :
    frame.payload[index]?.getD 0 = body[index]?.getD 0 := by
  have taken : (frame.payload.toList.take body.length)[index]? = body[index]? :=
    congrArg (fun bytes => bytes[index]?) holds
  rw [List.getElem?_take_of_lt bound, Vector.getElem?_toList] at taken
  rw [taken]

theorem erasePayload_word {frame : Frame} {size : Nat}
    (arrived : Arrived 0x03 (erasePayload size) frame) (bound : size < 2 ^ 32) :
    frame.payload.word 0 = size := by
  have byte : ∀ index < 4, frame.payload[index]?.getD 0 = (erasePayload size)[index]?.getD 0 :=
    fun index small => arrived.payload.byte small
  have first : (frame.payload[0]?.getD 0) = UInt8.ofNat (size &&& 0xFF) := byte 0 (by decide)
  have second : (frame.payload[0 + 1]?.getD 0) = UInt8.ofNat (size >>> 8 &&& 0xFF) :=
    byte 1 (by decide)
  have third : (frame.payload[0 + 2]?.getD 0) = UInt8.ofNat (size >>> 16 &&& 0xFF) :=
    byte 2 (by decide)
  have fourth : (frame.payload[0 + 3]?.getD 0) = UInt8.ofNat (size >>> 24 &&& 0xFF) :=
    byte 3 (by decide)
  rw [Page.word, first, second, third, fourth]
  simp only [show (0xFF : Nat) = 2 ^ 8 - 1 from rfl, and_low_mask, UInt8.toNat_ofNat',
    Nat.shiftRight_eq_div_pow]
  omega

theorem offsetPayload_word {frame : Frame} (arrived : Arrived 0x06 [0, 0, 0, 0] frame) :
    frame.payload.word 0 = 0 := by
  have byte : ∀ index < 4,
      frame.payload[index]?.getD 0 = ([0, 0, 0, 0] : List UInt8)[index]?.getD 0 :=
    fun index small => arrived.payload.byte small
  have first : (frame.payload[0]?.getD 0) = 0 := byte 0 (by decide)
  have second : (frame.payload[0 + 1]?.getD 0) = 0 := byte 1 (by decide)
  have third : (frame.payload[0 + 2]?.getD 0) = 0 := byte 2 (by decide)
  have fourth : (frame.payload[0 + 3]?.getD 0) = 0 := byte 3 (by decide)
  rw [Page.word, first, second, third, fourth]
  rfl

theorem Page.ext_bytes {left right : Page}
    (same : ∀ index < 512, left[index]?.getD 0 = right[index]?.getD 0) : left = right := by
  apply Vector.ext
  intro index bound
  have byte := same index bound
  rw [Vector.getElem?_eq_getElem bound, Vector.getElem?_eq_getElem bound] at byte
  exact byte

/-- A page of the image, padded with `0xFF`. -/
def imagePage (image : List UInt8) (page : Nat) : Page :=
  paddedPage 512 fun index => image[512 * page + index]?.getD 0xFF

theorem imagePage_byte (image : List UInt8) (page : Nat) {index : Nat} (bound : index < 512) :
    (imagePage image page)[index]?.getD 0 = image[512 * page + index]?.getD 0xFF := by
  rw [imagePage, paddedPage_getElem _ _ bound, if_pos bound]

theorem binaryFragment_length (image : List UInt8) (index : Nat) :
    (binaryFragment image index).length = min 512 (image.length - index * 512) := by
  rw [binaryFragment, List.length_take, List.length_drop]

theorem buffer_of_fragment {frame : Frame} {cmd : UInt8} {image : List UInt8} {page : Nat}
    (arrived : Arrived cmd (binaryFragment image page) frame) :
    frame.buffer = imagePage image page := by
  have length := binaryFragment_length image page
  apply Page.ext_bytes
  intro index bound
  rw [imagePage_byte image page bound, Frame.buffer, frameBuffer, paddedPage_getElem _ _ bound,
    arrived.size]
  by_cases inside : index < (binaryFragment image page).length
  · have present : 512 * page + index < image.length := by omega
    rw [if_pos inside, arrived.payload.byte inside, binaryFragment,
      List.getElem?_take_of_lt bound, List.getElem?_drop, Nat.mul_comm page 512,
      List.getElem?_eq_getElem present]
    rfl
  · have absent : image.length ≤ 512 * page + index := by omega
    rw [if_neg inside, List.getElem?_eq_none absent]
    rfl

/-! ## The pages of an image -/

/-- The flash with pages of the image written. -/
theorem withPages_image (image : List UInt8) :
    ∀ (count first : Nat) (contents : Contents) (address : Nat),
      withPages first ((List.range' first count).map (imagePage image)) contents address =
        if kernelStart ≤ address ∧ first ≤ (address - kernelStart) / 512 ∧
            (address - kernelStart) / 512 < first + count then
          image[address - kernelStart]?.getD 0xFF
        else contents address
  | 0, first, contents, address => by
      rw [if_neg (by omega)]
      rfl
  | count + 1, first, contents, address => by
      rw [List.range'_succ, List.map_cons, withPages, withPages_image image count (first + 1)]
      by_cases later : kernelStart ≤ address ∧ first + 1 ≤ (address - kernelStart) / 512 ∧
          (address - kernelStart) / 512 < first + 1 + count
      · rw [if_pos later, if_pos (by omega)]
      · rw [if_neg later, withPage]
        by_cases here : kernelStart ≤ address ∧ (address - kernelStart) / 512 = first
        · have place : 512 * first + address % 512 = address - kernelStart := by
            simp only [kernelStart] at *
            omega
          rw [if_pos here, if_pos (by omega),
            imagePage_byte image first (Nat.mod_lt _ (by decide)), place]
        · rw [if_neg here, if_neg (by omega)]

theorem pagesFit_range (pageOf : Nat → Page) :
    ∀ (count first : Nat), PagesFit first ((List.range' first count).map pageOf) ↔
      ∀ page, first ≤ page → page < first + count → PageFits page (pageOf page)
  | 0, first => by
      constructor
      · intro _ page low high
        omega
      · exact fun _ => trivial
  | count + 1, first => by
      rw [List.range'_succ, List.map_cons, PagesFit, pagesFit_range pageOf count (first + 1)]
      constructor
      · intro both page low high
        by_cases here : page = first
        · rw [here]
          exact both.1
        · exact both.2 page (by omega) (by omega)
      · intro all
        exact ⟨all first (Nat.le_refl _) (by omega),
          fun page low high => all page (by omega) (by omega)⟩

/-- Behind the first 224 pages the image has no byte but `0xFF`. -/
def BlankBehind (image : List UInt8) : Prop :=
  ∀ index, 512 * 224 ≤ index → image[index]?.getD 0xFF = 0xFF

theorem blankBehind_iff {image : List UInt8} :
    BlankBehind image ↔
      ∀ page < numberOfBlock image.length, PageFits page (imagePage image page) := by
  constructor
  · intro blank page _
    by_cases low : page < 224
    · exact .inl low
    · refine .inr fun index bound => ?_
      rw [imagePage_byte image page bound]
      exact blank _ (by omega)
  · intro fits index high
    by_cases present : index < image.length
    · have page := fits (index / 512) (by rw [numberOfBlock]; omega)
      cases page with
      | inl low => omega
      | inr blank =>
          have byte := blank (index % 512) (Nat.mod_lt _ (by decide))
          rw [imagePage_byte image _ (Nat.mod_lt _ (by decide)), Nat.div_add_mod] at byte
          exact byte
    · rw [List.getElem?_eq_none (by omega)]
      rfl

/-! ## The hash of what is there -/

theorem hashBuffer_byte (state : BootState) {index : Nat} (bound : index < 36) :
    (hashBuffer state)[index]?.getD 0 =
      hashByte (state.hardware.digest state.commands state.kernelTotalSize)
        state.kernelTotalSize index := by
  rw [hashBuffer, paddedPage_getElem _ _ (by omega), if_pos bound]

theorem withHash_byte (buffer : Page) (contents : Contents) {index : Nat} (bound : index < 512) :
    withHash buffer contents (hashSector + index) = buffer[index]?.getD 0 := by
  have aligned := hashSector_aligned.1
  have offset : (hashSector + index) % 512 = index := by omega
  rw [withHash, if_pos (by omega), offset]

theorem withHash_kernel (buffer : Page) (contents : Contents) {address : Nat}
    (inKernel : kernelStart ≤ address) : withHash buffer contents address = contents address := by
  have sector := hashSector_eq
  have start := flashStart_eq
  rw [kernelStart] at inKernel
  rw [withHash, if_neg (by omega)]

/-- The stored digest is that of the flash it is stored in. -/
theorem hash_verifies {log : List FlashAccess} (obeys : Obeys engine initial state.hardware log)
    (positive : 0 < state.kernelTotalSize) (sectors : 8192 ∣ state.kernelTotalSize)
    (bound : state.kernelTotalSize ≤ 0x1FC000) :
    verifyKernelHash engine (withHash (hashBuffer state) state.flash) = true := by
  have small : state.kernelTotalSize < 2 ^ 32 := by omega
  have recorded : hashSize (withHash (hashBuffer state) state.flash) =
      state.kernelTotalSize := by
    rw [hashSize, withHash_byte _ _ (by decide), withHash_byte _ _ (by decide),
      withHash_byte _ _ (by decide), withHash_byte _ _ (by decide),
      hashBuffer_byte _ (by decide), hashBuffer_byte _ (by decide),
      hashBuffer_byte _ (by decide), hashBuffer_byte _ (by decide)]
    simp only [hashByte, UInt8.toNat_ofNat', show ¬ (32 < 32) by decide,
      show ¬ (33 < 32) by decide, show ¬ (34 < 32) by decide, show ¬ (35 < 32) by decide,
      if_false]
    omega
  have agree : AgreeOn (withHash (hashBuffer state) state.flash) state.flash
      (2 * state.kernelTotalSize) := by
    intro index inside
    apply withHash_kernel
    rw [u32_of_lt (by rw [kernelStart]; omega)]
    omega
  apply (verifyKernelHash_iff positive sectors small recorded).mpr
  intro index digestByte
  rw [(kernelBytes_eq_iff _ _ _).mpr agree, withHash_byte _ _ (by omega),
    hashBuffer_byte _ (by omega), hashByte, if_pos digestByte, obeys.digest _ _ _ digestByte,
    hash256Generate, regionOne_bytes positive sectors small]
  rfl

/-! ## Pages and the last page -/

theorem executeAll_append (early late : List Frame) : ∀ state : BootState,
    (executeAll (early ++ late)).run state =
      (executeAll early >>= fun _ => executeAll late).run state := by
  induction early with
  | nil => exact fun _ => rfl
  | cons frame rest induction =>
      intro state
      rw [List.cons_append, executeAll, executeAll]
      cases run : (execute frame).run state with
      | ok value next =>
          have first : (do execute frame; executeAll rest : Exec BootState Unit).run state =
              (executeAll rest).run next := Exec.run_bind_of_ok run
          rw [Exec.run_bind_of_ok run, induction next]
          cases ran : (executeAll rest).run next with
          | ok value last =>
              rw [Exec.run_bind_of_ok ran, Exec.run_bind_of_ok (first.trans ran)]
          | error reason last =>
              rw [Exec.run_bind_of_error ran, Exec.run_bind_of_error (first.trans ran)]
      | error reason next =>
          have first : (do execute frame; executeAll rest : Exec BootState Unit).run state =
              .error reason next := Exec.run_bind_of_error run
          rw [Exec.run_bind_of_error run, Exec.run_bind_of_error first]

theorem Within.of_append {log : List FlashAccess} {early late : List Frame}
    (within : Within log (outcome (executeAll (early ++ late)) state)) :
    Within log (outcome (executeAll early) state) := by
  rw [outcome, executeAll_append] at within
  cases run : (executeAll early).run state with
  | ok value next =>
      rw [Exec.run_bind_of_ok run] at within
      have later : Within log (outcome (executeAll late) next) := within
      rw [outcome, run]
      exact later.of_outcome
  | error reason next =>
      rw [Exec.run_bind_of_error run] at within
      rw [outcome, run]
      exact within

theorem withPages_concat (last : Page) : ∀ (pages : List Page) (first : Nat) (contents : Contents),
    withPages first (pages ++ [last]) contents =
      withPage (first + pages.length) last (withPages first pages contents)
  | [], _, _ => rfl
  | page :: rest, first, contents => by
      rw [List.cons_append, withPages, withPages, withPages_concat last rest, List.length_cons,
        show first + (rest.length + 1) = first + 1 + rest.length by omega]

theorem pagesFit_concat (last : Page) : ∀ (pages : List Page) (first : Nat),
    PagesFit first (pages ++ [last]) ↔
      PagesFit first pages ∧ PageFits (first + pages.length) last
  | [], _ => ⟨fun both => ⟨trivial, both.1⟩, fun both => ⟨both.2, trivial⟩⟩
  | page :: rest, first => by
      rw [List.cons_append, PagesFit, PagesFit, pagesFit_concat last rest, List.length_cons,
        show first + (rest.length + 1) = first + 1 + rest.length by omega, and_assoc]

theorem withPages_elsewhere : ∀ (pages : List Page) (first : Nat) (contents : Contents)
    {address : Nat}, (kernelStart ≤ address → first ≤ (address - kernelStart) / 512 →
      first + pages.length ≤ (address - kernelStart) / 512) →
    withPages first pages contents address = contents address
  | [], _, _, _, _ => rfl
  | page :: rest, first, contents, address, elsewhere => by
      rw [List.length_cons] at elsewhere
      rw [withPages, withPages_elsewhere rest (first + 1) _
        (fun inKernel low => by have := elsewhere inKernel (by omega); omega), withPage, if_neg]
      intro here
      have := elsewhere here.1 (by omega)
      omega

/-! ## Where the hash is written -/

def hashWrite : FlashAccess := { source := .eraseWrite, action := .command hashCommand }

theorem hashWrite_not_from {accesses : List FlashAccess} {source : FlashSource}
    (other : source ≠ .eraseWrite) (sources : AllFrom source accesses) :
    hashWrite ∉ accesses :=
  fun member => other (sources hashWrite member).symm

theorem latchStores_from (source : FlashSource) (address : Nat) (buffer : Page) :
    AllFrom source (latchStores source address buffer) := by
  intro access member
  rcases List.mem_map.mp member with ⟨index, _, rfl⟩
  rfl

def pageLog (page : Nat) (buffer : Page) : List FlashAccess :=
  latchStores .writeImagePage (u32 (kernelStart + u32 (page * 512))) buffer ++
    [{ source := .writeImagePage, action := .command (pageCommand page) }]

theorem afterKernelPage_accesses (page : Nat) (buffer : Page) (state : BootState) :
    (afterKernelPage page buffer state).accesses = state.accesses ++ pageLog page buffer :=
  List.append_assoc ..

theorem pageLog_from (page : Nat) (buffer : Page) :
    AllFrom .writeImagePage (pageLog page buffer) := by
  intro access member
  rw [pageLog, List.mem_append, List.mem_singleton] at member
  cases member with
  | inl stored => exact latchStores_from _ _ _ access stored
  | inr command => rw [command]

/-- A page frame writes its page and nothing else. -/
theorem page_from {frame : Frame} (command : frame.cmd = 0x04) (state : BootState) :
    ∃ new, (outcome (execute frame) state).accesses = state.accesses ++ new ∧
      AllFrom .writeImagePage new := by
  refine ⟨pageLog state.kernelPage frame.buffer, ?_, pageLog_from _ _⟩
  rw [execute_page command, writePage_log]
  exact afterKernelPage_accesses _ _ { state with kernelPage := u32 (state.kernelPage + 1) }

theorem pages_from : ∀ (frames : List Frame) (state : BootState),
    (∀ frame ∈ frames, frame.cmd = 0x04) →
    ∃ new, (outcome (executeAll frames) state).accesses = state.accesses ++ new ∧
      AllFrom .writeImagePage new
  | [], _, _ => ⟨[], (List.append_nil _).symm, fun _ member => absurd member List.not_mem_nil⟩
  | frame :: rest, state, commands => by
      rcases page_from (commands frame List.mem_cons_self) state with ⟨first, log, sources⟩
      cases run : (execute frame).run state with
      | ok value next =>
          rcases pages_from rest next
            (fun other member => commands other (List.mem_cons_of_mem _ member)) with
            ⟨later, late, others⟩
          rw [outcome, run] at log
          refine ⟨first ++ later, ?_, ?_⟩
          · rw [executeAll, outcome_bind_of_ok run, late, log, List.append_assoc]
          · intro access member
            cases List.mem_append.mp member with
            | inl early => exact sources access early
            | inr after => exact others access after
      | error reason next =>
          rw [outcome, run] at log
          refine ⟨first, ?_, sources⟩
          rw [outcome, executeAll, Exec.run_bind_of_error run]
          exact log

theorem counted_afterPage (counted : state.commands = commandCount state.accesses)
    (source : FlashSource) (address : Nat) (buffer : Page) (fcr : Nat) :
    (afterPage source address buffer fcr state).commands =
      commandCount (afterPage source address buffer fcr state).accesses := by
  rw [afterPage_accesses, commandCount_append, commandCount_append, commandCount_latchStores,
    ← counted]
  rfl

theorem counted_lastPage (counted : state.commands = commandCount state.accesses)
    (frame : Frame) :
    (afterLastPage frame state).commands = commandCount (afterLastPage frame state).accesses := by
  let copied : BootState := { state with flashBuffer := frame.buffer }
  let written := answeredOk (afterKernelPage state.kernelPage frame.buffer state)
  have page : written.commands = commandCount written.accesses :=
    @counted_afterPage copied counted .writeImagePage _ frame.buffer _
  let hashed : BootState := { written with flashBuffer := hashBuffer written }
  exact @counted_afterPage hashed page .eraseWrite _ (hashBuffer written) hashCommand

theorem lastPage_log (frame : Frame) (state : BootState) :
    ∃ new, (afterLastPage frame state).accesses = state.accesses ++ (new ++ [hashWrite]) ∧
      hashWrite ∉ new := by
  let written := answeredOk (afterKernelPage state.kernelPage frame.buffer state)
  let address := u32 (flashStart + u32 (512 * 30))
  let stores := latchStores .eraseWrite address (hashBuffer written)
  have page : written.accesses = state.accesses ++ pageLog state.kernelPage frame.buffer :=
    afterKernelPage_accesses ..
  have hash : (afterLastPage frame state).accesses =
      written.accesses ++ (stores ++ [hashWrite]) := afterPage_accesses ..
  refine ⟨pageLog state.kernelPage frame.buffer ++ stores, ?_, ?_⟩
  · rw [hash, page, List.append_assoc, List.append_assoc]
  · rw [List.mem_append, not_or]
    refine ⟨hashWrite_not_from (by decide) (pageLog_from _ _), ?_⟩
    intro member
    rcases List.mem_map.mp member with ⟨index, _, same⟩
    have action := congrArg FlashAccess.action same
    cases action

/-- The flash is erased and programmed as far as `before` says, then hashed. -/
structure Finished (state after : BootState) (pages : List Page) : Prop where
  hashed : ∃ before : BootState, before.hardware = state.hardware ∧
    before.kernelTotalSize = state.kernelTotalSize ∧
    before.flash = withPages state.kernelPage pages state.flash ∧
    after.flash = withHash (hashBuffer before) before.flash
  counted : after.commands = commandCount after.accesses
  /-- The hash is written last, and once. -/
  log : ∃ new, after.accesses = state.accesses ++ (new ++ [hashWrite]) ∧ hashWrite ∉ new

theorem execute_lastPage {frame : Frame} (command : frame.cmd = 0x05) :
    execute frame = writePageLast frame := by
  rw [execute, command, if_neg (by decide), if_neg (by decide), if_pos rfl]

/-- Page frames and the last page, on pages that are erased. -/
theorem run_pages_last {log : List FlashAccess} {pages : List Frame} {last : Frame}
    (commands : ∀ frame ∈ pages, frame.cmd = 0x04) (ending : last.cmd = 0x05)
    (synced : Synced initial state) (bound : state.kernelPage + pages.length < 4095)
    (erased : ∀ page, state.kernelPage ≤ page → page ≤ state.kernelPage + pages.length →
      ErasedPage state.flash page)
    (obeys : Obeys engine initial state.hardware log)
    (within : Within log (outcome (executeAll (pages ++ [last])) state)) :
    (PagesFit state.kernelPage (pages.map Frame.buffer ++ [last.buffer]) →
        ∃ after, (executeAll (pages ++ [last])).run state = .ok () after ∧
          Finished state after (pages.map Frame.buffer ++ [last.buffer])) ∧
      (¬ PagesFit state.kernelPage (pages.map Frame.buffer ++ [last.buffer]) →
        ∃ after, (executeAll (pages ++ [last])).run state =
          .error (.panic "Flash write failed") after) := by
  have runs := run_pages pages state commands synced (by omega)
    (fun page low high => erased page low (by omega)) obeys within.of_append
  have fits := pagesFit_concat last.buffer (pages.map Frame.buffer) state.kernelPage
  have only : ∀ middle : BootState,
      (executeAll [last]).run middle = (writePageLast last).run middle := by
    intro middle
    rw [executeAll, execute_lastPage ending]
    cases run : (writePageLast last).run middle with
    | ok value next => exact Exec.run_bind_of_ok run
    | error reason next => exact Exec.run_bind_of_error run
  rw [List.length_map] at fits
  by_cases early : PagesFit state.kernelPage (pages.map Frame.buffer)
  · rcases runs.1 early with ⟨middle, ran, ready, flash, hardware, total, counter⟩
    have whole : (executeAll (pages ++ [last])).run state = (writePageLast last).run middle := by
      rw [executeAll_append, Exec.run_bind_of_ok ran, only]
    have clean : ErasedPage middle.flash middle.kernelPage := by
      intro address inKernel here
      rw [counter] at here
      rw [flash, withPages_elsewhere _ _ _ (by
        intro _ _
        rw [List.length_map]
        omega)]
      exact erased _ (by omega) (Nat.le_refl _) address inKernel here
    have remaining : Within log (outcome (writePageLast last) middle) := by
      rw [outcome, whole] at within
      exact within
    have final := run_writePageLast ready (by omega) clean (hardware ▸ obeys) remaining
    rw [counter] at final
    constructor
    · intro all
      rcases final.1 (fits.mp all).2 with ⟨done, stored⟩
      have here : Obeys engine initial middle.hardware
          (afterKernelPage middle.kernelPage last.buffer middle).accesses :=
        (hardware ▸ obeys).within (writePageLast_within remaining)
      rw [counter] at here clean
      have page := (ready.kernelPage (by omega) last.buffer here).2
      rw [written_page (by omega) clean (fits.mp all).2] at page
      have written : ∃ new, (afterLastPage last middle).accesses =
          state.accesses ++ (new ++ [hashWrite]) ∧ hashWrite ∉ new := by
        rcases pages_from pages state commands with ⟨early, log, sources⟩
        rcases lastPage_log last middle with ⟨late, hashed, unhashed⟩
        rw [outcome, ran] at log
        refine ⟨early ++ late, ?_, ?_⟩
        · rw [hashed, log, List.append_assoc, List.append_assoc]
        · rw [List.mem_append, not_or]
          exact ⟨hashWrite_not_from (by decide) sources, unhashed⟩
      refine ⟨_, whole.trans done, ⟨answeredOk (afterKernelPage (state.kernelPage +
        pages.length) last.buffer middle), hardware, total, ?_, ?_⟩,
        counted_lastPage ready.commands last, written⟩
      · rw [flash] at page
        rw [withPages_concat, List.length_map]
        exact page
      · exact stored.trans (congrArg (withHash _) page.symm)
    · intro misfits
      rcases final.2 (fun fine => misfits (fits.mpr ⟨early, fine⟩)) with ⟨after, panics⟩
      exact ⟨after, whole.trans panics⟩
  · refine ⟨fun all => absurd (fits.mp all).1 early, fun _ => ?_⟩
    rcases runs.2 early with ⟨after, panics⟩
    refine ⟨after, ?_⟩
    rw [executeAll_append]
    exact Exec.run_bind_of_error panics

/-! ## The frames before the pages -/

def afterOffset (state : BootState) : BootState :=
  { state with kernelPage := 0, responses := state.responses ++ [respOk] }

theorem execute_offset {frame : Frame} (arrived : Arrived 0x06 [0, 0, 0, 0] frame)
    (state : BootState) : (execute frame).run state = .ok () (afterOffset state) := by
  have zero := offsetPayload_word arrived
  rw [execute, arrived.cmd, if_neg (by decide), if_neg (by decide), if_neg (by decide),
    if_pos rfl, afterOffset, ← zero]
  rfl

/-- The state in which the erase frame is served. -/
def offsetSet (channel : Nat → Option Rejection) (state : BootState) : BootState :=
  match channel 0 with
  | some _ => state
  | none => afterOffset state

theorem deliver_offset (channel : Nat → Option Rejection) {receiver : Receiver}
    (ready : Ready receiver) :
    ∃ next, Ready next ∧ ∀ state, ∃ answer,
      (deliver (channel 0) receiver 0x06 [0, 0, 0, 0]).run state =
        .ok (next, answer) (offsetSet channel state) := by
  cases rejected : channel 0 with
  | some rejection =>
      refine ⟨rejection.receiver, rejection.ready, fun state => ⟨some rejection.answer, ?_⟩⟩
      rw [offsetSet, rejected]
      rfl
  | none =>
      rcases @deliver_arrives _ ready 0x06 [0, 0, 0, 0] (by decide) (by decide) with
        ⟨frame, next, arrives, idle, served⟩
      refine ⟨next, idle, fun state => ⟨(afterOffset state).responses.getLast?, ?_⟩⟩
      rw [offsetSet, rejected, served]
      exact run_deliver (execute_offset arrives state)

theorem blocks_sendable {image : List UInt8} : ∀ frame ∈ blocks image, Sendable frame := by
  intro frame member
  rcases List.mem_map.mp member with ⟨index, inside, rfl⟩
  have length := binaryFragment_length image index
  rw [List.mem_range, numberOfBlock] at inside
  exact ⟨by change 1 ≤ (binaryFragment image index).length; omega,
    by change (binaryFragment image index).length ≤ 512; omega⟩

theorem erasePayload_length (size : Nat) : (erasePayload size).length = 4 := rfl

/-- After the erase the bootloader executes the blocks that get through. -/
theorem run_loadKernel {channel : Nat → Option Rejection} (clear : channel 1 = none)
    {receiver : Receiver} (ready : Ready receiver) {image : List UInt8}
    (positive : 0 < image.length) (bound : image.length ≤ 0x1FC000) :
    ∃ frames, List.Forall₂ (fun (sent : UInt8 × List UInt8) => Arrived sent.1 sent.2)
        (accepted channel 2 (blocks image)) frames ∧
      ∀ state : BootState, (∀ command, state.hardware.fails command = false) →
        (loadKernel channel receiver image).run state =
          (executeAll frames).run (afterErase image.length (offsetSet channel state)) := by
  rcases deliver_offset channel ready with ⟨second, secondReady, offset⟩
  have length := erasePayload_length image.length
  rcases @deliver_arrives _ secondReady 0x03 (erasePayload image.length) (by omega) (by omega)
    with ⟨frame, third, arrives, thirdReady, served⟩
  rcases run_sendBlocks channel (blocks image) 2 third thirdReady blocks_sendable with
    ⟨frames, arrived, runs⟩
  refine ⟨frames, arrived, fun state works => ?_⟩
  rcases offset state with ⟨answer, first⟩
  have kept : (offsetSet channel state).hardware = state.hardware := by
    rw [offsetSet]
    split <;> rfl
  have erased := @run_eraseFlash (offsetSet channel state) (by rw [kept]; exact works) _ _
    (erasePayload_word arrives (by omega)) positive bound
  have executed : (execute frame).run (offsetSet channel state) =
      .ok () (afterErase image.length (offsetSet channel state)) := by
    rw [execute, arrives.cmd, if_pos rfl]
    exact erased
  have answered : (afterErase image.length (offsetSet channel state)).responses.getLast? =
      some respOk := List.getLast?_concat ..
  rw [loadKernel, Exec.run_bind_of_ok first]
  change (deliver (channel 1) second 0x03 (erasePayload image.length) >>= _).run _ = _
  rw [clear, served, Exec.run_bind_of_ok (run_deliver executed)]
  change (if (afterErase image.length (offsetSet channel state)).responses.getLast? =
    some respOk then _ else _ : Exec BootState Unit).run _ = _
  rw [if_pos answered]
  exact runs _

/-! ## The blocks that get through, when the last one does -/

def pageSent (image : List UInt8) (index : Nat) : UInt8 × List UInt8 :=
  (0x04, binaryFragment image index)

def lastSent (image : List UInt8) (index : Nat) : UInt8 × List UInt8 :=
  (0x05, binaryFragment image index)

abbrev ArrivedAll (sent : List (UInt8 × List UInt8)) (frames : List Frame) : Prop :=
  List.Forall₂ (fun (sent : UInt8 × List UInt8) => Arrived sent.1 sent.2) sent frames

theorem arrived_pages {image : List UInt8} : ∀ {indices : List Nat} {frames : List Frame},
    ArrivedAll (indices.map (pageSent image)) frames →
    (∀ frame ∈ frames, frame.cmd = 0x04) ∧
      frames.map Frame.buffer = indices.map (imagePage image)
  | [], [], _ => ⟨fun _ member => absurd member List.not_mem_nil, rfl⟩
  | index :: rest, frame :: frames, arrived => by
      cases arrived with
      | cons first others =>
          rcases arrived_pages others with ⟨commands, buffers⟩
          constructor
          · intro other member
            cases List.mem_cons.mp member with
            | inl here =>
                rw [here]
                exact first.cmd
            | inr later => exact commands other later
          · rw [List.map_cons, List.map_cons, buffers, buffer_of_fragment first]

theorem arrived_concat {last : UInt8 × List UInt8} :
    ∀ {early : List (UInt8 × List UInt8)} {frames : List Frame},
      ArrivedAll (early ++ [last]) frames →
      ∃ pages final, frames = pages ++ [final] ∧ ArrivedAll early pages ∧
        Arrived last.1 last.2 final
  | [], [final], arrived => by
      cases arrived with
      | cons first others => exact ⟨[], final, rfl, .nil, first⟩
  | [], _ :: _ :: _, arrived => by
      cases arrived with
      | cons first others => cases others
  | sent :: rest, frame :: frames, arrived => by
      cases arrived with
      | cons first others =>
          rcases arrived_concat others with ⟨pages, final, split, early, ending⟩
          exact ⟨frame :: pages, final, by rw [split, List.cons_append], .cons first early, ending⟩

/-- The pages of a list are on erased flash. -/
theorem erased_below {size page : Nat} (contents : Contents) (inside : page < 16 * sect8k size) :
    ErasedPage (withErased 0 (sect8k size) contents) page := by
  intro address inKernel here
  rw [withErased, if_pos]
  omega

theorem numberOfBlock_le (size : Nat) : numberOfBlock size ≤ 16 * sect8k size := by
  simp only [numberOfBlock, sect8k]
  split <;> split <;> omega

/-- The kernel area after an erase and some pages. -/
def programmed (size : Nat) (pages : List Page) (contents : Contents) : Contents :=
  withPages 0 pages (withErased 0 (sect8k size) contents)

/-- What an accepted last page leaves: the pages that got through, in a row,
and their hash. -/
structure Completed (engine : Engine) (size : Nat) (pages : List Page) (state after : BootState) :
    Prop where
  kernel : ∀ address, kernelStart ≤ address →
    after.flash address = programmed size pages state.flash address
  verifies : verifyKernelHash engine after.flash = true
  counted : after.commands = commandCount after.accesses
  log : ∃ new, after.accesses = state.accesses ++ (new ++ [hashWrite]) ∧ hashWrite ∉ new

theorem offsetSet_accesses (channel : Nat → Option Rejection) (state : BootState) :
    (offsetSet channel state).accesses = state.accesses := by
  rw [offsetSet]
  cases channel 0 with
  | some rejection => rfl
  | none => rfl

theorem afterErase_log (size : Nat) (state : BootState) :
    ∃ new, (afterErase size state).accesses = state.accesses ++ new ∧ AllFrom .eraseImage new :=
  afterSectors_log (sect8k size) 0 state

theorem offsetSet_kept (channel : Nat → Option Rejection) (synced : Synced initial state) :
    Synced initial (offsetSet channel state) ∧
      (offsetSet channel state).hardware = state.hardware ∧
      (offsetSet channel state).flash = state.flash := by
  rw [offsetSet]
  cases channel 0 with
  | some rejection => exact ⟨synced, rfl, rfl⟩
  | none => exact ⟨⟨synced.commands, synced.latch⟩, rfl, rfl⟩

theorem loadKernel_completes {channel : Nat → Option Rejection} (clear : channel 1 = none)
    {receiver : Receiver} (ready : Ready receiver) {image : List UInt8}
    (positive : 0 < image.length) (bound : image.length ≤ 0x1FC000)
    {indices : List Nat} {last : Nat}
    (through : accepted channel 2 (blocks image) =
      indices.map (pageSent image) ++ [lastSent image last])
    (few : indices.length < numberOfBlock image.length)
    (synced : Synced initial state) (start : (offsetSet channel state).kernelPage = 0)
    (obeys : Obeys engine initial state.hardware
      (outcome (loadKernel channel receiver image) state).accesses) :
    (PagesFit 0 (indices.map (imagePage image) ++ [imagePage image last]) →
        ∃ after, (loadKernel channel receiver image).run state = .ok () after ∧
          Completed engine image.length
            (indices.map (imagePage image) ++ [imagePage image last]) state after) ∧
      (¬ PagesFit 0 (indices.map (imagePage image) ++ [imagePage image last]) →
        ∃ after, (loadKernel channel receiver image).run state =
          .error (.panic "Flash write failed") after) := by
  let ordered := offsetSet channel state
  let erased := afterErase image.length ordered
  rcases run_loadKernel clear ready positive bound with ⟨frames, arrived, runs⟩
  rw [through] at arrived
  rcases arrived_concat arrived with ⟨pages, final, split, early, ending⟩
  rcases arrived_pages early with ⟨commands, buffers⟩
  have final_ := buffer_of_fragment ending
  have whole := runs state obeys.works
  have log : (outcome (loadKernel channel receiver image) state).accesses =
      (outcome (executeAll frames) erased).accesses := by
    rw [outcome, whole]
    rfl
  have sync : Synced initial ordered ∧ ordered.hardware = state.hardware ∧
      ordered.flash = state.flash := offsetSet_kept channel synced
  rcases outcome_log frames erased with ⟨new, later⟩
  have swept : Obeys engine initial ordered.hardware erased.accesses := by
    rw [log, later, ← sync.2.1] at obeys
    exact obeys.of_append
  rcases sync.1.erase bound swept with ⟨next, flash⟩
  have kept := afterErase_kept image.length ordered
  have counter : erased.kernelPage = 0 := kept.1.trans start
  have hardware : erased.hardware = state.hardware := kept.2.trans sync.2.1
  have blocksBelow := numberOfBlock_le image.length
  have sectors := sect8k_few bound
  have length : pages.length = indices.length := by
    have same := congrArg List.length buffers
    rw [List.length_map, List.length_map] at same
    exact same
  have clean : ∀ page, erased.kernelPage ≤ page → page ≤ erased.kernelPage + pages.length →
      ErasedPage erased.flash page := by
    intro page _ high
    rw [counter] at high
    rw [flash]
    exact erased_below _ (by omega)
  have room : erased.kernelPage + pages.length < 4095 := by
    rw [counter]
    omega
  rw [split] at whole log
  rw [log, ← hardware] at obeys
  have done := run_pages_last commands ending.cmd next room clean obeys
    ⟨[], (List.append_nil _).symm⟩
  rw [counter, buffers, final_] at done
  constructor
  · intro fits
    rcases done.1 fits with ⟨after, ran, finished⟩
    rcases finished.hashed with ⟨before, same, total, contents, stored⟩
    rw [counter, flash, sync.2.2] at contents
    have size : before.kernelTotalSize = 8192 * sect8k image.length := total
    have nonempty := sect8k_positive positive
    refine ⟨after, whole.trans ran, fun address inKernel => ?_, ?_, finished.counted, ?_⟩
    · rw [stored, withHash_kernel _ _ inKernel, contents]
      rfl
    · rw [stored]
      exact hash_verifies (same ▸ obeys) (by omega) (by omega) (by omega)
    · rcases finished.log with ⟨new, log, unhashed⟩
      rcases afterErase_log image.length ordered with ⟨sectors, sweep, sources⟩
      have untouched : ordered.accesses = state.accesses := offsetSet_accesses channel state
      refine ⟨sectors ++ new, ?_, ?_⟩
      · rw [log, sweep, untouched, List.append_assoc, List.append_assoc]
      · rw [List.mem_append, not_or]
        exact ⟨hashWrite_not_from (by decide) sources, unhashed⟩
  · intro misfits
    rcases done.2 misfits with ⟨after, panics⟩
    exact ⟨after, whole.trans panics⟩

end Vanilla.Boot
