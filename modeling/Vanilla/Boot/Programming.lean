import Vanilla.Boot.FlashArray

namespace Vanilla.Boot

/-! The flash driver on a flash that carries out its commands: what an erase, a
page write and the write of the hash leave behind. -/

variable {engine : Engine} {initial : Contents} {state : BootState}

/-! ## One command -/

theorem commandCount_append (early late : List FlashAccess) :
    commandCount (early ++ late) = commandCount early + commandCount late :=
  List.countP_append

theorem commandCount_latchStores (source : FlashSource) (address : Nat) (buffer : Page) :
    commandCount (latchStores source address buffer) = 0 := by
  rw [commandCount, List.countP_eq_zero]
  intro access member
  rcases List.mem_map.mp member with ⟨index, _, rfl⟩
  exact Bool.false_ne_true

theorem applyAll_append (flash : FlashArray) (early late : List FlashAccess) :
    flash.applyAll (early ++ late) = (flash.applyAll early).applyAll late :=
  List.foldl_append

theorem Synced.cleared (synced : Synced initial state) :
    (FlashArray.cleared initial).applyAll state.accesses =
      .cleared ((FlashArray.cleared initial).applyAll state.accesses).contents := by
  have latch := synced.latch
  cases equal : (FlashArray.cleared initial).applyAll state.accesses with
  | mk contents latched =>
      rw [equal] at latch
      rw [FlashArray.cleared]
      exact congrArg (FlashArray.mk contents) latch

/-- A page is latched and a command given for it. -/
def afterPage (source : FlashSource) (address : Nat) (buffer : Page) (fcr : Nat)
    (state : BootState) : BootState :=
  afterIssue source fcr (afterLatch source address buffer state)

theorem afterPage_accesses (source : FlashSource) (address : Nat) (buffer : Page) (fcr : Nat)
    (state : BootState) : (afterPage source address buffer fcr state).accesses =
      state.accesses ++ (latchStores source address buffer ++
        [{ source, action := .command fcr }]) := List.append_assoc ..

theorem Synced.afterPage (synced : Synced initial state) (source : FlashSource) {address : Nat}
    (aligned : 512 ∣ address) (bound : address + 512 ≤ 2 ^ 32) (buffer : Page) (fcr : Nat)
    (obeys : Obeys engine initial state.hardware
      (Boot.afterPage source address buffer fcr state).accesses) :
    Synced initial (Boot.afterPage source address buffer fcr state) ∧
      (Boot.afterPage source address buffer fcr state).flash =
        commandEffect fcr (partLatch buffer 128) state.flash := by
  have applied : (FlashArray.cleared initial).applyAll
      (Boot.afterPage source address buffer fcr state).accesses =
        .cleared (commandEffect fcr (partLatch buffer 128)
          ((FlashArray.cleared initial).applyAll state.accesses).contents) := by
    rw [afterPage_accesses, applyAll_append, synced.cleared]
    exact applyAll_page _ source aligned bound buffer fcr
  have next : Synced initial (Boot.afterPage source address buffer fcr state) := by
    constructor
    · rw [afterPage_accesses, commandCount_append, commandCount_append,
        commandCount_latchStores, ← synced.commands]
      rfl
    · rw [applied]
      rfl
  have before : Obeys engine initial state.hardware state.accesses := by
    rw [afterPage_accesses] at obeys
    exact obeys.of_append
  refine ⟨next, ?_⟩
  rw [next.flash_eq obeys, applied, synced.flash_eq before]
  rfl

theorem Synced.afterIssue (synced : Synced initial state) (source : FlashSource) (fcr : Nat)
    (obeys : Obeys engine initial state.hardware
      (Boot.afterIssue source fcr state).accesses) :
    Synced initial (Boot.afterIssue source fcr state) ∧
      (Boot.afterIssue source fcr state).flash =
        commandEffect fcr (fun _ => 0xFF) state.flash := by
  have log : (Boot.afterIssue source fcr state).accesses =
      state.accesses ++ [{ source, action := .command fcr }] := rfl
  have applied : (FlashArray.cleared initial).applyAll
      (Boot.afterIssue source fcr state).accesses =
        .cleared (commandEffect fcr (fun _ => 0xFF)
          ((FlashArray.cleared initial).applyAll state.accesses).contents) := by
    rw [log, applyAll_append, synced.cleared]
    rfl
  have next : Synced initial (Boot.afterIssue source fcr state) := by
    constructor
    · rw [log, commandCount_append, ← synced.commands]
      rfl
    · rw [applied]
      rfl
  have before : Obeys engine initial state.hardware state.accesses := by
    rw [log] at obeys
    exact obeys.of_append
  refine ⟨next, ?_⟩
  rw [next.flash_eq obeys, applied, synced.flash_eq before]
  rfl

/-! ## A page of the kernel -/

theorem flashMatches_iff (address : Nat) (buffer : Page) (state : BootState) :
    ∃ equal, (flashMatches address buffer).run state = .ok equal state ∧
      (equal = true ↔ ∀ index < 512,
        state.flash (u32 (address + index)) = buffer[index]?.getD 0) := by
  refine ⟨_, rfl, ?_⟩
  simp only [List.all_eq_true, List.mem_range, beq_iff_eq]
  rfl

theorem kernelPage_address {page : Nat} (bound : page < 4096) :
    u32 (kernelStart + u32 (page * 512)) = kernelStart + 512 * page := by
  rw [u32_of_lt (show page * 512 < 2 ^ 32 by omega), Nat.mul_comm]
  apply u32_of_lt
  simp only [kernelStart]
  omega

/-- The comparison of a kernel page with its buffer. -/
theorem matches_kernelPage_iff {page : Nat} (bound : page < 4096) (buffer : Page)
    (contents : Contents) :
    (∀ index < 512, contents (u32 (kernelStart + 512 * page + index)) =
        buffer[index]?.getD 0) ↔ contents = withPage page buffer contents := by
  have address : ∀ index < 512,
      u32 (kernelStart + 512 * page + index) = kernelStart + 512 * page + index := by
    intro index small
    apply u32_of_lt
    simp only [kernelStart]
    omega
  constructor
  · intro same
    funext place
    rw [withPage]
    by_cases here : kernelStart ≤ place ∧ (place - kernelStart) / 512 = page
    · have offset := Nat.mod_lt place (show 0 < 512 by decide)
      have split : kernelStart + 512 * page + place % 512 = place := by
        simp only [kernelStart] at *
        omega
      have byte := same _ offset
      rw [address _ offset, split] at byte
      rw [if_pos here, byte]
    · rw [if_neg here]
  · intro same index small
    rw [address index small, same, withPage, if_pos]
    · have offset : (kernelStart + 512 * page + index) % 512 = index := by
        simp only [kernelStart]
        omega
      rw [offset]
    · simp only [kernelStart]
      omega

/-- What the command for a page makes of the flash. -/
def pageEffect (page : Nat) (buffer : Page) (contents : Contents) : Contents :=
  commandEffect (pageCommand page) (partLatch buffer 128) contents

theorem written_page {page : Nat} (bound : page < 4096) {buffer : Page} {contents : Contents}
    (erased : ErasedPage contents page) (fits : page < 224 ∨ BlankPage buffer) :
    pageEffect page buffer contents = withPage page buffer contents := by
  rw [pageEffect]
  cases fits with
  | inl low => exact write_low_page low buffer erased
  | inr blank =>
      rw [write_blank_page (by omega) blank]
      funext address
      rw [withPage]
      by_cases here : kernelStart ≤ address ∧ (address - kernelStart) / 512 = page
      · rw [if_pos here, erased address here.1 here.2, blank _ (Nat.mod_lt _ (by decide))]
      · rw [if_neg here]

theorem withPage_twice (page : Nat) (buffer : Page) (contents : Contents) :
    withPage page buffer (withPage page buffer contents) = withPage page buffer contents := by
  funext address
  simp only [withPage]
  split <;> rfl

/-- An erased page is written, unless its number is above 223 and it is not blank. -/
theorem page_written_iff {page : Nat} (bound : page < 4096) {buffer : Page} {contents : Contents}
    (erased : ErasedPage contents page) :
    pageEffect page buffer contents = withPage page buffer (pageEffect page buffer contents) ↔
      page < 224 ∨ BlankPage buffer := by
  constructor
  · intro same
    by_contra neither
    rw [not_or, Nat.not_lt] at neither
    apply neither.2
    intro index small
    have place := (matches_kernelPage_iff bound buffer _).mpr same index small
    have address : u32 (kernelStart + 512 * page + index) =
        kernelStart + 512 * page + index := by
      apply u32_of_lt
      simp only [kernelStart]
      omega
    have inKernel : kernelStart ≤ kernelStart + 512 * page + index := by omega
    have here : (kernelStart + 512 * page + index - kernelStart) / 512 = page := by omega
    rw [address, pageEffect, write_high_page neither.1 (by omega) _ _ inKernel here,
      erased _ inKernel here] at place
    exact place.symm
  · intro fits
    rw [written_page bound erased fits, withPage_twice]

/-- The state after a page has been sent. -/
def afterKernelPage (page : Nat) (buffer : Page) (state : BootState) : BootState :=
  afterPage .writeImagePage (u32 (kernelStart + u32 (page * 512))) buffer (pageCommand page)
    { state with flashBuffer := buffer }

theorem Synced.kernelPage (synced : Synced initial state) {page : Nat} (bound : page < 4096)
    (buffer : Page) (obeys : Obeys engine initial state.hardware
      (afterKernelPage page buffer state).accesses) :
    Synced initial (afterKernelPage page buffer state) ∧
      (afterKernelPage page buffer state).flash = pageEffect page buffer state.flash := by
  have address := kernelPage_address bound
  have copied : Synced initial { state with flashBuffer := buffer } :=
    ⟨synced.commands, synced.latch⟩
  apply copied.afterPage
  · rw [address, kernelStart]
    omega
  · rw [address, kernelStart]
    omega
  · exact obeys

theorem run_issue_works (works : ∀ command, state.hardware.fails command = false)
    (source : FlashSource) (fcr : Nat) :
    (issue source fcr).run state = .ok true (Boot.afterIssue source fcr state) := by
  rw [run_issue, works]
  rfl

/-- What a frame of `size` bytes puts into the buffer. -/
def frameBuffer (data : Page) (size : Nat) : Page :=
  paddedPage size fun index => data[index]?.getD 0

/-- A page write fills the buffer first. -/
theorem run_writeKernelPage_filled (data : Page) (size page : Nat) (state : BootState) :
    (writeKernelPage data size page).run state = (do
      let flashStatus ← flashWriteImagePage page (frameBuffer data size)
      if flashStatus then do
        let verified ← flashMatches (u32 (kernelStart + u32 (512 * page)))
          (frameBuffer data size)
        if verified then pure true
        else Exec.panic "Flash verification error"
      else
        Exec.panic "Flash write failed" : Exec BootState Bool).run
          { state with flashBuffer := frameBuffer data size } :=
  rfl

/-- Writing an erased page succeeds exactly when it reaches the page. -/
theorem run_writeKernelPage (synced : Synced initial state) {page : Nat} (bound : page < 4096)
    (data : Page) (size : Nat) (erased : ErasedPage state.flash page)
    (obeys : Obeys engine initial state.hardware
      (afterKernelPage page (frameBuffer data size) state).accesses) :
    (page < 224 ∨ BlankPage (frameBuffer data size) →
        (writeKernelPage data size page).run state =
          .ok true (afterKernelPage page (frameBuffer data size) state)) ∧
      (¬ (page < 224 ∨ BlankPage (frameBuffer data size)) →
        (writeKernelPage data size page).run state =
          .error (.panic "Flash write failed")
            (afterKernelPage page (frameBuffer data size) state)) := by
  let buffer := frameBuffer data size
  let copied : BootState := { state with flashBuffer := buffer }
  let after := afterKernelPage page buffer state
  have address := kernelPage_address bound
  have flash : after.flash = pageEffect page buffer state.flash :=
    (synced.kernelPage bound buffer obeys).2
  rcases flashMatches_iff (u32 (kernelStart + u32 (page * 512))) buffer after with
    ⟨equal, compared, holds⟩
  have verdict : equal = true ↔ page < 224 ∨ BlankPage buffer := by
    rw [holds, address, matches_kernelPage_iff bound, flash]
    exact page_written_iff bound erased
  have written : (flashWriteImagePage page buffer).run copied = .ok equal after := by
    let latched := afterLatch .writeImagePage (u32 (kernelStart + u32 (page * 512))) buffer copied
    have works : ∀ command, latched.hardware.fails command = false := obeys.works
    have issued := run_issue_works works .writeImagePage (pageCommand page)
    rw [flashWriteImagePage, Exec.run_bind_of_ok (run_latchPage ..)]
    exact (Exec.run_bind_of_ok issued).trans compared
  have again : u32 (512 * page) = u32 (page * 512) := by rw [Nat.mul_comm]
  constructor
  · intro fits
    have true_ := verdict.mpr fits
    rw [true_] at written compared
    rw [run_writeKernelPage_filled, Exec.run_bind_of_ok written, if_pos rfl,
      again, Exec.run_bind_of_ok compared]
    rfl
  · intro misfits
    have false_ : equal = false := Bool.eq_false_iff.mpr fun same => misfits (verdict.mp same)
    rw [false_] at written
    rw [run_writeKernelPage_filled, Exec.run_bind_of_ok written]
    rfl

/-! ## Erasing -/

/-- The flash with some 8 KiB blocks of the kernel area erased. -/
def withErased (first count : Nat) (contents : Contents) : Contents := fun address =>
  if kernelStart ≤ address ∧ first ≤ (address - kernelStart) / 8192 ∧
      (address - kernelStart) / 8192 < first + count then 0xFF
  else contents address

def sectorCommand (sector : Nat) : Nat :=
  commandKey ||| eraseArgument (32 + 16 * sector) <<< 8 ||| 0x07

theorem sectorCommand_names {sector : Nat} (bound : sector < 4094) (page : Nat) :
    Names (sectorCommand sector) page ↔ page / 16 = 2 + sector := by
  have argument := eraseArgument_eq (show 16 * (2 + sector) < 2 ^ 32 by omega)
  rw [show 16 * (2 + sector) = 32 + 16 * sector by omega,
    Nat.mod_eq_of_lt (show 2 + sector < 2 ^ 12 by omega)] at argument
  rw [sectorCommand, argument]
  exact names_erase (by omega)

theorem sectorCommand_code {sector : Nat} (bound : sector < 4094) :
    sectorCommand sector % 2 ^ 8 = 0x07 := by
  have argument := eraseArgument_eq (show 16 * (2 + sector) < 2 ^ 32 by omega)
  rw [show 16 * (2 + sector) = 32 + 16 * sector by omega,
    Nat.mod_eq_of_lt (show 2 + sector < 2 ^ 12 by omega)] at argument
  rw [sectorCommand, argument, command_word (by omega) (by decide)]
  omega

theorem sectorEffect {sector : Nat} (bound : sector < 4094) (latch contents : Contents) :
    commandEffect (sectorCommand sector) latch contents = withErased sector 1 contents := by
  funext address
  rw [commandEffect, withErased, sectorCommand_code bound]
  by_cases here : kernelStart ≤ address ∧ sector ≤ (address - kernelStart) / 8192 ∧
      (address - kernelStart) / 8192 < sector + 1
  · have named : flashStart ≤ address ∧
        Names (sectorCommand sector) ((address - flashStart) / 512) := by
      rw [sectorCommand_names bound]
      simp only [kernelStart, flashStart] at *
      omega
    rw [if_pos here, if_pos named]
    rfl
  · have other : ¬ (flashStart ≤ address ∧
        Names (sectorCommand sector) ((address - flashStart) / 512)) := by
      rw [sectorCommand_names bound]
      simp only [kernelStart, flashStart] at *
      omega
    rw [if_neg here, if_neg other]

theorem withErased_succ (first count : Nat) (contents : Contents) :
    withErased (first + 1) count (withErased first 1 contents) =
      withErased first (count + 1) contents := by
  funext address
  simp only [withErased]
  by_cases early : kernelStart ≤ address ∧ first ≤ (address - kernelStart) / 8192 ∧
      (address - kernelStart) / 8192 < first + 1
  · rw [if_neg (by omega), if_pos early, if_pos (by omega)]
  · by_cases late : kernelStart ≤ address ∧ first + 1 ≤ (address - kernelStart) / 8192 ∧
        (address - kernelStart) / 8192 < first + 1 + count
    · rw [if_pos late, if_pos (by omega)]
    · rw [if_neg late, if_neg early, if_neg (by omega)]

def afterSectors : Nat → Nat → BootState → BootState
  | _, 0, state => state
  | sector, count + 1, state =>
      afterSectors (sector + 1) count (afterIssue .eraseImage (sectorCommand sector) state)

/-- Accesses of one function of the driver. -/
def AllFrom (source : FlashSource) (accesses : List FlashAccess) : Prop :=
  ∀ access ∈ accesses, access.source = source

theorem afterSectors_log : ∀ (count sector : Nat) (state : BootState),
    ∃ new, (afterSectors sector count state).accesses = state.accesses ++ new ∧
      AllFrom .eraseImage new
  | 0, _, state => ⟨[], (List.append_nil _).symm, fun _ member => absurd member List.not_mem_nil⟩
  | count + 1, sector, state => by
      rcases afterSectors_log count (sector + 1)
        (afterIssue .eraseImage (sectorCommand sector) state) with ⟨new, log, sources⟩
      refine ⟨{ source := .eraseImage, action := .command (sectorCommand sector) } :: new, ?_, ?_⟩
      · rw [afterSectors, log]
        exact List.append_assoc ..
      · intro access member
        cases List.mem_cons.mp member with
        | inl here => rw [here]
        | inr later => exact sources access later

/-- Nothing but the log and the command count changes. -/
theorem afterSectors_eq : ∀ (count sector : Nat) (state : BootState),
    afterSectors sector count state = { state with
      accesses := (afterSectors sector count state).accesses
      commands := (afterSectors sector count state).commands }
  | 0, _, _ => rfl
  | count + 1, sector, state => by
      rw [afterSectors]
      exact afterSectors_eq count (sector + 1) _

theorem eraseSectors_works : ∀ (count sector : Nat) (state : BootState),
    (∀ command, state.hardware.fails command = false) → sector + count ≤ 4094 →
    (eraseSectors (32 + 16 * sector) count).run state = .ok true (afterSectors sector count state)
  | 0, _, _, _, _ => rfl
  | count + 1, sector, state, works, bound => by
      have advanced : u32 (32 + 16 * sector + 16) = 32 + 16 * (sector + 1) := by
        rw [u32_of_lt (by omega)]
        omega
      have issued := run_issue_works works .eraseImage (sectorCommand sector)
      rw [eraseSectors, ← sectorCommand, Exec.run_bind_of_ok issued, if_pos rfl, advanced]
      exact eraseSectors_works count (sector + 1) _ works (by omega)

theorem run_eraseSectors : ∀ (count sector : Nat) (state : BootState), sector + count ≤ 4094 →
    Synced initial state →
    Obeys engine initial state.hardware (afterSectors sector count state).accesses →
    (eraseSectors (32 + 16 * sector) count).run state =
        .ok true (afterSectors sector count state) ∧
      Synced initial (afterSectors sector count state) ∧
      (afterSectors sector count state).flash = withErased sector count state.flash
  | 0, sector, state, _, synced, _ => by
      refine ⟨rfl, synced, ?_⟩
      funext address
      rw [withErased, if_neg (by omega)]
      rfl
  | count + 1, sector, state, bound, synced, obeys => by
      let issued := Boot.afterIssue .eraseImage (sectorCommand sector) state
      have here : Obeys engine initial state.hardware issued.accesses := by
        rcases afterSectors_log count (sector + 1) issued with ⟨new, log, _⟩
        rw [afterSectors, log] at obeys
        exact obeys.of_append
      rcases synced.afterIssue .eraseImage (sectorCommand sector) here with ⟨next, flash⟩
      rcases run_eraseSectors count (sector + 1) issued (by omega) next obeys with
        ⟨_, last, erased⟩
      refine ⟨eraseSectors_works (count + 1) sector state obeys.works bound, last, ?_⟩
      change (afterSectors (sector + 1) count issued).flash = _
      rw [erased, flash, sectorEffect (by omega), withErased_succ]

/-! ## The hash page -/

def hashCommand : Nat := commandKey ||| (30 &&& 0xFFFF) <<< 8 ||| 0x3

theorem hashCommand_names (page : Nat) : Names hashCommand page ↔ page = 30 := by
  rw [hashCommand, show 30 &&& 0xFFFF = 30 by decide]
  exact names_write (by decide) (by decide) (by decide)

theorem hashCommand_code : hashCommand % 2 ^ 8 = 0x03 := by
  rw [hashCommand, show 30 &&& 0xFFFF = 30 by decide, command_word (by decide) (by decide)]
  omega

theorem flashStart_eq : flashStart = 4194304 := rfl

theorem hashSector_eq : hashSector = flashStart + 15360 := rfl

/-- The flash with the hash sector replaced. -/
def withHash (buffer : Page) (contents : Contents) : Contents := fun address =>
  if hashSector ≤ address ∧ address < hashSector + 512 then buffer[address % 512]?.getD 0
  else contents address

theorem hashEffect (buffer : Page) (contents : Contents) :
    commandEffect hashCommand (partLatch buffer 128) contents = withHash buffer contents := by
  funext address
  rw [commandEffect, withHash, hashCommand_code]
  by_cases here : hashSector ≤ address ∧ address < hashSector + 512
  · have named : flashStart ≤ address ∧ Names hashCommand ((address - flashStart) / 512) := by
      have sector := hashSector_eq
      rw [hashCommand_names]
      omega
    rw [if_pos here, if_pos named, if_neg (by decide), if_pos rfl,
      partLatch_full _ (Nat.mod_lt _ (by decide))]
  · have other : ¬ (flashStart ≤ address ∧
        Names hashCommand ((address - flashStart) / 512)) := by
      have sector := hashSector_eq
      rw [hashCommand_names]
      omega
    rw [if_neg here, if_neg other]

/-- The buffer that `store_kernel_hash` fills. -/
def hashBuffer (state : BootState) : Page :=
  paddedPage 36 (hashByte (state.hardware.digest state.commands state.kernelTotalSize)
    state.kernelTotalSize)

def afterHashPage (buffer : Page) (state : BootState) : BootState :=
  afterPage .eraseWrite (u32 (flashStart + u32 (512 * 30))) buffer hashCommand
    { state with flashBuffer := buffer }

def afterHash (state : BootState) : BootState := afterHashPage (hashBuffer state) state

theorem hashSector_address : u32 (flashStart + u32 (512 * 30)) = hashSector := by
  rw [u32_of_lt (show 512 * 30 < 2 ^ 32 by decide)]
  apply u32_of_lt
  simp only [flashStart]
  omega

theorem hashSector_aligned : 512 ∣ hashSector ∧ hashSector + 512 ≤ 2 ^ 32 := by
  have sector := hashSector_eq
  have start := flashStart_eq
  omega

theorem Synced.hashPage (synced : Synced initial state) (buffer : Page)
    (obeys : Obeys engine initial state.hardware (afterHashPage buffer state).accesses) :
    Synced initial (afterHashPage buffer state) ∧
      (afterHashPage buffer state).flash = withHash buffer state.flash := by
  let copied : BootState := { state with flashBuffer := buffer }
  have ready : Synced initial copied := ⟨synced.commands, synced.latch⟩
  have aligned : 512 ∣ u32 (flashStart + u32 (512 * 30)) := by
    rw [hashSector_address]
    exact hashSector_aligned.1
  have fits : u32 (flashStart + u32 (512 * 30)) + 512 ≤ 2 ^ 32 := by
    rw [hashSector_address]
    exact hashSector_aligned.2
  have same : copied.flash = state.flash := rfl
  have stored := ready.afterPage .eraseWrite aligned fits buffer hashCommand obeys
  rw [hashEffect, same] at stored
  exact stored

theorem Synced.hash (synced : Synced initial state)
    (obeys : Obeys engine initial state.hardware (afterHash state).accesses) :
    Synced initial (afterHash state) ∧
      (afterHash state).flash = withHash (hashBuffer state) state.flash :=
  synced.hashPage (hashBuffer state) obeys

theorem run_storeKernelHash (synced : Synced initial state)
    (obeys : Obeys engine initial state.hardware (afterHash state).accesses) :
    storeKernelHash.run state = .ok true (afterHash state) := by
  have flash := (synced.hash obeys).2
  have holds : ∀ index < 512, (afterHash state).flash (u32 (hashSector + index)) =
      (hashBuffer state)[index]?.getD 0 := by
    intro index small
    have address : u32 (hashSector + index) = hashSector + index := by
      have bound := hashSector_aligned.2
      apply u32_of_lt
      omega
    have offset : (hashSector + index) % 512 = index := by
      have aligned := hashSector_aligned.1
      omega
    rw [address, flash, withHash, if_pos (by omega), offset]
  rcases flashMatches_iff hashSector (hashBuffer state) (afterHash state) with
    ⟨equal, compared, verdict⟩
  rw [verdict.mpr holds] at compared
  generalize bufferEq : hashBuffer state = buffer at compared
  let copied : BootState := { state with flashBuffer := buffer }
  let latched := afterLatch .eraseWrite (u32 (flashStart + u32 (512 * 30))) buffer copied
  have ended : Boot.afterIssue .eraseWrite hashCommand latched = afterHash state := by
    rw [afterHash, bufferEq, afterHashPage, afterPage]
  have works : ∀ command, latched.hardware.fails command = false := obeys.works
  have issued := run_issue_works works .eraseWrite hashCommand
  have written : (flashEraseWrite 30 buffer).run copied = .ok true (afterHash state) := by
    rw [flashEraseWrite, if_neg (by decide), Exec.run_bind_of_ok (run_latchPage ..)]
    rw [ended] at issued
    rw [← hashCommand, Exec.run_bind_of_ok issued, if_pos rfl, hashSector_address]
    exact compared
  have filled : (set copied : Exec BootState Unit).run state = .ok () copied := rfl
  have direct : u32 (flashStart + 512 * 30) = hashSector := by
    have start := flashStart_eq
    unfold hashSector
    apply u32_of_lt
    omega
  rw [storeKernelHash, Exec.run_bind_of_ok (EStateM.run_get state)]
  change (set { state with flashBuffer := hashBuffer state } >>= fun _ =>
    flashEraseWrite 30 (hashBuffer state) >>= fun flashStatus =>
      if flashStatus then flashMatches (u32 (flashStart + 512 * 30)) (hashBuffer state)
      else pure false : Exec BootState Bool).run state = _
  rw [bufferEq, Exec.run_bind_of_ok filled, Exec.run_bind_of_ok written, if_pos rfl, direct]
  exact compared

end Vanilla.Boot
