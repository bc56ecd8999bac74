import Vanilla.Boot.FlashSafety
import Vanilla.Boot.Hash

namespace Vanilla.Boot

/-! The flash array behind the controller: a latch buffer of one page, and what
each command does with it to the page or the block it names. -/

structure FlashArray where
  contents : Contents
  latch : Contents

instance (fcr page : Nat) : Decidable (Names fcr page) :=
  inferInstanceAs (Decidable (if fcr % 2 ^ 8 = 0x07 then _ else _))

/-- Writing a page only clears bits; an erase sets them. -/
def commandEffect (fcr : Nat) (latch contents : Contents) : Contents := fun address =>
  if flashStart ≤ address ∧ Names fcr ((address - flashStart) / 512) then
    if fcr % 2 ^ 8 = 0x01 then contents address &&& latch (address % 512)
    else if fcr % 2 ^ 8 = 0x03 then latch (address % 512)
    else if fcr % 2 ^ 8 = 0x07 then 0xFF
    else contents address
  else contents address

/-- A store goes to its word of the latch; a command clears the latch. -/
def FlashArray.apply (flash : FlashArray) : FlashAction → FlashArray
  | .latch address value => { flash with
      latch := fun offset =>
        if offset / 4 = address % 512 / 4 then UInt8.ofNat (value >>> (8 * (offset % 4)))
        else flash.latch offset }
  | .command fcr => {
      contents := commandEffect fcr flash.latch flash.contents
      latch := fun _ => 0xFF }

def FlashArray.applyAll (flash : FlashArray) (accesses : List FlashAccess) : FlashArray :=
  accesses.foldl (fun flash access => flash.apply access.action) flash

def FlashArray.cleared (contents : Contents) : FlashArray := ⟨contents, fun _ => 0xFF⟩

def FlashAction.isCommand : FlashAction → Bool
  | .command _ => true
  | .latch .. => false

def commandCount (accesses : List FlashAccess) : Nat :=
  accesses.countP fun access => access.action.isCommand

/-- The hardware carries out all that is logged, and reports no error. -/
structure Obeys (engine : Engine) (initial : Contents) (hardware : Hardware)
    (accesses : List FlashAccess) : Prop where
  works : ∀ command, hardware.fails command = false
  contents : ∀ performed rest, accesses = performed ++ rest →
    hardware.contents (commandCount performed) =
      ((FlashArray.cleared initial).applyAll performed).contents
  digest : ∀ commands size index, index < 32 → hardware.digest commands size index =
    (hash256Generate engine (hardware.contents commands) kernelStart size)[index]?.getD 0

theorem Obeys.of_append {engine : Engine} {initial : Contents} {hardware : Hardware}
    {early late : List FlashAccess} (obeys : Obeys engine initial hardware (early ++ late)) :
    Obeys engine initial hardware early where
  works := obeys.works
  contents := fun performed rest split =>
    obeys.contents performed (rest ++ late) (by rw [split, List.append_assoc])
  digest := obeys.digest

/-- The log up to here leaves the latch clear, and counts the commands. -/
structure Synced (initial : Contents) (state : BootState) : Prop where
  commands : state.commands = commandCount state.accesses
  latch : ((FlashArray.cleared initial).applyAll state.accesses).latch = fun _ => 0xFF

/-- What the flash holds now. -/
def BootState.flash (state : BootState) : Contents := state.hardware.contents state.commands

theorem Synced.flash_eq {engine : Engine} {initial : Contents} {state : BootState}
    (synced : Synced initial state)
    (obeys : Obeys engine initial state.hardware state.accesses) :
    state.flash = ((FlashArray.cleared initial).applyAll state.accesses).contents := by
  rw [BootState.flash, synced.commands]
  exact obeys.contents state.accesses [] (List.append_nil _).symm

/-! ## A latched page -/

theorem word_byte (buffer : Page) (offset lane : Nat) (bound : lane < 4) :
    UInt8.ofNat (buffer.word offset >>> (8 * lane)) = buffer[offset + lane]?.getD 0 := by
  have first := (buffer[offset]?.getD 0).toNat_lt
  have second := (buffer[offset + 1]?.getD 0).toNat_lt
  have third := (buffer[offset + 2]?.getD 0).toNat_lt
  have fourth := (buffer[offset + 3]?.getD 0).toNat_lt
  apply UInt8.toNat_inj.mp
  rw [UInt8.toNat_ofNat', Nat.shiftRight_eq_div_pow, Page.word]
  have lanes : lane = 0 ∨ lane = 1 ∨ lane = 2 ∨ lane = 3 := by omega
  rcases lanes with rfl | rfl | rfl | rfl
  · change _ = (buffer[offset]?.getD 0).toNat
    omega
  · omega
  · omega
  · omega

/-- The latch while the first words of a page have been stored. -/
def partLatch (buffer : Page) (words : Nat) : Contents := fun offset =>
  if offset < 4 * words then buffer[offset]?.getD 0 else 0xFF

theorem latched_words (contents : Contents) (source : FlashSource) {address : Nat}
    (aligned : 512 ∣ address) (bound : address + 512 ≤ 2 ^ 32) (buffer : Page) :
    ∀ words, words ≤ 128 →
      (FlashArray.cleared contents).applyAll
          ((List.range words).map (latchStore source address buffer)) =
        ⟨contents, partLatch buffer words⟩
  | 0, _ => by
      rw [FlashArray.applyAll, List.range_zero, List.map_nil, List.foldl_nil]
      congr 1
  | words + 1, most => by
      have earlier := latched_words contents source aligned bound buffer words (by omega)
      rw [FlashArray.applyAll] at earlier
      rw [FlashArray.applyAll, List.range_succ, List.map_append, List.foldl_append, earlier,
        List.map_singleton, List.foldl_cons, List.foldl_nil]
      have position : u32 (address + 4 * words) % 512 / 4 = words := by
        rw [u32_of_lt (by omega)]
        omega
      simp only [latchStore, FlashArray.apply, position]
      congr 1
      funext offset
      by_cases here : offset / 4 = words
      · have place : 4 * words + offset % 4 = offset := by omega
        have inside : offset < 4 * (words + 1) := by omega
        rw [if_pos here, word_byte _ _ _ (Nat.mod_lt _ (by decide)), place, partLatch,
          if_pos inside]
      · rw [if_neg here, partLatch, partLatch]
        by_cases before : offset < 4 * words
        · rw [if_pos before, if_pos (by omega)]
        · rw [if_neg before, if_neg (by omega)]

/-- Storing a page and giving a command for it. -/
theorem applyAll_page (contents : Contents) (source : FlashSource) {address : Nat}
    (aligned : 512 ∣ address) (bound : address + 512 ≤ 2 ^ 32) (buffer : Page) (fcr : Nat) :
    (FlashArray.cleared contents).applyAll (latchStores source address buffer ++
        [{ source, action := .command fcr }]) =
      .cleared (commandEffect fcr (partLatch buffer 128) contents) := by
  have latched := latched_words contents source aligned bound buffer 128 (Nat.le_refl _)
  rw [FlashArray.applyAll] at latched
  rw [FlashArray.applyAll, List.foldl_append, latchStores, latched]
  rfl

theorem partLatch_full (buffer : Page) {offset : Nat} (bound : offset < 512) :
    partLatch buffer 128 offset = buffer[offset]?.getD 0 := if_pos bound

/-! ## What the commands of the driver do -/

/-- The flash with a page of the kernel area replaced. -/
def withPage (page : Nat) (buffer : Page) (contents : Contents) : Contents := fun address =>
  if kernelStart ≤ address ∧ (address - kernelStart) / 512 = page then
    buffer[address % 512]?.getD 0
  else contents address

def BlankPage (buffer : Page) : Prop := ∀ index < 512, buffer[index]?.getD 0 = 0xFF

/-- A page of the kernel area that is erased. -/
def ErasedPage (contents : Contents) (page : Nat) : Prop :=
  ∀ address, kernelStart ≤ address → (address - kernelStart) / 512 = page →
    contents address = 0xFF

theorem pageCommand_names {page : Nat} (bound : page + 32 < 2 ^ 32) (named : Nat) :
    Names (pageCommand page) named ↔ named = (page + 32) % 2 ^ 8 := by
  have mask : u32 (page + 32) &&& 0xFF = (page + 32) % 2 ^ 8 := by
    rw [show 0xFF = 2 ^ 8 - 1 by rfl, and_low_mask, u32_of_lt bound]
  rw [pageCommand, mask]
  exact names_write (by omega) (by decide) (by decide)

theorem pageCommand_code (page : Nat) : pageCommand page % 2 ^ 8 = 0x01 := by
  have argument : u32 (page + 32) &&& 0xFF < 2 ^ 16 := by
    rw [show 0xFF = 2 ^ 8 - 1 by rfl, and_low_mask]
    omega
  rw [pageCommand, command_word argument (by decide)]
  omega

/-- The page the command names, which is the right one up to page 223. -/
theorem commandEffect_page {page : Nat} (bound : page + 32 < 2 ^ 32) (latch contents : Contents)
    (address : Nat) :
    commandEffect (pageCommand page) latch contents address =
      if flashStart ≤ address ∧ (address - flashStart) / 512 = (page + 32) % 2 ^ 8 then
        contents address &&& latch (address % 512)
      else contents address := by
  rw [commandEffect, pageCommand_code]
  by_cases named : flashStart ≤ address ∧ (address - flashStart) / 512 = (page + 32) % 2 ^ 8
  · rw [if_pos named, if_pos ⟨named.1, (pageCommand_names bound _).mpr named.2⟩, if_pos rfl]
  · have other : ¬ (flashStart ≤ address ∧
        Names (pageCommand page) ((address - flashStart) / 512)) :=
      fun both => named ⟨both.1, (pageCommand_names bound _).mp both.2⟩
    rw [if_neg named, if_neg other]

theorem and_blank (byte : UInt8) : byte &&& 0xFF = byte := by
  apply UInt8.toNat_inj.mp
  rw [UInt8.toNat_and]
  exact (and_low_mask byte.toNat 8).trans (Nat.mod_eq_of_lt byte.toNat_lt)

theorem blank_and (byte : UInt8) : 0xFF &&& byte = byte := by
  rw [UInt8.and_comm, and_blank]

/-- An erased page takes what is written to it. -/
theorem write_low_page {page : Nat} (low : page < 224) (buffer : Page) {contents : Contents}
    (erased : ErasedPage contents page) :
    commandEffect (pageCommand page) (partLatch buffer 128) contents =
      withPage page buffer contents := by
  funext address
  rw [commandEffect_page (by omega), withPage]
  by_cases here : kernelStart ≤ address ∧ (address - kernelStart) / 512 = page
  · have named : flashStart ≤ address ∧ (address - flashStart) / 512 = (page + 32) % 2 ^ 8 := by
      simp only [kernelStart, flashStart] at *
      omega
    rw [if_pos here, if_pos named, erased address here.1 here.2, blank_and,
      partLatch_full _ (Nat.mod_lt _ (by decide))]
  · have other : ¬ (flashStart ≤ address ∧
        (address - flashStart) / 512 = (page + 32) % 2 ^ 8) := by
      simp only [kernelStart, flashStart] at *
      omega
    rw [if_neg here, if_neg other]

/-- A blank page changes nothing, wherever it goes. -/
theorem write_blank_page {page : Nat} (bound : page + 32 < 2 ^ 32) {buffer : Page}
    (blank : BlankPage buffer) (contents : Contents) :
    commandEffect (pageCommand page) (partLatch buffer 128) contents = contents := by
  funext address
  rw [commandEffect_page bound]
  split
  · have offset := Nat.mod_lt address (show 0 < 512 by decide)
    rw [partLatch_full _ offset, blank _ offset, and_blank]
  · rfl

/-- From page 224 on, another page is written. -/
theorem write_high_page {page : Nat} (high : 224 ≤ page) (bound : page + 32 < 2 ^ 32)
    (latch contents : Contents) {address : Nat} (inKernel : kernelStart ≤ address)
    (here : (address - kernelStart) / 512 = page) :
    commandEffect (pageCommand page) latch contents address = contents address := by
  rw [commandEffect_page bound, if_neg]
  intro named
  simp only [kernelStart, flashStart] at *
  omega

end Vanilla.Boot
