import Vanilla.Boot.FlashRun

namespace Vanilla.Boot

/-! A download over a channel without faults. -/

variable {engine : Engine} {initial : Contents} {state : BootState}

theorem accepted_faultless : ∀ (sent : List (UInt8 × List UInt8)) (index : Nat),
    accepted faultless index sent = sent
  | [], _ => rfl
  | sent :: rest, index => congrArg (sent :: ·) (accepted_faultless rest (index + 1))

theorem blocks_eq {image : List UInt8} {count : Nat}
    (number : numberOfBlock image.length = count + 1) :
    blocks image = (List.range' 0 count).map (pageSent image) ++ [lastSent image count] := by
  rw [blocks, number, List.range_succ, List.map_append, List.range_eq_range']
  congr 1
  · apply List.map_congr_left
    intro index member
    have inside := List.mem_range'_1.mp member
    rw [blockCmd, number, if_neg (by omega), pageSent]
  · rw [List.map_singleton, blockCmd, number, if_pos rfl, lastSent]

/-- The download returns, the kernel area is the image followed by `0xFF` up to
the erased length, and the bootloader accepts it after the reset. -/
structure Downloaded (engine : Engine) (image : List UInt8) (after : BootState) : Prop where
  region : ∀ index < 8192 * sect8k image.length,
    after.flash (kernelStart + index) = image[index]?.getD 0xFF
  verifies : verifyKernelHash engine after.flash = true

def DownloadsCorrectly (engine : Engine) (receiver : Receiver) (image : List UInt8)
    (state : BootState) : Prop :=
  ∃ after, (loadKernel faultless receiver image).run state = .ok () after ∧
    Downloaded engine image after

theorem programmed_image (image : List UInt8) (contents : Contents) {index : Nat}
    (inside : index < 8192 * sect8k image.length) :
    programmed image.length ((List.range' 0 (numberOfBlock image.length)).map (imagePage image))
      contents (kernelStart + index) = image[index]?.getD 0xFF := by
  have offset : kernelStart + index - kernelStart = index := Nat.add_sub_cancel_left ..
  rw [programmed, withPages_image, offset]
  by_cases page : kernelStart ≤ kernelStart + index ∧ 0 ≤ index / 512 ∧
      index / 512 < 0 + numberOfBlock image.length
  · rw [if_pos page]
  · have absent : image.length ≤ index := by
      rw [numberOfBlock] at page
      omega
    rw [if_neg page, withErased, offset, if_pos (by omega), List.getElem?_eq_none absent]
    rfl

/-- A download is correct exactly when nothing but `0xFF` is behind the first
224 pages: the driver keeps eight bits of the page number in the command. -/
theorem downloads_correctly_iff (receiver : Receiver) (image : List UInt8)
    (ready : Ready receiver) (positive : 0 < image.length) (bound : image.length ≤ 0x1FC000)
    (synced : Synced initial state)
    (obeys : Obeys engine initial state.hardware
      (outcome (loadKernel faultless receiver image) state).accesses) :
    DownloadsCorrectly engine receiver image state ↔ BlankBehind image := by
  have number : numberOfBlock image.length = numberOfBlock image.length - 1 + 1 := by
    rw [numberOfBlock]
    omega
  generalize numberOfBlock image.length - 1 = count at number
  have through : accepted faultless 2 (blocks image) =
      (List.range' 0 count).map (pageSent image) ++ [lastSent image count] := by
    rw [accepted_faultless, blocks_eq number]
  have pages : (List.range' 0 count).map (imagePage image) ++ [imagePage image count] =
      (List.range' 0 (numberOfBlock image.length)).map (imagePage image) := by
    rw [number, List.range'_concat, List.map_append, Nat.mul_comm, Nat.mul_one, Nat.zero_add]
    rfl
  have ends := loadKernel_completes rfl ready positive bound through
    (by rw [List.length_range', number]; omega) synced rfl obeys
  have fits : PagesFit 0 ((List.range' 0 (numberOfBlock image.length)).map (imagePage image)) ↔
      BlankBehind image := by
    rw [pagesFit_range, blankBehind_iff, Nat.zero_add]
    exact ⟨fun all page high => all page (Nat.zero_le _) high, fun all page _ high => all page high⟩
  rw [pages, fits] at ends
  constructor
  · intro correct
    rcases correct with ⟨after, ran, _⟩
    by_contra misfits
    rcases ends.2 misfits with ⟨other, panics⟩
    rw [ran] at panics
    cases panics
  · intro blank
    rcases ends.1 blank with ⟨after, ran, completed⟩
    refine ⟨after, ran, ?_, completed.verifies⟩
    intro index inside
    rw [completed.kernel _ (Nat.le_add_right _ _)]
    exact programmed_image image _ inside

theorem initial_ready : Ready .initial := ⟨rfl, rfl⟩

/-- One byte that is not blank. -/
def byteImage : List UInt8 := [0x01]

theorem byteImage_through :
    accepted faultless 2 (blocks byteImage) =
      ([] : List Nat).map (pageSent byteImage) ++ [lastSent byteImage 0] := by
  have number : numberOfBlock byteImage.length = 0 + 1 := by decide
  rw [accepted_faultless, blocks_eq number]
  rfl

def byteBoard : BootState :=
  boardWith (fun _ => 0) (downloadLog byteImage.length
    (([] : List Nat).map (imagePage byteImage) ++ [imagePage byteImage 0]))

theorem byteBoard_obeys : Obeys zeroEngine (fun _ => 0) byteBoard.hardware
    (outcome (loadKernel faultless .initial byteImage) byteBoard).accesses :=
  boardWith_obeys rfl initial_ready (by decide) (by decide) byteImage_through (by decide) _ rfl

theorem downloads_correctly_iff_byte :
    DownloadsCorrectly zeroEngine .initial byteImage byteBoard ↔ BlankBehind byteImage :=
  downloads_correctly_iff .initial byteImage initial_ready (by decide) (by decide)
    (boardWith_synced _ _) byteBoard_obeys

/-- 224 pages of zeros and one byte more. -/
def longImage : List UInt8 := .replicate 114689 0

theorem longImage_blocks : numberOfBlock longImage.length = 224 + 1 := by
  rw [longImage, List.length_replicate]
  decide

theorem longImage_through :
    accepted faultless 2 (blocks longImage) =
      (List.range' 0 224).map (pageSent longImage) ++ [lastSent longImage 224] := by
  rw [accepted_faultless, blocks_eq longImage_blocks]

def longBoard : BootState :=
  boardWith (fun _ => 0) (downloadLog longImage.length
    ((List.range' 0 224).map (imagePage longImage) ++ [imagePage longImage 224]))

/-- The flash carries out every command, and the bootloader still panics. -/
theorem page_224_panics :
    0 < longImage.length ∧ longImage.length ≤ 0x1FC000 ∧
      Obeys zeroEngine (fun _ => 0) longBoard.hardware
        (outcome (loadKernel faultless .initial longImage) longBoard).accesses ∧
      (∃ after, (loadKernel faultless .initial longImage).run longBoard =
        .error (.panic "Flash write failed") after) ∧
      ¬ DownloadsCorrectly zeroEngine .initial longImage longBoard := by
  have length : longImage.length = 114689 := List.length_replicate
  have positive : 0 < longImage.length := by omega
  have bound : longImage.length ≤ 0x1FC000 := by omega
  have few : (List.range' 0 224).length < numberOfBlock longImage.length := by
    rw [List.length_range', longImage_blocks]
    decide
  have obeys :=
    boardWith_obeys rfl initial_ready positive bound longImage_through few (fun _ => 0) rfl
  have misfits : ¬ PagesFit 0
      ((List.range' 0 224).map (imagePage longImage) ++ [imagePage longImage 224]) := by
    intro fits
    have last := ((pagesFit_concat _ _ _).mp fits).2
    rw [List.length_map, List.length_range', Nat.zero_add] at last
    cases last with
    | inl low => exact absurd low (by decide)
    | inr blank =>
        have byte := blank 0 (by decide)
        rw [imagePage_byte _ _ (by decide), longImage, List.getElem?_replicate,
          if_pos (by decide), Option.getD_some] at byte
        exact absurd byte (by decide)
  have panics := (loadKernel_completes rfl initial_ready positive bound longImage_through few
    (boardWith_synced _ _) rfl obeys).2 misfits
  refine ⟨positive, bound, obeys, panics, ?_⟩
  intro correct
  rcases correct with ⟨after, ran, _⟩
  rcases panics with ⟨other, panics⟩
  rw [longBoard] at ran
  rw [ran] at panics
  cases panics

end Vanilla.Boot
