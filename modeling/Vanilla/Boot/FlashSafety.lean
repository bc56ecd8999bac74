import Vanilla.Foundation.Run
import Vanilla.Boot.Flash

namespace Vanilla.Boot

/-! Which flash pages the bootloader touches. The page number of a write goes
through eight bits of the command and thirty-two bits of the address, the page
number of an erase through sixteen bits of the command. -/

/-- The flash controller's reading of `FCR`: a sixteen-bit argument, and for
the erase-pages command a block of pages whose size the low bits choose. -/
def Names (fcr page : Nat) : Prop :=
  let argument := fcr / 2 ^ 8 % 2 ^ 16
  if fcr % 2 ^ 8 = 0x07 then
    page / (4 * 2 ^ (argument % 4)) = argument / (4 * 2 ^ (argument % 4))
  else page = argument

/-- Accesses stay in the kernel region; the erase-write of the hash page stays
in that page. -/
def FlashAccess.Safe (access : FlashAccess) : Prop :=
  match access.source, access.action with
  | .eraseWrite, .latch address _ =>
      flashStart + 512 * 30 ≤ address ∧ address < flashStart + 512 * 31
  | .eraseWrite, .command fcr => ∀ page, Names fcr page → page = 30
  | _, .latch address _ => kernelStart ≤ address
  | _, .command fcr => ∀ page, Names fcr page → 32 ≤ page

/-! ## Command words -/

theorem command_word {argument code : Nat} (argumentBound : argument < 2 ^ 16)
    (codeBound : code < 2 ^ 8) :
    commandKey ||| argument <<< 8 ||| code = 2 ^ 24 * 0x5A + 2 ^ 8 * argument + code := by
  have high : commandKey ||| argument <<< 8 = 2 ^ 8 * (2 ^ 16 * 0x5A + argument) := by
    rw [Nat.two_pow_add_eq_or_of_lt argumentBound, Nat.mul_comm, ← Nat.shiftLeft_eq,
      Nat.shiftLeft_or_distrib]
    rfl
  rw [high, ← Nat.two_pow_add_eq_or_of_lt codeBound]
  omega

theorem names_write {argument code page : Nat} (argumentBound : argument < 2 ^ 16)
    (codeBound : code < 2 ^ 8) (write : code ≠ 0x07) :
    Names (commandKey ||| argument <<< 8 ||| code) page ↔ page = argument := by
  rw [command_word argumentBound codeBound]
  have low : (2 ^ 24 * 0x5A + 2 ^ 8 * argument + code) % 2 ^ 8 = code := by omega
  have field : (2 ^ 24 * 0x5A + 2 ^ 8 * argument + code) / 2 ^ 8 % 2 ^ 16 = argument := by
    omega
  simp only [Names, low, field, if_neg write]

theorem names_erase {block page : Nat} (bound : block < 2 ^ 12) :
    Names (commandKey ||| (block * 16 + 2) <<< 8 ||| 0x07) page ↔ page / 16 = block := by
  rw [command_word (by omega) (by decide)]
  have low : (2 ^ 24 * 0x5A + 2 ^ 8 * (block * 16 + 2) + 0x07) % 2 ^ 8 = 0x07 := by omega
  have field : (2 ^ 24 * 0x5A + 2 ^ 8 * (block * 16 + 2) + 0x07) / 2 ^ 8 % 2 ^ 16 =
      block * 16 + 2 := by
    omega
  have choice : (block * 16 + 2) % 4 = 2 := by omega
  have index : (block * 16 + 2) / 16 = block := by omega
  simp only [Names, low, field, if_true, choice]
  rw [show 4 * 2 ^ 2 = 16 by rfl, index]

theorem eraseArgument_eq {block : Nat} (bound : 16 * block < 2 ^ 32) :
    eraseArgument (16 * block) = block % 2 ^ 12 * 16 + 2 := by
  have mask : sector16Mask = 2 ^ 32 - 2 ^ 4 := rfl
  have cleared : 16 * block &&& (2 ^ 32 - 2 ^ 4) = 16 * block / 2 ^ 4 * 2 ^ 4 :=
    and_high_mask 4 32 bound (by decide)
  have two : 2 < 2 ^ 4 := by decide
  have joined := Nat.two_pow_add_eq_or_of_lt two (block % 2 ^ 12)
  rw [eraseArgument, mask, cleared]
  rw [show 16 * block / 2 ^ 4 * 2 ^ 4 % 2 ^ 16 = 2 ^ 4 * (block % 2 ^ 12) by omega, ← joined]
  omega

/-! ## A page write -/

/-- The kernel page numbers whose write stays in the kernel region: neither the
eight bits of the command nor the thirty-two bits of the address wrap into the
bootloader. -/
def PageInside (page : Nat) : Prop :=
  page % 2 ^ 8 < 224 ∧ page % 2 ^ 23 < 2 ^ 23 - 8224

def pageCommand (page : Nat) : Nat := commandKey ||| (u32 (page + 32) &&& 0xFF) <<< 8 ||| 0x01

def pageAccesses (page : Nat) (buffer : Page) : List FlashAccess :=
  latchStores .writeImagePage (u32 (kernelStart + u32 (page * 512))) buffer ++
    [{ source := .writeImagePage, action := .command (pageCommand page) }]

theorem latchStores_all (source : FlashSource) (address : Nat) (buffer : Page)
    (Holds : FlashAccess → Prop) :
    (∀ access ∈ latchStores source address buffer, Holds access) ↔
      ∀ index, index < 128 → Holds (latchStore source address buffer index) := by
  simp [latchStores]

theorem kernelAddress_inside (page : Nat) :
    (∀ index, index < 128 →
      kernelStart ≤ u32 (u32 (kernelStart + u32 (page * 512)) + 4 * index)) ↔
      page % 2 ^ 23 < 2 ^ 23 - 8224 := by
  have offset : page * 512 % 2 ^ 32 = page % 2 ^ 23 * 512 := by
    rw [show 2 ^ 32 = 2 ^ 23 * 512 by rfl]
    exact Nat.mul_mod_mul_right ..
  have low := Nat.mod_lt page (show 0 < 2 ^ 23 by decide)
  simp only [u32, offset]
  simp only [kernelStart]
  constructor
  · intro inside
    have first := inside 0 (by decide)
    omega
  · intro bound index indexBound
    omega

theorem pageCommand_inside (page : Nat) :
    (∀ named, Names (pageCommand page) named → 32 ≤ named) ↔ page % 2 ^ 8 < 224 := by
  have mask : u32 (page + 32) &&& 0xFF = (page + 32) % 2 ^ 8 := by
    rw [show 0xFF = 2 ^ 8 - 1 by rfl, and_low_mask, u32]
    omega
  have names : ∀ named, Names (pageCommand page) named ↔ named = (page + 32) % 2 ^ 8 := by
    intro named
    rw [pageCommand, mask]
    exact names_write (by omega) (by decide) (by decide)
  simp only [names, forall_eq]
  omega

theorem pageAccesses_safe (page : Nat) (buffer : Page) :
    (∀ access ∈ pageAccesses page buffer, access.Safe) ↔ PageInside page := by
  rw [pageAccesses, List.forall_mem_append, latchStores_all, List.forall_mem_singleton]
  simp only [FlashAccess.Safe, latchStore]
  rw [kernelAddress_inside, pageCommand_inside]
  exact and_comm

/-! ## Running the driver -/

/-- The state a computation ends in, whether it returns or panics. -/
def outcome {Value : Type} (code : Exec BootState Value) (state : BootState) : BootState :=
  match code.run state with
  | .ok _ after => after
  | .error _ after => after

theorem outcome_bind_of_ok {Middle Value : Type} {first : Exec BootState Middle}
    {second : Middle → Exec BootState Value} {state between : BootState} {middle : Middle}
    (returns : first.run state = .ok middle between) :
    outcome (first >>= second) state = outcome (second middle) between := by
  rw [outcome, Exec.run_bind_of_ok returns]
  rfl

theorem run_flashMatches (address : Nat) (buffer : Page) (state : BootState) :
    ∃ equal, (flashMatches address buffer).run state = .ok equal state :=
  ⟨_, rfl⟩

def afterLatch (source : FlashSource) (address : Nat) (buffer : Page) (state : BootState) :
    BootState :=
  { state with accesses := state.accesses ++ latchStores source address buffer }

theorem run_latchPage (source : FlashSource) (address : Nat) (buffer : Page)
    (state : BootState) :
    (latchPage source address buffer).run state =
      .ok () (afterLatch source address buffer state) := rfl

def afterIssue (source : FlashSource) (fcr : Nat) (state : BootState) : BootState :=
  { state with
    accesses := state.accesses ++ [{ source, action := .command fcr }]
    commands := state.commands + 1 }

theorem run_issue (source : FlashSource) (fcr : Nat) (state : BootState) :
    (issue source fcr).run state =
      .ok (!state.hardware.fails state.commands) (afterIssue source fcr state) := rfl

/-- A command, then a comparison that is skipped when the command failed. -/
theorem run_issue_compare (source : FlashSource) (fcr address : Nat) (buffer : Page)
    (state : BootState) :
    ∃ done, (issue source fcr >>= fun finished =>
        if finished then flashMatches address buffer else pure false).run state =
      .ok done (afterIssue source fcr state) := by
  rw [Exec.run_bind_of_ok (run_issue ..)]
  cases state.hardware.fails state.commands with
  | true => exact ⟨false, rfl⟩
  | false => exact run_flashMatches ..

theorem flashWriteImagePage_spec (page : Nat) (buffer : Page) (state : BootState) :
    ∃ written after, (flashWriteImagePage page buffer).run state = .ok written after ∧
      after.accesses = state.accesses ++ pageAccesses page buffer := by
  let latched := afterLatch .writeImagePage (u32 (kernelStart + u32 (page * 512))) buffer state
  rcases run_issue_compare .writeImagePage (pageCommand page)
    (u32 (kernelStart + u32 (page * 512))) buffer latched with ⟨done, issued⟩
  refine ⟨done, afterIssue .writeImagePage (pageCommand page) latched, ?_,
    List.append_assoc ..⟩
  rw [flashWriteImagePage, Exec.run_bind_of_ok (run_latchPage ..)]
  exact issued

/-- Returning or panicking, a page write has sent the page's accesses. -/
theorem writeKernelPage_spec (data : Page) (size page : Nat) (state : BootState) :
    ∃ buffer after, after.accesses = state.accesses ++ pageAccesses page buffer ∧
      ((writeKernelPage data size page).run state = .ok true after ∨
        ∃ reason, (writeKernelPage data size page).run state = .error reason after) := by
  let buffer := paddedPage size fun index => data[index]?.getD 0
  let copied : BootState := { state with flashBuffer := buffer }
  rcases flashWriteImagePage_spec page buffer copied with ⟨written, after, write, log⟩
  refine ⟨buffer, after, log, ?_⟩
  have filled : EStateM.run (modify fun state => { state with flashBuffer := buffer } :
      Exec BootState Unit) state = .ok () copied := rfl
  rw [writeKernelPage, Exec.run_bind_of_ok filled, Exec.run_bind_of_ok write]
  cases written with
  | false => exact .inr ⟨_, rfl⟩
  | true =>
      rcases run_flashMatches (u32 (kernelStart + u32 (512 * page))) buffer after with
        ⟨equal, compared⟩
      simp only [if_true]
      rw [Exec.run_bind_of_ok compared]
      cases equal with
      | true => exact .inl rfl
      | false => exact .inr ⟨_, rfl⟩

/-! ## An image erase -/

/-- Every sector the erase loop reaches, from sector `index` on, lies past the
bootloader: a command that reports an error ends the loop. -/
def ErasesInside (fails : Nat → Bool) (commands index count : Nat) : Prop :=
  ∀ step, step < count → (∀ earlier, earlier < step → fails (commands + earlier) = false) →
    2 ≤ (2 + index + step) % 2 ^ 12

theorem eraseCommand_inside {index : Nat} (bound : index < 2 ^ 19) :
    (∀ named, Names (commandKey ||| eraseArgument (32 + 16 * index) <<< 8 ||| 0x07) named →
      32 ≤ named) ↔ 2 ≤ (2 + index) % 2 ^ 12 := by
  have small : 16 * (2 + index) < 2 ^ 32 := by omega
  have argument := eraseArgument_eq small
  rw [show 16 * (2 + index) = 32 + 16 * index by omega] at argument
  rw [argument]
  have names : ∀ page, Names (commandKey ||| ((2 + index) % 2 ^ 12 * 16 + 2) <<< 8 ||| 0x07)
      page ↔ page / 16 = (2 + index) % 2 ^ 12 :=
    fun _ => names_erase (Nat.mod_lt _ (by decide))
  simp only [names]
  constructor
  · intro inside
    have first := inside (16 * ((2 + index) % 2 ^ 12)) (by omega)
    omega
  · intro inside page block
    omega

theorem eraseSectors_spec :
    ∀ (count index : Nat) (state : BootState), index + count ≤ 2 ^ 19 →
      ∃ erased after new,
        (eraseSectors (32 + 16 * index) count).run state = .ok erased after ∧
        after.accesses = state.accesses ++ new ∧
        ((∀ access ∈ new, access.Safe) ↔
          ErasesInside state.hardware.fails state.commands index count)
  | 0, index, state, _ => by
      refine ⟨true, state, [], rfl, by simp, ?_⟩
      simp [ErasesInside]
  | count + 1, index, state, bound => by
      let fcr := commandKey ||| eraseArgument (32 + 16 * index) <<< 8 ||| 0x07
      have reached : index < 2 ^ 19 := by omega
      have safe : FlashAccess.Safe { source := .eraseImage, action := .command fcr } ↔
          2 ≤ (2 + index) % 2 ^ 12 := eraseCommand_inside reached
      rw [eraseSectors, Exec.run_bind_of_ok (run_issue ..)]
      cases failed : state.hardware.fails state.commands with
      | true =>
          refine ⟨false, _, [{ source := .eraseImage, action := .command fcr }], rfl, rfl, ?_⟩
          rw [List.forall_mem_singleton, safe]
          constructor
          · intro first step stepBound earlier
            cases step with
            | zero => exact first
            | succ step =>
                have fine := earlier 0 (Nat.succ_pos step)
                rw [Nat.add_zero, failed] at fine
                cases fine
          · intro all
            exact all 0 (Nat.succ_pos count) (by simp)
      | false =>
          have next : u32 (32 + 16 * index + 16) = 32 + 16 * (index + 1) := by
            rw [u32_of_lt (by omega)]
            omega
          rcases eraseSectors_spec count (index + 1) (afterIssue .eraseImage fcr state)
            (by omega) with ⟨erased, after, new, rest, log, restSafe⟩
          refine ⟨erased, after, { source := .eraseImage, action := .command fcr } :: new,
            ?_, ?_, ?_⟩
          · simp only [Bool.not_false, if_true, next]
            exact rest
          · rw [log]
            exact List.append_assoc ..
          · rw [List.forall_mem_cons, safe, restSafe]
            constructor
            · intro both step stepBound earlier
              cases step with
              | zero => exact both.1
              | succ step =>
                  have later := both.2 step (by omega) fun before beforeBound => by
                    have fine := earlier (before + 1) (by omega)
                    rw [← Nat.add_assoc, Nat.add_right_comm] at fine
                    exact fine
                  rw [show 2 + index + (step + 1) = 2 + (index + 1) + step by omega]
                  exact later
            · intro all
              refine ⟨all 0 (Nat.succ_pos count) (by simp), ?_⟩
              intro step stepBound earlier
              rw [show 2 + (index + 1) + step = 2 + index + (step + 1) by omega]
              apply all (step + 1) (by omega)
              intro before beforeBound
              cases before with
              | zero => exact failed
              | succ before =>
                  have fine := earlier before (by omega)
                  rw [show state.commands + (before + 1) = state.commands + 1 + before by omega]
                  exact fine

/-- An erase stays outside the bootloader when it asks for at most 4094 blocks of
8 KiB, or when the controller refuses one of the first 4094. -/
def EraseInside (fails : Nat → Bool) (commands size : Nat) : Prop :=
  size ≤ 4094 * 8192 ∨ ∃ step, step < 4094 ∧ fails (commands + step) = true

theorem sect8k_le_iff (size : Nat) : sect8k size ≤ 4094 ↔ size ≤ 4094 * 8192 := by
  simp only [sect8k]
  split <;> split <;> omega

theorem sect8k_bound {size : Nat} (bound : size < 2 ^ 32) : sect8k size ≤ 2 ^ 19 := by
  simp only [sect8k]
  split <;> split <;> omega

theorem erasesInside_iff (fails : Nat → Bool) (commands size : Nat) :
    ErasesInside fails commands 0 (sect8k size) ↔ EraseInside fails commands size := by
  rw [EraseInside, ← sect8k_le_iff]
  constructor
  · intro inside
    by_contra outside
    rw [not_or, not_exists, Nat.not_le] at outside
    have wrapped := inside 4094 outside.1 fun earlier bound => by
      have refused := outside.2 earlier
      simpa [bound] using refused
    omega
  · intro inside step stepBound earlier
    cases inside with
    | inl small => omega
    | inr refused =>
        rcases refused with ⟨index, indexBound, fails⟩
        have reached : step ≤ index := by
          by_contra late
          rw [earlier index (Nat.lt_of_not_le late)] at fails
          cases fails
        omega

/-! ## The commands -/

theorem Page.word_lt (page : Page) (offset : Nat) : page.word offset < 2 ^ 32 := by
  have first := (page[offset]?.getD 0).toNat_lt
  have second := (page[offset + 1]?.getD 0).toNat_lt
  have third := (page[offset + 2]?.getD 0).toNat_lt
  have fourth := (page[offset + 3]?.getD 0).toNat_lt
  simp only [Page.word]
  omega

/-- `code` sends accesses, all safe exactly when `Inside` holds. -/
def SafeExactly {Value : Type} (code : Exec BootState Value) (state : BootState)
    (Inside : Prop) : Prop :=
  ∃ new, (outcome code state).accesses = state.accesses ++ new ∧
    ((∀ access ∈ new, access.Safe) ↔ Inside)

theorem eraseFlash_safe (frame : Frame) (state : BootState) :
    SafeExactly (eraseFlash frame) state
      (EraseInside state.hardware.fails state.commands (frame.payload.word 0)) := by
  have bound := sect8k_bound (frame.payload.word_lt 0)
  rcases eraseSectors_spec (sect8k (frame.payload.word 0)) 0 state (by omega) with
    ⟨erased, after, new, returns, log, safe⟩
  rw [erasesInside_iff] at safe
  refine ⟨new, ?_, safe⟩
  have image : (flashEraseImage (frame.payload.word 0)).run state =
      .ok (if erased then u32 (sect8k (frame.payload.word 0) * 8192) else 0) after := by
    rw [flashEraseImage, Exec.run_bind_of_ok returns]
    cases erased <;> rfl
  have kernel : ∃ status final, (eraseKernelImage frame.payload).run state =
      .ok status final ∧ final.accesses = after.accesses := by
    rw [eraseKernelImage, Exec.run_bind_of_ok image]
    generalize (if erased then u32 (sect8k (frame.payload.word 0) * 8192) else 0) = total
    by_cases none : total = 0
    · refine ⟨false, after, ?_, rfl⟩
      rw [if_neg (not_not.mpr none)]
      rfl
    · refine ⟨true, { after with kernelTotalSize := total }, ?_, rfl⟩
      rw [if_pos none]
      rfl
  rcases kernel with ⟨status, final, ran, kept⟩
  rw [eraseFlash, outcome_bind_of_ok ran, ← log, ← kept]
  cases status <;> rfl

theorem writePage_safe (frame : Frame) (state : BootState) :
    SafeExactly (writePage frame) state (PageInside state.kernelPage) := by
  let counted : BootState := { state with kernelPage := u32 (state.kernelPage + 1) }
  rcases writeKernelPage_spec frame.payload frame.size state.kernelPage counted with
    ⟨buffer, after, log, ran⟩
  refine ⟨_, ?_, pageAccesses_safe state.kernelPage buffer⟩
  have moved : (writePage frame).run state =
      (writeKernelPage frame.payload frame.size state.kernelPage >>= fun status =>
        if status then sendResponse respOk else sendResponse respFlashError).run counted := rfl
  rw [outcome, moved]
  cases ran with
  | inl returns =>
      rw [Exec.run_bind_of_ok returns]
      exact log
  | inr panics =>
      rcases panics with ⟨reason, panics⟩
      rw [Exec.run_bind_of_error panics]
      exact log

theorem hashAddress (index : Nat) (bound : index < 128) :
    u32 (u32 (flashStart + u32 (512 * 30)) + 4 * index) = flashStart + 512 * 30 + 4 * index := by
  simp only [u32, flashStart]
  omega

theorem storeKernelHash_spec (state : BootState) :
    ∃ stored after new, storeKernelHash.run state = .ok stored after ∧
      after.accesses = state.accesses ++ new ∧ ∀ access ∈ new, access.Safe := by
  let buffer := paddedPage 36 (hashByte
    (state.hardware.digest state.commands state.kernelTotalSize) state.kernelTotalSize)
  let latched := afterLatch .eraseWrite (u32 (flashStart + u32 (512 * 30))) buffer
    { state with flashBuffer := buffer }
  let fcr := commandKey ||| (30 &&& 0xFFFF) <<< 8 ||| 0x3
  rcases run_issue_compare .eraseWrite fcr (u32 (flashStart + u32 (512 * 30))) buffer latched
    with ⟨done, issued⟩
  have written : (flashEraseWrite 30 buffer).run { state with flashBuffer := buffer } =
      .ok done (afterIssue .eraseWrite fcr latched) := by
    rw [flashEraseWrite, if_neg (by decide), Exec.run_bind_of_ok (run_latchPage ..)]
    exact issued
  have stored : ∃ stored, storeKernelHash.run state =
      .ok stored (afterIssue .eraseWrite fcr latched) := by
    have start : storeKernelHash.run state = (flashEraseWrite 30 buffer >>= fun flashStatus =>
        if flashStatus then flashMatches (u32 (flashStart + 512 * 30)) buffer
        else pure false).run { state with flashBuffer := buffer } := rfl
    rw [start, Exec.run_bind_of_ok written]
    cases done with
    | true => exact run_flashMatches ..
    | false => exact ⟨false, rfl⟩
  rcases stored with ⟨stored, returns⟩
  have log : (afterIssue .eraseWrite fcr latched).accesses = state.accesses ++
      (latchStores .eraseWrite (u32 (flashStart + u32 (512 * 30))) buffer ++
        [{ source := .eraseWrite, action := .command fcr }]) := List.append_assoc ..
  refine ⟨stored, _, _, returns, log, ?_⟩
  rw [List.forall_mem_append, latchStores_all, List.forall_mem_singleton]
  constructor
  · intro index bound
    simp only [FlashAccess.Safe, latchStore, hashAddress index bound]
    omega
  · intro page named
    exact (names_write (by decide) (by decide) (by decide)).mp named

theorem finishDownload_safe (state : BootState) :
    SafeExactly finishDownload state True := by
  let answered : BootState := { state with responses := state.responses ++ [respOk] }
  rcases storeKernelHash_spec answered with ⟨stored, after, new, returns, log, safe⟩
  refine ⟨new, ?_, by simpa using safe⟩
  have start : outcome finishDownload state = outcome (storeKernelHash >>= fun stored =>
      if stored then chipReset else Exec.panic "Cannot store the hash digest") answered := rfl
  rw [start, outcome_bind_of_ok returns]
  cases stored <;> exact log

theorem run_writePageLast_bind (frame : Frame) (state : BootState) :
    (writePageLast frame).run state =
      (writeKernelPage frame.payload frame.size state.kernelPage >>= fun status =>
        if status then finishDownload
        else do
          sendResponse respFlashError
          finishDownload).run state := by
  rw [writePageLast]
  exact Exec.run_bind_of_ok (EStateM.run_get state)

theorem writePageLast_safe (frame : Frame) (state : BootState) :
    SafeExactly (writePageLast frame) state (PageInside state.kernelPage) := by
  rcases writeKernelPage_spec frame.payload frame.size state.kernelPage state with
    ⟨buffer, after, log, ran⟩
  have inside := pageAccesses_safe state.kernelPage buffer
  cases ran with
  | inl returns =>
      rcases finishDownload_safe after with ⟨new, late, safe⟩
      refine ⟨pageAccesses state.kernelPage buffer ++ new, ?_, ?_⟩
      · rw [outcome, run_writePageLast_bind, Exec.run_bind_of_ok returns, ← List.append_assoc, ← log]
        exact late
      · rw [List.forall_mem_append, inside, safe, and_true]
  | inr panics =>
      rcases panics with ⟨reason, panics⟩
      refine ⟨_, ?_, inside⟩
      rw [outcome, run_writePageLast_bind, Exec.run_bind_of_error panics]
      exact log

theorem quiet_safe {code : Exec BootState Unit} {state : BootState}
    (quiet : (outcome code state).accesses = state.accesses) : SafeExactly code state True :=
  ⟨[], by rw [quiet, List.append_nil], by simp⟩

/-- The frames the bootloader serves without touching its own flash. -/
def Meets (state : BootState) (frame : Frame) : Prop :=
  (frame.cmd = 0x03 →
    EraseInside state.hardware.fails state.commands (frame.payload.word 0)) ∧
  (frame.cmd = 0x04 ∨ frame.cmd = 0x05 → PageInside state.kernelPage)

theorem SafeExactly.congr {Value : Type} {code : Exec BootState Value} {state : BootState}
    {Inside Other : Prop} (exactly : SafeExactly code state Inside) (same : Inside ↔ Other) :
    SafeExactly code state Other := by
  rcases exactly with ⟨new, log, safe⟩
  exact ⟨new, log, safe.trans same⟩

theorem execute_safe (frame : Frame) (state : BootState) :
    SafeExactly (execute frame) state (Meets state frame) := by
  by_cases erase : frame.cmd = 0x03
  · rw [execute, if_pos erase]
    exact (eraseFlash_safe frame state).congr (by simp [Meets, erase])
  rw [execute, if_neg erase]
  by_cases page : frame.cmd = 0x04
  · rw [if_pos page]
    exact (writePage_safe frame state).congr (by simp [Meets, page])
  rw [if_neg page]
  by_cases last : frame.cmd = 0x05
  · rw [if_pos last]
    exact (writePageLast_safe frame state).congr (by simp [Meets, last])
  have free : True ↔ Meets state frame := by simp [Meets, erase, page, last]
  rw [if_neg last]
  refine SafeExactly.congr (quiet_safe ?_) free
  by_cases offset : frame.cmd = 0x06
  · rw [if_pos offset]
    rfl
  rw [if_neg offset]
  by_cases led : frame.cmd = 0x07
  · rw [if_pos led]
    rfl
  · rw [if_neg led]
    rfl

/-! ## Runs of frames -/

def ServeStep (before : BootState) (frame : Frame) (after : BootState) : Prop :=
  (execute frame).run before = .ok () after

def GuardedStep (before : BootState) (frame : Frame) (after : BootState) : Prop :=
  Meets before frame ∧ ServeStep before frame after

def Protected (state : BootState) : Prop := ∀ access ∈ state.accesses, access.Safe

theorem Protected.execute {state : BootState} (safe : Protected state) (frame : Frame) :
    Protected (outcome (execute frame) state) ↔ Meets state frame := by
  rcases execute_safe frame state with ⟨new, log, exactly⟩
  rw [Protected, log, List.forall_mem_append, exactly]
  exact and_iff_right safe

theorem ServeStep.outcome_eq {before after : BootState} {frame : Frame}
    (step : ServeStep before frame after) : outcome (execute frame) before = after := by
  rw [outcome, step]

theorem Protected.run {start last : BootState} {frames : List Frame}
    (run : Run GuardedStep start frames last) (safe : Protected start) : Protected last := by
  apply run.invariant Protected _ safe
  intro before frame after safe step
  rw [← step.2.outcome_eq]
  exact (safe.execute frame).mpr step.1

/-- In a run whose frames all meet the condition the bootloader's flash is never
touched, and the next frame touches it, before it returns or panics, exactly
when that frame does not meet it. -/
theorem bootloader_protected {start last : BootState} {frames : List Frame}
    (fresh : start.accesses = []) (run : Run GuardedStep start frames last) :
    Protected last ∧
      ∀ frame, Protected (outcome (execute frame) last) ↔ Meets last frame := by
  have safe : Protected last := by
    apply Protected.run run
    rw [Protected, fresh]
    simp
  exact ⟨safe, fun frame => safe.execute frame⟩

/-! ## Offset 224 -/

def poweredOn : BootState where
  hardware := { contents := fun _ _ => 0xFF, fails := fun _ => false, digest := fun _ _ _ => 0 }
  commands := 0
  accesses := []
  kernelTotalSize := 0
  kernelPage := 0
  flashBuffer := .replicate 512 0
  led := false
  responses := []
  resets := 0

def offsetFrame : Frame where
  cmd := 0x06
  size := 4
  payload := paddedPage 4 fun index => if index = 0 then 224 else 0
  fcs := 0x13

def pageFrame : Frame where
  cmd := 0x04
  size := 1
  payload := paddedPage 1 fun _ => 0
  fcs := 0x31

theorem bootloader_protected_powered_on :
    Protected poweredOn ∧
      ∀ frame, Protected (outcome (execute frame) poweredOn) ↔ Meets poweredOn frame :=
  bootloader_protected rfl (.nil poweredOn)

theorem paddedPage_getElem (size : Nat) (data : Nat → UInt8) {index : Nat}
    (bound : index < 512) :
    (paddedPage size data)[index]?.getD 0 = if index < size then data index else 0xFF := by
  simp [paddedPage, bound]

theorem offsetFrame_word : offsetFrame.payload.word 0 = 224 := by
  simp only [Page.word, offsetFrame]
  rw [paddedPage_getElem _ _ (by decide), paddedPage_getElem _ _ (by decide),
    paddedPage_getElem _ _ (by decide), paddedPage_getElem _ _ (by decide)]
  rfl

/-- A host that sets the offset 224 and writes a page programs page 0. -/
theorem offset_224_programs_bootloader :
    ∃ last, Run ServeStep poweredOn [offsetFrame] last ∧
      ¬ Protected (outcome (execute pageFrame) last) := by
  let last : BootState :=
    { poweredOn with kernelPage := offsetFrame.payload.word 0, responses := [respOk] }
  have step : ServeStep poweredOn offsetFrame last := rfl
  refine ⟨last, .cons step (.nil last), ?_⟩
  have safe : Protected last := fun access member => nomatch member
  intro inside
  have page := (((safe.execute pageFrame).mp inside).2 (.inl rfl)).1
  rw [show last.kernelPage = 224 from offsetFrame_word] at page
  exact absurd page (by decide)

end Vanilla.Boot
