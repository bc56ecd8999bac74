import Vanilla.Boot.DownloadImage

namespace Vanilla.Boot

/-! A flash that carries out what it is told. The commands of a download do not
depend on the flash as long as the download goes on, so there is one. -/

variable {engine : Engine} {initial : Contents} {state : BootState}

/-! ## A flash for a log -/

/-- The contents after so many commands of a log. -/
def contentsAfter : List FlashAccess → Nat → FlashArray → Contents
  | [], _, flash => flash.contents
  | access :: rest, count, flash =>
      match access.action, count with
      | .latch .., count => contentsAfter rest count (flash.apply access.action)
      | .command _, 0 => flash.contents
      | .command _, count + 1 => contentsAfter rest count (flash.apply access.action)

theorem contentsAfter_zero : ∀ (log : List FlashAccess) (flash : FlashArray),
    contentsAfter log 0 flash = flash.contents
  | [], _ => rfl
  | ⟨_, .latch ..⟩ :: rest, flash => contentsAfter_zero rest (flash.apply _)
  | ⟨_, .command _⟩ :: _, _ => rfl

theorem contentsAfter_append (rest : List FlashAccess) :
    ∀ (performed : List FlashAccess) (flash : FlashArray),
      contentsAfter (performed ++ rest) (commandCount performed) flash =
        (flash.applyAll performed).contents
  | [], flash => contentsAfter_zero rest flash
  | ⟨source, .latch address value⟩ :: performed, flash => by
      have none_ : commandCount (⟨source, .latch address value⟩ :: performed) =
          commandCount performed := List.countP_cons_of_neg Bool.false_ne_true
      rw [none_]
      exact contentsAfter_append rest performed (flash.apply (.latch address value))
  | ⟨source, .command fcr⟩ :: performed, flash => by
      have one : commandCount (⟨source, .command fcr⟩ :: performed) =
          commandCount performed + 1 := List.countP_cons_of_pos rfl
      rw [one]
      exact contentsAfter_append rest performed (flash.apply (.command fcr))

/-- An engine whose digests are zero. -/
def zeroEngine : Engine := fun _ => .replicate 32 0

def carriesOut (initial : Contents) (log : List FlashAccess) : Hardware where
  contents := fun count => contentsAfter log count (.cleared initial)
  fails := fun _ => false
  digest := fun _ _ _ => 0

theorem carriesOut_obeys (initial : Contents) (log : List FlashAccess) :
    Obeys zeroEngine initial (carriesOut initial log) log where
  works := fun _ => rfl
  contents := by
    intro performed rest split
    rw [carriesOut, split]
    exact contentsAfter_append rest performed _
  digest := by
    intro commands size index bound
    rw [hash256Generate, zeroEngine, Vector.getElem?_eq_getElem bound, Vector.getElem_replicate]
    rfl

/-! ## The log of a download -/

def sectorLog : Nat → Nat → List FlashAccess
  | _, 0 => []
  | sector, count + 1 =>
      { source := .eraseImage, action := .command (sectorCommand sector) } ::
        sectorLog (sector + 1) count

theorem afterSectors_accesses : ∀ (count sector : Nat) (state : BootState),
    (afterSectors sector count state).accesses = state.accesses ++ sectorLog sector count
  | 0, _, _ => (List.append_nil _).symm
  | count + 1, sector, state => by
      rw [afterSectors, afterSectors_accesses count (sector + 1)]
      exact List.append_assoc ..

def pagesLog : Nat → List Page → List FlashAccess
  | _, [] => []
  | page, buffer :: rest => pageLog page buffer ++ pagesLog (page + 1) rest

theorem pagesLog_concat (last : Page) : ∀ (pages : List Page) (first : Nat),
    pagesLog first (pages ++ [last]) =
      pagesLog first pages ++ pageLog (first + pages.length) last
  | [], _ => List.append_nil _
  | page :: rest, first => by
      rw [List.cons_append, pagesLog, pagesLog, pagesLog_concat last rest, List.length_cons,
        show first + (rest.length + 1) = first + 1 + rest.length by omega, List.append_assoc]

/-- The state after some pages, with their log and the counter moved on. -/
structure Paged (pages : List Page) (before after : BootState) : Prop where
  log : after.accesses = before.accesses ++ pagesLog before.kernelPage pages
  counter : after.kernelPage = before.kernelPage + pages.length
  total : after.kernelTotalSize = before.kernelTotalSize
  hardware : after.hardware = before.hardware

/-- Page frames send their pages in turn until one panics. -/
theorem pages_logged : ∀ (frames : List Frame) (state : BootState),
    (∀ frame ∈ frames, frame.cmd = 0x04) → state.kernelPage + frames.length < 2 ^ 32 →
    (∃ after, (executeAll frames).run state = .ok () after ∧
        Paged (frames.map Frame.buffer) state after) ∨
      ∃ reason after rest, (executeAll frames).run state = .error reason after ∧
        state.accesses ++ pagesLog state.kernelPage (frames.map Frame.buffer) =
          after.accesses ++ rest
  | [], state, _, _ => .inl ⟨state, rfl, (List.append_nil _).symm, rfl, rfl, rfl⟩
  | frame :: rest, state, commands, bound => by
      rw [List.length_cons] at bound
      have command := execute_page (commands frame List.mem_cons_self)
      let counted : BootState := { state with kernelPage := u32 (state.kernelPage + 1) }
      have stored : (set counted : Exec BootState Unit).run state = .ok () counted := rfl
      have moved : (afterWritePage frame state).kernelPage = state.kernelPage + 1 :=
        u32_of_lt (by omega)
      have sent : (afterWritePage frame state).accesses =
          state.accesses ++ pageLog state.kernelPage frame.buffer :=
        afterKernelPage_accesses _ _ counted
      cases writeKernelPage_ends frame.payload frame.size state.kernelPage counted with
      | inl returns =>
          have run : (execute frame).run state = .ok () (afterWritePage frame state) := by
            rw [command, writePage, Exec.run_bind_of_ok (EStateM.run_get state),
              Exec.run_bind_of_ok stored, Exec.run_bind_of_ok returns]
            rfl
          have later := pages_logged rest (afterWritePage frame state)
            (fun other member => commands other (List.mem_cons_of_mem _ member))
            (by rw [moved]; omega)
          rw [moved, sent, List.append_assoc] at later
          rw [executeAll, Exec.run_bind_of_ok run]
          cases later with
          | inl done =>
              rcases done with ⟨after, ran, paged⟩
              refine .inl ⟨after, ran, ?_, ?_, paged.total, paged.hardware⟩
              · rw [paged.log, moved, sent, List.append_assoc]
                rfl
              · rw [paged.counter, moved, List.map_cons, List.length_cons]
                omega
          | inr panics => exact .inr panics
      | inr panics =>
          rcases panics with ⟨reason, panics⟩
          refine .inr ⟨reason, afterKernelPage state.kernelPage frame.buffer counted,
            pagesLog (state.kernelPage + 1) (rest.map Frame.buffer), ?_, ?_⟩
          · rw [executeAll, command]
            apply Exec.run_bind_of_error
            rw [writePage, Exec.run_bind_of_ok (EStateM.run_get state),
              Exec.run_bind_of_ok stored]
            exact Exec.run_bind_of_error panics
          · rw [afterKernelPage_accesses, List.append_assoc]
            rfl

def zeroHash (size : Nat) : Page := paddedPage 36 (hashByte (fun _ => 0) size)

def hashLog (size : Nat) : List FlashAccess :=
  latchStores .eraseWrite (u32 (flashStart + u32 (512 * 30))) (zeroHash size) ++
    [{ source := .eraseWrite, action := .command hashCommand }]

theorem afterHash_accesses {log : List FlashAccess}
    (hardware : state.hardware = carriesOut initial log) :
    (afterHash state).accesses = state.accesses ++ hashLog state.kernelTotalSize := by
  have zero : hashBuffer state = zeroHash state.kernelTotalSize := by
    rw [hashBuffer, hardware]
    rfl
  rw [afterHash, zero, afterHashPage]
  exact afterPage_accesses ..

theorem last_logged {frame : Frame} (command : frame.cmd = 0x05) {log : List FlashAccess}
    (hardware : state.hardware = carriesOut initial log) :
    ∃ rest, state.accesses ++ (pageLog state.kernelPage frame.buffer ++
        hashLog state.kernelTotalSize) =
      (outcome (executeAll [frame]) state).accesses ++ rest := by
  let sent := afterKernelPage state.kernelPage frame.buffer state
  have stored : sent.accesses = state.accesses ++ pageLog state.kernelPage frame.buffer :=
    afterKernelPage_accesses ..
  cases writeKernelPage_ends frame.payload frame.size state.kernelPage state with
  | inl returns =>
      have run : (writePageLast frame).run state = finishDownload.run sent := by
        rw [run_writePageLast_bind, Exec.run_bind_of_ok returns, if_pos rfl]
        rfl
      have hashed : (afterHash (answeredOk sent)).accesses =
          sent.accesses ++ hashLog state.kernelTotalSize :=
        @afterHash_accesses initial (answeredOk sent) log hardware
      have ended := finishDownload_log sent
      refine ⟨[], ?_⟩
      rw [List.append_nil, ← List.append_assoc, ← stored, ← hashed, ← ended, outcome, outcome,
        executeAll, execute_lastPage command, ← run]
      cases done : (writePageLast frame).run state with
      | ok value after => rw [Exec.run_bind_of_ok done]; rfl
      | error reason after => rw [Exec.run_bind_of_error done]
  | inr panics =>
      rcases panics with ⟨reason, panics⟩
      have run : (writePageLast frame).run state = .error reason sent := by
        rw [run_writePageLast_bind]
        exact Exec.run_bind_of_error panics
      refine ⟨hashLog state.kernelTotalSize, ?_⟩
      rw [outcome, executeAll, execute_lastPage command, Exec.run_bind_of_error run, ← stored.symm,
        ← List.append_assoc, ← stored]

def downloadLog (size : Nat) (pages : List Page) : List FlashAccess :=
  sectorLog 0 (sect8k size) ++ (pagesLog 0 pages ++ hashLog (8192 * sect8k size))

/-- A powered-on board whose flash carries out a log. -/
def boardWith (initial : Contents) (log : List FlashAccess) : BootState :=
  { poweredOn with hardware := carriesOut initial log }

theorem boardWith_synced (initial : Contents) (log : List FlashAccess) :
    Synced initial (boardWith initial log) := ⟨rfl, rfl⟩

theorem Obeys.first {hardware : Hardware} {log early late : List FlashAccess}
    (obeys : Obeys engine initial hardware log) (split : log = early ++ late) :
    Obeys engine initial hardware early := by
  rw [split] at obeys
  exact obeys.of_append

theorem boardWith_offsetSet (channel : Nat → Option Rejection) (log : List FlashAccess) :
    (offsetSet channel (boardWith initial log)).kernelPage = 0 ∧
      (offsetSet channel (boardWith initial log)).accesses = [] ∧
      (offsetSet channel (boardWith initial log)).hardware = carriesOut initial log := by
  rw [offsetSet]
  cases channel 0 with
  | some rejection => exact ⟨rfl, rfl, rfl⟩
  | none => exact ⟨rfl, rfl, rfl⟩

/-- The board for the log of a download obeys it. -/
theorem boardWith_obeys {channel : Nat → Option Rejection} (clear : channel 1 = none)
    {receiver : Receiver} (ready : Ready receiver) {image : List UInt8}
    (positive : 0 < image.length) (bound : image.length ≤ 0x1FC000)
    {indices : List Nat} {last : Nat}
    (through : accepted channel 2 (blocks image) =
      indices.map (pageSent image) ++ [lastSent image last])
    (few : indices.length < numberOfBlock image.length) (initial : Contents)
    {log : List FlashAccess} (logged : log = downloadLog image.length
      (indices.map (imagePage image) ++ [imagePage image last])) :
    Obeys zeroEngine initial (boardWith initial log).hardware
      (outcome (loadKernel channel receiver image) (boardWith initial log)).accesses := by
  let erased := afterErase image.length (offsetSet channel (boardWith initial log))
  rcases @boardWith_offsetSet initial channel log with ⟨counter, empty, hardware⟩
  rcases run_loadKernel clear ready positive bound with ⟨frames, arrived, runs⟩
  rw [through] at arrived
  rcases arrived_concat arrived with ⟨pages, final, split, early, ending⟩
  rcases arrived_pages early with ⟨commands, buffers⟩
  have whole := runs (boardWith initial log) (fun _ => rfl)
  have ended : (outcome (loadKernel channel receiver image) (boardWith initial log)).accesses =
      (outcome (executeAll frames) erased).accesses := by
    rw [outcome, whole]
    rfl
  have start : erased.accesses = sectorLog 0 (sect8k image.length) := by
    change (afterSectors 0 (sect8k image.length) _).accesses = _
    rw [afterSectors_accesses, empty, List.nil_append]
  have kept := afterErase_kept image.length (offsetSet channel (boardWith initial log))
  have first : erased.kernelPage = 0 := kept.1.trans counter
  have board : erased.hardware = carriesOut initial log := kept.2.trans hardware
  have length : pages.length = indices.length := by
    have same := congrArg List.length buffers
    rw [List.length_map, List.length_map] at same
    exact same
  have blocksBelow := numberOfBlock_le image.length
  have sectors := sect8k_few bound
  have whole_ : log = erased.accesses ++ (pagesLog 0 (pages.map Frame.buffer) ++
      (pageLog pages.length final.buffer ++ hashLog (8192 * sect8k image.length))) := by
    rw [logged, downloadLog, pagesLog_concat, start, buffers, buffer_of_fragment ending,
      List.length_map, length, Nat.zero_add, List.append_assoc]
  have cut : ∃ rest, log = (outcome (executeAll frames) erased).accesses ++ rest := by
    rw [split, outcome, executeAll_append]
    cases pages_logged pages erased commands (by rw [first]; omega) with
    | inl done =>
        rcases done with ⟨after, ran, paged⟩
        have log_ := paged.log
        have counter_ := paged.counter
        rw [first] at log_ counter_
        rw [List.length_map, Nat.zero_add] at counter_
        have total : after.kernelTotalSize = 8192 * sect8k image.length := paged.total
        rcases @last_logged initial after final ending.cmd log (paged.hardware.trans board) with
          ⟨rest, last_⟩
        rw [counter_, total, log_, List.append_assoc, ← whole_] at last_
        rw [Exec.run_bind_of_ok ran]
        exact ⟨rest, last_⟩
    | inr panics =>
        rcases panics with ⟨reason, after, rest, ran, log_⟩
        rw [first] at log_
        rw [Exec.run_bind_of_error ran]
        refine ⟨rest ++ (pageLog pages.length final.buffer ++
          hashLog (8192 * sect8k image.length)), ?_⟩
        rw [whole_, ← List.append_assoc, log_, List.append_assoc]
  rcases cut with ⟨rest, cut⟩
  rw [ended]
  exact (carriesOut_obeys initial log).first cut

end Vanilla.Boot
