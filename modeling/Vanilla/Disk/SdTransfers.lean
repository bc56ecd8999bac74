import Vanilla.Disk.SdConformance

namespace Vanilla.Disk

open Exec

/-! The reads of a card that has been initialized: what goes over the bus, and
what ends up in the buffer. -/

section Reads

variable (answers : Nat → MmcAnswer)

/-- The loop of `sd_exec_cmd_13`, with so much of `timeout` left. -/
def pollCmd13 : Nat → Exec SdBus Bool
  | 0 => pure false
  | timeout + 1 => do
      let bus ← get
      let sent ← mmcSendCmd answers (sdResp1 ||| 13) (rcaArg bus.slot) true
      if ¬ sent then pure false
      else if timeout = 0 then pure false
      else do
        let status ← mmcReadResp48
        if status &&& 1 <<< 8 = 0 then pollCmd13 timeout else pure true

def sdExecCmd13 : Exec SdBus Bool := pollCmd13 answers 200000

def mmcCmdSingle : Nat := 0 <<< 19

/-- The argument of CMD17: blocks for high capacity, else bytes. -/
def blockArg (slot : SdSlot) (block : Nat) : Nat :=
  if slot.highCapacity then u32 block else u32 (u32 block * 512)

/-- One round of the loop of `sd_read`; the words for the buffer are returned. -/
def transferBlock (sector i : Nat) : Exec SdBus (List Nat) := do
  let ready ← sdExecCmd13 answers
  if ¬ ready then Exec.panic "Card is not ready"
  else do
    let bus ← get
    let _ ← mmcSendAdtc answers
      (mmcCmdSingle ||| mmcCmdStartData ||| mmcCmdRead ||| sdResp1 ||| 17)
      (blockArg bus.slot (sector + i)) 512 1 true
    let words ← readWords 128
    let status ← mmcReadResp48
    if status &&& 0xFFF80000 ≠ 0 then Exec.panic "Write error" else pure words

/-- The loop of `sd_read`, with so many blocks left. -/
def transferBlocks (sector : Nat) : Nat → Nat → Exec SdBus (List Nat)
  | 0, _ => pure []
  | remaining + 1, i => do
      let words ← transferBlock answers sector i
      let later ← transferBlocks sector remaining (i + 1)
      pure (words ++ later)

/-- `sd_read` over the bus. -/
def sdReadBus (sector count : Nat) : Exec SdBus (List Nat) := do
  let bus ← get
  if u32 (bus.slot.kibSize * 2) < u32 (sector + count) then Exec.panic "Block size wrong"
  else transferBlocks answers sector count 0

end Reads

/-! ## The card and its blocks -/

/-- The words of each block of the card. -/
abbrev Blocks := Nat → List Nat

/-- The block that the argument of CMD17 addresses. -/
def CardState.addressed (card : CardState) (arg : Nat) : Nat :=
  if card.capacity then arg else arg / 512

/-- The data behind a command for a block is that of the block. -/
def Serves (blocks : Blocks) (card : CardState) (command : SdCommand) : Prop :=
  command.index = 17 → command.words.take 128 = blocks (card.addressed command.arg)
deriving Decidable

/-- The card has served every command of the log, by the capacity that it had
reported until then. -/
abbrev Honest (blocks : Blocks) (start : CardState) (log : List SdCommand) : Prop :=
  Clean CardState.after (Serves blocks) start log

/-- The log of one state goes on from that of another. -/
def Continues (before after : SdBus) : Prop := ∃ later, after.log = before.log ++ later

theorem Continues.refl (bus : SdBus) : Continues bus bus := ⟨[], (List.append_nil _).symm⟩

theorem Continues.trans {first second third : SdBus} (early : Continues first second)
    (late : Continues second third) : Continues first third := by
  obtain ⟨before, first⟩ := early
  obtain ⟨after, second⟩ := late
  exact ⟨before ++ after, by rw [second, first, List.append_assoc]⟩

/-- The card and what is known of it have stayed. -/
structure Unmoved (start card : CardState) (before after : SdBus) : Prop where
  selected : Selected start after card
  slot : after.slot = before.slot
  log : Continues before after

theorem Unmoved.refl {start card : CardState} {bus : SdBus} (selected : Selected start bus card) :
    Unmoved start card bus bus := ⟨selected, rfl, .refl bus⟩

theorem Unmoved.trans {start card : CardState} {first second third : SdBus}
    (early : Unmoved start card first second) (late : Unmoved start card second third) :
    Unmoved start card first third :=
  ⟨late.selected, late.slot.trans early.slot, early.log.trans late.log⟩

section Transfers

variable {answers : Nat → MmcAnswer} {start card : CardState} {bus : SdBus} {blocks : Blocks}

theorem cmd13_ends : ∀ {timeout : Nat} {bus : SdBus}, Selected start bus card →
    Ends (pollCmd13 answers timeout) bus (fun _ after => Unmoved start card bus after)
      (Conforms start)
  | 0, _, selected => .pure (.refl selected)
  | timeout + 1, bus, selected => by
      have session := selected.session
      have present := @present_of card _ (by decide) selected.mode
      have takes : Takes card 13 (rcaArg bus.slot) :=
        .sendStatus selected.mode selected.app (rcaArg_address session)
      have indexed : (sdResp1 ||| 13) &&& 0b111111 = 13 := by decide
      rw [pollCmd13]
      apply Ends.get
      apply Ends.bind (sendCmd_ends session.conforms (session.legal present indexed takes))
      rintro _ _ ⟨rfl, rfl⟩
      have sent := @Session.sent _ _ _ _ _ session (answers bus.log.length) _ _ present indexed
        takes (by decide) (fun index => taken_other (by simp [index]) selected.app) rfl rfl rfl
      have unmoved : Unmoved start card bus
          (bus.sent (answers bus.log.length) (sdResp1 ||| 13) (rcaArg bus.slot) true) :=
        ⟨⟨sent, selected.mode, selected.app, selected.capacity⟩, rfl, ⟨_, rfl⟩⟩
      simp only [not_true_eq_false, if_false]
      split
      · exact .pure unmoved
      · apply Ends.change (run_mmcReadResp48 _)
        split
        · exact (cmd13_ends unmoved.selected).imp fun _ _ later => unmoved.trans later
        · exact .pure unmoved

/-- The block by the argument that `sd_read` computes. -/
theorem addressed_blockArg (selected : Selected start bus card) {block : Nat}
    (inside : block < if bus.slot.highCapacity then 2 ^ 32 else 2 ^ 23) :
    card.addressed (blockArg bus.slot block) = block := by
  rw [CardState.addressed, ← selected.capacity, blockArg]
  split
  · rename_i high
    rw [if_pos high] at inside
    exact u32_of_lt inside
  · rename_i standard
    rw [if_neg standard] at inside
    have word : u32 block = block := u32_of_lt (by omega)
    rw [word, u32_of_lt (by omega), Nat.mul_div_cancel _ (by decide)]

/-- What an honest card sends for a block is the block. -/
theorem transferBlock_ends {sector i : Nat} (selected : Selected start bus card) :
    Ends (transferBlock answers sector i) bus
      (fun words after => Unmoved start card bus after ∧ words.length = 128 ∧
        (Honest blocks start after.log →
          sector + i < (if bus.slot.highCapacity then 2 ^ 32 else 2 ^ 23) →
          words = blocks (sector + i)))
      (Conforms start) := by
  rw [transferBlock]
  apply Ends.bind (cmd13_ends selected)
  intro ready between polled
  have session := polled.selected.session
  split
  · exact .panic session.conforms
  · apply Ends.get
    let cmd := mmcCmdSingle ||| mmcCmdStartData ||| mmcCmdRead ||| sdResp1 ||| 17
    let arg := blockArg between.slot (sector + i)
    have present := @present_of card _ (by decide) polled.selected.mode
    have takes : Takes card 17 arg := .readSingleBlock polled.selected.mode polled.selected.app
    have indexed : cmd &&& 0b111111 = 17 := by decide
    have prepared := @Session.prepare _ _ _ session cmd 512 1 (by decide)
    apply Ends.bind (sendAdtc_ends rfl prepared.conforms (prepared.legal present indexed takes))
    rintro _ _ ⟨_, rfl⟩
    have sent := @Session.sent _ _ _ _ _ prepared (answers between.log.length) _ _ present
      indexed takes (by decide)
      (fun index => taken_other (by simp [index]) polled.selected.app) rfl rfl rfl
    apply Ends.bind (readWords_ends fun _ => sent.conforms)
    rintro words _ ⟨rfl, all, rfl⟩
    apply Ends.change (run_mmcReadResp48 _)
    split
    · exact .panic sent.conforms
    · let read : SdBus :=
        { (mmcPrepare cmd 512 1 between).sent (answers between.log.length) cmd arg true with
          words := (answers between.log.length).words.drop 128 }
      have step : Unmoved start card between read :=
        ⟨⟨⟨sent.followed, sent.rca, sent.rcaWord, sent.slow, sent.lanes, sent.switches⟩,
          polled.selected.mode, polled.selected.app, polled.selected.capacity⟩, rfl, ⟨_, rfl⟩⟩
      refine .pure ⟨polled.trans step, all, fun honest inside => ?_⟩
      rw [← polled.slot] at inside
      have said := honest between.log _ [] rfl indexed
      rw [session.followed.card] at said
      rw [← addressed_blockArg polled.selected inside]
      exact said

/-- The loop looks at the answers for the blocks that are left. -/
theorem readBlocks_congr {given other : SdAnswers} {sector : Nat} : ∀ {remaining i : Nat},
    (∀ block, i ≤ block → given.ready block = other.ready block ∧
      given.word block = other.word block ∧ given.status block = other.status block) →
    readBlocks given sector remaining i = readBlocks other sector remaining i
  | 0, _, _ => rfl
  | remaining + 1, i, same => by
      obtain ⟨ready, word, status⟩ := same i (Nat.le_refl i)
      have rest := @readBlocks_congr given other sector remaining (i + 1)
        fun block later => same block (by omega)
      rw [readBlocks, readBlocks, ready, word, status, rest]

/-- The answers for one block, and others for those behind it. -/
def SdAnswers.first (i : Nat) (words : List Nat) (status : Nat) (later : SdAnswers) : SdAnswers where
  ready := fun block => if block = i then true else later.ready block
  word := fun block => if block = i then fun word => words.getD word 0 else later.word block
  status := fun block => if block = i then status else later.status block

theorem readBlocks_first {i sector remaining status : Nat} {words : List Nat} {later : SdAnswers}
    {state : SdState} (whole : words.length = 128) (good : status &&& 0xFFF80000 = 0) :
    (readBlocks (later.first i words status) sector (remaining + 1) i).run state =
      (readBlocks later sector remaining (i + 1)).run
        { state with
          sent := state.sent ++ [if state.slot.highCapacity then u32 (sector + i)
            else u32 (u32 (sector + i) * 512)]
          buffer := state.buffer ++ words } := by
  have ready : (later.first i words status).ready i = true := if_pos rfl
  have given : (later.first i words status).status i = status := if_pos rfl
  have stored : (List.range 128).map ((later.first i words status).word i) = words := by
    have word : (later.first i words status).word i = fun word => words.getD word 0 := if_pos rfl
    rw [word]
    apply List.ext_getElem
    · rw [List.length_map, List.length_range, whole]
    · intro index _ inside
      rw [List.getElem_map, List.getElem_range]
      exact List.getD_eq_getElem words 0 inside
  have rest : readBlocks (later.first i words status) sector remaining (i + 1) =
      readBlocks later sector remaining (i + 1) := by
    apply readBlocks_congr
    intro block behind
    have apart : block ≠ i := by omega
    exact ⟨if_neg apart, if_neg apart, if_neg apart⟩
  rw [readBlocks, ready, given, stored, rest]
  simp only [not_true_eq_false, if_false, good, ne_eq]
  rfl

/-- What is read over the bus is what `sdRead` stores with the answers that came. -/
def ReadsAs (sector remaining i : Nat) (card : SdCard) (words : List Nat) : Prop :=
  ∃ given : SdAnswers, ∀ state : SdState, state.slot = card →
    ∃ sent, (readBlocks given sector remaining i).run state =
      .ok () { state with sent := sent, buffer := state.buffer ++ words }

theorem transferBlocks_readsAs {sector : Nat} : ∀ {remaining i : Nat} {bus : SdBus},
    Selected start bus card →
    Ends (transferBlocks answers sector remaining i) bus
      (fun words after => Unmoved start card bus after ∧
        ReadsAs sector remaining i bus.slot.toSdCard words)
      (Conforms start)
  | 0, _, _, selected => by
      refine .pure ⟨.refl selected, ⟨fun _ => true, fun _ _ => 0, fun _ => 0⟩, ?_⟩
      refine fun state _ => ⟨state.sent, ?_⟩
      rw [List.append_nil]
      rfl
  | remaining + 1, i, bus, selected => by
      rw [transferBlocks]
      apply Ends.bind (@transferBlock_ends _ _ _ _ (fun _ => []) _ _ selected)
      rintro words between ⟨read, whole, _⟩
      apply Ends.bind (@transferBlocks_readsAs sector remaining (i + 1) between read.selected)
      rintro later after ⟨moved, given, stores⟩
      refine .pure ⟨read.trans moved, given.first i words 0, fun state slot => ?_⟩
      rw [readBlocks_first whole (by decide)]
      rcases stores { state with
          sent := state.sent ++ [if state.slot.highCapacity then u32 (sector + i)
            else u32 (u32 (sector + i) * 512)]
          buffer := state.buffer ++ words } (slot.trans (congrArg _ read.slot.symm)) with
        ⟨sent, run⟩
      refine ⟨sent, run.trans ?_⟩
      rw [List.append_assoc]

/-- The model of `sd_read` without the bus is one of `sd_read` over the bus. -/
theorem sdReadBus_readsAs {sector count : Nat} (selected : Selected start bus card) :
    Ends (sdReadBus answers sector count) bus
      (fun words _ => ∃ given sent, (sdRead given sector count).run ⟨bus.slot.toSdCard, [], []⟩ =
        .ok () ⟨bus.slot.toSdCard, sent, words⟩)
      (Conforms start) := by
  rw [sdReadBus]
  apply Ends.get
  split
  · exact .panic selected.session.conforms
  · rename_i inside
    apply (transferBlocks_readsAs selected).imp
    rintro words after ⟨_, given, stores⟩
    rcases stores ⟨bus.slot.toSdCard, [], []⟩ rfl with ⟨sent, run⟩
    refine ⟨given, sent, ?_⟩
    rw [sdRead, Exec.run_bind_of_ok (EStateM.run_get _), if_neg inside]
    exact run

end Transfers

section Use

variable {answers : Nat → MmcAnswer} {start : CardState} {bus : SdBus}

end Use

end Vanilla.Disk
