import Vanilla.Foundation.Loop
import Vanilla.Usb.DescriptorTree

namespace Vanilla.Usb

open Grouping

/-! Which bytes the two passes over the descriptors read, and whether they come
to an end. Both walk by the length that the device has put into a descriptor. -/

variable {data : Nat → UInt8} {size : Nat}

/-! ## The loops with their reads -/

/-- The size of the struct for a type that the parser knows. -/
def descSize (type : UInt8) : Option Nat :=
  if type = usbDescConfig then some 9
  else if type = usbDescIface then some 9
  else if type = usbDescEp then some 7
  else none

def Counts.count (type : UInt8) (counts : Counts) : Counts where
  configs := counts.configs + if type = usbDescConfig then 1 else 0
  ifaces := counts.ifaces + if type = usbDescIface then 1 else 0
  eps := counts.eps + if type = usbDescEp then 1 else 0

/-- The fields that are printed before the length is checked. -/
def printed (data : Nat → UInt8) (pos : Nat) : List Nat :=
  if data (pos + 1) = usbDescConfig then List.range' (pos + 4) 5
  else if data (pos + 1) = usbDescIface then List.range' (pos + 2) 7
  else if data (pos + 1) = usbDescEp then List.range' (pos + 2) 5
  else []

/-- The descriptor has the size that its type asks for, if any. -/
def RightSize (data : Nat → UInt8) (pos : Nat) : Prop :=
  ∀ bytes ∈ descSize (data (pos + 1)), (data pos).toNat = bytes

instance (data : Nat → UInt8) (pos : Nat) : Decidable (RightSize data pos) :=
  inferInstanceAs (Decidable (∀ bytes ∈ descSize (data (pos + 1)), (data pos).toNat = bytes))

structure Verifying where
  pos : Nat
  counts : Counts
  reads : List Nat

/-- A round of `usbc_verify_descriptors`. -/
def verifyRound (data : Nat → UInt8) (size : Nat) (state : Verifying) :
    (Verdict × List Nat) ⊕ Verifying :=
  let reads := state.reads ++ ([state.pos + 1, state.pos] ++ printed data state.pos)
  if state.pos < size then
    if RightSize data state.pos then
      .inr ⟨state.pos + (data state.pos).toNat, state.counts.count (data (state.pos + 1)), reads⟩
    else .inl (.rejected, reads)
  else if state.pos = size then .inl (.accepted state.counts, state.reads)
  else .inl (.rejected, state.reads)

/-- What `memory_copy` takes of a descriptor; of an endpoint, the whole
`struct usb_ep`. -/
def copied (data : Nat → UInt8) (pos : Nat) : List Nat :=
  if data (pos + 1) = usbDescConfig then List.range' pos 9
  else if data (pos + 1) = usbDescIface then List.range' pos 9
  else if data (pos + 1) = usbDescEp then List.range' pos sizeofUsbEp
  else []

structure Parsing where
  pos : Nat
  parser : Parser
  reads : List Nat

/-- A round of the loop of `usbc_parse_descriptors`. -/
def parseRound (data : Nat → UInt8) (size : Nat) (counts : Counts) (state : Parsing) :
    (Option Parser × List Nat) ⊕ Parsing :=
  let reads := state.reads ++ ((state.pos + 1) :: copied data state.pos)
  if state.pos < size then
    match state.parser.round data state.pos counts with
    | none => .inl (none, reads)
    | some next =>
        .inr ⟨state.pos + (data state.pos).toNat, next, reads ++ [state.pos]⟩
  else .inl (some state.parser, state.reads)

/-! ## The passes without their reads -/

theorem count_config (counts : Counts) :
    counts.count usbDescConfig = { counts with configs := counts.configs + 1 } := rfl

theorem count_iface (counts : Counts) :
    counts.count usbDescIface = { counts with ifaces := counts.ifaces + 1 } := rfl

theorem count_ep (counts : Counts) :
    counts.count usbDescEp = { counts with eps := counts.eps + 1 } := rfl

theorem count_other {type : UInt8} (counts : Counts) (unknown : descSize type = none) :
    counts.count type = counts := by
  rw [descSize] at unknown
  split at unknown
  · cases unknown
  · rename_i config
    split at unknown
    · cases unknown
    · rename_i iface
      split at unknown
      · cases unknown
      · rename_i ep
        rw [Counts.count, if_neg config, if_neg iface, if_neg ep]
        rfl

theorem rightSize_iff {pos bytes : Nat} (known : descSize (data (pos + 1)) = some bytes) :
    RightSize data pos ↔ (data pos).toNat = bytes :=
  ⟨fun right => right bytes known,
    fun right _ same => right.trans (Option.some.inj (known.symm.trans same))⟩

/-- One round of the first pass, by the type of the descriptor. -/
theorem verifyLoop_succ {fuel pos : Nat} {counts : Counts} (inside : pos < size) :
    verifyLoop data size (fuel + 1) pos counts =
      if RightSize data pos then
        verifyLoop data size fuel (pos + (data pos).toNat) (counts.count (data (pos + 1)))
      else .rejected := by
  rw [verifyLoop, if_pos inside]
  by_cases config : data (pos + 1) = usbDescConfig
  · have right := rightSize_iff (show descSize (data (pos + 1)) = some 9 by rw [config]; rfl)
    simp only [config, if_true, count_config, right, ne_eq, ite_not]
  · by_cases iface : data (pos + 1) = usbDescIface
    · have right := rightSize_iff (show descSize (data (pos + 1)) = some 9 by rw [iface]; rfl)
      simp only [iface, if_true, count_iface, right, ne_eq, ite_not]
      rfl
    · by_cases ep : data (pos + 1) = usbDescEp
      · have right := rightSize_iff (show descSize (data (pos + 1)) = some 7 by rw [ep]; rfl)
        simp only [ep, if_true, count_ep, right, ne_eq, ite_not]
        rfl
      · have unknown : descSize (data (pos + 1)) = none := by
          rw [descSize, if_neg config, if_neg iface, if_neg ep]
        have right : RightSize data pos := fun bytes known => by cases unknown.symm.trans known
        simp only [config, iface, ep, if_false, right, if_true, count_other counts unknown]

/-- The loop with its reads is the first pass. -/
theorem verifyLoop_eq_run : ∀ (fuel : Nat) (state : Verifying),
    verifyLoop data size fuel state.pos state.counts =
      ((Loop.run (verifyRound data size) fuel state).map Prod.fst).getD .diverges
  | 0, _ => rfl
  | fuel + 1, state => by
      rw [Loop.run]
      by_cases inside : state.pos < size
      · rw [verifyLoop_succ inside, verifyRound, if_pos inside]
        by_cases right : RightSize data state.pos
        · rw [if_pos right, if_pos right]
          exact verifyLoop_eq_run fuel ⟨_, _, _⟩
        · rw [if_neg right, if_neg right]
          rfl
      · rw [verifyLoop, if_neg inside, verifyRound, if_neg inside]
        by_cases ends : state.pos = size
        · rw [if_pos ends, if_pos ends]
          rfl
        · rw [if_neg ends, if_neg ends]
          rfl

theorem parseLoop_eq_run {counts : Counts} : ∀ (fuel : Nat) (state : Parsing),
    parseLoop data size counts fuel state.pos state.parser =
      (Loop.run (parseRound data size counts) fuel state).bind Prod.fst
  | 0, _ => rfl
  | fuel + 1, state => by
      rw [Loop.run, parseLoop, parseRound]
      by_cases inside : state.pos < size
      · rw [if_pos inside, if_pos inside]
        cases state.parser.round data state.pos counts with
        | none => rfl
        | some next => exact parseLoop_eq_run fuel ⟨_, next, _⟩
      · rw [if_neg inside, if_neg inside]
        rfl

/-! ## Walks that stay in the string -/

/-- Both passes come to an end, and read inside the string only. -/
def StaysInside (data : Nat → UInt8) (size : Nat) (dev : UsbDev) : Prop :=
  ∃ verdict reads,
    Loop.Returns (verifyRound data size) ⟨0, ⟨0, 0, 0⟩, []⟩ (verdict, reads) ∧
    (∀ address ∈ reads, address < size) ∧
    ∀ counts, verdict = .accepted counts →
      ∃ parser later, Loop.Returns (parseRound data size counts)
          ⟨0, .start (usbcInitDescriptors (usbcAllocDescriptors dev counts) counts), []⟩
          (parser, later) ∧
        ∀ address ∈ later, address < size

/-- The positions that a walk over descriptors of the right size comes to. -/
inductive Reached (data : Nat → UInt8) (size : Nat) : Nat → Prop where
  | start : Reached data size 0
  | next {pos : Nat} : Reached data size pos → pos < size → RightSize data pos →
      Reached data size (pos + (data pos).toNat)

/-- How many bytes of a descriptor are looked at before its length is. -/
def lookahead (type : UInt8) : Nat := (descSize type).getD 2

/-- Every interface comes after a configuration, every endpoint after an
interface. -/
def Ordered (data : Nat → UInt8) (parts : List Nat) : Prop :=
  ∀ before pos after, parts = before ++ pos :: after →
    (data (pos + 1) = usbDescIface → 0 < countType data usbDescConfig before) ∧
      (data (pos + 1) = usbDescEp → 0 < countType data usbDescIface before)

/-- What is looked at of every descriptor lies in the string, only descriptors
of a known type have length 0, and the copy of an endpoint that the parser
comes to lies in the string. -/
structure WellFramed (data : Nat → UInt8) (size : Nat) : Prop where
  fits : ∀ pos, Reached data size pos → pos < size → pos + lookahead (data (pos + 1)) ≤ size
  advances : ∀ pos, Reached data size pos → pos < size → (data pos).toNat = 0 →
    (descSize (data (pos + 1))).isSome
  copies : ∀ before pos after, Parts data 0 (before ++ pos :: after) size →
    (∀ part ∈ before ++ pos :: after, RightSize data part) → Ordered data before →
    data (pos + 1) = usbDescEp → pos + sizeofUsbEp ≤ size

theorem descSize_positive {type : UInt8} {bytes : Nat} (known : bytes ∈ descSize type) :
    0 < bytes := by
  rw [descSize] at known
  split at known
  · cases known
    decide
  · split at known
    · cases known
      decide
    · split at known
      · cases known
        decide
      · cases known

/-- The bytes that a round of the first pass reads. -/
theorem header_reads_iff {pos bound : Nat} :
    (∀ address ∈ [pos + 1, pos] ++ printed data pos, address < bound) ↔
      pos + lookahead (data (pos + 1)) ≤ bound := by
  have two : ∀ first count : Nat, (∀ address ∈ [pos + 1, pos] ++ List.range' first count,
      address < bound) ↔ pos + 1 < bound ∧ (0 < count → first + count ≤ bound) := by
    intro first count
    constructor
    · intro all
      refine ⟨all _ (by simp), fun positive => ?_⟩
      have last := all (first + (count - 1)) (List.mem_append_right _
        (List.mem_range'_1.mpr (by omega)))
      omega
    · intro both address member
      simp only [List.cons_append, List.nil_append, List.mem_cons, List.mem_range'_1] at member
      omega
  rw [printed, lookahead, descSize]
  split
  · rw [two, Option.getD_some]
    omega
  · split
    · rw [two, Option.getD_some]
      omega
    · split
      · rw [two, Option.getD_some]
        omega
      · have none_ := two 0 0
        rw [List.range'_zero] at none_
        rw [none_, Option.getD_none]
        omega

/-! ## The first pass -/

theorem verifyRound_inside {state : Verifying} (inside : state.pos < size)
    (right : RightSize data state.pos) :
    verifyRound data size state =
      .inr ⟨state.pos + (data state.pos).toNat, state.counts.count (data (state.pos + 1)),
        state.reads ++ ([state.pos + 1, state.pos] ++ printed data state.pos)⟩ := by
  rw [verifyRound, if_pos inside, if_pos right]

theorem verifyRound_wrong {state : Verifying} (inside : state.pos < size)
    (wrong : ¬ RightSize data state.pos) :
    verifyRound data size state =
      .inl (.rejected, state.reads ++ ([state.pos + 1, state.pos] ++ printed data state.pos)) := by
  rw [verifyRound, if_pos inside, if_neg wrong]

/-- Reads are never taken back. -/
theorem verify_reads_kept {state : Verifying} {verdict : Verdict × List Nat}
    (returns : Loop.Returns (verifyRound data size) state verdict) :
    ∀ address ∈ state.reads, address ∈ verdict.2 := by
  induction returns with
  | @done state verdict stops =>
      intro address member
      rw [verifyRound] at stops
      split at stops
      · split at stops
        · cases stops
        · cases stops
          exact List.mem_append_left _ member
      · split at stops
        · cases stops
          exact member
        · cases stops
          exact member
  | @next state later verdict goesOn _ induction =>
      intro address member
      apply induction
      rw [verifyRound] at goesOn
      split at goesOn
      · split at goesOn
        · cases goesOn
          exact List.mem_append_left _ member
        · cases goesOn
      · split at goesOn
        · cases goesOn
        · cases goesOn

/-- A pass that comes to an end has been at every position reached. -/
theorem verify_passes {verdict : Verdict × List Nat} {pos : Nat}
    (returns : Loop.Returns (verifyRound data size) ⟨0, ⟨0, 0, 0⟩, []⟩ verdict)
    (reached : Reached data size pos) :
    ∃ state : Verifying, state.pos = pos ∧
      Loop.Returns (verifyRound data size) state verdict := by
  induction reached with
  | start => exact ⟨_, rfl, returns⟩
  | next _ inside right induction =>
      rcases induction with ⟨state, rfl, still⟩
      cases still with
      | done stops =>
          rw [verifyRound_inside inside right] at stops
          cases stops
      | next goesOn rest =>
          rw [verifyRound_inside inside right] at goesOn
          cases goesOn
          exact ⟨_, rfl, rest⟩

theorem verify_stuck {pos : Nat} (inside : pos < size) (zero : (data pos).toNat = 0)
    (right : RightSize data pos) {state : Verifying} (here : state.pos = pos)
    {verdict : Verdict × List Nat} : ¬ Loop.Returns (verifyRound data size) state verdict := by
  intro returns
  rcases returns.run_eq with ⟨enough, runs⟩
  have stays : ∀ state : Verifying, state.pos = pos →
      ∃ next, verifyRound data size state = .inr next ∧ next.pos = pos := by
    rintro state rfl
    refine ⟨_, verifyRound_inside inside right, ?_⟩
    change state.pos + (data state.pos).toNat = state.pos
    rw [zero, Nat.add_zero]
  have never := Loop.run_eq_none (fun state : Verifying => state.pos = pos) stays here enough
  rw [runs enough (Nat.le_refl _)] at never
  cases never

/-- Over a well-framed string the first pass ends, and what it accepts is
tiled by descriptors of the right size. -/
theorem WellFramed.verify (framed : WellFramed data size) :
    ∀ (left : Nat) (state : Verifying), size - state.pos ≤ left →
      Reached data size state.pos → (∀ address ∈ state.reads, address < size) →
      ∃ verdict reads, Loop.Returns (verifyRound data size) state (verdict, reads) ∧
        (∀ address ∈ reads, address < size) ∧
        ∀ counts, verdict = .accepted counts →
          ∃ parts, Parts data state.pos parts size ∧ ∀ part ∈ parts, RightSize data part := by
  intro left
  induction left with
  | zero =>
      intro state short _ reads
      have outside : ¬ state.pos < size := by omega
      by_cases ends : state.pos = size
      · refine ⟨_, _, .done (by rw [verifyRound, if_neg outside, if_pos ends]), reads, ?_⟩
        intro _ _
        exact ⟨[], ends ▸ .nil state.pos, fun part member => absurd member List.not_mem_nil⟩
      · refine ⟨_, _, .done (by rw [verifyRound, if_neg outside, if_neg ends]), reads, ?_⟩
        intro _ accepted
        cases accepted
  | succ left induction =>
      intro state short reached reads
      by_cases inside : state.pos < size
      · have header : ∀ address ∈ state.reads ++
            ([state.pos + 1, state.pos] ++ printed data state.pos), address < size := by
          rw [List.forall_mem_append]
          exact ⟨reads, header_reads_iff.mpr (framed.fits _ reached inside)⟩
        by_cases right : RightSize data state.pos
        · have positive : 0 < (data state.pos).toNat := by
            apply Nat.pos_of_ne_zero
            intro zero
            have known := framed.advances _ reached inside zero
            rcases Option.isSome_iff_exists.mp known with ⟨bytes, same⟩
            have size_ := descSize_positive same
            rw [← right bytes same, zero] at size_
            exact absurd size_ (Nat.lt_irrefl 0)
          have rest := induction ⟨state.pos + (data state.pos).toNat,
            state.counts.count (data (state.pos + 1)), state.reads ++
              ([state.pos + 1, state.pos] ++ printed data state.pos)⟩
            (by change size - (state.pos + (data state.pos).toNat) ≤ left; omega)
            (.next reached inside right) header
          rcases rest with ⟨verdict, final, returns, within, tiles⟩
          refine ⟨verdict, final, .next (verifyRound_inside inside right) returns, within, ?_⟩
          intro counts accepted
          rcases tiles counts accepted with ⟨parts, tiling, sized⟩
          exact ⟨state.pos :: parts, .cons positive tiling,
            List.forall_mem_cons.mpr ⟨right, sized⟩⟩
        · refine ⟨_, _, .done (verifyRound_wrong inside right), header, ?_⟩
          intro _ accepted
          cases accepted
      · exact induction state (by omega) reached reads

/-! ## The second pass -/

/-- The parser knows whether it has come to a configuration and an interface. -/
structure Seen (data : Nat → UInt8) (done : List Nat) (parser : Parser) : Prop where
  config : parser.lastCfg = none ↔ countType data usbDescConfig done = 0
  iface : parser.lastIface = none ↔ countType data usbDescIface done = 0

/-- The descriptor may follow these. -/
def MayFollow (data : Nat → UInt8) (done : List Nat) (pos : Nat) : Prop :=
  (data (pos + 1) = usbDescIface → 0 < countType data usbDescConfig done) ∧
    (data (pos + 1) = usbDescEp → 0 < countType data usbDescIface done)

theorem countType_snoc_zero_iff {type : UInt8} {done : List Nat} {pos : Nat} :
    countType data type (done ++ [pos]) = 0 ↔
      countType data type done = 0 ∧ data (pos + 1) ≠ type := by
  rw [countType_append, countType_cons]
  by_cases same : data (pos + 1) = type
  · rw [if_pos same]
    simp [same]
  · rw [if_neg same]
    simp [same, countType]

/-- A round fails only on a descriptor that comes too early. -/
theorem round_none_iff {counts : Counts} {parser : Parser} {pos : Nat} :
    parser.round data pos counts = none ↔
      (data (pos + 1) = usbDescIface ∧ parser.lastCfg = none) ∨
        (data (pos + 1) = usbDescEp ∧ parser.lastIface = none) := by
  rw [Parser.round]
  by_cases config : data (pos + 1) = usbDescConfig
  · simp [config, usbDescConfig, usbDescIface, usbDescEp]
  · by_cases iface : data (pos + 1) = usbDescIface
    · simp [iface, Parser.onIface, usbDescConfig, usbDescIface, usbDescEp]
    · by_cases ep : data (pos + 1) = usbDescEp
      · simp [ep, Parser.onEp, usbDescConfig, usbDescIface, usbDescEp]
      · simp [config, iface, ep]

theorem round_last {counts : Counts} {parser next : Parser} {pos : Nat}
    (round : parser.round data pos counts = some next) :
    (next.lastCfg = none ↔ parser.lastCfg = none ∧ data (pos + 1) ≠ usbDescConfig) ∧
      (next.lastIface = none ↔ parser.lastIface = none ∧ data (pos + 1) ≠ usbDescIface) := by
  rw [Parser.round] at round
  by_cases config : data (pos + 1) = usbDescConfig
  · rw [if_pos config] at round
    cases Option.some.inj round
    simp [config, Parser.onConfig, usbDescConfig, usbDescIface]
  · by_cases iface : data (pos + 1) = usbDescIface
    · rw [if_neg config, if_pos iface, Parser.onIface] at round
      rcases Option.map_eq_some_iff.mp round with ⟨last, present, rfl⟩
      simp [iface, present]
    · by_cases ep : data (pos + 1) = usbDescEp
      · rw [if_neg config, if_neg iface, if_pos ep, Parser.onEp] at round
        rcases Option.map_eq_some_iff.mp round with ⟨last, present, rfl⟩
        simp [config, iface, present]
      · rw [if_neg config, if_neg iface, if_neg ep] at round
        cases Option.some.inj round
        simp [config, iface]

theorem Seen.start (dev : UsbDev) : Seen data [] (.start dev) := ⟨by simp [Parser.start, countType],
  by simp [Parser.start, countType]⟩

theorem Seen.round {counts : Counts} {done : List Nat} {parser next : Parser} {pos : Nat}
    (seen : Seen data done parser) (round : parser.round data pos counts = some next) :
    Seen data (done ++ [pos]) next := by
  rcases round_last round with ⟨config, iface⟩
  constructor
  · rw [config, countType_snoc_zero_iff, seen.config]
  · rw [iface, countType_snoc_zero_iff, seen.iface]

theorem Seen.mayFollow_iff {done : List Nat} {parser : Parser} {pos : Nat}
    (seen : Seen data done parser) (counts : Counts) :
    MayFollow data done pos ↔ parser.round data pos counts ≠ none := by
  rw [Ne, round_none_iff, seen.config, seen.iface, not_or, MayFollow]
  simp only [not_and, Nat.pos_iff_ne_zero]

theorem Ordered.snoc {done : List Nat} {pos : Nat} (ordered : Ordered data done)
    (follows : MayFollow data done pos) : Ordered data (done ++ [pos]) := by
  intro before other after split
  cases split_snoc split with
  | inl last =>
      rw [last.2.1, ← last.2.2]
      exact follows
  | inr early =>
      rcases early with ⟨shorter, rfl, old⟩
      exact ordered before other shorter old

theorem Ordered.nil : Ordered data [] := fun _ _ _ split => absurd split.symm (by simp)

theorem parseRound_some {counts : Counts} {state : Parsing} {next : Parser}
    (inside : state.pos < size) (round : state.parser.round data state.pos counts = some next) :
    parseRound data size counts state =
      .inr ⟨state.pos + (data state.pos).toNat, next,
        state.reads ++ ((state.pos + 1) :: copied data state.pos) ++ [state.pos]⟩ := by
  rw [parseRound, if_pos inside, round]

theorem parseRound_none {counts : Counts} {state : Parsing}
    (inside : state.pos < size) (round : state.parser.round data state.pos counts = none) :
    parseRound data size counts state =
      .inl (none, state.reads ++ ((state.pos + 1) :: copied data state.pos)) := by
  rw [parseRound, if_pos inside, round]

theorem parse_reads_kept {counts : Counts} {state : Parsing} {result : Option Parser × List Nat}
    (returns : Loop.Returns (parseRound data size counts) state result) :
    ∀ address ∈ state.reads, address ∈ result.2 := by
  induction returns with
  | @done state result stops =>
      intro address member
      by_cases inside : state.pos < size
      · cases round : state.parser.round data state.pos counts with
        | none =>
            rw [parseRound_none inside round] at stops
            cases stops
            exact List.mem_append_left _ member
        | some next =>
            rw [parseRound_some inside round] at stops
            cases stops
      · rw [parseRound, if_neg inside] at stops
        cases stops
        exact member
  | @next state later result goesOn _ induction =>
      intro address member
      apply induction
      by_cases inside : state.pos < size
      · cases round : state.parser.round data state.pos counts with
        | none =>
            rw [parseRound_none inside round] at goesOn
            cases goesOn
        | some next =>
            rw [parseRound_some inside round] at goesOn
            cases goesOn
            exact List.mem_append_left _ (List.mem_append_left _ member)
      · rw [parseRound, if_neg inside] at goesOn
        cases goesOn

/-- The bytes of a round of the second pass. -/
theorem copied_inside {pos : Nat} (right : RightSize data pos)
    (tiled : pos + (data pos).toNat ≤ size)
    (copies : data (pos + 1) = usbDescEp → pos + sizeofUsbEp ≤ size) :
    ∀ address ∈ copied data pos, address < size := by
  intro address member
  rw [copied] at member
  by_cases config : data (pos + 1) = usbDescConfig
  · have nine := right 9 (by rw [config]; rfl)
    rw [if_pos config, List.mem_range'_1] at member
    omega
  · by_cases iface : data (pos + 1) = usbDescIface
    · have nine := right 9 (by rw [iface]; rfl)
      rw [if_neg config, if_pos iface, List.mem_range'_1] at member
      omega
    · by_cases ep : data (pos + 1) = usbDescEp
      · have fits := copies ep
        rw [if_neg config, if_neg iface, if_pos ep, List.mem_range'_1] at member
        omega
      · rw [if_neg config, if_neg iface, if_neg ep] at member
        exact absurd member List.not_mem_nil

theorem WellFramed.parse {counts : Counts} (framed : WellFramed data size) :
    ∀ (parts done : List Nat) (state : Parsing), Parts data state.pos parts size →
      Parts data 0 (done ++ parts) size → (∀ part ∈ done ++ parts, RightSize data part) →
      Ordered data done → Seen data done state.parser → Reached data size state.pos →
      (∀ address ∈ state.reads, address < size) →
      ∃ parser reads, Loop.Returns (parseRound data size counts) state (parser, reads) ∧
        ∀ address ∈ reads, address < size := by
  intro parts
  induction parts with
  | nil =>
      intro done state tiles _ _ _ _ _ reads
      have ends : state.pos = size := by
        cases tiles
        rfl
      have returned : parseRound data size counts state =
          .inl (some state.parser, state.reads) := by
        rw [parseRound, if_neg (by omega)]
      exact ⟨_, _, .done returned, reads⟩
  | cons first rest induction =>
      intro done state tiles whole sized ordered seen reached reads
      have first_ : first = state.pos := by
        cases tiles
        rfl
      subst first_
      cases tiles with
      | cons positive tiles =>
          have tiled := tiles.le
          have inside : state.pos < size := by omega
          have right := sized state.pos (by simp)
          have header := (header_reads_iff.mpr (framed.fits _ reached inside)) (state.pos + 1)
            (by simp)
          have round := copied_inside right tiled
            (framed.copies done state.pos rest whole sized ordered)
          have within : ∀ address ∈ state.reads ++ ((state.pos + 1) :: copied data state.pos),
              address < size := by
            rw [List.forall_mem_append, List.forall_mem_cons]
            exact ⟨reads, header, round⟩
          cases round : state.parser.round data state.pos counts with
          | some next =>
              have follows : MayFollow data done state.pos :=
                (seen.mayFollow_iff counts).mpr fun none_ => nomatch round.symm.trans none_
              have regroup : done ++ state.pos :: rest = (done ++ [state.pos]) ++ rest := by simp
              rw [regroup] at whole sized
              have bounded : ∀ address ∈ state.reads ++
                  ((state.pos + 1) :: copied data state.pos) ++ [state.pos], address < size := by
                rw [List.forall_mem_append, List.forall_mem_singleton]
                exact ⟨within, inside⟩
              have later := induction (done ++ [state.pos])
                ⟨state.pos + (data state.pos).toNat, next, _⟩ tiles whole sized
                (ordered.snoc follows) (seen.round round) (.next reached inside right) bounded
              rcases later with ⟨parser, final, returns, bounded⟩
              exact ⟨parser, final, .next (parseRound_some inside round) returns, bounded⟩
          | none => exact ⟨_, _, .done (parseRound_none inside round), within⟩

/-- A parser that comes to an end has been at every descriptor that it comes to
over ordered ones. -/
theorem parse_passes {counts : Counts} {result : Option Parser × List Nat} {pos : Nat}
    {after : List Nat} :
    ∀ (before done : List Nat) (state : Parsing),
      Parts data state.pos (before ++ pos :: after) size → Ordered data (done ++ before) →
      Seen data done state.parser →
      Loop.Returns (parseRound data size counts) state result →
      ∃ last : Parsing, last.pos = pos ∧
        Loop.Returns (parseRound data size counts) last result := by
  intro before
  induction before with
  | nil =>
      intro done state tiles _ _ returns
      cases tiles
      exact ⟨state, rfl, returns⟩
  | cons first rest induction =>
      intro done state tiles ordered seen returns
      have first_ : first = state.pos := by
        cases tiles
        rfl
      subst first_
      cases tiles with
      | cons positive tiles =>
          have tiled := tiles.le
          have inside : state.pos < size := by omega
          have follows : MayFollow data done state.pos :=
            ordered done state.pos rest rfl
          have rounds := (seen.mayFollow_iff counts).mp follows
          rcases Option.ne_none_iff_exists'.mp rounds with ⟨next, round⟩
          have step := parseRound_some inside round
          cases returns with
          | done stops => cases step.symm.trans stops
          | next goesOn later =>
              cases step.symm.trans goesOn
              have regroup : done ++ state.pos :: rest = (done ++ [state.pos]) ++ rest := by simp
              rw [regroup] at ordered
              exact induction _ _ tiles ordered (seen.round round) later

/-- The copy of an endpoint that the parser comes to is among its reads. -/
theorem parse_copies {counts : Counts} {result : Option Parser × List Nat} {state : Parsing}
    (inside : state.pos < size) (ep : data (state.pos + 1) = usbDescEp)
    (returns : Loop.Returns (parseRound data size counts) state result) :
    state.pos + (sizeofUsbEp - 1) ∈ result.2 := by
  have last : state.pos + (sizeofUsbEp - 1) ∈
      state.reads ++ ((state.pos + 1) :: copied data state.pos) := by
    have copy : copied data state.pos = List.range' state.pos sizeofUsbEp := by
      rw [copied, ep, if_neg (by decide), if_neg (by decide), if_pos rfl]
    rw [copy, List.mem_append, List.mem_cons, List.mem_range'_1, sizeofUsbEp]
    omega
  cases round : state.parser.round data state.pos counts with
  | none =>
      have step := parseRound_none inside round
      cases returns with
      | done stops =>
          cases step.symm.trans stops
          exact last
      | next goesOn _ => cases step.symm.trans goesOn
  | some next =>
      have step := parseRound_some inside round
      cases returns with
      | done stops => cases step.symm.trans stops
      | next goesOn later =>
          cases step.symm.trans goesOn
          exact parse_reads_kept later _ (List.mem_append_left _ last)

/-! ## When the passes stay inside -/

theorem parts_append {last : Nat} :
    ∀ (front back : List Nat) {pos : Nat}, Parts data pos (front ++ back) last ↔
      ∃ middle, Parts data pos front middle ∧ Parts data middle back last
  | [], back, pos => by
      constructor
      · exact fun tiles => ⟨pos, .nil pos, tiles⟩
      · rintro ⟨middle, early, late⟩
        cases early
        exact late
  | first :: rest, back, pos => by
      constructor
      · intro tiles
        cases tiles with
        | cons positive tiles =>
            rcases (parts_append rest back).mp tiles with ⟨middle, early, late⟩
            exact ⟨middle, .cons positive early, late⟩
      · rintro ⟨middle, early, late⟩
        cases early with
        | cons positive early =>
            exact .cons positive ((parts_append rest back).mpr ⟨middle, early, late⟩)

theorem Parts.reached {last : Nat} (bound : last ≤ size) :
    ∀ {parts : List Nat} {pos : Nat}, Parts data pos parts last → Reached data size pos →
      (∀ part ∈ parts, RightSize data part) → Reached data size last
  | [], _, .nil _, reached, _ => reached
  | pos :: rest, _, .cons positive tiles, reached, sized => by
      have inside : pos < size := by
        have tiled := tiles.le
        omega
      exact Parts.reached bound tiles (.next reached inside (sized pos List.mem_cons_self))
        fun part member => sized part (List.mem_cons_of_mem _ member)

theorem StaysInside.wellFramed {dev : UsbDev} (stays : StaysInside data size dev) :
    WellFramed data size := by
  rcases stays with ⟨verdict, reads, returns, within, parses⟩
  constructor
  · intro pos reached inside
    rcases verify_passes returns reached with ⟨state, rfl, still⟩
    apply header_reads_iff.mp
    intro address member
    apply within
    by_cases right : RightSize data state.pos
    · cases still with
      | done stops => cases (verifyRound_inside inside right).symm.trans stops
      | next goesOn later =>
          cases (verifyRound_inside inside right).symm.trans goesOn
          exact verify_reads_kept later _ (List.mem_append_right _ member)
    · cases still with
      | done stops =>
          cases (verifyRound_wrong inside right).symm.trans stops
          exact List.mem_append_right _ member
      | next goesOn _ => cases (verifyRound_wrong inside right).symm.trans goesOn
  · intro pos reached inside zero
    rcases verify_passes returns reached with ⟨state, here, still⟩
    cases known : descSize (data (pos + 1)) with
    | some bytes => rfl
    | none =>
        have right : RightSize data pos := by
          rw [RightSize, known]
          exact fun bytes absent => nomatch absent
        exact absurd still (verify_stuck inside zero right here)
  · intro before pos after tiles sized ordered ep
    have whole : Reached data size size := tiles.reached (Nat.le_refl _) .start sized
    rcases verify_passes returns whole with ⟨state, here, still⟩
    have accepts : verifyRound data size state = .inl (.accepted state.counts, state.reads) := by
      rw [verifyRound, if_neg (by omega), if_pos here]
    cases still with
    | next goesOn _ => cases accepts.symm.trans goesOn
    | done stops =>
        cases accepts.symm.trans stops
        rcases parses state.counts rfl with ⟨parser, later, parsed, bounded⟩
        rcases parse_passes before [] _ tiles ordered (Seen.start _) parsed with
          ⟨last, rfl, rest⟩
        have inside : last.pos < size := by
          have front := (parts_append before (last.pos :: after)).mp tiles
          rcases front with ⟨middle, _, back⟩
          cases back with
          | cons positive tiling =>
              have tiled := tiling.le
              omega
        have copy := bounded _ (parse_copies inside ep rest)
        rw [sizeofUsbEp] at copy ⊢
        omega

theorem WellFramed.staysInside (framed : WellFramed data size) (dev : UsbDev) :
    StaysInside data size dev := by
  have verifies := framed.verify size ⟨0, ⟨0, 0, 0⟩, []⟩ (Nat.le_refl _) .start
    fun address member => absurd member List.not_mem_nil
  rcases verifies with ⟨verdict, reads, returns, within, tiles⟩
  refine ⟨verdict, reads, returns, within, ?_⟩
  intro counts accepted
  rcases tiles counts accepted with ⟨parts, tiling, sized⟩
  exact framed.parse parts [] _ tiling tiling sized .nil (Seen.start _) .start
    fun address member => absurd member List.not_mem_nil

/-- Both passes end and stay in the string exactly when it is well framed. -/
theorem descriptor_walk_inside_iff (data : Nat → UInt8) (size : Nat) (dev : UsbDev) :
    StaysInside data size dev ↔ WellFramed data size :=
  ⟨fun stays => stays.wellFramed, fun framed => framed.staysInside dev⟩

/-- A vendor descriptor of length 0: the first pass never gets past it. -/
def zeroLength : Nat → UInt8 := fun pos => [0, 0x21].getD pos 0

theorem zero_length_never_ends : ¬ StaysInside zeroLength 2 blankDevice := by
  intro stays
  have known := stays.wellFramed.advances 0 .start (by decide) (by decide)
  exact absurd known (by decide)

end Vanilla.Usb
