import Mathlib.Data.List.Nodup
import Mathlib.Data.List.Range
import Vanilla.Usb.Descriptors

namespace Vanilla.Usb

open Grouping

/-! The parser recovers the tree from the flat string: the records hold the
descriptors in order, and each group is the run up to the next header. -/

variable {data : Nat → UInt8}

/-! ## The descriptors of a string -/

/-- The positions of the descriptors from one position up to another. -/
inductive Parts (data : Nat → UInt8) : Nat → List Nat → Nat → Prop where
  | nil (pos : Nat) : Parts data pos [] pos
  | cons {pos last : Nat} {rest : List Nat} : 0 < (data pos).toNat →
      Parts data (pos + (data pos).toNat) rest last → Parts data pos (pos :: rest) last

theorem Parts.le {pos last : Nat} {parts : List Nat} (tiles : Parts data pos parts last) :
    pos ≤ last := by
  induction tiles with
  | nil => exact Nat.le_refl _
  | cons _ _ induction => exact Nat.le_trans (Nat.le_add_right _ _) induction

/-- How many of the descriptors are of a type. -/
def countType (data : Nat → UInt8) (type : UInt8) (parts : List Nat) : Nat :=
  parts.countP fun pos => data (pos + 1) = type

def countsOf (data : Nat → UInt8) (parts : List Nat) : Counts where
  configs := countType data usbDescConfig parts
  ifaces := countType data usbDescIface parts
  eps := countType data usbDescEp parts

/-- Configurations group interfaces. -/
def configMark (data : Nat → UInt8) (pos : Nat) : Mark :=
  if data (pos + 1) = usbDescConfig then .header
  else if data (pos + 1) = usbDescIface then .member
  else .other

/-- Interfaces group endpoints. -/
def ifaceMark (data : Nat → UInt8) (pos : Nat) : Mark :=
  if data (pos + 1) = usbDescIface then .header
  else if data (pos + 1) = usbDescEp then .member
  else .other

theorem countType_cons (type : UInt8) (pos : Nat) (rest : List Nat) :
    countType data type (pos :: rest) =
      countType data type rest + if data (pos + 1) = type then 1 else 0 := by
  simp [countType, List.countP_cons]

theorem countType_append (type : UInt8) (front back : List Nat) :
    countType data type (front ++ back) =
      countType data type front + countType data type back := by
  simp [countType, List.countP_append]

theorem configMark_header (parts : List Nat) :
    (parts.map (configMark data)).count .header = countType data usbDescConfig parts := by
  rw [List.count, List.countP_map, countType]
  apply List.countP_congr
  intro pos _
  simp only [Function.comp, configMark]
  split
  · simp_all
  · split <;> simp_all

theorem configMark_member (parts : List Nat) :
    (parts.map (configMark data)).count .member = countType data usbDescIface parts := by
  rw [List.count, List.countP_map, countType]
  apply List.countP_congr
  intro pos _
  simp only [Function.comp, configMark]
  split
  · simp_all [usbDescConfig, usbDescIface]
  · split <;> simp_all

theorem ifaceMark_header (parts : List Nat) :
    (parts.map (ifaceMark data)).count .header = countType data usbDescIface parts := by
  rw [List.count, List.countP_map, countType]
  apply List.countP_congr
  intro pos _
  simp only [Function.comp, ifaceMark]
  split
  · simp_all
  · split <;> simp_all

theorem ifaceMark_member (parts : List Nat) :
    (parts.map (ifaceMark data)).count .member = countType data usbDescEp parts := by
  rw [List.count, List.countP_map, countType]
  apply List.countP_congr
  intro pos _
  simp only [Function.comp, ifaceMark]
  split
  · simp_all [usbDescIface, usbDescEp]
  · split <;> simp_all

/-! ## The first pass -/

theorem verifyLoop_zero {size pos : Nat} (inside : pos < size) (zero : (data pos).toNat = 0) :
    ∀ (fuel : Nat) (counts final : Counts),
      verifyLoop data size fuel pos counts ≠ .accepted final
  | 0, _, _ => by simp [verifyLoop]
  | fuel + 1, counts, final => by
      have again := verifyLoop_zero inside zero fuel counts final
      rw [verifyLoop, if_pos inside]
      simp only [zero, Nat.add_zero]
      split
      · simp
      · split
        · simp
        · split
          · simp
          · exact again

/-- One descriptor in front of what has been counted behind it. -/
theorem counted_cons {size pos : Nat} {counts next final : Counts}
    (positive : 0 < (data pos).toNat)
    (configs : next.configs = counts.configs + if data (pos + 1) = usbDescConfig then 1 else 0)
    (ifaces : next.ifaces = counts.ifaces + if data (pos + 1) = usbDescIface then 1 else 0)
    (eps : next.eps = counts.eps + if data (pos + 1) = usbDescEp then 1 else 0)
    (rest : ∃ parts, Parts data (pos + (data pos).toNat) parts size ∧
      final.configs = next.configs + countType data usbDescConfig parts ∧
      final.ifaces = next.ifaces + countType data usbDescIface parts ∧
      final.eps = next.eps + countType data usbDescEp parts) :
    ∃ parts, Parts data pos parts size ∧
      final.configs = counts.configs + countType data usbDescConfig parts ∧
      final.ifaces = counts.ifaces + countType data usbDescIface parts ∧
      final.eps = counts.eps + countType data usbDescEp parts := by
  rcases rest with ⟨parts, tiles, restConfigs, restIfaces, restEps⟩
  refine ⟨pos :: parts, .cons positive tiles, ?_, ?_, ?_⟩
  · rw [restConfigs, configs, countType_cons, Nat.add_right_comm, Nat.add_assoc]
  · rw [restIfaces, ifaces, countType_cons, Nat.add_right_comm, Nat.add_assoc]
  · rw [restEps, eps, countType_cons, Nat.add_right_comm, Nat.add_assoc]

/-- What the first pass accepts is tiled by its descriptors, and counted. -/
theorem verifyLoop_accepted {size : Nat} :
    ∀ (fuel pos : Nat) (counts final : Counts),
      verifyLoop data size fuel pos counts = .accepted final →
      ∃ parts, Parts data pos parts size ∧
        final.configs = counts.configs + countType data usbDescConfig parts ∧
        final.ifaces = counts.ifaces + countType data usbDescIface parts ∧
        final.eps = counts.eps + countType data usbDescEp parts
  | 0, _, _, _, accepted => by cases accepted
  | fuel + 1, pos, counts, final, accepted => by
      by_cases inside : pos < size
      · have positive : 0 < (data pos).toNat := by
          apply Nat.pos_of_ne_zero
          intro zero
          exact verifyLoop_zero inside zero (fuel + 1) counts final accepted
        rw [verifyLoop, if_pos inside] at accepted
        by_cases config : data (pos + 1) = usbDescConfig
        · simp only [config, if_true] at accepted
          split at accepted
          · cases accepted
          · apply counted_cons positive _ _ _ (verifyLoop_accepted fuel _ _ _ accepted) <;>
              simp [config, usbDescConfig, usbDescIface, usbDescEp]
        · simp only [if_neg config] at accepted
          by_cases iface : data (pos + 1) = usbDescIface
          · simp only [iface, if_true] at accepted
            split at accepted
            · cases accepted
            · apply counted_cons positive _ _ _ (verifyLoop_accepted fuel _ _ _ accepted) <;>
                simp [iface, usbDescConfig, usbDescIface, usbDescEp]
          · simp only [if_neg iface] at accepted
            by_cases ep : data (pos + 1) = usbDescEp
            · simp only [ep, if_true] at accepted
              split at accepted
              · cases accepted
              · apply counted_cons positive _ _ _ (verifyLoop_accepted fuel _ _ _ accepted) <;>
                  simp [ep, usbDescConfig, usbDescIface, usbDescEp]
            · simp only [if_neg ep] at accepted
              apply counted_cons positive _ _ _ (verifyLoop_accepted fuel _ _ _ accepted) <;>
                simp [config, iface, ep]
      · rw [verifyLoop, if_neg inside] at accepted
        split at accepted
        · rename_i ends
          cases accepted
          exact ⟨[], ends ▸ .nil pos, rfl, rfl, rfl⟩
        · cases accepted

/-! ## Records in order -/

/-- The records of one array hold the descriptors of one type, in order. -/
def Recorded {length : Nat} (data : Nat → UInt8) (type : UInt8) (offset : Nat → Nat)
    (records : Nat → Vector UInt8 length) (parts : List Nat) : Prop :=
  ∀ before pos after, parts = before ++ pos :: after → data (pos + 1) = type →
    records (offset (countType data type before)) = bytesAt data pos length

theorem countType_lt {type : UInt8} {parts before after : List Nat} {pos : Nat}
    (split : parts = before ++ pos :: after) (same : data (pos + 1) = type) :
    countType data type before < countType data type parts := by
  rw [split, countType_append, countType_cons, if_pos same]
  omega

theorem Recorded.nil {length : Nat} {type : UInt8} {offset : Nat → Nat}
    (records : Nat → Vector UInt8 length) : Recorded data type offset records [] :=
  fun _ _ _ split => absurd split.symm (by simp)

theorem Recorded.snoc {length : Nat} {type : UInt8} {offset : Nat → Nat}
    {records : Nat → Vector UInt8 length} {parts : List Nat} {pos : Nat}
    (recorded : Recorded data type offset records parts)
    (injective : Function.Injective offset) :
    Recorded data type offset (Function.update records
      (offset (countType data type parts)) (bytesAt data pos length)) (parts ++ [pos]) := by
  intro before chosen after split chosenType
  cases split_snoc split with
  | inl last =>
      rw [last.2.1, last.2.2]
      exact Function.update_self ..
  | inr early =>
      rcases early with ⟨shorter, rfl, old⟩
      have below := countType_lt old chosenType
      have apart : offset (countType data type before) ≠ offset (countType data type parts) :=
        fun equal => Nat.ne_of_lt below (injective equal)
      rw [Function.update_of_ne apart]
      exact recorded before chosen shorter old chosenType

theorem Recorded.skip {length : Nat} {type : UInt8} {offset : Nat → Nat}
    {records : Nat → Vector UInt8 length} {parts : List Nat} {pos : Nat}
    (recorded : Recorded data type offset records parts) (other : data (pos + 1) ≠ type) :
    Recorded data type offset records (parts ++ [pos]) := by
  intro before chosen after split chosenType
  cases split_snoc split with
  | inl last => exact absurd (last.2.2 ▸ chosenType) other
  | inr early =>
      rcases early with ⟨shorter, rfl, old⟩
      exact recorded before chosen shorter old chosenType

theorem configOffset_injective : Function.Injective configOffset := by
  intro left right equal
  simp only [configOffset, sizeofUsbConfig] at equal
  omega

theorem ifaceOffset_injective (configs : Nat) : Function.Injective (ifaceOffset configs) := by
  intro left right equal
  simp only [ifaceOffset, sizeofUsbConfig, sizeofUsbIface] at equal
  omega

theorem epOffset_injective (configs ifaces : Nat) :
    Function.Injective (epOffset configs ifaces) := by
  intro left right equal
  simp only [epOffset, sizeofUsbConfig, sizeofUsbIface, sizeofUsbEp] at equal
  omega

/-! ## The second pass -/

/-- Records that mirror a grouping: a record at `own index` has the size of that
group, and points at `target` of its first member. -/
structure Mirror (own target : Nat → Nat) (index members : Nat) (last : Option Nat)
    (sizes firsts : Nat → Nat) (grouping : Grouping) : Prop where
  index : index = grouping.headers
  members : members = grouping.members
  last : last = if grouping.headers = 0 then none else some (own (grouping.headers - 1))
  size : ∀ group, group < grouping.headers → sizes (own group) = grouping.size group
  first : ∀ group, group < grouping.headers → 0 < grouping.size group →
    firsts (own group) = target (grouping.first group)

section Mirrors

variable {own target : Nat → Nat} {index members : Nat} {last : Option Nat}
  {sizes firsts : Nat → Nat} {grouping : Grouping}

theorem Mirror.header (injective : Function.Injective own)
    (mirror : Mirror own target index members last sizes firsts grouping) :
    ∃ next, grouping.add .header = some next ∧
      Mirror own target (index + 1) members (some (own index))
        (Function.update sizes (own index) 0) firsts next := by
  refine ⟨_, rfl, ?_⟩
  have older : ∀ group, group < grouping.headers → own group ≠ own index := by
    intro group below equal
    rw [mirror.index] at equal
    exact Nat.ne_of_lt below (injective equal)
  constructor
  · exact congrArg (· + 1) mirror.index
  · exact mirror.members
  · rw [if_neg (Nat.succ_ne_zero _), Nat.add_sub_cancel, mirror.index]
  · intro group below
    change _ = Function.update grouping.size grouping.headers 0 group
    cases Nat.lt_succ_iff_lt_or_eq.mp below with
    | inl earlier =>
        rw [Function.update_of_ne (older group earlier),
          Function.update_of_ne (Nat.ne_of_lt earlier)]
        exact mirror.size group earlier
    | inr newest => rw [newest, mirror.index, Function.update_self, Function.update_self]
  · intro group below positive
    change 0 < Function.update grouping.size grouping.headers 0 group at positive
    cases Nat.lt_succ_iff_lt_or_eq.mp below with
    | inl earlier =>
        rw [Function.update_of_ne (Nat.ne_of_lt earlier)] at positive
        exact mirror.first group earlier positive
    | inr newest =>
        rw [newest, Function.update_self] at positive
        exact absurd positive (Nat.lt_irrefl 0)

theorem Mirror.member (injective : Function.Injective own) {record : Nat}
    (mirror : Mirror own target index members (some record) sizes firsts grouping) :
    ∃ next, grouping.add .member = some next ∧
      Mirror own target index (members + 1) (some record)
        (Function.update sizes record (sizes record + 1))
        (Function.update firsts record
          (if sizes record = 0 then target members else firsts record)) next := by
  by_cases empty : grouping.headers = 0
  · have none_ := mirror.last
    rw [if_pos empty] at none_
    cases none_
  have present := mirror.last
  rw [if_neg empty] at present
  cases Option.some.inj present
  have newest : grouping.headers - 1 < grouping.headers := by omega
  have size := mirror.size _ newest
  have apart : ∀ group, group ≠ grouping.headers - 1 →
      own group ≠ own (grouping.headers - 1) := fun _ other equal => other (injective equal)
  refine ⟨_, by rw [Grouping.add, if_neg empty], ?_⟩
  constructor
  · exact mirror.index
  · exact congrArg (· + 1) mirror.members
  · rw [if_neg empty]
  · intro group below
    change _ = Function.update grouping.size (grouping.headers - 1) _ group
    by_cases same : group = grouping.headers - 1
    · rw [same, Function.update_self, Function.update_self, size]
    · rw [Function.update_of_ne (apart group same), Function.update_of_ne same]
      exact mirror.size group below
  · intro group below positive
    change _ = target ((if grouping.size (grouping.headers - 1) = 0 then
      Function.update grouping.first (grouping.headers - 1) grouping.members
      else grouping.first) group)
    by_cases same : group = grouping.headers - 1
    · rw [same, Function.update_self, size]
      by_cases fresh : grouping.size (grouping.headers - 1) = 0
      · simp only [if_pos fresh]
        rw [Function.update_self, mirror.members]
      · simp only [if_neg fresh]
        exact mirror.first _ newest (Nat.pos_of_ne_zero fresh)
    · change 0 < Function.update grouping.size (grouping.headers - 1) _ group at positive
      rw [Function.update_of_ne same] at positive
      have kept := mirror.first group below positive
      rw [Function.update_of_ne (apart group same)]
      by_cases fresh : grouping.size (grouping.headers - 1) = 0
      · simp only [if_pos fresh]
        rw [Function.update_of_ne same]
        exact kept
      · simp only [if_neg fresh]
        exact kept

end Mirrors

/-- A field of the records after one of them has been rewritten. -/
theorem field_update {Record Field : Type} (field : Record → Field) (records : Nat → Record)
    (offset : Nat) (record : Record) :
    (fun other => field (Function.update records offset record other)) =
      Function.update (fun other => field (records other)) offset (field record) := by
  funext other
  by_cases same : other = offset
  · rw [same, Function.update_self, Function.update_self]
  · rw [Function.update_of_ne same, Function.update_of_ne same]

/-- Rewriting a record with the same field changes no field. -/
theorem field_update_same {Record Field : Type} (field : Record → Field)
    (records : Nat → Record) (offset : Nat) (record : Record)
    (same : field record = field (records offset)) :
    (fun other => field (Function.update records offset record other)) =
      fun other => field (records other) := by
  rw [field_update, same]
  exact Function.update_eq_self offset fun other => field (records other)

/-- Configuration records mirror the interfaces after each configuration. -/
def ConfigsMirror (counts : Counts) (parser : Parser) : Grouping → Prop :=
  Mirror configOffset (ifaceOffset counts.configs) parser.configIndex parser.ifaceIndex
    parser.lastCfg (fun offset => (parser.dev.configs offset).numIfaces)
    fun offset => (parser.dev.configs offset).ifaces

/-- Interface records mirror the endpoints after each interface. -/
def IfacesMirror (counts : Counts) (parser : Parser) : Grouping → Prop :=
  Mirror (ifaceOffset counts.configs) (epOffset counts.configs counts.ifaces)
    parser.ifaceIndex parser.epIndex parser.lastIface
    (fun offset => (parser.dev.ifaces offset).numEps)
    fun offset => (parser.dev.ifaces offset).eps

theorem usbcGetDescOffset_config (configs ifaces index : Nat) :
    usbcGetDescOffset configs ifaces usbDescConfig index = configOffset index := rfl

theorem usbcGetDescOffset_iface (configs ifaces index : Nat) :
    usbcGetDescOffset configs ifaces usbDescIface index = ifaceOffset configs index := rfl

theorem usbcGetDescOffset_ep (configs ifaces index : Nat) :
    usbcGetDescOffset configs ifaces usbDescEp index = epOffset configs ifaces index := rfl

/-- What holds of the parser once these descriptors are read. -/
structure Parsed (data : Nat → UInt8) (counts : Counts) (start : UsbDev) (done : List Nat)
    (parser : Parser) : Prop where
  configs : ∃ grouping, Groups (done.map (configMark data)) grouping ∧
    ConfigsMirror counts parser grouping
  ifaces : ∃ grouping, Groups (done.map (ifaceMark data)) grouping ∧
    IfacesMirror counts parser grouping
  configDesc : Recorded data usbDescConfig configOffset
    (fun offset => (parser.dev.configs offset).desc) done
  ifaceDesc : Recorded data usbDescIface (ifaceOffset counts.configs)
    (fun offset => (parser.dev.ifaces offset).desc) done
  epDesc : Recorded data usbDescEp (epOffset counts.configs counts.ifaces)
    (fun offset => (parser.dev.eps offset).desc) done
  listed : parser.dev.ifaceList = start.ifaceList
  sized : parser.dev.descTotalSize = start.descTotalSize

namespace Parsed

variable {counts : Counts} {start : UsbDev} {done : List Nat} {parser next : Parser} {pos : Nat}

theorem configIndex (parsed : Parsed data counts start done parser) :
    parser.configIndex = countType data usbDescConfig done := by
  rcases parsed.configs with ⟨grouping, groups, mirror⟩
  rw [mirror.index, groups.headers, configMark_header]

theorem ifaceIndex (parsed : Parsed data counts start done parser) :
    parser.ifaceIndex = countType data usbDescIface done := by
  rcases parsed.ifaces with ⟨grouping, groups, mirror⟩
  rw [mirror.index, groups.headers, ifaceMark_header]

theorem epIndex (parsed : Parsed data counts start done parser) :
    parser.epIndex = countType data usbDescEp done := by
  rcases parsed.ifaces with ⟨grouping, groups, mirror⟩
  rw [mirror.members, groups.members, ifaceMark_member]

theorem groups_snoc {mark : Nat → Mark} {grouping grouped : Grouping}
    (groups : Groups (done.map mark) grouping)
    (added : grouping.add (mark pos) = some grouped) :
    Groups ((done ++ [pos]).map mark) grouped := by
  rw [List.map_append]
  exact groups.add added

theorem onConfig (parsed : Parsed data counts start done parser)
    (type : data (pos + 1) = usbDescConfig) :
    Parsed data counts start (done ++ [pos]) (parser.onConfig data pos counts) := by
  have header : configMark data pos = .header := if_pos type
  have other : ifaceMark data pos = .other := by
    rw [ifaceMark, if_neg (by rw [type]; decide), if_neg (by rw [type]; decide)]
  have index := parsed.configIndex
  constructor
  · rcases parsed.configs with ⟨grouping, groups, mirror⟩
    rcases mirror.header configOffset_injective with ⟨grouped, added, kept⟩
    refine ⟨grouped, groups_snoc groups (header ▸ added), ?_⟩
    rw [ConfigsMirror]
    simp only [Parser.onConfig, usbcGetDescOffset_config]
    rw [field_update UsbConfig.numIfaces, field_update_same UsbConfig.ifaces]
    · exact kept
    · rfl
  · rcases parsed.ifaces with ⟨grouping, groups, mirror⟩
    exact ⟨grouping, groups_snoc groups (by rw [other]; rfl), mirror⟩
  · simp only [Parser.onConfig, usbcGetDescOffset_config]
    rw [field_update UsbConfig.desc, index]
    exact parsed.configDesc.snoc configOffset_injective
  · exact parsed.ifaceDesc.skip (by rw [type]; decide)
  · exact parsed.epDesc.skip (by rw [type]; decide)
  · exact parsed.listed
  · exact parsed.sized

theorem onIface (parsed : Parsed data counts start done parser)
    (type : data (pos + 1) = usbDescIface)
    (step : parser.onIface data pos counts = some next) :
    Parsed data counts start (done ++ [pos]) next := by
  have member : configMark data pos = .member := by
    rw [configMark, if_neg (by rw [type]; decide), if_pos type]
  have header : ifaceMark data pos = .header := if_pos type
  have index := parsed.ifaceIndex
  cases present : parser.lastCfg with
  | none =>
      rw [Parser.onIface, present] at step
      cases step
  | some record =>
      rw [Parser.onIface, present, Option.map_some] at step
      cases Option.some.inj step
      constructor
      · rcases parsed.configs with ⟨grouping, groups, mirror⟩
        rw [ConfigsMirror, present] at mirror
        rcases mirror.member configOffset_injective with ⟨grouped, added, kept⟩
        refine ⟨grouped, groups_snoc groups (member ▸ added), ?_⟩
        rw [ConfigsMirror]
        simp only [UsbDev.addIface, usbcGetDescOffset_iface]
        rw [field_update UsbConfig.numIfaces, field_update UsbConfig.ifaces]
        exact kept
      · rcases parsed.ifaces with ⟨grouping, groups, mirror⟩
        rcases mirror.header (ifaceOffset_injective _) with ⟨grouped, added, kept⟩
        refine ⟨grouped, groups_snoc groups (header ▸ added), ?_⟩
        rw [IfacesMirror]
        simp only [UsbDev.addIface, usbcGetDescOffset_iface]
        rw [field_update UsbIface.numEps, field_update_same UsbIface.eps]
        · exact kept
        · rfl
      · simp only [UsbDev.addIface]
        rw [field_update_same UsbConfig.desc]
        · exact parsed.configDesc.skip (by rw [type]; decide)
        · rfl
      · simp only [UsbDev.addIface, usbcGetDescOffset_iface]
        rw [field_update UsbIface.desc, index]
        exact parsed.ifaceDesc.snoc (ifaceOffset_injective _)
      · exact parsed.epDesc.skip (by rw [type]; decide)
      · exact parsed.listed
      · exact parsed.sized

theorem onEp (parsed : Parsed data counts start done parser)
    (type : data (pos + 1) = usbDescEp)
    (step : parser.onEp data pos counts = some next) :
    Parsed data counts start (done ++ [pos]) next := by
  have other : configMark data pos = .other := by
    rw [configMark, if_neg (by rw [type]; decide), if_neg (by rw [type]; decide)]
  have member : ifaceMark data pos = .member := by
    rw [ifaceMark, if_neg (by rw [type]; decide), if_pos type]
  have index := parsed.epIndex
  cases present : parser.lastIface with
  | none =>
      rw [Parser.onEp, present] at step
      cases step
  | some record =>
      rw [Parser.onEp, present, Option.map_some] at step
      cases Option.some.inj step
      constructor
      · rcases parsed.configs with ⟨grouping, groups, mirror⟩
        exact ⟨grouping, groups_snoc groups (by rw [other]; rfl), mirror⟩
      · rcases parsed.ifaces with ⟨grouping, groups, mirror⟩
        rw [IfacesMirror, present] at mirror
        rcases mirror.member (ifaceOffset_injective _) with ⟨grouped, added, kept⟩
        refine ⟨grouped, groups_snoc groups (member ▸ added), ?_⟩
        rw [IfacesMirror]
        simp only [UsbDev.addEp, usbcGetDescOffset_ep]
        rw [field_update UsbIface.numEps, field_update UsbIface.eps]
        exact kept
      · exact parsed.configDesc.skip (by rw [type]; decide)
      · simp only [UsbDev.addEp]
        rw [field_update_same UsbIface.desc]
        · exact parsed.ifaceDesc.skip (by rw [type]; decide)
        · rfl
      · simp only [UsbDev.addEp, usbcGetDescOffset_ep]
        rw [field_update UsbEp.desc, index]
        exact parsed.epDesc.snoc (epOffset_injective _ _)
      · exact parsed.listed
      · exact parsed.sized

theorem round (parsed : Parsed data counts start done parser)
    (step : parser.round data pos counts = some next) :
    Parsed data counts start (done ++ [pos]) next := by
  rw [Parser.round] at step
  by_cases config : data (pos + 1) = usbDescConfig
  · rw [if_pos config] at step
    cases Option.some.inj step
    exact parsed.onConfig config
  by_cases iface : data (pos + 1) = usbDescIface
  · rw [if_neg config, if_pos iface] at step
    exact parsed.onIface iface step
  by_cases ep : data (pos + 1) = usbDescEp
  · rw [if_neg config, if_neg iface, if_pos ep] at step
    exact parsed.onEp ep step
  rw [if_neg config, if_neg iface, if_neg ep] at step
  cases Option.some.inj step
  have configOther : configMark data pos = .other := by
    rw [configMark, if_neg config, if_neg iface]
  have ifaceOther : ifaceMark data pos = .other := by
    rw [ifaceMark, if_neg iface, if_neg ep]
  rcases parsed.configs with ⟨configGrouping, configGroups, configMirror⟩
  rcases parsed.ifaces with ⟨ifaceGrouping, ifaceGroups, ifaceMirror⟩
  exact ⟨⟨_, groups_snoc configGroups (by rw [configOther]; rfl), configMirror⟩,
    ⟨_, groups_snoc ifaceGroups (by rw [ifaceOther]; rfl), ifaceMirror⟩,
    parsed.configDesc.skip config, parsed.ifaceDesc.skip iface, parsed.epDesc.skip ep,
    parsed.listed, parsed.sized⟩

end Parsed

/-- What every round keeps holds once a tiled string is parsed. -/
theorem parseLoop_invariant {counts : Counts} {size : Nat} (Holds : List Nat → Parser → Prop)
    (rounds : ∀ (done : List Nat) (pos : Nat) (parser next : Parser), Holds done parser →
      parser.round data pos counts = some next → Holds (done ++ [pos]) next) :
    ∀ (fuel pos : Nat) (parts done : List Nat) (parser last : Parser),
      Parts data pos parts size → Holds done parser →
      parseLoop data size counts fuel pos parser = some last → Holds (done ++ parts) last
  | 0, _, _, _, _, _, _, _, step => by cases step
  | fuel + 1, pos, [], done, parser, last, tiles, holds, step => by
      cases tiles
      rw [parseLoop, if_neg (Nat.lt_irrefl _)] at step
      cases Option.some.inj step
      rw [List.append_nil]
      exact holds
  | fuel + 1, pos, _ :: rest, done, parser, last, tiles, holds, step => by
      cases tiles with
      | cons positive tiles =>
          have inside : pos < size := by
            have order := tiles.le
            omega
          rw [parseLoop, if_pos inside] at step
          rcases Option.bind_eq_some_iff.mp step with ⟨next, rounded, later⟩
          have further := parseLoop_invariant Holds rounds fuel _ rest (done ++ [pos]) next last
            tiles (rounds done pos parser next holds rounded) later
          rwa [List.append_assoc, List.singleton_append] at further

/-- Parsing the rest of a tiled string. -/
theorem parseLoop_parsed {counts : Counts} {start : UsbDev} {size : Nat} (fuel pos : Nat)
    (parts done : List Nat) (parser last : Parser) (tiles : Parts data pos parts size)
    (parsed : Parsed data counts start done parser)
    (step : parseLoop data size counts fuel pos parser = some last) :
    Parsed data counts start (done ++ parts) last :=
  parseLoop_invariant (Parsed data counts start) (fun _ _ _ _ parsed round => parsed.round round)
    fuel pos parts done parser last tiles parsed step

/-! ## The whole tree -/

theorem Parsed.begin (data : Nat → UInt8) (counts : Counts) (dev : UsbDev) :
    Parsed data counts dev [] (.start dev) where
  configs := ⟨⟨0, 0, fun _ => 0, fun _ => 0⟩, .empty _ _, rfl, rfl, rfl,
    fun _ below => absurd below (Nat.not_lt_zero _),
    fun _ below => absurd below (Nat.not_lt_zero _)⟩
  ifaces := ⟨⟨0, 0, fun _ => 0, fun _ => 0⟩, .empty _ _, rfl, rfl, rfl,
    fun _ below => absurd below (Nat.not_lt_zero _),
    fun _ below => absurd below (Nat.not_lt_zero _)⟩
  configDesc := .nil _
  ifaceDesc := .nil _
  epDesc := .nil _
  listed := rfl
  sized := rfl

/-- What initializing an array keeps. -/
theorem foldl_keeps {Value : Type} (view : UsbDev → Value) (init : UsbDev → Nat → UsbDev)
    (keeps : ∀ dev index, view (init dev index) = view dev) :
    ∀ (indices : List Nat) (dev : UsbDev), view (indices.foldl init dev) = view dev
  | [], _ => rfl
  | index :: rest, dev =>
      (foldl_keeps view init keeps rest (init dev index)).trans (keeps dev index)

theorem foldl_initIface (configs : Nat) :
    ∀ (indices : List Nat) (dev : UsbDev),
      (indices.foldl (initIface configs) dev).ifaceList =
        (indices.map (ifaceOffset configs)).reverse ++ dev.ifaceList
  | [], _ => rfl
  | index :: rest, dev => by
      rw [List.foldl_cons, foldl_initIface configs rest, List.map_cons, List.reverse_cons,
        List.append_assoc]
      rfl

theorem usbcInitDescriptors_ifaceList (dev : UsbDev) (counts : Counts) :
    (usbcInitDescriptors dev counts).ifaceList =
      ((List.range counts.ifaces).map (ifaceOffset counts.configs)).reverse ++
        dev.ifaceList := by
  rw [usbcInitDescriptors]
  rw [foldl_keeps UsbDev.ifaceList (initEp counts.configs counts.ifaces) fun _ _ => rfl,
    foldl_initIface, foldl_keeps UsbDev.ifaceList initConfig fun _ _ => rfl]

theorem usbcInitDescriptors_descTotalSize (dev : UsbDev) (counts : Counts) :
    (usbcInitDescriptors dev counts).descTotalSize = dev.descTotalSize := by
  rw [usbcInitDescriptors]
  rw [foldl_keeps UsbDev.descTotalSize (initEp counts.configs counts.ifaces) fun _ _ => rfl,
    foldl_keeps UsbDev.descTotalSize (initIface counts.configs) fun _ _ => rfl,
    foldl_keeps UsbDev.descTotalSize initConfig fun _ _ => rfl]

/-- A record of one of the three arrays. -/
inductive RecordId where
  | config (index : Nat)
  | iface (index : Nat)
  | ep (index : Nat)

namespace RecordId

def Valid (counts : Counts) : RecordId → Prop
  | config index => index < counts.configs
  | iface index => index < counts.ifaces
  | ep index => index < counts.eps

/-- The bytes of a record in the buffer. -/
def Covers (counts : Counts) (address : Nat) : RecordId → Prop
  | config index => configOffset index ≤ address ∧
      address < configOffset index + sizeofUsbConfig
  | iface index => ifaceOffset counts.configs index ≤ address ∧
      address < ifaceOffset counts.configs index + sizeofUsbIface
  | ep index => epOffset counts.configs counts.ifaces index ≤ address ∧
      address < epOffset counts.configs counts.ifaces index + sizeofUsbEp

end RecordId

/-- Every byte of the buffer belongs to exactly one record, and none outside
it does. -/
theorem buffer_partition (counts : Counts) (address : Nat) :
    address < counts.configs * sizeofUsbConfig + counts.ifaces * sizeofUsbIface +
        counts.eps * sizeofUsbEp ↔
      ∃! record : RecordId, record.Valid counts ∧ record.Covers counts address := by
  constructor
  · intro inside
    simp only [sizeofUsbConfig, sizeofUsbIface, sizeofUsbEp] at inside
    by_cases first : address < counts.configs * 24
    · refine ⟨.config (address / 24), ?_, ?_⟩
      · simp only [RecordId.Valid, RecordId.Covers, configOffset, sizeofUsbConfig]
        omega
      · intro record covers
        cases record <;>
          simp only [RecordId.Valid, RecordId.Covers, configOffset, ifaceOffset, epOffset,
            sizeofUsbConfig, sizeofUsbIface, sizeofUsbEp, RecordId.config.injEq] at covers ⊢ <;>
          omega
    by_cases second : address < counts.configs * 24 + counts.ifaces * 40
    · refine ⟨.iface ((address - counts.configs * 24) / 40), ?_, ?_⟩
      · simp only [RecordId.Valid, RecordId.Covers, ifaceOffset, sizeofUsbConfig,
          sizeofUsbIface]
        omega
      · intro record covers
        cases record <;>
          simp only [RecordId.Valid, RecordId.Covers, configOffset, ifaceOffset, epOffset,
            sizeofUsbConfig, sizeofUsbIface, sizeofUsbEp, RecordId.iface.injEq] at covers ⊢ <;>
          omega
    · refine ⟨.ep ((address - counts.configs * 24 - counts.ifaces * 40) / 12), ?_, ?_⟩
      · simp only [RecordId.Valid, RecordId.Covers, epOffset, sizeofUsbConfig,
          sizeofUsbIface, sizeofUsbEp]
        omega
      · intro record covers
        cases record <;>
          simp only [RecordId.Valid, RecordId.Covers, configOffset, ifaceOffset, epOffset,
            sizeofUsbConfig, sizeofUsbIface, sizeofUsbEp, RecordId.ep.injEq] at covers ⊢ <;>
          omega
  · intro only
    rcases only with ⟨record, covers, _⟩
    cases record <;>
      simp only [RecordId.Valid, RecordId.Covers, configOffset, ifaceOffset, epOffset,
        sizeofUsbConfig, sizeofUsbIface, sizeofUsbEp] at covers ⊢ <;>
      omega

/-- The tree says what the string says. -/
structure FaithfulTree (data : Nat → UInt8) (parts : List Nat) (counts : Counts)
    (dev : UsbDev) : Prop where
  counted : counts = countsOf data parts
  configDesc : Recorded data usbDescConfig configOffset (fun offset => (dev.configs offset).desc)
    parts
  ifaceDesc : Recorded data usbDescIface (ifaceOffset counts.configs)
    (fun offset => (dev.ifaces offset).desc) parts
  epDesc : Recorded data usbDescEp (epOffset counts.configs counts.ifaces)
    (fun offset => (dev.eps offset).desc) parts
  /-- A configuration has the interfaces up to the next one. -/
  configIfaces : ∀ before pos after, parts = before ++ pos :: after →
    data (pos + 1) = usbDescConfig →
    let config := dev.configs (configOffset (countType data usbDescConfig before))
    config.numIfaces = groupSize (after.map (configMark data)) ∧
      (0 < config.numIfaces →
        config.ifaces = ifaceOffset counts.configs (countType data usbDescIface before))
  /-- An interface has the endpoints up to the next one. -/
  ifaceEps : ∀ before pos after, parts = before ++ pos :: after →
    data (pos + 1) = usbDescIface →
    let iface := dev.ifaces (ifaceOffset counts.configs (countType data usbDescIface before))
    iface.numEps = groupSize (after.map (ifaceMark data)) ∧
      (0 < iface.numEps →
        iface.eps = epOffset counts.configs counts.ifaces (countType data usbDescEp before))
  buffer : ∀ address, address < dev.descTotalSize ↔
    ∃! record : RecordId, record.Valid counts ∧ record.Covers counts address
  /-- Each interface once, the last one first. -/
  listed : dev.ifaceList =
    ((List.range counts.ifaces).map (ifaceOffset counts.configs)).reverse
  distinct : dev.ifaceList.Nodup

/-- The sizes and first members of the records, read off a grouping. -/
theorem Mirror.groups {own target : Nat → Nat} {index members : Nat} {last : Option Nat}
    {sizes firsts : Nat → Nat} {grouping : Grouping} {mark : Nat → Mark} {parts : List Nat}
    (mirror : Mirror own target index members last sizes firsts grouping)
    (groups : Groups (parts.map mark) grouping) {before after : List Nat} {pos : Nat}
    (split : parts = before ++ pos :: after) (header : mark pos = .header) :
    sizes (own ((before.map mark).count .header)) = groupSize (after.map mark) ∧
      (0 < sizes (own ((before.map mark).count .header)) →
        firsts (own ((before.map mark).count .header)) =
          target ((before.map mark).count .member)) := by
  have marks : parts.map mark = before.map mark ++ .header :: after.map mark := by
    rw [split, List.map_append, List.map_cons, header]
  have below : (before.map mark).count .header < grouping.headers := by
    rw [groups.headers, ← count_header_lt marks]
    omega
  have size := (mirror.size _ below).trans (groups.size _ _ marks)
  refine ⟨size, fun positive => ?_⟩
  rw [size] at positive
  have positiveGroup : 0 < grouping.size ((before.map mark).count .header) := by
    rw [groups.size _ _ marks]
    exact positive
  rw [mirror.first _ below positiveGroup, groups.first _ _ marks positive]

/-- The interfaces of a configuration are those up to the next one. -/
theorem Parsed.configGroup {counts : Counts} {start : UsbDev} {parts : List Nat} {parser : Parser}
    (parsed : Parsed data counts start parts parser) {before after : List Nat} {pos : Nat}
    (split : parts = before ++ pos :: after) (type : data (pos + 1) = usbDescConfig) :
    let config := parser.dev.configs (configOffset (countType data usbDescConfig before))
    config.numIfaces = groupSize (after.map (configMark data)) ∧
      (0 < config.numIfaces →
        config.ifaces = ifaceOffset counts.configs (countType data usbDescIface before)) := by
  rcases parsed.configs with ⟨grouping, groups, mirror⟩
  have found := mirror.groups groups split (if_pos type)
  rw [configMark_header, configMark_member] at found
  exact found

/-- The endpoints of an interface are those up to the next one. -/
theorem Parsed.ifaceGroup {counts : Counts} {start : UsbDev} {parts : List Nat} {parser : Parser}
    (parsed : Parsed data counts start parts parser) {before after : List Nat} {pos : Nat}
    (split : parts = before ++ pos :: after) (type : data (pos + 1) = usbDescIface) :
    let iface := parser.dev.ifaces (ifaceOffset counts.configs (countType data usbDescIface before))
    iface.numEps = groupSize (after.map (ifaceMark data)) ∧
      (0 < iface.numEps →
        iface.eps = epOffset counts.configs counts.ifaces (countType data usbDescEp before)) := by
  rcases parsed.ifaces with ⟨grouping, groups, mirror⟩
  have found := mirror.groups groups split (if_pos type)
  rw [ifaceMark_header, ifaceMark_member] at found
  exact found

/-- Whatever the first pass accepts and the second parses, the tree is that of
the string. -/
theorem descriptor_tree_faithful {data : Nat → UInt8} {size : Nat} {dev parsed : UsbDev}
    {counts : Counts} (fresh : dev.ifaceList = [])
    (verified : usbcVerifyDescriptors data size = .accepted counts)
    (returned : usbcParseDescriptors dev data size = some parsed) :
    ∃ parts, Parts data 0 parts size ∧ FaithfulTree data parts counts parsed := by
  rcases verifyLoop_accepted _ _ _ _ verified with ⟨parts, tiles, configs, ifaces, eps⟩
  let start := usbcInitDescriptors (usbcAllocDescriptors dev counts) counts
  rw [usbcParseDescriptors, verified] at returned
  rcases Option.map_eq_some_iff.mp returned with ⟨last, looped, rfl⟩
  have result := parseLoop_parsed _ _ _ _ _ _ tiles (Parsed.begin data counts start) looped
  rw [List.nil_append] at result
  have counted : counts = countsOf data parts := by
    simp only [Nat.zero_add] at configs ifaces eps
    rw [countsOf, ← configs, ← ifaces, ← eps]
  have listed : last.dev.ifaceList =
      ((List.range counts.ifaces).map (ifaceOffset counts.configs)).reverse := by
    rw [result.listed, usbcInitDescriptors_ifaceList]
    change _ ++ dev.ifaceList = _
    rw [fresh, List.append_nil]
  refine ⟨parts, tiles, counted, result.configDesc, result.ifaceDesc, result.epDesc, ?_, ?_, ?_,
    listed, ?_⟩
  · exact fun before pos after split type => result.configGroup split type
  · exact fun before pos after split type => result.ifaceGroup split type
  · intro address
    rw [result.sized, usbcInitDescriptors_descTotalSize]
    exact buffer_partition counts address
  · rw [listed, List.nodup_reverse]
    exact List.nodup_range.map (ifaceOffset_injective _)

/-- A configuration, an interface and an endpoint. -/
def sampleDescriptors : List UInt8 :=
  [9, 2, 25, 0, 1, 1, 0, 0x80, 50, 9, 4, 0, 0, 1, 3, 1, 1, 0, 7, 5, 0x81, 3, 8, 0, 10]

def blankDevice : UsbDev where
  descTotalSize := 0
  numConfigs := 0
  configs := fun _ => { desc := .replicate 9 0, ifaces := 0, numIfaces := 0, currIface := none }
  ifaces := fun _ =>
    { desc := .replicate 9 0, eps := 0, numEps := 0, driver := none, assigned := false }
  eps := fun _ => { desc := .replicate 7 0, pad := 0, pipe := .replicate 4 0 }
  ifaceList := []

theorem sampleDescriptors_parsed :
    (usbcParseDescriptors blankDevice (fun pos => sampleDescriptors[pos]?.getD 0) 25).isSome := by
  decide

theorem descriptor_tree_faithful_sample :
    ∃ parts parsed, Parts (fun pos => sampleDescriptors[pos]?.getD 0) 0 parts 25 ∧
      FaithfulTree (fun pos => sampleDescriptors[pos]?.getD 0) parts ⟨1, 1, 1⟩ parsed := by
  rcases Option.isSome_iff_exists.mp sampleDescriptors_parsed with ⟨parsed, returned⟩
  have verified : usbcVerifyDescriptors (fun pos => sampleDescriptors[pos]?.getD 0) 25 =
      .accepted ⟨1, 1, 1⟩ := by decide
  rcases descriptor_tree_faithful rfl verified returned with ⟨parts, tiles, faithful⟩
  exact ⟨parts, parsed, tiles, faithful⟩

end Vanilla.Usb
