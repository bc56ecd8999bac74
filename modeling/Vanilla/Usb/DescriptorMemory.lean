import Vanilla.Usb.DescriptorReads
import Vanilla.Usb.Enumeration

namespace Vanilla.Usb

open Grouping

/-! What a parsed device keeps of the memory it was allocated in. Every pointer
is set up in one of three places, or by none of them. -/

variable {data : Nat → UInt8} {size : Nat} {counts : Counts}

/-! ## usbc_add_device -/

/-- `struct usb_dev` up to what enumeration fills in later. -/
structure AddedDev where
  dev : UsbDev
  product : Nat → UInt8
  manufacturer : Nat → UInt8
  pipes : Vector (Option Nat) maxPipes
  pipeBm : Nat

/-- `"None"` with its termination. -/
def noneString : List UInt8 := [78, 111, 110, 101, 0]

def stringCopy (source : List UInt8) (dest : Nat → UInt8) : Nat → UInt8 :=
  fun index => source.getD index (dest index)

/-- `usbc_add_device`, on whatever the memory holds. -/
def usbcAddDevice (memory : AddedDev) : AddedDev where
  dev := { memory.dev with ifaceList := [] }
  product := stringCopy noneString memory.product
  manufacturer := stringCopy noneString memory.manufacturer
  pipes := .replicate maxPipes none
  pipeBm := 0

/-- The device that is made of the memory and the string. -/
def parsedIn (memory : AddedDev) (data : Nat → UInt8) (size : Nat) : Option UsbDev :=
  usbcParseDescriptors (usbcAddDevice memory).dev data size

/-! ## What is asked of the result -/

structure ResultInitialized (counts : Counts) (dev : UsbDev) : Prop where
  numConfigs : dev.numConfigs = counts.configs
  pipe : ∀ index, index < counts.eps →
    (dev.eps (epOffset counts.configs counts.ifaces index)).pipe = .replicate 4 0
  currIface : ∀ index, index < counts.configs →
    (dev.configs (configOffset index)).currIface = none
  driver : ∀ index, index < counts.ifaces →
    (dev.ifaces (ifaceOffset counts.configs index)).driver = none

/-- No field that comes of the parse differs. -/
structure SameParse (counts : Counts) (first second : UsbDev) : Prop where
  numConfigs : first.numConfigs = second.numConfigs
  descTotalSize : first.descTotalSize = second.descTotalSize
  ifaceList : first.ifaceList = second.ifaceList
  configs : ∀ index, index < counts.configs →
    first.configs (configOffset index) = second.configs (configOffset index)
  ifaces : ∀ index, index < counts.ifaces →
    first.ifaces (ifaceOffset counts.configs index) =
      second.ifaces (ifaceOffset counts.configs index)
  eps : ∀ index, index < counts.eps →
    first.eps (epOffset counts.configs counts.ifaces index) =
      second.eps (epOffset counts.configs counts.ifaces index)

/-- Neither result depends on the memory that it was made in. -/
structure IndependentOfMemory (counts : Counts) (first second : UsbDev) : Prop where
  one : ResultInitialized counts first
  other : ResultInitialized counts second
  same : SameParse counts first second

/-- What the memory and the string must be like: `num_configs` is counted up
from what it was, the first interface of a configuration without interfaces and
the first endpoint of an interface without endpoints are never set, and the
pipe of an endpoint is what follows its descriptor. -/
structure MemoryHarmless (data : Nat → UInt8) (parts : List Nat) (counts : Counts)
    (first second : UsbDev) : Prop where
  numConfigs : first.numConfigs = 0 ∧ second.numConfigs = 0
  ifaces : ∀ before pos after, parts = before ++ pos :: after →
    data (pos + 1) = usbDescConfig → groupSize (after.map (configMark data)) = 0 →
    (first.configs (configOffset (countType data usbDescConfig before))).ifaces =
      (second.configs (configOffset (countType data usbDescConfig before))).ifaces
  eps : ∀ before pos after, parts = before ++ pos :: after →
    data (pos + 1) = usbDescIface → groupSize (after.map (ifaceMark data)) = 0 →
    (first.ifaces (ifaceOffset counts.configs (countType data usbDescIface before))).eps =
      (second.ifaces (ifaceOffset counts.configs (countType data usbDescIface before))).eps
  pipes : ∀ pos ∈ parts, data (pos + 1) = usbDescEp →
    bytesAt data (pos + 8) 4 = .replicate 4 0

/-! ## Initialization -/

/-- Initializing one element after another leaves all of them initialized. -/
theorem foldl_sets {State : Type} (init : State → Nat → State) (Holds : State → Nat → Prop)
    (sets : ∀ state index, Holds (init state index) index)
    (keeps : ∀ state index other, Holds state other → Holds (init state index) other) :
    ∀ (indices : List Nat) (state : State) (index : Nat), index ∈ indices →
      Holds (indices.foldl init state) index := by
  intro indices state index member
  induction indices using List.reverseRecOn with
  | nil => cases member
  | append_singleton front last induction =>
      rw [List.foldl_append]
      cases List.mem_append.mp member with
      | inl early => exact keeps _ last index (induction early)
      | inr late =>
          rw [List.mem_singleton.mp late]
          exact sets _ last

theorem update_holds {Value : Type} (Holds : Value → Prop) {records : Nat → Value}
    {key offset : Nat} {value : Value} (sets : Holds value)
    (already : offset = key ∨ Holds (records offset)) :
    Holds (Function.update records key value offset) := by
  by_cases same : offset = key
  · rw [same, Function.update_self]
    exact sets
  · rw [Function.update_of_ne same]
    exact already.resolve_left same

theorem initConfig_currIface (dev : UsbDev) (offset index : Nat)
    (already : offset = configOffset index ∨ (dev.configs offset).currIface = none) :
    ((initConfig dev index).configs offset).currIface = none :=
  update_holds (fun config : UsbConfig => config.currIface = none) rfl already

theorem initIface_driver (configs : Nat) (dev : UsbDev) (offset index : Nat)
    (already : offset = ifaceOffset configs index ∨ (dev.ifaces offset).driver = none) :
    ((initIface configs dev index).ifaces offset).driver = none :=
  update_holds (fun iface : UsbIface => iface.driver = none) rfl already

theorem initIface_assigned (configs : Nat) (dev : UsbDev) (offset index : Nat)
    (already : offset = ifaceOffset configs index ∨ (dev.ifaces offset).assigned = false) :
    ((initIface configs dev index).ifaces offset).assigned = false :=
  update_holds (fun iface : UsbIface => iface.assigned = false) rfl already

/-- What `usbc_init_descriptors` has set up, and what it has left. -/
structure Prepared (counts : Counts) (memory dev : UsbDev) : Prop where
  numConfigs : dev.numConfigs = memory.numConfigs
  currIface : ∀ index, index < counts.configs →
    (dev.configs (configOffset index)).currIface = none
  driver : ∀ index, index < counts.ifaces →
    (dev.ifaces (ifaceOffset counts.configs index)).driver = none
  assigned : ∀ index, index < counts.ifaces →
    (dev.ifaces (ifaceOffset counts.configs index)).assigned = false
  ifaces : ∀ offset, (dev.configs offset).ifaces = (memory.configs offset).ifaces
  eps : ∀ offset, (dev.ifaces offset).eps = (memory.ifaces offset).eps

theorem usbcInitDescriptors_prepared (memory : UsbDev) (counts : Counts) :
    Prepared counts memory (usbcInitDescriptors memory counts) := by
  let configured := (List.range counts.configs).foldl initConfig memory
  let linked := (List.range counts.ifaces).foldl (initIface counts.configs) configured
  have afterEps : ∀ {Value : Type} (view : UsbDev → Value),
      (∀ dev index, view (initEp counts.configs counts.ifaces dev index) = view dev) →
        view (usbcInitDescriptors memory counts) = view linked :=
    fun view keeps => foldl_keeps view _ keeps _ linked
  constructor
  · rw [afterEps UsbDev.numConfigs fun _ _ => rfl]
    rw [foldl_keeps UsbDev.numConfigs (initIface counts.configs) (fun _ _ => rfl),
      foldl_keeps UsbDev.numConfigs initConfig (fun _ _ => rfl)]
  · intro index bound
    rw [afterEps UsbDev.configs fun _ _ => rfl,
      foldl_keeps UsbDev.configs (initIface counts.configs) (fun _ _ => rfl)]
    apply foldl_sets initConfig
      (fun dev index => (dev.configs (configOffset index)).currIface = none)
    · exact fun dev index => initConfig_currIface dev _ index (.inl rfl)
    · exact fun dev index other holds => initConfig_currIface dev _ index (.inr holds)
    · exact List.mem_range.mpr bound
  · intro index bound
    rw [afterEps UsbDev.ifaces fun _ _ => rfl]
    apply foldl_sets (initIface counts.configs)
      (fun dev index => (dev.ifaces (ifaceOffset counts.configs index)).driver = none)
    · exact fun dev index => initIface_driver _ dev _ index (.inl rfl)
    · exact fun dev index other holds => initIface_driver _ dev _ index (.inr holds)
    · exact List.mem_range.mpr bound
  · intro index bound
    rw [afterEps UsbDev.ifaces fun _ _ => rfl]
    apply foldl_sets (initIface counts.configs)
      (fun dev index => (dev.ifaces (ifaceOffset counts.configs index)).assigned = false)
    · exact fun dev index => initIface_assigned _ dev _ index (.inl rfl)
    · exact fun dev index other holds => initIface_assigned _ dev _ index (.inr holds)
    · exact List.mem_range.mpr bound
  · intro offset
    rw [afterEps UsbDev.configs fun _ _ => rfl,
      foldl_keeps UsbDev.configs (initIface counts.configs) (fun _ _ => rfl)]
    have kept := foldl_keeps (fun dev : UsbDev => fun other => (dev.configs other).ifaces)
      initConfig (fun _ _ => field_update_same UsbConfig.ifaces _ _ _ rfl)
      (List.range counts.configs) memory
    exact congrFun kept offset
  · intro offset
    rw [afterEps UsbDev.ifaces fun _ _ => rfl]
    have kept := foldl_keeps (fun dev : UsbDev => fun other => (dev.ifaces other).eps)
      (initIface counts.configs) (fun _ _ => field_update_same UsbIface.eps _ _ _ rfl)
      (List.range counts.ifaces) configured
    have first := foldl_keeps UsbDev.ifaces initConfig (fun _ _ => rfl)
      (List.range counts.configs) memory
    exact (congrFun kept offset).trans (congrArg (fun ifaces => (ifaces offset).eps) first)

/-! ## The second pass -/

/-- An endpoint record holds whatever the copy finds behind the descriptor. -/
def epOf (data : Nat → UInt8) (pos : Nat) : UsbEp where
  desc := bytesAt data pos 7
  pad := data (pos + 7)
  pipe := bytesAt data (pos + 8) 4

/-- A pointer of a record that no group has been opened for, or only an empty
one, is that of the memory. -/
def Untouched (own : Nat → Nat) (index : Nat) (sizes firsts memory : Nat → Nat) : Prop :=
  ∀ group, (group < index → sizes (own group) = 0) → firsts (own group) = memory (own group)

theorem Untouched.header {own : Nat → Nat} {index : Nat} {sizes firsts memory : Nat → Nat}
    (injective : Function.Injective own) (untouched : Untouched own index sizes firsts memory) :
    Untouched own (index + 1) (Function.update sizes (own index) 0) firsts memory := by
  intro group empty
  apply untouched
  intro below
  have zero := empty (Nat.lt_succ_of_lt below)
  rwa [Function.update_of_ne fun same => Nat.ne_of_lt below (injective same)] at zero

theorem Untouched.member {own : Nat → Nat} {index last first : Nat}
    {sizes firsts memory : Nat → Nat} (injective : Function.Injective own)
    (untouched : Untouched own index sizes firsts memory) (open_ : last < index) :
    Untouched own index (Function.update sizes (own last) (sizes (own last) + 1))
      (Function.update firsts (own last) first) memory := by
  intro group empty
  by_cases same : group = last
  · rw [same, Function.update_self] at empty
    cases empty open_
  · have apart : own group ≠ own last := fun equal => same (injective equal)
    rw [Function.update_of_ne apart] at empty ⊢
    exact untouched group empty

/-- What the parser has taken over from the prepared records. -/
structure Inherits (data : Nat → UInt8) (counts : Counts) (start : UsbDev) (done : List Nat)
    (parser : Parser) : Prop where
  numConfigs : parser.dev.numConfigs = start.numConfigs + parser.configIndex
  currIface : ∀ offset, (parser.dev.configs offset).currIface = (start.configs offset).currIface
  driver : ∀ offset, (parser.dev.ifaces offset).driver = (start.ifaces offset).driver
  assigned : ∀ offset, (parser.dev.ifaces offset).assigned = (start.ifaces offset).assigned
  lastCfg : ∀ last, parser.lastCfg = some last →
    ∃ group, group < parser.configIndex ∧ last = configOffset group
  lastIface : ∀ last, parser.lastIface = some last →
    ∃ group, group < parser.ifaceIndex ∧ last = ifaceOffset counts.configs group
  ifaces : Untouched configOffset parser.configIndex
    (fun offset => (parser.dev.configs offset).numIfaces)
    (fun offset => (parser.dev.configs offset).ifaces) fun offset => (start.configs offset).ifaces
  eps : Untouched (ifaceOffset counts.configs) parser.ifaceIndex
    (fun offset => (parser.dev.ifaces offset).numEps)
    (fun offset => (parser.dev.ifaces offset).eps) fun offset => (start.ifaces offset).eps
  records : ∀ before pos after, done = before ++ pos :: after → data (pos + 1) = usbDescEp →
    parser.dev.eps (epOffset counts.configs counts.ifaces (countType data usbDescEp before)) =
      epOf data pos
  epIndex : parser.epIndex = countType data usbDescEp done

theorem Inherits.begin (data : Nat → UInt8) (counts : Counts) (dev : UsbDev) :
    Inherits data counts dev [] (.start dev) where
  numConfigs := rfl
  currIface := fun _ => rfl
  driver := fun _ => rfl
  assigned := fun _ => rfl
  lastCfg := fun _ none_ => nomatch none_
  lastIface := fun _ none_ => nomatch none_
  ifaces := fun _ _ => rfl
  eps := fun _ _ => rfl
  records := fun _ _ _ split => absurd split.symm (by simp)
  epIndex := rfl

namespace Inherits

variable {start : UsbDev} {done : List Nat} {parser next : Parser} {pos : Nat}

/-- A descriptor that is not an endpoint leaves the endpoints. -/
theorem records_skip (inherits : Inherits data counts start done parser)
    (other : data (pos + 1) ≠ usbDescEp) :
    ∀ before chosen after, done ++ [pos] = before ++ chosen :: after →
      data (chosen + 1) = usbDescEp →
      parser.dev.eps (epOffset counts.configs counts.ifaces
        (countType data usbDescEp before)) = epOf data chosen := by
  intro before chosen after split type
  cases split_snoc split with
  | inl last => exact absurd (last.2.2 ▸ type) other
  | inr early =>
      rcases early with ⟨shorter, rfl, old⟩
      exact inherits.records before chosen shorter old type

theorem epIndex_skip (inherits : Inherits data counts start done parser)
    (other : data (pos + 1) ≠ usbDescEp) :
    parser.epIndex = countType data usbDescEp (done ++ [pos]) := by
  rw [inherits.epIndex, countType_append, countType_cons, if_neg other]
  rfl

theorem onConfig (inherits : Inherits data counts start done parser)
    (type : data (pos + 1) = usbDescConfig) :
    Inherits data counts start (done ++ [pos]) (parser.onConfig data pos counts) := by
  have notEp : data (pos + 1) ≠ usbDescEp := by
    rw [type]
    decide
  constructor
  · exact congrArg (· + 1) inherits.numConfigs
  · intro offset
    have kept := field_update_same UsbConfig.currIface parser.dev.configs
      (configOffset parser.configIndex) { parser.dev.configs (configOffset parser.configIndex) with
        desc := bytesAt data pos 9, numIfaces := 0 } rfl
    exact (congrFun kept offset).trans (inherits.currIface offset)
  · exact inherits.driver
  · exact inherits.assigned
  · intro last present
    exact ⟨parser.configIndex, Nat.lt_succ_self _, (Option.some.inj present).symm⟩
  · exact inherits.lastIface
  · simp only [Parser.onConfig, usbcGetDescOffset_config]
    rw [field_update UsbConfig.numIfaces, field_update_same UsbConfig.ifaces]
    · exact inherits.ifaces.header configOffset_injective
    · rfl
  · exact inherits.eps
  · exact inherits.records_skip notEp
  · exact inherits.epIndex_skip notEp

theorem onIface (inherits : Inherits data counts start done parser)
    (type : data (pos + 1) = usbDescIface)
    (step : parser.onIface data pos counts = some next) :
    Inherits data counts start (done ++ [pos]) next := by
  have notEp : data (pos + 1) ≠ usbDescEp := by
    rw [type]
    decide
  rcases Option.map_eq_some_iff.mp step with ⟨record, present, rfl⟩
  rcases inherits.lastCfg record present with ⟨group, open_, rfl⟩
  constructor
  · exact inherits.numConfigs
  · intro offset
    simp only [UsbDev.addIface]
    have kept := field_update_same UsbConfig.currIface parser.dev.configs (configOffset group)
      { parser.dev.configs (configOffset group) with
        ifaces := if (parser.dev.configs (configOffset group)).numIfaces = 0 then
            usbcGetDescOffset counts.configs counts.ifaces usbDescIface parser.ifaceIndex
          else (parser.dev.configs (configOffset group)).ifaces
        numIfaces := (parser.dev.configs (configOffset group)).numIfaces + 1 } rfl
    exact (congrFun kept offset).trans (inherits.currIface offset)
  · intro offset
    have kept := field_update_same UsbIface.driver parser.dev.ifaces
      (ifaceOffset counts.configs parser.ifaceIndex)
      { parser.dev.ifaces (ifaceOffset counts.configs parser.ifaceIndex) with
        desc := bytesAt data pos 9, numEps := 0 } rfl
    exact (congrFun kept offset).trans (inherits.driver offset)
  · intro offset
    have kept := field_update_same UsbIface.assigned parser.dev.ifaces
      (ifaceOffset counts.configs parser.ifaceIndex)
      { parser.dev.ifaces (ifaceOffset counts.configs parser.ifaceIndex) with
        desc := bytesAt data pos 9, numEps := 0 } rfl
    exact (congrFun kept offset).trans (inherits.assigned offset)
  · exact inherits.lastCfg
  · intro last same
    exact ⟨parser.ifaceIndex, Nat.lt_succ_self _, (Option.some.inj same).symm⟩
  · simp only [UsbDev.addIface]
    rw [field_update UsbConfig.numIfaces, field_update UsbConfig.ifaces]
    exact inherits.ifaces.member configOffset_injective open_
  · simp only [UsbDev.addIface, usbcGetDescOffset_iface]
    rw [field_update UsbIface.numEps, field_update_same UsbIface.eps]
    · exact inherits.eps.header (ifaceOffset_injective _)
    · rfl
  · exact inherits.records_skip notEp
  · exact inherits.epIndex_skip notEp

theorem onEp (inherits : Inherits data counts start done parser)
    (type : data (pos + 1) = usbDescEp)
    (step : parser.onEp data pos counts = some next) :
    Inherits data counts start (done ++ [pos]) next := by
  rcases Option.map_eq_some_iff.mp step with ⟨record, present, rfl⟩
  rcases inherits.lastIface record present with ⟨group, open_, rfl⟩
  constructor
  · exact inherits.numConfigs
  · exact inherits.currIface
  · intro offset
    simp only [UsbDev.addEp]
    by_cases same : offset = ifaceOffset counts.configs group
    · rw [same, Function.update_self]
      exact inherits.driver _
    · rw [Function.update_of_ne same]
      exact inherits.driver offset
  · intro offset
    simp only [UsbDev.addEp]
    by_cases same : offset = ifaceOffset counts.configs group
    · rw [same, Function.update_self]
      exact inherits.assigned _
    · rw [Function.update_of_ne same]
      exact inherits.assigned offset
  · exact inherits.lastCfg
  · exact inherits.lastIface
  · exact inherits.ifaces
  · simp only [UsbDev.addEp]
    rw [field_update UsbIface.numEps, field_update UsbIface.eps]
    exact inherits.eps.member (ifaceOffset_injective _) open_
  · intro before chosen after split chosenType
    simp only [UsbDev.addEp, usbcGetDescOffset_ep]
    cases split_snoc split with
    | inl last =>
        rw [last.2.1, ← last.2.2, inherits.epIndex, Function.update_self]
        rfl
    | inr early =>
        rcases early with ⟨shorter, rfl, old⟩
        have below := countType_lt old chosenType
        rw [← inherits.epIndex] at below
        rw [Function.update_of_ne fun same =>
          Nat.ne_of_lt below (epOffset_injective _ _ same)]
        exact inherits.records before chosen shorter old chosenType
  · change parser.epIndex + 1 = _
    rw [inherits.epIndex, countType_append, countType_cons, if_pos type]
    rfl

theorem round (inherits : Inherits data counts start done parser)
    (step : parser.round data pos counts = some next) :
    Inherits data counts start (done ++ [pos]) next := by
  rw [Parser.round] at step
  by_cases config : data (pos + 1) = usbDescConfig
  · rw [if_pos config] at step
    cases Option.some.inj step
    exact inherits.onConfig config
  by_cases iface : data (pos + 1) = usbDescIface
  · rw [if_neg config, if_pos iface] at step
    exact inherits.onIface iface step
  by_cases ep : data (pos + 1) = usbDescEp
  · rw [if_neg config, if_neg iface, if_pos ep] at step
    exact inherits.onEp ep step
  rw [if_neg config, if_neg iface, if_neg ep] at step
  cases Option.some.inj step
  exact ⟨inherits.numConfigs, inherits.currIface, inherits.driver, inherits.assigned,
    inherits.lastCfg, inherits.lastIface, inherits.ifaces, inherits.eps,
    inherits.records_skip ep, inherits.epIndex_skip ep⟩

end Inherits

/-! ## The records -/

/-- What is known of a device parsed from a tiled string. -/
structure ParsedFrom (data : Nat → UInt8) (counts : Counts) (parts : List Nat)
    (memory parsed : UsbDev) : Prop where
  made : ∃ start last, last.dev = parsed ∧ Parsed data counts start parts last ∧
    Inherits data counts start parts last ∧ Prepared counts memory start
  counted : counts = countsOf data parts
  descTotalSize : parsed.descTotalSize = counts.configs * sizeofUsbConfig +
    counts.ifaces * sizeofUsbIface + counts.eps * sizeofUsbEp
  ifaceList : parsed.ifaceList =
    ((List.range counts.ifaces).map (ifaceOffset counts.configs)).reverse ++ memory.ifaceList

theorem usbcParseDescriptors_from {memory parsed : UsbDev} {parts : List Nat}
    (verified : usbcVerifyDescriptors data size = .accepted counts)
    (tiles : Parts data 0 parts size) (counted : counts = countsOf data parts)
    (returned : usbcParseDescriptors memory data size = some parsed) :
    ParsedFrom data counts parts memory parsed := by
  rw [usbcParseDescriptors, verified] at returned
  rcases Option.map_eq_some_iff.mp returned with ⟨last, looped, rfl⟩
  have result := parseLoop_parsed _ _ _ _ _ _ tiles (Parsed.begin data counts _) looped
  have inherits := parseLoop_invariant (Inherits data counts _)
    (fun _ _ _ _ inherits round => inherits.round round) _ _ _ _ _ _ tiles
    (Inherits.begin data counts _) looped
  rw [List.nil_append] at result inherits
  have prepared := usbcInitDescriptors_prepared (usbcAllocDescriptors memory counts) counts
  refine ⟨⟨_, last, rfl, result, inherits, ?_⟩, counted, ?_, ?_⟩
  · exact ⟨prepared.numConfigs, prepared.currIface, prepared.driver, prepared.assigned,
      prepared.ifaces, prepared.eps⟩
  · rw [result.sized, usbcInitDescriptors_descTotalSize]
    rfl
  · rw [result.listed, usbcInitDescriptors_ifaceList]
    rfl

/-- The descriptor with so many of its type in front. -/
theorem exists_of_lt_countType {type : UInt8} :
    ∀ {parts : List Nat} {index : Nat}, index < countType data type parts →
      ∃ before pos after, parts = before ++ pos :: after ∧ data (pos + 1) = type ∧
        countType data type before = index
  | [], index, below => absurd below (Nat.not_lt_zero index)
  | first :: rest, index, below => by
      rw [countType_cons] at below
      by_cases same : data (first + 1) = type
      · rw [if_pos same] at below
        cases index with
        | zero => exact ⟨[], first, rest, rfl, same, rfl⟩
        | succ index =>
            rcases exists_of_lt_countType (Nat.lt_of_succ_lt_succ below) with
              ⟨before, pos, after, rfl, chosen, counted⟩
            refine ⟨first :: before, pos, after, rfl, chosen, ?_⟩
            rw [countType_cons, if_pos same, counted]
      · rw [if_neg same] at below
        rcases exists_of_lt_countType below with ⟨before, pos, after, rfl, chosen, counted⟩
        refine ⟨first :: before, pos, after, rfl, chosen, ?_⟩
        rw [countType_cons, if_neg same, counted, Nat.add_zero]

namespace ParsedFrom

variable {parts before after : List Nat} {memory parsed : UsbDev} {pos : Nat}

theorem numConfigs (from_ : ParsedFrom data counts parts memory parsed) :
    parsed.numConfigs = memory.numConfigs + counts.configs := by
  rcases from_.made with ⟨start, last, rfl, result, inherits, prepared⟩
  rw [inherits.numConfigs, prepared.numConfigs, result.configIndex, from_.counted, countsOf]

theorem config (from_ : ParsedFrom data counts parts memory parsed)
    (split : parts = before ++ pos :: after) (type : data (pos + 1) = usbDescConfig) :
    parsed.configs (configOffset (countType data usbDescConfig before)) = {
      desc := bytesAt data pos 9
      ifaces := if groupSize (after.map (configMark data)) = 0 then
          (memory.configs (configOffset (countType data usbDescConfig before))).ifaces
        else ifaceOffset counts.configs (countType data usbDescIface before)
      numIfaces := groupSize (after.map (configMark data))
      currIface := none } := by
  rcases from_.made with ⟨start, last, rfl, result, inherits, prepared⟩
  have group := result.configGroup split type
  have below := countType_lt split type
  have currIface := inherits.currIface (configOffset (countType data usbDescConfig before))
  rw [prepared.currIface _ (by rw [from_.counted]; exact below)] at currIface
  have ifaces : (last.dev.configs (configOffset (countType data usbDescConfig before))).ifaces =
      if groupSize (after.map (configMark data)) = 0 then
        (memory.configs (configOffset (countType data usbDescConfig before))).ifaces
      else ifaceOffset counts.configs (countType data usbDescIface before) := by
    by_cases empty : groupSize (after.map (configMark data)) = 0
    · rw [if_pos empty, ← prepared.ifaces]
      exact inherits.ifaces _ fun _ => group.1.trans empty
    · rw [if_neg empty]
      exact group.2 (Nat.pos_of_ne_zero fun zero => empty (group.1.symm.trans zero))
  have desc := result.configDesc before pos after split type
  rw [← desc, ← ifaces, ← group.1, ← currIface]

theorem iface (from_ : ParsedFrom data counts parts memory parsed)
    (split : parts = before ++ pos :: after) (type : data (pos + 1) = usbDescIface) :
    parsed.ifaces (ifaceOffset counts.configs (countType data usbDescIface before)) = {
      desc := bytesAt data pos 9
      eps := if groupSize (after.map (ifaceMark data)) = 0 then
          (memory.ifaces (ifaceOffset counts.configs (countType data usbDescIface before))).eps
        else epOffset counts.configs counts.ifaces (countType data usbDescEp before)
      numEps := groupSize (after.map (ifaceMark data))
      driver := none
      assigned := false } := by
  rcases from_.made with ⟨start, last, rfl, result, inherits, prepared⟩
  have group := result.ifaceGroup split type
  have below : countType data usbDescIface before < counts.ifaces := by
    rw [from_.counted]
    exact countType_lt split type
  have driver := inherits.driver (ifaceOffset counts.configs (countType data usbDescIface before))
  have assigned :=
    inherits.assigned (ifaceOffset counts.configs (countType data usbDescIface before))
  rw [prepared.driver _ below] at driver
  rw [prepared.assigned _ below] at assigned
  have eps : (last.dev.ifaces
      (ifaceOffset counts.configs (countType data usbDescIface before))).eps =
      if groupSize (after.map (ifaceMark data)) = 0 then
        (memory.ifaces (ifaceOffset counts.configs (countType data usbDescIface before))).eps
      else epOffset counts.configs counts.ifaces (countType data usbDescEp before) := by
    by_cases empty : groupSize (after.map (ifaceMark data)) = 0
    · rw [if_pos empty, ← prepared.eps]
      exact inherits.eps _ fun _ => group.1.trans empty
    · rw [if_neg empty]
      exact group.2 (Nat.pos_of_ne_zero fun zero => empty (group.1.symm.trans zero))
  have desc := result.ifaceDesc before pos after split type
  rw [← desc, ← eps, ← group.1, ← driver, ← assigned]

theorem ep (from_ : ParsedFrom data counts parts memory parsed)
    (split : parts = before ++ pos :: after) (type : data (pos + 1) = usbDescEp) :
    parsed.eps (epOffset counts.configs counts.ifaces (countType data usbDescEp before)) =
      epOf data pos := by
  rcases from_.made with ⟨start, last, rfl, _, inherits, _⟩
  exact inherits.records before pos after split type

/-- The pipes are null exactly when zeros follow every endpoint. -/
theorem pipe_iff (from_ : ParsedFrom data counts parts memory parsed) :
    (∀ index, index < counts.eps →
      (parsed.eps (epOffset counts.configs counts.ifaces index)).pipe = .replicate 4 0) ↔
    ∀ pos ∈ parts, data (pos + 1) = usbDescEp → bytesAt data (pos + 8) 4 = .replicate 4 0 := by
  constructor
  · intro null pos member type
    rcases List.append_of_mem member with ⟨before, after, split⟩
    have below : countType data usbDescEp before < counts.eps := by
      rw [from_.counted]
      exact countType_lt split type
    have zero := null _ below
    rwa [from_.ep split type] at zero
  · intro zeros index below
    rw [from_.counted] at below
    rcases exists_of_lt_countType below with ⟨before, pos, after, split, type, rfl⟩
    rw [from_.ep split type]
    exact zeros pos (by rw [split]; simp) type

theorem initialized_iff (from_ : ParsedFrom data counts parts memory parsed) :
    ResultInitialized counts parsed ↔ memory.numConfigs = 0 ∧
      ∀ pos ∈ parts, data (pos + 1) = usbDescEp → bytesAt data (pos + 8) 4 = .replicate 4 0 := by
  rw [← from_.pipe_iff]
  have numConfigs := from_.numConfigs
  constructor
  · intro initialized
    have counted := initialized.numConfigs
    exact ⟨by omega, initialized.pipe⟩
  · intro both
    constructor
    · omega
    · exact both.2
    · intro index below
      rw [from_.counted] at below
      rcases exists_of_lt_countType below with ⟨before, pos, after, split, type, rfl⟩
      rw [from_.config split type]
    · intro index below
      have inside := below
      rw [from_.counted] at inside
      rcases exists_of_lt_countType inside with ⟨before, pos, after, split, type, rfl⟩
      rw [from_.iface split type]

end ParsedFrom

/-! ## Two runs -/

/-- Whether the parser returns depends on the string only. -/
theorem parseLoop_isSome_eq : ∀ (fuel pos : Nat) (one other : Parser),
    (one.lastCfg = none ↔ other.lastCfg = none) →
    (one.lastIface = none ↔ other.lastIface = none) →
    (parseLoop data size counts fuel pos one).isSome =
      (parseLoop data size counts fuel pos other).isSome
  | 0, _, _, _, _, _ => rfl
  | fuel + 1, pos, one, other, config, iface => by
      rw [parseLoop, parseLoop]
      by_cases inside : pos < size
      · rw [if_pos inside, if_pos inside]
        have alike : one.round data pos counts = none ↔ other.round data pos counts = none := by
          rw [round_none_iff, round_none_iff, config, iface]
        cases first : one.round data pos counts with
        | none => rw [alike.mp first]
        | some next =>
            cases second : other.round data pos counts with
            | none => cases first.symm.trans (alike.mpr second)
            | some later =>
                have lasts := round_last first
                have otherLasts := round_last second
                apply parseLoop_isSome_eq fuel
                · rw [lasts.1, otherLasts.1, config]
                · rw [lasts.2, otherLasts.2, iface]
      · rw [if_neg inside, if_neg inside]
        rfl

theorem usbcParseDescriptors_isSome_eq (one other : UsbDev) (data : Nat → UInt8) (size : Nat) :
    (usbcParseDescriptors one data size).isSome =
      (usbcParseDescriptors other data size).isSome := by
  rw [usbcParseDescriptors, usbcParseDescriptors]
  cases usbcVerifyDescriptors data size with
  | accepted counts =>
      simp only [Option.isSome_map]
      exact parseLoop_isSome_eq _ _ _ _ Iff.rfl Iff.rfl
  | rejected => rfl
  | diverges => rfl

namespace ParsedFrom

variable {parts : List Nat} {memory other one two : UsbDev}

theorem same_of_harmless (first : ParsedFrom data counts parts memory one)
    (second : ParsedFrom data counts parts other two)
    (fresh : memory.ifaceList = other.ifaceList)
    (harmless : MemoryHarmless data parts counts memory other) : SameParse counts one two := by
  have counted := first.counted
  constructor
  · rw [first.numConfigs, second.numConfigs, harmless.numConfigs.1, harmless.numConfigs.2]
  · rw [first.descTotalSize, second.descTotalSize]
  · rw [first.ifaceList, second.ifaceList, fresh]
  · intro index below
    rw [counted] at below
    rcases exists_of_lt_countType below with ⟨before, pos, after, split, type, rfl⟩
    rw [first.config split type, second.config split type]
    by_cases empty : groupSize (after.map (configMark data)) = 0
    · rw [if_pos empty, if_pos empty, harmless.ifaces before pos after split type empty]
    · rw [if_neg empty, if_neg empty]
  · intro index below
    have inside := below
    rw [counted] at inside
    rcases exists_of_lt_countType inside with ⟨before, pos, after, split, type, rfl⟩
    rw [first.iface split type, second.iface split type]
    by_cases empty : groupSize (after.map (ifaceMark data)) = 0
    · rw [if_pos empty, if_pos empty, harmless.eps before pos after split type empty]
    · rw [if_neg empty, if_neg empty]
  · intro index below
    have inside := below
    rw [counted] at inside
    rcases exists_of_lt_countType inside with ⟨before, pos, after, split, type, rfl⟩
    rw [first.ep split type, second.ep split type]

theorem independent_iff (first : ParsedFrom data counts parts memory one)
    (second : ParsedFrom data counts parts other two)
    (fresh : memory.ifaceList = other.ifaceList) :
    IndependentOfMemory counts one two ↔ MemoryHarmless data parts counts memory other := by
  constructor
  · intro independent
    have initialized := first.initialized_iff.mp independent.one
    have alsoInitialized := second.initialized_iff.mp independent.other
    constructor
    · exact ⟨initialized.1, alsoInitialized.1⟩
    · intro before pos after split type empty
      have below : countType data usbDescConfig before < counts.configs := by
        rw [first.counted]
        exact countType_lt split type
      have same := independent.same.configs _ below
      rw [first.config split type, second.config split type, if_pos empty, if_pos empty] at same
      exact (UsbConfig.mk.inj same).2.1
    · intro before pos after split type empty
      have below : countType data usbDescIface before < counts.ifaces := by
        rw [first.counted]
        exact countType_lt split type
      have same := independent.same.ifaces _ below
      rw [first.iface split type, second.iface split type, if_pos empty, if_pos empty] at same
      exact (UsbIface.mk.inj same).2.1
    · exact initialized.2
  · intro harmless
    exact ⟨first.initialized_iff.mpr ⟨harmless.numConfigs.1, harmless.pipes⟩,
      second.initialized_iff.mpr ⟨harmless.numConfigs.2, harmless.pipes⟩,
      first.same_of_harmless second fresh harmless⟩

end ParsedFrom

/-- For every string that is parsed and any two contents of the memory: the
result is initialized and the same exactly when the memory and the bytes behind
the endpoints happen to be harmless. -/
theorem parse_independent_iff {data : Nat → UInt8} {size : Nat} {counts : Counts}
    {memory : AddedDev} {parsed : UsbDev} (other : AddedDev)
    (verified : usbcVerifyDescriptors data size = .accepted counts)
    (returned : parsedIn memory data size = some parsed) :
    ∃ parts again, Parts data 0 parts size ∧ parsedIn other data size = some again ∧
      (IndependentOfMemory counts parsed again ↔
        MemoryHarmless data parts counts memory.dev other.dev) := by
  rcases verifyLoop_accepted _ _ _ _ verified with ⟨parts, tiles, configs, ifaces, eps⟩
  have counted : counts = countsOf data parts := by
    simp only [Nat.zero_add] at configs ifaces eps
    rw [countsOf, ← configs, ← ifaces, ← eps]
  have returns : (parsedIn other data size).isSome := by
    rw [parsedIn, usbcParseDescriptors_isSome_eq _ (usbcAddDevice memory).dev]
    exact Option.isSome_iff_exists.mpr ⟨parsed, returned⟩
  rcases Option.isSome_iff_exists.mp returns with ⟨again, returnedAgain⟩
  have first := usbcParseDescriptors_from verified tiles counted returned
  have second := usbcParseDescriptors_from verified tiles counted returnedAgain
  have equivalent := first.independent_iff second rfl
  refine ⟨parts, again, tiles, returnedAgain, ?_⟩
  rw [equivalent]
  exact ⟨fun harmless => ⟨harmless.numConfigs, harmless.ifaces, harmless.eps, harmless.pipes⟩,
    fun harmless => ⟨harmless.numConfigs, harmless.ifaces, harmless.eps, harmless.pipes⟩⟩

def blankMemory : AddedDev where
  dev := blankDevice
  product := fun _ => 0
  manufacturer := fun _ => 0
  pipes := .replicate maxPipes none
  pipeBm := 0

theorem sample_verified : usbcVerifyDescriptors (fun pos => sampleDescriptors[pos]?.getD 0) 25 =
    .accepted ⟨1, 1, 1⟩ := by decide

theorem parse_independent_iff_sample :
    ∃ parsed parts again, parsedIn blankMemory (fun pos => sampleDescriptors[pos]?.getD 0) 25 =
        some parsed ∧
      (IndependentOfMemory ⟨1, 1, 1⟩ parsed again ↔
        MemoryHarmless (fun pos => sampleDescriptors[pos]?.getD 0) parts ⟨1, 1, 1⟩ blankDevice
          blankDevice) := by
  rcases Option.isSome_iff_exists.mp sampleDescriptors_parsed with ⟨parsed, returned⟩
  rcases parse_independent_iff blankMemory sample_verified
    (show parsedIn blankMemory _ 25 = some parsed from returned) with
    ⟨parts, again, _, _, equivalent⟩
  exact ⟨parsed, parts, again, returned, equivalent⟩

/-- Memory in which the counter was not 0. -/
def usedMemory : AddedDev := { blankMemory with dev := { blankDevice with numConfigs := 3 } }

theorem used_memory_counted : ∃ parsed,
    parsedIn usedMemory (fun pos => sampleDescriptors[pos]?.getD 0) 25 = some parsed ∧
      parsed.numConfigs = 4 ∧ ¬ ResultInitialized ⟨1, 1, 1⟩ parsed := by
  have returns : ((parsedIn usedMemory (fun pos => sampleDescriptors[pos]?.getD 0) 25).map
      UsbDev.numConfigs) = some 4 := by decide
  rcases Option.map_eq_some_iff.mp returns with ⟨parsed, returned, four⟩
  refine ⟨parsed, returned, four, fun initialized => ?_⟩
  have one := initialized.numConfigs
  rw [four] at one
  cases one

end Vanilla.Usb
