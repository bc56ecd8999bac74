import Vanilla.Foundation.Keeps
import Vanilla.Usb.Enumeration
import Vanilla.Usb.PipeQueue
import Vanilla.Usb.PipeSize

namespace Vanilla.Usb

/-! Configuring a pipe. The memory of the pipes above it is allocated anew, and
the URB that is active on each of them is aborted. -/

/-- What the callbacks have been told. -/
abbrev Calls := List (Nat × UrbStatus)

abbrev LoggedPipe := HcState Calls

structure PipeConfig where
  devAddr : UInt8
  epAddr : UInt8
  size : Nat
  frequency : UInt8
  banks : Fin 4
  bankSwitch : Fin 2
  type : PipeType

/-- `struct usbhc` with its pipes, and the registers of the pipes. -/
structure Usbhc where
  pipes : Nat → LoggedPipe
  configs : Nat → Option PipeConfig
  numPipes : Nat
  limited : numPipes ≤ maxPipes
  configuration : Nat → Nat
  address : Nat → UInt8
  /-- Bit 18 of the status, as a pipe shows it once its memory is allocated. -/
  cfgOk : Nat → Bool

namespace Usbhc

def setPipe (num : Nat) (pipe : LoggedPipe) (hc : Usbhc) : Usbhc :=
  { hc with pipes := Function.update hc.pipes num pipe }

theorem setPipe_pipe (num : Nat) (pipe : LoggedPipe) (hc : Usbhc) :
    (hc.setPipe num pipe).pipes num = pipe := Function.update_self ..

def setConfiguration (num cfg : Nat) (hc : Usbhc) : Usbhc :=
  { hc with configuration := Function.update hc.configuration num cfg }

end Usbhc

def onPipe {Value : Type} (num : Nat) (body : Exec LoggedPipe Value) : Exec Usbhc Value :=
  Exec.zoom (fun hc => hc.pipes num) (Usbhc.setPipe num) body

/-- `pipe->state > PIPE_STATE_CLAIMED` -/
def PipeState.Allocated (state : PipeState) : Prop := state ≠ .free ∧ state ≠ .claimed

instance (state : PipeState) : Decidable state.Allocated :=
  inferInstanceAs (Decidable (state ≠ .free ∧ state ≠ .claimed))

/-- The callback of a URB: it notes the status, and then the client goes on. -/
def notedCallback (actions : List ClientAction) (index : Nat) : Exec LoggedPipe Unit := do
  let state ← get
  set { state with core := state.core ++ [(index, (state.urbs index).status)] }
  performAll actions

/-- Clear the bit that allocates the memory of a pipe, and set it again. -/
def allocate (cfg : Nat) : Nat := cfg &&& (0xFFFFFFFF ^^^ (1 <<< 1)) ||| (1 <<< 1)

/-- The reset of a pipe ends its transaction. -/
def usbhwPipeReset (num : Nat) : Exec Usbhc Unit :=
  onPipe num (modify (HcState.setPending none))

def usbhcAbortTransfer (num : Nat) : Exec Usbhc Unit := usbhwPipeReset num

/-- `usbhc_pipe_reallocate` -/
def usbhcPipeReallocate (clients : Nat → List ClientAction) (num : Nat) : Exec Usbhc Bool := do
  let hc ← get
  if ¬ (hc.pipes num).pipe.state.Allocated then pure true
  else do
    usbhcAbortTransfer num
    modify (Usbhc.setConfiguration num (allocate (hc.configuration num)))
    if ¬ hc.cfgOk num then pure false
    else do
      onPipe num do
        let index ← firstUrb
        usbhcEndUrb (notedCallback (clients num)) index .abort
      pure true

/-- The loop of `usbhc_solve_pipe_conflicts`, with so many pipes left. -/
def solveConflicts (clients : Nat → List ClientAction) : Nat → Nat → Exec Usbhc Bool
  | 0, _ => pure true
  | remaining + 1, num => do
      let reallocated ← usbhcPipeReallocate clients num
      if reallocated then solveConflicts clients remaining (num + 1) else pure false

def usbhcSolvePipeConflicts (clients : Nat → List ClientAction) (num : Nat) :
    Exec Usbhc Bool := do
  let hc ← get
  solveConflicts clients (hc.numPipes - (num + 1)) (num + 1)

def usbhcAllocPipe (num cfg : Nat) : Exec Usbhc Bool := do
  usbhwPipeReset num
  let hc ← get
  set (hc.setConfiguration num (allocate cfg))
  if ¬ hc.cfgOk num then pure false
  else do
    onPipe num (modify (HcState.setPipeState .idle))
    pure true

def PipeType.code : PipeType → Nat
  | .ctrl => 0
  | .iso => 1
  | .blk => 2
  | .int => 3

def PipeConfig.register (cfg : PipeConfig) (size : Nat) : Nat :=
  cfg.frequency.toNat <<< 24 ||| cfg.epAddr.toNat <<< 16 ||| cfg.type.code <<< 12 |||
    cfg.bankSwitch.val <<< 10 ||| size <<< 4 ||| (cfg.banks.val - 1) <<< 2

/-- `usbhc_pipe_configure` -/
def usbhcPipeConfigure (clients : Nat → List ClientAction) (num : Nat) (cfg : PipeConfig) :
    Exec Usbhc Bool := do
  let hc ← get
  if num ≠ 0 ∧ 64 < cfg.size then pure false
  else if (hc.pipes num).pipe.state ≠ .claimed then pure false
  else
    match usbhcSizeToPipeSize cfg.size with
    | none => Exec.fault .outOfBounds
    | some none => pure false
    | some (some size) =>
        if cfg.banks.val < 1 then pure false
        else do
          let allocated ← usbhcAllocPipe num (cfg.register size)
          if ¬ allocated then pure false
          else do
            modify fun hc => { hc with address := Function.update hc.address num cfg.devAddr }
            onPipe num (modify fun state =>
              { state with pipe := { state.pipe with epSize := cfg.size, state := .idle } })
            modify fun hc => { hc with configs := Function.update hc.configs num (some cfg) }
            let _ ← usbhcSolvePipeConflicts clients num
            pure true

/-! ## What is asked of the pipes above -/

/-- The queue of a pipe afterwards, and what its callbacks have been told. -/
structure Served (queue : List Nat) (told : Calls) (before after : LoggedPipe) : Prop where
  ring : ∃ left : List Nat, Ring after.links .urbList (left.map .urb) ∧ (queue = [] → left = [])
  calls : after.core = before.core ++ told

/-- An allocated pipe has its active URB aborted, once; no other pipe is touched. -/
def Aborts (queue : List Nat) (before after : LoggedPipe) : Prop :=
  if before.pipe.state.Allocated then
    Served queue (queue.head?.toList.map fun urb => (urb, .abort)) before after
  else after = before

theorem aborts_of_allocated {queue : List Nat} {before after : LoggedPipe}
    (allocated : before.pipe.state.Allocated) : Aborts queue before after ↔
      Served queue (queue.head?.toList.map fun urb => (urb, .abort)) before after := by
  rw [Aborts, if_pos allocated]

theorem aborts_of_inactive {queue : List Nat} {before after : LoggedPipe}
    (inactive : ¬ before.pipe.state.Allocated) : Aborts queue before after ↔ after = before := by
  rw [Aborts, if_neg inactive]

/-! ## One pipe -/

theorem run_onPipe_ok {Value : Type} {num : Nat} {body : Exec LoggedPipe Value} {hc : Usbhc}
    {value : Value} {part : LoggedPipe} (returns : body.run (hc.pipes num) = .ok value part) :
    (onPipe num body).run hc = .ok value (hc.setPipe num part) :=
  Exec.run_zoom_ok returns

/-- Aborting the active URB of a pipe. -/
theorem abort_serves {pipe : LoggedPipe} {head : Nat} {rest : List Nat}
    {actions : List ClientAction} (ring : Ring pipe.links .urbList ((head :: rest).map .urb))
    (fits : FitsAll (queueInCallback (pipe.urbs head).flags (head :: rest)) actions) :
    ∃ after, (@usbhcEndUrb Calls (notedCallback actions) head .abort).run pipe =
      .ok () after ∧ Served (head :: rest) [(head, .abort)] pipe after := by
  have noted : ∀ cleared : LoggedPipe,
      (notedCallback actions head).run (whenCalled head .abort cleared) =
        (performAll actions : Exec LoggedPipe Unit).run
          { whenCalled head .abort cleared with core := cleared.core ++ [(head, .abort)] } := by
    intro cleared
    have status : ((whenCalled head .abort cleared).urbs head).status = .abort := by
      change (Function.update cleared.urbs head _ head).status = _
      rw [Function.update_self]
    rw [notedCallback, Exec.run_bind_of_ok (EStateM.run_get _), status]
    rfl
  by_cases interruptIn : (pipe.urbs head).flags &&& urbFlagsInterruptIn ≠ 0
  · rw [queueInCallback, if_pos interruptIn] at fits
    have queued : Ring ({ whenCalled head .abort pipe with
        core := pipe.core ++ [(head, .abort)] } : LoggedPipe).links .urbList
          ((head :: rest).map .urb) := ring
    rcases performAll_acts queued fits with ⟨after, run, kept, acted⟩
    refine ⟨after, ?_, ⟨_, kept, fun empty => nomatch empty⟩, acted.core⟩
    rw [usbhcEndUrb_interruptIn interruptIn, noted]
    exact run
  · rw [queueInCallback, if_neg interruptIn] at fits
    rcases @usbhcEndUrb_unlinked Calls (notedCallback actions) head rest .abort pipe ring
        interruptIn with ⟨links, _, shorter, finish⟩
    let cleared : LoggedPipe := { pipe.setPipeState .idle with links := links }
    have queued : Ring ({ whenCalled head .abort cleared with
        core := cleared.core ++ [(head, .abort)] } : LoggedPipe).links .urbList
          (rest.map .urb) := shorter
    rcases performAll_acts queued fits with ⟨called, run, kept, acted⟩
    have returns := (noted cleared).trans run
    rcases finish called _ returns kept with ⟨after, ended, finishes⟩
    refine ⟨after, ended, ?_⟩
    rcases finishes with ⟨rfl, _⟩ | ⟨next, others, _, _, started⟩
    · exact ⟨⟨_, kept, fun empty => nomatch empty⟩, acted.core⟩
    · exact ⟨⟨_, started.links ▸ kept, fun empty => nomatch empty⟩,
        started.core.trans acted.core⟩

section Reallocate

variable {clients : Nat → List ClientAction} {num : Nat} {hc : Usbhc}

theorem reallocate_inactive (inactive : ¬ (hc.pipes num).pipe.state.Allocated) :
    (usbhcPipeReallocate clients num).run hc = .ok true hc := by
  rw [usbhcPipeReallocate, Exec.run_bind_of_ok (EStateM.run_get hc), if_pos inactive]
  rfl

/-- The pipe with its memory allocated again. -/
def reallocated (num : Nat) (hc : Usbhc) : Usbhc :=
  (hc.setPipe num ((hc.pipes num).setPending none)).setConfiguration num
    (allocate (hc.configuration num))

theorem reallocated_pipe (num : Nat) (hc : Usbhc) :
    (reallocated num hc).pipes num = (hc.pipes num).setPending none := Function.update_self ..

theorem reallocate_active (active : (hc.pipes num).pipe.state.Allocated) :
    (usbhcPipeReallocate clients num).run hc =
      (if ¬ hc.cfgOk num then pure false
      else do
        onPipe num do
          let index ← firstUrb
          usbhcEndUrb (notedCallback (clients num)) index .abort
        pure true : Exec Usbhc Bool).run (reallocated num hc) := by
  rw [usbhcPipeReallocate, Exec.run_bind_of_ok (EStateM.run_get hc),
    if_neg (not_not.mpr active)]
  rfl

/-- A pipe whose memory is not allocated ends the loop. -/
theorem reallocate_refused (active : (hc.pipes num).pipe.state.Allocated)
    (refused : hc.cfgOk num = false) :
    (usbhcPipeReallocate clients num).run hc = .ok false (reallocated num hc) := by
  rw [reallocate_active active, if_pos (by simp [refused])]
  rfl

theorem reallocate_abort (active : (hc.pipes num).pipe.state.Allocated)
    (confirmed : hc.cfgOk num = true) {head : Nat} {rest : List Nat}
    (ring : Ring (hc.pipes num).links .urbList ((head :: rest).map .urb))
    (fits : FitsAll (queueInCallback ((hc.pipes num).urbs head).flags (head :: rest))
      (clients num)) :
    ∃ after, (usbhcPipeReallocate clients num).run hc =
        .ok true ((reallocated num hc).setPipe num after) ∧
      Served (head :: rest) [(head, .abort)] (hc.pipes num) after := by
  let quiet := (hc.pipes num).setPending none
  have linked : Ring quiet.links .urbList ((head :: rest).map .urb) := ring
  rcases abort_serves linked fits with ⟨after, ended, served⟩
  refine ⟨after, ?_, served.ring, served.calls⟩
  have body : (firstUrb >>= fun index => usbhcEndUrb (notedCallback (clients num)) index
      .abort : Exec LoggedPipe Unit).run ((reallocated num hc).pipes num) = .ok () after := by
    rw [reallocated_pipe, Exec.run_bind_of_ok (run_firstUrb linked.next_cons)]
    exact ended
  rw [reallocate_active active, if_neg (by simp [confirmed]),
    Exec.run_bind_of_ok (run_onPipe_ok body)]
  rfl

/-- The head of an empty list is taken for a URB. -/
theorem reallocate_empty (active : (hc.pipes num).pipe.state.Allocated)
    (confirmed : hc.cfgOk num = true) (ring : Ring (hc.pipes num).links .urbList []) :
    ∃ after, (usbhcPipeReallocate clients num).run hc = .error .outOfBounds after := by
  have first : (@firstUrb Calls).run ((hc.pipes num).setPending none) =
      .error .outOfBounds ((hc.pipes num).setPending none) := by
    have self : ((hc.pipes num).setPending none).links.next .urbList = some .urbList :=
      ring.next_nil
    rw [firstUrb, Exec.run_bind_of_ok (EStateM.run_get _), self]
    rfl
  have body : (firstUrb >>= fun index => usbhcEndUrb (notedCallback (clients num)) index
      .abort : Exec LoggedPipe Unit).run ((reallocated num hc).pipes num) =
        .error .outOfBounds ((hc.pipes num).setPending none) := by
    rw [reallocated_pipe]
    exact Exec.run_bind_of_error first
  rw [reallocate_active active, if_neg (by simp [confirmed])]
  exact ⟨_, Exec.run_bind_of_error (Exec.run_zoom_error body)⟩

theorem reallocate_frame {value : Bool} {after : Usbhc}
    (returns : (usbhcPipeReallocate clients num).run hc = .ok value after) {other : Nat}
    (apart : other ≠ num) : after.pipes other = hc.pipes other := by
  have kept : (reallocated num hc).pipes other = hc.pipes other := Function.update_of_ne apart ..
  by_cases active : (hc.pipes num).pipe.state.Allocated
  · rw [reallocate_active active] at returns
    by_cases refused : ¬ hc.cfgOk num = true
    · rw [if_pos refused] at returns
      cases returns
      exact kept
    · rw [if_neg refused] at returns
      rcases Exec.run_bind_ok.mp returns with ⟨_, between, aborted, rest⟩
      rcases Exec.run_zoom_inv aborted with ⟨part, _, rfl⟩
      cases rest
      exact (Function.update_of_ne apart ..).trans kept
  · cases (reallocate_inactive active).symm.trans returns
    rfl

end Reallocate

/-! ## All pipes above -/

section Loop

variable {clients : Nat → List ClientAction} {queues : Nat → List Nat} {before : Usbhc}

def Usbhc.Active (hc : Usbhc) (num : Nat) : Prop := (hc.pipes num).pipe.state.Allocated

/-- The first allocated pipes get their memory again and have URBs; behind one
that does not get it, the queues are empty. -/
def Solvable (before : Usbhc) (queues : Nat → List Nat) (first last : Nat) : Prop :=
  ∀ num, first ≤ num → num < last → before.Active num →
    (∀ lower, first ≤ lower → lower < num → before.Active lower →
      before.cfgOk lower = true) →
    (before.cfgOk num = true → queues num ≠ []) ∧
      (before.cfgOk num = false → ∀ upper, num ≤ upper → upper < last →
        before.Active upper → queues upper = [])

/-- Well-formed queues, and clients that keep to them. -/
structure Linked (before : Usbhc) (queues : Nat → List Nat)
    (clients : Nat → List ClientAction) : Prop where
  rings : ∀ num < before.numPipes,
    Ring (before.pipes num).links .urbList ((queues num).map .urb)
  fits : ∀ num < before.numPipes, ∀ head rest, queues num = head :: rest →
    FitsAll (queueInCallback ((before.pipes num).urbs head).flags (head :: rest)) (clients num)

/-- The pipes from the first on are still as they were. -/
structure Agrees (first : Nat) (before hc : Usbhc) : Prop where
  pipes : ∀ num, first ≤ num → hc.pipes num = before.pipes num
  cfgOk : hc.cfgOk = before.cfgOk

theorem Solvable.first {first last : Nat} (solvable : Solvable before queues first last)
    (inside : first < last) (active : before.Active first) :
    (before.cfgOk first = true → queues first ≠ []) ∧
      (before.cfgOk first = false → ∀ upper, first ≤ upper → upper < last →
        before.Active upper → queues upper = []) :=
  solvable first (Nat.le_refl first) inside active
    fun _ from_ below => absurd below (Nat.not_lt_of_le from_)

theorem solvable_succ {first last : Nat}
    (passes : before.Active first → before.cfgOk first = true ∧ queues first ≠ []) :
    Solvable before queues first last ↔ Solvable before queues (first + 1) last := by
  constructor
  · intro solvable num lower upper active confirmed
    apply solvable num (Nat.le_of_succ_le lower) upper active
    intro other from_ below otherActive
    cases Nat.eq_or_lt_of_le from_ with
    | inl same => exact same ▸ (passes (same ▸ otherActive)).1
    | inr later => exact confirmed other later below otherActive
  · intro solvable num lower upper active confirmed
    cases Nat.eq_or_lt_of_le lower with
    | inl same =>
        have passed := passes (same ▸ active)
        rw [same] at passed
        exact ⟨fun _ => passed.2, fun refused => absurd (passed.1.symm.trans refused) (by decide)⟩
    | inr later =>
        apply solvable num later upper active
        exact fun other from_ => confirmed other (Nat.le_of_succ_le from_)

theorem solveConflicts_frame : ∀ {remaining first : Nat} {hc after : Usbhc} {value : Bool},
    (solveConflicts clients remaining first).run hc = .ok value after →
      ∀ num < first, after.pipes num = hc.pipes num
  | 0, first, hc, after, value, returns, num, below => by
      cases returns
      rfl
  | remaining + 1, first, hc, after, value, returns, num, below => by
      rw [solveConflicts] at returns
      rcases Exec.run_bind_ok.mp returns with ⟨reallocated, between, here, rest⟩
      have kept := reallocate_frame here (Nat.ne_of_lt below)
      cases reallocated with
      | false =>
          cases rest
          exact kept
      | true => exact (solveConflicts_frame rest num (Nat.lt_succ_of_lt below)).trans kept

/-- The loop serves the pipes that are left as it should. -/
def Serves (clients : Nat → List ClientAction) (queues : Nat → List Nat) (before : Usbhc)
    (remaining first : Nat) (hc : Usbhc) : Prop :=
  ∃ value after, (solveConflicts clients remaining first).run hc = .ok value after ∧
    ∀ num, first ≤ num → num < first + remaining →
      Aborts (queues num) (before.pipes num) (after.pipes num)

/-- A pipe that is served passes the loop on to the next. -/
theorem serves_succ {remaining first : Nat} {hc between : Usbhc}
    (passed : (usbhcPipeReallocate clients first).run hc = .ok true between)
    (aborts : Aborts (queues first) (before.pipes first) (between.pipes first)) :
    Serves clients queues before (remaining + 1) first hc ↔
      Serves clients queues before remaining (first + 1) between := by
  have run : (solveConflicts clients (remaining + 1) first).run hc =
      (solveConflicts clients remaining (first + 1)).run between := by
    rw [solveConflicts, Exec.run_bind_of_ok passed]
    rfl
  rw [Serves, Serves, run]
  constructor
  · rintro ⟨value, after, returns, serves⟩
    exact ⟨value, after, returns, fun num lower upper => serves num (by omega) (by omega)⟩
  · rintro ⟨value, after, returns, serves⟩
    refine ⟨value, after, returns, fun num lower upper => ?_⟩
    cases Nat.eq_or_lt_of_le lower with
    | inl same =>
        subst same
        rw [solveConflicts_frame returns first (Nat.lt_succ_self first)]
        exact aborts
    | inr later => exact serves num later (by omega)

theorem Agrees.succ {first : Nat} {hc between : Usbhc} {value : Bool}
    (agrees : Agrees first before hc) (cfgOk : between.cfgOk = hc.cfgOk)
    (passed : (usbhcPipeReallocate clients first).run hc = .ok value between) :
    Agrees (first + 1) before between where
  pipes := by
    intro num later
    rw [reallocate_frame passed (by omega)]
    exact agrees.pipes num (Nat.le_of_succ_le later)
  cfgOk := cfgOk.trans agrees.cfgOk

/-- A pipe that is refused ends the loop, and nothing more is aborted. -/
theorem serves_refused {remaining first : Nat} {hc : Usbhc} (agrees : Agrees first before hc)
    (linked : Linked before queues clients) (within : first + remaining < before.numPipes)
    (active : before.Active first) (refused : before.cfgOk first = false) :
    Serves clients queues before (remaining + 1) first hc ↔
      Solvable before queues first (first + (remaining + 1)) := by
  have here := agrees.pipes first (Nat.le_refl first)
  have returns : (solveConflicts clients (remaining + 1) first).run hc =
      .ok false (reallocated first hc) := by
    rw [solveConflicts, Exec.run_bind_of_ok (reallocate_refused (here ▸ active)
      (agrees.cfgOk ▸ refused))]
    rfl
  have untouched : ∀ num, first ≤ num →
      ((reallocated first hc).pipes num).links = (before.pipes num).links ∧
        ((reallocated first hc).pipes num).core = (before.pipes num).core := by
    intro num later
    by_cases same : num = first
    · rw [same, reallocated_pipe, here]
      exact ⟨rfl, rfl⟩
    · have kept : (reallocated first hc).pipes num = hc.pipes num :=
        Function.update_of_ne same ..
      rw [kept, agrees.pipes num later]
      exact ⟨rfl, rfl⟩
  constructor
  · rintro ⟨value, after, run, serves⟩
    cases returns.symm.trans run
    intro num lower upper numActive confirmed
    have same : num = first := by
      by_contra apart
      have below : first < num := by omega
      have contrary := confirmed first (Nat.le_refl first) below active
      rw [refused] at contrary
      cases contrary
    rw [same]
    refine ⟨fun confirmed => (nomatch refused.symm.trans confirmed), fun _ other from_ below
      otherActive => ?_⟩
    have calls := ((aborts_of_allocated otherActive).mp (serves other from_ below)).calls
    rw [(untouched other from_).2] at calls
    cases queue : queues other with
    | nil => rfl
    | cons head rest =>
        rw [queue] at calls
        have lengths := congrArg List.length calls
        rw [List.length_append] at lengths
        change _ = _ + 1 at lengths
        omega
  · intro solvable
    refine ⟨false, _, returns, fun num lower upper => ?_⟩
    have empties := (solvable.first (by omega) active).2 refused
    by_cases numActive : before.Active num
    · have empty := empties num lower upper numActive
      rw [aborts_of_allocated numActive, empty]
      refine ⟨⟨[], ?_, fun _ => rfl⟩, ?_⟩
      · rw [(untouched num lower).1]
        have ring := linked.rings num (by omega)
        rw [empty] at ring
        exact ring
      · rw [(untouched num lower).2]
        exact (List.append_nil _).symm
    · have apart : num ≠ first := fun same => numActive (same ▸ active)
      have kept : (reallocated first hc).pipes num = hc.pipes num :=
        Function.update_of_ne apart ..
      rw [aborts_of_inactive numActive, kept]
      exact agrees.pipes num lower

theorem serves_iff (linked : Linked before queues clients) :
    ∀ {remaining first : Nat} {hc : Usbhc}, Agrees first before hc →
      first + remaining ≤ before.numPipes →
      (Serves clients queues before remaining first hc ↔
        Solvable before queues first (first + remaining))
  | 0, first, hc, agrees, within => by
      constructor
      · intro _ num lower upper
        omega
      · intro _
        exact ⟨true, hc, rfl, fun num lower upper => by omega⟩
  | remaining + 1, first, hc, agrees, within => by
      have here := agrees.pipes first (Nat.le_refl first)
      have bound : first < before.numPipes := by omega
      have next : first + (remaining + 1) = first + 1 + remaining := by omega
      by_cases active : before.Active first
      · cases confirmed : before.cfgOk first with
        | false => exact serves_refused agrees linked (by omega) active confirmed
        | true =>
            have ring := linked.rings first bound
            have given : hc.cfgOk first = true := agrees.cfgOk ▸ confirmed
            cases queue : queues first with
            | nil =>
                rw [queue, ← here] at ring
                rcases @reallocate_empty clients first hc (here ▸ active) given ring with
                  ⟨stopped, faults⟩
                constructor
                · rintro ⟨value, after, run, _⟩
                  rw [solveConflicts, Exec.run_bind_of_error faults] at run
                  cases run
                · intro solvable
                  exact absurd queue ((solvable.first (by omega) active).1 confirmed)
            | cons head rest =>
                have fits := linked.fits first bound head rest queue
                rw [queue, ← here] at ring
                rw [← here] at fits
                rcases reallocate_abort (here ▸ active) given ring fits with ⟨part, run, served⟩
                have aborts : Aborts (queues first) (before.pipes first)
                    (((reallocated first hc).setPipe first part).pipes first) := by
                  rw [aborts_of_allocated active, queue, ← here, Usbhc.setPipe_pipe]
                  exact served
                have passed : Agrees (first + 1) before
                    ((reallocated first hc).setPipe first part) := agrees.succ rfl run
                have others := serves_iff linked passed
                  (show first + 1 + remaining ≤ before.numPipes by omega)
                rw [serves_succ run aborts, others, next]
                exact (solvable_succ fun _ =>
                  ⟨confirmed, by rw [queue]; exact List.cons_ne_nil _ _⟩).symm
      · have run := @reallocate_inactive clients first hc (here ▸ active)
        have aborts : Aborts (queues first) (before.pipes first) (hc.pipes first) := by
          rw [aborts_of_inactive active]
          exact here
        have passed : Agrees (first + 1) before hc := agrees.succ rfl run
        have others := serves_iff linked passed
          (show first + 1 + remaining ≤ before.numPipes by omega)
        rw [serves_succ run aborts, others, next]
        exact (solvable_succ fun allocated => absurd allocated active).symm

end Loop

/-! ## The whole call -/

/-- The configuration is one that `usbhc_pipe_configure` goes through with. -/
structure Accepted (num : Nat) (cfg : PipeConfig) (before : Usbhc) : Prop where
  inside : num < before.numPipes
  size : ¬ (num ≠ 0 ∧ 64 < cfg.size)
  claimed : (before.pipes num).pipe.state = .claimed
  rounded : ∃ size, usbhcSizeToPipeSize cfg.size = some (some size)
  banks : ¬ cfg.banks.val < 1
  confirmed : before.cfgOk num = true

/-- Pipe by pipe: each allocated one above has its active URB aborted. -/
structure Reconfigured (num : Nat) (queues : Nat → List Nat) (before after : Usbhc) : Prop where
  lower : ∀ other < num, after.pipes other = before.pipes other
  links : (after.pipes num).links = (before.pipes num).links
  silent : (after.pipes num).core = (before.pipes num).core
  higher : ∀ other, num < other → other < before.numPipes →
    Aborts (queues other) (before.pipes other) (after.pipes other)
  rings : ∀ other < before.numPipes,
    ∃ left : List Nat, Ring (after.pipes other).links .urbList (left.map .urb)

theorem Aborts.ring {queue : List Nat} {before after : LoggedPipe}
    (aborts : Aborts queue before after) (ring : Ring before.links .urbList (queue.map .urb)) :
    ∃ left : List Nat, Ring after.links .urbList (left.map .urb) := by
  by_cases allocated : before.pipe.state.Allocated
  · rcases ((aborts_of_allocated allocated).mp aborts).ring with ⟨left, kept, _⟩
    exact ⟨left, kept⟩
  · rw [(aborts_of_inactive allocated).mp aborts]
    exact ⟨queue, ring⟩

theorem run_usbhcAllocPipe {num cfg : Nat} {hc : Usbhc} (confirmed : hc.cfgOk num = true) :
    (usbhcAllocPipe num cfg).run hc = .ok true
      (((hc.setPipe num ((hc.pipes num).setPending none)).setConfiguration num
        (allocate cfg)).setPipe num (((hc.pipes num).setPending none).setPipeState .idle)) := by
  let opened := (hc.setPipe num ((hc.pipes num).setPending none)).setConfiguration num
    (allocate cfg)
  have entered : (usbhcAllocPipe num cfg).run hc =
      (if ¬ hc.cfgOk num then pure false
      else do
        onPipe num (modify (HcState.setPipeState .idle))
        pure true : Exec Usbhc Bool).run opened := rfl
  have linked : opened.pipes num = (hc.pipes num).setPending none := Usbhc.setPipe_pipe ..
  have moved : (modify (HcState.setPipeState .idle) : Exec LoggedPipe Unit).run
      (opened.pipes num) = .ok () (((hc.pipes num).setPending none).setPipeState .idle) := by
    rw [linked]
    rfl
  rw [entered, if_neg (not_not.mpr confirmed), Exec.run_bind_of_ok (run_onPipe_ok moved)]
  rfl

/-- The pipe itself is ready before those above are looked at. -/
theorem run_usbhcPipeConfigure {clients : Nat → List ClientAction} {num : Nat}
    {cfg : PipeConfig} {before : Usbhc} (accepted : Accepted num cfg before) :
    ∃ ready, Agrees (num + 1) before ready ∧ ready.numPipes = before.numPipes ∧
      (∀ other < num, ready.pipes other = before.pipes other) ∧
      (ready.pipes num).links = (before.pipes num).links ∧
      (ready.pipes num).core = (before.pipes num).core ∧
      (usbhcPipeConfigure clients num cfg).run before =
        (do
          let _ ← usbhcSolvePipeConflicts clients num
          pure true : Exec Usbhc Bool).run ready := by
  rcases accepted.rounded with ⟨size, rounded⟩
  let own := (before.pipes num).setPending none
  let opened := (before.setPipe num own).setConfiguration num (allocate (cfg.register size))
  let idle := opened.setPipe num (own.setPipeState .idle)
  let ready : Usbhc := {
    idle.setPipe num { own.setPipeState .idle with
      pipe := { own.pipe with epSize := cfg.size, state := .idle } } with
    address := Function.update idle.address num cfg.devAddr
    configs := Function.update idle.configs num (some cfg) }
  have allocates : (usbhcAllocPipe num (cfg.register size)).run before = .ok true idle :=
    run_usbhcAllocPipe accepted.confirmed
  have others : ∀ other, other ≠ num → ready.pipes other = before.pipes other := by
    intro other apart
    change Function.update (Function.update (Function.update before.pipes num _) num _) num _
      other = _
    rw [Function.update_of_ne apart, Function.update_of_ne apart, Function.update_of_ne apart]
  have same : ready.pipes num = { own.setPipeState .idle with
      pipe := { own.pipe with epSize := cfg.size, state := .idle } } :=
    Usbhc.setPipe_pipe num _ idle
  refine ⟨ready, ⟨fun other above => others other (by omega), rfl⟩, rfl,
    fun other below => others other (Nat.ne_of_lt below), ?_, ?_, ?_⟩
  · rw [same]
    rfl
  · rw [same]
    rfl
  · rw [usbhcPipeConfigure, Exec.run_bind_of_ok (EStateM.run_get before), if_neg accepted.size,
      if_neg (not_not.mpr accepted.claimed), rounded]
    simp only []
    rw [if_neg accepted.banks, Exec.run_bind_of_ok allocates]
    have addressed : idle.pipes num = own.setPipeState .idle :=
      Usbhc.setPipe_pipe num _ opened
    have sized : (modify fun state : LoggedPipe =>
        { state with pipe := { state.pipe with epSize := cfg.size, state := .idle } } :
        Exec LoggedPipe Unit).run (idle.pipes num) = .ok () { own.setPipeState .idle with
          pipe := { own.pipe with epSize := cfg.size, state := .idle } } := by
      rw [addressed]
      rfl
    let addressedPipe : Usbhc :=
      { idle with address := Function.update idle.address num cfg.devAddr }
    have stored : (modify fun hc : Usbhc =>
        { hc with address := Function.update hc.address num cfg.devAddr } :
        Exec Usbhc Unit).run idle = .ok () addressedPipe := rfl
    have resized := @run_onPipe_ok Unit num _ addressedPipe () _ sized
    rw [if_neg (not_not.mpr rfl), Exec.run_bind_of_ok stored, Exec.run_bind_of_ok resized]
    rfl

/-- Of a configuration that goes through, exactly the active URBs above are
aborted, and every queue stays well-formed, if and only if the allocated pipes
above have URBs and get their memory again, up to one that does not and behind
which there is nothing to abort. -/
theorem configure_aborts_iff {clients : Nat → List ClientAction} {queues : Nat → List Nat}
    {num : Nat} {cfg : PipeConfig} {before : Usbhc} (linked : Linked before queues clients)
    (accepted : Accepted num cfg before) :
    (∃ after, (usbhcPipeConfigure clients num cfg).run before = .ok true after ∧
        Reconfigured num queues before after) ↔
      Solvable before queues (num + 1) before.numPipes := by
  rcases @run_usbhcPipeConfigure clients num cfg before accepted with
    ⟨ready, agrees, numPipes, lower, links, silent, run⟩
  have inside := accepted.inside
  have whole : num + 1 + (before.numPipes - (num + 1)) = before.numPipes := by omega
  have loop := serves_iff linked agrees (show num + 1 + (before.numPipes - (num + 1)) ≤ _ by omega)
  have solve : (usbhcSolvePipeConflicts clients num).run ready =
      (solveConflicts clients (before.numPipes - (num + 1)) (num + 1)).run ready := by
    rw [usbhcSolvePipeConflicts, Exec.run_bind_of_ok (EStateM.run_get ready), numPipes]
  rw [whole] at loop
  rw [← loop, Serves, whole, run]
  constructor
  · rintro ⟨after, returns, reconfigured⟩
    rcases Exec.run_bind_ok.mp returns with ⟨value, solved, solves, rest⟩
    cases rest
    exact ⟨value, after, solve.symm.trans solves, reconfigured.higher⟩
  · rintro ⟨value, after, solves, serves⟩
    have below := solveConflicts_frame solves
    have earlier : ∀ other < num, after.pipes other = before.pipes other := fun other under => by
      rw [below other (Nat.lt_succ_of_lt under), lower other under]
    have own : (after.pipes num).links = (before.pipes num).links := by
      rw [below num (Nat.lt_succ_self num), links]
    refine ⟨after, ?_, earlier, own, ?_, serves, ?_⟩
    · rw [Exec.run_bind_of_ok (solve.trans solves)]
      rfl
    · rw [below num (Nat.lt_succ_self num), silent]
    · intro other bound
      have ring := linked.rings other bound
      rcases Nat.lt_trichotomy other num with under | same | above
      · rw [earlier other under]
        exact ⟨_, ring⟩
      · rw [same, own]
        exact ⟨_, same ▸ ring⟩
      · exact (serves other above bound).ring ring

/-! ## Two pipes -/

def controlConfig : PipeConfig where
  devAddr := 0
  epAddr := 0
  size := 64
  frequency := 0
  banks := 1
  bankSwitch := 0
  type := .ctrl

def pipeWith (pipeState : PipeState) (links : Links ListNode) : LoggedPipe where
  pipe := { state := pipeState, type := .ctrl, epSize := 64 }
  links := links
  urbs := fun _ => {
    flags := urbFlagsSetup
    setupBuffer := #v[0x80, 0x06, 0x00, 0x01, 0x00, 0x00, 0x08, 0x00]
    transferBuffer := 0x20400000
    transferLength := 8
    acctualLength := 0
    status := .ok }
  memory := fun _ => 0
  core := []
  fifo := { count := fun _ => 0, data := fun _ _ => 0 }
  reads := 0
  pending := none
  stores := []
  trace := []

def noUrbs : Links ListNode := Links.init ⟨fun _ => none, fun _ => none⟩ .urbList

/-- A claimed pipe below an allocated one. -/
def twoPipes (pipeState : PipeState) (links : Links ListNode) : Usbhc where
  pipes := fun num => if num = 0 then pipeWith .claimed noUrbs else pipeWith pipeState links
  configs := fun _ => none
  numPipes := 2
  limited := by decide
  configuration := fun _ => 0
  address := fun _ => 0
  cfgOk := fun _ => true

theorem twoPipes_linked {pipeState : PipeState} {links : Links ListNode} {queue : List Nat}
    (ring : Ring links .urbList (queue.map .urb)) :
    Linked (twoPipes pipeState links) (fun num => if num = 0 then [] else queue)
      fun _ => [] where
  rings := by
    intro num _
    by_cases first : num = 0
    · subst first
      exact .of_init _ _
    · change Ring (if num = 0 then pipeWith .claimed noUrbs
        else pipeWith pipeState links).links _ ((if num = 0 then [] else queue).map _)
      rw [if_neg first, if_neg first]
      exact ring
  fits := fun _ _ _ _ _ => trivial

theorem twoPipes_accepted (pipeState : PipeState) (links : Links ListNode) :
    Accepted 0 controlConfig (twoPipes pipeState links) where
  inside := show 0 < 2 by decide
  size := by decide
  claimed := rfl
  rounded := ⟨3, by decide⟩
  banks := by decide
  confirmed := rfl

def oneUrb : Links ListNode := noUrbs.add (.urb 0) .urbList .urbList

theorem oneUrb_ring : Ring oneUrb .urbList ([0].map .urb) := ⟨⟨rfl, rfl, rfl, rfl⟩, by decide⟩

theorem configure_aborts_iff_waiting :
    (∃ after, (usbhcPipeConfigure (fun _ => []) 0 controlConfig).run (twoPipes .ctrlOut oneUrb) =
        .ok true after ∧
      Reconfigured 0 (fun num => if num = 0 then [] else [0]) (twoPipes .ctrlOut oneUrb) after) ↔
      Solvable (twoPipes .ctrlOut oneUrb) (fun num => if num = 0 then [] else [0]) 1 2 :=
  configure_aborts_iff (twoPipes_linked oneUrb_ring) (twoPipes_accepted _ _)

/-- An allocated pipe without URBs has the head of its list ended as one. -/
theorem empty_queue_faults :
    Linked (twoPipes .idle noUrbs) (fun num => if num = 0 then [] else []) (fun _ => []) ∧
      Accepted 0 controlConfig (twoPipes .idle noUrbs) ∧
      (∃ after, (usbhcPipeConfigure (fun _ => []) 0 controlConfig).run (twoPipes .idle noUrbs) =
        .error .outOfBounds after) ∧
      ¬ ∃ after, (usbhcPipeConfigure (fun _ => []) 0 controlConfig).run
          (twoPipes .idle noUrbs) = .ok true after ∧
        Reconfigured 0 (fun num => if num = 0 then [] else []) (twoPipes .idle noUrbs) after := by
  have stops : ∃ after, (usbhcPipeConfigure (fun _ => []) 0 controlConfig).run
      (twoPipes .idle noUrbs) = .error .outOfBounds after := ⟨_, rfl⟩
  refine ⟨twoPipes_linked (.of_init _ _), twoPipes_accepted _ _, stops, ?_⟩
  rintro ⟨after, returns, _⟩
  rcases stops with ⟨stopped, faults⟩
  cases faults.symm.trans returns

end Vanilla.Usb
