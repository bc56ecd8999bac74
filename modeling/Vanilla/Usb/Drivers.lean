import Vanilla.Kernel.ListNode
import Vanilla.Usb.Descriptors

namespace Vanilla.Usb

open Vanilla.Kernel

/-! The drivers of the USB core: how they are added, and which of them an interface is
offered to. -/

structure UsbDevId where
  flags : Nat
  vendorId : Nat
  productId : Nat
  devClass : UInt8
  devSubClass : UInt8
  devProtocol : UInt8
  ifaceClass : UInt8
  ifaceSubClass : UInt8
  ifaceProtocol : UInt8

/-- `connect` gets an interface; it may claim others of the device, and says whether it takes
this one. -/
structure UsbDriver (Rest : Type) where
  devIds : List UsbDevId
  connect : Nat → (Nat → UsbIface) → Rest → Bool × (Nat → UsbIface) × Rest

/-- The links of the driver list, the interfaces of the device, and what the drivers work on. -/
structure DriverCore (Node Rest : Type) where
  links : Links Node
  ifaces : Nat → UsbIface
  rest : Rest

/-! ## usb.c -/

def usbDevIdVendorMask : Nat := 1 <<< 0
def usbDevIdProductMask : Nat := 1 <<< 1
def usbDevIdDevClassMask : Nat := 1 <<< 2
def usbDevIdDevSubclassMask : Nat := 1 <<< 3
def usbDevIdDevProtocolMask : Nat := 1 <<< 4
def usbDevIdIfaceClassMask : Nat := 1 <<< 5
def usbDevIdIfaceSubclassMask : Nat := 1 <<< 6
def usbDevIdIfaceProtocolMask : Nat := 1 <<< 7

def idVendor (desc : Vector UInt8 18) : Nat := (desc.get 8).toNat + 2 ^ 8 * (desc.get 9).toNat
def idProduct (desc : Vector UInt8 18) : Nat := (desc.get 10).toNat + 2 ^ 8 * (desc.get 11).toNat

def usbcCheckDevMatch (id : UsbDevId) (desc : Vector UInt8 18) : Bool :=
  if id.flags &&& usbDevIdVendorMask ≠ 0 ∧ id.vendorId ≠ idVendor desc then false
  else if id.flags &&& usbDevIdProductMask ≠ 0 ∧ id.productId ≠ idProduct desc then false
  else if id.flags &&& usbDevIdDevClassMask ≠ 0 ∧ id.devClass ≠ desc.get 4 then false
  else if id.flags &&& usbDevIdDevSubclassMask ≠ 0 ∧ id.devSubClass ≠ desc.get 5 then false
  else if id.flags &&& usbDevIdDevProtocolMask ≠ 0 ∧ id.devProtocol ≠ desc.get 6 then false
  else true

def usbcCheckIfaceMatch (id : UsbDevId) (iface : UsbIface) : Bool :=
  if id.flags &&& usbDevIdIfaceClassMask ≠ 0 ∧ id.ifaceClass ≠ iface.desc.get 5 then false
  else if id.flags &&& usbDevIdIfaceSubclassMask ≠ 0 ∧ id.ifaceSubClass ≠ iface.desc.get 6 then
    false
  else if id.flags &&& usbDevIdIfaceProtocolMask ≠ 0 ∧ id.ifaceProtocol ≠ iface.desc.get 7 then
    false
  else true

section Drivers

variable {Node Rest : Type} [DecidableEq Node] (drivers : Node → UsbDriver Rest)
  (driverList : Node) (desc : Vector UInt8 18)

def usbcCheckDriverMatch (driver : UsbDriver Rest) (iface : UsbIface) : Bool :=
  driver.devIds.any fun id => usbcCheckDevMatch id desc && usbcCheckIfaceMatch id iface

def connectDriver (driver : Node) (iface : Nat) : Exec (DriverCore Node Rest) (Option Node) := do
  let core ← get
  let (connected, ifaces, rest) := (drivers driver).connect iface core.ifaces core.rest
  set { core with ifaces := ifaces, rest := rest }
  pure (if connected then some driver else none)

/-- The loop of `usbc_find_driver`, from this node on. -/
def findFrom (iface : Nat) : Nat → Option Node → Exec (DriverCore Node Rest) (Option Node)
  | 0, _ => Exec.fault .diverges
  | rounds + 1, node =>
      if node = some driverList then pure none
      else do
        let driver ← Exec.deref node
        let core ← get
        if usbcCheckDriverMatch desc (drivers driver) (core.ifaces iface) then
          connectDriver drivers driver iface
        else findFrom iface rounds (core.links.next driver)

def usbcFindDriver (iface : Nat) : Exec (DriverCore Node Rest) (Option Node) := do
  let core ← get
  if (core.ifaces iface).assigned then pure none
  else findFrom drivers driverList desc iface loopRounds (core.links.next driverList)

/-- What was found is only printed. -/
def usbcAssignDriver : List Nat → Exec (DriverCore Node Rest) Unit
  | [] => pure ()
  | iface :: ifaceList => do
      let _ ← usbcFindDriver drivers driverList desc iface
      usbcAssignDriver ifaceList

def usbcAddDriver (driver : Node) : Exec (DriverCore Node Rest) Unit :=
  Exec.zoom DriverCore.links (fun links core => { core with links := links })
    (listAddFirst driver driverList)

/-- The list of the drivers as `usbc_init` leaves it. -/
def initDrivers : Exec (DriverCore Node Rest) Unit :=
  Exec.zoom DriverCore.links (fun links core => { core with links := links }) (listInit driverList)

end Drivers

/-! ## Drivers and devices in any order -/

inductive DriverEvent (Node : Type) where
  | driver (driver : Node)
  /-- A device whose descriptors have been read and parsed. -/
  | device (desc : Vector UInt8 18) (ifaces : Nat → UsbIface) (ifaceList : List Nat)

section Events

variable {Node Rest : Type} [DecidableEq Node] (drivers : Node → UsbDriver Rest)
  (driverList : Node)

def handleDriverEvent : DriverEvent Node → Exec (DriverCore Node Rest) Unit
  | .driver driver => usbcAddDriver driverList driver
  | .device desc ifaces ifaceList => do
      modify fun core => { core with ifaces := ifaces }
      usbcAssignDriver drivers driverList desc ifaceList

def handleDriverEvents : List (DriverEvent Node) → Exec (DriverCore Node Rest) Unit
  | [] => pure ()
  | event :: later => do
      handleDriverEvent drivers driverList event
      handleDriverEvents later

/-- A free interface is offered to the first of these drivers that matches, and to no other. -/
def offer (drivers : Node → UsbDriver Rest) (desc : Vector UInt8 18) (added : List Node)
    (given : (Nat → UsbIface) × Rest) (iface : Nat) : (Nat → UsbIface) × Rest :=
  if (given.1 iface).assigned then given
  else
    let matching := added.find? fun driver =>
      usbcCheckDriverMatch desc (drivers driver) (given.1 iface)
    matching.elim given fun driver => ((drivers driver).connect iface given.1 given.2).2

/-- The drivers that were added, the newest first, and what they have been given. -/
structure Offers (Node Rest : Type) where
  added : List Node
  given : (Nat → UsbIface) × Rest

def Offers.handle (drivers : Node → UsbDriver Rest) (offers : Offers Node Rest) :
    DriverEvent Node → Offers Node Rest
  | .driver driver => { offers with added := driver :: offers.added }
  | .device desc ifaces ifaceList =>
      { offers with
        given := ifaceList.foldl (offer drivers desc offers.added) (ifaces, offers.given.2) }

/-- The driver that an event adds. -/
def DriverEvent.added : DriverEvent Node → List Node
  | .driver new => [new]
  | .device _ _ _ => []

variable {drivers driverList} {core : DriverCore Node Rest} {offers : Offers Node Rest}
  {added : List Node} {desc : Vector UInt8 18}

/-- The list holds the drivers that were added, and the rest is as it was given. -/
structure Keeps (driverList : Node) (offers : Offers Node Rest) (core : DriverCore Node Rest) :
    Prop where
  ring : Ring core.links driverList offers.added
  given : (core.ifaces, core.rest) = offers.given

/-- The search stops at the first driver that matches and leaves the list as it is. -/
theorem run_findFrom {iface : Nat} (free : (core.ifaces iface).assigned = false) :
    ∀ {nodes : List Node} {first : Node} {rounds : Nat},
      Chained core.links first nodes driverList → driverList ∉ nodes → nodes.length < rounds →
      ∃ found after,
        (findFrom drivers driverList desc iface rounds (core.links.next first)).run core =
          .ok found after ∧ after.links = core.links ∧
        (after.ifaces, after.rest) = offer drivers desc nodes (core.ifaces, core.rest) iface
  | _, _, 0, _, _, enough => absurd enough (Nat.not_lt_zero _)
  | [], first, rounds + 1, chained, _, _ => by
      refine ⟨none, core, ?_, rfl, ?_⟩
      · rw [findFrom, if_pos chained.1]
        rfl
      · simp [offer]
  | node :: later, first, rounds + 1, chained, outside, enough => by
      have other : ¬ some node = some driverList :=
        fun same => outside (Option.some.inj same ▸ List.mem_cons_self)
      rw [chained.1, findFrom, if_neg other, Exec.run_bind_of_ok (Exec.run_deref_some node core),
        Exec.run_bind_of_ok (EStateM.run_get core)]
      by_cases matching : usbcCheckDriverMatch desc (drivers node) (core.ifaces iface) = true
      · rw [if_pos matching]
        refine ⟨_, _, rfl, rfl, ?_⟩
        simp [offer, free, matching]
      · rw [if_neg matching]
        rcases run_findFrom free chained.2.2
          (fun member => outside (List.mem_cons_of_mem _ member))
          (Nat.lt_of_succ_lt_succ enough) with ⟨found, after, runs, links, same⟩
        refine ⟨found, after, runs, links, same.trans ?_⟩
        simp [offer, free, matching]

theorem run_usbcFindDriver (ring : Ring core.links driverList added)
    (few : added.length < 2 ^ 32) (iface : Nat) :
    ∃ found after, (usbcFindDriver drivers driverList desc iface).run core = .ok found after ∧
      after.links = core.links ∧
      (after.ifaces, after.rest) = offer drivers desc added (core.ifaces, core.rest) iface := by
  have enough : added.length < loopRounds := by
    rw [loopRounds]
    exact few
  rw [usbcFindDriver, Exec.run_bind_of_ok (EStateM.run_get core)]
  cases assigned : (core.ifaces iface).assigned with
  | true => exact ⟨none, core, rfl, rfl, by simp [offer, assigned]⟩
  | false => exact run_findFrom assigned ring.chained (List.nodup_cons.mp ring.distinct).1 enough

/-- The interfaces of a device are offered one after the other. -/
theorem run_usbcAssignDriver (few : added.length < 2 ^ 32) : ∀ (ifaceList : List Nat)
    {core : DriverCore Node Rest}, Ring core.links driverList added →
    ∃ after, (usbcAssignDriver drivers driverList desc ifaceList).run core = .ok () after ∧
      after.links = core.links ∧
      (after.ifaces, after.rest) =
        ifaceList.foldl (offer drivers desc added) (core.ifaces, core.rest)
  | [], core, _ => ⟨core, rfl, rfl, rfl⟩
  | iface :: ifaceList, core, ring => by
      rcases run_usbcFindDriver ring few iface with ⟨found, middle, finds, links, first⟩
      rcases run_usbcAssignDriver few ifaceList (links ▸ ring) with ⟨after, rest, same, last⟩
      refine ⟨after, ?_, same.trans links, ?_⟩
      · rw [usbcAssignDriver, Exec.run_bind_of_ok finds]
        exact rest
      · rw [last, first, List.foldl_cons]

theorem Keeps.handle (keeps : Keeps driverList offers core) (event : DriverEvent Node)
    (fresh : ∀ driver ∈ event.added, driver ∉ driverList :: offers.added)
    (few : offers.added.length < 2 ^ 32) :
    ∃ after, (handleDriverEvent drivers driverList event).run core = .ok () after ∧
      Keeps driverList (offers.handle drivers event) after := by
  cases event with
  | driver driver =>
      have absent := fresh driver (List.mem_singleton_self _)
      rcases keeps.ring.addFirst absent with ⟨links, added, ring⟩
      have run := @Exec.run_zoom_ok _ _ _ DriverCore.links
        (fun links (core : DriverCore Node Rest) => { core with links := links }) _ core _ _
        (run_listAddFirst added)
      exact ⟨_, run, ring, keeps.given⟩
  | device desc ifaces ifaceList =>
      rcases @run_usbcAssignDriver _ _ _ drivers driverList offers.added desc few ifaceList
        { core with ifaces := ifaces } keeps.ring with ⟨after, runs, links, given⟩
      refine ⟨after, ?_, links ▸ keeps.ring, ?_⟩
      · exact (Exec.run_bind_of_ok (EStateM.run_modify ..)).trans runs
      · have rest : core.rest = offers.given.2 := congrArg Prod.snd keeps.given
        rw [given, Offers.handle, rest]

omit [DecidableEq Node] in
theorem Offers.handle_added (event : DriverEvent Node) :
    (offers.handle drivers event).added = event.added ++ offers.added := by
  cases event <;> rfl

theorem Keeps.handleAll : ∀ {events : List (DriverEvent Node)} {offers : Offers Node Rest}
    {core : DriverCore Node Rest}, Keeps driverList offers core →
    (driverList :: (offers.added ++ events.flatMap DriverEvent.added)).Nodup →
    (offers.added ++ events.flatMap DriverEvent.added).length < 2 ^ 32 →
    ∃ after, (handleDriverEvents drivers driverList events).run core = .ok () after ∧
      Keeps driverList (events.foldl (Offers.handle drivers) offers) after
  | [], _, core, keeps, _, _ => ⟨core, rfl, keeps⟩
  | event :: later, offers, core, keeps, once, few => by
      rw [List.flatMap_cons] at once few
      have fresh : ∀ driver ∈ event.added, driver ∉ driverList :: offers.added := by
        intro driver member
        rw [← List.append_assoc, ← List.cons_append, List.nodup_append, ← List.cons_append,
          List.nodup_append] at once
        exact fun earlier => once.1.2.2 driver earlier driver member rfl
      have same : List.Perm
          ((offers.handle drivers event).added ++ later.flatMap DriverEvent.added)
          (offers.added ++ (event.added ++ later.flatMap DriverEvent.added)) := by
        rw [Offers.handle_added, ← List.append_assoc]
        exact List.perm_append_comm.append_right _
      rw [List.length_append] at few
      rcases keeps.handle event fresh (by omega) with ⟨middle, first, kept⟩
      have rest := kept.handleAll ((same.cons driverList).nodup_iff.mpr once) (by
        rw [same.length_eq, List.length_append]
        exact few)
      rcases rest with ⟨after, runs, keeps⟩
      refine ⟨after, ?_, keeps⟩
      rw [handleDriverEvents, Exec.run_bind_of_ok first]
      exact runs

/-- In whatever order drivers are added and devices come, every search ends, and the free
interfaces of each device are offered, in the order of its list, to the newest driver by then
that matches. -/
theorem drivers_are_offered (core : DriverCore Node Rest) (events : List (DriverEvent Node))
    (once : (driverList :: events.flatMap DriverEvent.added).Nodup)
    (few : (events.flatMap DriverEvent.added).length < 2 ^ 32) :
    ∃ after, (initDrivers driverList >>= fun _ => handleDriverEvents drivers driverList events).run
        core = .ok () after ∧
      Keeps driverList (events.foldl (Offers.handle drivers) ⟨[], core.ifaces, core.rest⟩)
        after := by
  have starts := @Exec.run_zoom_ok _ _ _ DriverCore.links
    (fun links (core : DriverCore Node Rest) => { core with links := links }) _ core _ _
    (run_listInit driverList core.links)
  have keeps : Keeps driverList ⟨[], core.ifaces, core.rest⟩
      { core with links := core.links.init driverList } := ⟨Ring.of_init .., rfl⟩
  rcases keeps.handleAll once few with ⟨after, runs, kept⟩
  refine ⟨after, ?_, kept⟩
  rw [initDrivers, Exec.run_bind_of_ok starts]
  exact runs

theorem findFrom_self {iface : Nat} {driver : Node} (self : core.links.next driver = some driver)
    (other : driver ≠ driverList)
    (unmatched : usbcCheckDriverMatch desc (drivers driver) (core.ifaces iface) = false) :
    ∀ rounds, (findFrom drivers driverList desc iface rounds (some driver)).run core =
      .error .diverges core
  | 0 => rfl
  | rounds + 1 => by
      rw [findFrom, if_neg fun same => other (Option.some.inj same),
        Exec.run_bind_of_ok (Exec.run_deref_some driver core),
        Exec.run_bind_of_ok (EStateM.run_get core), unmatched, self]
      exact findFrom_self self other unmatched rounds

/-- When the newest driver is added again, its node points to itself: the search for any free
interface that it does not match goes round for ever. -/
theorem driver_added_again {driver : Node} (ring : Ring core.links driverList (driver :: added)) :
    ∃ after, (usbcAddDriver driverList driver).run core = .ok () after ∧
      ∀ iface, (core.ifaces iface).assigned = false →
        usbcCheckDriverMatch desc (drivers driver) (core.ifaces iface) = false →
        (usbcFindDriver drivers driverList desc iface).run after = .error .diverges after := by
  have other : driver ≠ driverList := by
    rintro rfl
    exact (List.nodup_cons.mp ring.distinct).1 List.mem_cons_self
  have again : core.links.addFirst driver driverList =
      some (core.links.add driver driverList driver) := by
    rw [Links.addFirst, ring.next_cons]
    rfl
  have adds := @Exec.run_zoom_ok _ _ _ DriverCore.links
    (fun links (core : DriverCore Node Rest) => { core with links := links }) _ core _ _
    (run_listAddFirst again)
  let after : DriverCore Node Rest :=
    { core with links := core.links.add driver driverList driver }
  refine ⟨after, adds, fun iface free unmatched => ?_⟩
  have self : (core.links.add driver driverList driver).next driver = some driver := by
    simp [Links.add]
  have first : (core.links.add driver driverList driver).next driverList = some driver := by
    simp [Links.add, other.symm]
  have unassigned : ¬ (after.ifaces iface).assigned = true := Bool.eq_false_iff.mp free
  rw [usbcFindDriver, Exec.run_bind_of_ok (EStateM.run_get _), if_neg unassigned, first]
  exact @findFrom_self _ _ _ drivers driverList after desc iface driver self other unmatched
    loopRounds

end Events

/-- Two drivers that take any interface and write down their turn. -/
def loggingDrivers (driver : Nat) : UsbDriver (List Nat) where
  devIds := [⟨0, 0, 0, 0, 0, 0, 0, 0, 0⟩]
  connect _ ifaces log := (true, ifaces, driver :: log)

def freeIface : UsbIface := ⟨.replicate 9 0, 0, 0, none, false⟩

def noDrivers : DriverCore Nat (List Nat) :=
  ⟨⟨fun _ => none, fun _ => none⟩, fun _ => freeIface, []⟩

def twoDrivers : List (DriverEvent Nat) :=
  [.driver 1, .driver 2, .device (.replicate 18 0) (fun _ => freeIface) [8]]

theorem drivers_are_offered_newest :
    ∃ after, (initDrivers 0 >>= fun _ => handleDriverEvents loggingDrivers 0 twoDrivers).run
        noDrivers = .ok () after ∧ after.rest = [2] := by
  rcases @drivers_are_offered _ _ _ loggingDrivers 0 noDrivers twoDrivers (by decide) (by decide)
    with ⟨after, runs, keeps⟩
  exact ⟨after, runs, congrArg Prod.snd keeps.given⟩

/-- A driver without device numbers. -/
def silentDriver : UsbDriver (List Nat) := ⟨[], fun _ ifaces log => (false, ifaces, log)⟩

theorem driver_added_again_silent : ∃ core after : DriverCore Nat (List Nat),
    (usbcAddDriver 0 1).run core = .ok () after ∧
      (usbcFindDriver (fun _ => silentDriver) 0 (.replicate 18 0) 8).run after =
        .error .diverges after := by
  have fresh : 1 ∉ [0] := by decide
  rcases (Ring.of_init noDrivers.links 0).addFirst fresh with ⟨links, _, ring⟩
  rcases @driver_added_again _ _ _ (fun _ => silentDriver) 0 { noDrivers with links := links } []
    (.replicate 18 0) 1 ring with ⟨after, adds, loops⟩
  exact ⟨_, after, adds, loops 8 rfl rfl⟩

end Vanilla.Usb
