import Vanilla.Usb.ControlRead
import Vanilla.Usb.Descriptors

namespace Vanilla.Usb

/-! usb.c: enumeration. One URB asks for one descriptor after another, and its
callback decides from the last answer what to ask for next. -/

def usbEnumBufferSize : Nat := 1024
def maxPipes : Nat := 10

/-- `enum usb_enum_state` -/
inductive EnumState where
  | idle
  | getEp0Size
  | getDevDesc
  | setAddress
  | getDescLength
  | getDescriptors
  | getProductName
  | getManufacturerName
deriving DecidableEq

/-- What enumeration keeps in `struct usb_dev`; `parsed` is what
`usbc_parse_descriptors` builds. -/
structure EnumDev where
  ep0Size : Nat
  desc : Vector UInt8 18
  address : Nat
  parsed : UsbDev

structure UsbCore where
  enumState : EnumState
  devAddrBm : Nat
  enumDev : EnumDev

abbrev UsbState := HcState UsbCore

/-! ## Requests -/

/-- `struct usb_setup_desc`, with `wValue` by its two bytes. -/
structure SetupDesc where
  bmRequestType : UInt8
  bRequest : UInt8
  bDescriptorIndex : UInt8
  bDescriptorType : UInt8
  wIndex : Nat
  wLength : Nat

def SetupDesc.bytes (setup : SetupDesc) : Vector UInt8 8 :=
  #v[setup.bmRequestType, setup.bRequest, setup.bDescriptorIndex, setup.bDescriptorType,
    UInt8.ofNat setup.wIndex, UInt8.ofNat (setup.wIndex >>> 8),
    UInt8.ofNat setup.wLength, UInt8.ofNat (setup.wLength >>> 8)]

/-- A 16-bit field of a packed record. -/
def field16 (low high : UInt8) : Nat := low.toNat + high.toNat <<< 8

def usbReqGetDescriptor : UInt8 := 0x06
def usbReqSetAddress : UInt8 := 0x05
def usbDescDevice : UInt8 := 0x01
def usbDescString : UInt8 := 0x03

namespace HcState

def setCore {Core : Type} (core : Core) (state : HcState Core) : HcState Core :=
  { state with core := core }

def setEpSize {Core : Type} (size : Nat) (state : HcState Core) : HcState Core :=
  { state with pipe := { state.pipe with epSize := size } }

end HcState

/-- `usbhc_fill_control_urb` -/
def usbhcFillControlUrb (setup : SetupDesc) (transferBuffer : Nat) (urb : Urb) : Urb :=
  { urb with
    setupBuffer := setup.bytes
    transferBuffer := transferBuffer
    flags := urbFlagsSetup
    transferLength := field16 setup.bytes[6] setup.bytes[7] }

/-- What every request does with its setup descriptor. -/
def usbcRequest (enumBuffer urb : Nat) (setup : SetupDesc) : Exec UsbState Unit := do
  let state ← get
  set (state.setUrb urb (usbhcFillControlUrb setup enumBuffer (state.urbs urb)))
  usbhcSubmitUrb urb

def usbcGetDevDesc (enumBuffer urb : Nat) (full : Bool) : Exec UsbState Unit :=
  usbcRequest enumBuffer urb {
    bmRequestType := usbDeviceToHost
    bRequest := usbReqGetDescriptor
    bDescriptorIndex := 0
    bDescriptorType := usbDescDevice
    wIndex := 0
    wLength := if full then 18 else 8 }

def usbGetStringDesc (enumBuffer urb : Nat) (descIndex : UInt8) (langId : Nat) :
    Exec UsbState Unit :=
  usbcRequest enumBuffer urb {
    bmRequestType := usbDeviceToHost
    bRequest := usbReqGetDescriptor
    bDescriptorIndex := descIndex
    bDescriptorType := usbDescString
    wIndex := langId
    wLength := usbEnumBufferSize }

/-- `usbc_new_address`: the first address from 1 on that is not in use. -/
def usbcNewAddress (devAddrBm : Nat) : Nat :=
  ((List.range' 1 (maxPipes - 1)).find? fun address => devAddrBm &&& 1 <<< address = 0).getD 0

def usbcSetDevAddr (enumBuffer urb : Nat) : Exec UsbState Unit := do
  let state ← get
  let address := usbcNewAddress state.core.devAddrBm
  set (state.setCore { state.core with
    devAddrBm := if address = 0 then state.core.devAddrBm
      else state.core.devAddrBm ||| 1 <<< address })
  usbcRequest enumBuffer urb {
    bmRequestType := usbHostToDevice
    bRequest := usbReqSetAddress
    bDescriptorIndex := UInt8.ofNat address
    bDescriptorType := 0
    wIndex := 0
    wLength := 0 }

/-- The two requests for the configuration descriptor. -/
def usbcRequestConfig (enumBuffer urb wLength : Nat) : Exec UsbState Unit :=
  usbcRequest enumBuffer urb {
    bmRequestType := usbDeviceToHost
    bRequest := usbReqGetDescriptor
    bDescriptorIndex := 0
    bDescriptorType := usbDescConfig
    wIndex := 0
    wLength := wLength }

def usbcGetCfgDesc (enumBuffer urb : Nat) : Exec UsbState Unit :=
  usbcRequestConfig enumBuffer urb 9

def usbcGetAllDesc (enumBuffer urb : Nat) : Exec UsbState Unit := do
  let state ← get
  usbcRequestConfig enumBuffer urb state.core.enumDev.parsed.descTotalSize

/-! ## Answers -/

def setEnumDev (dev : EnumDev) (state : UsbState) : UsbState :=
  state.setCore { state.core with enumDev := dev }

def setEnumState (enumState : EnumState) (state : UsbState) : UsbState :=
  state.setCore { state.core with enumState := enumState }

def usbcEp0SizeDone (urb : Urb) : Exec UsbState Unit := do
  let state ← get
  let packetSize := (state.memory (u32 (urb.transferBuffer + 7))).toNat
  if packetSize < 8 ∨ 1024 < packetSize then Exec.panic "Abort enumeration"
  else set (setEnumDev { state.core.enumDev with ep0Size := packetSize } state)

/-- The copy takes `wLength` bytes of the request, which are the 18 asked for. -/
def usbcDeviceDescDone (urb : Urb) : Exec UsbState Unit := do
  let state ← get
  let size := field16 urb.setupBuffer[6] urb.setupBuffer[7]
  set (setEnumDev { state.core.enumDev with
    desc := Vector.ofFn fun position : Fin 18 =>
      if position < size then state.memory (u32 (urb.transferBuffer + position))
      else state.core.enumDev.desc[position] } state)

def usbcAddressDone (urb : Urb) : Exec UsbState Unit := do
  let state ← get
  set (setEnumDev { state.core.enumDev with
    address := field16 urb.setupBuffer[2] urb.setupBuffer[3] % 2 ^ 8 } state)

def usbcDescLengthDone (urb : Urb) : Exec UsbState Unit := do
  let state ← get
  if urb.acctualLength ≠ 9 then Exec.panic "Error"
  else do
    let total := field16 (state.memory (u32 (urb.transferBuffer + 2)))
      (state.memory (u32 (urb.transferBuffer + 3)))
    set (setEnumDev { state.core.enumDev with
      parsed := { state.core.enumDev.parsed with descTotalSize := total } } state)

def usbcGetAllDescDone (urb : Urb) : Exec UsbState Unit := do
  let state ← get
  let data := fun position => state.memory (u32 (urb.transferBuffer + position))
  match usbcParseDescriptors state.core.enumDev.parsed data urb.acctualLength with
  | some parsed => set (setEnumDev { state.core.enumDev with parsed := parsed } state)
  | none =>
      match usbcVerifyDescriptors data urb.acctualLength with
      | .diverges => Exec.fault .diverges
      | _ => Exec.panic "Cannot parse descriptors"

/-- The `switch` of `usbc_enumerate_handler`; the names only go to the two
strings of the device. -/
def usbcAnswer (enumBuffer index : Nat) (urb : Urb) : EnumState → Exec UsbState Unit
  | .idle => pure ()
  | .getEp0Size => do
      usbcEp0SizeDone urb
      let after ← get
      set (setEnumState .getDevDesc (after.setEpSize after.core.enumDev.ep0Size))
      usbcGetDevDesc enumBuffer index true
  | .getDevDesc => do
      usbcDeviceDescDone urb
      modify (setEnumState .setAddress)
      usbcSetDevAddr enumBuffer index
  | .setAddress => do
      usbcAddressDone urb
      modify (setEnumState .getDescLength)
      usbcGetCfgDesc enumBuffer index
  | .getDescLength => do
      usbcDescLengthDone urb
      modify (setEnumState .getDescriptors)
      usbcGetAllDesc enumBuffer index
  | .getDescriptors => do
      usbcGetAllDescDone urb
      modify (setEnumState .getProductName)
      let after ← get
      usbGetStringDesc enumBuffer index after.core.enumDev.desc[15] 0
  | .getProductName => do
      modify (setEnumState .getManufacturerName)
      let after ← get
      usbGetStringDesc enumBuffer index after.core.enumDev.desc[14] 0
  | .getManufacturerName => pure ()

def usbcEnumerateHandler (enumBuffer index : Nat) : Exec UsbState Unit := do
  let state ← get
  let urb := state.urbs index
  if urb.status ≠ .ok then Exec.panic "Enumeration URB failed"
  else usbcAnswer enumBuffer index urb state.core.enumState

/-- `usbc_start_enum`: the default control pipe, configured again. -/
def usbcStartEnum (enumBuffer index : Nat) : Exec UsbState Unit := do
  modify fun state => { state with pipe := { state := .idle, type := .ctrl, epSize := 64 } }
  modify (setEnumState .getEp0Size)
  usbcGetDevDesc enumBuffer index false

end Vanilla.Usb
