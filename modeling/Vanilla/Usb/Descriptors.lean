import Vanilla.Foundation.Grouping

namespace Vanilla.Usb

/-! usb.c: checking and parsing the descriptors of a device. The records lie in
one buffer, first all configurations, then all interfaces, then all endpoints;
a pointer to a record is its offset in that buffer. Sizes and offsets are of
descriptor strings that fit in memory, so no sum reaches 2^32. -/

def usbDescConfig : UInt8 := 0x02
def usbDescIface : UInt8 := 0x04
def usbDescEp : UInt8 := 0x05

def sizeofUsbConfig : Nat := 24
def sizeofUsbIface : Nat := 40
def sizeofUsbEp : Nat := 12

structure UsbConfig where
  desc : Vector UInt8 9
  ifaces : Nat
  numIfaces : Nat
  currIface : Option Nat

structure UsbIface where
  desc : Vector UInt8 9
  eps : Nat
  numEps : Nat
  driver : Option Nat
  assigned : Bool

/-- `pad` is the byte between the descriptor and the pointer. -/
structure UsbEp where
  desc : Vector UInt8 7
  pad : UInt8
  pipe : Vector UInt8 4

/-- The numbers of configurations, interfaces and endpoints. -/
structure Counts where
  configs : Nat
  ifaces : Nat
  eps : Nat
deriving DecidableEq

/-! ## usbc_verify_descriptors -/

inductive Verdict where
  | accepted (counts : Counts)
  | rejected
  | diverges
deriving DecidableEq

/-- The loop from `pos` on. A descriptor of length zero is read again and again. -/
def verifyLoop (data : Nat → UInt8) (size : Nat) : Nat → Nat → Counts → Verdict
  | 0, _, _ => .diverges
  | fuel + 1, pos, counts =>
      if pos < size then
        let type := data (pos + 1)
        let length := (data pos).toNat
        if type = usbDescConfig then
          if length ≠ 9 then .rejected
          else verifyLoop data size fuel (pos + length)
            { counts with configs := counts.configs + 1 }
        else if type = usbDescIface then
          if length ≠ 9 then .rejected
          else verifyLoop data size fuel (pos + length)
            { counts with ifaces := counts.ifaces + 1 }
        else if type = usbDescEp then
          if length ≠ 7 then .rejected
          else verifyLoop data size fuel (pos + length) { counts with eps := counts.eps + 1 }
        else verifyLoop data size fuel (pos + length) counts
      else if pos = size then .accepted counts
      else .rejected

/-- Every round that advances takes a byte at least. -/
def usbcVerifyDescriptors (data : Nat → UInt8) (size : Nat) : Verdict :=
  verifyLoop data size (size + 1) 0 ⟨0, 0, 0⟩

/-! ## The buffer -/

def configOffset (index : Nat) : Nat := index * sizeofUsbConfig

def ifaceOffset (configs index : Nat) : Nat :=
  configs * sizeofUsbConfig + index * sizeofUsbIface

def epOffset (configs ifaces index : Nat) : Nat :=
  configs * sizeofUsbConfig + ifaces * sizeofUsbIface + index * sizeofUsbEp

/-- `usbc_get_desc_offset`. -/
def usbcGetDescOffset (configs ifaces : Nat) (type : UInt8) (index : Nat) : Nat :=
  if type = usbDescConfig then configOffset index
  else if type = usbDescIface then ifaceOffset configs index
  else if type = usbDescEp then epOffset configs ifaces index
  else 0

/-- The fields of `struct usb_dev` the parser works on, with its records. -/
structure UsbDev where
  descTotalSize : Nat
  numConfigs : Nat
  configs : Nat → UsbConfig
  ifaces : Nat → UsbIface
  eps : Nat → UsbEp
  ifaceList : List Nat

/-- `usbc_alloc_descriptors`: what `bmalloc` is asked for. -/
def usbcAllocDescriptors (dev : UsbDev) (counts : Counts) : UsbDev :=
  { dev with descTotalSize := counts.configs * sizeofUsbConfig +
      counts.ifaces * sizeofUsbIface + counts.eps * sizeofUsbEp }

def initConfig (dev : UsbDev) (index : Nat) : UsbDev :=
  let offset := configOffset index
  { dev with configs :=
      Function.update dev.configs offset { dev.configs offset with currIface := none } }

def initIface (configs : Nat) (dev : UsbDev) (index : Nat) : UsbDev :=
  let offset := ifaceOffset configs index
  { dev with
    ifaces := Function.update dev.ifaces offset
      { dev.ifaces offset with driver := none, assigned := false }
    ifaceList := offset :: dev.ifaceList }

def initEp (configs ifaces : Nat) (dev : UsbDev) (index : Nat) : UsbDev :=
  let offset := epOffset configs ifaces index
  { dev with eps :=
      Function.update dev.eps offset { dev.eps offset with pipe := .replicate 4 0 } }

def usbcInitDescriptors (dev : UsbDev) (counts : Counts) : UsbDev :=
  let configured := (List.range counts.configs).foldl initConfig dev
  let linked := (List.range counts.ifaces).foldl (initIface counts.configs) configured
  (List.range counts.eps).foldl (initEp counts.configs counts.ifaces) linked

/-! ## usbc_parse_descriptors -/

def bytesAt (data : Nat → UInt8) (pos length : Nat) : Vector UInt8 length :=
  .ofFn fun index => data (pos + index.val)

structure Parser where
  dev : UsbDev
  configIndex : Nat
  ifaceIndex : Nat
  epIndex : Nat
  lastCfg : Option Nat
  lastIface : Option Nat

def Parser.onConfig (parser : Parser) (data : Nat → UInt8) (pos : Nat) (counts : Counts) :
    Parser :=
  let offset := usbcGetDescOffset counts.configs counts.ifaces usbDescConfig parser.configIndex
  { parser with
    dev := { parser.dev with
      configs := Function.update parser.dev.configs offset
        { parser.dev.configs offset with desc := bytesAt data pos 9, numIfaces := 0 }
      numConfigs := parser.dev.numConfigs + 1 }
    lastCfg := some offset
    configIndex := parser.configIndex + 1 }

/-- One more interface of the configuration at `last`. -/
def UsbDev.addIface (dev : UsbDev) (last offset : Nat) : UsbDev :=
  let config := dev.configs last
  { dev with configs := Function.update dev.configs last { config with
      ifaces := if config.numIfaces = 0 then offset else config.ifaces
      numIfaces := config.numIfaces + 1 } }

/-- An interface before every configuration fails. -/
def Parser.onIface (parser : Parser) (data : Nat → UInt8) (pos : Nat) (counts : Counts) :
    Option Parser :=
  let offset := usbcGetDescOffset counts.configs counts.ifaces usbDescIface parser.ifaceIndex
  let dev : UsbDev := { parser.dev with
    ifaces := Function.update parser.dev.ifaces offset
      { parser.dev.ifaces offset with desc := bytesAt data pos 9, numEps := 0 } }
  parser.lastCfg.map fun last =>
    { parser with
      dev := dev.addIface last offset
      lastIface := some offset
      ifaceIndex := parser.ifaceIndex + 1 }

def UsbDev.addEp (dev : UsbDev) (last offset : Nat) : UsbDev :=
  let iface := dev.ifaces last
  { dev with ifaces := Function.update dev.ifaces last { iface with
      eps := if iface.numEps = 0 then offset else iface.eps
      numEps := iface.numEps + 1 } }

/-- The copy takes `sizeof(struct usb_ep)` bytes, so it fills the pipe pointer
with what follows the descriptor. -/
def Parser.onEp (parser : Parser) (data : Nat → UInt8) (pos : Nat) (counts : Counts) :
    Option Parser :=
  let offset := usbcGetDescOffset counts.configs counts.ifaces usbDescEp parser.epIndex
  let dev : UsbDev := { parser.dev with
    eps := Function.update parser.dev.eps offset
      { desc := bytesAt data pos 7, pad := data (pos + 7), pipe := bytesAt data (pos + 8) 4 } }
  parser.lastIface.map fun last =>
    { parser with
      dev := dev.addEp last offset
      epIndex := parser.epIndex + 1 }

/-- One round of the loop. -/
def Parser.round (parser : Parser) (data : Nat → UInt8) (pos : Nat) (counts : Counts) :
    Option Parser :=
  if data (pos + 1) = usbDescConfig then some (parser.onConfig data pos counts)
  else if data (pos + 1) = usbDescIface then parser.onIface data pos counts
  else if data (pos + 1) = usbDescEp then parser.onEp data pos counts
  else some parser

/-- `none` when the parser returns 0, or would not come to an end. -/
def parseLoop (data : Nat → UInt8) (size : Nat) (counts : Counts) :
    Nat → Nat → Parser → Option Parser
  | 0, _, _ => none
  | fuel + 1, pos, parser =>
      if pos < size then
        (parser.round data pos counts).bind fun next =>
          parseLoop data size counts fuel (pos + (data pos).toNat) next
      else some parser

def Parser.start (dev : UsbDev) : Parser where
  dev := dev
  configIndex := 0
  ifaceIndex := 0
  epIndex := 0
  lastCfg := none
  lastIface := none

def usbcParseDescriptors (dev : UsbDev) (data : Nat → UInt8) (size : Nat) : Option UsbDev :=
  match usbcVerifyDescriptors data size with
  | .accepted counts =>
      let initialized := usbcInitDescriptors (usbcAllocDescriptors dev counts) counts
      (parseLoop data size counts (size + 1) 0 (.start initialized)).map Parser.dev
  | .rejected => none
  | .diverges => none

end Vanilla.Usb
