import Vanilla.Foundation.Exec
import Vanilla.Foundation.Word

namespace Vanilla.Boot

/-! The bootloader's flash driver and the commands of its main loop. Everything
it sends to the flash controller is recorded, with the function that sent it. -/

abbrev Page := Vector UInt8 512

/-- The `u32` at `offset` of a page. -/
def Page.word (page : Page) (offset : Nat) : Nat :=
  (page[offset]?.getD 0).toNat +
    2 ^ 8 * (page[offset + 1]?.getD 0).toNat +
    2 ^ 16 * (page[offset + 2]?.getD 0).toNat +
    2 ^ 24 * (page[offset + 3]?.getD 0).toNat

/-- `struct frame`. -/
structure Frame where
  cmd : UInt8
  size : Nat
  payload : Page
  fcs : UInt8
deriving DecidableEq

inductive FlashSource where
  | eraseWrite
  | eraseImage
  | writeImagePage
deriving DecidableEq

inductive FlashAction where
  /-- A store to the latch buffer. -/
  | latch (address value : Nat)
  /-- A write of the command register `FCR`. -/
  | command (fcr : Nat)

structure FlashAccess where
  source : FlashSource
  action : FlashAction

/-- What the hardware answers: the flash bytes after so many commands, whether
a command ends with an error flag, and the digest engine. -/
structure Hardware where
  contents : Nat → Nat → UInt8
  fails : Nat → Bool
  digest : Nat → Nat → Nat → UInt8

structure BootState where
  hardware : Hardware
  commands : Nat
  accesses : List FlashAccess
  kernelTotalSize : Nat
  kernelPage : Nat
  flashBuffer : Page
  led : Bool
  responses : List Nat
  resets : Nat

/-! ## flash.c -/

def flashStart : Nat := 0x00400000
def kernelStart : Nat := 0x00404000
def sector16Mask : Nat := 0xFFFFFFF0
def commandKey : Nat := 0x5A000000

def latchStore (source : FlashSource) (address : Nat) (buffer : Page) (index : Nat) :
    FlashAccess where
  source := source
  action := .latch (u32 (address + 4 * index)) (buffer.word (4 * index))

/-- The 128 word stores of one page. -/
def latchStores (source : FlashSource) (address : Nat) (buffer : Page) : List FlashAccess :=
  (List.range 128).map (latchStore source address buffer)

def latchPage (source : FlashSource) (address : Nat) (buffer : Page) : Exec BootState Unit :=
  modify fun state =>
    { state with accesses := state.accesses ++ latchStores source address buffer }

/-- Write `FCR`, wait for the command and return whether no error flag is set. -/
def issue (source : FlashSource) (fcr : Nat) : Exec BootState Bool := do
  let state ← get
  set { state with
    accesses := state.accesses ++ [{ source, action := .command fcr : FlashAccess }]
    commands := state.commands + 1 }
  pure !state.hardware.fails state.commands

/-- Compare the flash from `address` on with a buffer. -/
def flashMatches (address : Nat) (buffer : Page) : Exec BootState Bool := do
  let state ← get
  pure ((List.range 512).all fun index =>
    state.hardware.contents state.commands (u32 (address + index)) == buffer[index]?.getD 0)

def flashEraseWrite (page : Nat) (buffer : Page) : Exec BootState Bool :=
  if 32 ≤ page then
    pure false
  else do
    latchPage .eraseWrite (u32 (flashStart + u32 (512 * page))) buffer
    let done ← issue .eraseWrite (commandKey ||| (page &&& 0xFFFF) <<< 8 ||| 0x3)
    if done then flashMatches (u32 (flashStart + u32 (512 * page))) buffer
    else pure false

def eraseArgument (sect8kBase : Nat) : Nat := (sect8kBase &&& sector16Mask) % 2 ^ 16 ||| 2

/-- The loop of `flash_erase_image`, with `count` sectors to go. -/
def eraseSectors (sect8kBase : Nat) : Nat → Exec BootState Bool
  | 0 => pure true
  | count + 1 => do
      let done ← issue .eraseImage (commandKey ||| eraseArgument sect8kBase <<< 8 ||| 0x07)
      if done then eraseSectors (u32 (sect8kBase + 16)) count
      else pure false

/-- The number of 8 KiB blocks that hold `size` bytes, as the source rounds it. -/
def sect8k (size : Nat) : Nat :=
  let pages := if size % 512 ≠ 0 then size / 512 + 1 else size / 512
  if pages % 16 ≠ 0 then pages / 16 + 1 else pages / 16

def flashEraseImage (size : Nat) : Exec BootState Nat := do
  let erased ← eraseSectors 32 (sect8k size)
  if erased then pure (u32 (sect8k size * 8192))
  else pure 0

def flashWriteImagePage (page : Nat) (buffer : Page) : Exec BootState Bool := do
  latchPage .writeImagePage (u32 (kernelStart + u32 (page * 512))) buffer
  let done ← issue .writeImagePage (commandKey ||| (u32 (page + 32) &&& 0xFF) <<< 8 ||| 0x01)
  if done then flashMatches (u32 (kernelStart + u32 (page * 512))) buffer
  else pure false

/-! ## bootloader.c -/

def eraseKernelImage (data : Page) : Exec BootState Bool := do
  let flashStatus ← flashEraseImage (data.word 0)
  if flashStatus ≠ 0 then do
    modify fun state => { state with kernelTotalSize := flashStatus }
    pure true
  else
    pure false

/-- The first `size` bytes of `data`, padded with `0xFF`. -/
def paddedPage (size : Nat) (data : Nat → UInt8) : Page :=
  .ofFn fun index => if index.val < size then data index.val else 0xFF

def writeKernelPage (data : Page) (size page : Nat) : Exec BootState Bool := do
  let buffer := paddedPage size fun index => data[index]?.getD 0
  modify fun state => { state with flashBuffer := buffer }
  let flashStatus ← flashWriteImagePage page buffer
  if flashStatus then do
    let verified ← flashMatches (u32 (kernelStart + u32 (512 * page))) buffer
    if verified then pure true
    else Exec.panic "Flash verification error"
  else
    Exec.panic "Flash write failed"

/-- `struct hash`: 32 bytes of digest, then the size. -/
def hashByte (digest : Nat → UInt8) (size index : Nat) : UInt8 :=
  if index < 32 then digest index else UInt8.ofNat (size / 2 ^ (8 * (index - 32)))

def storeKernelHash : Exec BootState Bool := do
  let state ← get
  let digest := state.hardware.digest state.commands state.kernelTotalSize
  let buffer := paddedPage 36 (hashByte digest state.kernelTotalSize)
  set { state with flashBuffer := buffer }
  let flashStatus ← flashEraseWrite 30 buffer
  if flashStatus then flashMatches (u32 (flashStart + 512 * 30)) buffer
  else pure false

def setFlashWriteOffset (data : Page) : Exec BootState Unit :=
  modify fun state => { state with kernelPage := data.word 0 }

/-! ## main.c -/

/-- The response byte; clearing `frame_received` belongs to the receiver. -/
def sendResponse (code : Nat) : Exec BootState Unit :=
  modify fun state => { state with responses := state.responses ++ [code] }

def respOk : Nat := 0
/-- `RESP_ERROR | RESP_FLASH_ERROR`. -/
def respFlashError : Nat := 9

/-- The bootloader starts again from its initial variables. -/
def chipReset : Exec BootState Unit :=
  modify fun state => { state with
    kernelTotalSize := 0, kernelPage := 0, flashBuffer := .replicate 512 0
    led := false, resets := state.resets + 1 }

def eraseFlash (frame : Frame) : Exec BootState Unit := do
  let status ← eraseKernelImage frame.payload
  if status then sendResponse respOk else sendResponse respFlashError

def writePage (frame : Frame) : Exec BootState Unit := do
  let state ← get
  set { state with kernelPage := u32 (state.kernelPage + 1) }
  let status ← writeKernelPage frame.payload frame.size state.kernelPage
  if status then sendResponse respOk else sendResponse respFlashError

/-- The hash is stored and the chip reset whatever the response was. -/
def finishDownload : Exec BootState Unit := do
  sendResponse respOk
  let stored ← storeKernelHash
  if stored then chipReset else Exec.panic "Cannot store the hash digest"

def writePageLast (frame : Frame) : Exec BootState Unit := do
  let state ← get
  let status ← writeKernelPage frame.payload frame.size state.kernelPage
  if status then finishDownload
  else do
    sendResponse respFlashError
    finishDownload

def setFlashOffset (frame : Frame) : Exec BootState Unit := do
  setFlashWriteOffset frame.payload
  sendResponse respOk

/-- The pin is active low: `gpio_clear` turns the LED on. -/
def ctrlLed (frame : Frame) : Exec BootState Unit := do
  modify fun state => { state with led := frame.payload[0]?.getD 0 ≠ 0 }
  sendResponse respOk

/-- One pass of the main loop over a received frame. -/
def execute (frame : Frame) : Exec BootState Unit :=
  if frame.cmd = 0x03 then eraseFlash frame
  else if frame.cmd = 0x04 then writePage frame
  else if frame.cmd = 0x05 then writePageLast frame
  else if frame.cmd = 0x06 then setFlashOffset frame
  else if frame.cmd = 0x07 then ctrlLed frame
  else pure ()

end Vanilla.Boot
