import Vanilla.Foundation.Exec
import Vanilla.Foundation.ByteMemory
import Vanilla.Foundation.Partition
import Vanilla.Mm.Header
import Vanilla.Kernel.SystickRefinement
import Vanilla.Kernel.Frames
import Vanilla.Kernel.DlistOperations
import Vanilla.Kernel.DlistMembership
import Vanilla.Mm.UmallocRuns
import Vanilla.Mm.Isolation
import Vanilla.Boot.FlashSafety
import Vanilla.Disk.FileRead
import Vanilla.Boot.Validated
import Vanilla.Kernel.Context
import Vanilla.Kernel.CallRefinement
import Vanilla.Kernel.Creation
import Vanilla.Kernel.Memory
import Vanilla.Kernel.System
import Vanilla.Kernel.Soundness
import Vanilla.Kernel.SoundCalls
import Vanilla.Kernel.Runs
import Vanilla.Kernel.Blocking
import Vanilla.Kernel.Interleaving
import Vanilla.Kernel.Sleeping
import Vanilla.Kernel.Transitions
import Vanilla.Kernel.Exits
import Vanilla.Kernel.Orderly
import Vanilla.Kernel.Launch
import Vanilla.Kernel.StackLayout
import Vanilla.Kernel.LongRun
import Vanilla.Foundation.StableInsert
import Vanilla.Kernel.WakeUps
import Vanilla.Kernel.Dispatch
import Vanilla.Kernel.ExpiredDelays
import Vanilla.Kernel.RqList
import Vanilla.Boot.Reception
import Vanilla.Boot.Framing
import Vanilla.Boot.Sizes
import Vanilla.Boot.Hash
import Vanilla.Foundation.CircularList
import Vanilla.Usb.Usbhc
import Vanilla.Usb.PipeCalls
import Vanilla.Usb.ControlRead
import Vanilla.Foundation.Grouping
import Vanilla.Usb.Descriptors
import Vanilla.Usb.DescriptorTree
import Vanilla.Usb.UrbQueue
import Vanilla.Usb.PipeQueue
import Vanilla.Usb.UrbCancel
import Vanilla.Usb.InPackets
import Vanilla.Usb.Enumeration
import Vanilla.Usb.EnumerationBuffer
import Vanilla.Misc.Fpi
import Vanilla.Misc.FpiCopies
import Vanilla.Boot.FlashArray
import Vanilla.Boot.Programming
import Vanilla.Boot.Download
import Vanilla.Boot.Completion
import Vanilla.Boot.LoadKernel
import Vanilla.Boot.DownloadImage
import Vanilla.Boot.FlashRun
import Vanilla.Boot.Faultless
import Vanilla.Boot.Rejections
import Vanilla.Mm.FirstFit
import Vanilla.Mm.Wrapping
import Vanilla.Mm.UmallocLayout
import Vanilla.Mm.DoubleFree
import Vanilla.Foundation.Keeps
import Vanilla.Kernel.Undisturbed
import Vanilla.Kernel.ThreadList
import Vanilla.Kernel.ThreadEvents
import Vanilla.Kernel.RunTime
import Vanilla.Disk.Directory
import Vanilla.Disk.DirectoryLookup
import Vanilla.Disk.FilePosition
import Vanilla.Foundation.Loop
import Vanilla.Disk.DirectoryRead
import Vanilla.Disk.DirectoryScan
import Vanilla.Disk.DirectoryStores
import Vanilla.Disk.LongName
import Vanilla.Disk.NameLookup
import Vanilla.Disk.LookupSoundness
import Vanilla.Disk.Traversal
import Vanilla.Disk.DirectoryListing
import Vanilla.Disk.UpperBits
import Vanilla.Disk.VolumeList
import Vanilla.Disk.VolumeMounts
import Vanilla.Disk.Eject
import Vanilla.Disk.Label
import Vanilla.Disk.ClusterFailure
import Vanilla.Kernel.RunBinary
import Vanilla.Kernel.DynamicLinker
import Vanilla.Disk.BootSector
import Vanilla.Disk.Table
import Vanilla.Boot.Detection
import Vanilla.Disk.ClusterAllocation
import Vanilla.Misc.RingbufferFifo
import Vanilla.Misc.RingbufferMult
import Vanilla.Usb.PipeSize
import Vanilla.Usb.PipeConfigure
import Vanilla.Usb.PipeInterrupts
import Vanilla.Usb.DeviceNames
import Vanilla.Usb.DescriptorReads
import Vanilla.Usb.DescriptorMemory
import Vanilla.Disk.Mmc
import Vanilla.Disk.SdProtocol
import Vanilla.Kernel.ListNode
import Vanilla.Misc.RingbufferOverflow
import Vanilla.Misc.Sprint
import Vanilla.Misc.SprintDecimal
import Vanilla.Misc.SprintFormat
import Vanilla.Misc.SprintRun
import Vanilla.Misc.PrintBounds
import Vanilla.Misc.SprintItems
import Vanilla.Misc.SprintFits
import Vanilla.Foundation.Ends
import Vanilla.Foundation.Monitor
import Vanilla.Foundation.Extends
import Vanilla.Disk.SdInit
import Vanilla.Disk.SdStates
import Vanilla.Disk.SdSession
import Vanilla.Disk.SdConformance
import Vanilla.Disk.SdTransfers
import Vanilla.Disk.FileOpen
import Vanilla.Disk.DiskMount
import Vanilla.Disk.CardThread
import Vanilla.Boot.Handshake
import Vanilla.Kernel.Spinlock
import Vanilla.Kernel.Syscall
import Vanilla.Usb.Drivers
import Vanilla.Apps.Tictactoe
import Vanilla.Misc.AppUpload
