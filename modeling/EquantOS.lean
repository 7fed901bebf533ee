import EquantOS.Mem.DoubleFree
import EquantOS.Net.Persist
import EquantOS.Net.Promise
import EquantOS.Net.Reassembly
import EquantOS.Net.Calls
import EquantOS.Net.FrameBounds
import EquantOS.Net.Transmit
import EquantOS.Proc.Clock
import EquantOS.Proc.JobControl
import EquantOS.Proc.SpaceCalls
import EquantOS.Proc.Wait
import EquantOS.Fs.DeviceBalance
import EquantOS.Fs.Positions
import EquantOS.Fs.PageCacheLinks
import EquantOS.Proc.Futex
import EquantOS.Mem.Framebuffer
import EquantOS.Mem.SpaceCopy
import EquantOS.Proc.Exec
import EquantOS.Ipc.Eventfd
import EquantOS.Ipc.PipeWake
import EquantOS.Ipc.UnixSockets
import EquantOS.Ipc.SharedMemory
import EquantOS.Proc.Placement
import EquantOS.Fs.Mounts
import EquantOS.Fs.LongNames
import EquantOS.Fs.Fat32Format
import EquantOS.Fs.Ata
import EquantOS.Fs.NewGpt
import EquantOS.Fs.LookupLeak
import EquantOS.Fs.Unlink
import EquantOS.Fs.RamfsFile
import EquantOS.Fs.Ext2Format
