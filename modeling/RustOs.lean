import RustOs.Fs.Fat32.Overwrite
import RustOs.Fs.Ext2.Safety
import RustOs.Proc.Death
import RustOs.Net.Datagram
import RustOs.Net.Connect
import RustOs.Syscall.Select
import RustOs.Syscall.PipeHistory
import RustOs.Syscall.ReadBack
import RustOs.Elf.LinkSafety
import RustOs.Elf.Lookup
import RustOs.Shell.Capture
import RustOs.Proc.Wait
import RustOs.Proc.Frames
import RustOs.Memory.Mmap
import RustOs.Fs.Fat32.LongNames
import RustOs.Fs.Fat32.Accounting
import RustOs.Fs.Fat32.FreeCountRuns
import RustOs.Fs.Fat32.UniqueNames
import RustOs.Console.Output
import RustOs.Fs.Fat32.AllOrNothing
import RustOs.Fs.Links
import RustOs.Fs.MountTable
import RustOs.Fs.TmpNames
import RustOs.Fs.RamTree
import RustOs.Net.Dhcp
import RustOs.Net.Sequence
import RustOs.Net.Close
import RustOs.Proc.Smp
import RustOs.Syscall.Gate
import RustOs.Syscall.FailClosed
import RustOs.Net.Ipv6
import RustOs.User.Strtol
