import OsKernel.Lib.Search
import OsKernel.Lib.Chain
import OsKernel.Lib.Rooted
import OsKernel.Lib.SlotTable
import OsKernel.Lib.Volume
import OsKernel.Lib.NameStore
import OsKernel.Fat32.Types
import OsKernel.Fat32.Driver
import OsKernel.Fat32.ClusterMap
import OsKernel.Fat32.Invariant
import OsKernel.Fat32.Write
import OsKernel.Fat32.Delete
import OsKernel.Fat32.Runs
import OsKernel.Fat32.Integrity
import OsKernel.Fat32.DeleteAll
import OsKernel.Fat32.Move
import OsKernel.Fat32.MoveEffect
import OsKernel.Shell.Walk
import OsKernel.Fat32.MoveRuns
import OsKernel.Lib.Run
import OsKernel.Lib.Machine
import OsKernel.Memory.Paging
import OsKernel.Process.Process
import OsKernel.Process.Scheduler
import OsKernel.Process.Switch
import OsKernel.Cpu.ContextSwitch
import OsKernel.Cpu.Transparency
import OsKernel.Memory.Frames
import OsKernel.Process.Lifecycle
import OsKernel.Fat32.Read
import OsKernel.Process.Accounting
import OsKernel.Process.KernelIsolation
import OsKernel.Lib.Exclusive
import OsKernel.Process.ProcessIsolation
import OsKernel.Process.Running
import OsKernel.Memory.FrameCount
import OsKernel.Process.Restoration
import OsKernel.Fat32.Refusals
import OsKernel.Fat32.Lookup
import OsKernel.Fat32.Restart
import OsKernel.Stdlib.Strings
import OsKernel.Stdlib.Numerals
import OsKernel.Shell.Paths
import OsKernel.Fat32.Codes
import OsKernel.Shell.Commands
import OsKernel.Lib.Traced
import OsKernel.Shell.Input
import OsKernel.Process.Rotation
import OsKernel.Process.Exit
import OsKernel.Fat32.ReadBounds
import OsKernel.Fat32.NewFolder
import OsKernel.Fat32.Removal
import OsKernel.Fat32.NotFound
import OsKernel.Screen.Charframe
import OsKernel.Screen.Bounds
import OsKernel.Screen.Backspace
import OsKernel.Screen.Redraw
import OsKernel.Screen.Clock
import OsKernel.Driver.Disk
import OsKernel.Driver.Storage
import OsKernel.Driver.Keyboard
import OsKernel.Driver.Timer
import OsKernel.Shell.Line
import OsKernel.Shell.LineEditor
import OsKernel.Lib.Words
import OsKernel.Shell.Reading
import OsKernel.Shell.Typing
import OsKernel.Process.PageCount
import OsKernel.Lib.Overwrite
import OsKernel.Shell.ProcessList
import OsKernel.Process.Pids
import OsKernel.Memory.Directories
import OsKernel.Process.Image
import OsKernel.Fat32.Heads
import OsKernel.Shell.Resolvers
import OsKernel.Shell.Requests
import OsKernel.Shell.Filenames
import OsKernel.Shell.OnlyFilename
import OsKernel.Shell.RequestFields
import OsKernel.Shell.MakeFolder
import OsKernel.Fat32.Frame
import OsKernel.Shell.Copy
import OsKernel.Lib.AddressSpace
import OsKernel.Fat32.Scan
import OsKernel.Fat32.Service
import OsKernel.Fat32.FileStore
import OsKernel.Fat32.Rooted
import OsKernel.Process.Loading
import OsKernel.Process.Fairness
import OsKernel.Cpu.Return
import OsKernel.Process.Boot
import OsKernel.Shell.Execute
import OsKernel.Shell.Cat
import OsKernel.Lib.Forest
import OsKernel.Shell.Tree
import OsKernel.Shell.Find
import OsKernel.Shell.Sessions
import OsKernel.Screen.Cmos
import OsKernel.System.Memory
import OsKernel.System.Interrupts
import OsKernel.System.Steps
import OsKernel.System.Isolation
import OsKernel.System.Run
import OsKernel.System.Preemption
