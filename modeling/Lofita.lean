import Lofita.Foundation.Run
import Lofita.Foundation.Tiling
import Lofita.Foundation.Arena
import Lofita.Foundation.FiniteMap
import Lofita.Foundation.Word
import Lofita.Foundation.TableTree
import Lofita.Foundation.Fallible
import Lofita.Foundation.Overlay
import Lofita.Foundation.Flow
import Lofita.Foundation.RunLength
import Lofita.Foundation.Numerals
import Lofita.Foundation.Ring
import Lofita.Foundation.Outcome
import Lofita.Foundation.Lines
import Lofita.Foundation.Pieces
import Lofita.Foundation.Scan
import Lofita.Foundation.Splice
import Lofita.Foundation.Stack
import Lofita.Foundation.Paths
import Lofita.Foundation.Fuel
import Lofita.Ppa.Model
import Lofita.Ppa.Representation
import Lofita.Ppa.Exclusivity
import Lofita.Ppa.Accounting
import Lofita.Ppa.Coalesce
import Lofita.Ppa.Tiled
import Lofita.Ppa.Retrace
import Lofita.Ppa.BadFrees
import Lofita.Ppa.Simulator
import Lofita.Kernel.Token
import Lofita.Kernel.Sched
import Lofita.Kernel.Ipc
import Lofita.Kernel.State
import Lofita.Kernel.Memory
import Lofita.Kernel.Tick
import Lofita.Kernel.Calls
import Lofita.Kernel.Registry
import Lofita.Kernel.Delegation
import Lofita.Kernel.Authority
import Lofita.Kernel.Expiry
import Lofita.Kernel.Preemption
import Lofita.Kernel.Quota
import Lofita.Kernel.Ports
import Lofita.Kernel.Wakeup
import Lofita.Kernel.WaitQueues
import Lofita.Kernel.Simulator
import Lofita.Kernel.Simulation
import Lofita.Kernel.SimulationRuns
import Lofita.Kernel.SimulationMemory
import Lofita.Kernel.RoundRobin
import Lofita.Kernel.Termination
import Lofita.Kernel.RunLimit
import Lofita.Kernel.Compress
import Lofita.Paging.Entry
import Lofita.Paging.Model
import Lofita.Paging.Space
import Lofita.Paging.Operations
import Lofita.Paging.KernelSpace
import Lofita.Paging.Refinement
import Lofita.Paging.AddressSpace
import Lofita.Paging.Answers
import Lofita.Paging.Rights
import Lofita.Kernel.WriteXorExecute
import Lofita.Kernel.AddressWindows
import Lofita.Kernel.Allocations
import Lofita.Kernel.Mappings
import Lofita.Kernel.PageFaults
import Lofita.Kernel.Reclaim
import Lofita.Kernel.PageTables
import Lofita.Kernel.Lifetimes
import Lofita.Kernel.Heap
import Lofita.Elf.Format
import Lofita.Elf.Loader
import Lofita.Elf.Steps
import Lofita.Elf.Image
import Lofita.Elf.Survival
import Lofita.Elf.Compat
import Lofita.Elf.Course
import Lofita.Elf.Leftovers
import Lofita.Elf.Grants
import Lofita.Elf.Copies
import Lofita.Fs.Driver
import Lofita.Fs.Ext2
import Lofita.Fs.Mount
import Lofita.Fs.BlockMap
import Lofita.Fs.Holes
import Lofita.Fs.Directory
import Lofita.Fs.DirectoryScan
import Lofita.Fs.Listing
import Lofita.Fs.Ata
import Lofita.Fs.Pio
import Lofita.Fs.PioCalls
import Lofita.Fs.Vfs
import Lofita.Fs.Descriptors
import Lofita.Fs.ReadYourWrites
import Lofita.Fs.Existence
import Lofita.Fs.Chunks
import Lofita.Fs.Devices
import Lofita.Fs.Initramfs
import Lofita.Vga.Model
import Lofita.Vga.Terminal
import Lofita.Vga.Numbers
import Lofita.Vga.Shell
import Lofita.Vga.Commands
import Lofita.Keyboard.Ring
import Lofita.Keyboard.Scancodes
import Lofita.Keyboard.Typing
import Lofita.Interrupts.Frames
import Lofita.Interrupts.Gates
import Lofita.Interrupts.Controller
import Lofita.Interrupts.Delivery
import Lofita.Kernel.Syscall
import Lofita.Kernel.Confinement
import Lofita.Kernel.Router
import Lofita.Kernel.Spawn
import Lofita.Kernel.ProgramFiles
import Lofita.Kernel.DirectoryListing
import Lofita.Boot.Pci
import Lofita.Boot.Multiboot
