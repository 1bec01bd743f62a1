import NeurOS.Foundation.Machine
import NeurOS.Foundation.RoundRobin
import NeurOS.Scheduler.Running
import NeurOS.Memory.TableTree
import NeurOS.Initrd.Model
import NeurOS.Initrd.Archive
import NeurOS.Initrd.RoundTrip
import NeurOS.Initrd.Conversion
import NeurOS.Initrd.HeaderBytes
import NeurOS.Initrd.Lookup
import NeurOS.Elf.Model
import NeurOS.Elf.Decode
import NeurOS.Serial
import NeurOS.Shell.Model
import NeurOS.Shell.Input
import NeurOS.Foundation.Traced
import NeurOS.Vga.Model
import NeurOS.Vga.Drawing
import NeurOS.Vga.Bounds
import NeurOS.Foundation.Calendar
import NeurOS.Scheduler.Slice
import NeurOS.Initrd.Timestamp
import NeurOS.Initrd.Listing
import NeurOS.Initrd.Confined
import NeurOS.Image.Model
import NeurOS.Image.Decode
import NeurOS.Foundation.TerminalRow
import NeurOS.Shell.Editing
import NeurOS.Vga.Tokens
import NeurOS.Vga.Pieces
import NeurOS.Foundation.Sgr
import NeurOS.Vga.Consoles
import NeurOS.Foundation.Locks
import NeurOS.Kernel.Model
import NeurOS.Vga.Legible
import NeurOS.Kernel.Runs
import NeurOS.Kernel.Interrupts
import NeurOS.Kernel.Boot
import NeurOS.Kernel.Panics
import NeurOS.Kernel.Texts
import NeurOS.Kernel.Waiting
import NeurOS.Elf.Records
import NeurOS.Foundation.Numeral
import NeurOS.Initrd.Octal
import NeurOS.Foundation.Escape
import NeurOS.Serial.Output
import NeurOS.Vga.Callers
import NeurOS.Vga.Terminal
import NeurOS.Foundation.Store
import NeurOS.Vga.Painting
import NeurOS.Vga.Opening
import NeurOS.Foundation.Words
import NeurOS.Image.Raster
import NeurOS.Image.Spelling
import NeurOS.Foundation.Service
import NeurOS.Foundation.Guarantee
import NeurOS.Kernel.History
import NeurOS.Kernel.Recorder
import NeurOS.Foundation.Following
import NeurOS.Shell.Session
import NeurOS.Shell.Account
import NeurOS.Kernel.Desk
import NeurOS.Kernel.Startup
import NeurOS.Kernel.Refinement
import NeurOS.Kernel.Equipped
import NeurOS.Kernel.Session
import NeurOS.Kernel.Audit
import NeurOS.Foundation.Ports
import NeurOS.Serial.Driver
import NeurOS.Serial.Duplex
import NeurOS.Foundation.Isolation
import NeurOS.Kernel.Isolation
import NeurOS.Scheduler.Clock
import NeurOS.Kernel.Turns
import NeurOS.Elf.Assembly
import NeurOS.Kernel.Commands
import NeurOS.Memory.Budget
import NeurOS.Vga.Clearing
import NeurOS.Vga.Size
import NeurOS.Kernel.Exceptions
import NeurOS.Vga.Letters
import NeurOS.Vga.Posters
import NeurOS.Vga.Report
