import Martos.Lib.Transition
import Martos.Lib.Linked
import Martos.Lib.Checked
import Martos.Lib.Blocks
import Martos.Lib.Doorbell
import Martos.Lib.Rotation
import Martos.Lib.Levels
import Martos.Lib.Agreement
import Martos.Lists.Sequences
import Martos.Lists.Pointers
import Martos.Lists.Refinement
import Martos.Lists.Insertion
import Martos.Lists.Finding
import Martos.Lists.Families
import Martos.Core.Tasks
import Martos.Core.Machine
import Martos.Core.Effects
import Martos.Core.Nesting
import Martos.Core.Placement
import Martos.Core.Priority
import Martos.Core.Interrupts
import Martos.Core.Stacks
import Martos.Core.Turns
import Martos.Core.Names
import Martos.Core.Signals
import Martos.Core.Allocation
import Martos.Core.Stops
import Martos.Core.Levels
import Martos.Services.Kernel
import Martos.Services.Functions
import Martos.Services.Machine
import Martos.Services.Effects
import Martos.Services.Soundness
import Martos.Services.Names
import Martos.Services.Nesting
import Martos.Services.Switching
import Martos.Services.Slices
import Martos.Services.Messages
import Martos.Services.Waiting
import Martos.Services.Timers
import Martos.Services.TimerStatus
import Martos.Services.Deliveries
import Martos.Services.Delays
import Martos.Services.Semaphores
import Martos.Services.Admission
import Martos.Services.Assertions
import Martos.Services.Holdings
import Martos.Services.Stops
import Martos.Services.Response
import Martos.Services.Pending
import Martos.Services.Requests
import Martos.Services.Sections
import Martos.Store.Kernel
import Martos.Store.Machine
import Martos.Store.Depicts
import Martos.Store.Core
import Martos.Store.Services
import Martos.Store.Refinement
import Martos.Store.TimerQueue
import Martos.Store.Runs
import Martos.Platform.Registers
import Martos.Platform.Frames
import Martos.Platform.Contexts
import Martos.Lwip.Mailbox
import Martos.Lwip.Effects
import Martos.Lwip.Consumer
import Martos.Lwip.Signalling
import Martos.Lwip.Unread
import Martos.Lwip.Fetching
import Martos.Lwip.Conserved
import Martos.Lwip.Timed
import Martos.Lwip.Semaphore
import Martos.Lwip.Timeouts
import Martos.Lwip.Armed
import Martos.Lwip.Ledger
import Martos.Lwip.SemCleanup
import Martos.Lwip.MboxCleanup
import Martos.Lwip.Cleanup
import Martos.Lwip.SemTimeout
import Martos.Lwip.Belonging
