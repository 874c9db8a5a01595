import FeedbackQueue.BootLine
import FeedbackQueue.Lock.Cells
import FeedbackQueue.Log.Logger
import FeedbackQueue.Proofs.Queue.Refinement
import FeedbackQueue.Queue.Sequences
import FeedbackQueue.Scenario.Play
import FeedbackQueue.Scenario.Run
import FeedbackQueue.Scenario.Slots
import FeedbackQueue.Kernel.Effect
import FeedbackQueue.Proofs.Queue.Sound
import FeedbackQueue.Proofs.Kernel.Sound
import FeedbackQueue.Proofs.Kernel.Pick
import FeedbackQueue.Proofs.Kernel.Creation
import FeedbackQueue.Proofs.Kernel.Expiry
import FeedbackQueue.Proofs.Kernel.Report
import FeedbackQueue.Proofs.Kernel.Rounds
import FeedbackQueue.Proofs.Kernel.Timer
import FeedbackQueue.Proofs.Kernel.Turn
import FeedbackQueue.Proofs.Scenario.Actions
import FeedbackQueue.Proofs.Scenario.Activities
import FeedbackQueue.Proofs.Scenario.Expiry
import FeedbackQueue.Proofs.Scenario.Operations
import FeedbackQueue.Proofs.Scenario.Safety
import FeedbackQueue.Proofs.Kernel.Ledger
import FeedbackQueue.Proofs.Scenario.Conservation
import FeedbackQueue.Proofs.Scenario.Selection
import FeedbackQueue.Proofs.Scenario.TableScan
import FeedbackQueue.Proofs.Scenario.Exhaustion
import FeedbackQueue.Proofs.Queue.Bounds
import FeedbackQueue.Proofs.Kernel.Bounds
import FeedbackQueue.Proofs.Scenario.Bounds
import FeedbackQueue.Proofs.Kernel.Order
import FeedbackQueue.Proofs.Scenario.Overtaking
import FeedbackQueue.Proofs.Kernel.Countdown
import FeedbackQueue.Proofs.Scenario.Accounting
import FeedbackQueue.Proofs.Process.Search
import FeedbackQueue.Proofs.Queue.StaleFlags
import FeedbackQueue.Proofs.Scenario.Refusals
import FeedbackQueue.Proofs.Kernel.Lives
import FeedbackQueue.Proofs.Kernel.Numbering
import FeedbackQueue.Proofs.Scenario.Identity
import FeedbackQueue.Proofs.Scenario.Pids
import FeedbackQueue.Lock.Control
import FeedbackQueue.Proofs.Lock.Nesting
import FeedbackQueue.Proofs.Scenario.Locking
import FeedbackQueue.Proofs.BootLine
import FeedbackQueue.Proofs.Scenario.Yielding
import FeedbackQueue.Proofs.Kernel.Sleepers
import FeedbackQueue.Proofs.Scenario.Waking
import FeedbackQueue.Proofs.BootLineWriting
import FeedbackQueue.Proofs.Log.Encoding
import FeedbackQueue.Proofs.Log.Writing
import FeedbackQueue.Proofs.Scenario.Dumping
