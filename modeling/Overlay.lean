import Overlay.Board.Script
import Overlay.Host.Workspace
import Overlay.Link.Reading
import Overlay.Main
import Overlay.Proofs.Text
import Overlay.Proofs.Link.Talk
import Overlay.Proofs.Session.Chunks
import Overlay.Proofs.Receiver.Conduct
import Overlay.Proofs.Receiver.Discipline
import Overlay.Proofs.Sender.Conduct
import Overlay.Proofs.Sender.Discipline
import Overlay.Proofs.Transfer.Replies
import Overlay.Proofs.Transfer.Agreement
import Overlay.Proofs.Transfer.Turns
import Overlay.Proofs.Transfer.World
import Overlay.Proofs.Transfer.Work
import Overlay.Proofs.Transfer.Delivery
import Overlay.Proofs.Memory.Bytes
import Overlay.Proofs.Memory.Planning
import Overlay.Proofs.Memory.Window
import Overlay.Proofs.Loader.Launch
import Overlay.Proofs.Loader.Conditions
import Overlay.Proofs.Link.Course
import Overlay.Proofs.Link.Script
import Overlay.Proofs.Supervisor.Sessions
import Overlay.Proofs.Loader.Ending
import Overlay.Proofs.Loader.Confined
import Overlay.Proofs.Supervisor.Isolation
import Overlay.Proofs.Link.Lockstep
import Overlay.Proofs.Receiver.Lockstep
import Overlay.Proofs.Supervisor.Modes
import Overlay.Proofs.Sender.Waits
import Overlay.Proofs.Supervisor.Validity
import Overlay.Proofs.Checksum.Burst
import Overlay.Proofs.Checksum.Division
import Overlay.Proofs.Checksum.Serial
import Overlay.Proofs.Link.Flow
import Overlay.Proofs.Link.Runs
import Overlay.Proofs.Link.Prompt
import Overlay.Proofs.Sender.Account
import Overlay.Proofs.Receiver.Account
import Overlay.Proofs.Transfer.Corruption
import Overlay.Proofs.Loader.Completeness
import Overlay.Proofs.Loader.Entry
import Overlay.Proofs.Checksum.Residue
import Overlay.Proofs.Image.Header
import Overlay.Proofs.Image.Packing
import Overlay.Proofs.Loader.Damage
import Overlay.Proofs.Loader.Packed
import Overlay.Proofs.Loader.StackPointer
import Overlay.Proofs.Receiver.Cadence
import Overlay.Proofs.Receiver.Truncation
import Overlay.Proofs.Receiver.Timely
import Overlay.Proofs.Sender.Ending
import Overlay.Proofs.Uploader.Retries
import Overlay.Proofs.Sender.Console
import Overlay.Proofs.Memory.Violations
import Overlay.Proofs.Memory.ByteMap
import Overlay.Proofs.Store.Names
import Overlay.Proofs.Loader.Inspection
import Overlay.Proofs.Memory.Order
import Overlay.Proofs.Memory.Ranges
import Overlay.Proofs.Receiver.Refeeding
import Overlay.Proofs.Link.Embedding
import Overlay.Proofs.Supervisor.Serving
import Overlay.Proofs.Supervisor.Accounts
