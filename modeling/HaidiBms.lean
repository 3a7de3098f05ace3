import HaidiBms.Protocol
import HaidiBms.Payloads
import HaidiBms.Decode
import HaidiBms.FrameParser.Model
import HaidiBms.FrameParser.Refinement
import HaidiBms.FrameParser.Accounting
import HaidiBms.FrameParser.Header
import HaidiBms.FrameParser.Resync
import HaidiBms.Currents
import HaidiBms.Session.Model
import HaidiBms.Session.Rules
import HaidiBms.Session.Stranding
import HaidiBms.Session.Outcomes
import HaidiBms.Session.BusOrder
import HaidiBms.Session.Progress
import HaidiBms.Session.Silence
import HaidiBms.Session.Replies
import HaidiBms.Session.Delivery
import HaidiBms.Session.Residue
import HaidiBms.Session.Noise
import HaidiBms.Session.Latest
import HaidiBms.Session.Sizing
import HaidiBms.Session.Tags
import HaidiBms.Session.Deadline
import HaidiBms.Session.Timing
import HaidiBms.Session.DeadLink
import HaidiBms.Session.Stream
import HaidiBms.Session.FaultRecords
import HaidiBms.Session.Documented
import HaidiBms.Session.Epoch
import HaidiBms.Session.Conversation
import HaidiBms.Checked.Session
import HaidiBms.Hosts.PollLoop
import HaidiBms.Hosts.DumpRuns
import HaidiBms.Hosts.DumpEnds
