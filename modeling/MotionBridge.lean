import MotionBridge.Bus.Script
import MotionBridge.Host.Memory
import MotionBridge.Main
import MotionBridge.Proofs.RingQueue
import MotionBridge.Proofs.BoundedQueue
import MotionBridge.Proofs.Frame.Scan
import MotionBridge.Proofs.Frame.Concat
import MotionBridge.Proofs.Frame.ByteFeed
import MotionBridge.Proofs.Frame.Overflow
import MotionBridge.Proofs.Frame.Enclose
import MotionBridge.Proofs.Frame.Found
import MotionBridge.Proofs.Frame.Corruption
import MotionBridge.Proofs.Frame.Detection
import MotionBridge.Proofs.Frame.Grammar
import MotionBridge.Proofs.Frame.Canonical
import MotionBridge.Proofs.Frame.Consumption
import MotionBridge.Proofs.Frame.Accounting
import MotionBridge.Proofs.Channel.Delivery
import MotionBridge.Proofs.Channel.Loss
import MotionBridge.Proofs.Channel.Replies
import MotionBridge.Proofs.Channel.Termination
import MotionBridge.Proofs.Channel.Interleaving
import MotionBridge.Proofs.Channel.LastWriter
import MotionBridge.Proofs.Bus.CommandFrame
import MotionBridge.Proofs.RoundTrip
import MotionBridge.Proofs.Bus.Handshake
import MotionBridge.Proofs.Bus.Receivers
import MotionBridge.Proofs.Bus.Phases
import MotionBridge.Proofs.Bus.Exchange
import MotionBridge.Proofs.Bus.Refinement
import MotionBridge.Proofs.Bus.LineCalls
import MotionBridge.Proofs.Bus.Cycles
import MotionBridge.Proofs.Bus.Work
import MotionBridge.Proofs.Bus.Parking
import MotionBridge.Proofs.Bus.Discipline
import MotionBridge.Proofs.Bus.Noise
import MotionBridge.Proofs.Bus.Overlong
import MotionBridge.Proofs.Bus.Settled
import MotionBridge.Proofs.Board.Commands
import MotionBridge.Proofs.Board.Vibration
import MotionBridge.Proofs.Board.Alternation
import MotionBridge.Proofs.Board.InputHistory
import MotionBridge.Proofs.Bridge.Run
import MotionBridge.Proofs.Bridge.Outputs
import MotionBridge.Proofs.Bridge.Lanes
import MotionBridge.Proofs.Bridge.Transparency
import MotionBridge.Proofs.Router.Relay
import MotionBridge.Proofs.Router.Isolation
import MotionBridge.Proofs.Settings.Validity
import MotionBridge.Proofs.Settings.Edits
import MotionBridge.Proofs.Settings.KeyValues
import MotionBridge.Proofs.Settings.Overlay
