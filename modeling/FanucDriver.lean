import FanucDriver.Lib.Lts
import FanucDriver.Lib.Channel
import FanucDriver.Lib.WorkQueue
import FanucDriver.Lib.Assign
import FanucDriver.Lib.Framing
import FanucDriver.Lib.Cut
import FanucDriver.Lib.Descriptors
import FanucDriver.Lib.Rounding
import FanucDriver.Lib.Signal
import FanucDriver.Karel.Packet
import FanucDriver.Karel.RoundTrip
import FanucDriver.WeldState.Reader
import FanucDriver.WeldState.Node
import FanucDriver.WeldState.Frames
import FanucDriver.WeldState.TcpNode
import FanucDriver.WeldState.TcpStream
import FanucDriver.WeldState.Remainder
import FanucDriver.WeldState.Bounds
import FanucDriver.WeldState.SimpleNode
import FanucDriver.WeldState.SimpleBounds
import FanucDriver.WeldState.SimpleStream
import FanucDriver.WeldState.Receiver
import FanucDriver.WeldState.Return
import FanucDriver.WeldState.Acceptance
import FanucDriver.WeldState.Schedules
import FanucDriver.WeldState.Mixed
import FanucDriver.WeldState.Standard
import FanucDriver.Socket.Client
import FanucDriver.WeldState.StateSocket
import FanucDriver.WeldCommand.Packet
import FanucDriver.WeldCommand.Outputs
import FanucDriver.WeldCommand.Relay
import FanucDriver.Karel.Thresholds
import FanucDriver.WeldCommand.Connections
import FanucDriver.WeldCommand.Idle
import FanucDriver.WeldCommand.CommandNode
import FanucDriver.WeldCommand.Numbers
import FanucDriver.WeldCommand.NodeSocket
import FanucDriver.WeldCommand.DeadConnections
import FanucDriver.WeldCommand.System
import FanucDriver.WeldCommand.Delivery
import FanucDriver.WeldCommand.Acks
import FanucDriver.Motion.Handshake
import FanucDriver.Motion.HandOver
import FanucDriver.Motion.StartUp
import FanucDriver.Motion.Relay
import FanucDriver.Motion.Stop
import FanucDriver.Motion.Stream
import FanucDriver.Motion.Replies
import FanucDriver.Motion.MessageTypes
import FanucDriver.RobotState.Status
import FanucDriver.RobotState.Consistency
import FanucDriver.RobotState.Program
import FanucDriver.RobotState.Stream
import FanucDriver.RobotState.Divider
import FanucDriver.Joints.Linkage
import FanucDriver.FreqTest.Program
import FanucDriver.FreqTest.Pulse
import FanucDriver.FreqTest.Sentinel
import FanucDriver.Socket.Library
import FanucDriver.Socket.Programs
import FanucDriver.Socket.Nodes
import FanucDriver.Socket.Configuration
import FanucDriver.Lib.Frames
import FanucDriver.Lib.Radix
import FanucDriver.Lib.While
import FanucDriver.Lib.Least
import FanucDriver.Ik.Forward
import FanucDriver.Ik.Chains
import FanucDriver.Ik.Solution
import FanucDriver.Ik.Plugin
import FanucDriver.Ik.Count
import FanucDriver.Ik.Grid
import FanucDriver.Ik.Turns
import FanucDriver.Ik.FirstFit
import FanucDriver.Ik.BestFit
import FanucDriver.Ik.Sampling
import FanucDriver.Ik.ClosestFit
import FanucDriver.Ik.Nearest
import FanucDriver.Ik.Search
import FanucDriver.Ik.Initialize
import FanucDriver.Ik.Reach
import FanucDriver.WeldState.Server
import FanucDriver.WeldState.Reconnects
