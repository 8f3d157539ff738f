import Manipulator.Machine
import Manipulator.BehaviorTree.Triple
import Manipulator.Approach.Timer
import Manipulator.Approach.Server
import Manipulator.Approach.Tracking
import Manipulator.Approach.Outcome
import Manipulator.Approach.Freshness
import Manipulator.Gateway
import Manipulator.Conveyor
import Manipulator.Double
import Manipulator.Decimal
import Manipulator.FirstReading
import Manipulator.BaseAxis
import Manipulator.Serial
import Manipulator.Trajectory
import Manipulator.Termination
import Manipulator.Move
import Manipulator.IK
import Manipulator.Reach
import Manipulator.Servo
import Manipulator.Cancel
import Manipulator.Mission.Client
import Manipulator.Mission.World
import Manipulator.Mission.System
import Manipulator.Mission.Network
import Manipulator.Mission.Driver
import Manipulator.Mission.Contract
import Manipulator.Mission.Outline
import Manipulator.Mission.DataFlow
import Manipulator.Mission.Exclusion
import Manipulator.Mission.Errand
import Manipulator.Mission.Release
import Manipulator.Mission.Home
import Manipulator.Overlap
import Manipulator.Shoulder
import Manipulator.Approach.Selection
import Manipulator.Yolo
import Manipulator.Approach.Debug
import Manipulator.BehaviorTree.Frame
import Manipulator.BehaviorTree.Partial
import Manipulator.Mission.BtNode
import Manipulator.Mission.Loop
import Manipulator.Mission.Conveying
import Manipulator.BehaviorTree.Retry
import Manipulator.Mission.TickOnce
import Manipulator.Mission.Landing
import Manipulator.Mission.Continuity
import Manipulator.Approach.Command
import Manipulator.Approach.Proportional
import Manipulator.Approach.Confirmation
import Manipulator.Approach.Detection
import Manipulator.Approach.Interleaving
import Manipulator.Approach.Wakeup
import Manipulator.Approach.AfterEffects
import Manipulator.Occurrence
import Manipulator.Xml.StrPair
import Manipulator.Xml.Document
import Manipulator.Xml.Printer
import Manipulator.Xml.Verify
import Manipulator.Xml.Load
import Manipulator.Xml.TreeName
import Manipulator.Approach.Sequential
import Manipulator.Scripting.Acceptance
import Manipulator.Scripting.Reports
import Manipulator.Mission.Guard
import Manipulator.Timer.Destruction
import Manipulator.Timer.Sleep
import Manipulator.Factory.Numbering
import Manipulator.Factory.Ports
