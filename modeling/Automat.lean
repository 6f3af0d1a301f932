import Automat.Action
import Automat.Audience
import Automat.Builder
import Automat.Date
import Automat.Definition
import Automat.Definition.Issue
import Automat.Dispatcher
import Automat.Dispatcher.Simulation
import Automat.Duration
import Automat.Event
import Automat.Failure
import Automat.History
import Automat.Json.Basic
import Automat.Json.Coded
import Automat.Json.Parser
import Automat.Json.Printer
import Automat.Json.Shape
import Automat.Json.Strict
import Automat.Machine
import Automat.Machine.Call
import Automat.Machine.Text
import Automat.Proofs.Audience
import Automat.Proofs.Definition.Alike
import Automat.Proofs.Definition.Issue
import Automat.Proofs.Definition.Report
import Automat.Proofs.Dispatcher.Orderly
import Automat.Proofs.Dispatcher.Protocol
import Automat.Proofs.Dispatcher.Range
import Automat.Proofs.Dispatcher.Refinement
import Automat.Proofs.Dispatcher.Round
import Automat.Proofs.Dispatcher.Schedule
import Automat.Proofs.Dispatcher.Turns
import Automat.Proofs.Duration
import Automat.Proofs.History
import Automat.Proofs.Machine.Advance
import Automat.Proofs.Machine.Armed
import Automat.Proofs.Machine.Attempts
import Automat.Proofs.Machine.Clients
import Automat.Proofs.Machine.Clock
import Automat.Proofs.Machine.Deadlines
import Automat.Proofs.Machine.Delivery
import Automat.Proofs.Machine.Frame
import Automat.Proofs.Machine.Journal
import Automat.Proofs.Machine.Later
import Automat.Proofs.Machine.Processing
import Automat.Proofs.Machine.Progress
import Automat.Proofs.Machine.Question
import Automat.Proofs.Machine.Queue
import Automat.Proofs.Machine.Reachable
import Automat.Proofs.Machine.Records
import Automat.Proofs.Machine.Retry
import Automat.Proofs.Machine.Rewritten
import Automat.Proofs.Machine.Rollback
import Automat.Proofs.Machine.Step
import Automat.Proofs.Machine.Stopped
import Automat.Proofs.Machine.Table
import Automat.Proofs.Machine.Timed
import Automat.Proofs.Machine.Trace
import Automat.Proofs.Machine.Verdict
import Automat.Proofs.Machine.View
import Automat.Proofs.Machine.Visit
import Automat.Proofs.Run
import Automat.Proofs.Vending.Coherence
import Automat.Proofs.Vending.Config
import Automat.Proofs.Vending.Ledger
import Automat.Proofs.Vending.Payouts
import Automat.Proofs.Vending.Process
import Automat.Proofs.Vending.Question
import Automat.Proofs.Vending.Sessions
import Automat.Proofs.Vending.Smooth
import Automat.Proofs.Vending.Timely
import Automat.Proofs.Vending.Wire
import Automat.Run
import Automat.Scenario.Observer
import Automat.Scenario.Remote
import Automat.Scenario.Session
import Automat.Script.Condition
import Automat.Script.Program
import Automat.Script.Sale
import Automat.Script.Signal
import Automat.Script.World
import Automat.Snapshot
import Automat.Text.Basic
import Automat.Text.Printable
import Automat.Text.Quoted
import Automat.Timer
import Automat.Timestamp.Basic
import Automat.Timestamp.Parser
import Automat.Timestamp.Printer
import Automat.Vending.Actions
import Automat.Vending.Config
import Automat.Vending.Context
import Automat.Vending.Display
import Automat.Vending.Event
import Automat.Vending.Table
