import Cuelist.Text.Blank
import Cuelist.Text.Case
import Cuelist.Text.Quoted
import Cuelist.Key
import Cuelist.Span
import Cuelist.Decimal.Float
import Cuelist.Json.Decode
import Cuelist.Json.Reader
import Cuelist.Json.Writer
import Cuelist.Timestamp
import Cuelist.Uuid
import Cuelist.Argument
import Cuelist.Failure
import Cuelist.Script
import Cuelist.Actor
import Cuelist.Entry
import Cuelist.Queue
import Cuelist.Queue.Forms
import Cuelist.Tag
import Cuelist.Board
import Cuelist.Command
import Cuelist.Command.Narrate
import Cuelist.Command.Wait
import Cuelist.Executor
import Cuelist.Player
import Cuelist.Cue
import Cuelist.Desk
import Cuelist.Desk.Crew
import Cuelist.CommandLine
import Cuelist.CommandLine.Answer
import Cuelist.Main
import Cuelist.Proofs.Bell
import Cuelist.Proofs.Player
import Cuelist.Proofs.Session
import Cuelist.Proofs.Session.Claims
import Cuelist.Proofs.Session.Order
import Cuelist.Proofs.Session.History
import Cuelist.Proofs.Session.Clearing
import Cuelist.Proofs.Session.Hold
import Cuelist.Proofs.Session.State
import Cuelist.Proofs.Session.Stop
import Cuelist.Proofs.Player.Wakeup
import Cuelist.Proofs.Player.Pace
import Cuelist.Proofs.Player.Discreet
import Cuelist.Proofs.Executor
import Cuelist.Proofs.Signal
import Cuelist.Proofs.Session.Signal
import Cuelist.Proofs.Player.Course
import Cuelist.Proofs.Session.Drive
import Cuelist.Proofs.Player.Stir
import Cuelist.Proofs.Player.Crowd
import Cuelist.Proofs.Player.Timers
import Cuelist.Proofs.Player.Leaving
import Cuelist.Proofs.Player.Closing
import Cuelist.Proofs.Tag
import Cuelist.Proofs.Names
import Cuelist.Proofs.Outcome
import Cuelist.Proofs.Reuse
import Cuelist.Proofs.Detached
import Cuelist.Proofs.Isolation
import Cuelist.Proofs.Session.Blocked
import Cuelist.Proofs.Console
import Cuelist.Proofs.Console.Rest
import Cuelist.Proofs.Console.Ending
import Cuelist.Proofs.Console.Summary
import Cuelist.Proofs.Settings
import Cuelist.Proofs.Contract
import Cuelist.Proofs.Index
import Cuelist.Proofs.Registry
import Cuelist.Proofs.Frame
import Cuelist.Proofs.Board
import Cuelist.Proofs.Saving
import Cuelist.Proofs.Text.Ascii
import Cuelist.Proofs.Argument
import Cuelist.Proofs.Argument.Items
import Cuelist.Proofs.Filter
import Cuelist.Proofs.Spoken
import Cuelist.Proofs.Utterance
import Cuelist.Proofs.Family
import Cuelist.Proofs.Overlay
import Cuelist.Proofs.Tag.Arguments
import Cuelist.Proofs.Tag.Objects
