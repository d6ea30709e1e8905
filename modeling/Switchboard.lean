import Switchboard.Board.Holding
import Switchboard.Board.Session
import Switchboard.Board.Summary
import Switchboard.Board.Triple
import Switchboard.Literal.Infer
import Switchboard.Literal.Record
import Switchboard.Request.Answer
import Switchboard.Scope
import Switchboard.Proofs.Run
import Switchboard.Proofs.Frame
import Switchboard.Proofs.Move
import Switchboard.Proofs.Change
import Switchboard.Proofs.Sound
import Switchboard.Proofs.Growth
import Switchboard.Proofs.Reachable
import Switchboard.Proofs.News
import Switchboard.Proofs.ObservedPublication
import Switchboard.Proofs.Commit
import Switchboard.Proofs.Line
import Switchboard.Proofs.History
import Switchboard.Proofs.KeptCells
import Switchboard.Proofs.Registration
import Switchboard.Proofs.Ledger
import Switchboard.Proofs.Apart
import Switchboard.Proofs.Shown
import Switchboard.Proofs.Delivery
import Switchboard.Proofs.TellOthers
import Switchboard.Proofs.NestedPublication
import Switchboard.Proofs.OperationDelivery
import Switchboard.Proofs.SessionTally
import Switchboard.Proofs.SessionPublication
import Switchboard.Proofs.Sessions
import Switchboard.Proofs.Scopes
import Switchboard.Proofs.Depth
import Switchboard.Proofs.System
import Switchboard.Proofs.Counter
import Switchboard.Proofs.Answers
import Switchboard.Proofs.Numeral
import Switchboard.Proofs.Spelling
import Switchboard.Proofs.Legible
import Switchboard.Proofs.Texts
import Switchboard.Proofs.Roster
import Switchboard.Proofs.Slots
import Switchboard.Proofs.Dated
import Switchboard.Proofs.Course
import Switchboard.Proofs.Stamps
import Switchboard.Proofs.Order
import Switchboard.Proofs.Reaction
import Switchboard.Proofs.Stages
import Switchboard.Proofs.SharedCommit
import Switchboard.Proofs.Execution
import Switchboard.Proofs.Queues
import Switchboard.Proofs.PushedLines
import Switchboard.Proofs.Naming
import Switchboard.Proofs.Disposition
import Switchboard.Proofs.Coherence
import Switchboard.Proofs.Query
import Switchboard.Proofs.Questions
import Switchboard.Proofs.Pass
import Switchboard.Proofs.Keys
import Switchboard.Proofs.Update
import Switchboard.Proofs.Reopened
import Switchboard.Proofs.Forms
import Switchboard.Proofs.Addressing
import Switchboard.Proofs.Rounding
import Switchboard.Proofs.Readback
import Switchboard.Proofs.Typing
import Switchboard.Proofs.Delimiting
import Switchboard.Proofs.Segments
import Switchboard.Proofs.Significant
import Switchboard.Proofs.Integers
import Switchboard.Proofs.Peak
import Switchboard.Proofs.Sampling
import Switchboard.Proofs.Ring
