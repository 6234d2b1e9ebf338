import DbClient.Session.Request
import DbClient.Transport.Host
import DbClient.Transport.Scripted
import DbClient.Proofs.Text.Ordered
import DbClient.Proofs.Text.Natural
import DbClient.Proofs.Text.RoundTrip
import DbClient.Proofs.Text.Words
import DbClient.Proofs.Json.Nesting
import DbClient.Proofs.Json.Tree
import DbClient.Proofs.Json.Spelled
import DbClient.Proofs.Json.Scanned
import DbClient.Proofs.Json.Escaped
import DbClient.Proofs.Json.Written
import DbClient.Proofs.Json.Layout
import DbClient.Proofs.Command.Opening
import DbClient.Proofs.Command.Separators
import DbClient.Proofs.Command.Intended
import DbClient.Proofs.Command.Respelled
import DbClient.Proofs.Command.Values
import DbClient.Proofs.Command.Settlement
import DbClient.Proofs.Merge.After
import DbClient.Proofs.Reply.Fields
import DbClient.Proofs.Reply.Members
import DbClient.Proofs.Reply.Faults
import DbClient.Proofs.Reply.Trees
import DbClient.Proofs.Reply.Truncated
import DbClient.Proofs.Reply.Arranged
import DbClient.Proofs.Reply.QueryLine
import DbClient.Proofs.Transport.ReadFrame
import DbClient.Proofs.Transport.Uses
import DbClient.Proofs.Transport.Supplied
import DbClient.Proofs.Transport.Lines
import DbClient.Proofs.Transport.Spoken
import DbClient.Proofs.Transport.Oblivious
import DbClient.Proofs.Transport.LibraryCalls
import DbClient.Proofs.Session.Exchange
import DbClient.Proofs.Session.TypedCall
import DbClient.Proofs.Session.Single
import DbClient.Proofs.Session.Steps
import DbClient.Proofs.Session.Simulation
import DbClient.Proofs.Session.Executed
import DbClient.Proofs.Session.Teardown
import DbClient.Proofs.Session.Effect
import DbClient.Proofs.Session.Refusal
import DbClient.Proofs.Session.Guard
import DbClient.Proofs.Session.Pairing
import DbClient.Proofs.Session.RawFollows
import DbClient.Proofs.Session.Abort
import DbClient.Proofs.Session.History
import DbClient.Proofs.Session.LibraryReplies
import DbClient.Proofs.Session.Reports
import DbClient.Proofs.Session.Connections
import DbClient.Proofs.Session.Release
import DbClient.Proofs.Session.LibraryAsPeer
import DbClient.Proofs.Session.Chunks
import DbClient.Proofs.Session.NulCommand
import DbClient.Proofs.Session.QueryReply
import DbClient.Proofs.Session.Secrecy
import DbClient.Proofs.Session.Written
import DbClient.Proofs.Session.Inserted
import DbClient.Proofs.Session.SettleAll
import DbClient.Proofs.Merge.Listed
import DbClient.Proofs.Session.ManualMerge
import DbClient.Proofs.Json.Keepable
import DbClient.Proofs.Reply.QueryPayload
import DbClient.Proofs.Reply.WholeLine
import DbClient.Proofs.Session.RawReply
import DbClient.Proofs.Session.Rectangular
import DbClient.Proofs.Reply.CommitPayload
import DbClient.Proofs.Reply.AffectedRows
import DbClient.Proofs.Transport.Awaited
import DbClient.Proofs.Transport.Framing
import DbClient.Proofs.Reply.Cells
import DbClient.Proofs.Reply.Walked
import DbClient.Proofs.Reply.Views
import DbClient.Proofs.Session.Listings
import DbClient.Proofs.Session.Environment
