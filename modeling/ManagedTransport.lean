import ManagedTransport.Address.Basic
import ManagedTransport.Address.Literal
import ManagedTransport.Address.Printer
import ManagedTransport.Address.Resolve
import ManagedTransport.Bytes
import ManagedTransport.Command
import ManagedTransport.CommandLine
import ManagedTransport.Config.Client
import ManagedTransport.Config.Server
import ManagedTransport.Connector
import ManagedTransport.Cookie
import ManagedTransport.Dialogue
import ManagedTransport.Digest.Hmac
import ManagedTransport.Digest.Sha256
import ManagedTransport.Endpoint
import ManagedTransport.Environment
import ManagedTransport.Error
import ManagedTransport.Fault
import ManagedTransport.Folder
import ManagedTransport.Main
import ManagedTransport.Meeting
import ManagedTransport.Negotiation
import ManagedTransport.Program
import ManagedTransport.SafeCookie.Client
import ManagedTransport.SafeCookie.Hash
import ManagedTransport.SafeCookie.Relay
import ManagedTransport.Session
import ManagedTransport.Setup
import ManagedTransport.Status.Line
import ManagedTransport.Status.Sink
import ManagedTransport.Supply
import ManagedTransport.Text.Escape
import ManagedTransport.Text.Numeral
import ManagedTransport.Text.Printable
import ManagedTransport.Text.Quoted
import ManagedTransport.Text.Split
import ManagedTransport.Text.Utf8
import ManagedTransport.Wire
import ManagedTransport.Proofs.Account
import ManagedTransport.Proofs.ClientSide
import ManagedTransport.Proofs.AddressLength
import ManagedTransport.Proofs.RelaySide
import ManagedTransport.Proofs.SetupSide
import ManagedTransport.Proofs.Transcript
import ManagedTransport.Proofs.Course
import ManagedTransport.Proofs.Deadline
import ManagedTransport.Proofs.Sessions
import ManagedTransport.Proofs.MutualAgreement
import ManagedTransport.Proofs.TextRoundTrip
import ManagedTransport.Proofs.Calm
import ManagedTransport.Proofs.Following
import ManagedTransport.Proofs.ListeningSide
import ManagedTransport.Proofs.Link
import ManagedTransport.Proofs.Outcome
import ManagedTransport.Proofs.Flowing
import ManagedTransport.Proofs.Frames
import ManagedTransport.Proofs.Framing
import ManagedTransport.Proofs.Announcements
import ManagedTransport.Proofs.Position
import ManagedTransport.Proofs.Approach
import ManagedTransport.Proofs.Discretion
import ManagedTransport.Proofs.ReadAhead
import ManagedTransport.Proofs.AuthTypes
import ManagedTransport.Proofs.Verdict
import ManagedTransport.Proofs.ListLimit
import ManagedTransport.Proofs.Blame
import ManagedTransport.Proofs.Operations
import ManagedTransport.Proofs.Turns
import ManagedTransport.Proofs.ClientTurns
import ManagedTransport.Proofs.FaultReports
import ManagedTransport.Proofs.Undertakings
import ManagedTransport.Proofs.FreshNonces
import ManagedTransport.Proofs.Recutting
import ManagedTransport.Proofs.Cuts
import ManagedTransport.Proofs.Meetings
import ManagedTransport.Proofs.Lines
import ManagedTransport.Proofs.Configuration
import ManagedTransport.Proofs.NoDowngrade
import ManagedTransport.Proofs.Escaping
import ManagedTransport.Proofs.Telling
import ManagedTransport.Proofs.StatusChannel
import ManagedTransport.Proofs.RelayTurns
import ManagedTransport.Proofs.SetupReport
import ManagedTransport.Proofs.RelayVerdict
import ManagedTransport.Proofs.FolderEntries
import ManagedTransport.Proofs.CookieStore
import ManagedTransport.Proofs.BoundedSinks
import ManagedTransport.Proofs.CookieFiles
import ManagedTransport.Proofs.ServerChecks
import ManagedTransport.Proofs.Filtering
import ManagedTransport.Proofs.Numerals
import ManagedTransport.Proofs.HostTexts
import ManagedTransport.Proofs.BindAddresses
import ManagedTransport.Proofs.Wildcard
import ManagedTransport.Proofs.EscapedTexts
