import Courier.Action
import Courier.Attempts
import Courier.Bytes
import Courier.Checksum
import Courier.Client.Basic
import Courier.Client.Identity
import Courier.Client.Operation
import Courier.Client.RoundTrip
import Courier.Client.SessionKey
import Courier.Client.Transfer
import Courier.Config.Address
import Courier.Config.Basic
import Courier.Config.Document
import Courier.Config.LogLevel
import Courier.Config.Logging
import Courier.Config.Record
import Courier.Config.Variables
import Courier.Config.Violation
import Courier.Duration
import Courier.Environment
import Courier.Error
import Courier.ErrorRecord
import Courier.Event
import Courier.Metrics
import Courier.Path
import Courier.Proofs.Action
import Courier.Proofs.Checksum
import Courier.Proofs.Client.Accounting
import Courier.Proofs.Client.Adoption
import Courier.Proofs.Client.Aftermath
import Courier.Proofs.Client.Answering
import Courier.Proofs.Client.Chronicle
import Courier.Proofs.Client.Companions
import Courier.Proofs.Client.Conversation
import Courier.Proofs.Client.Damage
import Courier.Proofs.Client.Deeds
import Courier.Proofs.Client.ExpectedAnswers
import Courier.Proofs.Client.Failures
import Courier.Proofs.Client.History
import Courier.Proofs.Client.Identities
import Courier.Proofs.Client.IdentityCourses
import Courier.Proofs.Client.Indifference
import Courier.Proofs.Client.KeyCourses
import Courier.Proofs.Client.KeyEndings
import Courier.Proofs.Client.KeyFreshness
import Courier.Proofs.Client.Likeness
import Courier.Proofs.Client.Mismatches
import Courier.Proofs.Client.OperationCourses
import Courier.Proofs.Client.Punctuality
import Courier.Proofs.Client.Reported
import Courier.Proofs.Client.Runs
import Courier.Proofs.Client.Secrecy
import Courier.Proofs.Client.SessionInvariant
import Courier.Proofs.Client.Stalling
import Courier.Proofs.Client.Takings
import Courier.Proofs.Client.Telling
import Courier.Proofs.Client.Totals
import Courier.Proofs.Client.Traffic
import Courier.Proofs.Client.TransferCourses
import Courier.Proofs.Client.Trips
import Courier.Proofs.Client.Uploads
import Courier.Proofs.Client.Veil
import Courier.Proofs.Config.Document
import Courier.Proofs.Config.Limits
import Courier.Proofs.Config.Record
import Courier.Proofs.Config.Variables
import Courier.Proofs.Counters
import Courier.Proofs.Coupling
import Courier.Proofs.ErrorRecord
import Courier.Proofs.Hanging
import Courier.Proofs.Path
import Courier.Proofs.Rehearsal.Veil
import Courier.Proofs.Text.Decoding
import Courier.Proofs.Text.Numeral
import Courier.Proofs.Text.Utf8
import Courier.Proofs.Toml.Document
import Courier.Proofs.Toml.Parser
import Courier.Proofs.Toml.Sections
import Courier.Proofs.Transport.Coupling
import Courier.Proofs.Transport.Deadline
import Courier.Proofs.Transport.Delivery
import Courier.Proofs.Transport.FrameBuffer
import Courier.Proofs.Transport.Gathering
import Courier.Proofs.Transport.Likeness
import Courier.Proofs.Transport.Messages
import Courier.Proofs.Transport.Metering
import Courier.Proofs.Transport.Passing
import Courier.Proofs.Transport.Patience
import Courier.Proofs.Transport.Receiving
import Courier.Proofs.Transport.Reference
import Courier.Proofs.Transport.Reporting
import Courier.Proofs.Transport.Sending
import Courier.Proofs.Transport.Stalling
import Courier.Proofs.Transport.Timetable
import Courier.Proofs.Transport.Veil
import Courier.Proofs.Wire.Agreement
import Courier.Proofs.Wire.Answer
import Courier.Proofs.Wire.Grammar
import Courier.Proofs.Wire.Informational
import Courier.Proofs.Wire.Name
import Courier.Proofs.Wire.PayloadCopies
import Courier.Proofs.Wire.Reading
import Courier.Proofs.Wire.RequestCopies
import Courier.Proofs.Wire.RequestRoundTrip
import Courier.Proofs.Wire.ResponseRoundTrip
import Courier.Proofs.Wire.Stability
import Courier.Rehearsal.Cipher
import Courier.Rehearsal.World
import Courier.Session
import Courier.Text.Blank
import Courier.Text.Decimal
import Courier.Text.Utf8
import Courier.Toml.Document
import Courier.Toml.Lexical
import Courier.Toml.Node
import Courier.Toml.Number
import Courier.Toml.Parser
import Courier.Toml.Quoted
import Courier.Transport.Clock
import Courier.Transport.Connection
import Courier.Transport.Frame
import Courier.Transport.Stream
import Courier.Value
import Courier.Wire.ClientId
import Courier.Wire.Code
import Courier.Wire.Field
import Courier.Wire.Header
import Courier.Wire.Key
import Courier.Wire.Name
import Courier.Wire.Request
import Courier.Wire.Response
import Courier.Wire.Validation
