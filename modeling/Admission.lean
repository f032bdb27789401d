import Admission.Decision
import Admission.EmailDomain
import Admission.Entries
import Admission.Exchange.Message
import Admission.Exchange.Play
import Admission.Exchange.Pool
import Admission.Exchange.Process
import Admission.Exchange.Query
import Admission.Exchange.Script
import Admission.Exchange.Timeline
import Admission.Failure
import Admission.Fault
import Admission.Gate
import Admission.Group
import Admission.IdToken
import Admission.Journal.Basic
import Admission.Journal.Interpolation
import Admission.Journal.Layout
import Admission.Journal.Level
import Admission.Json.Reader
import Admission.Json.Writer
import Admission.Login.Basic
import Admission.Login.Preparation
import Admission.Membership
import Admission.Metrics
import Admission.Notice
import Admission.Number.Binary64
import Admission.Number.Numeral
import Admission.Number.Shortest
import Admission.Probe.Basic
import Admission.Probe.Fanout
import Admission.Probe.Question
import Admission.Probe.Single
import Admission.Profile
import Admission.Proofs.Decision
import Admission.Proofs.Login.Correctness
import Admission.Proofs.Login.Inheritance
import Admission.Proofs.Login.Stages
import Admission.Proofs.Memberships
import Admission.Proofs.Pool.Calls
import Admission.Proofs.Pool.Places
import Admission.Proofs.Pool.Records
import Admission.Proofs.Pool.Steps
import Admission.Proofs.Pool.Stopping
import Admission.Proofs.Probe.Answers
import Admission.Proofs.Probe.Completion
import Admission.Proofs.Text.Percent
import Admission.Proofs.Url.Form
import Admission.Proofs.Url.Inherited
import Admission.Proofs.Url.Normal
import Admission.Settings.Basic
import Admission.Settings.Configuration
import Admission.Settings.Environment
import Admission.Settings.Store
import Admission.Template
import Admission.Text.Base64
import Admission.Text.Blank
import Admission.Text.Case
import Admission.Text.CaseTable
import Admission.Text.Encoding
import Admission.Text.HiddenTable
import Admission.Text.Percent
import Admission.Text.Quoted
import Admission.TextList
import Admission.Time.Calendar
import Admission.Time.Moment
import Admission.Time.Timestamp
import Admission.Toml.Document
import Admission.Toml.Reader
import Admission.Url.Basic
import Admission.Url.Form
import Admission.Url.Host
import Admission.Url.Join
import Admission.Url.Reader
import Admission.User
import Admission.Value
import Admission.Whitelist
import Admission.Proofs.Url.Queries
import Admission.Proofs.Exchange.Lockstep
import Admission.Proofs.Pool.Lockstep
import Admission.Proofs.Probe.Token
import Admission.Proofs.Probe.Secrecy
import Admission.Proofs.Login.Secrecy
import Admission.Proofs.Login.Indeterminate
import Admission.Proofs.Url.Dots
import Admission.Proofs.Probe.Address
import Admission.Proofs.Exchange.Transcript
import Admission.Proofs.Exchange.Attempts
import Admission.Proofs.Probe.Course
import Admission.Proofs.Probe.Verdict
import Admission.Proofs.Probe.Faults
import Admission.Proofs.Pool.Slots
import Admission.Proofs.Probe.Bounds
import Admission.Proofs.Exchange.Deadline
import Admission.Proofs.Exchange.Replay
import Admission.Proofs.Pool.Solo
import Admission.Proofs.Probe.Budget
import Admission.Proofs.Settings.Publication
import Admission.Proofs.Exchange.Counting
import Admission.Proofs.Pool.Counting
import Admission.Proofs.Probe.Counting
import Admission.Proofs.Metrics
import Admission.Proofs.Login.Accounting
import Admission.Proofs.Domain.Labels
import Admission.Proofs.Evaluation
import Admission.Proofs.Text.Case
import Admission.Proofs.Domain.Listing
import Admission.Proofs.Exchange.Conversation
import Admission.Proofs.Exchange.Retries
import Admission.Proofs.Domain.Case
import Admission.Proofs.Number.Order
import Admission.Proofs.Settings.Limits
import Admission.Proofs.Number.Digits
import Admission.Proofs.Json.Scalars
import Admission.Proofs.Json.Arrays
import Admission.Proofs.TextList.Spellings
import Admission.Proofs.Value
import Admission.Proofs.Settings.Refusals
import Admission.Proofs.Settings.Nulls
import Admission.Proofs.Settings.Projection
import Admission.Proofs.Number.Nearest
import Admission.Proofs.Profile.Mapping
import Admission.Proofs.Profile.Rejection
import Admission.Proofs.Profile.RoundTrip
import Admission.Proofs.Exchange.Delays
import Admission.Proofs.Journal.Handlers
import Admission.Proofs.Entries
import Admission.Proofs.Metrics.Tags
import Admission.Proofs.Metrics.Summary
import Admission.Proofs.Probe.Entry
import Admission.Proofs.Probe.RoundTrip
