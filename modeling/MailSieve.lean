import MailSieve.Text.Lowercase
import MailSieve.Text.Quoted
import MailSieve.Text.Utf8
import MailSieve.Text.ModifiedUtf7
import MailSieve.Text.Codepage
import MailSieve.Script.Parser
import MailSieve.Filter.Evaluate
import MailSieve.Mail.Message
import MailSieve.Filter.Judgement
import MailSieve.Health
import MailSieve.Maildir.Folder
import MailSieve.Files.Access
import MailSieve.Files.Disk
import MailSieve.Json.Malformed
import MailSieve.Json.Text
import MailSieve.Json.Skip
import MailSieve.Ledger.Codec
import MailSieve.Failure
import MailSieve.Forward.Mailbox
import MailSieve.Forward.Pass
import MailSieve.Files.Host
import MailSieve.Forward.Rehearsal
import MailSieve.Maildir.Entry
import MailSieve.Maildir.Store
import MailSieve.CommandLine.Invocation
import MailSieve.Filter.Load
import MailSieve.Log.Rules
import MailSieve.Script.Outline
import MailSieve.CommandLine.Run
import MailSieve.CommandLine.Screen
import MailSieve.Main
import MailSieve.Proofs.Filter.Agreement
import MailSieve.Proofs.Forward.Delivery
import MailSieve.Proofs.Ledger.Codec
import MailSieve.Proofs.Script.Printing
import MailSieve.Proofs.Text.Utf8
import MailSieve.Proofs.Script.Lexing
import MailSieve.Proofs.Script.Concatenation
import MailSieve.Proofs.Filter.Sequence
import MailSieve.Proofs.Forward.Course
import MailSieve.Proofs.Forward.Conduct
import MailSieve.Proofs.Forward.Account
import MailSieve.Proofs.Maildir.Containment
import MailSieve.Proofs.Script.Diagnosis
import MailSieve.Proofs.Filter.Interference
import MailSieve.Proofs.Files.Tree
import MailSieve.Proofs.Text.Utf8Order
import MailSieve.Proofs.Files.Actions
import MailSieve.Proofs.Ledger.Storage
import MailSieve.Proofs.Forward.Play
import MailSieve.Proofs.Forward.Steady
import MailSieve.Proofs.Forward.Reloading
import MailSieve.Proofs.Files.Path
import MailSieve.Proofs.Files.Listing
import MailSieve.Proofs.Maildir.Listing
import MailSieve.Proofs.Maildir.Marking
import MailSieve.Proofs.Forward.Tracking
import MailSieve.Proofs.Maildir.Forwarding
import MailSieve.Proofs.Filter.Occurrence
import MailSieve.Proofs.Forward.Chunks
import MailSieve.Proofs.Forward.Stranding
import MailSieve.Proofs.Forward.Refusal
import MailSieve.Proofs.Script.Quotation
import MailSieve.Proofs.Script.Spans
import MailSieve.Proofs.Script.Faults
import MailSieve.Proofs.Script.Placement
import MailSieve.Proofs.Script.Respacing
import MailSieve.Proofs.Filter.Connectives
import MailSieve.Proofs.Filter.Normalization
import MailSieve.Proofs.Filter.Casing
import MailSieve.Proofs.Script.Attempts
import MailSieve.Proofs.Filter.Trace
import MailSieve.Proofs.Filter.Rendering
import MailSieve.Proofs.Filter.HeaderNames
import MailSieve.Proofs.Maildir.Distinction
import MailSieve.Proofs.Maildir.Strays
import MailSieve.Proofs.Maildir.Arrival
import MailSieve.Proofs.Forward.Interruption
import MailSieve.Proofs.Forward.Order
import MailSieve.Proofs.Health
import MailSieve.Proofs.Mail.Names
import MailSieve.Proofs.Script.Following
import MailSieve.Proofs.Script.Following.Commands
import MailSieve.Proofs.Script.Progress
