import BoundSql.Client.Recording
import BoundSql.Client.Scripted
import BoundSql.Pool
import BoundSql.Session
import BoundSql.Settings.Document
import BoundSql.Sql.Fragment.Symbols
import BoundSql.Query.Compile
import BoundSql.Proofs.Query.Acceptance
import BoundSql.Proofs.Query.Counting
import BoundSql.Proofs.Query.Interleaving
import BoundSql.Proofs.Query.Meaning
import BoundSql.Proofs.Query.Reading
import BoundSql.Proofs.Query.Sentences
import BoundSql.Proofs.Session.Protocol
import BoundSql.Proofs.Session.Refusals
import BoundSql.Proofs.Query.Values
import BoundSql.Proofs.Session.Secrecy
import BoundSql.Proofs.Query.Numbering
import BoundSql.Proofs.Query.Replacing
import BoundSql.Proofs.Sql.Conditions
import BoundSql.Proofs.Session.FirstRow
import BoundSql.Proofs.Query.Parts
import BoundSql.Proofs.Query.Reads
import BoundSql.Proofs.Query.Unread
import BoundSql.Proofs.Query.Styles
import BoundSql.Proofs.Session.Tuples
import BoundSql.Proofs.Query.Records
import BoundSql.Proofs.Query.Operators
import BoundSql.Proofs.Session.Wrapping
import BoundSql.Proofs.Settings.Environment
import BoundSql.Proofs.Settings.Document
import BoundSql.Proofs.Settings.ConnectionString
import BoundSql.Proofs.Client.Scripted
import BoundSql.Proofs.Toml.Floats
import BoundSql.Proofs.Text.Quoted
import BoundSql.Proofs.Session.Logging
import BoundSql.Proofs.Sql.Writing
