import ManagementShell.Arithmetic
import ManagementShell.Calendar
import ManagementShell.Call
import ManagementShell.Catalog
import ManagementShell.Catalog.File
import ManagementShell.Command
import ManagementShell.Command.Fault
import ManagementShell.Command.Reader
import ManagementShell.CommandLine
import ManagementShell.Configuration
import ManagementShell.Configuration.File
import ManagementShell.Connection
import ManagementShell.Data
import ManagementShell.Element
import ManagementShell.Element.Outline
import ManagementShell.Endpoint
import ManagementShell.Extraction
import ManagementShell.Extraction.Report
import ManagementShell.Failure
import ManagementShell.FanOut
import ManagementShell.FileTree
import ManagementShell.Host
import ManagementShell.Host.Expansion
import ManagementShell.Invocation
import ManagementShell.Layout
import ManagementShell.Main
import ManagementShell.Masking
import ManagementShell.Order
import ManagementShell.Plan
import ManagementShell.Plan.Run
import ManagementShell.Record
import ManagementShell.Request
import ManagementShell.Response
import ManagementShell.Session.Frame
import ManagementShell.Session.Inspection
import ManagementShell.Session.Jump
import ManagementShell.Session.Remote
import ManagementShell.Session.Run
import ManagementShell.Session.State
import ManagementShell.Shell.Command
import ManagementShell.Shell.Machine
import ManagementShell.Shell.Printed
import ManagementShell.Shell.Run
import ManagementShell.Shell.Token
import ManagementShell.Startup
import ManagementShell.Table
import ManagementShell.Text
import ManagementShell.Text.Blank
import ManagementShell.Text.Numeral
import ManagementShell.Text.Printable
import ManagementShell.Text.Quoting
import ManagementShell.Text.Utf8
import ManagementShell.Text.Word
import ManagementShell.Toml.Document
import ManagementShell.Toml.Lexeme
import ManagementShell.Variable
import ManagementShell.Variable.Store
import ManagementShell.Variable.Substitution
import ManagementShell.Xml.Character
import ManagementShell.Xml.Document
import ManagementShell.Xml.Indented
import ManagementShell.Xml.Piece
import ManagementShell.Xml.Reference
import ManagementShell.Yaml.Document
import ManagementShell.Yaml.Scalar
import ManagementShell.Yaml.Token
import ManagementShell.Proofs.Building
import ManagementShell.Proofs.Session.Still
import ManagementShell.Proofs.Session.Trace
import ManagementShell.Proofs.Command.Shape
import ManagementShell.Proofs.Session.Jump
import ManagementShell.Proofs.Session.Stack
import ManagementShell.Proofs.Session.Run
import ManagementShell.Proofs.Session.Bracket
import ManagementShell.Proofs.Caching
import ManagementShell.Proofs.Masking
import ManagementShell.Proofs.Text.Utf8
import ManagementShell.Proofs.Arithmetic
import ManagementShell.Proofs.Arithmetic.Evaluation
import ManagementShell.Proofs.Command.Texts
import ManagementShell.Proofs.Element
import ManagementShell.Proofs.Extraction
import ManagementShell.Proofs.Order
import ManagementShell.Proofs.Failure
import ManagementShell.Proofs.Store
import ManagementShell.Proofs.FanOut.Completion
import ManagementShell.Proofs.FileTree
import ManagementShell.Proofs.Session.Frame
import ManagementShell.Proofs.Endpoint
import ManagementShell.Proofs.Plan
import ManagementShell.Proofs.Policy
import ManagementShell.Proofs.Request
import ManagementShell.Proofs.Connection
import ManagementShell.Proofs.Session.Discreet
import ManagementShell.Proofs.Session.Call
import ManagementShell.Proofs.Session.Commands
import ManagementShell.Proofs.Session.Secrecy
import ManagementShell.Proofs.Completeness
import ManagementShell.Proofs.Discovery
import ManagementShell.Proofs.Pairing
import ManagementShell.Proofs.Place
import ManagementShell.Proofs.Session.Scope
import ManagementShell.Proofs.Session.Course
import ManagementShell.Proofs.Session.Bound
import ManagementShell.Proofs.Session.Nesting
import ManagementShell.Proofs.Session.Failing
import ManagementShell.Proofs.Session.Quitting
import ManagementShell.Proofs.Text.Blank
import ManagementShell.Proofs.Text.Cut
import ManagementShell.Proofs.Text.Joining
import ManagementShell.Proofs.Text.Replace
import ManagementShell.Proofs.Variable.Rules
import ManagementShell.Proofs.Variable.Naming
import ManagementShell.Proofs.Variable.Scan
import ManagementShell.Proofs.Variable.Independence
import ManagementShell.Proofs.Normalisation
import ManagementShell.Proofs.Xml.Collection
import ManagementShell.Proofs.Variable.Changes
import ManagementShell.Proofs.Text.Parts
import ManagementShell.Proofs.Enumeration
import ManagementShell.Proofs.Extraction.Values
import ManagementShell.Proofs.Extraction.Rows
import ManagementShell.Proofs.Cause
import ManagementShell.Proofs.Session.Polling
import ManagementShell.Proofs.Session.Alteration
import ManagementShell.Proofs.Session.Reporting
import ManagementShell.Proofs.Session.Entry
import ManagementShell.Proofs.Session.Returning
import ManagementShell.Proofs.Command.Setting
import ManagementShell.Proofs.Session.Password
import ManagementShell.Proofs.Xml.Writing
import ManagementShell.Proofs.Payload
import ManagementShell.Proofs.Numbering
import ManagementShell.Proofs.Extraction.Listing
import ManagementShell.Proofs.Extraction.Limit
import ManagementShell.Proofs.Xml.Naming
import ManagementShell.Proofs.Text.Paragraph
import ManagementShell.Proofs.Enumeration.Counting
import ManagementShell.Proofs.Session.Finding
import ManagementShell.Proofs.Extraction.Columns
import ManagementShell.Proofs.Extraction.Filtering
import ManagementShell.Proofs.Text.Block
import ManagementShell.Proofs.Enumeration.Form
import ManagementShell.Proofs.Enumeration.Parts
import ManagementShell.Proofs.Enumeration.Rearrangement
import ManagementShell.Proofs.Extraction.Rearrangement
import ManagementShell.Proofs.Extraction.Narrowing
import ManagementShell.Proofs.Extraction.Showing
import ManagementShell.Proofs.Variable.Settled
import ManagementShell.Proofs.Variable.Locality
import ManagementShell.Proofs.Session.Jumping
import ManagementShell.Proofs.Arguments
import ManagementShell.Proofs.Resource
import ManagementShell.Proofs.Address
import ManagementShell.Proofs.Xml.Reading
import ManagementShell.Proofs.Text.Quoting
import ManagementShell.Proofs.Concealment
import ManagementShell.Proofs.Credentials
import ManagementShell.Proofs.Range
import ManagementShell.Proofs.Reference
import ManagementShell.Proofs.Text.Numeral
import ManagementShell.Proofs.Session.Reuse
import ManagementShell.Proofs.Host.Nesting
import ManagementShell.Proofs.Host.Merging
import ManagementShell.Proofs.Indentation
import ManagementShell.Proofs.Command.Remainder
import ManagementShell.Proofs.Command.Abbreviation
import ManagementShell.Proofs.FanOut.Delay
import ManagementShell.Proofs.Command.Operators
