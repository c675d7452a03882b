import DocAnnotations.Main
import DocAnnotations.Projection
import DocAnnotations.Proofs.Alone
import DocAnnotations.Proofs.Attribute.Completion
import DocAnnotations.Proofs.Attribute.Delimited
import DocAnnotations.Proofs.Attribute.Encodable
import DocAnnotations.Proofs.Attribute.Faults
import DocAnnotations.Proofs.Attribute.LaidOut
import DocAnnotations.Proofs.Attribute.Layout
import DocAnnotations.Proofs.Attribute.Measures
import DocAnnotations.Proofs.Attribute.Origin
import DocAnnotations.Proofs.Attribute.Readers
import DocAnnotations.Proofs.Attribute.Reading
import DocAnnotations.Proofs.Attribute.Reordered
import DocAnnotations.Proofs.Attribute.Reread
import DocAnnotations.Proofs.Attribute.RoundTrip
import DocAnnotations.Proofs.Attribute.Soundness
import DocAnnotations.Proofs.Attribute.Spelling
import DocAnnotations.Proofs.Attribute.Writing
import DocAnnotations.Proofs.Batch
import DocAnnotations.Proofs.Canonical
import DocAnnotations.Proofs.Counts
import DocAnnotations.Proofs.Cycles
import DocAnnotations.Proofs.Decimal.Finite
import DocAnnotations.Proofs.Decimal.Nearest
import DocAnnotations.Proofs.Decimal.Numeral
import DocAnnotations.Proofs.Decimal.ReadBack
import DocAnnotations.Proofs.Decimal.Rounding
import DocAnnotations.Proofs.Decimal.Shortest
import DocAnnotations.Proofs.Decimal.Text
import DocAnnotations.Proofs.DeclarationOrder
import DocAnnotations.Proofs.Defaults.Coherence
import DocAnnotations.Proofs.Defaults.Declared
import DocAnnotations.Proofs.Defaults.Decoding
import DocAnnotations.Proofs.Defaults.Ending
import DocAnnotations.Proofs.Defaults.Ensuring
import DocAnnotations.Proofs.Defaults.Final
import DocAnnotations.Proofs.Defaults.Following
import DocAnnotations.Proofs.Defaults.Grounded
import DocAnnotations.Proofs.Defaults.Nonrecursive
import DocAnnotations.Proofs.Defaults.Refused
import DocAnnotations.Proofs.Defaults.Registry
import DocAnnotations.Proofs.Defaults.Resolving
import DocAnnotations.Proofs.Defaults.SameFrom
import DocAnnotations.Proofs.Defaults.Stored
import DocAnnotations.Proofs.DependencyOrder
import DocAnnotations.Proofs.Descriptor
import DocAnnotations.Proofs.Groups
import DocAnnotations.Proofs.Independence
import DocAnnotations.Proofs.LeadingName
import DocAnnotations.Proofs.Literal
import DocAnnotations.Proofs.Literal.Floating
import DocAnnotations.Proofs.Literal.Integer
import DocAnnotations.Proofs.Literal.Lone
import DocAnnotations.Proofs.Literal.Printed
import DocAnnotations.Proofs.Literal.Quoted
import DocAnnotations.Proofs.Loader
import DocAnnotations.Proofs.Merging
import DocAnnotations.Proofs.Messages
import DocAnnotations.Proofs.Modules
import DocAnnotations.Proofs.Names
import DocAnnotations.Proofs.Node.Accepting
import DocAnnotations.Proofs.Node.Canonical
import DocAnnotations.Proofs.Node.Derivation
import DocAnnotations.Proofs.Node.Grammar
import DocAnnotations.Proofs.Node.Machine
import DocAnnotations.Proofs.Node.Nesting
import DocAnnotations.Proofs.Node.Offending
import DocAnnotations.Proofs.Node.Placed
import DocAnnotations.Proofs.Node.Respanned
import DocAnnotations.Proofs.Node.Syntactic
import DocAnnotations.Proofs.Node.Tracking
import DocAnnotations.Proofs.Node.Unspanned
import DocAnnotations.Proofs.Node.Viable
import DocAnnotations.Proofs.Node.Written
import DocAnnotations.Proofs.Omitted
import DocAnnotations.Proofs.Outcomes
import DocAnnotations.Proofs.Projection
import DocAnnotations.Proofs.Rendered
import DocAnnotations.Proofs.Resolve
import DocAnnotations.Proofs.Resolved
import DocAnnotations.Proofs.Scan
import DocAnnotations.Proofs.SplitCharacter
import DocAnnotations.Proofs.Text.Digit
import DocAnnotations.Proofs.Text.Utf8
import DocAnnotations.Proofs.Token.Escape
import DocAnnotations.Proofs.Token.Floating
import DocAnnotations.Proofs.Token.Lexeme
import DocAnnotations.Proofs.Token.Lossless
import DocAnnotations.Proofs.Token.Name
import DocAnnotations.Proofs.Token.Number
import DocAnnotations.Proofs.Token.Quoted
import DocAnnotations.Proofs.Token.Slice
import DocAnnotations.Proofs.Token.Stopping
import DocAnnotations.Proofs.Token.Tiling
import DocAnnotations.Proofs.TypeIndex
import DocAnnotations.Proofs.Unchanged
import DocAnnotations.Proofs.Value.Elements
import DocAnnotations.Proofs.Value.Everywhere
import DocAnnotations.Proofs.Value.Text
import DocAnnotations.Proofs.Verdicts
import DocAnnotations.Value.Printer
