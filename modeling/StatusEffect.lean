import StatusEffect.Main
import StatusEffect.Proofs.Grammar.Clause
import StatusEffect.Proofs.Grammar.Reading
import StatusEffect.Proofs.Grammar.Section
import StatusEffect.Proofs.Text.Class
import StatusEffect.Proofs.Token.Language
import StatusEffect.Proofs.Record.Expressible
import StatusEffect.Proofs.Grammar.Image
import StatusEffect.Proofs.Token.Lexeme
import StatusEffect.Proofs.Notation.Scans
import StatusEffect.Proofs.Notation.Join
import StatusEffect.Proofs.Notation.Ending
import StatusEffect.Proofs.Notation.Core
import StatusEffect.Proofs.Notation.Extension
import StatusEffect.Proofs.Notation.Record
import StatusEffect.Proofs.Notation.RoundTrip
import StatusEffect.Proofs.Json.Layout
import StatusEffect.Proofs.Record.Structured
import StatusEffect.Proofs.Token.Signs
import StatusEffect.Proofs.Token.Join
import StatusEffect.Proofs.Grammar.Moved
import StatusEffect.Proofs.Grammar.Parts
import StatusEffect.Proofs.Notation.Sections
import StatusEffect.Proofs.Grammar.Nesting
import StatusEffect.Proofs.Notation.ChainTarget
import StatusEffect.Proofs.Grammar.Language
import StatusEffect.Proofs.Notation.Skipped
import StatusEffect.Proofs.Grammar.Unique
import StatusEffect.Proofs.Token.Break
import StatusEffect.Proofs.Token.Invalid
import StatusEffect.Proofs.Grammar.Places
import StatusEffect.Proofs.Notation.Spacing
import StatusEffect.Proofs.Grammar.Justified
import StatusEffect.Proofs.Notation.Diagnostic
import StatusEffect.Proofs.Token.Tiling
import StatusEffect.Proofs.Grammar.Within
import StatusEffect.Proofs.Notation.Mandatory
import StatusEffect.Proofs.Grammar.Further
import StatusEffect.Proofs.Grammar.FurtherSections
import StatusEffect.Proofs.Notation.Locality
import StatusEffect.Proofs.Session.Presentation
import StatusEffect.Proofs.Session.Lines
import StatusEffect.Proofs.Grammar.Repetition
import StatusEffect.Proofs.Notation.Depth
import StatusEffect.Proofs.Json.Members
import StatusEffect.Proofs.Record.Decoded
import StatusEffect.Proofs.Session.Room
import StatusEffect.Proofs.Session.Interaction
import StatusEffect.Proofs.Json.Compact
import StatusEffect.Proofs.Session.JsonLines
import StatusEffect.Proofs.Token.Spelling
import StatusEffect.Proofs.Notation.Recognized
import StatusEffect.Proofs.Grammar.Segments
import StatusEffect.Proofs.Grammar.Search
import StatusEffect.Proofs.Record.Followed
import StatusEffect.Proofs.Json.Quote
