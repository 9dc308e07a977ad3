import SqlBuilder.Text.Blank
import SqlBuilder.Text.TopLevel
import SqlBuilder.Text.Invisible
import SqlBuilder.Text.Quoted
import SqlBuilder.Decimal.Shortest
import SqlBuilder.Decimal.Layout
import SqlBuilder.Decimal.Reader
import SqlBuilder.Ident
import SqlBuilder.ServerVersion
import SqlBuilder.Dialect
import SqlBuilder.Keyword
import SqlBuilder.Value
import SqlBuilder.Value.Json
import SqlBuilder.Json
import SqlBuilder.JsonSpec
import SqlBuilder.JsonSpec.Text
import SqlBuilder.JsonSpec.Compile
import SqlBuilder.Error
import SqlBuilder.Literal
import SqlBuilder.Template
import SqlBuilder.PerClause
import SqlBuilder.Snapshot
import SqlBuilder.Snapshot.Json
import SqlBuilder.Layout
import SqlBuilder.Render
import SqlBuilder.Pieces
import SqlBuilder.Config
import SqlBuilder.Config.Document
import SqlBuilder.Statement
import SqlBuilder.Statement.Build
import SqlBuilder.Statement.Call
import SqlBuilder.Field
import SqlBuilder.Cache
import SqlBuilder.Link
import SqlBuilder.Answer
import SqlBuilder.Connection
import SqlBuilder.Server
import SqlBuilder.Toml.Item
import SqlBuilder.Toml.Scalar
import SqlBuilder.Toml.Text
import SqlBuilder.Toml.Reader
import SqlBuilder.Proofs.Outcome
import SqlBuilder.Proofs.Layout
import SqlBuilder.Proofs.Pieces
import SqlBuilder.Proofs.Nesting
import SqlBuilder.Proofs.Render
import SqlBuilder.Proofs.Edits
import SqlBuilder.Proofs.Lexer
import SqlBuilder.Proofs.Lexer.Quoted
import SqlBuilder.Proofs.Template
import SqlBuilder.Proofs.Payload.Text
import SqlBuilder.Proofs.Payload.Template
import SqlBuilder.Proofs.Payload.Pieces
import SqlBuilder.Proofs.Payload.Snapshot
import SqlBuilder.Proofs.Payload.Json
import SqlBuilder.Proofs.Payload.Field
import SqlBuilder.Proofs.Payload.Row
import SqlBuilder.Proofs.Payload.Statement
import SqlBuilder.Proofs.Payload.Call
import SqlBuilder.Proofs.Block
import SqlBuilder.Proofs.Kept
import SqlBuilder.Proofs.Condition.Level
import SqlBuilder.Proofs.Condition.Scan
import SqlBuilder.Proofs.Condition.Chain
import SqlBuilder.Proofs.Condition.Predicates
import SqlBuilder.Proofs.Ident
import SqlBuilder.Proofs.Ident.Spelling
import SqlBuilder.Proofs.Alias
import SqlBuilder.Proofs.Lexer.Reading
import SqlBuilder.Proofs.Document
import SqlBuilder.Proofs.Lockstep
import SqlBuilder.Proofs.Restored
import SqlBuilder.Proofs.Rows
import SqlBuilder.Proofs.Session
import SqlBuilder.Proofs.Insertion
import SqlBuilder.Proofs.Columns
import SqlBuilder.Proofs.Lexer.Dashes
import SqlBuilder.Proofs.Comment.Value
import SqlBuilder.Proofs.Comment.Template
import SqlBuilder.Proofs.Writes
import SqlBuilder.Proofs.Assignment
import SqlBuilder.Proofs.Attribution
import SqlBuilder.Proofs.JsonSpec.Arity
import SqlBuilder.Proofs.JsonSpec.Separators
import SqlBuilder.Proofs.Order
import SqlBuilder.Proofs.Lookup
import SqlBuilder.Proofs.Cache
import SqlBuilder.Proofs.ServerVersion
import SqlBuilder.Proofs.Connection
import SqlBuilder.Proofs.Template.Expansion
import SqlBuilder.Proofs.Template.Holes
import SqlBuilder.Proofs.Simulation
import SqlBuilder.Proofs.Portable.Shape
import SqlBuilder.Proofs.Portable.Render
import SqlBuilder.Proofs.Portable.Text
import SqlBuilder.Proofs.Portable.Row
import SqlBuilder.Proofs.Portable.Field
import SqlBuilder.Proofs.Portable.Call
import SqlBuilder.Proofs.Names
import SqlBuilder.Proofs.Faults
import SqlBuilder.Proofs.Parentheses
import SqlBuilder.Proofs.Parentheses.Outline
import SqlBuilder.Proofs.Parentheses.Sound
import SqlBuilder.Proofs.Parentheses.Nested
import SqlBuilder.Proofs.Additions
import SqlBuilder.Proofs.Limits
import SqlBuilder.Proofs.Answer
import SqlBuilder.Proofs.Embedding
import SqlBuilder.Proofs.Handover
import SqlBuilder.Proofs.JsonSpec.Colons
import SqlBuilder.Proofs.Text.Pieces
import SqlBuilder.Proofs.JsonSpec.Recursion
import SqlBuilder.Proofs.JsonSpec.Depth
import SqlBuilder.Proofs.Truncation
