import Z80Cost.Text.Blank
import Z80Cost.Text.LowerCase
import Z80Cost.Text.Quoted
import Z80Cost.Text.Integer
import Z80Cost.Name
import Z80Cost.Expression
import Z80Cost.Source.Dialect
import Z80Cost.Instruction.Platform
import Z80Cost.Instruction.Z80
import Z80Cost.Instruction.Table
import Z80Cost.Matcher
import Z80Cost.Report.Batch
import Z80Cost.Report.Pool
import Z80Cost.Report.Saved
import Z80Cost.Main
import Z80Cost.Proofs.Expression.Grammar
import Z80Cost.Proofs.Text.Trim
import Z80Cost.Proofs.Expression.Reading
import Z80Cost.Proofs.Source.Expansion
import Z80Cost.Proofs.Source.Statement
import Z80Cost.Proofs.Score
import Z80Cost.Proofs.Doubts
import Z80Cost.Proofs.Operand
import Z80Cost.Proofs.Instruction.Catalog
import Z80Cost.Proofs.Matcher.Filling
import Z80Cost.Proofs.Matcher.Instances
import Z80Cost.Proofs.Numeral
import Z80Cost.Proofs.Totals
import Z80Cost.Proofs.Source.Line
import Z80Cost.Proofs.Source.Nesting
import Z80Cost.Proofs.Meter.Lines
import Z80Cost.Proofs.Meter.Repetition
import Z80Cost.Proofs.Source.Room
import Z80Cost.Proofs.Source.Sequence
import Z80Cost.Proofs.Meter.Concatenation
import Z80Cost.Proofs.Meter.CodeLimit
import Z80Cost.Proofs.Meter.Limits
import Z80Cost.Proofs.Directive.Storage
import Z80Cost.Proofs.Meter.Policy
import Z80Cost.Proofs.Source.Literal
import Z80Cost.Proofs.Meter.Quoted
import Z80Cost.Proofs.Matcher.Enabled
import Z80Cost.Proofs.Meter.Tally
import Z80Cost.Proofs.Report.Entry
import Z80Cost.Proofs.Report.Pool
import Z80Cost.Proofs.Source.Return
import Z80Cost.Proofs.Meter.LineEnds
import Z80Cost.Proofs.Text.Symbol
import Z80Cost.Proofs.Json.Scalar
import Z80Cost.Proofs.Json.Value
import Z80Cost.Proofs.Report.Saved
import Z80Cost.Proofs.Matcher.Sets
import Z80Cost.Proofs.Source.Breaks
import Z80Cost.Proofs.Source.Spelling
import Z80Cost.Proofs.Source.Separation
import Z80Cost.Proofs.Source.Likeness
import Z80Cost.Proofs.Source.Respelling
import Z80Cost.Proofs.Source.Contents
import Z80Cost.Proofs.Source.Refilling
import Z80Cost.Proofs.Delimited
import Z80Cost.Proofs.Instruction.Bounds
import Z80Cost.Proofs.Instruction.Table
import Z80Cost.Proofs.Meter.Bounds
import Z80Cost.Proofs.Matcher.Brackets
import Z80Cost.Proofs.Matcher.Maximum
import Z80Cost.Proofs.Source.Guard
import Z80Cost.Proofs.Matcher.Accumulator
import Z80Cost.Proofs.Instruction.Index
import Z80Cost.Proofs.Instruction.Form
import Z80Cost.Proofs.Text.Digits
import Z80Cost.Proofs.Matcher.Rejoining
import Z80Cost.Proofs.Rendering
import Z80Cost.Proofs.Precedence
import Z80Cost.Proofs.Matcher.Numbers
import Z80Cost.Proofs.Instruction.Expansion
import Z80Cost.Proofs.Directive.Encoding
import Z80Cost.Proofs.Directive.Characters
import Z80Cost.Proofs.Source.Canonical
