import Outline.Text.Blank
import Outline.Text.Digit
import Outline.Text.Letter
import Outline.Text.Quoted
import Outline.Text.Punctuation
import Outline.Text.Word
import Outline.Decimal.Float
import Outline.Calendar
import Outline.Value.Basic
import Outline.Value.Text
import Outline.Regex.Basic
import Outline.Regex.Read
import Outline.Regex.Match
import Outline.Fault
import Outline.Text.Find
import Outline.Document.Slug
import Outline.Expr.Basic
import Outline.Expr.Token
import Outline.Expr.Read
import Outline.Expr.Eval
import Outline.Decimal.Read
import Outline.Text.Utf8
import Outline.Address.Link
import Outline.Yaml.Load
import Outline.Document.FrontMatter
import Outline.Document.Build
import Outline.Path
import Outline.Heading.Spec
import Outline.Heading.Matcher
import Outline.Schema.Load
import Outline.Binding.Basic
import Outline.Report.Format
import Outline.Rule.Structure
import Outline.Address.Split
import Outline.Rule.Content
import Outline.Address.Web
import Outline.Files.Basic
import Outline.Rule.Heading
import Outline.Rule.FrontMatter
import Outline.Rule.Link
import Outline.Files.Tree
import Outline.Evaluation
import Outline.Template.Basic
import Outline.Yaml.Print
import Outline.Document.Sketch
import Outline.Files.Wildcard
import Outline.Files.Glob
import Outline.Files.Documents
import Outline.Schema.Find
import Outline.Schema.Published
import Outline.Command.Run
import Outline.Command.Tool
import Outline.Main
import Outline.Proofs.Document.Lines
import Outline.Proofs.Binding.Node
import Outline.Proofs.Binding.Siblings
import Outline.Proofs.Binding.Scope
import Outline.Proofs.Binding.Once
import Outline.Proofs.Structure.Pass
import Outline.Proofs.Structure.Unexpected
import Outline.Proofs.Structure.Verdict
import Outline.Proofs.Structure.Missing
import Outline.Proofs.Structure.Shape
import Outline.Proofs.Heading.Matcher
import Outline.Proofs.Rule.Run
import Outline.Proofs.Structure.Conforming
import Outline.Proofs.Rule.Journal
import Outline.Proofs.Rule.Accept
import Outline.Proofs.Binding.Relaxed
import Outline.Proofs.Structure.Relaxed
import Outline.Proofs.Text.Blank
import Outline.Proofs.Document.Alike
import Outline.Proofs.Schema.Sketch
import Outline.Proofs.Binding.Each
import Outline.Proofs.Rule.Literal
import Outline.Proofs.Schema.Derived
import Outline.Proofs.Markdown.Items
import Outline.Proofs.Markdown.Plain
import Outline.Proofs.Markdown.Rows
import Outline.Proofs.Structure.Rows
import Outline.Proofs.Template.Accept
import Outline.Proofs.Document.Nesting
import Outline.Proofs.Structure.Occurrences
import Outline.Proofs.Structure.Scopes
import Outline.Proofs.Binding.Padded
import Outline.Proofs.Binding.Questions
import Outline.Proofs.Structure.Additional
import Outline.Proofs.Expr.Blame
import Outline.Proofs.Expr.Compile
import Outline.Proofs.Document.Regions
import Outline.Proofs.Expr.Fault
import Outline.Proofs.Heading.Answer
import Outline.Proofs.Yaml.Keep
import Outline.Proofs.Yaml.Scalar
import Outline.Proofs.Yaml.Cut
import Outline.Proofs.Yaml.Build
import Outline.Proofs.Document.FrontMatter
import Outline.Proofs.Schema.Amount
import Outline.Proofs.Schema.Form
import Outline.Proofs.Schema.Shown
import Outline.Proofs.Schema.Convert
import Outline.Proofs.Schema.Load
import Outline.Proofs.Rule.Levels
import Outline.Proofs.Rule.FrontMatter
import Outline.Proofs.Schema.Longhand
import Outline.Proofs.Schema.Guard
import Outline.Proofs.Markdown.Numbers
import Outline.Proofs.Document.Places
import Outline.Proofs.Rule.Places
import Outline.Proofs.Binding.Earliest
import Outline.Proofs.Structure.First
import Outline.Proofs.Regex.Carry
import Outline.Proofs.Regex.Parts
import Outline.Proofs.Regex.Row
import Outline.Proofs.Regex.Opens
import Outline.Proofs.Regex.Whole
import Outline.Proofs.Heading.Anchored
import Outline.Proofs.Text.Digits
import Outline.Proofs.Yaml.Inline
import Outline.Proofs.Yaml.Unquoted
import Outline.Proofs.Yaml.Steps
import Outline.Proofs.Yaml.Entry
import Outline.Proofs.Yaml.Typing
import Outline.Proofs.Yaml.Reread
import Outline.Proofs.Yaml.Kept
import Outline.Proofs.Rule.Formats
import Outline.Proofs.Template.Line
import Outline.Proofs.Schema.Writable
import Outline.Proofs.Template.Emit
import Outline.Proofs.Rule.Requests
import Outline.Proofs.Rule.Blocked
import Outline.Proofs.Document.Passages
import Outline.Proofs.Document.Slug
import Outline.Proofs.Binding.Anchor
import Outline.Proofs.Heading.Memory
import Outline.Proofs.Markdown.Spots
import Outline.Proofs.Markdown.Brackets
import Outline.Proofs.Markdown.Stretches
import Outline.Proofs.Document.Search
import Outline.Proofs.Document.LinkPlaces
import Outline.Proofs.Expr.Tiling
import Outline.Proofs.Rule.Repeats
import Outline.Proofs.Document.Events
import Outline.Proofs.Document.Blocks
import Outline.Proofs.Structure.Words
import Outline.Proofs.Document.Columns
import Outline.Proofs.Files.Documents
