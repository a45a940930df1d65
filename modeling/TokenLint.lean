import TokenLint.Analysis
import TokenLint.Codemod
import TokenLint.Codemod.Badge
import TokenLint.Codemod.Button
import TokenLint.Codemod.Catalog
import TokenLint.Codemod.HexColor
import TokenLint.Codemod.Layout
import TokenLint.Codemod.LegacyToken
import TokenLint.Color
import TokenLint.Command.Invocation
import TokenLint.Command.Parameter
import TokenLint.Command.Run
import TokenLint.Command.Starter
import TokenLint.Config
import TokenLint.Config.Discovery
import TokenLint.Config.Resolver
import TokenLint.Edit
import TokenLint.Element
import TokenLint.FileTree
import TokenLint.Glob.Match
import TokenLint.Glob.Parse
import TokenLint.Glob.PathMatcher
import TokenLint.Guard.Scan
import TokenLint.Guard.Sweep
import TokenLint.IgnoreFile
import TokenLint.Json.Comment
import TokenLint.Json.Printer
import TokenLint.Json.Reader
import TokenLint.Json.Value
import TokenLint.Main
import TokenLint.Migration
import TokenLint.NamedImport
import TokenLint.Path
import TokenLint.Pattern
import TokenLint.Pattern.Bracket
import TokenLint.Pattern.CharSet
import TokenLint.Pattern.Escape
import TokenLint.Pattern.Fault
import TokenLint.Pattern.Match
import TokenLint.Pattern.Meaning
import TokenLint.Pattern.Parse
import TokenLint.Pattern.Property
import TokenLint.Pattern.Reader
import TokenLint.Pattern.Term
import TokenLint.Proofs.Analysis
import TokenLint.Proofs.Codemod.Component
import TokenLint.Proofs.Codemod.Conflict
import TokenLint.Proofs.Codemod.Frame
import TokenLint.Proofs.Codemod.Group
import TokenLint.Proofs.Codemod.HexColor
import TokenLint.Proofs.Codemod.HexColor.Comment
import TokenLint.Proofs.Codemod.HexColor.Hidden
import TokenLint.Proofs.Codemod.HexColor.Scan
import TokenLint.Proofs.Codemod.HexColor.SecondRun
import TokenLint.Proofs.Codemod.HexColor.Unreported
import TokenLint.Proofs.Codemod.HexColor.Wrapped
import TokenLint.Proofs.Codemod.Layout.Enclosed
import TokenLint.Proofs.Codemod.Layout.Insertions
import TokenLint.Proofs.Codemod.Layout.Leftover
import TokenLint.Proofs.Codemod.Layout.SecondRun
import TokenLint.Proofs.Codemod.LegacyToken.Chain
import TokenLint.Proofs.Codemod.LegacyToken.Reference
import TokenLint.Proofs.Codemod.Settled
import TokenLint.Proofs.Config.Cache
import TokenLint.Proofs.Edit.Apply
import TokenLint.Proofs.Edit.ConflictFree
import TokenLint.Proofs.Edit.Image
import TokenLint.Proofs.Edit.OneByOne
import TokenLint.Proofs.Edit.Spread
import TokenLint.Proofs.Element.Reading
import TokenLint.Proofs.FileTree.Put
import TokenLint.Proofs.FileTree.WellFormed
import TokenLint.Proofs.Guard.Bracketed
import TokenLint.Proofs.Guard.Color
import TokenLint.Proofs.Guard.Segment
import TokenLint.Proofs.Json.BlockPass
import TokenLint.Proofs.Json.Comments
import TokenLint.Proofs.Json.Deletion
import TokenLint.Proofs.Json.HashPass
import TokenLint.Proofs.Json.Spacing
import TokenLint.Proofs.Json.Spacing.Number
import TokenLint.Proofs.Json.Spacing.String
import TokenLint.Proofs.Json.Spelling
import TokenLint.Proofs.Json.Strip
import TokenLint.Proofs.Migration.Changed
import TokenLint.Proofs.Migration.Commit
import TokenLint.Proofs.Migration.Transform
import TokenLint.Proofs.NamedImport.Binding
import TokenLint.Proofs.NamedImport.Directive
import TokenLint.Proofs.NamedImport.EachOnce
import TokenLint.Proofs.NamedImport.Extended
import TokenLint.Proofs.NamedImport.Quoted
import TokenLint.Proofs.NamedImport.Reach
import TokenLint.Proofs.NamedImport.Revised
import TokenLint.Proofs.NamedImport.SecondCall
import TokenLint.Proofs.Path.Canonical
import TokenLint.Proofs.Rule.ClassPiece
import TokenLint.Proofs.Rule.ClosedBracket
import TokenLint.Proofs.Rule.ConfigChange
import TokenLint.Proofs.Rule.RawColor
import TokenLint.Proofs.Source.Address
import TokenLint.Proofs.Source.Clear
import TokenLint.Proofs.Source.Nesting
import TokenLint.Proofs.Source.Spelling
import TokenLint.Proofs.Source.Tiling
import TokenLint.Proofs.Source.Walk
import TokenLint.Proofs.Source.WellFormed
import TokenLint.Proofs.Targets
import TokenLint.Report.Listing
import TokenLint.Report.Snippet
import TokenLint.Rule
import TokenLint.Rule.ArbitraryValue
import TokenLint.Rule.Attribute
import TokenLint.Rule.ClassString
import TokenLint.Rule.Preset
import TokenLint.Rule.RawColor
import TokenLint.Source
import TokenLint.Source.Grammar.Expression
import TokenLint.Source.Grammar.Function
import TokenLint.Source.Grammar.Goal
import TokenLint.Source.Grammar.Markup
import TokenLint.Source.Grammar.Statement
import TokenLint.Source.Grammar.Target
import TokenLint.Source.Grammar.TypeExpr
import TokenLint.Source.Indent
import TokenLint.Source.Literal
import TokenLint.Source.Node
import TokenLint.Source.Reader
import TokenLint.Source.Token
import TokenLint.Source.TreeCursor
import TokenLint.Targets
import TokenLint.Text
import TokenLint.Text.Break
import TokenLint.Text.BreakClass
import TokenLint.Text.Category
import TokenLint.Text.Folding
import TokenLint.Text.Property
import TokenLint.Text.Runs
import TokenLint.Text.Script
import TokenLint.Text.Utf8
import TokenLint.Text.Width
import TokenLint.Text.Wrap
import TokenLint.UtilityClass
import TokenLint.Violation
