import ScriptSyntax.Diagnostic.Basic
import ScriptSyntax.Diagnostic.Log
import ScriptSyntax.Diagnostic.Message
import ScriptSyntax.Diagnostic.Report
import ScriptSyntax.Directive.Basic
import ScriptSyntax.Directive.Form
import ScriptSyntax.Directive.Read
import ScriptSyntax.Documentation.Collect
import ScriptSyntax.Documentation.Comment
import ScriptSyntax.File.Basic
import ScriptSyntax.File.Describe
import ScriptSyntax.File.Parse
import ScriptSyntax.Flags
import ScriptSyntax.Grammar.Arrows
import ScriptSyntax.Grammar.Bindings
import ScriptSyntax.Grammar.Classes
import ScriptSyntax.Grammar.Declarations
import ScriptSyntax.Grammar.Expressions
import ScriptSyntax.Grammar.File
import ScriptSyntax.Grammar.Functions
import ScriptSyntax.Grammar.Jsx
import ScriptSyntax.Grammar.ListContext
import ScriptSyntax.Grammar.Lists
import ScriptSyntax.Grammar.Modules
import ScriptSyntax.Grammar.Names
import ScriptSyntax.Grammar.Operands
import ScriptSyntax.Grammar.Parser
import ScriptSyntax.Grammar.Precedence
import ScriptSyntax.Grammar.Productions
import ScriptSyntax.Grammar.Signatures
import ScriptSyntax.Grammar.Starts
import ScriptSyntax.Grammar.Statements
import ScriptSyntax.Grammar.Types
import ScriptSyntax.Kind.Basic
import ScriptSyntax.Kind.Class
import ScriptSyntax.Kind.Spelling
import ScriptSyntax.Options.Basic
import ScriptSyntax.Options.Json
import ScriptSyntax.Path
import ScriptSyntax.Proofs.Clean.Errors
import ScriptSyntax.Proofs.Clean.Expressions
import ScriptSyntax.Proofs.Clean.Functions
import ScriptSyntax.Proofs.Clean.Jsx
import ScriptSyntax.Proofs.Clean.Lists
import ScriptSyntax.Proofs.Clean.Modules
import ScriptSyntax.Proofs.Clean.Operands
import ScriptSyntax.Proofs.Clean.Reading
import ScriptSyntax.Proofs.Clean.Rules
import ScriptSyntax.Proofs.Clean.Signatures
import ScriptSyntax.Proofs.Clean.Statements
import ScriptSyntax.Proofs.Clean.Types
import ScriptSyntax.Proofs.Diagnostic.Log
import ScriptSyntax.Proofs.Diagnostic.Template
import ScriptSyntax.Proofs.File.ArrowFunction
import ScriptSyntax.Proofs.File.Diagnostics
import ScriptSyntax.Proofs.File.Documentation
import ScriptSyntax.Proofs.File.EntityName
import ScriptSyntax.Proofs.File.Identifiers
import ScriptSyntax.Proofs.File.JsxAttribute
import ScriptSyntax.Proofs.File.JsxExpression
import ScriptSyntax.Proofs.File.Lawful
import ScriptSyntax.Proofs.File.Nodes
import ScriptSyntax.Proofs.File.OneStatement
import ScriptSyntax.Proofs.File.OperatorRow
import ScriptSyntax.Proofs.File.Parse
import ScriptSyntax.Proofs.File.ScriptKinds
import ScriptSyntax.Proofs.File.Shape
import ScriptSyntax.Proofs.File.Silent
import ScriptSyntax.Proofs.File.TagPair
import ScriptSyntax.Proofs.File.TemplateLiteral
import ScriptSyntax.Proofs.File.TypeAlias
import ScriptSyntax.Proofs.Grammar.ArrowFunctions
import ScriptSyntax.Proofs.Grammar.Arrows
import ScriptSyntax.Proofs.Grammar.Bindings
import ScriptSyntax.Proofs.Grammar.Calls
import ScriptSyntax.Proofs.Grammar.Classes
import ScriptSyntax.Proofs.Grammar.Climbing
import ScriptSyntax.Proofs.Grammar.Covering
import ScriptSyntax.Proofs.Grammar.Declarations
import ScriptSyntax.Proofs.Grammar.Endings
import ScriptSyntax.Proofs.Grammar.Expressions
import ScriptSyntax.Proofs.Grammar.File
import ScriptSyntax.Proofs.Grammar.Finishing
import ScriptSyntax.Proofs.Grammar.Functions
import ScriptSyntax.Proofs.Grammar.Jsx
import ScriptSyntax.Proofs.Grammar.JsxAttributes
import ScriptSyntax.Proofs.Grammar.JsxOperands
import ScriptSyntax.Proofs.Grammar.JsxTrees
import ScriptSyntax.Proofs.Grammar.KnownLists
import ScriptSyntax.Proofs.Grammar.Lists
import ScriptSyntax.Proofs.Grammar.LoneOperands
import ScriptSyntax.Proofs.Grammar.Modules
import ScriptSyntax.Proofs.Grammar.Names
import ScriptSyntax.Proofs.Grammar.Operands
import ScriptSyntax.Proofs.Grammar.ParameterLists
import ScriptSyntax.Proofs.Grammar.Productions
import ScriptSyntax.Proofs.Grammar.Quiet
import ScriptSyntax.Proofs.Grammar.Reading
import ScriptSyntax.Proofs.Grammar.Run
import ScriptSyntax.Proofs.Grammar.Scouting
import ScriptSyntax.Proofs.Grammar.Searching
import ScriptSyntax.Proofs.Grammar.Sequences
import ScriptSyntax.Proofs.Grammar.Signatures
import ScriptSyntax.Proofs.Grammar.Starts
import ScriptSyntax.Proofs.Grammar.Statements
import ScriptSyntax.Proofs.Grammar.Steps
import ScriptSyntax.Proofs.Grammar.TagNames
import ScriptSyntax.Proofs.Grammar.TagPairs
import ScriptSyntax.Proofs.Grammar.Templates
import ScriptSyntax.Proofs.Grammar.Trials
import ScriptSyntax.Proofs.Grammar.TypeTerms
import ScriptSyntax.Proofs.Grammar.TypeTrials
import ScriptSyntax.Proofs.Grammar.Types
import ScriptSyntax.Proofs.Grammar.Way
import ScriptSyntax.Proofs.Orderly.Blocks
import ScriptSyntax.Proofs.Orderly.Expressions
import ScriptSyntax.Proofs.Orderly.Rules
import ScriptSyntax.Proofs.Orderly.Signatures
import ScriptSyntax.Proofs.Orderly.Starts
import ScriptSyntax.Proofs.Orderly.Statements
import ScriptSyntax.Proofs.Orderly.Types
import ScriptSyntax.Proofs.Path
import ScriptSyntax.Proofs.Text.Bytes
import ScriptSyntax.Proofs.Text.Lines
import ScriptSyntax.Proofs.Text.NameTable
import ScriptSyntax.Proofs.Token.AttributeValue
import ScriptSyntax.Proofs.Token.Bounds
import ScriptSyntax.Proofs.Token.Closed
import ScriptSyntax.Proofs.Token.EscapeForms
import ScriptSyntax.Proofs.Token.EscapedWord
import ScriptSyntax.Proofs.Token.Excerpt
import ScriptSyntax.Proofs.Token.Extent
import ScriptSyntax.Proofs.Token.KeywordMark
import ScriptSyntax.Proofs.Token.Kinds
import ScriptSyntax.Proofs.Token.LineBreak
import ScriptSyntax.Proofs.Token.LoneToken
import ScriptSyntax.Proofs.Token.LongestMatch
import ScriptSyntax.Proofs.Token.MergeConflict
import ScriptSyntax.Proofs.Token.Numeral
import ScriptSyntax.Proofs.Token.Placed
import ScriptSyntax.Proofs.Token.Punctuation
import ScriptSyntax.Proofs.Token.RegularExpression
import ScriptSyntax.Proofs.Token.Scans
import ScriptSyntax.Proofs.Token.Session
import ScriptSyntax.Proofs.Token.Spelling
import ScriptSyntax.Proofs.Token.Start
import ScriptSyntax.Proofs.Token.Stream
import ScriptSyntax.Proofs.Token.StringLiteral
import ScriptSyntax.Proofs.Token.TagName
import ScriptSyntax.Proofs.Tree.Falls
import ScriptSyntax.Proofs.Tree.Forest
import ScriptSyntax.Proofs.Tree.JsxTree
import ScriptSyntax.Proofs.Tree.Lawful
import ScriptSyntax.Proofs.Tree.Links
import ScriptSyntax.Proofs.Tree.Operators
import ScriptSyntax.Proofs.Tree.Parameter
import ScriptSyntax.Proofs.Tree.Sound
import ScriptSyntax.Proofs.Tree.Stamp
import ScriptSyntax.Proofs.Tree.Template
import ScriptSyntax.Proofs.Tree.Tiling
import ScriptSyntax.Proofs.Tree.TypeTerm
import ScriptSyntax.Proofs.Tree.Visit
import ScriptSyntax.Proofs.Tree.Walk
import ScriptSyntax.Proofs.Trivia.Comments
import ScriptSyntax.Proofs.Trivia.Excerpt
import ScriptSyntax.Proofs.Trivia.Gap
import ScriptSyntax.Proofs.Trivia.LineStop
import ScriptSyntax.Proofs.Trivia.Path
import ScriptSyntax.Text.CharClass
import ScriptSyntax.Text.IdentifierRanges
import ScriptSyntax.Text.LineMap
import ScriptSyntax.Text.NameTable
import ScriptSyntax.Text.Prose
import ScriptSyntax.Text.Replace
import ScriptSyntax.Text.Source
import ScriptSyntax.Text.Span
import ScriptSyntax.Text.Walk
import ScriptSyntax.Token.Basic
import ScriptSyntax.Token.Escape
import ScriptSyntax.Token.Number
import ScriptSyntax.Token.Punctuation
import ScriptSyntax.Token.Quoted
import ScriptSyntax.Token.Rescan
import ScriptSyntax.Token.Scan
import ScriptSyntax.Token.Scanner
import ScriptSyntax.Token.Stream
import ScriptSyntax.Token.Word
import ScriptSyntax.Tree.Arena
import ScriptSyntax.Tree.Fields
import ScriptSyntax.Tree.Node
import ScriptSyntax.Tree.Shape
import ScriptSyntax.Tree.Visit
import ScriptSyntax.Tree.Walk
import ScriptSyntax.Trivia.Comment
import ScriptSyntax.Trivia.Extent
import ScriptSyntax.Trivia.Skip
import ScriptSyntax.Proofs.Documentation.TypeTag
import ScriptSyntax.Proofs.Token.JsxText
