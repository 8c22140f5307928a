import Docblock.Automaton.Run
import Docblock.Automaton.Table
import Docblock.Docs.Comment
import Docblock.Docs.Directive
import Docblock.Docs.Entry
import Docblock.Docs.Files
import Docblock.Docs.Session
import Docblock.Docs.Signature
import Docblock.Grammar.Declaration
import Docblock.Grammar.Expression
import Docblock.Grammar.Literal
import Docblock.Grammar.Precedence
import Docblock.Grammar.Production
import Docblock.Grammar.Statement
import Docblock.Grammar.Symbol
import Docblock.Install.Options
import Docblock.Install.Plan
import Docblock.Listing
import Docblock.Main
import Docblock.Number.Decimal
import Docblock.Number.Double
import Docblock.Number.Shortest
import Docblock.Prompt
import Docblock.Proofs.Automaton.Append
import Docblock.Proofs.Automaton.Bodies
import Docblock.Proofs.Automaton.Ending
import Docblock.Proofs.Automaton.Fragment
import Docblock.Proofs.Automaton.Graft
import Docblock.Proofs.Automaton.Literals
import Docblock.Proofs.Automaton.Namespace
import Docblock.Proofs.Automaton.Numbers
import Docblock.Proofs.Automaton.Operators
import Docblock.Proofs.Automaton.Origin
import Docblock.Proofs.Automaton.Progress
import Docblock.Proofs.Automaton.Region
import Docblock.Proofs.Automaton.Run
import Docblock.Proofs.Automaton.Statement
import Docblock.Proofs.Chains
import Docblock.Proofs.Colons
import Docblock.Proofs.Comments
import Docblock.Proofs.Conditionals
import Docblock.Proofs.Docs.Agreement
import Docblock.Proofs.Docs.Asides
import Docblock.Proofs.Docs.Comment
import Docblock.Proofs.Docs.Describe
import Docblock.Proofs.Docs.Documentable
import Docblock.Proofs.Docs.Files
import Docblock.Proofs.Docs.Heads
import Docblock.Proofs.Docs.Namespaces
import Docblock.Proofs.Docs.Options
import Docblock.Proofs.Docs.Placement
import Docblock.Proofs.Docs.Privacy
import Docblock.Proofs.Docs.Recall
import Docblock.Proofs.Docs.Report
import Docblock.Proofs.Docs.Session
import Docblock.Proofs.Docs.Signature
import Docblock.Proofs.Docs.Targets
import Docblock.Proofs.Docs.Thinning
import Docblock.Proofs.Docs.Total
import Docblock.Proofs.Facets
import Docblock.Proofs.Grammar.Balance
import Docblock.Proofs.Grammar.Chain
import Docblock.Proofs.Grammar.Climbing
import Docblock.Proofs.Grammar.Comments
import Docblock.Proofs.Grammar.Conservation
import Docblock.Proofs.Grammar.Derivation
import Docblock.Proofs.Grammar.Fault
import Docblock.Proofs.Grammar.Invariant
import Docblock.Proofs.Grammar.Making
import Docblock.Proofs.Grammar.Members
import Docblock.Proofs.Grammar.Position
import Docblock.Proofs.Grammar.Quiet
import Docblock.Proofs.Grammar.Reading
import Docblock.Proofs.Grammar.Size
import Docblock.Proofs.Grammar.Staging
import Docblock.Proofs.Heredoc
import Docblock.Proofs.History
import Docblock.Proofs.Integers
import Docblock.Proofs.Interpolation
import Docblock.Proofs.Labels
import Docblock.Proofs.Lines
import Docblock.Proofs.Modifiers
import Docblock.Proofs.Places
import Docblock.Proofs.Prompt
import Docblock.Proofs.Prototype.Basic
import Docblock.Proofs.Prototype.Grammar
import Docblock.Proofs.Prototype.Source
import Docblock.Proofs.Prototype.Tokens
import Docblock.Proofs.Quotes
import Docblock.Proofs.Result
import Docblock.Proofs.Scalars
import Docblock.Proofs.Scopes
import Docblock.Proofs.Script.Behaviour
import Docblock.Proofs.Script.Bodies
import Docblock.Proofs.Script.Calls
import Docblock.Proofs.Script.Defaults
import Docblock.Proofs.Script.Expression
import Docblock.Proofs.Script.Format
import Docblock.Proofs.Script.Loops
import Docblock.Proofs.Script.Staging
import Docblock.Proofs.Script.Statement
import Docblock.Proofs.Script.Suites
import Docblock.Proofs.Signatures
import Docblock.Proofs.Source
import Docblock.Proofs.StaticScalars
import Docblock.Proofs.Token.Above
import Docblock.Proofs.Token.Comment
import Docblock.Proofs.Token.Filter
import Docblock.Proofs.Token.Frame
import Docblock.Proofs.Token.Keyword
import Docblock.Proofs.Token.Lexing
import Docblock.Proofs.Token.Line
import Docblock.Proofs.Token.Modes
import Docblock.Proofs.Token.Name
import Docblock.Proofs.Token.Nesting
import Docblock.Proofs.Token.Pattern
import Docblock.Proofs.Token.Semicolon
import Docblock.Proofs.Token.Spelling
import Docblock.Proofs.Token.Steady
import Docblock.Proofs.Token.Transducer
import Docblock.Proofs.Token.View
import Docblock.Proofs.Tree.Comments
import Docblock.Proofs.Tree.Content
import Docblock.Proofs.Tree.Equality
import Docblock.Proofs.Tree.Layout
import Docblock.Proofs.Tree.Lines
import Docblock.Proofs.Tree.Magic
import Docblock.Proofs.Tree.Renaming
import Docblock.Proofs.Tree.Shape
import Docblock.Proofs.Tree.Visit
import Docblock.Proofs.Visiting
import Docblock.Script.Basic
import Docblock.Script.Convert
import Docblock.Script.Part
import Docblock.Source
import Docblock.Text.Character
import Docblock.Text.Escape
import Docblock.Text.Part
import Docblock.Text.Quoted
import Docblock.Text.Utf8
import Docblock.Text.Word
import Docblock.Token.Basic
import Docblock.Token.Keyword
import Docblock.Token.Kind
import Docblock.Token.Lexer
import Docblock.Token.Pattern
import Docblock.Token.Rule
import Docblock.Token.Session
import Docblock.Token.Stream
import Docblock.Tree.Basic
import Docblock.Tree.Equality
import Docblock.Tree.Kind
import Docblock.Tree.Magic
import Docblock.Tree.Outline
import Docblock.Tree.Visit
