import SvelteStories.Additions.Binding
import SvelteStories.Additions.Exports
import SvelteStories.Additions.Parameters
import SvelteStories.Compiled.Module
import SvelteStories.Compiled.Pairing
import SvelteStories.Compiled.StoryCall
import SvelteStories.Edit
import SvelteStories.Fault
import SvelteStories.Markup.Attributes
import SvelteStories.Markup.Brace
import SvelteStories.Markup.Document
import SvelteStories.Markup.MarkupFault
import SvelteStories.Markup.Node
import SvelteStories.Markup.Place
import SvelteStories.Markup.Template
import SvelteStories.Options
import SvelteStories.Script.Build
import SvelteStories.Script.Comment
import SvelteStories.Script.Escape
import SvelteStories.Script.Gap
import SvelteStories.Script.Layout
import SvelteStories.Script.Lexer
import SvelteStories.Script.Moved
import SvelteStories.Script.Numeral
import SvelteStories.Script.Parser.Chains
import SvelteStories.Script.Parser.Classes
import SvelteStories.Script.Parser.Context
import SvelteStories.Script.Parser.Cursor
import SvelteStories.Script.Parser.Declarations
import SvelteStories.Script.Parser.Exports
import SvelteStories.Script.Parser.Functions
import SvelteStories.Script.Parser.Grammar
import SvelteStories.Script.Parser.Imports
import SvelteStories.Script.Parser.Modules
import SvelteStories.Script.Parser.Operands
import SvelteStories.Script.Parser.Operators
import SvelteStories.Script.Parser.Parentheses
import SvelteStories.Script.Parser.Patterns
import SvelteStories.Script.Parser.Statements
import SvelteStories.Script.Parser.Targets
import SvelteStories.Script.Parser.Types
import SvelteStories.Script.Printer
import SvelteStories.Script.Static
import SvelteStories.Script.Syntax
import SvelteStories.Script.SyntaxFault
import SvelteStories.Script.Token
import SvelteStories.Service
import SvelteStories.Service.Batch
import SvelteStories.Service.Workers
import SvelteStories.Source
import SvelteStories.Story.Description
import SvelteStories.Story.Id
import SvelteStories.Story.Index
import SvelteStories.Story.Literals
import SvelteStories.Story.MetaFunction
import SvelteStories.Story.Name
import SvelteStories.Story.Stories
import SvelteStories.Story.StoriesFile
import SvelteStories.Story.Tags
import SvelteStories.Text.CaseTable
import SvelteStories.Text.Casing
import SvelteStories.Text.CharClass
import SvelteStories.Text.CharTable
import SvelteStories.Text.Decimal
import SvelteStories.Text.Lines
import SvelteStories.Text.Quoted
import SvelteStories.Text.Span
import SvelteStories.Text.Visible
import SvelteStories.Transform.ComponentCompiler
import SvelteStories.Transform.Hooks
import SvelteStories.Transform.Preparation
import SvelteStories.Transform.StoriesModule
import SvelteStories.Proofs.Edit.Finish
import SvelteStories.Proofs.Edit.Order
import SvelteStories.Proofs.Text.Bytes
import SvelteStories.Proofs.Markup.Code
import SvelteStories.Proofs.Markup.Document
import SvelteStories.Proofs.Markup.Written
import SvelteStories.Proofs.Text.Trim
import SvelteStories.Proofs.Markup.ClosingBrace
import SvelteStories.Proofs.Transform.StoriesModule
import SvelteStories.Proofs.Markup.OpeningTags
import SvelteStories.Proofs.Markup.ReadBack
import SvelteStories.Proofs.Story.Stretches
import SvelteStories.Proofs.Story.Covers
import SvelteStories.Proofs.Story.Attachment
import SvelteStories.Proofs.Story.Comments
import SvelteStories.Proofs.Additions.Kept
import SvelteStories.Proofs.Script.Gaps
import SvelteStories.Proofs.Script.Readers
import SvelteStories.Proofs.Script.Unplaced
import SvelteStories.Proofs.Script.Properties
import SvelteStories.Proofs.Script.Objects
import SvelteStories.Proofs.Additions.Layout
import SvelteStories.Proofs.Additions.Agreement
import SvelteStories.Proofs.Additions.Runs
import SvelteStories.Proofs.Additions.MergedProps
import SvelteStories.Proofs.Script.Operands
import SvelteStories.Proofs.Story.ReadOff
import SvelteStories.Proofs.Script.Names
import SvelteStories.Proofs.Story.Ids
import SvelteStories.Proofs.Transform.Assignment
import SvelteStories.Proofs.Transform.ModuleNames
import SvelteStories.Proofs.Story.Nesting
import SvelteStories.Proofs.Story.Walk
import SvelteStories.Proofs.Text.Literal
import SvelteStories.Proofs.Story.RawCode
import SvelteStories.Proofs.Compiled.Lowering
import SvelteStories.Proofs.Transform.Lowering
import SvelteStories.Proofs.Script.Moved
import SvelteStories.Proofs.Script.Alike
import SvelteStories.Proofs.Markup.Copied
import SvelteStories.Proofs.Markup.Outline
import SvelteStories.Proofs.Markup.Relocation
import SvelteStories.Proofs.Markup.Replacement
import SvelteStories.Proofs.Markup.Pieces
import SvelteStories.Proofs.Markup.Components
import SvelteStories.Proofs.Markup.Surroundings
import SvelteStories.Proofs.Markup.Expressions
import SvelteStories.Proofs.Story.ReplacedScript
import SvelteStories.Proofs.Story.Relocated
import SvelteStories.Proofs.Transform.Restated
import SvelteStories.Proofs.Transform.Preparation
import SvelteStories.Proofs.Transform.Hooks
import SvelteStories.Proofs.Transform.Declarations
import SvelteStories.Proofs.Story.Tags
import SvelteStories.Proofs.Additions.Binding
import SvelteStories.Proofs.Additions.Commas
import SvelteStories.Proofs.Script.Subtree
import SvelteStories.Proofs.Compiled.Collected
import SvelteStories.Proofs.Story.DisplayNames
import SvelteStories.Proofs.Story.Registry
import SvelteStories.Proofs.Text.CharRanges
import SvelteStories.Proofs.Story.Capitals
import SvelteStories.Proofs.Script.Words
import SvelteStories.Proofs.Script.Tokens
import SvelteStories.Proofs.Script.Members
import SvelteStories.Proofs.Story.DerivedNames
import SvelteStories.Proofs.Script.NamedItems
import SvelteStories.Proofs.Story.Identifiers
import SvelteStories.Proofs.Transform.StoryExports
import SvelteStories.Proofs.Story.Slugs
import SvelteStories.Proofs.Text.Lines
import SvelteStories.Proofs.Text.Dedent
import SvelteStories.Proofs.Story.Descriptions
import SvelteStories.Proofs.Transform.Preprocessors
import SvelteStories.Proofs.Text.Positions
import SvelteStories.Proofs.Service.Reports
import SvelteStories.Proofs.Service.Workers
import SvelteStories.Proofs.Markup.TagText
import SvelteStories.Proofs.Markup.EveryElement
import SvelteStories.Proofs.Script.Passing
import SvelteStories.Proofs.Script.Dynamic
import SvelteStories.Proofs.Script.StaticForms
import SvelteStories.Proofs.Script.StaticGrammar
import SvelteStories.Proofs.Script.Escapes
import SvelteStories.Proofs.Script.LiteralText
import SvelteStories.Proofs.Story.StaticAttributes
import SvelteStories.Proofs.Cursor.Templates
import SvelteStories.Proofs.Service.ErrorCodes
import SvelteStories.Proofs.Story.Words
