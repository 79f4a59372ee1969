import Highlighter.Category
import Highlighter.Code
import Highlighter.Command
import Highlighter.Dict
import Highlighter.Error
import Highlighter.Fence
import Highlighter.Grammar.Compile
import Highlighter.Grammar.Document
import Highlighter.Grammar.Idiom
import Highlighter.Grammar.Machine
import Highlighter.Grammar.Rule
import Highlighter.Json.Basic
import Highlighter.Json.Printer
import Highlighter.Json.Reader
import Highlighter.Json.Schema
import Highlighter.Keywords
import Highlighter.Language.Co
import Highlighter.Main
import Highlighter.Markup
import Highlighter.Memo
import Highlighter.Pattern.Ascii
import Highlighter.Pattern.CharClass
import Highlighter.Pattern.ClassReader
import Highlighter.Pattern.Compile
import Highlighter.Pattern.Error
import Highlighter.Pattern.Escape
import Highlighter.Pattern.Folding
import Highlighter.Pattern.LookBehind
import Highlighter.Pattern.Program
import Highlighter.Pattern.Reader
import Highlighter.Pattern.Tree
import Highlighter.Proofs.Code
import Highlighter.Proofs.Fence
import Highlighter.Proofs.Grammar.Accounting
import Highlighter.Proofs.Grammar.Adding
import Highlighter.Proofs.Grammar.Building
import Highlighter.Proofs.Grammar.Cues
import Highlighter.Proofs.Grammar.Effective
import Highlighter.Proofs.Grammar.Entering
import Highlighter.Proofs.Grammar.Faithful
import Highlighter.Proofs.Grammar.Filling
import Highlighter.Proofs.Grammar.Following
import Highlighter.Proofs.Grammar.Idiom
import Highlighter.Proofs.Grammar.Image
import Highlighter.Proofs.Grammar.OpeningWords
import Highlighter.Proofs.Grammar.Outcome
import Highlighter.Proofs.Grammar.RoundTrip
import Highlighter.Proofs.Grammar.Spread
import Highlighter.Proofs.Grammar.Standing
import Highlighter.Proofs.Grammar.Tracking
import Highlighter.Proofs.Json.Schema
import Highlighter.Proofs.Json.Text
import Highlighter.Proofs.Keywords
import Highlighter.Proofs.Language.Co.Comments
import Highlighter.Proofs.Language.Co.Costs
import Highlighter.Proofs.Language.Co.Courses
import Highlighter.Proofs.Language.Co.FunctionTypes
import Highlighter.Proofs.Language.Co.HashComments
import Highlighter.Proofs.Language.Co.Parameters
import Highlighter.Proofs.Language.Co.Patterns
import Highlighter.Proofs.Language.Co.Remarks
import Highlighter.Proofs.Language.Co.Strings
import Highlighter.Proofs.Language.Co.Totality
import Highlighter.Proofs.Markup.Nesting
import Highlighter.Proofs.Markup.Page
import Highlighter.Proofs.Pattern.AsciiClasses
import Highlighter.Proofs.Pattern.Beginning
import Highlighter.Proofs.Pattern.Capturing
import Highlighter.Proofs.Pattern.ClassItems
import Highlighter.Proofs.Pattern.ClassUnion
import Highlighter.Proofs.Pattern.Consuming
import Highlighter.Proofs.Pattern.Elements
import Highlighter.Proofs.Pattern.Faults
import Highlighter.Proofs.Pattern.Forward
import Highlighter.Proofs.Pattern.Immediate
import Highlighter.Proofs.Pattern.Joining
import Highlighter.Proofs.Pattern.Leftmost
import Highlighter.Proofs.Pattern.Lexeme
import Highlighter.Proofs.Pattern.Lookahead
import Highlighter.Proofs.Pattern.OpeningWords
import Highlighter.Proofs.Pattern.Remarks
import Highlighter.Proofs.Pattern.Runs
import Highlighter.Proofs.Pattern.Signs
import Highlighter.Proofs.Pattern.Stops
import Highlighter.Proofs.Pattern.Stretch
import Highlighter.Proofs.Pattern.Suffix
import Highlighter.Proofs.Pattern.Ways
import Highlighter.Proofs.Registry
import Highlighter.Proofs.Registry.Catalog
import Highlighter.Proofs.Registry.Detection
import Highlighter.Proofs.Registry.Globals
import Highlighter.Proofs.Registry.Lines
import Highlighter.Proofs.Registry.Merging
import Highlighter.Proofs.Render.Attributes
import Highlighter.Proofs.Render.Html
import Highlighter.Proofs.Render.Lines
import Highlighter.Proofs.Render.Options
import Highlighter.Proofs.Render.Terminal
import Highlighter.Proofs.Scan.Alike
import Highlighter.Proofs.Scan.Buffer
import Highlighter.Proofs.Scan.Calls
import Highlighter.Proofs.Scan.Caseless
import Highlighter.Proofs.Scan.Checked
import Highlighter.Proofs.Scan.Classification
import Highlighter.Proofs.Scan.Closing
import Highlighter.Proofs.Scan.Compatible
import Highlighter.Proofs.Scan.Course
import Highlighter.Proofs.Scan.Credit
import Highlighter.Proofs.Scan.Emission
import Highlighter.Proofs.Scan.Ends
import Highlighter.Proofs.Scan.Forest
import Highlighter.Proofs.Scan.Found
import Highlighter.Proofs.Scan.Immediate
import Highlighter.Proofs.Scan.Kept
import Highlighter.Proofs.Scan.Loops
import Highlighter.Proofs.Scan.Partition
import Highlighter.Proofs.Scan.Progress
import Highlighter.Proofs.Scan.Raw
import Highlighter.Proofs.Scan.Record
import Highlighter.Proofs.Scan.Relevance
import Highlighter.Proofs.Scan.Reordering
import Highlighter.Proofs.Scan.Run
import Highlighter.Proofs.Scan.Safety
import Highlighter.Proofs.Scan.Settled
import Highlighter.Proofs.Scan.Sound
import Highlighter.Proofs.Scan.Spreading
import Highlighter.Proofs.Scan.Stack
import Highlighter.Proofs.Scan.Tariff
import Highlighter.Proofs.Scan.Vocabulary
import Highlighter.Proofs.Scan.Word
import Highlighter.Proofs.Text.AsciiCase
import Highlighter.Proofs.Text.Between
import Highlighter.Proofs.Text.ByteOrder
import Highlighter.Proofs.Text.Decimal
import Highlighter.Proofs.Text.Lines
import Highlighter.Proofs.Text.Lowercase
import Highlighter.Proofs.Text.Numeral
import Highlighter.Proofs.Text.Place
import Highlighter.Proofs.Text.Runs
import Highlighter.Proofs.Theme.Color
import Highlighter.Regex
import Highlighter.Registry
import Highlighter.Render.Html
import Highlighter.Render.Options
import Highlighter.Render.Terminal
import Highlighter.Scan.Output
import Highlighter.Scan.State
import Highlighter.Scan.Terminators
import Highlighter.Scan.Tokenizer
import Highlighter.Scan.Tokens
import Highlighter.Scan.Words
import Highlighter.Site.Config
import Highlighter.Site.Hook
import Highlighter.Site.Path
import Highlighter.Text.Alphabetic
import Highlighter.Text.Case
import Highlighter.Text.CaseTable
import Highlighter.Text.Cased
import Highlighter.Text.Cursor
import Highlighter.Text.Hidden
import Highlighter.Text.Letter
import Highlighter.Text.Mark
import Highlighter.Text.Number
import Highlighter.Text.Numeral
import Highlighter.Text.Property
import Highlighter.Text.Quoted
import Highlighter.Text.RangeTable
import Highlighter.Text.Split
import Highlighter.Theme.Basic
import Highlighter.Theme.Color
import Highlighter.Theme.Document
import Highlighter.Theme.FontStyle
import Highlighter.Theme.Stylesheet
