import LexicalAnalysis.Alphabet
import LexicalAnalysis.Byte
import LexicalAnalysis.Cursor
import LexicalAnalysis.Diagnostic
import LexicalAnalysis.Excerpt
import LexicalAnalysis.Grammar.Basic
import LexicalAnalysis.Grammar.Munch
import LexicalAnalysis.Journal
import LexicalAnalysis.Keyword
import LexicalAnalysis.Kind
import LexicalAnalysis.Layout
import LexicalAnalysis.Lexeme
import LexicalAnalysis.Line.Basic
import LexicalAnalysis.Line.Lemmas
import LexicalAnalysis.Position
import LexicalAnalysis.Proofs.Alignment
import LexicalAnalysis.Proofs.Appending
import LexicalAnalysis.Proofs.Caret
import LexicalAnalysis.Proofs.Concatenation
import LexicalAnalysis.Proofs.Cursor
import LexicalAnalysis.Proofs.Display
import LexicalAnalysis.Proofs.Distinct
import LexicalAnalysis.Proofs.Exact
import LexicalAnalysis.Proofs.Header
import LexicalAnalysis.Proofs.Index
import LexicalAnalysis.Proofs.Journal
import LexicalAnalysis.Proofs.Lexeme
import LexicalAnalysis.Proofs.Line
import LexicalAnalysis.Proofs.LineBounds
import LexicalAnalysis.Proofs.LineEndings
import LexicalAnalysis.Proofs.Order
import LexicalAnalysis.Proofs.Position
import LexicalAnalysis.Proofs.Printing
import LexicalAnalysis.Proofs.Rendering
import LexicalAnalysis.Proofs.Rows
import LexicalAnalysis.Proofs.Scan
import LexicalAnalysis.Proofs.Segmentation
import LexicalAnalysis.Proofs.Session
import LexicalAnalysis.Proofs.ShownLine
import LexicalAnalysis.Proofs.Snippet
import LexicalAnalysis.Proofs.SnippetRange
import LexicalAnalysis.Proofs.Strays
import LexicalAnalysis.Proofs.Tiling
import LexicalAnalysis.Session
import LexicalAnalysis.Snippet
import LexicalAnalysis.Source
import LexicalAnalysis.Symbol
import LexicalAnalysis.Text.CharRange
import LexicalAnalysis.Text.Delimited
import LexicalAnalysis.Text.Escaped
import LexicalAnalysis.Text.Extending
import LexicalAnalysis.Text.Printable
import LexicalAnalysis.Text.Quoted
import LexicalAnalysis.Text.Unassigned
import LexicalAnalysis.Text.Unescaped
import LexicalAnalysis.Text.Unquoted
import LexicalAnalysis.Text.Utf8.Basic
import LexicalAnalysis.Text.Utf8.Encode
import LexicalAnalysis.Text.Utf8.Lemmas
import LexicalAnalysis.Text.Utf8.Segments
import LexicalAnalysis.Text.WhiteSpace
import LexicalAnalysis.Token
import LexicalAnalysis.TokenStream
import LexicalAnalysis.Traced
