import Highlight1C.Command.Options
import Highlight1C.Command.Run
import Highlight1C.Config.Environment
import Highlight1C.Config.File
import Highlight1C.Config.Limits
import Highlight1C.Config.Preferences
import Highlight1C.Config.Profile
import Highlight1C.Fault
import Highlight1C.Files.FileSystem
import Highlight1C.Files.SourceFile
import Highlight1C.Files.Tree
import Highlight1C.Highlight
import Highlight1C.Json
import Highlight1C.Language
import Highlight1C.Lexer.Basic
import Highlight1C.Lexer.Lexicon
import Highlight1C.Lexer.Module
import Highlight1C.Lexer.ModuleWords
import Highlight1C.Lexer.Query
import Highlight1C.Lexer.QueryWords
import Highlight1C.Log.Code
import Highlight1C.Log.Collector
import Highlight1C.Log.Event
import Highlight1C.Log.Filter
import Highlight1C.Log.Level
import Highlight1C.Log.Record
import Highlight1C.Log.Service
import Highlight1C.Logging
import Highlight1C.Main
import Highlight1C.Number.Binary
import Highlight1C.Number.Fixed
import Highlight1C.Path
import Highlight1C.Pattern.Basic
import Highlight1C.Pattern.Mistake
import Highlight1C.Pattern.Parser
import Highlight1C.Pattern.Reading
import Highlight1C.Pattern.Tree
import Highlight1C.Position
import Highlight1C.Session
import Highlight1C.Source.Cursor
import Highlight1C.Source.LineMap
import Highlight1C.Text.Blank
import Highlight1C.Text.Bytes
import Highlight1C.Text.CaseTable
import Highlight1C.Text.Class
import Highlight1C.Text.HiddenTable
import Highlight1C.Text.LowerCase
import Highlight1C.Text.Paint
import Highlight1C.Text.Parts
import Highlight1C.Text.Plain
import Highlight1C.Text.Quoted
import Highlight1C.Text.Ranges
import Highlight1C.Text.Utf8
import Highlight1C.Token.Encoding
import Highlight1C.Token.Kind
import Highlight1C.Token.Listing
import Highlight1C.Token.Metrics
import Highlight1C.Token.Stream
import Highlight1C.Token.Violation
import Highlight1C.Toml.Document
import Highlight1C.Toml.Number
import Highlight1C.Toml.Tables
import Highlight1C.Toml.Text
import Highlight1C.Toml.Value
import Highlight1C.Proofs.Lexer
import Highlight1C.Proofs.Position
import Highlight1C.Proofs.ModuleLexer
import Highlight1C.Proofs.QueryLexer
import Highlight1C.Proofs.Scan
import Highlight1C.Proofs.Postings
import Highlight1C.Proofs.Spans
import Highlight1C.Proofs.Validity
import Highlight1C.Proofs.Cutting
import Highlight1C.Proofs.ModuleCutting
import Highlight1C.Proofs.Restart
import Highlight1C.Proofs.QueryNumbers
import Highlight1C.Proofs.QueryCutting
import Highlight1C.Proofs.Truncation
import Highlight1C.Proofs.Pieces
import Highlight1C.Proofs.Listing
import Highlight1C.Proofs.Doubling
import Highlight1C.Proofs.Groups
import Highlight1C.Proofs.Quoting
import Highlight1C.Proofs.QueryNames
import Highlight1C.Proofs.ModuleNames
import Highlight1C.Proofs.ModuleGrammar
import Highlight1C.Proofs.QueryErrors
import Highlight1C.Proofs.QueryGrammar
import Highlight1C.Proofs.LetterCase
import Highlight1C.Proofs.ModuleCase
import Highlight1C.Proofs.QueryCase
import Highlight1C.Proofs.Preferences
import Highlight1C.Proofs.Collector
import Highlight1C.Proofs.Summary
import Highlight1C.Proofs.ModuleTruncation
import Highlight1C.Proofs.QueryNumerals
import Highlight1C.Proofs.Levels
import Highlight1C.Proofs.Tally
import Highlight1C.Proofs.Completion
import Highlight1C.Proofs.Report
import Highlight1C.Proofs.Trace
import Highlight1C.Proofs.FileLog
import Highlight1C.Proofs.Capacity
import Highlight1C.Proofs.Figures
import Highlight1C.Proofs.WellFormed
import Highlight1C.Proofs.Utf8
import Highlight1C.Proofs.Reading
import Highlight1C.Proofs.Lines
import Highlight1C.Proofs.Carets
import Highlight1C.Proofs.WordSearch
import Highlight1C.Proofs.LineCounts
