import Highlight1C.Files.SourceFile
import Highlight1C.Session
import Highlight1C.Token.Encoding
import Highlight1C.Token.Violation

/-!
# Highlighting

Highlighting a source scans it, checks the stream, and warns about characters that no rule
recognised. Highlighting a file finds out its language, reads it and highlights its text.

This is a debug build, in which all checks are on. A release build leaves the check of the stream
out, and with it the events that `checkStream` logs; nothing else depends on that check.
-/

namespace Highlight1C

/-- Why a source cannot be highlighted. -/
inductive HighlightError where
  /-- The file cannot be read. -/
  | file (e : FileError)
  /-- The lexer stopped. -/
  | lexer (f : LexerFault)
  /-- The language of the file is not known. -/
  | unknownLanguage (path : String) (extension : Option String)
  deriving DecidableEq, Repr

namespace HighlightError

/-- What is said of a source that cannot be highlighted. -/
def message : HighlightError → String
  | .file e => s!"File processing failed: {e.message}"
  | .lexer f => s!"Scanning failed: {f.message}"
  | .unknownLanguage path (some extension) =>
    s!"No scanner for {path} (extension .{extension}; pass a language explicitly)"
  | .unknownLanguage path none =>
    s!"No scanner for {path} (no extension; pass a language explicitly)"

/-- The code of an event about a source that cannot be highlighted. -/
def code : HighlightError → Log.Code
  | .file e => e.code
  | .lexer f => f.code
  | .unknownLanguage _ _ => .unknownLanguage

end HighlightError

/-- A source that has been highlighted. -/
structure Highlight where
  language : Language
  tokens : TokenStream
  /-- The figures, if they were kept. -/
  metrics : Option Metrics
  /-- What is known about the file, if the source is one. -/
  info : Option FileInfo
  deriving DecidableEq, Repr

namespace Highlight

/-- The figures, counted now if they were not kept. -/
def metricsOrCount (h : Highlight) : Metrics :=
  h.metrics.getD (.ofStream h.tokens)

/-- Whether any character was not recognised. -/
def hasErrors (h : Highlight) : Bool :=
  h.tokens.tokens.any (·.kind == .error)

end Highlight

/-- What is known about a file as a JSON object. -/
def FileInfo.json (i : FileInfo) : Json :=
  .object [("path", .string i.path), ("size", .nat i.size), ("extension", .ofString? i.extension),
    ("line_count", .nat i.lineCount), ("had_bom", .bool i.hadMark)]

/-- A highlighted source as a JSON object, without the time it took. -/
def Highlight.fields (h : Highlight) : List (String × Json) :=
  [("language", .string h.language.name), ("tokens", h.tokens.json)] ++
    (h.metrics.map fun m => ("metrics", m.json)).toList ++
    (h.info.map fun i => ("metadata", i.json)).toList

/-- A highlighted source as a JSON object, with the milliseconds it took. -/
def Highlight.json (h : Highlight) (elapsed : String) : Json :=
  .object (h.fields ++ [("duration_ms", .number elapsed)])

/-- Logs whether a stream is well formed over its source. Only a debug build does so. -/
def checkStream (language : Language) (stream : TokenStream) (source : List Char)
    (logging : Logging) : Except Fault Logging := do
  match ← stream.validate source with
  | none =>
    return logging.success .streamValidated "Token stream validated"
      [("scanner", language.name), ("tokens", toString stream.length)]
  | some violation =>
    return logging.error .internalError "Malformed token stream" none
      [("scanner", language.name), ("violation", violation.message)]

/-- Warns about the characters that no rule recognised, if there are any. -/
def reportErrors (language : Language) (stream : TokenStream) (logging : Logging) : Logging :=
  match stream.errors with
  | [] => logging
  | first :: others =>
    logging.warning (some .unrecognizedCharacter) "Unrecognized characters in source"
      (some first.span)
      [("scanner", language.name), ("first", Text.escapeBare first.text),
       ("count", toString (others.length + 1))]

/-- Highlights a source. -/
def highlightSource (language : Language) (source : List Char) (preferences : ScannerPreferences)
    (logging : Logging) : Except Fault (Except HighlightError Highlight × Logging) := do
  match ← Session.scan language preferences preferences.collectMetrics source logging with
  | (.error fault, logging) => return (.error (.lexer fault), logging)
  | (.ok scan, logging) =>
    let logging ← checkStream language scan.stream source logging
    let logging := reportErrors language scan.stream logging
    return (.ok ⟨language, scan.stream, scan.metrics, none⟩, logging)

/-- Highlights a file, in the given language or else in that of its extension. -/
def highlightFile (fs : FileSystem) (path : String) (language : Option Language)
    (preferences : ScannerPreferences) (logging : Logging) :
    Except Fault (Except HighlightError Highlight × Logging) := do
  match language.or (Language.ofPath? path) with
  | none =>
    let e := HighlightError.unknownLanguage path (Path.extension? path)
    return (.error e, logging.error e.code e.message none [])
  | some language =>
    let logging := logging.debug "Highlighting file" none
      [("file", path), ("language", language.name)]
    match SourceFile.load fs path true logging with
    | (.error e, logging) => return (.error (.file e), logging)
    | (.ok file, logging) =>
      match ← highlightSource language file.text preferences logging with
      | (.error e, logging) => return (.error e, logging)
      | (.ok highlight, logging) =>
        let logging := logging.success .fileDone "File highlighted"
          [("file", path), ("language", language.name),
           ("tokens", toString highlight.tokens.length),
           ("duration_ms", logging.clock.elapsed)]
        return (.ok { highlight with info := some file.info }, logging)

end Highlight1C
