import Highlight1C.Language
import Highlight1C.Logging
import Highlight1C.Text.Quoted
import Highlight1C.Token.Metrics

/-!
# Scanning a source

A session puts what a lexer writes into its places, one piece after the other: each token starts where
the one before it ended. On the way it counts, keeps figures if that is wanted, and logs the characters
that no rule recognises, up to a limit.

* `Session.scan`: a source as a stream of tokens;
* `tokenize`: the same, without figures and without a log.
-/

namespace Highlight1C

/-- A lexer stopped because no rule applied. -/
structure LexerFault where
  /-- The character that it stopped at. -/
  lookahead : Option Char
  /-- Where it stopped, in bytes. -/
  offset : Nat
  /-- Whether it stopped within a string. -/
  mode : Mode
  /-- The tokens written before. -/
  tokens : Nat
  deriving DecidableEq, Repr

/-- What is said of a lexer that stopped. -/
def LexerFault.message (f : LexerFault) : String :=
  let lookahead := match f.lookahead with
    | some c => Text.quoteChar c
    | none => "end of input"
  s!"Internal scanner fault in {f.mode.name} state at byte {f.offset}: no rule matches {lookahead} ({f.tokens} tokens emitted)"

/-- The code of an event about a lexer that stopped. -/
def LexerFault.code (_ : LexerFault) : Log.Code := .lexerFault

/-- A scan that is going on. -/
structure Session where
  logging : Logging
  /-- Where the next token starts. -/
  position : Position := .start
  /-- What has been written, the last piece first. -/
  written : List (Piece Token) := []
  /-- How many tokens have been written. -/
  tokens : Nat := 0
  /-- How many of them no rule recognised. -/
  errors : Nat := 0
  /-- The figures, if they are kept. -/
  metrics : Option Metrics := none

/-- What a scan yields. -/
structure Scan where
  stream : TokenStream
  /-- The figures, if they were kept. -/
  metrics : Option Metrics
  deriving DecidableEq, Repr

namespace Session

/-- Writes a piece. -/
def put (s : Session) (p : Piece Token) : Session :=
  { s with written := p :: s.written, metrics := s.metrics.map (·.add p) }

/-- Counts a character that no rule recognised, and logs it: one by one up to the limit, then once
more to say that the others are not logged. -/
def noteError (s : Session) (language : Language) (preferences : ScannerPreferences) (t : Token) :
    Session :=
  let errors := s.errors + 1
  let limit := Limits.current.maxErrorTokensLogged
  let logging :=
    if !preferences.logErrorTokens then s.logging
    else if errors ≤ limit then
      s.logging.debug "Unrecognized character" (some t.span)
        [("code", Log.Code.unrecognizedCharacter.text), ("scanner", language.name),
         ("char", Text.escapeBare t.text)]
    else if errors = limit + 1 then
      s.logging.debug "Further unrecognized characters not logged" none
        [("scanner", language.name), ("limit", toString limit)]
    else s.logging
  { s with errors, logging }

/-- Puts a lexeme into its place. A lexeme without text is a fault. -/
def place (s : Session) (l : Lexeme) : Except Fault Token := do
  let stop ← s.position.advanceText l.text
  if l.text.isEmpty then throw .emptyToken
  return { toLexeme := l, span := ← Span.between s.position stop }

/-- Takes in what a lexer writes. -/
def feed (language : Language) (preferences : ScannerPreferences) (s : Session) :
    Piece Lexeme → Except Fault Session
  | .beginGroup => .ok (s.put .beginGroup)
  | .endGroup => .ok (s.put .endGroup)
  | .token l => do
    let t ← s.place l
    let s := { s.put (.token t) with position := t.span.stop, tokens := s.tokens + 1 }
    return if l.kind = .error then s.noteError language preferences t else s

/-- Closes the string that the source leaves open, if it leaves one open. -/
def closeOpen (s : Session) (language : Language) (preferences : ScannerPreferences) (mode : Mode) :
    Session :=
  match mode with
  | .initial => s
  | .inString =>
    let logging :=
      if preferences.logImplicitClose then
        s.logging.debug "String closed at end of input" none
          [("code", Log.Code.unterminatedString.text), ("scanner", language.name),
           ("offset", toString s.position.offset)]
      else s.logging
    { s with logging }.put .endGroup

/-- What the session yields, once everything is read. -/
def result (s : Session) : Scan :=
  ⟨⟨s.written.reverse⟩, s.metrics⟩

/-- Scans a source. The outer error is a broken contract, the inner one a lexer that stopped. -/
def scan (language : Language) (preferences : ScannerPreferences) (keepMetrics : Bool)
    (source : List Char) (logging : Logging) :
    Except Fault (Except LexerFault Scan × Logging) := do
  let logging := logging.debug "Scan started" none
    [("scanner", language.name), ("bytes", toString (Text.byteLength source))]
  let reading := language.read source
  let first : Session := { logging, metrics := if keepMetrics then some {} else none }
  let s ← reading.pieces.foldlM (feed language preferences) first
  if reading.rest.isEmpty then
    let s := s.closeOpen language preferences reading.mode
    let logging := s.logging.success .scanDone "Tokenization completed"
      [("scanner", language.name), ("tokens", toString s.tokens),
       ("error_tokens", toString s.errors)]
    return (.ok s.result, logging)
  else
    let fault : LexerFault :=
      { lookahead := reading.rest.head?
        offset := Text.byteLength source - Text.byteLength reading.rest
        mode := reading.mode
        tokens := s.tokens }
    let logging := s.logging.error fault.code fault.message none
      [("scanner", language.name), ("state", fault.mode.name)]
    return (.error fault, logging)

end Session

/-- Logging that is not set up. -/
def Logging.off : Logging := { clock := ⟨"", ""⟩ }

/-- A source as a stream of tokens. -/
def tokenize (language : Language) (source : List Char) :
    Except Fault (Except LexerFault TokenStream) := do
  let (scan, _) ← Session.scan language {} false source .off
  return scan.map (·.stream)

end Highlight1C
