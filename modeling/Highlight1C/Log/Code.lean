/-!
# Codes of log events

Each event carries a short code. Those of the program are listed with what is known about them; a code
that is not listed is taken to be of medium severity, recoverable and not halting.
-/

namespace Highlight1C.Log

/-- The code of an event. -/
structure Code where
  text : String
  deriving DecidableEq, Repr

namespace Code

/-- The program itself is wrong. -/
def internalError : Code := ⟨"ERR001"⟩
/-- A source file is not there. -/
def fileNotFound : Code := ⟨"E005"⟩
/-- A source file is too large. -/
def fileTooLarge : Code := ⟨"E007"⟩
/-- A source file may not be read. -/
def permissionDenied : Code := ⟨"E009"⟩
/-- A source file is not UTF-8. -/
def invalidEncoding : Code := ⟨"E010"⟩
/-- A source file cannot be read. -/
def readFailure : Code := ⟨"E011"⟩
/-- It is not known in which language a source is written. -/
def unknownLanguage : Code := ⟨"E012"⟩
/-- A character that no rule recognises. -/
def unrecognizedCharacter : Code := ⟨"E020"⟩
/-- A string that the source leaves open. -/
def unterminatedString : Code := ⟨"E021"⟩
/-- A lexer that has no rule for where it is. -/
def lexerFault : Code := ⟨"E029"⟩
/-- A configuration that cannot be used. -/
def invalidConfiguration : Code := ⟨"E030"⟩
/-- Logging is ready. -/
def systemReady : Code := ⟨"I004"⟩
/-- A file has been dealt with. -/
def fileDone : Code := ⟨"I006"⟩
/-- A scan has come to its end. -/
def scanDone : Code := ⟨"I020"⟩
/-- A stream is well formed. -/
def streamValidated : Code := ⟨"I021"⟩
/-- Any other warning. -/
def plainWarning : Code := ⟨"W000"⟩
/-- Any other piece of information. -/
def plainInfo : Code := ⟨"I000"⟩
/-- Any debugging note. -/
def plainDebug : Code := ⟨"D000"⟩

end Code

/-- How grave an event is. -/
inductive Severity where
  | critical
  | high
  | medium
  | low
  deriving DecidableEq, Repr

/-- The name of a severity. -/
def Severity.name : Severity → String
  | .critical => "Critical"
  | .high => "High"
  | .medium => "Medium"
  | .low => "Low"

/-- What is known about a code. -/
structure CodeInfo where
  code : Code
  category : String
  severity : Severity
  recoverable : Bool
  halts : Bool
  description : String
  action : String
  deriving DecidableEq, Repr

/-- The codes of the program, and what is known about them. -/
def codeRegistry : List CodeInfo := [
  ⟨.internalError, "System", .critical, false, true, "Critical internal system error",
    "File a bug report with the input that triggered it"⟩,
  ⟨.fileNotFound, "FileProcessing", .medium, false, false, "Source file not found",
    "Check the path passed on the command line"⟩,
  ⟨.fileTooLarge, "FileProcessing", .high, false, false, "Source file exceeds the maximum size",
    "Split the module or raise max_file_size in the build profile"⟩,
  ⟨.permissionDenied, "FileProcessing", .high, false, false,
    "Permission denied reading source file", "Check file permissions"⟩,
  ⟨.invalidEncoding, "FileProcessing", .medium, false, false, "Source file is not valid UTF-8",
    "Re-save the module as UTF-8 (1C exports use UTF-8 with BOM)"⟩,
  ⟨.readFailure, "FileProcessing", .medium, false, false, "I/O error reading source file",
    "Retry the operation or check the file system"⟩,
  ⟨.unknownLanguage, "FileProcessing", .medium, false, false,
    "No scanner registered for this language or extension",
    "Pass --lang rus1c or --lang rus1c_sql explicitly"⟩,
  ⟨.unrecognizedCharacter, "Lexical", .low, true, false,
    "Character not recognized by any scanner rule",
    "The character is emitted as an error token; no action needed"⟩,
  ⟨.unterminatedString, "Lexical", .low, true, false, "String literal left open at end of input",
    "Close the string literal"⟩,
  ⟨.lexerFault, "Lexical", .critical, false, true, "Scanner reached a state no rule covers",
    "File a bug report with the input that triggered it"⟩,
  ⟨.invalidConfiguration, "Configuration", .high, false, true, "Invalid runtime configuration",
    "Fix the configuration file or environment variables"⟩,
  ⟨.systemReady, "System", .low, true, false, "Logging system initialized", "Ready to scan"⟩,
  ⟨.fileDone, "FileProcessing", .low, true, false, "Source file loaded", "Ready for scanning"⟩,
  ⟨.scanDone, "Lexical", .low, true, false, "Tokenization completed",
    "Token stream ready for rendering"⟩,
  ⟨.streamValidated, "Lexical", .low, true, false, "Token stream passed structural validation",
    "Token stream ready for rendering"⟩]

namespace Code

/-- What is known about a code. -/
def info? (c : Code) : Option CodeInfo :=
  codeRegistry.find? (·.code == c)

/-- How grave an event with this code is. -/
def severity (c : Code) : Severity :=
  (c.info?.map (·.severity)).getD .medium

/-- Whether work can go on after an event with this code. -/
def isRecoverable (c : Code) : Bool :=
  (c.info?.map (·.recoverable)).getD true

/-- Whether an event with this code must stop the program. -/
def requiresHalt (c : Code) : Bool :=
  (c.info?.map (·.halts)).getD false

/-- What a code means. -/
def description (c : Code) : String :=
  (c.info?.map (·.description)).getD "Unknown error"

/-- What to do about an event with this code. -/
def action (c : Code) : String :=
  (c.info?.map (·.action)).getD "No specific action available"

/-- What part of the work a code belongs to. -/
def category (c : Code) : String :=
  (c.info?.map (·.category)).getD "Unknown"

end Code

end Highlight1C.Log
