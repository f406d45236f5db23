import Highlight1C.Config.Limits
import Highlight1C.Config.Preferences
import Highlight1C.Files.FileSystem
import Highlight1C.Path
import Highlight1C.Toml.Document

/-!
# Build profiles

The limits within which the program works are chosen when it is built: a profile is a TOML file of
limits in the directory of profiles. `Profile.build` finds the profile, checks its limits and writes them
as constants for the compiler. The environment names the profile and the directory.
-/

namespace Highlight1C

namespace Limits

/-- The limits of a document, in which none may be missing. -/
def ofToml? (document : Toml) : Option Limits := do
  let [some files, some lexical, some logging] ←
    document.fields? ["file_processing", "lexical", "logging"] | none
  let [some maxFileSize, some largeFileThreshold] ←
    files.fields? ["max_file_size", "large_file_threshold"] | none
  let [some maxErrorTokensLogged, some tokenCapacityDivisor] ←
    lexical.fields? ["max_error_tokens_logged", "token_capacity_divisor"] | none
  let [some maxErrorCollection, some logBufferSize, some maxLogMessageLength,
      some maxLogEventsPerFile] ←
    logging.fields? ["max_error_collection", "log_buffer_size", "max_log_message_length",
      "max_log_events_per_file"] | none
  return {
    maxFileSize := ← maxFileSize.nat?
    largeFileThreshold := ← largeFileThreshold.nat?
    maxErrorTokensLogged := ← maxErrorTokensLogged.nat?
    tokenCapacityDivisor := ← tokenCapacityDivisor.nat?
    maxErrorCollection := ← maxErrorCollection.nat?
    logBufferSize := ← logBufferSize.nat?
    maxLogMessageLength := ← maxLogMessageLength.nat?
    maxLogEventsPerFile := ← maxLogEventsPerFile.nat? }

/-- No profile may allow larger files. -/
def absoluteMaxFileSize : Nat := 1000000000

/-- The production profile may not allow larger files. -/
def productionMaxFileSize : Nat := 50000000

/-- What makes limits unfit for a profile, if anything does. -/
def flaw? (l : Limits) (profile : String) : Option String :=
  if l.maxFileSize > absoluteMaxFileSize then
    some "LIMITS: max_file_size exceeds absolute maximum"
  else if l.largeFileThreshold > l.maxFileSize then
    some "LIMITS: large_file_threshold exceeds max_file_size"
  else if l.tokenCapacityDivisor = 0 then
    some "LIMITS: token_capacity_divisor must be positive"
  else if l.maxLogEventsPerFile > l.logBufferSize then
    some "LIMITS: max_log_events_per_file exceeds log_buffer_size"
  else if l.maxLogEventsPerFile ≥ l.maxErrorCollection then
    some "LIMITS: max_log_events_per_file must be below max_error_collection"
  else if profile = "production" ∧ l.maxFileSize > productionMaxFileSize then
    some "PRODUCTION: max_file_size too high for production"
  else none

/-- The limits of a profile as constants for the compiler. -/
def constants (l : Limits) (profile : String) : String :=
  let block (indent : String) (name : String) (lines : List String) : String :=
    indent ++ "pub mod " ++ name ++ " \x7b\n" ++ String.join lines ++ indent ++ "\x7d\n"
  let constant (name kind : String) (value : Nat) : String :=
    s!"        pub const {name}: {kind} = {value};\n"
  let files := block "    " "file_processing" [
    constant "MAX_FILE_SIZE" "u64" l.maxFileSize,
    constant "LARGE_FILE_THRESHOLD" "u64" l.largeFileThreshold]
  let lexical := block "    " "lexical" [
    constant "MAX_ERROR_TOKENS_LOGGED" "usize" l.maxErrorTokensLogged,
    constant "TOKEN_CAPACITY_DIVISOR" "usize" l.tokenCapacityDivisor]
  let logging := block "    " "logging" [
    constant "MAX_ERROR_COLLECTION" "usize" l.maxErrorCollection,
    constant "LOG_BUFFER_SIZE" "usize" l.logBufferSize,
    constant "MAX_LOG_MESSAGE_LENGTH" "usize" l.maxLogMessageLength,
    constant "MAX_LOG_EVENTS_PER_FILE" "usize" l.maxLogEventsPerFile]
  "\n// Generated compile-time constants from TOML configuration\n" ++
    s!"// Profile: {profile}\n// DO NOT EDIT - Generated by build.rs\n\n" ++
    block "" "compile_time" [files, "\n", lexical, "\n", logging]

end Limits

/-- Why a profile cannot be used. -/
inductive ProfileError where
  /-- There is no file for the profile. -/
  | notFound (path root directory profile : String)
  /-- The file cannot be read. -/
  | unreadable (path : String) (reason : FileSystemError)
  /-- The file is not TOML, or a limit is missing or of the wrong kind. -/
  | malformed (path : String)
  /-- The limits are unfit. -/
  | unfit (flaw : String)
  deriving DecidableEq, Repr

/-- What is said of a profile that cannot be used. -/
def ProfileError.message : ProfileError → String
  | .notFound path root directory profile =>
    s!"Configuration file not found: {path}\nWorkspace root: {root}\nLooking for: {root}/{directory}/{profile}.toml"
  | .unreadable path reason => s!"Failed to read {path}: {reason.text}"
  | .malformed path => s!"Invalid TOML in {path}: not valid TOML, or a limit missing or of the wrong kind"
  | .unfit flaw => flaw

namespace Profile

/-- What a build step yields. -/
structure Build where
  /-- What it tells the build tool. -/
  stdout : String
  /-- The constants, or why there are none. -/
  result : Except ProfileError String

/-- Finds, reads and checks the limits of a profile. -/
def load (fs : FileSystem) (root directory profile path : String) : Except ProfileError Limits := do
  if !fs.leadsAnywhere path then throw (.notFound path root directory profile)
  match fs.readText path with
  | .error reason => throw (.unreadable path reason)
  | .ok text =>
    match (Toml.parse? text).bind Limits.ofToml? with
    | none => throw (.malformed path)
    | some limits =>
      match limits.flaw? profile with
      | some flaw => throw (.unfit flaw)
      | none => return limits

/-- Writes the constants of the profile that the environment names, below the root directory. -/
def build (fs : FileSystem) (env : Environment) (root : String) : Build :=
  let profile := (env.value? "RUS1C_BUILD_PROFILE").getD Limits.profile
  let directory := (env.value? "RUS1C_CONFIG_DIR").getD Limits.directory
  let path := Path.join (Path.join root directory) s!"{profile}.toml"
  { stdout := String.join [
      "cargo:rerun-if-changed=build.rs\n",
      "cargo:rerun-if-env-changed=RUS1C_BUILD_PROFILE\n",
      "cargo:rerun-if-env-changed=RUS1C_CONFIG_DIR\n",
      s!"cargo:rerun-if-changed={path}\n"]
    result := (load fs root directory profile path).map (·.constants profile) }

end Profile

end Highlight1C
