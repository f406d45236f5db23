/-!
# Limits

The bounds within which the program works. They are chosen by a profile when the program is built; this
one is built with the development profile.
-/

namespace Highlight1C

/-- The bounds of a profile. -/
structure Limits where
  /-- Bytes of the largest file that is read. -/
  maxFileSize : Nat
  /-- A file with more bytes than this counts as large. -/
  largeFileThreshold : Nat
  /-- Tokens that no rule recognised are logged one by one up to this many. -/
  maxErrorTokensLogged : Nat
  /-- Bytes of source for each token that room is made for. -/
  tokenCapacityDivisor : Nat
  /-- Events that are collected in all. -/
  maxErrorCollection : Nat
  /-- Events that the log has room for. -/
  logBufferSize : Nat
  /-- Characters of the longest message. -/
  maxLogMessageLength : Nat
  /-- Events that are collected for one file. -/
  maxLogEventsPerFile : Nat
  deriving DecidableEq, Repr

namespace Limits

/-- The name of the profile in force. -/
def profile : String := "development"

/-- The directory of the profiles. -/
def directory : String := "config"

/-- Where the limits in force come from. -/
def origin : String :=
  s!"Generated from {directory}/{profile}.toml"

/-- The limits in force. -/
def current : Limits where
  maxFileSize := 52428800
  largeFileThreshold := 1048576
  maxErrorTokensLogged := 64
  tokenCapacityDivisor := 4
  maxErrorCollection := 2000
  logBufferSize := 10000
  maxLogMessageLength := 10000
  maxLogEventsPerFile := 200

/-- What makes limits unfit for logging, if anything does. -/
def loggingFlaw? (l : Limits) : Option String :=
  if l.logBufferSize > 100000 then some s!"Log buffer size too large: {l.logBufferSize}"
  else if l.logBufferSize < 100 then some s!"Log buffer size too small: {l.logBufferSize}"
  else if l.maxLogEventsPerFile > l.logBufferSize then
    some "Max log events per file exceeds total buffer size"
  else if l.maxLogMessageLength = 0 then some "Max log message length must be positive"
  else none

/-- The limits in force are fit for logging. -/
theorem loggingFlaw?_current : current.loggingFlaw? = none := by decide

end Limits

end Highlight1C
