import Highlight1C.Proofs.Completion
import Highlight1C.Proofs.FileLog
import Highlight1C.Proofs.Utf8

/-!
# Reading a source

A file is read exactly: it is a text in UTF-8 or it is refused, and its bytes are those of the text,
behind a byte order mark if there was one. Files lose the mark before they are decoded and standard
input loses it afterwards, which comes to the same (`decode_dropMark_eq_ok_iff`), as the mark is a
character like others.

* `SourceFile.load_invalidEncoding`: a file that is no text is refused with the length of the longest
  text in front of it; the event about it says the same number only if the file has no mark;
* `Command.reading_exact`: a file within the limit is read exactly if it is a text, and highlighting
  it from standard input comes to the same tokens.
-/

namespace Highlight1C

open Log (Event)
open Text (byteOrderMark byteOrderMarkChar decode encode IsUtf8 LongestPrefix)

/-! ## The byte order mark -/

namespace Text

/-- A text without a byte order mark in front. -/
def withoutMark (text : List Char) : List Char :=
  match text with
  | c :: rest => if c = byteOrderMarkChar then rest else text
  | [] => []

theorem decode_mark_append (body : List UInt8) :
    decode (byteOrderMark ++ body) =
      match decode body with
      | .ok text => .ok (byteOrderMarkChar :: text)
      | .error n => .error (byteOrderMark.length + n) := by
  rw [← encode_byteOrderMarkChar, decode_encode_append]
  rfl

/-- A text whose bytes have no mark has none. -/
theorem withoutMark_of_decode {bytes : List UInt8} (hno : ¬ byteOrderMark <+: bytes)
    {text : List Char} (h : decode bytes = .ok text) : withoutMark text = text := by
  match text with
  | [] => rfl
  | c :: rest =>
    refine if_neg fun hc => hno ?_
    rw [← (decode_eq_ok_iff bytes _).mp h, hc, ← encode_byteOrderMarkChar]
    exact ⟨encode rest, (encode_append _ _).symm⟩

end Text

namespace SourceFile

/-- Bytes with a mark lose it, and others stay as they are. -/
theorem dropMark_cases (bytes : List UInt8) :
    (∃ body, bytes = byteOrderMark ++ body ∧ dropMark bytes = (body, true)) ∨
      ¬ byteOrderMark <+: bytes ∧ dropMark bytes = (bytes, false) := by
  unfold dropMark
  by_cases h : byteOrderMark <+: bytes
  · obtain ⟨body, rfl⟩ := h
    refine .inl ⟨body, rfl, ?_⟩
    rw [if_pos (by simp), List.drop_left]
  · exact .inr ⟨h, if_neg (by simpa using h)⟩

theorem dropMark_snd_iff (bytes : List UInt8) :
    (dropMark bytes).2 = true ↔ byteOrderMark <+: bytes := by
  obtain ⟨body, rfl, hdrop⟩ | ⟨hno, hdrop⟩ := dropMark_cases bytes
  · simp [hdrop]
  · simp [hdrop, hno]

/-- Without their mark bytes are the text that they are with it, but for the mark. -/
theorem decode_dropMark_eq_ok_iff (bytes : List UInt8) (body : List Char) :
    decode (dropMark bytes).1 = .ok body ↔
      ∃ text, decode bytes = .ok text ∧ Text.withoutMark text = body := by
  obtain ⟨behind, rfl, hdrop⟩ | ⟨hno, hdrop⟩ := dropMark_cases bytes
  · rw [hdrop, Text.decode_mark_append]
    cases decode behind with
    | ok text => simp [Text.withoutMark]
    | error n => simp
  · rw [hdrop]
    constructor
    · exact fun h => ⟨body, h, Text.withoutMark_of_decode hno h⟩
    · rintro ⟨text, h, rfl⟩
      rwa [Text.withoutMark_of_decode hno h]

/-- Where bytes cannot be read without their mark, they cannot be read with it, and as much further
on as it is long. -/
theorem decode_of_dropMark {bytes : List UInt8} {n : Nat}
    (h : decode (dropMark bytes).1 = .error n) :
    decode bytes = .error (n + if byteOrderMark <+: bytes then byteOrderMark.length else 0) := by
  obtain ⟨behind, rfl, hdrop⟩ | ⟨hno, hdrop⟩ := dropMark_cases bytes
  · rw [hdrop] at h
    rw [Text.decode_mark_append, show decode behind = .error n from h, Nat.add_comm,
      if_pos (List.prefix_append _ _)]
  · rw [hdrop] at h
    rw [if_neg hno]
    exact h

theorem isUtf8_iff_decode_dropMark (bytes : List UInt8) :
    IsUtf8 bytes ↔ ∃ body, decode (dropMark bytes).1 = .ok body := by
  simp only [Text.isUtf8_iff_exists_decode, decode_dropMark_eq_ok_iff]
  constructor
  · exact fun ⟨text, h⟩ => ⟨_, text, h, rfl⟩
  · exact fun ⟨_, text, h, _⟩ => ⟨text, h⟩

/-- The bytes of a text that was read, behind the mark if there was one. -/
theorem encode_of_decode_dropMark {bytes : List UInt8} {body : List Char}
    (h : decode (dropMark bytes).1 = .ok body) :
    (if (dropMark bytes).2 then byteOrderMark else []) ++ encode body = bytes := by
  obtain ⟨behind, rfl, hdrop⟩ | ⟨-, hdrop⟩ := dropMark_cases bytes
  · rw [hdrop] at h ⊢
    rw [(Text.decode_eq_ok_iff behind body).mp h]
    rfl
  · rw [hdrop] at h ⊢
    exact (Text.decode_eq_ok_iff bytes body).mp h

end SourceFile

/-! ## Files -/

/-- The file system has a regular file with these bytes at the path. -/
structure FileSystem.Holds (fs : FileSystem) (path : String) (bytes : List UInt8) : Prop where
  status : fs.status path = .ok ⟨true, bytes.length⟩
  read : fs.read path = .ok bytes

theorem FileSystem.Holds.check {fs : FileSystem} {path : String} {bytes : List UInt8}
    (h : fs.Holds path bytes) (hsize : bytes.length ≤ Limits.current.maxFileSize) :
    SourceFile.check fs path = .ok bytes.length := by
  simp only [SourceFile.check, h.status, Bool.not_true, Bool.false_eq_true, if_false]
  exact if_neg (Nat.not_lt.mpr hsize)

/-- A file system with one file. -/
def FileSystem.single (name : String) (bytes : List UInt8) : FileSystem where
  status path := if path = name then .ok ⟨true, bytes.length⟩ else .error .notFound
  read path := if path = name then .ok bytes else .error .notFound

theorem FileSystem.holds_single (name : String) (bytes : List UInt8) :
    (single name bytes).Holds name bytes :=
  ⟨if_pos rfl, if_pos rfl⟩

/-! ## What is no text -/

/-- Numbers that are written alike are equal. -/
theorem toString_injective {m n : Nat} (h : toString m = toString n) : m = n := by
  have hread := congrArg (fun s : String => Nat.ofDigitChars 10 s.toList 0) h
  simpa using hread

namespace Logging

variable {l : Logging} {a : ActiveLogging}

/-- What an event is dressed with beyond its values is the file that is being worked on. -/
theorem lookup_dress (l : Logging) (e : Event) (values : List (String × String)) {name : String}
    (hfile : name ≠ "file") (hid : name ≠ "file_id") :
    (l.dress e values).context.lookup name = (e.withValues values).context.lookup name := by
  simp only [dress]
  split
  · split
    · simp only [Event.withValue, Log.Context.lookup_set, if_neg hfile, if_neg hid]
    · rfl
  · rfl

theorem output_error (h : l.active = some a) (code : Log.Code) (message : String)
    (span : Option Span) (values : List (String × String)) :
    (l.error code message span values).output =
      a.service.log l.clock (l.dressed (.failure code message span values)) l.output := by
  simp only [error, post, h]
  rfl

/-- A debugging note changes nothing but what has been put out. -/
theorem debug_eq_with_output (l : Logging) (message : String) (span : Option Span)
    (values : List (String × String)) :
    l.debug message span values = { l with output := (l.debug message span values).output } := by
  rw [debug_eq_post]
  cases h : l.active with
  | none => simp only [post, h]; rw [← h]
  | some a => simp only [post, h, Bool.false_eq_true, if_false]

end Logging

namespace SourceFile

/-- The failure that is posted about a file that is no text. -/
def encodingFailure (path : String) (validUpTo : Nat) : Posting :=
  .failure .invalidEncoding "File is not valid UTF-8" none
    [("file", path), ("valid_up_to", toString validUpTo)]

theorem lookup_encodingFailure (l : Logging) (path : String) (validUpTo : Nat) :
    (l.dressed (encodingFailure path validUpTo)).context.lookup "valid_up_to" =
      some (toString validUpTo) := by
  refine (l.lookup_dress _ _ (by decide) (by decide)).trans ?_
  show ((Log.Context.set "file" path []).set "valid_up_to" (toString validUpTo)).lookup _ = _
  rw [Log.Context.lookup_set, if_pos rfl]

theorem load_of_decode_error {fs : FileSystem} {path : String} {size n : Nat} {bytes : List UInt8}
    (hcheck : check fs path = .ok size) (hread : fs.read path = .ok bytes)
    (hbody : decode (dropMark bytes).1 = .error n) (timed : Bool) (logging : Logging) :
    load fs path timed logging =
      (.error (.invalidEncoding path
        (n + if byteOrderMark <+: bytes then byteOrderMark.length else 0)),
        (logging.debug "Starting file processing" none [("file", path)]).postAll
          [encodingFailure path n]) := by
  simp only [load, hcheck, hread, hbody, ← dropMark_snd_iff]
  rfl

/-- A readable file that is no text is refused, whatever stands in it, with the length of the longest
text in front of it, mark included. One error is logged about it, and as `valid_up_to` it says how
long that text is without the mark: the same number exactly if the file has no mark. -/
theorem load_invalidEncoding {fs : FileSystem} {path : String} {size : Nat} {bytes : List UInt8}
    (hcheck : check fs path = .ok size) (hread : fs.read path = .ok bytes)
    (hinvalid : ¬ IsUtf8 bytes) (timed : Bool) (logging : Logging) :
    ∃ n logging', load fs path timed logging = (.error (.invalidEncoding path n), logging') ∧
      LongestPrefix bytes n ∧
      ∀ a, logging.active = some a → ∃ event,
        logging'.output = a.service.log logging.clock event
          (logging.debug "Starting file processing" none [("file", path)]).output ∧
        event.mark = (.error, .invalidEncoding) ∧
        event.context.lookup "valid_up_to" =
          some (toString (if byteOrderMark <+: bytes then n - byteOrderMark.length else n)) ∧
        (event.context.lookup "valid_up_to" = some (toString n) ↔ ¬ byteOrderMark <+: bytes) := by
  cases hbody : decode (dropMark bytes).1 with
  | ok body => exact absurd ((isUtf8_iff_decode_dropMark bytes).mpr ⟨body, hbody⟩) hinvalid
  | error n =>
    refine ⟨_, _, load_of_decode_error hcheck hread hbody timed logging,
      Text.longestPrefix_of_decode (decode_of_dropMark hbody), fun a ha => ?_⟩
    -- of the note in front only what it puts out matters: the logger and the clock are the same
    have hnote := logging.debug_eq_with_output "Starting file processing" none [("file", path)]
    generalize logging.debug "Starting file processing" none [("file", path)] = started at hnote ⊢
    have hactive : started.active = some a := by
      rw [hnote]
      exact ha
    have hclock : started.clock = logging.clock := by rw [hnote]
    have hlength : byteOrderMark.length = 3 := rfl
    refine ⟨started.dressed (encodingFailure path n), ?_, started.mark_dressed _, ?_, ?_⟩
    · rw [← hclock]
      exact Logging.output_error hactive ..
    · rw [lookup_encodingFailure]
      split <;> simp
    · rw [lookup_encodingFailure, Option.some.injEq]
      refine ⟨fun h hmark => ?_, fun hno => by rw [if_neg hno, Nat.add_zero]⟩
      have hsame := toString_injective h
      rw [if_pos hmark] at hsame
      omega

/-- Two letters and two bytes that begin no character: without a mark the numbers agree. -/
theorem load_invalidEncoding_unmarked :
    check (.single "a.1c" [0x6f, 0x6b, 0xff, 0xfe]) "a.1c" = .ok 4 ∧
    ¬ IsUtf8 [0x6f, 0x6b, 0xff, 0xfe] ∧
    ∃ logging', load (.single "a.1c" [0x6f, 0x6b, 0xff, 0xfe]) "a.1c" true .attentive =
        (.error (.invalidEncoding "a.1c" 2), logging') ∧
      ∃ event, logging'.output.events.getLast? = some event ∧
        event.mark = (.error, .invalidEncoding) ∧
        event.context.lookup "valid_up_to" = some (toString 2) := by
  have hcheck : check (.single "a.1c" [0x6f, 0x6b, 0xff, 0xfe]) "a.1c" = .ok 4 := rfl
  have hdecode : decode [0x6f, 0x6b, 0xff, 0xfe] = .error 2 := by decide +kernel
  obtain ⟨hinvalid, hlongest⟩ := (Text.decode_eq_error_iff _ _).mp hdecode
  obtain ⟨n, logging', hload, hn, htold⟩ :=
    load_invalidEncoding hcheck (FileSystem.holds_single ..).read hinvalid true .attentive
  obtain rfl := hn.unique hlongest
  obtain ⟨event, houtput, hmark, -, hvalue⟩ := htold _ rfl
  refine ⟨hcheck, hinvalid, logging', hload, event, ?_, hmark, hvalue.mpr (by decide)⟩
  rw [houtput]
  simp [Log.Service.log, Log.Service.admits, Log.Level.admits_debug, Log.Sink.send,
    Log.Output.events]

/-- The same behind a mark: the longest text in front has five bytes, as the error says, and the
event says two. -/
theorem load_invalidEncoding_marked :
    check (.single "a.1c" [0xef, 0xbb, 0xbf, 0x6f, 0x6b, 0xff]) "a.1c" = .ok 6 ∧
    ¬ IsUtf8 [0xef, 0xbb, 0xbf, 0x6f, 0x6b, 0xff] ∧
    LongestPrefix [0xef, 0xbb, 0xbf, 0x6f, 0x6b, 0xff] 5 ∧
    ∃ logging', load (.single "a.1c" [0xef, 0xbb, 0xbf, 0x6f, 0x6b, 0xff]) "a.1c" true .attentive =
        (.error (.invalidEncoding "a.1c" 5), logging') ∧
      (logging'.output.withCode .invalidEncoding).map (·.context.lookup "valid_up_to") =
        [some "2"] ∧
      some "2" ≠ some (toString 5) := by
  have hdecode : decode [0xef, 0xbb, 0xbf, 0x6f, 0x6b, 0xff] = .error 5 := by decide +kernel
  obtain ⟨hinvalid, hlongest⟩ := (Text.decode_eq_error_iff _ _).mp hdecode
  have hload : (load (.single "a.1c" [0xef, 0xbb, 0xbf, 0x6f, 0x6b, 0xff]) "a.1c" true
      .attentive).1 = .error (.invalidEncoding "a.1c" 5) := by decide +kernel
  refine ⟨rfl, hinvalid, hlongest, _, Prod.ext hload rfl, ?_, by decide⟩
  decide +kernel

end SourceFile

/-! ## Files and standard input -/

/-- A file that is a text, while it is read. -/
theorem SourceFile.load_of_decode_ok {fs : FileSystem} {path : String} {size : Nat}
    {bytes : List UInt8} {body : List Char} (hcheck : check fs path = .ok size)
    (hread : fs.read path = .ok bytes) (hbody : decode (dropMark bytes).1 = .ok body)
    (timed : Bool) (logging : Logging) :
    ∃ logging', load fs path timed logging =
      (.ok (describe path size (dropMark bytes).2 body), logging') := by
  simp only [load, hcheck, hread, hbody]
  exact ⟨_, rfl⟩

/-- A file is read exactly if it is a text, and then its bytes are those of the text that is read,
behind a mark if it is said that there was one. -/
theorem SourceFile.load_exact {fs : FileSystem} {path : String} {size : Nat} {bytes : List UInt8}
    (hcheck : check fs path = .ok size) (hread : fs.read path = .ok bytes) (timed : Bool)
    (logging : Logging) :
    ((∃ file, (load fs path timed logging).1 = .ok file) ↔ IsUtf8 bytes) ∧
      ∀ file, (load fs path timed logging).1 = .ok file →
        (if file.info.hadMark then byteOrderMark else []) ++ encode file.text = bytes ∧
        file.info.size = size := by
  rw [isUtf8_iff_decode_dropMark]
  cases hbody : decode (dropMark bytes).1 with
  | error n =>
    rw [load_of_decode_error hcheck hread hbody]
    simp
  | ok body =>
    obtain ⟨logging', hload⟩ := load_of_decode_ok hcheck hread hbody timed logging
    rw [hload]
    refine ⟨by simp, fun file hfile => ?_⟩
    cases hfile
    exact ⟨encode_of_decode_dropMark hbody, rfl⟩

theorem highlightFile_of_load_ok {fs : FileSystem} {path : String} {file : SourceFile}
    (language : Language) (preferences : ScannerPreferences) (logging : Logging)
    (hload : ∀ logging, ∃ logging', SourceFile.load fs path true logging = (.ok file, logging'))
    (hsize : file.text.length ≤ sourceBound) :
    ∃ highlight logging', highlightFile fs path (some language) preferences logging =
        .ok (.ok highlight, logging') ∧ highlight.tokens = language.stream file.text := by
  obtain ⟨loaded, hload⟩ := hload (logging.debug "Highlighting file" none
    [("file", path), ("language", language.name)])
  obtain ⟨highlight, scanned, hsource, htokens, -⟩ := highlightSource_eq hsize preferences loaded
  simp only [highlightFile, Option.some_or, hload]
  rw [hsource]
  exact ⟨_, _, rfl, htokens⟩

theorem highlightFile_of_load_error {fs : FileSystem} {path : String} {e : FileError}
    (language : Language) (preferences : ScannerPreferences) (logging : Logging)
    (hload : ∀ logging, ∃ logging', SourceFile.load fs path true logging = (.error e, logging')) :
    ∃ logging', highlightFile fs path (some language) preferences logging =
      .ok (.error (.file e), logging') := by
  obtain ⟨loaded, hload⟩ := hload (logging.debug "Highlighting file" none
    [("file", path), ("language", language.name)])
  simp only [highlightFile, Option.some_or, hload]
  exact ⟨_, rfl⟩

namespace Command

/-- Standard input that is a text is highlighted without the mark. -/
theorem highlightStdin_of_decode_ok {s : State} {text : List Char} (h : decode s.stdin = .ok text)
    (language : Language) (scanner : ScannerPreferences) :
    highlightStdin s (some language) scanner =
      (highlightSource language (Text.withoutMark text) scanner s.logging).bind fun r =>
        .ok (r.1.mapError (·.message), { s with stdin := [], logging := r.2 }) := by
  have htext : textOfBytes s.stdin = .ok text := by rw [textOfBytes, h]
  unfold highlightStdin
  simp only [htext]
  rfl

theorem highlightStdin_of_decode_error {s : State} {n : Nat} (h : decode s.stdin = .error n)
    (language : Language) (scanner : ScannerPreferences) :
    highlightStdin s (some language) scanner =
      .ok (.error FileSystemError.notUtf8.text, { s with stdin := [] }) := by
  have htext : textOfBytes s.stdin = .error .notUtf8 := by rw [textOfBytes, h]
  unfold highlightStdin
  simp only [htext]
  rfl

/-- The bytes of a file within the limit, highlighted from standard input, give the tokens that the
file gives, if it gives any. -/
theorem highlight_agree {fs : FileSystem} {path : String} {bytes : List UInt8}
    (hholds : fs.Holds path bytes) (hsize : bytes.length ≤ Limits.current.maxFileSize)
    (language : Language) (scanner : ScannerPreferences) (logging : Logging) (world : World)
    {s : State} (hs : s.stdin = bytes) :
    ∃ fromFile logging' fromStdin s',
      highlightFile fs path (some language) scanner logging = .ok (fromFile, logging') ∧
      highlightInput world s "-" (some language) scanner = .ok (fromStdin, s') ∧
      fromFile.toOption.map (·.tokens) = fromStdin.toOption.map (·.tokens) := by
  have hcheck := hholds.check hsize
  subst hs
  cases hbody : decode (SourceFile.dropMark s.stdin).1 with
  | error n =>
    obtain ⟨logging', hfile⟩ := highlightFile_of_load_error language scanner logging
      fun logging => ⟨_, SourceFile.load_of_decode_error hcheck hholds.read hbody true logging⟩
    have hstdin := highlightStdin_of_decode_error (SourceFile.decode_of_dropMark hbody) language
      scanner
    exact ⟨_, _, _, _, hfile, hstdin, rfl⟩
  | ok body =>
    -- a text has no more characters than bytes, so a file within its limit is short enough to scan
    have hbound : body.length ≤ sourceBound := by
      have htext := Text.length_decode hbody
      have hdrop := SourceFile.length_dropMark s.stdin
      have hlimit : Limits.current.maxFileSize = 52428800 := rfl
      have hroom : sourceBound = 0xfffffffe := rfl
      omega
    obtain ⟨fromFile, logging', hfile, htokens⟩ := highlightFile_of_load_ok language scanner logging
      (SourceFile.load_of_decode_ok hcheck hholds.read hbody true) hbound
    obtain ⟨text, htext, rfl⟩ := (SourceFile.decode_dropMark_eq_ok_iff s.stdin body).mp hbody
    obtain ⟨fromStdin, logging'', hsource, htokens', -⟩ :=
      @highlightSource_eq language _ hbound scanner s.logging
    have hstdin := highlightStdin_of_decode_ok htext language scanner
    rw [hsource] at hstdin
    refine ⟨_, _, _, _, hfile, hstdin, ?_⟩
    show some fromFile.tokens = some fromStdin.tokens
    rw [htokens, htokens']
    rfl

/-- Reading is exact, and the two ways to read agree. A regular file with any bytes up to the limit
for files is read exactly if they are a text in UTF-8, whatever is logged; then they are the bytes of
the text that is read, behind one byte order mark exactly if it is said that there was one, and the
size is their number. In any language given, highlighting the file and highlighting the same bytes
from standard input come to their end, succeed alike, and then with the same tokens. -/
theorem reading_exact {fs : FileSystem} {path : String} {bytes : List UInt8}
    (hholds : fs.Holds path bytes) (hsize : bytes.length ≤ Limits.current.maxFileSize) :
    (∀ timed logging,
      ((∃ file, (SourceFile.load fs path timed logging).1 = .ok file) ↔ IsUtf8 bytes) ∧
      ∀ file, (SourceFile.load fs path timed logging).1 = .ok file →
        (if file.info.hadMark then byteOrderMark else []) ++ encode file.text = bytes ∧
        file.info.size = bytes.length) ∧
    ∀ (language : Language) (scanner : ScannerPreferences) (logging : Logging) (world : World)
        (s : State), s.stdin = bytes →
      ∃ fromFile logging' fromStdin s',
        highlightFile fs path (some language) scanner logging = .ok (fromFile, logging') ∧
        highlightInput world s "-" (some language) scanner = .ok (fromStdin, s') ∧
        fromFile.toOption.map (·.tokens) = fromStdin.toOption.map (·.tokens) :=
  ⟨SourceFile.load_exact (hholds.check hsize) hholds.read,
    fun language scanner logging world _ =>
      highlight_agree hholds hsize language scanner logging world⟩

/-- A mark behind a mark, and a letter: one mark is dropped, either way. -/
theorem reading_exact_double_mark :
    (FileSystem.single "a.1c" [0xef, 0xbb, 0xbf, 0xef, 0xbb, 0xbf, 0x61]).Holds "a.1c"
      [0xef, 0xbb, 0xbf, 0xef, 0xbb, 0xbf, 0x61] ∧
    [0xef, 0xbb, 0xbf, 0xef, 0xbb, 0xbf, 0x61].length ≤ Limits.current.maxFileSize ∧
    ∃ file, (SourceFile.load (.single "a.1c" [0xef, 0xbb, 0xbf, 0xef, 0xbb, 0xbf, 0x61]) "a.1c" true
        .attentive).1 = .ok file ∧
      (if file.info.hadMark then byteOrderMark else []) ++ encode file.text =
        [0xef, 0xbb, 0xbf, 0xef, 0xbb, 0xbf, 0x61] ∧ file.info.size = 7 := by
  have hholds := FileSystem.holds_single "a.1c" [0xef, 0xbb, 0xbf, 0xef, 0xbb, 0xbf, 0x61]
  have hsize : [0xef, 0xbb, 0xbf, 0xef, 0xbb, 0xbf, 0x61].length ≤ Limits.current.maxFileSize := by
    decide
  have hutf8 : IsUtf8 [0xef, 0xbb, 0xbf, 0xef, 0xbb, 0xbf, 0x61] :=
    (Text.isUtf8_iff _).mpr ⟨['\ufeff', '\ufeff', 'a'], by decide⟩
  obtain ⟨hread, hexact⟩ := (reading_exact hholds hsize).1 true .attentive
  obtain ⟨file, hfile⟩ := hread.mpr hutf8
  exact ⟨hholds, hsize, file, hfile, hexact file hfile⟩

end Command

end Highlight1C
