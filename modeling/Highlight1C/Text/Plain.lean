/-!
# Texts without control sequences

A terminal takes some characters as orders: single control characters, and sequences that begin with
the escape character. `plain` gives what is left of a text when the orders are taken out.

Sequences are recognised as terminals do it. After the escape character come either a character that
completes the order, perhaps after intermediate ones, or an introducer: of a control sequence, which
ends at its final character; of an operating system command, which ends at a bell; of a device
control or another string, which ends at the byte `9C`. The escape character begins a new sequence
wherever it stands, and the characters cancel and substitute break one off.

Tabs, line ends and form feeds are not taken out, also within a sequence, unless that is a string or
a command. What follows them is shown. At the next control character the sequence goes on, unless a
character above U+007F has been shown since.
-/

namespace Highlight1C.Text

/-- How far a sequence has come. -/
inductive Sequence where
  /-- There is no sequence. -/
  | none
  /-- After the escape character. -/
  | escape
  /-- After an intermediate character that follows the escape character. -/
  | intermediate
  /-- Within a control sequence. -/
  | control
  /-- At the beginning of a device control. -/
  | device
  /-- Within the parameters of a device control. -/
  | deviceParameters
  /-- Within the intermediate characters of a device control. -/
  | deviceIntermediate
  /-- Within a string for the terminal. -/
  | string
  /-- Within an operating system command. -/
  | command
  deriving DecidableEq, Repr

namespace Sequence

/-- Whether a character lies in a range of code points. -/
def within (first last : Nat) (c : Char) : Bool :=
  first ≤ c.toNat && c.toNat ≤ last

/-- The byte that ends a string for the terminal, if it is a byte of the character. -/
def endsString (c : Char) : Bool :=
  (String.utf8EncodeChar c).contains 0x9c

/-- What the escape character and the one after it begin. -/
def introduced (c : Char) : Sequence :=
  if within 0x20 0x2f c then .intermediate
  else if c = '[' then .control
  else if c = ']' then .command
  else if c = 'P' then .device
  else if c = 'X' || c = '^' || c = '_' then .string
  else if within 0x30 0x7e c then .none
  else .escape

/-- How far a sequence has come after one more character, which is not shown. -/
def next (s : Sequence) (c : Char) : Sequence :=
  if c = '\x1b' then .escape
  else if c = '\x18' || c = '\x1a' then .none
  else match s with
    | .none => .none
    | .escape => introduced c
    | .intermediate => if within 0x30 0x7e c then .none else .intermediate
    | .control => if within 0x40 0x7e c then .none else .control
    | .device =>
      if within 0x20 0x2f c then .deviceIntermediate
      else if within 0x30 0x3f c then .deviceParameters
      else if within 0x40 0x7e c then .string
      else .device
    | .deviceParameters =>
      if within 0x20 0x2f c then .deviceIntermediate
      else if within 0x3c 0x7e c then .string
      else .deviceParameters
    | .deviceIntermediate => if within 0x30 0x7e c then .string else .deviceIntermediate
    | .string => if endsString c then .none else .string
    | .command => if c = '\x07' then .none else .command

/-- Whether layout is shown at this point of a sequence. -/
def showsLayout : Sequence → Bool
  | .none | .escape | .intermediate | .control => true
  | _ => false

end Sequence

/-- The control characters that lay a text out. -/
def isLayout (c : Char) : Bool :=
  c == '\t' || c == '\n' || c == '\x0c' || c == '\r'

/-- A character that is shown as it is: no control character below U+0080. -/
def isPrintable (c : Char) : Bool :=
  ' ' ≤ c && c != '\x7f'

/-- Whether a character is shown; `shown` says whether the one before it was. -/
def isShown (shown : Bool) (s : Sequence) (c : Char) : Bool :=
  if isLayout c then shown || s.showsLayout else isPrintable c && (shown || s == .none)

/-- What is left of the rest of a text. -/
def plainFrom (shown : Bool) (s : Sequence) : List Char → List Char
  | [] => []
  | c :: rest =>
    if isShown shown s c then
      c :: plainFrom true (if 0x80 ≤ c.toNat then .none else s) rest
    else plainFrom false (s.next c) rest

/-- What is left of a text without control characters and sequences. -/
def plain (text : List Char) : List Char :=
  plainFrom false .none text

end Highlight1C.Text
