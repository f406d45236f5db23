/-!
# Reading UTF-8

Bytes are read as characters by the strict rules: the shortest form only, no surrogates, nothing above
U+10FFFF. `decode` gives the text, or the number of bytes up to the first that is no part of a
character.
-/

namespace Highlight1C.Text

/-- Whether a byte continues a character. -/
def isTail (b : UInt8) : Bool :=
  0x80 ≤ b && b ≤ 0xbf

/-- The six bits of a byte that continues a character. -/
def tailBits (b : UInt8) : Nat :=
  b.toNat - 0x80

/-- The character that a byte begins together with those after it, and how many of those it takes. -/
@[inline] def decodeChar? (a : UInt8) (rest : List UInt8) : Option (Char × Nat) :=
  if a < 0x80 then some (Char.ofNat a.toNat, 0)
  else if 0xc2 ≤ a && a ≤ 0xdf then
    match rest with
    | b :: _ =>
      if isTail b then some (Char.ofNat ((a.toNat - 0xc0) * 64 + tailBits b), 1) else none
    | _ => none
  else if 0xe0 ≤ a && a ≤ 0xef then
    match rest with
    | b :: c :: _ =>
      let low : UInt8 := if a = 0xe0 then 0xa0 else 0x80
      let high : UInt8 := if a = 0xed then 0x9f else 0xbf
      if low ≤ b && b ≤ high && isTail c then
        some (Char.ofNat (((a.toNat - 0xe0) * 64 + tailBits b) * 64 + tailBits c), 2)
      else none
    | _ => none
  else if 0xf0 ≤ a && a ≤ 0xf4 then
    match rest with
    | b :: c :: d :: _ =>
      let low : UInt8 := if a = 0xf0 then 0x90 else 0x80
      let high : UInt8 := if a = 0xf4 then 0x8f else 0xbf
      if low ≤ b && b ≤ high && isTail c && isTail d then
        some (Char.ofNat ((((a.toNat - 0xf0) * 64 + tailBits b) * 64 + tailBits c) * 64 +
          tailBits d), 3)
      else none
    | _ => none
  else none

/-- Reads on, with the characters read so far, last first, and the number of their bytes. -/
def decodeFrom (done : List Char) (offset : Nat) : List UInt8 → Except Nat (List Char)
  | [] => .ok done.reverse
  | a :: rest =>
    match decodeChar? a rest with
    | none => .error offset
    | some (c, more) => decodeFrom (c :: done) (offset + 1 + more) (rest.drop more)
termination_by bytes => bytes.length
decreasing_by
  simp only [List.length_drop, List.length_cons]
  omega

/-- The text of a sequence of bytes, or the number of bytes that can be read. -/
def decode (bytes : List UInt8) : Except Nat (List Char) :=
  decodeFrom [] 0 bytes

/-- The bytes of the byte order mark. -/
def byteOrderMark : List UInt8 := [0xef, 0xbb, 0xbf]

/-- The byte order mark as a character. -/
def byteOrderMarkChar : Char := '\ufeff'

end Highlight1C.Text
