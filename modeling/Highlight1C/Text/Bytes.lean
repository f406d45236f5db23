/-!
# Texts measured in bytes

Offsets in a source count the bytes of its UTF-8 form, while texts here are lists of characters.
`byteLength` measures a text in bytes, and `cut?` cuts one at a byte offset, which must fall between
two characters.

* `byteLength_append`: lengths add up;
* `cut?_append`: a cut at the length of a first part gives the two parts back.
-/

namespace Highlight1C.Text

/-- The number of bytes of a text in UTF-8. -/
def byteLength (text : List Char) : Nat :=
  text.foldl (fun n c => n + c.utf8Size) 0

theorem foldl_utf8Size (n : Nat) (text : List Char) :
    text.foldl (fun n c => n + c.utf8Size) n = n + byteLength text := by
  unfold byteLength
  induction text generalizing n with
  | nil => rfl
  | cons c cs ih =>
    rw [List.foldl_cons, List.foldl_cons, ih (n + c.utf8Size), ih (0 + c.utf8Size)]
    omega

@[simp] theorem byteLength_nil : byteLength [] = 0 := rfl

@[simp] theorem byteLength_cons (c : Char) (cs : List Char) :
    byteLength (c :: cs) = c.utf8Size + byteLength cs := by
  rw [byteLength, List.foldl_cons, foldl_utf8Size, Nat.zero_add]

@[simp] theorem byteLength_append (a b : List Char) :
    byteLength (a ++ b) = byteLength a + byteLength b := by
  induction a with
  | nil => simp
  | cons c cs ih => simp [ih, Nat.add_assoc]

/-- Cuts `n` bytes from the front of `rest`, with what was cut before in `cut`, last character
first. -/
def cutFrom (cut : List Char) : Nat → List Char → Option (List Char × List Char)
  | 0, rest => some (cut.reverse, rest)
  | _ + 1, [] => none
  | n + 1, c :: rest =>
    if c.utf8Size ≤ n + 1 then cutFrom (c :: cut) (n + 1 - c.utf8Size) rest else none

/-- A text cut after its first `n` bytes. There is no such cut when the text is shorter, or when the
byte before the cut does not end a character. -/
def cut? (n : Nat) (text : List Char) : Option (List Char × List Char) :=
  cutFrom [] n text

/-- The text from byte `start` to byte `stop`, if both lie between characters, in order. -/
def slice? (start stop : Nat) (text : List Char) : Option (List Char) :=
  if start ≤ stop then do
    let (_, rest) ← cut? start text
    let (middle, _) ← cut? (stop - start) rest
    return middle
  else none

theorem cutFrom_append (cut a b : List Char) :
    cutFrom cut (byteLength a) (a ++ b) = some (cut.reverse ++ a, b) := by
  induction a generalizing cut with
  | nil => cases b <;> simp [cutFrom]
  | cons c cs ih =>
    have hpos := c.utf8Size_pos
    obtain ⟨m, hm⟩ : ∃ m, byteLength (c :: cs) = m + 1 := ⟨byteLength (c :: cs) - 1, by
      simp only [byteLength_cons]; omega⟩
    rw [hm, List.cons_append, cutFrom]
    rw [byteLength_cons] at hm
    rw [if_pos (by omega), show m + 1 - c.utf8Size = byteLength cs by omega, ih]
    simp

/-- A cut at the length of a first part gives the two parts back. -/
@[simp] theorem cut?_append (a b : List Char) : cut? (byteLength a) (a ++ b) = some (a, b) := by
  simp [cut?, cutFrom_append]

end Highlight1C.Text
