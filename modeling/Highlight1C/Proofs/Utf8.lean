import Highlight1C.Text.Utf8

/-!
# What the bytes of a text are

`encode` writes a text in UTF-8, and `IsUtf8` says of bytes that they are some text so written. Reading
undoes writing and reads nothing else:

* `decodeChar?_eq_some_iff`: one character is read exactly where its bytes stand in front;
* `decode_eq_ok_iff`: a text is read exactly from its own bytes;
* `decode_eq_error_iff`: where bytes are no text, the number of bytes that can be read is the length
  of the longest text in front of them, `LongestPrefix`.
-/

namespace Highlight1C.Text

/-- The bytes of a text in UTF-8. -/
def encode (text : List Char) : List UInt8 :=
  text.flatMap String.utf8EncodeChar

@[simp] theorem encode_nil : encode [] = [] := rfl

@[simp] theorem encode_cons (c : Char) (cs : List Char) :
    encode (c :: cs) = String.utf8EncodeChar c ++ encode cs := rfl

@[simp] theorem encode_append (a b : List Char) : encode (a ++ b) = encode a ++ encode b :=
  List.flatMap_append

/-- Bytes that are a text in UTF-8. -/
def IsUtf8 (bytes : List UInt8) : Prop :=
  bytes.toByteArray.IsValidUTF8

theorem isUtf8_iff (bytes : List UInt8) : IsUtf8 bytes ↔ ∃ text, encode text = bytes := by
  constructor
  · rintro ⟨text, h⟩
    exact ⟨text, by simpa [List.utf8Encode, encode] using h.symm⟩
  · rintro ⟨text, rfl⟩
    exact ⟨text, rfl⟩

theorem isUtf8_encode (text : List Char) : IsUtf8 (encode text) :=
  ⟨text, rfl⟩

/-! ## One character -/

/-- The numbers that characters have. -/
theorem toNat_range (c : Char) : c.toNat < 0xd800 ∨ 0xdfff < c.toNat ∧ c.toNat < 0x110000 :=
  c.valid

theorem toNat_ofNat_of_range {n : Nat} (h : n < 0xd800 ∨ 0xdfff < n ∧ n < 0x110000) :
    (Char.ofNat n).toNat = n := by
  rw [Char.ofNat, dif_pos (show n.isValidChar from h)]
  rfl

theorem ofNat_eq_of_toNat_eq {n : Nat} {a : UInt8} (h : n = a.toNat) : UInt8.ofNat n = a := by
  rw [h, UInt8.ofNat_toNat]

/-- Whether a byte continues a character, by its number. -/
def Tail (b : UInt8) : Prop :=
  0x80 ≤ b.toNat ∧ b.toNat ≤ 0xbf

theorem isTail_iff (b : UInt8) : isTail b = true ↔ Tail b := by
  simp [isTail, Tail, UInt8.le_iff_toNat_le]

-- `simp` cannot use the equation of the definition itself: it would count down from `0x80`
theorem tailBits_eq (b : UInt8) : tailBits b = b.toNat - 0x80 := rfl

/-- A lower bound on the second byte, which is closer behind one of the first bytes. -/
theorem low_le_iff (a b least low : UInt8) (h : 0x80 ≤ low.toNat) :
    (if a = least then low else 0x80) ≤ b ↔ 0x80 ≤ b.toNat ∧ (a = least → low.toNat ≤ b.toNat) := by
  by_cases ha : a = least
  · simp only [ha, if_true, UInt8.le_iff_toNat_le, true_imp_iff]
    omega
  · simp [ha, UInt8.le_iff_toNat_le]

/-- An upper bound on the second byte, which is closer behind one of the first bytes. -/
theorem le_high_iff (a b most high : UInt8) (h : high.toNat ≤ 0xbf) :
    (b ≤ if a = most then high else 0xbf) ↔ b.toNat ≤ 0xbf ∧ (a = most → b.toNat ≤ high.toNat) := by
  by_cases ha : a = most
  · simp only [ha, if_true, UInt8.le_iff_toNat_le, true_imp_iff]
    omega
  · simp [ha, UInt8.le_iff_toNat_le]

/-- The bytes that stand for one character, the first apart: the shortest form, no surrogate and
nothing above U+10FFFF. -/
inductive CharBytes : UInt8 → List UInt8 → Prop where
  | one {a : UInt8} (ha : a.toNat < 0x80) : CharBytes a []
  | two {a b : UInt8} (ha : 0xc2 ≤ a.toNat ∧ a.toNat ≤ 0xdf) (hb : Tail b) : CharBytes a [b]
  | three {a b c : UInt8} (ha : 0xe0 ≤ a.toNat ∧ a.toNat ≤ 0xef) (hb : Tail b)
    (hlow : a = 0xe0 → 0xa0 ≤ b.toNat) (hhigh : a = 0xed → b.toNat ≤ 0x9f) (hc : Tail c) :
    CharBytes a [b, c]
  | four {a b c d : UInt8} (ha : 0xf0 ≤ a.toNat ∧ a.toNat ≤ 0xf4) (hb : Tail b)
    (hlow : a = 0xf0 → 0x90 ≤ b.toNat) (hhigh : a = 0xf4 → b.toNat ≤ 0x8f) (hc : Tail c)
    (hd : Tail d) : CharBytes a [b, c, d]

/-- The number of the character that bytes stand for. -/
def codeOf (a : UInt8) : List UInt8 → Nat
  | [] => a.toNat
  | [b] => (a.toNat - 0xc0) * 64 + tailBits b
  | [b, c] => ((a.toNat - 0xe0) * 64 + tailBits b) * 64 + tailBits c
  | b :: c :: d :: _ =>
    (((a.toNat - 0xf0) * 64 + tailBits b) * 64 + tailBits c) * 64 + tailBits d

/-- What stands for a character is read as that character, whatever follows. -/
theorem decodeChar?_of_charBytes {a : UInt8} {more : List UInt8} (h : CharBytes a more)
    (left : List UInt8) :
    decodeChar? a (more ++ left) = some (Char.ofNat (codeOf a more), more.length) := by
  unfold decodeChar?
  simp only [Bool.and_eq_true, decide_eq_true_eq]
  cases h with
  | one ha => rw [if_pos (by simpa [UInt8.lt_iff_toNat_lt] using ha)]; rfl
  | two ha hb =>
    rw [if_neg (by simp [UInt8.lt_iff_toNat_lt]; omega),
      if_pos (by simpa [UInt8.le_iff_toNat_le] using ha)]
    simp only [List.cons_append, List.nil_append]
    rw [if_pos ((isTail_iff _).mpr hb)]
    rfl
  | three ha hb hlow hhigh hc =>
    rw [if_neg (by simp [UInt8.lt_iff_toNat_lt]; omega),
      if_neg (by simp [UInt8.le_iff_toNat_le]; omega),
      if_pos (by simpa [UInt8.le_iff_toNat_le] using ha)]
    simp only [List.cons_append, List.nil_append]
    rw [if_pos]
    · rfl
    · rw [low_le_iff _ _ _ _ (by decide), le_high_iff _ _ _ _ (by decide), isTail_iff]
      exact ⟨⟨⟨hb.1, hlow⟩, hb.2, hhigh⟩, hc⟩
  | four ha hb hlow hhigh hc hd =>
    rw [if_neg (by simp [UInt8.lt_iff_toNat_lt]; omega),
      if_neg (by simp [UInt8.le_iff_toNat_le]; omega),
      if_neg (by simp [UInt8.le_iff_toNat_le]; omega),
      if_pos (by simpa [UInt8.le_iff_toNat_le] using ha)]
    simp only [List.cons_append, List.nil_append]
    rw [if_pos]
    · rfl
    · rw [low_le_iff _ _ _ _ (by decide), le_high_iff _ _ _ _ (by decide), isTail_iff, isTail_iff]
      exact ⟨⟨⟨⟨hb.1, hlow⟩, hb.2, hhigh⟩, hc⟩, hd⟩

/-- What is read as a character stands for it, and what follows is not looked at. -/
theorem charBytes_of_decodeChar? {a : UInt8} {rest : List UInt8} {c : Char} {n : Nat}
    (h : decodeChar? a rest = some (c, n)) :
    ∃ more left, rest = more ++ left ∧ CharBytes a more ∧ c = Char.ofNat (codeOf a more) ∧
      n = more.length := by
  unfold decodeChar? at h
  -- the first byte tells how many there are
  split at h
  · next ha =>
    obtain ⟨rfl, rfl⟩ := Prod.mk.inj (Option.some.inj h)
    exact ⟨[], rest, rfl, .one (by simpa [UInt8.lt_iff_toNat_lt] using ha), rfl, rfl⟩
  split at h
  · next ha =>
    split at h
    · rw [Option.ite_none_right_eq_some, isTail_iff] at h
      obtain ⟨hb, h⟩ := h
      obtain ⟨rfl, rfl⟩ := Prod.mk.inj (Option.some.inj h)
      exact ⟨[_], _, rfl, .two (by simpa [UInt8.le_iff_toNat_le] using ha) hb, rfl, rfl⟩
    · cases h
  split at h
  · next ha =>
    split at h
    · simp only [Option.ite_none_right_eq_some, Bool.and_eq_true, decide_eq_true_eq,
        low_le_iff _ _ 0xe0 0xa0 (by decide), le_high_iff _ _ 0xed 0x9f (by decide), isTail_iff] at h
      obtain ⟨⟨⟨hl, hh⟩, hc⟩, h⟩ := h
      obtain ⟨rfl, rfl⟩ := Prod.mk.inj (Option.some.inj h)
      exact ⟨[_, _], _, rfl, .three (by simpa [UInt8.le_iff_toNat_le] using ha) ⟨hl.1, hh.1⟩ hl.2
        hh.2 hc, rfl, rfl⟩
    · cases h
  split at h
  · next ha =>
    split at h
    · simp only [Option.ite_none_right_eq_some, Bool.and_eq_true, decide_eq_true_eq,
        low_le_iff _ _ 0xf0 0x90 (by decide), le_high_iff _ _ 0xf4 0x8f (by decide), isTail_iff] at h
      obtain ⟨⟨⟨⟨hl, hh⟩, hc⟩, hd⟩, h⟩ := h
      obtain ⟨rfl, rfl⟩ := Prod.mk.inj (Option.some.inj h)
      exact ⟨[_, _, _], _, rfl, .four (by simpa [UInt8.le_iff_toNat_le] using ha) ⟨hl.1, hh.1⟩ hl.2
        hh.2 hc hd, rfl, rfl⟩
    · cases h
  · cases h

/-- The bytes of the character with a number. -/
theorem encodeChar_of_toNat {c : Char} {n : Nat} (h : c.toNat = n) :
    String.utf8EncodeChar c =
      if n ≤ 0x7f then [UInt8.ofNat n]
      else if n ≤ 0x7ff then [UInt8.ofNat (n / 64 % 32 + 0xc0), UInt8.ofNat (n % 64 + 0x80)]
      else if n ≤ 0xffff then
        [UInt8.ofNat (n / 4096 % 16 + 0xe0), UInt8.ofNat (n / 64 % 64 + 0x80),
          UInt8.ofNat (n % 64 + 0x80)]
      else
        [UInt8.ofNat (n / 262144 % 8 + 0xf0), UInt8.ofNat (n / 4096 % 64 + 0x80),
          UInt8.ofNat (n / 64 % 64 + 0x80), UInt8.ofNat (n % 64 + 0x80)] := by
  subst h
  rfl

/-- No bytes stand for a surrogate or for a number above U+10FFFF. -/
theorem codeOf_range {a : UInt8} {more : List UInt8} (h : CharBytes a more) :
    codeOf a more < 0xd800 ∨ 0xdfff < codeOf a more ∧ codeOf a more < 0x110000 := by
  cases h <;>
    simp only [codeOf, tailBits_eq, Tail, ← UInt8.toNat_inj, UInt8.toNat_ofNat] at * <;> omega

/-- The bytes of a character are those that stand for its number. -/
theorem encodeChar_of_charBytes {a : UInt8} {more : List UInt8} {c : Char} (h : CharBytes a more)
    (hc : c.toNat = codeOf a more) : String.utf8EncodeChar c = a :: more := by
  cases h with
  | one ha =>
    rw [encodeChar_of_toNat hc, codeOf, if_pos (by omega), UInt8.ofNat_toNat]
  | @two b ha hb =>
    simp only [codeOf, tailBits_eq, Tail] at hc hb
    rw [encodeChar_of_toNat hc, if_neg (by omega), if_pos (by omega),
      ofNat_eq_of_toNat_eq (a := a) (by omega), ofNat_eq_of_toNat_eq (a := b) (by omega)]
  | @three b c ha hb hlow hhigh hc' =>
    simp only [codeOf, tailBits_eq, Tail, ← UInt8.toNat_inj,
      UInt8.toNat_ofNat] at hc hb hlow hhigh hc'
    rw [encodeChar_of_toNat hc, if_neg (by omega), if_neg (by omega), if_pos (by omega),
      ofNat_eq_of_toNat_eq (a := a) (by omega), ofNat_eq_of_toNat_eq (a := b) (by omega),
      ofNat_eq_of_toNat_eq (a := c) (by omega)]
  | @four b c d ha hb hlow hhigh hc' hd =>
    simp only [codeOf, tailBits_eq, Tail, ← UInt8.toNat_inj,
      UInt8.toNat_ofNat] at hc hb hlow hhigh hc' hd
    rw [encodeChar_of_toNat hc, if_neg (by omega), if_neg (by omega), if_neg (by omega),
      ofNat_eq_of_toNat_eq (a := a) (by omega), ofNat_eq_of_toNat_eq (a := b) (by omega),
      ofNat_eq_of_toNat_eq (a := c) (by omega), ofNat_eq_of_toNat_eq (a := d) (by omega)]

/-- Every character has bytes. -/
theorem exists_charBytes (c : Char) :
    ∃ a more, CharBytes a more ∧ codeOf a more = c.toNat := by
  have hr := toNat_range c
  generalize c.toNat = n at hr
  -- the length of the form goes with the size of the number
  by_cases h1 : n < 0x80
  · refine ⟨UInt8.ofNat n, [], .one ?_, ?_⟩ <;>
      simp only [codeOf, UInt8.toNat_ofNat'] <;> omega
  by_cases h2 : n < 0x800
  · refine ⟨UInt8.ofNat (n / 64 + 0xc0), [UInt8.ofNat (n % 64 + 0x80)], .two ?_ ?_, ?_⟩ <;>
      simp only [codeOf, tailBits_eq, Tail, UInt8.toNat_ofNat'] <;> omega
  by_cases h3 : n < 0x10000
  · refine ⟨UInt8.ofNat (n / 4096 + 0xe0), [UInt8.ofNat (n / 64 % 64 + 0x80),
      UInt8.ofNat (n % 64 + 0x80)], .three ?_ ?_ ?_ ?_ ?_, ?_⟩ <;>
      simp only [codeOf, tailBits_eq, Tail, ← UInt8.toNat_inj, UInt8.toNat_ofNat,
        UInt8.toNat_ofNat'] <;> omega
  · refine ⟨UInt8.ofNat (n / 262144 + 0xf0), [UInt8.ofNat (n / 4096 % 64 + 0x80),
      UInt8.ofNat (n / 64 % 64 + 0x80), UInt8.ofNat (n % 64 + 0x80)], .four ?_ ?_ ?_ ?_ ?_ ?_, ?_⟩ <;>
      simp only [codeOf, tailBits_eq, Tail, ← UInt8.toNat_inj, UInt8.toNat_ofNat,
        UInt8.toNat_ofNat'] <;> omega

/-- One character is read exactly where its bytes stand in front. -/
theorem decodeChar?_eq_some_iff (a : UInt8) (rest : List UInt8) (c : Char) (n : Nat) :
    decodeChar? a rest = some (c, n) ↔
      ∃ more left, rest = more ++ left ∧ n = more.length ∧ String.utf8EncodeChar c = a :: more := by
  constructor
  · intro h
    obtain ⟨more, left, rfl, hb, rfl, rfl⟩ := charBytes_of_decodeChar? h
    exact ⟨more, left, rfl, rfl,
      encodeChar_of_charBytes hb (toNat_ofNat_of_range (codeOf_range hb))⟩
  · rintro ⟨more, left, rfl, rfl, he⟩
    obtain ⟨a', more', hb, hc⟩ := exists_charBytes c
    obtain ⟨rfl, rfl⟩ := List.cons.inj ((encodeChar_of_charBytes hb hc.symm).symm.trans he)
    rw [decodeChar?_of_charBytes hb, hc, Char.ofNat_toNat]

/-! ## Texts -/

/-- Bytes whose first begins no character. -/
def Stuck : List UInt8 → Prop
  | [] => False
  | a :: rest => decodeChar? a rest = none

theorem decodeFrom_stuck {left : List UInt8} (h : Stuck left) (done : List Char) (offset : Nat) :
    decodeFrom done offset left = .error offset := by
  match left, h with
  | a :: rest, h => rw [decodeFrom, show decodeChar? a rest = none from h]

/-- Reading passes over the bytes of a text and has read that text. -/
theorem decodeFrom_encode_append (done : List Char) (offset : Nat) (text : List Char)
    (left : List UInt8) :
    decodeFrom done offset (encode text ++ left) =
      decodeFrom (text.reverse ++ done) (offset + (encode text).length) left := by
  induction text generalizing done offset with
  | nil => rfl
  | cons c cs ih =>
    obtain ⟨a, more, hb, hc⟩ := exists_charBytes c
    have he : String.utf8EncodeChar c = a :: more := encodeChar_of_charBytes hb hc.symm
    have hd := (decodeChar?_eq_some_iff a (more ++ (encode cs ++ left)) c more.length).mpr
      ⟨more, _, rfl, rfl, he⟩
    rw [encode_cons, he, List.append_assoc, List.cons_append, decodeFrom, hd]
    simp only [List.drop_left, ih, List.reverse_cons, List.append_assoc, List.length_append,
      List.length_cons, List.cons_append, List.nil_append]
    congr 1
    omega

/-- Bytes are those of a text and then bytes that begin no character, if any. -/
theorem exists_text_append (bytes : List UInt8) :
    ∃ text left, bytes = encode text ++ left ∧ (left = [] ∨ Stuck left) := by
  match bytes with
  | [] => exact ⟨[], [], rfl, .inl rfl⟩
  | a :: rest =>
    match h : decodeChar? a rest with
    | none => exact ⟨[], a :: rest, rfl, .inr h⟩
    | some (c, n) =>
      obtain ⟨more, behind, rfl, rfl, he⟩ := (decodeChar?_eq_some_iff a rest c n).mp h
      obtain ⟨text, left, rfl, hl⟩ := exists_text_append behind
      exact ⟨c :: text, left, by simp [he], hl⟩
termination_by bytes.length

theorem decode_encode (text : List Char) : decode (encode text) = .ok text := by
  have h := decodeFrom_encode_append [] 0 text []
  rw [List.append_nil] at h
  rw [decode, h, decodeFrom, List.append_nil, List.reverse_reverse]

theorem decode_of_stuck (text : List Char) {left : List UInt8} (h : Stuck left) :
    decode (encode text ++ left) = .error (encode text).length := by
  rw [decode, decodeFrom_encode_append, decodeFrom_stuck h, Nat.zero_add]

/-- A text is read exactly from its own bytes. -/
theorem decode_eq_ok_iff (bytes : List UInt8) (text : List Char) :
    decode bytes = .ok text ↔ encode text = bytes := by
  constructor
  · intro h
    obtain ⟨found, left, rfl, rfl | hs⟩ := exists_text_append bytes
    · rw [List.append_nil, decode_encode] at h
      rw [List.append_nil, Except.ok.inj h]
    · rw [decode_of_stuck found hs] at h
      cases h
  · rintro rfl
    exact decode_encode text

/-- Bytes are read exactly if they are a text. -/
theorem isUtf8_iff_exists_decode (bytes : List UInt8) :
    IsUtf8 bytes ↔ ∃ text, decode bytes = .ok text := by
  simp only [isUtf8_iff, decode_eq_ok_iff]

/-- Where bytes cannot be read they are a text, as far as is said, and then begin no character. -/
theorem decode_eq_error {bytes : List UInt8} {n : Nat} (h : decode bytes = .error n) :
    ∃ text left, bytes = encode text ++ left ∧ Stuck left ∧ n = (encode text).length := by
  obtain ⟨text, left, rfl, rfl | hs⟩ := exists_text_append bytes
  · rw [List.append_nil, decode_encode] at h
    cases h
  · rw [decode_of_stuck text hs] at h
    exact ⟨text, left, rfl, hs, (Except.error.inj h).symm⟩

/-- Reading that fails fails no earlier than it begins. -/
theorem le_of_decodeFrom_eq_error {done : List Char} {offset n : Nat} {bytes : List UInt8}
    (h : decodeFrom done offset bytes = .error n) : offset ≤ n := by
  fun_induction decodeFrom done offset bytes with
  | case1 => cases h
  | case2 => exact Nat.le_of_eq (Except.error.inj h)
  | case3 done offset a rest c more hd ih =>
    have hle := ih h
    omega

/-- The length `n` of the longest text in front of bytes. -/
structure LongestPrefix (bytes : List UInt8) (n : Nat) : Prop where
  reached : ∃ front, front <+: bytes ∧ IsUtf8 front ∧ front.length = n
  longest : ∀ front, front <+: bytes → IsUtf8 front → front.length ≤ n

theorem LongestPrefix.unique {bytes : List UInt8} {m n : Nat} (hm : LongestPrefix bytes m)
    (hn : LongestPrefix bytes n) : m = n := by
  obtain ⟨p, hp, hpu, rfl⟩ := hm.reached
  obtain ⟨q, hq, hqu, rfl⟩ := hn.reached
  exact Nat.le_antisymm (hn.longest p hp hpu) (hm.longest q hq hqu)

theorem longestPrefix_of_decode {bytes : List UInt8} {n : Nat} (h : decode bytes = .error n) :
    LongestPrefix bytes n := by
  refine ⟨?_, fun front ⟨left, hl⟩ hf => ?_⟩
  · obtain ⟨text, left, rfl, _, rfl⟩ := decode_eq_error h
    exact ⟨encode text, List.prefix_append _ _, isUtf8_encode text, rfl⟩
  · obtain ⟨text, rfl⟩ := (isUtf8_iff front).mp hf
    rw [← hl, decode, decodeFrom_encode_append, Nat.zero_add] at h
    exact le_of_decodeFrom_eq_error h

/-- Where bytes are no text, reading tells the length of the longest text in front of them. -/
theorem decode_eq_error_iff (bytes : List UInt8) (n : Nat) :
    decode bytes = .error n ↔ ¬ IsUtf8 bytes ∧ LongestPrefix bytes n := by
  constructor
  · intro h
    refine ⟨fun hu => ?_, longestPrefix_of_decode h⟩
    obtain ⟨text, ht⟩ := (isUtf8_iff_exists_decode bytes).mp hu
    rw [ht] at h
    cases h
  · rintro ⟨hu, hn⟩
    cases hm : decode bytes with
    | ok text => exact absurd ((isUtf8_iff_exists_decode bytes).mpr ⟨text, hm⟩) hu
    | error m => rw [(longestPrefix_of_decode hm).unique hn]

/-! ## Behind a text -/

/-- What stands behind a text is read as it is alone. -/
theorem decode_encode_append (text : List Char) (body : List UInt8) :
    decode (encode text ++ body) =
      match decode body with
      | .ok more => .ok (text ++ more)
      | .error n => .error ((encode text).length + n) := by
  cases h : decode body with
  | ok more =>
    rw [(decode_eq_ok_iff body more).mp h |>.symm, ← encode_append, decode_encode]
  | error n =>
    obtain ⟨front, left, rfl, hs, rfl⟩ := decode_eq_error h
    rw [← List.append_assoc, ← encode_append, decode_of_stuck _ hs, encode_append,
      List.length_append]

/-- The byte order mark is a character like others. -/
theorem encode_byteOrderMarkChar : encode [byteOrderMarkChar] = byteOrderMark := by
  decide

end Highlight1C.Text
