import Mathlib.Data.List.Basic

/-!
# Data.Base64 — the standard alphabet, padded and strict

`encode` is `base64.StdEncoding.EncodeToString`, `decode` is `base64.StdEncoding.Strict().Decode`:
four letters a quantum, `=` padding only at the end, the bits that padding leaves over zero, and
line breaks ignored. Text is a list of characters.

`decode_encode` is the round trip; `decodeCanonical` is decoding that also refuses every other
spelling of the same bytes, and `decodeCanonical_iff` says that it accepts exactly the encodings.
-/

namespace TailscaleDart.Base64

/-- The letter of a sextet: `A-Z`, `a-z`, `0-9`, `+`, `/`. -/
def letter (n : Nat) : Char :=
  if n < 26 then Char.ofNat ('A'.toNat + n)
  else if n < 52 then Char.ofNat ('a'.toNat + (n - 26))
  else if n < 62 then Char.ofNat ('0'.toNat + (n - 52))
  else if n = 62 then '+'
  else '/'

/-- The sextet of a letter. -/
def sextet (c : Char) : Option Nat :=
  if 'A' ≤ c ∧ c ≤ 'Z' then some (c.toNat - 'A'.toNat)
  else if 'a' ≤ c ∧ c ≤ 'z' then some (c.toNat - 'a'.toNat + 26)
  else if '0' ≤ c ∧ c ≤ '9' then some (c.toNat - '0'.toNat + 52)
  else if c = '+' then some 62
  else if c = '/' then some 63
  else none

theorem sextet_letter (n : Nat) (h : n < 64) : sextet (letter n) = some n := by
  have hall : ∀ i : Fin 64, sextet (letter i) = some i.val := by decide +kernel
  exact hall ⟨n, h⟩

theorem letter_ne_pad (n : Nat) (h : n < 64) : letter n ≠ '=' := by
  have hall : ∀ i : Fin 64, letter i ≠ '=' := by decide +kernel
  exact hall ⟨n, h⟩

def encode : List UInt8 → List Char
  | [] => []
  | [a] => [letter (a.toNat / 4), letter (a.toNat % 4 * 16), '=', '=']
  | [a, b] => [letter (a.toNat / 4), letter (a.toNat % 4 * 16 + b.toNat / 16), letter (b.toNat % 16 * 4), '=']
  | a :: b :: c :: rest =>
    letter (a.toNat / 4) :: letter (a.toNat % 4 * 16 + b.toNat / 16) ::
      letter (b.toNat % 16 * 4 + c.toNat / 64) :: letter (c.toNat % 64) :: encode rest

theorem length_encode (bytes : List UInt8) : (encode bytes).length = 4 * ((bytes.length + 2) / 3) := by
  fun_induction encode bytes with
  | case1 => rfl
  | case2 a => simp
  | case3 a b => simp
  | case4 a b c rest ih =>
    simp only [List.length_cons, ih]
    omega

/-- The one byte of a quantum padded twice. -/
def decode1 (w x : Char) : Option (List UInt8) := do
  let w ← sextet w
  let x ← sextet x
  if x % 16 = 0 then some [UInt8.ofNat (w * 4 + x / 16)] else none

/-- The two bytes of a quantum padded once. -/
def decode2 (w x y : Char) : Option (List UInt8) := do
  let w ← sextet w
  let x ← sextet x
  let y ← sextet y
  if y % 4 = 0 then
    some [UInt8.ofNat (w * 4 + x / 16), UInt8.ofNat (x % 16 * 16 + y / 4)]
  else none

/-- The three bytes of a full quantum. -/
def decode3 (w x y z : Char) : Option (List UInt8) := do
  let w ← sextet w
  let x ← sextet x
  let y ← sextet y
  let z ← sextet z
  some [UInt8.ofNat (w * 4 + x / 16), UInt8.ofNat (x % 16 * 16 + y / 4), UInt8.ofNat (y % 4 * 64 + z)]

/-- The quanta, once line breaks are gone. Padding ends the text. -/
def decodeQuanta : List Char → Option (List UInt8)
  | [] => some []
  | w :: x :: y :: z :: rest =>
    if z = '=' then
      if rest = [] then if y = '=' then decode1 w x else decode2 w x y
      else none
    else do
      let bytes ← decode3 w x y z
      let more ← decodeQuanta rest
      some (bytes ++ more)
  | _ => none

def decode (text : List Char) : Option (List UInt8) :=
  decodeQuanta (text.filter fun c => c ≠ '\r' ∧ c ≠ '\n')

/-! ## The round trip -/

theorem ofNat_toNat (a : UInt8) {n : Nat} (h : n = a.toNat) : UInt8.ofNat n = a := by
  subst h
  exact UInt8.ofNat_toNat

theorem decode1_letters (a : UInt8) : decode1 (letter (a.toNat / 4)) (letter (a.toNat % 4 * 16)) = some [a] := by
  have ha := a.toNat_lt
  have h : UInt8.ofNat (a.toNat / 4 * 4 + a.toNat % 4 * 16 / 16) = a := ofNat_toNat a (by omega)
  have hpad : a.toNat % 4 * 16 % 16 = 0 := by omega
  simp only [decode1, sextet_letter _ (show a.toNat / 4 < 64 by omega),
    sextet_letter _ (show a.toNat % 4 * 16 < 64 by omega), Option.bind_eq_bind, Option.bind_some,
    hpad, if_true, h]

theorem decode2_letters (a b : UInt8) : decode2 (letter (a.toNat / 4)) (letter (a.toNat % 4 * 16 + b.toNat / 16))
      (letter (b.toNat % 16 * 4)) = some [a, b] := by
  have ha := a.toNat_lt
  have hb := b.toNat_lt
  have h1 : UInt8.ofNat (a.toNat / 4 * 4 + (a.toNat % 4 * 16 + b.toNat / 16) / 16) = a :=
    ofNat_toNat a (by omega)
  have h2 : UInt8.ofNat ((a.toNat % 4 * 16 + b.toNat / 16) % 16 * 16 + b.toNat % 16 * 4 / 4) = b :=
    ofNat_toNat b (by omega)
  have hpad : b.toNat % 16 * 4 % 4 = 0 := by omega
  simp only [decode2, sextet_letter _ (show a.toNat / 4 < 64 by omega),
    sextet_letter _ (show a.toNat % 4 * 16 + b.toNat / 16 < 64 by omega),
    sextet_letter _ (show b.toNat % 16 * 4 < 64 by omega), Option.bind_eq_bind, Option.bind_some,
    hpad, if_true, h1, h2]

theorem decode3_letters (a b c : UInt8) : decode3 (letter (a.toNat / 4)) (letter (a.toNat % 4 * 16 + b.toNat / 16))
      (letter (b.toNat % 16 * 4 + c.toNat / 64)) (letter (c.toNat % 64)) = some [a, b, c] := by
  have ha := a.toNat_lt
  have hb := b.toNat_lt
  have hc := c.toNat_lt
  have h1 : UInt8.ofNat (a.toNat / 4 * 4 + (a.toNat % 4 * 16 + b.toNat / 16) / 16) = a :=
    ofNat_toNat a (by omega)
  have h2 : UInt8.ofNat ((a.toNat % 4 * 16 + b.toNat / 16) % 16 * 16 +
      (b.toNat % 16 * 4 + c.toNat / 64) / 4) = b := ofNat_toNat b (by omega)
  have h3 : UInt8.ofNat ((b.toNat % 16 * 4 + c.toNat / 64) % 4 * 64 + c.toNat % 64) = c :=
    ofNat_toNat c (by omega)
  simp only [decode3, sextet_letter _ (show a.toNat / 4 < 64 by omega),
    sextet_letter _ (show a.toNat % 4 * 16 + b.toNat / 16 < 64 by omega),
    sextet_letter _ (show b.toNat % 16 * 4 + c.toNat / 64 < 64 by omega),
    sextet_letter _ (show c.toNat % 64 < 64 by omega), Option.bind_eq_bind, Option.bind_some,
    h1, h2, h3]

theorem decodeQuanta_encode : ∀ bytes : List UInt8, decodeQuanta (encode bytes) = some bytes
  | [] => rfl
  | [a] => by simp only [encode, decodeQuanta, if_true, decode1_letters]
  | [a, b] => by
    have hb := b.toNat_lt
    have hne := letter_ne_pad (b.toNat % 16 * 4) (by omega)
    simp only [encode, decodeQuanta, if_true, hne, if_false, decode2_letters]
  | a :: b :: c :: rest => by
    have hc := c.toNat_lt
    have hne := letter_ne_pad (c.toNat % 64) (by omega)
    simp only [encode, decodeQuanta, hne, if_false, decode3_letters, decodeQuanta_encode rest,
      Option.bind_eq_bind, Option.bind_some, List.cons_append, List.nil_append]

/-- A character that base64 text may contain. -/
def isText (c : Char) : Bool := (sextet c).isSome || c = '='

theorem isText_ascii {c : Char} (h : isText c = true) : c.toNat < 0x80 := by
  have hle : ∀ {d : Char}, c ≤ d → d.toNat < 0x80 → c.toNat < 0x80 := by
    intro d hd hbound
    exact Nat.lt_of_le_of_lt (UInt32.le_iff_toNat_le.mp (Char.le_def.mp hd)) hbound
  unfold isText sextet at h
  split at h
  case isTrue hc => exact hle hc.2 (by decide)
  split at h
  case isTrue hc => exact hle hc.2 (by decide)
  split at h
  case isTrue hc => exact hle hc.2 (by decide)
  split at h
  case isTrue hc => exact hc ▸ (by decide)
  split at h
  case isTrue hc => exact hc ▸ (by decide)
  obtain rfl : c = '=' := by simpa using h
  decide

theorem letter_isText (n : Nat) (h : n < 64) : isText (letter n) = true := by
  have hall : ∀ i : Fin 64, isText (letter i) = true := by decide +kernel
  exact hall ⟨n, h⟩

theorem encode_isText : ∀ (bytes : List UInt8), ∀ c ∈ encode bytes, isText c = true
  | [], _, h => by cases h
  | [a], c, h => by
    have ha := a.toNat_lt
    simp only [encode, List.mem_cons, List.not_mem_nil, or_false] at h
    rcases h with rfl | rfl | rfl | rfl
    · exact letter_isText _ (by omega)
    · exact letter_isText _ (by omega)
    · rfl
    · rfl
  | [a, b], c, h => by
    have ha := a.toNat_lt
    have hb := b.toNat_lt
    simp only [encode, List.mem_cons, List.not_mem_nil, or_false] at h
    rcases h with rfl | rfl | rfl | rfl
    · exact letter_isText _ (by omega)
    · exact letter_isText _ (by omega)
    · exact letter_isText _ (by omega)
    · rfl
  | a :: b :: c' :: rest, c, h => by
    have ha := a.toNat_lt
    have hb := b.toNat_lt
    have hc := c'.toNat_lt
    simp only [encode, List.mem_cons] at h
    rcases h with rfl | rfl | rfl | rfl | h
    · exact letter_isText _ (by omega)
    · exact letter_isText _ (by omega)
    · exact letter_isText _ (by omega)
    · exact letter_isText _ (by omega)
    · exact encode_isText rest c h

theorem decode_encode (bytes : List UInt8) : decode (encode bytes) = some bytes := by
  have hfilter : (encode bytes).filter (fun c => c ≠ '\r' ∧ c ≠ '\n') = encode bytes := by
    refine List.filter_eq_self.mpr fun c hc => ?_
    have htext := encode_isText bytes c hc
    refine decide_eq_true ⟨?_, ?_⟩ <;>
    · rintro rfl
      exact absurd htext (by decide)
  rw [decode, hfilter, decodeQuanta_encode]

/-- `decode`, refusing every text that is not the encoding of what it decodes to. -/
def decodeCanonical (text : List Char) : Option (List UInt8) := do
  let bytes ← decode text
  if encode bytes = text then some bytes else none

theorem decodeCanonical_iff {text : List Char} {bytes : List UInt8} :
    decodeCanonical text = some bytes ↔ text = encode bytes := by
  constructor
  · intro h
    obtain ⟨bytes', -, hif⟩ := Option.bind_eq_some_iff.mp h
    by_cases hcanon : encode bytes' = text
    · rw [if_pos hcanon] at hif
      rw [← Option.some.inj hif, hcanon]
    · rw [if_neg hcanon] at hif
      cases hif
  · rintro rfl
    simp only [decodeCanonical, decode_encode, Option.bind_eq_bind, Option.bind_some, if_true]

end TailscaleDart.Base64
