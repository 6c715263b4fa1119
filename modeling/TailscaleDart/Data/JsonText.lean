import Mathlib.Algebra.Ring.Int.Defs
import Mathlib.Data.List.Basic

/-!
# Data.JsonText — the lexemes of JSON text, as Go's `encoding/json` writes and reads them

Text is a list of characters (the callers have checked that it is UTF-8). A string lexeme is read
in two steps, as the decoder does it: `scanString` finds the closing quote and checks every escape,
`unquote` turns the text between the quotes into the characters it stands for. `quote` is the
encoder with HTML escaping on, which is `json.Marshal`.

`scanString_quoteTail` and `unquote_quoted` are the two halves of the round trip, over every list of
characters.
-/

namespace TailscaleDart.JsonText

abbrev Text := List Char

/-! ## Bytes -/

/-- The characters of a valid UTF-8 text, if it is one. -/
def decodeUtf8 (bytes : List UInt8) : Option (Text) :=
  (String.fromUTF8? ⟨bytes.toArray⟩).map String.toList

def encodeUtf8 (text : Text) : List UInt8 := (String.ofList text).toByteArray.data.toList

@[simp] theorem decodeUtf8_encodeUtf8 (text : Text) : decodeUtf8 (encodeUtf8 text) = some text := by
  have hbytes : (⟨(encodeUtf8 text).toArray⟩ : ByteArray) = (String.ofList text).toByteArray := by
    simp [encodeUtf8]
  have hvalid : String.fromUTF8? (String.ofList text).toByteArray = some (String.ofList text) := by
    rw [String.fromUTF8?, dif_pos (String.ofList text).isValidUTF8]
    rfl
  rw [decodeUtf8, hbytes, hvalid, Option.map_some, String.toList_ofList]

theorem encodeUtf8_eq_flatMap (text : Text) : encodeUtf8 text = text.flatMap String.utf8EncodeChar := by
  rw [encodeUtf8, String.toByteArray_ofList, List.utf8Encode, List.data_toByteArray]

theorem length_le_encodeUtf8 (text : Text) : text.length ≤ (encodeUtf8 text).length := by
  rw [encodeUtf8_eq_flatMap]
  induction text with
  | nil => exact Nat.zero_le _
  | cons c rest ih =>
    have hpos := c.utf8Size_pos
    simp only [List.flatMap_cons, List.length_cons, List.length_append, String.length_utf8EncodeChar]
    omega

theorem length_encodeUtf8_of_ascii {text : Text} (h : ∀ c ∈ text, c.toNat < 0x80) :
    (encodeUtf8 text).length = text.length := by
  rw [encodeUtf8_eq_flatMap]
  induction text with
  | nil => rfl
  | cons c rest ih =>
    have hone : c.utf8Size = 1 := by
      have hc := h c (.head _)
      rw [Char.utf8Size, if_pos]
      exact UInt32.le_iff_toNat_le.mpr (Nat.le_of_lt_succ hc)
    rw [List.flatMap_cons, List.length_append, String.length_utf8EncodeChar, hone,
      ih fun d hd => h d (.tail _ hd), List.length_cons, Nat.add_comm]

/-! ## White space -/

/-- White space between lexemes. -/
def isSpace (c : Char) : Bool := c = ' ' || c = '\t' || c = '\r' || c = '\n'

def skipSpace (text : Text) : Text := text.dropWhile isSpace

@[simp] theorem skipSpace_cons_of_not {c : Char} (h : isSpace c = false) (rest : Text) :
    skipSpace (c :: rest) = c :: rest := by
  simp only [skipSpace, List.dropWhile_cons, h, Bool.false_eq_true, if_false]

/-! ## Strings -/

/-- The value of a hexadecimal digit, in either case. -/
def hexValue (c : Char) : Option Nat :=
  if '0' ≤ c ∧ c ≤ '9' then some (c.toNat - '0'.toNat)
  else if 'a' ≤ c ∧ c ≤ 'f' then some (c.toNat - 'a'.toNat + 10)
  else if 'A' ≤ c ∧ c ≤ 'F' then some (c.toNat - 'A'.toNat + 10)
  else none

/-- The digit the encoder writes. -/
def hexDigit (n : Nat) : Char :=
  if n < 10 then Char.ofNat ('0'.toNat + n) else Char.ofNat ('a'.toNat + (n - 10))

theorem hexValue_hexDigit (n : Nat) (h : n < 16) : hexValue (hexDigit n) = some n := by
  have hall : ∀ i : Fin 16, hexValue (hexDigit i) = some i.val := by decide +kernel
  exact hall ⟨n, h⟩

/-- The code unit of the four digits after `\u`. -/
def codeUnit (a b c d : Char) : Option Nat := do
  let a ← hexValue a
  let b ← hexValue b
  let c ← hexValue c
  let d ← hexValue d
  some (((a * 16 + b) * 16 + c) * 16 + d)

/-- What a one-letter escape stands for. -/
def escaped (c : Char) : Option Char :=
  if c = '"' then some '"'
  else if c = '\\' then some '\\'
  else if c = '/' then some '/'
  else if c = 'b' then some (Char.ofNat 8)
  else if c = 'f' then some (Char.ofNat 12)
  else if c = 'n' then some '\n'
  else if c = 'r' then some '\r'
  else if c = 't' then some '\t'
  else none

/-- From just after the opening quote: the text up to the closing quote, and what follows it. A
control character, an unknown escape or a missing quote is an error. -/
def scanString : Text → Option (Text × Text)
  | [] => none
  | '"' :: rest => some ([], rest)
  | '\\' :: 'u' :: a :: b :: c :: d :: rest =>
    if (codeUnit a b c d).isSome then
      (scanString rest).map fun (raw, rest) => ('\\' :: 'u' :: a :: b :: c :: d :: raw, rest)
    else none
  | '\\' :: c :: rest =>
    if (escaped c).isSome then (scanString rest).map fun (raw, rest) => ('\\' :: c :: raw, rest)
    else none
  | c :: rest =>
    if c = '\\' ∨ c.toNat < 0x20 then none
    else (scanString rest).map fun (raw, rest) => (c :: raw, rest)

def replacementChar : Char := Char.ofNat 0xFFFD

def isSurrogate (n : Nat) : Bool := 0xD800 ≤ n && n < 0xE000

/-- The character of a surrogate pair, when it is one (`utf16.DecodeRune`). -/
def surrogatePair (hi lo : Nat) : Option Char :=
  if 0xD800 ≤ hi ∧ hi < 0xDC00 ∧ 0xDC00 ≤ lo ∧ lo < 0xE000 then
    some (Char.ofNat ((hi - 0xD800) * 0x400 + (lo - 0xDC00) + 0x10000))
  else none

/-- The characters a scanned text stands for. An escaped surrogate that is not half of a pair
becomes the replacement character. -/
def unquote : Text → Text
  | [] => []
  | '\\' :: 'u' :: a :: b :: c :: d :: rest =>
    let unit := (codeUnit a b c d).getD 0
    if isSurrogate unit then
      match rest with
      | '\\' :: 'u' :: a' :: b' :: c' :: d' :: rest' =>
        match surrogatePair unit ((codeUnit a' b' c' d').getD 0) with
        | some r => r :: unquote rest'
        | none => replacementChar :: unquote ('\\' :: 'u' :: a' :: b' :: c' :: d' :: rest')
      | rest => replacementChar :: unquote rest
    else Char.ofNat unit :: unquote rest
  | '\\' :: c :: rest => (escaped c).getD c :: unquote rest
  | c :: rest => c :: unquote rest

/-- The escape `\u00xx` of a character below 256, or `\u20xx` of a line separator. -/
def quoteUnit (n : Nat) : Text :=
  ['\\', 'u', hexDigit (n / 4096 % 16), hexDigit (n / 256 % 16), hexDigit (n / 16 % 16), hexDigit (n % 16)]

/-- One character, as `json.Marshal` writes it inside a string. -/
def quoteChar (c : Char) : Text :=
  if c = '"' then ['\\', '"']
  else if c = '\\' then ['\\', '\\']
  else if c.toNat = 8 then ['\\', 'b']
  else if c.toNat = 12 then ['\\', 'f']
  else if c = '\n' then ['\\', 'n']
  else if c = '\r' then ['\\', 'r']
  else if c = '\t' then ['\\', 't']
  else if c.toNat < 0x20 ∨ c = '<' ∨ c = '>' ∨ c = '&' ∨ c.toNat = 0x2028 ∨ c.toNat = 0x2029 then
    quoteUnit c.toNat
  else [c]

/-- A string lexeme without its opening quote. -/
def quoteTail (text : Text) : Text := text.flatMap quoteChar ++ ['"']

def quote (text : Text) : Text := '"' :: quoteTail text

/-- The three forms a quoted character takes: itself, a one-letter escape, or the escape of its code
unit. Everything below about `quoteChar` goes through this. -/
inductive Written : Char → Text → Prop
  | plain (c : Char) (hquote : c ≠ '"') (hslash : c ≠ '\\') (hspace : ¬ c.toNat < 0x20) : Written c [c]
  | short (c e : Char) (he : escaped e = some c) (hu : e ≠ 'u') : Written c ['\\', e]
  | unit (c : Char) (a b d e : Char) (n : Nat) (hn : codeUnit a b d e = some n)
      (hs : isSurrogate n = false) (hc : Char.ofNat n = c) : Written c ['\\', 'u', a, b, d, e]

theorem written_quoteUnit (c : Char) (h : c.toNat < 0x3000) : Written c (quoteUnit c.toNat) := by
  refine .unit c _ _ _ _ c.toNat ?_ ?_ (Char.ofNat_toNat c)
  · have hdigits : ((c.toNat / 4096 % 16 * 16 + c.toNat / 256 % 16) * 16 + c.toNat / 16 % 16) * 16
        + c.toNat % 16 = c.toNat := by omega
    simp only [codeUnit, hexValue_hexDigit _ (Nat.mod_lt _ (by decide : 16 > 0)), Option.bind_eq_bind,
      Option.bind_some, hdigits]
  · simp only [isSurrogate, Bool.and_eq_false_imp, decide_eq_true_eq]
    omega

theorem toNat_inj {c d : Char} (h : c.toNat = d.toNat) : c = d := by
  rw [← Char.ofNat_toNat c, h, Char.ofNat_toNat]

theorem written_quoteChar (c : Char) : Written c (quoteChar c) := by
  unfold quoteChar
  split
  case isTrue h =>
    subst h
    exact .short _ '"' rfl (by decide)
  case isFalse hquote =>
  split
  case isTrue h =>
    subst h
    exact .short _ '\\' rfl (by decide)
  case isFalse hslash =>
  split
  case isTrue h => exact .short c 'b' (toNat_inj (d := Char.ofNat 8) h ▸ by decide) (by decide)
  split
  case isTrue h => exact .short c 'f' (toNat_inj (d := Char.ofNat 12) h ▸ by decide) (by decide)
  split
  case isTrue h => exact .short c 'n' (h ▸ by decide) (by decide)
  split
  case isTrue h => exact .short c 'r' (h ▸ by decide) (by decide)
  split
  case isTrue h => exact .short c 't' (h ▸ by decide) (by decide)
  split
  case isTrue h =>
    refine written_quoteUnit c ?_
    rcases h with h | rfl | rfl | rfl | h | h
    all_goals first | omega | decide
  case isFalse h => exact .plain c hquote hslash fun hlt => h (.inl hlt)

theorem scanString_written {c : Char} {w : Text} (hw : Written c w) (rest : Text) :
    scanString (w ++ rest) = (scanString rest).map fun (raw, rest) => (w ++ raw, rest) := by
  cases hw with
  | plain hquote hslash hspace =>
    rw [List.singleton_append, scanString]
    · simp only [hslash, hspace, or_self, if_false]
      rfl
    all_goals grind
  | short e he hu =>
    rw [List.cons_append, List.singleton_append, scanString]
    · simp only [he, Option.isSome_some, if_true]
      rfl
    · grind
  | unit a b d e n hn hs hc =>
    simp only [List.cons_append, List.nil_append, scanString, hn, Option.isSome_some, if_true]

theorem unquote_written {c : Char} {w : Text} (hw : Written c w) (rest : Text) :
    unquote (w ++ rest) = c :: unquote rest := by
  cases hw with
  | plain hquote hslash hspace =>
    rw [List.singleton_append, unquote]
    all_goals grind
  | short e he hu =>
    rw [List.cons_append, List.singleton_append, unquote]
    · simp only [he, Option.getD_some]
    · grind
  | unit a b d e n hn hs hc =>
    rw [List.cons_append, List.cons_append, unquote.eq_def]
    simp only [List.cons_append, List.nil_append, hn, Option.getD_some, hs, Bool.false_eq_true, if_false, hc]

theorem scanString_quoteTail (text rest : Text) :
    scanString (quoteTail text ++ rest) = some (text.flatMap quoteChar, rest) := by
  induction text with
  | nil => rfl
  | cons c text ih =>
    have hstep := scanString_written (written_quoteChar c) (quoteTail text ++ rest)
    rw [ih] at hstep
    simpa [quoteTail] using hstep

theorem unquote_quoted (text : Text) : unquote (text.flatMap quoteChar) = text := by
  induction text with
  | nil => rfl
  | cons c text ih => rw [List.flatMap_cons, unquote_written (written_quoteChar c), ih]

theorem scanString_plain (text rest : Text) (h : ∀ c ∈ text, c ≠ '"' ∧ c ≠ '\\' ∧ ¬ c.toNat < 0x20) :
    scanString (text ++ '"' :: rest) = some (text, rest) := by
  induction text with
  | nil => rfl
  | cons c text ih =>
    obtain ⟨hquote, hslash, hspace⟩ := h c (List.mem_cons_self ..)
    have hstep := scanString_written (.plain c hquote hslash hspace) (text ++ '"' :: rest)
    rw [ih fun d hd => h d (.tail _ hd)] at hstep
    simpa using hstep

theorem unquote_plain (text : Text) (h : ∀ c ∈ text, c ≠ '"' ∧ c ≠ '\\' ∧ ¬ c.toNat < 0x20) :
    unquote text = text := by
  induction text with
  | nil => rfl
  | cons c text ih =>
    obtain ⟨hquote, hslash, hspace⟩ := h c (List.mem_cons_self ..)
    have hstep := unquote_written (.plain c hquote hslash hspace) text
    rwa [ih fun d hd => h d (List.mem_cons_of_mem _ hd)] at hstep

/-! ## Numbers and the other scalar lexemes -/

def isDigit (c : Char) : Bool := '0' ≤ c && c ≤ '9'

def takeDigits (text : Text) : Text × Text := text.span isDigit

/-- The integer part of a number: its digits, with no leading zero, and what follows. -/
def scanDigits : Text → Option (Text × Text)
  | '0' :: rest => some (['0'], rest)
  | text => match takeDigits text with
    | ([], _) => none
    | (digits, rest) => some (digits, rest)

def scanFraction : Text → Option (Text)
  | '.' :: rest => match takeDigits rest with
    | ([], _) => none
    | (_, rest) => some rest
  | text => some text

def scanExponent : Text → Option (Text)
  | c :: rest =>
    if c = 'e' ∨ c = 'E' then
      let unsigned := match rest with
        | '+' :: rest => rest
        | '-' :: rest => rest
        | rest => rest
      match takeDigits unsigned with
      | ([], _) => none
      | (_, rest) => some rest
    else some (c :: rest)
  | [] => some []

/-- The values of `int`, where it has 64 bits. -/
abbrev IsInt64 (n : Int) : Prop := -2 ^ 63 ≤ n ∧ n < 2 ^ 63

def natOfDigits (digits : Text) : Nat :=
  digits.foldl (fun n c => n * 10 + (c.toNat - '0'.toNat)) 0

/-- The end of `scanInt`, after the digits. -/
def finishInt (negative : Bool) (digits rest : Text) : Option (Int × Text) :=
  let value : Int := if negative then -natOfDigits digits else natOfDigits digits
  let whole : Bool := match rest with
    | c :: _ => c ≠ '.' && c ≠ 'e' && c ≠ 'E'
    | [] => true
  if whole = true ∧ IsInt64 value then some (value, rest) else none

/-- A number lexeme read into an `int`: a fraction or an exponent is refused, and so is a value
outside 64 bits. -/
def scanInt (text : Text) : Option (Int × Text) := do
  let (negative, unsigned) := match text with
    | '-' :: rest => (true, rest)
    | text => (false, text)
  let (digits, rest) ← scanDigits unsigned
  finishInt negative digits rest

/-- The rest after a well-formed scalar. (The range of a floating-point number is not looked at.) -/
def scanScalar : Text → Option (Text)
  | '"' :: rest => (scanString rest).map Prod.snd
  | 't' :: 'r' :: 'u' :: 'e' :: rest => some rest
  | 'f' :: 'a' :: 'l' :: 's' :: 'e' :: rest => some rest
  | 'n' :: 'u' :: 'l' :: 'l' :: rest => some rest
  | '-' :: rest => (scanDigits rest).bind (scanFraction ·.2) |>.bind scanExponent
  | text => (scanDigits text).bind (scanFraction ·.2) |>.bind scanExponent

/-! ## The decoder: one object, member by member -/

/-- Where the token stream stands, as the decoder keeps it. Nothing here goes on inside an array. -/
inductive TokenState where
  | topValue
  | arrayStart
  | objectStart
  | objectKey
  | objectColon
  | objectComma
  deriving DecidableEq, Repr

structure Decoder where
  text : Text
  state : TokenState
  deriving DecidableEq, Repr

inductive Token where
  | delim (c : Char)
  | str (text : Text)
  | scalar
  deriving DecidableEq, Repr

namespace Decoder

def ofText (text : Text) : Decoder := ⟨text, .topValue⟩

/-- Is there another element before the end of the object? -/
def more (d : Decoder) : Bool :=
  match skipSpace d.text with
  | [] => false
  | c :: _ => c ≠ ']' && c ≠ '}'

/-- A member's name, where one is allowed. -/
def keyToken (text : Text) : Option (Token × Decoder) :=
  match text with
  | '"' :: rest => (scanString rest).map fun (raw, rest) => (.str (unquote raw), ⟨rest, .objectColon⟩)
  | _ => none

def token (d : Decoder) : Option (Token × Decoder) :=
  match d.state, skipSpace d.text with
  | .topValue, '{' :: rest => some (.delim '{', ⟨rest, .objectStart⟩)
  | .topValue, '[' :: rest => some (.delim '[', ⟨rest, .arrayStart⟩)
  | .topValue, text => (scanScalar text).map fun rest => (.scalar, ⟨rest, .topValue⟩)
  | .objectStart, '}' :: rest => some (.delim '}', ⟨rest, .topValue⟩)
  | .objectComma, '}' :: rest => some (.delim '}', ⟨rest, .topValue⟩)
  | .objectComma, ',' :: rest => keyToken (skipSpace rest)
  | .objectStart, text => keyToken text
  | .objectKey, text => keyToken text
  | _, _ => none

/-- The text of the value after a member's name. -/
def beginValue (d : Decoder) : Option (Text) :=
  match d.state, skipSpace d.text with
  | .objectColon, ':' :: rest => some (skipSpace rest)
  | _, _ => none

/-- `for decoder.More()`: the name of the next member, then `member`, until the object ends. Every
round reads at least one character, so the length of the text is fuel enough. -/
def readMembers {E σ : Type} (malformed : E) (member : σ → Text → Decoder → Except E (σ × Decoder)) :
    Nat → σ → Decoder → Except E (σ × Decoder)
  | 0, s, d => .ok (s, d)
  | fuel + 1, s, d =>
    if d.more then
      match d.token with
      | some (.str key, d) => do
        let (s, d) ← member s key d
        readMembers malformed member fuel s d
      | _ => .error malformed
    else .ok (s, d)

/-- Nothing but white space is left. -/
def atEOF (d : Decoder) : Bool := (skipSpace d.text).isEmpty

end Decoder

/-! ## Writing an object -/

def writeMember (key value : Text) : Text := quote key ++ ':' :: value

/-- The members after the first, each with its comma, and the closing brace. -/
def writeRest : List (Text × Text) → Text
  | [] => ['}']
  | (key, value) :: members => ',' :: writeMember key value ++ writeRest members

def writeObject : List (Text × Text) → Text
  | [] => ['{', '}']
  | (key, value) :: members => '{' :: writeMember key value ++ writeRest members

theorem length_le_writeRest (members : List (Text × Text)) : members.length ≤ (writeRest members).length := by
  induction members with
  | nil => exact Nat.zero_le _
  | cons m members ih =>
    simp only [writeRest, List.length_cons, List.length_append]
    omega

theorem length_le_writeObject (members : List (Text × Text)) :
    members.length ≤ (writeObject members).length := by
  cases members with
  | nil => exact Nat.zero_le _
  | cons m members =>
    have hrest := length_le_writeRest members
    simp only [writeObject, List.length_cons, List.length_append]
    omega

section RoundTrip

variable {E σ : Type} {malformed : E} {member : σ → Text → Decoder → Except E (σ × Decoder)}

/-- What stands after a member. -/
def EndsMember (rest : Text) : Prop := rest.head? = some ',' ∨ rest.head? = some '}'

theorem endsMember_writeRest (members : List (Text × Text)) (tail : Text) :
    EndsMember (writeRest members ++ tail) := by
  cases members with
  | nil => exact .inr rfl
  | cons m members => exact .inl rfl

/-- `member` takes the state from `s` through these members to `s'`, whatever follows each. -/
inductive Accepts (member : σ → Text → Decoder → Except E (σ × Decoder)) :
    σ → List (Text × Text) → σ → Prop
  | nil (s : σ) : Accepts member s [] s
  | cons {s s' s'' : σ} {key value : Text} {members : List (Text × Text)}
      (h : ∀ rest, EndsMember rest → member s key ⟨':' :: value ++ rest, .objectColon⟩ = .ok (s', ⟨rest, .objectComma⟩))
      (hrest : Accepts member s' members s'') : Accepts member s ((key, value) :: members) s''

theorem keyToken_writeMember (key value rest : Text) : Decoder.keyToken (writeMember key value ++ rest) =
      some (.str key, ⟨':' :: value ++ rest, .objectColon⟩) := by
  have hscan := scanString_quoteTail key (':' :: value ++ rest)
  simp only [writeMember, quote, List.append_assoc, List.cons_append, Decoder.keyToken] at hscan ⊢
  rw [hscan, Option.map_some, unquote_quoted]

/-- Reading goes through everything `writeRest` wrote and stops before the closing brace. -/
theorem readMembers_writeRest {s s' : σ} {members : List (Text × Text)}
    (h : Accepts member s members s') (tail : Text) (fuel : Nat) (hfuel : members.length ≤ fuel) :
    Decoder.readMembers malformed member fuel s ⟨writeRest members ++ tail, .objectComma⟩ =
      .ok (s', ⟨'}' :: tail, .objectComma⟩) := by
  induction h generalizing fuel with
  | nil s =>
    cases fuel with
    | zero => rfl
    | succ fuel => rfl
  | @cons s s' s'' key value members hmember hrest ih =>
    obtain ⟨fuel, rfl⟩ := Nat.exists_eq_succ_of_ne_zero (Nat.ne_of_gt (Nat.lt_of_lt_of_le (Nat.succ_pos _) hfuel))
    have htoken : Decoder.token ⟨writeRest ((key, value) :: members) ++ tail, .objectComma⟩ =
        some (.str key, ⟨':' :: value ++ (writeRest members ++ tail), .objectColon⟩) := by
      rw [← keyToken_writeMember]
      simp [Decoder.token, writeRest, writeMember, quote, skipSpace, isSpace]
    have hmore : Decoder.more ⟨writeRest ((key, value) :: members) ++ tail, .objectComma⟩ = true := rfl
    rw [Decoder.readMembers, if_pos hmore, htoken]
    simp only [hmember _ (endsMember_writeRest members tail), bind, Except.bind]
    exact ih fuel (Nat.le_of_succ_le_succ hfuel)

/-- A written object is read member by member, and the closing brace and the end of the text follow. -/
theorem readMembers_writeObject (malformed : E) {s s' : σ} {members : List (Text × Text)}
    (h : Accepts member s members s') (fuel : Nat) (hfuel : members.length ≤ fuel) :
    ∃ text d, writeObject members = '{' :: text ∧
      Decoder.readMembers malformed member fuel s ⟨text, .objectStart⟩ = .ok (s', d) ∧
      d.token = some (.delim '}', ⟨[], .topValue⟩) := by
  cases h with
  | nil =>
    refine ⟨['}'], ⟨['}'], .objectStart⟩, rfl, ?_, rfl⟩
    cases fuel <;> rfl
  | @cons _ s' _ key value members hmember hrest =>
    obtain ⟨fuel, rfl⟩ := Nat.exists_eq_succ_of_ne_zero (Nat.ne_of_gt (Nat.lt_of_lt_of_le (Nat.succ_pos _) hfuel))
    refine ⟨writeMember key value ++ writeRest members, ⟨['}'], .objectComma⟩, rfl, ?_, rfl⟩
    have htoken : Decoder.token ⟨writeMember key value ++ writeRest members, .objectStart⟩ =
        some (.str key, ⟨':' :: value ++ writeRest members, .objectColon⟩) := by
      rw [← keyToken_writeMember]
      simp [Decoder.token, writeMember, quote, skipSpace, isSpace]
    have hmore : Decoder.more ⟨writeMember key value ++ writeRest members, .objectStart⟩ = true := rfl
    rw [Decoder.readMembers, if_pos hmore, htoken]
    rw [← List.append_nil (writeRest members)]
    simp only [hmember _ (endsMember_writeRest members []), bind, Except.bind]
    exact readMembers_writeRest hrest [] fuel (Nat.le_of_succ_le_succ hfuel)

end RoundTrip

end TailscaleDart.JsonText
