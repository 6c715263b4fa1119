import Mathlib.Data.List.TakeDrop
import Mathlib.Data.List.TakeWhile
import TailscaleDart.Data.JsonText

/-!
# Data.JsonObject — the grammar of one object, and that the decoder accepts exactly it

`ObjectText members text` says what it is for `text` to be one JSON object: white space may stand between any
two lexemes, members are separated by single commas, nothing but white space follows the closing brace. Its
values are lexemes the caller describes, through a relation `Step` of the loop body (`Follows`): what one
member does to the state of the loop, given its decoded name and the lexeme of its value.

`readMembers_sound` and `readMembers_complete` are the two directions for the loop
`for decoder.More() { … }` over such members.
-/

namespace TailscaleDart.JsonText

/-! ## White space -/

def Space (text : Text) : Prop := ∀ c ∈ text, isSpace c = true

theorem skipSpace_append {s : Text} (hs : Space s) (rest : Text) :
    skipSpace (s ++ rest) = skipSpace rest := List.dropWhile_append_of_pos hs

theorem exists_skipSpace (text : Text) : ∃ s, Space s ∧ text = s ++ skipSpace text := by
  refine ⟨text.takeWhile isSpace, ?_, (List.takeWhile_append_dropWhile).symm⟩
  intro c hc
  exact List.mem_takeWhile_imp hc

variable {text : Text}

theorem space_iff_skipSpace : skipSpace text = [] ↔ Space text := List.dropWhile_eq_nil_iff

/-- What may stand right after a value: white space, a comma or the closing brace. -/
def Ends (rest : Text) : Prop := ∃ c more, rest = c :: more ∧ (isSpace c = true ∨ c = ',' ∨ c = '}')

variable {c : Char}

theorem ends_space {s : Text} (hs : Space s) (hc : c = ',' ∨ c = '}') (rest : Text) :
    Ends (s ++ c :: rest) := by
  cases s with
  | nil => exact ⟨c, rest, rfl, .inr hc⟩
  | cons b s => exact ⟨b, s ++ c :: rest, rfl, .inl (hs b (.head _))⟩

/-! ## String and integer lexemes -/

/-- What may stand between the quotes of a string. -/
inductive StringText : Text → Prop
  | nil : StringText []
  | plain {c : Char} {raw : Text} (hquote : c ≠ '"') (hslash : c ≠ '\\') (hcontrol : ¬ c.toNat < 0x20)
      (h : StringText raw) : StringText (c :: raw)
  | escape {c : Char} {raw : Text} (hc : (escaped c).isSome = true) (h : StringText raw) :
      StringText ('\\' :: c :: raw)
  | unit {a b c d : Char} {raw : Text} (hunit : (codeUnit a b c d).isSome = true) (h : StringText raw) :
      StringText ('\\' :: 'u' :: a :: b :: c :: d :: raw)

variable {rest : Text}

theorem scanString_sound {raw : Text} (h : scanString text = some (raw, rest)) :
    StringText raw ∧ text = raw ++ '"' :: rest := by
  fun_induction scanString text generalizing raw rest with
  | case1 => cases h
  | case2 rest' =>
    cases h
    exact ⟨.nil, rfl⟩
  | case3 a b c d rest' hunit ih =>
    obtain ⟨⟨raw', rest''⟩, hscan, heq⟩ := Option.map_eq_some_iff.mp h
    cases heq
    obtain ⟨hraw, htext⟩ := ih hscan
    exact ⟨.unit hunit hraw, by rw [htext]; rfl⟩
  | case4 => cases h
  | case5 c rest' hshape hc ih =>
    obtain ⟨⟨raw', rest''⟩, hscan, heq⟩ := Option.map_eq_some_iff.mp h
    cases heq
    obtain ⟨hraw, htext⟩ := ih hscan
    exact ⟨.escape hc hraw, by rw [htext]; rfl⟩
  | case6 => cases h
  | case7 => cases h
  | case8 c rest' hquote hunit hslash hplain ih =>
    obtain ⟨⟨raw', rest''⟩, hscan, heq⟩ := Option.map_eq_some_iff.mp h
    cases heq
    obtain ⟨hraw, htext⟩ := ih hscan
    refine ⟨.plain ?_ (fun hc => hplain (.inl hc)) (fun hc => hplain (.inr hc)) hraw, by rw [htext]; rfl⟩
    intro hc
    exact hquote hc

theorem scanString_complete {raw : Text} (h : StringText raw) (rest : Text) :
    scanString (raw ++ '"' :: rest) = some (raw, rest) := by
  induction h with
  | nil => rfl
  | @plain c raw hquote hslash hcontrol _ ih =>
    rw [List.cons_append, scanString]
    · simp only [hslash, hcontrol, or_self, if_false, ih, Option.map_some]
    all_goals grind
  | @escape c raw hc _ ih =>
    have hu : c ≠ 'u' := by
      rintro rfl
      exact absurd hc (by decide)
    rw [List.cons_append, List.cons_append, scanString]
    · simp only [hc, if_true, ih, Option.map_some]
    · grind
  | @unit a b c d raw hunit _ ih =>
    simp only [List.cons_append, scanString, hunit, if_true, ih, Option.map_some]

/-- The lexeme of a string that stands for `text`. -/
def StringLexeme (text value : Text) : Prop :=
  ∃ raw, StringText raw ∧ value = '"' :: (raw ++ ['"']) ∧ unquote raw = text

variable {value : Text}

theorem StringLexeme.unique {text' : Text} (h : StringLexeme text value)
    (h' : StringLexeme text' value) : text = text' := by
  obtain ⟨raw, -, rfl, rfl⟩ := h
  obtain ⟨raw', -, heq, rfl⟩ := h'
  rw [List.append_cancel_right (List.cons.inj heq).2]

/-- The digits of an integer: no leading zero. -/
def Digits (digits : Text) : Prop :=
  digits = ['0'] ∨ (digits ≠ [] ∧ digits.head? ≠ some '0' ∧ ∀ c ∈ digits, isDigit c = true)

/-- The lexeme of an integer, in the range of 64 bits. -/
def IntLexeme (n : Int) (value : Text) : Prop :=
  ∃ digits, Digits digits ∧ (-2 ^ 63 ≤ n ∧ n < 2 ^ 63) ∧
    ((value = digits ∧ n = natOfDigits digits) ∨ (value = '-' :: digits ∧ n = -natOfDigits digits))

variable {digits : Text}

theorem scanDigits_sound (h : scanDigits text = some (digits, rest)) : Digits digits ∧ text = digits ++ rest := by
  unfold scanDigits at h
  split at h
  case h_1 rest' =>
    cases h
    exact ⟨.inl rfl, rfl⟩
  case h_2 hzero =>
    rw [takeDigits, List.span_eq_takeWhile_dropWhile] at h
    split at h
    case h_1 => cases h
    case h_2 digits' rest' hne hspan =>
      cases h
      obtain ⟨htake, hdrop⟩ := Prod.mk.inj hspan
      have htext : text = digits ++ rest := by
        rw [← htake, ← hdrop, List.takeWhile_append_dropWhile]
      refine ⟨.inr ⟨?_, ?_, ?_⟩, htext⟩
      · intro hnil
        exact hne hnil
      · intro hhead
        obtain ⟨more, rfl⟩ := List.head?_eq_some_iff.mp hhead
        exact hzero (more ++ rest) htext
      · intro c hc
        rw [← htake] at hc
        exact List.mem_takeWhile_imp hc

theorem scanDigits_complete (h : Digits digits) (hrest : ∀ c, rest.head? = some c → isDigit c = false) :
    scanDigits (digits ++ rest) = some (digits, rest) := by
  rcases h with rfl | ⟨hne, hzero, hall⟩
  · rfl
  · have hspan : takeDigits (digits ++ rest) = (digits, rest) := by
      have hstop : rest.takeWhile isDigit = [] ∧ rest.dropWhile isDigit = rest := by
        cases rest with
        | nil => exact ⟨rfl, rfl⟩
        | cons c more =>
          have hc := hrest c rfl
          simp [hc]
      rw [takeDigits, List.span_eq_takeWhile_dropWhile, List.takeWhile_append_of_pos hall,
        List.dropWhile_append_of_pos hall, hstop.1, hstop.2, List.append_nil]
    cases digits with
    | nil => exact absurd rfl hne
    | cons c digits =>
      rw [scanDigits]
      · rw [hspan]
      · rintro rest' heq
        rw [List.cons_append, List.cons.injEq] at heq
        exact hzero (by rw [heq.1]; rfl)

theorem Digits.head (h : Digits digits) : ∃ c more, digits = c :: more ∧ isDigit c = true := by
  rcases h with rfl | ⟨hne, -, hall⟩
  · exact ⟨'0', [], rfl, by decide⟩
  · cases digits with
    | nil => exact absurd rfl hne
    | cons c more => exact ⟨c, more, rfl, hall c (List.mem_cons_self ..)⟩

theorem not_isSpace_of_isDigit (h : isDigit c = true) : isSpace c = false := by
  cases hc : isSpace c with
  | false => rfl
  | true =>
    simp only [isSpace, Bool.or_eq_true, decide_eq_true_eq] at hc
    rcases hc with ((rfl | rfl) | rfl) | rfl
    all_goals exact absurd h (by decide)

theorem Digits.ne_minus (h : Digits digits) (rest text : Text) : digits ++ rest ≠ '-' :: text := by
  obtain ⟨c, more, rfl, hc⟩ := h.head
  intro heq
  rw [(List.cons.inj heq).1] at hc
  exact absurd hc (by decide)

variable {n : Int}

theorem IntLexeme.head (h : IntLexeme n value) : ∃ c more, value = c :: more ∧ isSpace c = false := by
  obtain ⟨digits, hdigits, -, ⟨rfl, -⟩ | ⟨rfl, -⟩⟩ := h
  · obtain ⟨c, more, rfl, hc⟩ := hdigits.head
    exact ⟨c, more, rfl, not_isSpace_of_isDigit hc⟩
  · exact ⟨'-', digits, rfl, by decide⟩

theorem scanInt_minus (text : Text) :
    scanInt ('-' :: text) = (scanDigits text).bind fun r => finishInt true r.1 r.2 := rfl

theorem scanInt_unsigned (h : ∀ rest, text ≠ '-' :: rest) :
    scanInt text = (scanDigits text).bind fun r => finishInt false r.1 r.2 := by
  unfold scanInt
  split
  case h_1 negative unsigned heq =>
    split at heq
    case h_1 rest => exact absurd rfl (h rest)
    case h_2 =>
      cases heq
      rfl

theorem finishInt_sound {negative : Bool} {rest' : Text} (h : finishInt negative digits rest = some (n, rest')) :
    rest' = rest ∧ (-2 ^ 63 ≤ n ∧ n < 2 ^ 63) ∧
      n = if negative then -(natOfDigits digits : Int) else natOfDigits digits := by
  obtain ⟨hrange, heq⟩ := Option.ite_none_right_eq_some.mp h
  cases heq
  exact ⟨rfl, hrange.2, rfl⟩

theorem scanInt_sound (h : scanInt text = some (n, rest)) : ∃ value, text = value ++ rest ∧ IntLexeme n value := by
  by_cases hminus : ∃ text', text = '-' :: text'
  · obtain ⟨text', rfl⟩ := hminus
    rw [scanInt_minus, Option.bind_eq_some_iff] at h
    obtain ⟨⟨digits, rest'⟩, hscan, hfinish⟩ := h
    obtain ⟨rfl, hrange, hn⟩ := finishInt_sound hfinish
    obtain ⟨hdigits, rfl⟩ := scanDigits_sound hscan
    exact ⟨'-' :: digits, rfl, digits, hdigits, hrange, .inr ⟨rfl, hn⟩⟩
  · rw [scanInt_unsigned fun text' htext => hminus ⟨text', htext⟩, Option.bind_eq_some_iff] at h
    obtain ⟨⟨digits, rest'⟩, hscan, hfinish⟩ := h
    obtain ⟨rfl, hrange, hn⟩ := finishInt_sound hfinish
    obtain ⟨hdigits, rfl⟩ := scanDigits_sound hscan
    exact ⟨digits, rfl, digits, hdigits, hrange, .inl ⟨rfl, hn⟩⟩

theorem IntLexeme.unique {n' : Int} (h : IntLexeme n value) (h' : IntLexeme n' value) : n = n' := by
  have hminus : ∀ {digits : Text} (text : Text), Digits digits → digits ≠ '-' :: text := by
    intro digits text hdigits heq
    exact hdigits.ne_minus [] text (by rw [List.append_nil, heq])
  obtain ⟨digits, hdigits, -, ⟨rfl, rfl⟩ | ⟨rfl, rfl⟩⟩ := h
  · obtain ⟨digits', -, -, ⟨rfl, rfl⟩ | ⟨heq, -⟩⟩ := h'
    · rfl
    · exact absurd heq (hminus _ hdigits)
  · obtain ⟨digits', hdigits', -, ⟨heq, -⟩ | ⟨heq, rfl⟩⟩ := h'
    · exact absurd heq.symm (hminus _ hdigits')
    · rw [(List.cons.inj heq).2]

theorem Ends.head (h : Ends (c :: rest)) : isDigit c = false ∧ (c ≠ '.' && c ≠ 'e' && c ≠ 'E') = true := by
  obtain ⟨c', rest', heq, hc⟩ := h
  cases heq
  simp only [isSpace, Bool.or_eq_true, decide_eq_true_eq] at hc
  rcases hc with (((rfl | rfl) | rfl) | rfl) | rfl | rfl
  all_goals decide

theorem scanInt_complete (h : IntLexeme n value) (hrest : Ends rest) : scanInt (value ++ rest) = some (n, rest) := by
  obtain ⟨c, more, rfl, -⟩ := id hrest
  obtain ⟨hdigit, hwhole⟩ := hrest.head
  have hstop : ∀ b, (c :: more).head? = some b → isDigit b = false := by
    intro b hb
    cases hb
    exact hdigit
  obtain ⟨digits, hdigits, hrange, ⟨rfl, rfl⟩ | ⟨rfl, rfl⟩⟩ := h
  · rw [scanInt_unsigned (hdigits.ne_minus _), scanDigits_complete hdigits hstop, Option.bind_some]
    exact if_pos ⟨hwhole, hrange⟩
  · rw [List.cons_append, scanInt_minus, scanDigits_complete hdigits hstop, Option.bind_some]
    exact if_pos ⟨hwhole, hrange⟩

/-! ## The grammar -/

/-- A member as it stands in the text: what is between the quotes of its name, and the lexeme of its value. -/
structure Member where
  key : Text
  value : Text

/-- The name the decoder returns. -/
def Member.name (m : Member) : Text := unquote m.key

/-- White space, the quoted name, a colon and the value, with white space around the colon. -/
inductive MemberText (m : Member) (rest : Text) : Text → Prop
  | mk {s1 s2 s3 : Text} (h1 : Space s1) (hkey : StringText m.key) (h2 : Space s2) (h3 : Space s3) :
      MemberText m rest (s1 ++ '"' :: (m.key ++ '"' :: (s2 ++ ':' :: (s3 ++ (m.value ++ rest)))))

/-- What follows a value: a comma and another member, or the closing brace and `tail`. -/
inductive RestText (tail : Text) : List Member → Text → Prop
  | close {s : Text} (hs : Space s) : RestText tail [] (s ++ '}' :: tail)
  | next {s text rest : Text} {m : Member} {members : List Member} (hs : Space s)
      (hm : MemberText m rest text) (h : RestText tail members rest) :
      RestText tail (m :: members) (s ++ ',' :: text)

/-- One object, with nothing but white space around it. -/
inductive ObjectText : List Member → Text → Prop
  | empty {s1 s2 tail : Text} (h1 : Space s1) (h2 : Space s2) (htail : Space tail) :
      ObjectText [] (s1 ++ '{' :: (s2 ++ '}' :: tail))
  | members {s text rest tail : Text} {m : Member} {members : List Member} (hs : Space s)
      (hm : MemberText m rest text) (h : RestText tail members rest) (htail : Space tail) :
      ObjectText (m :: members) (s ++ '{' :: text)

theorem RestText.ends {tail : Text} {members : List Member} (h : RestText tail members text) : Ends text := by
  cases h with
  | close hs => exact ends_space hs (.inr rfl) tail
  | next hs hm _ => exact ends_space hs (.inl rfl) _

/-! ## Values -/

/-- A decoder of one value after the name of its member, and the lexemes it takes. -/
structure ReadsValue {α : Type} (decode : Decoder → Option (α × Decoder)) (Lexeme : α → Text → Prop) :
    Prop where
  sound : ∀ {text : Text} {a : α} {d : Decoder}, decode ⟨text, .objectColon⟩ = some (a, d) →
    ∃ s2 s3 value rest, Space s2 ∧ Space s3 ∧ text = s2 ++ ':' :: (s3 ++ (value ++ rest)) ∧ Lexeme a value ∧
      d = ⟨rest, .objectComma⟩
  complete : ∀ {a : α} {value s2 s3 rest : Text}, Lexeme a value → Space s2 → Space s3 → Ends rest →
    decode ⟨s2 ++ ':' :: (s3 ++ (value ++ rest)), .objectColon⟩ = some (a, ⟨rest, .objectComma⟩)

theorem beginValue_sound (h : Decoder.beginValue ⟨text, .objectColon⟩ = some rest) :
    ∃ s2 s3, Space s2 ∧ Space s3 ∧ text = s2 ++ ':' :: (s3 ++ rest) := by
  obtain ⟨s2, h2, htext⟩ := exists_skipSpace text
  unfold Decoder.beginValue at h
  split at h
  case h_1 after _ hafter =>
    cases h
    obtain ⟨s3, h3, htext3⟩ := exists_skipSpace after
    refine ⟨s2, s3, h2, h3, ?_⟩
    rw [← htext3, ← hafter]
    exact htext
  case h_2 => cases h

theorem beginValue_complete {s2 s3 : Text} (h2 : Space s2) (h3 : Space s3) (hc : isSpace c = false)
    (rest : Text) : Decoder.beginValue ⟨s2 ++ ':' :: (s3 ++ c :: rest), .objectColon⟩ = some (c :: rest) := by
  have hcolon : isSpace ':' = false := by decide
  simp only [Decoder.beginValue, skipSpace_append h2, skipSpace_cons_of_not hcolon, skipSpace_append h3,
    skipSpace_cons_of_not hc]

theorem StringText.ofPlain (h : ∀ c ∈ text, c ≠ '"' ∧ c ≠ '\\' ∧ ¬ c.toNat < 0x20) : StringText text := by
  induction text with
  | nil => exact .nil
  | cons c text ih =>
    obtain ⟨hquote, hslash, hcontrol⟩ := h c (.head _)
    exact .plain hquote hslash hcontrol (ih fun b hb => h b (.tail _ hb))

/-! ## The loop over the members -/

section Loop

variable {E σ : Type} {malformed : E} {member : σ → Text → Decoder → Except E (σ × Decoder)}
  {Step : σ → Text → Text → σ → Prop}

/-- The loop body, after the name of a member: it reads the colon and one value, and `Step` says what the name
and the lexeme of the value do to the state. -/
structure Follows (member : σ → Text → Decoder → Except E (σ × Decoder))
    (Step : σ → Text → Text → σ → Prop) : Prop where
  sound : ∀ {s s' : σ} {name text : Text} {d : Decoder}, member s name ⟨text, .objectColon⟩ = .ok (s', d) →
    ∃ s2 s3 value rest, Space s2 ∧ Space s3 ∧ text = s2 ++ ':' :: (s3 ++ (value ++ rest)) ∧
      Step s name value s' ∧ d = ⟨rest, .objectComma⟩
  complete : ∀ {s s' : σ} {name s2 s3 value rest : Text}, Step s name value s' → Space s2 → Space s3 →
    Ends rest → member s name ⟨s2 ++ ':' :: (s3 ++ (value ++ rest)), .objectColon⟩ = .ok (s', ⟨rest, .objectComma⟩)

/-- The members, one after the other. -/
inductive Steps (Step : σ → Text → Text → σ → Prop) : σ → List Member → σ → Prop
  | nil (s : σ) : Steps Step s [] s
  | cons {s s' s'' : σ} {m : Member} {members : List Member} (h : Step s m.name m.value s')
      (hrest : Steps Step s' members s'') : Steps Step s (m :: members) s''

variable {d : Decoder} {text : Text} {t : Token}

theorem keyToken_sound (h : Decoder.keyToken text = some (t, d)) :
    ∃ raw rest, StringText raw ∧ text = '"' :: (raw ++ '"' :: rest) ∧ t = .str (unquote raw) ∧
      d = ⟨rest, .objectColon⟩ := by
  unfold Decoder.keyToken at h
  split at h
  case h_1 rest =>
    obtain ⟨⟨raw, rest'⟩, hscan, heq⟩ := Option.map_eq_some_iff.mp h
    cases heq
    obtain ⟨hraw, rfl⟩ := scanString_sound hscan
    exact ⟨raw, rest', hraw, rfl, rfl, rfl⟩
  case h_2 => cases h

theorem keyToken_complete {raw : Text} (h : StringText raw) (rest : Text) :
    Decoder.keyToken ('"' :: (raw ++ '"' :: rest)) = some (.str (unquote raw), ⟨rest, .objectColon⟩) := by
  simp only [Decoder.keyToken, scanString_complete h, Option.map_some]

theorem token_objectStart (text : Text) : Decoder.token ⟨text, .objectStart⟩ = match skipSpace text with
      | '}' :: rest => some (.delim '}', ⟨rest, .topValue⟩) | text => Decoder.keyToken text := by
  unfold Decoder.token
  simp only
  split <;> split <;> simp_all

theorem token_objectComma (text : Text) : Decoder.token ⟨text, .objectComma⟩ = match skipSpace text with
      | '}' :: rest => some (.delim '}', ⟨rest, .topValue⟩) | ',' :: rest => Decoder.keyToken (skipSpace rest)
      | _ => none := by
  unfold Decoder.token
  simp only
  split <;> split <;> simp_all

/-- A token before the first member: its name, or the closing brace. -/
theorem token_objectStart_sound (h : Decoder.token ⟨text, .objectStart⟩ = some (t, d)) : ∃ s, Space s ∧
      ((∃ rest, text = s ++ '}' :: rest ∧ t = .delim '}' ∧ d = ⟨rest, .topValue⟩) ∨
        ∃ raw rest, StringText raw ∧ text = s ++ '"' :: (raw ++ '"' :: rest) ∧ t = .str (unquote raw) ∧
          d = ⟨rest, .objectColon⟩) := by
  obtain ⟨s, hs, htext⟩ := exists_skipSpace text
  refine ⟨s, hs, ?_⟩
  rw [token_objectStart] at h
  split at h
  case h_1 rest hrest =>
    cases h
    exact .inl ⟨rest, by rw [htext, hrest], rfl, rfl⟩
  case h_2 =>
    obtain ⟨raw, rest, hraw, hrest, rfl, rfl⟩ := keyToken_sound h
    exact .inr ⟨raw, rest, hraw, by rw [htext, hrest], rfl, rfl⟩

/-- A token after a member: the comma with the next name, or the closing brace. -/
theorem token_objectComma_sound (h : Decoder.token ⟨text, .objectComma⟩ = some (t, d)) : ∃ s, Space s ∧
      ((∃ rest, text = s ++ '}' :: rest ∧ t = .delim '}' ∧ d = ⟨rest, .topValue⟩) ∨
        ∃ s1 raw rest, Space s1 ∧ StringText raw ∧ text = s ++ ',' :: (s1 ++ '"' :: (raw ++ '"' :: rest)) ∧
          t = .str (unquote raw) ∧ d = ⟨rest, .objectColon⟩) := by
  obtain ⟨s, hs, htext⟩ := exists_skipSpace text
  refine ⟨s, hs, ?_⟩
  rw [token_objectComma] at h
  split at h
  case h_1 rest hrest =>
    cases h
    exact .inl ⟨rest, by rw [htext, hrest], rfl, rfl⟩
  case h_2 after hafter =>
    obtain ⟨s1, h1, htext1⟩ := exists_skipSpace after
    obtain ⟨raw, rest, hraw, hrest, rfl, rfl⟩ := keyToken_sound h
    exact .inr ⟨s1, raw, rest, h1, hraw, by rw [htext, hafter, htext1, hrest], rfl, rfl⟩
  case h_3 => cases h

theorem more_append {s : Text} (hs : Space s) {c : Char} (hc : isSpace c = false) (rest : Text)
    (state : TokenState) : Decoder.more ⟨s ++ c :: rest, state⟩ = (c ≠ ']' && c ≠ '}') := by
  simp only [Decoder.more, skipSpace_append hs, skipSpace_cons_of_not hc]

variable {s' : σ}

/-- One round of the loop, once the name has been read. -/
theorem readMembers_round (hfollows : Follows member Step) {fuel : Nat} {s : σ} {d0 : Decoder}
    {name : Text} (hmore : d0.more = true) (htoken : d0.token = some (.str name, ⟨text, .objectColon⟩))
    (h : d0.readMembers malformed member (fuel + 1) s = .ok (s', d)) :
    ∃ s2 s3 value rest s1, Space s2 ∧ Space s3 ∧ text = s2 ++ ':' :: (s3 ++ (value ++ rest)) ∧ Step s name value s1 ∧
      Decoder.readMembers malformed member fuel s1 ⟨rest, .objectComma⟩ = .ok (s', d) := by
  rw [Decoder.readMembers, if_pos hmore, htoken] at h
  simp only [bind, Except.bind] at h
  cases hmember : member s name ⟨text, .objectColon⟩ with
  | error err =>
    rw [hmember] at h
    cases h
  | ok r =>
    obtain ⟨s1, d1⟩ := r
    rw [hmember] at h
    obtain ⟨s2, s3, value, rest, h2, h3, htext, hstep, rfl⟩ := hfollows.sound hmember
    exact ⟨s2, s3, value, rest, s1, h2, h3, htext, hstep, h⟩

/-- After a member, what the loop has gone through and the closing brace are the rest of an object. -/
theorem readMembers_sound (hfollows : Follows member Step) {d' : Decoder}
    (hend : d.token = some (t, d')) (fuel : Nat) : ∀ (s : σ) (text : Text), text.length ≤ fuel →
    Decoder.readMembers malformed member fuel s ⟨text, .objectComma⟩ = .ok (s', d) →
    ∃ members, RestText d'.text members text ∧ Steps Step s members s' := by
  induction fuel with
  | zero =>
    intro s text hlength h
    obtain rfl : text = [] := List.eq_nil_of_length_eq_zero (Nat.le_zero.mp hlength)
    cases h
    cases hend
  | succ fuel ih =>
    intro s text hlength h
    cases hmore : Decoder.more ⟨text, .objectComma⟩ with
    | false =>
      rw [Decoder.readMembers, hmore] at h
      cases h
      obtain ⟨s1, h1, hclose | hname⟩ := token_objectComma_sound hend
      · obtain ⟨rest, rfl, -, rfl⟩ := hclose
        exact ⟨[], .close h1, .nil _⟩
      · obtain ⟨s2, raw, rest, -, -, rfl, -, -⟩ := hname
        rw [more_append h1 (by decide)] at hmore
        cases hmore
    | true =>
      cases htoken : Decoder.token ⟨text, .objectComma⟩ with
      | none =>
        rw [Decoder.readMembers, if_pos hmore, htoken] at h
        cases h
      | some r =>
        obtain ⟨t', d1⟩ := r
        obtain ⟨s0, h0, hclose | hname⟩ := token_objectComma_sound htoken
        · obtain ⟨rest, rfl, -, -⟩ := hclose
          rw [more_append h0 (by decide)] at hmore
          cases hmore
        · obtain ⟨s1, raw, after, h1, hraw, rfl, rfl, rfl⟩ := hname
          obtain ⟨s2, s3, value, rest, next, h2, h3, rfl, hstep, hread⟩ :=
            readMembers_round hfollows hmore htoken h
          have hrest : rest.length ≤ fuel := by
            simp only [List.length_append, List.length_cons] at hlength
            omega
          obtain ⟨members, htext, hsteps⟩ := ih next rest hrest hread
          exact ⟨⟨raw, value⟩ :: members, .next h0 (.mk (m := ⟨raw, value⟩) h1 hraw h2 h3) htext, .cons hstep hsteps⟩

/-- One round of the loop over a member of the grammar. -/
theorem readMembers_member (hfollows : Follows member Step) {fuel : Nat} {s : σ} {m : Member} {s2 s3 rest : Text}
    (hmore : d.more = true) (h2 : Space s2) (h3 : Space s3) (hrest : Ends rest)
    (htoken : d.token = some (.str m.name, ⟨s2 ++ ':' :: (s3 ++ (m.value ++ rest)), .objectColon⟩))
    (hstep : Step s m.name m.value s') : d.readMembers malformed member (fuel + 1) s =
      Decoder.readMembers malformed member fuel s' ⟨rest, .objectComma⟩ := by
  rw [Decoder.readMembers, if_pos hmore, htoken]
  simp only [bind, Except.bind, hfollows.complete hstep h2 h3 hrest]

theorem readMembers_complete (hfollows : Follows member Step) {tail : Text} {members : List Member}
    (h : RestText tail members text) : ∀ {fuel : Nat} {s s' : σ}, text.length ≤ fuel → Steps Step s members s' →
    ∃ d, Decoder.readMembers malformed member fuel s ⟨text, .objectComma⟩ = .ok (s', d) ∧
      d.token = some (.delim '}', ⟨tail, .topValue⟩) := by
  induction h with
  | @close s1 h1 =>
    intro fuel s s' hlength hsteps
    cases hsteps
    refine ⟨⟨s1 ++ '}' :: tail, .objectComma⟩, ?_, ?_⟩
    · cases fuel with
      | zero => rfl
      | succ fuel => rw [Decoder.readMembers, more_append h1 (by decide)]; rfl
    · rw [token_objectComma, skipSpace_append h1]
      rfl
  | @next s0 _ rest m members h0 hm hrest ih =>
    intro fuel s s' hlength hsteps
    obtain ⟨h1, hkey, h2, h3⟩ := hm
    cases hsteps with
    | cons hstep hsteps =>
      cases fuel with
      | zero => simp at hlength
      | succ fuel =>
        rw [readMembers_member hfollows (more_append h0 (by decide) _ _) h2 h3 hrest.ends ?_ hstep]
        · refine ih ?_ hsteps
          simp only [List.length_append, List.length_cons] at hlength
          omega
        · rw [token_objectComma, skipSpace_append h0, skipSpace_cons_of_not (by decide)]
          simp only [skipSpace_append h1]
          rw [skipSpace_cons_of_not (by decide), keyToken_complete hkey]
          rfl

/-! ## The whole object -/

theorem token_topValue (text : Text) : Decoder.token ⟨text, .topValue⟩ = match skipSpace text with
      | '{' :: rest => some (.delim '{', ⟨rest, .objectStart⟩) | '[' :: rest => some (.delim '[', ⟨rest, .arrayStart⟩)
      | text => (scanScalar text).map fun rest => (.scalar, ⟨rest, .topValue⟩) := by
  unfold Decoder.token
  simp only
  split <;> split <;> simp_all

theorem token_ofText {s : Text} (hs : Space s) (text : Text) :
    (Decoder.ofText (s ++ '{' :: text)).token = some (.delim '{', ⟨text, .objectStart⟩) := by
  rw [Decoder.ofText, token_topValue, skipSpace_append hs]
  rfl

theorem token_ofText_sound (h : (Decoder.ofText text).token = some (.delim '{', d)) :
    ∃ s rest, Space s ∧ text = s ++ '{' :: rest ∧ d = ⟨rest, .objectStart⟩ := by
  obtain ⟨s, hs, htext⟩ := exists_skipSpace text
  rw [Decoder.ofText, token_topValue] at h
  split at h
  case h_1 rest hrest =>
    cases h
    exact ⟨s, rest, hs, by rw [htext, hrest], rfl⟩
  case h_2 => cases h
  case h_3 =>
    obtain ⟨rest, -, heq⟩ := Option.map_eq_some_iff.mp h
    cases heq

/-- A text that is read to its end is one object, whose members took the state from `start` to `final`. -/
theorem object_sound (hfollows : Follows member Step) {start final : σ} {d0 d' : Decoder}
    (hopen : (Decoder.ofText text).token = some (.delim '{', d0))
    (hread : d0.readMembers malformed member text.length start = .ok (final, d)) (hclose : d.token = some (t, d'))
    (heof : d'.atEOF = true) : ∃ members, ObjectText members text ∧ Steps Step start members final := by
  obtain ⟨s, rest, hs, rfl, rfl⟩ := token_ofText_sound hopen
  have htail : Space d'.text := space_iff_skipSpace.mp (List.isEmpty_iff.mp heof)
  obtain ⟨fuel, hfuel⟩ : ∃ fuel, (s ++ '{' :: rest).length = fuel + 1 := ⟨s.length + rest.length, by simp; omega⟩
  have hlength : rest.length ≤ fuel := by
    simp only [List.length_append, List.length_cons] at hfuel
    omega
  rw [hfuel] at hread
  cases hmore : Decoder.more ⟨rest, .objectStart⟩ with
  | false =>
    rw [Decoder.readMembers, hmore] at hread
    cases hread
    obtain ⟨s1, h1, hend | hname⟩ := token_objectStart_sound hclose
    · obtain ⟨tail, rfl, -, rfl⟩ := hend
      exact ⟨[], .empty hs h1 htail, .nil _⟩
    · obtain ⟨raw, after, -, rfl, -, -⟩ := hname
      rw [more_append h1 (by decide)] at hmore
      cases hmore
  | true =>
    cases htoken : Decoder.token ⟨rest, .objectStart⟩ with
    | none =>
      rw [Decoder.readMembers, if_pos hmore, htoken] at hread
      cases hread
    | some r =>
      obtain ⟨t', d1⟩ := r
      obtain ⟨s1, h1, hend | hname⟩ := token_objectStart_sound htoken
      · obtain ⟨tail, rfl, -, -⟩ := hend
        rw [more_append h1 (by decide)] at hmore
        cases hmore
      · obtain ⟨raw, after, hraw, rfl, rfl, rfl⟩ := hname
        obtain ⟨s2, s3, value, rest, next, h2, h3, rfl, hstep, hnext⟩ :=
          readMembers_round hfollows hmore htoken hread
        have hshort : rest.length ≤ fuel := by
          simp only [List.length_append, List.length_cons] at hlength
          omega
        obtain ⟨members, hrest, hsteps⟩ := readMembers_sound hfollows hclose fuel next rest hshort hnext
        exact ⟨⟨raw, value⟩ :: members, .members hs (.mk (m := ⟨raw, value⟩) h1 hraw h2 h3) hrest htail,
          .cons hstep hsteps⟩

theorem object_complete (malformed : E) (hfollows : Follows member Step) {members : List Member}
    {start final : σ} (h : ObjectText members text) (hsteps : Steps Step start members final) :
    ∃ d0 d d', (Decoder.ofText text).token = some (.delim '{', d0) ∧
      d0.readMembers malformed member text.length start = .ok (final, d) ∧
      d.token = some (.delim '}', d') ∧ d'.atEOF = true := by
  have heof : ∀ {tail : Text}, Space tail → Decoder.atEOF ⟨tail, .topValue⟩ = true :=
    fun htail => List.isEmpty_iff.mpr (space_iff_skipSpace.mpr htail)
  cases h with
  | @empty s s1 tail hs h1 htail =>
    cases hsteps
    refine ⟨_, ⟨s1 ++ '}' :: tail, .objectStart⟩, ⟨tail, .topValue⟩, token_ofText hs _, ?_, ?_, heof htail⟩
    · rw [List.length_append, List.length_cons, ← Nat.add_assoc, Decoder.readMembers, more_append h1 (by decide)]
      rfl
    · rw [token_objectStart, skipSpace_append h1]
      rfl
  | @members s _ rest tail m members hs hm hrest htail =>
    obtain @⟨s1, s2, s3, h1, hkey, h2, h3⟩ := hm
    obtain ⟨fuel, hfuel⟩ : ∃ fuel, (s ++ '{' :: (s1 ++ '"' :: (m.key ++ '"' :: (s2 ++ ':' :: (s3 ++
        (m.value ++ rest)))))).length = fuel + 1 := ⟨_, by rw [List.length_append, List.length_cons]; rfl⟩
    cases hsteps with
    | cons hstep hsteps =>
      have hlength : rest.length ≤ fuel := by
        simp only [List.length_append, List.length_cons] at hfuel
        omega
      obtain ⟨d, hread, hclose⟩ := readMembers_complete hfollows hrest hlength hsteps
      refine ⟨_, d, _, token_ofText hs _, ?_, hclose, heof htail⟩
      rw [hfuel, ← hread]
      refine readMembers_member hfollows (more_append h1 (by decide) _ _) h2 h3 hrest.ends ?_ hstep
      rw [token_objectStart, skipSpace_append h1, skipSpace_cons_of_not (by decide)]
      exact keyToken_complete hkey _

end Loop

end TailscaleDart.JsonText
