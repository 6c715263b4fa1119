import Mathlib.Data.Nat.Digits.Defs
import Mathlib.Data.Nat.Digits.Lemmas

/-!
# Data.HostPort — decimal ports and `host:port` text, as Go's `strconv` and `net` write and read them

Text is a list of bytes, as a Go string is. `joinHostPort` brackets a host that contains a colon;
`splitHostPort` undoes it and refuses text whose colons or brackets do not fit.

What the round trip needs of a host is only that its own brackets do not confuse the reader.
`splitHostPort_joinHostPort` says that for a bracket-free host the reader returns exactly what was
joined, and `eq_of_splitHostPort_joinHostPort` that for any host that does not begin with a bracket it
returns that or refuses.
-/

namespace TailscaleDart.HostPort

abbrev Text := List UInt8

/-! ## Decimal numbers -/

def colon : UInt8 := 58
def openBracket : UInt8 := 91
def closeBracket : UInt8 := 93

def digitByte (d : Nat) : UInt8 := UInt8.ofNat (48 + d)

/-- `strconv.Itoa` on a number that is not negative. -/
def itoa (n : Nat) : Text :=
  if n = 0 then [digitByte 0] else ((Nat.digits 10 n).map digitByte).reverse

def digitValue (b : UInt8) : Option Nat := if 48 ≤ b ∧ b ≤ 57 then some (b.toNat - 48) else none

/-- The value of a list of digits, most significant first. -/
def readDigits : Nat → Text → Option Nat
  | acc, [] => some acc
  | acc, b :: rest => (digitValue b).bind fun d => readDigits (acc * 10 + d) rest

/-- `strconv.Atoi`: an optional sign and at least one digit. The range error of a number that does not fit
an int is left out; a caller that bounds the value refuses it either way. -/
def atoi : Text → Option Int
  | [] => none
  | b :: rest =>
    if b = 43 ∨ b = 45 then
      if rest = [] then none
      else (readDigits 0 rest).map fun n => if b = 45 then -(n : Int) else n
    else (readDigits 0 (b :: rest)).map Int.ofNat

theorem digitValue_digitByte {d : Nat} (h : d < 10) : digitValue (digitByte d) = some d := by
  have hall : ∀ i : Fin 10, digitValue (digitByte i) = some i.val := by decide
  exact hall ⟨d, h⟩

theorem readDigits_append (acc : Nat) (front back : Text) :
    readDigits acc (front ++ back) = (readDigits acc front).bind fun n => readDigits n back := by
  induction front generalizing acc with
  | nil => rfl
  | cons b rest ih =>
    simp only [List.cons_append, readDigits]
    cases digitValue b with
    | none => rfl
    | some d => exact ih _

theorem readDigits_reverse {ds : List Nat} (h : ∀ d ∈ ds, d < 10) :
    readDigits 0 (ds.map digitByte).reverse = some (Nat.ofDigits 10 ds) := by
  induction ds with
  | nil => rfl
  | cons d rest ih =>
    have hrest := ih fun e he => h e (.tail d he)
    have hd : digitValue (digitByte d) = some d := digitValue_digitByte (h d (.head _))
    rw [List.map_cons, List.reverse_cons, readDigits_append, hrest, Option.bind_some, Nat.ofDigits_cons]
    simp only [readDigits, hd, Option.bind_some, Option.some.injEq]
    omega

/-- What `itoa` writes are digits, and there is at least one. -/
theorem itoa_digits (n : Nat) : itoa n ≠ [] ∧ ∀ b ∈ itoa n, ∃ d < 10, b = digitByte d := by
  unfold itoa
  split
  · refine ⟨List.cons_ne_nil _ _, ?_⟩
    intro b hb
    exact ⟨0, by decide, List.mem_singleton.mp hb⟩
  · next hn =>
    constructor
    · simpa only [ne_eq, List.reverse_eq_nil_iff, List.map_eq_nil_iff, Nat.digits_eq_nil_iff_eq_zero] using hn
    · intro b hb
      obtain ⟨d, hd, rfl⟩ := List.mem_map.mp (List.mem_reverse.mp hb)
      exact ⟨d, Nat.digits_lt_base (by decide) hd, rfl⟩

theorem readDigits_itoa (n : Nat) : readDigits 0 (itoa n) = some n := by
  unfold itoa
  split
  · next hn =>
    subst hn
    rfl
  · rw [readDigits_reverse fun d hd => Nat.digits_lt_base (by decide) hd, Nat.ofDigits_digits]

theorem digitByte_ne_sign {d : Nat} (h : d < 10) : digitByte d ≠ 43 ∧ digitByte d ≠ 45 := by
  have hall : ∀ i : Fin 10, digitByte i ≠ 43 ∧ digitByte i ≠ 45 := by decide
  exact hall ⟨d, h⟩

theorem atoi_itoa (n : Nat) : atoi (itoa n) = some (n : Int) := by
  obtain ⟨hne, hdigits⟩ := itoa_digits n
  cases htext : itoa n with
  | nil => exact absurd htext hne
  | cons b rest =>
    obtain ⟨d, hd, rfl⟩ := hdigits b (by rw [htext]; exact (.head _))
    have hsign := digitByte_ne_sign hd
    simp only [atoi, hsign.1, hsign.2, or_self, if_false]
    rw [← htext, readDigits_itoa]
    rfl

/-- A digit is none of the bytes that structure a `host:port`. -/
theorem itoa_plain (n : Nat) : colon ∉ itoa n ∧ openBracket ∉ itoa n ∧ closeBracket ∉ itoa n := by
  have hall : ∀ i : Fin 10, digitByte i ≠ colon ∧ digitByte i ≠ openBracket ∧ digitByte i ≠ closeBracket := by
    decide
  have hplain : ∀ b ∈ itoa n, b ≠ colon ∧ b ≠ openBracket ∧ b ≠ closeBracket := by
    intro b hb
    obtain ⟨d, hd, rfl⟩ := (itoa_digits n).2 b hb
    exact hall ⟨d, hd⟩
  exact ⟨fun h => (hplain _ h).1 rfl, fun h => (hplain _ h).2.1 rfl, fun h => (hplain _ h).2.2 rfl⟩

/-! ## Splitting at a byte -/

/-- The text before and after the first `c`. -/
def splitFirst (c : UInt8) : Text → Option (Text × Text)
  | [] => none
  | b :: rest => if b = c then some ([], rest) else (splitFirst c rest).map fun r => (b :: r.1, r.2)

/-- The text before and after the last `c`. -/
def splitLast (c : UInt8) : Text → Option (Text × Text)
  | [] => none
  | b :: rest =>
    match splitLast c rest with
    | some r => some (b :: r.1, r.2)
    | none => if b = c then some ([], rest) else none

theorem splitFirst_eq_some {c : UInt8} {text front back : Text} (h : splitFirst c text = some (front, back)) :
    text = front ++ c :: back ∧ c ∉ front := by
  induction text generalizing front with
  | nil => cases h
  | cons b rest ih =>
    rw [splitFirst] at h
    split at h
    · next hb =>
      cases h
      exact ⟨by rw [hb]; rfl, nofun⟩
    · next hb =>
      obtain ⟨⟨front', back'⟩, hrest, heq⟩ := Option.map_eq_some_iff.mp h
      cases heq
      obtain ⟨rfl, hnot⟩ := ih hrest
      refine ⟨rfl, ?_⟩
      intro hmem
      rcases List.mem_cons.mp hmem with heq | hin
      · exact hb heq.symm
      · exact hnot hin

theorem splitFirst_append {c : UInt8} {front : Text} (h : c ∉ front) (back : Text) :
    splitFirst c (front ++ c :: back) = some (front, back) := by
  induction front with
  | nil => simp only [List.nil_append, splitFirst, if_true]
  | cons b rest ih =>
    have hb : b ≠ c := fun heq => h (heq ▸ (.head _))
    have hrest := ih fun hmem => h (.tail b hmem)
    simp only [List.cons_append, splitFirst, hb, if_false, hrest, Option.map_some]

theorem splitLast_none {c : UInt8} {text : Text} (h : c ∉ text) : splitLast c text = none := by
  induction text with
  | nil => rfl
  | cons b rest ih =>
    have hb : b ≠ c := fun heq => h (heq ▸ (.head _))
    simp only [splitLast, ih fun hmem => h (.tail b hmem), hb, if_false]

theorem splitLast_append {c : UInt8} {back : Text} (h : c ∉ back) (front : Text) :
    splitLast c (front ++ c :: back) = some (front, back) := by
  induction front with
  | nil => simp only [List.nil_append, splitLast, splitLast_none h, if_true]
  | cons b rest ih => simp only [List.cons_append, splitLast, ih]

/-! ## Host and port -/

inductive AddrError where
  | missingPort
  | tooManyColons
  | missingCloseBracket
  | unexpectedOpenBracket
  | unexpectedCloseBracket
  deriving DecidableEq, Repr

/-- `net.JoinHostPort`. -/
def joinHostPort (host port : Text) : Text :=
  if colon ∈ host then openBracket :: host ++ closeBracket :: colon :: port else host ++ colon :: port

/-- The last two checks: a bracket where none can be. `rest` and `after` are what can still hold one. -/
def checkBrackets (rest after host port : Text) : Except AddrError (Text × Text) :=
  if openBracket ∈ rest then .error .unexpectedOpenBracket
  else if closeBracket ∈ after then .error .unexpectedCloseBracket
  else .ok (host, port)

/-- `net.SplitHostPort`. A bracketed host must end just before the last colon. -/
def splitHostPort (hostport : Text) : Except AddrError (Text × Text) :=
  match splitLast colon hostport with
  | none => .error .missingPort
  | some (front, port) =>
    if hostport.head? = some openBracket then
      match splitFirst closeBracket hostport with
      | none => .error .missingCloseBracket
      | some (inside, after) =>
        if after = [] then .error .missingPort
        else if inside.length + 1 = front.length then checkBrackets hostport.tail after inside.tail port
        else if after.head? = some colon then .error .tooManyColons
        else .error .missingPort
    else if colon ∈ front then .error .tooManyColons
    else checkBrackets hostport hostport front port

variable {host port : Text}

theorem checkBrackets_eq_ok {rest after host' port' : Text}
    (h : checkBrackets rest after host port = .ok (host', port')) : host = host' ∧ port = port' := by
  unfold checkBrackets at h
  split at h
  · cases h
  · split at h
    · cases h
    · cases h
      exact ⟨rfl, rfl⟩

theorem checkBrackets_ok {rest after : Text} (hrest : openBracket ∉ rest) (hafter : closeBracket ∉ after)
    (host port : Text) : checkBrackets rest after host port = .ok (host, port) := by
  simp only [checkBrackets, hrest, hafter, if_false]

theorem splitLast_joinHostPort (hport : colon ∉ port) (host : Text) : splitLast colon (joinHostPort host port) =
      some (if colon ∈ host then openBracket :: host ++ [closeBracket] else host, port) := by
  unfold joinHostPort
  split
  · have hshape : openBracket :: host ++ closeBracket :: colon :: port =
        (openBracket :: host ++ [closeBracket]) ++ colon :: port := by
      simp only [List.append_assoc, List.singleton_append]
    rw [hshape, splitLast_append hport]
  · exact splitLast_append hport host

theorem head_joinHostPort (hcolon : colon ∉ host) (hhead : host.head? ≠ some openBracket) :
    (joinHostPort host port).head? ≠ some openBracket := by
  rw [joinHostPort, if_neg hcolon]
  cases host with
  | nil => exact fun h => absurd (Option.some.inj h) (by decide)
  | cons b rest => exact hhead

theorem splitHostPort_joinHostPort (hopen : openBracket ∉ host) (hclose : closeBracket ∉ host)
    (hport : colon ∉ port ∧ openBracket ∉ port ∧ closeBracket ∉ port) :
    splitHostPort (joinHostPort host port) = .ok (host, port) := by
  obtain ⟨hpcolon, hpopen, hpclose⟩ := hport
  have hsep : openBracket ≠ colon ∧ closeBracket ≠ colon ∧ openBracket ≠ closeBracket := by decide
  by_cases hcolon : colon ∈ host
  · have hjoin : joinHostPort host port = openBracket :: host ++ closeBracket :: colon :: port := if_pos hcolon
    have hinside : closeBracket ∉ openBracket :: host := by
      simp only [List.mem_cons, not_or]
      exact ⟨fun h => hsep.2.2 h.symm, hclose⟩
    have hfirst : splitFirst closeBracket (joinHostPort host port) = some (openBracket :: host, colon :: port) := by
      rw [hjoin]
      exact splitFirst_append hinside _
    have hrest : openBracket ∉ host ++ closeBracket :: colon :: port := by
      simp only [List.mem_append, List.mem_cons, not_or]
      exact ⟨hopen, hsep.2.2, hsep.1, hpopen⟩
    have hafter : closeBracket ∉ colon :: port := by
      simp only [List.mem_cons, not_or]
      exact ⟨hsep.2.1, hpclose⟩
    simp only [splitHostPort, splitLast_joinHostPort hpcolon, hfirst, if_pos hcolon, reduceCtorEq, if_false]
    rw [hjoin]
    simp only [List.cons_append, List.head?_cons, if_true, List.length_cons, List.length_append,
      List.length_nil, List.tail_cons]
    exact checkBrackets_ok hrest hafter host port
  · have hhead : host.head? ≠ some openBracket := fun h => hopen (List.mem_of_mem_head? h)
    have hrest : openBracket ∉ joinHostPort host port := by
      simp only [joinHostPort, if_neg hcolon, List.mem_append, List.mem_cons, not_or]
      exact ⟨hopen, hsep.1, hpopen⟩
    have hafter : closeBracket ∉ joinHostPort host port := by
      simp only [joinHostPort, if_neg hcolon, List.mem_append, List.mem_cons, not_or]
      exact ⟨hclose, hsep.2.1, hpclose⟩
    simp only [splitHostPort, splitLast_joinHostPort hpcolon, if_neg hcolon, if_neg (head_joinHostPort hcolon hhead)]
    exact checkBrackets_ok hrest hafter host port

theorem eq_of_splitHostPort_joinHostPort {host' port' : Text} (hhead : host.head? ≠ some openBracket)
    (hport : colon ∉ port) (h : splitHostPort (joinHostPort host port) = .ok (host', port')) :
    host' = host ∧ port' = port := by
  simp only [splitHostPort, splitLast_joinHostPort hport] at h
  by_cases hcolon : colon ∈ host
  · simp only [if_pos hcolon] at h
    split at h
    · split at h
      · cases h
      · next inside after hfirst =>
        split at h
        · cases h
        · split at h
          · next hlen =>
            -- The first closing bracket stands where the joined text put it, so the text before it is the host.
            have hshape := (splitFirst_eq_some hfirst).1
            rw [joinHostPort, if_pos hcolon] at hshape
            have hinside : openBracket :: host = inside := by
              refine (List.append_inj hshape ?_).1
              simp only [List.length_append, List.length_cons, List.length_nil] at hlen ⊢
              omega
            obtain ⟨rfl, rfl⟩ := checkBrackets_eq_ok h
            rw [← hinside]
            exact ⟨rfl, rfl⟩
          · split at h <;> cases h
    · next hno =>
      rw [joinHostPort, if_pos hcolon] at hno
      exact absurd rfl hno
  · simp only [if_neg hcolon, if_neg (head_joinHostPort hcolon hhead)] at h
    obtain ⟨rfl, rfl⟩ := checkBrackets_eq_ok h
    exact ⟨rfl, rfl⟩

end TailscaleDart.HostPort
