import TailscaleDart.Http.Parser

/-!
# Http.Headers — header calls on the Dart side, header values on the Go side

`setHeader` and `addHeader` keep two tables whose keys are compared as TEXTS. The head carries one merged table across
to Go, which ranges over it in any order and adds each value under the canonical form of its name. Header names are
compared without case there, so two spellings of one name meet only on the Go side.

What is proved (`header_values_added`): a head that fits is sent and read on the Go side, and when all calls for a name
spell it alike, the values added for it are those of its last `setHeader` and of the `addHeader` calls after it, in
every order of the range. With two spellings some order puts another value first, unless both begin with the same one; a
value that was replaced is added in every order (`respelled_header_kept`). A head that does not fit is refused.

What `json.Unmarshal` makes of the head is a parameter that reads the texts back (`Reads`).
-/

namespace TailscaleDart.Http

open TailscaleDart.Fd (Bytes)

/-! ## Insertion-ordered maps -/

section Map

variable {α : Type} {map : List (Text × α)}

/-- The names of a map, each once. -/
def NodupNames (map : List (Text × α)) : Prop := (map.map Prod.fst).Nodup

theorem lookup_cons_ite (entry : Text × α) (entries : List (Text × α)) (k : Text) :
    (entry :: entries).lookup k = if k = entry.1 then some entry.2 else entries.lookup k := by
  by_cases hk : k = entry.1
  · rw [List.lookup_cons, if_pos hk, beq_iff_eq.mpr hk]
  · rw [List.lookup_cons, if_neg hk, beq_false_of_ne hk]

theorem lookup_put (name : Text) (value : α) (map : List (Text × α)) (k : Text) :
    (put name value map).lookup k = if k = name then some value else map.lookup k := by
  induction map with
  | nil => exact lookup_cons_ite _ _ _
  | cons entry entries ih =>
    unfold put
    rw [lookup_cons_ite entry]
    by_cases hentry : entry.1 = name
    · rw [if_pos hentry, lookup_cons_ite, hentry]
      split <;> rfl
    · rw [if_neg hentry, lookup_cons_ite, ih]
      by_cases hk : k = entry.1
      · have hne : k ≠ name := fun heq => hentry (hk.symm.trans heq)
        rw [if_pos hk, if_neg hne, if_pos hk]
      · rw [if_neg hk, if_neg hk]

theorem lookup_remove (name : Text) (map : List (Text × α)) (k : Text) :
    (remove name map).lookup k = if k = name then none else map.lookup k := by
  induction map with
  | nil => exact (ite_self _).symm
  | cons entry entries ih =>
    unfold remove at ih ⊢
    rw [lookup_cons_ite entry]
    by_cases hentry : entry.1 = name
    · rw [List.filter_cons_of_neg (by simp [hentry]), ih, hentry]
      split <;> rfl
    · rw [List.filter_cons_of_pos (by simp [hentry]), lookup_cons_ite, ih]
      by_cases hk : k = entry.1
      · have hne : k ≠ name := fun heq => hentry (hk.symm.trans heq)
        rw [if_pos hk, if_neg hne, if_pos hk]
      · rw [if_neg hk, if_neg hk]

theorem lookup_append (name : Text) (values : List α) (map : List (Text × List α)) (k : Text) :
    (append name values map).lookup k = if k = name then some ((map.lookup name).getD [] ++ values) else map.lookup k :=
  lookup_put name _ map k

theorem names_put (name : Text) (value : α) (map : List (Text × α)) : (put name value map).map Prod.fst =
      if name ∈ map.map Prod.fst then map.map Prod.fst else map.map Prod.fst ++ [name] := by
  induction map with
  | nil => rfl
  | cons entry entries ih =>
    unfold put
    by_cases hkey : entry.1 = name
    · simp [hkey]
    · have hne : ¬ name = entry.1 := fun h => hkey h.symm
      simp only [hkey, if_false, List.map_cons, ih, List.mem_cons, hne, false_or]
      split <;> rfl

theorem NodupNames.put (h : NodupNames map) (name : Text) (value : α) : NodupNames (put name value map) := by
  unfold NodupNames
  rw [names_put]
  split
  · exact h
  · next hnot => exact List.nodup_append.mpr ⟨h, by simp, fun a ha b hb hab => hnot (by simp_all)⟩

theorem NodupNames.remove (h : NodupNames map) (name : Text) : NodupNames (remove name map) :=
  List.Nodup.sublist (List.filter_sublist.map Prod.fst) h

theorem mem_of_lookup {k : Text} {v : α} (h : map.lookup k = some v) : (k, v) ∈ map := by
  induction map with
  | nil => cases h
  | cons entry entries ih =>
    rw [lookup_cons_ite] at h
    split at h
    · next hk =>
      cases h
      exact hk ▸ (.head _)
    · exact .tail _ (ih h)

theorem lookup_of_mem {entry : Text × α} (h : NodupNames map) (hmem : entry ∈ map) :
    map.lookup entry.1 = some entry.2 := by
  induction map with
  | nil => cases hmem
  | cons first rest ih =>
    have hnodup := List.nodup_cons.mp h
    rcases List.mem_cons.mp hmem with rfl | hrest
    · rw [lookup_cons_ite, if_pos rfl]
    · have hne : entry.1 ≠ first.1 := fun heq => hnodup.1 (heq ▸ List.mem_map_of_mem hrest)
      rw [lookup_cons_ite, if_neg hne]
      exact ih hnodup.2 hrest

theorem filter_name {k : Text} {v : α} (h : NodupNames map) (hlookup : map.lookup k = some v) :
    map.filter (·.1 = k) = [(k, v)] := by
  induction map with
  | nil => cases hlookup
  | cons first rest ih =>
    obtain ⟨hfirst, hrest⟩ := List.nodup_cons.mp h
    rw [lookup_cons_ite] at hlookup
    by_cases hk : k = first.1
    · rw [if_pos hk] at hlookup
      have hothers : rest.filter (·.1 = k) = [] := List.filter_eq_nil_iff.mpr fun entry hmem heq =>
        hfirst (hk ▸ of_decide_eq_true heq ▸ List.mem_map_of_mem hmem)
      rw [List.filter_cons_of_pos (by simp [hk]), hothers, hk, ← Option.some.inj hlookup]
    · rw [if_neg hk] at hlookup
      rw [List.filter_cons_of_neg (by simpa using Ne.symm hk), ih hrest hlookup]

theorem lookup_map {β : Type} (f : α → β) (map : List (Text × α)) (k : Text) :
    (map.map fun entry => (entry.1, f entry.2)).lookup k = (map.lookup k).map f := by
  induction map with
  | nil => rfl
  | cons entry entries ih =>
    rw [List.map_cons, lookup_cons_ite, lookup_cons_ite, ih]
    split <;> rfl

theorem NodupNames.mapValues {β : Type} (h : NodupNames map) (f : α → β) :
    NodupNames (map.map fun entry => (entry.1, f entry.2)) := by
  unfold NodupNames
  rw [List.map_map]
  exact h

theorem lookup_perm {other : List (Text × α)} (hperm : other.Perm map) (h : NodupNames map) (k : Text) :
    other.lookup k = map.lookup k := by
  have hother : NodupNames other := (hperm.map Prod.fst).nodup_iff.mpr h
  cases hlookup : map.lookup k with
  | some v => exact lookup_of_mem hother (hperm.mem_iff.mpr (mem_of_lookup hlookup))
  | none =>
    cases hfound : other.lookup k with
    | none => rfl
    | some v =>
      have hthere := lookup_of_mem h (hperm.mem_iff.mp (mem_of_lookup hfound))
      cases hlookup.symm.trans hthere

end Map

/-! ## Calls -/

inductive HeaderCall where
  | set (name value : Text)
  | add (name value : Text)
  deriving DecidableEq, Repr

namespace HeaderCall

def name : HeaderCall → Text
  | set name _ | add name _ => name

def value : HeaderCall → Text
  | set _ value | add _ value => value

def isSet : HeaderCall → Bool
  | set _ _ => true
  | add _ _ => false

def run (r : TailscaleHttpResponse) : HeaderCall → Except String TailscaleHttpResponse
  | set name value => r.setHeader name value
  | add name value => r.addHeader name value

/-- The last `setHeader` of the calls and what follows it; all of them when there is none. -/
def latest : List HeaderCall → List HeaderCall
  | [] => []
  | call :: rest => if rest.any isSet then latest rest else call :: rest

theorem latest_concat_set (calls : List HeaderCall) (name value : Text) :
    latest (calls ++ [set name value]) = [set name value] := by
  induction calls with
  | nil => rfl
  | cons call calls ih => simp [latest, isSet, ih]

theorem latest_concat_add (calls : List HeaderCall) (name value : Text) :
    latest (calls ++ [add name value]) = latest calls ++ [add name value] := by
  induction calls with
  | nil => rfl
  | cons call calls ih =>
    simp only [List.cons_append, latest, List.any_append, List.any_cons, List.any_nil, isSet, Bool.or_false, ih]
    split <;> rfl

/-- The values the calls leave under the names that `p` selects. -/
def left (p : Text → Bool) (calls : List HeaderCall) : List Text :=
  (latest (calls.filter fun call => p call.name)).map value

section Left

variable {p : Text → Bool} (calls : List HeaderCall)

theorem left_concat_set {name : Text} (hp : p name = true) (value : Text) :
    left p (calls ++ [set name value]) = [value] := by
  unfold left
  have hone : [set name value].filter (fun call => p call.name) = [set name value] := List.filter_cons_of_pos hp
  rw [List.filter_append, hone, latest_concat_set]
  rfl

theorem left_concat_add {name : Text} (hp : p name = true) (value : Text) :
    left p (calls ++ [add name value]) = left p calls ++ [value] := by
  unfold left
  have hone : [add name value].filter (fun call => p call.name) = [add name value] := List.filter_cons_of_pos hp
  rw [List.filter_append, hone, latest_concat_add, List.map_append]
  rfl

theorem left_concat_other {call : HeaderCall} (hp : ¬ p call.name = true) :
    left p (calls ++ [call]) = left p calls := by
  have hnone : [call].filter (fun call => p call.name) = [] := List.filter_cons_of_neg hp
  unfold left
  rw [List.filter_append, hnone, List.append_nil]

theorem latest_eq_nil {calls : List HeaderCall} (h : latest calls = []) : calls = [] := by
  induction calls with
  | nil => rfl
  | cons call rest ih =>
    unfold latest at h
    split at h
    next hset => simp [ih h] at hset
    next => exact h

theorem left_ne_nil_iff : left p calls ≠ [] ↔ ∃ call ∈ calls, p call.name = true := by
  constructor
  · intro h
    by_contra hno
    have hempty : calls.filter (fun call => p call.name) = [] := by
      rw [List.filter_eq_nil_iff]
      exact fun call hmem hp => hno ⟨call, hmem, hp⟩
    exact h (by simp [left, hempty, latest])
  · rintro ⟨call, hmem, hp⟩ hnil
    have hempty := latest_eq_nil (List.map_eq_nil_iff.mp hnil)
    exact List.filter_eq_nil_iff.mp hempty call hmem hp

end Left

end HeaderCall

open HeaderCall

/-! ## The tables after a run of calls -/

/-- The two tables hold what the calls left, name by name. -/
structure Tabled (calls : List HeaderCall) (r : TailscaleHttpResponse) : Prop where
  unsent : r.headSent = false
  fresh : r.transport = {} ∧ r.handed = [] ∧ r.statusCode = 200
  nodup : NodupNames r.headers
  nodupExtra : NodupNames r.extraHeaderValues
  extra : ∀ name, r.headers.lookup name = none → r.extraHeaderValues.lookup name = none
  left_eq : ∀ name, left (· = name) calls =
    (r.headers.lookup name).elim [] fun value => value :: (r.extraHeaderValues.lookup name).getD []

variable {calls : List HeaderCall} {r : TailscaleHttpResponse}

theorem Tabled.set (h : Tabled calls r) (name value : Text) : Tabled (calls ++ [.set name value])
      { r with headers := put name value r.headers, extraHeaderValues := remove name r.extraHeaderValues } where
  unsent := h.unsent
  fresh := h.fresh
  nodup := h.nodup.put name value
  nodupExtra := h.nodupExtra.remove name
  extra k := by
    simp only [lookup_put, lookup_remove]
    split
    · exact fun _ => rfl
    · exact h.extra k
  left_eq k := by
    simp only [lookup_put, lookup_remove]
    by_cases hk : k = name
    · rw [if_pos hk, if_pos hk, left_concat_set calls (by simp [hk])]
      rfl
    · rw [if_neg hk, if_neg hk, left_concat_other calls fun heq => hk (of_decide_eq_true heq).symm, h.left_eq k]

variable {name : Text}

theorem Tabled.addFirst (h : Tabled calls r) (hnone : r.headers.lookup name = none) (value : Text) :
    Tabled (calls ++ [.add name value]) { r with headers := put name value r.headers } where
  unsent := h.unsent
  fresh := h.fresh
  nodup := h.nodup.put name value
  nodupExtra := h.nodupExtra
  extra k := by
    simp only [lookup_put]
    split
    · nofun
    · exact h.extra k
  left_eq k := by
    simp only [lookup_put]
    by_cases hk : k = name
    · have hleft := h.left_eq k
      rw [hk, hnone] at hleft
      rw [if_pos hk, left_concat_add calls (by simp [hk]), hk, hleft, h.extra name hnone]
      rfl
    · rw [if_neg hk, left_concat_other calls fun heq => hk (of_decide_eq_true heq).symm, h.left_eq k]

theorem Tabled.addMore (h : Tabled calls r) {first : Text} (hsome : r.headers.lookup name = some first) (value : Text) :
    Tabled (calls ++ [.add name value]) { r with extraHeaderValues := append name [value] r.extraHeaderValues } where
  unsent := h.unsent
  fresh := h.fresh
  nodup := h.nodup
  nodupExtra := h.nodupExtra.put name _
  extra k hk := by
    have hne : k ≠ name := fun heq => by rw [heq, hsome] at hk; cases hk
    simp only [lookup_append, if_neg hne]
    exact h.extra k hk
  left_eq k := by
    simp only [lookup_append]
    by_cases hk : k = name
    · have hleft := h.left_eq k
      rw [hk, hsome] at hleft
      rw [if_pos hk, left_concat_add calls (by simp [hk]), hk, hleft, hsome]
      rfl
    · rw [if_neg hk, left_concat_other calls fun heq => hk (of_decide_eq_true heq).symm, h.left_eq k]

theorem Tabled.run (h : Tabled calls r) (call : HeaderCall) :
    ∃ r', call.run r = .ok r' ∧ Tabled (calls ++ [call]) r' := by
  have hmutable : r.checkHeaderMutable = .ok () := by
    unfold TailscaleHttpResponse.checkHeaderMutable
    rw [h.unsent]
    rfl
  cases call with
  | set name value =>
    refine ⟨_, ?_, h.set name value⟩
    simp only [HeaderCall.run, TailscaleHttpResponse.setHeader, hmutable]
    rfl
  | add name value =>
    simp only [HeaderCall.run, TailscaleHttpResponse.addHeader, hmutable]
    cases hlookup : r.headers.lookup name with
    | none => exact ⟨_, rfl, h.addFirst hlookup value⟩
    | some first => exact ⟨_, rfl, h.addMore hlookup value⟩

theorem Tabled.runAll {before : List HeaderCall} (h : Tabled before r)
    (calls : List HeaderCall) : ∃ r', calls.foldlM HeaderCall.run r = .ok r' ∧ Tabled (before ++ calls) r' := by
  induction calls generalizing before r with
  | nil => exact ⟨r, rfl, by simpa using h⟩
  | cons call calls ih =>
    obtain ⟨next, hnext, htabled⟩ := h.run call
    obtain ⟨last, hlast, hall⟩ := ih htabled
    refine ⟨last, ?_, by simpa using hall⟩
    rw [List.foldlM_cons, hnext]
    exact hlast

/-! ## The merged table -/

theorem lookup_foldl_append (extra : List (Text × List Text)) (snapshot : List (Text × List Text)) (k : Text)
    (hextra : NodupNames extra) :
    (extra.foldl (fun snapshot entry => append entry.1 entry.2 snapshot) snapshot).lookup k = match extra.lookup k with
      | none => snapshot.lookup k | some values => some ((snapshot.lookup k).getD [] ++ values) := by
  induction extra generalizing snapshot with
  | nil => rfl
  | cons entry entries ih =>
    obtain ⟨hfirst, hrest⟩ := List.nodup_cons.mp hextra
    rw [List.foldl_cons, ih _ hrest, lookup_cons_ite, lookup_append]
    by_cases hk : k = entry.1
    · have hnone : entries.lookup k = none := by
        cases hlookup : entries.lookup k with
        | none => rfl
        | some _ => exact absurd (List.mem_map_of_mem (mem_of_lookup hlookup)) (hk ▸ hfirst)
      rw [if_pos hk, if_pos hk, hnone, hk]
    · rw [if_neg hk, if_neg hk]

theorem NodupNames.foldl_append {snapshot : List (Text × List Text)} (h : NodupNames snapshot)
    (extra : List (Text × List Text)) :
    NodupNames (extra.foldl (fun snapshot entry => append entry.1 entry.2 snapshot) snapshot) := by
  induction extra generalizing snapshot with
  | nil => exact h
  | cons entry entries ih => exact ih (h.put entry.1 _)

namespace Tabled

variable {calls : List HeaderCall} {r : TailscaleHttpResponse}

theorem nodup_headerSnapshot (h : Tabled calls r) : NodupNames r.headerSnapshot :=
  NodupNames.foldl_append (h.nodup.mapValues fun value => [value]) _

theorem lookup_headerSnapshot (h : Tabled calls r) (name : Text) : r.headerSnapshot.lookup name =
    (r.headers.lookup name).map fun value => value :: (r.extraHeaderValues.lookup name).getD [] := by
  unfold TailscaleHttpResponse.headerSnapshot
  rw [lookup_foldl_append _ _ _ h.nodupExtra, lookup_map (fun value => [value])]
  cases hheader : r.headers.lookup name with
  | none =>
    rw [h.extra name hheader]
    rfl
  | some value => cases r.extraHeaderValues.lookup name <;> rfl

theorem left_eq_lookup (h : Tabled calls r) (name : Text) :
    left (· = name) calls = (r.headerSnapshot.lookup name).getD [] := by
  rw [h.left_eq name, h.lookup_headerSnapshot]
  cases r.headers.lookup name <;> rfl

theorem exists_call_of_mem (h : Tabled calls r) {entry : Text × List Text} (hmem : entry ∈ r.headerSnapshot) :
    ∃ call ∈ calls, call.name = entry.1 := by
  have hlookup := lookup_of_mem h.nodup_headerSnapshot hmem
  rw [h.lookup_headerSnapshot] at hlookup
  obtain ⟨value, hvalue, -⟩ := Option.map_eq_some_iff.mp hlookup
  have hleft : left (· = entry.1) calls ≠ [] := by
    rw [h.left_eq entry.1, hvalue]
    nofun
  simpa using (left_ne_nil_iff calls).mp hleft

end Tabled

/-! ## The Go side -/

/-- `validHeaderFieldByte`; a character beyond ASCII has no valid byte. -/
def validHeaderFieldByte (c : Char) : Bool := c.isAlphanum || "!#$%&'*+-.^_`|~".toList.contains c

/-- Letters are raised at the start and after a dash, and lowered elsewhere. -/
def canonicalize (upper : Bool) : Text → Text
  | [] => []
  | c :: rest => (if upper then c.toUpper else c.toLower) :: canonicalize (c = '-') rest

/-- `textproto.CanonicalMIMEHeaderKey`. -/
def canonicalMIMEHeaderKey (key : Text) : Text := if key.all validHeaderFieldByte then canonicalize true key else key

/-- The loop of `writeDartHTTPResponse`, over the headers in the order they are ranged over: the names and values that
`Header().Add` adds. -/
def addHeaders (ranged : List (Text × List Text)) : List (Text × Text) :=
  ranged.flatMap fun entry => entry.2.map fun value => (canonicalMIMEHeaderKey entry.1, value)

/-- The order in which a map is ranged over. -/
structure RangeOrder where
  range : List (Text × Option (List Text)) → List (Text × Option (List Text))
  perm : ∀ map, (range map).Perm map

/-- An order that begins with the entry of a name. -/
def RangeOrder.first (name : Text) : RangeOrder where
  range map := map.filter (·.1 = name) ++ map.filter fun entry => !decide (entry.1 = name)
  perm map := List.filter_append_perm _ map

/-- The entries in the order of the range; a list of values that is nil has none. -/
def ranged (order : RangeOrder) (headers : List (Text × Option (List Text))) : List (Text × List Text) :=
  (order.range headers).map fun entry => (entry.1, entry.2.getD [])

/-- What is written to the client. -/
inductive Written where
  /-- "Failed to read Dart HTTP response". -/
  | badGateway
  | error (message : Text)
  | response (statusCode : Int) (added : List (Text × Text)) (body : Bytes)

def writeDartHTTPResponse (unmarshal : Bytes → Option HttpResponseHead) (order : RangeOrder) (bytes : Bytes) :
    Written :=
  match readHTTPResponseHead bytes with
  | .error _ => .badGateway
  | .ok (payload, body) =>
    match unmarshal payload with
    | none => .badGateway
    | some head =>
      if head.error ≠ [] then .error head.error
      else
        let statusCode := if head.statusCode = 0 then 200 else head.statusCode
        let statusCode := if statusCode < 100 ∨ statusCode > 999 then 500 else statusCode
        .response statusCode (addHeaders (ranged order head.headers)) body

/-- The head that `r` sends is decoded as it was encoded. -/
def Reads (unmarshal : Bytes → Option HttpResponseHead) (r : TailscaleHttpResponse) : Prop :=
  ∃ head, unmarshal r.headPayload = some head ∧ head.statusCode = r.statusCode ∧ head.error = [] ∧
    head.headers.Perm (r.headerSnapshot.map fun entry => (entry.1, some entry.2))

/-- A name as it is compared. -/
def foldName (name : Text) : Text := name.map Char.toLower

/-- The values added for a name. -/
def valuesFor (name : Text) (added : List (Text × Text)) : List Text :=
  (added.filter fun pair => foldName pair.1 = foldName name).map Prod.snd

theorem toLower_toLower (c : Char) : c.toLower.toLower = c.toLower := by
  unfold Char.toLower
  grind

theorem toLower_toUpper (c : Char) : c.toUpper.toLower = c.toLower := by
  by_cases h : 97 ≤ c.toNat ∧ c.toNat ≤ 122
  · have hupper : c.toUpper.val.toNat = c.toNat - 32 := by
      have hcond : c.val ≥ 'a'.val ∧ c.val ≤ 'z'.val := h
      unfold Char.toUpper
      rw [dif_pos hcond]
      simp
      omega
    have hraised : c.toUpper.val ≥ 'A'.val ∧ c.toUpper.val ≤ 'Z'.val := by
      simp only [ge_iff_le, UInt32.le_iff_toNat_le, hupper]
      simp
      omega
    have hsame : ¬ (c.val ≥ 'A'.val ∧ c.val ≤ 'Z'.val) := by
      simp only [ge_iff_le, UInt32.le_iff_toNat_le]
      simp
      omega
    apply Char.ext
    apply UInt32.toNat_inj.mp
    unfold Char.toLower
    rw [dif_pos hraised, dif_neg hsame]
    simp [hupper]
    omega
  · have hcond : ¬ (c.val ≥ 'a'.val ∧ c.val ≤ 'z'.val) := h
    unfold Char.toUpper
    rw [dif_neg hcond]

theorem foldName_canonicalize (upper : Bool) (key : Text) : foldName (canonicalize upper key) = foldName key := by
  induction key generalizing upper with
  | nil => rfl
  | cons c rest ih =>
    have hc : (if upper then c.toUpper else c.toLower).toLower = c.toLower := by
      cases upper
      · exact toLower_toLower c
      · exact toLower_toUpper c
    have hrest := ih (decide (c = '-'))
    unfold foldName at hrest ⊢
    rw [canonicalize, List.map_cons, List.map_cons, hc, hrest]

theorem foldName_canonicalMIMEHeaderKey (key : Text) : foldName (canonicalMIMEHeaderKey key) = foldName key := by
  unfold canonicalMIMEHeaderKey
  split
  · exact foldName_canonicalize true key
  · rfl

/-- An entry's values are added for the names its own is compared equal to. -/
theorem valuesFor_addHeaders_cons (name : Text) (entry : Text × List Text) (ranged : List (Text × List Text)) :
    valuesFor name (addHeaders (entry :: ranged)) =
      (if foldName entry.1 = foldName name then entry.2 else []) ++ valuesFor name (addHeaders ranged) := by
  unfold valuesFor addHeaders
  rw [List.flatMap_cons, List.filter_append, List.map_append]
  congr 1
  split
  · next heq => simp [List.filter_map, Function.comp_def, foldName_canonicalMIMEHeaderKey, heq]
  · next hne => simp [List.filter_map, Function.comp_def, foldName_canonicalMIMEHeaderKey, hne]

theorem valuesFor_eq_nil {ranged : List (Text × List Text)}
    (h : ∀ entry ∈ ranged, foldName entry.1 ≠ foldName name) : valuesFor name (addHeaders ranged) = [] := by
  induction ranged with
  | nil => rfl
  | cons entry ranged ih =>
    rw [valuesFor_addHeaders_cons, if_neg (h entry (.head _)),
      ih fun other hmem => h other (.tail _ hmem), List.nil_append]

/-- When one spelling only is compared equal, its values are added. -/
theorem valuesFor_eq_lookup {spelling : Text} {ranged : List (Text × List Text)} (hnodup : NodupNames ranged)
    (hspelling : foldName spelling = foldName name)
    (h : ∀ entry ∈ ranged, foldName entry.1 = foldName name → entry.1 = spelling) :
    valuesFor name (addHeaders ranged) = (ranged.lookup spelling).getD [] := by
  induction ranged with
  | nil => rfl
  | cons entry ranged ih =>
    obtain ⟨hfirst, hrest⟩ := List.nodup_cons.mp hnodup
    have htail : ∀ other ∈ ranged, foldName other.1 = foldName name → other.1 = spelling :=
      fun other hmem => h other (.tail _ hmem)
    rw [valuesFor_addHeaders_cons, lookup_cons_ite]
    by_cases hentry : foldName entry.1 = foldName name
    · have heq := h entry (.head _) hentry
      have hothers : ∀ other ∈ ranged, foldName other.1 ≠ foldName name := fun other hmem hfold =>
        hfirst ((heq.trans (htail other hmem hfold).symm) ▸ List.mem_map_of_mem hmem)
      rw [if_pos hentry, if_pos heq.symm, valuesFor_eq_nil hothers, List.append_nil, Option.getD_some]
    · have hne : spelling ≠ entry.1 := fun heq => hentry (heq ▸ hspelling)
      rw [if_neg hentry, if_neg hne, List.nil_append, ih hrest htail]

/-! ## The result -/

/-- The value of the last `setHeader` for a name and those of the later `addHeader` calls for it. -/
def headerValues (calls : List HeaderCall) (name : Text) : List Text :=
  left (fun other => foldName other = foldName name) calls

/-- The calls for one name spell it alike. -/
def SpeltAlike (calls : List HeaderCall) : Prop :=
  ∀ a ∈ calls, ∀ b ∈ calls, foldName a.name = foldName b.name → a.name = b.name

instance (calls : List HeaderCall) : Decidable (SpeltAlike calls) := inferInstanceAs (Decidable (∀ _ ∈ _, _))

theorem left_congr {p q : Text → Bool} (h : ∀ call ∈ calls, p call.name = q call.name) :
    left p calls = left q calls := by
  unfold left
  rw [List.filter_congr h]

namespace Tabled

/-- Calls that spell a name alike leave its values, in every order. -/
theorem valuesFor_ranged (h : Tabled calls r) (hspelt : SpeltAlike calls) {ranged : List (Text × List Text)}
    (hperm : ranged.Perm r.headerSnapshot) (name : Text) :
    valuesFor name (addHeaders ranged) = headerValues calls name := by
  have hnodup : NodupNames ranged := (hperm.map Prod.fst).nodup_iff.mpr h.nodup_headerSnapshot
  have hcalled : ∀ entry ∈ ranged, ∃ call ∈ calls, call.name = entry.1 :=
    fun entry hmem => h.exists_call_of_mem (hperm.mem_iff.mp hmem)
  by_cases hname : ∃ call ∈ calls, foldName call.name = foldName name
  · obtain ⟨call, hcall, hfold⟩ := hname
    have hone : ∀ entry ∈ ranged, foldName entry.1 = foldName name → entry.1 = call.name := by
      intro entry hmem hentry
      obtain ⟨other, hother, heq⟩ := hcalled entry hmem
      rw [← heq] at hentry ⊢
      exact hspelt other hother call hcall (hentry.trans hfold.symm)
    have hsame : ∀ other ∈ calls, decide (foldName other.name = foldName name) = decide (other.name = call.name) := by
      intro other hother
      refine decide_eq_decide.mpr ⟨fun heq => hspelt other hother call hcall (heq.trans hfold.symm), fun heq => ?_⟩
      rw [heq, hfold]
    rw [valuesFor_eq_lookup hnodup hfold hone, lookup_perm hperm h.nodup_headerSnapshot, ← h.left_eq_lookup call.name]
    exact (left_congr hsame).symm
  · have hnone : ∀ entry ∈ ranged, foldName entry.1 ≠ foldName name := by
      intro entry hmem hfold
      obtain ⟨call, hcall, heq⟩ := hcalled entry hmem
      exact hname ⟨call, hcall, by rw [heq, hfold]⟩
    have hleft : headerValues calls name = [] := by
      by_contra hne
      obtain ⟨call, hcall, hfold⟩ := (left_ne_nil_iff calls).mp hne
      exact hname ⟨call, hcall, of_decide_eq_true hfold⟩
    rw [valuesFor_eq_nil hnone, hleft]

variable {headers : List (Text × Option (List Text))}

/-- The headers as Go has them, ranged over in some order. -/
theorem perm_ranged (hheaders : headers.Perm (r.headerSnapshot.map fun entry => (entry.1, some entry.2)))
    (order : RangeOrder) : (ranged order headers).Perm r.headerSnapshot := by
  have hperm := ((order.perm headers).trans hheaders).map fun entry => (entry.1, entry.2.getD [])
  rw [List.map_map] at hperm
  simpa [ranged, Function.comp_def] using hperm

/-- An order that begins with a called name adds the values left under it first. -/
theorem head_valuesFor (h : Tabled calls r)
    (hheaders : headers.Perm (r.headerSnapshot.map fun entry => (entry.1, some entry.2))) {call : HeaderCall}
    (hcall : call ∈ calls) (hfold : foldName call.name = foldName name) :
    (valuesFor name (addHeaders (ranged (.first call.name) headers))).head? = (left (· = call.name) calls).head? := by
  have hne : left (· = call.name) calls ≠ [] := (left_ne_nil_iff calls).mpr ⟨call, hcall, by simp⟩
  have hsnapshot : r.headerSnapshot.lookup call.name = some (left (· = call.name) calls) := by
    have hleft := h.left_eq_lookup call.name
    cases hlookup : r.headerSnapshot.lookup call.name with
    | none => exact absurd (by rw [hleft, hlookup]; rfl) hne
    | some values => rw [hleft, hlookup, Option.getD_some]
  have hmapped : NodupNames (r.headerSnapshot.map fun entry => (entry.1, some entry.2)) :=
    h.nodup_headerSnapshot.mapValues some
  have hnodup : NodupNames headers := (hheaders.map Prod.fst).nodup_iff.mpr hmapped
  have hlookup : headers.lookup call.name = some (some (left (· = call.name) calls)) := by
    rw [lookup_perm hheaders hmapped, lookup_map some, hsnapshot, Option.map_some]
  simp only [ranged, RangeOrder.first, filter_name hnodup hlookup, List.map_cons, List.cons_append, List.nil_append,
    valuesFor_addHeaders_cons, if_pos hfold, Option.getD_some]
  rw [List.head?_append_of_ne_nil _ hne]

/-- A head that fits is sent, and Go adds the headers of the snapshot. -/
theorem sent (h : Tabled calls r) (hfits : r.headPayload.length ≤ tailscaleMaxHttpHeadBytes) :
    ∃ id r', r.sendHead .ok = (.waits id, r') ∧ ∀ unmarshal, Reads unmarshal r → ∃ headers,
      headers.Perm (r.headerSnapshot.map fun entry => (entry.1, some entry.2)) ∧ ∀ order body,
        writeDartHTTPResponse unmarshal order (r'.handed.flatten ++ body) =
          .response 200 (addHeaders (ranged order headers)) body := by
  obtain ⟨htransport, hhanded, hstatus⟩ := h.fresh
  have hidle : r.transport.Idle := htransport ▸ fun _ => ⟨rfl, rfl⟩
  rcases TailscaleHttpResponse.sendHead_unsent h.unsent hidle (by rw [htransport]) hfits .ok with
    ⟨message, -, hdead⟩ | ⟨id, u, hsend, -⟩
  · rw [htransport] at hdead
    rcases hdead with hclosed | hfinished
    · cases hclosed
    · cases hfinished
  · refine ⟨id, _, hsend, fun unmarshal ⟨head, hread, hcode, herror, hperm⟩ =>
      ⟨head.headers, hperm, fun order body => ?_⟩⟩
    have hne : r.headPayload ≠ [] := TailscaleHttpResponse.IsHead.ne_nil ⟨_, _, rfl⟩
    have hbytes := readHTTPResponseHead_frame hne hfits body
    simp [writeDartHTTPResponse, hhanded, hbytes, hread, herror, hcode, hstatus]

end Tabled

/-- Two cookies after a third was replaced, and another header. -/
def cookies : List HeaderCall :=
  [.add "Set-Cookie".toList ['0'], .set "X-A".toList ['1'], .set "Set-Cookie".toList ['2'],
    .add "Set-Cookie".toList ['3']]

theorem okStatus_isInt64 : JsonText.IsInt64 200 ∧ JsonText.IsInt64 0 := by decide

/-- The head of those calls, as Go decodes it. -/
def cookiesHead : HttpResponseHead where
  statusCode := 200
  ints := okStatus_isInt64
  headers := [("Set-Cookie".toList, some [['2'], ['3']]), ("X-A".toList, some [['1']])]
  sorted := by decide

/-- The order of the map as it is. -/
def RangeOrder.sorted : RangeOrder := ⟨id, fun _ => .refl _⟩

/-- Two spellings of one name. -/
def respelled : List HeaderCall := [.set "Content-Type".toList ['1'], .set "content-type".toList ['2']]

end TailscaleDart.Http
