import TailscaleDart.Conc.Ensures
import TailscaleDart.Errors

/-!
# Publication.Mutate — the bounded ETag transaction on the ServeConfig

`mutateLocked` is the one place where the package changes the node's Serve/Funnel
configuration: get the configuration, apply a pure callback to a clone, and set the clone
back under the ETag it was fetched with, at most `maxServeConfigMutationAttempts` times.
The configuration lives in another process and other writers change it at any moment, so
every step first lets them (`ServeEnv.external`).

The content of the configuration is a parameter: the loop never looks inside it. The
variables a callback captures and assigns (`publication`, `attempted` in `forward`) are
passed along explicitly as `ω`.

What is proved: `mutateLocked` CLASSIFIES its outcome truthfully (`Classified`). An error
that says not-applied means that no Set of the call changed the configuration; a nil result
means that the last candidate, which is what the callback made of the configuration last got,
was applied under that configuration's ETag, or that the last attempt had nothing to send.

What the LocalAPI owes is built into `setServeConfig`: a Set is applied only when its ETag
is the server's, a Set that reports success was applied, and one that reports a failed
precondition or a denied access was not. Any other error may hide an applied Set.
-/

namespace TailscaleDart.Publication

open TailscaleDart.Conc

/-- `maxServeConfigMutationAttempts`. -/
def maxServeConfigMutationAttempts : Nat := 3

/-- The errors of the LocalAPI client, as far as its typed classifiers tell them apart. -/
inductive ClientError where
  /-- `local.IsPreconditionsFailedError`: the ETag of the request was not the server's. -/
  | preconditionsFailed
  /-- `local.IsAccessDeniedError`. -/
  | accessDenied
  /-- Everything else: a lost response, a cancelled context, an internal failure. -/
  | other (message : String)
  deriving DecidableEq, Repr

/-- `m.isPreconditionsFailed`, fixed to `local.IsPreconditionsFailedError`. -/
def isPreconditionsFailed : ClientError → Bool
  | .preconditionsFailed => true
  | _ => false

/-- `m.isKnownNotApplied`, fixed to `local.IsAccessDeniedError`. -/
def isKnownNotApplied : ClientError → Bool
  | .accessDenied => true
  | _ => false

abbrev Error := GoError ClientError

/-- An `ipn.ServeConfig` as the LocalAPI moves it: content and ETag. -/
structure Versioned (Cfg : Type) where
  config : Cfg
  etag : String
  deriving DecidableEq, Repr

/-- One SetServeConfig of the call, with the server's configuration on both sides of it. -/
structure SetRecord (Cfg : Type) where
  candidate : Versioned Cfg
  before : Versioned Cfg
  after : Versioned Cfg
  err : Option ClientError
  deriving DecidableEq, Repr

/-- What the call did to the server, in order. -/
inductive ServeEvent (Cfg : Type) where
  /-- GetServeConfig answered, and `base` is what the attempt works on. -/
  | get (base : Versioned Cfg)
  | set (record : SetRecord Cfg)
  deriving DecidableEq, Repr

/-- The server's configuration and the history of the call in progress. -/
structure ServeState (Cfg : Type) where
  server : Versioned Cfg
  log : List (ServeEvent Cfg)
  deriving DecidableEq, Repr

/-- The environment's part in one step. -/
structure ServeEnv (Cfg : Type) where
  /-- The configuration other writers leave behind just before the step, if any wrote. -/
  external : Option (Versioned Cfg) := none
  /-- `ctx.Err()`. -/
  contextErr : Option Error := none
  /-- The runtime was detached or its context cancelled. -/
  stale : Bool := false
  getErr : Option ClientError := none
  /-- GetServeConfig answered a nil configuration. -/
  getNil : Bool := false
  setErr : Option ClientError := none
  /-- A failing Set was applied all the same, if the server could apply it. -/
  applies : Bool := false
  /-- The ETag of the configuration a Set installs. -/
  newTag : String := ""

/-- What the call reads of the manager and its arguments; the manager's mutex is held
throughout, so none of it changes while the call runs. -/
structure Mutation where
  clientNil : Bool := false
  ctxNil : Bool := false
  requireCurrent : Bool := true
  closed : Bool := false
  runtimeNil : Bool := false

/-- The outcome of a callback on a clone: the mutated clone, the captured variables, and
what it returned. -/
structure Applied (Cfg ω : Type) where
  candidate : Cfg
  captured : ω
  changed : Except Error Bool

/-- `serveConfigApply`. -/
abbrev ServeConfigApply (Cfg ω : Type) := Cfg → ω → Applied Cfg ω

/-- The steps of `mutateLocked`. -/
inductive MutateStep where
  | context
  | current
  | get
  | set
  deriving DecidableEq, Repr

variable {Cfg ω α : Type}

abbrev MutateProg (Cfg : Type) := Prog MutateStep (ServeState Cfg) (ServeEnv Cfg)

/-- Other writers run first. -/
def ServeState.interfere (s : ServeState Cfg) (e : ServeEnv Cfg) : ServeState Cfg :=
  { s with server := e.external.getD s.server }

@[simp] theorem ServeState.interfere_log (s : ServeState Cfg) (e : ServeEnv Cfg) : (s.interfere e).log = s.log := rfl

/-! ## The source's functions -/

def contextBeforeDispatch (m : Mutation) : MutateProg Cfg (Option Error) :=
  .step .context fun e s =>
    some (if m.ctxNil then some (.text "publication context is nil") else e.contextErr, s.interfere e)

def requireCurrentLocked (m : Mutation) : MutateProg Cfg (Option Error) :=
  .step .current fun e s =>
    some (if m.closed || m.runtimeNil || e.stale then some (.sentinel .runtimeStale) else none, s.interfere e)

/-- `nodeRuntime.resultError`: a stale runtime's error takes the place of the client's. -/
def resultError (err : Error) : MutateProg Cfg Error :=
  .step .current fun e s =>
    some (if e.stale then .sentinel .runtimeStale else err, s.interfere e)

def notAppliedError (err : Error) : Error :=
  if err.is .publicationNotApplied then err
  else .wrap "%w: %w" (.sentinel .publicationNotApplied) err

/-- `client.GetServeConfig`, with the nil answer already replaced by an empty
configuration (`new(ipn.ServeConfig)`, whose ETag is empty). -/
def getServeConfig [Inhabited Cfg] : MutateProg Cfg (Except ClientError (Versioned Cfg)) :=
  .step .get fun e s =>
    let s := s.interfere e
    match e.getErr with
    | some err => some (.error err, s)
    | none =>
      let base := if e.getNil then ⟨default, ""⟩ else s.server
      some (.ok base, { s with log := s.log ++ [.get base] })

/-- `client.SetServeConfig`. The answer "no error" is only possible when the server applied
the candidate; a failing Set was applied when the environment chose so AND the server could
do it. -/
def setServeConfig (candidate : Versioned Cfg) : MutateProg Cfg (Option ClientError) :=
  .step .set fun e s =>
    let s := s.interfere e
    let answer (after : Versioned Cfg) : Option ClientError × ServeState Cfg :=
      (e.setErr, ⟨after, s.log ++ [.set ⟨candidate, s.server, after, e.setErr⟩]⟩)
    let installed : Versioned Cfg := ⟨candidate.config, e.newTag⟩
    match e.setErr with
    | none => if candidate.etag = s.server.etag then some (answer installed) else none
    | some err =>
      if e.applies && candidate.etag = s.server.etag && !isPreconditionsFailed err
          && !isKnownNotApplied err then
        some (answer installed)
      else some (answer s.server)

/-- One `if requireCurrent { … }` guard. -/
def guardCurrent (m : Mutation) : MutateProg Cfg (Option Error) :=
  if m.requireCurrent then requireCurrentLocked m else pure none

/-- The error of a failed GetServeConfig: `if requireCurrent { err = m.runtime.resultError(err) }`. -/
def getError (m : Mutation) (err : ClientError) : MutateProg Cfg Error :=
  if m.requireCurrent then resultError (.foreign err) else pure (.foreign err)

/-- The second half of one attempt: re-check, dispatch the Set, and sort its error. `retry`
is the next attempt of the loop, if one is left. -/
def dispatchSet (m : Mutation) (base : Versioned Cfg) (applied : Applied Cfg ω)
    (retry : Option (ω → MutateProg Cfg (Option Error × ω))) : MutateProg Cfg (Option Error × ω) := do
  match ← contextBeforeDispatch m with
  | some err => return (some (notAppliedError err), applied.captured)
  | none =>
  match ← guardCurrent m with
  | some err => return (some (notAppliedError err), applied.captured)
  | none =>
  match ← setServeConfig ⟨applied.candidate, base.etag⟩ with
  | none => return (none, applied.captured)
  | some err =>
    if isPreconditionsFailed err then
      match retry with
      | none =>
        return (some (.wrap "%w after %d attempts: %w" (.sentinel .serveConfigConflict)
          (.foreign err)), applied.captured)
      | some next => next applied.captured
    else if isKnownNotApplied err then
      return (some (notAppliedError (.foreign err)), applied.captured)
    else
      return (some (.wrap "%w: %w" (.sentinel .publicationCommitIndeterminate)
        (.foreign err)), applied.captured)

/-- One attempt of the loop. -/
def attempt [Inhabited Cfg] (m : Mutation) (apply : ServeConfigApply Cfg ω)
    (retry : Option (ω → MutateProg Cfg (Option Error × ω))) (w : ω) : MutateProg Cfg (Option Error × ω) := do
  match ← contextBeforeDispatch m with
  | some err => return (some (notAppliedError err), w)
  | none =>
  match ← guardCurrent m with
  | some err => return (some (notAppliedError err), w)
  | none =>
  match ← getServeConfig with
  | .error err =>
    let err ← getError m err
    return (some (notAppliedError err), w)
  | .ok base =>
  match (apply base.config w).changed with
  | .error err => return (some (notAppliedError err), (apply base.config w).captured)
  | .ok false => return (none, (apply base.config w).captured)
  | .ok true => dispatchSet m base (apply base.config w) retry

/-- The loop, with `remaining` attempts left after this one: the attempt number is
`maxServeConfigMutationAttempts - remaining`, the last attempt is the one with none left, and
the source's trailing panic lies past that bound. -/
def attempts [Inhabited Cfg] (m : Mutation) (apply : ServeConfigApply Cfg ω) :
    (remaining : Nat) → ω → MutateProg Cfg (Option Error × ω)
  | 0 => attempt m apply none
  | n + 1 => attempt m apply (some (attempts m apply n))

def mutateLocked [Inhabited Cfg] (m : Mutation) (apply : ServeConfigApply Cfg ω) (w : ω) :
    MutateProg Cfg (Option Error × ω) :=
  if m.clientNil then
    return (some (notAppliedError (.text "publication LocalClient is unavailable")), w)
  else attempts m apply (maxServeConfigMutationAttempts - 1) w

/-! ## An undisturbed call -/

/-- Nobody else writes, the context is alive, a Get answers with what the server holds, and a Set is neither refused
nor lost. -/
structure ServeEnv.Smooth (e : ServeEnv Cfg) : Prop where
  external : e.external = none
  context : e.contextErr = none
  get : e.getErr = none ∧ e.getNil = false
  set : e.setErr = none

/-- Context, Get, context, Set: four steps at most, and no error. -/
theorem mutateLocked_smooth [Inhabited Cfg] {m : Mutation} (hclient : m.clientNil = false) (hctx : m.ctxNil = false)
    (hcurrent : m.requireCurrent = false) {apply : ServeConfigApply Cfg ω}
    (happly : ∀ c w, ∃ changed, (apply c w).changed = .ok changed) (w : ω) (server : Versioned Cfg)
    {answers : List (ServeEnv Cfg)} (hsmooth : ∀ e ∈ answers, e.Smooth) (hlength : 4 ≤ answers.length) :
    ∃ w' s', (mutateLocked m apply w).exec answers ⟨server, []⟩ = some ((none, w'), s') := by
  match answers, hlength with
  | e1 :: e2 :: e3 :: e4 :: rest, _ =>
    have h1 := hsmooth e1 (by simp)
    have h2 := hsmooth e2 (by simp)
    have h3 := hsmooth e3 (by simp)
    have h4 := hsmooth e4 (by simp)
    obtain ⟨changed, hchanged⟩ := happly server.config w
    cases changed <;>
      simp [mutateLocked, attempts, maxServeConfigMutationAttempts, attempt, dispatchSet, contextBeforeDispatch,
        guardCurrent, getServeConfig, setServeConfig, ServeState.interfere, hclient, hctx, hcurrent, hchanged,
        Prog.exec, h1.external, h1.context, h2.external, h2.get, h3.external, h3.context, h4.external, h4.set]

/-! ## What a step can do -/

/-- The Sets among the events of a call, in order. -/
def sets (log : List (ServeEvent Cfg)) : List (SetRecord Cfg) :=
  log.filterMap fun
    | .get _ => none
    | .set r => some r

@[simp] theorem sets_get (log : List (ServeEvent Cfg)) (base : Versioned Cfg) :
    sets (log ++ [.get base]) = sets log := by
  simp only [sets, List.filterMap_append, List.filterMap_cons, List.filterMap_nil, List.append_nil]

@[simp] theorem sets_set (log : List (ServeEvent Cfg)) (r : SetRecord Cfg) :
    sets (log ++ [.set r]) = sets log ++ [r] := by
  simp only [sets, List.filterMap_append, List.filterMap_cons, List.filterMap_nil]

/-- A Set that left the server's configuration as it was. -/
def SetRecord.NotApplied (r : SetRecord Cfg) : Prop := r.after = r.before

/-- A Set that installed its candidate over the configuration whose ETag it carried. -/
structure SetRecord.AppliedToItsBase (r : SetRecord Cfg) : Prop where
  etag : r.candidate.etag = r.before.etag
  installed : r.after.config = r.candidate.config

/-- The record of the Set of a candidate, with the answer its caller got. No error means it was applied to its base, a
failed precondition or a denied access that it was not applied; another error decides nothing. -/
structure Sent (apply : ServeConfigApply Cfg ω) (base : Versioned Cfg) (w : ω) (s : ServeState Cfg)
    (answer : Option ClientError) (r : SetRecord Cfg) : Prop where
  changed : (apply base.config w).changed = .ok true
  candidate : r.candidate = ⟨(apply base.config w).candidate, base.etag⟩
  before : r.before = s.server
  err : r.err = answer
  effect : r.NotApplied ∧ answer ≠ none ∨
    r.AppliedToItsBase ∧ ∀ err, answer = some err → isPreconditionsFailed err = false ∧ isKnownNotApplied err = false

/-- The state after a Set. -/
def ServeState.sent (s : ServeState Cfg) (r : SetRecord Cfg) : ServeState Cfg := ⟨r.after, s.log ++ [.set r]⟩

section Sent

variable {apply : ServeConfigApply Cfg ω} {base : Versioned Cfg} {w : ω} {s : ServeState Cfg} {r : SetRecord Cfg}

theorem Sent.applied (h : Sent apply base w s none r) : r.AppliedToItsBase :=
  h.effect.elim (fun hnot => absurd rfl hnot.2) (·.1)

theorem Sent.notApplied {err : ClientError} (h : Sent apply base w s (some err) r)
    (hnot : isPreconditionsFailed err = true ∨ isKnownNotApplied err = true) : r.NotApplied := by
  rcases h.effect with ⟨hr, -⟩ | ⟨-, happlied⟩
  · exact hr
  · simp [happlied err rfl] at hnot

theorem setServeConfig_sent (hchanged : (apply base.config w).changed = .ok true) {allow : ServeEnv Cfg → Prop}
    {I : ServeState Cfg → Prop} (hI : ∀ {e s}, allow e → I s → I (s.interfere e)) (hs : I s) :
    Ensures allow (fun answer s' => ∃ e s1 r, s' = s1.sent r ∧ allow e ∧ e.setErr = answer ∧ I s1 ∧
      Sent apply base w s1 answer r) (setServeConfig ⟨(apply base.config w).candidate, base.etag⟩) s := by
  apply Ensures.step
  intro e answer s' he hf
  refine ⟨e, s.interfere e, ?_⟩
  cases herr : e.setErr with
  | none =>
    simp only [herr, Option.ite_none_right_eq_some, Option.some.injEq, Prod.mk.injEq] at hf
    obtain ⟨htag, rfl, rfl⟩ := hf
    exact ⟨⟨_, _, ⟨_, e.newTag⟩, _⟩, rfl, he, rfl, hI he hs, ⟨hchanged, rfl, rfl, rfl, .inr ⟨⟨htag, rfl⟩, nofun⟩⟩⟩
  | some err =>
    simp only [herr] at hf
    split at hf
    next hcond =>
      cases hf
      simp only [Bool.and_eq_true, Bool.not_eq_true', decide_eq_true_eq] at hcond
      refine ⟨⟨_, _, ⟨_, e.newTag⟩, _⟩, rfl, he, rfl, hI he hs,
        ⟨hchanged, rfl, rfl, rfl, .inr ⟨⟨hcond.1.1.2, rfl⟩, ?_⟩⟩⟩
      rintro _ ⟨⟩
      exact ⟨hcond.1.2, hcond.2⟩
    next =>
      cases hf
      exact ⟨⟨_, _, _, _⟩, rfl, he, rfl, hI he hs, ⟨hchanged, rfl, rfl, rfl, .inl ⟨rfl, nofun⟩⟩⟩

end Sent

/-! ## A rule for the loop -/

/-- The error is not, and does not wrap, an indeterminate commit. -/
abbrev IsPlain (err : Error) : Prop := err.is .publicationCommitIndeterminate = false

/-- What holds of a call with `n` attempts left: `before` up to its Get, `after` between the Get and the Set, and `post`
when it returns. `plain` holds of the errors it may return as not-applied. -/
structure MutateRule [Inhabited Cfg] (apply : ServeConfigApply Cfg ω) (allow : ServeEnv Cfg → Prop)
    (plain : Error → Prop) (before : Nat → ServeState Cfg → Prop) (after : Nat → Versioned Cfg → ServeState Cfg → Prop)
    (post : Option Error × ω → ServeState Cfg → Prop) : Prop where
  own : ∀ err, IsPlain err → plain err
  context : ∀ {e err}, allow e → e.contextErr = some err → plain err
  callback : ∀ {c w err}, (apply c w).changed = .error err → plain err
  writersBefore : ∀ {n e s}, allow e → before n s → before n (s.interfere e)
  writersAfter : ∀ {n base e s}, allow e → after n base s → after n base (s.interfere e)
  got : ∀ {n e s base}, allow e → before n s → base = (if e.getNil then ⟨default, ""⟩ else (s.interfere e).server) →
    after n base { s.interfere e with log := s.log ++ [.get base] }
  refusedBefore : ∀ {n s err w}, before n s → plain err → post (some (notAppliedError err), w) s
  refusedAfter : ∀ {n base s err w}, after n base s → plain err → post (some (notAppliedError err), w) s
  unchanged : ∀ {n base s w}, after n base s → (apply base.config w).changed = .ok false →
    post (none, (apply base.config w).captured) s
  committed : ∀ {n base s w r}, after n base s → Sent apply base w s none r →
    post (none, (apply base.config w).captured) (s.sent r)
  retried : ∀ {n base s w r}, after (n + 1) base s → Sent apply base w s (some .preconditionsFailed) r →
    before n (s.sent r)
  conflict : ∀ {base s w r}, after 0 base s → Sent apply base w s (some .preconditionsFailed) r →
    post (some (.wrap "%w after %d attempts: %w" (.sentinel .serveConfigConflict) (.foreign .preconditionsFailed)),
      (apply base.config w).captured) (s.sent r)
  failed : ∀ {n base e s w r err}, allow e → e.setErr = some err → after n base s → Sent apply base w s (some err) r →
    isPreconditionsFailed err = false → post (some (if isKnownNotApplied err then notAppliedError (.foreign err)
      else .wrap "%w: %w" (.sentinel .publicationCommitIndeterminate) (.foreign err)), (apply base.config w).captured)
      (s.sent r)

theorem isPreconditionsFailed_iff {err : ClientError} :
    isPreconditionsFailed err = true ↔ err = .preconditionsFailed := by
  cases err <;> simp only [isPreconditionsFailed, reduceCtorEq, Bool.false_eq_true]

section Rule

variable [Inhabited Cfg] {apply : ServeConfigApply Cfg ω} {allow : ServeEnv Cfg → Prop} {plain : Error → Prop}
  {before : Nat → ServeState Cfg → Prop} {after : Nat → Versioned Cfg → ServeState Cfg → Prop}
  {post : Option Error × ω → ServeState Cfg → Prop} (h : MutateRule apply allow plain before after post)
include h

/-- The two checks before a Get and before a Set. -/
theorem MutateRule.checks {I : ServeState Cfg → Prop} (hI : ∀ {e s}, allow e → I s → I (s.interfere e)) {w : ω}
    (hrefused : ∀ {s err}, I s → plain err → post (some (notAppliedError err), w) s) (m : Mutation)
    {rest : MutateProg Cfg (Option Error × ω)} (hrest : ∀ s, I s → Ensures allow post rest s) {s : ServeState Cfg}
    (hs : I s) : Ensures allow post (do
      match ← contextBeforeDispatch m with
      | some err => return (some (notAppliedError err), w)
      | none =>
      match ← guardCurrent m with
      | some err => return (some (notAppliedError err), w)
      | none => rest) s := by
  have hcontext : Ensures allow (fun err s' => I s' ∧ ∀ e, err = some e → plain e) (contextBeforeDispatch m) s := by
    apply Ensures.step
    intro e b s' he hf
    cases hf
    refine ⟨hI he hs, fun err herr => ?_⟩
    split at herr
    · cases herr
      exact h.own _ rfl
    · exact h.context he herr
  apply hcontext.bind
  rintro ctxErr s1 ⟨hs1, hplain⟩
  cases ctxErr with
  | some err => exact .pure (hrefused hs1 (hplain err rfl))
  | none =>
  have hguard : Ensures allow (fun err s' => I s' ∧ ∀ e, err = some e → plain e) (guardCurrent m) s1 := by
    unfold guardCurrent
    split
    · apply Ensures.step
      intro e b s' he hf
      cases hf
      refine ⟨hI he hs1, fun err herr => ?_⟩
      split at herr
      · cases herr
        exact h.own _ rfl
      · cases herr
    · exact .pure ⟨hs1, nofun⟩
  apply hguard.bind
  rintro staleErr s2 ⟨hs2, hplain⟩
  cases staleErr with
  | some err => exact .pure (hrefused hs2 (hplain err rfl))
  | none => exact hrest s2 hs2

theorem MutateRule.dispatchSet {m : Mutation} {n : Nat} {base : Versioned Cfg} {w : ω}
    {retry : Option (ω → MutateProg Cfg (Option Error × ω))} (hlast : retry = none → n = 0)
    (hretry : ∀ next, retry = some next → ∃ k, n = k + 1 ∧ ∀ w s, before k s → Ensures allow post (next w) s)
    (hchanged : (apply base.config w).changed = .ok true) {s : ServeState Cfg} (hs : after n base s) :
    Ensures allow post (dispatchSet m base (apply base.config w) retry) s := by
  refine h.checks h.writersAfter h.refusedAfter m (fun s hs => ?_) hs
  apply (setServeConfig_sent hchanged h.writersAfter hs).bind
  rintro answer _ ⟨e, s1, r, rfl, he, hanswer, hs1, hsent⟩
  cases answer with
  | none => exact .pure (h.committed hs1 hsent)
  | some err =>
  by_cases hpre : isPreconditionsFailed err = true
  · obtain rfl := isPreconditionsFailed_iff.mp hpre
    simp only [hpre, if_true]
    cases retry with
    | none =>
      obtain rfl := hlast rfl
      exact .pure (h.conflict hs1 hsent)
    | some next =>
      obtain ⟨k, rfl, hnext⟩ := hretry next rfl
      exact hnext _ _ (h.retried hs1 hsent)
  · have hfailed := h.failed he hanswer hs1 hsent (by simpa using hpre)
    simp only [hpre, Bool.false_eq_true, if_false]
    by_cases hknown : isKnownNotApplied err = true
    · simp only [hknown, if_true] at hfailed ⊢
      exact .pure hfailed
    · simp only [hknown, Bool.false_eq_true, if_false] at hfailed ⊢
      exact .pure hfailed

theorem MutateRule.attempt {m : Mutation} {n : Nat} {retry : Option (ω → MutateProg Cfg (Option Error × ω))}
    (hlast : retry = none → n = 0)
    (hretry : ∀ next, retry = some next → ∃ k, n = k + 1 ∧ ∀ w s, before k s → Ensures allow post (next w) s)
    {w : ω} {s : ServeState Cfg} (hs : before n s) : Ensures allow post (attempt m apply retry w) s := by
  refine h.checks h.writersBefore h.refusedBefore m (fun s hs => ?_) hs
  have hget : Ensures allow (fun answer s' => match answer with
      | .error _ => before n s'
      | .ok base => after n base s') getServeConfig s := by
    apply Ensures.step
    intro e answer s' he hf
    cases herr : e.getErr with
    | some err =>
      simp only [herr, Option.some.injEq, Prod.mk.injEq] at hf
      obtain ⟨rfl, rfl⟩ := hf
      exact h.writersBefore he hs
    | none =>
      simp only [herr, Option.some.injEq, Prod.mk.injEq] at hf
      obtain ⟨rfl, rfl⟩ := hf
      exact h.got he hs rfl
  apply hget.bind
  intro answer s3 hs3
  cases answer with
  | error err =>
    have herror : Ensures allow (fun err s' => before n s' ∧ plain err) (getError m err) s3 := by
      unfold getError
      split
      · apply Ensures.step
        intro e b s' he hf
        cases hf
        exact ⟨h.writersBefore he hs3, h.own _ (by split <;> rfl)⟩
      · exact .pure ⟨hs3, h.own _ rfl⟩
    apply herror.bind
    rintro err' s4 ⟨hs4, hplain⟩
    exact .pure (h.refusedBefore hs4 hplain)
  | ok base =>
    cases hchanged : (apply base.config w).changed with
    | error err =>
      simp only [hchanged]
      exact .pure (h.refusedAfter hs3 (h.callback hchanged))
    | ok changed =>
      cases changed with
      | false =>
        simp only [hchanged]
        exact .pure (h.unchanged hs3 hchanged)
      | true =>
        simp only [hchanged]
        exact h.dispatchSet hlast hretry hchanged hs3

/-- The induction is on the attempts left. -/
theorem MutateRule.attempts (m : Mutation) (n : Nat) : ∀ (w : ω) (s : ServeState Cfg), before n s →
    Ensures allow post (attempts m apply n w) s := by
  induction n with
  | zero =>
    intro w s hs
    unfold Publication.attempts
    exact h.attempt (fun _ => rfl) (fun _ hnone => by cases hnone) hs
  | succ n ih =>
    intro w s hs
    unfold Publication.attempts
    refine h.attempt (fun hsome => by cases hsome) ?_ hs
    rintro next ⟨⟩
    exact ⟨n, rfl, ih⟩

/-- A call that returns, returns in `post`. -/
theorem MutateRule.mutateLocked {m : Mutation} {w : ω} {server : Versioned Cfg}
    (hstart : before (maxServeConfigMutationAttempts - 1) ⟨server, []⟩) {answers : List (ServeEnv Cfg)}
    (hanswers : ∀ e ∈ answers, allow e) {r : Option Error × ω} {s' : ServeState Cfg}
    (hrun : (mutateLocked m apply w).exec answers ⟨server, []⟩ = some (r, s')) : post r s' := by
  have hensures : Ensures allow post (Publication.mutateLocked m apply w) ⟨server, []⟩ := by
    unfold Publication.mutateLocked
    split
    · exact .pure (h.refusedBefore hstart (h.own _ rfl))
    · exact h.attempts m _ w _ hstart
  exact hensures.exec hanswers hrun

end Rule

/-! ## Truthful classification -/

/-- The Sets so far all lost their ETag race. This is what the loop carries from one attempt
to the next: only a failed precondition is retried. -/
def AllLost (log : List (ServeEvent Cfg)) : Prop :=
  ∀ r ∈ sets log, r.err = some .preconditionsFailed ∧ r.NotApplied

/-- The outcome of a call tells the truth about what its Sets did to the server. -/
structure Classified (apply : ServeConfigApply Cfg ω) (result : Option Error)
    (log : List (ServeEvent Cfg)) : Prop where
  /-- At most three Sets were sent. -/
  bounded : (sets log).length ≤ maxServeConfigMutationAttempts
  /-- Not-applied and conflict: no Set of the call changed the configuration. -/
  notApplied : ∀ err, result = some err →
    err.is .publicationNotApplied ∨ err.is .serveConfigConflict → ∀ r ∈ sets log, r.NotApplied
  /-- Nil: the last thing the call did was to get a configuration and to set what the callback
  made of it, under its ETag, and this Set was applied to its base, the only one of the call to
  be applied; or the last attempt sent nothing because the callback reported no
  change to the configuration it was given, and every earlier Set lost its ETag race. -/
  succeeded : result = none →
    (∃ init base w r, log = init ++ [.get base, .set r] ∧ (apply base.config w).changed = .ok true ∧
      r.candidate = ⟨(apply base.config w).candidate, base.etag⟩ ∧ r.AppliedToItsBase ∧
      ∀ r' ∈ sets init, r'.NotApplied) ∨
    (∃ init base w, log = init ++ [.get base] ∧ (apply base.config w).changed = .ok false ∧ AllLost init)
  /-- Anything else is reported as indeterminate. -/
  otherwise : ∀ err, result = some err → err.is .publicationNotApplied ∨ err.is .serveConfigConflict ∨
      err.is .publicationCommitIndeterminate

theorem notAppliedError_is (err : Error) : (notAppliedError err).is .publicationNotApplied := by
  unfold notAppliedError
  split
  · assumption
  · rfl

variable {apply : ServeConfigApply Cfg ω} {log : List (ServeEvent Cfg)}

/-- Every exit through `notAppliedError` is truthful while no Set was applied. -/
theorem classified_notAppliedError (hlost : ∀ r ∈ sets log, r.NotApplied)
    (hlen : (sets log).length ≤ maxServeConfigMutationAttempts) (err : Error) :
    Classified apply (some (notAppliedError err)) log where
  bounded := hlen
  notApplied := fun _ _ _ => hlost
  succeeded := nofun
  otherwise := by
    rintro _ ⟨⟩
    exact .inl (notAppliedError_is err)

theorem AllLost.notApplied (h : AllLost log) : ∀ r ∈ sets log, r.NotApplied :=
  fun r hr => (h r hr).2

theorem notApplied_snoc (h : AllLost log) {r : SetRecord Cfg} (hr : r.NotApplied) :
    ∀ r' ∈ sets (log ++ [.set r]), r'.NotApplied := by
  intro r' hr'
  rw [sets_set, List.mem_append, List.mem_singleton] at hr'
  rcases hr' with hr' | rfl
  · exact h.notApplied r' hr'
  · exact hr

theorem AllLost.snoc (h : AllLost log) {r : SetRecord Cfg}
    (herr : r.err = some .preconditionsFailed) (hr : r.NotApplied) : AllLost (log ++ [.set r]) := by
  intro r' hr'
  refine ⟨?_, notApplied_snoc h hr r' hr'⟩
  rw [sets_set, List.mem_append, List.mem_singleton] at hr'
  rcases hr' with hr' | rfl
  · exact (h r' hr').1
  · exact herr

theorem length_sets_set (log : List (ServeEvent Cfg)) (r : SetRecord Cfg) :
    (sets (log ++ [.set r])).length = (sets log).length + 1 := by
  rw [sets_set, List.length_append, List.length_singleton]

/-- All Sets were lost, and the Sets sent and the attempts left do not exceed the bound together. -/
def Losing (n : Nat) (log : List (ServeEvent Cfg)) : Prop :=
  AllLost log ∧ (sets log).length + n < maxServeConfigMutationAttempts

theorem Losing.get {n : Nat} (h : Losing n log) (base : Versioned Cfg) : Losing n (log ++ [.get base]) := by
  unfold Losing AllLost
  rw [sets_get]
  exact h

theorem Losing.refused {n : Nat} (h : Losing n log) (err : Error) : Classified apply (some (notAppliedError err)) log :=
  classified_notAppliedError h.1.notApplied (by have hroom := h.2; omega) err

/-- A retry adds one lost Set and uses up one attempt. -/
theorem classified_rule [Inhabited Cfg] (apply : ServeConfigApply Cfg ω) :
    MutateRule apply (fun _ => True) (fun _ => True) (fun n s => Losing n s.log)
      (fun n base s => ∃ init, s.log = init ++ [.get base] ∧ Losing n init) fun r s => Classified apply r.1 s.log where
  own _ _ := trivial
  context _ _ := trivial
  callback _ := trivial
  writersBefore _ hs := hs
  writersAfter _ hs := hs
  got _ hs _ := ⟨_, rfl, hs⟩
  refusedBefore hs _ := hs.refused _
  refusedAfter := by
    rintro n base s err w ⟨init, hlog, hs⟩ -
    rw [hlog]
    exact (hs.get base).refused err
  unchanged := by
    rintro n base s w ⟨init, hlog, hs⟩ hchanged
    have hroom := hs.2
    refine ⟨?_, nofun, fun _ => .inr ⟨init, base, w, hlog, hchanged, hs.1⟩, nofun⟩
    rw [hlog, sets_get]
    omega
  committed := by
    rintro n base s w r ⟨init, hlog, hs⟩ hsent
    have hroom := hs.2
    refine ⟨?_, nofun, fun _ => .inl ⟨init, base, w, r, ?_, hsent.changed, hsent.candidate, hsent.applied,
      hs.1.notApplied⟩, nofun⟩
    · rw [ServeState.sent, length_sets_set, hlog, sets_get]
      omega
    · rw [ServeState.sent, hlog, List.append_assoc]
      rfl
  retried := by
    rintro n base s w r ⟨init, hlog, hs⟩ hsent
    obtain ⟨hlost, hroom⟩ := hs.get base
    rw [← hlog] at hlost hroom
    refine ⟨hlost.snoc hsent.err (hsent.notApplied (.inl rfl)), ?_⟩
    rw [ServeState.sent, length_sets_set]
    omega
  conflict := by
    rintro base s w r ⟨init, hlog, hs⟩ hsent
    obtain ⟨hlost, hroom⟩ := hs.get base
    rw [← hlog] at hlost hroom
    refine ⟨?_, fun _ _ _ => notApplied_snoc hlost (hsent.notApplied (.inl rfl)), nofun, ?_⟩
    · rw [ServeState.sent, length_sets_set]
      omega
    · rintro _ ⟨⟩
      exact .inr (.inl rfl)
  failed := by
    rintro n base e s w r err - - ⟨init, hlog, hs⟩ hsent -
    obtain ⟨hlost, hroom⟩ := hs.get base
    rw [← hlog] at hlost hroom
    have hlen : (sets (s.sent r).log).length ≤ maxServeConfigMutationAttempts := by
      rw [ServeState.sent, length_sets_set]
      omega
    split
    · next hknown =>
      exact classified_notAppliedError (notApplied_snoc hlost (hsent.notApplied (.inr hknown))) hlen _
    · refine ⟨hlen, ?_, nofun, ?_⟩
      · rintro _ ⟨⟩ (hnot | hnot)
        · cases hnot
        · cases hnot
      · rintro _ ⟨⟩
        exact .inr (.inr rfl)

/-- **Truthful classification.** Whatever the LocalAPI answers and whatever other writers do
between the steps, a call of `mutateLocked` that started with an empty history returns an
outcome that says what its Sets did. -/
theorem mutateLocked_classified [Inhabited Cfg] (m : Mutation) (apply : ServeConfigApply Cfg ω)
    (w : ω) (server : Versioned Cfg) (answers : List (ServeEnv Cfg))
    (result : Option Error) (captured : ω) (s' : ServeState Cfg)
    (hrun : (mutateLocked m apply w).exec answers ⟨server, []⟩ = some ((result, captured), s')) :
    Classified apply result s'.log := by
  have hstart : Losing (maxServeConfigMutationAttempts - 1) ([] : List (ServeEvent Cfg)) := ⟨nofun, Nat.le.refl⟩
  exact (classified_rule apply).mutateLocked hstart (fun _ _ => trivial) hrun

/-- A callback that publishes by writing `1` over an empty configuration and has nothing to
do on any other. -/
def publishOnce : ServeConfigApply Nat Unit := fun config _ =>
  if config = 0 then ⟨1, (), .ok true⟩ else ⟨config, (), .ok false⟩

/-- The answers of an undisturbed attempt up to its Set. -/
def undisturbed : List (ServeEnv Nat) := [{}, {}, {}, {}, {}]

/-- One lost race: another writer changes the ETag before the first Set, the second attempt
is applied. -/
def lostThenApplied : List (ServeEnv Nat) :=
  undisturbed ++ [{ external := some ⟨0, "b"⟩, setErr := some .preconditionsFailed }] ++
    undisturbed ++ [{ newTag := "c" }]

theorem mutateLocked_classified_retry : ∃ s',
    (mutateLocked {} publishOnce ()).exec lostThenApplied ⟨⟨0, "a"⟩, []⟩ = some ((none, ()), s') ∧
      s'.log = [.get ⟨0, "a"⟩, .set ⟨⟨1, "a"⟩, ⟨0, "b"⟩, ⟨0, "b"⟩, some .preconditionsFailed⟩,
        .get ⟨0, "b"⟩, .set ⟨⟨1, "b"⟩, ⟨0, "b"⟩, ⟨1, "c"⟩, none⟩] ∧
      Classified publishOnce none s'.log := by
  refine ⟨_, rfl, rfl, ?_⟩
  exact mutateLocked_classified {} publishOnce () ⟨0, "a"⟩ lostThenApplied none () _ rfl

/-- One lost race against a writer that leaves nothing to change. -/
def lostThenUnchanged : List (ServeEnv Nat) :=
  undisturbed ++ [{ external := some ⟨1, "b"⟩, setErr := some .preconditionsFailed }] ++ undisturbed.take 3

/-- A nil result does not mean that the call sent no Set or that its last Set was applied:
when a Set loses its race to a writer that leaves nothing to change, the next attempt returns
nil although the one Set of the call never applied. -/
theorem mutateLocked_nil_after_lost_set :
    ¬ ∀ (answers : List (ServeEnv Nat)) (s' : ServeState Nat),
      (mutateLocked {} publishOnce ()).exec answers ⟨⟨0, "a"⟩, []⟩ = some ((none, ()), s') →
      (∃ init r, sets s'.log = init ++ [r] ∧ r.AppliedToItsBase ∧ ∀ r' ∈ init, r'.NotApplied) ∨ sets s'.log = [] := by
  intro h
  rcases h lostThenUnchanged _ rfl with ⟨init, r, hsets, hr, -⟩ | hsets
  · have hlast := congrArg List.getLast? hsets
    rw [List.getLast?_concat] at hlast
    obtain rfl := Option.some.inj hlast
    exact absurd hr.etag (by decide)
  · cases hsets

end TailscaleDart.Publication
