import TailscaleDart.Publication.Mutate

/-!
# Publication.Outcome — what a mutation did, for its caller

`Mutate` classifies the errors of `mutateLocked`. Its callers go on with the variables their callback captured, so
they need more: which configuration the callback last saw, and what the server holds now. That depends on the
surroundings: on the other writers, and on whether the server reports a configuration it has as missing. `Outcome`
is stated for any surroundings that say so once.
-/

namespace TailscaleDart.Publication

open TailscaleDart.Conc

variable {Cfg ω : Type}

/-- A Set of the call: its candidate is the callback's, made of a configuration that was got, and it was applied over
the configuration whose ETag it carried or not at all. -/
structure TracedSet (apply : ServeConfigApply Cfg ω) (log : List (ServeEvent Cfg)) (r : SetRecord Cfg) : Prop where
  made : ∃ base w, ServeEvent.get base ∈ log ∧ (apply base.config w).changed = .ok true ∧
    r.candidate = ⟨(apply base.config w).candidate, base.etag⟩
  effect : r.NotApplied ∨ r.AppliedToItsBase

def Traced (apply : ServeConfigApply Cfg ω) (log : List (ServeEvent Cfg)) : Prop :=
  ∀ r ∈ sets log, TracedSet apply log r

variable {log : List (ServeEvent Cfg)}

theorem TracedSet.append {apply : ServeConfigApply Cfg ω} {r : SetRecord Cfg}
    (h : TracedSet apply log r) (more : List (ServeEvent Cfg)) : TracedSet apply (log ++ more) r := by
  obtain ⟨base, w, hget, hmade⟩ := h.made
  exact ⟨⟨base, w, List.mem_append_left more hget, hmade⟩, h.effect⟩

theorem Traced.get {apply : ServeConfigApply Cfg ω} (h : Traced apply log)
    (base : Versioned Cfg) : Traced apply (log ++ [.get base]) := by
  intro r hr
  rw [sets_get] at hr
  exact (h r hr).append _

theorem Traced.set {apply : ServeConfigApply Cfg ω} (h : Traced apply log)
    {r : SetRecord Cfg} (hr : TracedSet apply log r) : Traced apply (log ++ [.set r]) := by
  intro r' hr'
  rw [sets_set] at hr'
  rcases List.mem_append.mp hr' with hold | hnew
  · exact (h r' hold).append _
  · rw [List.mem_singleton.mp hnew]
    exact hr.append _

section Sent

variable {apply : ServeConfigApply Cfg ω} {base : Versioned Cfg} {w : ω} {s : ServeState Cfg}
  {answer : Option ClientError} {r : SetRecord Cfg}

theorem Traced.sent (h : Traced apply s.log) (hgot : .get base ∈ s.log) (hsent : Sent apply base w s answer r) :
    Traced apply (s.sent r).log :=
  h.set ⟨⟨base, w, hgot, hsent.changed, hsent.candidate⟩, hsent.effect.imp (·.1) (·.1)⟩

/-- A Set that was not applied leaves what was known of the server. -/
theorem Sent.server_kept (h : Sent apply base w s answer r) {P : Versioned Cfg → Prop} (hs : P s.server)
    (hnot : r.NotApplied) : P (s.sent r).server := by
  show P r.after
  rw [hnot, h.before]
  exact hs

theorem Sent.server_new (h : Sent apply base w s answer r) (happlied : r.AppliedToItsBase) :
    (s.sent r).server.config = (apply base.config w).candidate :=
  happlied.installed.trans (congrArg Versioned.config h.candidate)

end Sent

variable [Inhabited Cfg]

/-- What is known around a call. `server` holds of the server's configuration as long as the call has applied
nothing; `base` of every configuration a Get returns meanwhile. -/
structure Surroundings (Cfg : Type) [Inhabited Cfg] where
  allow : ServeEnv Cfg → Prop
  server : Versioned Cfg → Prop
  base : Cfg → Prop
  /-- The answer of a Set may be lost. -/
  lossy : Prop
  kept : ∀ {e v}, allow e → server v → server (e.external.getD v)
  got : ∀ {e v}, allow e → server v → base (if e.getNil then default else v.config)
  /-- The context's error is one of the context package. -/
  context : ∀ {e err}, allow e → e.contextErr = some err → IsPlain err
  answered : ∀ {e err}, allow e → e.setErr = some err → isPreconditionsFailed err ∨ isKnownNotApplied err ∨ lossy

/-- Nothing is known: other writers write at any moment. -/
def Surroundings.any : Surroundings Cfg where
  allow e := ∀ err, e.contextErr = some err → IsPlain err
  server _ := True
  base _ := True
  lossy := True
  kept _ _ := trivial
  got _ _ := trivial
  context he herr := he _ herr
  answered _ _ := .inr (.inr trivial)

/-- Nobody else writes, and what the server holds is what a Get returns. -/
def Surroundings.alone (server : Versioned Cfg) (lossy : Prop) : Surroundings Cfg where
  allow e := e.external = none ∧ (e.getNil = true → server.config = default) ∧
    (∀ err, e.contextErr = some err → IsPlain err) ∧
    ∀ err, e.setErr = some err → isPreconditionsFailed err ∨ isKnownNotApplied err ∨ lossy
  server v := v = server
  base c := c = server.config
  lossy := lossy
  kept := by
    rintro e v ⟨hexternal, -⟩ rfl
    rw [hexternal]
    rfl
  got := by
    rintro e v ⟨-, hnil, -⟩ rfl
    split
    · next h => exact (hnil h).symm
    · rfl
  context he herr := he.2.2.1 _ herr
  answered he herr := he.2.2.2 _ herr

/-- The result of a call with its captured variables, and the server's configuration when it returns. -/
inductive Outcome (S : Surroundings Cfg) (apply : ServeConfigApply Cfg ω) : Option Error × ω → Versioned Cfg → Prop
  /-- Nothing was applied. -/
  | refused {err : Error} {w : ω} {v : Versioned Cfg} : IsPlain err → S.server v →
      Outcome S apply (some err, w) v
  /-- There was nothing to change. -/
  | unchanged {c : Cfg} {w : ω} {v : Versioned Cfg} : S.base c → (apply c w).changed = .ok false → S.server v →
      Outcome S apply (none, (apply c w).captured) v
  | committed {c : Cfg} {w : ω} {v : Versioned Cfg} : S.base c → (apply c w).changed = .ok true →
      v.config = (apply c w).candidate → Outcome S apply (none, (apply c w).captured) v
  /-- The answer of the last Set was lost. -/
  | unknown {err : Error} {c : Cfg} {w : ω} {v : Versioned Cfg} : S.lossy →
      err.is .publicationCommitIndeterminate = true → S.base c → (apply c w).changed = .ok true →
      S.server v ∨ v.config = (apply c w).candidate → Outcome S apply (some err, (apply c w).captured) v

/-! ## The loop -/

theorem notAppliedError_indeterminate {err : Error} (h : IsPlain err) : IsPlain (notAppliedError err) := by
  unfold notAppliedError
  split
  · exact h
  · simp only [IsPlain, GoError.is, h]
    rfl

variable {S : Surroundings Cfg} {apply : ServeConfigApply Cfg ω}

theorem outcome_rule (happly : ∀ c w err, (apply c w).changed = .error err → IsPlain err) :
    MutateRule apply S.allow IsPlain
      (fun _ s => S.server s.server ∧ Traced apply s.log)
      (fun _ base s => (S.server s.server ∧ S.base base.config) ∧ Traced apply s.log ∧ .get base ∈ s.log)
      fun r s => Outcome S apply r s.server ∧ Traced apply s.log where
  own _ herr := herr
  context := S.context
  callback hchanged := happly _ _ _ hchanged
  writersBefore he hs := ⟨S.kept he hs.1, hs.2⟩
  writersAfter he hs := ⟨⟨S.kept he hs.1.1, hs.1.2⟩, hs.2⟩
  got := by
    rintro n e s base he ⟨hserver, htraced⟩ rfl
    have hkept := S.kept he hserver
    refine ⟨⟨hkept, ?_⟩, htraced.get _, List.mem_append_right _ (.head _)⟩
    have hgot := S.got he hkept
    split at hgot
    · next hnil =>
      rw [if_pos hnil]
      exact hgot
    · next hnil =>
      rw [if_neg hnil]
      exact hgot
  refusedBefore hs hplain := ⟨.refused (notAppliedError_indeterminate hplain) hs.1, hs.2⟩
  refusedAfter hs hplain := ⟨.refused (notAppliedError_indeterminate hplain) hs.1.1, hs.2.1⟩
  unchanged hs hchanged := ⟨.unchanged hs.1.2 hchanged hs.1.1, hs.2.1⟩
  committed hs hsent := ⟨.committed hs.1.2 hsent.changed (hsent.server_new hsent.applied), hs.2.1.sent hs.2.2 hsent⟩
  retried hs hsent := ⟨hsent.server_kept hs.1.1 (hsent.notApplied (.inl rfl)), hs.2.1.sent hs.2.2 hsent⟩
  conflict hs hsent :=
    ⟨.refused rfl (hsent.server_kept hs.1.1 (hsent.notApplied (.inl rfl))), hs.2.1.sent hs.2.2 hsent⟩
  failed := by
    intro n base e s w r err he herr hs hsent hpre
    refine ⟨?_, hs.2.1.sent hs.2.2 hsent⟩
    split
    · next hknown =>
      exact .refused (notAppliedError_indeterminate rfl) (hsent.server_kept hs.1.1 (hsent.notApplied (.inr hknown)))
    · next hknown =>
      have hlossy : S.lossy := ((S.answered he herr).resolve_left (by simp [hpre])).resolve_left hknown
      refine .unknown hlossy rfl hs.1.2 hsent.changed ?_
      exact hsent.effect.imp (hsent.server_kept hs.1.1 ·.1) (hsent.server_new ·.1)

/-- What a call of `mutateLocked` comes to, in any surroundings. -/
theorem mutateLocked_outcome (m : Mutation)
    (happly : ∀ c w err, (apply c w).changed = .error err → IsPlain err) {w : ω}
    {server : Versioned Cfg} (hserver : S.server server) {answers : List (ServeEnv Cfg)}
    (hanswers : ∀ e ∈ answers, S.allow e) {r : Option Error × ω} {s' : ServeState Cfg}
    (hrun : (mutateLocked m apply w).exec answers ⟨server, []⟩ = some (r, s')) :
    Outcome S apply r s'.server ∧ Traced apply s'.log := by
  exact (outcome_rule happly).mutateLocked ⟨hserver, nofun⟩ hanswers hrun

end TailscaleDart.Publication
