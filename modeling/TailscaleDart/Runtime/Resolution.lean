import TailscaleDart.Runtime.Preparation
import TailscaleDart.Store.Reinspection

/-!
# Runtime.Resolution — what an inspection and the presence of the key decide

A preparation inspects the state root, and resolves what it found against the presence of the key. The layout and
the resolution are recorded once: later calls can repeat them but not change them (`Decided`), whatever other calls
of the preparation come between. So the action a preparation returns is the one for the disk it inspected.
-/

namespace TailscaleDart.Runtime

open Conc Durable Store

namespace PersistentPreparation

/-- The critical sections of `phaseMu`. -/
inductive Section (p : PersistentPreparation) : PersistentPreparation → Prop
  | settleAcquisition (lease : Bool) : Section p { p with acquisitionSettled := true, lease := lease }
  | beginOperation (name : String) (op : Nat) (validated : Option Error) :
      Section p (p.beginOperation name op validated).2
  | finishOperation (op : Nat) : Section p (p.finishOperation op)
  | recordLayout (layout : StateLayout) : Section p (p.recordLayout layout).2
  | markCustodyActive : Section p p.markCustodyActive.2
  | resolveCustody (dekPresent : Bool) : Section p (p.resolveCustody dekPresent).2
  | markCustodyWriteAttempted : Section p p.markCustodyWriteAttempted.2
  | supplyPreparedDEK : Section p p.supplyPreparedDEK.2
  | startPrepare : Section p p.startPrepare.2
  | beginEnvelopeWrite (channel : Nat) : Section p (p.beginEnvelopeWrite channel).2
  | recordCommitted : Section p p.recordCommitted
  | endEnvelopeWrite (store : Bool) : Section p (p.endEnvelopeWrite store).2
  | takeDEK : Section p p.takeDEK.2
  | keepStore : Section p p.keepStore.2
  | recordEmpty (empty : Bool) : Section p (p.recordEmpty empty).2
  | completeCustody : Section p p.completeCustody.2
  | abandon : Section p { p with abandoned := true }
  | adopt : Section p { p with
      store := false, lease := false, adopted := true, dekSupplied := false, done := true }
  | claimFinish : Section p { p with finishing := true }
  | enterCustodyCleanup : Section p { p with
      store := false, dekSupplied := false, custodyCleaning := true }
  | leaveCustodyCleanup (err : Option Error) : Section p { p with
      custodyCleanedUp := true, custodyCleanupErr := err }
  | releaseLease : Section p { p with lease := false }
  | complete (err : Option Error) : Section p { p with terminalErr := err, done := true }

/-- What a recorded resolution says, and that nothing is recorded before it. -/
structure Decided (p : PersistentPreparation) : Prop where
  before : p.custodyResolved = false → p.action = none ∧ p.custodyResolveErr = none
  after : p.custodyResolved = true → ∃ layout, p.layout = some layout ∧
    match decideAction layout p.custodyDEKPresent with
    | .ok action => p.action = some action ∧ p.custodyResolveErr = none
    | .error err => p.custodyResolveErr = some err

/-- What a resolution reads and writes. -/
def decision (p : PersistentPreparation) : Option StateLayout × Bool × Bool × Option Error × Option PreparationAction :=
  (p.layout, p.custodyResolved, p.custodyDEKPresent, p.custodyResolveErr, p.action)

/-- What a key goes through. -/
structure Custody where
  active : Bool
  completed : Bool
  dekSupplied : Bool
  writeAttempted : Bool
  outcome : EnvelopeWriteOutcome

def custody (p : PersistentPreparation) : Custody :=
  ⟨p.custodyActive, p.custodyCompleted, p.dekSupplied, p.custodyWriteAttempted, p.envelopeOutcome⟩

/-- What a section can do to the key. -/
inductive KeyMove (k : Custody) : Custody → Prop
  | same : KeyMove k k
  | activated (hopen : k.completed = false) : KeyMove k { k with active := true }
  | attempted (hactive : k.active = true) : KeyMove k { k with writeAttempted := true }
  | supplied (hactive : k.active = true) (hnone : k.outcome = .none) : KeyMove k { k with dekSupplied := true }
  | begun (hattempted : k.writeAttempted = true) (hsupplied : k.dekSupplied = true) (hnone : k.outcome = .none) :
      KeyMove k { k with dekSupplied := false, outcome := .inFlight }
  | ended (outcome : EnvelopeWriteOutcome) (hflight : k.outcome = .inFlight) : KeyMove k { k with outcome := outcome }
  | dropped : KeyMove k { k with dekSupplied := false }
  | completed (hcommitted : k.writeAttempted = true → k.outcome = .committed) :
      KeyMove k { k with dekSupplied := false, active := false, completed := true }

/-- A section inspects, resolves, or leaves layout and resolution alone; and it makes a move of the key. -/
structure Effect (p p' : PersistentPreparation) : Prop where
  decision : p'.decision = p.decision ∨ (∃ layout, p' = (p.recordLayout layout).2) ∨
    ∃ present, p' = (p.resolveCustody present).2
  key : KeyMove p.custody p'.custody

variable {p p' : PersistentPreparation}

theorem Decided.same (hp : Decided p) (h : p'.decision = p.decision) : Decided p' := by
  simp only [decision, Prod.mk.injEq] at h
  obtain ⟨hlayout, hresolved, hpresent, herr, haction⟩ := h
  constructor
  · rw [hresolved, haction, herr]
    exact hp.before
  · rw [hresolved, hlayout, hpresent, haction, herr]
    exact hp.after

/-- A section without an effect on either. -/
theorem Effect.none (hdecision : p'.decision = p.decision) (hkey : p'.custody = p.custody) : Effect p p' :=
  ⟨.inl hdecision, hkey ▸ .same⟩

theorem key_whenLive {α : Type} {body : Except Error α × PersistentPreparation}
    (h : KeyMove p.custody body.2.custody) : KeyMove p.custody (p.whenLive body).2.custody := by
  unfold whenLive
  split
  · exact .same
  · exact h

theorem effect_whenLive {α : Type} {body : Except Error α × PersistentPreparation} (h : Effect p body.2) :
    Effect p (p.whenLive body).2 := by
  unfold whenLive
  split
  · exact .none rfl rfl
  · exact h

theorem effect_endEnvelopeWrite (store : Bool) (p : PersistentPreparation) : Effect p (p.endEnvelopeWrite store).2 := by
  unfold endEnvelopeWrite
  dsimp only
  by_cases hflight : p.envelopeOutcome = .inFlight
  · rw [if_pos hflight]
    split
    all_goals exact ⟨.inl rfl, .ended _ hflight⟩
  · rw [if_neg hflight]
    split
    all_goals exact .none rfl rfl

theorem effect_completeCustody (p : PersistentPreparation) : Effect p p.completeCustody.2 := by
  apply effect_whenLive
  split
  · exact .none rfl rfl
  split
  · exact .none rfl rfl
  split
  · exact .none rfl rfl
  split
  · exact .none rfl rfl
  next hcommitted => exact ⟨.inl rfl, .completed (by simpa [custody] using hcommitted)⟩

theorem effect_beginEnvelopeWrite (channel : Nat) (p : PersistentPreparation) :
    Effect p (p.beginEnvelopeWrite channel).2 := by
  apply effect_whenLive
  split
  · exact .none rfl rfl
  next hready =>
  split
  · exact .none rfl rfl
  next hnone =>
  obtain ⟨hattempted, hsupplied⟩ : p.custodyWriteAttempted = true ∧ p.dekSupplied = true := by simpa using hready
  exact ⟨.inl rfl, .begun hattempted hsupplied (not_not.mp hnone)⟩

theorem Section.effect (h : Section p p') : Effect p p' := by
  cases h with
  | recordLayout layout =>
    refine ⟨.inr (.inl ⟨layout, rfl⟩), key_whenLive ?_⟩
    split
    all_goals exact .same
  | resolveCustody present =>
    refine ⟨.inr (.inr ⟨present, rfl⟩), key_whenLive ?_⟩
    repeat' split
    all_goals exact .same
  | settleAcquisition | abandon | claimFinish | leaveCustodyCleanup | releaseLease | complete => exact .none rfl rfl
  | adopt | enterCustodyCleanup => exact ⟨.inl rfl, .dropped⟩
  | beginOperation =>
    apply effect_whenLive
    repeat' split
    all_goals exact .none rfl rfl
  | finishOperation =>
    unfold PersistentPreparation.finishOperation
    split
    all_goals exact .none rfl rfl
  | startPrepare =>
    unfold PersistentPreparation.startPrepare
    repeat' split
    all_goals exact .none rfl rfl
  | keepStore =>
    unfold PersistentPreparation.keepStore
    split
    all_goals exact .none rfl rfl
  | recordEmpty =>
    unfold PersistentPreparation.recordEmpty
    split
    all_goals exact .none rfl rfl
  | takeDEK =>
    unfold PersistentPreparation.takeDEK
    split
    · exact .none rfl rfl
    · exact ⟨.inl rfl, .dropped⟩
  | markCustodyActive =>
    apply effect_whenLive
    split
    · exact .none rfl rfl
    split
    · exact .none rfl rfl
    next hopen =>
    have hboth : p.custodyActive = false ∧ p.custodyCompleted = false := by simpa using hopen
    exact ⟨.inl rfl, .activated hboth.2⟩
  | markCustodyWriteAttempted =>
    apply effect_whenLive
    split
    · exact .none rfl rfl
    next hactive => exact ⟨.inl rfl, .attempted (by simpa [custody] using hactive)⟩
  | supplyPreparedDEK =>
    apply effect_whenLive
    split
    · exact .none rfl rfl
    next hactive =>
    split
    · exact .none rfl rfl
    split
    · exact .none rfl rfl
    next hnone => exact ⟨.inl rfl, .supplied (by simpa [custody] using hactive) (not_not.mp hnone)⟩
  | beginEnvelopeWrite channel => exact effect_beginEnvelopeWrite channel p
  | recordCommitted =>
    unfold PersistentPreparation.recordCommitted
    split
    next hflight => exact ⟨.inl rfl, .ended .committed hflight⟩
    next => exact .none rfl rfl
  | endEnvelopeWrite store => exact effect_endEnvelopeWrite store p
  | completeCustody => exact effect_completeCustody p

/-- A layout is recorded once: a second inspection has the same answer or is refused. -/
theorem recordLayout_cases (layout : StateLayout) (p : PersistentPreparation) :
    (∃ err, p.recordLayout layout = (.error err, p)) ∨
      (p.recordLayout layout = (.ok layout, { p with layout := some layout }) ∧
        (p.layout = none ∨ p.layout = some layout) ∧ p.requireLive = none) := by
  unfold recordLayout whenLive
  split
  · exact .inl ⟨_, rfl⟩
  · next hlive =>
    split
    · exact .inl ⟨_, rfl⟩
    · next hsame =>
      refine .inr ⟨rfl, ?_, hlive⟩
      cases hlayout : p.layout with
      | none => exact .inl rfl
      | some other =>
        simp only [hlayout, Option.isSome_some, Bool.true_and, decide_eq_true_eq, ne_eq, not_not] at hsame
        exact .inr hsame

/-- A resolution is recorded once, too; its answer is the decision for the recorded layout. -/
theorem resolveCustody_cases (hp : Decided p) (dekPresent : Bool) :
    (∃ err p', p.resolveCustody dekPresent = (.error err, p') ∧ Decided p' ∧ p'.layout = p.layout) ∨
      ∃ layout action p', p.resolveCustody dekPresent = (.ok (some action), p') ∧ Decided p' ∧ p'.layout = p.layout ∧
        p.layout = some layout ∧ decideAction layout dekPresent = .ok action := by
  unfold resolveCustody whenLive
  split
  · exact .inl ⟨_, p, rfl, hp, rfl⟩
  split
  · exact .inl ⟨_, p, rfl, hp, rfl⟩
  cases hlayout : p.layout with
  | none => exact .inl ⟨_, p, rfl, hp, hlayout⟩
  | some layout =>
    dsimp only
    split
    · next hresolved =>
      split
      · exact .inl ⟨_, p, rfl, hp, hlayout⟩
      · next hpresent =>
        obtain ⟨layout', hlayout', hdecided⟩ := hp.after hresolved
        cases hlayout.symm.trans hlayout'
        rw [not_not.mp hpresent] at hdecided
        cases hdecide : decideAction layout dekPresent with
        | ok action =>
          rw [hdecide] at hdecided
          rw [hdecided.2, hdecided.1]
          exact .inr ⟨layout, action, p, rfl, hp, hlayout, rfl, hdecide⟩
        | error err =>
          rw [hdecide] at hdecided
          rw [show p.custodyResolveErr = some err from hdecided]
          exact .inl ⟨err, p, rfl, hp, hlayout⟩
    · next hfresh =>
      have hnoErr : p.custodyResolveErr = none := (hp.before (Bool.not_eq_true _ ▸ hfresh)).2
      cases hdecide : decideAction layout dekPresent with
      | ok action =>
        refine .inr ⟨layout, action, _, rfl, ⟨nofun, fun _ => ⟨layout, rfl, ?_⟩⟩, rfl, rfl, hdecide⟩
        simp only [hdecide, hnoErr, and_self]
      | error err =>
        refine .inl ⟨err, _, rfl, ⟨nofun, fun _ => ⟨layout, rfl, ?_⟩⟩, rfl⟩
        simp only [hdecide]

/-- The step lemma: decisions stay consistent, and a layout that was recorded stays. -/
theorem Section.keeps (h : Section p p') (hp : Decided p) :
    Decided p' ∧ ∀ layout, p.layout = some layout → p'.layout = some layout := by
  rcases h.effect.decision with hsame | ⟨layout, rfl⟩ | ⟨present, rfl⟩
  · have hlayout : p'.layout = p.layout := congrArg Prod.fst hsame
    exact ⟨hp.same hsame, fun layout hsome => hlayout.trans hsome⟩
  · rcases recordLayout_cases layout p with ⟨err, heq⟩ | ⟨heq, hbefore, -⟩
    · rw [heq]
      exact ⟨hp, fun _ hlayout => hlayout⟩
    · rw [heq]
      refine ⟨⟨hp.before, fun hresolved => ?_⟩, fun other hother => ?_⟩
      · obtain ⟨other, hother, hdecided⟩ := hp.after hresolved
        rcases hbefore with hnone | hsome
        · cases hnone.symm.trans hother
        · cases hsome.symm.trans hother
          exact ⟨layout, rfl, hdecided⟩
      · rcases hbefore with hnone | hsome
        · cases hnone.symm.trans hother
        · cases hsome.symm.trans hother
          rfl
  · rcases resolveCustody_cases hp present
      with ⟨err, p', heq, hdecided, hlayout⟩ | ⟨_, _, p', heq, hdecided, hlayout, -⟩
    · rw [heq]
      exact ⟨hdecided, fun _ hsome => hlayout.trans hsome⟩
    · rw [heq]
      exact ⟨hdecided, fun _ hsome => hlayout.trans hsome⟩

theorem sections_keep (h : Relation.ReflTransGen Section p p') (hp : Decided p) :
    Decided p' ∧ ∀ layout, p.layout = some layout → p'.layout = some layout := by
  induction h with
  | refl => exact ⟨hp, fun _ hlayout => hlayout⟩
  | tail _ hstep ih =>
    obtain ⟨hdecided, hkept⟩ := hstep.keeps ih.1
    exact ⟨hdecided, fun layout hlayout => hkept layout (ih.2 layout hlayout)⟩

/-- A preparation as `newPersistentPreparation` makes it. -/
def fresh (token : Nat) : PersistentPreparation := { token := token }

theorem decided_fresh (token : Nat) : Decided (fresh token) := ⟨fun _ => ⟨rfl, rfl⟩, nofun⟩

/-! ## The key and the first envelope -/

/-- A key is staged only until the first envelope takes it, and custody is complete only with that envelope. -/
structure Custody.Staged (k : Custody) : Prop where
  consumed : k.outcome ≠ .none → k.dekSupplied = false ∧ k.writeAttempted = true
  completed : k.completed = true → k.active = false ∧ k.dekSupplied = false ∧
    (k.writeAttempted = true → k.outcome = .committed)

variable {k k' : Custody}

/-- A record whose custody is active is not complete, and one that is complete has no key to write with; so each move
has its condition from the other half. -/
theorem KeyMove.staged (h : KeyMove k k') (hk : k.Staged) : k'.Staged := by
  obtain ⟨hconsumed, hcompleted⟩ := hk
  cases h <;> constructor <;> grind

/-- An outcome that is known stays: only a write in flight gets one, and only a record without one begins a write. -/
theorem KeyMove.outcome_known (h : KeyMove k k') (hknown : k.outcome ∉ [.none, .inFlight]) :
    k'.outcome = k.outcome := by
  have hended : k.outcome ≠ .none ∧ k.outcome ≠ .inFlight := by simpa using hknown
  cases h with
  | same | activated | attempted | supplied | dropped | completed => rfl
  | begun _ _ hnone => exact absurd hnone hended.1
  | ended _ hflight => exact absurd hflight hended.2

/-- Whatever sections of a preparation follow each other, key and custody are so, and how the write of the first
envelope ended is never changed: there is no second one. -/
theorem custody_completes_with_envelope {token : Nat} (h : Relation.ReflTransGen Section (fresh token) p) :
    p.custody.Staged ∧ ∀ p', Relation.ReflTransGen Section p p' → p.envelopeOutcome ∉ [.none, .inFlight] →
      p'.envelopeOutcome = p.envelopeOutcome := by
  have hstaged : p.custody.Staged := by
    induction h with
    | refl => exact ⟨absurd rfl, nofun⟩
    | tail _ hsection ih => exact hsection.effect.key.staged ih
  refine ⟨hstaged, fun p' hlater hended => ?_⟩
  induction hlater with
  | refl => rfl
  | tail _ hsection ih => exact (hsection.effect.key.outcome_known (by simpa [custody, ih] using hended)).trans ih

/-- A first start, up to the completion of custody. -/
theorem custody_completes_with_envelope_first : ∃ p, Relation.ReflTransGen Section (fresh 7) p ∧
    p.custodyWriteAttempted = true ∧ p.envelopeOutcome = .committed := by
  have hactive : Relation.ReflTransGen Section (fresh 7) _ :=
    .tail (.tail (.tail (.tail .refl (.settleAcquisition true)) (.recordLayout .absent)) .markCustodyActive)
      (.resolveCustody false)
  have hsupplied := (hactive.tail .markCustodyWriteAttempted).tail .supplyPreparedDEK
  have hwritten := (hsupplied.tail (.beginEnvelopeWrite 0)).tail .recordCommitted
  have hcompleted := hwritten.tail .completeCustody
  exact ⟨_, hcompleted, rfl, ((custody_completes_with_envelope hcompleted).1.completed rfl).2.2 rfl⟩

end PersistentPreparation

open PersistentPreparation Disk

/-- What the inspection calls its answer in the record. -/
def recorded : PersistentStateLayout → StateLayout
  | .absent => .absent
  | .encrypted => .encrypted

/-- **An action is the one for what was found.** A preparation that has recorded what an inspection found, with any
of its sections before and after, resolves custody to provisioning only when neither marker nor package state nor key
were there, and to opening only when there was no marker, the package's directory held a well-formed envelope and
nothing else but a secured sidecar and a private leftover, and the key was there; every other resolution is an error.
Wherever the inspection stops it has removed at most that leftover. Made again with nothing changed, it ends as it
did, and its answer is recorded again. -/
theorem custody_decided (depth token : Nat) (root : Inode) (d : Disk) (answers : List Durable.Answer) :
    (∀ layout d1 (p p1 p2 p3 : PersistentPreparation) dekPresent action,
      (inspectPersistentStateLayout depth root).run.exec answers d = some (.ok layout, d1) →
      Relation.ReflTransGen Section (fresh token) p → p.recordLayout (recorded layout) = (.ok (recorded layout), p1) →
      Relation.ReflTransGen Section p1 p2 → p2.resolveCustody dekPresent = (.ok action, p3) →
      (action = some .provision ∧ d.lookup root stateResetMarkerFilename = none ∧
        d.lookup root ownedStateSubdirectory = none ∧ dekPresent = false) ∨
      (action = some .open ∧ (∃ dir, EncryptedLayout depth root dir d d1) ∧ dekPresent = true)) ∧
    (∀ dir name,
      ((inspectPersistentStateLayout depth root).run.haltAfter answers d).lookup dir name ≠ d.lookup dir name →
      ((inspectPersistentStateLayout depth root).run.haltAfter answers d).lookup dir name = none ∧
      name = encryptedStateTempFileName ∧ d.lookup root ownedStateSubdirectory = some dir ∧
      ∃ i, d.lookup dir name = some i ∧ Private (d.nodes i).toFile) ∧
    (∀ r d1, (inspectPersistentStateLayout depth root).run.always {} d = some (r, d1) →
      ∃ d2, (inspectPersistentStateLayout depth root).run.always {} d1 = some (r, d2)) ∧
    ∀ (p : PersistentPreparation) layout p1, p.recordLayout layout = (.ok layout, p1) →
      p1.recordLayout layout = (.ok layout, p1) := by
  have hinspect := inspectPersistentStateLayout_achieves depth root d
  refine ⟨?_, ?_, fun r d1 hends => inspectPersistentStateLayout_again hends, ?_⟩
  · intro layout d1 p p1 p2 p3 dekPresent action hrun hp hrecord hlater hresolve
    have hfinds : Finds depth root d layout d1 := (hinspect.exec hrun).2
    have hdecided := (sections_keep hp (decided_fresh token)).1
    have hstep : Section p p1 := by
      have hsection := Section.recordLayout (p := p) (recorded layout)
      rwa [hrecord] at hsection
    have hlayout1 : p1.layout = some (recorded layout) := by
      rcases recordLayout_cases (recorded layout) p with ⟨err, heq⟩ | ⟨heq, -⟩
      · cases heq.symm.trans hrecord
      · rw [← (Prod.mk.inj (heq.symm.trans hrecord)).2]
    obtain ⟨hdecided2, hkept⟩ := sections_keep hlater (hstep.keeps hdecided).1
    have hlayout2 := hkept _ hlayout1
    rcases resolveCustody_cases hdecided2 dekPresent with ⟨err, p', heq, -⟩ | ⟨l, a, p', heq, -, -, hl, ha⟩
    · cases heq.symm.trans hresolve
    · obtain rfl : l = recorded layout := Option.some.inj (hl.symm.trans hlayout2)
      obtain rfl : some a = action := Except.ok.inj (Prod.mk.inj (heq.symm.trans hresolve)).1
      cases layout with
      | absent =>
        cases dekPresent with
        | true => cases ha
        | false =>
          cases ha
          exact .inl ⟨rfl, hfinds.1, hfinds.2, rfl⟩
      | encrypted =>
        cases dekPresent with
        | false => cases ha
        | true =>
          cases ha
          exact .inr ⟨rfl, hfinds, rfl⟩
  · intro dir name hchanged
    have hcleaned : Cleaned root d ((inspectPersistentStateLayout depth root).run.haltAfter answers d) :=
      Safe.haltAfter hinspect (.refl root d)
    exact (hcleaned.entry dir name).resolve_left hchanged
  · intro p layout p1 hrecord
    rcases recordLayout_cases layout p with ⟨err, heq⟩ | ⟨heq, -, hlive⟩
    · cases heq.symm.trans hrecord
    · obtain rfl := (Prod.mk.inj (heq.symm.trans hrecord)).2
      unfold recordLayout whenLive
      have hlive' : ({ p with layout := some layout } : PersistentPreparation).requireLive = none := hlive
      rw [hlive']
      simp

/-- A preparation that holds its lease. -/
def leased : PersistentPreparation := { fresh 7 with acquisitionSettled := true, lease := true }

/-- A root with a committed envelope. -/
def committedRoot : Disk := committedDisk (List.Vector.replicate _ 7) (List.Vector.replicate _ 8)

/-- By the calls a start makes: an empty root and no key provision, a committed envelope and its key open. -/
theorem custody_decided_start :
    (∃ d1 p1 p3, (inspectPersistentStateLayout 1 0).run.exec [{}, {}] emptyDisk = some (.ok .absent, d1) ∧
      leased.recordLayout .absent = (.ok .absent, p1) ∧
      p1.markCustodyActive.2.resolveCustody false = (.ok (some .provision), p3) ∧
      emptyDisk.lookup 0 stateResetMarkerFilename = none ∧ emptyDisk.lookup 0 ownedStateSubdirectory = none) ∧
    ∃ d1 p1 p3 dir, (inspectPersistentStateLayout 1 0).run.exec (List.replicate 60 {}) committedRoot =
        some (.ok .encrypted, d1) ∧
      leased.recordLayout .encrypted = (.ok .encrypted, p1) ∧
      p1.markCustodyActive.2.resolveCustody true = (.ok (some .open), p3) ∧
      EncryptedLayout 1 0 dir committedRoot d1 := by
  have hleased := Relation.ReflTransGen.single (Section.settleAcquisition (p := fresh 7) true)
  constructor
  · have hrun : ∃ d1, (inspectPersistentStateLayout 1 0).run.exec [{}, {}] emptyDisk = some (.ok .absent, d1) :=
      ⟨_, rfl⟩
    obtain ⟨d1, hrun⟩ := hrun
    have hactive := Relation.ReflTransGen.single
      (Section.markCustodyActive (p := { leased with layout := some .absent }))
    have hprovisions := (custody_decided 1 7 0 emptyDisk [{}, {}]).1 .absent d1 _ _ _ _ false _ hrun hleased rfl hactive
      rfl
    rcases hprovisions with ⟨-, hmarker, howned, -⟩ | ⟨hopen, -⟩
    · exact ⟨d1, _, _, hrun, rfl, rfl, hmarker, howned⟩
    · cases hopen
  · have hfound : ((inspectPersistentStateLayout 1 0).run.exec (List.replicate 60 {}) committedRoot).map (·.1) =
        some (.ok .encrypted) := by decide +kernel
    obtain ⟨⟨r, d1⟩, hrun, rfl⟩ := Option.map_eq_some_iff.mp hfound
    have hactive := Relation.ReflTransGen.single
      (Section.markCustodyActive (p := { leased with layout := some .encrypted }))
    have hopens := (custody_decided 1 7 0 committedRoot (List.replicate 60 {})).1 .encrypted d1 _ _ _ _ true _ hrun
      hleased
      rfl hactive rfl
    rcases hopens with ⟨hprovision, -⟩ | ⟨-, ⟨dir, hlayout⟩, -⟩
    · cases hprovision
    · exact ⟨d1, _, _, dir, hrun, rfl, rfl, hlayout⟩

end TailscaleDart.Runtime
