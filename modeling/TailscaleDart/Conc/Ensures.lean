import TailscaleDart.Conc.Prog

/-!
# Ensures — what a program returns under some answers

`Safe` speaks of every answer the environment could give. A result that holds only in some surroundings (no other
writer, no failing call) is stated here: `Ensures allow post` says that a program given answers that meet `allow`
returns, if it returns, in `post`.
-/

namespace TailscaleDart.Conc

section Ensures

variable {Lbl St Env : Type} {α β : Type}

/-- Under answers that meet `allow`, whatever the program returns meets `post`, in the state it returns in. -/
def Ensures (allow : Env → Prop) (post : α → St → Prop) : Prog Lbl St Env α → St → Prop
  | .pure a, s => post a s
  | .act _ f k, s => ∀ e, allow e → ∀ b s', f e s = some (b, s') → Ensures allow post (k b) s'

variable {allow : Env → Prop} {post : α → St → Prop} {s : St}

theorem ensures_pure_iff {a : α} : Ensures allow post (.pure a : Prog Lbl St Env α) s ↔ post a s := Iff.rfl

theorem ensures_act_iff {lbl : Lbl} {f : Env → St → Option (β × St)} {k : β → Prog Lbl St Env α} :
    Ensures allow post (.act lbl f k) s ↔
      ∀ e, allow e → ∀ b s', f e s = some (b, s') → Ensures allow post (k b) s' := Iff.rfl

-- as for `Safe`: opened step by step, never by running the program
attribute [irreducible] Ensures

theorem Ensures.pure {a : α} (h : post a s) :
    Ensures allow post (.pure a : Prog Lbl St Env α) s := ensures_pure_iff.mpr h

/-- One step, for each answer it may get. -/
theorem Ensures.step {post : β → St → Prop} {lbl : Lbl} {f : Env → St → Option (β × St)} {s : St}
    (h : ∀ e b s', allow e → f e s = some (b, s') → post b s') :
    Ensures allow post (.step lbl f : Prog Lbl St Env β) s := by
  unfold Prog.step
  rw [ensures_act_iff]
  intro e he b s' hf
  exact .pure (h e b s' he hf)

/-- Sequencing: what the first part ensures is what the second may assume. -/
theorem Ensures.bind {post' : β → St → Prop} {p : Prog Lbl St Env α}
    {g : α → Prog Lbl St Env β} (h : Ensures allow post p s)
    (hg : ∀ a s', post a s' → Ensures allow post' (g a) s') : Ensures allow post' (p.bind g) s := by
  induction p generalizing s with
  | pure a => exact hg a s (ensures_pure_iff.mp h)
  | act lbl f k ih =>
    rw [ensures_act_iff] at h
    rw [Prog.act_bind, ensures_act_iff]
    intro e he b s' hf
    exact ih b (h e he b s' hf)

/-- Runs on a given list of answers are among those `Ensures` speaks of. -/
theorem Ensures.exec {p : Prog Lbl St Env α} {es : List Env} (hes : ∀ e ∈ es, allow e)
    {s' : St} {a : α} (h : Ensures allow post p s) (hrun : p.exec es s = some (a, s')) : post a s' := by
  induction p generalizing es s with
  | pure b =>
    obtain ⟨rfl, rfl⟩ := by simpa only [Prog.exec, Option.some.injEq, Prod.mk.injEq] using hrun
    exact ensures_pure_iff.mp h
  | act lbl f k ih =>
    rw [ensures_act_iff] at h
    obtain ⟨e, es', b, s1, rfl, hf, hrest⟩ := Prog.exec_act hrun
    exact ih b (fun e' he' => hes e' (.tail e he')) (h e (hes e (.head _)) b s1 hf) hrest

end Ensures

end TailscaleDart.Conc
