import Mathlib.Data.List.Forall2
import VaultOperator.Proofs.Pass.Determined
import VaultOperator.Proofs.Pass.Follows

/-!
# Programs in lockstep

Two programs are in lockstep if they make alike calls for as long as they are given alike answers
(`Lockstep`). In two worlds that answer alike calls alike they do so to their ends, and these are
alike too (`Lockstep.run`).
-/

namespace VaultOperator

/-- Which calls are alike, and which answers to them. -/
structure Likeness where
  calls : Call → Call → Prop
  answers : (c c' : Call) → c.Answer → c'.Answer → Prop

inductive Likeness.Events (L : Likeness) : Event → Event → Prop
  | call {answer : c.Answer} {answer' : c'.Answer} (hcalls : L.calls c c')
    (hanswers : L.answers c c' answer answer') : Events L (.call c answer) (.call c' answer')
  | count : Events L (.count metric) (.count metric)

/-- Alike calls are answered alike in both worlds, and the worlds stay alike. -/
structure Resembles (L : Likeness) (B : σ → τ → Prop) (w : World σ) (w' : World τ) : Prop where
  answers : L.calls c c' → B s t → L.answers c c' (w.answer c s).1 (w'.answer c' t).1
  states : L.calls c c' → B s t → B (w.answer c s).2 (w'.answer c' t).2

theorem map_eq_of_rel {R : α → β → Prop} {x : Option α} {y : Option β} {f : α → γ} {g : β → γ}
    (h : Option.Rel R x y) (hfg : ∀ a b, R a b → f a = g b) : x.map f = y.map g := by
  cases h with
  | none => rfl
  | some hR => exact congrArg some (hfg _ _ hR)

namespace Program

inductive Lockstep (L : Likeness) (R : α → β → Prop) : Program α → Program β → Prop
  | done (h : R a b) : Lockstep L R (.done a) (.done b)
  | count (h : Lockstep L R p q) : Lockstep L R (.count metric p) (.count metric q)
  | call {next : c.Answer → Program α} {next' : c'.Answer → Program β} (hcalls : L.calls c c')
    (hnext : ∀ answer answer', L.answers c c' answer answer' →
      Lockstep L R (next answer) (next' answer')) :
    Lockstep L R (.call c next) (.call c' next')
  | abort : Lockstep L R .abort .abort

variable {L : Likeness} {R : α → β → Prop} {S : γ → δ → Prop} {p : Program α} {q : Program β}

theorem Lockstep.bind {f : α → Program γ} {g : β → Program δ} (h : Lockstep L R p q)
    (hf : ∀ a b, R a b → Lockstep L S (f a) (g b)) : Lockstep L S (p.bind f) (q.bind g) := by
  induction h with
  | done hR => exact hf _ _ hR
  | count _ ih => exact .count ih
  | call hcalls _ ih => exact .call hcalls ih
  | abort => exact .abort

theorem Lockstep.mono {S : α → β → Prop} (h : Lockstep L R p q) (hS : ∀ a b, R a b → S a b) :
    Lockstep L S p q := by
  induction h with
  | done hR => exact .done (hS _ _ hR)
  | count _ ih => exact .count ih
  | call hcalls _ ih => exact .call hcalls ih
  | abort => exact .abort

theorem lockstep_ask (hcalls : L.calls c c')
    {R : c.Answer → c'.Answer → Prop} (hR : ∀ answer answer', L.answers c c' answer answer' →
      R answer answer') : Lockstep L R (ask c) (ask c') := by
  refine .call hcalls fun answer answer' hanswers => ?_
  exact .done (hR answer answer' hanswers)

theorem lockstep_tally : Lockstep L Eq (tally metric) (tally metric) :=
  .count (.done rfl)

/-- In worlds that resemble each other, programs in lockstep end alike. -/
theorem Lockstep.run {w : World σ} {w' : World τ} {B : σ → τ → Prop} (h : Lockstep L R p q)
    (hworlds : Resembles L B w w') (hstates : B s t) :
    List.Forall₂ L.Events (p.run w s).events (q.run w' t).events ∧
      Option.Rel R (p.run w s).result (q.run w' t).result := by
  induction h generalizing s t with
  | done hR => exact ⟨.nil, .some hR⟩
  | count _ ih =>
    obtain ⟨hevents, hresults⟩ := ih hstates
    exact ⟨.cons .count hevents, hresults⟩
  | call hcalls _ ih =>
    have hanswers := hworlds.answers hcalls hstates
    obtain ⟨hevents, hresults⟩ := ih _ _ hanswers (hworlds.states hcalls hstates)
    exact ⟨.cons (.call hcalls hanswers) hevents, hresults⟩
  | abort => exact ⟨.nil, .none⟩

end Program

-- ---------------------------------------------------------------------------
-- Programs that may fail
-- ---------------------------------------------------------------------------

/-- Both fail for the same reason, or both come to something, and this is related. -/
inductive EndsAlike (R : α → β → Prop) : Except ε α → Except ε β → Prop
  | ok (h : R a b) : EndsAlike R (.ok a) (.ok b)
  | error (e : ε) : EndsAlike R (.error e) (.error e)

theorem EndsAlike.refl {R : α → α → Prop} (hR : ∀ a, R a a) (x : Except ε α) : EndsAlike R x x := by
  cases x with
  | error e => exact .error e
  | ok a => exact .ok (hR a)

theorem EndsAlike.eq {x y : Except ε α} (h : EndsAlike Eq x y) : x = y := by
  cases h with
  | ok h => rw [h]
  | error => rfl

def InStep (L : Likeness) (R : α → β → Prop) (p : ExceptT ε Program α) (q : ExceptT ε Program β) :
    Prop :=
  Program.Lockstep L (EndsAlike R) p.run q.run

section
variable {L : Likeness} {R : α → β → Prop} {S : γ → δ → Prop} {p : ExceptT ε Program α}
  {q : ExceptT ε Program β}

theorem inStep_pure (h : R a b) :
    InStep L R (pure a : ExceptT ε Program α) (pure b : ExceptT ε Program β) :=
  .done (.ok h)

theorem inStep_throw :
    InStep L R (throw e : ExceptT ε Program α) (throw e : ExceptT ε Program β) :=
  .done (.error e)

theorem inStep_done {x : Except ε α} {y : Except ε β} (h : EndsAlike R x y) :
    InStep L R (ExceptT.mk (.done x)) (ExceptT.mk (.done y)) :=
  .done h

theorem InStep.bind {f : α → ExceptT ε Program γ} {g : β → ExceptT ε Program δ}
    (h : InStep L R p q) (hf : ∀ a b, R a b → InStep L S (f a) (g b)) :
    InStep L S (p >>= f) (q >>= g) := by
  refine Program.Lockstep.bind h fun x y hends => ?_
  cases hends with
  | ok hR => exact hf _ _ hR
  | error e => exact .done (.error e)

theorem InStep.map {f : α → γ} {g : β → δ} (h : InStep L R p q)
    (hf : ∀ a b, R a b → S (f a) (g b)) : InStep L S (f <$> p) (g <$> q) := by
  rw [map_eq_pure_bind, map_eq_pure_bind]
  exact h.bind fun a b hR => inStep_pure (hf a b hR)

theorem HandsOn.inStep {R : α → α → Prop} {k : Except ε α → Program (Except ε' α)}
    {p q : Program (Except ε α)} (hk : HandsOn k) (h : p.Lockstep L (EndsAlike R) q) :
    InStep L R (ExceptT.mk (p.bind k)) (ExceptT.mk (q.bind k)) := by
  refine Program.Lockstep.bind h fun x y hends => ?_
  cases hends with
  | @ok a b hR =>
    rw [hk.1 a, hk.1 b]
    exact .done (.ok hR)
  | error e =>
    obtain ⟨e', he⟩ := hk.2 e
    rw [he]
    exact .done (.error e')

theorem Pass.inStep_attempt {R : α → α → Prop} {p q : Program (Except ε α)}
    (h : p.Lockstep L (EndsAlike R) q) : InStep L R (attempt wrap p) (attempt wrap q) :=
  HandsOn.inStep ⟨fun _ => rfl, fun e => ⟨wrap e, rfl⟩⟩ h

theorem Pass.inStep_orFail {value : Option α} {value' : Option β}
    (h : Option.Rel R value value') : InStep L R (orFail value e) (orFail value' e) := by
  cases h with
  | none => exact inStep_throw
  | some hR => exact inStep_pure hR

theorem Pass.inStep_check : InStep L Eq (check result) (check result) := by
  cases result with
  | error => exact inStep_throw
  | ok => exact inStep_pure rfl

theorem inStep_lift {p : Program α} {q : Program β} (h : p.Lockstep L R q) :
    InStep L R (ExceptT.lift p : ExceptT ε Program α) (ExceptT.lift q) :=
  h.bind fun _ _ hR => .done (.ok hR)

end

end VaultOperator
