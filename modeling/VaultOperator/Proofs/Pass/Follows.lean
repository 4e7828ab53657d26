import VaultOperator.Proofs.Pass.Execution

/-!
# One pass after another

A program follows another one if it succeeds wherever that one did, amid answers of its own, and comes
to a related value (`Follows`). The rules go through both programs step by step.
-/

namespace VaultOperator

variable {P Q : Event → Prop}

/-- Wherever `p` comes to a value amid events that `P` allows, `q` comes to a related one amid events
that `Q` allows. -/
def Follows (P Q : Event → Prop) (R : α → β → Prop) (p : ExceptT ε Program α)
    (q : ExceptT δ Program β) : Prop :=
  ∀ es a, Ends p es (.ok a) → (∀ e ∈ es, P e) →
    ∀ fs r, Program.Exec q.run fs r → (∀ e ∈ fs, Q e) → ∃ b, r = some (.ok b) ∧ R a b

/-- All that a program comes to amid events that `Q` allows. -/
def Yields (Q : Event → Prop) (q : ExceptT δ Program β) (b : β) : Prop :=
  ∀ fs r, Program.Exec q.run fs r → (∀ e ∈ fs, Q e) → r = some (.ok b)

theorem exec_run_bind {p : ExceptT ε Program α} {f : α → ExceptT ε Program β} :
    Program.Exec (p >>= f).run es r ↔
      (∃ a es₁ es₂, Ends p es₁ (.ok a) ∧ Program.Exec (f a).run es₂ r ∧ es = es₁ ++ es₂) ∨
        (∃ e, Ends p es (.error e) ∧ r = some (.error e)) ∨
          (Program.Exec p.run es none ∧ r = none) := by
  show Program.Exec (p.run.bind (ExceptT.bindCont f)) es r ↔ _
  rw [Program.exec_bind]
  constructor
  · rintro (⟨e | a, es₁, es₂, h₁, h₂, rfl⟩ | h)
    · obtain ⟨rfl, rfl⟩ := Program.exec_done.1 h₂
      exact .inr (.inl ⟨e, by rwa [List.append_nil], rfl⟩)
    · exact .inl ⟨a, es₁, es₂, h₁, h₂, rfl⟩
    · exact .inr (.inr h)
  · rintro (⟨a, es₁, es₂, h₁, h₂, rfl⟩ | ⟨e, h, rfl⟩ | h)
    · exact .inl ⟨.ok a, es₁, es₂, h₁, h₂, rfl⟩
    · exact .inl ⟨.error e, es, [], h, Program.exec_done.2 ⟨rfl, rfl⟩, by simp⟩
    · exact .inr h

-- ---------------------------------------------------------------------------
-- What a program comes to
-- ---------------------------------------------------------------------------

theorem yields_pure : Yields Q (pure b : ExceptT δ Program β) b := by
  intro fs r h _
  obtain ⟨-, rfl⟩ := Program.exec_done.1 h
  rfl

theorem Yields.bind {q : ExceptT δ Program α} {g : α → ExceptT δ Program β} (hq : Yields Q q a)
    (hg : Yields Q (g a) b) : Yields Q (q >>= g) b := by
  intro fs r h hQ
  rcases exec_run_bind.1 h with ⟨a', fs₁, fs₂, h₁, h₂, rfl⟩ | ⟨e, h₁, rfl⟩ | ⟨h₁, rfl⟩
  · obtain ⟨hQ₁, hQ₂⟩ := List.forall_mem_append.1 hQ
    cases hq _ _ h₁ hQ₁
    exact hg _ _ h₂ hQ₂
  · cases hq _ _ h₁ hQ
  · cases hq _ _ h₁ hQ

-- ---------------------------------------------------------------------------
-- Steps of two programs
-- ---------------------------------------------------------------------------

section
variable {R : α → β → Prop} {p : ExceptT ε Program α} {q : ExceptT δ Program β}

theorem follows_pure (h : R a b) :
    Follows P Q R (pure a : ExceptT ε Program α) (pure b : ExceptT δ Program β) := by
  intro es a' hp _ fs r hq hQ
  obtain ⟨-, ⟨⟩⟩ := ends_pure.1 hp
  exact ⟨b, yields_pure fs r hq hQ, h⟩

theorem follows_throw : Follows P Q R (throw e : ExceptT ε Program α) q := by
  intro es a hp
  obtain ⟨-, ⟨⟩⟩ := ends_throw.1 hp

theorem follows_throw_bind {f : α → ExceptT ε Program γ} {S : γ → β → Prop} :
    Follows P Q S ((throw e : ExceptT ε Program α) >>= f) q := by
  intro es a hp
  obtain ⟨-, ⟨⟩⟩ := ends_throw_bind.1 hp

theorem follows_done {x : Except ε α} :
    Follows P Q (fun a b => b = a ∧ x = .ok a) (ExceptT.mk (.done x))
      (ExceptT.mk (.done x) : ExceptT ε Program α) := by
  intro es a hp _ fs r hq _
  obtain ⟨-, hx⟩ := Program.exec_done.1 hp
  obtain ⟨-, rfl⟩ := Program.exec_done.1 hq
  have hx : x = .ok a := (Option.some.inj hx).symm
  exact ⟨a, by rw [hx], rfl, hx⟩

theorem Follows.bind {S : γ → κ → Prop} {f : α → ExceptT ε Program γ} {g : β → ExceptT δ Program κ}
    (h : Follows P Q R p q) (hf : ∀ a b, R a b → Follows P Q S (f a) (g b)) :
    Follows P Q S (p >>= f) (q >>= g) := by
  intro es c hp hP fs r hq hQ
  rcases ends_bind.1 hp with ⟨a, es₁, es₂, hp₁, hp₂, rfl⟩ | ⟨_, -, ⟨⟩⟩
  obtain ⟨hP₁, hP₂⟩ := List.forall_mem_append.1 hP
  rcases exec_run_bind.1 hq with ⟨b, fs₁, fs₂, hq₁, hq₂, rfl⟩ | ⟨e, hq₁, rfl⟩ | ⟨hq₁, rfl⟩
  · obtain ⟨hQ₁, hQ₂⟩ := List.forall_mem_append.1 hQ
    obtain ⟨_, ⟨⟩, hR⟩ := h _ _ hp₁ hP₁ _ _ hq₁ hQ₁
    exact hf a b hR _ _ hp₂ hP₂ _ _ hq₂ hQ₂
  · obtain ⟨_, ⟨⟩, -⟩ := h _ _ hp₁ hP₁ _ _ hq₁ hQ
  · obtain ⟨_, ⟨⟩, -⟩ := h _ _ hp₁ hP₁ _ _ hq₁ hQ

theorem Follows.map {f : α → γ} {g : β → κ} {S : γ → κ → Prop} (h : Follows P Q R p q)
    (hf : ∀ a b, R a b → S (f a) (g b)) : Follows P Q S (f <$> p) (g <$> q) := by
  rw [map_eq_pure_bind, map_eq_pure_bind]
  exact h.bind fun a b hR => follows_pure (hf a b hR)

theorem Follows.mono {S : α → β → Prop} (h : Follows P Q R p q) (hS : ∀ a b, R a b → S a b) :
    Follows P Q S p q := by
  intro es a hp hP fs r hq hQ
  obtain ⟨b, rfl, hR⟩ := h es a hp hP fs r hq hQ
  exact ⟨b, rfl, hS a b hR⟩

theorem follows_tally :
    Follows P Q (fun _ _ => True) (ExceptT.lift (Program.tally metric) : ExceptT ε Program Unit)
      (ExceptT.lift (Program.tally metric') : ExceptT δ Program Unit) := by
  intro es a _ _ fs r hq _
  obtain ⟨rest, -, hdone⟩ := Program.exec_count.1 hq
  obtain ⟨-, rfl⟩ := Program.exec_done.1 hdone
  exact ⟨(), rfl, trivial⟩

theorem follows_mk {p : Program (Except ε α)} {q : Program (Except δ β)}
    {event : Except ε α → Event} {event' : Except δ β → Event}
    (hp : ∀ es r, Program.Exec p es r ↔ ∃ answer, es = [event answer] ∧ r = some answer)
    (hq : ∀ es r, Program.Exec q es r ↔ ∃ answer, es = [event' answer] ∧ r = some answer)
    (h : ∀ a, P (event (.ok a)) → ∀ answer, Q (event' answer) → ∃ b, answer = .ok b ∧ R a b) :
    Follows P Q R (ExceptT.mk p) (ExceptT.mk q) := by
  intro es a hends hP fs r hexec hQ
  obtain ⟨_, rfl, ⟨⟩⟩ := (hp _ _).1 hends
  obtain ⟨answer, rfl, rfl⟩ := (hq _ _).1 hexec
  obtain ⟨b, rfl, hR⟩ := h a (hP _ List.mem_cons_self) answer (hQ _ List.mem_cons_self)
  exact ⟨b, rfl, hR⟩

/-- Values are handed on as they are, and errors as errors. -/
def HandsOn (k : Except ε α → Program (Except ε' α)) : Prop :=
  (∀ a, k (.ok a) = .done (.ok a)) ∧ ∀ e, ∃ e', k (.error e) = .done (.error e')

theorem HandsOn.follows {k : Except ε α → Program (Except ε' α)}
    {l : Except δ β → Program (Except δ' β)} (hk : HandsOn k) (hl : HandsOn l)
    (h : Follows P Q R p q) :
    Follows P Q R (ExceptT.mk (p.run.bind k)) (ExceptT.mk (q.run.bind l)) := by
  intro es a hp hP fs r hq hQ
  rcases Program.exec_bind.1 hp with ⟨x, es₁, es₂, hp₁, hp₂, rfl⟩ | ⟨-, ⟨⟩⟩
  obtain ⟨hP₁, -⟩ := List.forall_mem_append.1 hP
  cases x with
  | error e =>
    obtain ⟨e', he⟩ := hk.2 e
    rw [he] at hp₂
    obtain ⟨-, ⟨⟩⟩ := Program.exec_done.1 hp₂
  | ok a' =>
    rw [hk.1] at hp₂
    obtain ⟨-, ⟨⟩⟩ := Program.exec_done.1 hp₂
    rcases Program.exec_bind.1 hq with ⟨y, fs₁, fs₂, hq₁, hq₂, rfl⟩ | ⟨hq₁, rfl⟩
    · obtain ⟨hQ₁, -⟩ := List.forall_mem_append.1 hQ
      obtain ⟨b, ⟨⟩, hR⟩ := h _ _ hp₁ hP₁ _ _ hq₁ hQ₁
      rw [hl.1] at hq₂
      obtain ⟨-, rfl⟩ := Program.exec_done.1 hq₂
      exact ⟨b, rfl, hR⟩
    · obtain ⟨b, ⟨⟩, -⟩ := h _ _ hp₁ hP₁ _ _ hq₁ hQ

end

theorem Follows.yields {p : ExceptT ε Program α} {q : ExceptT δ Program α} (h : Follows P Q Eq p q)
    (hp : Ends p es (.ok a)) (hP : ∀ e ∈ es, P e) : Yields Q q a := by
  intro fs r hq hQ
  obtain ⟨_, rfl, rfl⟩ := h _ _ hp hP _ _ hq hQ
  rfl

namespace Pass

variable {R : α → β → Prop}

theorem follows_attempt {p : ExceptT ε Program α} {q : ExceptT δ Program β}
    (h : Follows P Q R p q) : Follows P Q R (attempt wrap p.run) (attempt wrap' q.run) :=
  HandsOn.follows ⟨fun _ => rfl, fun e => ⟨wrap e, rfl⟩⟩ ⟨fun _ => rfl, fun e => ⟨wrap' e, rfl⟩⟩ h

theorem follows_orFail {value : Option α} {value' : Option β}
    (h : ∀ a ∈ value, ∃ b ∈ value', R a b) :
    Follows P Q R (orFail value e) (orFail value' e') := by
  cases value with
  | none => exact follows_throw
  | some a =>
    obtain ⟨b, rfl, hR⟩ := h a rfl
    exact follows_pure hR

theorem follows_orFail_self {value : Option α} :
    Follows P Q Eq (orFail value e) (orFail value e') :=
  follows_orFail fun a ha => ⟨a, ha, rfl⟩

end Pass

end VaultOperator
