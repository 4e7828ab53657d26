import VaultOperator.Pass.Program

/-!
# Executions of programs

`Program.Exec p es r`: whatever `p` asks may be answered so that `es` happens and `p` ends in `r`.
Runs against a world are executions (`exec_run`), and every execution is a run against some world
(`exec_iff_run`), so a statement about all executions is one about all answers. `Ends` and
`EndsWith` are executions of programs that may fail, without and with a state. A program that is
`Within` a set of calls ends, and asks nothing else.
-/

namespace VaultOperator

namespace Program

/-- No result means that the program was aborted. -/
inductive Exec : Program α → List Event → Option α → Prop
  | done : Exec (.done a) [] (some a)
  | count : Exec p es r → Exec (.count metric p) (.count metric :: es) r
  | call {next : c.Answer → Program α} {answer : c.Answer} :
    Exec (next answer) es r → Exec (.call c next) (.call c answer :: es) r
  | abort : Exec .abort [] none

@[simp] theorem exec_done : Exec (.done a) es r ↔ es = [] ∧ r = some a := by
  constructor
  · rintro ⟨⟩; exact ⟨rfl, rfl⟩
  · rintro ⟨rfl, rfl⟩; exact .done

@[simp] theorem exec_count :
    Exec (.count metric p) es r ↔ ∃ rest, es = .count metric :: rest ∧ Exec p rest r := by
  constructor
  · rintro ⟨⟩; exact ⟨_, rfl, ‹_›⟩
  · rintro ⟨rest, rfl, h⟩; exact .count h

@[simp] theorem exec_call {next : c.Answer → Program α} :
    Exec (.call c next) es r ↔
      ∃ answer rest, es = .call c answer :: rest ∧ Exec (next answer) rest r := by
  constructor
  · rintro ⟨⟩; exact ⟨_, _, rfl, ‹_›⟩
  · rintro ⟨answer, rest, rfl, h⟩; exact .call h

@[simp] theorem exec_abort : Exec (.abort : Program α) es r ↔ es = [] ∧ r = none := by
  constructor
  · rintro ⟨⟩; exact ⟨rfl, rfl⟩
  · rintro ⟨rfl, rfl⟩; exact .abort

@[simp] theorem exec_ask : Exec (ask c) es r ↔ ∃ answer, es = [.call c answer] ∧ r = some answer := by
  simp only [ask, exec_call, exec_done]
  constructor
  · rintro ⟨answer, _, rfl, rfl, rfl⟩; exact ⟨answer, rfl, rfl⟩
  · rintro ⟨answer, rfl, rfl⟩; exact ⟨answer, [], rfl, rfl, rfl⟩

@[simp] theorem exec_vault :
    Exec (vault c) es r ↔ ∃ answer, es = [.call (.vault c) answer] ∧ r = some answer :=
  exec_ask

@[simp] theorem exec_cluster :
    Exec (cluster c) es r ↔ ∃ answer, es = [.call (.cluster c) answer] ∧ r = some answer :=
  exec_ask

@[simp] theorem exec_tally : Exec (tally metric) es r ↔ es = [.count metric] ∧ r = some () := by
  simp only [tally, exec_count, exec_done]
  constructor
  · rintro ⟨_, rfl, rfl, rfl⟩; exact ⟨rfl, rfl⟩
  · rintro ⟨rfl, rfl⟩; exact ⟨[], rfl, rfl, rfl⟩

/-- What happens in two programs, one after the other, happens in the first and then in the
second; if the first is aborted there is no second. -/
theorem exec_bind {p : Program α} {f : α → Program β} :
    Exec (p.bind f) es r ↔
      (∃ a es₁ es₂, Exec p es₁ (some a) ∧ Exec (f a) es₂ r ∧ es = es₁ ++ es₂) ∨
        (Exec p es none ∧ r = none) := by
  induction p generalizing es with
  | done a =>
    simp only [bind, exec_done, Option.some.injEq, reduceCtorEq, and_false, false_and, or_false]
    constructor
    · intro h; exact ⟨a, [], es, ⟨rfl, rfl⟩, h, rfl⟩
    · rintro ⟨_, _, es₂, ⟨rfl, rfl⟩, h, rfl⟩; exact h
  | count metric p ih =>
    simp only [bind, exec_count, ih]
    constructor
    · rintro ⟨rest, rfl, ⟨a, es₁, es₂, h₁, h₂, rfl⟩ | ⟨h, rfl⟩⟩
      · exact .inl ⟨a, .count metric :: es₁, es₂, ⟨es₁, rfl, h₁⟩, h₂, rfl⟩
      · exact .inr ⟨⟨rest, rfl, h⟩, rfl⟩
    · rintro (⟨a, _, es₂, ⟨es₁, rfl, h₁⟩, h₂, rfl⟩ | ⟨⟨rest, rfl, h⟩, rfl⟩)
      · exact ⟨es₁ ++ es₂, rfl, .inl ⟨a, es₁, es₂, h₁, h₂, rfl⟩⟩
      · exact ⟨rest, rfl, .inr ⟨h, rfl⟩⟩
  | call c next ih =>
    simp only [bind, exec_call, ih]
    constructor
    · rintro ⟨answer, rest, rfl, ⟨a, es₁, es₂, h₁, h₂, rfl⟩ | ⟨h, rfl⟩⟩
      · exact .inl ⟨a, .call c answer :: es₁, es₂, ⟨answer, es₁, rfl, h₁⟩, h₂, rfl⟩
      · exact .inr ⟨⟨answer, rest, rfl, h⟩, rfl⟩
    · rintro (⟨a, _, es₂, ⟨answer, es₁, rfl, h₁⟩, h₂, rfl⟩ | ⟨⟨answer, rest, rfl, h⟩, rfl⟩)
      · exact ⟨answer, es₁ ++ es₂, rfl, .inl ⟨a, es₁, es₂, h₁, h₂, rfl⟩⟩
      · exact ⟨answer, rest, rfl, .inr ⟨h, rfl⟩⟩
  | abort => simp [bind]

-- ---------------------------------------------------------------------------
-- Runs
-- ---------------------------------------------------------------------------

theorem exec_run (world : World σ) (p : Program α) (s : σ) :
    Exec p (p.run world s).events (p.run world s).result := by
  induction p generalizing s with
  | done a => exact .done
  | count metric p ih => exact .count (ih s)
  | call c next ih => exact .call (ih _ _)
  | abort => exact .abort

instance (c : Call) : Nonempty c.Answer := by
  cases c with
  | clock => exact ⟨⟨0, 0⟩⟩
  | readCaFile path => exact ⟨.error ""⟩
  | vault c => cases c <;> exact ⟨.error (.missingToken "")⟩
  | cluster c =>
    cases c <;> first
      | exact ⟨.error (.missingToken "" "")⟩
      | exact ⟨.error (.client "")⟩

open Classical in
/-- A world that gives the answers of a list of events, one after the other, and anything once
something else is asked. -/
noncomputable def scripted : World (List Event) where
  answer c
    | [] => (Classical.ofNonempty, [])
    | .count _ :: rest => (Classical.ofNonempty, rest)
    | .call c' answer :: rest =>
      if h : c' = c then (h ▸ answer, rest) else (Classical.ofNonempty, rest)

def calls (es : List Event) : List Event :=
  es.filter fun
    | .call .. => true
    | .count _ => false

theorem run_scripted (h : Exec p es r) :
    (p.run scripted (calls es)).events = es ∧ (p.run scripted (calls es)).result = r := by
  induction h with
  | done => exact ⟨rfl, rfl⟩
  | count _ ih => exact ⟨congrArg _ ih.1, ih.2⟩
  | @call es r c next answer _ ih =>
    have hanswer : scripted.answer c (.call c answer :: calls es) = (answer, calls es) := by
      simp [scripted]
    have hcalls : calls (.call c answer :: es) = .call c answer :: calls es := by simp [calls]
    simp only [run, hcalls, hanswer, ih, and_self]
  | abort => exact ⟨rfl, rfl⟩

/-- Executions are what some world makes of a program. -/
theorem exec_iff_run :
    Exec p es r ↔ ∃ (world : World (List Event)) (s : List Event),
      (p.run world s).events = es ∧ (p.run world s).result = r := by
  constructor
  · intro h; exact ⟨scripted, calls es, run_scripted h⟩
  · rintro ⟨world, s, rfl, rfl⟩; exact exec_run world p s

-- ---------------------------------------------------------------------------
-- What a program may ask
-- ---------------------------------------------------------------------------

section
variable {P : Call → Prop}

/-- However its calls are answered the program comes to an end of its own, and all it asks is
what `P` allows. -/
def Within (P : Call → Prop) (p : Program α) : Prop :=
  ∀ es r, Exec p es r → r ≠ none ∧ ∀ c answer, .call c answer ∈ es → P c

theorem within_done : Within P (done a) := by
  intro es r h
  obtain ⟨rfl, rfl⟩ := exec_done.1 h
  simp

theorem within_count {p : Program α} (hp : Within P p) : Within P (count metric p) := by
  intro es r h
  obtain ⟨rest, rfl, hrest⟩ := exec_count.1 h
  simpa using hp rest r hrest

theorem within_ask (hc : P c) : Within P (ask c) := by
  intro es r h
  obtain ⟨answer, rfl, rfl⟩ := exec_ask.1 h
  refine ⟨by simp, fun c' answer' hmem => ?_⟩
  cases List.mem_singleton.1 hmem
  exact hc

theorem Within.bind {p : Program α} {f : α → Program β} (hp : Within P p)
    (hf : ∀ a, Within P (f a)) : Within P (p.bind f) := by
  intro es r h
  rcases exec_bind.1 h with ⟨a, es₁, es₂, h₁, h₂, rfl⟩ | ⟨hnone, rfl⟩
  · obtain ⟨-, hes₁⟩ := hp _ _ h₁
    obtain ⟨hr, hes₂⟩ := hf a _ _ h₂
    refine ⟨hr, fun c answer hmem => ?_⟩
    rcases List.mem_append.1 hmem with hmem | hmem
    · exact hes₁ c answer hmem
    · exact hes₂ c answer hmem
  · exact absurd rfl (hp _ _ hnone).1

theorem Within.mono {Q : Call → Prop} {p : Program α} (hp : Within P p) (h : ∀ c, P c → Q c) :
    Within Q p := fun es r hexec =>
  (hp es r hexec).imp_right fun hes c answer hmem => h c (hes c answer hmem)

end

end Program

-- ---------------------------------------------------------------------------
-- Programs that may fail
-- ---------------------------------------------------------------------------

/-- The program ends in `r`, with `es` on the way. -/
def Ends (p : ExceptT ε Program α) (es : List Event) (r : Except ε α) : Prop :=
  Program.Exec p.run es (some r)

theorem ends_of_run {p : ExceptT ε Program α} (world : World σ) (s : σ)
    (h : (Program.run world p.run s).result = some r) :
    Ends p (Program.run world p.run s).events r := by
  rw [Ends, ← h]
  exact Program.exec_run world p.run s

/-- Started with `s`, the program ends in `r` and with `t`, with `es` on the way. -/
def EndsWith (p : ExceptT ε (StateT σ Program) α) (s : σ) (es : List Event) (r : Except ε α)
    (t : σ) : Prop :=
  Program.Exec (p.run.run s) es (some (r, t))

section
variable {P : Call → Prop} {p : ExceptT ε Program α} {f : α → ExceptT ε Program β}

@[simp] theorem ends_pure : Ends (pure a : ExceptT ε Program α) es r ↔ es = [] ∧ r = .ok a := by
  show Program.Exec (.done (.ok a)) es (some r) ↔ _
  simp

@[simp] theorem ends_throw :
    Ends (throw e : ExceptT ε Program α) es r ↔ es = [] ∧ r = .error e := by
  show Program.Exec (.done (.error e)) es (some r) ↔ _
  simp

@[simp] theorem ends_mk : Ends (ExceptT.mk q) es r ↔ Program.Exec q es (some r) :=
  .rfl

theorem ends_bind {r : Except ε β} :
    Ends (p >>= f) es r ↔
      (∃ a es₁ es₂, Ends p es₁ (.ok a) ∧ Ends (f a) es₂ r ∧ es = es₁ ++ es₂) ∨
        ∃ e, Ends p es (.error e) ∧ r = .error e := by
  show Program.Exec (p.run.bind (ExceptT.bindCont f)) es (some r) ↔ _
  rw [Program.exec_bind]
  constructor
  · rintro (⟨e | a, es₁, es₂, h₁, h₂, rfl⟩ | ⟨_, ⟨⟩⟩)
    · obtain ⟨rfl, hr⟩ := Program.exec_done.1 h₂
      exact .inr ⟨e, by rwa [List.append_nil], Option.some.inj hr⟩
    · exact .inl ⟨a, es₁, es₂, h₁, h₂, rfl⟩
  · rintro (⟨a, es₁, es₂, h₁, h₂, rfl⟩ | ⟨e, h, rfl⟩)
    · exact .inl ⟨.ok a, es₁, es₂, h₁, h₂, rfl⟩
    · exact .inl ⟨.error e, es, [], h, Program.exec_done.2 ⟨rfl, rfl⟩, by simp⟩

@[simp] theorem ends_throw_bind {r : Except ε β} :
    Ends ((throw e : ExceptT ε Program α) >>= f) es r ↔ es = [] ∧ r = .error e := by
  show Program.Exec (.done (.error e)) es (some r) ↔ _
  simp

theorem ends_map {g : α → β} {r : Except ε β} :
    Ends (g <$> p) es r ↔ ∃ r', Ends p es r' ∧ r = r'.map g := by
  simp only [map_eq_pure_bind, ends_bind, ends_pure]
  constructor
  · rintro (⟨a, es₁, _, h, ⟨rfl, rfl⟩, rfl⟩ | ⟨e, h, rfl⟩)
    · exact ⟨.ok a, by rwa [List.append_nil], rfl⟩
    · exact ⟨.error e, h, rfl⟩
  · rintro ⟨e | a, h, rfl⟩
    · exact .inr ⟨e, h, rfl⟩
    · exact .inl ⟨a, es, [], h, ⟨rfl, rfl⟩, by simp⟩

theorem ends_lift {q : Program α} {r : Except ε α} :
    Ends (ExceptT.lift q) es r ↔ ∃ a, Program.Exec q es (some a) ∧ r = .ok a := by
  show Program.Exec (q.bind fun a => .done (.ok a)) es (some r) ↔ _
  simp only [Program.exec_bind, Program.exec_done, Option.some.injEq, reduceCtorEq, and_false,
    or_false]
  constructor
  · rintro ⟨a, es₁, _, h, ⟨rfl, rfl⟩, rfl⟩; exact ⟨a, by simpa using h, rfl⟩
  · rintro ⟨a, h, rfl⟩; exact ⟨a, es, [], h, ⟨rfl, rfl⟩, by simp⟩

/-- However its calls are answered the program ends with a result, and all it asks is what `P`
allows. -/
def Concludes (P : Call → Prop) (p : ExceptT ε Program α) : Prop :=
  p.run.Within P

theorem concludes_pure : Concludes P (pure a : ExceptT ε Program α) :=
  Program.within_done

theorem concludes_throw : Concludes P (throw e : ExceptT ε Program α) :=
  Program.within_done

theorem concludes_throw_bind : Concludes P ((throw e : ExceptT ε Program α) >>= f) :=
  Program.within_done

theorem Concludes.bind (hp : Concludes P p) (hf : ∀ a, Concludes P (f a)) :
    Concludes P (p >>= f) :=
  Program.Within.bind hp fun
    | .ok a => hf a
    | .error _ => Program.within_done

theorem Concludes.mono {Q : Call → Prop} (hp : Concludes P p) (h : ∀ c, P c → Q c) :
    Concludes Q p :=
  Program.Within.mono hp h

theorem Concludes.ends (hp : Concludes P p) (h : Program.Exec p.run es r) :
    ∃ r', r = some r' ∧ Ends p es r' := by
  obtain ⟨r', rfl⟩ := Option.ne_none_iff_exists'.1 (hp es r h).1
  exact ⟨r', rfl, h⟩

end

section
variable {P : Call → Prop} {p : ExceptT ε (StateT σ Program) α}
  {f : α → ExceptT ε (StateT σ Program) β}

@[simp] theorem endsWith_pure :
    EndsWith (pure a : ExceptT ε (StateT σ Program) α) s es r t ↔ es = [] ∧ r = .ok a ∧ t = s := by
  show Program.Exec (.done (.ok a, s)) es (some (r, t)) ↔ _
  simp

@[simp] theorem endsWith_throw :
    EndsWith (throw e : ExceptT ε (StateT σ Program) α) s es r t ↔
      es = [] ∧ r = .error e ∧ t = s := by
  show Program.Exec (.done (.error e, s)) es (some (r, t)) ↔ _
  simp

theorem endsWith_bind {r : Except ε β} :
    EndsWith (p >>= f) s es r t ↔
      (∃ a u es₁ es₂, EndsWith p s es₁ (.ok a) u ∧ EndsWith (f a) u es₂ r t ∧ es = es₁ ++ es₂) ∨
        ∃ e, EndsWith p s es (.error e) t ∧ r = .error e := by
  show Program.Exec ((p.run.run s).bind fun a => (ExceptT.bindCont f a.1).run a.2) es
    (some (r, t)) ↔ _
  rw [Program.exec_bind]
  constructor
  · rintro (⟨⟨a | e, u⟩, es₁, es₂, h₁, h₂, rfl⟩ | ⟨_, ⟨⟩⟩)
    · obtain ⟨rfl, hr⟩ := Program.exec_done.1 h₂
      obtain ⟨rfl, rfl⟩ := Prod.mk.inj (Option.some.inj hr)
      exact .inr ⟨a, by rwa [List.append_nil], rfl⟩
    · exact .inl ⟨e, u, es₁, es₂, h₁, h₂, rfl⟩
  · rintro (⟨a, u, es₁, es₂, h₁, h₂, rfl⟩ | ⟨e, h, rfl⟩)
    · exact .inl ⟨(.ok a, u), es₁, es₂, h₁, h₂, rfl⟩
    · exact .inl ⟨(.error e, t), es, [], h, Program.exec_done.2 ⟨rfl, rfl⟩, by simp⟩

/-- However its calls are answered and whatever it starts with the program ends with a result, and
all it asks is what `P` allows. -/
def ConcludesWith (P : Call → Prop) (p : ExceptT ε (StateT σ Program) α) : Prop :=
  ∀ s, (p.run.run s).Within P

theorem concludesWith_pure : ConcludesWith P (pure a : ExceptT ε (StateT σ Program) α) :=
  fun _ => Program.within_done

theorem concludesWith_throw : ConcludesWith P (throw e : ExceptT ε (StateT σ Program) α) :=
  fun _ => Program.within_done

theorem ConcludesWith.mono {Q : Call → Prop} (hp : ConcludesWith P p) (h : ∀ c, P c → Q c) :
    ConcludesWith Q p :=
  fun s => (hp s).mono h

theorem ConcludesWith.bind (hp : ConcludesWith P p) (hf : ∀ a, ConcludesWith P (f a)) :
    ConcludesWith P (p >>= f) := fun s =>
  Program.Within.bind (hp s) fun
    | (.ok a, t) => hf a t
    | (.error _, _) => Program.within_done

end

-- ---------------------------------------------------------------------------
-- Calls of a pass
-- ---------------------------------------------------------------------------

@[simp] theorem mapError_ok {wrap : ε → ε'} : (.ok a : Except ε α).mapError wrap = .ok a :=
  rfl

@[simp] theorem mapError_error {wrap : ε → ε'} :
    (.error e : Except ε α).mapError wrap = .error (wrap e) :=
  rfl

theorem ok_eq_mapError {x : Except ε α} {wrap : ε → ε'} :
    .ok a = x.mapError wrap ↔ x = .ok a := by
  cases x <;> simp [eq_comm]

theorem error_eq_mapError {x : Except ε α} {wrap : ε → ε'} :
    .error e = x.mapError wrap ↔ ∃ cause, x = .error cause ∧ e = wrap cause := by
  cases x <;> simp

theorem bind_eq_ok {x : Except ε α} {f : α → Except ε β} :
    x >>= f = .ok b ↔ ∃ a, x = .ok a ∧ f a = .ok b := by
  cases x <;> simp [bind, Except.bind]

theorem bind_eq_error {x : Except ε α} {f : α → Except ε β} :
    x >>= f = .error e ↔ x = .error e ∨ ∃ a, x = .ok a ∧ f a = .error e := by
  cases x <;> simp [bind, Except.bind]

namespace Pass

section
variable {P : Call → Prop}

theorem concludes_attempt {q : Program (Except ε α)} (hq : q.Within P) :
    Concludes P (attempt wrap q) :=
  hq.bind fun
    | .ok _ => Program.within_done
    | .error _ => Program.within_done

theorem concludes_read (h : P (.vault (.read session path))) : Concludes P (read session path) :=
  concludes_attempt (Program.within_ask h)

theorem concludes_write (h : P (.vault (.write session path body))) :
    Concludes P (write session path body) :=
  concludes_attempt (Program.within_ask h)

theorem concludes_getSecret (h : P (.cluster (.getSecret ns name))) :
    Concludes P (getSecret ns name) :=
  concludes_attempt (Program.within_ask h)

theorem concludes_orFail : Concludes P (orFail value e) := by
  cases value
  · exact concludes_throw
  · exact concludes_pure

theorem concludes_check : Concludes P (check result) := by
  cases result
  · exact concludes_throw
  · exact concludes_pure

end

theorem ends_attempt {wrap : ε → ReconcileError} {q : Program (Except ε α)} :
    Ends (attempt wrap q) es r ↔
      ∃ answer, Program.Exec q es (some answer) ∧ r = answer.mapError wrap := by
  rw [attempt, ends_mk, Program.exec_bind]
  constructor
  · rintro (⟨e | a, es₁, es₂, h₁, h₂, rfl⟩ | ⟨_, ⟨⟩⟩) <;>
      simp only [Program.exec_done, Option.some.injEq] at h₂ <;> obtain ⟨rfl, rfl⟩ := h₂
    · exact ⟨.error e, by simpa using h₁, rfl⟩
    · exact ⟨.ok a, by simpa using h₁, rfl⟩
  · rintro ⟨e | a, h, rfl⟩ <;>
      exact .inl ⟨_, es, [], h, Program.exec_done.2 ⟨rfl, rfl⟩, by simp⟩

theorem ends_attempt_ask {q : Program (Except ε α)} {event : Except ε α → Event}
    (hq : ∀ es r, Program.Exec q es r ↔ ∃ answer, es = [event answer] ∧ r = some answer) :
    Ends (attempt wrap q) es r ↔ ∃ answer, es = [event answer] ∧ r = answer.mapError wrap := by
  rw [ends_attempt]
  constructor
  · rintro ⟨answer, h, rfl⟩
    obtain ⟨_, rfl, ⟨⟩⟩ := (hq _ _).1 h
    exact ⟨answer, rfl, rfl⟩
  · rintro ⟨answer, rfl, rfl⟩
    exact ⟨answer, (hq _ _).2 ⟨answer, rfl, rfl⟩, rfl⟩

@[simp] theorem ends_read :
    Ends (read session path) es r ↔
      ∃ answer : Except Vault.Error (Option Payload),
        es = [.call (.vault (.read session path)) answer] ∧ r = answer.mapError .remote :=
  ends_attempt_ask fun _ _ => Program.exec_vault

@[simp] theorem ends_write :
    Ends (write session path body) es r ↔
      ∃ answer : Except Vault.Error (Option Payload),
        es = [.call (.vault (.write session path body)) answer] ∧ r = answer.mapError .remote :=
  ends_attempt_ask fun _ _ => Program.exec_vault

theorem write_last {f : Option Payload → Pass α}
    (hf : ∀ answer es r, Ends (f answer) es r → es = [])
    (h : Ends (write session path body >>= f) es r) :
    ∃ answer, es = [.call (.vault (.write session path body)) answer] := by
  simp only [ends_bind, ends_write] at h
  rcases h with ⟨_, _, _, ⟨answer, rfl, -⟩, hrest, rfl⟩ | ⟨_, ⟨answer, rfl, -⟩, -⟩
  · exact ⟨answer, by rw [hf _ _ _ hrest]; rfl⟩
  · exact ⟨answer, rfl⟩

theorem write_return {a : α} {r : Except ReconcileError α}
    (h : Ends (write session path body >>= fun _ => pure a) es r) :
    ∃ answer, es = [.call (.vault (.write session path body)) answer] :=
  write_last (fun _ _ _ h => (ends_pure.1 h).1) h

@[simp] theorem ends_getSecret :
    Ends (getSecret ns name) es r ↔
      ∃ answer : Except StoreError (Option SecretData),
        es = [.call (.cluster (.getSecret ns name)) answer] ∧ r = answer.mapError .store :=
  ends_attempt_ask fun _ _ => Program.exec_cluster

@[simp] theorem ends_orFail :
    Ends (orFail value e) es r ↔ es = [] ∧ r = value.elim (.error e) .ok := by
  cases value <;> simp [orFail]

@[simp] theorem ends_check :
    Ends (check result) es r ↔ es = [] ∧ r = result.mapError .validation := by
  cases result <;> simp [check]

end Pass

end VaultOperator
