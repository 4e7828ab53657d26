import VaultOperator.Proofs.Pass.Execution

/-!
# The answers determine what a program does

Where the same calls are answered alike, the same happens and comes of it (`Exec.unique`). Where the
answers are given, a program therefore comes to one end (`ComesTo`), and what comes after the first
part of a program is an execution of the second (`exec_bind_append`). The calls that are made on the
way are listed by `asked`.
-/

namespace VaultOperator

def Event.call? : Event → Option Call
  | .call c _ => some c
  | .count _ => none

/-- The calls among some events, in their order. -/
def asked (es : List Event) : List Call :=
  es.filterMap Event.call?

@[simp] theorem asked_nil : asked [] = [] := rfl

@[simp] theorem asked_cons_call (c : Call) (answer : c.Answer) (es : List Event) :
    asked (.call c answer :: es) = c :: asked es := rfl

@[simp] theorem asked_cons_count (metric : Metric) (es : List Event) :
    asked (.count metric :: es) = asked es := rfl

@[simp] theorem asked_append (es fs : List Event) : asked (es ++ fs) = asked es ++ asked fs :=
  List.filterMap_append

theorem mem_asked {c : Call} {es : List Event} : c ∈ asked es ↔ ∃ answer, .call c answer ∈ es := by
  simp only [asked, List.mem_filterMap]
  constructor
  · rintro ⟨e, he, hc⟩
    cases e with
    | call c' answer =>
      obtain rfl : c' = c := Option.some.inj hc
      exact ⟨answer, he⟩
    | count => cases hc
  · rintro ⟨answer, he⟩
    exact ⟨_, he, rfl⟩

namespace Program

variable {p : Program α}

/-- No call is answered in one list otherwise than in the other. -/
def AnsweredAlike (es fs : List Event) : Prop :=
  ∀ c answer answer', .call c answer ∈ es → .call c answer' ∈ fs → answer = answer'

theorem AnsweredAlike.tail (h : AnsweredAlike (e :: es) (f :: fs)) : AnsweredAlike es fs :=
  fun c answer answer' hes hfs =>
    h c answer answer' (List.mem_cons_of_mem _ hes) (List.mem_cons_of_mem _ hfs)

theorem Exec.unique (h : Exec p es r) (h' : Exec p es' r') (halike : AnsweredAlike es es') :
    es = es' ∧ r = r' := by
  induction h generalizing es' r' with
  | done =>
    obtain ⟨rfl, rfl⟩ := exec_done.1 h'
    exact ⟨rfl, rfl⟩
  | count _ ih =>
    obtain ⟨rest, rfl, hrest⟩ := exec_count.1 h'
    obtain ⟨rfl, rfl⟩ := ih hrest halike.tail
    exact ⟨rfl, rfl⟩
  | call _ ih =>
    obtain ⟨answer, rest, rfl, hrest⟩ := exec_call.1 h'
    obtain rfl := halike _ _ _ List.mem_cons_self List.mem_cons_self
    obtain ⟨rfl, rfl⟩ := ih hrest halike.tail
    exact ⟨rfl, rfl⟩
  | abort =>
    obtain ⟨rfl, rfl⟩ := exec_abort.1 h'
    exact ⟨rfl, rfl⟩

/-- Of two executions with the same events ahead, neither goes on when the other is over. -/
theorem Exec.unique_of_append (h : Exec p es r) (h' : Exec p es' r')
    (heq : es ++ fs = es' ++ fs') : es = es' ∧ r = r' := by
  induction h generalizing es' r' with
  | done =>
    obtain ⟨rfl, rfl⟩ := exec_done.1 h'
    exact ⟨rfl, rfl⟩
  | count _ ih =>
    obtain ⟨rest, rfl, hrest⟩ := exec_count.1 h'
    obtain ⟨rfl, rfl⟩ := ih hrest (List.cons.inj heq).2
    exact ⟨rfl, rfl⟩
  | call _ ih =>
    obtain ⟨answer, rest, rfl, hrest⟩ := exec_call.1 h'
    obtain ⟨hcall, htail⟩ := List.cons.inj heq
    cases hcall
    obtain ⟨rfl, rfl⟩ := ih hrest htail
    exact ⟨rfl, rfl⟩
  | abort =>
    obtain ⟨rfl, rfl⟩ := exec_abort.1 h'
    exact ⟨rfl, rfl⟩

/-- The part of a program that is known to be over is followed by the next. -/
theorem exec_bind_append {f : α → Program β} (h : Exec p es (some a)) :
    Exec (p.bind f) (es ++ fs) r ↔ Exec (f a) fs r := by
  generalize hended : some a = ended at h
  induction h with
  | done =>
    cases hended
    rfl
  | count _ ih => simp [bind, ih hended]
  | call _ ih =>
    simp only [bind, exec_call, List.cons_append]
    constructor
    · rintro ⟨answer, rest, hes, hrest⟩
      cases hes
      exact (ih hended).1 hrest
    · intro hrest
      exact ⟨_, _, rfl, (ih hended).2 hrest⟩
  | abort => cases hended

/-- What happens is answered by the world. -/
theorem forall_events_run {P : Event → Prop} {world : World σ}
    (hcalls : ∀ c s, P (.call c (world.answer c s).1)) (hcounts : ∀ metric, P (.count metric))
    (p : Program α) (s : σ) : ∀ e ∈ (p.run world s).events, P e := by
  induction p generalizing s with
  | done => exact List.forall_mem_nil P
  | count metric _ ih => exact List.forall_mem_cons.2 ⟨hcounts metric, ih s⟩
  | call c _ ih => exact List.forall_mem_cons.2 ⟨hcalls c s, ih _ _⟩
  | abort => exact List.forall_mem_nil P

end Program

-- ---------------------------------------------------------------------------
-- Programs that may fail
-- ---------------------------------------------------------------------------

/-- Where all is answered as `P` says the program ends in `x`, with `es` on the way, and can do so
in no other way. -/
structure ComesTo (P : Event → Prop) (p : ExceptT ε Program α) (es : List Event)
    (x : Except ε α) : Prop where
  ends : Ends p es x
  holds : ∀ e ∈ es, P e
  only : ∀ es' r, Program.Exec p.run es' r → (∀ e ∈ es', P e) → es' = es ∧ r = some x

theorem comesTo_of_ends {P : Event → Prop} {p : ExceptT ε Program α} (hends : Ends p es x)
    (hes : ∀ e ∈ es, P e)
    (halike : ∀ es', (∀ e ∈ es', P e) → Program.AnsweredAlike es es') : ComesTo P p es x where
  ends := hends
  holds := hes
  only es' r hexec hes' := by
    obtain ⟨rfl, rfl⟩ := Program.Exec.unique hends hexec (halike es' hes')
    exact ⟨rfl, rfl⟩

theorem exec_run_bind_append {p : ExceptT ε Program α} {f : α → ExceptT ε Program β}
    (h : Ends p es (.ok a)) :
    Program.Exec (p >>= f).run (es ++ fs) r ↔ Program.Exec (f a).run fs r :=
  Program.exec_bind_append h

end VaultOperator
