import VaultOperator.Pass.Program

/-!
# Two programs at a time

Two programs take turns in one world, one event at a time, in whatever order (`Program.interleave`).
Where no call of the one tells a call of the other (`World.Commute`), each does what it does alone, and
the world ends up as if one had waited for the other (`Program.interleave_eq`).
-/

namespace VaultOperator

/-- Whose turn it is. -/
inductive Side where
  | first
  | second
  deriving DecidableEq, Repr

/-- How two programs ended, what happened in each, and what became of their world. -/
structure Runs (σ α β : Type) where
  firstResult : Option α
  firstEvents : List Event
  secondResult : Option β
  secondEvents : List Event
  state : σ

/-- Neither of the calls can be told from the answer to the other, or from what it leaves behind. -/
structure World.Commute (world : World σ) (c d : Call) : Prop where
  left : ∀ s, (world.answer c (world.answer d s).2).1 = (world.answer c s).1
  right : ∀ s, (world.answer d (world.answer c s).2).1 = (world.answer d s).1
  state : ∀ s, (world.answer d (world.answer c s).2).2 = (world.answer c (world.answer d s).2).2

/-- All calls of the one list commute with all calls of the other. -/
def World.Independent (world : World σ) (es fs : List Event) : Prop :=
  ∀ c answer, .call c answer ∈ es → ∀ d answer', .call d answer' ∈ fs → world.Commute c d

section

variable {σ α β : Type} {world : World σ} {es fs : List Event}

theorem World.Commute.symm {c d : Call} (h : world.Commute c d) : world.Commute d c :=
  ⟨h.right, h.left, fun s => (h.state s).symm⟩

theorem World.Independent.left_of_subset (h : world.Independent es fs) (hes : es' ⊆ es) :
    world.Independent es' fs :=
  fun c answer hc => h c answer (hes hc)

end

namespace Program

variable {σ α β : Type} {world : World σ} {s : σ}

-- ---------------------------------------------------------------------------
-- One event at a time
-- ---------------------------------------------------------------------------

/-- What happens next in a program, what is left of it, and what became of the world. -/
structure Step (σ α : Type) where
  events : List Event
  rest : Program α
  state : σ

/-- One event at most: a program that is over does nothing any more. -/
def step (world : World σ) : Program α → σ → Step σ α
  | call c next, s =>
    let (answer, s) := world.answer c s
    ⟨[.call c answer], next answer, s⟩
  | count metric p, s => ⟨[.count metric], p, s⟩
  | p, s => ⟨[], p, s⟩

def Step.run (world : World σ) (first : Step σ α) : Run σ α :=
  let r := first.rest.run world first.state
  { r with events := first.events ++ r.events }

theorem run_step (p : Program α) (s : σ) : (p.step world s).run world = p.run world s := by
  cases p <;> rfl

theorem step_events_subset (p : Program α) (s : σ) :
    (p.step world s).events ⊆ (p.run world s).events := by
  rw [← run_step]
  exact List.subset_append_left _ _

theorem rest_events_subset (p : Program α) (s : σ) :
    ((p.step world s).rest.run world (p.step world s).state).events ⊆ (p.run world s).events := by
  rw [← run_step p s]
  exact List.subset_append_right _ _

/-- Two programs in one world. The schedule says which of them goes on; when it is over, what is left
of the first goes on to its end, and then what is left of the second. -/
def interleave (world : World σ) : List Side → Program α → Program β → σ → Runs σ α β
  | [], p, q, s =>
    let first := p.run world s
    let second := q.run world first.state
    ⟨first.result, first.events, second.result, second.events, second.state⟩
  | .first :: turns, p, q, s =>
    let next := p.step world s
    let runs := interleave world turns next.rest q next.state
    { runs with firstEvents := next.events ++ runs.firstEvents }
  | .second :: turns, p, q, s =>
    let next := q.step world s
    let runs := interleave world turns p next.rest next.state
    { runs with secondEvents := next.events ++ runs.secondEvents }

-- ---------------------------------------------------------------------------
-- Programs whose calls commute
-- ---------------------------------------------------------------------------

/-- A call that commutes with all calls of a run makes no difference to it, nor it to the call. -/
theorem run_after_call (p : Program α) (d : Call)
    (h : ∀ c answer, .call c answer ∈ (p.run world s).events → world.Commute c d) :
    p.run world (world.answer d s).2 =
        { p.run world s with state := (world.answer d (p.run world s).state).2 } ∧
      (world.answer d (p.run world s).state).1 = (world.answer d s).1 := by
  induction p generalizing s with
  | done => exact ⟨rfl, rfl⟩
  | abort => exact ⟨rfl, rfl⟩
  | count metric p ih =>
    obtain ⟨hrun, hanswer⟩ := ih (s := s) fun c answer hc => h c answer (List.mem_cons_of_mem _ hc)
    refine ⟨?_, hanswer⟩
    rw [run, hrun]
    rfl
  | call c next ih =>
    have hcommute : world.Commute c d := h c _ List.mem_cons_self
    obtain ⟨hrun, hanswer⟩ := ih (world.answer c s).1 (s := (world.answer c s).2)
      fun c' answer hc => h c' answer (List.mem_cons_of_mem _ hc)
    refine ⟨?_, hanswer.trans (hcommute.right s)⟩
    -- the call is answered as before, and what follows it sees the other one made a little later
    have hanswered : world.answer c (world.answer d s).2 =
        ((world.answer c s).1, (world.answer d (world.answer c s).2).2) :=
      Prod.ext (hcommute.left s) (hcommute.state s).symm
    simp only [run, hanswered, hrun]

/-- So does the next event of a program whose calls commute with all calls of the run. -/
theorem run_after_step (p : Program α) (q : Program β)
    (h : world.Independent (p.run world s).events (q.step world s).events) :
    p.run world (q.step world s).state =
        { p.run world s with state := (q.step world (p.run world s).state).state } ∧
      (q.step world (p.run world s).state).rest = (q.step world s).rest := by
  cases q with
  | done => exact ⟨rfl, rfl⟩
  | abort => exact ⟨rfl, rfl⟩
  | count metric q => exact ⟨rfl, rfl⟩
  | call d next =>
    obtain ⟨hrun, hanswer⟩ := run_after_call p d fun c answer hc =>
      h c answer hc d _ List.mem_cons_self
    exact ⟨hrun, congrArg next hanswer⟩

/-- A run makes no difference to another where their calls commute. -/
theorem run_after_run (p : Program α) (q : Program β)
    (h : world.Independent (p.run world s).events (q.run world s).events) :
    (q.run world (p.run world s).state).result = (q.run world s).result ∧
      (q.run world (p.run world s).state).events = (q.run world s).events := by
  induction p generalizing s with
  | done => exact ⟨rfl, rfl⟩
  | abort => exact ⟨rfl, rfl⟩
  | count metric p ih =>
    exact ih fun c answer hc => h c answer (List.mem_cons_of_mem _ hc)
  | call c next ih =>
    obtain ⟨hrun, -⟩ := run_after_call q c fun d answer hd =>
      (h c _ List.mem_cons_self d answer hd).symm
    have hrest := ih (world.answer c s).1 (s := (world.answer c s).2) (by
      rw [hrun]
      exact fun c' answer hc => h c' answer (List.mem_cons_of_mem _ hc))
    rw [hrun] at hrest
    exact hrest

/-- In whatever order two programs go on, each does what it does alone where their calls commute, and
what becomes of the world is what becomes of it when the second comes after the first. -/
theorem interleave_eq (turns : List Side) (p : Program α) (q : Program β) (s : σ)
    (h : world.Independent (p.run world s).events (q.run world s).events) :
    interleave world turns p q s =
      ⟨(p.run world s).result, (p.run world s).events, (q.run world s).result,
        (q.run world s).events, (q.run world (p.run world s).state).state⟩ := by
  induction turns generalizing p q s with
  | nil =>
    obtain ⟨hresult, hevents⟩ := run_after_run p q h
    simp only [interleave, hresult, hevents]
  | cons side turns ih =>
    cases side with
    | first =>
      -- the second does the same from where the first has gone on
      obtain ⟨hshifted, -⟩ := run_after_step q p fun d answer hd c answer' hc =>
        (h c answer' (step_events_subset p s hc) d answer hd).symm
      have hrest := ih (p.step world s).rest q (p.step world s).state (by
        rw [hshifted]
        exact h.left_of_subset (rest_events_subset p s))
      rw [hshifted] at hrest
      simp only [interleave, hrest, ← run_step p s, Step.run]
    | second =>
      obtain ⟨hshifted, hleft⟩ := run_after_step p q fun c answer hc d answer' hd =>
        h c answer hc d answer' (step_events_subset q s hd)
      have hrest := ih p (q.step world s).rest (q.step world s).state (by
        rw [hshifted]
        exact fun c answer hc d answer' hd => h c answer hc d answer' (rest_events_subset q s hd))
      rw [hshifted] at hrest
      have hlast : (q.step world (p.run world s).state).run world =
          q.run world (p.run world s).state := run_step q _
      simp only [interleave, hrest, ← run_step q s, ← hlast, hleft, Step.run]

end Program

end VaultOperator
