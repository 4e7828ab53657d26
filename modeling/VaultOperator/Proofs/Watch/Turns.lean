import VaultOperator.Proofs.Time.Instant
import VaultOperator.Proofs.Watch.Pass
import VaultOperator.Proofs.Watch.Stored

/-!
# Looks one after another

An object that is seen as it is stored, left to itself, and seen again (`Turns`). What one look
keeps of the stored object all of them keep (`Turns.invariant`).
-/

namespace VaultOperator.Watch

/-- A look at an object: what it was like, and all that happened until it was left alone again. -/
structure Turn where
  seen : Object
  events : List Event

/-- The object is seen as it is stored, and what happens can take the stored object to `next`. -/
structure Turn.Takes (kind : Kind) (turn : Turn) (stored next : Json) : Prop where
  seen : Object.ofJson? kind stored = some turn.seen
  pass : ∃ c table r, Program.Exec (reconcile c turn.seen table) turn.events r
  stores : Stores turn.seen.ref turn.events stored next

inductive Turns (kind : Kind) : List Turn → Json → Json → Prop
  | nil : Turns kind [] stored stored
  | cons (hturn : turn.Takes kind stored next) (rest : Turns kind turns next final) :
    Turns kind (turn :: turns) stored final

variable {kind : Kind} {turn : Turn} {turns more : List Turn} {stored final : Json}

theorem Turns.split (h : Turns kind (turns ++ more) stored final) :
    ∃ middle, Turns kind turns stored middle ∧ Turns kind more middle final := by
  induction turns generalizing stored with
  | nil => exact ⟨stored, .nil, h⟩
  | cons turn turns ih =>
    cases h with
    | cons hturn rest =>
      obtain ⟨middle, hturns, hmore⟩ := ih rest
      exact ⟨middle, .cons hturn hturns, hmore⟩

/-- Two looks and all that is between them. -/
theorem Turns.between {first later : Turn} {before between after : List Turn}
    (h : Turns kind (before ++ first :: (between ++ later :: after)) stored final) :
    ∃ seen written found left, first.Takes kind seen written ∧ Turns kind between written found ∧
      later.Takes kind found left := by
  obtain ⟨_, -, h⟩ := h.split
  cases h with
  | cons hfirst h =>
    obtain ⟨_, hbetween, h⟩ := h.split
    cases h with
    | cons hlater => exact ⟨_, _, _, _, hfirst, hbetween, hlater⟩

theorem Turns.takes (h : Turns kind turns stored final) (hmem : turn ∈ turns) :
    ∃ s t, turn.Takes kind s t := by
  induction h with
  | nil => cases hmem
  | cons hturn _ ih =>
    rcases List.mem_cons.1 hmem with rfl | hmem
    · exact ⟨_, _, hturn⟩
    · exact ih hmem

theorem Turns.invariant {P : Json → Prop} (h : Turns kind turns stored final) (hstored : P stored)
    (hkeeps : ∀ turn ∈ turns, ∀ s t, turn.Takes kind s t → P s → P t) : P final := by
  induction h with
  | nil => exact hstored
  | cons hturn _ ih =>
    obtain ⟨hfirst, hrest⟩ := List.forall_mem_cons.1 hkeeps
    exact ih (hfirst _ _ hturn hstored) hrest

/-- A look with all patches made that did not fail. -/
theorem Turn.takes_storedAfter (hseen : Object.ofJson? kind stored = some turn.seen)
    (hpass : ∃ c table r, Program.Exec (reconcile c turn.seen table) turn.events r) :
    turn.Takes kind stored (storedAfter turn.seen.ref turn.events stored) :=
  ⟨hseen, hpass, stores_storedAfter⟩

/-- Vault took a write. -/
def Turn.Writes (turn : Turn) : Prop :=
  ∃ w ∈ writes turn.events, ∃ response, w.answer = .ok response

instance (turn : Turn) : Decidable turn.Writes :=
  decidable_of_iff (∃ w ∈ writes turn.events, w.answer.isOk) <| by
    have hok (answer : Except Vault.Error (Option Payload)) :
        answer.isOk ↔ ∃ response, answer = .ok response := by
      cases answer <;> simp [Except.isOk, Except.toBool]
    simp only [Turn.Writes, hok]

/-- The cluster took a status of the object. -/
def records (o : ObjectRef) : Event → Bool
  | .call (.cluster (.patchStatus ref _)) (.ok _) => ref = o
  | _ => false

theorem records_iff {o : ObjectRef} :
    records o e ↔ ∃ status, e = .call (.cluster (.patchStatus o status)) (.ok ()) := by
  constructor
  · intro h
    unfold records at h
    split at h
    · obtain rfl := of_decide_eq_true h
      exact ⟨_, rfl⟩
    · cases h
  · rintro ⟨status, rfl⟩
    exact decide_eq_true rfl

/-- The cluster took the status of the pass. -/
def Turn.IsRecorded (turn : Turn) : Prop :=
  ∃ status, .call (.cluster (.patchStatus turn.seen.ref status)) (.ok ()) ∈ turn.events

instance (turn : Turn) : Decidable turn.IsRecorded :=
  decidable_of_iff (∃ e ∈ turn.events, records turn.seen.ref e) <| by
    simp only [records_iff, Turn.IsRecorded]
    exact ⟨fun ⟨_, he, status, h⟩ => ⟨status, h ▸ he⟩, fun ⟨status, h⟩ => ⟨_, h, status, rfl⟩⟩

/-- The clock shows ordinary times only, none of them before an earlier one. -/
structure Clocked (es : List Event) : Prop where
  ordinary : ∀ t ∈ times es, t.IsOrdinary
  ordered : (times es).Pairwise fun a b => a.le b

instance (es : List Event) : Decidable (Clocked es) :=
  decidable_of_iff ((∀ t ∈ times es, t.IsOrdinary) ∧ (times es).Pairwise fun a b => a.le b)
    ⟨fun h => ⟨h.1, h.2⟩, fun h => ⟨h.1, h.2⟩⟩

theorem Clocked.append (h : Clocked (es ++ fs)) :
    Clocked es ∧ Clocked fs ∧ ∀ a ∈ times es, ∀ b ∈ times fs, a.le b := by
  obtain ⟨hordinary, hordered⟩ := h
  rw [times_append] at hordinary hordered
  obtain ⟨hfirst, hthen, hacross⟩ := List.pairwise_append.1 hordered
  obtain ⟨hbefore, hafter⟩ := List.forall_mem_append.1 hordinary
  exact ⟨⟨hbefore, hfirst⟩, ⟨hafter, hthen⟩, hacross⟩

theorem Clocked.first_le (h : Clocked es) (hfirst : (times es).head? = some first)
    (ht : t ∈ times es) : first.le t := by
  obtain ⟨rest, hrest⟩ := List.head?_eq_some_iff.1 hfirst
  have hordered := h.ordered
  rw [hrest] at ht hordered
  rcases List.mem_cons.1 ht with rfl | ht
  · exact Instant.le_refl t
  · exact (List.pairwise_cons.1 hordered).1 t ht

theorem Clocked.of_mem (h : Clocked (turns.flatMap (·.events))) (hmem : turn ∈ turns) :
    Clocked turn.events := by
  obtain ⟨before, after, rfl⟩ := List.append_of_mem hmem
  simp only [List.flatMap_append, List.flatMap_cons] at h
  exact h.append.2.1.append.1

theorem Clocked.between {first later : Turn} {before between after : List Turn}
    (h : Clocked ((before ++ first :: (between ++ later :: after)).flatMap (·.events))) :
    Clocked (first.events ++ between.flatMap (·.events)) := by
  simp only [List.flatMap_append, List.flatMap_cons] at h
  have hafter := h.append.2.1
  rw [← List.append_assoc] at hafter
  exact hafter.append.1

end VaultOperator.Watch
