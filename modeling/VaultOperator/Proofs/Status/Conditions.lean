import Mathlib.Data.List.Infix
import VaultOperator.Status.Update

/-!
# Conditions over many updates

A status changes with every pass, with every deletion that is blocked, and whenever one condition is
set (`Update`). Each of them gives conditions to put in place. Of each type the last one given is
shown, with the time of the first one since when the status has been the same (`Stands`): one lemma
for a condition that is put in place (`Stands.place`), and the updates by induction
(`conditions_stand`).
-/

namespace VaultOperator.Status

-- ---------------------------------------------------------------------------
-- Putting a condition in place
-- ---------------------------------------------------------------------------

/-- The condition as it takes the place of an old one. -/
def continuing (new : Condition) : Option Condition → Condition
  | some old =>
    if old.status = new.status then { new with lastTransitionTime := old.lastTransitionTime }
    else new
  | none => new

/-- The types of the conditions shown, in their order. -/
def types (s : Status) : List String :=
  s.conditions.map (·.type)

@[simp]
theorem continuing_type (new : Condition) (old : Option Condition) :
    (continuing new old).type = new.type := by
  cases old with
  | none => rfl
  | some old => simp only [continuing]; split <;> rfl

@[simp]
theorem continuing_status (new : Condition) (old : Option Condition) :
    (continuing new old).status = new.status := by
  cases old with
  | none => rfl
  | some old => simp only [continuing]; split <;> rfl

theorem placeCondition_cons_of_eq {new old : Condition} (h : old.type = new.type)
    (rest : List Condition) :
    placeCondition new (old :: rest) = continuing new (some old) :: rest := by
  rw [placeCondition, if_pos h, continuing]

theorem placeCondition_cons_of_ne {new old : Condition} (h : old.type ≠ new.type)
    (rest : List Condition) :
    placeCondition new (old :: rest) = old :: placeCondition new rest := by
  rw [placeCondition, if_neg h]

theorem find?_placeCondition (c : Condition) (type : String) (shown : List Condition) :
    (placeCondition c shown).find? (·.type == type) =
      if c.type = type then some (continuing c (shown.find? (·.type == type)))
      else shown.find? (·.type == type) := by
  induction shown with
  | nil => simp [placeCondition, List.find?_singleton, continuing]
  | cons old rest ih =>
    by_cases hplace : old.type = c.type
    · rw [placeCondition_cons_of_eq hplace]
      by_cases htype : c.type = type
      · simp [hplace, htype]
      · simp [hplace, htype]
    · rw [placeCondition_cons_of_ne hplace]
      by_cases hold : old.type = type
      · simp [hold, show c.type ≠ type from fun h => hplace (hold.trans h.symm)]
      · simp [hold, ih]

theorem types_placeCondition (c : Condition) (shown : List Condition) :
    (placeCondition c shown).map (·.type) =
      if c.type ∈ shown.map (·.type) then shown.map (·.type)
      else shown.map (·.type) ++ [c.type] := by
  induction shown with
  | nil => simp [placeCondition]
  | cons old rest ih =>
    by_cases hplace : old.type = c.type
    · simp [placeCondition_cons_of_eq hplace, hplace]
    · simp only [placeCondition_cons_of_ne hplace, List.map_cons, ih, List.mem_cons]
      by_cases hmem : c.type ∈ rest.map (·.type)
      · simp [hmem]
      · simp [hmem, Ne.symm hplace]

/-- No type of condition is shown twice. -/
def ShowsOnce (s : Status) : Prop :=
  s.types.Nodup

theorem condition?_setCondition (s : Status) (c : Condition) (type : String) :
    (s.setCondition c).condition? type =
      if c.type = type then some (continuing c (s.condition? type)) else s.condition? type :=
  find?_placeCondition c type s.conditions

theorem types_setCondition (s : Status) (c : Condition) :
    (s.setCondition c).types = if c.type ∈ s.types then s.types else s.types ++ [c.type] :=
  types_placeCondition c s.conditions

theorem types_prefix_setCondition (s : Status) (c : Condition) :
    s.types <+: (s.setCondition c).types := by
  rw [types_setCondition]
  split
  · exact List.prefix_rfl
  · exact List.prefix_append _ _

theorem ShowsOnce.setCondition {s : Status} (h : s.ShowsOnce) (c : Condition) :
    (s.setCondition c).ShowsOnce := by
  rw [ShowsOnce, types_setCondition]
  split
  · exact h
  · next hnew => exact List.nodup_append.2 ⟨h, by simp, by grind⟩

theorem ShowsOnce.condition?_eq {s : Status} (h : s.ShowsOnce) (hc : c ∈ s.conditions) :
    s.condition? c.type = some c := by
  obtain ⟨before, after, hsplit⟩ := List.append_of_mem hc
  rw [ShowsOnce, types, hsplit, List.map_append] at h
  have hbefore : ∀ other ∈ before, other.type ≠ c.type := fun other hother =>
    (List.nodup_append.1 h).2.2 _ (List.mem_map_of_mem hother) _ (by simp)
  rw [condition?, hsplit, List.find?_append, List.find?_eq_none.2 (by simpa using hbefore)]
  simp

-- ---------------------------------------------------------------------------
-- Updates
-- ---------------------------------------------------------------------------

/-- A change of a status: by a pass, by a deletion that is blocked, or of one condition alone. -/
inductive Update where
  | pass (generation : Option Int) (result : Except ReconcileError SyncOutcome)
      (recordsWriteTime : Bool) (now nextPass : Instant)
  | deletion (e : ReconcileError) (now : Instant)
  | condition (c : Condition)

namespace Update

def apply (previous : Option Status) : Update → Status
  | pass generation result recordsWriteTime now nextPass =>
    next previous generation result recordsWriteTime now nextPass
  | deletion e now => deleting previous e now
  | condition c => (previous.getD {}).setCondition c

/-- The conditions that an update gives, in the order in which it puts them in place. -/
def conditions : Update → List Condition
  | pass _ (.ok outcome) _ now _ => [validated now, ready outcome now]
  | pass _ (.error e) _ now _ =>
    [if e.phase = .unvalidated then invalidated e now else validated now, unready e now]
  | deletion e now => [blocked e now]
  | condition c => [c]

end Update

/-- The status after a number of updates. -/
def after (start : Option Status) (updates : List Update) : Option Status :=
  updates.foldl (fun previous update => some (update.apply previous)) start

/-- The conditions of one type that the updates give, in their order. -/
def given (type : String) (updates : List Update) : List Condition :=
  (updates.flatMap Update.conditions).filter (·.type == type)

/-- The condition that stands when these have been given one after the other: the last of them, with
the time of the first one since when the status has been the same. -/
inductive Stands : List Condition → Option Condition → Prop
  | absent : Stands [] none
  | since (before : List Condition) (first : Condition) (rest : List Condition)
      {latest : Condition} (hlatest : latest ∈ (first :: rest).getLast?)
      (hsame : ∀ c ∈ first :: rest, c.status = latest.status)
      (hturn : ∀ c ∈ before.getLast?, c.status ≠ latest.status) :
      Stands (before ++ first :: rest)
        (some { latest with lastTransitionTime := first.lastTransitionTime })

theorem Stands.place (h : Stands cs shown) (c : Condition) :
    Stands (cs ++ [c]) (some (continuing c shown)) := by
  cases h with
  | absent => exact .since [] c [] rfl (by simp) (by simp)
  | @since before first rest latest hlatest hsame hturn =>
    by_cases hstatus : latest.status = c.status
    · -- the run goes on, so its first condition stays the one that gives the time
      rw [continuing, if_pos hstatus, List.append_assoc, List.cons_append]
      exact .since before first (rest ++ [c]) (by grind) (by grind) (by grind)
    · rw [continuing, if_neg hstatus]
      exact .since (before ++ first :: rest) c [] rfl (by simp) (by grind)

-- ---------------------------------------------------------------------------
-- All updates
-- ---------------------------------------------------------------------------

/-- The status with all these conditions put in place, one after the other. -/
def setConditions (s : Status) (cs : List Condition) : Status :=
  cs.foldl setCondition s

@[simp]
theorem setConditions_nil (s : Status) : s.setConditions [] = s :=
  rfl

@[simp]
theorem setConditions_cons (s : Status) (c : Condition) (cs : List Condition) :
    s.setConditions (c :: cs) = (s.setCondition c).setConditions cs :=
  rfl

theorem setConditions_append (s : Status) (before cs : List Condition) :
    s.setConditions (before ++ cs) = (s.setConditions before).setConditions cs :=
  List.foldl_append

theorem conditions_apply (previous : Option Status) (update : Update) :
    (update.apply previous).conditions =
      ((previous.getD {}).setConditions update.conditions).conditions := by
  cases update with
  | pass generation result recordsWriteTime now nextPass => cases result <;> rfl
  | deletion e now => rfl
  | condition c => rfl

theorem conditions_setConditions_congr {s t : Status} (h : s.conditions = t.conditions)
    (cs : List Condition) : (s.setConditions cs).conditions = (t.setConditions cs).conditions := by
  induction cs generalizing s t with
  | nil => exact h
  | cons c rest ih => exact ih (congrArg (placeCondition c) h)

theorem conditions_after (start : Option Status) (updates : List Update) :
    ((after start updates).getD {}).conditions =
      ((start.getD {}).setConditions (updates.flatMap Update.conditions)).conditions := by
  induction updates generalizing start with
  | nil => rfl
  | cons update rest ih =>
    rw [after, List.foldl_cons, ← after, ih, List.flatMap_cons, setConditions_append]
    exact conditions_setConditions_congr (conditions_apply start update) _

theorem types_prefix_setConditions (s : Status) (cs : List Condition) :
    s.types <+: (s.setConditions cs).types := by
  induction cs generalizing s with
  | nil => exact List.prefix_rfl
  | cons c rest ih => exact (types_prefix_setCondition s c).trans (ih _)

theorem ShowsOnce.setConditions {s : Status} (h : s.ShowsOnce) (cs : List Condition) :
    (s.setConditions cs).ShowsOnce := by
  induction cs generalizing s with
  | nil => exact h
  | cons c rest ih => exact ih (h.setCondition c)

theorem stands_setConditions {s : Status} (type : String) (h : Stands before (s.condition? type))
    (cs : List Condition) :
    Stands (before ++ cs.filter (·.type == type)) ((s.setConditions cs).condition? type) := by
  induction cs generalizing s before with
  | nil => simpa using h
  | cons c rest ih =>
    have hc := condition?_setCondition s c type
    by_cases htype : c.type = type
    · rw [if_pos htype] at hc
      rw [List.filter_cons_of_pos (by simpa using htype), List.append_cons]
      exact ih (hc ▸ h.place c)
    · rw [if_neg htype] at hc
      rw [List.filter_cons_of_neg (by simpa using htype)]
      exact ih (hc ▸ h)

/-- Whatever happened, each type of condition is shown at most once and keeps its place from then
on, and what is shown of it is the last one given, with the time since when its status stands. -/
theorem conditions_stand {start : Option Status} (hstart : ∀ s ∈ start, s.conditions = [])
    (hs : s ∈ after start updates) :
    s.ShowsOnce ∧
      (∀ further, ∀ later ∈ after start (updates ++ further), s.types <+: later.types) ∧
      (∀ c ∈ s.conditions, s.condition? c.type = some c) ∧
      ∀ type, Stands (given type updates) (s.condition? type) := by
  have hempty : (start.getD {}).conditions = [] := by
    cases start with
    | none => rfl
    | some s => exact hstart s rfl
  have hconditions := conditions_after start updates
  rw [hs, Option.getD_some] at hconditions
  have honce : s.ShowsOnce := by
    rw [ShowsOnce, types, hconditions]
    exact ShowsOnce.setConditions (s := start.getD {}) (by simp [ShowsOnce, types, hempty]) _
  refine ⟨honce, fun further later hlater => ?_, fun c hc => honce.condition?_eq hc, fun type => ?_⟩
  · have hfurther := conditions_after start (updates ++ further)
    rw [hlater, Option.getD_some, List.flatMap_append, setConditions_append] at hfurther
    rw [types, types, hconditions, hfurther]
    exact types_prefix_setConditions _ _
  · have hnone : Stands [] ((start.getD {}).condition? type) := by
      simpa [condition?, hempty] using .absent
    have hstands := stands_setConditions type hnone (updates.flatMap Update.conditions)
    rwa [condition?, ← hconditions, ← condition?] at hstands

/-- Two passes that fail at different times, and a deletion that is blocked later on. -/
def refusals : List Update :=
  [.pass (some 1) (.error (.awaiting "a certificate")) true ⟨0, 0⟩ ⟨60, 0⟩,
    .pass (some 1) (.error (.awaiting "another one")) true ⟨60, 0⟩ ⟨120, 0⟩,
    .deletion (.awaiting "a release") ⟨90, 0⟩]

theorem conditions_stand_refused :
    ∃ s ∈ after none refusals, ∃ c ∈ s.conditions,
      c = { blocked (.awaiting "a release") ⟨90, 0⟩ with
        lastTransitionTime := some (Instant.write ⟨0, 0⟩) } ∧
      Stands (given c.type refusals) (some c) := by
  have hstart : ∀ s ∈ (none : Option Status), s.conditions = [] := nofun
  obtain ⟨-, -, -, hstands⟩ := conditions_stand hstart (show _ ∈ after none refusals from rfl)
  exact ⟨_, rfl, _, .tail _ (.head _), rfl, hstands "Ready"⟩

end VaultOperator.Status
