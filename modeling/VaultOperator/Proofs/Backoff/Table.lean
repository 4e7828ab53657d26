import Mathlib.Data.Nat.Fib.Basic
import VaultOperator.Backoff
import VaultOperator.Proofs.Path.Segments

/-!
# Delays after failures in a row

After `n` failures in a row the next delay is the next Fibonacci number of least delays, up to the
greatest one (`HasFailed`). The numbers that are added were cut off there themselves, which makes no
difference (`minutesAfter_add_two`). In a table of many resources each of them counts on its own, in
whatever order they fail and succeed (`delays_by_resource`).
-/

namespace VaultOperator.Backoff

-- ---------------------------------------------------------------------------
-- One resource
-- ---------------------------------------------------------------------------

/-- The state after so many failures in a row. -/
def afterFailures (least greatest : UInt64) : Nat → Backoff
  | 0 => new least greatest
  | n + 1 => (afterFailures least greatest n).advance

/-- The minutes to wait after the last of `n` failures in a row. -/
def minutesAfter (least greatest : UInt64) (n : Nat) : Nat :=
  min greatest.toNat (min least.toNat greatest.toNat * Nat.fib n)

/-- What a state holds after `n` failures in a row: the last delay and the next one. -/
structure HasFailed (least greatest : UInt64) (n : Nat) (b : Backoff) : Prop where
  previous : b.previousMinutes.toNat = minutesAfter least greatest n
  current : b.currentMinutes.toNat = minutesAfter least greatest (n + 1)
  greatest : b.maxMinutes = greatest
  failures : b.failures.toNat = n % 2 ^ 32

/-- Nothing that the next failure computes leaves the word that it is computed in. -/
structure Fits (b : Backoff) : Prop where
  delay : b.currentMinutes.toNat * 60 < 2 ^ 64
  sum : b.previousMinutes.toNat + b.currentMinutes.toNat < 2 ^ 64
  failures : b.failures.toNat + 1 < 2 ^ 32

variable {least greatest : UInt64} {n : Nat} {b : Backoff}

theorem minutesAfter_le (least greatest : UInt64) (n : Nat) :
    minutesAfter least greatest n ≤ greatest.toNat :=
  Nat.min_le_left _ _

theorem minutesAfter_add_two :
    minutesAfter least greatest (n + 2) =
      min (minutesAfter least greatest n + minutesAfter least greatest (n + 1)) greatest.toNat := by
  unfold minutesAfter
  rw [Nat.fib_add_two, Nat.mul_add]
  omega

example : (List.range 9).map (fun n => minutesAfter 1 10 (n + 1)) = [1, 1, 2, 3, 5, 8, 10, 10, 10] := by
  decide

theorem hasFailed_new : HasFailed least greatest 0 (new least greatest) where
  previous := by simp [new, minutesAfter]
  current := by simp [new, minutesAfter, UInt64.toNat_min]
  greatest := rfl
  failures := rfl

namespace HasFailed

theorem delay_lt (h : HasFailed least greatest n b) (hfits : 60 * greatest.toNat < 2 ^ 64) :
    b.currentMinutes.toNat * 60 < 2 ^ 64 := by
  have hcurrent := minutesAfter_le least greatest (n + 1)
  rw [h.current]
  omega

theorem sum_lt (h : HasFailed least greatest n b) (hfits : 60 * greatest.toNat < 2 ^ 64) :
    b.previousMinutes.toNat + b.currentMinutes.toNat < 2 ^ 64 := by
  have hprevious := minutesAfter_le least greatest n
  have hcurrent := minutesAfter_le least greatest (n + 1)
  rw [h.previous, h.current]
  omega

theorem fits (h : HasFailed least greatest n b) (hfits : 60 * greatest.toNat < 2 ^ 64)
    (hfew : n + 1 < 2 ^ 32) : b.Fits where
  delay := h.delay_lt hfits
  sum := h.sum_lt hfits
  failures := by
    rw [h.failures]
    omega

theorem delay_eq (h : HasFailed least greatest n b) (hfits : 60 * greatest.toNat < 2 ^ 64) :
    b.delay.toNat = 60 * minutesAfter least greatest (n + 1) := by
  have hproduct : b.delay.toNat = b.currentMinutes.toNat * 60 % 2 ^ 64 := UInt64.toNat_mul _ _
  rw [hproduct, Nat.mod_eq_of_lt (h.delay_lt hfits), h.current, Nat.mul_comm]

theorem advance (h : HasFailed least greatest n b) (hfits : 60 * greatest.toNat < 2 ^ 64) :
    HasFailed least greatest (n + 1) b.advance where
  previous := h.current
  current := by
    simp only [Backoff.advance, UInt64.toNat_min, UInt64.toNat_add, h.greatest]
    rw [Nat.mod_eq_of_lt (h.sum_lt hfits), h.previous, h.current, minutesAfter_add_two]
  greatest := h.greatest
  failures := by
    have hsum : b.advance.failures.toNat = (b.failures.toNat + 1) % 2 ^ 32 := UInt32.toNat_add _ _
    rw [hsum, h.failures]
    omega

end HasFailed

theorem hasFailed_afterFailures (hfits : 60 * greatest.toNat < 2 ^ 64) (n : Nat) :
    HasFailed least greatest n (afterFailures least greatest n) := by
  induction n with
  | zero => exact hasFailed_new
  | succ n ih => exact ih.advance hfits

-- ---------------------------------------------------------------------------
-- Many resources
-- ---------------------------------------------------------------------------

/-- What is done to the state of a resource. -/
inductive Operation where
  | fail (key : String)
  | reset (key : String)
  deriving DecidableEq, Repr

namespace Operation

def key : Operation → String
  | fail key => key
  | reset key => key

def isFailure : Operation → Bool
  | fail _ => true
  | reset _ => false

/-- The failures in a row of a resource after an operation, if there were `n` of them before. -/
def count (resource : String) (n : Nat) : Operation → Nat
  | fail key => if key = resource then n + 1 else n
  | reset key => if key = resource then 0 else n

theorem count_other {op : Operation} (h : op.key ≠ resource) : op.count resource n = n := by
  cases op <;> exact if_neg h

end Operation

/-- The failures of a resource since it was last reset. -/
def failuresInRow (resource : String) (ops : List Operation) : Nat :=
  ops.foldl (Operation.count resource) 0

theorem failuresInRow_append_fail (key : String) (ops : List Operation) :
    failuresInRow key (ops ++ [.fail key]) = failuresInRow key ops + 1 := by
  simp [failuresInRow, Operation.count]

theorem failuresInRow_le (key : String) (ops : List Operation) :
    failuresInRow key ops ≤ ops.countP Operation.isFailure := by
  induction ops using List.reverseRecOn with
  | nil => simp [failuresInRow]
  | append_singleton ops op ih =>
    rw [List.countP_append, failuresInRow, List.foldl_append]
    simp only [List.foldl_cons, List.foldl_nil]
    cases op with
    | fail k =>
      simp only [Operation.count, Operation.isFailure, List.countP_singleton, if_true]
      split
      · exact Nat.add_le_add_right ih 1
      · exact Nat.le_add_right_of_le ih
    | reset k =>
      simp only [Operation.count]
      split
      · exact Nat.zero_le _
      · exact Nat.le_add_right_of_le ih

namespace Table

variable {t t' : Table} {key : String} {ops : List Operation}

def after (t : Table) : Operation → Table
  | .fail key => (t.fail key).2
  | .reset key => t.reset key

def afterAll (t : Table) (ops : List Operation) : Table :=
  ops.foldl after t

@[simp] theorem afterAll_nil : t.afterAll [] = t := rfl

@[simp] theorem afterAll_cons (op : Operation) (ops : List Operation) :
    t.afterAll (op :: ops) = (t.after op).afterAll ops := rfl

@[simp] theorem afterAll_append (ops more : List Operation) :
    t.afterAll (ops ++ more) = (t.afterAll ops).afterAll more :=
  List.foldl_append

theorem state_fail : (t.fail key).2.state key = (t.state key).advance := by
  simp [fail, state, Dict.get?_insert]

theorem state_reset : (t.reset key).state key = Backoff.new t.minMinutes t.maxMinutes := by
  simp [reset, state, Dict.get?_erase]

/-- Two tables that cannot be told apart by looking at one resource. -/
structure AgreeOn (key : String) (t t' : Table) : Prop where
  minMinutes : t'.minMinutes = t.minMinutes
  maxMinutes : t'.maxMinutes = t.maxMinutes
  states : t'.states.get? key = t.states.get? key

theorem AgreeOn.refl : AgreeOn key t t := ⟨rfl, rfl, rfl⟩

theorem AgreeOn.state (h : AgreeOn key t t') : t'.state key = t.state key := by
  rw [Table.state, Table.state, h.minMinutes, h.maxMinutes, h.states]

theorem AgreeOn.after (h : AgreeOn key t t') (op : Operation) :
    AgreeOn key (t.after op) (t'.after op) := by
  cases op with
  | fail k =>
    refine ⟨h.minMinutes, h.maxMinutes, ?_⟩
    simp only [Table.after, Table.fail, Dict.get?_insert]
    split
    · next hk => rw [hk, h.state]
    · exact h.states
  | reset k =>
    refine ⟨h.minMinutes, h.maxMinutes, ?_⟩
    simp only [Table.after, Table.reset, Dict.get?_erase, h.states]

/-- What is done to another resource does not show. -/
theorem AgreeOn.after_other {op : Operation} (h : AgreeOn key t t') (hop : op.key ≠ key) :
    AgreeOn key (t.after op) t' := by
  cases op with
  | fail k =>
    refine ⟨h.minMinutes, h.maxMinutes, ?_⟩
    have hk : k ≠ key := hop
    rw [h.states, Table.after, Table.fail, Dict.get?_insert, if_neg hk]
  | reset k =>
    refine ⟨h.minMinutes, h.maxMinutes, ?_⟩
    have hk : k ≠ key := hop
    rw [h.states, Table.after, Table.reset, Dict.get?_erase, if_neg hk]

theorem AgreeOn.afterAll_filter (h : AgreeOn key t t') :
    AgreeOn key (t.afterAll ops) (t'.afterAll (ops.filter (·.key = key))) := by
  induction ops generalizing t t' with
  | nil => exact h
  | cons op ops ih =>
    by_cases hop : op.key = key
    · rw [List.filter_cons_of_pos (by simpa using hop)]
      exact ih (h.after op)
    · rw [List.filter_cons_of_neg (by simpa using hop)]
      exact ih (h.after_other hop)

/-- The table of delays between `least` and `greatest`, in which a resource has failed `n` times in
a row. -/
structure Counts (least greatest : UInt64) (key : String) (n : Nat) (t : Table) : Prop where
  minMinutes : t.minMinutes = least
  maxMinutes : t.maxMinutes = greatest
  state : t.state key = afterFailures least greatest n

theorem counts_of_none (h : t.states.get? key = none) :
    Counts t.minMinutes t.maxMinutes key 0 t :=
  ⟨rfl, rfl, by rw [Table.state, h]; rfl⟩

theorem counts_new : Counts least greatest key 0 (.new least greatest) :=
  ⟨rfl, rfl, rfl⟩

theorem Counts.hasFailed (h : Counts least greatest key n t) (hfits : 60 * greatest.toNat < 2 ^ 64) :
    HasFailed least greatest n (t.state key) :=
  h.state ▸ hasFailed_afterFailures hfits n

theorem Counts.after (h : Counts least greatest key n t) (op : Operation) :
    Counts least greatest key (op.count key n) (t.after op) := by
  by_cases hop : op.key = key
  · cases op with
    | fail k =>
      obtain rfl : k = key := hop
      rw [Operation.count, if_pos rfl]
      exact ⟨h.minMinutes, h.maxMinutes, by rw [Table.after, state_fail, h.state]; rfl⟩
    | reset k =>
      obtain rfl : k = key := hop
      rw [Operation.count, if_pos rfl]
      exact ⟨h.minMinutes, h.maxMinutes,
        by rw [Table.after, state_reset, h.minMinutes, h.maxMinutes]; rfl⟩
  · have hsame : AgreeOn key (t.after op) t := AgreeOn.refl.after_other hop
    rw [Operation.count_other hop]
    exact ⟨hsame.minMinutes.symm.trans h.minMinutes, hsame.maxMinutes.symm.trans h.maxMinutes,
      hsame.state.symm.trans h.state⟩

/-- Each resource counts its own failures, whatever is done in whatever order. -/
theorem counts_afterAll :
    Counts least greatest key (failuresInRow key ops) ((Table.new least greatest).afterAll ops) := by
  -- the count and the table are both made from the front, so the last operation comes last
  induction ops using List.reverseRecOn with
  | nil => exact counts_new
  | append_singleton ops op ih =>
    rw [afterAll_append, failuresInRow, List.foldl_append]
    exact ih.after op

end Table

-- ---------------------------------------------------------------------------
-- Keys
-- ---------------------------------------------------------------------------

theorem split_resourceKey {kind ns name : String} (hkind : '/' ∉ kind.toList)
    (hns : '/' ∉ ns.toList) (hname : '/' ∉ name.toList) :
    Text.split '/' (resourceKey kind ns name).toList =
      [kind.toList, ns.toList, name.toList] := by
  have hkey : (resourceKey kind ns name).toList =
      kind.toList ++ '/' :: (ns.toList ++ '/' :: name.toList) := by
    simp [resourceKey]
  rw [hkey, Text.split_append_sep, Text.split_append_sep, Text.split_of_not_mem hkind,
    Text.split_of_not_mem hns, Text.split_of_not_mem hname]
  rfl

/-- A key tells its resource. -/
theorem resourceKey_inj {kind ns name kind' ns' name' : String}
    (h : ∀ part ∈ [kind, ns, name, kind', ns', name'], '/' ∉ part.toList)
    (hkey : resourceKey kind ns name = resourceKey kind' ns' name') :
    kind = kind' ∧ ns = ns' ∧ name = name' := by
  have hparts := split_resourceKey (h kind (by simp)) (h ns (by simp)) (h name (by simp))
  rw [hkey, split_resourceKey (h kind' (by simp)) (h ns' (by simp)) (h name' (by simp))] at hparts
  simpa [String.toList_inj, eq_comm] using hparts

/-- However failures and resets of many resources come one after the other, each failure waits as
long as its number in the row of its own resource says, and no word is left on the way. Other
resources change nothing of it, and no two resources share a key. -/
theorem delays_by_resource (least greatest : UInt64) (ops : List Operation)
    (hfits : 60 * greatest.toNat < 2 ^ 64) (hfew : ops.countP Operation.isFailure < 2 ^ 32) :
    (∀ before key after, ops = before ++ .fail key :: after →
      let t := (Table.new least greatest).afterAll before
      (t.fail key).1.toNat =
          60 * min greatest.toNat (min least.toNat greatest.toNat *
            Nat.fib (failuresInRow key (before ++ [.fail key]))) ∧
        (t.state key).Fits ∧
        (t.fail key).1 = (((Table.new least greatest).afterAll
          (before.filter (·.key = key))).fail key).1) ∧
    ∀ kind ns name kind' ns' name' : String,
      (∀ part ∈ [kind, ns, name, kind', ns', name'], '/' ∉ part.toList) →
      resourceKey kind ns name = resourceKey kind' ns' name' →
        kind = kind' ∧ ns = ns' ∧ name = name' := by
  refine ⟨?_, fun _ _ _ _ _ _ => resourceKey_inj⟩
  rintro before key after rfl t
  have hcounts : Table.Counts least greatest key (failuresInRow key before) t :=
    Table.counts_afterAll
  have hrow : failuresInRow key before + 1 < 2 ^ 32 := by
    have hle := failuresInRow_le key (before ++ [.fail key])
    rw [failuresInRow_append_fail] at hle
    simp only [List.countP_append, List.countP_cons, List.countP_nil] at hle hfew
    omega
  have halone : Table.AgreeOn key t
      ((Table.new least greatest).afterAll (before.filter (·.key = key))) :=
    Table.AgreeOn.refl.afterAll_filter
  refine ⟨?_, (hcounts.hasFailed hfits).fits hfits hrow, ?_⟩
  · rw [failuresInRow_append_fail]
    exact (hcounts.hasFailed hfits).delay_eq hfits
  · rw [Table.fail, Table.fail, halone.state]

def readerKey : String := resourceKey "Policy" "team-a" "reader"

def writerKey : String := resourceKey "Policy" "team-a" "writer"

/-- Two policies fail by turns, and one of them is reset in between. -/
def turnsOfTwo : List Operation :=
  [.fail readerKey, .fail writerKey, .fail readerKey, .reset writerKey, .fail readerKey,
    .fail writerKey]

/-- The third failure of the one waits for two minutes, and the other starts again with one. -/
theorem delays_by_resource_two :
    60 * (10 : UInt64).toNat < 2 ^ 64 ∧ turnsOfTwo.countP Operation.isFailure < 2 ^ 32 ∧
      (((Table.new 1 10).afterAll (turnsOfTwo.take 4)).fail readerKey).1.toNat = 60 * 2 ∧
      (((Table.new 1 10).afterAll (turnsOfTwo.take 5)).fail writerKey).1.toNat = 60 * 1 ∧
      readerKey ≠ writerKey := by
  have hfits : 60 * (10 : UInt64).toNat < 2 ^ 64 := by decide
  have hfew : turnsOfTwo.countP Operation.isFailure < 2 ^ 32 := by decide
  obtain ⟨hdelays, hkeys⟩ := delays_by_resource 1 10 turnsOfTwo hfits hfew
  obtain ⟨hthird, -⟩ := hdelays (turnsOfTwo.take 4) readerKey [.fail writerKey] rfl
  obtain ⟨hfirst, -⟩ := hdelays (turnsOfTwo.take 5) writerKey [] rfl
  refine ⟨hfits, hfew, ?_, ?_, fun hsame => ?_⟩
  · rw [hthird]
    decide
  · rw [hfirst]
    decide
  · obtain ⟨-, -, hname⟩ := hkeys _ _ _ _ _ _ (by decide) hsame
    exact absurd hname (by decide)

end VaultOperator.Backoff
