import VaultOperator.Json.Basic

/-!
# Dictionaries from lists

What is found in a dictionary that is made from a list is the last entry of the list under the key
(`get?_ofList`); a dictionary is made from its own entries (`ofList_entries`). What is found after
dictionaries were put together (`get?_orElse`), and in a payload of fields (`get?_ofFields`).
-/

namespace VaultOperator.Dict

variable {α : Type}

theorem lookup_append (key : String) (l m : List (String × α)) :
    lookup key (l ++ m) = (lookup key l).or (lookup key m) := by
  induction l with
  | nil => rfl
  | cons e l ih =>
    simp only [List.cons_append, lookup, ih]
    split <;> rfl

theorem get?_foldl_insert (key : String) (l : List (String × α)) (d : Dict α) :
    (l.foldl (fun d e => d.insert e.1 e.2) d).get? key =
      (lookup key l.reverse).or (d.get? key) := by
  induction l generalizing d with
  | nil => rfl
  | cons e l ih =>
    rw [List.foldl_cons, ih, get?_insert, List.reverse_cons, lookup_append]
    split <;> simp_all [lookup]

theorem get?_ofList (key : String) (l : List (String × α)) :
    (ofList l).get? key = lookup key l.reverse := by
  simp [ofList, get?_foldl_insert]

theorem lookup_eq_none_iff {key : String} {l : List (String × α)} :
    lookup key l = none ↔ key ∉ l.map (·.1) := by
  induction l with
  | nil => simp [lookup]
  | cons e l ih =>
    simp only [lookup, List.map_cons, List.mem_cons, not_or]
    split
    · next h => simp [h]
    · next h => simp [ih, Ne.symm h]

theorem lookup_reverse {l : List (String × α)} (h : (l.map (·.1)).Nodup) (key : String) :
    lookup key l.reverse = lookup key l := by
  induction l with
  | nil => rfl
  | cons e l ih =>
    obtain ⟨he, hl⟩ := List.nodup_cons.1 h
    rw [List.reverse_cons, lookup_append, ih hl, lookup, lookup, lookup]
    split
    · next hkey =>
      rw [lookup_eq_none_iff.2 (hkey ▸ he)]
      rfl
    · cases lookup key l <;> rfl

theorem get?_ofList_of_nodup {l : List (String × α)} (h : (l.map (·.1)).Nodup) (key : String) :
    (ofList l).get? key = lookup key l := by
  rw [get?_ofList, lookup_reverse h]

theorem nodup_keys (d : Dict α) : (d.entries.map (·.1)).Nodup := by
  refine List.pairwise_map.2 (d.sorted.imp ?_)
  intro a b h he
  rw [he] at h
  exact String.lt_irrefl _ h

theorem get?_insertIfAbsent (d : Dict α) (key key' : String) (value : α) :
    (d.insertIfAbsent key value).get? key' =
      (d.get? key').or (if key = key' then some value else none) := by
  unfold insertIfAbsent contains
  by_cases hkey : key = key'
  · subst hkey
    cases h : d.get? key <;> simp [h, get?_insert]
  · split <;> simp [get?_insert, hkey]

theorem get?_orElse (d other : Dict α) (key : String) :
    (d.orElse other).get? key = (d.get? key).or (other.get? key) := by
  show (other.entries.foldl _ d).get? key = (d.get? key).or (lookup key other.entries)
  generalize other.entries = l
  induction l generalizing d with
  | nil => simp [lookup]
  | cons e l ih =>
    rw [List.foldl_cons, ih, get?_insertIfAbsent, lookup]
    split <;> cases d.get? key <;> simp

/-- The value under a key, if the list has the key and the key has a value. -/
theorem get?_ofList_filterMap {l : List (String × Option α)} (h : (l.map (·.1)).Nodup)
    (key : String) :
    (ofList (l.filterMap fun e => e.2.map (e.1, ·))).get? key = (lookup key l).join := by
  have hkeys : ((l.filterMap fun e => e.2.map (e.1, ·)).map (·.1)).Sublist (l.map (·.1)) := by
    clear h
    induction l with
    | nil => exact .slnil
    | cons e l ih =>
      cases he : e.2 with
      | none => simpa [he] using ih.cons e.1
      | some value => simpa [he] using ih
  rw [get?_ofList_of_nodup (hkeys.nodup h)]
  clear hkeys
  induction l with
  | nil => rfl
  | cons e l ih =>
    obtain ⟨he, hl⟩ := List.nodup_cons.1 h
    by_cases hkey : e.1 = key
    · subst hkey
      cases hvalue : e.2 with
      | none => simp [lookup, hvalue, ih hl, lookup_eq_none_iff.2 he]
      | some value => simp [lookup, hvalue]
    · cases hvalue : e.2 with
      | none => simp [lookup, hvalue, hkey, ih hl]
      | some value => simp [lookup, hvalue, hkey, ih hl]

/-- The value of a field, if the list has the field and the field has a value. -/
theorem get?_ofFields {fields : List (String × Option Json)} (h : (fields.map (·.1)).Nodup)
    (key : String) : (ofFields fields).get? key = (lookup key fields).join :=
  get?_ofList_filterMap h key

theorem lookup_map (keys : List String) (f : String → α) (key : String) :
    lookup key (keys.map fun k => (k, f k)) = if key ∈ keys then some (f key) else none := by
  induction keys with
  | nil => rfl
  | cons k keys ih =>
    by_cases hkey : k = key
    · simp [lookup, hkey]
    · simp [lookup, hkey, ih, Ne.symm hkey]

theorem mem_keys_of_get?_ofFields {fields : List (String × Option Json)}
    (h : (fields.map (·.1)).Nodup) (hget : (ofFields fields).get? key = some value) :
    key ∈ fields.map (·.1) := by
  rw [get?_ofFields h] at hget
  refine Decidable.byContradiction fun hkey => ?_
  rw [lookup_eq_none_iff.2 hkey] at hget
  cases hget

theorem text?_eq_some_iff {p : Payload} : p.text? key = some s ↔ p.get? key = some (.str s) := by
  unfold text?
  cases p.get? key with
  | none => simp
  | some value => cases value <;> simp [Json.str?]

/-- A dictionary is made of its entries. -/
@[simp] theorem ofList_entries (d : Dict α) : ofList d.entries = d :=
  ext_get? fun key => get?_ofList_of_nodup d.nodup_keys key

end VaultOperator.Dict
