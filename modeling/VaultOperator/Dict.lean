/-!
Dictionaries with text keys, kept in the order of their keys. Two dictionaries with the same
look-ups are equal (`Dict.ext_get?`).
-/

namespace VaultOperator

/-- Entries in strictly rising order of their keys. -/
structure Dict (α : Type) where
  entries : List (String × α)
  sorted : entries.Pairwise fun a b => a.1 < b.1

namespace Dict

variable {α β : Type}

theorem key_lt_trichotomy (a b : String) : a < b ∨ a = b ∨ b < a := by
  by_cases hab : a < b
  · exact .inl hab
  · by_cases hba : b < a
    · exact .inr (.inr hba)
    · exact .inr (.inl (String.le_antisymm (String.not_lt.1 hba) (String.not_lt.1 hab)))

def empty : Dict α := ⟨[], .nil⟩

instance : EmptyCollection (Dict α) := ⟨empty⟩

instance : Inhabited (Dict α) := ⟨empty⟩

instance [DecidableEq α] : DecidableEq (Dict α) := fun a b =>
  if h : a.entries = b.entries then
    .isTrue (by cases a; cases b; simp_all)
  else .isFalse fun he => h (congrArg entries he)

instance [Repr α] : Repr (Dict α) := ⟨fun d n => reprPrec d.entries n⟩

def lookup (key : String) : List (String × α) → Option α
  | [] => none
  | (k, v) :: rest => if k = key then some v else lookup key rest

def get? (d : Dict α) (key : String) : Option α :=
  lookup key d.entries

def contains (d : Dict α) (key : String) : Bool :=
  (d.get? key).isSome

def place (key : String) (value : α) : List (String × α) → List (String × α)
  | [] => [(key, value)]
  | (k, v) :: rest =>
    if key < k then (key, value) :: (k, v) :: rest
    else if key = k then (key, value) :: rest
    else (k, v) :: place key value rest

theorem mem_place {key : String} {value : α} {l : List (String × α)} {e : String × α}
    (h : e ∈ place key value l) : e = (key, value) ∨ e ∈ l := by
  induction l with
  | nil => simpa [place] using h
  | cons head rest ih =>
    simp only [place] at h
    split at h
    · simpa using h
    · split at h
      · simp only [List.mem_cons] at h ⊢
        exact h.imp id .inr
      · simp only [List.mem_cons] at h ⊢
        rcases h with h | h
        · exact .inr (.inl h)
        · exact (ih h).imp id .inr

theorem pairwise_place (key : String) (value : α) {l : List (String × α)}
    (h : l.Pairwise fun a b => a.1 < b.1) :
    (place key value l).Pairwise fun a b => a.1 < b.1 := by
  induction l with
  | nil => simp [place]
  | cons head rest ih =>
    obtain ⟨hh, hr⟩ := List.pairwise_cons.1 h
    simp only [place]
    split
    · next hlt =>
      refine List.pairwise_cons.2 ⟨fun e he => ?_, h⟩
      rcases List.mem_cons.1 he with rfl | he
      · exact hlt
      · exact String.lt_trans hlt (hh e he)
    · split
      · next heq =>
        exact List.pairwise_cons.2 ⟨fun e he => by simpa [heq] using hh e he, hr⟩
      · next hnlt hne =>
        refine List.pairwise_cons.2 ⟨fun e he => ?_, ih hr⟩
        rcases mem_place he with rfl | he
        · rcases key_lt_trichotomy key head.1 with h | h | h
          · exact absurd h hnlt
          · exact absurd h hne
          · exact h
        · exact hh e he

def insert (d : Dict α) (key : String) (value : α) : Dict α :=
  ⟨place key value d.entries, pairwise_place key value d.sorted⟩

def insertIfAbsent (d : Dict α) (key : String) (value : α) : Dict α :=
  if d.contains key then d else d.insert key value

def erase (d : Dict α) (key : String) : Dict α :=
  ⟨d.entries.filter fun e => e.1 ≠ key, d.sorted.filter _⟩

/-- The last of several values under one key counts. -/
def ofList (l : List (String × α)) : Dict α :=
  l.foldl (fun d e => d.insert e.1 e.2) ∅

def keys (d : Dict α) : List String :=
  d.entries.map (·.1)

def isEmpty (d : Dict α) : Bool :=
  d.entries.isEmpty

def map (f : α → β) (d : Dict α) : Dict β :=
  ⟨d.entries.map fun e => (e.1, f e.2), List.pairwise_map.2 d.sorted⟩

def filterMap (f : α → Option β) (d : Dict α) : Dict β :=
  ofList (d.entries.filterMap fun e => (f e.2).map (e.1, ·))

/-- The entries of `d`, and those of `other` under keys that `d` lacks. -/
def orElse (d other : Dict α) : Dict α :=
  other.entries.foldl (fun d e => d.insertIfAbsent e.1 e.2) d

theorem lookup_place (key key' : String) (value : α) (l : List (String × α)) :
    lookup key' (place key value l) = if key = key' then some value else lookup key' l := by
  induction l with
  | nil => simp [place, lookup]
  | cons head rest ih =>
    simp only [place]
    split
    · simp [lookup]
    · split
      · next heq =>
        by_cases h : key = key'
        · simp [lookup, h]
        · simp [lookup, h, heq ▸ h]
      · next hne =>
        simp only [lookup, ih]
        by_cases h : head.1 = key'
        · have : key ≠ key' := fun he => hne (he.trans h.symm)
          simp [h, this]
        · simp [h]

@[simp] theorem get?_empty (key : String) : (∅ : Dict α).get? key = none := rfl

theorem get?_insert (d : Dict α) (key key' : String) (value : α) :
    (d.insert key value).get? key' = if key = key' then some value else d.get? key' :=
  lookup_place key key' value d.entries

theorem lookup_filter_ne (key key' : String) (l : List (String × α)) :
    lookup key' (l.filter fun e => e.1 ≠ key) = if key = key' then none else lookup key' l := by
  induction l with
  | nil => simp [lookup]
  | cons head rest ih =>
    by_cases h : head.1 = key
    · by_cases hk : key = key'
      · simp_all
      · simp_all [lookup]
    · by_cases hk : key = key'
      · subst hk
        simp_all [lookup]
      · simp_all [lookup]

theorem get?_erase (d : Dict α) (key key' : String) :
    (d.erase key).get? key' = if key = key' then none else d.get? key' :=
  lookup_filter_ne key key' d.entries

theorem lookup_eq_none_of_forall_lt {key : String} {l : List (String × α)}
    (h : ∀ e ∈ l, key < e.1) : lookup key l = none := by
  induction l with
  | nil => rfl
  | cons head rest ih =>
    have hne : head.1 ≠ key := fun he => String.lt_irrefl key (he ▸ h head (by simp))
    simp only [lookup, hne, if_false]
    exact ih fun e he => h e (by simp [he])

theorem entries_eq_of_lookup {l m : List (String × α)}
    (hl : l.Pairwise fun a b => a.1 < b.1) (hm : m.Pairwise fun a b => a.1 < b.1)
    (h : ∀ key, lookup key l = lookup key m) : l = m := by
  induction l generalizing m with
  | nil =>
    cases m with
    | nil => rfl
    | cons b m => simpa [lookup] using h b.1
  | cons a l ih =>
    obtain ⟨ha, hl⟩ := List.pairwise_cons.1 hl
    cases m with
    | nil => simpa [lookup] using h a.1
    | cons b m =>
      obtain ⟨hb, hm⟩ := List.pairwise_cons.1 hm
      have hkey : a.1 = b.1 := by
        apply Decidable.byContradiction
        intro hne
        rcases key_lt_trichotomy a.1 b.1 with hlt | heq | hlt
        · have : lookup a.1 (b :: m) = none := lookup_eq_none_of_forall_lt fun e he => by
            rcases List.mem_cons.1 he with rfl | he
            · exact hlt
            · exact String.lt_trans hlt (hb e he)
          have := (h a.1).trans this
          simp [lookup] at this
        · exact hne heq
        · have : lookup b.1 (a :: l) = none := lookup_eq_none_of_forall_lt fun e he => by
            rcases List.mem_cons.1 he with rfl | he
            · exact hlt
            · exact String.lt_trans hlt (ha e he)
          have := (h b.1).symm.trans this
          simp [lookup] at this
      have hvalue : a.2 = b.2 := by simpa [lookup, hkey] using h a.1
      have htail : l = m := by
        refine ih hl hm fun key => ?_
        by_cases hk : a.1 = key
        · subst hk
          rw [lookup_eq_none_of_forall_lt ha, lookup_eq_none_of_forall_lt (hkey ▸ hb)]
        · have := h key
          simpa [lookup, hk, hkey ▸ hk] using this
      rw [htail, show a = b from Prod.ext hkey hvalue]

/-- A dictionary is its look-ups. -/
theorem ext_get? {d e : Dict α} (h : ∀ key, d.get? key = e.get? key) : d = e := by
  have := entries_eq_of_lookup d.sorted e.sorted h
  cases d
  cases e
  simp_all

end Dict

end VaultOperator
