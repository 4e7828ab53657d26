import VaultOperator.Json.Parser
import VaultOperator.Proofs.Json.Floatless
import VaultOperator.Proofs.Resource.Equivalence

/-!
# JSON values that are the same

Values are the same if they are of one shape with the same texts and numbers in it; the order in
which fields are written is no part of an object (`same_iff_alike`). This is an equivalence
(`same_symm`, `same_trans`). Objects are kept in the order of their keys, and those that are read
are so (`inOrder_of_parse?`).
-/

namespace VaultOperator

theorem Double.same_iff {x y : Double} : x.same y ↔ x = y ∨ x.isZero ∧ y.isZero := by
  simp [Double.same]

namespace Json

-- ---------------------------------------------------------------------------
-- Shapes
-- ---------------------------------------------------------------------------

/-- Of one shape with the same texts and numbers. Numbers of different types are never the same. -/
inductive Alike : Json → Json → Prop
  | null : Alike .null .null
  | bool (b : Bool) : Alike (.bool b) (.bool b)
  | int (i : Int) : Alike (.int i) (.int i)
  | float (h : x = y ∨ x.isZero ∧ y.isZero) : Alike (.float x) (.float y)
  | str (s : String) : Alike (.str s) (.str s)
  | arr {items items' : List Json} (hlength : items.length = items'.length)
    (hitems : ∀ (i : Nat) (item item' : Json), items[i]? = some item → items'[i]? = some item' →
      Alike item item') : Alike (.arr items) (.arr items')
  | obj {fields fields' : List (String × Json)}
    (hkeys : ∀ key, key ∈ fields.map (·.1) ↔ key ∈ fields'.map (·.1))
    (hvalues : ∀ (key : String) (value value' : Json), Dict.lookup key fields = some value →
      Dict.lookup key fields' = some value' → Alike value value') :
    Alike (.obj fields) (.obj fields')

mutual

/-- All objects in the value have their fields in the order of their keys, with no key twice. -/
def InOrder : Json → Prop
  | .arr items => ItemsInOrder items
  | .obj fields => (fields.Pairwise fun a b => a.1 < b.1) ∧ FieldsInOrder fields
  | _ => True

def ItemsInOrder : List Json → Prop
  | [] => True
  | item :: items => item.InOrder ∧ ItemsInOrder items

def FieldsInOrder : List (String × Json) → Prop
  | [] => True
  | (_, value) :: fields => value.InOrder ∧ FieldsInOrder fields

end

theorem itemsInOrder_iff {items : List Json} :
    ItemsInOrder items ↔ ∀ item ∈ items, item.InOrder := by
  induction items with
  | nil => simp [ItemsInOrder]
  | cons item items ih => simp [ItemsInOrder, ih]

theorem fieldsInOrder_iff {fields : List (String × Json)} :
    FieldsInOrder fields ↔ ∀ e ∈ fields, e.2.InOrder := by
  induction fields with
  | nil => simp [FieldsInOrder]
  | cons e fields ih => simp [FieldsInOrder, ih]

theorem inOrder_arr {items : List Json} : InOrder (.arr items) ↔ ∀ item ∈ items, item.InOrder := by
  rw [InOrder, itemsInOrder_iff]

theorem inOrder_obj {fields : List (String × Json)} :
    InOrder (.obj fields) ↔
      (fields.Pairwise fun a b => a.1 < b.1) ∧ ∀ e ∈ fields, e.2.InOrder := by
  rw [InOrder, fieldsInOrder_iff]

-- ---------------------------------------------------------------------------
-- An equivalence
-- ---------------------------------------------------------------------------

mutual

theorem same_symm : ∀ {a b : Json}, a.same b → b.same a
  | .null, .null, _ => rfl
  | .bool _, .bool _, h => by
    rw [same, beq_iff_eq] at *
    exact h.symm
  | .int _, .int _, h => by
    rw [same, beq_iff_eq] at *
    exact h.symm
  | .float _, .float _, h => by
    rw [same, Double.same_iff] at *
    exact h.imp Eq.symm And.symm
  | .str _, .str _, h => by
    rw [same, beq_iff_eq] at *
    exact h.symm
  | .arr _, .arr _, h => by
    rw [same] at *
    exact sameItems_symm h
  | .obj _, .obj _, h => by
    rw [same] at *
    exact sameFields_symm h

theorem sameItems_symm : ∀ {items items' : List Json}, sameItems items items' →
    sameItems items' items
  | [], [], _ => rfl
  | _ :: _, _ :: _, h => by
    rw [sameItems, Bool.and_eq_true] at *
    exact ⟨same_symm h.1, sameItems_symm h.2⟩

theorem sameFields_symm : ∀ {fields fields' : List (String × Json)}, sameFields fields fields' →
    sameFields fields' fields
  | [], [], _ => rfl
  | (_, _) :: _, (_, _) :: _, h => by
    simp only [sameFields, Bool.and_eq_true, beq_iff_eq] at *
    exact ⟨⟨h.1.1.symm, same_symm h.1.2⟩, sameFields_symm h.2⟩

end

mutual

theorem same_trans : ∀ {a b c : Json}, a.same b → b.same c → a.same c
  | .null, .null, .null, _, _ => rfl
  | .bool _, .bool _, .bool _, h, h' => by simp_all [same]
  | .int _, .int _, .int _, h, h' => by simp_all [same]
  | .float _, .float _, .float _, h, h' => by
    rw [same, Double.same_iff] at *
    rcases h with rfl | ⟨hx, hy⟩
    · exact h'
    · rcases h' with rfl | ⟨-, hz⟩
      · exact .inr ⟨hx, hy⟩
      · exact .inr ⟨hx, hz⟩
  | .str _, .str _, .str _, h, h' => by simp_all [same]
  | .arr _, .arr _, .arr _, h, h' => by
    rw [same] at *
    exact sameItems_trans h h'
  | .obj _, .obj _, .obj _, h, h' => by
    rw [same] at *
    exact sameFields_trans h h'

theorem sameItems_trans : ∀ {items items' items'' : List Json}, sameItems items items' →
    sameItems items' items'' → sameItems items items''
  | [], [], [], _, _ => rfl
  | _ :: _, _ :: _, _ :: _, h, h' => by
    rw [sameItems, Bool.and_eq_true] at *
    exact ⟨same_trans h.1 h'.1, sameItems_trans h.2 h'.2⟩

theorem sameFields_trans : ∀ {fields fields' fields'' : List (String × Json)},
    sameFields fields fields' → sameFields fields' fields'' → sameFields fields fields''
  | [], [], [], _, _ => rfl
  | (_, _) :: _, (_, _) :: _, (_, _) :: _, h, h' => by
    simp only [sameFields, Bool.and_eq_true, beq_iff_eq] at *
    exact ⟨⟨h.1.1.trans h'.1.1, same_trans h.1.2 h'.1.2⟩, sameFields_trans h.2 h'.2⟩

end

-- ---------------------------------------------------------------------------
-- Item by item and field by field
-- ---------------------------------------------------------------------------

theorem sameItems_iff {items items' : List Json} :
    sameItems items items' ↔ items.length = items'.length ∧
      ∀ (i : Nat) (item item' : Json), items[i]? = some item → items'[i]? = some item' →
        item.same item' := by
  induction items generalizing items' with
  | nil => cases items' <;> simp [sameItems]
  | cons item items ih =>
    cases items' with
    | nil => simp [sameItems]
    | cons item' items' =>
      rw [sameItems, Bool.and_eq_true, ih, List.length_cons, List.length_cons,
        Nat.add_right_cancel_iff]
      constructor
      · rintro ⟨hhead, hlength, hrest⟩
        refine ⟨hlength, fun i x x' hx hx' => ?_⟩
        cases i with
        | zero =>
          cases hx
          cases hx'
          exact hhead
        | succ i => exact hrest i x x' hx hx'
      · rintro ⟨hlength, hall⟩
        exact ⟨hall 0 item item' rfl rfl, hlength, fun i => hall (i + 1)⟩

theorem sameFields_iff {fields fields' : List (String × Json)}
    (h : (fields.map (·.1)).Nodup) :
    sameFields fields fields' ↔ fields.map (·.1) = fields'.map (·.1) ∧
      ∀ (key : String) (value value' : Json), Dict.lookup key fields = some value →
        Dict.lookup key fields' = some value' → value.same value' := by
  induction fields generalizing fields' with
  | nil => cases fields' <;> simp [sameFields, Dict.lookup]
  | cons e fields ih =>
    obtain ⟨hkey, hrest⟩ := List.nodup_cons.1 h
    cases fields' with
    | nil => simp [sameFields]
    | cons e' fields' =>
      rw [sameFields, Bool.and_eq_true, Bool.and_eq_true, beq_iff_eq, ih hrest, List.map_cons,
        List.map_cons, List.cons.injEq]
      constructor
      · rintro ⟨⟨hsame, hvalue⟩, hkeys, hvalues⟩
        refine ⟨⟨hsame, hkeys⟩, fun key value value' hfound hfound' => ?_⟩
        rw [Dict.lookup] at hfound hfound'
        by_cases hhead : e.1 = key
        · rw [if_pos hhead] at hfound
          rw [if_pos (hsame ▸ hhead)] at hfound'
          cases hfound
          cases hfound'
          exact hvalue
        · rw [if_neg hhead] at hfound
          rw [if_neg (hsame ▸ hhead)] at hfound'
          exact hvalues key value value' hfound hfound'
      · rintro ⟨⟨hsame, hkeys⟩, hvalues⟩
        refine ⟨⟨hsame, ?_⟩, hkeys, fun key value value' hfound hfound' => ?_⟩
        · exact hvalues e.1 e.2 e'.2 (by simp [Dict.lookup]) (by simp [Dict.lookup, hsame])
        · have hother : e.1 ≠ key := fun hhead => by
            rw [Dict.lookup_eq_none_iff.2 (hhead ▸ hkey)] at hfound
            cases hfound
          exact hvalues key value value' (by simp [Dict.lookup, hother, hfound])
            (by simp [Dict.lookup, hsame ▸ hother, hfound'])

theorem nodup_of_pairwise {fields : List (String × Json)}
    (h : fields.Pairwise fun a b => a.1 < b.1) : (fields.map (·.1)).Nodup :=
  Dict.nodup_keys ⟨fields, h⟩

/-- Keys in order are those of one set in one way only. -/
theorem map_key_eq_iff {fields fields' : List (String × Json)}
    (h : fields.Pairwise fun a b => a.1 < b.1) (h' : fields'.Pairwise fun a b => a.1 < b.1) :
    fields.map (·.1) = fields'.map (·.1) ↔
      ∀ key, key ∈ fields.map (·.1) ↔ key ∈ fields'.map (·.1) := by
  constructor
  · intro heq key
    rw [heq]
  · intro hkeys
    have hperm := (List.perm_ext_iff_of_nodup (nodup_of_pairwise h) (nodup_of_pairwise h')).2 hkeys
    have hless : ∀ a b : String, a ∈ fields.map (·.1) → b ∈ fields'.map (·.1) → a < b → b < a →
        a = b := fun a b _ _ hab hba => absurd (String.lt_trans hab hba) (String.lt_irrefl a)
    exact hperm.eq_of_pairwise hless (List.pairwise_map.2 h) (List.pairwise_map.2 h')

mutual

theorem alike_of_same : ∀ {a b : Json}, a.InOrder → a.same b → Alike a b
  | .null, .null, _, _ => .null
  | .bool x, .bool _, _, h => by
    rw [same, beq_iff_eq] at h
    exact h ▸ .bool x
  | .int x, .int _, _, h => by
    rw [same, beq_iff_eq] at h
    exact h ▸ .int x
  | .float _, .float _, _, h => by
    rw [same, Double.same_iff] at h
    exact .float h
  | .str x, .str _, _, h => by
    rw [same, beq_iff_eq] at h
    exact h ▸ .str x
  | .arr items, .arr items', ha, h => by
    rw [same, sameItems_iff] at h
    rw [InOrder] at ha
    refine .arr h.1 fun i item item' hitem hitem' => ?_
    exact alike_of_mem_items ha item (List.mem_of_getElem? hitem) (h.2 i item item' hitem hitem')
  | .obj fields, .obj fields', ha, h => by
    rw [InOrder] at ha
    rw [same, sameFields_iff (nodup_of_pairwise ha.1)] at h
    refine .obj (fun key => by rw [h.1]) fun key value value' hvalue hvalue' => ?_
    exact alike_of_lookup_fields ha.2 hvalue (h.2 key value value' hvalue hvalue')

theorem alike_of_mem_items : ∀ {items : List Json}, ItemsInOrder items → ∀ item ∈ items,
    ∀ {b : Json}, item.same b → Alike item b
  | [], _, _, hmem, _, _ => nomatch hmem
  | head :: items, ha, item, hmem, _, h => by
    rw [ItemsInOrder] at ha
    rcases List.mem_cons.1 hmem with heq | hmem
    · rw [heq] at h ⊢
      exact alike_of_same ha.1 h
    · exact alike_of_mem_items ha.2 item hmem h

theorem alike_of_lookup_fields : ∀ {fields : List (String × Json)}, FieldsInOrder fields →
    ∀ {key : String} {value b : Json}, Dict.lookup key fields = some value → value.same b →
      Alike value b
  | [], _, _, _, _, hfound, _ => nomatch hfound
  | (_, head) :: fields, ha, key, value, _, hfound, h => by
    rw [FieldsInOrder] at ha
    rw [Dict.lookup] at hfound
    split at hfound
    · rw [← Option.some.inj hfound] at h ⊢
      exact alike_of_same ha.1 h
    · exact alike_of_lookup_fields ha.2 hfound h

end

theorem same_of_alike {a b : Json} (h : Alike a b) (ha : a.InOrder) (hb : b.InOrder) :
    a.same b := by
  induction h with
  | null => rfl
  | bool | int | str => simp [same]
  | float h => rwa [same, Double.same_iff]
  | arr hlength _ ih =>
    rw [inOrder_arr] at ha hb
    rw [same, sameItems_iff]
    refine ⟨hlength, fun i item item' hitem hitem' => ?_⟩
    exact ih i item item' hitem hitem' (ha _ (List.mem_of_getElem? hitem))
      (hb _ (List.mem_of_getElem? hitem'))
  | obj hkeys _ ih =>
    rw [inOrder_obj] at ha hb
    rw [same, sameFields_iff (nodup_of_pairwise ha.1)]
    refine ⟨(map_key_eq_iff ha.1 hb.1).2 hkeys, fun key value value' hvalue hvalue' => ?_⟩
    exact ih key value value' hvalue hvalue' (ha.2 _ (Dict.mem_of_lookup hvalue))
      (hb.2 _ (Dict.mem_of_lookup hvalue'))

/-- Values are the same if and only if they are of one shape. -/
theorem same_iff_alike {a b : Json} (ha : a.InOrder) (hb : b.InOrder) : a.same b ↔ Alike a b :=
  ⟨alike_of_same ha, fun h => same_of_alike h ha hb⟩

-- ---------------------------------------------------------------------------
-- What is read is in order
-- ---------------------------------------------------------------------------

theorem inOrder_ofDict {d : Dict Json} (h : ∀ e ∈ d.entries, e.2.InOrder) : (ofDict d).InOrder :=
  inOrder_obj.2 ⟨d.sorted, h⟩

theorem forall_mem_insert {P : Json → Prop} {d : Dict Json} {value : Json}
    (h : ∀ e ∈ d.entries, P e.2) (key : String) (hvalue : P value) :
    ∀ e ∈ (d.insert key value).entries, P e.2 := by
  intro e he
  rcases Dict.mem_place he with rfl | he
  · exact hvalue
  · exact h e he

theorem inOrder_of_scanNumber {negative : Bool} {cs rest : List Char} {j : Json}
    (h : scanNumber negative cs = some (j, rest)) : j.InOrder := by
  unfold scanNumber at h
  extract_lets isNumber at h
  split at h
  · cases h
  · obtain ⟨_, -, h⟩ := Option.bind_eq_some_iff.1 h
    dsimp only at h
    split at h
    · obtain ⟨_, -, h⟩ := Option.bind_eq_some_iff.1 h
      cases h
      trivial
    · split at h
      · cases h
        trivial
      · split at h
        · obtain ⟨_, -, h⟩ := Option.bind_eq_some_iff.1 h
          cases h
          trivial
        · cases h
          trivial

theorem inOrder_of_parseValue (fuel : Nat) :
    (∀ {depth cs j rest}, parseValue fuel depth cs = some (j, rest) → j.InOrder) ∧
    (∀ {depth items cs j rest}, (∀ item ∈ items, item.InOrder) →
      parseValue.parseItems fuel depth items cs = some (j, rest) → j.InOrder) ∧
    ∀ {depth fields cs j rest}, (∀ e ∈ fields.entries, e.2.InOrder) →
      parseValue.parseFields fuel depth fields cs = some (j, rest) → j.InOrder := by
  induction fuel with
  | zero => simp [parseValue, parseValue.parseItems, parseValue.parseFields]
  | succ fuel ih =>
    obtain ⟨ihvalue, ihitems, ihfields⟩ := ih
    refine ⟨fun h => ?_, fun hitems h => ?_, fun hfields h => ?_⟩
    · -- no value but a container holds others
      unfold parseValue at h
      split at h
      any_goals cases h; trivial
      · obtain ⟨_, -, hdone⟩ := Option.map_eq_some_iff.1 h
        cases hdone
        trivial
      · exact inOrder_of_scanNumber h
      · split at h
        · cases h
        · split at h
          · cases h
            trivial
          · exact ihitems (by simp) h
      · split at h
        · cases h
        · split at h
          · cases h
            trivial
          · exact ihfields (List.forall_mem_nil _) h
      · exact inOrder_of_scanNumber h
    · unfold parseValue.parseItems at h
      obtain ⟨⟨item, cs'⟩, hitem, h⟩ := Option.bind_eq_some_iff.1 h
      have hmore := List.forall_mem_cons.2 ⟨ihvalue hitem, hitems⟩
      dsimp only at h
      split at h
      · exact ihitems hmore h
      · cases h
        exact inOrder_arr.2 fun x hx => hmore x (List.mem_reverse.1 hx)
      · cases h
    · unfold parseValue.parseFields at h
      split at h
      · obtain ⟨⟨key, cs'⟩, -, h⟩ := Option.bind_eq_some_iff.1 h
        dsimp only at h
        split at h
        · obtain ⟨⟨value, cs''⟩, hvalue, h⟩ := Option.bind_eq_some_iff.1 h
          have hmore := forall_mem_insert hfields key (ihvalue hvalue)
          dsimp only at h
          split at h
          · exact ihfields hmore h
          · cases h
            exact inOrder_ofDict hmore
          · cases h
        · cases h
      · cases h

theorem inOrder_of_parse? {text : String} {j : Json} (h : parse? text = some j) : j.InOrder := by
  unfold parse? at h
  dsimp only at h
  split at h
  · next value rest hvalue =>
    split at h
    · cases h
      exact (inOrder_of_parseValue _).1 hvalue
    · cases h
  · cases h

end Json

end VaultOperator
