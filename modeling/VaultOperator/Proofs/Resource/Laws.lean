import VaultOperator.Proofs.Json.Same
import VaultOperator.Proofs.Resource.Drift

/-!
# Laws of equivalence

A key that is desired is found if the same value is observed under it (`Finds`). All comparisons
ask for this of the keys that they cover, and the exact one asks for it both ways
(`isEquivalent_exact_iff`), from which their laws follow (`isEquivalent_laws`).
-/

namespace VaultOperator

/-- The entries of `d`, each put over what `base` has under its key. -/
def Dict.laidOver (d base : Dict α) : Dict α :=
  d.entries.foldl (fun p e => p.insert e.1 e.2) base

theorem Dict.get?_laidOver (d base : Dict α) (key : String) :
    (d.laidOver base).get? key = (d.get? key).or (base.get? key) := by
  rw [laidOver, get?_foldl_insert, lookup_reverse d.nodup_keys]
  rfl

theorem Dict.mem_keys_iff {d : Dict α} {key : String} :
    key ∈ d.entries.map (·.1) ↔ ∃ value, d.get? key = some value := by
  rw [← Option.ne_none_iff_exists', Ne, get?, lookup_eq_none_iff, Classical.not_not]

namespace Comparison

/-- What is desired under a key is observed under it. -/
def Finds (desired observed : Payload) (key : String) : Prop :=
  ∀ value, desired.get? key = some value →
    ∃ found, observed.get? key = some found ∧ found.same value

/-- Payloads that differ at most in what is redacted. -/
def AlikeOutside (redacted : List String) (p p' : Payload) : Prop :=
  ∀ key, key ∉ redacted → p.get? key = p'.get? key

variable {desired observed shown : Payload} {redacted : List String} {c : Comparison}

theorem Finds.refl (p : Payload) (key : String) : Finds p p key := fun value h =>
  ⟨value, h, value.same_refl⟩

theorem Finds.trans (h : Finds desired observed key) (h' : Finds observed shown key) :
    Finds desired shown key := by
  intro value hvalue
  obtain ⟨found, hfound, hsame⟩ := h value hvalue
  obtain ⟨found', hfound', hsame'⟩ := h' found hfound
  exact ⟨found', hfound', Json.same_trans hsame' hsame⟩

theorem finds_laidOver (d base : Payload) (key : String) : Finds d (d.laidOver base) key := by
  intro value hvalue
  refine ⟨value, ?_, value.same_refl⟩
  rw [Dict.get?_laidOver, hvalue, Option.some_or]

theorem holds_iff_same : holds observed key value ↔
    ∃ found, observed.get? key = some found ∧ found.same value := by
  unfold holds
  cases observed.get? key <;> simp

theorem finds_redact_iff : Finds (redact desired redacted) (redact observed redacted) key ↔
    (key ∉ redacted → Finds desired observed key) := by
  unfold Finds
  rw [get?_redact, get?_redact]
  by_cases hkey : key ∈ redacted
  · simp [hkey]
  · simp [hkey]

/-- Payloads are the same if and only if each has what the other has. -/
theorem same_iff {p p' : Payload} : Dict.same p p' ↔ ∀ key, Finds p p' key ∧ Finds p' p key := by
  rw [Dict.same, Json.sameFields_iff p.nodup_keys, Json.map_key_eq_iff p.sorted p'.sorted]
  simp only [Dict.mem_keys_iff]
  constructor
  · rintro ⟨hkeys, hvalues⟩ key
    constructor
    · intro value hvalue
      obtain ⟨found, hfound⟩ := (hkeys key).1 ⟨value, hvalue⟩
      exact ⟨found, hfound, Json.same_symm (hvalues key value found hvalue hfound)⟩
    · intro found hfound
      obtain ⟨value, hvalue⟩ := (hkeys key).2 ⟨found, hfound⟩
      exact ⟨value, hvalue, hvalues key value found hvalue hfound⟩
  · intro h
    refine ⟨fun key => ⟨?_, ?_⟩, fun key value value' hvalue hvalue' => ?_⟩
    · rintro ⟨value, hvalue⟩
      exact ((h key).1 value hvalue).imp fun _ => And.left
    · rintro ⟨value, hvalue⟩
      exact ((h key).2 value hvalue).imp fun _ => And.left
    · obtain ⟨found, hfound, hsame⟩ := (h key).2 value' hvalue'
      obtain rfl := Option.some.inj (hvalue.symm.trans hfound)
      exact hsame

theorem isEquivalent_exact_iff : isEquivalent desired observed redacted .exact ↔
    ∀ key, key ∉ redacted → Finds desired observed key ∧ Finds observed desired key := by
  rw [isEquivalent, same_iff]
  simp only [finds_redact_iff, ← imp_and]

theorem isEquivalent_desiredKeys_iff : isEquivalent desired observed redacted .desiredKeys ↔
    ∀ key, key ∉ redacted → Finds desired observed key := by
  simp only [← finds_redact_iff, isEquivalent, List.all_eq_true, holds_iff_same]
  constructor
  · intro h key value hvalue
    exact h (key, value) (Dict.mem_of_lookup hvalue)
  · intro h e he
    exact h e.1 e.2 (Dict.get?_of_mem _ he)

theorem isEquivalent_keys_iff {listed : List String} :
    isEquivalent desired observed redacted (.keys listed) ↔
      ∀ key ∈ listed, key ∉ redacted → Finds desired observed key := by
  simp only [← finds_redact_iff, isEquivalent, List.all_eq_true]
  refine forall_congr' fun key => forall_congr' fun _ => ?_
  unfold Finds
  cases (redact desired redacted).get? key <;> simp [holds_iff_same]

theorem finds_of_isEquivalent (h : isEquivalent desired observed redacted c)
    (hkey : key ∉ redacted) (hcovers : c.Covers key) : Finds desired observed key := by
  cases c with
  | exact => exact (isEquivalent_exact_iff.1 h key hkey).1
  | desiredKeys => exact isEquivalent_desiredKeys_iff.1 h key hkey
  | keys listed => exact isEquivalent_keys_iff.1 h key hcovers hkey

theorem isEquivalent_refl (p : Payload) (redacted : List String) (c : Comparison) :
    isEquivalent p p redacted c := by
  cases c with
  | exact => exact isEquivalent_exact_iff.2 fun key _ => ⟨.refl p key, .refl p key⟩
  | desiredKeys => exact isEquivalent_desiredKeys_iff.2 fun key _ => .refl p key
  | keys listed => exact isEquivalent_keys_iff.2 fun key _ _ => .refl p key

theorem redact_congr {p p' : Payload} (h : AlikeOutside redacted p p') :
    redact p redacted = redact p' redacted := by
  refine Dict.ext_get? fun key => ?_
  rw [get?_redact, get?_redact]
  split
  · rfl
  · next hkey => exact h key (by simpa using hkey)

/-- A smaller comparison follows from a larger one; every payload is equivalent to itself; what is
redacted makes no difference on either side; a value that is missing or other than desired is seen
by every comparison that covers its key; what is put over a payload is found there; and the exact
comparison is an equivalence. Values are compared by their shape, whole numbers apart from
doubles. -/
theorem isEquivalent_laws :
    (∀ (d o : Payload) (r : List String), isEquivalent d o r .exact →
      isEquivalent d o r .desiredKeys) ∧
    (∀ (d o : Payload) (r listed : List String), isEquivalent d o r .desiredKeys →
      isEquivalent d o r (.keys listed)) ∧
    (∀ (p : Payload) (r : List String) (c : Comparison), isEquivalent p p r c) ∧
    (∀ (d d' o o' : Payload) (r : List String) (c : Comparison), AlikeOutside r d d' →
      AlikeOutside r o o' → isEquivalent d o r c = isEquivalent d' o' r c) ∧
    (∀ (d o : Payload) (r : List String) (c : Comparison) (key : String) (value : Json),
      key ∉ r → c.Covers key → d.get? key = some value →
      (o.get? key = none ∨ ∃ found, o.get? key = some found ∧ ¬ found.same value) →
        ¬ isEquivalent d o r c) ∧
    (∀ (d o : Payload) (r : List String) (key : String) (found : Json), key ∉ r →
      d.get? key = none → o.get? key = some found → ¬ isEquivalent d o r .exact) ∧
    (∀ (d base : Payload) (r listed : List String),
      isEquivalent d (d.laidOver base) r .desiredKeys ∧
        isEquivalent d (d.laidOver base) r (.keys listed)) ∧
    (∀ (d o : Payload) (r : List String),
      isEquivalent d o r .exact = isEquivalent o d r .exact) ∧
    (∀ (d o p : Payload) (r : List String), isEquivalent d o r .exact →
      isEquivalent o p r .exact → isEquivalent d p r .exact) ∧
    (∀ a b : Json, a.InOrder → b.InOrder → (a.same b ↔ Json.Alike a b)) ∧
    (∀ (text : String) (j : Json), Json.parse? text = some j → j.InOrder) ∧
    ∀ (i : Int) (x : Double), ¬ (Json.int i).same (.float x) ∧ ¬ (Json.float x).same (.int i) := by
  refine ⟨fun d o r h => ?_, fun d o r listed h => ?_, isEquivalent_refl,
    fun d d' o o' r c hd ho => ?_, fun d o r c key value hkey hcovers hvalue hother h => ?_,
    fun d o r key found hkey hnone hfound h => ?_, fun d base r listed => ⟨?_, ?_⟩,
    fun d o r => ?_, fun d o p r h h' => ?_, fun a b => Json.same_iff_alike,
    fun text j => Json.inOrder_of_parse?, fun i x => ⟨?_, ?_⟩⟩
  · exact isEquivalent_desiredKeys_iff.2 fun key hkey => (isEquivalent_exact_iff.1 h key hkey).1
  · exact isEquivalent_keys_iff.2 fun key _ hkey => isEquivalent_desiredKeys_iff.1 h key hkey
  · cases c <;> simp only [isEquivalent, redact_congr hd, redact_congr ho]
  · obtain ⟨found, hfound, hsame⟩ := finds_of_isEquivalent h hkey hcovers value hvalue
    rcases hother with hnone | ⟨other, hother, hdiffers⟩
    · rw [hnone] at hfound
      cases hfound
    · obtain rfl := Option.some.inj (hother.symm.trans hfound)
      exact hdiffers hsame
  · obtain ⟨value, hvalue, -⟩ := (isEquivalent_exact_iff.1 h key hkey).2 found hfound
    rw [hnone] at hvalue
    cases hvalue
  · exact isEquivalent_desiredKeys_iff.2 fun key _ => finds_laidOver d base key
  · exact isEquivalent_keys_iff.2 fun key _ _ => finds_laidOver d base key
  · rw [Bool.eq_iff_iff, isEquivalent_exact_iff, isEquivalent_exact_iff]
    exact forall_congr' fun key => forall_congr' fun _ => and_comm
  · rw [isEquivalent_exact_iff] at *
    intro key hkey
    exact ⟨(h key hkey).1.trans (h' key hkey).1, (h' key hkey).2.trans (h key hkey).2⟩
  · simp [Json.same]
  · simp [Json.same]

/-- A tuning with an empty text, a whole number and something secret. -/
def declared : Payload :=
  Dict.ofList [("description", .str ""), ("max_lease_ttl", .int 0), ("password", .str "s3cret")]

/-- What is secret is not shown; a field that is missing is not an empty one, and zero as a double
is not zero as a whole number. -/
theorem isEquivalent_laws_declared :
    isEquivalent declared (declared.erase "password") ["password"] .exact ∧
      isEquivalent declared (declared.erase "password") ["password"] .desiredKeys ∧
      isEquivalent declared (declared.erase "password") ["password"] (.keys ["description"]) ∧
      ¬ isEquivalent declared (declared.erase "description") ["password"]
        (.keys ["description"]) ∧
      ¬ isEquivalent declared (declared.insert "max_lease_ttl" (.float .zero)) ["password"]
        .desiredKeys ∧
      ¬ isEquivalent declared (declared.insert "type" (.str "kv")) ["password"] .exact ∧
      isEquivalent (declared.erase "password") declared ["password"] .exact ∧
      ∃ j, Json.parse? "\x7b\"description\": \"\", \"max_lease_ttl\": 0\x7d" = some j ∧
        j.same j := by
  obtain ⟨hdesired, hkeys, hrefl, hredacted, hother, hextra, -, hsymm, htrans, hsame, hread, -⟩ :=
    isEquivalent_laws
  have hsecret : AlikeOutside ["password"] declared (declared.erase "password") := by
    intro key hkey
    rw [Dict.get?_erase, if_neg fun h => hkey (by simp [h])]
  have hexact : isEquivalent declared (declared.erase "password") ["password"] .exact := by
    rw [← hredacted declared declared declared _ ["password"] .exact (fun _ _ => rfl) hsecret]
    exact hrefl declared _ _
  have hback : isEquivalent (declared.erase "password") declared ["password"] .exact := by
    rw [hsymm]
    exact hexact
  have hsome : (Json.parse? "\x7b\"description\": \"\", \"max_lease_ttl\": 0\x7d").isSome := by
    decide +kernel
  obtain ⟨j, hj⟩ := Option.isSome_iff_exists.1 hsome
  have hordered := hread _ _ hj
  refine ⟨htrans _ _ _ _ hexact (hrefl _ _ _), hdesired _ _ _ hexact,
    hkeys _ _ _ _ (hdesired _ _ _ hexact), ?_, ?_, ?_, hback, ?_⟩
  · exact hother _ _ _ _ "description" (.str "") (by decide) (List.mem_singleton.2 rfl) rfl
      (.inl rfl)
  · exact hother _ _ _ _ "max_lease_ttl" (.int 0) (by decide) trivial rfl
      (.inr ⟨.float .zero, rfl, by decide⟩)
  · exact hextra _ _ _ "type" (.str "kv") (by decide) rfl rfl
  · exact ⟨j, hj, (hsame j j hordered hordered).2 ((hsame j j hordered hordered).1 j.same_refl)⟩

end Comparison

end VaultOperator
