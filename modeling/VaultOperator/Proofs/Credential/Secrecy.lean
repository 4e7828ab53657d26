import VaultOperator.Proofs.Credential.Resolution
import VaultOperator.Proofs.Pass.Lockstep
import VaultOperator.Proofs.Resource.Redaction

/-!
# Secrets do not interfere with their look-up

Two worlds may differ in the text at one place (`Place.likeness`). Looking up a credential asks the
same of both and comes to the same identity, as long as the identity is not kept at that very place
(`resolve_inStep`).
-/

namespace VaultOperator

open Credential (StandsFor)

/-- Where a text is kept: under a key of a secret of the cluster, or of what Vault shows. -/
inductive Place where
  | cluster (ns name key : String)
  | vault (path key : String)

namespace Place

def key : Place → String
  | cluster _ _ key => key
  | vault _ key => key

end Place

/-- Two secrets of the cluster that are the same but for a text under one key. -/
structure SecretsAlike (key : String) (data data' : SecretData) : Prop where
  alike : data.AlikeBut key data'
  text : ∃ bytes text, data.get? key = some bytes ∧ Text.decode? bytes = some text
  text' : ∃ bytes text, data'.get? key = some bytes ∧ Text.decode? bytes = some text

/-- Two payloads that show the same but for a text under one key. -/
structure PayloadsAlike (key : String) (p p' : Payload) : Prop where
  alike : (Vault.unwrapKv p).AlikeBut key (Vault.unwrapKv p')
  text : ∃ value text, (Vault.unwrapKv p).get? key = some value ∧ StandsFor value text
  text' : ∃ value text, (Vault.unwrapKv p').get? key = some value ∧ StandsFor value text

/-- Calls that are the same but for the value under one key of what is written. -/
inductive CallsAlike (key : String) : Call → Call → Prop
  | same (c : Call) : CallsAlike key c c
  | write (halike : body.AlikeBut key body') :
    CallsAlike key (.vault (.write session path body)) (.vault (.write session path body'))

/-- Answers that are the same but for the text that is kept at a place. In particular, what is
written makes no difference. -/
inductive AnswersAlike (place : Place) : (c c' : Call) → c.Answer → c'.Answer → Prop
  | same (answer : c.Answer) : AnswersAlike place c c answer answer
  | write (answer : Except Vault.Error (Option Payload)) :
    AnswersAlike place (.vault (.write session path body)) (.vault (.write session path body'))
      answer answer
  | secret (hplace : place = .cluster ns name key) (halike : SecretsAlike key data data') :
    AnswersAlike place (.cluster (.getSecret ns name)) (.cluster (.getSecret ns name))
      (.ok (some data)) (.ok (some data'))
  | shown (hplace : place = .vault path key) (halike : PayloadsAlike key p p') :
    AnswersAlike place (.vault (.read session path)) (.vault (.read session path))
      (.ok (some p)) (.ok (some p'))

/-- The likeness of worlds that differ in the text at a place, which may be written under a key. -/
def Place.likeness (place : Place) (key : String) : Likeness :=
  ⟨CallsAlike key, AnswersAlike place⟩

-- ---------------------------------------------------------------------------
-- Single calls
-- ---------------------------------------------------------------------------

/-- The secret is the same, or differs in the text at the place. -/
def ShowsSecret (place : Place) (ns name : String) (data data' : SecretData) : Prop :=
  data = data' ∨ ∃ key, place = .cluster ns name key ∧ SecretsAlike key data data'

/-- What is shown at a path is the same, or differs in the text at the place. -/
def ShowsPayload (place : Place) (path : String) (p p' : Payload) : Prop :=
  p = p' ∨ ∃ key, place = .vault path key ∧ PayloadsAlike key p p'

theorem EndsAlike.found_refl {R : α → α → Prop} (hR : ∀ a, R a a) (x : Except ε (Option α)) :
    EndsAlike (Option.Rel R) x x := by
  refine .refl (fun found => ?_) x
  cases found with
  | none => exact .none
  | some a => exact .some (hR a)

section
variable {place : Place} {key : String}

open Program (Lockstep)

theorem lockstep_same {c : Call} {R : c.Answer → c.Answer → Prop}
    (hR : ∀ answer answer', AnswersAlike place c c answer answer' → R answer answer') :
    Lockstep (place.likeness key) R (Program.ask c) (Program.ask c) :=
  Program.lockstep_ask (CallsAlike.same c) hR

theorem lockstep_getSecret :
    Lockstep (place.likeness key) (EndsAlike (Option.Rel (ShowsSecret place ns name)))
      (Program.cluster (.getSecret ns name)) (Program.cluster (.getSecret ns name)) := by
  refine lockstep_same (c := .cluster (.getSecret ns name)) fun answer answer' hanswers => ?_
  cases hanswers with
  | same => exact .found_refl (fun _ => .inl rfl) answer
  | secret hplace halike => exact .ok (.some (.inr ⟨_, hplace, halike⟩))

theorem lockstep_read :
    Lockstep (place.likeness key) (EndsAlike (Option.Rel (ShowsPayload place path)))
      (Program.vault (.read session path)) (Program.vault (.read session path)) := by
  refine lockstep_same (c := .vault (.read session path)) fun answer answer' hanswers => ?_
  cases hanswers with
  | same => exact .found_refl (fun _ => .inl rfl) answer
  | shown hplace halike => exact .ok (.some (.inr ⟨_, hplace, halike⟩))

theorem lockstep_getRandomSecret :
    Lockstep (place.likeness key) (EndsAlike (Option.Rel Eq))
      (Program.cluster (.getRandomSecret ns name))
      (Program.cluster (.getRandomSecret ns name)) := by
  refine lockstep_same (c := .cluster (.getRandomSecret ns name)) fun answer answer' hanswers => ?_
  cases hanswers
  exact .found_refl (fun _ => rfl) answer

end

-- ---------------------------------------------------------------------------
-- Texts
-- ---------------------------------------------------------------------------

namespace Credential

/-- The texts are the same but for one key, under which there is one on both sides. -/
def TextsAlike (key : String) (value value' : String → Except Error String) : Prop :=
  ∀ other, value other = value' other ∨
    other = key ∧ ∃ text text', value other = .ok text ∧ value' other = .ok text'

theorem TextsAlike.ends {value value' : String → Except Error String}
    (h : TextsAlike key value value') (other : String) :
    EndsAlike (fun _ _ => True) (value other) (value' other) := by
  rcases h other with heq | ⟨-, text, text', htext, htext'⟩
  · rw [heq]
    exact .refl (fun _ => trivial) _
  · rw [htext, htext']
    exact .ok trivial

theorem TextsAlike.eq {value value' : String → Except Error String}
    (h : TextsAlike key value value') (hother : other ≠ key) : value other = value' other := by
  rcases h other with heq | ⟨rfl, -⟩
  · exact heq
  · exact absurd rfl hother

theorem secretValue_of_text {data : SecretData}
    (h : ∃ bytes text, data.get? key = some bytes ∧ Text.decode? bytes = some text) :
    ∃ text, secretValue data key location = .ok text := by
  obtain ⟨bytes, text, hbytes, htext⟩ := h
  exact ⟨text, by simp only [secretValue, hbytes, htext]⟩

theorem payloadValue_of_text {p : Payload}
    (h : ∃ value text, p.get? key = some value ∧ StandsFor value text) :
    ∃ text, payloadValue p key location = .ok text := by
  obtain ⟨value, text, hvalue, htext⟩ := h
  have hspecified := payloadText_payloadValue p location key
  exact ⟨text, hspecified.unique (.text hvalue htext)⟩

theorem textsAlike_secretValue (h : ShowsSecret place ns name data data') :
    TextsAlike place.key (secretValue data · location) (secretValue data' · location) := by
  intro other
  rcases h with rfl | ⟨key, rfl, halike⟩
  · exact .inl rfl
  · by_cases hother : other = key
    · subst hother
      obtain ⟨text, htext⟩ := secretValue_of_text halike.text
      obtain ⟨text', htext'⟩ := secretValue_of_text halike.text'
      exact .inr ⟨rfl, text, text', htext, htext'⟩
    · exact .inl (by simp only [secretValue, halike.alike.others other hother])

theorem textsAlike_payloadValue (h : ShowsPayload place path p p') :
    TextsAlike place.key (payloadValue (Vault.unwrapKv p) · location)
      (payloadValue (Vault.unwrapKv p') · location) := by
  intro other
  rcases h with rfl | ⟨key, rfl, halike⟩
  · exact .inl rfl
  · by_cases hother : other = key
    · subst hother
      obtain ⟨text, htext⟩ := payloadValue_of_text halike.text
      obtain ⟨text', htext'⟩ := payloadValue_of_text halike.text'
      exact .inr ⟨rfl, text, text', htext, htext'⟩
    · exact .inl (by simp only [payloadValue, halike.alike.others other hother])

/-- Two credentials of one identity. -/
def SameIdentity (c c' : Resolved) : Prop :=
  c.identity = c'.identity

theorem pair_alike {value value' : String → Except Error String}
    (h : TextsAlike key value value') (hidentity : identity?.isSome ∨ usernameKey ≠ key) :
    EndsAlike SameIdentity (pair identity? value usernameKey passwordKey)
      (pair identity? value' usernameKey passwordKey) := by
  unfold pair
  generalize hsecret : value passwordKey = secret
  generalize hsecret' : value' passwordKey = secret'
  have hends := h.ends passwordKey
  rw [hsecret, hsecret'] at hends
  cases hends with
  | error e => exact .error e
  | ok =>
    cases identity? with
    | some identity => exact .ok rfl
    | none =>
      have hother : usernameKey ≠ key := by simpa using hidentity
      rw [h.eq hother]
      cases value' usernameKey with
      | error e => exact .error e
      | ok identity => exact .ok rfl

-- ---------------------------------------------------------------------------
-- Looking up
-- ---------------------------------------------------------------------------

section
variable {L : Likeness}

theorem Lookup.inStep_attempt {R : α → α → Prop} {p q : Program (Except ε α)}
    (h : p.Lockstep L (EndsAlike R) q) : InStep L R (attempt wrap p) (attempt wrap q) :=
  HandsOn.inStep ⟨fun _ => rfl, fun e => ⟨wrap e, rfl⟩⟩ h

theorem Lookup.inStep_orFail {R : α → β → Prop} {value : Option α} {value' : Option β}
    (h : Option.Rel R value value') : InStep L R (orFail value e) (orFail value' e) := by
  cases h with
  | none => exact inStep_throw
  | some hR => exact inStep_pure hR

theorem inStep_require {R : α → α → Prop} {p q : Program (Except ε (Option α))}
    (h : p.Lockstep L (EndsAlike (Option.Rel R)) q) :
    InStep L R (require wrap what p) (require wrap what q) :=
  (Lookup.inStep_attempt h).bind fun _ _ => Lookup.inStep_orFail

end

section
variable {place : Place} {r : Reference}

theorem lookUp_inStep {source : Source}
    (hidentity : identity?.isSome ∨ r.usernameKey.getD defaults.usernameKey ≠ place.key) :
    InStep (place.likeness key) SameIdentity (lookUp ns session r identity? defaults source)
      (lookUp ns session r identity? defaults source) := by
  cases source with
  | localSecret name =>
    rw [lookUp_localSecret]
    refine (inStep_require lockstep_getSecret).bind fun data data' hdata => ?_
    exact inStep_done (pair_alike (textsAlike_secretValue hdata) hidentity)
  | remoteSecret path =>
    rw [lookUp_remoteSecret]
    refine (inStep_require lockstep_read).bind fun p p' hshown => ?_
    exact inStep_done (pair_alike (textsAlike_payloadValue hshown) hidentity)
  | generatedSecret name =>
    rw [lookUp_generatedSecret]
    refine (inStep_require lockstep_getRandomSecret).bind fun random _ hrandom => ?_
    subst hrandom
    cases identity? with
    | none => exact inStep_throw
    | some identity =>
      refine InStep.bind (R := fun a b => a = identity ∧ b = identity) (inStep_pure ⟨rfl, rfl⟩) ?_
      rintro _ _ ⟨rfl, rfl⟩
      refine InStep.map (R := fun _ _ => True) ?_ fun _ _ _ => rfl
      refine (inStep_require lockstep_read).bind fun p p' hshown => ?_
      exact inStep_done ((textsAlike_payloadValue hshown).ends _)

/-- The identity of a credential is not kept at the place. -/
def IdentityApart (identity? : Option String) (usernameKey : String) (place : Place) : Prop :=
  (∃ identity, Overrides identity? identity) ∨ usernameKey ≠ place.key

theorem resolve_inStep
    (hidentity : IdentityApart identity? (r.usernameKey.getD defaults.usernameKey) place) :
    InStep (place.likeness key) (Option.Rel SameIdentity)
      (resolve ns session r identity? defaults) (resolve ns session r identity? defaults) := by
  generalize hsource : Source.ofReference r = declared
  rcases declared with e | source?
  · rw [resolve_several hsource]
    exact inStep_throw
  cases source? with
  | none =>
    rw [resolve_nothing hsource]
    split
    · exact inStep_pure .none
    · exact inStep_throw
  | some source =>
    rw [resolve_one hsource]
    have hgiven : (given? identity?).isSome ∨
        r.usernameKey.getD defaults.usernameKey ≠ place.key := by
      refine hidentity.imp_left fun ⟨identity, hoverrides⟩ => ?_
      rw [given?_eq_some.2 hoverrides]
      rfl
    refine (lookUp_inStep hgiven).bind fun resolved resolved' hsame => ?_
    exact (inStep_lift Program.lockstep_tally).bind fun _ _ _ => inStep_pure (.some hsame)

end

end Credential

end VaultOperator
