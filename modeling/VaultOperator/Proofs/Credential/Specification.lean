import VaultOperator.Credential.Resolver
import VaultOperator.Proofs.Vault.Versions

/-!
# What a reference should resolve to

The credential of a reference is specified by what is asked and what comes of it (`Resolves`), stage
by stage: the source that is named, the object it is found in, the text under a key, and the
identity beside it. What is specified is one thing for each reference and all answers
(`Resolves.unique`).
-/

namespace VaultOperator.Credential

/-- What the cluster and Vault answer, also where they fail. -/
structure Answers where
  secret : String → String → Except StoreError (Option SecretData)
  randomSecret : String → String → Except StoreError (Option RandomSecret)
  vault : String → Except Vault.Error (Option Payload)

def Answers.Gives (w : Answers) : Event → Prop
  | .call (.cluster (.getSecret ns name)) answer => answer = w.secret ns name
  | .call (.cluster (.getRandomSecret ns name)) answer => answer = w.randomSecret ns name
  | .call (.vault (.read _ path)) answer => answer = w.vault path
  | _ => True

-- ---------------------------------------------------------------------------
-- The source
-- ---------------------------------------------------------------------------

namespace Reference

/-- The fields for sources, in the order of declaration. -/
def sourceFields (r : Reference) : List (String × Option String) :=
  [("secret", r.secret), ("vaultSecret", r.vaultSecret), ("randomSecret", r.randomSecret)]

def declared (r : Reference) : List String :=
  (r.sourceFields.filter (·.2.isSome)).map (·.1)

def NamesOnly (r : Reference) : Source → Prop
  | .localSecret name => r.secret = some name ∧ r.vaultSecret = none ∧ r.randomSecret = none
  | .remoteSecret path => r.secret = none ∧ r.vaultSecret = some path ∧ r.randomSecret = none
  | .generatedSecret name => r.secret = none ∧ r.vaultSecret = none ∧ r.randomSecret = some name

end Reference

-- ---------------------------------------------------------------------------
-- The object, the text and the identity
-- ---------------------------------------------------------------------------

/-- What comes of an answer: there is an object, there is none, or the answer is an error. -/
inductive Found (wrap : ε → Error) (what : String) :
    Except ε (Option α) → Except Error α → Prop
  | failed (e : ε) : Found wrap what (.error e) (.error (wrap e))
  | absent : Found wrap what (.ok none) (.error (.notFound what))
  | found (a : α) : Found wrap what (.ok (some a)) (.ok a)

/-- An error is passed on, and something comes of what was found. -/
inductive Onward (R : α → Except Error β → Prop) : Except Error α → Except Error β → Prop
  | error (e : Error) : Onward R (.error e) (.error e)
  | ok (h : R a x) : Onward R (.ok a) x

/-- The text under a key of a secret of the cluster. -/
inductive SecretText (data : SecretData) (location key : String) : Except Error String → Prop
  | text (hbytes : data.get? key = some bytes) (htext : Text.decode? bytes = some text) :
    SecretText data location key (.ok text)
  | garbled (hbytes : data.get? key = some bytes) (htext : Text.decode? bytes = none) :
    SecretText data location key (.error (.invalidEncoding key location))
  | missing (hbytes : data.get? key = none) :
    SecretText data location key (.error (.keyNotFound key location))

/-- The text that a value stands for. Objects, lists and nothing at all stand for none. -/
inductive StandsFor : Json → String → Prop
  | str (s : String) : StandsFor (.str s) s
  | int (i : Int) : StandsFor (.int i) (toString i)
  | float (x : Double) : StandsFor (.float x) x.text
  | bool (b : Bool) : StandsFor (.bool b) (if b then "true" else "false")

/-- The text under a key of a payload. -/
inductive PayloadText (p : Payload) (location key : String) : Except Error String → Prop
  | text (hvalue : p.get? key = some value) (htext : StandsFor value text) :
    PayloadText p location key (.ok text)
  | missing (hvalue : ∀ value, p.get? key = some value → ∀ text, ¬ StandsFor value text) :
    PayloadText p location key (.error (.keyNotFound key location))

/-- The text under a key of a secret that Vault shows. -/
def ShownText (shown : Payload) (location key : String) (x : Except Error String) : Prop :=
  ∃ values, Vault.Unwraps shown values ∧ PayloadText values location key x

/-- An identity that is given beside a reference. An empty one counts as none. -/
def Overrides (identity? : Option String) (identity : String) : Prop :=
  identity? = some identity ∧ identity ≠ ""

/-- A secret and its identity, if there is a text for both. -/
inductive Paired (identity? : Option String) (Text : String → Except Error String → Prop)
    (usernameKey passwordKey : String) : Except Error Resolved → Prop
  | given (hsecret : Text passwordKey (.ok secret)) (hidentity : Overrides identity? identity) :
    Paired identity? Text usernameKey passwordKey (.ok ⟨identity, secret⟩)
  | stored (hsecret : Text passwordKey (.ok secret))
    (hnone : ∀ identity, ¬ Overrides identity? identity)
    (hidentity : Text usernameKey (.ok identity)) :
    Paired identity? Text usernameKey passwordKey (.ok ⟨identity, secret⟩)
  | nameless (hsecret : Text passwordKey (.ok secret))
    (hnone : ∀ identity, ¬ Overrides identity? identity)
    (hidentity : Text usernameKey (.error e)) :
    Paired identity? Text usernameKey passwordKey (.error e)
  | secretless (hsecret : Text passwordKey (.error e)) :
    Paired identity? Text usernameKey passwordKey (.error e)

-- ---------------------------------------------------------------------------
-- Looking up
-- ---------------------------------------------------------------------------

section
variable (w : Answers) (ns : String) (session : Vault.Session) (r : Reference)
  (identity? : Option String) (defaults : Defaults)

/-- What is asked for the secret of a source, and what comes of it. -/
inductive LooksUp : Source → List Call → Except Error Resolved → Prop
  | localSecret
    (hfound : Found .store ("secret " ++ ns ++ "/" ++ name) (w.secret ns name) found)
    (hread : Onward (fun data => Paired identity?
      (SecretText data ("secret " ++ ns ++ "/" ++ name)) (r.usernameKey.getD defaults.usernameKey)
      (r.passwordKey.getD defaults.passwordKey)) found x) :
    LooksUp (.localSecret name) [.cluster (.getSecret ns name)] x
  | remoteSecret
    (hfound : Found .vault ("vault path " ++ path) (w.vault path) found)
    (hread : Onward (fun shown => Paired identity? (ShownText shown ("vault path " ++ path))
      (r.usernameKey.getD defaults.usernameKey)
      (r.passwordKey.getD defaults.passwordKey)) found x) :
    LooksUp (.remoteSecret path) [.vault (.read session path)] x
  | undeclared
    (hfound : Found .store ("RandomSecret " ++ ns ++ "/" ++ name) (w.randomSecret ns name)
      (.error e)) :
    LooksUp (.generatedSecret name) [.cluster (.getRandomSecret ns name)] (.error e)
  /-- A generated secret has no identity of its own, and without one Vault is not asked. -/
  | nameless
    (hfound : Found .store ("RandomSecret " ++ ns ++ "/" ++ name) (w.randomSecret ns name)
      (.ok random))
    (hnone : ∀ identity, ¬ Overrides identity? identity) :
    LooksUp (.generatedSecret name) [.cluster (.getRandomSecret ns name)]
      (.error (.missingIdentity ("RandomSecret " ++ ns ++ "/" ++ name)))
  | generatedSecret
    (hfound : Found .store ("RandomSecret " ++ ns ++ "/" ++ name) (w.randomSecret ns name)
      (.ok random))
    (hidentity : Overrides identity? identity)
    (hvalue : Found .vault ("vault path " ++ random.readPath) (w.vault random.readPath) found)
    (hread : Onward (fun shown => ShownText shown ("vault path " ++ random.readPath)
      (r.passwordKey.getD random.spec.secretKey)) found x) :
    LooksUp (.generatedSecret name)
      [.cluster (.getRandomSecret ns name), .vault (.read session random.readPath)]
      (x.map fun secret => ⟨identity, secret⟩)

/-- What is asked for the credential of a reference, and what comes of it. -/
inductive Resolves : List Call → Except Error (Option Resolved) → Prop
  | ambiguous (hdeclared : 2 ≤ r.declared.length) : Resolves [] (.error (.ambiguous r.declared))
  | implicit (hdeclared : r.declared = []) (himplicit : defaults.implicit) : Resolves [] (.ok none)
  | unset (hdeclared : r.declared = []) (himplicit : ¬ defaults.implicit) :
    Resolves [] (.error .noSource)
  | named (hdeclared : r.NamesOnly source)
    (hlooks : LooksUp w ns session r identity? defaults source calls x) :
    Resolves calls (x.map some)

end

-- ---------------------------------------------------------------------------
-- What is specified is one thing
-- ---------------------------------------------------------------------------

theorem Found.unique {answer : Except ε (Option α)} (h : Found wrap what answer x)
    (h' : Found wrap what answer x') : x = x' := by
  cases h <;> cases h' <;> rfl

theorem Onward.unique {R : α → Except Error β → Prop} (h : Onward R found x)
    (hunique : ∀ a x x', R a x → R a x' → x = x') (h' : Onward R found x') : x = x' := by
  cases h with
  | error => cases h'; rfl
  | ok hx =>
    cases h' with
    | ok hx' => exact hunique _ _ _ hx hx'

theorem SecretText.unique {data : SecretData} (h : SecretText data location key x)
    (h' : SecretText data location key x') : x = x' := by
  cases h <;> cases h' <;> simp_all

theorem StandsFor.unique (h : StandsFor value text) (h' : StandsFor value text') :
    text = text' := by
  cases h <;> cases h' <;> rfl

theorem PayloadText.unique {p : Payload} (h : PayloadText p location key x)
    (h' : PayloadText p location key x') : x = x' := by
  cases h with
  | text hvalue htext =>
    cases h' with
    | text hvalue' htext' =>
      obtain rfl := Option.some.inj (hvalue.symm.trans hvalue')
      rw [htext.unique htext']
    | missing hmissing => exact absurd htext (hmissing _ hvalue _)
  | missing hmissing =>
    cases h' with
    | text hvalue htext => exact absurd htext (hmissing _ hvalue _)
    | missing => rfl

theorem ShownText.unique {shown : Payload} (h : ShownText shown location key x)
    (h' : ShownText shown location key x') : x = x' := by
  obtain ⟨values, hunwraps, htext⟩ := h
  obtain ⟨values', hunwraps', htext'⟩ := h'
  obtain rfl := hunwraps.unique hunwraps'
  exact htext.unique htext'

theorem Overrides.unique (h : Overrides identity? identity) (h' : Overrides identity? identity') :
    identity = identity' :=
  Option.some.inj (h.1.symm.trans h'.1)

theorem Paired.unique {Text : String → Except Error String → Prop}
    (hunique : ∀ key x x', Text key x → Text key x' → x = x')
    (h : Paired identity? Text usernameKey passwordKey x)
    (h' : Paired identity? Text usernameKey passwordKey x') : x = x' := by
  cases h with
  | given hsecret hidentity =>
    cases h' with
    | given hsecret' hidentity' =>
      cases hunique _ _ _ hsecret hsecret'
      rw [hidentity.unique hidentity']
    | stored _ hnone | nameless _ hnone => exact absurd hidentity (hnone _)
    | secretless herror => cases hunique _ _ _ hsecret herror
  | stored hsecret hnone hidentity =>
    cases h' with
    | given _ hidentity' => exact absurd hidentity' (hnone _)
    | stored hsecret' _ hidentity' =>
      cases hunique _ _ _ hsecret hsecret'
      cases hunique _ _ _ hidentity hidentity'
      rfl
    | nameless _ _ herror => cases hunique _ _ _ hidentity herror
    | secretless herror => cases hunique _ _ _ hsecret herror
  | nameless hsecret hnone herror =>
    cases h' with
    | given _ hidentity => exact absurd hidentity (hnone _)
    | stored _ _ hidentity => cases hunique _ _ _ hidentity herror
    | nameless _ _ herror' =>
      cases hunique _ _ _ herror herror'
      rfl
    | secretless herror' => cases hunique _ _ _ hsecret herror'
  | secretless herror =>
    cases h' with
    | given hsecret | stored hsecret | nameless hsecret => cases hunique _ _ _ hsecret herror
    | secretless herror' =>
      cases hunique _ _ _ herror herror'
      rfl

section
variable {w w' : Answers} {r : Reference} {source source' : Source}

theorem LooksUp.unique (h : LooksUp w ns session r identity? defaults source calls x)
    (h' : LooksUp w ns session r identity? defaults source calls' x') :
    calls = calls' ∧ x = x' := by
  cases h with
  | localSecret hfound hread =>
    obtain ⟨hfound', hread'⟩ := h'
    cases hfound.unique hfound'
    exact ⟨rfl, hread.unique (fun _ _ _ => Paired.unique fun _ _ _ => SecretText.unique) hread'⟩
  | remoteSecret hfound hread =>
    obtain _ | ⟨hfound', hread'⟩ := h'
    cases hfound.unique hfound'
    exact ⟨rfl, hread.unique (fun _ _ _ => Paired.unique fun _ _ _ => ShownText.unique) hread'⟩
  | undeclared hfound =>
    cases h' with
    | undeclared hfound' =>
      cases hfound.unique hfound'
      exact ⟨rfl, rfl⟩
    | nameless hfound' | generatedSecret hfound' => cases hfound.unique hfound'
  | nameless hfound hnone =>
    cases h' with
    | undeclared hfound' => cases hfound.unique hfound'
    | nameless => exact ⟨rfl, rfl⟩
    | generatedSecret _ hidentity => exact absurd hidentity (hnone _)
  | generatedSecret hfound hidentity hvalue hread =>
    cases h' with
    | undeclared hfound' => cases hfound.unique hfound'
    | nameless _ hnone => exact absurd hidentity (hnone _)
    | generatedSecret hfound' hidentity' hvalue' hread' =>
      cases hfound.unique hfound'
      cases hvalue.unique hvalue'
      cases hidentity.unique hidentity'
      rw [hread.unique (fun _ _ _ => ShownText.unique) hread']
      exact ⟨rfl, rfl⟩

theorem Reference.NamesOnly.declared_length (h : r.NamesOnly source) : r.declared.length = 1 := by
  cases source with
  | localSecret | remoteSecret | generatedSecret =>
    obtain ⟨hsecret, hvault, hrandom⟩ := h
    simp [Reference.declared, Reference.sourceFields, hsecret, hvault, hrandom]

theorem Reference.NamesOnly.unique (h : r.NamesOnly source) (h' : r.NamesOnly source') :
    source = source' := by
  cases source <;> cases source' <;> simp_all [Reference.NamesOnly]

theorem Resolves.unique (h : Resolves w ns session r identity? defaults calls x)
    (h' : Resolves w ns session r identity? defaults calls' x') : calls = calls' ∧ x = x' := by
  cases h with
  | ambiguous hdeclared =>
    cases h' with
    | ambiguous => exact ⟨rfl, rfl⟩
    | implicit hnone | unset hnone => simp [hnone] at hdeclared
    | named hone => simp [hone.declared_length] at hdeclared
  | implicit hnone himplicit =>
    cases h' with
    | ambiguous hdeclared => simp [hnone] at hdeclared
    | implicit => exact ⟨rfl, rfl⟩
    | unset _ hrequired => exact absurd himplicit hrequired
    | named hone => exact absurd hone.declared_length (by simp [hnone])
  | unset hnone hrequired =>
    cases h' with
    | ambiguous hdeclared => simp [hnone] at hdeclared
    | implicit _ himplicit => exact absurd himplicit hrequired
    | unset => exact ⟨rfl, rfl⟩
    | named hone => exact absurd hone.declared_length (by simp [hnone])
  | named hone hlooks =>
    have hlength := hone.declared_length
    cases h' with
    | ambiguous hdeclared => simp [hlength] at hdeclared
    | implicit hnone | unset hnone => simp [hnone] at hlength
    | named hone' hlooks' =>
      cases hone.unique hone'
      obtain ⟨rfl, rfl⟩ := hlooks.unique hlooks'
      exact ⟨rfl, rfl⟩

end

end VaultOperator.Credential
