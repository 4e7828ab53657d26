import VaultOperator.Proofs.Credential.Lookup
import VaultOperator.Proofs.Credential.Specification
import VaultOperator.Proofs.Pass.Determined

/-!
# What a reference resolves to

Looking a credential up comes to what is specified and asks for no more (`resolve_ends`). Nothing
but the named source makes a difference to it, whatever else there is in the cluster and in Vault
(`resolve_as_specified`).
-/

namespace VaultOperator.Credential

/-- What a reference declares, and the source that is made of it. -/
inductive Declares (r : Reference) : Except Error (Option Source) → Prop
  | nothing (h : r.declared = []) : Declares r (.ok none)
  | one (h : r.NamesOnly source) : Declares r (.ok (some source))
  | several (h : 2 ≤ r.declared.length) : Declares r (.error (.ambiguous r.declared))

theorem declares_ofReference (r : Reference) : Declares r (Source.ofReference r) := by
  obtain ⟨secret, vaultSecret, randomSecret, usernameKey, passwordKey⟩ := r
  -- the source is there to see in each case, so that only the count of fields is left
  rcases secret with _ | name <;> rcases vaultSecret with _ | path <;>
    rcases randomSecret with _ | random
  · exact .nothing rfl
  · exact .one (show Reference.NamesOnly _ (.generatedSecret random) from ⟨rfl, rfl, rfl⟩)
  · exact .one (show Reference.NamesOnly _ (.remoteSecret path) from ⟨rfl, rfl, rfl⟩)
  · exact .several (by simp [Reference.declared, Reference.sourceFields])
  · exact .one (show Reference.NamesOnly _ (.localSecret name) from ⟨rfl, rfl, rfl⟩)
  all_goals exact .several (by simp [Reference.declared, Reference.sourceFields])

theorem secretText_secretValue (data : SecretData) (location key : String) :
    SecretText data location key (secretValue data key location) := by
  unfold secretValue
  split
  · next hbytes => exact .missing hbytes
  · next bytes hbytes =>
    split
    · next text htext => exact .text hbytes htext
    · next htext => exact .garbled hbytes htext

theorem payloadText_payloadValue (p : Payload) (location key : String) :
    PayloadText p location key (payloadValue p key location) := by
  unfold payloadValue
  split
  · next s hvalue => exact .text hvalue (.str s)
  · next i hvalue => exact .text hvalue (.int i)
  · next x hvalue => exact .text hvalue (.float x)
  · next b hvalue => exact .text hvalue (.bool b)
  · next hstr hint hfloat hbool =>
    refine .missing fun value hvalue text htext => ?_
    cases htext with
    | str => exact hstr _ hvalue
    | int => exact hint _ hvalue
    | float => exact hfloat _ hvalue
    | bool => exact hbool _ hvalue

theorem shownText_payloadValue (shown : Payload) (location key : String) :
    ShownText shown location key (payloadValue (Vault.unwrapKv shown) key location) :=
  ⟨_, Vault.unwraps_unwrapKv shown, payloadText_payloadValue _ location key⟩

/-- The identity that is used in place of a stored one. -/
def given? (identity? : Option String) : Option String :=
  identity?.filter fun identity => !identity.isEmpty

theorem given?_eq_some : given? identity? = some identity ↔ Overrides identity? identity := by
  simp [given?, Overrides, Option.filter_eq_some_iff]

theorem not_overrides (h : given? identity? = none) (identity : String) :
    ¬ Overrides identity? identity := by
  rw [← given?_eq_some, h]
  exact nofun

theorem paired_pair {Text : String → Except Error String → Prop}
    {value : String → Except Error String} (hvalue : ∀ key, Text key (value key)) :
    Paired identity? Text usernameKey passwordKey
      (pair (given? identity?) value usernameKey passwordKey) := by
  have hsecret := hvalue passwordKey
  have hidentity := hvalue usernameKey
  unfold pair
  cases hpassword : value passwordKey with
  | error e =>
    rw [hpassword] at hsecret
    exact .secretless hsecret
  | ok secret =>
    rw [hpassword] at hsecret
    cases hgiven : given? identity? with
    | some identity => exact .given hsecret (given?_eq_some.1 hgiven)
    | none =>
      cases husername : value usernameKey with
      | error e =>
        rw [husername] at hidentity
        exact .nameless hsecret (not_overrides hgiven) hidentity
      | ok identity =>
        rw [husername] at hidentity
        exact .stored hsecret (not_overrides hgiven) hidentity

section
variable {w : Answers} {r : Reference}

theorem Lookup.ends_attempt {p : Program (Except ε α)} :
    Ends (attempt wrap p) es x ↔
      ∃ answer, Program.Exec p es (some answer) ∧ x = answer.mapError wrap := by
  refine Program.exec_bind.trans ⟨?_, ?_⟩
  · rintro (⟨a | a, es₁, _, h, hdone, rfl⟩ | ⟨_, ⟨⟩⟩) <;>
      obtain ⟨rfl, ⟨⟩⟩ := Program.exec_done.1 hdone <;>
      exact ⟨_, by rwa [List.append_nil], rfl⟩
  · rintro ⟨a | a, h, rfl⟩ <;>
      exact .inl ⟨_, es, [], h, .done, by simp⟩

theorem Lookup.ends_orFail :
    Ends (orFail value e) es x ↔ es = [] ∧ x = value.elim (.error e) .ok := by
  cases value <;> simp [orFail]

/-- Asks for an object that has to be there. -/
def require (wrap : ε → Error) (what : String) (p : Program (Except ε (Option α))) :
    Lookup α := do
  Lookup.orFail (← Lookup.attempt wrap p) (.notFound what)

section
variable {p : Program (Except ε (Option α))} {event : Except ε (Option α) → Event}
  (hp : ∀ es x, Program.Exec p es x ↔ ∃ answer, es = [event answer] ∧ x = some answer)

include hp

theorem require_ends (h : Ends (require wrap what p) es x) :
    ∃ answer, es = [event answer] ∧ Found wrap what answer x := by
  rcases ends_bind.1 h with ⟨found, es₁, es₂, hasked, hfound, rfl⟩ | ⟨e, hasked, rfl⟩
  · obtain ⟨answer, hexec, hanswer⟩ := Lookup.ends_attempt.1 hasked
    obtain ⟨_, rfl, ⟨⟩⟩ := (hp _ _).1 hexec
    obtain rfl := ok_eq_mapError.1 hanswer
    obtain ⟨rfl, rfl⟩ := Lookup.ends_orFail.1 hfound
    refine ⟨_, rfl, ?_⟩
    cases found with
    | none => exact .absent
    | some a => exact .found a
  · obtain ⟨answer, hexec, hanswer⟩ := Lookup.ends_attempt.1 hasked
    obtain ⟨_, rfl, ⟨⟩⟩ := (hp _ _).1 hexec
    obtain ⟨cause, rfl, rfl⟩ := error_eq_mapError.1 hanswer
    exact ⟨_, rfl, .failed cause⟩

/-- What comes of an object needs no more questions. -/
theorem require_bind_ends {value : α → Except Error β} {R : α → Except Error β → Prop}
    (hR : ∀ a, R a (value a))
    (h : Ends (require wrap what p >>= fun a => ExceptT.mk (.done (value a))) es x) :
    ∃ answer found, es = [event answer] ∧ Found wrap what answer found ∧ Onward R found x := by
  rcases ends_bind.1 h with ⟨a, es₁, es₂, hrequire, hdone, rfl⟩ | ⟨e, hrequire, rfl⟩ <;>
    obtain ⟨answer, rfl, hfound⟩ := require_ends hp hrequire
  · obtain ⟨rfl, ⟨⟩⟩ := Program.exec_done.1 hdone
    exact ⟨answer, _, rfl, hfound, .ok (hR a)⟩
  · exact ⟨answer, _, rfl, hfound, .error e⟩

end

theorem lookUp_localSecret : lookUp ns session r identity? defaults (.localSecret name) = (do
    let location := "secret " ++ ns ++ "/" ++ name
    let data ← require .store location (.cluster (.getSecret ns name))
    ExceptT.mk (.done (pair identity? (secretValue data · location)
      (r.usernameKey.getD defaults.usernameKey) (r.passwordKey.getD defaults.passwordKey)))) := by
  simp only [lookUp, require, bind_assoc]

theorem lookUp_remoteSecret : lookUp ns session r identity? defaults (.remoteSecret path) = (do
    let location := "vault path " ++ path
    let payload ← require .vault location (.vault (.read session path))
    ExceptT.mk (.done (pair identity? (payloadValue (Vault.unwrapKv payload) · location)
      (r.usernameKey.getD defaults.usernameKey) (r.passwordKey.getD defaults.passwordKey)))) := by
  simp only [lookUp, readSecret, require, bind_assoc, bind_map_left]

/-- The text of a generated secret. -/
def readGenerated (session : Vault.Session) (r : Reference) (random : RandomSecret) :
    Lookup String := do
  let location := "vault path " ++ random.readPath
  let payload ← require .vault location (.vault (.read session random.readPath))
  ExceptT.mk (.done (payloadValue (Vault.unwrapKv payload)
    (r.passwordKey.getD random.spec.secretKey) location))

theorem lookUp_generatedSecret :
    lookUp ns session r identity? defaults (.generatedSecret name) = (do
      let owner := "RandomSecret " ++ ns ++ "/" ++ name
      let random ← require .store owner (.cluster (.getRandomSecret ns name))
      let identity ← Lookup.orFail identity? (.missingIdentity owner)
      (fun secret => ⟨identity, secret⟩) <$> readGenerated session r random) := by
  simp only [lookUp, readSecret, readGenerated, require, bind_assoc, map_eq_pure_bind, pure_bind]

theorem lookUp_ends {source : Source}
    (h : Ends (lookUp ns session r (given? identity?) defaults source) es x)
    (hes : ∀ e ∈ es, w.Gives e) :
    LooksUp w ns session r identity? defaults source (asked es) x := by
  cases source with
  | localSecret name =>
    rw [lookUp_localSecret] at h
    obtain ⟨answer, found, rfl, hfound, hread⟩ := require_bind_ends
      (fun _ _ => Program.exec_cluster)
      (fun data => paired_pair fun key => secretText_secretValue data _ key) h
    obtain rfl : answer = w.secret ns name := hes _ List.mem_cons_self
    exact .localSecret hfound hread
  | remoteSecret path =>
    rw [lookUp_remoteSecret] at h
    obtain ⟨answer, found, rfl, hfound, hread⟩ := require_bind_ends
      (fun _ _ => Program.exec_vault)
      (fun shown => paired_pair fun key => shownText_payloadValue shown _ key) h
    obtain rfl : answer = w.vault path := hes _ List.mem_cons_self
    exact .remoteSecret hfound hread
  | generatedSecret name =>
    rw [lookUp_generatedSecret] at h
    rcases ends_bind.1 h with ⟨random, es₁, es₂, hrandom, hrest, rfl⟩ | ⟨e, hrandom, rfl⟩ <;>
      obtain ⟨answer, rfl, hfound⟩ := require_ends (fun _ _ => Program.exec_cluster) hrandom <;>
      obtain rfl : answer = w.randomSecret ns name := hes _ List.mem_cons_self
    · cases hgiven : given? identity? with
      | none =>
        rw [hgiven] at hrest
        obtain ⟨rfl, rfl⟩ := ends_throw_bind.1 hrest
        exact .nameless hfound (not_overrides hgiven)
      | some identity =>
        rw [hgiven] at hrest
        obtain ⟨x', hvalue, rfl⟩ := ends_map.1 hrest
        obtain ⟨answer, found, rfl, hvalue, hread⟩ := require_bind_ends
          (fun _ _ => Program.exec_vault) (fun shown => shownText_payloadValue shown _ _) hvalue
        obtain rfl : answer = w.vault random.readPath :=
          hes _ (List.mem_append_right _ List.mem_cons_self)
        exact .generatedSecret hfound (given?_eq_some.1 hgiven) hvalue hread
    · exact .undeclared hfound

theorem resolve_several (h : Source.ofReference r = .error e) :
    resolve ns session r identity? defaults = throw e := by
  unfold resolve
  rw [h]
  rfl

theorem resolve_nothing (h : Source.ofReference r = .ok none) :
    resolve ns session r identity? defaults =
      if defaults.implicit then pure none else throw .noSource := by
  unfold resolve
  rw [h]
  rfl

theorem resolve_one (h : Source.ofReference r = .ok (some source)) :
    resolve ns session r identity? defaults = (do
      let resolved ← lookUp ns session r (given? identity?) defaults source
      ExceptT.lift (Program.tally (.credentialResolution source.label))
      return some resolved) := by
  unfold resolve
  rw [h]
  rfl

theorem resolve_ends (h : Ends (resolve ns session r identity? defaults) es x)
    (hes : ∀ e ∈ es, w.Gives e) : Resolves w ns session r identity? defaults (asked es) x := by
  have hdeclares := declares_ofReference r
  generalize hsource : Source.ofReference r = declared at hdeclares
  cases hdeclares with
  | several hdeclared =>
    rw [resolve_several hsource] at h
    obtain ⟨rfl, rfl⟩ := ends_throw.1 h
    exact .ambiguous hdeclared
  | nothing hdeclared =>
    rw [resolve_nothing hsource] at h
    split at h
    · next himplicit =>
      obtain ⟨rfl, rfl⟩ := ends_pure.1 h
      exact .implicit hdeclared himplicit
    · next himplicit =>
      obtain ⟨rfl, rfl⟩ := ends_throw.1 h
      exact .unset hdeclared himplicit
  | one hdeclared =>
    rw [resolve_one hsource] at h
    rcases ends_bind.1 h with ⟨resolved, es₁, es₂, hlookUp, hrest, rfl⟩ | ⟨e, hlookUp, rfl⟩
    · obtain ⟨hes₁, -⟩ := List.forall_mem_append.1 hes
      obtain ⟨_, rfl, hdone⟩ := Program.exec_count.1 hrest
      obtain ⟨rfl, ⟨⟩⟩ := Program.exec_done.1 hdone
      rw [asked_append, asked_cons_count, asked_nil, List.append_nil]
      exact .named (x := .ok resolved) hdeclared (lookUp_ends hlookUp hes₁)
    · exact .named (x := .error e) hdeclared (lookUp_ends hlookUp hes)

end

-- ---------------------------------------------------------------------------
-- Nothing but the named source matters
-- ---------------------------------------------------------------------------

section
variable {w w' : Answers} {r : Reference} {source : Source}

/-- What is there for a source is the same. -/
def Answers.AgreesOn (w w' : Answers) (ns : String) : Source → Prop
  | .localSecret name => w.secret ns name = w'.secret ns name
  | .remoteSecret path => w.vault path = w'.vault path
  | .generatedSecret name => w.randomSecret ns name = w'.randomSecret ns name ∧
    ∀ random, w.randomSecret ns name = .ok (some random) →
      w.vault random.readPath = w'.vault random.readPath

theorem Answers.AgreesOn.refl : w.AgreesOn w ns source := by
  cases source with
  | localSecret | remoteSecret => rfl
  | generatedSecret => exact ⟨rfl, fun _ _ => rfl⟩

/-- What may be asked for the secret of a source. -/
inductive Concerns (w : Answers) (ns : String) (session : Vault.Session) : Source → Call → Prop
  | secret : Concerns w ns session (.localSecret name) (.cluster (.getSecret ns name))
  | path : Concerns w ns session (.remoteSecret path) (.vault (.read session path))
  | randomSecret :
    Concerns w ns session (.generatedSecret name) (.cluster (.getRandomSecret ns name))
  | value (hrandom : w.randomSecret ns name = .ok (some random)) :
    Concerns w ns session (.generatedSecret name) (.vault (.read session random.readPath))

theorem Found.eq_ok {answer : Except ε (Option α)} (h : Found wrap what answer (.ok a)) :
    answer = .ok (some a) := by
  cases h
  rfl

theorem LooksUp.concerns (h : LooksUp w ns session r identity? defaults source calls x) :
    ∀ c ∈ calls, Concerns w ns session source c := by
  cases h with
  | localSecret => simpa using .secret
  | remoteSecret => simpa using .path
  | undeclared | nameless => simpa using .randomSecret
  | generatedSecret hfound => simpa using ⟨.randomSecret, .value hfound.eq_ok⟩

theorem answeredAlike_of_concerns (hconcerns : ∀ c ∈ asked es, Concerns w ns session source c)
    (hagrees : w.AgreesOn w' ns source) (hes : ∀ e ∈ es, w.Gives e) (hes' : ∀ e ∈ es', w'.Gives e) :
    Program.AnsweredAlike es es' := by
  intro c answer answer' hmem hmem'
  have hgives := hes _ hmem
  have hgives' := hes' _ hmem'
  cases hconcerns c (mem_asked.2 ⟨answer, hmem⟩) with
  | secret => exact hgives.trans (hagrees.trans hgives'.symm)
  | path => exact hgives.trans (hagrees.trans hgives'.symm)
  | randomSecret => exact hgives.trans (hagrees.1.trans hgives'.symm)
  | value hrandom => exact hgives.trans ((hagrees.2 _ hrandom).trans hgives'.symm)

theorem answeredAlike_of_resolves
    (h : Resolves w ns session r identity? defaults (asked es) x)
    (hagrees : ∀ source, r.NamesOnly source → w.AgreesOn w' ns source)
    (hes : ∀ e ∈ es, w.Gives e) (hes' : ∀ e ∈ es', w'.Gives e) :
    Program.AnsweredAlike es es' := by
  generalize hcalls : asked es = calls at h
  cases h with
  | ambiguous | implicit | unset =>
    intro c answer answer' hmem
    have hasked := mem_asked.2 ⟨answer, hmem⟩
    simp [hcalls] at hasked
  | named hone hlooks =>
    exact answeredAlike_of_concerns (hcalls ▸ hlooks.concerns) (hagrees _ hone) hes hes'

/-- A world with the answers, and with any to all else. -/
noncomputable def Answers.world (w : Answers) : World Unit where
  answer
    | .cluster (.getSecret ns name), _ => (w.secret ns name, ())
    | .cluster (.getRandomSecret ns name), _ => (w.randomSecret ns name, ())
    | .vault (.read _ path), _ => (w.vault path, ())
    | _, _ => (Classical.ofNonempty, ())

theorem Answers.gives_world (w : Answers) (c : Call) (s : Unit) :
    w.Gives (.call c (w.world.answer c s).1) := by
  cases c with
  | clock | readCaFile => trivial
  | vault c => cases c <;> first | rfl | trivial
  | cluster c => cases c <;> first | rfl | trivial

/-- Whatever is answered, looking a credential up comes to one end. -/
theorem exists_resolve (w : Answers) (ns : String) (session : Vault.Session) (r : Reference)
    (identity? : Option String) (defaults : Defaults) :
    ∃ es x, ComesTo w.Gives (resolve ns session r identity? defaults) es x := by
  have hexec := Program.exec_run w.world (resolve ns session r identity? defaults).run ()
  obtain ⟨x, -, hends⟩ := concludes_resolve.ends hexec
  have hes := Program.forall_events_run w.gives_world (fun _ => trivial)
    (resolve ns session r identity? defaults).run ()
  exact ⟨_, x, comesTo_of_ends hends hes fun _ hes' =>
    answeredAlike_of_resolves (resolve_ends hends hes) (fun _ _ => .refl) hes hes'⟩

/-- The credential of a reference is what is specified, and it takes no more than is specified to
look it up. Where the named source is the same, so is all of it. -/
theorem resolve_as_specified (w : Answers) (ns : String) (session : Vault.Session) (r : Reference)
    (identity? : Option String) (defaults : Defaults) :
    ∃ es x, ComesTo w.Gives (resolve ns session r identity? defaults) es x ∧
      (∀ calls x', Resolves w ns session r identity? defaults calls x' ↔
        calls = asked es ∧ x' = x) ∧
      ∀ w' : Answers, (∀ source, r.NamesOnly source → w.AgreesOn w' ns source) →
        ComesTo w'.Gives (resolve ns session r identity? defaults) es x := by
  obtain ⟨es, x, hcomes⟩ := exists_resolve w ns session r identity? defaults
  have hresolves := resolve_ends hcomes.ends hcomes.holds
  refine ⟨es, x, hcomes, fun calls x' => ⟨fun h => h.unique hresolves, ?_⟩, fun w' hagrees => ?_⟩
  · rintro ⟨rfl, rfl⟩
    exact hresolves
  · obtain ⟨es', x', hcomes'⟩ := exists_resolve w' ns session r identity? defaults
    have halike := answeredAlike_of_resolves hresolves hagrees hcomes.holds hcomes'.holds
    obtain ⟨rfl, hended⟩ := Program.Exec.unique hcomes.ends hcomes'.ends halike
    obtain rfl := Option.some.inj hended
    exact hcomes'

end

-- ---------------------------------------------------------------------------
-- A credential in a secret of the cluster
-- ---------------------------------------------------------------------------

def bindSecret (password : String) : SecretData :=
  ((∅ : SecretData).insert "username" (Text.encode "cn=admin")).insert "password"
    (Text.encode password)

def bindReference : Reference := { secret := some "bind" }

/-- Answers with the same secret whatever is asked for. -/
def bindAnswers (vault : String → Except Vault.Error (Option Payload)) : Answers :=
  ⟨fun _ _ => .ok (some (bindSecret "hunter2")), fun _ _ => .ok none, vault⟩

def bindSession : Vault.Session := ⟨{ address := "https://vault.example.com" }, "token"⟩

def bindEvents : List Event :=
  [.call (.cluster (.getSecret "team-a" "bind")) (.ok (some (bindSecret "hunter2"))),
    .count (.credentialResolution "local_secret")]

theorem exec_resolve_bind :
    Program.Exec (resolve "team-a" bindSession bindReference none .required).run bindEvents
      (some (.ok (some ⟨"cn=admin", "hunter2"⟩))) :=
  .call (.count .done)

theorem gives_bindEvents (vault : String → Except Vault.Error (Option Payload)) :
    ∀ e ∈ bindEvents, (bindAnswers vault).Gives e := by
  simp [bindEvents, Answers.Gives, bindAnswers]

/-- A credential of the cluster is looked up there, whatever is in Vault. -/
theorem resolve_as_specified_bind :
    Resolves (bindAnswers fun _ => .ok none) "team-a" bindSession bindReference none .required
        [.cluster (.getSecret "team-a" "bind")] (.ok (some ⟨"cn=admin", "hunter2"⟩)) ∧
      ∀ vault, ComesTo (bindAnswers vault).Gives
        (resolve "team-a" bindSession bindReference none .required) bindEvents
        (.ok (some ⟨"cn=admin", "hunter2"⟩)) := by
  obtain ⟨es, x, hcomes, hresolves, hsame⟩ := resolve_as_specified (bindAnswers fun _ => .ok none)
    "team-a" bindSession bindReference none .required
  obtain ⟨rfl, hended⟩ := hcomes.only _ _ exec_resolve_bind (gives_bindEvents _)
  obtain rfl := Option.some.inj hended
  refine ⟨(hresolves _ _).2 ⟨rfl, rfl⟩, fun vault => hsame _ fun source hone => ?_⟩
  obtain rfl : source = .localSecret "bind" := hone.unique ⟨rfl, rfl, rfl⟩
  rfl

end VaultOperator.Credential
