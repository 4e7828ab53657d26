import VaultOperator.Credential.Resolver
import VaultOperator.Proofs.Engine.Surroundings

/-!
# Looking up credentials

Nothing but a session is used for it, and nothing is changed (`concludes_resolve`). Two passes resolve a credential to the same values if
it is not kept in Vault or Vault shows it unchanged (`resolve_follows`).
-/

namespace VaultOperator.Credential

variable {store : StoreContent} {before after : VaultContent}

-- ---------------------------------------------------------------------------
-- Nothing is changed
-- ---------------------------------------------------------------------------

theorem Lookup.concludes_attempt {P : Call → Prop} {q : Program (Except ε α)} (hq : q.Within P) :
    Concludes P (attempt wrap q) :=
  hq.bind fun
    | .ok _ => Program.within_done
    | .error _ => Program.within_done

theorem Lookup.concludes_orFail {P : Call → Prop} {value : Option α} :
    Concludes P (orFail value e) := by
  cases value with
  | none => exact concludes_throw
  | some a => exact concludes_pure

theorem concludes_done {P : Call → Prop} {x : Except Error α} :
    Concludes P (ExceptT.mk (.done x)) :=
  Program.within_done

theorem concludes_readSecret :
    Concludes (Call.LooksIn session) (readSecret session path location) := by
  refine .bind (Lookup.concludes_attempt (Program.within_ask rfl)) fun found => ?_
  exact .bind Lookup.concludes_orFail fun _ => concludes_pure

theorem concludes_lookUp :
    Concludes (Call.LooksIn session) (lookUp ns session r identity? defaults source) := by
  cases source with
  | localSecret name =>
    refine .bind (Lookup.concludes_attempt (Program.within_ask ⟨rfl, rfl⟩)) fun found => ?_
    exact .bind Lookup.concludes_orFail fun data => concludes_done
  | remoteSecret path => exact .bind concludes_readSecret fun payload => concludes_done
  | generatedSecret name =>
    refine .bind (Lookup.concludes_attempt (Program.within_ask ⟨rfl, rfl⟩)) fun found => ?_
    refine .bind Lookup.concludes_orFail fun random => ?_
    refine .bind Lookup.concludes_orFail fun identity => ?_
    refine .bind concludes_readSecret fun payload => ?_
    exact .bind concludes_done fun secret => concludes_pure

theorem concludes_resolve :
    Concludes (Call.LooksIn session) (resolve ns session r identity? defaults) := by
  refine .bind concludes_done fun source => ?_
  cases source with
  | none =>
    dsimp only
    split
    · exact concludes_pure
    · exact concludes_throw
  | some source =>
    refine .bind concludes_lookUp fun resolved => ?_
    refine .bind ?_ fun _ => concludes_pure
    exact Program.within_count Program.within_done

-- ---------------------------------------------------------------------------
-- The same values again
-- ---------------------------------------------------------------------------

/-- Where in Vault the secret of a source is kept. -/
def Source.vaultPath? (store : StoreContent) (ns : String) : Source → Option String
  | .localSecret _ => none
  | .remoteSecret path => some path
  | .generatedSecret name => (store.randomSecrets ns name).map RandomSecret.readPath

def Reference.vaultPath? (store : StoreContent) (ns : String) (r : Reference) : Option String :=
  match Source.ofReference r with
  | .ok (some source) => source.vaultPath? store ns
  | _ => none

theorem Lookup.follows_ask {P Q : Event → Prop} {R : α → β → Prop} {p : Program (Except ε α)}
    {q : Program (Except δ β)} {event : Except ε α → Event} {event' : Except δ β → Event}
    (hp : ∀ es r, Program.Exec p es r ↔ ∃ answer, es = [event answer] ∧ r = some answer)
    (hq : ∀ es r, Program.Exec q es r ↔ ∃ answer, es = [event' answer] ∧ r = some answer)
    (h : ∀ a, P (event (.ok a)) → ∀ answer, Q (event' answer) → ∃ b, answer = .ok b ∧ R a b) :
    Follows P Q R (attempt wrap p) (attempt wrap' q) :=
  HandsOn.follows ⟨fun _ => rfl, fun e => ⟨wrap e, rfl⟩⟩ ⟨fun _ => rfl, fun e => ⟨wrap' e, rfl⟩⟩
    (follows_mk hp hq h)

theorem Lookup.follows_orFail {P Q : Event → Prop} {value : Option α} :
    Follows P Q Eq (orFail value e) (orFail value e') := by
  cases value with
  | none => exact follows_throw
  | some a => exact follows_pure rfl

theorem readSecret_follows (h : after path = before path) :
    Follows (Given store before) (Given store after) Eq (readSecret session path location)
      (readSecret session' path location) := by
  refine Follows.bind (R := Eq) ?_ fun found _ hfound => ?_
  · refine Lookup.follows_ask (fun _ _ => Program.exec_vault) (fun _ _ => Program.exec_vault) ?_
    intro found hfound answer hanswer
    have hfound : .ok found = Except.ok (before path) := hfound
    have hanswer : answer = .ok (after path) := hanswer
    exact ⟨found, by rw [hanswer, h, hfound], rfl⟩
  · subst hfound
    exact Lookup.follows_orFail.map fun _ _ hfound => by rw [hfound]

theorem lookUp_follows {source : Source}
    (h : ∀ path ∈ source.vaultPath? store ns, after path = before path) :
    Follows (Given store before) (Given store after) Eq
      (lookUp ns session r identity? defaults source)
      (lookUp ns session' r identity? defaults source) := by
  cases source with
  | localSecret name =>
    refine Follows.bind (R := Eq) ?_ fun found _ hfound => ?_
    · refine Lookup.follows_ask (fun _ _ => Program.exec_cluster) (fun _ _ => Program.exec_cluster) ?_
      intro data hdata answer hanswer
      exact ⟨data, hanswer.trans hdata.symm, rfl⟩
    · subst hfound
      refine Lookup.follows_orFail.bind fun data _ hdata => ?_
      subst hdata
      exact follows_done.mono fun _ _ h => h.1.symm
  | remoteSecret path =>
    refine (readSecret_follows (h path rfl)).bind fun payload _ hpayload => ?_
    subst hpayload
    exact follows_done.mono fun _ _ h => h.1.symm
  | generatedSecret name =>
    -- the path is read off the declaration that is found, so it has to be kept which one that is
    refine Follows.bind (R := fun found found' => found' = found ∧ found = store.randomSecrets ns name)
      ?_ fun _ found hfound => ?_
    · refine Lookup.follows_ask (fun _ _ => Program.exec_cluster) (fun _ _ => Program.exec_cluster) ?_
      intro found hfound answer hanswer
      have hfound : .ok found = Except.ok (store.randomSecrets ns name) := hfound
      exact ⟨found, hanswer.trans hfound.symm, rfl, Except.ok.inj hfound⟩
    · obtain ⟨rfl, hstored⟩ := hfound
      cases found with
      | none => exact follows_throw_bind
      | some random =>
        have hpath : after (RandomSecret.readPath random) = before (RandomSecret.readPath random) :=
          h _ (by simp [Source.vaultPath?, ← hstored])
        refine Follows.bind (R := fun a b => b = a ∧ a = random) (follows_pure ⟨rfl, rfl⟩)
          fun _ _ hrandom => ?_
        obtain ⟨rfl, rfl⟩ := hrandom
        refine Lookup.follows_orFail.bind fun identity _ hidentity => ?_
        subst hidentity
        refine (readSecret_follows hpath).bind fun payload _ hpayload => ?_
        subst hpayload
        refine follows_done.bind fun secret _ hsecret => ?_
        obtain ⟨rfl, -⟩ := hsecret
        exact follows_pure rfl

theorem resolve_follows {r : Reference}
    (h : ∀ path ∈ r.vaultPath? store ns, after path = before path) :
    Follows (Given store before) (Given store after) Eq (resolve ns session r identity? defaults)
      (resolve ns session' r identity? defaults) := by
  refine follows_done.bind fun _ source hsource => ?_
  obtain ⟨rfl, hsource⟩ := hsource
  cases source with
  | none =>
    dsimp only
    split
    · exact follows_pure rfl
    · exact follows_throw
  | some source =>
    have hpath : ∀ path ∈ source.vaultPath? store ns, after path = before path := by
      simpa [Reference.vaultPath?, hsource] using h
    refine (lookUp_follows hpath).bind fun resolved _ hresolved => ?_
    subst hresolved
    exact follows_tally.bind fun _ _ _ => follows_pure rfl

end VaultOperator.Credential
