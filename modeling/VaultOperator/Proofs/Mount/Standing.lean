import VaultOperator.Proofs.Engine.Reconcile

/-!
# Mounts stand

A mount that was made or tuned is listed afterwards, and its tuning is read as desired
(`Definition.stands`).
-/

namespace VaultOperator.Mount.Definition

open Engine (KeepsSession Leaves Stands)
open Comparison (Shows)
open VaultOperator.Path (MountTable EndsInTune)

variable {d : Definition} {table : MountTable} {objectName : String} {store : StoreContent}
  {before between : VaultContent}

/-- The mount has a name, and its path cannot be taken for that of a tuning. -/
structure IsProper (d : Definition) (table : MountTable) (objectName : String) : Prop where
  isNamed : d.IsNamed objectName
  not_endsInTune : ∀ place, d.vaultPath table objectName = .ok place → ¬ EndsInTune place

/-- The table lists the mount. -/
def IsListed (d : Definition) (table : MountTable) (objectName : String)
    (content : VaultContent) : Prop :=
  FoundAt content table.path fun listing => listing.contains (d.tableKey objectName)

theorem createRequest_eq (hpath : d.vaultPath table metadata.nameAny = .ok place) :
    (d.toVaultObject table metadata access body).createRequest v = ⟨place, body⟩ := by
  simp only [toVaultObject, hpath]

theorem updateRequest_eq : (d.toVaultObject table metadata access body).updateRequest v =
    ⟨d.tunePath table metadata.nameAny, d.tunePayload⟩ := by
  simp only [toVaultObject]

/-- A pass that succeeded had a path. -/
theorem path_of_reconcile (h : Ends (Engine.reconcile settings
    (d.toVaultObject table metadata access body)) es (.ok outcome)) :
    ∃ place, d.vaultPath table metadata.nameAny = .ok place := by
  obtain ⟨hvalid, -⟩ := Engine.reconcile_ok h
  change d.validate table metadata.nameAny = .ok () at hvalid
  cases hpath : d.vaultPath table metadata.nameAny with
  | ok place => exact ⟨place, rfl⟩
  | error e =>
    rw [validate, hpath] at hvalid
    cases hvalid

theorem concludes_readObserved :
    Concludes (Call.LooksIn session) (d.readObserved table objectName session) := by
  refine .bind (Pass.concludes_read rfl) fun listing => ?_
  split
  · exact Pass.concludes_read rfl
  · exact concludes_pure

theorem keepsSession : KeepsSession (d.toVaultObject table metadata access body) where
  prepare _ := concludes_pure
  readObserved _ := concludes_readObserved
  prepareWrite _ _ := concludes_pure
  isEquivalent _ _ es r h := by
    rw [(Program.exec_done.1 h).1]
    exact fun _ _ hmem => nomatch hmem

theorem readObserved_yields (hlisted : d.IsListed table objectName between)
    (hfound : between (d.tunePath table objectName) = some found) :
    Yields (Given store between) (d.readObserved table objectName session) (some found) := by
  obtain ⟨listing, hlisting, hlists⟩ := hlisted
  refine Pass.read_yields.bind ?_
  rw [hlisting, Option.any_some, if_pos hlists, ← hfound]
  exact Pass.read_yields

theorem readObserved_ok (h : Ends (d.readObserved table objectName session) es (.ok (some found)))
    (hgiven : ∀ e ∈ es, Given store before e) :
    d.IsListed table objectName before ∧ before (d.tunePath table objectName) = some found := by
  rcases ends_bind.1 h with ⟨listing, es₁, es₂, hlisting, hrest, rfl⟩ | ⟨_, -, ⟨⟩⟩
  obtain ⟨hgiven₁, hgiven₂⟩ := List.forall_mem_append.1 hgiven
  have hlisting := Pass.read_ok hlisting hgiven₁
  split at hrest
  · next hlists =>
    cases listing with
    | none => cases hlists
    | some entries =>
      exact ⟨⟨entries, hlisting.symm, hlists⟩, (Pass.read_ok hrest hgiven₂).symm⟩
  · obtain ⟨-, ⟨⟩⟩ := ends_pure.1 hrest

theorem stands_of_foundAt (hlisted : d.IsListed table metadata.nameAny between)
    (hfound : FoundAt between (d.tunePath table metadata.nameAny) (Shows [] d.tunePayload)) :
    Stands store between Also (d.toVaultObject table metadata access body) v := by
  obtain ⟨found, hbetween, hshows⟩ := hfound
  refine ⟨found, fun session => readObserved_yields hlisted hbetween, fun es r h _ => ?_⟩
  rw [(Program.exec_done.1 h).2]
  exact congrArg some (Comparison.isEquivalent_keys fun key _ => hshows key)

/-- A new mount is listed under its path, and its tuning is read below it. -/
theorem stands_of_made (hproper : d.IsProper table metadata.nameAny)
    (hpath : d.vaultPath table metadata.nameAny = .ok place)
    (htuning : ∀ found, ShowsTuning body found → ShowsTuning d.payload found)
    (h : (Backend.mounts table).Echoes before between place body) :
    Stands store between Also (d.toVaultObject table metadata access body) v := by
  obtain ⟨hlists, found, hbetween, hshows⟩ := h.2 (hproper.not_endsInTune place hpath)
  refine stands_of_foundAt (hlists _ (path_eq hproper.isNamed hpath)) ⟨found, ?_, ?_⟩
  · rwa [tunePath_eq hpath]
  · exact shows_tunePayload (htuning found hshows)

theorem stands_of_tuned (hlisted : d.IsListed table metadata.nameAny before)
    (hpath : d.vaultPath table metadata.nameAny = .ok place)
    (h : (Backend.mounts table).Echoes before between (d.tunePath table metadata.nameAny)
      d.tunePayload) :
    Stands store between Also (d.toVaultObject table metadata access body) v := by
  have htune : EndsInTune (d.tunePath table metadata.nameAny) := by
    rw [tunePath_eq hpath]
    exact Path.endsInTune_append
  obtain ⟨hfound, hlisting⟩ := h.1 htune
  refine stands_of_foundAt ?_ hfound
  rwa [IsListed, FoundAt, hlisting]

theorem stands (hproper : d.IsProper table metadata.nameAny)
    (hpath : d.vaultPath table metadata.nameAny = .ok place)
    (htuning : ∀ found, ShowsTuning body found → ShowsTuning d.payload found)
    (hleaves : Leaves store (.mounts table) (d.toVaultObject table metadata access body) session v
      before outcome between) :
    Stands store between Also (d.toVaultObject table metadata access body) v := by
  cases hleaves with
  | same observed hread hgiven hsame =>
    obtain ⟨hlisted, hfound⟩ := readObserved_ok hread hgiven
    refine ⟨observed, fun session => readObserved_yields hlisted hfound, fun es r h _ => ?_⟩
    rw [(Program.exec_done.1 h).2, (Program.exec_done.1 hsame).2]
  | created v' hprepared hgiven hechoes =>
    rw [createRequest_eq hpath] at hechoes
    exact stands_of_made hproper hpath htuning hechoes
  | updated observed v' hread hgiven hprepared hgiven' hechoes =>
    rw [updateRequest_eq] at hechoes
    exact stands_of_tuned (readObserved_ok hread hgiven).1 hpath hechoes

theorem unchanged_again (hproper : d.IsProper table metadata.nameAny)
    (htuning : ∀ found, ShowsTuning body found → ShowsTuning d.payload found)
    (hfirst : Ends (Engine.reconcile settings (d.toVaultObject table metadata access body)) es
      (.ok outcome))
    (hes : Happens store (.mounts table) before es between)
    (hsecond : Program.Exec
      (Engine.reconcile settings (d.toVaultObject table metadata access body)).run fs r)
    (hfs : Happens store (.mounts table) between fs after) :
    r = some (.ok .unchanged) ∧ writes fs = [] := by
  obtain ⟨place, hpath⟩ := path_of_reconcile hfirst
  have halso : ∀ e ∈ fs, (fun _ : Event => True) e := fun _ _ => trivial
  refine Engine.unchanged_again keepsSession.onlyLooks keepsSession.onlyLooks ⟨rfl, rfl, rfl, rfl⟩
    hfirst hes (fun session v hleaves => ?_) hsecond hfs halso
  exact ⟨stands hproper hpath htuning hleaves, fun _ => follows_pure rfl⟩

end VaultOperator.Mount.Definition
