import VaultOperator.Object
import VaultOperator.Proofs.Path.Segments
import VaultOperator.Proofs.Watch.Ownership

/-!
# Names below their parents

A name gives a path segments where it has a character that is neither a separator nor a blank
(`segmentsOf_ne_nil_iff`). A name that is required has to have more than blanks, so one of separators
alone is accepted, and what is called so stands where its parent does (`stands_below`).
-/

namespace VaultOperator

namespace Path

open Text

-- ---------------------------------------------------------------------------
-- Names in paths
-- ---------------------------------------------------------------------------

/-- The name has a character that segments are made of: neither a separator nor a blank. -/
def Names (name : String) : Prop :=
  ∃ c ∈ name.toList, c ≠ separator ∧ ¬ isBlank c

instance (name : String) : Decidable (Names name) :=
  List.decidableBEx (fun c => c ≠ separator ∧ ¬ isBlank c) name.toList

theorem flatten_split (sep : Char) (cs : List Char) :
    (split sep cs).flatten = cs.filter (· ≠ sep) := by
  induction cs with
  | nil => rfl
  | cons c cs ih =>
    rw [split]
    split
    · next hc => simpa [hc] using ih
    · next hc =>
      cases hs : split sep cs with
      | nil => exact absurd hs (split_ne_nil sep cs)
      | cons piece pieces =>
        rw [hs] at ih
        simpa [hc] using ih

theorem segmentsOf_ne_nil_iff {cs : List Char} :
    segmentsOf cs ≠ [] ↔ ∃ c ∈ cs, c ≠ separator ∧ ¬ isBlank c := by
  have hflatten (c : Char) :
      (∃ piece ∈ split separator cs, c ∈ piece) ↔ c ∈ cs ∧ c ≠ separator := by
    rw [← List.mem_flatten, flatten_split]
    simp
  have hpieces : segmentsOf cs ≠ [] ↔ ∃ piece ∈ split separator cs, ∃ c ∈ piece, ¬ isBlank c := by
    simp [segmentsOf, List.filter_eq_nil_iff, trimChars_eq_nil_iff]
  rw [hpieces]
  constructor
  · rintro ⟨piece, hpiece, c, hc, hblank⟩
    obtain ⟨hmem, hne⟩ := (hflatten c).1 ⟨piece, hpiece, hc⟩
    exact ⟨c, hmem, hne, hblank⟩
  · rintro ⟨c, hmem, hne, hblank⟩
    obtain ⟨piece, hpiece, hc⟩ := (hflatten c).2 ⟨hmem, hne⟩
    exact ⟨piece, hpiece, c, hc, hblank⟩

/-- The name is made of separators, at least one of them, and blanks. -/
def IsSeparators (name : String) : Prop :=
  separator ∈ name.toList ∧ ∀ c ∈ name.toList, c = separator ∨ isBlank c

theorem names_or_isSeparators {name : String} (h : isBlankText name = false) :
    Names name ∨ IsSeparators name := by
  simp only [isBlankText, List.all_eq_false] at h
  obtain ⟨c, hmem, hblank⟩ := h
  by_cases hnames : Names name
  · exact .inl hnames
  · have hall : ∀ c ∈ name.toList, c = separator ∨ isBlank c := by
      simpa [Names, or_iff_not_imp_left] using hnames
    refine .inr ⟨?_, hall⟩
    rwa [(hall c hmem).resolve_right hblank] at hmem

@[simp]
theorem segmentsOf_nil : segmentsOf [] = [] :=
  rfl

def Step.isName : Step → Bool
  | .name _ _ => true
  | _ => false

/-- The segments that a step gives a path. -/
def Step.segments (step : Step) : List (List Char) :=
  (step.raw?.map fun raw => segmentsOf raw.toList).getD []

@[simp]
theorem Step.segments_segment : (Step.segment raw).segments = segmentsOf raw.toList :=
  rfl

@[simp]
theorem Step.segments_name : (Step.name override? objectName).segments =
    segmentsOf (effectiveName override? objectName).toList :=
  rfl

@[simp]
theorem Step.segments_requireName : Step.requireName.segments = [] :=
  rfl

theorem segmentsOf_build (h : build steps = .ok path) :
    segmentsOf path.toList = steps.flatMap Step.segments := by
  rw [segmentsOf_of_build h]
  clear h
  induction steps with
  | nil => rfl
  | cons step rest ih =>
    rw [List.filterMap_cons, List.flatMap_cons, ← ih]
    cases step <;> rfl

/-- Where a name is required, one is given that is more than blanks. -/
theorem exists_name (h : build steps = .ok path) (hrequired : .requireName ∈ steps) :
    ∃ override? objectName, .name override? objectName ∈ steps ∧
      isBlankText (effectiveName override? objectName) = false := by
  have hset : ∃ step ∈ steps, step.setsName := by
    unfold build at h
    split at h
    · cases h
    · next hcheck => simpa [hrequired] using hcheck
  obtain ⟨step, hstep, hset⟩ := hset
  cases step with
  | name override? objectName => exact ⟨_, _, hstep, by simpa [Step.setsName] using hset⟩
  | segment | requireName => cases hset

/-- Some segment of the path comes from a name. -/
def NamesSegment (steps : List Step) : Prop :=
  ∃ step ∈ steps, step.isName ∧ step.segments ≠ []

instance (steps : List Step) : Decidable (NamesSegment steps) :=
  inferInstanceAs (Decidable (∃ step ∈ steps, step.isName ∧ step.segments ≠ []))

theorem namesSegment_iff : NamesSegment steps ↔
    ∃ override? objectName, .name override? objectName ∈ steps ∧
      Names (effectiveName override? objectName) := by
  constructor
  · rintro ⟨step, hstep, hname, hsegments⟩
    cases step with
    | name override? objectName => exact ⟨_, _, hstep, segmentsOf_ne_nil_iff.1 hsegments⟩
    | segment | requireName => cases hname
  · rintro ⟨override?, objectName, hstep, hnames⟩
    exact ⟨_, hstep, rfl, segmentsOf_ne_nil_iff.2 hnames⟩

/-- Where a name is required, segments come from it unless it is made of separators. -/
theorem namesSegment_or_isSeparators (h : build steps = .ok path)
    (hrequired : .requireName ∈ steps) :
    NamesSegment steps ∨ ∃ override? objectName, .name override? objectName ∈ steps ∧
      IsSeparators (effectiveName override? objectName) := by
  obtain ⟨override?, objectName, hmem, hblank⟩ := exists_name h hrequired
  exact (names_or_isSeparators hblank).imp (fun hnames => namesSegment_iff.2 ⟨_, _, hmem, hnames⟩)
    fun hname => ⟨_, _, hmem, hname⟩

-- ---------------------------------------------------------------------------
-- Below a parent
-- ---------------------------------------------------------------------------

/-- The path is that of the parent followed by the segments of the name, if there are any. -/
structure LeadsBelow (parent name path : String) : Prop where
  segments_eq : segmentsOf path.toList = segmentsOf parent.toList ++ segmentsOf name.toList
  longer_iff : (segmentsOf parent.toList).length < (segmentsOf path.toList).length ↔ Names name
  same_iff : path = parent ↔ ¬ Names name

theorem leadsBelow_of_join {parts parentParts : List String} {name : String}
    (h : (parts.flatMap fun part => segmentsOf part.toList) =
      (parentParts.flatMap fun part => segmentsOf part.toList) ++ segmentsOf name.toList) :
    LeadsBelow (join parentParts) name (join parts) := by
  have hsegments : segmentsOf (join parts).toList =
      segmentsOf (join parentParts).toList ++ segmentsOf name.toList := by
    rw [segmentsOf_join, segmentsOf_join, h]
  have hnames : Names name ↔ segmentsOf name.toList ≠ [] := segmentsOf_ne_nil_iff.symm
  have hlonger : (segmentsOf (join parentParts).toList).length <
      (segmentsOf (join parts).toList).length ↔ Names name := by
    rw [hsegments, List.length_append, hnames, ← List.length_pos_iff]
    omega
  refine ⟨hsegments, hlonger, fun heq => ?_, fun hnone => ?_⟩
  · rw [← hlonger, heq]
    exact lt_irrefl _
  · rw [hnames, not_not] at hnone
    exact join_congr (by rw [h, hnone, List.append_nil])

theorem leadsBelow_of_build {parentParts : List String} {name : String}
    (hbuild : build steps = .ok path)
    (h : steps.flatMap Step.segments =
      (parentParts.flatMap fun part => segmentsOf part.toList) ++ segmentsOf name.toList) :
    LeadsBelow (join parentParts) name path := by
  rw [eq_of_build hbuild]
  exact leadsBelow_of_join (by rw [← h, ← segmentsOf_build hbuild, segmentsOf_of_build hbuild])

end Path

-- ---------------------------------------------------------------------------
-- Objects
-- ---------------------------------------------------------------------------

open VaultOperator.Path (LeadsBelow MountTable Names IsSeparators Step)

/-- A named object: what it is called, and the endpoints it is made and removed below. -/
structure Naming where
  name : String
  parent : String
  removedBelow : String

def Mount.Definition.naming (d : Definition) (table : MountTable) (metadata : Metadata) :
    Naming where
  name := Path.effectiveName d.name metadata.nameAny
  parent := Path.join [table.path, d.path]
  removedBelow := Path.join [table.path, d.path]

theorem Mount.Definition.leadsBelow_vaultPath (table : MountTable) {d : Definition}
    {metadata : Metadata} {path : String} (h : d.vaultPath table metadata.nameAny = .ok path) :
    LeadsBelow (d.naming table metadata).parent (d.naming table metadata).name path :=
  Path.leadsBelow_of_build h (by simp [MountTable.mountPath, Path.segmentsOf_join, naming])

/-- Where an object stands that is named in Vault. -/
def Object.naming? : Object → Option Naming
  | policy o =>
    some ⟨Path.effectiveName o.spec.name o.metadata.nameAny, "sys/policies/acl", "sys/policies/acl"⟩
  | secretMount o => some (o.spec.mount.naming .secret o.metadata)
  | authMount o => some (o.spec.mount.naming .auth o.metadata)
  | database o =>
    some ⟨Path.effectiveName o.spec.name o.metadata.nameAny, Path.join [o.spec.path, "config"],
      Path.join [o.spec.path, "config"]⟩
  | randomSecret o =>
    let below (version : String) :=
      if o.spec.kvV2 then Path.join [o.spec.path, version] else Path.join [o.spec.path]
    some ⟨Path.effectiveName o.spec.name o.metadata.nameAny, below "data", below "metadata"⟩
  | ldap _ | pki _ => none

theorem Validation.requirePath_ok {path : Except PathError String}
    (h : requirePath path = .ok ()) : ∃ p, path = .ok p := by
  cases path with
  | ok p => exact ⟨p, rfl⟩
  | error e => cases h

/-- A policy of that name. -/
def Policy.named (name : String) : Policy where
  metadata := { name := some "reader", ns := some "team-a" }
  spec := { access := ⟨none, { role := "admin" }⟩, policy := "path", name := some name }
  status := none

namespace Object

variable {o : Object}

theorem exists_path (h : o.IsValid) : ∃ path, o.toVaultObject.vaultPath = .ok path := by
  -- every kind asks for its path first
  cases o <;>
    simp only [IsValid, toVaultObject, Policy.toVaultObject, SecretMount.toVaultObject,
      AuthMount.toVaultObject, Mount.Definition.toVaultObject, Database.toVaultObject,
      Ldap.toVaultObject, RandomSecret.toVaultObject, Pki.toVaultObject] at h ⊢ <;>
    obtain ⟨_, hpath, -⟩ := bind_eq_ok.1 h <;>
    exact Validation.requirePath_ok hpath

/-- The endpoints of a named object, below its parents as far as its name goes. -/
structure StandsBelow (o : Object) (naming : Naming) : Prop where
  path : LeadsBelow naming.parent naming.name o.toVaultObject.path
  create : ∀ v, LeadsBelow naming.parent naming.name (o.toVaultObject.createRequest v).path
  delete : LeadsBelow naming.removedBelow naming.name o.toVaultObject.deletePath

theorem path_eq (hpath : o.toVaultObject.vaultPath = .ok path) : o.toVaultObject.path = path := by
  cases o with
  | pki p =>
    simp only [toVaultObject, Pki.toVaultObject] at hpath ⊢
    exact Pki.mount_eq hpath
  | _ =>
    simp only [toVaultObject, Policy.toVaultObject, SecretMount.toVaultObject,
      AuthMount.toVaultObject, Mount.Definition.toVaultObject, Database.toVaultObject,
      Ldap.toVaultObject, RandomSecret.toVaultObject] at hpath ⊢
    rw [hpath]

theorem leadsBelow_vaultPath (hpath : o.toVaultObject.vaultPath = .ok path)
    (hnaming : o.naming? = some naming) : LeadsBelow naming.parent naming.name path := by
  cases o with
  | policy p =>
    cases hnaming
    have hparent : Path.join ["sys/policies/acl"] = "sys/policies/acl" := by decide
    exact hparent ▸ Path.leadsBelow_of_build hpath (by simp)
  | secretMount m =>
    cases hnaming
    exact Mount.Definition.leadsBelow_vaultPath .secret hpath
  | authMount m =>
    cases hnaming
    exact Mount.Definition.leadsBelow_vaultPath .auth hpath
  | database d =>
    cases hnaming
    exact Path.leadsBelow_of_build hpath (by simp)
  | randomSecret r =>
    cases hnaming
    cases hv2 : r.spec.kvV2 <;>
      exact Path.leadsBelow_of_build hpath (by simp [Path.kvPath, hv2, Path.segmentsOf_join])
  | ldap | pki => cases hnaming

/-- A named object stands below its parents as far as its name goes. -/
theorem standsBelow (h : o.IsValid) (hnaming : o.naming? = some naming) : o.StandsBelow naming := by
  obtain ⟨path, hpath⟩ := exists_path h
  have hbelow := leadsBelow_vaultPath hpath hnaming
  rw [← path_eq hpath] at hbelow
  cases o with
  | randomSecret r =>
    cases hnaming
    -- a generated secret is written and removed by paths of their own
    refine ⟨hbelow, fun _ => ?_, ?_⟩ <;>
      simp only [toVaultObject, RandomSecret.toVaultObject, RandomSecret.createRequest,
        RandomSecret.readPath, RandomSecret.deletePath, RandomSecret.secretName, Path.kvPath,
        Path.kvMetadataPath] <;>
      cases hv2 : r.spec.kvV2 <;> exact Path.leadsBelow_of_join (by simp)
  | ldap | pki => cases hnaming
  | _ =>
    cases hnaming
    exact ⟨hbelow, fun _ => hbelow, hbelow⟩

/-- The name of a valid object is more than blanks. -/
theorem accepts_name (h : o.IsValid) (hnaming : o.naming? = some naming) :
    Names naming.name ∨ IsSeparators naming.name := by
  obtain ⟨path, hpath⟩ := exists_path h
  cases o with
  | ldap | pki => cases hnaming
  | _ =>
    cases hnaming
    obtain ⟨_, _, hname, hblank⟩ := Path.exists_name hpath (by simp)
    obtain ⟨rfl, rfl⟩ : _ ∧ _ := by simpa using hname
    exact Path.names_or_isSeparators hblank

/-- A path that requires a name has a segment of it, and a named object stands below its parents,
unless the name is made of separators alone: then it stands where they do. -/
theorem stands_below (steps : List Step) (o : Object) :
    (∀ path, Path.build steps = .ok path → .requireName ∈ steps →
      Path.segmentsOf path.toList = steps.flatMap Step.segments ∧
        (Path.NamesSegment steps ↔ ∃ override? objectName, .name override? objectName ∈ steps ∧
          Names (Path.effectiveName override? objectName)) ∧
        (Path.NamesSegment steps ∨ ∃ override? objectName, .name override? objectName ∈ steps ∧
          IsSeparators (Path.effectiveName override? objectName))) ∧
      ∀ naming, o.IsValid → o.naming? = some naming →
        o.StandsBelow naming ∧ (Names naming.name ∨ IsSeparators naming.name) := by
  refine ⟨fun path h hrequired => ?_, fun naming h hnaming => ?_⟩
  · exact ⟨Path.segmentsOf_build h, Path.namesSegment_iff,
      Path.namesSegment_or_isSeparators h hrequired⟩
  · exact ⟨standsBelow h hnaming, accepts_name h hnaming⟩

theorem stands_below_reader :
    Path.NamesSegment [.segment "kv", .name none "reader", .requireName] ∧
      (Path.segmentsOf "sys/policies/acl".toList).length <
        (Path.segmentsOf (policy (.named "reader")).toVaultObject.deletePath.toList).length := by
  obtain ⟨hpath, hobject⟩ :=
    stands_below [.segment "kv", .name none "reader", .requireName] (policy (.named "reader"))
  obtain ⟨-, hnames, -⟩ := hpath "kv/reader" (by decide) (by simp)
  obtain ⟨hbelow, -⟩ := hobject _ rfl rfl
  exact ⟨hnames.2 ⟨none, "reader", by simp, by decide⟩, hbelow.delete.longer_iff.2 (by decide)⟩

/-- A name of one separator is accepted, and stands for the parent itself. -/
theorem stands_for_parent :
    (¬ ∀ steps path, Path.build steps = .ok path → .requireName ∈ steps → Path.NamesSegment steps) ∧
      ¬ ∀ (o : Object) naming, o.IsValid → o.naming? = some naming →
        (Path.segmentsOf naming.parent.toList).length <
          (Path.segmentsOf o.toVaultObject.path.toList).length := by
  refine ⟨fun h => ?_, fun h => ?_⟩
  · have hnames :=
      h [.segment "kv", .name (some "/") "reader", .requireName] "kv" (by decide) (by simp)
    revert hnames
    decide
  · have hlonger := h (policy (.named "/")) _ rfl rfl
    revert hlonger
    decide

end Object

end VaultOperator
