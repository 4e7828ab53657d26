import VaultOperator.Proofs.Mount.Tuning
import VaultOperator.Proofs.Path.Canonical
import VaultOperator.Proofs.Path.Names

/-!
# The endpoints of an object agree

The endpoints that an object is read, written and removed at are canonical paths and differ in no
more than what their operations put behind or into the one path of the object, however its path and
name are spelled (`endpoints_agree`).
-/

namespace VaultOperator

namespace Path

/-- There is a path, and cleansing leaves it as it is. -/
structure IsCanonical (path : String) : Prop where
  ne_empty : path ≠ ""
  cleansed : cleanse path = path

theorem isCanonical_join (h : (parts.flatMap fun part => segmentsOf part.toList) ≠ []) :
    IsCanonical (join parts) where
  ne_empty := ne_empty_of_segmentsOf (by rwa [segmentsOf_join])
  cleansed := cleanse_join parts

theorem isCanonical_of_build (h : build steps = .ok path) : IsCanonical path where
  ne_empty := (build_ok h).2
  cleansed := by rw [eq_of_build h, cleanse_join]

theorem IsCanonical.segmentsOf_ne_nil (h : IsCanonical path) : segmentsOf path.toList ≠ [] := by
  intro hnone
  have hempty : cleanse path = "" := by rw [cleanse, cleanseChars, hnone]; rfl
  exact h.ne_empty (h.cleansed.symm.trans hempty)

theorem IsCanonical.join_self (h : IsCanonical path) : join [path] = path := by
  rw [← cleanse_eq_join, h.cleansed]

theorem IsCanonical.append (h : IsCanonical path) (h' : IsCanonical rest) :
    IsCanonical (path ++ "/" ++ rest) := by
  have hpath : ([path].flatMap fun part => segmentsOf part.toList) ≠ [] := by
    simpa using h.segmentsOf_ne_nil
  have hrest : ([rest].flatMap fun part => segmentsOf part.toList) ≠ [] := by
    simpa using h'.segmentsOf_ne_nil
  have hjoin := join_append [path] [rest] hpath hrest
  rw [h.join_self, h'.join_self] at hjoin
  rw [← hjoin]
  exact isCanonical_join (by simp [h.segmentsOf_ne_nil])

theorem flatMap_segments (raw : String) :
    ((segments raw).flatMap fun part => segmentsOf part.toList) = segmentsOf raw.toList := by
  have hsingle : ∀ s ∈ segmentsOf raw.toList, segmentsOf s = [s] :=
    fun s hs => (isSegment_of_mem hs).segmentsOf
  rw [segments, List.flatMap_map, List.flatMap_congr (g := fun s => [s])
    (by simpa using hsingle), List.flatMap_singleton']

/-- The other path has another segment in the place of one of this path. -/
structure ReplacesSegment (path : String) (place : Nat) (old new other : String) : Prop where
  replaced : (segments path)[place]? = some old
  eq_join : other = join ((segments path).set place new)

/-- Between segments that stay, one is replaced. -/
theorem replacesSegment_join (before old new after : String)
    (hold : segmentsOf old.toList = [old.toList]) :
    ReplacesSegment (join [before, old, after]) (segments before).length old new
      (join [before, new, after]) := by
  have hsegments : segments (join [before, old, after]) =
      segments before ++ old :: segments after := by
    rw [segments_join]
    simp [segments, hold]
  refine ⟨by rw [hsegments]; simp, ?_⟩
  rw [hsegments, List.set_append_right _ _ le_rfl, Nat.sub_self, List.set_cons_zero]
  exact join_congr (by simp [flatMap_segments])

namespace PkiOperation

/-- What an operation puts behind the path of its mount. -/
def below (op : PkiOperation) : String :=
  "/".intercalate op.suffix

theorem join_suffix (op : PkiOperation) : join op.suffix = op.below := by
  cases op with
  | generate type mode => cases type <;> cases mode <;> decide
  | _ => decide

theorem path_eq (op : PkiOperation) (h : IsCanonical mount) :
    op.path mount = mount ++ "/" ++ op.below := by
  have hsuffix : (op.suffix.flatMap fun part => segmentsOf part.toList) ≠ [] := by
    rw [segmentsOf_suffix]
    cases op <;> simp [suffix]
  rw [path, show mount :: op.suffix = [mount] ++ op.suffix from rfl,
    join_append _ _ (by simpa using h.segmentsOf_ne_nil) hsuffix, h.join_self,
    join_suffix]

end PkiOperation

end Path

open VaultOperator.Path (IsCanonical MountTable Names)

-- ---------------------------------------------------------------------------
-- What agreement is
-- ---------------------------------------------------------------------------

/-- Every endpoint of the object is a canonical path. -/
structure VaultObject.HasCanonicalEndpoints (o : VaultObject) : Prop where
  path : IsCanonical o.path
  readPath : IsCanonical o.readPath
  deletePath : IsCanonical o.deletePath
  createPath : ∀ values, IsCanonical (o.createRequest values).path
  updatePath : ∀ values, IsCanonical (o.updateRequest values).path

/-- The object is read and written at its path. -/
structure VaultObject.IsKeptAtPath (o : VaultObject) : Prop where
  readPath : o.readPath = o.path
  createPath : ∀ values, (o.createRequest values).path = o.path
  updatePath : ∀ values, (o.updateRequest values).path = o.path

/-- A mount is made and removed at its path, and tuned below it. Its table lists it by the rest of
its path. -/
structure Mount.Definition.EndpointsAgree (d : Definition) (table : MountTable)
    (objectName : String) (o : VaultObject) : Prop where
  createPath : ∀ values, (o.createRequest values).path = o.path
  deletePath : o.deletePath = o.path
  readPath : o.readPath = o.path ++ "/tune"
  updatePath : ∀ values, (o.updateRequest values).path = o.readPath
  path : o.path ++ "/" = table.path ++ "/" ++ d.tableKey objectName

/-- A generated secret is removed where it is kept, or with the metadata of its versions. -/
structure RandomSecret.EndpointsAgree (r : RandomSecret) : Prop where
  kept : (toVaultObject r).IsKeptAtPath
  unversioned : r.spec.kvV2 = false → deletePath r = (toVaultObject r).path
  mount : (Path.segments (toVaultObject r).path).take (Path.segments r.spec.path).length =
    Path.segments r.spec.path
  versioned : r.spec.kvV2 = true →
    Path.ReplacesSegment (toVaultObject r).path (Path.segments r.spec.path).length
      "data" "metadata" (deletePath r)

/-- The operations on an authority are below its mount. -/
structure Pki.EndpointsAgree (p : Pki) : Prop where
  kept : (toVaultObject p).IsKeptAtPath
  operation : ∀ op : Path.PkiOperation,
    op.path (toVaultObject p).path = (toVaultObject p).path ++ "/" ++ op.below
  deletePath : (toVaultObject p).deletePath = (toVaultObject p).path ++ "/root"

def Object.EndpointsAgree : Object → Prop
  | secretMount m =>
    m.spec.mount.EndpointsAgree .secret m.metadata.nameAny m.toVaultObject
  | authMount m => m.spec.mount.EndpointsAgree .auth m.metadata.nameAny m.toVaultObject
  | randomSecret r => RandomSecret.EndpointsAgree r
  | pki p => Pki.EndpointsAgree p
  | o => o.toVaultObject.IsKeptAtPath ∧ o.toVaultObject.deletePath = o.toVaultObject.path

theorem VaultObject.IsKeptAtPath.hasCanonicalEndpoints {o : VaultObject} (h : o.IsKeptAtPath)
    (hpath : IsCanonical o.path) (hdelete : IsCanonical o.deletePath) :
    o.HasCanonicalEndpoints where
  path := hpath
  readPath := h.readPath ▸ hpath
  deletePath := hdelete
  createPath := fun values => h.createPath values ▸ hpath
  updatePath := fun values => h.updatePath values ▸ hpath

-- ---------------------------------------------------------------------------
-- Kinds
-- ---------------------------------------------------------------------------

namespace Mount.Definition

variable {d : Definition} {table : MountTable} {metadata : Metadata}

theorem endpointsAgree (hnamed : d.IsNamed metadata.nameAny)
    (h : d.vaultPath table metadata.nameAny = .ok place) :
    d.EndpointsAgree table metadata.nameAny (d.toVaultObject table metadata access body) := by
  refine ⟨fun _ => rfl, rfl, ?_, fun _ => rfl, ?_⟩
  · simp only [toVaultObject, h, tunePath_eq h]
  · simp only [toVaultObject, h]
    rw [path_eq hnamed h, String.append_assoc]
    rfl

theorem EndpointsAgree.hasCanonicalEndpoints {o : VaultObject}
    (h : d.EndpointsAgree table objectName o) (hpath : IsCanonical o.path) :
    o.HasCanonicalEndpoints := by
  have hread : IsCanonical o.readPath := by
    rw [h.readPath, show "/tune" = "/" ++ "tune" by decide, ← String.append_assoc]
    exact hpath.append ⟨by decide, by decide⟩
  exact
    { path := hpath
      readPath := hread
      deletePath := h.deletePath ▸ hpath
      createPath := fun values => h.createPath values ▸ hpath
      updatePath := fun values => h.updatePath values ▸ hread }

end Mount.Definition

namespace RandomSecret

variable {r : RandomSecret}

theorem join_kvPath (mount name : String) (v2 : Bool) :
    Path.join [Path.kvPath mount "" v2, name] = Path.kvPath mount name v2 := by
  cases v2 <;> exact Path.join_congr (by simp [Path.kvPath, Path.segmentsOf_join])

theorem readPath_eq (h : vaultPath r = .ok path) : readPath r = path :=
  (join_kvPath _ _ _).symm.trans (Path.eq_of_build h).symm

theorem take_kvPath (mount name : String) (v2 : Bool) :
    (Path.segments (Path.kvPath mount name v2)).take (Path.segments mount).length =
      Path.segments mount := by
  cases v2 <;> simp [Path.kvPath, Path.segments_join]

theorem endpointsAgree (h : vaultPath r = .ok path) : EndpointsAgree r := by
  have hread : readPath r = (toVaultObject r).path := by
    simp only [toVaultObject, h, readPath_eq h]
  have hpath : (toVaultObject r).path = Path.kvPath r.spec.path (secretName r) r.spec.kvV2 :=
    hread.symm
  refine ⟨⟨hread, fun _ => hread, fun _ => hread⟩, fun hv1 => ?_, ?_, fun hv2 => ?_⟩
  · rw [deletePath, hv1, if_neg Bool.false_ne_true, hread]
  · rw [hpath, take_kvPath]
  · rw [hpath, deletePath, hv2]
    exact Path.replacesSegment_join _ _ _ _ (by decide)

theorem isCanonical_deletePath (h : vaultPath r = .ok path) : IsCanonical (deletePath r) where
  ne_empty := deletePath_ne_empty h
  cleansed := by
    unfold deletePath readPath Path.kvMetadataPath Path.kvPath
    split <;> exact Path.cleanse_join _

end RandomSecret

theorem Pki.deletePath_eq (p : Pki) :
    (toVaultObject p).deletePath = Path.PkiOperation.deleteRoot.path (toVaultObject p).path := by
  simp only [toVaultObject]

theorem Pki.endpointsAgree {p : Pki} (hpath : IsCanonical (toVaultObject p).path) :
    EndpointsAgree p := by
  have hroot : "/root" = "/" ++ Path.PkiOperation.deleteRoot.below := by decide
  refine ⟨?_, fun op => op.path_eq hpath, ?_⟩
  · constructor <;> intros <;> simp only [toVaultObject]
  · rw [hroot, ← String.append_assoc, deletePath_eq]
    exact Path.PkiOperation.path_eq .deleteRoot hpath

namespace Object

variable {o : Object}

theorem isCanonical_path (h : o.toVaultObject.vaultPath = .ok path) :
    IsCanonical o.toVaultObject.path := by
  rw [path_eq h]
  cases o <;>
    simp only [toVaultObject, Policy.toVaultObject, SecretMount.toVaultObject,
      AuthMount.toVaultObject, Mount.Definition.toVaultObject, Database.toVaultObject,
      Ldap.toVaultObject, RandomSecret.toVaultObject, Pki.toVaultObject] at h <;>
    exact Path.isCanonical_of_build h

theorem endpointsAgree (hnamed : ∀ naming, o.naming? = some naming → Names naming.name)
    (h : o.toVaultObject.vaultPath = .ok path) : o.EndpointsAgree := by
  have hmount (d : Mount.Definition) (metadata : Metadata)
      (hnames : Names (Path.effectiveName d.name metadata.nameAny)) :
      d.IsNamed metadata.nameAny := by
    simpa [Mount.Definition.IsNamed, Path.segments] using Path.segmentsOf_ne_nil_iff.2 hnames
  cases o with
  | secretMount m => exact Mount.Definition.endpointsAgree (hmount _ _ (hnamed _ rfl)) h
  | authMount m => exact Mount.Definition.endpointsAgree (hmount _ _ (hnamed _ rfl)) h
  | randomSecret r =>
    simp only [toVaultObject, RandomSecret.toVaultObject] at h
    exact RandomSecret.endpointsAgree h
  | pki p =>
    have hpath := isCanonical_path h
    exact Pki.endpointsAgree hpath
  | policy | database | ldap =>
    refine ⟨⟨?_, fun _ => ?_, fun _ => ?_⟩, ?_⟩ <;>
      simp only [toVaultObject, Policy.toVaultObject, Database.toVaultObject, Ldap.toVaultObject]

theorem hasCanonicalEndpoints (h : o.toVaultObject.vaultPath = .ok path)
    (hagree : o.EndpointsAgree) : o.toVaultObject.HasCanonicalEndpoints := by
  have hpath := isCanonical_path h
  cases o with
  | secretMount m => exact hagree.hasCanonicalEndpoints hpath
  | authMount m => exact hagree.hasCanonicalEndpoints hpath
  | randomSecret r =>
    simp only [toVaultObject, RandomSecret.toVaultObject] at h
    exact hagree.kept.hasCanonicalEndpoints hpath (RandomSecret.isCanonical_deletePath h)
  | pki p =>
    refine hagree.kept.hasCanonicalEndpoints hpath ?_
    rw [hagree.deletePath, show "/root" = "/" ++ "root" by decide, ← String.append_assoc]
    exact hpath.append ⟨by decide, by decide⟩
  | policy | database | ldap => exact hagree.1.hasCanonicalEndpoints hpath (hagree.2 ▸ hpath)

/-- However the path and the name of a valid object are spelled, all its endpoints are canonical and
agree with its path, if the name gives that a segment. -/
theorem endpoints_agree (h : o.IsValid)
    (hnamed : ∀ naming, o.naming? = some naming → Names naming.name) :
    o.toVaultObject.HasCanonicalEndpoints ∧ o.EndpointsAgree := by
  obtain ⟨path, hpath⟩ := exists_path h
  have hagree := endpointsAgree hnamed hpath
  exact ⟨hasCanonicalEndpoints hpath hagree, hagree⟩

/-- A generated secret of a mount that is spelled with blanks and separators. -/
def spelledToken : RandomSecret where
  metadata := { name := some "token", ns := some "team-a" }
  spec :=
    { access := ⟨none, { role := "admin" }⟩, path := " team //kv/", name := some "app / token "
      secretKey := "token", passwordPolicy := "strong", kvV2 := true }
  status := none

theorem endpoints_agree_token :
    (randomSecret spelledToken).IsValid ∧ Names "app / token" ∧
      (RandomSecret.toVaultObject spelledToken).readPath = "team/kv/data/app/token" ∧
      RandomSecret.deletePath spelledToken = "team/kv/metadata/app/token" := by
  have hvalid : (randomSecret spelledToken).IsValid := rfl
  have hnamed : ∀ naming, (randomSecret spelledToken).naming? = some naming →
      Names naming.name := by
    rintro naming ⟨⟩
    decide
  obtain ⟨-, hagree⟩ := endpoints_agree hvalid hnamed
  have hpath : (RandomSecret.toVaultObject spelledToken).path = "team/kv/data/app/token" := by
    decide
  refine ⟨hvalid, by decide, hagree.kept.readPath.trans hpath, ?_⟩
  rw [(hagree.versioned rfl).eq_join, hpath]
  decide

end Object

end VaultOperator
