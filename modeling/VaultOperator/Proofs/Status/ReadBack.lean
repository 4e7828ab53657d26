import VaultOperator.Proofs.Engine.Convergence
import VaultOperator.Proofs.Json.ReadBack
import VaultOperator.Proofs.Status.LastUpdate

/-!
# A patched status is read back

The status that a pass computes comes to the cluster as a merge patch, in which null removes and a
field that is left out stays. Whoever reads the patched object finds exactly the status that was
computed, and the rest of the object as it was (`Object.status_read_back`). The smaller status that
a failed deletion writes leaves the progress of a certificate authority alone.
-/

namespace VaultOperator

open Json

-- ---------------------------------------------------------------------------
-- Conditions
-- ---------------------------------------------------------------------------

theorem Phase.ofName?_name (phase : Phase) : Phase.ofName? phase.name = some phase := by
  cases phase <;> rfl

theorem readField_text (text : Option String) :
    readField (some none) (nullable str?) (some (ofOption .str text)) = some text := by
  cases text <;> rfl

theorem Condition.ofJson?_toJson (c : Condition) : Condition.ofJson? c.toJson = some c := by
  have hread : ∀ fields : Dict Json, fields.get? "type" = some (.str c.type) →
      fields.get? "status" = some (.str c.status) →
      fields.get? "lastTransitionTime" = some (ofOption .str c.lastTransitionTime) →
      fields.get? "reason" = some (ofOption .str c.reason) →
      fields.get? "message" = some (ofOption .str c.message) →
      reader (.named fields) = some (c, .named fields) := by
    intro fields htype hstatus htime hreason hmessage
    simp only [reader, required, Json.optional, field_bind_eq_some, htype, hstatus, htime, hreason,
      hmessage, readField_text]
    exact ⟨_, rfl, _, rfl, _, rfl, _, rfl, _, rfl, rfl⟩
  rw [Condition.ofJson?, Condition.toJson, Json.record, structure?_ofDict, hread]
  · rfl
  all_goals
    rw [Dict.get?_ofList_of_nodup (by simp)]
    rfl

-- ---------------------------------------------------------------------------
-- Reading a status field by field
-- ---------------------------------------------------------------------------

/-- What is read of the fields that all kinds of status have. -/
structure Status.ReadFrom (fields : Dict Json) (s : Status) : Prop where
  conditions : readField (some []) (listOf Condition.ofJson?) (fields.get? "conditions") =
    some s.conditions
  phase : readField (some none) (nullable (oneOf Phase.ofName?)) (fields.get? "phase") =
    some s.phase
  observedGeneration : readField (some none) (nullable (signed? 64))
    (fields.get? "observedGeneration") = some s.observedGeneration
  lastReconcileTime : readField (some none) (nullable str?) (fields.get? "lastReconcileTime") =
    some s.lastReconcileTime
  nextReconcileTime : readField (some none) (nullable str?) (fields.get? "nextReconcileTime") =
    some s.nextReconcileTime
  lastVaultSecretUpdate : readField (some none) (nullable str?)
    (fields.get? "lastVaultSecretUpdate") = some s.lastVaultSecretUpdate

theorem Status.reader_named {fields : Dict Json} :
    Status.reader (.named fields) = some (s, rest) ↔
      Status.ReadFrom fields s ∧ rest = .named fields := by
  simp only [Status.reader, withDefault, Json.optional, field_bind_eq_some]
  constructor
  · rintro ⟨_, hconditions, _, hphase, _, hgeneration, _, hlast, _, hnext, _, hupdate, hdone⟩
    cases hdone
    exact ⟨⟨hconditions, hphase, hgeneration, hlast, hnext, hupdate⟩, rfl⟩
  · rintro ⟨⟨hconditions, hphase, hgeneration, hlast, hnext, hupdate⟩, rfl⟩
    exact ⟨_, hconditions, _, hphase, _, hgeneration, _, hlast, _, hnext, _, hupdate, rfl⟩

/-- What is read of the progress of a certificate authority. -/
structure CaProgress.ReadFrom (fields : Dict Json) (p : CaProgress) : Prop where
  state : readField (some .notGenerated) CaState.ofJson? (fields.get? "caState") = some p.state
  observedType : readField (some none) (nullable CaType.ofJson?) (fields.get? "observedType") =
    some p.observedType
  observedKeyMode : readField (some none) (nullable KeyMode.ofJson?)
    (fields.get? "observedPrivateKeyType") = some p.observedKeyMode

theorem PkiStatus.reader_named {fields : Dict Json} :
    PkiStatus.reader (.named fields) = some (s, rest) ↔
      s.common.ReadFrom fields ∧ s.progress.ReadFrom fields ∧ rest = .named fields := by
  rw [PkiStatus.reader, reader_bind_eq_some]
  simp only [Status.reader_named, withDefault, Json.optional]
  constructor
  · rintro ⟨_, _, ⟨hcommon, rfl⟩, h⟩
    simp only [field_bind_eq_some] at h
    obtain ⟨_, hstate, _, htype, _, hmode, hdone⟩ := h
    cases hdone
    exact ⟨hcommon, ⟨hstate, htype, hmode⟩, rfl⟩
  · rintro ⟨hcommon, ⟨hstate, htype, hmode⟩, rfl⟩
    refine ⟨_, _, ⟨hcommon, rfl⟩, ?_⟩
    simp only [field_bind_eq_some]
    exact ⟨_, hstate, _, htype, _, hmode, rfl⟩

-- ---------------------------------------------------------------------------
-- Merging a status into an old one
-- ---------------------------------------------------------------------------

/-- A number that is read back after it is written. -/
def Fits (generation : Option Int) : Prop :=
  ∀ g, generation = some g → signed? 64 (.int g) = some g

/-- Nothing of the old status shows through where the new one is merged into it: the one field that
may be left out is not there to begin with. -/
structure Status.Replaces (s : Status) (old : Json) : Prop where
  fits : Fits s.observedGeneration
  lastVaultSecretUpdate : s.lastVaultSecretUpdate = none →
    readField (some none) (nullable str?) (old.get? "lastVaultSecretUpdate") = some none

/-- The fields after `l` was merged into `old`. -/
def IsMerged (l : List (String × Json)) (old : Json) (fields : Dict Json) : Prop :=
  ∀ key, fields.get? key =
    match Dict.lookup key l with
    | none => old.get? key
    | some value => mergedField (old.get? key) value

theorem Status.Replaces.readFrom {s : Status} {fields : Dict Json} (h : s.Replaces old)
    (hmerged : IsMerged (s.fields ++ more) old fields)
    (hmore : "lastVaultSecretUpdate" ∉ more.map (·.1)) : s.ReadFrom fields := by
  have hnames (name : Phase) (_ : s.phase = some name) :
      Survives (oneOf Phase.ofName?) name (.str name.name) :=
    survives_name (Phase.ofName?_name name)
  have htexts {text? : Option String} (text : String) (_ : text? = some text) :
      Survives str? text (.str text) :=
    survives_str text
  constructor
  case conditions =>
    rw [hmerged]
    exact (survives_list Condition.ofJson?_toJson s.conditions).readField _ _
  case phase =>
    rw [hmerged]
    exact readField_ofOption hnames _
  case observedGeneration =>
    rw [hmerged]
    exact readField_ofOption (fun g hg => survives_int (h.fits g hg)) _
  case lastReconcileTime =>
    rw [hmerged]
    exact readField_ofOption htexts _
  case nextReconcileTime =>
    rw [hmerged]
    exact readField_ofOption htexts _
  case lastVaultSecretUpdate =>
    rw [hmerged]
    cases hupdate : s.lastVaultSecretUpdate with
    | none =>
      have hout : Dict.lookup "lastVaultSecretUpdate" (s.fields ++ more) = none := by
        rw [Dict.lookup_eq_none_iff]
        simpa [Status.fields, hupdate] using hmore
      rw [hout]
      exact h.lastVaultSecretUpdate hupdate
    | some time =>
      have hin : Dict.lookup "lastVaultSecretUpdate" (s.fields ++ more) = some (.str time) := by
        simp [Status.fields, hupdate, Dict.lookup]
      rw [hin]
      exact (survives_str time).nullable.readField _ _

theorem Status.ofJson?_mergePatch {s : Status} (h : s.Replaces old) :
    Status.ofJson? (old.mergePatch s.toJson) = some s := by
  obtain ⟨fields, hfields, hmerged⟩ := exists_mergePatch_record s.nodup_fields old
  rw [← List.append_nil s.fields] at hmerged
  have hread : s.ReadFrom fields := h.readFrom hmerged (by simp)
  rw [Status.toJson, hfields, Status.ofJson?, structure?_ofDict,
    Status.reader_named.2 ⟨hread, rfl⟩]
  rfl

theorem CaType.survives (type : CaType) : Survives CaType.ofJson? type type.toJson :=
  survives_name (by cases type <;> rfl)

theorem KeyMode.survives (mode : KeyMode) : Survives KeyMode.ofJson? mode mode.toJson :=
  survives_name (by cases mode <;> rfl)

theorem CaState.survives (state : CaState) : Survives CaState.ofJson? state state.toJson :=
  ⟨by simp [CaState.toJson, Json.record, ofDict], fun old => CaState.ofJson?_mergePatch old state⟩

def Status.names : List String :=
  ["conditions", "phase", "observedGeneration", "lastReconcileTime", "nextReconcileTime",
    "lastVaultSecretUpdate"]

theorem Status.lookup_fields_eq_none (s : Status) (h : key ∉ names) :
    Dict.lookup key s.fields = none := by
  rw [Dict.lookup_eq_none_iff]
  simp only [names, List.mem_cons, List.not_mem_nil, or_false, not_or] at h
  cases hupdate : s.lastVaultSecretUpdate <;> simp [fields, hupdate, h]

theorem object?_ofDict (reader : Reader α) (fields : Dict Json) :
    object? reader (ofDict fields) = (reader (.named fields)).map (·.1) := by
  simp [object?, ofDict]

theorem PkiStatus.ofJson?_mergePatch {s : PkiStatus} (h : s.common.Replaces old) :
    PkiStatus.ofJson? (old.mergePatch s.toJson) = some s := by
  obtain ⟨fields, hfields, hmerged⟩ := exists_mergePatch_record s.nodup_fields old
  have hcommon : s.common.ReadFrom fields := h.readFrom hmerged (by simp)
  have hprogress : s.progress.ReadFrom fields := by
    constructor
    all_goals rw [hmerged, Dict.lookup_append, s.common.lookup_fields_eq_none (by decide)]
    case state => exact s.progress.state.survives.readField _ _
    case observedType => exact readField_ofOption (fun type _ => type.survives) _
    case observedKeyMode => exact readField_ofOption (fun mode _ => mode.survives) _
  rw [PkiStatus.toJson, hfields, PkiStatus.ofJson?, object?_ofDict,
    PkiStatus.reader_named.2 ⟨hcommon, hprogress, rfl⟩]
  rfl

-- ---------------------------------------------------------------------------
-- The status that was read before
-- ---------------------------------------------------------------------------

/-- Where null stands for no status, that is what a missing one reads as. -/
theorem nullable_getD {read : Json → Option α}
    (h : readField (some none) (nullable read) value? = some a) :
    nullable read (value?.getD .null) = some a := by
  cases value? <;> exact h

theorem of_nullable {read : Json → Option α} (h : nullable read j = some (some a)) :
    read j = some a := by
  cases j with
  | null => cases h
  | _ =>
    obtain ⟨_, hread, heq⟩ := Option.map_eq_some_iff.1 h
    cases heq
    exact hread

theorem null_of_nullable {read : Json → Option α} (h : nullable read j = some none) :
    j = .null := by
  cases j with
  | null => rfl
  | _ =>
    obtain ⟨_, -, heq⟩ := Option.map_eq_some_iff.1 h
    cases heq

/-- What is known of the status that was read from `old`. -/
structure Status.IsReadFrom (previous : Option Status) (old : Json) : Prop where
  fits : Fits (previous.bind (·.observedGeneration))
  lastVaultSecretUpdate : previous.bind (·.lastVaultSecretUpdate) = none →
    readField (some none) (nullable str?) (old.get? "lastVaultSecretUpdate") = some none

theorem Status.fits_of_reader {fields : Fields} (h : Status.reader fields = some (s, rest)) :
    Fits s.observedGeneration := by
  simp only [Status.reader, reader_bind_eq_some] at h
  obtain ⟨_, _, -, _, _, -, generation, _, hgeneration, _, _, -, _, _, -, _, _, -, hdone⟩ := h
  cases hdone
  rintro g rfl
  obtain ⟨_, hread⟩ := optional_reads hgeneration
  exact signed?_int hread

theorem Status.isReadFrom_none : Status.IsReadFrom none .null :=
  ⟨nofun, fun _ => rfl⟩

theorem Status.ReadFrom.isReadFrom (h : Status.ReadFrom (old.fields?.getD ∅) s) :
    Status.IsReadFrom (some s) old := by
  refine ⟨Status.fits_of_reader (Status.reader_named.2 ⟨h, rfl⟩), fun hnone => ?_⟩
  rw [← get?_fields, h.lastVaultSecretUpdate]
  exact congrArg some hnone

theorem Status.isReadFrom (h : Status.ofJson? old = some s) : Status.IsReadFrom (some s) old := by
  cases old with
  | obj fields =>
    obtain ⟨⟨_, _⟩, hreader, rfl⟩ := Option.map_eq_some_iff.1 h
    have hfields : Status.ReadFrom ((Json.obj fields).fields?.getD ∅) _ :=
      (Status.reader_named.1 hreader).1
    exact hfields.isReadFrom
  | arr items =>
    -- a list has no names, so nothing of it shows through what replaces it
    simp only [Status.ofJson?, structure?] at h
    split at h
    · next hreader =>
      cases h
      exact ⟨Status.fits_of_reader hreader, fun _ => rfl⟩
    · cases h
  | _ => cases h

theorem PkiStatus.readFrom (h : PkiStatus.ofJson? old = some s) :
    s.common.ReadFrom (old.fields?.getD ∅) ∧ s.progress.ReadFrom (old.fields?.getD ∅) := by
  cases old with
  | obj fields =>
    obtain ⟨⟨_, _⟩, hreader, rfl⟩ := Option.map_eq_some_iff.1 h
    obtain ⟨hcommon, hprogress, -⟩ := PkiStatus.reader_named.1 hreader
    exact ⟨hcommon, hprogress⟩
  | _ => cases h

theorem Status.isReadFrom_field
    (h : readField (some none) (nullable Status.ofJson?) value? = some previous) :
    Status.IsReadFrom previous (value?.getD .null) := by
  have hread := nullable_getD h
  cases previous with
  | none =>
    rw [null_of_nullable hread]
    exact Status.isReadFrom_none
  | some s => exact Status.isReadFrom (of_nullable hread)

theorem PkiStatus.isReadFrom_field {previous : Option PkiStatus}
    (h : readField (some none) (nullable PkiStatus.ofJson?) value? = some previous) :
    Status.IsReadFrom (previous.map (PkiStatus.common ·)) (value?.getD .null) ∧
      CaProgress.ReadFrom ((value?.getD .null).fields?.getD ∅)
        ((previous.map (PkiStatus.progress ·)).getD {}) := by
  have hread := nullable_getD h
  cases previous with
  | none =>
    rw [null_of_nullable hread]
    exact ⟨Status.isReadFrom_none, ⟨rfl, rfl, rfl⟩⟩
  | some s =>
    obtain ⟨hcommon, hprogress⟩ := PkiStatus.readFrom (of_nullable hread)
    exact ⟨hcommon.isReadFrom, hprogress⟩

theorem Status.IsReadFrom.next (h : Status.IsReadFrom previous old) (hgeneration : Fits generation) :
    (Status.next previous generation result recordsWriteTime now nextPass).Replaces old := by
  constructor
  case fits => cases result <;> exact hgeneration
  case lastVaultSecretUpdate =>
    intro hnone
    refine h.lastVaultSecretUpdate ?_
    cases result with
    | error e => cases previous <;> exact hnone
    | ok outcome =>
      have hleft : (if recordsWriteTime && outcome.wrote then some now.write
          else (previous.getD {}).lastVaultSecretUpdate) = none := hnone
      split at hleft
      · cases hleft
      · cases previous <;> exact hleft

theorem Status.IsReadFrom.deleting (h : Status.IsReadFrom previous old) :
    (Status.deleting previous e now).Replaces old := by
  cases previous <;> exact ⟨h.fits, h.lastVaultSecretUpdate⟩

/-- The common status leaves the progress of an authority alone where it is merged into the whole
one. -/
theorem PkiStatus.ofJson?_mergeCommon {s : Status} {progress : CaProgress}
    (hold : CaProgress.ReadFrom (old.fields?.getD ∅) progress) (h : s.Replaces old) :
    PkiStatus.ofJson? (old.mergePatch s.toJson) = some ⟨s, progress⟩ := by
  obtain ⟨fields, hfields, hmerged⟩ := exists_mergePatch_record s.nodup_fields old
  have hkept (key : String) (hkey : key ∉ Status.names) :
      fields.get? key = (old.fields?.getD ∅).get? key := by
    rw [hmerged, s.lookup_fields_eq_none hkey, get?_fields]
  have hprogress : progress.ReadFrom fields := by
    constructor
    all_goals rw [hkept _ (by decide)]
    exacts [hold.state, hold.observedType, hold.observedKeyMode]
  rw [← List.append_nil s.fields] at hmerged
  have hcommon : s.ReadFrom fields := h.readFrom hmerged (by simp)
  have hread : PkiStatus.reader (.named fields) = some (⟨s, progress⟩, .named fields) :=
    PkiStatus.reader_named.2 ⟨hcommon, hprogress, rfl⟩
  rw [Status.toJson, hfields, PkiStatus.ofJson?, object?_ofDict, hread]
  rfl

-- ---------------------------------------------------------------------------
-- Objects
-- ---------------------------------------------------------------------------

theorem Resource.ofJson?_ofDict {spec? : Json → Option σ} {status? : Json → Option τ}
    {fields : Dict Json} {r : Resource σ τ}
    (hmetadata : readField none Metadata.ofJson? (fields.get? "metadata") = some r.metadata)
    (hspec : readField none spec? (fields.get? "spec") = some r.spec)
    (hstatus : readField (some none) (nullable status?) (fields.get? "status") = some r.status) :
    Resource.ofJson? spec? status? (ofDict fields) = some r := by
  rw [Resource.ofJson?, structure?_ofDict, Option.map_eq_some_iff]
  refine ⟨(r, .named fields), ?_, rfl⟩
  simp only [required, Json.optional, field_bind_eq_some]
  exact ⟨_, hmetadata, _, hspec, _, hstatus, rfl⟩

theorem get?_status_statusPatch {written : Json} (hne : written ≠ .null) (stored : Json) :
    (stored.mergePatch (statusPatch written)).get? "status" =
      some (((stored.get? "status").getD .null).mergePatch written) := by
  rw [statusPatch, get?_mergePatch_record (by simp)]
  exact mergedField_of_ne_null hne _

theorem Status.toJson_ne_null (s : Status) : s.toJson ≠ .null := by
  simp [Status.toJson, Json.record, ofDict]

theorem PkiStatus.toJson_ne_null (s : PkiStatus) : s.toJson ≠ .null := by
  simp [PkiStatus.toJson, Json.record, ofDict]

/-- A patch of the status leaves the declaration as it was. -/
theorem Resource.ofJson?_statusPatch {spec? : Json → Option σ} {status? : Json → Option τ}
    {fields : List (String × Json)} {r : Resource σ τ}
    (h : Resource.ofJson? spec? status? (.obj fields) = some r) (hne : written ≠ .null)
    (hread : status? ((((Json.obj fields).get? "status").getD .null).mergePatch written) = some s) :
    Resource.ofJson? spec? status? ((Json.obj fields).mergePatch (statusPatch written)) =
      some { r with status := some s } := by
  obtain ⟨hmetadata, hspec, -⟩ := Resource.ofJson?_obj h
  have hnames : ([("status", written)].map (·.1)).Nodup := by simp
  obtain ⟨patched, hpatched, hmerged⟩ := exists_mergePatch_record hnames (.obj fields)
  rw [statusPatch, hpatched]
  apply Resource.ofJson?_ofDict
  case hmetadata => rwa [hmerged]
  case hspec => rwa [hmerged]
  case hstatus =>
    have hfield := (hmerged "status").trans (mergedField_of_ne_null hne _)
    rw [hfield, readField, nullable_of_ne_null (mergePatch_ne_null hne _), hread]
    rfl

variable {fields : List (String × Json)}

theorem Resource.ofJson?_mergeStatus {spec? : Json → Option σ} {r : Resource σ Status} {s : Status}
    (h : Resource.ofJson? spec? Status.ofJson? (.obj fields) = some r)
    (hs : ∀ old, Status.IsReadFrom r.status old → s.Replaces old) :
    Resource.ofJson? spec? Status.ofJson? ((Json.obj fields).mergePatch (statusPatch s.toJson)) =
      some { r with status := some s } := by
  obtain ⟨-, -, hstatus⟩ := Resource.ofJson?_obj h
  refine Resource.ofJson?_statusPatch h s.toJson_ne_null ?_
  exact Status.ofJson?_mergePatch (hs _ (Status.isReadFrom_field hstatus))

theorem Pki.ofJson?_mergeStatus {p : Pki} {s : PkiStatus} (h : Pki.ofJson? (.obj fields) = some p)
    (hs : ∀ old, Status.IsReadFrom (p.status.map (·.common)) old → s.common.Replaces old) :
    Pki.ofJson? ((Json.obj fields).mergePatch (statusPatch s.toJson)) =
      some { p with status := some s } := by
  obtain ⟨-, -, hstatus⟩ := Resource.ofJson?_obj h
  refine Resource.ofJson?_statusPatch h s.toJson_ne_null ?_
  exact PkiStatus.ofJson?_mergePatch (hs _ (PkiStatus.isReadFrom_field hstatus).1)

theorem Pki.ofJson?_mergeCommon {p : Pki} {s : Status} (h : Pki.ofJson? (.obj fields) = some p)
    (hs : ∀ old, Status.IsReadFrom (p.status.map (·.common)) old → s.Replaces old) :
    Pki.ofJson? ((Json.obj fields).mergePatch (statusPatch s.toJson)) =
      some { p with status := some ⟨s, Pki.progress p⟩ } := by
  obtain ⟨-, -, hstatus⟩ := Resource.ofJson?_obj h
  obtain ⟨hcommon, hprogress⟩ := PkiStatus.isReadFrom_field hstatus
  refine Resource.ofJson?_statusPatch h s.toJson_ne_null ?_
  exact PkiStatus.ofJson?_mergeCommon hprogress (hs _ hcommon)

theorem Metadata.fits_generation (h : Metadata.ofJson? metadata = some m) : Fits m.generation := by
  cases metadata with
  | obj fields =>
    obtain ⟨⟨m, rest⟩, hreader, rfl⟩ := Option.map_eq_some_iff.1 h
    simp only [reader, reader_bind_eq_some] at hreader
    obtain ⟨_, _, -, _, _, -, _, _, -, _, _, -, generation, _, hgeneration, _, _, -, _, _, -, hdone⟩ :=
      hreader
    cases hdone
    rintro g rfl
    obtain ⟨_, hread⟩ := optional_reads hgeneration
    exact signed?_int hread
  | _ => cases h

namespace Object

theorem fits_generation {o : Object} (h : ofJson? k (.obj fields) = some o) :
    Fits o.metadata.generation := by
  have hmetadata := metadata_of_ofJson? h
  cases hfield : (Json.obj fields).get? "metadata" with
  | none =>
    rw [hfield] at hmetadata
    cases hmetadata
  | some metadata =>
    rw [hfield] at hmetadata
    exact Metadata.fits_generation hmetadata

/-- What is stored of the common status is read from its fields. -/
theorem exists_status {o : Object} (h : ofJson? k (.obj fields) = some o)
    (hstatus : (Json.obj fields).get? "status" = some (.obj stored)) :
    ∃ s, o.status = some s ∧ s.ReadFrom (Dict.ofList stored) := by
  cases k
  case pki =>
    obtain ⟨p, hp, rfl⟩ := Option.map_eq_some_iff.1 h
    obtain ⟨-, -, hread⟩ := Resource.ofJson?_obj hp
    rw [hstatus] at hread
    obtain ⟨s, hs, hsome⟩ := Option.map_eq_some_iff.1 hread
    exact ⟨s.common, congrArg (Option.map PkiStatus.common) hsome.symm, (PkiStatus.readFrom hs).1⟩
  all_goals
    obtain ⟨r, hr, rfl⟩ := Option.map_eq_some_iff.1 h
    obtain ⟨-, -, hread⟩ := Resource.ofJson?_obj hr
    rw [hstatus] at hread
    obtain ⟨s, hs, hsome⟩ := Option.map_eq_some_iff.1 hread
    obtain ⟨⟨_, _⟩, hreader, rfl⟩ := Option.map_eq_some_iff.1 hs
    exact ⟨_, hsome.symm, (Status.reader_named.1 hreader).1⟩

/-- The object with another common status; an authority keeps its progress. -/
def withCommon (o : Object) (s : Status) : Object :=
  match o with
  | pki p => pki { p with status := some ⟨s, Pki.progress p⟩ }
  | o => o.withStatus (some s)

/-- The object with the status that a pass came to. -/
def afterPass (o : Object) (outcome : PassOutcome) (now nextPass : Instant) : Object :=
  match o with
  | pki p => pki { p with status := some (pkiStatusAfter p outcome now nextPass) }
  | o =>
    o.withStatus (some (Status.next o.status o.metadata.generation outcome.result
      o.toVaultObject.recordsWriteTime now nextPass))

theorem statusJson_afterPass (o : Object) (outcome : PassOutcome) (now nextPass : Instant) :
    (o.afterPass outcome now nextPass).statusJson = o.statusAfter outcome now nextPass := by
  cases o <;> rfl

theorem ofJson?_mergeCommon {k : Kind} {o : Object} {s : Status}
    (h : ofJson? k (.obj fields) = some o)
    (hs : ∀ old, Status.IsReadFrom o.status old → s.Replaces old) :
    ofJson? k ((Json.obj fields).mergePatch (statusPatch s.toJson)) = some (o.withCommon s) := by
  cases k
  case pki =>
    obtain ⟨p, hp, rfl⟩ := Option.map_eq_some_iff.1 h
    exact congrArg (Option.map pki) (Pki.ofJson?_mergeCommon hp hs)
  all_goals
    obtain ⟨r, hr, rfl⟩ := Option.map_eq_some_iff.1 h
    exact congrArg (Option.map _) (Resource.ofJson?_mergeStatus hr hs)

theorem ofJson?_mergeAfterPass {k : Kind} {o : Object} (h : ofJson? k (.obj fields) = some o)
    (outcome : PassOutcome) (now nextPass : Instant) :
    ofJson? k ((Json.obj fields).mergePatch (statusPatch (o.statusAfter outcome now nextPass))) =
      some (o.afterPass outcome now nextPass) := by
  have hgeneration := fits_generation h
  cases k
  case pki =>
    obtain ⟨p, hp, rfl⟩ := Option.map_eq_some_iff.1 h
    refine congrArg (Option.map pki) (Pki.ofJson?_mergeStatus hp fun old hold => ?_)
    exact ⟨(hold.next hgeneration).fits, (hold.next hgeneration).lastVaultSecretUpdate⟩
  all_goals
    obtain ⟨r, hr, rfl⟩ := Option.map_eq_some_iff.1 h
    exact congrArg (Option.map _)
      (Resource.ofJson?_mergeStatus hr fun old hold => hold.next hgeneration)

/-- How far an authority has come; other kinds have no progress. -/
def progress? : Object → Option CaProgress
  | pki p => some (Pki.progress p)
  | _ => none

/-- What is recorded of passes is the same. -/
structure SharesRecord (o o' : Object) : Prop where
  progress : o'.progress? = o.progress?
  observedGeneration : o'.status.bind (·.observedGeneration) = o.status.bind (·.observedGeneration)
  nextReconcileTime : o'.status.bind (·.nextReconcileTime) = o.status.bind (·.nextReconcileTime)
  lastVaultSecretUpdate :
    o'.status.bind (·.lastVaultSecretUpdate) = o.status.bind (·.lastVaultSecretUpdate)

@[simp] theorem status_withCommon (o : Object) (s : Status) : (o.withCommon s).status = some s := by
  cases o <;> rfl

@[simp] theorem progress?_withCommon (o : Object) (s : Status) :
    (o.withCommon s).progress? = o.progress? := by
  cases o <;> rfl

theorem sharesRecord_deleting (o : Object) (e : ReconcileError) (now : Instant) :
    o.SharesRecord (o.withCommon (Status.deleting o.status e now)) := by
  constructor
  case progress => exact o.progress?_withCommon _
  all_goals
    rw [status_withCommon]
    cases o.status <;> rfl

/-- A patch of the common status passes over all that is not part of it. -/
theorem get?_status_mergeCommon (stored : Json) (s : Status) (h : key ∉ Status.names) :
    ((stored.mergePatch (statusPatch s.toJson)).get? "status").bind (·.get? key) =
      (stored.get? "status").bind (·.get? key) := by
  rw [get?_status_statusPatch s.toJson_ne_null, Option.bind_some, Status.toJson,
    get?_mergePatch_record s.nodup_fields, s.lookup_fields_eq_none h]
  cases stored.get? "status" <;> rfl

/-- Whoever reads an object after the status of a pass was merged into it finds that status and no
other. Where a deletion that failed was recorded instead, all that is known of passes is as it was,
and what is stored of the progress of an authority is not even touched. -/
theorem status_read_back {k : Kind} {o : Object} (h : ofJson? k (.obj fields) = some o) :
    (∀ outcome now nextPass,
      ofJson? k ((Json.obj fields).mergePatch (statusPatch (o.statusAfter outcome now nextPass))) =
          some (o.afterPass outcome now nextPass) ∧
        (o.afterPass outcome now nextPass).statusJson = o.statusAfter outcome now nextPass) ∧
    ∀ e now,
      ∃ o', ofJson? k ((Json.obj fields).mergePatch
          (statusPatch (Status.deleting o.status e now).toJson)) = some o' ∧
        o'.status = some (Status.deleting o.status e now) ∧ o.SharesRecord o' ∧
        ∀ key ∉ Status.names,
          (((Json.obj fields).mergePatch
            (statusPatch (Status.deleting o.status e now).toJson)).get? "status").bind
              (·.get? key) = ((Json.obj fields).get? "status").bind (·.get? key) := by
  constructor
  · intro outcome now nextPass
    exact ⟨ofJson?_mergeAfterPass h outcome now nextPass, o.statusJson_afterPass outcome now nextPass⟩
  · intro e now
    refine ⟨_, ofJson?_mergeCommon h fun _ hold => hold.deleting, o.status_withCommon _,
      o.sharesRecord_deleting e now, fun key hkey => ?_⟩
    exact get?_status_mergeCommon _ _ hkey

/-- An authority whose key was handed out, as the cluster stores it. -/
def storedAuthority : List (String × Json) :=
  [("metadata", Json.record
      [("name", .str "root"), ("namespace", .str "pki"), ("generation", .int 2)]),
    ("spec", Json.record
      [("authentication", Json.record [("role", .str "pki-admin")]), ("path", .str "pki"),
        ("type", .str "root"), ("commonName", .str "Example Root"),
        ("privateKeyType", .str "exported")]),
    ("status", Json.record
      [("conditions", .arr [(Status.validated ⟨0, 0⟩).toJson]), ("observedGeneration", .int 1),
        ("caState", (CaState.signed true).toJson), ("observedType", .str "root"),
        ("observedPrivateKeyType", .str "exported")])]

/-- An authority that could not be deleted stays signed. -/
theorem status_read_back_authority :
    ∃ o, ofJson? .pki (.obj storedAuthority) = some o ∧
      ∃ o', ofJson? .pki ((Json.obj storedAuthority).mergePatch
          (statusPatch (Status.deleting o.status (.awaiting "locked") ⟨0, 0⟩).toJson)) = some o' ∧
        o'.progress? = some ⟨.signed true, some .root, some .exported⟩ ∧
        o'.status.bind (·.observedGeneration) = some 1 := by
  have hparsed : (ofJson? .pki (.obj storedAuthority)).map
      (fun o => (o.progress?, o.status.bind (·.observedGeneration))) =
        some (some ⟨.signed true, some .root, some .exported⟩, some 1) := by
    decide +kernel
  obtain ⟨o, hseen, hrecord⟩ := Option.map_eq_some_iff.1 hparsed
  obtain ⟨hprogress, hgeneration⟩ := Prod.ext_iff.1 hrecord
  obtain ⟨-, hdeleting⟩ := status_read_back hseen
  obtain ⟨o', hread, -, hshares, -⟩ := hdeleting (.awaiting "locked") ⟨0, 0⟩
  exact ⟨o, hseen, o', hread, hshares.progress.trans hprogress,
    hshares.observedGeneration.trans hgeneration⟩

end Object

end VaultOperator
