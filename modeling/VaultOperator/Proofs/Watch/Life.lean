import VaultOperator.Memory.World
import VaultOperator.Proofs.Watch.Finalizers

/-!
# The life of an object

An object of the cluster is looked at, patched and edited until it is gone (`Life`). A look may see
it as it was some time ago, may be answered anything and may break off at any event. As long as
nobody else takes the finalizer off, an object that was written to Vault is not gone before a
deletion of it from Vault succeeded (`finalizer_protocol`).
-/

namespace VaultOperator.Watch

open Program (Exec)

/-- The settings that passes get from the configuration of the operator. -/
def settings (c : Config) : Engine.Settings :=
  { defaults := c.vault, tokenTtlSeconds := c.tokenTtlSeconds }

theorem reconcile_ends (h : Exec (reconcile c o table) es r) : RunEnd (settings c) o es :=
  run_ends h

/-- A look at an object, and what has happened in it so far. -/
structure Look where
  config : Config
  seen : Object
  /-- What was stored when the look began, which need not be what was seen. -/
  stored : Option Json
  events : List Event

namespace Look

def followedBy (look : Look) (e : Event) : Look :=
  { look with events := look.events ++ [e] }

/-- The events go on in some way. -/
def IsBegun (look : Look) : Prop :=
  ∃ table rest r, Exec (reconcile look.config look.seen table) (look.events ++ rest) r

/-- What was seen was what was stored. -/
def IsFresh (look : Look) (ref : ObjectRef) : Prop :=
  ∃ fields, look.stored = some (.obj fields) ∧
    Object.ofJson? ref.kind (.obj fields) = some look.seen

/-- The object was seen being deleted, and its deletion from Vault succeeded. -/
def IsDeletion (look : Look) : Prop :=
  look.seen.metadata.deleting ∧ look.seen.metadata.hasFinalizer ∧
    ∃ deletion rest outcome, look.events = deletion ++ rest ∧
      look.seen.Deletion (settings look.config) deletion (.ok outcome)

end Look

/-- What an event can make of the stored object. A patch that failed may have been made all the
same, and none is made of an object that is gone. -/
inductive Takes (ref : ObjectRef) (e : Event) : Option Json → Option Json → Prop
  | unchanged (h : e.patch? ref = none ∨ e.isRefused) : Takes ref e current current
  | merged (h : e.patch? ref = some patch) :
    Takes ref e (some stored) (some (stored.mergePatch patch))

def isDeleting (stored : Json) : Bool :=
  ((stored.get? "metadata").bind (·.get? "deletionTimestamp")).isSome

/-- The looks at an object, the last one first, the forms in which it was stored, and the one in
which it is stored now, if it is not gone. It goes when it is being deleted and has no finalizers
left. -/
inductive Life (Edits : Json → Json → Prop) (ref : ObjectRef) :
    List Look → List Json → Option Json → Prop
  | start (stored : Json) : Life Edits ref [] [stored] (some stored)
  | opened (life : Life Edits ref looks versions current) (config : Config)
    (hversion : .obj fields ∈ versions) (hseen : Object.ofJson? ref.kind (.obj fields) = some o)
    (href : o.ref = ref) : Life Edits ref (⟨config, o, current, []⟩ :: looks) versions current
  | event (life : Life Edits ref (look :: looks) versions current)
    (hbegun : (look.followedBy e).IsBegun) (htakes : Takes ref e current next) :
    Life Edits ref (look.followedBy e :: looks) (next.toList ++ versions) next
  | edit (life : Life Edits ref looks versions (some stored)) (hedits : Edits stored edited) :
    Life Edits ref looks (edited :: versions) (some edited)
  | drop (life : Life Edits ref looks versions (some stored)) (hdeleting : isDeleting stored)
    (hreleased : storedFinalizers stored = []) : Life Edits ref looks versions none

-- ---------------------------------------------------------------------------
-- What each step leaves
-- ---------------------------------------------------------------------------

/-- The finalizer is still on the object, unless the object was deleted from Vault. -/
def IsGuarded (looks : List Look) (current : Option Json) : Prop :=
  (∃ look ∈ looks, look.IsDeletion) ∨ ∃ stored, current = some stored ∧ HasFinalizer stored

theorem Look.IsDeletion.followedBy {look : Look} (h : look.IsDeletion) :
    (look.followedBy e).IsDeletion := by
  obtain ⟨hdeleting, hguarded, deletion, rest, outcome, hevents, hdelete⟩ := h
  exact ⟨hdeleting, hguarded, deletion, rest ++ [e], outcome,
    by rw [Look.followedBy, hevents, List.append_assoc], hdelete⟩

theorem IsGuarded.opened (h : IsGuarded looks current) : IsGuarded (look :: looks) current :=
  h.imp_left fun ⟨deleted, hmem, hdeleted⟩ => ⟨deleted, List.mem_cons_of_mem _ hmem, hdeleted⟩

theorem IsGuarded.event (h : IsGuarded (look :: looks) current)
    (hbegun : (look.followedBy e).IsBegun) (href : look.seen.ref = ref)
    (htakes : Takes ref e current next) : IsGuarded (look.followedBy e :: looks) next := by
  rcases h with ⟨deleted, hmem, hdeleted⟩ | ⟨stored, rfl, hfinalizer⟩
  · left
    rcases List.mem_cons.1 hmem with rfl | hmem
    · exact ⟨_, List.mem_cons_self, hdeleted.followedBy⟩
    · exact ⟨deleted, List.mem_cons_of_mem _ hmem, hdeleted⟩
  · cases htakes with
    | unchanged => exact .inr ⟨stored, rfl, hfinalizer⟩
    | merged hpatch =>
      obtain ⟨table, rest, r, hexec⟩ := hbegun
      have hends := reconcile_ends hexec
      rw [Look.followedBy, List.append_assoc] at hends
      subst href
      rcases patch_cases hends hpatch with ⟨status, rfl⟩ | ⟨finalizers, hmem, rfl⟩ |
        ⟨hdeleting, hguarded, outcome, hdelete⟩
      · refine .inr ⟨_, rfl, ?_⟩
        rwa [HasFinalizer, storedFinalizers_statusPatch]
      · refine .inr ⟨_, rfl, ?_⟩
        rwa [HasFinalizer, storedFinalizers_finalizersPatch]
      · exact .inl ⟨_, List.mem_cons_self, hdeleting, hguarded, look.events, [e], outcome, rfl,
          hdelete⟩

theorem IsGuarded.edit (h : IsGuarded looks (some stored))
    (hedit : HasFinalizer stored → HasFinalizer edited) : IsGuarded looks (some edited) := by
  refine h.imp_right ?_
  rintro ⟨_, ⟨⟩, hfinalizer⟩
  exact ⟨edited, rfl, hedit hfinalizer⟩

theorem IsGuarded.drop {stored : Json} (h : IsGuarded looks (some stored))
    (hreleased : storedFinalizers stored = []) :
    IsGuarded looks none := by
  refine h.imp_right ?_
  rintro ⟨_, ⟨⟩, hfinalizer⟩
  rw [HasFinalizer, hreleased] at hfinalizer
  cases hfinalizer

-- ---------------------------------------------------------------------------
-- A whole life
-- ---------------------------------------------------------------------------

/-- Nobody else takes the finalizer off. -/
def KeepsFinalizer (stored edited : Json) : Prop :=
  HasFinalizer stored → HasFinalizer edited

/-- What is known of all looks at an object, whoever edits it. -/
structure Look.IsOf (ref : ObjectRef) (versions : List Json) (look : Look) : Prop where
  named : look.seen.ref = ref
  seen : ∃ fields, .obj fields ∈ versions ∧ Object.ofJson? ref.kind (.obj fields) = some look.seen
  begun : look.IsBegun

theorem Life.isOf (h : Life Edits ref looks versions current) :
    ∀ look ∈ looks, look.IsOf ref versions := by
  induction h with
  | start => simp
  | @opened looks versions current fields o _ config hversion hseen href ih =>
    refine List.forall_mem_cons.2 ⟨⟨href, ⟨fields, hversion, hseen⟩, ?_⟩, ih⟩
    have hexec := Program.exec_run Program.scripted (reconcile config o (.new 0 0)) []
    exact ⟨_, _, _, hexec⟩
  | @event look looks versions current e next _ hbegun _ ih =>
    have hgrown {look : Look} (h : look.IsOf ref versions) :
        look.IsOf ref (next.toList ++ versions) :=
      ⟨h.named, h.seen.imp fun _ => And.imp_left (List.mem_append_right _), h.begun⟩
    obtain ⟨hlook, hlooks⟩ := List.forall_mem_cons.1 ih
    refine List.forall_mem_cons.2 ⟨⟨hlook.named, (hgrown hlook).seen, hbegun⟩, fun look hmem => ?_⟩
    exact hgrown (hlooks look hmem)
  | edit _ _ ih =>
    intro look hmem
    have hlook := ih look hmem
    exact ⟨hlook.named, hlook.seen.imp fun _ => And.imp_left (List.mem_cons_of_mem _), hlook.begun⟩
  | drop _ _ _ ih => exact ih

/-- From the first form that had the finalizer on the object is guarded. -/
theorem Life.isGuarded (h : Life KeepsFinalizer ref looks versions current)
    (hfinalizer : ∃ version ∈ versions, HasFinalizer version) : IsGuarded looks current := by
  induction h with
  | start stored =>
    obtain ⟨_, hmem, hfinalizer⟩ := hfinalizer
    obtain rfl := List.mem_singleton.1 hmem
    exact .inr ⟨_, rfl, hfinalizer⟩
  | opened _ _ _ _ _ ih => exact (ih hfinalizer).opened
  | @event look looks versions current e next life hbegun htakes ih =>
    have href := (life.isOf look List.mem_cons_self).named
    obtain ⟨version, hmem, hfinalizer⟩ := hfinalizer
    rcases List.mem_append.1 hmem with hmem | hmem
    · exact .inr ⟨version, Option.mem_toList.1 hmem, hfinalizer⟩
    · exact (ih ⟨version, hmem, hfinalizer⟩).event hbegun href htakes
  | @edit looks versions stored edited _ hedits ih =>
    obtain ⟨version, hmem, hfinalizer⟩ := hfinalizer
    rcases List.mem_cons.1 hmem with rfl | hmem
    · exact .inr ⟨_, rfl, hfinalizer⟩
    · exact (ih ⟨version, hmem, hfinalizer⟩).edit hedits
  | drop _ _ hreleased ih => exact (ih hfinalizer).drop hreleased

/-- A look that began with the finalizer on the object guards it from then on. -/
theorem Life.isGuarded_since (h : Life KeepsFinalizer ref looks versions current)
    (hlooks : looks = later ++ look :: earlier) (hstored : look.stored = some stored)
    (hfinalizer : HasFinalizer stored) : IsGuarded (later ++ [look]) current := by
  induction h generalizing later look earlier with
  | start => simp at hlooks
  | opened _ _ _ _ _ ih =>
    cases later with
    | nil =>
      obtain ⟨rfl, -⟩ := List.cons.inj hlooks
      exact .inr ⟨stored, hstored, hfinalizer⟩
    | cons last later =>
      obtain ⟨-, rfl⟩ := List.cons.inj hlooks
      exact (ih rfl hstored).opened
  | @event last looks versions current e next life hbegun htakes ih =>
    have href := (life.isOf last List.mem_cons_self).named
    cases later with
    | nil =>
      obtain ⟨rfl, rfl⟩ := List.cons.inj hlooks
      have hguarded : IsGuarded ([] ++ [last]) current := ih rfl hstored
      exact hguarded.event hbegun href htakes
    | cons _ later =>
      obtain ⟨rfl, rfl⟩ := List.cons.inj hlooks
      have hguarded : IsGuarded ((last :: later) ++ [look]) current := ih rfl hstored
      exact hguarded.event hbegun href htakes
  | edit _ hedits ih => exact (ih hlooks hstored).edit hedits
  | drop _ _ hreleased ih => exact (ih hlooks hstored).drop hreleased

theorem Life.mem_versions (h : Life Edits ref looks versions (some stored)) :
    stored ∈ versions := by
  generalize hcurrent : some stored = current at h
  induction h with
  | start => simpa using hcurrent
  | opened _ _ _ _ _ ih => exact ih hcurrent
  | event =>
    subst hcurrent
    simp
  | edit =>
    obtain rfl := Option.some.inj hcurrent
    exact List.mem_cons_self
  | drop => cases hcurrent

/-- A look that goes on to the end, with all patches made that did not fail. -/
theorem Life.finished
    (life : Life Edits ref (⟨c, o, began, before⟩ :: looks) versions (some stored))
    (h : Exec (reconcile c o table) (before ++ es) r) :
    ∃ versions, Life Edits ref (⟨c, o, began, before ++ es⟩ :: looks) versions
      (some (storedAfter ref es stored)) := by
  induction es generalizing before stored versions with
  | nil =>
    rw [List.append_nil]
    exact ⟨versions, life⟩
  | cons e es ih =>
    have hes : before ++ e :: es = (before ++ [e]) ++ es := by simp
    have hbegun : (Look.followedBy ⟨c, o, began, before⟩ e).IsBegun := ⟨table, es, r, hes ▸ h⟩
    have hnext : ∃ next, Takes ref e (some stored) (some next) ∧
        storedAfter ref (e :: es) stored = storedAfter ref es next := by
      rw [storedAfter]
      split
      · next hpatch => exact ⟨_, .merged hpatch, rfl⟩
      · next hnone =>
        refine ⟨stored, .unchanged ?_, rfl⟩
        cases hrefused : e.isRefused with
        | false =>
          exact .inl (Option.eq_none_iff_forall_ne_some.2 fun patch => hnone patch hrefused)
        | true => exact .inr rfl
    obtain ⟨next, htakes, hstored⟩ := hnext
    rw [hstored, hes]
    exact ih (life.event hbegun htakes) (hes ▸ h)

theorem Look.IsOf.not_isDeletion_of_writes {look : Look} (h : look.IsOf ref versions)
    (hwrites : writes look.events ≠ []) : look.seen.metadata.hasFinalizer ∧ ¬ look.IsDeletion := by
  obtain ⟨table, rest, r, hexec⟩ := h.begun
  have hwrites : writes (look.events ++ rest) ≠ [] := by
    simp [hwrites]
  obtain ⟨hguarded, hkept⟩ := (reconcile_ends hexec).guarded_of_writes hwrites
  exact ⟨hguarded, fun hdeletion => hkept hdeletion.1⟩

/-- Every look keeps to the protocol of finalizers, whatever it is answered. An object that nobody
else takes the finalizer off is therefore not gone, once a look wrote to Vault, before a deletion
from there succeeded, and where the look had seen what was stored that was later than the look. -/
theorem finalizer_protocol :
    (∀ c o table es r, Exec (reconcile c o table) es r → FollowsProtocol (settings c) o es) ∧
    ∀ ref looks versions, Life KeepsFinalizer ref looks versions none →
      ∀ later look earlier, looks = later ++ look :: earlier → writes look.events ≠ [] →
        (∃ deletion ∈ looks, deletion.IsDeletion) ∧
          (look.IsFresh ref → ∃ deletion ∈ later, deletion.IsDeletion) := by
  refine ⟨fun c o table es r h => (reconcile_ends h).followsProtocol, ?_⟩
  intro ref looks versions life later look earlier hlooks hwrites
  have hof := life.isOf look (hlooks ▸ List.mem_append_right _ List.mem_cons_self)
  obtain ⟨hguarded, hkept⟩ := hof.not_isDeletion_of_writes hwrites
  constructor
  · obtain ⟨fields, hversion, hseen⟩ := hof.seen
    have hfinalizer := (Object.hasFinalizer_stored hseen).1 hguarded
    exact (life.isGuarded ⟨_, hversion, hfinalizer⟩).resolve_right nofun
  · rintro ⟨fields, hstored, hseen⟩
    have hfinalizer := (Object.hasFinalizer_stored hseen).1 hguarded
    obtain ⟨deletion, hmem, hdeletion⟩ :=
      (life.isGuarded_since hlooks hstored hfinalizer).resolve_right nofun
    rcases List.mem_append.1 hmem with hmem | hmem
    · exact ⟨deletion, hmem, hdeletion⟩
    · obtain rfl := List.mem_singleton.1 hmem
      exact absurd hdeletion hkept

-- ---------------------------------------------------------------------------
-- A policy
-- ---------------------------------------------------------------------------

def readerPath : String :=
  "/apis/vault.octopilot.io/v1alpha1/namespaces/team-a/policies/reader"

def readerRef : ObjectRef := ⟨.policy, "team-a", "reader"⟩

/-- A policy as the cluster stores it. -/
def storedReader (rules : String) : Json :=
  Json.record
    [("metadata", Json.record
      [("name", .str "reader"), ("namespace", .str "team-a"),
        ("finalizers", Json.ofStrings [finalizer])]),
      ("spec", Json.record
        [("authentication", Json.record [("role", .str "admin")]), ("policy", .str rules)])]

/-- What the cluster notes of an object that is to be deleted. -/
def deletionPatch : Json :=
  Json.record [("metadata", Json.record [("deletionTimestamp", .str "2024-01-01T00:00:00Z")])]

def seenReader (stored : Json) : Object :=
  (Object.ofJson? .policy stored).getD (.policy ⟨{}, ⟨⟨none, { role := "" }⟩, none, ""⟩, none⟩)

theorem ofJson?_seenReader (h : (Object.ofJson? .policy stored).isSome) :
    Object.ofJson? .policy stored = some (seenReader stored) := by
  obtain ⟨o, ho⟩ := Option.isSome_iff_exists.1 h
  rw [seenReader, ho]
  rfl

def lookAtReader (vault : Memory.VaultServer) (stored : Json) :=
  (reconcile {} (seenReader stored) (.new 1 10)).run Memory.Backends.clusterWorld
    { vault, cluster := { objects := Dict.ofList [(readerPath, stored)] }, clock := ⟨0, 0⟩ }

def readerLook (vault : Memory.VaultServer) (stored : Json) : Look :=
  ⟨{}, seenReader stored, some stored, (lookAtReader vault stored).events⟩

/-- The policy after a look at it. -/
def readerAfter (vault : Memory.VaultServer) (stored : Json) : Json :=
  storedAfter readerRef (lookAtReader vault stored).events stored

/-- The policy once it was looked at and is to be deleted. -/
def deletedReader (vault : Memory.VaultServer) (rules : String) : Json :=
  (readerAfter vault (storedReader rules)).mergePatch deletionPatch

theorem exists_deletedReader (vault : Memory.VaultServer) (rules : String) :
    ∃ fields, deletedReader vault rules = .obj fields := by
  have hnodup : [("metadata", Json.record
      [("deletionTimestamp", .str "2024-01-01T00:00:00Z")])].map (·.1) |>.Nodup := by simp
  obtain ⟨_, hfields, -⟩ := Json.exists_mergePatch_record hnodup
    (readerAfter vault (storedReader rules))
  exact ⟨_, hfields⟩

theorem readerLook_exec (vault : Memory.VaultServer) (stored : Json) :
    ∃ r, Exec (reconcile {} (seenReader stored) (.new 1 10)) (readerLook vault stored).events r :=
  ⟨_, Program.exec_run _ _ _⟩

/-- A whole look at the policy. -/
theorem Life.looked (vault : Memory.VaultServer)
    (life : Life Edits readerRef looks versions (some (.obj fields)))
    (hseen : (Object.ofJson? .policy (.obj fields)).isSome)
    (href : (seenReader (.obj fields)).ref = readerRef) :
    ∃ versions, Life Edits readerRef (readerLook vault (.obj fields) :: looks) versions
      (some (readerAfter vault (.obj fields))) := by
  obtain ⟨_, hexec⟩ := readerLook_exec vault (.obj fields)
  have life := life.opened {} life.mem_versions (ofJson?_seenReader hseen) href
  exact life.finished hexec

/-- The policy is looked at before it is to be deleted and after. -/
theorem life_reader (vault vault' : Memory.VaultServer) (rules : String)
    (hseen : (Object.ofJson? .policy (storedReader rules)).isSome)
    (href : (seenReader (storedReader rules)).ref = readerRef)
    (hkept : HasFinalizer (deletedReader vault rules))
    (hseen' : (Object.ofJson? .policy (deletedReader vault rules)).isSome)
    (href' : (seenReader (deletedReader vault rules)).ref = readerRef) :
    ∃ versions, Life KeepsFinalizer readerRef
      [readerLook vault' (deletedReader vault rules), readerLook vault (storedReader rules)] versions
      (some (readerAfter vault' (deletedReader vault rules))) := by
  have life : Life KeepsFinalizer readerRef [] [storedReader rules] (some (storedReader rules)) :=
    .start _
  obtain ⟨versions, life⟩ := life.looked vault hseen href
  have life := life.edit fun _ => hkept
  obtain ⟨fields, hfields⟩ := exists_deletedReader vault rules
  rw [hfields] at life hseen' href' ⊢
  exact life.looked vault' hseen' href'

/-- Vault once the policy was written. -/
def writtenVault : Memory.VaultServer :=
  (lookAtReader {} (storedReader "path")).state.vault

/-- All that is asked of the looks at the policy, in one evaluation. -/
theorem reader_facts :
    (Object.ofJson? .policy (storedReader "path")).isSome ∧
      (seenReader (storedReader "path")).ref = readerRef ∧
      finalizer ∈ storedFinalizers (deletedReader {} "path") ∧
      (Object.ofJson? .policy (deletedReader {} "path")).isSome ∧
      (seenReader (deletedReader {} "path")).ref = readerRef ∧
      isDeleting (readerAfter writtenVault (deletedReader {} "path")) ∧
      storedFinalizers (readerAfter writtenVault (deletedReader {} "path")) = [] ∧
      (writes (lookAtReader {} (storedReader "path")).events).isEmpty = false := by
  decide +kernel

/-- A policy is written, deleted from Vault and only then gone. -/
theorem finalizer_protocol_reader :
    (∃ es r, Exec (reconcile {} (seenReader (storedReader "path")) (.new 1 10)) es r ∧
      FollowsProtocol (settings {}) (seenReader (storedReader "path")) es) ∧
    ∃ looks versions written deleted, Life KeepsFinalizer readerRef looks versions none ∧
      looks = [deleted] ++ written :: [] ∧ writes written.events ≠ [] ∧ written.IsFresh readerRef ∧
      (∃ deletion ∈ looks, deletion.IsDeletion) ∧ deleted.IsDeletion := by
  obtain ⟨hseen, href, hkept, hseen', href', hdeleting, hreleased, hwritten⟩ := reader_facts
  obtain ⟨hprotocol, hlife⟩ := finalizer_protocol
  obtain ⟨_, hexec⟩ := readerLook_exec {} (storedReader "path")
  refine ⟨⟨_, _, hexec, hprotocol _ _ _ _ _ hexec⟩, ?_⟩
  obtain ⟨versions, life⟩ := life_reader {} writtenVault "path" hseen href hkept hseen' href'
  have life := life.drop hdeleting hreleased
  have hwrites : writes (readerLook {} (storedReader "path")).events ≠ [] :=
    List.isEmpty_eq_false_iff.1 hwritten
  have hfresh : (readerLook {} (storedReader "path")).IsFresh readerRef :=
    ⟨_, rfl, ofJson?_seenReader hseen⟩
  obtain ⟨hdeleted, hlater⟩ := hlife _ _ _ life [_] _ [] rfl hwrites
  obtain ⟨deletion, hmem, hdeletion⟩ := hlater hfresh
  obtain rfl := List.mem_singleton.1 hmem
  exact ⟨_, _, _, _, life, rfl, hwrites, hfresh, hdeleted, hdeletion⟩

end VaultOperator.Watch
