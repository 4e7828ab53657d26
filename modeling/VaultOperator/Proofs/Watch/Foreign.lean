import VaultOperator.Proofs.Watch.Life

/-!
# The finalizers of others

A patch of the finalizers carries the whole list, made from the one that the look had read
(`RunEnd.patch_eq`). So what the look had read of the finalizers of others stays, and what came on since
is lost (`others_overwritten`). Where nobody takes a finalizer off, no look does but one that had read
the object without it (`others_as_read`).
-/

namespace VaultOperator.Watch

open Program (Exec)

-- ---------------------------------------------------------------------------
-- The list that is asked for
-- ---------------------------------------------------------------------------

/-- The list of finalizers that a look asks for: the one that it read, with the finalizer at its end
where it had not been there, and without it where it had. -/
def changedFinalizers (seen : List String) : List String :=
  if finalizer ∈ seen then seen.filter (· ≠ finalizer) else seen ++ [finalizer]

theorem mem_changedFinalizers {other : String} {seen : List String} (h : other ≠ finalizer) :
    other ∈ changedFinalizers seen ↔ other ∈ seen := by
  unfold changedFinalizers
  split <;> simp [h]

theorem RunEnd.finalizers_eq (h : RunEnd s o es)
    (hmem : .call (.cluster (.patchFinalizers ref finalizers)) answer ∈ es) :
    finalizers = changedFinalizers o.metadata.finalizers := by
  have hguarded_iff : o.metadata.hasFinalizer ↔ finalizer ∈ o.metadata.finalizers :=
    List.contains_iff_mem
  cases h with
  | gone => cases hmem
  | guarded _ hbare answer =>
    cases List.mem_singleton.1 hmem
    rw [changedFinalizers, if_neg (hguarded_iff.not.1 hbare)]
  | released _ hguarded hdelete answer =>
    rcases List.mem_append.1 hmem with hmem | hmem
    · cases (hdelete.calls _ _ hmem).2
    · cases List.mem_singleton.1 hmem
      rw [changedFinalizers, if_pos (hguarded_iff.1 hguarded)]
  | blocked _ _ hdelete now answer =>
    rcases List.mem_append.1 hmem with hmem | hmem
    · cases (hdelete.calls _ _ hmem).2
    · simp [clockEvent, blockedEvent] at hmem
  | skipped => simp [clockEvent] at hmem
  | passed _ _ now _ hpass =>
    have hmem := (List.mem_cons.1 hmem).resolve_left (by simp [clockEvent])
    obtain ⟨_, _, _, hpatch⟩ := hpass.patch hmem rfl
    cases hpatch

/-- A look patches nothing but the status and the finalizers, and these to the list it made of those
it had read. -/
theorem RunEnd.patch_eq (h : RunEnd s o es) (he : e ∈ es) (hpatch : e.patch? ref = some patch) :
    if isFinalizersPatch e then patch = finalizersPatch (changedFinalizers o.metadata.finalizers)
    else ∃ status, patch = statusPatch status := by
  cases e with
  | count => cases hpatch
  | call c answer =>
    change c.patch? ref = some patch at hpatch
    unfold Call.patch? at hpatch
    split at hpatch
    · obtain ⟨-, hpatch⟩ := Option.ite_none_right_eq_some.1 hpatch
      cases hpatch
      exact congrArg finalizersPatch (h.finalizers_eq he)
    · obtain ⟨-, hpatch⟩ := Option.ite_none_right_eq_some.1 hpatch
      cases hpatch
      exact ⟨_, rfl⟩
    · cases hpatch

-- ---------------------------------------------------------------------------
-- The list that is stored
-- ---------------------------------------------------------------------------

variable {ref : ObjectRef} {look : Look} {looks : List Look} {versions : List Json}
  {stored next : Json} {e : Event} {patch : Json}

/-- What a patch leaves of the stored finalizers. -/
theorem storedFinalizers_merged (stored : Json) (hbegun : (look.followedBy e).IsBegun)
    (hpatch : e.patch? ref = some patch) :
    storedFinalizers (stored.mergePatch patch) =
      if isFinalizersPatch e then changedFinalizers look.seen.metadata.finalizers
      else storedFinalizers stored := by
  obtain ⟨table, rest, r, hexec⟩ := hbegun
  have he : e ∈ (look.followedBy e).events ++ rest := by simp [Look.followedBy]
  have hshape := (reconcile_ends hexec).patch_eq he hpatch
  split at hshape
  · next hfinalizers =>
    rw [hshape, storedFinalizers_finalizersPatch, if_pos hfinalizers]
    rfl
  · next hstatus =>
    obtain ⟨status, rfl⟩ := hshape
    rw [storedFinalizers_statusPatch, if_neg hstatus]

/-- The look asked for a change of the finalizers, and had read the object without this one. -/
def Look.Overlooks (look : Look) (other : String) : Prop :=
  other ∉ look.seen.metadata.finalizers ∧ ∃ e ∈ look.events, isFinalizersPatch e

theorem Look.Overlooks.followedBy (h : look.Overlooks other) : (look.followedBy e).Overlooks other :=
  ⟨h.1, h.2.imp fun _ => And.imp_left (List.mem_append_left _)⟩

/-- Nobody else takes a finalizer off. -/
def Keeps (other : String) (stored edited : Json) : Prop :=
  other ∈ storedFinalizers stored → other ∈ storedFinalizers edited

/-- The finalizer is on the object until the object is gone, unless a look overlooked it. -/
def IsKept (other : String) (looks : List Look) (current : Option Json) : Prop :=
  (∀ stored, current = some stored → other ∈ storedFinalizers stored) ∨
    ∃ look ∈ looks, look.Overlooks other

theorem IsKept.event {current next : Option Json} {other : String} (hother : other ≠ finalizer)
    (h : IsKept other (look :: looks) current) (hbegun : (look.followedBy e).IsBegun)
    (htakes : Takes ref e current next) : IsKept other (look.followedBy e :: looks) next := by
  rcases h with hstored | ⟨overlooking, hmem, hoverlooks⟩
  · cases htakes with
    | unchanged => exact .inl hstored
    | @merged patch stored hpatch =>
      have hstored : other ∈ storedFinalizers stored := hstored stored rfl
      have hnext := storedFinalizers_merged stored hbegun hpatch
      by_cases hkept : other ∈ storedFinalizers (stored.mergePatch patch)
      · exact .inl fun _ hsome => Option.some.inj hsome ▸ hkept
      · -- then it was the list of finalizers that was patched, made from one without this one
        rw [hnext] at hkept
        split at hkept
        · next hfinalizers =>
          rw [mem_changedFinalizers hother] at hkept
          exact .inr ⟨_, List.mem_cons_self, hkept, e, by simp [Look.followedBy], hfinalizers⟩
        · exact absurd hstored hkept
  · right
    rcases List.mem_cons.1 hmem with rfl | hmem
    · exact ⟨_, List.mem_cons_self, hoverlooks.followedBy⟩
    · exact ⟨overlooking, List.mem_cons_of_mem _ hmem, hoverlooks⟩

/-- Where nobody else takes it off, a finalizer that was on the object is kept, unless a look that
had read the object without it patched the finalizers. -/
theorem Life.kept_or_unread {current : Option Json} {other : String} (hother : other ≠ finalizer)
    (life : Life (Keeps other) ref looks versions current)
    (hversion : ∃ version ∈ versions, other ∈ storedFinalizers version) :
    IsKept other looks current := by
  induction life with
  | start stored =>
    obtain ⟨_, hmem, hstored⟩ := hversion
    obtain rfl := List.mem_singleton.1 hmem
    exact .inl fun _ hsome => Option.some.inj hsome ▸ hstored
  | opened _ _ _ _ _ ih =>
    exact (ih hversion).imp_right fun ⟨look, hmem, hoverlooks⟩ =>
      ⟨look, List.mem_cons_of_mem _ hmem, hoverlooks⟩
  | @event look looks versions current e next _ hbegun htakes ih =>
    obtain ⟨version, hmem, hstored⟩ := hversion
    rcases List.mem_append.1 hmem with hmem | hmem
    · left
      rintro _ rfl
      obtain rfl := List.mem_singleton.1 hmem
      exact hstored
    · exact (ih ⟨version, hmem, hstored⟩).event hother hbegun htakes
  | @edit looks versions stored edited _ hedits ih =>
    obtain ⟨version, hmem, hversion⟩ := hversion
    rcases List.mem_cons.1 hmem with rfl | hmem
    · exact .inl fun _ hsome => Option.some.inj hsome ▸ hversion
    · refine (ih ⟨version, hmem, hversion⟩).imp_left fun hstored => ?_
      exact fun _ hsome => Option.some.inj hsome ▸ hedits (hstored stored rfl)
  | drop => exact .inl fun _ hsome => by cases hsome

/-- A patch of a look leaves the stored finalizers alone, or makes them those that the look had read, the
finalizer apart: those of others that it had read are there afterwards, and no more. Where nobody
else takes it off, a finalizer that was on the object is therefore lost to no look but one that had
read the object without it. -/
theorem others_as_read :
    (∀ Edits ref look looks versions stored e patch,
      Life Edits ref (look :: looks) versions (some stored) → (look.followedBy e).IsBegun →
      e.patch? ref = some patch →
      let next := stored.mergePatch patch
      (¬ isFinalizersPatch e → storedFinalizers next = storedFinalizers stored) ∧
      (isFinalizersPatch e → ∃ fields, .obj fields ∈ versions ∧
        Object.ofJson? ref.kind (.obj fields) = some look.seen ∧
        storedFinalizers next = changedFinalizers (storedFinalizers (.obj fields)) ∧
        ∀ other, other ≠ finalizer →
          (other ∈ storedFinalizers next ↔ other ∈ storedFinalizers (.obj fields)))) ∧
    ∀ other ref looks versions current, other ≠ finalizer →
      Life (Keeps other) ref looks versions current →
      (∃ version ∈ versions, other ∈ storedFinalizers version) →
      (∀ stored, current = some stored → other ∈ storedFinalizers stored) ∨
        ∃ look ∈ looks, look.Overlooks other := by
  refine ⟨?_, fun other ref looks versions current hother life => life.kept_or_unread hother⟩
  intro Edits ref look looks versions stored e patch life hbegun hpatch next
  have hnext := storedFinalizers_merged stored hbegun hpatch
  constructor
  · intro hstatus
    rw [if_neg hstatus] at hnext
    exact hnext
  · intro hfinalizers
    obtain ⟨fields, hversion, hseen⟩ := (life.isOf look List.mem_cons_self).seen
    rw [if_pos hfinalizers, Object.finalizers_eq hseen] at hnext
    refine ⟨fields, hversion, hseen, hnext, fun other hother => ?_⟩
    have hsame : other ∈ storedFinalizers next ↔
        other ∈ changedFinalizers (storedFinalizers (.obj fields)) := by
      rw [← hnext]
    exact hsame.trans (mem_changedFinalizers hother)

-- ---------------------------------------------------------------------------
-- A policy with two owners
-- ---------------------------------------------------------------------------

def guest : String := "other.io/keep"

/-- The policy with some finalizers. -/
def readerWith (finalizers : List String) : Json :=
  (storedReader "path").mergePatch (finalizersPatch finalizers)

theorem storedFinalizers_readerWith : storedFinalizers (readerWith finalizers) = finalizers :=
  storedFinalizers_finalizersPatch _ _

theorem exists_readerWith (finalizers : List String) :
    ∃ fields, readerWith finalizers = .obj fields := by
  have hnodup : [("metadata", Json.record [("finalizers", Json.ofStrings finalizers)])].map (·.1)
      |>.Nodup := by simp
  obtain ⟨_, hfields, -⟩ := Json.exists_mergePatch_record hnodup (storedReader "path")
  exact ⟨_, hfields⟩

/-- A look that has read the policy, and asked for nothing yet. -/
def readLook (finalizers : List String) : Look :=
  ⟨{}, seenReader (readerWith finalizers), some (readerWith finalizers), []⟩

/-- The finalizers of the policy are edited once a look has read it. -/
theorem life_edited {Edits : Json → Json → Prop} {before after : List String}
    (hseen : (Object.ofJson? .policy (readerWith before)).isSome)
    (href : (readLook before).seen.ref = readerRef)
    (hedits : Edits (readerWith before) (readerWith after)) :
    ∃ versions, Life Edits readerRef [readLook before] versions (some (readerWith after)) := by
  obtain ⟨fields, hfields⟩ := exists_readerWith before
  have life : Life Edits readerRef [] [readerWith before] (some (readerWith before)) := .start _
  have hread := ofJson?_seenReader hseen
  rw [hfields] at hread
  have life := life.opened {} (hfields ▸ List.mem_cons_self) hread (hfields ▸ href)
  rw [← hfields] at life
  exact ⟨_, life.edit hedits⟩

/-- The look puts the finalizer on. -/
theorem exists_guarding {finalizers : List String}
    (href : (readLook finalizers).seen.ref = readerRef)
    (hbare : ¬ (readLook finalizers).seen.metadata.hasFinalizer)
    (hkept : ¬ (readLook finalizers).seen.metadata.deleting) :
    ∃ e patch, ((readLook finalizers).followedBy e).IsBegun ∧ isFinalizersPatch e ∧
      e.patch? readerRef = some patch := by
  obtain ⟨_, hexec⟩ := readerLook_exec {} (readerWith finalizers)
  obtain ⟨answer, hevents⟩ := (reconcile_ends hexec).followsProtocol.guards hbare hkept
  rw [hevents] at hexec
  exact ⟨_, _, ⟨_, [], _, hexec⟩, rfl, href ▸ patch?_finalizersEvent⟩

theorem readLook_facts : ∀ finalizers ∈ [[], [guest]],
    (Object.ofJson? .policy (readerWith finalizers)).isSome ∧
      (readLook finalizers).seen.ref = readerRef ∧
      ¬ (readLook finalizers).seen.metadata.hasFinalizer ∧
      ¬ (readLook finalizers).seen.metadata.deleting := by
  decide +kernel

/-- What another party puts on between the look and the patch is lost. -/
theorem others_overwritten :
    ¬ ∀ ref look looks versions stored e patch other, other ≠ finalizer →
      Life (Keeps other) ref (look :: looks) versions (some stored) →
      (look.followedBy e).IsBegun → isFinalizersPatch e → e.patch? ref = some patch →
      other ∈ storedFinalizers stored → other ∈ storedFinalizers (stored.mergePatch patch) := by
  intro hclaim
  obtain ⟨hseen, href, hbare, hkept⟩ := readLook_facts [] (by simp)
  have hedits : Keeps guest (readerWith []) (readerWith [guest]) := fun _ => by
    rw [storedFinalizers_readerWith]
    exact List.mem_cons_self
  obtain ⟨versions, life⟩ := life_edited hseen href hedits
  obtain ⟨e, patch, hbegun, hfinalizers, hpatch⟩ := exists_guarding href hbare hkept
  have hlost := hclaim _ _ _ _ _ _ _ guest (by decide) life hbegun hfinalizers hpatch
    (by rw [storedFinalizers_readerWith]; exact List.mem_cons_self)
  rw [storedFinalizers_merged _ hbegun hpatch, if_pos hfinalizers,
    mem_changedFinalizers (by decide)] at hlost
  have hunread : guest ∉ (readLook []).seen.metadata.finalizers := by decide +kernel
  exact hunread hlost

/-- What another party had put on before the look is still there after the patch. -/
theorem others_as_read_reader :
    ∃ versions e patch,
      Life (Keeps guest) readerRef [readLook [guest]] versions (some (readerWith [guest])) ∧
      ((readLook [guest]).followedBy e).IsBegun ∧ e.patch? readerRef = some patch ∧
      isFinalizersPatch e ∧ guest ∈ storedFinalizers ((readerWith [guest]).mergePatch patch) ∧
      ((∀ stored, some (readerWith [guest]) = some stored → guest ∈ storedFinalizers stored) ∨
        ∃ look ∈ [readLook [guest]], look.Overlooks guest) := by
  obtain ⟨hseen, href, hbare, hkept⟩ := readLook_facts [guest] (by simp)
  have hedits : Keeps guest (readerWith [guest]) (readerWith [guest]) := id
  obtain ⟨versions, life⟩ := life_edited hseen href hedits
  obtain ⟨e, patch, hbegun, hfinalizers, hpatch⟩ := exists_guarding href hbare hkept
  obtain ⟨hleft, hrun⟩ := others_as_read
  obtain ⟨-, hchanged⟩ := hleft _ _ _ _ _ _ _ _ life hbegun hpatch
  obtain ⟨fields, -, hread, -, hothers⟩ := hchanged hfinalizers
  have hguest : guest ∈ storedFinalizers (.obj fields) := by
    rw [← Object.finalizers_eq hread]
    decide +kernel
  have hstored : guest ∈ storedFinalizers (readerWith [guest]) := by
    rw [storedFinalizers_readerWith]
    exact List.mem_cons_self
  exact ⟨versions, e, patch, life, hbegun, hpatch, hfinalizers,
    (hothers guest (by decide)).2 hguest,
    hrun guest _ _ _ _ (by decide) life ⟨_, life.mem_versions, hstored⟩⟩

end VaultOperator.Watch
