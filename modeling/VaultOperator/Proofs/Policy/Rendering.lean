import VaultOperator.Proofs.Json.Dict
import VaultOperator.Proofs.Policy.Placeholders

/-!
# Rendering a policy

The mounts that a policy names, and its text with accessors in the places of its placeholders, are
told by the one way in which it is cut (`IsCut.referencedMounts_eq`, `IsCut.renderAccessors_ok`,
`IsCut.renderAccessors_error`).
-/

namespace VaultOperator.Policy

variable {policy : String} {table : Payload} {holes : List Hole}
  {tail mount : List Char}

/-- The accessor that a listing of auth methods gives for a mount. -/
def HasAccessor (table : Payload) (mount : List Char) (accessor : String) : Prop :=
  ∃ entry, table.get? (String.ofList mount ++ "/") = some (.obj entry) ∧
    (Dict.ofList entry).get? "accessor" = some (.str accessor)

/-- The text with the accessors of the mounts in the holes. -/
def fill (accessor : List Char → String) (holes : List Hole) (tail : List Char) : String :=
  String.ofList (holes.flatMap (fun h => h.before ++ (accessor h.mount).toList) ++ tail)

-- ---------------------------------------------------------------------------
-- The mounts of a policy
-- ---------------------------------------------------------------------------

theorem foldl_eq_eraseDups (seen mounts : List (List Char)) :
    mounts.foldl (fun seen mount => if seen.contains mount then seen else seen ++ [mount]) seen =
      seen ++ (mounts.filter fun mount => !seen.contains mount).eraseDups := by
  induction mounts generalizing seen with
  | nil => simp
  | cons mount mounts ih =>
    rw [List.foldl_cons, ih]
    by_cases hseen : seen.contains mount
    · simp only [hseen, if_true, List.filter_cons, Bool.not_true, Bool.false_eq_true, if_false]
    · have hfilter : (mounts.filter fun m => !(seen ++ [mount]).contains m) =
          (mounts.filter fun m => !seen.contains m).filter fun m => !m == mount := by
        rw [List.filter_filter]
        refine List.filter_congr fun m _ => ?_
        rw [List.contains_eq_any_beq, List.any_append, Bool.not_or, List.any_cons, List.any_nil,
          Bool.or_false, Bool.and_comm, ← List.contains_eq_any_beq]
      simp only [hseen, Bool.false_eq_true, if_false, Bool.not_false, if_true, List.filter_cons,
        hfilter, List.eraseDups_cons, List.append_assoc, List.singleton_append]

theorem find?_eraseDups (p : List Char → Bool) (mounts : List (List Char)) :
    mounts.eraseDups.find? p = mounts.find? p := by
  induction hlength : mounts.length using Nat.strong_induction_on generalizing mounts with
  | _ n ih =>
    cases mounts with
    | nil => rfl
    | cons mount mounts =>
      rw [List.eraseDups_cons]
      cases hp : p mount with
      | true => rw [List.find?_cons_of_pos hp, List.find?_cons_of_pos hp]
      | false =>
        have hshorter : (mounts.filter fun m => !m == mount).length < n := by
          rw [← hlength]
          exact Nat.lt_succ_of_le (List.length_filter_le ..)
        rw [List.find?_cons_of_neg (by simp [hp]), List.find?_cons_of_neg (by simp [hp]),
          ih _ hshorter _ rfl, List.find?_filter]
        congr 1
        funext m
        by_cases hm : m = mount <;> simp [hm, hp]

theorem filterMap_mount? (holes : List Hole) (tail : List Char) :
    (holes.flatMap Hole.pieces ++ tail.map Piece.char).filterMap Piece.mount? =
      holes.map Hole.mount := by
  have hchars (cs : List Char) : (cs.map Piece.char).filterMap Piece.mount? = [] := by
    simp [List.filterMap_eq_nil_iff, Piece.mount?]
  induction holes with
  | nil => exact hchars tail
  | cons hole holes ih =>
    rw [List.flatMap_cons, List.append_assoc, List.filterMap_append, ih, Hole.pieces,
      List.filterMap_append, hchars]
    rfl

theorem IsCut.referencedMounts_eq (h : IsCut policy.toList holes tail) :
    referencedMounts policy = (holes.map Hole.mount).eraseDups.map String.ofList := by
  rw [referencedMounts, h.pieces_eq, filterMap_mount?, foldl_eq_eraseDups, List.nil_append,
    List.filter_eq_self.2]
  exact fun _ _ => rfl

theorem isEmpty_referencedMounts_iff :
    (referencedMounts policy).isEmpty ↔ ¬ HasPlaceholder policy.toList := by
  obtain ⟨holes, tail, h⟩ := exists_isCut policy.toList
  rw [h.referencedMounts_eq, List.isEmpty_iff, List.map_eq_nil_iff]
  cases h with
  | last hnone => simpa using hnone
  | next htext hmount =>
    simp only [List.map_cons, List.eraseDups_cons, reduceCtorEq, false_iff, not_not]
    exact ⟨_, _, htext ▸ occursAt_append hmount⟩

-- ---------------------------------------------------------------------------
-- The text of a policy
-- ---------------------------------------------------------------------------

theorem accessorOf?_eq_some_iff :
    accessorOf? table (String.ofList mount) = some a ↔ HasAccessor table mount a := by
  unfold accessorOf? HasAccessor
  split
  · next entry hentry => simp [hentry, Dict.text?_eq_some_iff]
  · next hother =>
    simp only [reduceCtorEq, false_iff]
    rintro ⟨entry, hentry, -⟩
    exact hother entry hentry

theorem isNone_accessorOf?_iff :
    (accessorOf? table (String.ofList mount)).isNone ↔ ∀ a, ¬ HasAccessor table mount a := by
  rw [Option.isNone_iff_eq_none, Option.eq_none_iff_forall_ne_some]
  exact forall_congr' fun a => not_congr accessorOf?_eq_some_iff

theorem IsCut.find?_missing (h : IsCut policy.toList holes tail) (table : Payload) :
    (referencedMounts policy).find? (fun mount => (accessorOf? table mount).isNone) =
      ((holes.map Hole.mount).find? fun mount =>
        (accessorOf? table (String.ofList mount)).isNone).map String.ofList := by
  rw [h.referencedMounts_eq, List.find?_map, find?_eraseDups]
  rfl

theorem IsCut.renderAccessors_error (h : IsCut policy.toList holes tail)
    (hmounts : holes.map Hole.mount = before ++ mount :: after)
    (hbefore : ∀ m ∈ before, ∃ a, HasAccessor table m a)
    (hmount : ∀ a, ¬ HasAccessor table mount a) :
    renderAccessors policy table = .error (String.ofList mount) := by
  have hfirst : (holes.map Hole.mount).find? (fun mount =>
      (accessorOf? table (String.ofList mount)).isNone) = some mount := by
    refine List.find?_eq_some_iff_append.2 ⟨isNone_accessorOf?_iff.2 hmount, _, _, hmounts, ?_⟩
    intro m hm
    obtain ⟨a, ha⟩ := hbefore m hm
    simp [accessorOf?_eq_some_iff.2 ha]
  rw [renderAccessors, h.find?_missing, hfirst]
  rfl

theorem render_pieces {accessor : List Char → String} (tail : List Char)
    (h : ∀ hole ∈ holes, HasAccessor table hole.mount (accessor hole.mount)) :
    (holes.flatMap Hole.pieces ++ tail.map Piece.char).flatMap (Piece.render table) =
      holes.flatMap (fun hole => hole.before ++ (accessor hole.mount).toList) ++ tail := by
  have hchars (cs : List Char) : (cs.map Piece.char).flatMap (Piece.render table) = cs := by
    rw [List.flatMap_map]
    exact List.flatMap_singleton' cs
  induction holes with
  | nil => exact hchars tail
  | cons hole holes ih =>
    obtain ⟨hhole, hholes⟩ := List.forall_mem_cons.1 h
    rw [List.flatMap_cons, List.append_assoc, List.flatMap_append, ih hholes, Hole.pieces,
      List.flatMap_append, hchars, List.flatMap_cons, List.append_assoc]
    simp [Piece.render, accessorOf?_eq_some_iff.2 hhole]

theorem IsCut.renderAccessors_ok (h : IsCut policy.toList holes tail)
    (accessor : List Char → String)
    (haccessor : ∀ hole ∈ holes, HasAccessor table hole.mount (accessor hole.mount)) :
    renderAccessors policy table = .ok (fill accessor holes tail) := by
  have hnone : (holes.map Hole.mount).find? (fun mount =>
      (accessorOf? table (String.ofList mount)).isNone) = none := by
    rw [List.find?_eq_none]
    rintro _ hmem hmissing
    obtain ⟨hole, hhole, rfl⟩ := List.mem_map.1 hmem
    exact isNone_accessorOf?_iff.1 hmissing _ (haccessor hole hhole)
  rw [renderAccessors, h.find?_missing, hnone, h.pieces_eq, render_pieces tail haccessor]
  rfl

theorem renderAccessors_of_not_hasPlaceholder (h : ¬ HasPlaceholder policy.toList)
    (table : Payload) : renderAccessors policy table = .ok policy := by
  rw [(IsCut.last h).renderAccessors_ok (fun _ => "") nofun, fill, List.flatMap_nil,
    List.nil_append, String.ofList_toList]

end VaultOperator.Policy
