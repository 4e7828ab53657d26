import VaultOperator.Path.Builder
import VaultOperator.Path.Endpoint
import VaultOperator.Proofs.Text.Trim

/-!
# Segments of paths

The segments of a path that is put together are those of its parts in order (`segmentsOf_join`).
What is asked of a PKI secrets engine can therefore be told from the path alone
(`PkiOperation.path_inj`).
-/

namespace VaultOperator

namespace Text

theorem split_append_sep (sep : Char) (as bs : List Char) :
    split sep (as ++ sep :: bs) = split sep as ++ split sep bs := by
  induction as with
  | nil => simp [split]
  | cons c cs ih =>
    simp only [List.cons_append, split, ih]
    split
    · rfl
    · cases hs : split sep cs with
      | nil => exact absurd hs (split_ne_nil sep cs)
      | cons piece pieces => rfl

theorem split_of_not_mem {sep : Char} {cs : List Char} (h : sep ∉ cs) : split sep cs = [cs] := by
  induction cs with
  | nil => rfl
  | cons c cs ih =>
    simp only [List.mem_cons, not_or] at h
    simp [split, Ne.symm h.1, ih h.2]

theorem not_mem_of_mem_split {sep : Char} {cs piece : List Char} (h : piece ∈ split sep cs) :
    sep ∉ piece := by
  induction cs generalizing piece with
  | nil => simp_all [split]
  | cons c cs ih =>
    rw [split] at h
    split at h
    · rcases List.mem_cons.1 h with rfl | h
      · simp
      · exact ih h
    · next hc =>
      cases hs : split sep cs with
      | nil => exact absurd hs (split_ne_nil sep cs)
      | cons head pieces =>
        simp only [hs, List.mem_cons] at h ih
        rcases h with rfl | h
        · simp [ih (.inl rfl), Ne.symm hc]
        · exact ih (.inr h)

end Text

namespace Path

open Text

/-- What a canonical path has between its separators. -/
structure IsSegment (s : List Char) : Prop where
  ne_nil : s ≠ []
  no_separator : separator ∉ s
  trimmed : trimChars s = s

theorem segmentsOf_append (as bs : List Char) :
    segmentsOf (as ++ separator :: bs) = segmentsOf as ++ segmentsOf bs := by
  simp [segmentsOf, split_append_sep]

theorem isSegment_of_mem {s raw : List Char} (h : s ∈ segmentsOf raw) : IsSegment s := by
  simp only [segmentsOf, List.mem_filter, List.mem_map] at h
  obtain ⟨⟨piece, hp, rfl⟩, hne⟩ := h
  exact ⟨by simpa using hne, fun hc => not_mem_of_mem_split hp (mem_of_mem_trimChars hc),
    trimChars_trimChars piece⟩

theorem IsSegment.segmentsOf (h : IsSegment s) : segmentsOf s = [s] := by
  simp [Path.segmentsOf, split_of_not_mem h.no_separator, h.trimmed, h.ne_nil]

theorem segmentsOf_joinWith {segments : List (List Char)} (h : ∀ s ∈ segments, IsSegment s) :
    segmentsOf (joinWith separator segments) = segments := by
  induction segments with
  | nil => rfl
  | cons s rest ih =>
    have hs := (h s (by simp)).segmentsOf
    cases rest with
    | nil => exact hs
    | cons t rest =>
      rw [joinWith, segmentsOf_append, hs, ih fun s hs => h s (List.mem_cons_of_mem _ hs)]
      rfl

theorem segmentsOf_cleanseChars (raw : List Char) :
    segmentsOf (cleanseChars raw) = segmentsOf raw :=
  segmentsOf_joinWith fun _ => isSegment_of_mem

theorem segmentsOf_joinParts (parts : List (List Char)) :
    segmentsOf (joinWith separator parts) = parts.flatMap segmentsOf := by
  induction parts with
  | nil => rfl
  | cons part rest ih =>
    cases rest with
    | nil => simp [joinWith]
    | cons next rest => rw [joinWith, segmentsOf_append, ih]; rfl

theorem segmentsOf_join (parts : List String) :
    segmentsOf (join parts).toList = parts.flatMap fun part => segmentsOf part.toList := by
  simp only [join, cleanse, joinRaw, String.toList_ofList, segmentsOf_cleanseChars,
    segmentsOf_joinParts, List.flatMap_map]

theorem joinWith_append (sep : Char) {as bs : List (List Char)} (ha : as ≠ []) (hb : bs ≠ []) :
    joinWith sep (as ++ bs) = joinWith sep as ++ sep :: joinWith sep bs := by
  induction as with
  | nil => exact absurd rfl ha
  | cons a as ih =>
    cases as with
    | nil =>
      cases bs with
      | nil => exact absurd rfl hb
      | cons b bs => rfl
    | cons a' as =>
      have htail := ih (List.cons_ne_nil a' as)
      simp only [List.cons_append, joinWith, List.append_assoc] at htail ⊢
      rw [htail]

theorem join_eq (parts : List String) :
    join parts =
      String.ofList (joinWith separator (parts.flatMap fun part => segmentsOf part.toList)) := by
  simp only [join, cleanse, cleanseChars, joinRaw, String.toList_ofList, segmentsOf_joinParts,
    List.flatMap_map]

/-- A path is put together from its segments, wherever they come from. -/
theorem join_congr {parts parts' : List String}
    (h : (parts.flatMap fun part => segmentsOf part.toList) =
      parts'.flatMap fun part => segmentsOf part.toList) : join parts = join parts' := by
  rw [join_eq, join_eq, h]

theorem join_append (parts parts' : List String)
    (h : (parts.flatMap fun part => segmentsOf part.toList) ≠ [])
    (h' : (parts'.flatMap fun part => segmentsOf part.toList) ≠ []) :
    join (parts ++ parts') = join parts ++ "/" ++ join parts' := by
  apply String.toList_inj.1
  simp only [join_eq, List.flatMap_append, joinWith_append separator h h', String.toList_ofList,
    String.toList_append, List.append_assoc]
  rfl

theorem build_ok (h : build steps = .ok path) :
    path = join (steps.filterMap Step.raw?) ∧ path ≠ "" := by
  unfold build at h
  split at h
  · cases h
  · dsimp only at h
    split at h
    · cases h
    · next hsome =>
      obtain rfl := Except.ok.inj h
      exact ⟨rfl, by simpa using hsome⟩

theorem eq_of_build (h : build steps = .ok path) : path = join (steps.filterMap Step.raw?) :=
  (build_ok h).1

theorem segmentsOf_of_build (h : build steps = .ok path) :
    segmentsOf path.toList =
      (steps.filterMap Step.raw?).flatMap fun part => segmentsOf part.toList := by
  rw [eq_of_build h, segmentsOf_join]

/-- A path that was built has segments. -/
theorem segmentsOf_build_ne_nil (h : build steps = .ok path) : segmentsOf path.toList ≠ [] := by
  intro hnone
  obtain ⟨hpath, hsome⟩ := build_ok h
  rw [segmentsOf_of_build h] at hnone
  rw [hpath, join_eq, hnone] at hsome
  exact hsome rfl

namespace PkiOperation

theorem segmentsOf_suffix (op : PkiOperation) :
    (op.suffix.flatMap fun part => segmentsOf part.toList) = op.suffix.map String.toList := by
  cases op with
  | generate type mode => cases type <;> cases mode <;> decide
  | _ => decide

theorem segmentsOf_path (op : PkiOperation) (mount : String) :
    segmentsOf (op.path mount).toList = segmentsOf mount.toList ++ op.suffix.map String.toList := by
  rw [path, segmentsOf_join, List.flatMap_cons, segmentsOf_suffix]

/-- An endpoint tells the operation and the mount. -/
theorem path_inj {op op' : PkiOperation} {mount mount' : String}
    (h : op.path mount = op'.path mount') : op = op' := by
  have hsegments := congrArg (fun path => (segmentsOf path.toList).reverse) h
  simp only [segmentsOf_path, List.reverse_append] at hsegments
  cases op with
  | generate type mode =>
    cases op' with
    | generate type' mode' =>
      cases type <;> cases mode <;> cases type' <;> cases mode' <;>
        simp_all [suffix, CaType.name, KeyMode.name]
    | _ => cases mode <;> simp_all [suffix, KeyMode.name]
  | _ =>
    cases op' with
    | generate type' mode' => cases mode' <;> simp_all [suffix, KeyMode.name]
    | _ => simp_all [suffix]

end PkiOperation

end Path

end VaultOperator
