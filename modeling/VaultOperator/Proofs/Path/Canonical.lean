import Mathlib.Data.List.Forall2
import VaultOperator.Proofs.Path.Segments

/-!
# The canonical form of paths

A path is clean where each piece between two separators is a segment, and these are the paths that
cleansing leaves as they are (`isClean_iff_cleanse_eq`). The segments of a text are what is left of
its pieces when they are trimmed and the empty ones are dropped, and its canonical form holds them
in their order (`canonical_form`).
-/

namespace VaultOperator

namespace Text

-- ---------------------------------------------------------------------------
-- Empty pieces
-- ---------------------------------------------------------------------------

theorem split_joinWith {sep : Char} {pieces : List (List Char)} (hne : pieces ≠ [])
    (h : ∀ piece ∈ pieces, sep ∉ piece) : split sep (joinWith sep pieces) = pieces := by
  induction pieces with
  | nil => exact absurd rfl hne
  | cons piece rest ih =>
    obtain ⟨hpiece, hrest⟩ := List.forall_mem_cons.1 h
    cases rest with
    | nil => exact split_of_not_mem hpiece
    | cons next rest =>
      rw [joinWith, split_append_sep, split_of_not_mem hpiece, ih (List.cons_ne_nil _ _) hrest]
      rfl

theorem split_cons_of_ne {sep c : Char} (h : c ≠ sep) (cs : List Char) :
    ∃ piece pieces, split sep cs = piece :: pieces ∧
      split sep (c :: cs) = (c :: piece) :: pieces := by
  cases hs : split sep cs with
  | nil => exact absurd hs (split_ne_nil sep cs)
  | cons piece pieces => exact ⟨piece, pieces, rfl, by simp [split, h, hs]⟩

/-- The first piece is empty where there is nothing or a separator stands first. -/
theorem nil_mem_split_iff {sep : Char} {cs : List Char} :
    [] ∈ split sep cs ↔ cs = [] ∨ cs.head? = some sep ∨ [] ∈ (split sep cs).tail := by
  cases cs with
  | nil => simp [split]
  | cons c cs =>
    by_cases h : c = sep
    · simp [split, h]
    · obtain ⟨piece, pieces, -, hs⟩ := split_cons_of_ne h cs
      simp [hs, h]

/-- A later piece is empty where a separator stands last or next to another. -/
theorem nil_mem_tail_split_iff {sep : Char} {cs : List Char} :
    [] ∈ (split sep cs).tail ↔ cs.getLast? = some sep ∨ occursIn [sep, sep] cs := by
  induction cs with
  | nil => simp [split, occursIn]
  | cons c cs ih =>
    have hlast : (c :: cs).getLast? = some sep ↔
        cs = [] ∧ c = sep ∨ cs.getLast? = some sep := by
      cases cs <;> simp
    have hoccurs : occursIn [sep, sep] (c :: cs) ↔
        c = sep ∧ cs.head? = some sep ∨ occursIn [sep, sep] cs := by
      cases cs <;> simp [occursIn, List.isPrefixOf, @eq_comm _ sep]
    rw [hlast, hoccurs]
    by_cases h : c = sep
    · have htail : (split sep (c :: cs)).tail = split sep cs := by simp [split, h]
      rw [htail, nil_mem_split_iff, ih]
      simp only [h, and_true, true_and]
      tauto
    · obtain ⟨piece, pieces, hs, hcons⟩ := split_cons_of_ne h cs
      rw [hs, List.tail_cons] at ih
      rw [hcons, List.tail_cons, ih]
      simp [h]

end Text

namespace Path

open Text

-- ---------------------------------------------------------------------------
-- Clean paths
-- ---------------------------------------------------------------------------

/-- A path is clean if it is empty or each piece of it is a segment. -/
theorem isClean_iff {path : String} :
    isClean path ↔ path = "" ∨ ∀ piece ∈ split separator path.toList, IsSegment piece := by
  have hempty : path = "" ↔ path.toList = [] := by simp
  have hsegment : (∀ piece ∈ split separator path.toList, IsSegment piece) ↔
      [] ∉ split separator path.toList ∧
        ∀ piece ∈ split separator path.toList, trimChars piece = piece := by
    refine ⟨fun h => ⟨fun hnil => (h [] hnil).ne_nil rfl, fun piece hp => (h piece hp).trimmed⟩, ?_⟩
    rintro ⟨hnil, htrimmed⟩ piece hp
    exact ⟨fun hempty => hnil (hempty ▸ hp), not_mem_of_mem_split hp, htrimmed piece hp⟩
  rw [hsegment, nil_mem_split_iff, nil_mem_tail_split_iff, hempty]
  simp only [isClean, Bool.and_eq_true, bne_iff_ne, ne_eq, Bool.not_eq_true', ← Bool.not_eq_true,
    List.all_eq_true, beq_iff_eq]
  by_cases hnone : path.toList = []
  · simp [hnone, split, occursIn, trimChars]
  · simp only [hnone, false_or, not_or]
    tauto

theorem segmentsOf_of_isSegment {cs : List Char}
    (h : ∀ piece ∈ split separator cs, IsSegment piece) :
    segmentsOf cs = split separator cs := by
  have htrimmed : (split separator cs).map trimChars = split separator cs :=
    List.map_congr_left (fun piece hp => (h piece hp).trimmed) |>.trans (List.map_id _)
  rw [segmentsOf, htrimmed, List.filter_eq_self]
  intro piece hp
  simpa using (h piece hp).ne_nil

theorem cleanse_eq_self (h : isClean path) : cleanse path = path := by
  rcases isClean_iff.1 h with rfl | hsegments
  · rfl
  · rw [cleanse, cleanseChars, segmentsOf_of_isSegment hsegments, joinWith_split,
      String.ofList_toList]

theorem isClean_ofSegments {segments : List (List Char)} (h : ∀ s ∈ segments, IsSegment s) :
    isClean (String.ofList (joinWith separator segments)) := by
  rw [isClean_iff, String.toList_ofList]
  by_cases hne : segments = []
  · subst hne
    exact .inl rfl
  · rw [split_joinWith hne fun s hs => (h s hs).no_separator]
    exact .inr h

theorem isClean_cleanse (raw : String) : isClean (cleanse raw) :=
  isClean_ofSegments fun _ => isSegment_of_mem

theorem isClean_iff_cleanse_eq {path : String} : isClean path ↔ cleanse path = path :=
  ⟨cleanse_eq_self, fun h => h ▸ isClean_cleanse path⟩

theorem cleanse_join (parts : List String) : cleanse (join parts) = join parts :=
  cleanse_eq_self (isClean_cleanse _)

-- ---------------------------------------------------------------------------
-- Joining
-- ---------------------------------------------------------------------------

theorem cleanse_eq_join (raw : String) : cleanse raw = join [raw] := by
  simp [join, joinRaw, joinWith]

theorem cleanse_append (a b : String) : cleanse (a ++ "/" ++ b) = join [a, b] := by
  have hraw : joinRaw [a, b] = a ++ "/" ++ b := by
    apply String.toList_inj.1
    simp [joinRaw, joinWith, separator]
  rw [join, hraw]

theorem segmentsOf_cleanse (raw : String) :
    segmentsOf (cleanse raw).toList = segmentsOf raw.toList := by
  rw [cleanse, String.toList_ofList, segmentsOf_cleanseChars]

theorem join_map_cleanse (parts : List String) : join (parts.map cleanse) = join parts :=
  join_congr (by simp [List.flatMap_map, segmentsOf_cleanse])

theorem join_nested (before parts after : List String) :
    join (before ++ join parts :: after) = join (before ++ parts ++ after) :=
  join_congr (by simp [segmentsOf_join])

theorem segments_join (parts : List String) : segments (join parts) = parts.flatMap segments := by
  rw [segments, segmentsOf_join, List.map_flatMap]
  rfl

-- ---------------------------------------------------------------------------
-- The pieces of a text
-- ---------------------------------------------------------------------------

/-- The text is the pieces with a separator between each two of them. -/
structure IsCutInto (cs : List Char) (pieces : List (List Char)) : Prop where
  ne_nil : pieces ≠ []
  no_separator : ∀ piece ∈ pieces, separator ∉ piece
  joined : cs = joinWith separator pieces

theorem isCutInto_iff {cs : List Char} {pieces : List (List Char)} :
    IsCutInto cs pieces ↔ pieces = split separator cs := by
  constructor
  · rintro ⟨hne, hseparator, rfl⟩
    exact (split_joinWith hne hseparator).symm
  · rintro rfl
    exact ⟨split_ne_nil _ _, fun _ => not_mem_of_mem_split, (joinWith_split _ _).symm⟩

/-- What is left of the pieces of a text when they are trimmed, in their order and without those
that nothing is left of. -/
def HasSegments (cs : List Char) (segments : List (List Char)) : Prop :=
  ∃ pieces cores, IsCutInto cs pieces ∧ List.Forall₂ TrimsTo pieces cores ∧
    segments = cores.filter fun core => !core.isEmpty

theorem eq_map_of_trimsTo {pieces cores : List (List Char)}
    (h : List.Forall₂ TrimsTo pieces cores) :
    cores = pieces.map trimChars := by
  induction h with
  | nil => rfl
  | cons hcore _ ih => rw [trimsTo_iff.1 hcore, ih, List.map_cons]

theorem hasSegments_iff {cs : List Char} {segments : List (List Char)} :
    HasSegments cs segments ↔ segments = segmentsOf cs := by
  constructor
  · rintro ⟨pieces, cores, hcut, htrims, rfl⟩
    rw [eq_map_of_trimsTo htrims, isCutInto_iff.1 hcut, segmentsOf]
  · rintro rfl
    refine ⟨_, (split separator cs).map trimChars, isCutInto_iff.2 rfl, ?_, rfl⟩
    rw [List.forall₂_map_right_iff, List.forall₂_same]
    exact fun piece _ => trimsTo_trimChars piece

/-- A path is clean exactly where cleansing leaves it as it is. Cleansing can be done to the parts
of a path first, or to some of them joined, and keeps the segments of the text in their order. -/
theorem canonical_form :
    (∀ raw, isClean (cleanse raw)) ∧
      (∀ path, isClean path ↔ cleanse path = path) ∧
      (∀ raw, cleanse (cleanse raw) = cleanse raw) ∧
      (∀ a b, cleanse (a ++ "/" ++ b) = cleanse (cleanse a ++ "/" ++ cleanse b)) ∧
      (∀ parts, join (parts.map cleanse) = join parts) ∧
      (∀ before parts after,
        join (before ++ join parts :: after) = join (before ++ parts ++ after)) ∧
      (∀ parts, segments (join parts) = parts.flatMap segments) ∧
      (∀ (raw : String) list, HasSegments raw.toList list ↔ list = segmentsOf raw.toList) ∧
      (∀ raw, segments (cleanse raw) = segments raw) ∧
      ∀ raw, (cleanse raw).toList = joinWith separator (segmentsOf raw.toList) := by
  refine ⟨isClean_cleanse, fun _ => isClean_iff_cleanse_eq,
    fun raw => cleanse_eq_self (isClean_cleanse raw), fun a b => ?_, join_map_cleanse, join_nested,
    segments_join, fun _ _ => hasSegments_iff, fun raw => ?_, fun raw => ?_⟩
  · rw [cleanse_append, cleanse_append]
    exact (join_map_cleanse [a, b]).symm
  · rw [segments, segmentsOf_cleanse]
    rfl
  · rw [cleanse, String.toList_ofList, cleanseChars]

example : cleanse "/ team a//\u3000kv /" = "team a/kv" := by decide

end Path

end VaultOperator
