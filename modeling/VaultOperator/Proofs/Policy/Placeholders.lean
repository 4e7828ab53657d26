import Mathlib.Data.List.TakeWhile
import Mathlib.Data.Nat.Find
import VaultOperator.Policy.Accessor

/-!
# Placeholders in a text

From the left, each placeholder is at the first place behind the one before it where there is any
(`IsCut`). A text is cut at its placeholders in one way and no other (`exists_isCut`,
`IsCut.unique`), and it is the way that the scan goes (`IsCut.pieces_eq`).
-/

namespace VaultOperator.Policy

/-- What a placeholder may name. -/
def IsMount (mount : List Char) : Prop :=
  mount ≠ [] ∧ '\x7d' ∉ mount

/-- There is a placeholder for `mount` behind the first `k` characters. -/
def OccursAt (text : List Char) (k : Nat) (mount : List Char) : Prop :=
  IsMount mount ∧ placeholder mount <+: text.drop k

def HasPlaceholder (text : List Char) : Prop :=
  ∃ k mount, OccursAt text k mount

/-- A placeholder, and what is between it and the one before. -/
structure Hole where
  before : List Char
  mount : List Char
  deriving DecidableEq, Repr

/-- A text with its holes from left to right and what is behind the last. -/
inductive IsCut : List Char → List Hole → List Char → Prop
  | last (hnone : ¬ HasPlaceholder text) : IsCut text [] text
  | next (htext : text = before ++ (placeholder mount ++ rest)) (hmount : IsMount mount)
    (hfirst : ∀ k < before.length, ∀ other, ¬ OccursAt text k other)
    (hrest : IsCut rest holes tail) : IsCut text (⟨before, mount⟩ :: holes) tail

def Hole.pieces (h : Hole) : List Piece :=
  h.before.map .char ++ [.accessor h.mount]

-- ---------------------------------------------------------------------------
-- A placeholder
-- ---------------------------------------------------------------------------

theorem not_mem_closing : '\x7d' ∉ closing := by decide

theorem mountAt?_placeholder (h : IsMount mount) (rest : List Char) :
    mountAt? (placeholder mount ++ rest) = some mount := by
  have hdrop : (placeholder mount ++ rest).drop opening.length =
      mount ++ closing ++ '\x7d' :: rest := by
    simp [placeholder]
  have hbody : (mount ++ closing ++ '\x7d' :: rest).takeWhile (· ≠ '\x7d') = mount ++ closing := by
    rw [List.takeWhile_append_of_pos]
    · simp
    · intro c hc
      rw [decide_eq_true_iff]
      rintro rfl
      exact (List.mem_append.1 hc).elim h.2 not_mem_closing
  have hopening : opening.isPrefixOf (placeholder mount ++ rest) := by
    simp [List.isPrefixOf_iff_prefix, placeholder]
  simp only [mountAt?, hopening, if_true, hdrop, hbody]
  simp [h.1]

/-- What ends a proper prefix of items with `p` is an item without. -/
theorem exists_takeWhile_append {p : α → Bool} {l : List α}
    (h : (l.takeWhile p).length < l.length) :
    ∃ a rest, p a = false ∧ l = l.takeWhile p ++ a :: rest := by
  have hsplit : l.takeWhile p ++ l.dropWhile p = l := List.takeWhile_append_dropWhile
  have hhead := List.head?_dropWhile_not p l
  cases hrest : l.dropWhile p with
  | nil =>
    rw [hrest, List.append_nil] at hsplit
    exact absurd (congrArg List.length hsplit) (Nat.ne_of_lt h)
  | cons a rest =>
    rw [hrest] at hhead hsplit
    exact ⟨a, rest, hhead, hsplit.symm⟩

theorem mountAt?_eq_some_iff :
    mountAt? (text.drop k) = some mount ↔ OccursAt text k mount := by
  unfold OccursAt
  generalize text.drop k = cs
  constructor
  · intro h
    unfold mountAt? at h
    split at h
    · next hopening =>
      obtain ⟨rest, rfl⟩ := List.isPrefixOf_iff_prefix.1 hopening
      simp only [List.drop_left] at h
      split at h
      · next hbody =>
        obtain ⟨hlength, hne, heq⟩ := hbody
        cases h
        obtain ⟨c, rest', hc, hsplit⟩ := exists_takeWhile_append hlength
        obtain rfl : c = '\x7d' := by simpa using hc
        refine ⟨⟨hne, fun hmem => ?_⟩, rest', ?_⟩
        · simpa using List.mem_takeWhile_imp ((List.take_prefix ..).subset hmem)
        · conv_rhs => rw [hsplit, heq]
          simp [placeholder]
      · cases h
    · cases h
  · rintro ⟨hmount, rest, rfl⟩
    exact mountAt?_placeholder hmount rest

example : mountAt? "$\x7bauth/$\x7bauth/k/@accessor\x7d".toList = some "$\x7bauth/k".toList := by
  decide +kernel

theorem occursAt_append (h : IsMount mount) :
    OccursAt (before ++ (placeholder mount ++ rest)) before.length mount :=
  ⟨h, by simp⟩

theorem not_occursAt_of_mountAt? (h : mountAt? (text.drop k) = none) (mount : List Char) :
    ¬ OccursAt text k mount := fun hoccurs => by
  rw [mountAt?_eq_some_iff.2 hoccurs] at h
  cases h

theorem hasPlaceholder_iff :
    HasPlaceholder text ↔ ∃ k < text.length, (mountAt? (text.drop k)).isSome := by
  simp only [Option.isSome_iff_exists, mountAt?_eq_some_iff]
  constructor
  · rintro ⟨k, mount, hmount, rest, hrest⟩
    refine ⟨k, ?_, mount, hmount, rest, hrest⟩
    have hlength := congrArg List.length hrest
    simp only [placeholder, List.length_append, List.length_singleton, List.length_drop] at hlength
    omega
  · rintro ⟨k, -, mount, hoccurs⟩
    exact ⟨k, mount, hoccurs⟩

instance (text : List Char) : Decidable (HasPlaceholder text) :=
  decidable_of_iff _ hasPlaceholder_iff.symm

theorem OccursAt.cons (h : OccursAt text k mount) : OccursAt (c :: text) (k + 1) mount :=
  h

-- ---------------------------------------------------------------------------
-- The cut
-- ---------------------------------------------------------------------------

theorem exists_isCut (text : List Char) : ∃ holes tail, IsCut text holes tail := by
  classical
  induction hlength : text.length using Nat.strong_induction_on generalizing text with
  | _ n ih =>
    by_cases hoccurs : HasPlaceholder text
    · obtain ⟨mount, hmount, rest, hrest⟩ := Nat.find_spec hoccurs
      have htext : text = text.take (Nat.find hoccurs) ++ (placeholder mount ++ rest) := by
        rw [hrest, List.take_append_drop]
      have hshorter : rest.length < n := by
        have := congrArg List.length htext
        simp only [List.length_append, placeholder, List.length_singleton] at this
        omega
      obtain ⟨holes, tail, hcut⟩ := ih rest.length hshorter rest rfl
      refine ⟨_, tail, .next htext hmount (fun k hk other hother => ?_) hcut⟩
      rw [List.length_take] at hk
      exact Nat.find_min hoccurs (Nat.lt_of_lt_of_le hk (Nat.min_le_left ..)) ⟨other, hother⟩
    · exact ⟨[], text, .last hoccurs⟩

theorem IsCut.unique (h : IsCut text holes tail) (h' : IsCut text holes' tail') :
    holes = holes' ∧ tail = tail' := by
  induction h generalizing holes' with
  | last hnone =>
    cases h' with
    | last => exact ⟨rfl, rfl⟩
    | next htext hmount => exact absurd ⟨_, _, htext ▸ occursAt_append hmount⟩ hnone
  | @next text before mount rest holes tail htext hmount hfirst _ ih =>
    cases h' with
    | last hnone => exact absurd ⟨_, _, htext ▸ occursAt_append hmount⟩ hnone
    | @next _ before' mount' rest' _ _ htext' hmount' hfirst' hrest' =>
      have hoccurs : OccursAt text before.length mount := htext ▸ occursAt_append hmount
      have hoccurs' : OccursAt text before'.length mount' := htext' ▸ occursAt_append hmount'
      have hlength : before.length = before'.length := by
        rcases Nat.lt_trichotomy before.length before'.length with hlt | heq | hlt
        · exact absurd hoccurs (hfirst' _ hlt _)
        · exact heq
        · exact absurd hoccurs' (hfirst _ hlt _)
      obtain ⟨rfl, hsame⟩ := List.append_inj (htext.symm.trans htext') hlength
      have hmounts := (mountAt?_placeholder hmount rest).symm.trans
        (hsame ▸ mountAt?_placeholder hmount' rest')
      obtain rfl := Option.some.inj hmounts
      obtain ⟨rfl, rfl⟩ := ih (List.append_cancel_left hsame ▸ hrest')
      exact ⟨rfl, rfl⟩

-- ---------------------------------------------------------------------------
-- The scan
-- ---------------------------------------------------------------------------

theorem scan_eq (inside : Nat) (cs : List Char) : scan inside cs = scan 0 (cs.drop inside) := by
  induction cs generalizing inside with
  | nil => simp [scan]
  | cons c cs ih =>
    cases inside with
    | zero => rfl
    | succ inside => simpa [scan] using ih inside

theorem scan_placeholder (h : IsMount mount) :
    scan 0 (placeholder mount ++ cs) = .accessor mount :: scan 0 cs := by
  obtain ⟨c, behind, hhead⟩ : ∃ c behind, placeholder mount = c :: behind := ⟨_, _, rfl⟩
  have hmount := mountAt?_placeholder h cs
  rw [hhead, List.cons_append] at hmount ⊢
  simp only [scan, hmount]
  rw [scan_eq, hhead, List.length_cons, Nat.add_sub_cancel, List.drop_left]

theorem scan_append (h : ∀ k < before.length, ∀ mount, ¬ OccursAt (before ++ cs) k mount) :
    scan 0 (before ++ cs) = before.map .char ++ scan 0 cs := by
  induction before with
  | nil => rfl
  | cons c before ih =>
    have hnone : mountAt? (c :: (before ++ cs)) = none :=
      Option.eq_none_iff_forall_ne_some.2 fun mount hmount =>
        h 0 (Nat.zero_lt_succ _) mount (mountAt?_eq_some_iff.1 hmount)
    have hrest := ih fun k hk mount hoccurs =>
      h (k + 1) (Nat.succ_lt_succ hk) mount hoccurs.cons
    simp only [List.cons_append, scan, hnone, hrest, List.map_cons]

/-- The scan finds the placeholders at which a text is cut, and takes all else as it is. -/
theorem IsCut.scan_eq (h : IsCut text holes tail) :
    scan 0 text = holes.flatMap Hole.pieces ++ tail.map .char := by
  induction h with
  | @last text hnone =>
    have hnowhere : ∀ k < text.length, ∀ mount, ¬ OccursAt (text ++ []) k mount :=
      fun k _ mount hoccurs => hnone ⟨k, mount, by rwa [List.append_nil] at hoccurs⟩
    simpa [scan] using scan_append hnowhere
  | @next text before mount rest holes tail htext hmount hfirst _ ih =>
    rw [htext, scan_append (htext ▸ hfirst), scan_placeholder hmount, ih]
    simp [Hole.pieces]

theorem IsCut.pieces_eq (h : IsCut policy.toList holes tail) :
    pieces policy = holes.flatMap Hole.pieces ++ tail.map .char :=
  h.scan_eq

end VaultOperator.Policy
