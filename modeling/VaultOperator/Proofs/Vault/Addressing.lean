import VaultOperator.Proofs.Path.Names
import VaultOperator.Proofs.Text.LowerCase
import VaultOperator.Proofs.Vault.Url

/-!
# What a request addresses

A path is put into the URL of a request as it is. So the request addresses exactly this path where
the path is plain, and something else everywhere else (`addresses_iff_isPlain`).
-/

namespace VaultOperator.Vault

open Text (split)

namespace Url

-- ---------------------------------------------------------------------------
-- Texts behind others
-- ---------------------------------------------------------------------------

/-- The characters that are not read as themselves where they stand in a path. -/
def marks : List Char :=
  ['?', '#', '\\', '\t', '\n', '\r']

theorem rdropWhile_append {p : Char → Bool} {cs : List Char} (hne : cs ≠ [])
    (hlast : ¬ p (cs.getLast hne)) (ds : List Char) :
    (cs ++ ds).rdropWhile p = cs ++ ds.rdropWhile p := by
  induction ds using List.reverseRecOn with
  | nil =>
    rw [List.append_nil, List.rdropWhile_nil, List.append_nil]
    exact List.rdropWhile_eq_self_iff.2 fun _ => hlast
  | append_singleton ds d ih =>
    rw [← List.append_assoc, List.rdropWhile_concat, List.rdropWhile_concat, ih]
    split
    · rfl
    · rw [List.append_assoc]

/-- What is left of the end of a text that is read as a URL. -/
def kept (cs : List Char) : List Char :=
  (cs.rdropWhile isEdge).filter fun c => !isRemoved c

theorem kept_sublist (cs : List Char) : (kept cs).Sublist cs :=
  List.filter_sublist.trans (List.rdropWhile_prefix _ _).sublist

theorem isRemoved_iff {c : Char} : isRemoved c ↔ c = '\t' ∨ c = '\n' ∨ c = '\r' := by
  simp [isRemoved, or_assoc]

theorem kept_eq_self_iff {cs : List Char} :
    kept cs = cs ↔ (∀ c ∈ cs, ¬ isRemoved c) ∧ ∀ c ∈ cs.getLast?, ¬ isEdge c := by
  have hlast : cs.rdropWhile isEdge = cs ↔ ∀ c ∈ cs.getLast?, ¬ isEdge c := by
    rw [List.rdropWhile_eq_self_iff]
    exact ⟨fun h c hc => (List.mem_getLast?_eq_getLast hc).elim fun hne hc => hc ▸ h hne,
      fun h hne => h _ (List.getLast?_eq_some_getLast hne)⟩
  rw [← hlast]
  constructor
  · intro h
    have hless : (kept cs).Sublist (cs.rdropWhile isEdge) := List.filter_sublist
    rw [h] at hless
    have hends := (List.rdropWhile_prefix _ _).sublist.antisymm hless
    rw [kept, hends, List.filter_eq_self] at h
    exact ⟨by simpa using h, hends⟩
  · rintro ⟨hkept, hends⟩
    rw [kept, hends, List.filter_eq_self]
    simpa using hkept

theorem tidy_append {cs : List Char} (hne : cs ≠ []) (hfirst : ¬ isEdge (cs.head hne))
    (hlast : ¬ isEdge (cs.getLast hne)) (hkept : ∀ c ∈ cs, ¬ isRemoved c) (ds : List Char) :
    tidy (cs ++ ds) = cs ++ kept ds := by
  have hstart : (cs ++ ds).dropWhile isEdge = cs ++ ds := by
    cases cs with
    | nil => exact absurd rfl hne
    | cons c cs => exact List.dropWhile_cons_of_neg hfirst
  have hself : cs.filter (fun c => !isRemoved c) = cs :=
    List.filter_eq_self.2 (by simpa using hkept)
  rw [tidy, hstart, rdropWhile_append hne hlast, List.filter_append, hself, kept]

theorem cut_append {mark : Char} {cs : List Char} (h : mark ∉ cs) (ds : List Char) :
    cut mark (cs ++ ds) = (cs ++ (cut mark ds).1, (cut mark ds).2) := by
  have hne : ∀ c ∈ cs, (c != mark) = true := fun c hc =>
    bne_iff_ne.2 fun hmark => h (hmark ▸ hc)
  rw [cut, List.takeWhile_append_of_pos hne, List.dropWhile_append_of_pos hne, cut]

theorem cut_of_not_mem {mark : Char} {cs : List Char} (h : mark ∉ cs) :
    cut mark cs = (cs, none) := by
  simpa [cut] using cut_append h []

theorem cut_eq_none_iff {mark : Char} {cs : List Char} : (cut mark cs).2 = none ↔ mark ∉ cs := by
  refine ⟨fun h hmark => ?_, fun h => by rw [cut_of_not_mem h]⟩
  obtain ⟨before, after, rfl, hbefore⟩ := List.eq_append_cons_of_mem hmark
  rw [cut_append hbefore] at h
  simp [cut] at h

-- ---------------------------------------------------------------------------
-- Base addresses
-- ---------------------------------------------------------------------------

/-- A scheme and a host, and no more than slashes behind them. -/
structure Base (host? : List Char → Option Host) where
  name : List Char
  scheme : Scheme
  authority : List Char
  host : Host
  slashes : Nat
  named : name.map Char.toLower = scheme.name
  ne_nil : authority ≠ []
  no_mark : ∀ c ∈ authority, c ≠ '/' ∧ c ∉ marks
  read : host? authority = some host

namespace Base

variable {host? : List Char → Option Host} (base : Base host?)

def text : List Char :=
  base.name ++ "://".toList ++ base.authority

def address : String :=
  String.ofList (base.text ++ List.replicate base.slashes '/')

/-- What stands before every path. -/
def front : List Char :=
  base.text ++ "/v1/".toList

theorem text_ne_nil : base.text ≠ [] := by
  simp [text]

theorem toList_url (path : String) :
    (url base.address path).toList = base.front ++ path.toList := by
  have hlast : ¬ (base.text.getLast base.text_ne_nil == '/') := by
    have hend : base.text.getLast base.text_ne_nil ∈ base.authority := by
      simp only [text, List.getLast_append_of_ne_nil _ base.ne_nil]
      exact List.getLast_mem _
    simpa using (base.no_mark _ hend).1
  have hslashes : (List.replicate base.slashes '/').rdropWhile (· == '/') = [] := by
    rw [List.rdropWhile_eq_nil_iff]
    simp
  have htrim : ((base.text ++ List.replicate base.slashes '/').reverse.dropWhile
      (· == '/')).reverse = base.text := by
    have h := rdropWhile_append (p := (· == '/')) base.text_ne_nil hlast
      (List.replicate base.slashes '/')
    rwa [hslashes, List.append_nil] at h
  rw [url, String.toList_append, String.toList_append, String.toList_ofList, address,
    String.toList_ofList, htrim, front]

theorem name_letter {c : Char} (h : c ∈ base.name) :
    65 ≤ c.toNat ∧ c.toNat ≤ 90 ∨ 97 ≤ c.toNat ∧ c.toNat ≤ 122 := by
  have hlower : c.toLower ∈ base.scheme.name := base.named ▸ List.mem_map_of_mem h
  have hletters : ∀ scheme : Scheme, ∀ d ∈ scheme.name, 97 ≤ d.toNat ∧ d.toNat ≤ 122 := by
    intro scheme
    cases scheme <;> simp [Scheme.name]
  have := hletters _ _ hlower
  rw [Text.toNat_toLower] at this
  split at this <;> omega

theorem scheme?_name : scheme? base.name = some base.scheme := by
  rw [scheme?, base.named]
  cases base.scheme <;> decide

theorem no_mark_text {c : Char} (h : c ∈ base.text) : c ∉ marks := by
  simp only [text, List.mem_append] at h
  rcases h with (h | h) | h
  · have hletter := base.name_letter h
    have hmarks : ∀ d ∈ marks, d.toNat < 65 ∨ d.toNat = 92 := by simp [marks]
    intro hmark
    have := hmarks c hmark
    omega
  · have hmarks : ∀ d ∈ "://".toList, d ∉ marks := by simp [marks]
    exact hmarks c h
  · exact (base.no_mark c h).2

theorem no_mark_front {c : Char} (h : c ∈ base.front) : c ∉ marks := by
  rcases List.mem_append.1 h with h | h
  · exact base.no_mark_text h
  · have hmarks : ∀ d ∈ "/v1/".toList, d ∉ marks := by simp [marks]
    exact hmarks c h

theorem name_ne_nil : base.name ≠ [] := by
  intro hnil
  have hnamed := base.named
  rw [hnil] at hnamed
  cases hscheme : base.scheme <;> rw [hscheme] at hnamed <;> exact absurd hnamed (by decide)

theorem tidy_url (path : String) :
    tidy (url base.address path).toList = base.front ++ kept path.toList := by
  have hne : base.front ≠ [] := by simp [front]
  have hfirst : ¬ isEdge (base.front.head hne) := by
    have hhead : base.front.head hne ∈ base.name := by
      simp only [front, text, List.append_assoc, List.head_append_of_ne_nil base.name_ne_nil]
      exact List.head_mem _
    have hletter := base.name_letter hhead
    simp only [isEdge, decide_eq_true_eq, Char.le_def, UInt32.le_iff_toNat_le]
    show ¬ (base.front.head hne).toNat ≤ 32
    omega
  have hremoved : ∀ c, isRemoved c → c ∈ marks := by
    intro c hc
    rcases isRemoved_iff.1 hc with rfl | rfl | rfl <;> decide
  rw [toList_url]
  exact tidy_append hne hfirst (by simp [isEdge, front])
    (fun c hc hr => base.no_mark_front hc (hremoved c hr)) _

theorem cut_colon (cs : List Char) : cut ':' (base.front ++ cs) =
    (base.name, some ("//".toList ++ base.authority ++ '/' :: ("v1/".toList ++ cs))) := by
  have hname : ':' ∉ base.name := fun h => by
    have := base.name_letter h
    simp at this
  have hfront : base.front ++ cs =
      base.name ++ ':' :: ("//".toList ++ base.authority ++ '/' :: ("v1/".toList ++ cs)) := by
    simp [front, text]
  rw [hfront, cut_append hname]
  simp [cut]

theorem dropWhile_slashes (cs : List Char) :
    ("//".toList ++ base.authority ++ cs).dropWhile (· == '/') = base.authority ++ cs := by
  have hslashes : ∀ c ∈ "//".toList, (c == '/') = true := by simp
  rw [List.append_assoc, List.dropWhile_append_of_pos hslashes]
  cases hauthority : base.authority with
  | nil => exact absurd hauthority base.ne_nil
  | cons c rest =>
    have hc := (base.no_mark c (hauthority ▸ List.mem_cons_self)).1
    exact List.dropWhile_cons_of_neg (by simpa using hc)

theorem map_slashed_front : base.front.map slashed = base.front := by
  have hself : ∀ c ∈ base.front, slashed c = c := by
    intro c hc
    refine if_neg ?_
    rintro rfl
    exact base.no_mark_front hc (by decide)
  rw [List.map_congr_left hself, List.map_id']

end Base

/-- What of a path is read as the path of the URL. -/
def left (path : List Char) : List Char :=
  (cut '?' (cut '#' (kept path)).1).1

theorem read?_url {host? : List Char → Option Host} (base : Base host?) (path : String) :
    read? host? (url base.address path) =
      some { scheme := base.scheme
             host := base.host
             path := pathOf ('/' :: ("v1/".toList ++ (left path.toList).map slashed))
             query := (cut '?' (cut '#' (kept path.toList)).1).2
             fragment := (cut '#' (kept path.toList)).2 } := by
  have hauthority : ∀ c ∈ base.authority, (c != '/') = true := fun c hc =>
    bne_iff_ne.2 (base.no_mark c hc).1
  have hhash : '#' ∉ base.front := fun h => base.no_mark_front h (by decide)
  have hquestion : '?' ∉ base.front := fun h => base.no_mark_front h (by decide)
  rw [read?, base.tidy_url, cut_append hhash]
  simp only
  rw [cut_append hquestion]
  simp only [List.map_append, base.map_slashed_front]
  rw [base.cut_colon]
  simp only [base.scheme?_name, Option.bind_eq_bind, Option.bind_some, base.dropWhile_slashes,
    List.takeWhile_append_of_pos hauthority, List.dropWhile_append_of_pos hauthority]
  rw [List.takeWhile_cons_of_neg (by simp), List.dropWhile_cons_of_neg (by simp), List.append_nil,
    base.read]
  rfl

-- ---------------------------------------------------------------------------
-- Plain paths
-- ---------------------------------------------------------------------------

/-- Nothing in the path is read as anything but itself. -/
structure IsPlain (path : List Char) : Prop where
  no_mark : ∀ c ∈ path, c ∉ marks
  ends : ∀ c ∈ path.getLast?, ¬ isEdge c
  no_place : ∀ segment ∈ split '/' path, ¬ IsPlace segment
  no_escape : ¬ HasEscape path

instance (cs : List Char) : Decidable (HasEscape cs) :=
  decidable_of_iff (unescape cs ≠ utf8 cs) hasEscape_iff.symm

instance (path : List Char) : Decidable (IsPlain path) :=
  decidable_of_iff (path.all (fun c => !marks.contains c) ∧ path.getLast?.all (fun c => !isEdge c) ∧
      (∀ segment ∈ split '/' path, ¬ IsPlace segment) ∧ ¬ HasEscape path)
    ⟨fun h => ⟨by simpa using h.1, by simpa [Option.all_eq_true] using h.2.1, h.2.2.1, h.2.2.2⟩,
      fun h => ⟨by simpa using h.1, by simpa [Option.all_eq_true] using h.2, h.3, h.4⟩⟩

theorem length_utf8_slashed (cs : List Char) :
    (utf8 (cs.map slashed)).length = (utf8 cs).length := by
  induction cs with
  | nil => rfl
  | cons c cs ih =>
    have hc : (String.utf8EncodeChar (slashed c)).length = (String.utf8EncodeChar c).length := by
      unfold slashed
      split
      · next h => rw [h]; rfl
      · rfl
    rw [List.map_cons, utf8_cons, utf8_cons, List.length_append, List.length_append, ih, hc]

theorem left_sublist (path : List Char) : (left path).Sublist path :=
  (List.takeWhile_sublist _).trans ((List.takeWhile_sublist _).trans (kept_sublist path))

theorem map_slashed_eq_self_iff {cs : List Char} : cs.map slashed = cs ↔ '\\' ∉ cs := by
  induction cs with
  | nil => simp
  | cons c cs ih =>
    have hc : slashed c = c ↔ '\\' ≠ c := by
      unfold slashed
      split
      · next h => subst h; decide
      · next h => simp [Ne.symm h]
    rw [List.map_cons, List.cons.injEq, ih, hc, List.mem_cons, not_or]

/-- The segments of the path come after that of the version of the API. -/
theorem pathOf_front_spec (cs : List Char) :
    (∀ segment ∈ split '/' cs, ¬ IsPlace segment) ∧ ¬ HasEscape cs ∧
        pathOf ('/' :: ("v1/".toList ++ cs)) = utf8 ("/v1/".toList ++ cs) ∨
      ((∃ segment ∈ split '/' cs, IsPlace segment) ∨ HasEscape cs) ∧
        (pathOf ('/' :: ("v1/".toList ++ cs))).length < (utf8 ("/v1/".toList ++ cs)).length := by
  have hsplit : split '/' ("v1/".toList ++ cs) = "v1".toList :: split '/' cs :=
    Text.split_append_sep '/' "v1".toList cs
  have hversion : ¬ IsPlace "v1".toList := by decide
  have hescape : HasEscape ("v1/".toList ++ cs) ↔ HasEscape cs :=
    hasEscape_append_iff (by decide)
  have h := pathOf_spec ("v1/".toList ++ cs)
  rw [hsplit, List.forall_mem_cons, List.exists_mem_cons_iff, hescape] at h
  simp only [hversion, not_false_eq_true, true_and, false_or] at h
  exact h

/-- The path of the URL has as many bytes as there are in the path only if it is the path. -/
theorem pathOf_left_eq_iff {path : List Char} :
    pathOf ('/' :: ("v1/".toList ++ (left path).map slashed)) = utf8 ("/v1/".toList ++ path) ↔
      (left path).map slashed = path ∧ (∀ segment ∈ split '/' path, ¬ IsPlace segment) ∧
        ¬ HasEscape path := by
  have hsize : (utf8 ((left path).map slashed)).length ≤ (utf8 path).length :=
    (length_utf8_slashed _).trans_le (length_utf8_le (left_sublist path))
  -- Where bytes are lost in reading, the path of the URL is too short: nothing makes up for them.
  rcases pathOf_front_spec ((left path).map slashed) with ⟨hplace, hescape, h⟩ | ⟨hsome, h⟩
  · rw [h]
    constructor
    · intro hpath
      have hsame := List.append_cancel_left (utf8_injective hpath)
      rw [hsame] at hplace hescape
      exact ⟨hsame, hplace, hescape⟩
    · rintro ⟨hsame, -⟩
      rw [hsame]
  · refine iff_of_false (fun hpath => ?_) ?_
    · rw [hpath, utf8_append, utf8_append, List.length_append, List.length_append] at h
      omega
    · rintro ⟨hsame, hplace, hescape⟩
      rw [hsame] at hsome
      rcases hsome with ⟨segment, hsegment, h⟩ | h
      · exact hplace segment hsegment h
      · exact hescape h

theorem isPlain_iff {path : List Char} : IsPlain path ↔
    ((left path).map slashed = path ∧ (∀ segment ∈ split '/' path, ¬ IsPlace segment) ∧
        ¬ HasEscape path) ∧ (cut '?' (cut '#' (kept path)).1).2 = none ∧
      (cut '#' (kept path)).2 = none := by
  constructor
  · intro h
    have hnot : ∀ c ∈ marks, c ∉ path := fun c hmark hc => h.no_mark c hc hmark
    have hremoved : ∀ c ∈ path, ¬ isRemoved c := fun c hc hr => by
      rcases isRemoved_iff.1 hr with rfl | rfl | rfl <;> exact hnot _ (by decide) hc
    have hkept : kept path = path := kept_eq_self_iff.2 ⟨hremoved, h.ends⟩
    have hhash : cut '#' path = (path, none) := cut_of_not_mem (hnot _ (by decide))
    have hquestion : cut '?' path = (path, none) := cut_of_not_mem (hnot _ (by decide))
    have hslashed : path.map slashed = path := map_slashed_eq_self_iff.2 (hnot _ (by decide))
    simp only [left, hkept, hhash, hquestion, hslashed, true_and, and_true]
    exact ⟨h.no_place, h.no_escape⟩
  · rintro ⟨⟨hsame, hplace, hescape⟩, hquery, hfragment⟩
    have hhash := cut_eq_none_iff.1 hfragment
    rw [cut_of_not_mem hhash] at hquery
    have hquestion := cut_eq_none_iff.1 hquery
    have hleft : left path = kept path := by
      rw [left, cut_of_not_mem hhash, cut_of_not_mem hquestion]
    rw [hleft] at hsame
    have hkept : kept path = path := (kept_sublist path).eq_of_length (by
      rw [← List.length_map slashed, hsame])
    rw [hkept] at hsame hhash hquestion
    obtain ⟨hremoved, hends⟩ := kept_eq_self_iff.1 hkept
    refine ⟨fun c hc hmark => ?_, hends, hplace, hescape⟩
    simp only [marks, List.mem_cons, List.not_mem_nil, or_false] at hmark
    rcases hmark with rfl | rfl | rfl | hmark
    · exact hquestion hc
    · exact hhash hc
    · exact map_slashed_eq_self_iff.1 hsame hc
    · exact hremoved c hc (isRemoved_iff.2 hmark)

/-- The URL leads to this path of the API and to nothing else. -/
structure Addresses (u : Url Host) (path : String) : Prop where
  path : u.path = utf8 ("/v1/" ++ path).toList
  query : u.query = none
  fragment : u.fragment = none

theorem addresses_iff {u : Url Host} {path : String} : u.Addresses path ↔
    u.path = utf8 ("/v1/" ++ path).toList ∧ u.query = none ∧ u.fragment = none :=
  ⟨fun h => ⟨h.path, h.query, h.fragment⟩, fun h => ⟨h.1, h.2.1, h.2.2⟩⟩

theorem addresses_iff_isPlain {host? : List Char → Option Host} (base : Base host?)
    (path : String) :
    ∃ u, read? host? (url base.address path) = some u ∧ u.scheme = base.scheme ∧
      u.host = base.host ∧ (u.Addresses path ↔ IsPlain path.toList) := by
  refine ⟨_, read?_url base path, rfl, rfl, ?_⟩
  rw [addresses_iff, isPlain_iff, ← pathOf_left_eq_iff, String.toList_append]

end Url

open Url

/-- A request leads to the host of its base address, and to exactly its path where that is plain.
So plain paths that differ lead to different places, each below all that stands before it in the
path, and every other path leads somewhere else. -/
theorem request_addresses {host? : List Char → Option Host} (base : Base host?) (s : Session)
    (hbase : s.target.address = base.address) :
    (∀ method path body, ∃ u, read? host? (s.request method path body).url = some u ∧
      u.scheme = base.scheme ∧ u.host = base.host ∧ (u.Addresses path ↔ IsPlain path.toList)) ∧
    (∀ method path body method' path' body' u u', IsPlain path.toList → IsPlain path'.toList →
      read? host? (s.request method path body).url = some u →
      read? host? (s.request method' path' body').url = some u' → u.path = u'.path →
        path = path') ∧
    ∀ method body above below u, IsPlain (above ++ "/" ++ below).toList →
      read? host? (s.request method (above ++ "/" ++ below) body).url = some u →
        utf8 ("/v1/" ++ above ++ "/").toList <+: u.path := by
  have haddresses : ∀ method path body u, IsPlain path.toList →
      read? host? (s.request method path body).url = some u → u.Addresses path := by
    intro method path body u hplain hread
    obtain ⟨u', hread', -, -, haddresses⟩ := addresses_iff_isPlain base path
    rw [Session.request, hbase, hread', Option.some_inj] at hread
    exact hread ▸ haddresses.2 hplain
  refine ⟨fun method path body => ?_, ?_, ?_⟩
  · rw [Session.request, hbase]
    exact addresses_iff_isPlain base path
  · intro method path body method' path' body' u u' hplain hplain' hread hread' hpath
    have h := (haddresses _ _ _ _ hplain hread).path
    have h' := (haddresses _ _ _ _ hplain' hread').path
    have hsame := utf8_injective (h.symm.trans (hpath.trans h'))
    exact String.toList_inj.1 (by simpa using hsame)
  · intro method body above below u hplain hread
    refine ⟨utf8 below.toList, ?_⟩
    rw [(haddresses _ _ _ _ hplain hread).path, ← utf8_append]
    simp

def vaultBase : Base (some : List Char → Option (List Char)) where
  name := "https".toList
  scheme := .https
  authority := "vault:8200".toList
  host := "vault:8200".toList
  slashes := 1
  named := by decide
  ne_nil := by decide
  no_mark := by simp [marks]
  read := rfl

def vaultSession : Session :=
  ⟨{ address := "https://vault:8200/" }, "token"⟩

theorem request_addresses_reader :
    vaultSession.target.address = vaultBase.address ∧
      IsPlain "sys/policies/acl/reader".toList ∧ IsPlain "sys/policies/acl/writer".toList ∧
      ∃ u u', read? some (vaultSession.request .get "sys/policies/acl/reader" none).url = some u ∧
        read? some (vaultSession.request .delete "sys/policies/acl/writer" none).url = some u' ∧
        u.Addresses "sys/policies/acl/reader" ∧ u.path ≠ u'.path ∧
        utf8 ("/v1/" ++ "sys/policies/acl" ++ "/").toList <+: u.path := by
  have hbase : vaultSession.target.address = vaultBase.address := by decide
  have hreader : IsPlain "sys/policies/acl/reader".toList := by decide
  have hwriter : IsPlain "sys/policies/acl/writer".toList := by decide
  have hpath : "sys/policies/acl" ++ "/" ++ "reader" = "sys/policies/acl/reader" := by decide
  obtain ⟨hread, hdiffer, hbelow⟩ := request_addresses vaultBase vaultSession hbase
  obtain ⟨u, hu, -, -, haddresses⟩ := hread .get "sys/policies/acl/reader" none
  obtain ⟨u', hu', -⟩ := hread .delete "sys/policies/acl/writer" none
  refine ⟨hbase, hreader, hwriter, u, u', hu, hu', haddresses.2 hreader, fun hsame => ?_, ?_⟩
  · exact absurd (hdiffer _ _ _ _ _ _ u u' hreader hwriter hu hu' hsame) (by decide)
  · have habove := hbelow .get none "sys/policies/acl" "reader" u
    rw [hpath] at habove
    exact habove hreader hu

/-- A policy is removed at the path of another, or a secrets engine is removed in its place. -/
theorem policy_leaves_prefix :
    Policy.validate (.named "reader?draft") = .ok () ∧
      Policy.validate (.named "../../mounts/kv") = .ok () ∧
      Policy.vaultPath (.named "reader?draft") = .ok "sys/policies/acl/reader?draft" ∧
      Policy.vaultPath (.named "reader") = .ok "sys/policies/acl/reader" ∧
      (read? some (vaultSession.request .delete "sys/policies/acl/reader?draft" none).url).map
          (fun u => (u.path, u.query)) =
        some (utf8 "/v1/sys/policies/acl/reader".toList, some "draft".toList) ∧
      (read? some (vaultSession.request .delete "sys/policies/acl/reader" none).url).map
          (fun u => (u.path, u.query)) =
        some (utf8 "/v1/sys/policies/acl/reader".toList, none) ∧
      Policy.vaultPath (.named "../../mounts/kv") = .ok "sys/policies/acl/../../mounts/kv" ∧
      (read? some (vaultSession.request .delete "sys/policies/acl/../../mounts/kv" none).url).map
          (fun u => (u.path, u.query)) =
        some (utf8 "/v1/sys/mounts/kv".toList, none) := by
  refine ⟨rfl, rfl, by decide, by decide, ?_, ?_, by decide, ?_⟩
  · decide
  · decide
  · decide

end VaultOperator.Vault
