import VaultOperator.Duration
import VaultOperator.Proofs.Text.LowerCase
import VaultOperator.Proofs.Text.Trim

/-!
# Durations are sums of their parts

What is read is the grammar of parts, each of ASCII digits and one letter (`parts?_eq_some_iff`),
and the number of seconds is the sum of the parts as whole numbers, as far as there is room for it
(`sum_eq_ok_iff`). So the durations are the texts that spell a number of seconds in range, up to
blanks at the ends and capital letters (`parse_eq_ok_iff`).
-/

namespace VaultOperator.Duration

def Unit.letter : Unit → Char
  | .second => 's'
  | .minute => 'm'
  | .hour => 'h'
  | .day => 'd'

/-- The small letter is looked at. -/
theorem Unit.ofChar?_eq_some_iff {c : Char} {unit : Unit} :
    Unit.ofChar? c = some unit ↔ c.toLower = unit.letter := by
  rw [← Char.toNat_inj, Text.toNat_toLower]
  constructor
  · intro h
    unfold ofChar? at h
    split at h <;> cases h <;> rfl
  · intro h
    have hcase : c = unit.letter ∨ c = unit.letter.toUpper := by
      rw [← Char.toNat_inj, ← Char.toNat_inj]
      cases unit <;> simp only [letter, Char.reduceToUpper, Char.reduceToNat] at h ⊢ <;>
        split at h <;> omega
    rcases hcase with rfl | rfl <;> cases unit <;> rfl

theorem Unit.not_isDecimalDigit_letter (unit : Unit) : ¬ Text.isDecimalDigit unit.letter := by
  cases unit <;> decide

namespace Part

def text (part : Part) : List Char :=
  part.digits ++ [part.unit.letter]

/-- The number that is meant, with no bound. -/
def seconds (part : Part) : Nat :=
  Nat.ofDigitChars 10 part.digits 0 * part.unit.seconds

/-- One or more digits, of any script. -/
structure IsNumbered (part : Part) : Prop where
  nonempty : part.digits ≠ []
  digits : ∀ c ∈ part.digits, Text.isDecimalDigit c

/-- One or more ASCII digits. -/
structure IsPlain (part : Part) : Prop where
  nonempty : part.digits ≠ []
  digits : ∀ c ∈ part.digits, c.isDigit

theorem IsPlain.isNumbered {part : Part} (h : part.IsPlain) : part.IsNumbered where
  nonempty := h.nonempty
  digits := fun c hc => Text.isDecimalDigit_of_isDigit (h.digits c hc)

end Part

def textOf (parts : List Part) : List Char :=
  parts.flatMap Part.text

def secondsOf (parts : List Part) : Nat :=
  (parts.map Part.seconds).sum

/-- The text is some parts one after the other, and the number is what they add up to. -/
def Spells (text : List Char) (n : Nat) : Prop :=
  ∃ parts, parts ≠ [] ∧ (∀ part ∈ parts, part.IsPlain) ∧ text = textOf parts ∧ n = secondsOf parts

@[simp] theorem textOf_nil : textOf [] = [] := rfl

@[simp] theorem textOf_cons (part : Part) (parts : List Part) :
    textOf (part :: parts) = part.digits ++ part.unit.letter :: textOf parts := by
  simp [textOf, Part.text]

@[simp] theorem secondsOf_nil : secondsOf [] = 0 := rfl

@[simp] theorem secondsOf_cons (part : Part) (parts : List Part) :
    secondsOf (part :: parts) = part.seconds + secondsOf parts :=
  List.sum_cons

theorem textOf_append (first second : List Part) :
    textOf (first ++ second) = textOf first ++ textOf second :=
  List.flatMap_append

theorem secondsOf_append (first second : List Part) :
    secondsOf (first ++ second) = secondsOf first + secondsOf second := by
  rw [secondsOf, List.map_append, List.sum_append]
  rfl

/-! ### Cutting a text into its parts -/

/-- Digits end where the first other character stands. -/
theorem append_cons_inj {digits digits' : List Char} {c c' : Char} {cs cs' : List Char}
    (hdigits : ∀ d ∈ digits, Text.isDecimalDigit d) (hc : ¬ Text.isDecimalDigit c)
    (hdigits' : ∀ d ∈ digits', Text.isDecimalDigit d) (hc' : ¬ Text.isDecimalDigit c') :
    digits ++ c :: cs = digits' ++ c' :: cs' ↔ digits = digits' ∧ c = c' ∧ cs = cs' := by
  induction digits generalizing digits' with
  | nil =>
    cases digits' with
    | nil => simp
    | cons d ds =>
      have hd := hdigits' d List.mem_cons_self
      simp only [List.nil_append, List.cons_append, List.cons.injEq, reduceCtorEq, false_and,
        iff_false, not_and]
      exact fun h => absurd (h ▸ hd) hc
  | cons d ds ih =>
    cases digits' with
    | nil =>
      have hd := hdigits d List.mem_cons_self
      simp only [List.nil_append, List.cons_append, List.cons.injEq, reduceCtorEq, false_and,
        iff_false, not_and]
      exact fun h => absurd (h ▸ hd) hc'
    | cons d' ds' =>
      have hrest := ih (List.forall_mem_cons.1 hdigits).2 (List.forall_mem_cons.1 hdigits').2
      simp only [List.cons_append, List.cons.injEq, hrest, and_assoc]

theorem parts?_digit {digits cs : List Char} {c : Char} (h : Text.isDecimalDigit c) :
    parts? digits (c :: cs) = parts? (digits ++ [c]) cs := by
  rw [parts?, if_pos h]

theorem parts?_letter {digits cs : List Char} {c : Char} (h : ¬ Text.isDecimalDigit c)
    {parts : List Part} : parts? digits (c :: cs) = some parts ↔
      digits ≠ [] ∧ ∃ unit rest, c.toLower = unit.letter ∧ parts? [] cs = some rest ∧
        parts = ⟨digits, unit⟩ :: rest := by
  rw [parts?, if_neg h]
  cases hunit : Unit.ofChar? c with
  | none =>
    have hnone : ∀ unit, c.toLower ≠ Unit.letter unit := fun unit hletter => by
      simp [Unit.ofChar?_eq_some_iff.2 hletter] at hunit
    simp [hnone]
  | some unit =>
    have hunique : ∀ unit', c.toLower = Unit.letter unit' ↔ unit = unit' := fun unit' => by
      rw [← Unit.ofChar?_eq_some_iff, hunit, Option.some_inj]
    by_cases hempty : digits = []
    · simp [hempty]
    · simp [hempty, hunique, eq_comm (a := parts)]

/-- The parts are those whose texts, one after the other, make up the text in small letters. -/
theorem parts?_eq_some_iff {digits cs : List Char} {parts : List Part}
    (hdigits : ∀ c ∈ digits, Text.isDecimalDigit c) : parts? digits cs = some parts ↔
      (∀ part ∈ parts, part.IsNumbered) ∧ digits ++ cs.map Char.toLower = textOf parts := by
  -- A digit moves from the text to the run of digits, and a letter ends the first part with it.
  induction cs generalizing digits parts with
  | nil =>
    rw [parts?, List.map_nil, List.append_nil]
    cases parts with
    | nil => simp
    | cons part rest =>
      refine iff_of_false (by simp) fun h => ?_
      rw [h.2, textOf_cons] at hdigits
      exact part.unit.not_isDecimalDigit_letter (hdigits _ (by simp))
  | cons c cs ih =>
    by_cases hc : Text.isDecimalDigit c
    · have hmore : ∀ d ∈ digits ++ [c], Text.isDecimalDigit d :=
        List.forall_mem_append.2 ⟨hdigits, by simpa using hc⟩
      rw [parts?_digit hc, ih hmore, List.map_cons, Text.toLower_of_isDecimalDigit hc,
        List.append_assoc, List.singleton_append]
    · have hlower : ¬ Text.isDecimalDigit c.toLower := Text.isDecimalDigit_toLower c ▸ hc
      rw [parts?_letter hc, List.map_cons]
      constructor
      · rintro ⟨hnonempty, unit, rest, hunit, hrest, rfl⟩
        obtain ⟨hnumbered, htext⟩ := (ih (by simp)).1 hrest
        refine ⟨List.forall_mem_cons.2 ⟨⟨hnonempty, hdigits⟩, hnumbered⟩, ?_⟩
        rw [textOf_cons, ← hunit, ← htext, List.nil_append]
      · rintro ⟨hnumbered, htext⟩
        cases parts with
        | nil => simp at htext
        | cons part rest =>
          obtain ⟨hpart, hrest⟩ := List.forall_mem_cons.1 hnumbered
          rw [textOf_cons, append_cons_inj hdigits hlower hpart.digits
            part.unit.not_isDecimalDigit_letter] at htext
          obtain ⟨rfl, hunit, hcs⟩ := htext
          exact ⟨hpart.nonempty, part.unit, rest, hunit, (ih (by simp)).2 ⟨hrest, hcs⟩, rfl⟩

/-! ### Adding the parts -/

theorem Part.IsNumbered.readUnsigned_eq_ok_iff {part : Part} (h : part.IsNumbered) {n : Nat} :
    Text.readUnsigned maxSeconds part.digits = .ok n ↔
      part.IsPlain ∧ n = Nat.ofDigitChars 10 part.digits 0 ∧ n ≤ maxSeconds := by
  have hsign : '+' ∉ part.digits := fun hplus => absurd (h.digits _ hplus) (by decide)
  have hplain : part.IsPlain ↔ ∀ c ∈ part.digits, c.isDigit :=
    ⟨IsPlain.digits, fun hdigits => ⟨h.nonempty, hdigits⟩⟩
  rw [Text.readUnsigned_eq_ok_iff h.nonempty hsign, hplain]

theorem Unit.one_le_seconds (unit : Unit) : 1 ≤ unit.seconds := by
  cases unit <;> decide

/-- No number, product or sum on the way is out of range if the whole is not. -/
theorem sum_eq_ok_iff {text : String} {parts : List Part} (hparts : ∀ part ∈ parts, part.IsNumbered)
    {total n : Nat} (htotal : total ≤ maxSeconds) : sum text total parts = .ok n ↔
      (∀ part ∈ parts, part.IsPlain) ∧ n = total + secondsOf parts ∧ n ≤ maxSeconds := by
  induction parts generalizing total with
  | nil =>
    simp only [sum, Except.ok.injEq, List.not_mem_nil, false_implies, implies_true, true_and,
      secondsOf_nil, Nat.add_zero]
    omega
  | cons part rest ih =>
    obtain ⟨hpart, hrest⟩ := List.forall_mem_cons.1 hparts
    have hnumber := fun n => hpart.readUnsigned_eq_ok_iff (n := n)
    have hseconds : Nat.ofDigitChars 10 part.digits 0 ≤ part.seconds :=
      Nat.le_mul_of_pos_right _ part.unit.one_le_seconds
    rw [List.forall_mem_cons, secondsOf_cons, sum]
    cases hread : Text.readUnsigned maxSeconds part.digits with
    | error cause =>
      refine iff_of_false (by simp) ?_
      rintro ⟨⟨hplain, -⟩, rfl, hroom⟩
      have := (hnumber _).2 ⟨hplain, rfl, by omega⟩
      simp [hread] at this
    | ok m =>
      obtain ⟨hplain, rfl, -⟩ := (hnumber m).1 hread
      show (if total + part.seconds ≤ maxSeconds then sum text (total + part.seconds) rest
        else .error (.overflow text)) = .ok n ↔ _
      split
      · next hroom =>
        rw [ih hrest hroom, Nat.add_assoc]
        simp [hplain]
      · next hfull =>
        refine iff_of_false (by simp) ?_
        rintro ⟨-, rfl, hroom⟩
        omega

theorem spells_map_toLower_iff {cs : List Char} {n : Nat} : Spells (cs.map Char.toLower) n ↔
    ∃ parts, parts? [] cs = some parts ∧ parts ≠ [] ∧ (∀ part ∈ parts, part.IsPlain) ∧
      n = secondsOf parts := by
  have hparts : ∀ parts, parts? [] cs = some parts ↔
      (∀ part ∈ parts, part.IsNumbered) ∧ cs.map Char.toLower = textOf parts := fun parts =>
    parts?_eq_some_iff (by simp)
  constructor
  · rintro ⟨parts, hnonempty, hplain, htext, hn⟩
    have hnumbered : ∀ part ∈ parts, part.IsNumbered := fun part h => (hplain part h).isNumbered
    exact ⟨parts, (hparts parts).2 ⟨hnumbered, htext⟩, hnonempty, hplain, hn⟩
  · rintro ⟨parts, hread, hnonempty, hplain, hn⟩
    exact ⟨parts, hnonempty, hplain, ((hparts parts).1 hread).2, hn⟩

/-- An empty text adds up to zero, as no parts do. -/
theorem parse_eq_ok_iff_sum {raw : String} {n : Nat} : parse raw = .ok n ↔
    ∃ parts, parts? [] (Text.trim raw).toList = some parts ∧
      sum (Text.trim raw) 0 parts = .ok n ∧ 0 < n := by
  unfold parse
  by_cases hempty : (Text.trim raw).isEmpty
  · have hnil : Text.trim raw = "" := by simpa using hempty
    simp [hnil, parts?, sum]
    omega
  · rw [if_neg hempty]
    cases hparts : parts? [] (Text.trim raw).toList with
    | none => simp
    | some parts =>
      simp only [Option.some.injEq, exists_eq_left']
      cases hsum : sum (Text.trim raw) 0 parts with
      | error e => simp
      | ok m =>
        cases m with
        | zero => simp; omega
        | succ m => simp; omega

theorem parse_eq_ok_iff {raw : String} {n : Nat} : parse raw = .ok n ↔
    Spells ((Text.trimChars raw.toList).map Char.toLower) n ∧ 0 < n ∧ n < 2 ^ 64 := by
  have htext : (Text.trim raw).toList = Text.trimChars raw.toList := String.toList_ofList
  have hroom : n ≤ maxSeconds ↔ n < 2 ^ 64 := Nat.lt_succ_iff.symm
  rw [parse_eq_ok_iff_sum, spells_map_toLower_iff, htext]
  constructor
  · rintro ⟨parts, hparts, hsum, hpositive⟩
    have hnumbered := ((parts?_eq_some_iff (by simp)).1 hparts).1
    obtain ⟨hplain, rfl, hn⟩ := (sum_eq_ok_iff hnumbered (Nat.zero_le _)).1 hsum
    rw [Nat.zero_add] at hpositive hn hroom ⊢
    refine ⟨⟨parts, hparts, ?_, hplain, rfl⟩, hpositive, hroom.1 hn⟩
    rintro rfl
    simp at hpositive
  · rintro ⟨⟨parts, hparts, -, hplain, rfl⟩, hpositive, hn⟩
    have hnumbered := ((parts?_eq_some_iff (by simp)).1 hparts).1
    refine ⟨parts, hparts, (sum_eq_ok_iff hnumbered (Nat.zero_le _)).2 ⟨hplain, ?_, ?_⟩, hpositive⟩
    · rw [Nat.zero_add]
    · exact hroom.2 hn

/-! ### Texts that are nothing but parts -/

theorem Spells.mem {text : List Char} {n : Nat} (h : Spells text n) {c : Char} (hc : c ∈ text) :
    c.isDigit ∨ ∃ unit : Unit, c = unit.letter := by
  obtain ⟨parts, -, hplain, rfl, -⟩ := h
  obtain ⟨part, hpart, hc⟩ := List.mem_flatMap.1 hc
  rcases List.mem_append.1 hc with hc | hc
  · exact .inl ((hplain part hpart).digits c hc)
  · exact .inr ⟨part.unit, List.mem_singleton.1 hc⟩

theorem Spells.ascii {text : List Char} {n : Nat} (h : Spells text n) {c : Char} (hc : c ∈ text) :
    0x20 < c.toNat ∧ c.toNat < 128 ∧ c ≠ 'k' ∧ c.toLower = c := by
  rcases h.mem hc with hdigit | ⟨unit, rfl⟩
  · have hk : c ≠ 'k' := fun hk => absurd (hk ▸ hdigit) (by decide)
    have hlower := Text.toLower_of_isDecimalDigit (Text.isDecimalDigit_of_isDigit hdigit)
    have hbounds := Char.isDigit_iff_toNat.1 hdigit
    simp only [Char.reduceToNat] at hbounds
    exact ⟨by omega, by omega, hk, hlower⟩
  · cases unit <;> decide

theorem Spells.map_toLower {text : List Char} {n : Nat} (h : Spells text n) :
    text.map Char.toLower = text := by
  rw [List.map_congr_left fun c hc => (h.ascii hc).2.2.2, List.map_id']

theorem Spells.unique {text : List Char} {m n : Nat} (hm : Spells text m) (hn : Spells text n) :
    m = n := by
  rw [← hm.map_toLower, spells_map_toLower_iff] at hn
  rw [← hm.map_toLower, spells_map_toLower_iff] at hm
  obtain ⟨parts, hparts, -, -, rfl⟩ := hm
  obtain ⟨parts', hparts', -, -, rfl⟩ := hn
  rw [Option.some_inj.1 (hparts.symm.trans hparts')]

/-- No blank has a letter or a digit as its small form. -/
theorem Spells.trimChars {cs : List Char} {n : Nat} (h : Spells (cs.map Char.toLower) n) :
    Text.trimChars cs = cs := by
  have hblank : ∀ c ∈ cs, ¬ Text.IsWhiteSpace c := fun c hc hspace => by
    have hascii := h.ascii (List.mem_map_of_mem hc)
    have := hspace.toNat
    rw [Text.toNat_toLower] at hascii
    split at hascii <;> omega
  exact Text.trimChars_eq_self (fun c hc => hblank c (List.mem_of_head? hc))
    fun c hc => hblank c (List.mem_of_getLast? hc)

theorem spells_iff_of_isLowerCaseOf {cs small : List Char} {n : Nat}
    (h : Text.IsLowerCaseOf cs small) :
    Spells small n ↔ Spells (cs.map Char.toLower) n := by
  constructor
  · intro hsmall
    have hascii := h.ascii fun d hd => ⟨(hsmall.ascii hd).2.1, (hsmall.ascii hd).2.2.1⟩
    exact h.eq_of_ascii hascii ▸ hsmall
  · intro hlower
    have hascii : ∀ c ∈ cs, c.toNat < 128 := fun c hc => by
      have := (hlower.ascii (List.mem_map_of_mem hc)).2.1
      rw [Text.toNat_toLower] at this
      split at this <;> omega
    exact (h.eq_of_ascii hascii).symm ▸ hlower

theorem Spells.isLowerCaseOf {text : List Char} {n : Nat} (h : Spells text n) :
    Text.IsLowerCaseOf text text := by
  have hsmall := Text.IsLowerCaseOf.of_ascii fun c hc => (h.ascii hc).2.1
  rwa [h.map_toLower] at hsmall

theorem parse_of_spells {s : String} {small : List Char} {m n : Nat}
    (hlower : Text.IsLowerCaseOf s.toList small) (hsmall : Spells small m) :
    parse s = .ok n ↔ n = m ∧ 0 < m ∧ m < 2 ^ 64 := by
  rw [spells_iff_of_isLowerCaseOf hlower] at hsmall
  rw [parse_eq_ok_iff, hsmall.trimChars]
  constructor
  · rintro ⟨hn, hrange⟩
    obtain rfl := hsmall.unique hn
    exact ⟨rfl, hrange⟩
  · rintro ⟨rfl, hrange⟩
    exact ⟨hsmall, hrange⟩

theorem Spells.append {first second : List Char} {m k : Nat} (hm : Spells first m)
    (hk : Spells second k) : Spells (first ++ second) (m + k) := by
  obtain ⟨parts, hnonempty, hplain, rfl, rfl⟩ := hm
  obtain ⟨parts', -, hplain', rfl, rfl⟩ := hk
  exact ⟨parts ++ parts', by simp [hnonempty], List.forall_mem_append.2 ⟨hplain, hplain'⟩,
    (textOf_append _ _).symm, (secondsOf_append _ _).symm⟩

theorem secondsOf_perm {parts order : List Part} (h : parts.Perm order) :
    secondsOf parts = secondsOf order :=
  (h.map Part.seconds).sum_nat

theorem spells_toDigits (n : Nat) : Spells (Nat.toDigits 10 n ++ ['s']) n := by
  refine ⟨[⟨Nat.toDigits 10 n, .second⟩], by simp, ?_, by simp [Unit.letter], ?_⟩
  · refine List.forall_mem_singleton.2 ⟨?_, fun c hc => ?_⟩
    · exact Nat.toDigits_ne_nil
    · exact Nat.isDigit_of_mem_toDigits (by decide) (by decide) hc
  · simp [Part.seconds, Unit.seconds, Nat.ofDigitChars_toDigits]

theorem parse_append {first second : String} {small small' : List Char} {m k : Nat}
    (hfirst : Text.IsLowerCaseOf first.toList small)
    (hsecond : Text.IsLowerCaseOf second.toList small') (hm : Spells small m)
    (hk : Spells small' k) (hpositive : 0 < m + k) (hroom : m + k < 2 ^ 64) :
    parse (first ++ second) = .ok (m + k) := by
  have hboth := hfirst.append hsecond
  rw [← String.toList_append] at hboth
  exact (parse_of_spells hboth (hm.append hk)).2 ⟨rfl, hpositive, hroom⟩

theorem parse_perm {first second : String} {parts order : List Part}
    (hfirst : Text.IsLowerCaseOf first.toList (textOf parts))
    (hsecond : Text.IsLowerCaseOf second.toList (textOf order)) (hperm : parts.Perm order)
    (hnonempty : parts ≠ []) (hplain : ∀ part ∈ parts, part.IsPlain) (n : Nat) :
    parse first = .ok n ↔ parse second = .ok n := by
  have hm : Spells (textOf parts) (secondsOf parts) := ⟨parts, hnonempty, hplain, rfl, rfl⟩
  have hk : Spells (textOf order) (secondsOf order) :=
    ⟨order, mt (fun h => (h ▸ hperm).eq_nil) hnonempty,
      fun part h => hplain part (hperm.mem_iff.2 h), rfl, rfl⟩
  rw [parse_of_spells hfirst hm, parse_of_spells hsecond hk, secondsOf_perm hperm]

theorem parse_toString {n : Nat} (hpositive : 0 < n) (hroom : n < 2 ^ 64) :
    parse (toString n ++ "s") = .ok n := by
  have hspells := spells_toDigits n
  have htext : (toString n ++ "s").toList = Nat.toDigits 10 n ++ ['s'] := by
    rw [String.toList_append]
    exact congrArg (· ++ ['s']) Nat.toList_repr
  exact (parse_of_spells (htext ▸ hspells.isLowerCaseOf) hspells).2 ⟨rfl, hpositive, hroom⟩

/-- The durations are the texts that spell a number of seconds in range, up to blanks at the ends
and capital letters. Texts that are nothing but parts add up when they are put together, the order
of parts does not matter, and every number of seconds in range has a text. -/
theorem parse_grammar :
    (∀ raw : String, ∃ text small, Text.TrimsTo raw.toList text ∧ Text.IsLowerCaseOf text small) ∧
    (∀ (raw : String) (text small : List Char), Text.TrimsTo raw.toList text →
      Text.IsLowerCaseOf text small →
        (∀ n, parse raw = .ok n ↔ Spells small n ∧ 0 < n ∧ n < 2 ^ 64) ∧
        ((∃ e, parse raw = .error e) ↔ ¬ ∃ n, Spells small n ∧ 0 < n ∧ n < 2 ^ 64)) ∧
    (∀ (first second : String) (small small' : List Char) (m k : Nat),
      Text.IsLowerCaseOf first.toList small → Text.IsLowerCaseOf second.toList small' →
      Spells small m → Spells small' k → 0 < m + k → m + k < 2 ^ 64 →
        parse (first ++ second) = .ok (m + k)) ∧
    (∀ (first second : String) (parts order : List Part),
      Text.IsLowerCaseOf first.toList (textOf parts) →
      Text.IsLowerCaseOf second.toList (textOf order) →
      parts.Perm order → parts ≠ [] → (∀ part ∈ parts, part.IsPlain) →
        ∀ n, parse first = .ok n ↔ parse second = .ok n) ∧
    ∀ n, 0 < n → n < 2 ^ 64 → parse (toString n ++ "s") = .ok n := by
  refine ⟨fun raw => ?_, fun raw text small htrim hlower => ?_,
    fun _ _ _ _ _ _ hfirst hsecond hm hk => parse_append hfirst hsecond hm hk,
    fun _ _ _ _ hfirst hsecond hperm => parse_perm hfirst hsecond hperm,
    fun n => parse_toString⟩
  · obtain ⟨small, hsmall⟩ := Text.exists_isLowerCaseOf (Text.trimChars raw.toList)
    exact ⟨_, small, Text.trimsTo_trimChars _, hsmall⟩
  · have hread : ∀ n, parse raw = .ok n ↔ Spells small n ∧ 0 < n ∧ n < 2 ^ 64 := fun n => by
      rw [parse_eq_ok_iff, ← Text.trimsTo_iff.1 htrim, ← spells_iff_of_isLowerCaseOf hlower]
    refine ⟨hread, ?_⟩
    simp only [← hread]
    cases parse raw <;> simp

theorem parse_grammar_compound :
    parse " 1H30m\n" = .ok 5400 ∧ parse ("1h" ++ "30M") = .ok 5400 ∧
      (parse "1h30m" = .ok 5400 ↔ parse "30m1h" = .ok 5400) ∧ parse "5400s" = .ok 5400 := by
  obtain ⟨-, hread, happend, hperm, hseconds⟩ := parse_grammar
  have hour : Part.IsPlain ⟨['1'], .hour⟩ := ⟨by decide, by simp⟩
  have half : Part.IsPlain ⟨['3', '0'], .minute⟩ := ⟨by decide, by simp⟩
  have hlower (s : String) (h : s.toList.all (·.toNat < 128)) :=
    Text.IsLowerCaseOf.of_ascii fun c hc => of_decide_eq_true (List.all_eq_true.1 h c hc)
  have hm : Spells "1h".toList 3600 :=
    ⟨_, List.cons_ne_nil _ _, List.forall_mem_singleton.2 hour, rfl, rfl⟩
  have hk : Spells "30m".toList 1800 :=
    ⟨_, List.cons_ne_nil _ _, List.forall_mem_singleton.2 half, rfl, rfl⟩
  refine ⟨?_, ?_, ?_, ?_⟩
  · have htrim : Text.TrimsTo " 1H30m\n".toList "1H30m".toList := Text.trimsTo_iff.2 (by decide)
    exact ((hread _ _ _ htrim (hlower "1H30m" (by decide))).1 5400).2
      ⟨hm.append hk, by decide, by decide⟩
  · exact happend "1h" "30M" _ _ 3600 1800 (hlower "1h" (by decide)) (hlower "30M" (by decide)) hm
      hk (by decide) (by decide)
  · exact hperm "1h30m" "30m1h" [⟨['1'], .hour⟩, ⟨['3', '0'], .minute⟩]
      [⟨['3', '0'], .minute⟩, ⟨['1'], .hour⟩] (hlower "1h30m" (by decide))
      (hlower "30m1h" (by decide)) (List.Perm.swap _ _ _) (by decide) (by simp [hour, half]) 5400
  · exact hseconds 5400 (by decide) (by decide)

end VaultOperator.Duration
