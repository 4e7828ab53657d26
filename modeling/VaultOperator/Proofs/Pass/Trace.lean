import VaultOperator.Pass.Program

/-!
# What is seen of a pass

Views of a list of events: the writes to Vault (`writes`), the times that the clock showed
(`times`), and whether there was a login to Vault that it granted (`LoggedIn`).
-/

namespace VaultOperator

structure VaultWrite where
  session : Vault.Session
  path : String
  body : Payload
  answer : Except Vault.Error (Option Payload)

namespace Call

/-- Calls that a login is made of: the certificates, the token of the service account, and the
login itself. -/
def isLoginStep : Call → Bool
  | .readCaFile _ | .cluster (.getSecret ..) | .cluster (.serviceAccountToken ..)
  | .vault (.login ..) => true
  | _ => false

/-- Changes of objects of the cluster. -/
def isPatch : Call → Bool
  | .cluster (.patchFinalizers ..) | .cluster (.patchStatus ..) => true
  | _ => false

/-- The namespace and the name of the secret that is created or deleted. -/
def changedSecret? : Call → Option (String × String)
  | .cluster (.createSecret secret) => some (secret.ns.getD "", secret.name)
  | .cluster (.deleteSecret ns name) => some (ns, name)
  | _ => none

/-- Whatever changes neither the objects of the cluster nor its secrets. -/
def SparesCluster (c : Call) : Prop :=
  c.isPatch = false ∧ c.changedSecret? = none

def WritesNothing : Call → Prop
  | .vault (.write ..) => False
  | _ => True

theorem writesNothing_of_isLoginStep {c : Call} (h : c.isLoginStep) : c.WritesNothing := by
  unfold WritesNothing
  split
  · cases h
  · trivial

/-- Reads in a session, and calls that leave the cluster as it is. -/
def LooksIn (session : Vault.Session) : Call → Prop
  | .vault (.read used _) => used = session
  | .vault _ => False
  | c => c.SparesCluster

theorem sparesCluster_of_looksIn {session : Vault.Session} {c : Call} (h : c.LooksIn session) :
    c.SparesCluster := by
  cases c with
  | vault => exact ⟨rfl, rfl⟩
  | _ => exact h

theorem writesNothing_of_looksIn {session : Vault.Session} {c : Call} (h : c.LooksIn session) :
    c.WritesNothing := by
  unfold WritesNothing
  split
  · exact h
  · trivial

theorem not_isPatch_of_isLoginStep {c : Call} (h : c.isLoginStep) : c.isPatch = false := by
  unfold isLoginStep at h
  split at h
  case h_5 => cases h
  all_goals rfl

theorem changedSecret?_eq_none_of_isLoginStep {c : Call} (h : c.isLoginStep) :
    c.changedSecret? = none := by
  unfold isLoginStep at h
  split at h
  case h_5 => cases h
  all_goals rfl

theorem sparesCluster_of_isLoginStep {c : Call} (h : c.isLoginStep) : c.SparesCluster :=
  ⟨not_isPatch_of_isLoginStep h, changedSecret?_eq_none_of_isLoginStep h⟩

end Call

namespace Event

def write? : Event → Option VaultWrite
  | .call (.vault (.write session path body)) answer => some ⟨session, path, body, answer⟩
  | _ => none

def isRead : Event → Bool
  | .call (.vault (.read ..)) _ => true
  | _ => false

def time? : Event → Option Instant
  | .call .clock now => some now
  | _ => none

def isLogin : Event → Bool
  | .call (.vault (.login ..)) _ => true
  | _ => false

def grantsLogin : Event → Bool
  | .call (.vault (.login ..)) (.ok _) => true
  | _ => false

theorem isLogin_of_grantsLogin {e : Event} (h : e.grantsLogin) : e.isLogin := by
  unfold grantsLogin at h
  split at h
  · rfl
  · cases h

def isLoginStep : Event → Bool
  | .call c _ => c.isLoginStep
  | .count _ => false

theorem not_isRead_of_isLoginStep {e : Event} (h : e.isLoginStep) : ¬ e.isRead := by
  intro hread
  unfold isRead at hread
  split at hread
  · cases h
  · cases hread

theorem write?_eq_none_of_isLoginStep {e : Event} (h : e.isLoginStep) : e.write? = none := by
  unfold write?
  split
  · cases h
  · rfl

end Event

def writes (es : List Event) : List VaultWrite :=
  es.filterMap Event.write?

@[simp] theorem writes_nil : writes [] = [] := rfl

@[simp] theorem writes_append (es fs : List Event) : writes (es ++ fs) = writes es ++ writes fs :=
  List.filterMap_append

@[simp] theorem writes_cons_count (metric : Metric) (es : List Event) :
    writes (.count metric :: es) = writes es := rfl

@[simp] theorem writes_cons_cluster (c : Kubernetes.Call) (answer : Call.Answer (.cluster c))
    (es : List Event) : writes (.call (.cluster c) answer :: es) = writes es := rfl

@[simp] theorem writes_cons_read (session : Vault.Session) (path : String)
    (answer : Call.Answer (.vault (.read session path))) (es : List Event) :
    writes (.call (.vault (.read session path)) answer :: es) = writes es := rfl

@[simp] theorem writes_cons_write (session : Vault.Session) (path : String) (body : Payload)
    (answer : Call.Answer (.vault (.write session path body))) (es : List Event) :
    writes (.call (.vault (.write session path body)) answer :: es) =
      ⟨session, path, body, answer⟩ :: writes es := rfl

theorem writes_eq_nil_of_writesNothing {es : List Event}
    (h : ∀ c answer, .call c answer ∈ es → c.WritesNothing) : writes es = [] := by
  refine List.filterMap_eq_nil_iff.2 fun e he => ?_
  unfold Event.write?
  split
  · exact (h _ _ he).elim
  · rfl

theorem writes_eq_nil {es : List Event} (h : ∀ e ∈ es, e.isLoginStep) : writes es = [] :=
  List.filterMap_eq_nil_iff.2 fun e he => Event.write?_eq_none_of_isLoginStep (h e he)

theorem mem_writes {w : VaultWrite} {es : List Event} :
    w ∈ writes es ↔
      .call (.vault (.write w.session w.path w.body)) w.answer ∈ es := by
  simp only [writes, List.mem_filterMap]
  constructor
  · rintro ⟨e, he, hw⟩
    unfold Event.write? at hw
    split at hw
    · cases hw; exact he
    · cases hw
  · exact fun h => ⟨_, h, rfl⟩

/-- An item is in the first of two parts, or behind all of it. -/
theorem append_eq_append_cons {es fs before after : List α} {e : α}
    (h : es ++ fs = before ++ e :: after) :
    (∃ rest, es = before ++ e :: rest) ∨ ∃ between, before = es ++ between ∧
      fs = between ++ e :: after := by
  rcases List.append_eq_append_iff.1 h with ⟨between, rfl, rfl⟩ | ⟨rest, rfl, hrest⟩
  · exact .inr ⟨between, rfl, rfl⟩
  · cases rest with
    | nil => exact .inr ⟨[], by simp, hrest.symm⟩
    | cons e' rest =>
      obtain ⟨rfl, -⟩ := List.cons.inj hrest
      exact .inl ⟨rest, rfl⟩

/-- What comes first of its kind comes first in one way only. -/
theorem first_unique {p : α → Bool} {before before' after after' : List α}
    (h : before ++ a :: after = before' ++ b :: after') (ha : p a) (hb : p b)
    (hbefore : ∀ x ∈ before, ¬ p x) (hbefore' : ∀ x ∈ before', ¬ p x) :
    before = before' ∧ a = b ∧ after = after' := by
  induction before generalizing before' with
  | nil =>
    cases before' with
    | nil =>
      obtain ⟨rfl, rfl⟩ := List.cons.inj h
      exact ⟨rfl, rfl, rfl⟩
    | cons x before' =>
      obtain ⟨rfl, -⟩ := List.cons.inj h
      exact absurd ha (hbefore' _ List.mem_cons_self)
  | cons x before ih =>
    cases before' with
    | nil =>
      obtain ⟨rfl, -⟩ := List.cons.inj h
      exact absurd hb (hbefore _ List.mem_cons_self)
    | cons y before' =>
      obtain ⟨rfl, hrest⟩ := List.cons.inj h
      obtain ⟨rfl, rfl, rfl⟩ := ih hrest (fun x hx => hbefore x (List.mem_cons_of_mem _ hx))
        fun x hx => hbefore' x (List.mem_cons_of_mem _ hx)
      exact ⟨rfl, rfl, rfl⟩

def times (es : List Event) : List Instant :=
  es.filterMap Event.time?

@[simp] theorem times_append (es fs : List Event) : times (es ++ fs) = times es ++ times fs :=
  List.filterMap_append

theorem mem_times {t : Instant} {es : List Event} : t ∈ times es ↔ .call .clock t ∈ es := by
  simp only [times, List.mem_filterMap]
  constructor
  · rintro ⟨e, he, ht⟩
    unfold Event.time? at ht
    split at ht
    · cases ht; exact he
    · cases ht
  · exact fun h => ⟨_, h, rfl⟩

def LoggedIn (es : List Event) : Prop :=
  ∃ e ∈ es, e.grantsLogin

@[simp] theorem loggedIn_append {es fs : List Event} :
    LoggedIn (es ++ fs) ↔ LoggedIn es ∨ LoggedIn fs := by
  simp [LoggedIn, or_and_right, exists_or]

@[simp] theorem loggedIn_cons {e : Event} {es : List Event} :
    LoggedIn (e :: es) ↔ e.grantsLogin ∨ LoggedIn es := by
  simp [LoggedIn]

@[simp] theorem not_loggedIn_nil : ¬ LoggedIn [] := by
  simp [LoggedIn]

theorem not_loggedIn {es : List Event} (h : ∀ e ∈ es, ¬ e.isLogin) : ¬ LoggedIn es := by
  rintro ⟨e, he, hgrants⟩
  exact h e he (Event.isLogin_of_grantsLogin hgrants)

end VaultOperator
