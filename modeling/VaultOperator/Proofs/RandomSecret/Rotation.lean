import VaultOperator.Proofs.RandomSecret.Course
import VaultOperator.Proofs.RandomSecret.Record
import VaultOperator.Proofs.Time.Rfc3339

/-!
# The rotation of a generated secret

A value that Vault has is written over when its refresh is due, and not before (`rotation_safe`).
When that is, the recorded time of the last write tells, which is read back as it was written.
-/

namespace VaultOperator.RandomSecret

open Engine (writeEvent)
open Program (Exec)
open Watch (RunEnd Turn Turns clockEvent)

variable {r : RandomSecret} {settings : Engine.Settings} {last now : Instant}

-- ---------------------------------------------------------------------------
-- One look
-- ---------------------------------------------------------------------------

/-- Nothing is read from Vault or written to it. -/
def Idle (es : List Event) : Prop :=
  ∀ e ∈ es, ¬ e.isRead ∧ e.write? = none

theorem Idle.append (h : Idle es) (h' : Idle fs) : Idle (es ++ fs) := fun e he =>
  (List.mem_append.1 he).elim (h e) (h' e)

theorem Idle.writes_eq (h : Idle es) : writes es = [] :=
  List.filterMap_eq_nil_iff.2 fun e he => (h e he).2

theorem idle_of_isLoginStep (h : ∀ e ∈ es, e.isLoginStep) : Idle es := fun e he =>
  ⟨Event.not_isRead_of_isLoginStep (h e he), Event.write?_eq_none_of_isLoginStep (h e he)⟩

theorem idle_of_deletion (h : (Object.randomSecret r).Deletion settings es result) :
    Idle es := by
  cases h.trace with
  | skipped => exact fun _ he => nomatch he
  | shutOut _ hlogin => exact idle_of_isLoginStep hlogin.isLoginStep
  | answered _ hlogin =>
    refine (idle_of_isLoginStep hlogin.isLoginStep).append fun e he => ?_
    obtain rfl := List.mem_singleton.1 he
    exact ⟨nofun, rfl⟩

theorem idle_of_record (h : Watch.RecordEnd o outcome es) : Idle es := by
  cases h with
  | unscheduled => simp [Idle, clockEvent, Event.isRead, Event.write?]
  | @recorded counts _ _ _ _ hcounts =>
    have hidle : Idle counts := by
      intro e he
      cases e with
      | call c answer => exact absurd he (hcounts c answer)
      | count => simp [Event.isRead, Event.write?]
    simpa [Idle, clockEvent, Watch.recordEvent, Event.isRead, Event.write?] using hidle

theorem idle_of_start (now : Instant) (metric : Metric) : Idle [clockEvent now, .count metric] := by
  simp [Idle, clockEvent, Event.isRead, Event.write?]

/-- All that happens in a look, with the pass in the midst of it if there is one that is let in. -/
inductive LookEnd (r : RandomSecret) : List Event → Prop
  | idle (hidle : Idle es) : LookEnd r es
  | admitted (hbefore : Idle before) (hpass : Ending r session es result) (hafter : Idle after) :
    LookEnd r (before ++ (es ++ after))

theorem lookEnd_of_sync (h : Exec ((Object.randomSecret r).sync settings) es x)
    (hbefore : Idle before) (hafter : Idle after) : LookEnd r (before ++ (es ++ after)) := by
  obtain ⟨result, hpass, -⟩ := Object.sync_exec (by nofun) h
  cases Engine.reconcile_course keepsSession hpass with
  | invalid => exact .idle (hbefore.append hafter)
  | shutOut hlogin =>
    exact .idle (hbefore.append ((idle_of_isLoginStep hlogin.isLoginStep).append hafter))
  | @admitted login session fs _ hlogin hrest =>
    have hbefore := hbefore.append (idle_of_isLoginStep hlogin.isLoginStep)
    have hlook := LookEnd.admitted hbefore (ending_of_continuation hrest) hafter
    simpa only [List.append_assoc] using hlook

theorem lookEnd_of_run (h : RunEnd settings (.randomSecret r) es) : LookEnd r es := by
  cases h with
  | gone => exact .idle fun _ he => nomatch he
  | guarded => exact .idle (by simp [Idle, Watch.finalizersEvent, Event.isRead, Event.write?])
  | skipped => exact .idle (by simp [Idle, clockEvent, Event.isRead, Event.write?])
  | released _ _ hdelete =>
    refine .idle ((idle_of_deletion hdelete).append ?_)
    simp [Idle, Watch.finalizersEvent, Event.isRead, Event.write?]
  | blocked _ _ hdelete =>
    refine .idle ((idle_of_deletion hdelete).append ?_)
    simp [Idle, clockEvent, Watch.blockedEvent, Event.isRead, Event.write?]
  | passed _ _ now _ hpass =>
    cases hpass with
    | aborted hsync =>
      have hlook := lookEnd_of_sync hsync (idle_of_start now (.reconciliation "RandomSecret"))
        (fun _ he => nomatch he : Idle [])
      rwa [List.append_nil] at hlook
    | ended outcome hsync hrecord =>
      exact lookEnd_of_sync hsync (idle_of_start now _) (idle_of_record hrecord)

/-- The value is looked up and `found`, and what happens next. -/
def Finds (r : RandomSecret) (es : List Event) (found : Option Payload) (rest : List Event) :
    Prop :=
  ∃ before session, es = before ++ lookUpEvent r session (.ok found) :: rest ∧
    ∀ e ∈ before, ¬ e.isRead

theorem Finds.mem_times {t : Instant} (h : Finds r es found rest) (ht : t ∈ times rest) :
    t ∈ times es := by
  obtain ⟨before, session, rfl, -⟩ := h
  exact VaultOperator.mem_times.2 (List.mem_append_right _ (List.mem_cons_of_mem _
    (VaultOperator.mem_times.1 ht)))

theorem CallsForValue.lookUp (h : CallsForValue r session looks) :
    ∃ answer more, looks = lookUpEvent r session answer :: more := by
  cases h <;> exact ⟨_, _, rfl⟩

theorem Ending.lookUp (h : Ending r session es result) :
    ∃ answer rest, es = lookUpEvent r session answer :: rest := by
  cases h with
  | unanswered => exact ⟨_, _, rfl⟩
  | kept => exact ⟨_, _, rfl⟩
  | unprepared hcalls =>
    obtain ⟨_, _, rfl⟩ := hcalls.lookUp
    exact ⟨_, _, rfl⟩
  | wrote hcalls =>
    obtain ⟨_, _, rfl⟩ := hcalls.lookUp
    exact ⟨_, _, rfl⟩

/-- What follows the look-up is what the pass does about what was found. -/
theorem LookEnd.ending (h : LookEnd r es) (hfinds : Finds r es found rest) :
    ∃ session course after result, Ending r session (lookUpEvent r session (.ok found) :: course)
      result ∧ rest = course ++ after ∧ writes es = writes course := by
  obtain ⟨before, used, hes, hbefore⟩ := hfinds
  have hread : (lookUpEvent r used (.ok found)).isRead := rfl
  cases h with
  | idle hidle =>
    subst hes
    exact absurd hread (hidle _ (List.mem_append_right _ List.mem_cons_self)).1
  | @admitted login session fs result after hlogin hpass hafter =>
    obtain ⟨answer, course, rfl⟩ := hpass.lookUp
    obtain ⟨rfl, hsame, rfl⟩ := first_unique hes rfl hread (fun e he => (hlogin e he).1) hbefore
    cases hsame
    refine ⟨used, course, after, result, hpass, rfl, ?_⟩
    rw [writes_append, writes_append, hlogin.writes_eq, hafter.writes_eq, List.append_nil]
    rfl

-- ---------------------------------------------------------------------------
-- When a refresh is due
-- ---------------------------------------------------------------------------

theorem read?_lastUpdate (hlast : last.IsOrdinary) (hupdate : lastUpdate? r = some last.write) :
    (lastUpdate? r).bind Instant.read? = some last := by
  rw [hupdate, Option.bind_some, Instant.read?_write hlast]

/-- Where the time of the last update is known, a refresh is due when the period lies behind it. -/
theorem IsDue.since (h : IsDue r now) (hlast : last.IsOrdinary)
    (hupdate : lastUpdate? r = some last.write) :
    ∃ text period due, r.spec.refreshPeriod = some text ∧ Duration.parse text = .ok period ∧
      last.addSeconds? period = some due ∧ due.le now := by
  have hknown := read?_lastUpdate hlast hupdate
  cases h with
  | unknown _ _ hnone =>
    rw [hknown] at hnone
    cases hnone
  | elapsed hperiod hparse hread hadded hreached =>
    obtain rfl := Option.some.inj (hknown.symm.trans hread)
    exact ⟨_, _, _, hperiod, hparse, hadded, hreached⟩

/-- What Vault shows holds a text that is not empty under the key of the secret. -/
def Holds (r : RandomSecret) (observed : Payload) : Prop :=
  ∃ value ≠ "",
    if r.spec.kvV2 then
      ∃ data, observed.get? "data" = some (.obj data) ∧
        (Dict.ofList data).get? r.spec.secretKey = some (.str value)
    else observed.get? r.spec.secretKey = some (.str value)

/-- What Vault shows looks as if it were wrapped where it is, and only there. -/
def ShowsVersion (r : RandomSecret) (observed : Payload) : Prop :=
  Vault.IsWrapped observed ↔ r.spec.kvV2

theorem Holds.hasValue (h : Holds r observed) (hversion : ShowsVersion r observed) :
    HasValue r observed := by
  obtain ⟨value, hne, hvalue⟩ := h
  split at hvalue
  · next hkv =>
    obtain ⟨data, hdata, hvalue⟩ := hvalue
    obtain ⟨-, metadata, hmetadata⟩ := hversion.2 hkv
    exact ⟨_, value, .wrapped hdata hmetadata, hvalue, hne⟩
  · next hkv =>
    exact ⟨_, value, .plain fun hwrapped => hkv (hversion.1 hwrapped), hvalue, hne⟩

theorem Ending.due (h : Ending r session es result)
    (hes : es = lookUpEvent r session (.ok (some observed)) :: course)
    (hvalue : HasValue r observed) (hwrites : writes es ≠ []) :
    ∃ compared more, course = clockEvent compared :: more ∧ IsDue r compared := by
  cases h with
  | unanswered => cases hes
  | kept => exact absurd rfl hwrites
  | unprepared hcalls => cases hcalls <;> exact absurd rfl hwrites
  | wrote hcalls =>
    cases hcalls with
    | absent => cases hes
    | empty _ hempty =>
      cases hes
      exact absurd hvalue hempty
    | due _ now _ hdue =>
      cases hes
      exact ⟨now, _, rfl, hdue⟩

theorem Ending.asks (h : Ending r session es result)
    (hes : es = lookUpEvent r session (.ok found) :: course)
    (hdue : ∀ compared ∈ times course, IsDue r compared) :
    ∃ answer, policyEvent r session answer ∈ course ∧ ∀ value, passwordOf answer = some value →
      ∃ written,
        writeEvent session (createRequest r { generated := some value }) written ∈ course := by
  cases h with
  | unanswered => cases hes
  | kept _ now _ hrests =>
    cases hes
    exact absurd (hdue now (mem_times.2 List.mem_cons_self)) hrests
  | unprepared hcalls answer hnone =>
    obtain ⟨_, more, rfl⟩ := hcalls.lookUp
    cases hes
    refine ⟨answer, by simp, fun value hvalue => ?_⟩
    rw [hnone] at hvalue
    cases hvalue
  | wrote hcalls answer hpassword written =>
    obtain ⟨_, more, rfl⟩ := hcalls.lookUp
    cases hes
    refine ⟨answer, by simp, fun value hvalue => ⟨written, ?_⟩⟩
    cases hpassword.symm.trans hvalue
    simp

/-- A value that is there is written over only when its refresh is due. -/
theorem LookEnd.due (h : LookEnd r es) (hfinds : Finds r es (some observed) rest)
    (hvalue : HasValue r observed) (hwrites : writes es ≠ []) :
    ∃ compared more, rest = clockEvent compared :: more ∧ IsDue r compared := by
  obtain ⟨session, course, after, result, hending, rfl, hsame⟩ := h.ending hfinds
  rw [hsame] at hwrites
  obtain ⟨compared, more, rfl, hdue⟩ := hending.due rfl hvalue hwrites
  exact ⟨compared, more ++ after, rfl, hdue⟩

/-- Where there is no value that is kept, the policy is asked, and its password written. -/
theorem LookEnd.asks (h : LookEnd r es) (hfinds : Finds r es found rest)
    (hdue : ∀ compared ∈ times rest, IsDue r compared) :
    ∃ session answer, policyEvent r session answer ∈ rest ∧
      ∀ value, passwordOf answer = some value → ∃ written,
        writeEvent session (createRequest r { generated := some value }) written ∈ rest := by
  obtain ⟨session, course, after, result, hending, rfl, -⟩ := h.ending hfinds
  rw [times_append] at hdue
  obtain ⟨answer, hasked, hwritten⟩ := hending.asks rfl fun compared hmem =>
    hdue compared (List.mem_append_left _ hmem)
  refine ⟨session, answer, List.mem_append_left _ hasked, fun value hvalue => ?_⟩
  obtain ⟨written, hmem⟩ := hwritten value hvalue
  exact ⟨written, List.mem_append_left _ hmem⟩

-- ---------------------------------------------------------------------------
-- Rotation
-- ---------------------------------------------------------------------------

theorem lookEnd_of_takes {turn : Turn} (h : turn.Takes .randomSecret stored next)
    (hseen : turn.seen = .randomSecret r) : LookEnd r turn.events := by
  obtain ⟨c, table, result, hpass⟩ := h.pass
  rw [hseen] at hpass
  exact lookEnd_of_run (Watch.run_ends hpass)

theorem lastUpdate?_of_takes {turn : Turn} (h : turn.Takes .randomSecret stored next)
    (hseen : turn.seen = .randomSecret r) (hstored : ShowsUpdate time stored) :
    lastUpdate? r = some time := by
  obtain ⟨r', hseen', hread⟩ := seen_eq h
  obtain rfl : r = r' := by simpa using hseen.symm.trans hseen'
  exact hstored.lastUpdate?_eq hread

/-- The later of two looks writes over the value that Vault has only when the time that the first
recorded lies the refresh period back. -/
def WaitsForRefresh (first later : Turn) : Prop :=
  ∀ r observed rest, later.seen = .randomSecret r →
    Finds r later.events (some observed) rest → Holds r observed → ShowsVersion r observed →
    writes later.events ≠ [] →
    ∃ written compared more text period due, RecordsAt first written ∧
      rest = clockEvent compared :: more ∧ r.spec.refreshPeriod = some text ∧
      Duration.parse text = .ok period ∧ written.addSeconds? period = some due ∧ due.le compared

/-- Without a refresh period the value that Vault has is not written over. -/
def KeepsWithoutPeriod (turn : Turn) : Prop :=
  ∀ r observed rest, turn.seen = .randomSecret r → r.spec.refreshPeriod = none →
    Finds r turn.events (some observed) rest → Holds r observed → ShowsVersion r observed →
    writes turn.events = []

/-- The later of two looks asks for a password, and writes it, if it begins when the time that the
first recorded lies the refresh period back. -/
def RefreshesOnceDue (first later : Turn) : Prop :=
  ∃ written, RecordsAt first written ∧
    ∀ r found rest text period due began, later.seen = .randomSecret r →
      Finds r later.events found rest → r.spec.refreshPeriod = some text →
      Duration.parse text = .ok period → written.addSeconds? period = some due →
      (times later.events).head? = some began → due.le began →
      ∃ session answer, policyEvent r session answer ∈ rest ∧
        ∀ value, passwordOf answer = some value → ∃ response,
          writeEvent session (createRequest r { generated := some value }) response ∈ rest

theorem keepsWithoutPeriod {turn : Turn} (h : turn.Takes .randomSecret stored next) :
    KeepsWithoutPeriod turn := by
  intro r observed rest hseen hperiod hfinds hholds hversion
  by_contra hwrites
  obtain ⟨_, _, -, hdue⟩ :=
    (lookEnd_of_takes h hseen).due hfinds (hholds.hasValue hversion) hwrites
  cases hdue with
  | unknown hsome | elapsed hsome => cases hperiod.symm.trans hsome

section

variable {before between after : List Turn} {first later : Turn}

/-- After a value was written, an update no earlier is known. -/
theorem exists_lastUpdate?
    (h : Turns .randomSecret (before ++ first :: (between ++ later :: after)) stored final)
    (hclock : Watch.Clocked (first.events ++ between.flatMap (·.events)))
    (hrecorded : ∀ turn ∈ first :: between, turn.Writes → turn.IsRecorded) (hwrites : first.Writes)
    (hseen : later.seen = .randomSecret r) :
    ∃ written, RecordsAt first written ∧ written.IsOrdinary ∧
      ∃ last, last.IsOrdinary ∧ written.le last ∧ lastUpdate? r = some last.write := by
  obtain ⟨_, _, _, _, hfirst, hturns, hlater⟩ := h.between
  obtain ⟨hmade, hrecorded⟩ := List.forall_mem_cons.1 hrecorded
  obtain ⟨hbefore, hafter, hordered⟩ := hclock.append
  obtain ⟨written, hrecords, hshows⟩ := showsUpdate_written hfirst hwrites (hmade hwrites)
  have hordinary := hbefore.ordinary written hrecords.1
  obtain ⟨last, hlast, hle, hshown⟩ := showsSince_of_turns hturns
    (fun t ht => ⟨hafter.ordinary t ht, hordered written hrecords.1 t ht⟩) hrecorded
    ⟨written, hordinary, Instant.le_refl written, hshows⟩
  exact ⟨written, hrecords, hordinary, last, hlast, hle, lastUpdate?_of_takes hlater hseen hshown⟩

/-- What is due after the last update is due after an earlier one. -/
theorem waitsForRefresh
    (h : Turns .randomSecret (before ++ first :: (between ++ later :: after)) stored final)
    (hclock : Watch.Clocked (first.events ++ between.flatMap (·.events)))
    (hrecorded : ∀ turn ∈ first :: between, turn.Writes → turn.IsRecorded)
    (hwrites : first.Writes) : WaitsForRefresh first later := by
  intro r observed rest hseen hfinds hholds hversion hrotates
  obtain ⟨_, _, _, _, -, -, hlater⟩ := h.between
  obtain ⟨written, hrecords, hordinary, last, hlast, hle, hupdate⟩ :=
    exists_lastUpdate? h hclock hrecorded hwrites hseen
  obtain ⟨compared, more, rfl, hdue⟩ :=
    (lookEnd_of_takes hlater hseen).due hfinds (hholds.hasValue hversion) hrotates
  obtain ⟨text, period, due, htext, hparse, hadded, hreached⟩ := hdue.since hlast hupdate
  obtain ⟨earlier, hearlier, hearly⟩ :=
    Instant.addSeconds?_le hordinary.nano_lt hlast.nano_lt hle hadded
  exact ⟨written, compared, more, text, period, earlier, hrecords, rfl, htext, hparse, hearlier,
    Instant.le_trans hearly hreached⟩

/-- The clock is looked at no earlier than when the look begins. -/
theorem refreshesOnceDue
    (h : Turns .randomSecret (before ++ first :: (between ++ later :: after)) stored final)
    (hmade : ∀ t ∈ times first.events, t.IsOrdinary) (hclock : Watch.Clocked later.events)
    (hrecorded : first.IsRecorded) (hwrites : first.Writes)
    (hbetween : ∀ turn ∈ between, ¬ turn.Writes) : RefreshesOnceDue first later := by
  obtain ⟨_, _, _, _, hfirst, hturns, hlater⟩ := h.between
  obtain ⟨written, hrecords, hshows⟩ := showsUpdate_written hfirst hwrites hrecorded
  refine ⟨written, hrecords, ?_⟩
  intro r found rest text period due began hseen hfinds htext hparse hadded hbegan hdue
  refine (lookEnd_of_takes hlater hseen).asks hfinds fun compared hmem => ?_
  have hupdate := lastUpdate?_of_takes hlater hseen (showsUpdate_of_turns hturns hbetween hshows)
  have hcompared := hclock.first_le hbegan (hfinds.mem_times hmem)
  exact .elapsed htext hparse (read?_lastUpdate (hmade written hrecords.1) hupdate) hadded
    (Instant.le_trans hdue hcompared)

end

/-- A secret is rotated when its refresh is due, and not before. -/
theorem rotation_safe (h : Turns .randomSecret turns stored final)
    (hclock : Watch.Clocked (turns.flatMap (·.events)))
    (hrecorded : ∀ turn ∈ turns, turn.Writes → turn.IsRecorded) :
    (∀ turn ∈ turns, KeepsWithoutPeriod turn) ∧
      ∀ before first between later after, turns = before ++ first :: (between ++ later :: after) →
        first.Writes → WaitsForRefresh first later ∧
          ((∀ turn ∈ between, ¬ turn.Writes) → RefreshesOnceDue first later) := by
  constructor
  · intro turn hmem
    obtain ⟨_, _, hturn⟩ := h.takes hmem
    exact keepsWithoutPeriod hturn
  · rintro before first between later after rfl hwrites
    have hmade : ∀ turn ∈ first :: between, turn.Writes → turn.IsRecorded := fun turn hmem =>
      hrecorded turn (by simpa using .inr ((List.mem_cons.1 hmem).imp_right .inl))
    refine ⟨waitsForRefresh h hclock.between hmade hwrites, ?_⟩
    exact refreshesOnceDue h (hclock.of_mem (by simp)).ordinary (hclock.of_mem (by simp))
      (hmade first List.mem_cons_self hwrites) hwrites

-- ---------------------------------------------------------------------------
-- A token
-- ---------------------------------------------------------------------------

def tokenPath : String :=
  "/apis/vault.octopilot.io/v1alpha1/namespaces/team-a/randomsecrets/token"

/-- A secret as the cluster stores it. -/
def storedToken (period : Option String) : Json :=
  Json.record
    [("metadata", Json.record
      [("name", .str "token"), ("namespace", .str "team-a"),
        ("finalizers", Json.ofStrings [finalizer])]),
      ("spec", Json.record
        [("authentication", Json.record [("role", .str "admin")]), ("path", .str "kv"),
          ("secretKey", .str "token"),
          ("secretFormat", Json.record [("passwordPolicyName", .str "strong")]),
          ("refreshPeriod", Json.ofOption .str period)])]

def seenToken (stored : Json) : RandomSecret :=
  (RandomSecret.ofJson? stored).getD {
    metadata := {}
    spec := { access := ⟨none, { role := "" }⟩, path := "", secretKey := "", passwordPolicy := "" }
    status := none }

/-- A Vault that makes passwords, and what it keeps at the path of the secret. -/
def tokenVault (kept : Option Payload) : Memory.VaultServer :=
  { payloads := Dict.ofList <|
      ("sys/policies/password/strong/generate", Dict.ofList [("password", .str "s3cret")]) ::
        kept.toList.map fun payload => ("kv/token", payload) }

def lookAtToken (vault : Memory.VaultServer) (now : Instant) (stored : Json) :=
  (Watch.reconcile {} (.randomSecret (seenToken stored)) (.new 1 10)).run
    Memory.Backends.clusterWorld
    { vault, cluster := { objects := Dict.ofList [(tokenPath, stored)] }, clock := now }

def tokenTurn (vault : Memory.VaultServer) (now : Instant) (stored : Json) : Turn :=
  ⟨.randomSecret (seenToken stored), (lookAtToken vault now stored).events⟩

/-- The secret after a look at it. -/
def tokenAfter (vault : Memory.VaultServer) (now : Instant) (stored : Json) : Json :=
  let turn := tokenTurn vault now stored
  storedAfter turn.seen.ref turn.events stored

theorem tokenTurn_takes (h : (RandomSecret.ofJson? stored).isSome) :
    (tokenTurn vault now stored).Takes .randomSecret stored (tokenAfter vault now stored) := by
  obtain ⟨r, hr⟩ := Option.isSome_iff_exists.1 h
  refine Turn.takes_storedAfter ?_ ⟨_, _, _, Program.exec_run _ _ _⟩
  show (RandomSecret.ofJson? stored).map Object.randomSecret = _
  rw [tokenTurn, seenToken, hr]
  rfl

/-- The first that is read is the value, and `p` is true of it. -/
def readsFirst (r : RandomSecret) (p : Payload → Bool) (es : List Event) : Bool :=
  match es.find? (·.isRead) with
  | some (.call (.vault (.read _ path)) (.ok (some observed))) => path = readPath r && p observed
  | _ => false

theorem finds_of_readsFirst (h : readsFirst r p es) :
    ∃ observed rest, Finds r es (some observed) rest ∧ p observed := by
  unfold readsFirst at h
  split at h
  · next session path observed hfirst =>
    obtain ⟨hpath, hp⟩ := Bool.and_eq_true_iff.1 h
    obtain rfl := of_decide_eq_true hpath
    obtain ⟨-, before, rest, rfl, hbefore⟩ := List.find?_eq_some_iff_append.1 hfirst
    exact ⟨observed, rest, ⟨before, session, rfl, by simpa using hbefore⟩, hp⟩
  · cases h

def bare : Payload :=
  Dict.ofList [("token", .str "s3cret")]

def hasText (observed : Payload) : Bool :=
  (observed.text? "token").any fun value => value ≠ ""

theorem holds_of_hasText (hkv : r.spec.kvV2 = false) (hkey : r.spec.secretKey = "token")
    (h : hasText observed) : Holds r observed := by
  obtain ⟨value, htext, hne⟩ := (Option.any_eq_true ..).1 h
  refine ⟨value, of_decide_eq_true hne, ?_⟩
  rw [hkv, hkey]
  exact Dict.text?_eq_some_iff.1 htext

/-- There is a text, and nothing beside it. -/
def isBare (observed : Payload) : Bool :=
  hasText observed && (observed.get? "data").isNone

theorem holds_of_isBare (hkv : r.spec.kvV2 = false) (hkey : r.spec.secretKey = "token")
    (h : isBare observed) : Holds r observed ∧ ShowsVersion r observed := by
  obtain ⟨htext, hnone⟩ := Bool.and_eq_true_iff.1 h
  refine ⟨holds_of_hasText hkv hkey htext, ?_⟩
  rw [ShowsVersion, hkv, Vault.IsWrapped, Option.isNone_iff_eq_none.1 hnone]
  simp

/-- The first look, at which there is no value. -/
def firstTurn : Turn :=
  tokenTurn (tokenVault none) ⟨1700000000, 0⟩ (storedToken (some "1h"))

def tokenBetween : Json :=
  tokenAfter (tokenVault none) ⟨1700000000, 0⟩ (storedToken (some "1h"))

/-- A look two hours later. -/
def laterTurn : Turn :=
  tokenTurn (tokenVault (some bare)) ⟨1700007200, 0⟩ tokenBetween

/-- A look at a secret that is never made anew. -/
def keptTurn : Turn :=
  tokenTurn (tokenVault (some bare)) ⟨1700000000, 0⟩ (storedToken none)

theorem turns_token : ∃ final, Turns .randomSecret ([] ++ firstTurn :: ([] ++ laterTurn :: []))
    (storedToken (some "1h")) final := by
  have hfirst : (RandomSecret.ofJson? (storedToken (some "1h"))).isSome := by decide +kernel
  have hlater : (RandomSecret.ofJson? tokenBetween).isSome := by decide +kernel
  exact ⟨_, .cons (tokenTurn_takes hfirst) (.cons (tokenTurn_takes hlater) .nil)⟩

theorem turns_kept : ∃ final, Turns .randomSecret [keptTurn] (storedToken none) final :=
  ⟨_, .cons (tokenTurn_takes (by decide +kernel)) .nil⟩

/-- All that is asked of the looks at the secret, in one evaluation. -/
theorem turns_facts :
    Watch.Clocked ([firstTurn, laterTurn].flatMap (·.events)) ∧
      (∀ turn ∈ [firstTurn, laterTurn], turn.Writes → turn.IsRecorded) ∧ firstTurn.Writes ∧
      (∀ t ∈ times firstTurn.events, t = ⟨1700000000, 0⟩) ∧
      (times laterTurn.events).head? = some ⟨1700007200, 0⟩ ∧
      (writes laterTurn.events).isEmpty = false ∧
      readsFirst (seenToken tokenBetween) isBare laterTurn.events ∧
      (seenToken tokenBetween).spec.kvV2 = false ∧
      (seenToken tokenBetween).spec.secretKey = "token" ∧
      (seenToken tokenBetween).spec.refreshPeriod = some "1h" := by
  decide +kernel

theorem keptTurn_facts :
    Watch.Clocked ([keptTurn].flatMap (·.events)) ∧
      (∀ turn ∈ [keptTurn], turn.Writes → turn.IsRecorded) ∧
      readsFirst (seenToken (storedToken none)) isBare keptTurn.events ∧
      (seenToken (storedToken none)).spec.kvV2 = false ∧
      (seenToken (storedToken none)).spec.secretKey = "token" ∧
      (seenToken (storedToken none)).spec.refreshPeriod = none := by
  decide +kernel

/-- A secret is rotated an hour after it was made, and one without a period is left alone. -/
theorem rotation_safe_token :
    (∃ r observed rest written compared more due, laterTurn.seen = .randomSecret r ∧
      Finds r laterTurn.events (some observed) rest ∧ RecordsAt firstTurn written ∧
      rest = clockEvent compared :: more ∧ written.addSeconds? 3600 = some due ∧ due.le compared ∧
      ∃ session answer, policyEvent r session answer ∈ rest) ∧
    ∃ r observed rest, keptTurn.seen = .randomSecret r ∧
      Finds r keptTurn.events (some observed) rest ∧ Holds r observed ∧
      writes keptTurn.events = [] := by
  constructor
  · obtain ⟨_, hturns⟩ := turns_token
    obtain ⟨hclock, hrecorded, hwrites, hwritten, hbegan, hrotates, hreads, hkv, hkey, hperiod⟩ :=
      turns_facts
    obtain ⟨observed, rest, hfinds, hbare⟩ := finds_of_readsFirst hreads
    obtain ⟨hholds, hversion⟩ := holds_of_isBare hkv hkey hbare
    have hparse : Duration.parse "1h" = .ok 3600 := rfl
    obtain ⟨hwaits, hrefreshes⟩ := (rotation_safe hturns hclock hrecorded).2 [] firstTurn []
      laterTurn [] rfl hwrites
    obtain ⟨written, compared, more, text, period, due, hrecords, hrest, htext, hduration, hadded,
      hle⟩ := hwaits _ observed rest rfl hfinds hholds hversion
        (List.isEmpty_eq_false_iff.1 hrotates)
    obtain rfl : "1h" = text := Option.some.inj (hperiod.symm.trans htext)
    obtain rfl : 3600 = period := Except.ok.inj (hparse.symm.trans hduration)
    obtain ⟨written', hrecords', hasks⟩ := hrefreshes (by simp)
    obtain rfl := hwritten written' hrecords'.1
    obtain ⟨session, answer, hasked, -⟩ := hasks _ (some observed) rest "1h" 3600 ⟨1700003600, 0⟩
      ⟨1700007200, 0⟩ rfl hfinds hperiod hparse (by decide +kernel) hbegan (by decide +kernel)
    exact ⟨_, observed, rest, written, compared, more, due, rfl, hfinds, hrecords, hrest, hadded,
      hle, session, answer, hasked⟩
  · obtain ⟨_, hturns⟩ := turns_kept
    obtain ⟨hclock, hrecorded, hreads, hkv, hkey, hperiod⟩ := keptTurn_facts
    obtain ⟨observed, rest, hfinds, hbare⟩ := finds_of_readsFirst hreads
    obtain ⟨hholds, hversion⟩ := holds_of_isBare hkv hkey hbare
    have hkept := (rotation_safe hturns hclock hrecorded).1 keptTurn List.mem_cons_self _ observed
      rest rfl hperiod hfinds hholds hversion
    exact ⟨_, observed, rest, rfl, hfinds, hholds, hkept⟩

/-- A value and what Vault would show beside it if it were wrapped. -/
def beside : Payload :=
  Dict.ofList [("token", .str "s3cret"), ("data", .obj []), ("metadata", .obj [])]

def besideTurn : Turn :=
  tokenTurn (tokenVault (some beside)) ⟨1700000000, 0⟩ (storedToken none)

theorem besideTurn_facts :
    Watch.Clocked ([besideTurn].flatMap (·.events)) ∧ besideTurn.IsRecorded ∧
      (validate (seenToken (storedToken none))).isOk ∧
      readsFirst (seenToken (storedToken none)) hasText besideTurn.events ∧
      (writes besideTurn.events).isEmpty = false := by
  decide +kernel

/-- A value that is not wrapped but looks it is written over though it has no period. -/
theorem overwritten_beside :
    ¬ ∀ turns stored final spec, Turns .randomSecret turns stored final →
      Watch.Clocked (turns.flatMap (·.events)) → (∀ turn ∈ turns, turn.IsRecorded) →
      (∀ turn ∈ turns, ∀ r, turn.seen = .randomSecret r → r.spec = spec ∧ validate r = .ok ()) →
      spec.refreshPeriod = none →
      ∀ turn ∈ turns, ∀ r observed rest, turn.seen = .randomSecret r →
        Finds r turn.events (some observed) rest → Holds r observed → writes turn.events = [] := by
  intro hclaim
  let r := seenToken (storedToken none)
  obtain ⟨hclock, hrecorded, hvalid, hreads, hwrites⟩ := besideTurn_facts
  have hturns : Turns .randomSecret [besideTurn] (storedToken none) _ :=
    .cons (tokenTurn_takes (by decide +kernel)) .nil
  obtain ⟨observed, rest, hfinds, htext⟩ := finds_of_readsFirst hreads
  have hkv : r.spec.kvV2 = false := by decide +kernel
  have hholds := holds_of_hasText hkv (by decide +kernel) htext
  have hkept := hclaim _ _ _ r.spec hturns hclock (by simpa using hrecorded) ?_ (by decide +kernel)
    besideTurn List.mem_cons_self r observed rest rfl hfinds hholds
  · simp [hkept] at hwrites
  · intro turn hmem r' hseen
    obtain rfl := List.mem_singleton.1 hmem
    obtain rfl : r = r' := by simpa [besideTurn, tokenTurn, r] using hseen
    refine ⟨rfl, ?_⟩
    cases hvalidated : validate r with
    | ok => rfl
    | error =>
      rw [hvalidated] at hvalid
      cases hvalid

end VaultOperator.RandomSecret
