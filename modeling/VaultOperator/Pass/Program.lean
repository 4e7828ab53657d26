import VaultOperator.Engine.Error
import VaultOperator.Metric
import VaultOperator.Pass.Call

/-!
Passes as programs: what is done depends on nothing but the answers to the calls made so far. A
program is run against anything that answers calls (`Program.run`), and what happened is the list
of its events.
-/

namespace VaultOperator

inductive Program (α : Type) where
  | done (value : α)
  | count (metric : Metric) (next : Program α)
  | call (c : Call) (next : c.Answer → Program α)
  /-- A date was left that the calendar does not hold: the pass ends there and then. -/
  | abort

namespace Program

variable {α β γ σ : Type}

def bind : Program α → (α → Program β) → Program β
  | done a, f => f a
  | count metric p, f => count metric (p.bind f)
  | call c p, f => call c fun answer => (p answer).bind f
  | abort, _ => abort

instance : Monad Program where
  pure := done
  bind := bind

theorem bind_done (p : Program α) : p.bind done = p := by
  induction p with
  | done => rfl
  | count metric p ih => simp [bind, ih]
  | call c p ih => simp [bind, ih]
  | abort => rfl

theorem bind_assoc (p : Program α) (f : α → Program β) (g : β → Program γ) :
    (p.bind f).bind g = p.bind fun a => (f a).bind g := by
  induction p with
  | done => rfl
  | count metric p ih => simp [bind, ih]
  | call c p ih => simp [bind, ih]
  | abort => rfl

instance : LawfulMonad Program :=
  LawfulMonad.mk' Program (fun p => bind_done p) (fun _ _ => rfl) bind_assoc

def ask (c : Call) : Program c.Answer :=
  call c done

def vault (c : Vault.Call) : Program c.Answer :=
  ask (.vault c)

def cluster (c : Kubernetes.Call) : Program c.Answer :=
  ask (.cluster c)

def tally (metric : Metric) : Program Unit :=
  count metric (done ())

end Program

inductive Event where
  | call (c : Call) (answer : c.Answer)
  | count (metric : Metric)

/-- Something that answers calls and may change with each. -/
structure World (σ : Type) where
  answer : (c : Call) → σ → c.Answer × σ

/-- How a program ended, what happened on the way and what became of the world. No result means
that it was aborted. -/
structure Run (σ α : Type) where
  result : Option α
  events : List Event
  state : σ

namespace Program

def run (world : World σ) : Program α → σ → Run σ α
  | done a, s => ⟨some a, [], s⟩
  | count metric p, s =>
    let r := p.run world s
    { r with events := .count metric :: r.events }
  | call c p, s =>
    let (answer, s') := world.answer c s
    let r := (p answer).run world s'
    { r with events := .call c answer :: r.events }
  | abort, s => ⟨none, [], s⟩

end Program

abbrev Pass := ExceptT ReconcileError Program

namespace Pass

/-- Makes a call that may fail, with its error seen as one of the pass. -/
def attempt (wrap : ε → ReconcileError) (p : Program (Except ε α)) : Pass α :=
  ExceptT.mk (p.bind fun
    | .ok a => .done (.ok a)
    | .error e => .done (.error (wrap e)))

def read (session : Vault.Session) (path : String) : Pass (Option Payload) :=
  attempt .remote (.vault (.read session path))

def write (session : Vault.Session) (path : String) (body : Payload) : Pass (Option Payload) :=
  attempt .remote (.vault (.write session path body))

def getSecret (ns name : String) : Pass (Option SecretData) :=
  attempt .store (.cluster (.getSecret ns name))

def orFail (value : Option α) (e : ReconcileError) : Pass α :=
  match value with
  | some a => pure a
  | none => throw e

def check (result : Except ValidationError Unit) : Pass Unit :=
  match result with
  | .ok () => pure ()
  | .error e => throw (.validation e)

end Pass

end VaultOperator
