import VaultOperator.Metric
import VaultOperator.Path.Endpoint
import VaultOperator.Text.Pem
import VaultOperator.Vault.Call

/-!
The calls to Vault over HTTP: each is one request, and a reading of the reply. Every request that is
made is counted, and so are the errors that come of it.
-/

namespace VaultOperator.Vault

inductive Method where
  | get
  | post
  | delete
  deriving DecidableEq, Repr

def Method.name : Method → String
  | .get => "GET"
  | .post => "POST"
  | .delete => "DELETE"

structure Request where
  method : Method
  url : String
  token : Option String := none
  ns : Option String := none
  body : Option Payload := none

inductive Reply where
  /-- Nothing came back. -/
  | none (cause : String)
  | response (status : Nat) (body : String)
  deriving DecidableEq, Repr

inductive Operation where
  | login
  | read
  | write
  | delete
  deriving DecidableEq, Repr

def Operation.name : Operation → String
  | .login => "login"
  | .read => "read"
  | .write => "write"
  | .delete => "delete"

def url (address path : String) : String :=
  String.ofList ((address.toList.reverse.dropWhile (· == '/')).reverse) ++ "/v1/" ++ path

/-- What a reply holds; nothing if it is blank. -/
def envelope (path : String) : Reply → Except Error (Option Json)
  | .none cause => .error (.transport path cause)
  | .response status body =>
    if status < 200 ∨ 300 ≤ status then .error (.ofStatus status path body)
    else if status = 204 ∨ Text.isBlankText body then .ok none
    else
      match Json.parse? body with
      | some j => .ok (some j)
      | none => .error (.decode path "not JSON")

def dataOf (envelope : Option Json) : Option Payload := do
  (← (← envelope).get? "data").fields?

def tokenOf (envelope : Option Json) : Option String := do
  let token ← (← (← (← envelope).get? "auth").get? "client_token").str?
  if token.isEmpty then none else some token

/-- An empty namespace counts as none. -/
def namespaceOf (ns : Option String) : Option String :=
  ns.filter fun ns => !ns.isEmpty

/-- A request, and what is learned from the reply to it. -/
structure Exchange (α : Type) where
  operation : Operation
  /-- What errors call the endpoint. -/
  path : String
  request : Request
  read : Except Error (Option Json) → Except Error α

def loginExchange (target : Target) (r : LoginRequest) : Exchange String :=
  let path := Path.authLogin r.mount
  { operation := .login
    path
    request :=
      { method := .post
        url := url target.address path
        ns := namespaceOf (r.ns.or target.ns)
        body := some (Dict.ofList [("role", .str r.role), ("jwt", .str r.jwt)]) }
    read := fun
      | .ok envelope =>
        match tokenOf envelope with
        | some token => .ok token
        | none => .error (.missingToken path)
      | .error e => .error e }

def Session.request (s : Session) (method : Method) (path : String) (body : Option Payload) :
    Request :=
  { method
    url := url s.target.address path
    token := some s.token
    ns := namespaceOf s.target.ns
    body }

def readExchange (s : Session) (path : String) : Exchange (Option Payload) :=
  { operation := .read
    path
    request := s.request .get path none
    read := fun
      | .ok envelope => .ok (some ((dataOf envelope).getD ∅))
      | .error e => if e.isNotFound then .ok none else .error e }

def writeExchange (s : Session) (path : String) (body : Payload) : Exchange (Option Payload) :=
  { operation := .write
    path
    request := s.request .post path (some body)
    read := (·.map dataOf) }

def deleteExchange (s : Session) (path : String) : Exchange Unit :=
  { operation := .delete
    path
    request := s.request .delete path none
    read := (·.map fun _ => ()) }

/-- The counters of a request: an error is one of them unless nothing was found. -/
def Operation.metrics (o : Operation) (result : Except Error (Option Json)) : List Metric :=
  .vaultOperation o.name ::
    match result with
    | .error e => if e.isNotFound then [] else [.vaultOperationError o.name e.label]
    | .ok _ => []

/-- What came of a call, what was counted, and the state of what replied. -/
structure Outcome (σ α : Type) where
  result : Except Error α
  metrics : List Metric
  state : σ

/-- Certificates that cannot be read make a target unusable. -/
def Target.check (t : Target) : Except Error Unit :=
  if t.caPem.all Text.Pem.isReadable then .ok ()
  else .error (.invalidTarget "CA bundle is not valid PEM: builder error")

/-- Has something reply to the request, if the target can be used at all. -/
def Exchange.perform (e : Exchange α) (target : Target) (send : Request → σ → Reply × σ)
    (state : σ) : Outcome σ α :=
  match target.check with
  | .error cause => ⟨.error cause, [], state⟩
  | .ok () =>
    let (reply, state) := send e.request state
    let result := envelope e.path reply
    ⟨e.read result, e.operation.metrics result, state⟩

def Call.perform (send : Request → σ → Reply × σ) (state : σ) :
    (c : Call) → c.Answer × List Metric × σ
  | .login target request =>
    let o := (loginExchange target request).perform target send state
    (o.result, o.metrics, o.state)
  | .read session path =>
    let o := (readExchange session path).perform session.target send state
    (o.result, o.metrics, o.state)
  | .write session path body =>
    let o := (writeExchange session path body).perform session.target send state
    (o.result, o.metrics, o.state)
  | .delete session path =>
    let o := (deleteExchange session path).perform session.target send state
    (o.result, o.metrics, o.state)

end VaultOperator.Vault
