import VaultOperator.Text.Split

/-!
Errors of the stream that tells of changed objects, told apart by their text.
-/

namespace VaultOperator.Watch

inductive StreamError where
  /-- The operator may not watch. -/
  | unauthorized
  /-- The stream is resumed from too far back. -/
  | expired
  /-- The cluster is busy. -/
  | throttled
  /-- The kind is not known to the cluster, or the object is gone. -/
  | notFound
  | other
  deriving DecidableEq, Repr

namespace StreamError

def name : StreamError → String
  | unauthorized => "Unauthorized"
  | expired => "Expired"
  | throttled => "Throttled"
  | notFound => "NotFound"
  | other => "Other"

/-- The texts that tell of an error. Those of earlier errors are looked for first. -/
def markers : List (StreamError × List String) :=
  [(notFound, ["ObjectNotFound", "404", "not found"]),
    (unauthorized, ["401", "Unauthorized"]),
    (expired, ["410", "too old resource version", "Expired", "Gone"]),
    (throttled, ["429", "storage is (re)initializing", "TooManyRequests"])]

def classify (text : String) : StreamError :=
  match markers.find? fun entry => entry.2.any (Text.contains text) with
  | some (error, _) => error
  | none => other

/-- The stream is not resumed at once. -/
def pauses : StreamError → Bool
  | unauthorized | throttled | other => true
  | expired | notFound => false

end StreamError

end VaultOperator.Watch
