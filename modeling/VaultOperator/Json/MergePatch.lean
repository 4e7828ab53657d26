import VaultOperator.Json.Basic

/-!
JSON merge patches (RFC 7386): null removes, objects are merged, all else replaces.
-/

namespace VaultOperator.Json

mutual

def mergePatch (target : Json) : Json → Json
  | .obj patch => ofDict (mergeFields (target.fields?.getD ∅) patch)
  | patch => patch

def mergeFields (target : Dict Json) : List (String × Json) → Dict Json
  | [] => target
  | (key, .null) :: rest => mergeFields (target.erase key) rest
  | (key, value) :: rest =>
    mergeFields (target.insert key (mergePatch ((target.get? key).getD .null) value)) rest

end

end VaultOperator.Json
