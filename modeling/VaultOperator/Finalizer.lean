import VaultOperator.Resource.Metadata

/-!
Putting the finalizer on and taking it off. The finalizers of others and their order stay.
-/

namespace VaultOperator

/-- The list with the finalizer at its end; nothing where it is there already. -/
def withFinalizer (current : List String) : Option (List String) :=
  if current.contains finalizer then none else some (current ++ [finalizer])

/-- The list without the finalizer; nothing where it is not there. -/
def withoutFinalizer (current : List String) : Option (List String) :=
  if current.contains finalizer then some (current.filter (· ≠ finalizer)) else none

end VaultOperator
