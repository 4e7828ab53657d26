import VaultOperator.Json.MergePatch
import VaultOperator.Kubernetes.Client
import VaultOperator.Proofs.Pass.Trace

/-!
# What becomes of a stored object

The cluster merges the patches that it is asked for into the object it stores (`Stores`). One whose
answer is a failure may have been made all the same, and others may edit all but the status of the
object at any time.
-/

namespace VaultOperator

open Kubernetes (Request exchange objectsPath)

def finalizersPatch (finalizers : List String) : Json :=
  Json.record [("metadata", Json.record [("finalizers", Json.ofStrings finalizers)])]

def statusPatch (status : Json) : Json :=
  Json.record [("status", status)]

/-- The patch of an object that a call asks for. -/
def Call.patch? (o : ObjectRef) : Call → Option Json
  | .cluster (.patchFinalizers o' finalizers) =>
    if o' = o then some (finalizersPatch finalizers) else none
  | .cluster (.patchStatus o' status) => if o' = o then some (statusPatch status) else none
  | _ => none

theorem Call.patch?_request {c : Kubernetes.Call} (h : (Call.cluster c).patch? o = some patch) :
    ∃ ending query, (exchange c).request =
      Request.ofItem .patch (objectsPath o.kind o.ns) o.name ending query (some patch) := by
  unfold patch? at h
  split at h <;> simp only [cluster.injEq, reduceCtorEq, Option.ite_none_right_eq_some] at *
  all_goals
    subst_vars
    obtain ⟨rfl, h⟩ := h
    cases h
    exact ⟨_, _, rfl⟩

theorem Call.patch?_eq_none {c : Call} (h : c.isPatch = false) : c.patch? o = none := by
  unfold patch?
  split
  case h_3 => rfl
  all_goals cases h

namespace Event

def patch? (o : ObjectRef) : Event → Option Json
  | .call c _ => c.patch? o
  | .count _ => none

/-- A patch that failed, as far as is known. -/
def isRefused : Event → Bool
  | .call (.cluster (.patchFinalizers ..)) (.error _)
  | .call (.cluster (.patchStatus ..)) (.error _) => true
  | _ => false

end Event

/-- The events can take the stored object from one form to another. -/
inductive Stores (o : ObjectRef) : List Event → Json → Json → Prop
  | nil : Stores o [] stored stored
  | unchanged (h : e.patch? o = none ∨ e.isRefused) (rest : Stores o es stored final) :
    Stores o (e :: es) stored final
  | merged (h : e.patch? o = some patch) (rest : Stores o es (stored.mergePatch patch) final) :
    Stores o (e :: es) stored final
  | edited (h : edited.get? "status" = stored.get? "status") (rest : Stores o es edited final) :
    Stores o es stored final

variable {o : ObjectRef}

/-- What is true of a stored object whatever is edited, and after every patch that is asked for. -/
theorem Stores.invariant {P : Json → Prop} (h : Stores o es stored final) (hstored : P stored)
    (hedit : ∀ s t, t.get? "status" = s.get? "status" → P s → P t)
    (hpatch : ∀ e ∈ es, ∀ patch ∈ e.patch? o, ∀ s, P s → P (s.mergePatch patch)) : P final := by
  induction h with
  | nil => exact hstored
  | unchanged _ _ ih => exact ih hstored fun e he => hpatch e (List.mem_cons_of_mem _ he)
  | merged h _ ih =>
    exact ih (hpatch _ List.mem_cons_self _ h _ hstored) fun e he =>
      hpatch e (List.mem_cons_of_mem _ he)
  | edited h _ ih => exact ih (hedit _ _ h hstored) hpatch

/-- What one patch that was made for sure brings about, and what stays from then on. -/
theorem Stores.established {P : Json → Prop} (h : Stores o es stored final)
    (hedit : ∀ s t, t.get? "status" = s.get? "status" → P s → P t)
    (hpatch : ∀ e ∈ es, ∀ patch ∈ e.patch? o, ∀ s, P s → P (s.mergePatch patch))
    (hmade : ∃ e ∈ es, ¬ e.isRefused ∧ ∃ patch ∈ e.patch? o, ∀ s : Json, P (s.mergePatch patch)) :
    P final := by
  obtain ⟨made, hmem, hsure, patch, hpatched, hbrings⟩ := hmade
  induction h with
  | nil => cases hmem
  | unchanged h _ ih =>
    refine ih (fun e he => hpatch e (List.mem_cons_of_mem _ he)) ?_
    rcases List.mem_cons.1 hmem with rfl | hmem
    · rcases h with hnone | hrefused
      · rw [hnone] at hpatched
        cases hpatched
      · exact absurd hrefused hsure
    · exact hmem
  | merged h rest ih =>
    have hrest := fun e he => hpatch e (List.mem_cons_of_mem _ he)
    rcases List.mem_cons.1 hmem with rfl | hmem
    · obtain rfl := Option.some.inj (h.symm.trans hpatched)
      exact rest.invariant (hbrings _) hedit hrest
    · exact ih hrest hmem
  | edited _ _ ih => exact ih hpatch hmem

theorem stores_unchanged (h : ∀ e ∈ es, e.patch? o = none ∨ e.isRefused) :
    Stores o es stored stored := by
  induction es with
  | nil => exact .nil
  | cons e es ih =>
    obtain ⟨he, hes⟩ := List.forall_mem_cons.1 h
    exact .unchanged he (ih hes)

/-- What is stored once all patches are made that did not fail. -/
def storedAfter (o : ObjectRef) : List Event → Json → Json
  | [], stored => stored
  | e :: es, stored =>
    match e.isRefused, e.patch? o with
    | false, some patch => storedAfter o es (stored.mergePatch patch)
    | _, _ => storedAfter o es stored

theorem stores_storedAfter : Stores o es stored (storedAfter o es stored) := by
  induction es generalizing stored with
  | nil => exact .nil
  | cons e es ih =>
    unfold storedAfter
    split
    · next hpatch => exact .merged hpatch ih
    · next hnone =>
      refine .unchanged ?_ ih
      cases hrefused : e.isRefused with
      | false => exact .inl (Option.eq_none_iff_forall_ne_some.2 fun patch => hnone patch hrefused)
      | true => exact .inr rfl

end VaultOperator
