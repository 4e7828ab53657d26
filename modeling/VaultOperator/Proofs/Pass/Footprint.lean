import VaultOperator.Memory.World
import VaultOperator.Proofs.Pass.Interleaving
import VaultOperator.Proofs.Pass.Trace

/-!
# What calls touch

A call to Vault changes nothing but what is at the paths that it writes (`VaultServer.answer_frame`), and
nothing but what is at the paths that it touches tells in it (`VaultServer.answer_congr`). Calls that
write nothing that the other touches therefore commute (`storeWorld_commute`).
-/

namespace VaultOperator

open VaultOperator.Path (MountTable)

namespace Memory.VaultServer

variable {path key : String} {body : Payload} {d e : Dict Payload} {table : MountTable}

/-- The tables in which the mount is listed that a write to a path makes, if it makes one. -/
def listings (path : String) : List String :=
  ([MountTable.secret, MountTable.auth].filter fun table => (mountOf? table path).isSome).map (·.path)

theorem mem_listings : (mountOf? table path).isSome → table.path ∈ listings path := by
  intro hmount
  refine List.mem_map_of_mem (List.mem_filter.2 ⟨?_, hmount⟩)
  cases table <;> simp

-- ---------------------------------------------------------------------------
-- Payloads
-- ---------------------------------------------------------------------------

theorem listMount_frame (h : key ∉ listings path) :
    (listMount path body d table).get? key = d.get? key := by
  unfold listMount
  split
  · next mount hmount =>
    have hne : table.path ≠ key := fun hkey => h (hkey ▸ mem_listings (hmount ▸ rfl))
    rw [list, Dict.get?_insert, if_neg hne]
  · rfl

theorem listMount_congr (h : ∀ listing ∈ listings path, d.get? listing = e.get? listing)
    (hkey : d.get? key = e.get? key) :
    (listMount path body d table).get? key = (listMount path body e table).get? key := by
  unfold listMount
  split
  · next mount hmount =>
    rw [list, list, Dict.get?_insert, Dict.get?_insert, h _ (mem_listings (hmount ▸ rfl)), hkey]
  · exact hkey

theorem store_eq : store path body d =
    listMount path body (listMount path body (d.insert path body) .secret) .auth := rfl

theorem store_frame (h : key ∉ path :: listings path) :
    (store path body d).get? key = d.get? key := by
  have hpath : key ≠ path := fun hkey => h (hkey ▸ List.mem_cons_self)
  have hlistings : key ∉ listings path := fun hmem => h (List.mem_cons_of_mem _ hmem)
  rw [store_eq, listMount_frame hlistings, listMount_frame hlistings, Dict.get?_insert,
    if_neg (Ne.symm hpath)]

theorem store_congr (h : ∀ key ∈ path :: listings path, d.get? key = e.get? key)
    (hkey : d.get? key = e.get? key) :
    (store path body d).get? key = (store path body e).get? key := by
  have hinsert {other : String} (hother : d.get? other = e.get? other) :
      (d.insert path body).get? other = (e.insert path body).get? other := by
    rw [Dict.get?_insert, Dict.get?_insert, hother]
  have hlistings : ∀ listing ∈ listings path,
      (d.insert path body).get? listing = (e.insert path body).get? listing :=
    fun listing hmem => hinsert (h listing (List.mem_cons_of_mem _ hmem))
  rw [store_eq, store_eq]
  exact listMount_congr (fun listing hmem => listMount_congr hlistings (hlistings listing hmem))
    (listMount_congr hlistings (hinsert hkey))

end Memory.VaultServer

-- ---------------------------------------------------------------------------
-- Calls to Vault
-- ---------------------------------------------------------------------------

namespace Vault.Call

/-- The paths where a call may change what there is. -/
def written : Vault.Call → List String
  | write _ path _ => path :: Memory.VaultServer.listings path
  | delete _ path => [path]
  | _ => []

/-- The paths that a call reads or writes. -/
def touched : Vault.Call → List String
  | read _ path => [path]
  | c => c.written

theorem written_subset_touched (c : Vault.Call) : c.written ⊆ c.touched := by
  cases c with
  | read => exact List.nil_subset _
  | _ => exact List.Subset.refl _

end Vault.Call

namespace Memory.VaultServer

variable {c d : Vault.Call} {v v' : VaultServer} {key : String}

theorem answer_failures : (answer c v).2.failures = v.failures := by
  cases c <;> simp only [answer] <;> split <;> try rfl
  split <;> rfl

theorem answer_responses : (answer c v).2.responses = v.responses := by
  cases c <;> simp only [answer] <;> split <;> try rfl
  split <;> rfl

theorem answer_frame (h : key ∉ c.written) :
    (answer c v).2.payloads.get? key = v.payloads.get? key := by
  cases c with
  | login | read => simp only [answer]; split <;> rfl
  | write session path body =>
    simp only [answer]
    split
    · rfl
    · exact store_frame h
  | delete session path =>
    simp only [answer]
    split
    · rfl
    · split
      · rw [Dict.get?_erase, if_neg fun hkey => h (by simp [Vault.Call.written, hkey])]
      · rfl

/-- What there is in Vault makes no difference to a call but for what it touches. -/
theorem answer_congr (hfailures : v'.failures = v.failures) (hresponses : v'.responses = v.responses)
    (h : ∀ key ∈ c.touched, v'.payloads.get? key = v.payloads.get? key) :
    (answer c v').1 = (answer c v).1 ∧ ∀ key, v'.payloads.get? key = v.payloads.get? key →
      (answer c v').2.payloads.get? key = (answer c v).2.payloads.get? key := by
  cases c with
  | login target request =>
    simp only [answer, failure?, hfailures]
    split <;> exact ⟨rfl, fun _ hkey => hkey⟩
  | read session path =>
    have hpath : v'.payloads.get? path = v.payloads.get? path := h path List.mem_cons_self
    simp only [answer, failure?, read, hfailures, hpath]
    split <;> exact ⟨rfl, fun _ hkey => hkey⟩
  | write session path body =>
    simp only [answer, failure?, hfailures, hresponses]
    split
    · exact ⟨rfl, fun _ hkey => hkey⟩
    · exact ⟨rfl, fun _ hkey => store_congr h hkey⟩
  | delete session path =>
    have hcontains : v'.payloads.contains path = v.payloads.contains path :=
      congrArg Option.isSome (h path List.mem_cons_self)
    simp only [answer, failure?, hfailures, hcontains]
    split
    · exact ⟨rfl, fun _ hkey => hkey⟩
    · split
      · exact ⟨rfl, fun _ hkey => by rw [Dict.get?_erase, Dict.get?_erase, hkey]⟩
      · exact ⟨rfl, fun _ hkey => hkey⟩

theorem eq_of_get? (hfailures : v.failures = v'.failures) (hresponses : v.responses = v'.responses)
    (h : ∀ key, v.payloads.get? key = v'.payloads.get? key) : v = v' := by
  cases v
  cases v'
  cases hfailures
  cases hresponses
  cases Dict.ext_get? h
  rfl

/-- A call that writes nothing that another touches leaves that one's answer alone. -/
theorem answer_after (h : ∀ path ∈ d.written, path ∉ c.touched) :
    (answer c (answer d v).2).1 = (answer c v).1 ∧ ∀ key, key ∉ d.written →
      (answer c (answer d v).2).2.payloads.get? key = (answer c v).2.payloads.get? key := by
  have hsame : ∀ key ∈ c.touched, (answer d v).2.payloads.get? key = v.payloads.get? key :=
    fun key hkey => answer_frame fun hwritten => h key hwritten hkey
  obtain ⟨hanswer, hpayloads⟩ := answer_congr answer_failures answer_responses hsame
  exact ⟨hanswer, fun key hkey => hpayloads key (answer_frame hkey)⟩

theorem answer_comm (hcd : ∀ path ∈ c.written, path ∉ d.touched)
    (hdc : ∀ path ∈ d.written, path ∉ c.touched) :
    (answer d (answer c v).2).2 = (answer c (answer d v).2).2 := by
  refine eq_of_get? ?_ ?_ fun key => ?_
  · simp only [answer_failures]
  · simp only [answer_responses]
  · by_cases hkey : key ∈ c.written
    · have hother : key ∉ d.written := fun hd => hcd key hkey (d.written_subset_touched hd)
      rw [answer_frame hother, (answer_after hdc).2 key hother]
    · rw [answer_frame hkey, (answer_after hcd).2 key hkey]

end Memory.VaultServer

-- ---------------------------------------------------------------------------
-- All calls
-- ---------------------------------------------------------------------------

namespace Call

/-- The paths of Vault where a call may change what there is. -/
def written : Call → List String
  | vault c => c.written
  | _ => []

/-- The paths of Vault that a call reads or writes. -/
def touched : Call → List String
  | vault c => c.touched
  | _ => []

end Call

namespace Memory

open Backends (storeWorld)

theorem Store.answer_of_sparesCluster {c : Kubernetes.Call} {s : Store}
    (h : (Call.cluster c).SparesCluster) : (Store.answer c s).2 = s := by
  cases c with
  | createSecret | deleteSecret => cases h.2
  | patchFinalizers | patchStatus => rfl
  | _ => simp only [Store.answer, Store.guarded]; split <;> rfl

theorem storeWorld_still {c : Call} (hc : c.SparesCluster) (hvault : c.isVault = false)
    (b : Backends Store) : (storeWorld.answer c b).2 = b := by
  cases c with
  | vault => cases hvault
  | cluster c =>
    have hstore : (Store.answer c b.cluster).2 = b.cluster := Store.answer_of_sparesCluster hc
    show { b with cluster := (Store.answer c b.cluster).2 } = b
    rw [hstore]
  | clock | readCaFile => rfl

/-- A call that changes nothing, and to which what is in Vault makes no difference. -/
theorem storeWorld_commute_of_still {c d : Call} (hc : c.SparesCluster) (hd : d.SparesCluster)
    (hvault : c.isVault = false) : storeWorld.Commute c d where
  left b := by
    cases d with
    | vault => cases c with
      | vault => cases hvault
      | _ => rfl
    | _ => rw [storeWorld_still hd rfl]
  right b := by rw [storeWorld_still hc hvault]
  state b := by rw [storeWorld_still hc hvault, storeWorld_still hc hvault]

/-- Calls commute that leave the objects of the cluster alone and write nothing in Vault that the other
touches. -/
theorem storeWorld_commute {c d : Call} (hc : c.SparesCluster) (hd : d.SparesCluster)
    (hcd : ∀ path ∈ c.written, path ∉ d.touched) (hdc : ∀ path ∈ d.written, path ∉ c.touched) :
    storeWorld.Commute c d := by
  cases hcvault : c.isVault with
  | false => exact storeWorld_commute_of_still hc hd hcvault
  | true =>
    cases hdvault : d.isVault with
    | false => exact (storeWorld_commute_of_still hd hc hdvault).symm
    | true =>
      cases c with
      | vault c =>
        cases d with
        | vault d =>
          exact {
            left := fun b => (VaultServer.answer_after hdc).1
            right := fun b => (VaultServer.answer_after hcd).1
            state := fun b =>
              congrArg (fun vault => { b with vault }) (VaultServer.answer_comm hcd hdc) }
        | _ => cases hdvault
      | _ => cases hcvault

end Memory

-- ---------------------------------------------------------------------------
-- Events
-- ---------------------------------------------------------------------------

def writtenPaths (es : List Event) : List String :=
  es.flatMap fun
    | .call c _ => c.written
    | .count _ => []

def touchedPaths (es : List Event) : List String :=
  es.flatMap fun
    | .call c _ => c.touched
    | .count _ => []

theorem mem_writtenPaths {c : Call} {answer : c.Answer} {es : List Event}
    (hc : .call c answer ∈ es) (h : path ∈ c.written) : path ∈ writtenPaths es :=
  List.mem_flatMap.2 ⟨_, hc, h⟩

theorem mem_touchedPaths {c : Call} {answer : c.Answer} {es : List Event}
    (hc : .call c answer ∈ es) (h : path ∈ c.touched) : path ∈ touchedPaths es :=
  List.mem_flatMap.2 ⟨_, hc, h⟩

end VaultOperator
