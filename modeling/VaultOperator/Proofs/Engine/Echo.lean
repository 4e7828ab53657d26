import VaultOperator.Proofs.Database.Flatten
import VaultOperator.Proofs.Engine.Surroundings
import VaultOperator.Proofs.Mount.Tuning
import VaultOperator.Proofs.Pass.Trace

/-!
# A Vault that echoes

What is read after a write shows what was written, in the way of what it was written to (`Echoes`).
Along a list of events each read is answered with what is there and each write is echoed
(`Happens`); where nothing is written nothing changes (`happens_of_writes_eq_nil`).
-/

namespace VaultOperator

open Comparison (Shows)

/-- What it is that is written to. -/
inductive Backend where
  /-- Something that is shown but for what is secret. -/
  | config (secret : List String)
  /-- The same, where what is shown may be nested and renamed. -/
  | connection (secret : List String)
  | keyValue (v2 : Bool)
  | mounts (table : Path.MountTable)

def FoundAt (content : VaultContent) (path : String) (P : Payload → Prop) : Prop :=
  ∃ found, content path = some found ∧ P found

def KeptBut (path : String) (before after : VaultContent) : Prop :=
  ∀ other, other ≠ path → after other = before other

def Backend.Echoes (before after : VaultContent) (path : String) (body : Payload) :
    Backend → Prop
  | .config secret => FoundAt after path (Shows secret body) ∧ KeptBut path before after
  | .connection secret =>
    FoundAt after path (Database.ShowsConnection secret body) ∧ KeptBut path before after
  | .keyValue false => FoundAt after path (Shows [] body)
  | .keyValue true =>
    FoundAt after path fun found => found.get? "data" = body.get? "data" ∧
      ∃ fields, found.get? "metadata" = some (.obj fields)
  | .mounts table =>
    (Path.EndsInTune path →
      FoundAt after path (Shows [] body) ∧ after table.path = before table.path) ∧
    (¬ Path.EndsInTune path →
      (∀ name, path = table.path ++ "/" ++ name →
        FoundAt after table.path fun listing => listing.contains (name ++ "/")) ∧
      FoundAt after (path ++ "/tune") (Mount.ShowsTuning body))

theorem Backend.keptBut_of_config
    (h : (Backend.config secret).Echoes before after path body) : KeptBut path before after :=
  h.2

theorem Backend.keptBut_of_connection
    (h : (Backend.connection secret).Echoes before after path body) : KeptBut path before after :=
  h.2

/-- One event, and what it makes of Vault. -/
def Becomes (store : StoreContent) (engine : Backend) (before : VaultContent) :
    Event → VaultContent → Prop
  | .call (.vault (.write _ path body)) (.ok _), after => engine.Echoes before after path body
  | e, after => Given store before e ∧ after = before

/-- One event after the other. -/
def Happens (store : StoreContent) (engine : Backend) :
    VaultContent → List Event → VaultContent → Prop
  | before, [], after => after = before
  | before, e :: es, after =>
    ∃ between, Becomes store engine before e between ∧ Happens store engine between es after

variable {store : StoreContent} {engine : Backend} {before between after : VaultContent}

theorem becomes_of_write?_eq_none (h : e.write? = none) :
    Becomes store engine before e after ↔ Given store before e ∧ after = before := by
  unfold Becomes
  split
  · cases h
  · exact .rfl

theorem happens_append :
    Happens store engine before (es ++ fs) after ↔
      ∃ between, Happens store engine before es between ∧
        Happens store engine between fs after := by
  induction es generalizing before with
  | nil => simp [Happens]
  | cons e es ih =>
    simp only [List.cons_append, Happens, ih]
    constructor
    · rintro ⟨first, he, between, hes, hfs⟩
      exact ⟨between, ⟨first, he, hes⟩, hfs⟩
    · rintro ⟨between, ⟨first, he, hes⟩, hfs⟩
      exact ⟨first, he, between, hes, hfs⟩

theorem happens_of_writes_eq_nil (h : writes es = []) (hes : Happens store engine before es after) :
    after = before ∧ ∀ e ∈ es, Given store before e := by
  induction es generalizing before with
  | nil => exact ⟨hes, by simp⟩
  | cons e es ih =>
    obtain ⟨between, hbecomes, hes⟩ := hes
    have hsilent := List.filterMap_eq_nil_iff.1 h
    obtain ⟨hgiven, rfl⟩ :=
      (becomes_of_write?_eq_none (hsilent e List.mem_cons_self)).1 hbecomes
    have hrest : writes es = [] :=
      List.filterMap_eq_nil_iff.2 fun e he => hsilent e (List.mem_cons_of_mem _ he)
    obtain ⟨rfl, hes⟩ := ih hrest hes
    exact ⟨rfl, List.forall_mem_cons.2 ⟨hgiven, hes⟩⟩

/-- What happens while nobody writes, and afterwards. -/
theorem Happens.split (h : writes es = []) (hes : Happens store engine before (es ++ fs) after) :
    (∀ e ∈ es, Given store before e) ∧ Happens store engine before fs after := by
  obtain ⟨between, hes, hfs⟩ := happens_append.1 hes
  obtain ⟨rfl, hgiven⟩ := happens_of_writes_eq_nil h hes
  exact ⟨hgiven, hfs⟩

theorem echoes_of_happens
    (h : Happens store engine before [.call (.vault (.write session path body)) (.ok response)]
      after) : engine.Echoes before after path body := by
  obtain ⟨between, hbecomes, rfl⟩ := h
  exact hbecomes

end VaultOperator
