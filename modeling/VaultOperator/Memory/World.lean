import VaultOperator.Memory.Cluster
import VaultOperator.Memory.Store
import VaultOperator.Memory.VaultServer
import VaultOperator.Pass.Program

/-!
Worlds in memory for passes to run in, at a fixed time.
-/

namespace VaultOperator.Memory

/-- All that answers calls; `κ` answers those to the cluster. -/
structure Backends (κ : Type) where
  vault : VaultServer := {}
  cluster : κ
  clock : Instant
  caFile : Option String := none

def readCaFile (content : Option String) : Except String String :=
  match content with
  | some text => .ok text
  | none => .error "No such file or directory (os error 2)"

namespace Backends

def worldOf (cluster : (c : Kubernetes.Call) → κ → c.Answer × κ) : World (Backends κ) where
  answer
    | .clock, b => (b.clock, b)
    | .readCaFile _, b => (readCaFile b.caFile, b)
    | .vault c, b =>
      let (answer, vault) := VaultServer.answer c b.vault
      (answer, { b with vault })
    | .cluster c, b =>
      let (answer, cluster) := cluster c b.cluster
      (answer, { b with cluster })

/-- A world whose cluster is its secrets and objects alone. -/
def storeWorld : World (Backends Store) :=
  worldOf Store.answer

/-- A world whose cluster is spoken to over its API. -/
def clusterWorld : World (Backends Cluster) :=
  worldOf Cluster.answer

end Backends

end VaultOperator.Memory
