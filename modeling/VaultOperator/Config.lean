import VaultOperator.Json.Basic
import VaultOperator.Text.Blank
import VaultOperator.Text.Digit

/-!
The settings of the operator, read from environment variables. A variable that does not hold a
value of its type counts as not set.
-/

namespace VaultOperator

/-- How Vault is reached where a resource does not say otherwise. -/
structure VaultDefaults where
  address : String := "https://vault.vault.svc:8200"
  ns : Option String := none
  /-- A file of PEM certificates. -/
  caCertFile : Option String := none
  skipVerify : Bool := false
  requestTimeoutSeconds : UInt64 := 30
  deriving DecidableEq, Repr

structure Config where
  metricsPort : UInt16 := 5000
  serverStartupTimeoutSeconds : UInt64 := 10
  serverPollIntervalMillis : UInt64 := 50
  /-- The wait after a successful pass. -/
  resyncSeconds : UInt64 := 300
  /-- The wait while something outside of the operator is missing. -/
  awaitingInputSeconds : UInt64 := 60
  /-- The wait after a failed validation. -/
  validationSeconds : UInt64 := 3600
  backoffMinMinutes : UInt64 := 1
  backoffMaxMinutes : UInt64 := 10
  maxConcurrentPasses : UInt16 := 10
  watchRestartDelaySeconds : UInt64 := 5
  /-- The lifetime asked for service account tokens. -/
  tokenTtlSeconds : Int := 600
  vault : VaultDefaults := {}
  deriving DecidableEq, Repr

namespace Config

abbrev Environment := Dict String

def readUInt64 (env : Environment) (key : String) (fallback : UInt64) : UInt64 :=
  match (env.get? key).map fun value => Text.readUnsigned (UInt64.size - 1) value.toList with
  | some (.ok n) => UInt64.ofNat n
  | _ => fallback

def readUInt16 (env : Environment) (key : String) (fallback : UInt16) : UInt16 :=
  match (env.get? key).map fun value => Text.readUnsigned (UInt16.size - 1) value.toList with
  | some (.ok n) => UInt16.ofNat n
  | _ => fallback

def readInt (env : Environment) (key : String) (fallback : Int) : Int :=
  match (env.get? key).map fun value => Text.readSigned (Int64.size / 2) (Int64.size / 2 - 1) value.toList with
  | some (.ok n) => n
  | _ => fallback

def readNonBlank (env : Environment) (key : String) : Option String :=
  (env.get? key).filter fun value => !Text.isBlankText value

def isYes (value : String) : Bool :=
  ["true", "1", "yes", "on"].contains value.toLower

def readBool (env : Environment) (key : String) (fallback : Bool) : Bool :=
  match env.get? key with
  | some value => isYes value
  | none => fallback

def vaultDefaultsOf (env : Environment) : VaultDefaults :=
  let d : VaultDefaults := {}
  { address := (env.get? "VAULT_ADDR").getD d.address
    ns := readNonBlank env "VAULT_NAMESPACE"
    caCertFile := readNonBlank env "VAULT_CACERT"
    skipVerify := readBool env "VAULT_SKIP_VERIFY" d.skipVerify
    requestTimeoutSeconds := readUInt64 env "VAULT_REQUEST_TIMEOUT_SECS" d.requestTimeoutSeconds }

def ofEnvironment (env : Environment) : Config :=
  let d : Config := {}
  { metricsPort := readUInt16 env "METRICS_PORT" d.metricsPort
    serverStartupTimeoutSeconds :=
      readUInt64 env "SERVER_STARTUP_TIMEOUT_SECS" d.serverStartupTimeoutSeconds
    serverPollIntervalMillis :=
      readUInt64 env "SERVER_POLL_INTERVAL_MS" d.serverPollIntervalMillis
    resyncSeconds := readUInt64 env "RESYNC_INTERVAL_SECS" d.resyncSeconds
    awaitingInputSeconds := readUInt64 env "AWAITING_INPUT_REQUEUE_SECS" d.awaitingInputSeconds
    validationSeconds := readUInt64 env "VALIDATION_REQUEUE_SECS" d.validationSeconds
    backoffMinMinutes := readUInt64 env "BACKOFF_MIN_MINUTES" d.backoffMinMinutes
    backoffMaxMinutes := readUInt64 env "BACKOFF_MAX_MINUTES" d.backoffMaxMinutes
    maxConcurrentPasses := readUInt16 env "MAX_CONCURRENT_RECONCILES" d.maxConcurrentPasses
    watchRestartDelaySeconds :=
      readUInt64 env "WATCH_RESTART_DELAY_SECS" d.watchRestartDelaySeconds
    tokenTtlSeconds := readInt env "SERVICE_ACCOUNT_TOKEN_TTL_SECS" d.tokenTtlSeconds
    vault := vaultDefaultsOf env }

def wordToJson (w : UInt64) : Json :=
  .int w.toNat

def vaultToJson (d : VaultDefaults) : Json :=
  Json.record
    [("address", .str d.address), ("namespace", Json.ofOption .str d.ns),
      ("ca_cert_file", Json.ofOption .str d.caCertFile), ("skip_verify", .bool d.skipVerify),
      ("request_timeout_secs", wordToJson d.requestTimeoutSeconds)]

def toJson (c : Config) : Json :=
  Json.record
    [("metrics_port", .int c.metricsPort.toNat),
      ("server_startup_timeout_secs", wordToJson c.serverStartupTimeoutSeconds),
      ("server_poll_interval_ms", wordToJson c.serverPollIntervalMillis),
      ("resync_interval_secs", wordToJson c.resyncSeconds),
      ("awaiting_input_requeue_secs", wordToJson c.awaitingInputSeconds),
      ("validation_requeue_secs", wordToJson c.validationSeconds),
      ("backoff_min_minutes", wordToJson c.backoffMinMinutes),
      ("backoff_max_minutes", wordToJson c.backoffMaxMinutes),
      ("max_concurrent_reconciles", .int c.maxConcurrentPasses.toNat),
      ("watch_restart_delay_secs", wordToJson c.watchRestartDelaySeconds),
      ("service_account_token_ttl_secs", .int c.tokenTtlSeconds), ("vault", vaultToJson c.vault)]

end Config

end VaultOperator
