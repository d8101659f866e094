import Mathlib.Data.Finset.Dedup
import RozeDtm.Model.Coordinator.Retention
import RozeDtm.Model.Service.Request

/-!
# The configuration of the service

`DtmConfig` of the service's `main.rs` with its checks, and what it makes the settings of the
coordinator.  A path is its text.
-/

namespace RozeDtm

inductive StoreKind
  | memory
  | sqlite
  | postgres
  | mysql
  | redis
  deriving DecidableEq, Repr

structure StoreConfig where
  kind : StoreKind
  databaseUrl : Option String
  redisUrl : Option String
  redisClusterUrls : List String
  redisNamespace : String
  redisOperationTimeoutMs : Nat
  maxConnections : Nat
  deriving DecidableEq

/-- `StoreConfig::default`. -/
def StoreConfig.default : StoreConfig where
  kind := .memory
  databaseUrl := none
  redisUrl := none
  redisClusterUrls := []
  redisNamespace := "roze-dtm"
  redisOperationTimeoutMs := 5000
  maxConnections := 10

/-- `.as_deref().filter(|url| !url.trim().is_empty())`. -/
def givenUrl (o : Option String) : Option String := o.filter fun url => !(trim url).isEmpty

/-- `validate_redis_namespace`. -/
def validateRedisNamespace (name : String) : Except Err Unit :=
  ensure (!name.isEmpty && name.utf8ByteSize ≤ 64 &&
      name.toList.all fun c => c.isAlphanum || c = '-' || c = '_')
    "Redis DTM namespace must contain 1 to 64 ASCII letters, digits, '-' or '_'"

namespace StoreConfig

variable (config : StoreConfig)

/-- `StoreConfig::validate_url`. -/
def validateUrl (kind : String) (schemes : List String) : Except Err Unit := do
  ensure (1 ≤ config.maxConnections && config.maxConnections ≤ 1000)
    "application.dtm.store.max_connections must be between 1 and 1000"
  let url ← require (givenUrl config.databaseUrl)
    s!"application.dtm.store.database_url is required for {kind}"
  ensure (schemes.any fun scheme => url.startsWith scheme)
    s!"application.dtm.store.database_url scheme does not match store kind {kind}"

/-- `StoreConfig::validate_redis`. -/
def validateRedis : Except Err Unit := do
  ensure config.databaseUrl.isNone
    "application.dtm.store.database_url is not used by the Redis store"
  let standalone := givenUrl config.redisUrl
  ensure (standalone.isSome || !config.redisClusterUrls.isEmpty)
    "application.dtm.store.redis_url or redis_cluster_urls is required for Redis"
  ensure ((standalone.toList ++ config.redisClusterUrls).all fun url =>
      url.startsWith "redis://" || url.startsWith "rediss://")
    "application.dtm.store Redis URL must use redis:// or rediss://"
  (validateRedisNamespace config.redisNamespace).mapError fun _ =>
    "application.dtm.store.redis_namespace is invalid"
  ensure (1 ≤ config.redisOperationTimeoutMs && config.redisOperationTimeoutMs ≤ 120000)
    "application.dtm.store.redis_operation_timeout_ms must be between 1 and 120000"

end StoreConfig

structure AlertWebhookConfig where
  url : String
  retryLimit : Nat
  timeoutMillis : Nat
  deriving DecidableEq

/-- `AlertWebhookConfig::validate`. -/
def AlertWebhookConfig.validate (url : UrlLib) (config : AlertWebhookConfig) : Except Err Unit := do
  let _ ← (parseBranchUrl url config.url).mapError fun _ => "invalid alert webhook URL"
  ensure (1 ≤ config.retryLimit && config.retryLimit ≤ 10000)
    "alert webhook retry limit must be between 1 and 10000"
  ensure (1 ≤ config.timeoutMillis && config.timeoutMillis ≤ 120000)
    "alert webhook timeout must be between 1 and 120000 milliseconds"

/-- `BranchUrlPolicy::from_allowed_origins`. -/
def BranchUrlPolicy.fromAllowedOrigins {url : UrlLib} (libs : ServiceLibs url)
    (origins : List String) : Except Err BranchUrlPolicy := do
  let allowedOrigins ← origins.mapM fun origin => do
    let u ← parseBranchUrl url origin
    ensure (libs.path u = "/" && (libs.query u).isNone && (url.fragment u).isNone)
      "branch origin must not contain a path, query, or fragment"
    return libs.origin u
  return ⟨some allowedOrigins.toFinset⟩

structure DtmConfig where
  store : StoreConfig
  maxAttempts : Nat
  retryBackoffMs : Nat
  maxRetryBackoffMs : Nat
  branchCallTimeoutMs : Nat
  transactionTimeoutMs : Nat
  controlToken : Option String
  releaseRevision : Option String
  recoverIntervalMs : Nat
  recoveryLeaseTtlMs : Nat
  dataExpireSeconds : Nat
  finishedDataExpireSeconds : Nat
  retentionIntervalMs : Nat
  retentionBatchSize : Nat
  workerId : String
  allowedBranchOrigins : List String
  branchTlsCaFile : Option String
  alertWebhookUrl : Option String
  alertRetryLimit : Nat
  alertWebhookTimeoutMs : Nat
  deriving DecidableEq

/-- `default_worker_id`. -/
def defaultWorkerId : String := "roze-dtm-local"

/-- `DtmConfig::default`. -/
def DtmConfig.default : DtmConfig where
  store := .default
  maxAttempts := 5
  retryBackoffMs := 1000
  maxRetryBackoffMs := 30000
  branchCallTimeoutMs := 5000
  transactionTimeoutMs := 60000
  controlToken := none
  releaseRevision := none
  recoverIntervalMs := 1000
  recoveryLeaseTtlMs := 5000
  dataExpireSeconds := 604800
  finishedDataExpireSeconds := 86400
  retentionIntervalMs := 60000
  retentionBatchSize := 256
  workerId := defaultWorkerId
  allowedBranchOrigins := []
  branchTlsCaFile := none
  alertWebhookUrl := none
  alertRetryLimit := 3
  alertWebhookTimeoutMs := 3000

/-- `u8::is_ascii_hexdigit`. -/
def isHexDigit (c : Char) : Bool :=
  c.isDigit || ('a' ≤ c && c ≤ 'f') || ('A' ≤ c && c ≤ 'F')

/-- `is_valid_release_revision`. -/
def isValidReleaseRevision (value : String) : Bool :=
  value.utf8ByteSize = 40 && value.toList.all isHexDigit && value.toList.any fun c => c ≠ '0'

namespace DtmConfig

variable (config : DtmConfig)

/-- `DtmConfig::options`. -/
def options : DtmOptions where
  maxAttempts := config.maxAttempts
  retryBackoffMillis := config.retryBackoffMs
  maxRetryBackoffMillis := config.maxRetryBackoffMs
  branchCallTimeoutMillis := config.branchCallTimeoutMs
  transactionTimeoutMillis := config.transactionTimeoutMs

/-- `DtmConfig::retention_policy`. -/
def retentionPolicy : Except Err RetentionPolicy := do
  ensure (config.dataExpireSeconds * 1000 ≤ u64Max)
    "application.dtm.data_expire_seconds is too large"
  ensure (config.finishedDataExpireSeconds * 1000 ≤ u64Max)
    "application.dtm.finished_data_expire_seconds is too large"
  let policy : RetentionPolicy := {
    dataExpireMillis := config.dataExpireSeconds * 1000
    finishedDataExpireMillis := config.finishedDataExpireSeconds * 1000
    batchSize := config.retentionBatchSize }
  policy.validate.mapError fun _ => "application.dtm retention configuration is invalid"

/-- `DtmConfig::alert_webhook_config`. -/
def alertWebhookConfig (url : UrlLib) : Except Err (Option AlertWebhookConfig) :=
  match config.alertWebhookUrl with
  | none => .ok none
  | some text => do
    ensure (!(trim text).isEmpty) "application.dtm.alert_webhook_url must not be empty"
    let webhook : AlertWebhookConfig := {
      url := text
      retryLimit := config.alertRetryLimit
      timeoutMillis := config.alertWebhookTimeoutMs }
    (webhook.validate url).mapError fun _ =>
      "application.dtm alert webhook configuration is invalid"
    return some webhook

/-- The checks of `DtmConfig::validate` on how the service is deployed. -/
def validateDeployment (production : Bool) : Except Err Unit :=
  if production then do
    ensure (config.controlToken.any fun token => 32 ≤ token.utf8ByteSize)
      "application.dtm.control_token must contain at least 32 bytes in production"
    ensure (config.releaseRevision.any isValidReleaseRevision)
      "application.dtm.release_revision must be a full non-zero Git revision in production"
  else
    ensure (config.releaseRevision.all isValidReleaseRevision)
      "application.dtm.release_revision must be a full non-zero Git revision"

/-- The last `match` of `DtmConfig::validate`. -/
def validateStore (production : Bool) : Except Err Unit :=
  match config.store.kind with
  | .memory =>
    ensure (!production) "application.dtm.store.kind=memory is forbidden in production"
  | .sqlite => config.store.validateUrl "sqlite" ["sqlite:"]
  | .postgres => config.store.validateUrl "postgres" ["postgres://", "postgresql://"]
  | .mysql => config.store.validateUrl "mysql" ["mysql://"]
  | .redis => config.store.validateRedis

/-- `DtmConfig::validate`. -/
def validate {url : UrlLib} (libs : ServiceLibs url) (production : Bool) : Except Err Unit := do
  ensure (0 < config.maxAttempts) "application.dtm.max_attempts must be positive"
  ensure (0 < config.retryBackoffMs) "application.dtm.retry_backoff_ms must be positive"
  ensure (config.retryBackoffMs ≤ config.maxRetryBackoffMs)
    "application.dtm.max_retry_backoff_ms must be at least retry_backoff_ms"
  ensure (0 < config.branchCallTimeoutMs) "application.dtm.branch_call_timeout_ms must be positive"
  ensure (config.branchCallTimeoutMs ≤ config.transactionTimeoutMs)
    "application.dtm.transaction_timeout_ms must be at least branch_call_timeout_ms"
  config.validateDeployment production
  ensure (100 ≤ config.recoverIntervalMs && config.recoverIntervalMs ≤ 3600000)
    "application.dtm.recover_interval_ms must be between 100 and 3600000"
  ensure (satMul64 config.recoverIntervalMs 2 ≤ config.recoveryLeaseTtlMs &&
      config.recoveryLeaseTtlMs ≤ 86400000)
    ("application.dtm.recovery_lease_ttl_ms must be at least twice recover_interval_ms " ++
      "and at most 86400000")
  ensure (1000 ≤ config.retentionIntervalMs && config.retentionIntervalMs ≤ 86400000)
    "application.dtm.retention_interval_ms must be between 1000 and 86400000"
  let _ ← config.retentionPolicy
  ensure (!(trim config.workerId).isEmpty && config.workerId.utf8ByteSize ≤ 128)
    "application.dtm.worker_id must contain between 1 and 128 bytes"
  ensure (!production || config.workerId ≠ defaultWorkerId)
    "application.dtm.worker_id must be deployment-unique in production"
  ensure (!config.allowedBranchOrigins.isEmpty)
    "application.dtm.allowed_branch_origins is required"
  let _ ← (BranchUrlPolicy.fromAllowedOrigins libs config.allowedBranchOrigins).mapError fun _ =>
    "application.dtm.allowed_branch_origins is invalid"
  ensure (config.branchTlsCaFile.all fun path => !path.isEmpty)
    "application.dtm.branch_tls_ca_file must not be empty"
  let _ ← config.alertWebhookConfig url
  config.validateStore production

/-- The coordinator that the service runs. -/
def dtm (libs : Libs) : Dtm := ⟨config.options, libs⟩

end DtmConfig

end RozeDtm
