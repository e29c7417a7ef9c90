import Mathlib.Data.List.AList
import Mathlib.Data.Rat.Defs
import IdentityService.Defs.Go

/-! The configuration, as far as its validation and the service read it. -/

namespace IdentityService

inductive Base64Encoding : Type
  | std
  | rawStd
  | url
  | rawURL
deriving DecidableEq

/-- Of the standard library: `path.Match` calling a pattern malformed, the `%q` verb, and
`DecodeString` of the base64 encodings. -/
structure StandardLibrary where
  badPattern : String → Bool
  quote : String → String
  decodeString : Base64Encoding → String → Option Bytes

abbrev GoMap (α : Type) : Type := AList (fun _ : String => α)

namespace ServiceConfig

structure App where
  name : String
  env : String

structure CORS where
  enabled : Bool
  allowedOrigins : List String

structure HTTP where
  address : String
  requestTimeout : Time
  cors : CORS

structure GRPCTLS where
  enabled : Bool
  certFile : String
  keyFile : String

structure GRPC where
  enabled : Bool
  address : String
  reflectionEnabled : Bool
  maxReceiveBytes : Int
  tls : GRPCTLS

structure Database where
  enabled : Bool
  name : String
  schema : String
  type : String
  dsn : String

structure Redis where
  enabled : Bool
  address : String

structure Health where
  databaseTimeout : Time
  redisTimeout : Time

structure RateLimitRule where
  rate : Int
  burst : Int
  period : Time

structure RateLimit where
  enabled : Bool
  ip : RateLimitRule
  api : RateLimitRule
  user : RateLimitRule
  login : RateLimitRule

/-- The ratio is `none` for a NaN, which compares with nothing. -/
structure Observability where
  tracingEnabled : Bool
  tracingEndpoint : String
  tracingSampleRatio : Option Rat
  pprofEnabled : Bool
  pprofToken : String

structure Swagger where
  enabled : Bool
  requireAuth : Bool

structure JWT where
  issuer : String
  audiences : List String
  secret : String
  ttl : Time
  keyID : String
  previousSecrets : GoMap String

structure MFA where
  enabled : Bool
  issuer : String
  encryptionKey : String
  recoveryPepper : String
  challengeTTL : Time

structure PSK where
  enabled : Bool
  key : String
  httpPaths : List String
  grpcMethods : List String

structure Auth where
  clientID : String
  clientSecret : String
  skipHTTPPaths : List String
  skipGRPCMethods : List String
  psk : PSK

structure Authorization where
  enabled : Bool

structure Cron where
  sessionRetention : Time
  sessionCleanupInterval : Time
  sessionCleanupBatchSize : Int

structure Migration where
  autoUp : Bool
  path : String
  databaseURL : String
  table : String

structure User where
  cacheTTL : Time
  lockTTL : Time
  lockRetryDelay : Time

structure Idempotency where
  enabled : Bool
  httpPaths : List String
  grpcMethods : List String
  processingTTL : Time
  resultTTL : Time
  failureTTL : Time

structure EventBus where
  enabled : Bool
  urls : List String
  streamName : String
  storage : String
  maxAge : Time
  dispatchInterval : Time
  dispatchBatchSize : Int
  dispatchLease : Time
  dispatchRetryDelay : Time
  publishedRetention : Time
  cleanupInterval : Time
  cleanupBatchSize : Int

structure ClientAuth where
  type : String
  token : String

structure Retry where
  maxAttempts : Int
  initialBackoff : Time
  maxBackoff : Time
  methods : List String

structure Breaker where
  enabled : Bool
  failureThreshold : Nat
  openTimeout : Time

structure ClientTLS where
  enabled : Bool
  certFile : String
  keyFile : String

/-- An upstream; `endpoint` is the base URL over HTTP and the target over gRPC. -/
structure Upstream where
  endpoint : String
  timeout : Time
  auth : ClientAuth
  retry : Retry
  breaker : Breaker
  tls : ClientTLS

structure Outbound where
  http : GoMap Upstream
  grpc : GoMap Upstream

end ServiceConfig

open ServiceConfig in
structure ServiceConfig where
  app : App
  http : HTTP
  grpc : GRPC
  database : Database
  redis : Redis
  health : Health
  rateLimit : RateLimit
  observability : Observability
  swagger : Swagger
  jwt : JWT
  mfa : MFA
  auth : Auth
  authorization : Authorization
  cron : Cron
  migration : Migration
  user : User
  idempotency : Idempotency
  outbound : Outbound
  eventBus : EventBus

/-- `^[a-z][a-z0-9_]{0,62}$`. -/
def validMigrationTable (s : String) : Bool :=
  match s.toList with
  | [] => false
  | c :: rest =>
    ('a' ≤ c && c ≤ 'z') && rest.length ≤ 62 &&
      rest.all (fun c => ('a' ≤ c && c ≤ 'z') || ('0' ≤ c && c ≤ '9') || c = '_')

def isDBType (value : String) : Bool :=
  value = "mysql" || value = "postgres" || value = "kingbase"

def startsWith (s start : String) : Bool := start.toList.isPrefixOf s.toList

/-- `isBase64Key`, and the loop of `decodeMFAKey`: the first encoding that gives `size` bytes. -/
def decodeKey (std : StandardLibrary) (value : String) (size : Nat) : Option Bytes :=
  [Base64Encoding.std, .rawStd, .url, .rawURL].findSome? (fun encoding =>
    (std.decodeString encoding (Go.trimSpace value)).filter (fun decoded => decoded.length = size))

def isBase64Key (std : StandardLibrary) (value : String) (size : Nat) : Bool :=
  (decodeKey std value size).isSome

abbrev Check : Type := Bool × String

namespace ServiceConfig

section Patterns

variable (std : StandardLibrary) (pattern : String)

def isMethodPattern : Bool := startsWith pattern "/" && pattern.toList.count '/' = 2

def pathChecks (field : String) : List Check :=
  [(!startsWith pattern "/api/", field ++ " contains path outside /api " ++ std.quote pattern),
    (std.badPattern pattern, field ++ " contains invalid pattern " ++ std.quote pattern ++
      ": syntax error in pattern")]

def methodChecks (field : String) : List Check :=
  [(!isMethodPattern pattern, field ++ " contains invalid method pattern " ++ std.quote pattern),
    (std.badPattern pattern, field ++ " contains invalid pattern " ++ std.quote pattern ++
      ": syntax error in pattern")]

end Patterns

def clientPolicyChecks (std : StandardLibrary) (name : String) (u : Upstream) : List Check :=
  [(u.auth.type ≠ "" && u.auth.type ≠ "bearer" && u.auth.type ≠ "psk",
      "outbound " ++ name ++ " auth.type must be bearer or psk"),
    (u.auth.type ≠ "" && u.auth.token = "", "outbound " ++ name ++ " auth.token is required"),
    (u.auth.type ≠ "" && !u.tls.enabled, "outbound " ++ name ++ " credentials require TLS"),
    (u.retry.maxAttempts < 1 || u.retry.maxAttempts > 5 || u.retry.initialBackoff ≤ 0 ||
      u.retry.maxBackoff < u.retry.initialBackoff,
      "outbound " ++ name ++ " retry policy is invalid")] ++
  u.retry.methods.flatMap (fun pattern =>
    [(!isMethodPattern pattern, "outbound " ++ name ++ " retry method pattern is invalid"),
      (std.badPattern pattern, "outbound " ++ name ++
        " retry method pattern is invalid: syntax error in pattern")]) ++
  [(u.breaker.enabled && (u.breaker.failureThreshold = 0 || u.breaker.openTimeout ≤ 0),
      "outbound " ++ name ++ " breaker policy is invalid"),
    (u.tls.enabled && ((u.tls.certFile = "" : Bool) != (u.tls.keyFile = "" : Bool)),
      "outbound " ++ name ++ " TLS certificate and key must be configured together")]

theorem find_check_eq_ok_iff {checks : List Check} :
    (match checks.find? (·.1) with
      | some (_, message) => .error message
      | none => .ok () : Except String Unit) = .ok () ↔ ∀ check ∈ checks, check.1 = false := by
  split
  · rename_i hfound
    have hmem := List.mem_of_find?_eq_some hfound
    have hcheck := List.find?_some hfound
    exact iff_of_false nofun fun h => Bool.false_ne_true ((h _ hmem).symm.trans hcheck)
  · rename_i hnone
    exact iff_of_true rfl fun check hmem => by simpa using List.find?_eq_none.1 hnone check hmem

def validateClientPolicy (std : StandardLibrary) (name : String) (u : Upstream) :
    Except String Unit :=
  match (clientPolicyChecks std name u).find? (·.1) with
  | some (_, message) => .error message
  | none => .ok ()

theorem maxAttempts_of_validateClientPolicy {std : StandardLibrary} {name : String} {u : Upstream}
    (h : validateClientPolicy std name u = .ok ()) :
    1 ≤ u.retry.maxAttempts ∧ u.retry.maxAttempts ≤ 5 := by
  have hcheck := find_check_eq_ok_iff.1 h
    (u.retry.maxAttempts < 1 || u.retry.maxAttempts > 5 || u.retry.initialBackoff ≤ 0 ||
      u.retry.maxBackoff < u.retry.initialBackoff, "outbound " ++ name ++
      " retry policy is invalid") (by simp [clientPolicyChecks])
  simp only [Bool.or_eq_false_iff, decide_eq_false_iff_not] at hcheck
  omega

variable (c : ServiceConfig)

def rateLimitChecks : List Check :=
  [("ip", c.rateLimit.ip), ("api", c.rateLimit.api), ("user", c.rateLimit.user),
    ("login", c.rateLimit.login)].map (fun (name, rule) =>
    (c.rateLimit.enabled && (rule.rate ≤ 0 || rule.burst ≤ 0 || rule.period ≤ 0),
      "rate_limit." ++ name ++ " values must be positive"))

def jwtSecretCheck : Check :=
  ((c.auth.clientID ≠ "" || c.auth.clientSecret ≠ "") && c.jwt.secret.utf8ByteSize < 32,
    "jwt.secret must contain at least 32 bytes when auth is enabled")

def serverChecks : List Check :=
  [(!validMigrationTable c.database.name,
      "database.name must contain lowercase letters, digits, or underscores and be at most 63 " ++
        "characters"),
    (c.database.schema ≠ "" && !validMigrationTable c.database.schema,
      "database.schema must contain lowercase letters, digits, or underscores and be at most 63 " ++
        "characters"),
    (c.http.address = "", "http.address is required"),
    (c.grpc.enabled && (c.grpc.address = "" || c.grpc.maxReceiveBytes ≤ 0),
      "enabled grpc requires address and positive max_receive_bytes"),
    (c.grpc.tls.enabled && (c.grpc.tls.certFile = "" || c.grpc.tls.keyFile = ""),
      "grpc tls requires cert_file and key_file"),
    (c.app.env = "production" && c.grpc.enabled && !c.grpc.tls.enabled,
      "grpc tls must be enabled in production"),
    (c.app.env = "production" && c.grpc.reflectionEnabled,
      "grpc reflection must be disabled in production"),
    (c.database.enabled && (c.database.dsn = "" || !isDBType c.database.type),
      "enabled database requires dsn and type mysql, postgres, or kingbase"),
    (c.migration.autoUp && (!c.database.enabled || c.migration.path = "" ||
      c.migration.databaseURL = "" || !validMigrationTable c.migration.table),
      "migration.auto_up requires enabled database, path, database_url, and a valid " ++
        "service-specific table"),
    (c.redis.enabled && c.redis.address = "", "enabled redis requires address"),
    (c.http.requestTimeout ≤ 0 || c.health.databaseTimeout ≤ 0 || c.health.redisTimeout ≤ 0,
      "http and health timeouts must be positive"),
    (c.rateLimit.enabled && !c.redis.enabled, "rate_limit requires redis.enabled")] ++
  c.rateLimitChecks ++
  [(c.http.cors.enabled && c.http.cors.allowedOrigins.length = 0,
      "cors.allowed_origins is required when cors is enabled"),
    (c.observability.tracingSampleRatio.any (fun ratio => ratio < 0 || ratio > 1),
      "observability.tracing_sample_ratio must be between 0 and 1"),
    (c.observability.tracingEnabled && c.observability.tracingEndpoint = "",
      "observability.tracing_endpoint is required"),
    (c.observability.pprofEnabled && c.observability.pprofToken.utf8ByteSize < 32,
      "observability.pprof_token must contain at least 32 bytes"),
    (c.app.env = "production" && c.swagger.enabled && !c.swagger.requireAuth,
      "swagger.require_auth must be enabled in production"),
    c.jwtSecretCheck]

def featureChecks (std : StandardLibrary) : List Check :=
  [(c.mfa.enabled && (Go.trimSpace c.mfa.issuer = "" || c.mfa.challengeTTL ≤ 0 ||
      c.mfa.challengeTTL > 15 * Go.minute),
      "enabled mfa requires an issuer and challenge_ttl between 1ns and 15m"),
    (c.mfa.enabled && (!isBase64Key std c.mfa.encryptionKey 32 ||
      !isBase64Key std c.mfa.recoveryPepper 32),
      "enabled mfa requires base64 encoded 32-byte encryption_key and recovery_pepper"),
    (c.app.env = "production" && !c.authorization.enabled,
      "authorization must be enabled in production"),
    (c.authorization.enabled && (c.outbound.grpc.lookup "authorization").isNone,
      "enabled authorization requires outbound.grpc.authorization")] ++
  c.auth.skipHTTPPaths.flatMap (pathChecks std · "auth.skip_http_paths") ++
  c.auth.skipGRPCMethods.flatMap (methodChecks std · "auth.skip_grpc_methods") ++
  [(c.auth.psk.enabled && (c.auth.psk.key.utf8ByteSize < 32 ||
      c.auth.psk.httpPaths.length + c.auth.psk.grpcMethods.length = 0),
      "enabled auth.psk requires a key of at least 32 bytes and at least one route pattern")] ++
  c.auth.psk.httpPaths.flatMap (pathChecks std · "auth.psk.http_paths") ++
  c.auth.psk.grpcMethods.flatMap (methodChecks std · "auth.psk.grpc_methods") ++
  [(c.user.cacheTTL ≤ 0 || c.user.lockTTL ≤ 0 || c.user.lockRetryDelay ≤ 0,
      "user cache and lock durations must be positive"),
    (c.idempotency.enabled && (!c.redis.enabled ||
      (c.idempotency.httpPaths.length = 0 && c.idempotency.grpcMethods.length = 0) ||
      c.idempotency.processingTTL ≤ 0 || c.idempotency.resultTTL ≤ 0 ||
      c.idempotency.failureTTL ≤ 0),
      "enabled idempotency requires redis, at least one route pattern, and positive TTL values")] ++
  c.idempotency.httpPaths.flatMap (pathChecks std · "idempotency.http_paths") ++
  c.idempotency.grpcMethods.flatMap (methodChecks std · "idempotency.grpc_methods") ++
  [(c.eventBus.enabled && (!c.database.enabled || c.eventBus.urls.length = 0 ||
      c.eventBus.streamName = "" ||
      (c.eventBus.storage ≠ "file" && c.eventBus.storage ≠ "memory") || c.eventBus.maxAge ≤ 0 ||
      c.eventBus.dispatchInterval ≤ 0 || c.eventBus.dispatchBatchSize ≤ 0 ||
      c.eventBus.dispatchLease ≤ 0 || c.eventBus.dispatchRetryDelay ≤ 0 ||
      c.eventBus.publishedRetention < c.eventBus.maxAge || c.eventBus.cleanupInterval ≤ 0 ||
      c.eventBus.cleanupBatchSize ≤ 0),
      "enabled event_bus requires database, stream settings, " ++
        "positive dispatch/cleanup settings, and published retention at least max_age"),
    (c.cron.sessionRetention ≤ 0 || c.cron.sessionCleanupInterval ≤ 0 ||
      c.cron.sessionCleanupBatchSize ≤ 0,
      "cron session retention values must be positive")] ++
  c.outbound.http.entries.flatMap (fun ⟨name, u⟩ =>
    (u.endpoint = "" || u.timeout ≤ 0,
      "outbound.http." ++ name ++ " requires base_url and positive timeout") ::
      clientPolicyChecks std name u) ++
  c.outbound.grpc.entries.flatMap (fun ⟨name, u⟩ =>
    (u.endpoint = "" || u.timeout ≤ 0,
      "outbound.grpc." ++ name ++ " requires target and positive timeout") ::
      clientPolicyChecks std name u)

def validate (std : StandardLibrary) : Except String Unit :=
  match (c.serverChecks ++ c.featureChecks std).find? (·.1) with
  | some (_, message) => .error message
  | none => .ok ()

theorem validate_eq_ok_iff {c : ServiceConfig} {std : StandardLibrary} :
    c.validate std = .ok () ↔
      ∀ check ∈ c.serverChecks ++ c.featureChecks std, check.1 = false :=
  find_check_eq_ok_iff

def defaults : ServiceConfig where
  app := ⟨"identity-service", "development"⟩
  http := ⟨"127.0.0.1:8080", 10 * Go.second, ⟨false, []⟩⟩
  grpc := ⟨true, "127.0.0.1:9090", true, 16 * 2 ^ 20, ⟨false, "", ""⟩⟩
  database := ⟨false, "platform", "identity", "postgres", ""⟩
  redis := ⟨false, "127.0.0.1:6379"⟩
  health := ⟨2 * Go.second, 2 * Go.second⟩
  rateLimit := ⟨false, ⟨120, 30, Go.minute⟩, ⟨10000, 1000, Go.minute⟩, ⟨600, 100, Go.minute⟩,
    ⟨10, 3, Go.minute⟩⟩
  observability := ⟨false, "http://127.0.0.1:4318", some (1 / 10), false, ""⟩
  swagger := ⟨true, false⟩
  jwt := ⟨"identity-service",
    ["identity-service", "tenant-service", "authorization-service", "audit-service",
      "config-service", "notification-service", "file-service", "scheduler-service",
      "swagger-service", "application-service", "dictionary-service", "webhook-service",
      "workflow-service", "search-service", "metering-service", "billing-service", "rule-service",
      "data-export-service", "import-service"], "", 2 * Go.hour, "identity-current", ∅⟩
  mfa := ⟨false, "Microservice Platform", "", "", 5 * Go.minute⟩
  auth := ⟨"", "",
    ["/api/v1/auth/login", "/api/v1/auth/mfa/verify", "/api/v1/auth/refresh",
      "/api/v1/auth/password-reset/confirm", "/api/v1/auth/service-token", "/api/v1/version"],
    ["/grpc.health.v1.Health/*"], ⟨false, "", [], []⟩⟩
  authorization := ⟨false⟩
  cron := ⟨720 * Go.hour, Go.hour, 500⟩
  migration := ⟨false, "migrations/postgres", "", "identity_schema_migrations"⟩
  user := ⟨5 * Go.minute, 10 * Go.second, Go.second / 10⟩
  idempotency := ⟨false, [], [], 30 * Go.second, 24 * Go.hour, 5 * Go.minute⟩
  outbound := ⟨∅, ∅⟩
  eventBus := ⟨false, ["nats://127.0.0.1:4222"], "PLATFORM_EVENTS", "file", 168 * Go.hour,
    Go.second, 100, 30 * Go.second, 5 * Go.second, 168 * Go.hour, Go.hour, 1000⟩

theorem validate_defaults {std : StandardLibrary}
    (hpattern : ∀ p ∈ defaults.auth.skipHTTPPaths ++ defaults.auth.skipGRPCMethods,
      std.badPattern p = false) : defaults.validate std = .ok () := by
  have hserver : ∀ check ∈ defaults.serverChecks, check.1 = false := by decide +kernel
  have hpath : ∀ p ∈ defaults.auth.skipHTTPPaths, startsWith p "/api/" = true := by decide +kernel
  have hmethod : ∀ p ∈ defaults.auth.skipGRPCMethods, isMethodPattern p = true := by
    decide +kernel
  rw [validate_eq_ok_iff, List.forall_mem_append]
  refine ⟨hserver, ?_⟩
  simp only [List.forall_mem_append] at hpattern
  simp only [featureChecks, List.forall_mem_append, List.forall_mem_flatMap]
  refine ⟨⟨⟨⟨⟨⟨⟨⟨⟨⟨⟨?_, ?_⟩, ?_⟩, ?_⟩, ?_⟩, ?_⟩, ?_⟩, ?_⟩, ?_⟩, ?_⟩, ?_⟩, ?_⟩
  · simp [defaults]
  · intro p hp
    simp [pathChecks, hpath p hp, hpattern.1 p hp]
  · intro p hp
    simp [methodChecks, hmethod p hp, hpattern.2 p hp]
  · simp [defaults]
  · simp [defaults]
  · simp [defaults]
  · decide
  · simp [defaults]
  · simp [defaults]
  · decide
  · simp [defaults]
  · simp [defaults]

end ServiceConfig

end IdentityService
