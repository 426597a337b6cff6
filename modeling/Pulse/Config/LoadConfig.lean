import Pulse.Config.Presence

/-!
# Configuration

`loadConfig`: every setting is taken from the overrides, else from the environment,
else from its default, and then the settings are checked in the order of the source.
-/

namespace Js

/-- `parseInt` with radix 10. The digits are read exactly, however many there are. -/
def parseInt (s : String) : Option Number :=
  let l := s.toList.dropWhile isWhiteSpace
  let negative := l.head? = some '-'
  let digits := (if negative ∨ l.head? = some '+' then l.tail else l).takeWhile Char.isDigit
  if digits = [] then none
  else
    let n := digits.foldl (fun n c => 10 * n + (c.toNat - 0x30)) 0
    let (digits, exponent) := Number.normalize (n + 1) n 0
    some (.decimal negative digits exponent)

end Js

namespace Pulse

open Js

/-- A number of the source's type, where `none` is `NaN`. -/
abbrev Numeric := Option Number

/-- `process.env` -/
abbrev Environment := String → Option String

structure PulseConfig where
  port : Numeric
  host : String
  nodeEnv : String
  instanceId : String
  heartbeatIntervalMs : Numeric
  heartbeatTimeoutMs : Numeric
  maxPayloadBytes : Numeric
  maxBufferedAmountBytes : Numeric
  authSecret : String
  idempotencyCapacity : Numeric
  idempotencyTtlMs : Numeric
  redisEnabled : Bool
  redisUrl : Option String
  redisHost : String
  redisPort : Numeric
  redisPassword : Option String
  redisRetryMaxAttempts : Numeric
  redisRetryInitialDelayMs : Numeric
  redisRetryMaxDelayMs : Numeric
  presenceTtlMs : Numeric
  presenceFlushIntervalMs : Numeric
  metricsEnabled : Bool
  metricsPath : String
  eventLoopMonitorIntervalMs : Numeric
  maxConnections : Numeric
  maxRoomsPerConnection : Numeric
  maxRoomIdLength : Numeric
  allowedOrigins : List String
  inboundRateLimitMax : Numeric
  inboundRateLimitBurst : Numeric
  drainTimeoutMs : Numeric
  trustProxy : Bool
  trustedProxies : List String
  deriving DecidableEq, Repr

/-- The overrides; a setting which is not there is `undefined`. -/
structure PulseServerOptions where
  port : Option Numeric := none
  host : Option String := none
  nodeEnv : Option String := none
  instanceId : Option String := none
  heartbeatIntervalMs : Option Numeric := none
  heartbeatTimeoutMs : Option Numeric := none
  maxPayloadBytes : Option Numeric := none
  maxBufferedAmountBytes : Option Numeric := none
  authSecret : Option String := none
  idempotencyCapacity : Option Numeric := none
  idempotencyTtlMs : Option Numeric := none
  redisEnabled : Option Bool := none
  redisUrl : Option String := none
  redisHost : Option String := none
  redisPort : Option Numeric := none
  redisPassword : Option String := none
  redisRetryMaxAttempts : Option Numeric := none
  redisRetryInitialDelayMs : Option Numeric := none
  redisRetryMaxDelayMs : Option Numeric := none
  presenceTtlMs : Option Numeric := none
  presenceFlushIntervalMs : Option Numeric := none
  metricsEnabled : Option Bool := none
  metricsPath : Option String := none
  eventLoopMonitorIntervalMs : Option Numeric := none
  maxConnections : Option Numeric := none
  maxRoomsPerConnection : Option Numeric := none
  maxRoomIdLength : Option Numeric := none
  allowedOrigins : Option (List String) := none
  inboundRateLimitMax : Option Numeric := none
  inboundRateLimitBurst : Option Numeric := none
  drainTimeoutMs : Option Numeric := none
  trustProxy : Option Bool := none
  trustedProxies : Option (List String) := none
  deriving DecidableEq, Repr

section Settings

variable (env : Environment)

/-- `override ?? process.env[name] ?? fallback` -/
def textSetting (override : Option String) (name fallback : String) : String :=
  override.getD ((env name).getD fallback)

/-- `override ?? parseInt(process.env[name] || fallback, 10)` -/
def numberSetting (override : Option Numeric) (name fallback : String) : Numeric :=
  override.getD (parseInt (((env name).filter (· ≠ "")).getD fallback))

/-- `override ?? (process.env[name] !== undefined ? process.env[name] === 'true' : fallback)` -/
def switchSetting (override : Option Bool) (name : String) (fallback : Bool) : Bool :=
  override.getD (((env name).map (· == "true")).getD fallback)

/-- The override, else the non-blank items of the environment's list, else the fallback. -/
def listSetting (override : Option (List String)) (name : String) (fallback : List String) :
    List String :=
  override.getD
    ((((env name).filter (· ≠ "")).map fun list =>
      ((list.toList.splitOn ',').map (String.ofList ∘ trimChars)).filter (· ≠ "")).getD fallback)

end Settings

/-- The settings before they are checked. -/
def readConfig (overrides : PulseServerOptions) (env : Environment) : PulseConfig :=
  let nodeEnv := textSetting env overrides.nodeEnv "NODE_ENV" "development"
  { port := numberSetting env overrides.port "PORT" "8080"
    host := textSetting env overrides.host "HOST" "0.0.0.0"
    nodeEnv := nodeEnv
    instanceId := textSetting env overrides.instanceId "INSTANCE_ID" "pulse-node-1"
    heartbeatIntervalMs :=
      numberSetting env overrides.heartbeatIntervalMs "HEARTBEAT_INTERVAL_MS" "30000"
    heartbeatTimeoutMs :=
      numberSetting env overrides.heartbeatTimeoutMs "HEARTBEAT_TIMEOUT_MS" "10000"
    maxPayloadBytes := numberSetting env overrides.maxPayloadBytes "MAX_PAYLOAD_BYTES" "65536"
    maxBufferedAmountBytes :=
      numberSetting env overrides.maxBufferedAmountBytes "MAX_BUFFERED_AMOUNT_BYTES" "1048576"
    authSecret :=
      textSetting env overrides.authSecret "AUTH_SECRET" "pulse-dev-secret-key-32chars-min"
    idempotencyCapacity :=
      numberSetting env overrides.idempotencyCapacity "IDEMPOTENCY_CAPACITY" "10000"
    idempotencyTtlMs := numberSetting env overrides.idempotencyTtlMs "IDEMPOTENCY_TTL_MS" "60000"
    redisEnabled :=
      switchSetting env overrides.redisEnabled "REDIS_ENABLED"
        (((env "REDIS_URL").filter (· ≠ "")).isSome)
    redisUrl := overrides.redisUrl <|> env "REDIS_URL"
    redisHost := textSetting env overrides.redisHost "REDIS_HOST" "127.0.0.1"
    redisPort := numberSetting env overrides.redisPort "REDIS_PORT" "6379"
    redisPassword := overrides.redisPassword <|> env "REDIS_PASSWORD"
    redisRetryMaxAttempts :=
      numberSetting env overrides.redisRetryMaxAttempts "REDIS_RETRY_MAX_ATTEMPTS" "10"
    redisRetryInitialDelayMs :=
      numberSetting env overrides.redisRetryInitialDelayMs "REDIS_RETRY_INITIAL_DELAY_MS" "100"
    redisRetryMaxDelayMs :=
      numberSetting env overrides.redisRetryMaxDelayMs "REDIS_RETRY_MAX_DELAY_MS" "3000"
    presenceTtlMs := numberSetting env overrides.presenceTtlMs "PRESENCE_TTL_MS" "60000"
    presenceFlushIntervalMs :=
      numberSetting env overrides.presenceFlushIntervalMs "PRESENCE_FLUSH_INTERVAL_MS" "15000"
    metricsEnabled := switchSetting env overrides.metricsEnabled "METRICS_ENABLED" true
    metricsPath := textSetting env overrides.metricsPath "METRICS_PATH" "/metrics"
    eventLoopMonitorIntervalMs :=
      numberSetting env overrides.eventLoopMonitorIntervalMs "EVENT_LOOP_MONITOR_INTERVAL_MS"
        "10000"
    maxConnections := numberSetting env overrides.maxConnections "MAX_CONNECTIONS" "10000"
    maxRoomsPerConnection :=
      numberSetting env overrides.maxRoomsPerConnection "MAX_ROOMS_PER_CONNECTION" "100"
    maxRoomIdLength := numberSetting env overrides.maxRoomIdLength "MAX_ROOM_ID_LENGTH" "128"
    allowedOrigins :=
      listSetting env overrides.allowedOrigins "ALLOWED_ORIGINS"
        (if nodeEnv = "production" then [] else ["*"])
    inboundRateLimitMax :=
      numberSetting env overrides.inboundRateLimitMax "INBOUND_RATE_LIMIT_MAX" "100"
    inboundRateLimitBurst :=
      numberSetting env overrides.inboundRateLimitBurst "INBOUND_RATE_LIMIT_BURST" "50"
    drainTimeoutMs := numberSetting env overrides.drainTimeoutMs "DRAIN_TIMEOUT_MS" "2000"
    trustProxy := switchSetting env overrides.trustProxy "TRUST_PROXY" false
    trustedProxies := listSetting env overrides.trustedProxies "TRUSTED_PROXIES" [] }

/-- `isNaN(x) || x < min` -/
def below (x : Numeric) (min : Int) : Bool := !x.any (Number.ofInt min).le

/-- `isNaN(x) || x < min || x > max` -/
def outside (x : Numeric) (min max : Int) : Bool :=
  below x min || !x.any (·.le (Number.ofInt max))

def reject (failed : Bool) (message : String) : Except String Unit :=
  if failed then .error message else .ok ()

def invalid (name : String) (x : Numeric) : String :=
  "Invalid " ++ name ++ " configuration: " ++ numberText x

def knownDefaults : List String :=
  ["pulse-dev-secret-key-32chars-min", "pulse-distributed-realtime-secret-key-32chars!"]

def checkAuthSecret (c : PulseConfig) : Except String Unit :=
  if c.nodeEnv = "production" then do
    reject (c.authSecret = "" ∨ c.authSecret ∈ knownDefaults)
      "Production deployment must set a strong, non-default AUTH_SECRET."
    reject (Js.length c.authSecret < 32)
      "AUTH_SECRET must be at least 32 characters long in production mode."
  else .ok ()

def checkRedis (c : PulseConfig) : Except String Unit :=
  if c.redisEnabled then do
    reject (outside c.redisPort 1 65535) (invalid "REDIS_PORT" c.redisPort)
    reject (below c.redisRetryMaxAttempts 1)
      (invalid "REDIS_RETRY_MAX_ATTEMPTS" c.redisRetryMaxAttempts)
    reject (below c.redisRetryInitialDelayMs 0)
      (invalid "REDIS_RETRY_INITIAL_DELAY_MS" c.redisRetryInitialDelayMs)
    -- the initial delay is a number here
    reject (!c.redisRetryMaxDelayMs.any fun max => c.redisRetryInitialDelayMs.all (·.le max))
      ("Invalid REDIS_RETRY_MAX_DELAY_MS configuration (" ++ numberText c.redisRetryMaxDelayMs ++
        ") must be >= initial delay (" ++ numberText c.redisRetryInitialDelayMs ++ ")")
  else .ok ()

def checkConfig (c : PulseConfig) : Except String Unit := do
  checkAuthSecret c
  reject (outside c.port 0 65535) (invalid "PORT" c.port)
  reject (below c.maxBufferedAmountBytes 1024)
    (invalid "MAX_BUFFERED_AMOUNT_BYTES" c.maxBufferedAmountBytes)
  let _ ← loadPresenceConfig c.presenceTtlMs c.presenceFlushIntervalMs
  reject (below c.maxConnections 1) (invalid "MAX_CONNECTIONS" c.maxConnections)
  reject (below c.maxRoomsPerConnection 1)
    (invalid "MAX_ROOMS_PER_CONNECTION" c.maxRoomsPerConnection)
  reject (below c.maxRoomIdLength 8) (invalid "MAX_ROOM_ID_LENGTH" c.maxRoomIdLength)
  reject (below c.inboundRateLimitMax 1) (invalid "INBOUND_RATE_LIMIT_MAX" c.inboundRateLimitMax)
  reject (below c.inboundRateLimitBurst 1)
    (invalid "INBOUND_RATE_LIMIT_BURST" c.inboundRateLimitBurst)
  reject (below c.drainTimeoutMs 100) (invalid "DRAIN_TIMEOUT_MS" c.drainTimeoutMs)
  checkRedis c

def loadConfig (overrides : PulseServerOptions) (env : Environment) :
    Except String PulseConfig := do
  let config := readConfig overrides env
  checkConfig config
  return config

/-- No check reads the instance id: any other is accepted with the same settings. -/
theorem loadConfig_instanceId {overrides : PulseServerOptions} {env : Environment}
    {config : PulseConfig} (h : loadConfig overrides env = .ok config) (instanceId : String) :
    loadConfig { overrides with instanceId := some instanceId } env =
      .ok { config with instanceId := instanceId } := by
  have hcheck : checkConfig (readConfig { overrides with instanceId := some instanceId } env) =
      checkConfig (readConfig overrides env) := rfl
  cases hread : checkConfig (readConfig overrides env) with
  | error message =>
      rw [loadConfig, hread] at h
      cases h
  | ok _ =>
      rw [loadConfig, hread] at h
      cases h
      rw [loadConfig, hcheck, hread]
      rfl

/-- The defaults pass the checks. -/
theorem loadConfig_defaults :
    loadConfig {} (fun _ => none) = .ok (readConfig {} fun _ => none) := by
  decide +kernel

end Pulse
