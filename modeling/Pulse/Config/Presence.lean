import Pulse.Js.Json
import Pulse.Redis.PresenceManager

/-!
# Presence settings

The checks which `loadConfig` makes on the presence settings, and the options which the
server derives from them for its presence manager. A number that is not there is `NaN`.
-/

namespace Pulse

open Js

/-- A number in a template string. -/
def numberText : Option Number → String
  | none => "NaN"
  | some (.infinity negative) => if negative then "-Infinity" else "Infinity"
  | some n => n.text

structure PresenceConfig where
  presenceTtlMs : Number
  presenceFlushIntervalMs : Number
  deriving DecidableEq, Repr

/-- The part of `loadConfig` behind the defaults. -/
def loadPresenceConfig (presenceTtlMs presenceFlushIntervalMs : Option Number) :
    Except String PresenceConfig :=
  match presenceTtlMs with
  | none => .error ("Invalid PRESENCE_TTL_MS configuration: " ++ numberText none)
  | some ttl =>
      if !(Number.ofInt 1000).le ttl then
        .error ("Invalid PRESENCE_TTL_MS configuration: " ++ numberText (some ttl))
      else
        let failure : Except String PresenceConfig :=
          .error ("Invalid PRESENCE_FLUSH_INTERVAL_MS configuration (" ++
            numberText presenceFlushIntervalMs ++
            ") must be >= 500 and < presenceTtlMs (" ++ numberText (some ttl) ++ ")")
        match presenceFlushIntervalMs with
        | none => failure
        | some interval =>
            if !(Number.ofInt 500).le interval || ttl.le interval then failure
            else .ok { presenceTtlMs := ttl, presenceFlushIntervalMs := interval }

/-- A duration as the scripts get it. The negative infinity is none. -/
def durationOf : Number → Score
  | .infinity _ => ⊤
  | n => (n.value : ℚ)

/-- What `start` and `handleRedisReconnect` pass to the presence manager. -/
def PresenceConfig.managerOptions (config : PresenceConfig) : PresenceManagerOptions :=
  { presenceTtlMs := durationOf config.presenceTtlMs
    presenceFlushIntervalMs := durationOf config.presenceFlushIntervalMs }

end Pulse
