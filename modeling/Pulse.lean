import Pulse.Collections.OrderedMap
import Pulse.Collections.Recency
import Pulse.Transition.Run
import Pulse.Js.Serialization
import Pulse.Js.Equality
import Pulse.Event.RoundTrip
import Pulse.Redis.Rollback
import Pulse.Redis.PresenceEventTracker
import Pulse.Core.Refcounts
import Pulse.Core.Idempotency
import Pulse.Core.RoomCap
import Pulse.Core.Ghost
import Pulse.Core.Sequence
import Pulse.Core.Cluster
import Pulse.Core.Replay
import Pulse.Core.Rejoining
import Pulse.Client.EffectivelyOnce
import Pulse.Client.InSequence
import Pulse.Client.Reconnect
import Pulse.Client.Connected
import Pulse.Client.InFlight
import Pulse.Client.Restoring
import Pulse.Util.RateLimit
import Pulse.Util.Uuidv7
import Pulse.Util.OriginMatcher
import Pulse.Redis.LeaseLifetime
import Pulse.Redis.Backpressure
import Pulse.Redis.Restoration
import Pulse.Config.Presence
import Pulse.Core.Startup
import Pulse.Core.PresenceOrder
import Pulse.Core.PresenceUpdates
import Pulse.Core.PresenceTransitions
import Pulse.Core.SenderOrder
import Pulse.Core.Slots
import Pulse.Core.Draining
import Pulse.Core.Retransmission
import Pulse.Core.OneAnswer
import Pulse.Core.BatchAgreement
import Pulse.Core.Conflict
import Pulse.Redis.RosterQuery
import Pulse.Redis.LeaseRenewal
import Pulse.Core.RosterSoundness
import Pulse.Chaos.WebSocketFrameFilter
import Pulse.Chaos.FaultProxy
import Pulse.Redis.LocalPresence
import Pulse.Bench.StatsAggregator
import Pulse.Redis.PresenceMember
import Pulse.Redis.PresenceWindow
import Pulse.Metrics.SeriesIdentity
import Pulse.Metrics.PrometheusSerializer
import Pulse.Core.Dashboard
import Pulse.Chaos.SocketPair
import Pulse.Core.HeartbeatTimeouts
import Pulse.Auth.TokenRoundTrip
import Pulse.Collections.Cumulative
import Pulse.Js.ParseFloat
import Pulse.Metrics.Exposition
import Pulse.Metrics.Scrape
import Pulse.Chaos.FaultLifecycle
