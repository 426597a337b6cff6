import Mathlib.Data.Rat.Lemmas
import Mathlib.Algebra.Order.Ring.Rat

/-!
# Token bucket

The rate limiter of one connection, in exact rational arithmetic; the clock
reading of a call is an argument in milliseconds. A call which finds too few
tokens is a violation, and violations which follow each other within the window
are counted together.
-/

namespace Pulse

structure TokenBucket where
  capacity : ℚ
  /-- Tokens per second. -/
  refillRate : ℚ
  tokens : ℚ
  lastRefillTime : Int
  violationCount : Nat := 0
  lastViolationTime : Int := 0
  deriving DecidableEq, Repr

namespace TokenBucket

def create (capacity refillRate : ℚ) (now : Int) : TokenBucket :=
  { capacity := max 1 capacity
    refillRate := max (1 / 10) refillRate
    tokens := max 1 capacity
    lastRefillTime := now }

def refill (b : TokenBucket) (now : Int) : TokenBucket :=
  let elapsedSec : ℚ := (now - b.lastRefillTime : Int) / 1000
  if elapsedSec > 0 then
    { b with
      tokens := min b.capacity (b.tokens + elapsedSec * b.refillRate)
      lastRefillTime := now }
  else b

def tryConsume (b : TokenBucket) (now : Int) (cost : ℚ := 1) : TokenBucket × Bool :=
  let b := b.refill now
  if b.tokens ≥ cost then ({ b with tokens := b.tokens - cost }, true) else (b, false)

def getTokens (b : TokenBucket) (now : Int) : TokenBucket × ℚ :=
  let b := b.refill now
  (b, b.tokens)

def recordViolation (b : TokenBucket) (now : Int) (threshold : Nat := 10)
    (windowMs : Int := 10000) : TokenBucket × Bool :=
  let violationCount :=
    if now - b.lastViolationTime > windowMs then 1 else b.violationCount + 1
  ({ b with violationCount, lastViolationTime := now }, decide (violationCount ≥ threshold))

end TokenBucket

end Pulse
