import GrlxRpc.Wire.Frame
import Mathlib.Data.Rat.Defs
import Mathlib.Algebra.Order.Ring.Rat

/-
  Security settings: the token bucket, the limits of a
  session and of a server, and who may call what.

  Main declarations:
    * `TokenBucket.tryTake`
    * `SessionLimits` and `ServerLimits`
    * `SessionInfo`
    * `ClientContext`
    * `Visibility` and `AuthResult`
-/

------------------------------------------------------------
-- Token Buckets
------------------------------------------------------------

namespace GrlxRpc

/-
  A token bucket with exact arithmetic. `lastRefill` counts
  nanoseconds of the steady clock; zero means never used.
-/
structure TokenBucket where
  capacity : Rat := 0
  refillPerSec : Rat := 0
  tokens : Rat := 0
  lastRefill : Int := 0
  deriving DecidableEq

namespace TokenBucket

/- `duration<double>` of a difference of clock readings. -/
def seconds (nanoseconds : Int) : Rat :=
  nanoseconds / 1000000000

def refill
    (bucket : TokenBucket)
    (now : Int) : TokenBucket :=
  if bucket.lastRefill = 0 then
    { bucket with
      lastRefill := now
      tokens := bucket.capacity }
  else
    { bucket with
      tokens :=
        min bucket.capacity
          (bucket.tokens +
            seconds (now - bucket.lastRefill) *
              bucket.refillPerSec)
      lastRefill := now }

/- The bucket after the call, and whether it granted. -/
def tryTake
    (bucket : TokenBucket)
    (now : Int)
    (cost : Rat := 1) : TokenBucket × Bool :=
  let refilled := bucket.refill now
  if refilled.capacity ≤ 0 then
    (refilled, true)
  else if cost ≤ refilled.tokens then
    ({ refilled with tokens := refilled.tokens - cost },
      true)
  else
    (refilled, false)

end TokenBucket

------------------------------------------------------------
-- Session Limits
------------------------------------------------------------

/- The timeouts are in milliseconds. -/
structure SessionLimits where
  maxMessageBytes : UInt64 := (8 : UInt64) <<< 20
  idleTimeout : Int := 5 * 60 * 1000
  messageReadTimeout : Int := 60 * 1000
  requestBurst : Rat := 200
  requestRatePs : Rat := 1000

/- The bucket that the session constructor seeds. -/
def SessionLimits.requestBucket
    (limits : SessionLimits) : TokenBucket where
  capacity := limits.requestBurst
  refillPerSec := limits.requestRatePs

------------------------------------------------------------
-- Server Limits
------------------------------------------------------------

structure ServerLimits where
  maxConcurrentSessions : Nat := 1000
  maxSessionsPerIp : Nat := 8
  acceptBurstPerIp : Rat := 20
  acceptRefillPerIpPerS : Rat := 1
  maxConcurrentHandshakes : Nat := 256
  deriving DecidableEq

/- What a session hook of the application is told. -/
structure SessionInfo where
  peerFingerprint : StdString
  peerAddress : StdString
  sessionToken : UInt64
  deriving DecidableEq

------------------------------------------------------------
-- Authorization
------------------------------------------------------------

/- Who is calling: the values a handler can read. -/
structure ClientContext where
  peerFingerprint : StdString
  peerAddress : StdString
  peerIp : StdString
  logicalSessionId : StdString
  logicalDeviceId : StdString
  logicalRole : Int
  deriving DecidableEq

inductive Visibility
  | public_
  | authenticated
  | admin
  deriving DecidableEq, Repr

structure AuthResult where
  allow : Bool := false
  isAdmin : Bool := false
  denyReason : StdString := []
  deriving DecidableEq

/-
  The application's gate. `ω` is the application's state at
  the moment of the call, so the answer may change.
-/
abbrev AuthCallback (ω : Type) :=
  ω → ClientContext → StdString → AuthResult

end GrlxRpc
