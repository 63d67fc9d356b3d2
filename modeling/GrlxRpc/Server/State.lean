import GrlxRpc.Dispatch.Security
import GrlxRpc.Lib.Tally

/-
  The server: its counters, its accept loop, the coroutine
  of every connection and the strand that owns the set of
  active sessions.

  A program counter stands at each point of a coroutine
  where another actor can run. The addresses are those that
  `address().to_string()` prints.

  Main declarations:
    * `Endpoint` and `Rejection`
    * `Connection`
    * `Server`
    * `Server.ipVerdict`
-/

------------------------------------------------------------
-- Peers
------------------------------------------------------------

namespace GrlxRpc

/- A peer's endpoint. No address prints as nothing. -/
structure Endpoint where
  address : StdString
  address_ne_nil : address ≠ []
  port : UInt16
  deriving DecidableEq

/- `address().to_string() + ":" + to_string(port())` -/
def Endpoint.peerAddress (endpoint : Endpoint) : StdString :=
  endpoint.address ++ literal ":" ++
    literal (toString endpoint.port.toNat)

/- Why the pre-handshake filter denies a peer. -/
inductive Rejection
  | globalCap
  | perIpCap (ip : StdString)
  | acceptRate (ip : StdString)
  deriving DecidableEq

/- The text that the filter leaves in `reason`. -/
def Rejection.reason : Rejection → StdString
  | globalCap => literal "global session cap reached"
  | perIpCap ip =>
      literal "per-IP session cap reached for " ++ ip
  | acceptRate ip =>
      literal "per-IP accept rate exceeded for " ++ ip

/- What the server reads of a session object. -/
structure SessionObject where
  peerFingerprint : StdString := []
  peerIp : StdString := []
  peerAddress : StdString := []
  token : UInt64
  isClosed : Bool := false
  deriving DecidableEq

def SessionObject.info
    (session : SessionObject) : SessionInfo where
  peerFingerprint := session.peerFingerprint
  peerAddress := session.peerAddress
  sessionToken := session.token

/-
  How `channel_.handshake` ends. When the socket still knows
  its remote endpoint the session is told of it, otherwise
  its `peer_ip` and `peer_address` stay empty. `token` is
  the address of the new session object.
-/
inductive HandshakeResult
  | threw
  | null
  | session
      (readable : Bool)
      (fingerprint : StdString)
      (token : UInt64)
  deriving DecidableEq

def HandshakeResult.object
    (endpoint : Endpoint) :
    HandshakeResult → Option SessionObject
  | threw => none
  | null => none
  | session true fingerprint token =>
      some
        { peerFingerprint := fingerprint
          peerIp := endpoint.address
          peerAddress := endpoint.peerAddress
          token := token }
  | session false fingerprint token =>
      some { peerFingerprint := fingerprint, token := token }

/- The new object, if any, is at none of these addresses. -/
def HandshakeResult.IsFresh
    (live : List UInt64) : HandshakeResult → Prop
  | threw => True
  | null => True
  | session _ _ token => token ∉ live

instance
    (live : List UInt64)
    (result : HandshakeResult) :
    Decidable (result.IsFresh live) :=
  match result with
  | .threw => instDecidableTrue
  | .null => instDecidableTrue
  | .session _ _ token =>
      inferInstanceAs (Decidable (token ∉ live))

------------------------------------------------------------
-- Connections
------------------------------------------------------------

/-
  Where a connection's coroutine stands: waiting for its
  handshake or for `dispatch_requests`, or about to do what
  the constructor names.
-/
inductive ConnectionPc
  | handshaking
  | releaseSlot
  | admitGlobal
  | admitIp
  | postInsert
  | openHook
  | serve
  | serving
  | releaseGlobal
  | releaseIp
  | closeHook
  | postErase
  | over
  deriving DecidableEq, Repr

namespace ConnectionPc

/- Does `global_session_count_` count the connection? -/
def holdsGlobal : ConnectionPc → Bool
  | handshaking => false
  | releaseSlot => false
  | admitGlobal => false
  | admitIp => true
  | postInsert => true
  | openHook => true
  | serve => true
  | serving => true
  | releaseGlobal => true
  | releaseIp => false
  | closeHook => false
  | postErase => false
  | .over => false

/- Does `per_ip_count_` count the connection? -/
def holdsIp : ConnectionPc → Bool
  | handshaking => false
  | releaseSlot => false
  | admitGlobal => false
  | admitIp => false
  | postInsert => true
  | openHook => true
  | serve => true
  | serving => true
  | releaseGlobal => true
  | releaseIp => true
  | closeHook => false
  | postErase => false
  | .over => false

/- Is its slot in `handshakes_in_flight_` taken? -/
def holdsSlot : ConnectionPc → Bool
  | handshaking => true
  | releaseSlot => true
  | admitGlobal => false
  | admitIp => false
  | postInsert => false
  | openHook => false
  | serve => false
  | serving => false
  | releaseGlobal => false
  | releaseIp => false
  | closeHook => false
  | postErase => false
  | .over => false

end ConnectionPc

/-
  A connection that the accept loop handed to its handshake
  coroutine, and the session that came of it. The session
  knows the endpoint's address or none.
-/
structure Connection where
  endpoint : Endpoint
  pc : ConnectionPc
  session : Option SessionObject
  peerIp_eq :
    ∀ object ∈ session,
      object.peerIp = endpoint.address ∨ object.peerIp = []
  deriving DecidableEq

namespace Connection

/- A connection whose coroutine has just been spawned. -/
def spawn (endpoint : Endpoint) : Connection where
  endpoint := endpoint
  pc := .handshaking
  session := none
  peerIp_eq := by simp

def goTo
    (pc : ConnectionPc)
    (conn : Connection) : Connection :=
  { conn with pc := pc }

/- The handshake has ended and its slot is still held. -/
def finish
    (result : HandshakeResult)
    (conn : Connection) : Connection where
  endpoint := conn.endpoint
  pc := .releaseSlot
  session := result.object conn.endpoint
  peerIp_eq := by
    rcases result with _ | _ | ⟨_ | _, fingerprint, token⟩ <;>
      simp [HandshakeResult.object]

/- `session->peer_ip()` -/
def peerIp (conn : Connection) : StdString :=
  conn.session.elim [] (·.peerIp)

/- The session's `is_closed_` is set. -/
def close (conn : Connection) : Connection where
  endpoint := conn.endpoint
  pc := conn.pc
  session :=
    conn.session.map fun object =>
      { object with isClosed := true }
  peerIp_eq := by
    intro object hMem
    rcases Option.map_eq_some_iff.mp hMem with
      ⟨object', hSession, rfl⟩
    exact conn.peerIp_eq object' hSession

@[simp] theorem endpoint_goTo
    (conn : Connection)
    (pc : ConnectionPc) :
    (conn.goTo pc).endpoint = conn.endpoint := rfl

@[simp] theorem pc_goTo
    (conn : Connection)
    (pc : ConnectionPc) :
    (conn.goTo pc).pc = pc := rfl

@[simp] theorem session_goTo
    (conn : Connection)
    (pc : ConnectionPc) :
    (conn.goTo pc).session = conn.session := rfl

@[simp] theorem peerIp_goTo
    (conn : Connection)
    (pc : ConnectionPc) :
    (conn.goTo pc).peerIp = conn.peerIp := rfl

@[simp] theorem endpoint_finish
    (conn : Connection)
    (result : HandshakeResult) :
    (conn.finish result).endpoint = conn.endpoint := rfl

@[simp] theorem pc_finish
    (conn : Connection)
    (result : HandshakeResult) :
    (conn.finish result).pc = .releaseSlot := rfl

@[simp] theorem endpoint_close (conn : Connection) :
    conn.close.endpoint = conn.endpoint := rfl

@[simp] theorem pc_close (conn : Connection) :
    conn.close.pc = conn.pc := rfl

@[simp] theorem peerIp_close (conn : Connection) :
    conn.close.peerIp = conn.peerIp := by
  cases hSession : conn.session <;>
    simp [peerIp, close, hSession]

@[simp] theorem session_isSome_close (conn : Connection) :
    conn.close.session.isSome = conn.session.isSome := by
  simp [close]

/- A session that knows an address knows its peer's. -/
theorem address_eq_of_peerIp
    (conn : Connection)
    {ip : StdString}
    (hIp : ip ≠ [])
    (hPeer : conn.peerIp = ip) :
    conn.endpoint.address = ip := by
  cases hSession : conn.session with
  | none =>
      simp only [peerIp, hSession, Option.elim] at hPeer
      exact absurd hPeer.symm hIp
  | some object =>
      simp only [peerIp, hSession, Option.elim] at hPeer
      rcases conn.peerIp_eq object hSession with hEq | hNil
      · rw [← hEq, hPeer]
      · exact absurd (hPeer.symm.trans hNil) hIp

end Connection

------------------------------------------------------------
-- The Accept Loop And The Strand
------------------------------------------------------------

/-
  Where the accept loop stands: waiting for a peer, in the
  filter before its first or before its locked part, back
  with a raw socket, or about to spawn the handshake.
-/
inductive LoopPc
  | accepting
  | probeGlobal (endpoint : Endpoint)
  | probeIp (endpoint : Endpoint)
  | checkHandshakes (endpoint : Endpoint)
  | spawnHandshake (endpoint : Endpoint)
  deriving DecidableEq

/- Work posted to `sessions_strand_`. -/
inductive StrandTask
  | insert (i : Nat)
  | erase (i : Nat)
  | query (q : Nat)
  | closeAll
  deriving DecidableEq, Repr

/-
  What happened, in order: the filter's verdicts, the hooks
  that were called, the queries with their snapshots and the
  two ends of a completion handler.
-/
inductive ServerEvent
  | filtered (ip : StdString) (verdict : Option Rejection)
  | dropped (endpoint : Endpoint)
  | sessionOpen (i : Nat) (info : SessionInfo)
  | completionStarted (i : Nat)
  | sessionClose (i : Nat) (info : SessionInfo)
  | completionReturned (i : Nat)
  | queryStarted (q : Nat)
  | snapshot (q : Nat) (sessions : List Nat)
  | closeAllStarted
  | closeAllRan
  deriving DecidableEq

------------------------------------------------------------
-- The Server
------------------------------------------------------------

/-
  What the server is set up with before `start()`: its limits
  and whether the session hooks are installed.
-/
structure ServerConfig where
  limits : ServerLimits := {}
  onSessionOpen : Bool := false
  onSessionClose : Bool := false

/-
  `perIpCount` and `perIpAcceptBucket` change under one lock.
  `activeSessions` holds connections by their number.
-/
structure Server where
  limits : ServerLimits
  globalSessionCount : Nat
  handshakesInFlight : Nat
  perIpCount : Tally StdString
  perIpAcceptBucket : AList fun _ : StdString => TokenBucket
  loop : LoopPc
  connections : List Connection
  strand : List StrandTask
  activeSessions : List Nat
  queries : Nat
  log : List ServerEvent

namespace Server

/- The server once `start()` has spawned the accept loop. -/
def start (cfg : ServerConfig) : Server where
  limits := cfg.limits
  globalSessionCount := 0
  handshakesInFlight := 0
  perIpCount := ∅
  perIpAcceptBucket := ∅
  loop := .accepting
  connections := []
  strand := []
  activeSessions := []
  queries := 0
  log := []

/-
  `fetch_sub(1)` and `--` on a `std::size_t`. An increment
  cannot wrap: every seat it counts is an open socket.
-/
def fetchSub (count : Nat) : Nat :=
  if count = 0 then 2 ^ 64 - 1 else count - 1

/- `per_ip_count_[ip]`, read without creating the entry. -/
def sessionsFrom
    (s : Server)
    (ip : StdString) : Nat :=
  Tally.get s.perIpCount ip

/- Is the session object of this connection alive? -/
def Holds
    (s : Server)
    (i : Nat)
    (conn : Connection) : Prop :=
  conn.pc ≠ .over ∨ i ∈ s.activeSessions ∨
    .insert i ∈ s.strand ∨ .erase i ∈ s.strand

instance
    (s : Server)
    (i : Nat)
    (conn : Connection) : Decidable (s.Holds i conn) :=
  inferInstanceAs (Decidable (_ ∨ _))

/- The addresses of the session objects that are alive. -/
def liveTokens (s : Server) : List UInt64 :=
  s.connections.zipIdx.filterMap fun entry =>
    if s.Holds entry.2 entry.1 then
      entry.1.session.map (·.token)
    else
      none

------------------------------------------------------------
-- The Pre-Handshake Filter
------------------------------------------------------------

/- `per_ip_accept_bucket_[ip]`, seeded on first sight. -/
def acceptBucket
    (s : Server)
    (ip : StdString) : TokenBucket :=
  let bucket := (s.perIpAcceptBucket.lookup ip).getD {}
  if bucket.capacity = 0 then
    { bucket with
      capacity := s.limits.acceptBurstPerIp
      refillPerSec := s.limits.acceptRefillPerIpPerS }
  else
    bucket

/- Has the address as many sessions as it may have? -/
def ipCapReached
    (s : Server)
    (ip : StdString) : Bool :=
  (s.perIpCount.lookup ip).any fun count =>
    s.limits.maxSessionsPerIp ≤ count

/- What the filter answers under `per_ip_mutex_`. -/
def ipVerdict
    (s : Server)
    (ip : StdString)
    (now : Int) : Option Rejection :=
  if s.ipCapReached ip then
    some (.perIpCap ip)
  else if ((s.acceptBucket ip).tryTake now).2 then
    none
  else
    some (.acceptRate ip)

/- The buckets it leaves: a refused address pays nothing. -/
def bucketsAfter
    (s : Server)
    (ip : StdString)
    (now : Int) : AList fun _ : StdString => TokenBucket :=
  if s.ipCapReached ip then
    s.perIpAcceptBucket
  else
    s.perIpAcceptBucket.insert ip
      ((s.acceptBucket ip).tryTake now).1

/- What the filter answers from the global count alone. -/
def globalVerdict (s : Server) : Option Rejection :=
  if s.limits.maxConcurrentSessions ≤
      s.globalSessionCount then
    some .globalCap
  else
    none

------------------------------------------------------------
-- Seats And Hooks
------------------------------------------------------------

/- `++per_ip_count_[ip]` -/
def admitIp
    (s : Server)
    (ip : StdString) : Tally StdString :=
  s.perIpCount.insert ip (s.sessionsFrom ip + 1)

/- `--it->second`, erasing an entry that reaches zero. -/
def releaseIp
    (s : Server)
    (ip : StdString) : Tally StdString :=
  match s.perIpCount.lookup ip with
  | none => s.perIpCount
  | some count =>
      if fetchSub count = 0 then
        s.perIpCount.erase ip
      else
        s.perIpCount.insert ip (fetchSub count)

/- Is the `is_closed_` of connection `i`'s session set? -/
def IsClosed
    (s : Server)
    (i : Nat) : Prop :=
  ∃ conn ∈ s.connections[i]?,
    conn.session.any (·.isClosed) = true

instance
    (s : Server)
    (i : Nat) : Decidable (s.IsClosed i) :=
  inferInstanceAs (Decidable (∃ conn ∈ _, _))

/- What an installed hook is told of connection `i`. -/
def hookInfo
    (s : Server)
    (installed : Bool)
    (i : Nat) : Option SessionInfo :=
  if installed then
    (s.connections[i]?.bind (·.session)).map (·.info)
  else
    none

/- `session->close()` on each of these. -/
def closeSessions :
    List Nat → List Connection → List Connection
  | [], connections => connections
  | i :: rest, connections =>
      closeSessions rest (connections.modify i Connection.close)

/- The strand runs the task at the head of its queue. -/
def runTask (s : Server) : Server :=
  match s.strand with
  | [] => s
  | .insert i :: rest =>
      { s with
        strand := rest
        activeSessions := s.activeSessions.insert i }
  | .erase i :: rest =>
      { s with
        strand := rest
        activeSessions := s.activeSessions.erase i }
  | .query q :: rest =>
      { s with
        strand := rest
        log := s.log ++ [.snapshot q s.activeSessions] }
  | .closeAll :: rest =>
      { s with
        strand := rest
        connections :=
          closeSessions s.activeSessions s.connections
        activeSessions := []
        log := s.log ++ [.closeAllRan] }

end Server

end GrlxRpc
