import GrlxRpc.Server.State
import GrlxRpc.Lib.Transition

/-
  The steps of the server.

  An action names the coroutine, handler or strand that runs
  and what its environment supplies: the peer that connects,
  a clock reading, the end of a handshake. An accept that
  throws leaves the loop where it is and is no action. A
  hook that throws is caught, so it leaves what one that
  returns leaves.

  Main declarations:
    * `ServerAction`
    * `Server.Enabled`
    * `Server.update`
    * `Server.step` and `Server.step_eq_some_iff`
-/

------------------------------------------------------------
-- Actions
------------------------------------------------------------

namespace GrlxRpc

inductive ServerAction
  -- the accept loop, with the filter inside `accept_raw`
  | accept (endpoint : Endpoint) (readable : Bool)
  | probeGlobal (endpoint : Endpoint)
  | probeIp (endpoint : Endpoint) (now : Int)
  | checkHandshakes (endpoint : Endpoint)
  | spawnHandshake (endpoint : Endpoint)
  -- the coroutine of a connection
  | finishHandshake (i : Nat) (result : HandshakeResult)
  | releaseSlot (i : Nat)
  | admitGlobal (i : Nat)
  | admitIp (i : Nat)
  | postInsert (i : Nat)
  | openHook (i : Nat)
  | serve (i : Nat)
  -- the session's own loops, and `dispatch_requests`' end
  | closeSession (i : Nat)
  | complete (i : Nat)
  | releaseGlobal (i : Nat)
  | releaseIp (i : Nat)
  | closeHook (i : Nat)
  | postErase (i : Nat)
  -- `sessions_strand_` and those who post to it
  | runTask
  | startQuery
  | closeAllSessions
  -- the application
  | setServerLimits (limits : ServerLimits)
  deriving DecidableEq

namespace Server

------------------------------------------------------------
-- Enabled Actions
------------------------------------------------------------

/- Connection `i` is about to do what `pc` names. -/
def At
    (s : Server)
    (i : Nat)
    (pc : ConnectionPc) : Prop :=
  ∃ conn ∈ s.connections[i]?, conn.pc = pc

instance
    (s : Server)
    (i : Nat)
    (pc : ConnectionPc) : Decidable (s.At i pc) :=
  inferInstanceAs (Decidable (∃ conn ∈ _, _))

/-
  A handshake ends in any way while it runs, and a new
  session object is where no live one is. The loops of a
  session close it before `dispatch_requests` ends.
-/
def Enabled (s : Server) : ServerAction → Prop
  | .accept _ _ => s.loop = .accepting
  | .probeGlobal endpoint => s.loop = .probeGlobal endpoint
  | .probeIp endpoint _ => s.loop = .probeIp endpoint
  | .checkHandshakes endpoint =>
      s.loop = .checkHandshakes endpoint
  | .spawnHandshake endpoint =>
      s.loop = .spawnHandshake endpoint
  | .finishHandshake i result =>
      s.At i .handshaking ∧ result.IsFresh s.liveTokens
  | .releaseSlot i => s.At i .releaseSlot
  | .admitGlobal i => s.At i .admitGlobal
  | .admitIp i => s.At i .admitIp
  | .postInsert i => s.At i .postInsert
  | .openHook i => s.At i .openHook
  | .serve i => s.At i .serve
  | .closeSession i => s.At i .serving
  | .complete i => s.At i .serving ∧ s.IsClosed i
  | .releaseGlobal i => s.At i .releaseGlobal
  | .releaseIp i => s.At i .releaseIp
  | .closeHook i => s.At i .closeHook
  | .postErase i => s.At i .postErase
  | .runTask => s.strand ≠ []
  | .startQuery => True
  | .closeAllSessions => True
  | .setServerLimits _ => True

instance
    (s : Server)
    (a : ServerAction) : Decidable (s.Enabled a) :=
  match a with
  | .accept _ _ => inferInstanceAs (Decidable (_ = _))
  | .probeGlobal _ => inferInstanceAs (Decidable (_ = _))
  | .probeIp _ _ => inferInstanceAs (Decidable (_ = _))
  | .checkHandshakes _ => inferInstanceAs (Decidable (_ = _))
  | .spawnHandshake _ => inferInstanceAs (Decidable (_ = _))
  | .finishHandshake _ _ =>
      inferInstanceAs (Decidable (_ ∧ _))
  | .releaseSlot i =>
      inferInstanceAs (Decidable (s.At i .releaseSlot))
  | .admitGlobal i =>
      inferInstanceAs (Decidable (s.At i .admitGlobal))
  | .admitIp i =>
      inferInstanceAs (Decidable (s.At i .admitIp))
  | .postInsert i =>
      inferInstanceAs (Decidable (s.At i .postInsert))
  | .openHook i =>
      inferInstanceAs (Decidable (s.At i .openHook))
  | .serve i => inferInstanceAs (Decidable (s.At i .serve))
  | .closeSession i =>
      inferInstanceAs (Decidable (s.At i .serving))
  | .complete _ => inferInstanceAs (Decidable (_ ∧ _))
  | .releaseGlobal i =>
      inferInstanceAs (Decidable (s.At i .releaseGlobal))
  | .releaseIp i =>
      inferInstanceAs (Decidable (s.At i .releaseIp))
  | .closeHook i =>
      inferInstanceAs (Decidable (s.At i .closeHook))
  | .postErase i =>
      inferInstanceAs (Decidable (s.At i .postErase))
  | .runTask => inferInstanceAs (Decidable (_ ≠ _))
  | .startQuery => instDecidableTrue
  | .closeAllSessions => instDecidableTrue
  | .setServerLimits _ => instDecidableTrue

------------------------------------------------------------
-- Steps
------------------------------------------------------------

/- Move connection `i` on to `pc`. -/
def goTo
    (s : Server)
    (i : Nat)
    (pc : ConnectionPc) : List Connection :=
  s.connections.modify i (Connection.goTo pc)

/- Where a coroutine goes that has given back its slot. -/
def afterSlot (conn : Connection) : ConnectionPc :=
  if conn.session.isSome then .admitGlobal else .over

/- What an action that may run changes. -/
def update
    (cfg : ServerConfig)
    (s : Server) : ServerAction → Server
  | .accept endpoint readable =>
      -- an endpoint that cannot be read skips the filter
      { s with
        loop :=
          if readable then .probeGlobal endpoint
          else .checkHandshakes endpoint }
  | .probeGlobal endpoint =>
      match s.globalVerdict with
      | none => { s with loop := .probeIp endpoint }
      | some rejection =>
          { s with
            loop := .accepting
            log :=
              s.log ++
                [.filtered endpoint.address (some rejection)] }
  | .probeIp endpoint now =>
      let verdict := s.ipVerdict endpoint.address now
      { s with
        perIpAcceptBucket :=
          s.bucketsAfter endpoint.address now
        loop :=
          if verdict = none then .checkHandshakes endpoint
          else .accepting
        log :=
          s.log ++ [.filtered endpoint.address verdict] }
  | .checkHandshakes endpoint =>
      if s.limits.maxConcurrentHandshakes ≤
          s.handshakesInFlight then
        { s with
          loop := .accepting
          log := s.log ++ [.dropped endpoint] }
      else
        { s with loop := .spawnHandshake endpoint }
  | .spawnHandshake endpoint =>
      { s with
        handshakesInFlight := s.handshakesInFlight + 1
        connections := s.connections ++ [.spawn endpoint]
        loop := .accepting }
  | .finishHandshake i result =>
      { s with
        connections :=
          s.connections.modify i (Connection.finish result) }
  | .releaseSlot i =>
      { s with
        handshakesInFlight := fetchSub s.handshakesInFlight
        connections :=
          s.connections.modify i fun conn =>
            conn.goTo (afterSlot conn) }
  | .admitGlobal i =>
      { s with
        globalSessionCount := s.globalSessionCount + 1
        connections := s.goTo i .admitIp }
  | .admitIp i =>
      { s with
        perIpCount :=
          s.connections[i]?.elim s.perIpCount fun conn =>
            s.admitIp conn.peerIp
        connections := s.goTo i .postInsert }
  | .postInsert i =>
      { s with
        strand := s.strand ++ [.insert i]
        connections := s.goTo i .openHook }
  | .openHook i =>
      { s with
        connections := s.goTo i .serve
        log :=
          s.log ++
            (s.hookInfo cfg.onSessionOpen i).toList.map
              (.sessionOpen i) }
  | .serve i => { s with connections := s.goTo i .serving }
  | .closeSession i =>
      { s with
        connections :=
          s.connections.modify i Connection.close }
  | .complete i =>
      { s with
        connections := s.goTo i .releaseGlobal
        log := s.log ++ [.completionStarted i] }
  | .releaseGlobal i =>
      { s with
        globalSessionCount := fetchSub s.globalSessionCount
        connections := s.goTo i .releaseIp }
  | .releaseIp i =>
      { s with
        perIpCount :=
          s.connections[i]?.elim s.perIpCount fun conn =>
            s.releaseIp conn.peerIp
        connections := s.goTo i .closeHook }
  | .closeHook i =>
      { s with
        connections := s.goTo i .postErase
        log :=
          s.log ++
            (s.hookInfo cfg.onSessionClose i).toList.map
              (.sessionClose i) }
  | .postErase i =>
      { s with
        strand := s.strand ++ [.erase i]
        connections := s.goTo i .over
        log := s.log ++ [.completionReturned i] }
  | .runTask => s.runTask
  | .startQuery =>
      { s with
        strand := s.strand ++ [.query s.queries]
        queries := s.queries + 1
        log := s.log ++ [.queryStarted s.queries] }
  | .closeAllSessions =>
      { s with
        strand := s.strand ++ [.closeAll]
        log := s.log ++ [.closeAllStarted] }
  | .setServerLimits limits => { s with limits := limits }

/- One step of the server, if the action may run. -/
def step
    (cfg : ServerConfig)
    (s : Server)
    (a : ServerAction) : Option Server :=
  if s.Enabled a then some (s.update cfg a) else none

theorem step_eq_some_iff
    (cfg : ServerConfig)
    (s s' : Server)
    (a : ServerAction) :
    step cfg s a = some s' ↔
      s.Enabled a ∧ s' = s.update cfg a := by
  simp [step, eq_comm]

------------------------------------------------------------
-- Reachable Servers
------------------------------------------------------------

/- The servers that runs of steps meeting `ok` reach. -/
abbrev ReachableBy
    (cfg : ServerConfig)
    (ok : Server → ServerAction → Prop)
    (s : Server) : Prop :=
  Transition.ReachableBy (step cfg) ok (start cfg) s

/- The servers that any run reaches. -/
abbrev Reachable
    (cfg : ServerConfig)
    (s : Server) : Prop :=
  Transition.Reachable (step cfg) (start cfg) s

/- The invariant rule for servers. -/
theorem invariant
    {cfg : ServerConfig}
    {ok : Server → ServerAction → Prop}
    (inv : Server → Prop)
    (hStart : inv (start cfg))
    (hUpdate :
      ∀ s a,
        ReachableBy cfg ok s →
        inv s →
        ok s a →
        s.Enabled a →
        inv (s.update cfg a))
    {s : Server}
    (hReach : ReachableBy cfg ok s) :
    inv s :=
  hReach.invariant_of_guarded (step_eq_some_iff cfg) hStart
    hUpdate

end Server

end GrlxRpc
