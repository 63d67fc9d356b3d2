import GrlxRpc.Server.Step
import GrlxRpc.Lib.Records

/-
  Seats: what the session counters count, and when they stay
  within the limits.

  A connection takes a seat in `global_session_count_` and
  one in `per_ip_count_` after its handshake and gives them
  back in its completion handler. The filter looks at the
  counters before the handshake, so connections that are
  still on their way to a seat are counted by nobody.

  Main declarations:
    * `Server.SeatsInv` and `Server.seatsInv`
    * `Server.Accounted` and `Server.accounted`
    * `Server.HasRoom` and `Server.withinCaps`
    * `Server.caps_exceeded`
-/

------------------------------------------------------------
-- Who Holds A Seat
------------------------------------------------------------

namespace GrlxRpc

namespace Connection

/- A seat in `global_session_count_`. -/
def holdsGlobal (conn : Connection) : Bool :=
  conn.pc.holdsGlobal

/- A seat in `per_ip_count_`, of any address. -/
def holdsIp (conn : Connection) : Bool :=
  conn.pc.holdsIp

/- A seat in `per_ip_count_[ip]`. -/
def holdsSeatOf
    (ip : StdString)
    (conn : Connection) : Bool :=
  conn.pc.holdsIp && decide (conn.peerIp = ip)

/- Admitted, and its completion handler released nothing. -/
def isSeated (conn : Connection) : Bool :=
  conn.pc.holdsGlobal && conn.pc.holdsIp

def isSeatedFrom
    (ip : StdString)
    (conn : Connection) : Bool :=
  conn.isSeated && decide (conn.peerIp = ip)

/- Is it between the two updates of the counters? -/
def isBetween (conn : Connection) : Bool :=
  conn.pc.holdsGlobal != conn.pc.holdsIp

end Connection

namespace Server

------------------------------------------------------------
-- Giving Back A Seat Of An Address
------------------------------------------------------------

section ReleaseIp

variable {s : Server}
variable {ip : StdString}

/- An address with one seat loses its entry. -/
theorem releaseIp_one
    (hOne : Tally.get s.perIpCount ip = 1) :
    s.releaseIp ip = s.perIpCount.erase ip := by
  have hLookup :
      s.perIpCount.lookup ip =
        some (Tally.get s.perIpCount ip) :=
    Tally.lookup_of_get_pos (by omega)
  simp [releaseIp, hLookup, hOne, fetchSub]

/- An address with more keeps an entry for the rest. -/
theorem releaseIp_more
    (hMore : 1 < Tally.get s.perIpCount ip) :
    s.releaseIp ip =
      s.perIpCount.insert ip
        (Tally.get s.perIpCount ip - 1) := by
  have hLookup :
      s.perIpCount.lookup ip =
        some (Tally.get s.perIpCount ip) :=
    Tally.lookup_of_get_pos (by omega)
  have hLess :
      fetchSub (Tally.get s.perIpCount ip) =
        Tally.get s.perIpCount ip - 1 := by
    rw [fetchSub, if_neg (by omega)]
  have hLeft : Tally.get s.perIpCount ip - 1 ≠ 0 := by omega
  simp only [releaseIp, hLookup, hLess, hLeft, if_false]

/- An address that has a seat to give back. -/
theorem releaseIp_cases
    (hPos : 0 < Tally.get s.perIpCount ip) :
    (Tally.get s.perIpCount ip = 1 ∧
        s.releaseIp ip = s.perIpCount.erase ip) ∨
      (1 < Tally.get s.perIpCount ip ∧
        s.releaseIp ip =
          s.perIpCount.insert ip
            (Tally.get s.perIpCount ip - 1)) := by
  by_cases hOne : Tally.get s.perIpCount ip = 1
  · exact .inl ⟨hOne, releaseIp_one hOne⟩
  · have hMore : 1 < Tally.get s.perIpCount ip := by omega
    exact .inr ⟨hMore, releaseIp_more hMore⟩

theorem get_releaseIp
    (hPos : 0 < Tally.get s.perIpCount ip) :
    Tally.get (s.releaseIp ip) ip =
      Tally.get s.perIpCount ip - 1 := by
  rcases releaseIp_cases hPos with ⟨hOne, hEq⟩ | ⟨_, hEq⟩
  · rw [hEq, Tally.get_erase, hOne]
  · rw [hEq, Tally.get_insert]

theorem get_releaseIp_ne
    (hPos : 0 < Tally.get s.perIpCount ip)
    {other : StdString}
    (hNe : other ≠ ip) :
    Tally.get (s.releaseIp ip) other =
      Tally.get s.perIpCount other := by
  rcases releaseIp_cases hPos with ⟨_, hEq⟩ | ⟨_, hEq⟩
  · rw [hEq, Tally.get_erase_ne _ hNe]
  · rw [hEq, Tally.get_insert_ne _ _ hNe]

theorem total_releaseIp
    (hPos : 0 < Tally.get s.perIpCount ip) :
    Tally.total (s.releaseIp ip) + 1 =
      Tally.total s.perIpCount := by
  rcases releaseIp_cases hPos with ⟨hOne, hEq⟩ | ⟨hMore, hEq⟩
  · have hTotal := Tally.total_erase s.perIpCount ip
    rw [hEq]
    omega
  · have hTotal :=
      Tally.total_insert s.perIpCount ip
        (Tally.get s.perIpCount ip - 1)
    rw [hEq]
    omega

theorem noZero_releaseIp
    (hNoZero : Tally.NoZero s.perIpCount)
    (hPos : 0 < Tally.get s.perIpCount ip) :
    Tally.NoZero (s.releaseIp ip) := by
  rcases releaseIp_cases hPos with ⟨_, hEq⟩ | ⟨hMore, hEq⟩
  · rw [hEq]
    exact hNoZero.erase ip
  · rw [hEq]
    exact hNoZero.insert ip (by omega)

end ReleaseIp

------------------------------------------------------------
-- The Counters Count The Seats
------------------------------------------------------------

/-
  Both counters count the seats that are held, and the map
  has entries for held seats only.
-/
structure SeatsInv (s : Server) : Prop where
  global :
    s.globalSessionCount =
      s.connections.countP Connection.holdsGlobal
  perIp :
    ∀ ip, s.sessionsFrom ip =
      s.connections.countP (Connection.holdsSeatOf ip)
  total :
    Tally.total s.perIpCount =
      s.connections.countP Connection.holdsIp
  noZero : Tally.NoZero s.perIpCount

namespace SeatsInv

variable {s s' : Server}
variable {i : Nat}
variable {conn : Connection}

/- A step that leaves the counters and who holds a seat. -/
theorem congr
    (hInv : SeatsInv s)
    (hGlobal : s'.globalSessionCount = s.globalSessionCount)
    (hPerIp : s'.perIpCount = s.perIpCount)
    (hCount :
      ∀ p : Connection → Bool,
        p = Connection.holdsGlobal ∨
            p = Connection.holdsIp ∨
            (∃ ip, p = Connection.holdsSeatOf ip) →
          s'.connections.countP p = s.connections.countP p) :
    SeatsInv s' where
  global := by
    rw [hGlobal, hCount _ (.inl rfl)]
    exact hInv.global
  perIp := by
    intro ip
    rw [sessionsFrom, hPerIp, hCount _ (.inr (.inr ⟨ip, rfl⟩))]
    exact hInv.perIp ip
  total := by
    rw [hPerIp, hCount _ (.inr (.inl rfl))]
    exact hInv.total
  noZero := by
    rw [hPerIp]
    exact hInv.noZero

/- A connection moves on and holds the seats it held. -/
theorem move
    (hInv : SeatsInv s)
    {f : Connection → Connection}
    (hGlobal : s'.globalSessionCount = s.globalSessionCount)
    (hPerIp : s'.perIpCount = s.perIpCount)
    (hConnections : s'.connections = s.connections.modify i f)
    (hHolds :
      ∀ conn, s.connections[i]? = some conn →
        (f conn).pc.holdsGlobal = conn.pc.holdsGlobal ∧
          (f conn).pc.holdsIp = conn.pc.holdsIp ∧
          (conn.pc.holdsIp = true →
            (f conn).peerIp = conn.peerIp)) :
    SeatsInv s' := by
  apply hInv.congr hGlobal hPerIp
  intro p hP
  rw [hConnections]
  apply Records.countP_modify_of_eq
  intro conn hGet
  rcases hHolds conn hGet with ⟨hG, hI, hSame⟩
  rcases hP with rfl | rfl | ⟨ip, rfl⟩
  · exact hG
  · exact hI
  · unfold Connection.holdsSeatOf
    rw [hI]
    cases hHeld : conn.pc.holdsIp with
    | false => rfl
    | true => rw [hSame hHeld]

/- As `move`, for a connection that only changes its pc. -/
theorem goTo
    (hInv : SeatsInv s)
    {pc pc' : ConnectionPc}
    (hAt : s.At i pc)
    (hGlobal : s'.globalSessionCount = s.globalSessionCount)
    (hPerIp : s'.perIpCount = s.perIpCount)
    (hConnections : s'.connections = s.goTo i pc')
    (hPc :
      pc'.holdsGlobal = pc.holdsGlobal ∧
        pc'.holdsIp = pc.holdsIp) :
    SeatsInv s' := by
  apply hInv.move hGlobal hPerIp hConnections
  intro conn hGet
  rcases hAt with ⟨conn', hGet', rfl⟩
  obtain rfl : conn = conn' :=
    Option.some.inj (hGet.symm.trans hGet')
  exact ⟨hPc.1, hPc.2, fun _ => rfl⟩

/- The accept loop hands over a connection. -/
theorem spawn
    (hInv : SeatsInv s)
    (cfg : ServerConfig)
    (endpoint : Endpoint) :
    SeatsInv (s.update cfg (.spawnHandshake endpoint)) := by
  refine hInv.congr rfl rfl fun p hP => ?_
  have hNone : p (Connection.spawn endpoint) = false := by
    rcases hP with rfl | rfl | ⟨ip, rfl⟩ <;> rfl
  simp [update, hNone]

/- `close()` on any sessions gives back no seat. -/
theorem closeSessions
    (todo : List Nat)
    (connections : List Connection)
    {p : Connection → Bool}
    (hClose : ∀ conn, p conn.close = p conn) :
    (closeSessions todo connections).countP p =
      connections.countP p := by
  induction todo generalizing connections with
  | nil => rfl
  | cons i rest ih =>
      rw [Server.closeSessions, ih]
      exact Records.countP_modify_of_eq
        fun conn _ => hClose conn

/- The strand changes no seat. -/
theorem runTask (hInv : SeatsInv s) :
    SeatsInv s.runTask := by
  cases hStrand : s.strand with
  | nil =>
      simpa only [Server.runTask, hStrand] using hInv
  | cons task rest =>
      cases task with
      | closeAll =>
          simp only [Server.runTask, hStrand]
          refine hInv.congr rfl rfl fun p hP => ?_
          apply closeSessions
          intro conn
          rcases hP with rfl | rfl | ⟨ip, rfl⟩ <;>
            simp [Connection.holdsGlobal, Connection.holdsIp,
              Connection.holdsSeatOf]
      | _ =>
          simp only [Server.runTask, hStrand]
          exact hInv.congr rfl rfl fun _ _ => rfl

------------------------------------------------------------
-- Taking And Giving Back
------------------------------------------------------------

/- A connection that gives back its seat has one. -/
theorem global_pos
    (hInv : SeatsInv s)
    (hGet : s.connections[i]? = some conn)
    (hHolds : conn.pc.holdsGlobal = true) :
    0 < s.globalSessionCount := by
  rw [hInv.global]
  exact Records.countP_pos_of_getElem? hGet hHolds

theorem perIp_pos
    (hInv : SeatsInv s)
    (hGet : s.connections[i]? = some conn)
    (hHolds : conn.pc.holdsIp = true) :
    0 < s.sessionsFrom conn.peerIp := by
  rw [hInv.perIp]
  apply Records.countP_pos_of_getElem? hGet
  simp [Connection.holdsSeatOf, hHolds]

/-
  The counters change by what the connection that moves on
  takes and gives back.
-/
theorem transfer
    (hInv : SeatsInv s)
    (hGet : s.connections[i]? = some conn)
    {pc : ConnectionPc}
    (hConnections : s'.connections = s.goTo i pc)
    (hGlobal :
      s'.globalSessionCount + conn.pc.holdsGlobal.toNat =
        s.globalSessionCount + pc.holdsGlobal.toNat)
    (hPerIp :
      ∀ ip, s'.sessionsFrom ip +
          (conn.holdsSeatOf ip).toNat =
        s.sessionsFrom ip +
          ((conn.goTo pc).holdsSeatOf ip).toNat)
    (hTotal :
      Tally.total s'.perIpCount + conn.pc.holdsIp.toNat =
        Tally.total s.perIpCount + pc.holdsIp.toNat)
    (hNoZero : Tally.NoZero s'.perIpCount) :
    SeatsInv s' := by
  have hCount := fun p =>
    Records.countP_modify p hGet (Connection.goTo pc)
  constructor
  · have hSeats := hCount Connection.holdsGlobal
    have hOld := hInv.global
    simp only [Connection.holdsGlobal,
      Connection.pc_goTo] at hSeats hOld ⊢
    rw [hConnections, Server.goTo]
    omega
  · intro ip
    have hSeats := hCount (Connection.holdsSeatOf ip)
    have hOld := hInv.perIp ip
    have hNew := hPerIp ip
    rw [hConnections, Server.goTo]
    omega
  · have hSeats := hCount Connection.holdsIp
    have hOld := hInv.total
    simp only [Connection.holdsIp,
      Connection.pc_goTo] at hSeats hOld ⊢
    rw [hConnections, Server.goTo]
    omega
  · exact hNoZero

/- `global_session_count_.fetch_add(1)` -/
theorem admitGlobal
    (hInv : SeatsInv s)
    (cfg : ServerConfig)
    (hAt : s.At i .admitGlobal) :
    SeatsInv (s.update cfg (.admitGlobal i)) := by
  rcases hAt with ⟨conn, hGet, hPc⟩
  apply hInv.transfer hGet rfl
  · simp [update, hPc, ConnectionPc.holdsGlobal]
  · intro ip
    simp [update, sessionsFrom, Connection.holdsSeatOf, hPc,
      ConnectionPc.holdsIp]
  · simp [update, hPc, ConnectionPc.holdsIp]
  · exact hInv.noZero

/- `++per_ip_count_[session->peer_ip()]` -/
theorem admitIp
    (hInv : SeatsInv s)
    (cfg : ServerConfig)
    (hAt : s.At i .admitIp) :
    SeatsInv (s.update cfg (.admitIp i)) := by
  rcases hAt with ⟨conn, hGet, hPc⟩
  have hTally :
      (s.update cfg (.admitIp i)).perIpCount =
        s.admitIp conn.peerIp := by
    simp only [update]
    rw [Option.mem_def.mp hGet, Option.elim_some]
  apply hInv.transfer hGet rfl
  · simp [update, hPc, ConnectionPc.holdsGlobal]
  · intro ip
    simp only [sessionsFrom, hTally, Server.admitIp,
      Connection.holdsSeatOf, hPc, Connection.pc_goTo,
      Connection.peerIp_goTo, ConnectionPc.holdsIp,
      Bool.false_and, Bool.true_and, Bool.toNat_false]
    by_cases hSame : ip = conn.peerIp
    · subst hSame
      simp
    · simp [Tally.get_insert_ne _ _ hSame, Ne.symm hSame]
  · have hTotal :=
      Tally.total_insert s.perIpCount conn.peerIp
        (s.sessionsFrom conn.peerIp + 1)
    simp only [hTally, Server.admitIp, hPc,
      ConnectionPc.holdsIp, Bool.toNat_false,
      Bool.toNat_true]
    simp only [sessionsFrom] at hTotal ⊢
    omega
  · rw [hTally]
    exact hInv.noZero.insert _ (Nat.succ_ne_zero _)

/- `global_session_count_.fetch_sub(1)` -/
theorem releaseGlobal
    (hInv : SeatsInv s)
    (cfg : ServerConfig)
    (hAt : s.At i .releaseGlobal) :
    SeatsInv (s.update cfg (.releaseGlobal i)) := by
  rcases hAt with ⟨conn, hGet, hPc⟩
  have hPos : 0 < s.globalSessionCount :=
    hInv.global_pos hGet (by rw [hPc]; rfl)
  apply hInv.transfer hGet rfl
  · simp only [update, fetchSub, hPc,
      ConnectionPc.holdsGlobal, Bool.toNat_false,
      Bool.toNat_true]
    rw [if_neg (Nat.ne_of_gt hPos)]
    omega
  · intro ip
    simp only [Connection.holdsSeatOf, hPc,
      Connection.pc_goTo, Connection.peerIp_goTo,
      ConnectionPc.holdsIp]
    rfl
  · simp [update, hPc, ConnectionPc.holdsIp]
  · exact hInv.noZero

/- `--it->second`, and the entry goes when it reaches zero. -/
theorem releaseIp
    (hInv : SeatsInv s)
    (cfg : ServerConfig)
    (hAt : s.At i .releaseIp) :
    SeatsInv (s.update cfg (.releaseIp i)) := by
  rcases hAt with ⟨conn, hGet, hPc⟩
  have hPos : 0 < Tally.get s.perIpCount conn.peerIp :=
    hInv.perIp_pos hGet (by rw [hPc]; rfl)
  have hTally :
      (s.update cfg (.releaseIp i)).perIpCount =
        s.releaseIp conn.peerIp := by
    simp only [update]
    rw [Option.mem_def.mp hGet, Option.elim_some]
  apply hInv.transfer hGet rfl
  · simp [update, hPc, ConnectionPc.holdsGlobal]
  · intro ip
    simp only [sessionsFrom, hTally,
      Connection.holdsSeatOf, hPc, Connection.pc_goTo,
      Connection.peerIp_goTo, ConnectionPc.holdsIp,
      Bool.false_and, Bool.true_and, Bool.toNat_false]
    by_cases hSame : ip = conn.peerIp
    · subst hSame
      rw [get_releaseIp hPos]
      simp
      omega
    · rw [get_releaseIp_ne hPos hSame]
      simp [Ne.symm hSame]
  · have hTotal := total_releaseIp hPos
    simp only [hTally, hPc, ConnectionPc.holdsIp,
      Bool.toNat_false, Bool.toNat_true]
    omega
  · rw [hTally]
    exact noZero_releaseIp hInv.noZero hPos

end SeatsInv

variable {cfg : ServerConfig}
variable {ok : Server → ServerAction → Prop}
variable {s : Server}

/- Both counters count the seats in every run. -/
theorem seatsInv (hReach : ReachableBy cfg ok s) :
    SeatsInv s := by
  refine invariant SeatsInv ?_ ?_ hReach
  · exact ⟨rfl, fun _ => rfl, rfl, Tally.noZero_empty⟩
  · intro s a _ hInv _ hEnabled
    cases a with
    | accept endpoint readable =>
        exact hInv.congr rfl rfl fun _ _ => rfl
    | probeGlobal endpoint =>
        simp only [update]
        cases s.globalVerdict with
        | none => exact hInv.congr rfl rfl fun _ _ => rfl
        | some rejection =>
            exact hInv.congr rfl rfl fun _ _ => rfl
    | probeIp endpoint now =>
        exact hInv.congr rfl rfl fun _ _ => rfl
    | checkHandshakes endpoint =>
        simp only [update]
        split
        · exact hInv.congr rfl rfl fun _ _ => rfl
        · exact hInv.congr rfl rfl fun _ _ => rfl
    | spawnHandshake endpoint => exact hInv.spawn cfg endpoint
    | finishHandshake i result =>
        refine hInv.move rfl rfl rfl ?_
        intro conn hGet
        rcases hEnabled.1 with ⟨conn', hGet', hPc⟩
        obtain rfl : conn = conn' :=
          Option.some.inj (hGet.symm.trans hGet')
        simp [hPc, ConnectionPc.holdsGlobal,
          ConnectionPc.holdsIp]
    | releaseSlot i =>
        refine hInv.move rfl rfl rfl ?_
        intro conn hGet
        rcases hEnabled with ⟨conn', hGet', hPc⟩
        obtain rfl : conn = conn' :=
          Option.some.inj (hGet.symm.trans hGet')
        cases hSession : conn.session <;>
          simp [hPc, afterSlot, hSession,
            ConnectionPc.holdsGlobal, ConnectionPc.holdsIp]
    | admitGlobal i => exact hInv.admitGlobal cfg hEnabled
    | admitIp i => exact hInv.admitIp cfg hEnabled
    | postInsert i =>
        exact hInv.goTo hEnabled rfl rfl rfl ⟨rfl, rfl⟩
    | openHook i =>
        exact hInv.goTo hEnabled rfl rfl rfl ⟨rfl, rfl⟩
    | serve i =>
        exact hInv.goTo hEnabled rfl rfl rfl ⟨rfl, rfl⟩
    | closeSession i =>
        refine hInv.move rfl rfl rfl ?_
        intro conn _
        exact ⟨rfl, rfl, fun _ => conn.peerIp_close⟩
    | complete i =>
        exact hInv.goTo hEnabled.1 rfl rfl rfl ⟨rfl, rfl⟩
    | releaseGlobal i => exact hInv.releaseGlobal cfg hEnabled
    | releaseIp i => exact hInv.releaseIp cfg hEnabled
    | closeHook i =>
        exact hInv.goTo hEnabled rfl rfl rfl ⟨rfl, rfl⟩
    | postErase i =>
        exact hInv.goTo hEnabled rfl rfl rfl ⟨rfl, rfl⟩
    | runTask => exact hInv.runTask
    | startQuery => exact hInv.congr rfl rfl fun _ _ => rfl
    | closeAllSessions =>
        exact hInv.congr rfl rfl fun _ _ => rfl
    | setServerLimits limits =>
        exact hInv.congr rfl rfl fun _ _ => rfl

------------------------------------------------------------
-- Admission Accounting
------------------------------------------------------------

/- Nobody is between the updates of the two counters. -/
def IsSettled (s : Server) : Prop :=
  ∀ conn ∈ s.connections, conn.isBetween = false

/- Every session that took a seat has given it back. -/
def AllCompleted (s : Server) : Prop :=
  ∀ conn ∈ s.connections,
    conn.holdsGlobal = false ∧ conn.holdsIp = false

/-
  The counters agree with the sessions that are seated, no
  seat is given back at zero, and an empty server counts
  nothing.
-/
structure Accounted (s : Server) : Prop where
  global :
    s.IsSettled →
      s.globalSessionCount =
        s.connections.countP Connection.isSeated
  perIp :
    s.IsSettled →
      ∀ ip, s.sessionsFrom ip =
        s.connections.countP (Connection.isSeatedFrom ip)
  noZero : ∀ ip, s.perIpCount.lookup ip ≠ some 0
  sum :
    s.IsSettled →
      s.globalSessionCount =
        (s.perIpCount.entries.map Sigma.snd).sum
  global_pos :
    ∀ i, s.Enabled (.releaseGlobal i) →
      0 < s.globalSessionCount
  perIp_pos :
    ∀ i conn, s.Enabled (.releaseIp i) →
      s.connections[i]? = some conn →
        ∃ count,
          s.perIpCount.lookup conn.peerIp = some (count + 1)
  empty :
    s.AllCompleted →
      s.globalSessionCount = 0 ∧ s.perIpCount = ∅

/- Settled connections hold both seats or none. -/
theorem holds_of_isSettled
    (hSettled : s.IsSettled)
    {conn : Connection}
    (hMem : conn ∈ s.connections) :
    conn.pc.holdsGlobal = conn.isSeated ∧
      conn.pc.holdsIp = conn.isSeated := by
  have hSame := hSettled conn hMem
  simp only [Connection.isBetween, bne_eq_false_iff_eq] at hSame
  simp [Connection.isSeated, hSame]

theorem accounted
    (cfg : ServerConfig)
    (s : Server)
    (hReach : Reachable cfg s) :
    s.Accounted := by
  have hInv := seatsInv hReach
  constructor
  · intro hSettled
    rw [hInv.global]
    exact List.countP_congr fun conn hMem => by
      rw [Connection.holdsGlobal,
        (holds_of_isSettled hSettled hMem).1]
  · intro hSettled ip
    rw [hInv.perIp]
    exact List.countP_congr fun conn hMem => by
      rw [Connection.holdsSeatOf, Connection.isSeatedFrom,
        (holds_of_isSettled hSettled hMem).2]
  · exact hInv.noZero
  · intro hSettled
    rw [hInv.global]
    refine Eq.trans ?_ hInv.total.symm
    exact List.countP_congr fun conn hMem => by
      rw [Connection.holdsGlobal, Connection.holdsIp,
        (holds_of_isSettled hSettled hMem).1,
        (holds_of_isSettled hSettled hMem).2]
  · intro i hEnabled
    rcases hEnabled with ⟨conn, hGet, hPc⟩
    exact hInv.global_pos hGet (by rw [hPc]; rfl)
  · intro i conn hEnabled hGet
    rcases hEnabled with ⟨conn', hGet', hPc⟩
    obtain rfl : conn = conn' :=
      Option.some.inj (hGet.symm.trans hGet')
    have hPos := hInv.perIp_pos hGet (by rw [hPc]; rfl)
    refine ⟨s.sessionsFrom conn.peerIp - 1, ?_⟩
    rw [Tally.lookup_of_get_pos hPos]
    simp only [sessionsFrom] at hPos ⊢
    congr 1
    omega
  · intro hAll
    constructor
    · rw [hInv.global]
      exact List.countP_eq_zero.mpr fun conn hMem => by
        simp [(hAll conn hMem).1]
    · apply Tally.eq_empty_of_total hInv.noZero
      rw [hInv.total]
      exact List.countP_eq_zero.mpr fun conn hMem => by
        simp [(hAll conn hMem).2]

------------------------------------------------------------
-- Connections On Their Way To A Seat
------------------------------------------------------------

end Server

namespace Connection

/- Its coroutine can still take the seats. -/
def isComing (conn : Connection) : Bool :=
  match conn.pc with
  | .handshaking => true
  | .releaseSlot => conn.session.isSome
  | .admitGlobal => true
  | _ => false

/- It holds a global seat or can still take one. -/
def booksGlobal (conn : Connection) : Bool :=
  conn.isComing || conn.pc.holdsGlobal

/- It holds a seat of its address or can still take one. -/
def booksIp (conn : Connection) : Bool :=
  conn.isComing || decide (conn.pc = .admitIp) ||
    conn.pc.holdsIp

def booksSeatOf
    (ip : StdString)
    (conn : Connection) : Bool :=
  decide (conn.endpoint.address = ip) && conn.booksIp

@[simp] theorem isComing_close (conn : Connection) :
    conn.close.isComing = conn.isComing := by
  unfold isComing
  rw [pc_close, session_isSome_close]

@[simp] theorem booksGlobal_close (conn : Connection) :
    conn.close.booksGlobal = conn.booksGlobal := by
  unfold booksGlobal
  rw [isComing_close, pc_close]

@[simp] theorem booksIp_close (conn : Connection) :
    conn.close.booksIp = conn.booksIp := by
  unfold booksIp
  rw [isComing_close, pc_close]

@[simp] theorem booksSeatOf_close
    (conn : Connection)
    (ip : StdString) :
    conn.close.booksSeatOf ip = conn.booksSeatOf ip := by
  unfold booksSeatOf
  rw [endpoint_close, booksIp_close]

theorem booksSeatOf_of_holdsSeatOf
    {ip : StdString}
    (hIp : ip ≠ [])
    {conn : Connection}
    (hHolds : conn.holdsSeatOf ip = true) :
    conn.booksSeatOf ip = true := by
  simp only [holdsSeatOf, Bool.and_eq_true,
    decide_eq_true_eq] at hHolds
  rcases hHolds with ⟨hHeld, hPeer⟩
  have hAddress := conn.address_eq_of_peerIp hIp hPeer
  simp [booksSeatOf, booksIp, hAddress, hHeld]

end Connection

namespace Server

/- Global seats that are held or can still be taken. -/
def globalBookings (s : Server) : Nat :=
  s.connections.countP Connection.booksGlobal

/- Seats of one address, held or still to be taken. -/
def ipBookings
    (s : Server)
    (ip : StdString) : Nat :=
  s.connections.countP (Connection.booksSeatOf ip)

/-
  The limits stay, and a connection is handed over only while
  there is a seat that nobody holds or is coming for.
-/
def HasRoom (s : Server) : ServerAction → Prop
  | .setServerLimits _ => False
  | .spawnHandshake endpoint =>
      s.globalBookings < s.limits.maxConcurrentSessions ∧
        s.ipBookings endpoint.address <
          s.limits.maxSessionsPerIp
  | _ => True

instance
    (s : Server)
    (a : ServerAction) : Decidable (s.HasRoom a) := by
  unfold HasRoom
  split <;> infer_instance

/- The session counters are within the limits. -/
def WithinCaps (s : Server) : Prop :=
  s.globalSessionCount ≤ s.limits.maxConcurrentSessions ∧
    ∀ endpoint : Endpoint,
      s.sessionsFrom endpoint.address ≤
        s.limits.maxSessionsPerIp

/- The bookings are within the limits. -/
structure BookingsInv (s : Server) : Prop where
  global :
    s.globalBookings ≤ s.limits.maxConcurrentSessions
  perIp :
    ∀ ip, s.ipBookings ip ≤ s.limits.maxSessionsPerIp

namespace BookingsInv

variable {s' : Server}
variable {i : Nat}

/- Bookings that a step does not raise. -/
theorem mono
    (hInv : BookingsInv s)
    (hLimits : s'.limits = s.limits)
    (hGlobal : s'.globalBookings ≤ s.globalBookings)
    (hPerIp : ∀ ip, s'.ipBookings ip ≤ s.ipBookings ip) :
    BookingsInv s' := by
  constructor
  · rw [hLimits]
    exact hGlobal.trans hInv.global
  · intro ip
    rw [hLimits]
    exact (hPerIp ip).trans (hInv.perIp ip)

theorem congr
    (hInv : BookingsInv s)
    (hLimits : s'.limits = s.limits)
    (hConnections : s'.connections = s.connections) :
    BookingsInv s' := by
  apply hInv.mono hLimits
  · rw [globalBookings, hConnections]
    exact Nat.le_refl _
  · intro ip
    rw [ipBookings, hConnections]
    exact Nat.le_refl _

/- A connection moves on and books no more than before. -/
theorem move
    (hInv : BookingsInv s)
    {f : Connection → Connection}
    (hLimits : s'.limits = s.limits)
    (hConnections : s'.connections = s.connections.modify i f)
    (hBooks :
      ∀ conn, s.connections[i]? = some conn →
        (f conn).endpoint = conn.endpoint ∧
          ((f conn).booksGlobal = true →
            conn.booksGlobal = true) ∧
          ((f conn).booksIp = true → conn.booksIp = true)) :
    BookingsInv s' := by
  apply hInv.mono hLimits
  · rw [globalBookings, hConnections]
    apply Records.countP_modify_le
    exact fun conn hGet => (hBooks conn hGet).2.1
  · intro ip
    rw [ipBookings, hConnections]
    apply Records.countP_modify_le
    intro conn hGet
    simp only [Connection.booksSeatOf, Bool.and_eq_true,
      (hBooks conn hGet).1]
    exact fun h => ⟨h.1, (hBooks conn hGet).2.2 h.2⟩

/- As `move`, for a connection that only changes its pc. -/
theorem goTo
    (hInv : BookingsInv s)
    {pc pc' : ConnectionPc}
    (hAt : s.At i pc)
    (hLimits : s'.limits = s.limits)
    (hConnections : s'.connections = s.goTo i pc')
    (hBooks :
      ∀ conn : Connection, conn.pc = pc →
        ((conn.goTo pc').booksGlobal = true →
            conn.booksGlobal = true) ∧
          ((conn.goTo pc').booksIp = true →
            conn.booksIp = true)) :
    BookingsInv s' := by
  refine hInv.move hLimits hConnections ?_
  intro conn hGet
  rcases hAt with ⟨conn', hGet', hPc⟩
  obtain rfl : conn = conn' :=
    Option.some.inj (hGet.symm.trans hGet')
  exact ⟨rfl, hBooks conn hPc⟩

/- A connection is handed over while there is room. -/
theorem spawn
    (hInv : BookingsInv s)
    (cfg : ServerConfig)
    {endpoint : Endpoint}
    (hRoom : s.HasRoom (.spawnHandshake endpoint)) :
    BookingsInv (s.update cfg (.spawnHandshake endpoint)) := by
  rcases hRoom with ⟨hGlobal, hIp⟩
  constructor
  · have hLe :
        (s.update cfg
          (.spawnHandshake endpoint)).globalBookings ≤
          s.globalBookings + 1 := by
      simp only [globalBookings, update, List.countP_append]
      exact Nat.add_le_add_left (List.countP_le_length) _
    exact hLe.trans hGlobal
  · intro ip
    simp only [ipBookings, update, List.countP_append]
    by_cases hSame : endpoint.address = ip
    · have hOne :
          [Connection.spawn endpoint].countP
            (Connection.booksSeatOf ip) ≤ 1 :=
        List.countP_le_length
      have hLess := hSame ▸ hIp
      simp only [ipBookings] at hLess
      omega
    · have hNone :
          [Connection.spawn endpoint].countP
            (Connection.booksSeatOf ip) = 0 := by
        simp [Connection.booksSeatOf, Connection.spawn, hSame]
      rw [hNone]
      exact hInv.perIp ip

theorem runTask (hInv : BookingsInv s) :
    BookingsInv s.runTask := by
  cases hStrand : s.strand with
  | nil =>
      simpa only [Server.runTask, hStrand] using hInv
  | cons task rest =>
      cases task with
      | closeAll =>
          simp only [Server.runTask, hStrand]
          refine hInv.mono rfl ?_ fun ip => ?_
          · apply Nat.le_of_eq
            apply SeatsInv.closeSessions
            exact Connection.booksGlobal_close
          · apply Nat.le_of_eq
            apply SeatsInv.closeSessions
            exact fun conn => conn.booksSeatOf_close ip
      | _ =>
          simp only [Server.runTask, hStrand]
          exact hInv.congr rfl rfl

end BookingsInv

/- The bookings stay within the limits while there is room. -/
theorem bookingsInv (hReach : ReachableBy cfg HasRoom s) :
    BookingsInv s := by
  refine invariant BookingsInv ?_ ?_ hReach
  · exact ⟨Nat.zero_le _, fun _ => Nat.zero_le _⟩
  · intro s a _ hInv hOk hEnabled
    cases a with
    | probeGlobal endpoint =>
        simp only [update]
        cases s.globalVerdict with
        | none => exact hInv.congr rfl rfl
        | some rejection => exact hInv.congr rfl rfl
    | checkHandshakes endpoint =>
        simp only [update]
        split
        · exact hInv.congr rfl rfl
        · exact hInv.congr rfl rfl
    | spawnHandshake endpoint => exact hInv.spawn cfg hOk
    | finishHandshake i result =>
        refine hInv.move rfl rfl ?_
        intro conn hGet
        rcases hEnabled.1 with ⟨conn', hGet', hPc⟩
        obtain rfl : conn = conn' :=
          Option.some.inj (hGet.symm.trans hGet')
        simp [Connection.booksGlobal, Connection.booksIp,
          Connection.isComing, hPc]
    | releaseSlot i =>
        refine hInv.move rfl rfl ?_
        intro conn hGet
        rcases hEnabled with ⟨conn', hGet', hPc⟩
        obtain rfl : conn = conn' :=
          Option.some.inj (hGet.symm.trans hGet')
        cases hSession : conn.session <;>
          simp [Connection.booksGlobal, Connection.booksIp,
            Connection.isComing, hPc, afterSlot, hSession,
            ConnectionPc.holdsGlobal, ConnectionPc.holdsIp]
    | closeSession i =>
        refine hInv.move rfl rfl ?_
        intro conn _
        simp
    | complete i =>
        refine hInv.goTo hEnabled.1 rfl rfl fun conn hPc => ?_
        simp [Connection.booksGlobal, Connection.booksIp, hPc,
          ConnectionPc.holdsGlobal, ConnectionPc.holdsIp]
    | runTask => exact hInv.runTask
    | setServerLimits limits => exact hOk.elim
    | accept endpoint readable => exact hInv.congr rfl rfl
    | probeIp endpoint now => exact hInv.congr rfl rfl
    | startQuery => exact hInv.congr rfl rfl
    | closeAllSessions => exact hInv.congr rfl rfl
    | _ =>
        refine hInv.goTo hEnabled rfl rfl fun conn hPc => ?_
        simp [Connection.booksGlobal, Connection.booksIp,
          Connection.isComing, hPc, ConnectionPc.holdsGlobal,
          ConnectionPc.holdsIp]

/- The counters stay within the limits while there is room. -/
theorem withinCaps
    (cfg : ServerConfig)
    (s : Server)
    (hReach : ReachableBy cfg HasRoom s) :
    s.WithinCaps := by
  have hSeats := seatsInv hReach
  have hBookings := bookingsInv hReach
  constructor
  · rw [hSeats.global]
    refine Nat.le_trans ?_ hBookings.global
    apply List.countP_mono_left
    intro conn _ hHolds
    simp only [Connection.holdsGlobal] at hHolds
    simp [Connection.booksGlobal, hHolds]
  · intro endpoint
    rw [hSeats.perIp]
    refine Nat.le_trans ?_ (hBookings.perIp endpoint.address)
    apply List.countP_mono_left
    intro conn _ hHolds
    exact conn.booksSeatOf_of_holdsSeatOf
      endpoint.address_ne_nil hHolds

------------------------------------------------------------
-- Two Peers, One Seat
------------------------------------------------------------

/- A server with one seat, and one for each address. -/
def oneSeat : ServerConfig where
  limits :=
    { maxConcurrentSessions := 1, maxSessionsPerIp := 1 }

/- A peer at 10.0.0.7. -/
def somePeer (port : UInt16) : Endpoint where
  address := [49, 48, 46, 48, 46, 48, 46, 55]
  address_ne_nil := by decide
  port := port

/- A peer passes the filter and is handed over. -/
def handOver
    (port : UInt16)
    (now : Int) : List ServerAction :=
  [.accept (somePeer port) true,
    .probeGlobal (somePeer port),
    .probeIp (somePeer port) now,
    .checkHandshakes (somePeer port),
    .spawnHandshake (somePeer port)]

/- Its handshake succeeds and its session is seated. -/
def seat
    (i : Nat)
    (token : UInt64) : List ServerAction :=
  [.finishHandshake i (.session true [] token),
    .releaseSlot i,
    .admitGlobal i,
    .admitIp i]

/- With one connection after the other there is room. -/
theorem withinCaps_oneSeat :
    ∃ s : Server, ReachableBy oneSeat HasRoom s ∧
      s.globalSessionCount = 1 ∧ s.WithinCaps := by
  rcases Transition.exists_of_runBy (step oneSeat) HasRoom
      (start oneSeat) (handOver 1000 1 ++ seat 0 4096)
      (fun s => decide (s.globalSessionCount = 1))
      (by decide +kernel) with
    ⟨s, hReach, hRun⟩
  exact ⟨s, hReach, of_decide_eq_true hRun,
    withinCaps oneSeat s hReach⟩

/- The same connection is accounted for. -/
theorem accounted_oneSeat :
    ∃ s : Server, Reachable oneSeat s ∧
      s.globalSessionCount = 1 ∧ s.Accounted := by
  rcases Transition.exists_of_run (step oneSeat)
      (start oneSeat) (handOver 1000 1 ++ seat 0 4096)
      (fun s => decide (s.globalSessionCount = 1))
      (by decide +kernel) with
    ⟨s, hReach, hRun⟩
  exact ⟨s, hReach, of_decide_eq_true hRun,
    accounted oneSeat s hReach⟩

/- Nobody calls `set_server_limits`. -/
def keepsLimits : ServerAction → Bool
  | .setServerLimits _ => false
  | _ => true

def KeepsLimits
    (_ : Server)
    (a : ServerAction) : Prop :=
  keepsLimits a = true

instance
    (s : Server)
    (a : ServerAction) : Decidable (s.KeepsLimits a) :=
  inferInstanceAs (Decidable (_ = true))

/-
  Two peers pass the filter before the handshake of either
  has ended, and both are seated: the counters pass limits
  that nobody changed.
-/
theorem caps_exceeded :
    ∃ s : Server, ReachableBy oneSeat KeepsLimits s ∧
      s.limits.maxConcurrentSessions <
          s.globalSessionCount ∧
        s.limits.maxSessionsPerIp <
          s.sessionsFrom (somePeer 1000).address ∧
        ¬ s.WithinCaps := by
  obtain ⟨s, hReach, hRun⟩ :=
    Transition.exists_of_runBy (step oneSeat)
      KeepsLimits (start oneSeat)
      (handOver 1000 1 ++ handOver 2000 2 ++
        (seat 0 4096 ++ seat 1 8192))
      (fun s =>
        decide
          (s.limits.maxConcurrentSessions <
              s.globalSessionCount ∧
            s.limits.maxSessionsPerIp <
              s.sessionsFrom (somePeer 1000).address))
      (by decide +kernel)
  rcases of_decide_eq_true hRun with ⟨hGlobal, hIp⟩
  refine ⟨s, hReach, hGlobal, hIp, fun hCaps => ?_⟩
  exact Nat.not_lt_of_le hCaps.1 hGlobal

end Server

end GrlxRpc
