import GrlxRpc.Server.Admission
import GrlxRpc.Server.Connections
import GrlxRpc.Lib.Observed

/-
  The pre-handshake filter over whole histories.

  For each address the filter keeps a count and a bucket. An
  abstract machine of one address knows the events of that
  address only, and the server's maps are many such machines
  side by side: no address sees what another does.

  A bucket copies its capacity and refill rate from the
  limits in force when it is seeded, and keeps the copy.

  Main declarations:
    * `AddressState`, `AddressEvent` and their steps
    * `Server.view_update`
    * `Server.isolated`
    * `Server.seededBy` and `Server.seedInv`
    * `Server.Enforces` and `Server.enforces_iff`
    * `Server.stale_bucket`
-/

------------------------------------------------------------
-- One Address
------------------------------------------------------------

namespace GrlxRpc

/- What is kept of one address: its two map entries. -/
@[ext]
structure AddressState where
  count : Option Nat := none
  bucket : Option TokenBucket := none
  deriving DecidableEq

/-
  What happens to one address: an attempt that comes to the
  per-address checks, and a session counted or released.
-/
inductive AddressEvent
  | attempt (now : Int) (limits : ServerLimits)
  | admitted
  | released
  deriving DecidableEq

namespace AddressState

def capReached
    (x : AddressState)
    (limits : ServerLimits) : Bool :=
  x.count.any fun count => limits.maxSessionsPerIp ≤ count

/- The bucket that an attempt asks. -/
def asked
    (x : AddressState)
    (limits : ServerLimits) : TokenBucket :=
  if (x.bucket.getD {}).capacity = 0 then
    { x.bucket.getD {} with
      capacity := limits.acceptBurstPerIp
      refillPerSec := limits.acceptRefillPerIpPerS }
  else
    x.bucket.getD {}

/- The answer to an attempt from address `ip`. -/
def verdict
    (x : AddressState)
    (ip : StdString)
    (now : Int)
    (limits : ServerLimits) : Option Rejection :=
  if x.capReached limits then
    some (.perIpCap ip)
  else if ((x.asked limits).tryTake now).2 then
    none
  else
    some (.acceptRate ip)

def answer
    (x : AddressState)
    (ip : StdString) :
    AddressEvent → Option (Option Rejection)
  | .attempt now limits => some (x.verdict ip now limits)
  | .admitted => none
  | .released => none

def next (x : AddressState) : AddressEvent → AddressState
  | .attempt now limits =>
      if x.capReached limits then
        x
      else
        { x with
          bucket := some ((x.asked limits).tryTake now).1 }
  | .admitted =>
      { x with count := some (x.count.getD 0 + 1) }
  | .released =>
      { x with
        count :=
          x.count.bind fun count =>
            if Server.fetchSub count = 0 then none
            else some (Server.fetchSub count) }

/- The answers to the attempts among these events. -/
def answers
    (ip : StdString) :
    AddressState → List AddressEvent →
      List (Option Rejection)
  | _, [] => []
  | x, event :: rest =>
      (x.answer ip event).toList ++ answers ip (x.next event) rest

theorem answers_append
    (ip : StdString)
    (x : AddressState)
    (events more : List AddressEvent) :
    answers ip x (events ++ more) =
      answers ip x events ++
        answers ip (events.foldl next x) more := by
  induction events generalizing x with
  | nil => rfl
  | cons event rest ih =>
      rw [List.cons_append, answers, ih, answers,
        List.foldl_cons, List.append_assoc]

/- An address is never refused by the global count here. -/
theorem verdict_ne_globalCap
    (x : AddressState)
    (ip : StdString)
    (now : Int)
    (limits : ServerLimits) :
    x.verdict ip now limits ≠ some .globalCap := by
  unfold verdict
  split
  · simp
  · split <;> simp

end AddressState

/- A refusal for a count of sessions. -/
def Rejection.isCap : Rejection → Bool
  | globalCap => true
  | perIpCap _ => true
  | acceptRate _ => false

------------------------------------------------------------
-- The Server Is Made Of Addresses
------------------------------------------------------------

namespace Server

/- What the server keeps of address `ip`. -/
def view
    (s : Server)
    (ip : StdString) : AddressState where
  count := s.perIpCount.lookup ip
  bucket := s.perIpAcceptBucket.lookup ip

/- What a step does to address `ip`. -/
def addressEvent
    (ip : StdString)
    (s : Server) : ServerAction → Option AddressEvent
  | .probeIp endpoint now =>
      if endpoint.address = ip then
        some (.attempt now s.limits)
      else
        none
  | .admitIp i =>
      if s.connections[i]?.any (·.peerIp = ip) then
        some .admitted
      else
        none
  | .releaseIp i =>
      if s.connections[i]?.any (·.peerIp = ip) then
        some .released
      else
        none
  | _ => none

variable {cfg : ServerConfig}
variable {s : Server}
variable {a : ServerAction}
variable {ip : StdString}

theorem ipVerdict_eq
    (s : Server)
    (ip : StdString)
    (now : Int) :
    s.ipVerdict ip now =
      (s.view ip).verdict ip now s.limits := rfl

theorem bucketsAfter_eq
    (s : Server)
    (ip : StdString)
    (now : Int) :
    (s.bucketsAfter ip now).lookup ip =
      ((s.view ip).next (.attempt now s.limits)).bucket := by
  have hCap :
      (s.view ip).capReached s.limits = s.ipCapReached ip :=
    rfl
  simp only [bucketsAfter, AddressState.next, hCap]
  split
  · rfl
  · rw [AList.lookup_insert]
    rfl

theorem bucketsAfter_ne
    (s : Server)
    {other : StdString}
    (hNe : other ≠ ip)
    (now : Int) :
    (s.bucketsAfter ip now).lookup other =
      s.perIpAcceptBucket.lookup other := by
  unfold bucketsAfter
  split
  · rfl
  · exact AList.lookup_insert_ne hNe

theorem admitIp_eq
    (s : Server)
    (ip : StdString) :
    (s.admitIp ip).lookup ip =
      ((s.view ip).next .admitted).count := by
  rw [admitIp, AList.lookup_insert]
  rfl

theorem releaseIp_eq
    (s : Server)
    (ip : StdString) :
    (s.releaseIp ip).lookup ip =
      ((s.view ip).next .released).count := by
  simp only [releaseIp, AddressState.next, view]
  cases hLookup : s.perIpCount.lookup ip with
  | none => exact hLookup
  | some count =>
      simp only [Option.bind_some]
      split
      · exact AList.lookup_erase ip s.perIpCount
      · exact AList.lookup_insert s.perIpCount

theorem releaseIp_ne
    (s : Server)
    {other : StdString}
    (hNe : other ≠ ip) :
    (s.releaseIp ip).lookup other =
      s.perIpCount.lookup other := by
  unfold releaseIp
  split
  · rfl
  · split
    · exact AList.lookup_erase_ne hNe
    · exact AList.lookup_insert_ne hNe

/- A step changes an address as its own machine would. -/
theorem view_update
    (cfg : ServerConfig)
    (s : Server)
    (a : ServerAction)
    (ip : StdString) :
    (s.update cfg a).view ip =
      (addressEvent ip s a).toList.foldl AddressState.next
        (s.view ip) := by
  cases a with
  | probeIp endpoint now =>
      simp only [addressEvent]
      split
      · case isTrue hSame =>
          subst hSame
          simp only [Option.toList_some, List.foldl_cons,
            List.foldl_nil]
          have hBucket := bucketsAfter_eq s endpoint.address now
          have hCount :
              ((s.view endpoint.address).next
                (.attempt now s.limits)).count =
                s.perIpCount.lookup endpoint.address := by
            simp only [AddressState.next]
            split <;> rfl
          exact AddressState.ext hCount.symm hBucket
      · case isFalse hNe =>
          simp only [view, update]
          rw [bucketsAfter_ne s (Ne.symm hNe)]
          rfl
  | admitIp i =>
      cases hGet : s.connections[i]? with
      | none =>
          simp [view, update, addressEvent, hGet]
      | some conn =>
          by_cases hSame : conn.peerIp = ip
          · subst hSame
            have hCount := admitIp_eq s conn.peerIp
            simp only [update, addressEvent, hGet,
              Option.elim_some, Option.any_some,
              decide_true, if_true, Option.toList_some,
              List.foldl_cons, List.foldl_nil]
            exact AddressState.ext hCount rfl
          · have hOther :
                (s.admitIp conn.peerIp).lookup ip =
                  s.perIpCount.lookup ip :=
              AList.lookup_insert_ne (Ne.symm hSame)
            simp [view, update, addressEvent, hGet, hSame,
              hOther]
  | releaseIp i =>
      cases hGet : s.connections[i]? with
      | none =>
          simp [view, update, addressEvent, hGet]
      | some conn =>
          by_cases hSame : conn.peerIp = ip
          · subst hSame
            have hCount := releaseIp_eq s conn.peerIp
            simp only [update, addressEvent, hGet,
              Option.elim_some, Option.any_some,
              decide_true, if_true, Option.toList_some,
              List.foldl_cons, List.foldl_nil]
            exact AddressState.ext hCount rfl
          · have hOther := releaseIp_ne s (Ne.symm hSame)
            simp [view, update, addressEvent, hGet, hSame,
              hOther]
  | probeGlobal endpoint =>
      simp only [update]
      split <;> rfl
  | checkHandshakes endpoint =>
      simp only [update]
      split <;> rfl
  | runTask =>
      simp only [update, runTask]
      split <;> rfl
  | _ => rfl

------------------------------------------------------------
-- No Address Spends Another's Budget
------------------------------------------------------------

/- What the filter decided for address `ip`, in order. -/
def decisions
    (ip : StdString)
    (log : List ServerEvent) : List (Option Rejection) :=
  log.filterMap fun
    | .filtered ip' verdict =>
        if ip' = ip then some verdict else none
    | _ => none

/- The decisions that the per-address checks made. -/
def ipDecisions
    (ip : StdString)
    (log : List ServerEvent) : List (Option Rejection) :=
  (decisions ip log).filter (· ≠ some .globalCap)

theorem ipDecisions_append
    (ip : StdString)
    (log more : List ServerEvent) :
    ipDecisions ip (log ++ more) =
      ipDecisions ip log ++ ipDecisions ip more := by
  rw [ipDecisions, decisions, List.filterMap_append,
    List.filter_append]
  rfl

/- A step decides for an address what its machine answers. -/
theorem ipDecisions_logged
    (cfg : ServerConfig)
    (s : Server)
    (a : ServerAction)
    (ip : StdString) :
    ipDecisions ip (logged cfg s a).toList =
      AddressState.answers ip (s.view ip)
        (addressEvent ip s a).toList := by
  cases a with
  | probeIp endpoint now =>
      by_cases hSame : endpoint.address = ip
      · subst hSame
        have hNe :=
          (s.view endpoint.address).verdict_ne_globalCap
            endpoint.address now s.limits
        simp [logged, addressEvent, ipDecisions, decisions,
          AddressState.answers, AddressState.answer,
          ipVerdict_eq, hNe]
      · simp [logged, addressEvent, ipDecisions, decisions,
          AddressState.answers, hSame]
  | probeGlobal endpoint =>
      simp only [logged, addressEvent, globalVerdict]
      split <;>
        by_cases hSame : endpoint.address = ip <;>
          simp [ipDecisions, decisions, AddressState.answers,
            hSame]
  | checkHandshakes endpoint =>
      simp only [logged, addressEvent]
      split <;> rfl
  | openHook i =>
      simp only [logged, addressEvent]
      cases s.hookInfo cfg.onSessionOpen i <;> rfl
  | closeHook i =>
      simp only [logged, addressEvent]
      cases s.hookInfo cfg.onSessionClose i <;> rfl
  | runTask =>
      simp only [logged, addressEvent]
      cases s.strand with
      | nil => rfl
      | cons task rest => cases task <;> rfl
  | admitIp i | releaseIp i =>
      simp only [logged, addressEvent]
      split <;>
        simp [ipDecisions, decisions, AddressState.answers,
          AddressState.answer]
  | _ => rfl

/- Servers of any run with the events of address `ip`. -/
abbrev Followed
    (cfg : ServerConfig)
    (ip : StdString)
    (s : Server)
    (history : List AddressEvent) : Prop :=
  Transition.Reachable
    (Transition.observed (step cfg) (addressEvent ip))
    (start cfg, []) (s, history)

/- The server does with an address what its machine does. -/
structure AddressInv
    (ip : StdString)
    (s : Server)
    (history : List AddressEvent) : Prop where
  view :
    s.view ip = history.foldl AddressState.next {}
  answers :
    ipDecisions ip s.log =
      AddressState.answers ip {} history

theorem addressInv
    {history : List AddressEvent}
    (hReach : Followed cfg ip s history) :
    AddressInv ip s history := by
  refine Transition.observedInvariant (AddressInv ip)
    ⟨rfl, rfl⟩ ?_ hReach
  intro s history a s' _ hInv _ hStep
  rcases (step_eq_some_iff cfg s s' a).mp hStep with
    ⟨_, rfl⟩
  constructor
  case view =>
    rw [view_update, hInv.view, List.foldl_append]
  case answers =>
    rw [log_update, ipDecisions_append,
      AddressState.answers_append, hInv.answers,
      ipDecisions_logged, hInv.view]

/- Without the global cap the machine decides all. -/
theorem decisions_eq
    {history : List AddressEvent}
    (hReach : Followed cfg ip s history)
    (hRoom : some .globalCap ∉ decisions ip s.log) :
    decisions ip s.log =
      AddressState.answers ip {} history := by
  rw [← (addressInv hReach).answers, ipDecisions,
    List.filter_eq_self.mpr]
  intro verdict hMem
  apply decide_eq_true
  rintro rfl
  exact hRoom hMem

/- An attempt that a cap refuses writes to no map. -/
theorem maps_eq_of_isCap
    {rejection : Rejection}
    (hLog :
      (s.update cfg a).log =
        s.log ++ [.filtered ip (some rejection)])
    (hCap : rejection.isCap = true) :
    (s.update cfg a).perIpCount = s.perIpCount ∧
      (s.update cfg a).perIpAcceptBucket =
        s.perIpAcceptBucket := by
  rw [log_update] at hLog
  have hLogged :
      (logged cfg s a).toList =
        [.filtered ip (some rejection)] :=
    List.append_cancel_left hLog
  cases a with
  | probeGlobal endpoint =>
      simp only [update]
      split <;> exact ⟨rfl, rfl⟩
  | probeIp endpoint now =>
      refine ⟨rfl, ?_⟩
      simp only [logged, Option.toList_some,
        List.cons.injEq, ServerEvent.filtered.injEq,
        and_true] at hLogged
      have hVerdict := hLogged.2
      simp only [update, bucketsAfter]
      split
      · rfl
      · case isFalse hBelow =>
          -- the only other refusal is for the rate
          rw [ipVerdict, if_neg hBelow] at hVerdict
          split at hVerdict
          · cases hVerdict
          · cases hVerdict
            cases hCap
  | checkHandshakes endpoint =>
      simp only [update]
      split <;> exact ⟨rfl, rfl⟩
  | openHook i | closeHook i => exact ⟨rfl, rfl⟩
  | runTask =>
      simp only [update, runTask]
      split <;> exact ⟨rfl, rfl⟩
  | _ => simp [logged] at hLogged

/-
  Two runs that agree on the events of an address decide
  alike for it, if neither refused it for the global count.
  An attempt that a cap refuses leaves every address as it is.
-/
theorem isolated (ip : StdString) :
    (∀ (cfg cfg' : ServerConfig) (s s' : Server)
        (history : List AddressEvent),
      Followed cfg ip s history →
      Followed cfg' ip s' history →
      some .globalCap ∉ decisions ip s.log →
      some .globalCap ∉ decisions ip s'.log →
      decisions ip s.log = decisions ip s'.log) ∧
    ∀ (cfg : ServerConfig) (s s' : Server)
        (a : ServerAction) (rejection : Rejection),
      step cfg s a = some s' →
      s'.log = s.log ++ [.filtered ip (some rejection)] →
      rejection.isCap = true →
      s'.perIpCount = s.perIpCount ∧
        s'.perIpAcceptBucket = s.perIpAcceptBucket := by
  constructor
  · intro cfg cfg' s s' history hReach hReach' hRoom hRoom'
    rw [decisions_eq hReach hRoom,
      decisions_eq hReach' hRoom']
  · intro cfg s s' a rejection hStep hLog hCap
    rcases (step_eq_some_iff cfg s s' a).mp hStep with
      ⟨_, rfl⟩
    exact maps_eq_of_isCap hLog hCap

/- A peer at 10.0.0.9. -/
def otherPeer : Endpoint where
  address := [49, 48, 46, 48, 46, 48, 46, 57]
  address_ne_nil := by decide
  port := 4000

/- It comes through the filter, and its handshake starts. -/
def handOverOther : List ServerAction :=
  [.accept otherPeer true, .probeGlobal otherPeer,
    .probeIp otherPeer 1, .checkHandshakes otherPeer,
    .spawnHandshake otherPeer]

/- One session from 10.0.0.7 and a second attempt. -/
def seenTwice : List AddressEvent :=
  [.attempt 1 {}, .admitted, .attempt 2 {}]

/- Another address connects between two attempts of one. -/
theorem isolated_twoPeers :
    (∃ s s' : Server, s.log.length < s'.log.length ∧
      decisions (somePeer 1000).address s'.log =
        [none, none] ∧
      decisions (somePeer 1000).address s.log =
        decisions (somePeer 1000).address s'.log) ∧
    ∃ s s' : Server,
      s'.log = s.log ++
        [.filtered (somePeer 2000).address
          (some (.perIpCap (somePeer 2000).address))] ∧
      s'.perIpCount = s.perIpCount ∧
        s'.perIpAcceptBucket = s.perIpAcceptBucket := by
  constructor
  · obtain ⟨⟨s, history⟩, hReach, hRun⟩ :=
      Transition.exists_of_run
        (Transition.observed (step {})
          (addressEvent (somePeer 1000).address))
        (start {}, [])
        (handOver 1000 1 ++ seat 0 4096 ++ handOver 2000 2)
        (fun x =>
          decide (x.2 = seenTwice ∧
            decisions (somePeer 1000).address x.1.log =
              [none, none] ∧
            x.1.log.length = 2))
        (by decide +kernel)
    obtain ⟨⟨s', history'⟩, hReach', hRun'⟩ :=
      Transition.exists_of_run
        (Transition.observed (step {})
          (addressEvent (somePeer 1000).address))
        (start {}, [])
        (handOver 1000 1 ++ seat 0 4096 ++ handOverOther ++
          handOver 2000 2)
        (fun x =>
          decide (x.2 = seenTwice ∧
            decisions (somePeer 1000).address x.1.log =
              [none, none] ∧
            x.1.log.length = 3))
        (by decide +kernel)
    rcases of_decide_eq_true hRun with
      ⟨rfl, hDecisions, hLength⟩
    rcases of_decide_eq_true hRun' with
      ⟨rfl, hDecisions', hLength'⟩
    simp only at hDecisions hLength hDecisions' hLength'
    refine ⟨s, s', by omega, hDecisions', ?_⟩
    refine (isolated (somePeer 1000).address).1 {} {} s s'
      seenTwice hReach hReach' ?_ ?_
    · simp [hDecisions]
    · simp [hDecisions']
  · obtain ⟨s, _, hRun⟩ :=
      Transition.exists_of_run (step {})
        (start { limits := { maxSessionsPerIp := 1 } })
        (handOver 1000 1 ++ seat 0 4096 ++
          (handOver 2000 2).take 2)
        (fun s =>
          decide
            ((step {} s (.probeIp (somePeer 2000) 2)).map
                (·.log) =
              some (s.log ++
                [.filtered (somePeer 2000).address
                  (some
                    (.perIpCap
                      (somePeer 2000).address))])))
        (by decide +kernel)
    rcases Option.map_eq_some_iff.mp
        (of_decide_eq_true hRun) with
      ⟨s', hStep, hLog⟩
    exact ⟨s, s', hLog,
      (isolated (somePeer 2000).address).2 {} s s' _ _ hStep
        hLog rfl⟩

------------------------------------------------------------
-- Which Limits A Bucket Has
------------------------------------------------------------

end Server

/- The capacity and the refill rate of its buckets. -/
def ServerLimits.rate (limits : ServerLimits) : Rat × Rat :=
  (limits.acceptBurstPerIp, limits.acceptRefillPerIpPerS)

def TokenBucket.rate (bucket : TokenBucket) : Rat × Rat :=
  (bucket.capacity, bucket.refillPerSec)

@[simp] theorem TokenBucket.rate_tryTake
    (bucket : TokenBucket)
    (now : Int) :
    (bucket.tryTake now).1.rate = bucket.rate := by
  have hRefill : (bucket.refill now).rate = bucket.rate := by
    unfold refill
    split <;> rfl
  simp only [tryTake]
  split
  · exact hRefill
  · split <;> exact hRefill

namespace AddressState

variable {x : AddressState}

theorem rate_asked
    (x : AddressState)
    (limits : ServerLimits) :
    (x.asked limits).rate =
      if (x.bucket.getD {}).capacity = 0 then limits.rate
      else (x.bucket.getD {}).rate := by
  unfold asked
  split <;> rfl

/- An attempt under `seen` seeds a bucket, or none yet. -/
theorem rate_asked_next
    {now : Int}
    {seen : ServerLimits}
    (hBelow : x.capReached seen = false)
    (limits : ServerLimits) :
    ((x.next (.attempt now seen)).asked limits).rate =
      (x.asked
        (if seen.acceptBurstPerIp ≠ 0 then seen
        else limits)).rate := by
  have hKept :
      (((x.next (.attempt now seen)).bucket.getD {})).rate =
        (x.asked seen).rate := by
    simp [next, hBelow]
  have hCapacity :
      ((x.next (.attempt now seen)).bucket.getD {}).capacity =
        (x.asked seen).rate.1 :=
    congrArg Prod.fst hKept
  rw [rate_asked, hKept, hCapacity, rate_asked, rate_asked]
  by_cases hUnseeded : (x.bucket.getD {}).capacity = 0
  · simp only [hUnseeded, if_true]
    by_cases hZero : seen.acceptBurstPerIp = 0
    · simp [ServerLimits.rate, hZero]
    · simp [ServerLimits.rate, hZero]
  · simp [TokenBucket.rate, hUnseeded]

end AddressState

namespace Server

/- An address whose bucket is asked, and the limits then. -/
def consult
    (s : Server) :
    ServerAction → Option (StdString × ServerLimits)
  | .probeIp endpoint _ =>
      if s.ipCapReached endpoint.address then
        none
      else
        some (endpoint.address, s.limits)
  | _ => none

/-
  The limits under which the address first asked a bucket
  with a burst other than zero, otherwise those given.
-/
def seededBy
    (ip : StdString)
    (limits : ServerLimits) :
    List (StdString × ServerLimits) → ServerLimits
  | [] => limits
  | (address, seen) :: rest =>
      if address = ip ∧ seen.acceptBurstPerIp ≠ 0 then
        seen
      else
        seededBy ip limits rest

theorem seededBy_concat
    (ip address : StdString)
    (limits seen : ServerLimits)
    (history : List (StdString × ServerLimits)) :
    seededBy ip limits (history ++ [(address, seen)]) =
      seededBy ip
        (if address = ip ∧ seen.acceptBurstPerIp ≠ 0 then seen
        else limits)
        history := by
  induction history with
  | nil => rfl
  | cons first rest ih =>
      rcases first with ⟨address', seen'⟩
      simp only [List.cons_append, seededBy, ih]

/- Servers of any run with the buckets that were asked. -/
abbrev Consulted
    (cfg : ServerConfig)
    (s : Server)
    (history : List (StdString × ServerLimits)) : Prop :=
  Transition.Reachable
    (Transition.observed (step cfg) consult)
    (start cfg, []) (s, history)

/- A bucket keeps the rate it was seeded with. -/
theorem seedInv
    {history : List (StdString × ServerLimits)}
    (hReach : Consulted cfg s history) :
    ∀ ip limits,
      ((s.view ip).asked limits).rate =
        (seededBy ip limits history).rate := by
  refine Transition.observedInvariant
    (fun s history =>
      ∀ ip limits,
        ((s.view ip).asked limits).rate =
          (seededBy ip limits history).rate)
    (fun _ _ => rfl) ?_ hReach
  intro s history a s' _ hInv _ hStep ip limits
  rcases (step_eq_some_iff cfg s s' a).mp hStep with
    ⟨_, rfl⟩
  rw [view_update]
  cases a with
  | probeIp endpoint now =>
      by_cases hSame : endpoint.address = ip
      · subst hSame
        cases hCap : s.ipCapReached endpoint.address with
        | true =>
            have hReached :
                (s.view endpoint.address).capReached s.limits =
                  true := hCap
            simp [addressEvent, consult, hCap,
              AddressState.next, hReached, hInv]
        | false =>
            have hBelow :
                (s.view endpoint.address).capReached s.limits =
                  false := hCap
            simp only [addressEvent, consult, hCap, if_true,
              Bool.false_eq_true, if_false,
              Option.toList_some, List.foldl_cons,
              List.foldl_nil]
            rw [AddressState.rate_asked_next hBelow, hInv,
              seededBy_concat]
            simp only [true_and]
      · simp only [addressEvent, consult, hSame, if_false,
          Option.toList_none, List.foldl_nil]
        rw [hInv]
        split
        · simp
        · simp [seededBy_concat, hSame]
  | admitIp i =>
      simp only [addressEvent, consult, Option.toList_none,
        List.append_nil]
      rw [← hInv]
      split <;> rfl
  | releaseIp i =>
      simp only [addressEvent, consult, Option.toList_none,
        List.append_nil]
      rw [← hInv]
      split <;> rfl
  | _ =>
      simp only [addressEvent, consult, Option.toList_none,
        List.append_nil, List.foldl_nil]
      exact hInv ip limits

------------------------------------------------------------
-- Limits That Are In Force
------------------------------------------------------------

/-
  A bucket of these limits. Without capacity it grants every
  call, which is what a burst of zero or less asks for.
-/
def Meters
    (limits : ServerLimits)
    (bucket : TokenBucket) : Prop :=
  if limits.acceptBurstPerIp ≤ 0 then
    bucket.capacity ≤ 0
  else
    bucket.rate = limits.rate

/- What a decision for address `ip` owes the limits. -/
structure Enforces
    (s : Server)
    (ip : StdString)
    (now : Int) : Prop where
  global :
    s.globalVerdict = some .globalCap ↔
      s.limits.maxConcurrentSessions ≤ s.globalSessionCount
  perIp :
    s.ipVerdict ip now = some (.perIpCap ip) ↔
      s.limits.maxSessionsPerIp ≤ s.sessionsFrom ip
  metered :
    s.sessionsFrom ip < s.limits.maxSessionsPerIp →
      Meters s.limits (s.acceptBucket ip) ∧
        (s.ipVerdict ip now = none ↔
          ((s.acceptBucket ip).tryTake now).2 = true)

/- The limits of the bucket's seed meter as those in force. -/
def RateKept
    (s : Server)
    (ip : StdString)
    (history : List (StdString × ServerLimits)) : Prop :=
  (seededBy ip s.limits history).rate = s.limits.rate ∨
    (seededBy ip s.limits history).acceptBurstPerIp ≤ 0 ∧
      s.limits.acceptBurstPerIp ≤ 0

instance
    (s : Server)
    (ip : StdString)
    (history : List (StdString × ServerLimits)) :
    Decidable (s.RateKept ip history) :=
  inferInstanceAs (Decidable (_ ∨ _))

theorem ipVerdict_eq_perIpCap
    (s : Server)
    (ip : StdString)
    (now : Int) :
    s.ipVerdict ip now = some (.perIpCap ip) ↔
      s.ipCapReached ip = true := by
  unfold ipVerdict
  split
  · case isTrue hCap => simp [hCap]
  · case isFalse hBelow =>
      simp only [hBelow]
      split <;> simp

/- Where the map has an entry its count is the seats. -/
theorem ipCapReached_iff
    (hSeats : SeatsInv s) :
    s.ipCapReached ip = true ↔
      0 < s.sessionsFrom ip ∧
        s.limits.maxSessionsPerIp ≤ s.sessionsFrom ip := by
  unfold ipCapReached sessionsFrom
  cases hLookup : s.perIpCount.lookup ip with
  | none => simp [Tally.get, hLookup]
  | some count =>
      have hNe : count ≠ 0 := by
        rintro rfl
        exact hSeats.noZero ip hLookup
      simp [Tally.get, hLookup, Nat.pos_iff_ne_zero, hNe]

theorem meters_iff
    {history : List (StdString × ServerLimits)}
    (hReach : Consulted cfg s history) :
    Meters s.limits (s.acceptBucket ip) ↔
      s.RateKept ip history := by
  have hRate :
      (s.acceptBucket ip).rate =
        (seededBy ip s.limits history).rate :=
    seedInv hReach ip s.limits
  have hCapacity :
      (s.acceptBucket ip).capacity =
        (seededBy ip s.limits history).acceptBurstPerIp :=
    congrArg Prod.fst hRate
  rw [Meters, RateKept, hRate, hCapacity]
  split
  · case isTrue hNone =>
      constructor
      · exact fun hSeeded => .inr ⟨hSeeded, hNone⟩
      · rintro (hSame | ⟨hSeeded, _⟩)
        · have hBurst :
              (seededBy ip s.limits
                history).acceptBurstPerIp =
                s.limits.acceptBurstPerIp :=
            congrArg Prod.fst hSame
          rw [hBurst]
          exact hNone
        · exact hSeeded
  · case isFalse hSome =>
      constructor
      · exact .inl
      · rintro (hSame | ⟨_, hNone⟩)
        · exact hSame
        · exact absurd hNone hSome

/-
  A decision enforces the limits in force if and only if the
  cap for an address is not zero or the address has a
  session, and below the cap the bucket was seeded under
  limits that meter as these do.
-/
theorem enforces_iff
    (cfg : ServerConfig)
    (s : Server)
    (history : List (StdString × ServerLimits))
    (ip : StdString)
    (now : Int)
    (hReach : Consulted cfg s history) :
    Enforces s ip now ↔
      (0 < s.limits.maxSessionsPerIp ∨
        0 < s.sessionsFrom ip) ∧
      (s.sessionsFrom ip < s.limits.maxSessionsPerIp →
        s.RateKept ip history) := by
  have hSeats : SeatsInv s :=
    seatsInv (Transition.reachable_of_observed hReach)
  have hCap :
      s.ipCapReached ip = true ↔
        0 < s.sessionsFrom ip ∧
          s.limits.maxSessionsPerIp ≤ s.sessionsFrom ip :=
    ipCapReached_iff hSeats
  constructor
  · rintro ⟨_, hPerIp, hMetered⟩
    constructor
    · rw [ipVerdict_eq_perIpCap, hCap] at hPerIp
      omega
    · intro hBelow
      exact (meters_iff hReach).mp (hMetered hBelow).1
  · rintro ⟨hCounts, hKept⟩
    constructor
    case global => simp [globalVerdict]
    case perIp =>
      rw [ipVerdict_eq_perIpCap, hCap]
      omega
    case metered =>
      intro hBelow
      refine ⟨(meters_iff hReach).mpr (hKept hBelow), ?_⟩
      have hOpen : ¬ s.ipCapReached ip = true := by
        rw [hCap]
        omega
      rw [ipVerdict, if_neg hOpen]
      split
      · case isTrue hGranted => simp [hGranted]
      · case isFalse hRefused => simp [hRefused]

/- One attempt a peer, and no more for a while. -/
def burstOfOne : ServerLimits where
  acceptBurstPerIp := 1
  acceptRefillPerIpPerS := 0

/- An address that is first seen under the new limits. -/
theorem enforces_newAddress :
    ∃ (s : Server)
      (history : List (StdString × ServerLimits)),
      Consulted {} s history ∧
        s.limits = burstOfOne ∧
        Enforces s otherPeer.address 2 := by
  obtain ⟨⟨s, history⟩, hReach, hRun⟩ :=
    Transition.exists_of_run
      (Transition.observed (step {}) consult) (start {}, [])
      (handOver 1000 1 ++ [.setServerLimits burstOfOne])
      (fun x =>
        decide (x.1.limits = burstOfOne ∧
          0 < x.1.limits.maxSessionsPerIp ∧
          x.1.RateKept otherPeer.address x.2))
      (by decide +kernel)
  rcases of_decide_eq_true hRun with
    ⟨hLimits, hCap, hKept⟩
  exact ⟨s, history, hReach, hLimits,
    (enforces_iff {} s history otherPeer.address 2 hReach).mpr
      ⟨.inl hCap, fun _ => hKept⟩⟩

/-
  An address that connected under a burst of twenty is still
  metered with it after `set_server_limits` made it one, so
  its third attempt is let through as well.
-/
theorem stale_bucket :
    ∃ s : Server, Reachable {} s ∧
      s.limits = burstOfOne ∧
      (s.acceptBucket (somePeer 1000).address).capacity = 20 ∧
      s.ipVerdict (somePeer 1000).address 3 = none ∧
      ¬ Enforces s (somePeer 1000).address 3 := by
  obtain ⟨s, hReach, hRun⟩ :=
    Transition.exists_of_run (step {}) (start {})
      (handOver 1000 1 ++ [.setServerLimits burstOfOne] ++
        handOver 2000 2)
      (fun s =>
        decide
          (s.limits = burstOfOne ∧
            (s.acceptBucket
              (somePeer 1000).address).capacity = 20 ∧
            s.ipVerdict (somePeer 1000).address 3 = none ∧
            s.sessionsFrom (somePeer 1000).address = 0))
      (by decide +kernel)
  rcases of_decide_eq_true hRun with
    ⟨hLimits, hCapacity, hVerdict, hNone⟩
  refine ⟨s, hReach, hLimits, hCapacity, hVerdict, ?_⟩
  intro hEnforces
  have hBelow :
      s.sessionsFrom (somePeer 1000).address <
        s.limits.maxSessionsPerIp := by
    rw [hNone, hLimits]
    decide
  have hMeters := (hEnforces.metered hBelow).1
  rw [hLimits, Meters, if_neg (by decide +kernel)]
    at hMeters
  have hWrong : (20 : Rat) = 1 :=
    hCapacity.symm.trans (congrArg Prod.fst hMeters)
  exact absurd hWrong (by decide +kernel)

end Server

end GrlxRpc
