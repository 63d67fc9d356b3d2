import GrlxRpc.Session.Calls
import GrlxRpc.Lib.Records

/-
  The client: its runs of `connect()` and `disconnect()`,
  the sessions they made, and `client_session_`.

  A session keeps itself alive while its loops run, whether
  the client still holds it or not. `disconnect()` closes the
  session it takes out; `connect()` stores over the one that
  is there.

  Main declarations:
    * `Attempt`, `Client` and `ClientAction`
    * `Client.Tracked` and `Client.NoOrphan`
    * `Client.ReplacesClosed`
    * `Client.noOrphan` and `Client.replaced_untracked`
-/

------------------------------------------------------------
-- Connecting
------------------------------------------------------------

namespace GrlxRpc

/-
  Where a run of `connect()` is: suspended in
  `channel_.connect` or in `handshake`, or about to do what
  the constructor names.
-/
inductive ConnectPc
  | connecting
  | handshaking
  | setupNotificationHandling
  | publish
  | spawn
  | storeNull
  | done
  deriving DecidableEq, Repr

/- Can an exception or an invalid session end the attempt? -/
def ConnectPc.mayFail : ConnectPc → Bool
  | connecting => true
  | handshaking => true
  | setupNotificationHandling => false
  | publish => false
  | spawn => false
  | storeNull => false
  | done => false

/- Has the attempt not stored its session, and never did? -/
def ConnectPc.isUnpublished : ConnectPc → Bool
  | connecting => true
  | handshaking => true
  | setupNotificationHandling => true
  | publish => true
  | storeNull => true
  | spawn => false
  | done => false

/- Where a session's `dispatch_requests` is. -/
inductive DispatchPc
  | unspawned
  | running
  | completed
  deriving DecidableEq, Repr

/-
  One run of `connect()`, with the session that its
  `channel_.connect` makes. `isPublished` says that it was
  stored in `client_session_`: a history variable.
-/
structure Attempt where
  pc : ConnectPc
  session : Session
  hasCallback : Bool
  isPublished : Bool
  dispatch : DispatchPc

/-
  Where a run of `disconnect()` is: about to take the
  session out, about to close attempt `c`'s session, or
  inside the `close()` of it.
-/
inductive DisconnectPc
  | exchange
  | close (c : Nat)
  | closing (c : Nat)
  | done
  deriving DecidableEq, Repr

/- A session is named by the attempt that made it. -/
structure Client where
  clientSession : Option Nat
  attempts : List Attempt
  disconnects : List DisconnectPc

inductive ClientAction (ω : Type)
  -- `connect()`
  | connect
  | connected (c : Nat)
  | fail (c : Nat)
  | handshook (c : Nat)
  | setupNotificationHandling (c : Nat)
  | publish (c : Nat)
  | spawn (c : Nat)
  | storeNull (c : Nat)
  -- the completion handler of `dispatch_requests`
  | complete (c : Nat)
  -- `disconnect()`
  | disconnect
  | exchange (d : Nat)
  | close (d c : Nat)
  | closed (d c : Nat)
  -- the sessions themselves, and those who call them
  | session (c : Nat) (a : Action ω)

/- Is this a step of one of the session's two loops? -/
def Action.ofLoops {ω : Type} : Action ω → Bool
  | readHeader _ => true
  | sendPong => true
  | readBody _ _ => true
  | readFail => true
  | findOperation _ _ => true
  | sendResult _ _ => true
  | resumeResult _ => true
  | rejectRequest _ _ _ => true
  | resumeReject _ _ => true
  | readerClose _ => true
  | readerClosed _ => true
  | writerReceive => true
  | writerTake => true
  | writerWrite _ _ => true
  | writerFinish => true
  | writerFail _ => true
  | writerClose => true
  | writerClosed => true
  | _ => false

namespace Client

variable {ω : Type}

def start : Client where
  clientSession := none
  attempts := []
  disconnects := []

/-
  What the client's sessions run with: each has its callback
  before its loops start.
-/
def sessionConfig (cfg : Config ω) : Config ω :=
  { cfg with notificationCallback := true }

/- An attempt as `connect()` begins it. -/
def attempt (cfg : Config ω) : Attempt where
  pc := .connecting
  session := .start (sessionConfig cfg)
  hasCallback := false
  isPublished := false
  dispatch := .unspawned

------------------------------------------------------------
-- Steps
------------------------------------------------------------

/- Attempt `c` is about to do what `pc` names. -/
def At
    (s : Client)
    (c : Nat)
    (pc : ConnectPc) : Prop :=
  ∃ attempt ∈ s.attempts[c]?, attempt.pc = pc

instance
    (s : Client)
    (c : Nat)
    (pc : ConnectPc) : Decidable (s.At c pc) :=
  inferInstanceAs (Decidable (∃ attempt ∈ _, _))

/-
  `dispatch_requests` ends when both loops have. A session
  is used by others once it has been published.
-/
def Enabled (s : Client) : ClientAction ω → Prop
  | .connect => True
  | .connected c => s.At c .connecting
  | .fail c =>
      ∃ attempt ∈ s.attempts[c]?, attempt.pc.mayFail = true
  | .handshook c => s.At c .handshaking
  | .setupNotificationHandling c =>
      s.At c .setupNotificationHandling
  | .publish c => s.At c .publish
  | .spawn c => s.At c .spawn
  | .storeNull c => s.At c .storeNull
  | .complete c =>
      ∃ attempt ∈ s.attempts[c]?,
        attempt.dispatch = .running ∧
          attempt.session.reader = .exited ∧
          attempt.session.writer = .exited
  | .disconnect => True
  | .exchange d => s.disconnects[d]? = some .exchange
  | .close d c => s.disconnects[d]? = some (.close c)
  | .closed d c =>
      s.disconnects[d]? = some (.closing c) ∧
        ∃ attempt ∈ s.attempts[c]?,
          attempt.session.teardown = .finished
  | .session c a =>
      ∃ attempt ∈ s.attempts[c]?,
        attempt.isPublished = true ∧
          (a.ofLoops = true → attempt.dispatch = .running) ∧
          attempt.session.Enabled a

instance
    (s : Client) :
    (a : ClientAction ω) → Decidable (s.Enabled a)
  | .connect => instDecidableTrue
  | .connected _ => inferInstanceAs (Decidable (s.At _ _))
  | .fail _ =>
      inferInstanceAs (Decidable (∃ attempt ∈ _, _))
  | .handshook _ => inferInstanceAs (Decidable (s.At _ _))
  | .setupNotificationHandling _ =>
      inferInstanceAs (Decidable (s.At _ _))
  | .publish _ => inferInstanceAs (Decidable (s.At _ _))
  | .spawn _ => inferInstanceAs (Decidable (s.At _ _))
  | .storeNull _ => inferInstanceAs (Decidable (s.At _ _))
  | .complete _ =>
      inferInstanceAs (Decidable (∃ attempt ∈ _, _))
  | .disconnect => instDecidableTrue
  | .exchange _ => inferInstanceAs (Decidable (_ = _))
  | .close _ _ => inferInstanceAs (Decidable (_ = _))
  | .closed _ _ => inferInstanceAs (Decidable (_ ∧ _))
  | .session _ _ =>
      inferInstanceAs (Decidable (∃ attempt ∈ _, _))

/- Attempt `c` goes on. -/
def goTo
    (s : Client)
    (c : Nat)
    (pc : ConnectPc) : List Attempt :=
  s.attempts.modify c fun attempt =>
    { attempt with pc := pc }

def update
    (cfg : Config ω)
    (s : Client) : ClientAction ω → Client
  | .connect =>
      { s with attempts := s.attempts ++ [attempt cfg] }
  | .connected c =>
      { s with attempts := s.goTo c .handshaking }
  | .fail c => { s with attempts := s.goTo c .storeNull }
  | .handshook c =>
      { s with attempts := s.goTo c .setupNotificationHandling }
  | .setupNotificationHandling c =>
      { s with
        attempts :=
          s.attempts.modify c fun attempt =>
            { attempt with
              pc := .publish
              hasCallback := true } }
  | .publish c =>
      { s with
        clientSession := some c
        attempts :=
          s.attempts.modify c fun attempt =>
            { attempt with
              pc := .spawn
              isPublished := true } }
  | .spawn c =>
      { s with
        attempts :=
          s.attempts.modify c fun attempt =>
            { attempt with
              pc := .done
              dispatch := .running } }
  | .storeNull c =>
      { s with
        clientSession := none
        attempts := s.goTo c .done }
  | .complete c =>
      { s with
        clientSession :=
          if s.clientSession = some c then none
          else s.clientSession
        attempts :=
          s.attempts.modify c fun attempt =>
            { attempt with dispatch := .completed } }
  | .disconnect =>
      { s with disconnects := s.disconnects ++ [.exchange] }
  | .exchange d =>
      { s with
        clientSession := none
        disconnects :=
          s.disconnects.modify d fun _ =>
            s.clientSession.elim .done .close }
  | .close d c =>
      { s with
        disconnects :=
          s.disconnects.modify d fun _ =>
            if ∃ attempt ∈ s.attempts[c]?,
                attempt.session.teardown = .idle then
              .closing c
            else
              .done
        attempts :=
          s.attempts.modify c fun attempt =>
            { attempt with
              session :=
                attempt.session.update (sessionConfig cfg)
                  .close } }
  | .closed d _ =>
      { s with
        disconnects := s.disconnects.modify d fun _ => .done }
  | .session c a =>
      { s with
        attempts :=
          s.attempts.modify c fun attempt =>
            { attempt with
              session :=
                attempt.session.update (sessionConfig cfg)
                  a } }

/- One step of the client, if the action may run. -/
def step
    (cfg : Config ω)
    (s : Client)
    (a : ClientAction ω) : Option Client :=
  if s.Enabled a then some (s.update cfg a) else none

theorem step_eq_some_iff
    (cfg : Config ω)
    (s s' : Client)
    (a : ClientAction ω) :
    step cfg s a = some s' ↔
      s.Enabled a ∧ s' = s.update cfg a := by
  simp [step, eq_comm]

abbrev ReachableBy
    (cfg : Config ω)
    (ok : Client → ClientAction ω → Prop)
    (s : Client) : Prop :=
  Transition.ReachableBy (step cfg) ok start s

abbrev Reachable
    (cfg : Config ω)
    (s : Client) : Prop :=
  Transition.Reachable (step cfg) start s

/- The invariant rule for clients. -/
theorem invariant
    {cfg : Config ω}
    {ok : Client → ClientAction ω → Prop}
    (inv : Client → Prop)
    (hStart : inv start)
    (hUpdate :
      ∀ s a, inv s → ok s a → s.Enabled a →
        inv (s.update cfg a))
    {s : Client}
    (hReach : ReachableBy cfg ok s) :
    inv s :=
  hReach.invariant_of_guarded (step_eq_some_iff cfg) hStart
    fun s a _ => hUpdate s a

------------------------------------------------------------
-- Attempts
------------------------------------------------------------

/- How far an attempt is, and what that says of its session. -/
structure AttemptInv
    (cfg : Config ω)
    (attempt : Attempt) : Prop where
  reachable :
    Session.Reachable (sessionConfig cfg) attempt.session
  unpublished :
    attempt.pc.isUnpublished = true →
      attempt.isPublished = false
  spawning : attempt.pc = .spawn → attempt.isPublished = true
  dispatched :
    attempt.dispatch ≠ .unspawned →
      attempt.isPublished = true

namespace AttemptInv

variable {cfg : Config ω}
variable {attempt : Attempt}

/- Going on without publishing. -/
theorem goTo
    (hInv : AttemptInv cfg attempt)
    {pc : ConnectPc}
    (hBefore : attempt.pc.isUnpublished = true)
    (hNot : pc ≠ .spawn) :
    AttemptInv cfg { attempt with pc := pc } := by
  constructor
  case reachable => exact hInv.reachable
  case unpublished => exact fun _ => hInv.unpublished hBefore
  case spawning => exact fun hSpawn => absurd hSpawn hNot
  case dispatched => exact hInv.dispatched

theorem session
    (hInv : AttemptInv cfg attempt)
    {a : Action ω}
    (hEnabled : attempt.session.Enabled a) :
    AttemptInv cfg
      { attempt with
        session :=
          attempt.session.update (sessionConfig cfg) a } :=
  { hInv with
    reachable :=
      hInv.reachable.next trivial
        ((Session.step_eq_some_iff _ _ _ _).mpr
          ⟨hEnabled, rfl⟩) }

end AttemptInv

/- The attempt that is about to do what `pc` names. -/
theorem At.pc_eq
    {s : Client}
    {c : Nat}
    {pc : ConnectPc}
    (hAt : s.At c pc)
    {attempt : Attempt}
    (hGet : s.attempts[c]? = some attempt) :
    attempt.pc = pc := by
  rcases hAt with ⟨other, hOther, hPc⟩
  rw [← hPc, Option.some.inj (hGet.symm.trans hOther)]

theorem attemptsInv
    {cfg : Config ω}
    {ok : Client → ClientAction ω → Prop}
    {s : Client}
    (hReach : ReachableBy cfg ok s) :
    ∀ (c : Nat) (attempt : Attempt),
      s.attempts[c]? = some attempt →
        AttemptInv cfg attempt := by
  refine invariant
    (fun s =>
      ∀ (c : Nat) (attempt : Attempt),
        s.attempts[c]? = some attempt →
          AttemptInv cfg attempt)
    (by simp [start]) ?_ hReach
  intro s a hInv _ hEnabled
  cases a with
  | connect =>
      apply Records.forall_getElem?_concat hInv
      constructor
      case reachable => exact .start
      case unpublished => exact fun _ => rfl
      case spawning => simp [attempt]
      case dispatched => simp [attempt]
  | connected c =>
      apply Records.forall_getElem?_modify_of_forall hInv
      intro attempt hGet hOld
      have hPc : attempt.pc = .connecting :=
        At.pc_eq hEnabled hGet
      exact hOld.goTo (by rw [hPc]; rfl)
        (by simp)
  | fail c =>
      apply Records.forall_getElem?_modify_of_forall hInv
      intro attempt hGet hOld
      rcases hEnabled with ⟨other, hOther, hMay⟩
      rcases Option.some.inj (hGet.symm.trans hOther) with
        rfl
      apply hOld.goTo _ (by simp)
      cases hPc : attempt.pc <;>
        simp_all [ConnectPc.mayFail, ConnectPc.isUnpublished]
  | handshook c =>
      apply Records.forall_getElem?_modify_of_forall hInv
      intro attempt hGet hOld
      have hPc : attempt.pc = .handshaking :=
        At.pc_eq hEnabled hGet
      exact hOld.goTo (by rw [hPc]; rfl)
        (by simp)
  | setupNotificationHandling c =>
      apply Records.forall_getElem?_modify_of_forall hInv
      intro attempt hGet hOld
      have hPc : attempt.pc = .setupNotificationHandling :=
        At.pc_eq hEnabled hGet
      have hNext : AttemptInv cfg
          { attempt with pc := .publish } :=
        hOld.goTo (by rw [hPc]; rfl)
          (by simp)
      exact ⟨hNext.reachable, hNext.unpublished,
        hNext.spawning, hNext.dispatched⟩
  | publish c =>
      apply Records.forall_getElem?_modify_of_forall hInv
      intro attempt hGet hOld
      constructor
      case reachable => exact hOld.reachable
      case unpublished => exact fun hNot => by cases hNot
      case spawning => exact fun _ => rfl
      case dispatched => exact fun _ => rfl
  | spawn c =>
      apply Records.forall_getElem?_modify_of_forall hInv
      intro attempt hGet hOld
      have hPc : attempt.pc = .spawn :=
        At.pc_eq hEnabled hGet
      constructor
      case reachable => exact hOld.reachable
      case unpublished => exact fun hNot => by cases hNot
      case spawning => exact fun hNot => by cases hNot
      case dispatched =>
        exact fun _ => hOld.spawning hPc
  | storeNull c =>
      apply Records.forall_getElem?_modify_of_forall hInv
      intro attempt hGet hOld
      have hPc : attempt.pc = .storeNull :=
        At.pc_eq hEnabled hGet
      exact hOld.goTo (by rw [hPc]; rfl)
        (by simp)
  | complete c =>
      apply Records.forall_getElem?_modify_of_forall hInv
      intro attempt hGet hOld
      rcases hEnabled with ⟨other, hOther, hRunning, _⟩
      rcases Option.some.inj (hGet.symm.trans hOther) with
        rfl
      constructor
      case reachable => exact hOld.reachable
      case unpublished => exact hOld.unpublished
      case spawning => exact hOld.spawning
      case dispatched =>
        intro _
        apply hOld.dispatched
        rw [hRunning]
        simp
  | disconnect => exact hInv
  | exchange d => exact hInv
  | close d c =>
      apply Records.forall_getElem?_modify_of_forall hInv
      intro attempt hGet hOld
      exact hOld.session trivial
  | closed d c => exact hInv
  | session c a =>
      apply Records.forall_getElem?_modify_of_forall hInv
      intro attempt hGet hOld
      rcases hEnabled with ⟨other, hOther, _, _, hStep⟩
      rcases Option.some.inj (hGet.symm.trans hOther) with
        rfl
      exact hOld.session hStep

------------------------------------------------------------
-- Published Sessions
------------------------------------------------------------

/- The session of attempt `c` has been published. -/
def Published
    (s : Client)
    (c : Nat) : Prop :=
  ∃ attempt ∈ s.attempts[c]?, attempt.isPublished = true

/- It has also not been closed. -/
def Live
    (s : Client)
    (c : Nat) : Prop :=
  ∃ attempt ∈ s.attempts[c]?,
    attempt.isPublished = true ∧
      attempt.session.teardown = .idle

instance
    (s : Client)
    (c : Nat) : Decidable (s.Live c) :=
  inferInstanceAs (Decidable (∃ attempt ∈ _, _))

/- Some `disconnect()` took the session and will close it. -/
def Closing
    (s : Client)
    (c : Nat) : Prop :=
  .close c ∈ s.disconnects

instance
    (s : Client)
    (c : Nat) : Decidable (s.Closing c) :=
  inferInstanceAs (Decidable (_ ∈ _))

/- A published session stays published. -/
theorem Published.update
    {cfg : Config ω}
    {s : Client}
    {c : Nat}
    (hPublished : s.Published c)
    (a : ClientAction ω) :
    (s.update cfg a).Published c := by
  have hModify :
      ∀ (i : Nat) (f : Attempt → Attempt),
        (∀ attempt, attempt.isPublished = true →
          (f attempt).isPublished = true) →
        ∃ attempt ∈ (s.attempts.modify i f)[c]?,
          attempt.isPublished = true := by
    intro i f hKeeps
    rcases hPublished with ⟨attempt, hGet, hAttempt⟩
    by_cases hSame : i = c
    · subst hSame
      refine ⟨f attempt, ?_, hKeeps attempt hAttempt⟩
      rw [List.getElem?_modify_eq, hGet]
      rfl
    · refine ⟨attempt, ?_, hAttempt⟩
      rw [List.getElem?_modify_ne _ _ hSame]
      exact hGet
  cases a with
  | connect =>
      rcases hPublished with ⟨attempt, hGet, hAttempt⟩
      exact ⟨attempt, Records.getElem?_mono
        (List.prefix_append _ _) hGet, hAttempt⟩
  | connected i => exact hModify i _ fun _ h => h
  | fail i => exact hModify i _ fun _ h => h
  | handshook i => exact hModify i _ fun _ h => h
  | setupNotificationHandling i =>
      exact hModify i _ fun _ h => h
  | publish i => exact hModify i _ fun _ _ => rfl
  | spawn i => exact hModify i _ fun _ h => h
  | storeNull i => exact hModify i _ fun _ h => h
  | complete i => exact hModify i _ fun _ h => h
  | disconnect => exact hPublished
  | exchange d => exact hPublished
  | close d i => exact hModify i _ fun _ h => h
  | closed d i => exact hPublished
  | session i a => exact hModify i _ fun _ h => h

/-
  A session that is live after a step was live before it,
  unless the step is its publication.
-/
theorem live_of_update
    {cfg : Config ω}
    {s : Client}
    {c : Nat}
    {a : ClientAction ω}
    (hLive : (s.update cfg a).Live c) :
    s.Live c ∨ ∃ c', a = .publish c' ∧ c' = c := by
  have hModify :
      ∀ (i : Nat) (f : Attempt → Attempt),
        (∃ attempt ∈ (s.attempts.modify i f)[c]?,
          attempt.isPublished = true ∧
            attempt.session.teardown = .idle) →
        (∀ attempt,
          (f attempt).isPublished = attempt.isPublished) →
        (∀ attempt, (f attempt).session.teardown = .idle →
          attempt.session.teardown = .idle) →
        s.Live c := by
    intro i f ⟨attempt, hGet, hIs, hOpen⟩ hSame hIdle
    by_cases hAt : i = c
    · subst hAt
      rw [List.getElem?_modify_eq, Option.map_eq_map,
        Option.mem_map] at hGet
      rcases hGet with ⟨old, hOld, rfl⟩
      exact ⟨old, hOld, (hSame old).symm.trans hIs,
        hIdle old hOpen⟩
    · rw [List.getElem?_modify_ne _ _ hAt] at hGet
      exact ⟨attempt, hGet, hIs, hOpen⟩
  cases a with
  | connect =>
      left
      rcases hLive with ⟨attempt, hGet, hIs, hOpen⟩
      rw [Client.update, List.getElem?_append] at hGet
      split at hGet
      · exact ⟨attempt, hGet, hIs, hOpen⟩
      · rw [List.getElem?_singleton] at hGet
        split at hGet
        · rcases Option.some.inj hGet with rfl
          cases hIs
        · cases hGet
  | publish i =>
      by_cases hAt : i = c
      · exact .inr ⟨i, rfl, hAt⟩
      · left
        rcases hLive with ⟨attempt, hGet, hRest⟩
        rw [Client.update, List.getElem?_modify_ne _ _ hAt]
          at hGet
        exact ⟨attempt, hGet, hRest⟩
  | connected i =>
      exact .inl (hModify i _ hLive (fun _ => rfl)
        fun _ h => h)
  | fail i =>
      exact .inl (hModify i _ hLive (fun _ => rfl)
        fun _ h => h)
  | handshook i =>
      exact .inl (hModify i _ hLive (fun _ => rfl)
        fun _ h => h)
  | setupNotificationHandling i =>
      exact .inl (hModify i _ hLive (fun _ => rfl)
        fun _ h => h)
  | spawn i =>
      exact .inl (hModify i _ hLive (fun _ => rfl)
        fun _ h => h)
  | storeNull i =>
      exact .inl (hModify i _ hLive (fun _ => rfl)
        fun _ h => h)
  | complete i =>
      exact .inl (hModify i _ hLive (fun _ => rfl)
        fun _ h => h)
  | disconnect => exact .inl hLive
  | exchange d => exact .inl hLive
  | close d i =>
      exact .inl (hModify i _ hLive (fun _ => rfl)
        fun _ => Session.teardown_eq_idle)
  | closed d i => exact .inl hLive
  | session i a =>
      exact .inl (hModify i _ hLive (fun _ => rfl)
        fun _ => Session.teardown_eq_idle)

/-
  The held session is a published one, and one that a
  `disconnect()` took is not held any more.
-/
structure HeldInv (s : Client) : Prop where
  held : ∀ c, s.clientSession = some c → s.Published c
  taken :
    ∀ c, s.Closing c →
      s.Published c ∧ s.clientSession ≠ some c

/- A step that neither stores a session nor takes one. -/
theorem HeldInv.keep
    {s s' : Client}
    (hInv : s.HeldInv)
    (hPublished : ∀ c, s.Published c → s'.Published c)
    (hHeld :
      s'.clientSession = s.clientSession ∨
        s'.clientSession = none)
    (hClosing : ∀ c, s'.Closing c → s.Closing c) :
    s'.HeldInv := by
  have hSome :
      ∀ c, s'.clientSession = some c →
        s.clientSession = some c := by
    intro c hAt
    rcases hHeld with hSame | hNone
    · exact hSame ▸ hAt
    · cases hNone.symm.trans hAt
  constructor
  case held =>
    intro c hAt
    exact hPublished c (hInv.held c (hSome c hAt))
  case taken =>
    intro c hClose
    rcases hInv.taken c (hClosing c hClose) with
      ⟨hIs, hNot⟩
    exact ⟨hPublished c hIs, fun hAt => hNot (hSome c hAt)⟩

theorem heldInv
    {cfg : Config ω}
    {ok : Client → ClientAction ω → Prop}
    {s : Client}
    (hReach : ReachableBy cfg ok s) :
    s.HeldInv := by
  apply hReach.invariant
    ⟨by simp [start], by simp [start, Closing]⟩
  intro s a s' hPrior hInv _ hStep
  rcases (step_eq_some_iff cfg s s' a).mp hStep with
    ⟨hEnabled, rfl⟩
  have hKeep :
      ((s.update cfg a).clientSession = s.clientSession ∨
        (s.update cfg a).clientSession = none) →
      (∀ c, (s.update cfg a).Closing c → s.Closing c) →
      (s.update cfg a).HeldInv :=
    hInv.keep fun c hIs => hIs.update a
  cases a with
  | publish c =>
      rcases hEnabled with ⟨attempt, hGet, hPc⟩
      have hNot : attempt.isPublished = false :=
        (attemptsInv hPrior c attempt hGet).unpublished
          (by rw [hPc]; rfl)
      constructor
      case held =>
        intro c' hAt
        rcases Option.some.inj hAt with rfl
        refine
          ⟨{ attempt with pc := .spawn, isPublished := true },
            ?_, rfl⟩
        rw [update, List.getElem?_modify_eq, hGet]
        rfl
      case taken =>
        intro c' hClosing
        have hIs := (hInv.taken c' hClosing).1
        refine ⟨hIs.update _, fun hAt => ?_⟩
        rcases Option.some.inj hAt with rfl
        rcases hIs with ⟨other, hOther, hOtherIs⟩
        rcases Option.some.inj (hGet.symm.trans hOther) with
          rfl
        rw [hNot] at hOtherIs
        cases hOtherIs
  | exchange d =>
      constructor
      case held =>
        intro c hAt
        cases hAt
      case taken =>
        intro c hClosing
        refine ⟨?_, fun hAt => by cases hAt⟩
        rcases Records.mem_of_mem_modify hClosing with
          hOld | ⟨_, _, hNew⟩
        · exact (hInv.taken c hOld).1.update
            (.exchange d : ClientAction ω)
        · cases hHeld : s.clientSession with
          | none => simp [hHeld] at hNew
          | some c' =>
              obtain rfl : c' = c := by
                simpa [hHeld] using hNew
              exact (hInv.held c' hHeld).update
                (.exchange d : ClientAction ω)
  | close d c =>
      apply hKeep (.inl rfl)
      intro c' hClosing
      rcases Records.mem_of_mem_modify hClosing with
        hOld | ⟨_, _, hNew⟩
      · exact hOld
      · split at hNew <;> cases hNew
  | closed d c =>
      apply hKeep (.inl rfl)
      intro c' hClosing
      rcases Records.mem_of_mem_modify hClosing with
        hOld | ⟨_, _, hNew⟩
      · exact hOld
      · cases hNew
  | disconnect =>
      apply hKeep (.inl rfl)
      intro c hClosing
      rcases List.mem_append.mp hClosing with hOld | hNew
      · exact hOld
      · cases List.mem_singleton.mp hNew
  | storeNull c => exact hKeep (.inr rfl) fun _ h => h
  | complete c =>
      apply hKeep _ fun _ h => h
      simp only [update]
      split
      · exact .inr rfl
      · exact .inl rfl
  | connect => exact hKeep (.inl rfl) fun _ h => h
  | connected c => exact hKeep (.inl rfl) fun _ h => h
  | fail c => exact hKeep (.inl rfl) fun _ h => h
  | handshook c => exact hKeep (.inl rfl) fun _ h => h
  | setupNotificationHandling c =>
      exact hKeep (.inl rfl) fun _ h => h
  | spawn c => exact hKeep (.inl rfl) fun _ h => h
  | session c a => exact hKeep (.inl rfl) fun _ h => h

------------------------------------------------------------
-- No Orphans
------------------------------------------------------------

/-
  A published session that nobody closed is held, or taken
  out by a `disconnect()` that is about to close it.
-/
def Tracked (s : Client) : Prop :=
  ∀ c, s.Live c → s.clientSession = some c ∨ s.Closing c

/- No `connect()` or `disconnect()` is between its steps. -/
def Quiet (s : Client) : Prop :=
  (∀ attempt ∈ s.attempts, attempt.pc = .done) ∧
    ∀ pc ∈ s.disconnects, pc = .done

instance (s : Client) : Decidable s.Quiet :=
  inferInstanceAs (Decidable (_ ∧ _))

/- The session is open and hands notifications to the client. -/
def Delivers
    (s : Client)
    (c : Nat) : Prop :=
  ∃ attempt ∈ s.attempts[c]?,
    attempt.hasCallback = true ∧
      attempt.dispatch = .running ∧
      attempt.session.teardown = .idle

/- An open published session is the one that is held. -/
structure NoOrphan (s : Client) : Prop where
  held : ∀ c, s.Live c → s.clientSession = some c
  one : ∀ c c', s.Delivers c → s.Delivers c' → c = c'

/-
  Does the action, one of `connect()`, store over
  `client_session_`?
-/
def stores : ClientAction ω → Bool
  | .publish _ => true
  | .storeNull _ => true
  | _ => false

/- What `connect()` stores over is null or closed. -/
def ReplacesClosed
    (s : Client)
    (a : ClientAction ω) : Prop :=
  stores a = true → ∀ c ∈ s.clientSession, ¬ s.Live c

instance
    (s : Client)
    (a : ClientAction ω) : Decidable (s.ReplacesClosed a) :=
  inferInstanceAs
    (Decidable (_ → ∀ c ∈ s.clientSession, _))

/- A session whose loops have both ended is closed. -/
theorem not_live_of_exited
    {cfg : Config ω}
    {ok : Client → ClientAction ω → Prop}
    {s : Client}
    (hReach : ReachableBy cfg ok s)
    {c : Nat}
    (hEnded : s.Enabled (.complete c : ClientAction ω)) :
    ¬ s.Live c := by
  rintro ⟨attempt, hGet, _, hIdle⟩
  rcases hEnded with ⟨other, hOther, _, _, hWriter⟩
  rcases Option.some.inj (hGet.symm.trans hOther) with rfl
  exact Session.teardown_ne_idle
    (attemptsInv hReach c attempt hGet).reachable hWriter
    hIdle

/- Closing a session is one step. -/
theorem not_live_of_close
    (cfg : Config ω)
    (s : Client)
    (d c : Nat) :
    ¬ (s.update cfg (.close d c)).Live c := by
  rintro ⟨attempt, hGet, _, hIdle⟩
  rw [update, List.getElem?_modify_eq, Option.map_eq_map,
    Option.mem_map] at hGet
  rcases hGet with ⟨old, _, rfl⟩
  have hBegin : old.session.teardown.begin = .idle := hIdle
  cases hOld : old.session.teardown <;>
    simp [hOld, Teardown.begin] at hBegin

theorem tracked
    {cfg : Config ω}
    {s : Client}
    (hReach : ReachableBy cfg ReplacesClosed s) :
    s.Tracked := by
  apply hReach.invariant (by simp [start, Tracked, Live])
  intro s a s' hPrior hInv hOk hStep
  rcases (step_eq_some_iff cfg s s' a).mp hStep with
    ⟨hEnabled, rfl⟩
  intro c hLive
  rcases live_of_update hLive with hOld | ⟨c', rfl, rfl⟩
  case inr => exact .inl rfl
  case inl =>
    have hWas := hInv c hOld
    cases a with
    | publish c' =>
        right
        rcases hWas with hHeld | hClosing
        · exact absurd hOld (hOk rfl c hHeld)
        · exact hClosing
    | storeNull c' =>
        right
        rcases hWas with hHeld | hClosing
        · exact absurd hOld (hOk rfl c hHeld)
        · exact hClosing
    | complete c' =>
        rcases hWas with hHeld | hClosing
        · left
          have hOther : c' ≠ c := by
            rintro rfl
            exact not_live_of_exited hPrior hEnabled hOld
          simp [update, hHeld, Ne.symm hOther]
        · exact .inr hClosing
    | exchange d =>
        right
        rcases hWas with hHeld | hClosing
        · have hMem :
              s.clientSession.elim .done .close ∈
                (s.update cfg (.exchange d)).disconnects :=
            Records.mem_modify_of_getElem? hEnabled _
          rw [hHeld] at hMem
          exact hMem
        · exact Records.mem_modify_of_ne hClosing hEnabled
            (by simp)
    | close d c' =>
        rcases hWas with hHeld | hClosing
        · exact .inl hHeld
        · right
          apply Records.mem_modify_of_ne hClosing hEnabled
          rintro hSame
          injection hSame with hSame
          subst hSame
          exact not_live_of_close cfg s d c' hLive
    | closed d c' =>
        rcases hWas with hHeld | hClosing
        · exact .inl hHeld
        · exact .inr (Records.mem_modify_of_ne hClosing
            hEnabled.1 (by simp))
    | disconnect =>
        rcases hWas with hHeld | hClosing
        · exact .inl hHeld
        · exact .inr (List.mem_append_left _ hClosing)
    | connect => exact hWas
    | connected c' => exact hWas
    | fail c' => exact hWas
    | handshook c' => exact hWas
    | setupNotificationHandling c' => exact hWas
    | spawn c' => exact hWas
    | session c' a => exact hWas

/-
  No session is orphaned, in a run in which `connect()`
  stores over null or over a closed session only.
-/
theorem noOrphan
    (cfg : Config ω)
    (s : Client)
    (hReach : ReachableBy cfg ReplacesClosed s) :
    s.Tracked ∧ (s.Quiet → s.NoOrphan) := by
  have hTracked := tracked hReach
  refine ⟨hTracked, fun hQuiet => ?_⟩
  have hHeld : ∀ c, s.Live c → s.clientSession = some c := by
    intro c hLive
    rcases hTracked c hLive with hHeld | hClosing
    · exact hHeld
    · cases hQuiet.2 _ hClosing
  have hLive : ∀ c, s.Delivers c → s.Live c := by
    rintro c ⟨attempt, hGet, _, hRunning, hOpen⟩
    refine ⟨attempt, hGet, ?_, hOpen⟩
    apply (attemptsInv hReach c attempt hGet).dispatched
    rw [hRunning]
    simp
  constructor
  case held => exact hHeld
  case one =>
    intro c c' hFirst hSecond
    have hSome := hHeld c (hLive c hFirst)
    rw [hHeld c' (hLive c' hSecond)] at hSome
    exact (Option.some.inj hSome).symm

/- A live session that is stored over is not tracked. -/
theorem replaced_untracked
    {cfg : Config ω}
    {ok : Client → ClientAction ω → Prop}
    {s : Client}
    (hReach : ReachableBy cfg ok s)
    {a : ClientAction ω}
    (hEnabled : s.Enabled a)
    (hNot : ¬ s.ReplacesClosed a) :
    ¬ (s.update cfg a).Tracked := by
  simp only [ReplacesClosed, Classical.not_imp, not_forall,
    not_not] at hNot
  rcases hNot with ⟨hStores, c, hHeld, hLive⟩
  intro hTracked
  have hNotClosing : ¬ s.Closing c :=
    fun hClosing => ((heldInv hReach).taken c hClosing).2 hHeld
  rcases hLive with ⟨attempt, hGet, hIs, hOpen⟩
  cases a with
  | publish c' =>
      have hOther : c' ≠ c := by
        rintro rfl
        rcases hEnabled with ⟨other, hOther, hPc⟩
        rcases Option.some.inj (hGet.symm.trans hOther) with
          rfl
        have hUnpublished :=
          (attemptsInv hReach c' attempt hGet).unpublished
            (by rw [hPc]; rfl)
        cases hUnpublished.symm.trans hIs
      have hAfter : (s.update cfg (.publish c')).Live c := by
        refine ⟨attempt, ?_, hIs, hOpen⟩
        rw [update, List.getElem?_modify_ne _ _ hOther]
        exact hGet
      rcases hTracked c hAfter with hSame | hClosing
      · exact hOther (Option.some.inj hSame)
      · exact hNotClosing hClosing
  | storeNull c' =>
      have hAfter : (s.update cfg (.storeNull c')).Live c := by
        by_cases hSame : c' = c
        · subst hSame
          refine ⟨{ attempt with pc := .done }, ?_, hIs, hOpen⟩
          rw [update, goTo, List.getElem?_modify_eq, hGet]
          rfl
        · refine ⟨attempt, ?_, hIs, hOpen⟩
          rw [update, goTo, List.getElem?_modify_ne _ _ hSame]
          exact hGet
      rcases hTracked c hAfter with hNone | hClosing
      · cases hNone
      · exact hNotClosing hClosing
  | _ => cases hStores

------------------------------------------------------------
-- A Second Connection
------------------------------------------------------------

/- The steps of attempt `c` when nothing fails. -/
def connecting (c : Nat) : List (ClientAction Unit) :=
  [.connect, .connected c, .handshook c,
    .setupNotificationHandling c, .publish c, .spawn c]

/- A reconnect after a `disconnect()`. -/
theorem noOrphan_reconnect :
    ∃ s : Client, Reachable ({} : Config Unit) s ∧
      s.clientSession = some 1 ∧ s.Tracked ∧
        (s.Quiet → s.NoOrphan) := by
  obtain ⟨s, hReach, hRun⟩ :=
    Transition.exists_of_runBy
      (step ({} : Config Unit)) ReplacesClosed start
      (connecting 0 ++
        [.disconnect,
          .exchange 0,
          .close 0 0,
          .session 0 .closeWriteChannel,
          .session 0 .takeTable,
          .session 0 .closeStream,
          .closed 0 0] ++
        connecting 1)
      (fun s => decide (s.clientSession = some 1))
      (by decide +kernel)
  exact ⟨s, hReach.reachable, of_decide_eq_true hRun,
    noOrphan {} s hReach⟩

/-
  `connect()` is called again while a session is open: both
  sessions stay open, and the first is no longer held.
-/
theorem reconnect_orphans :
    ∃ s : Client, Reachable ({} : Config Unit) s ∧
      s.Quiet ∧ ¬ s.NoOrphan := by
  obtain ⟨s, hReach, hRun⟩ :=
    Transition.exists_of_run
      (step ({} : Config Unit)) start
      (connecting 0 ++ connecting 1)
      (fun s =>
        decide (s.Quiet ∧ s.Live 0 ∧
          s.clientSession = some 1))
      (by decide +kernel)
  rcases of_decide_eq_true hRun with ⟨hQuiet, hLive, hHeld⟩
  refine ⟨s, hReach, hQuiet, fun hInv => ?_⟩
  have hFirst := hInv.held 0 hLive
  rw [hHeld] at hFirst
  cases hFirst

end Client

end GrlxRpc
