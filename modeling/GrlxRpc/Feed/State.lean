import GrlxRpc.Link
import GrlxRpc.Client

/-
  One server task that awaits `notify` and `notify_session`
  calls one after another, and one client session.

  The task copies the set of active sessions on the server's
  strand and then offers its payload to each of them. What
  the write queue takes goes over the link, and the client's
  reader posts a callback for it to the notification strand.
  Other tasks are among those who act on the link's server
  session and post to the strand.

  Main declarations:
    * `Payload`, `Fate` and `NotifyPc`
    * `Feed` and `FeedMove`
    * `Feed.step` and `Feed.link_reachable`
-/

------------------------------------------------------------
-- The Task
------------------------------------------------------------

namespace GrlxRpc

/- What one call sends: `notify` has no target. -/
structure Payload where
  funcName : StdString
  buffer : Buffer
  target : Option StdString

namespace Payload

/- `target_session_id.empty()` ends the call at once. -/
def isUntargetable (payload : Payload) : Bool :=
  payload.target.any List.isEmpty

/- Is a session with this identity to be notified? -/
def reaches
    (payload : Payload)
    (identity : Identity) : Bool :=
  payload.target.all fun target =>
    identity.logicalSessionId = target

end Payload

/-
  What became of a payload at the client's session: not
  offered, refused by `try_notify`, or accepted as the item
  at a position among those the queue accepted.
-/
inductive Fate
  | notOffered
  | refused
  | accepted (k : Nat)
  deriving DecidableEq, Repr

def Fate.isAccepted : Fate → Bool
  | notOffered => false
  | refused => false
  | accepted _ => true

/-
  Where the task is: between two calls, waiting for its copy
  of the active sessions, or in the loop over the copy, which
  may have the client's session in it.
-/
inductive NotifyPc
  | ready
  | copying (payload : Payload)
  | visiting (payload : Payload) (listed : Bool)

/- The payload of the call the task is in. -/
def NotifyPc.current : NotifyPc → Option Payload
  | ready => none
  | copying payload => some payload
  | visiting payload _ => some payload

/- Work posted to `sessions_strand_`. -/
inductive StrandWork
  | insert
  | erase
  | copy
  | other
  deriving DecidableEq, Repr

/- What the notification callback does, for a frame. -/
inductive CallbackEvent
  | entered (frame : Nat)
  | returned (frame : Nat)
  deriving DecidableEq, Repr

/-
  `isListed` says that the client's session is in the set of
  active sessions. `posted` names the frames behind the tasks
  on the notification strand, and `callback` the one whose
  callback runs now. The fields `sent`, `fates`, `ran` and
  `calls` are histories.
-/
structure Feed where
  link : Link
  hasStrand : Bool
  isListed : Bool
  strand : List StrandWork
  pc : NotifyPc
  sent : List Payload
  fates : List Fate
  posted : List Nat
  ran : List Nat
  callback : Option Nat
  calls : List CallbackEvent

inductive FeedMove (ω ω' : Type)
  -- the two sessions and everyone who uses them
  | link (m : Link.Move ω ω')
  | callbackReturns
  -- the server and those who post to its strand
  | startServer
  | post (work : StrandWork)
  | runStrand
  -- the task
  | notify (payload : Payload)
  | visit

namespace Feed

variable {ω ω' : Type}

/- A client's session hands notifications to its callback. -/
def sessions (setup : Link.Setup ω ω') : Link.Setup ω ω' where
  client := Client.sessionConfig setup.client
  server := setup.server

def start (setup : Link.Setup ω ω') : Feed where
  link := .start (sessions setup)
  hasStrand := false
  isListed := false
  strand := []
  pc := .ready
  sent := []
  fates := []
  posted := []
  ran := []
  callback := none
  calls := []

------------------------------------------------------------
-- Steps
------------------------------------------------------------

/- Does the move run a task of the notification strand? -/
def runsCallback : Link.Move ω ω' → Bool
  | .client (.runNotification _ _ _) => true
  | _ => false

/-
  What a move of the link does to the notification strand: a
  body that was read posts a task for the last frame, and a
  task that runs enters the callback.
-/
def track
    (s : Feed) : Link.Move ω ω' → Feed
  | .client (.readBody _ .notification) =>
      { s with
        posted := s.posted ++ [s.link.client.taken.length - 1] }
  | .client (.runNotification _ _ _) =>
      { s with
        posted := s.posted.tail
        ran := s.ran ++ s.posted.head?.toList
        callback := s.posted.head?
        calls := s.calls ++ s.posted.head?.toList.map .entered }
  | _ => s

/- The next work of the strand that owns the sessions. -/
def runWork
    (s : Feed) : StrandWork → Feed
  | .insert => { s with isListed := true }
  | .erase => { s with isListed := false }
  | .copy =>
      match s.pc with
      | .copying payload =>
          { s with pc := .visiting payload s.isListed }
      | .ready => s
      | .visiting _ _ => s
  | .other => s

/- `notify` or `notify_session`, up to its `co_await`. -/
def begin
    (s : Feed)
    (payload : Payload) : Feed :=
  if s.hasStrand && !payload.isUntargetable then
    { s with
      sent := s.sent ++ [payload]
      strand := s.strand ++ [.copy]
      pc := .copying payload }
  else
    { s with
      sent := s.sent ++ [payload]
      fates := s.fates ++ [.notOffered] }

/- What `try_notify` answers, and where the item goes. -/
def offer (s : Feed) : Fate :=
  if s.link.server.writeChannel.hasRoom then
    .accepted s.link.server.writeChannel.accepted.length
  else
    .refused

/- The loop over the copy comes to the client's session. -/
def visit
    (setup : Link.Setup ω ω')
    (s : Feed)
    (payload : Payload)
    (listed : Bool) : Feed :=
  if listed && payload.reaches s.link.server.identity then
    { s with
      link :=
        { s.link with
          server :=
            s.link.server.update setup.server
              (.tryNotify payload.funcName payload.buffer) }
      fates := s.fates ++ [s.offer]
      pc := .ready }
  else
    { s with
      fates := s.fates ++ [.notOffered]
      pc := .ready }

/-
  One move. The strands run one task at a time: no callback
  is entered while one runs.
-/
def step
    (setup : Link.Setup ω ω')
    (s : Feed) : FeedMove ω ω' → Option Feed
  | .link m =>
      if runsCallback m = true → s.callback = none then
        (Link.step (sessions setup) s.link m).map fun l =>
          { s.track m with link := l }
      else
        none
  | .callbackReturns =>
      s.callback.map fun j =>
        { s with
          callback := none
          calls := s.calls ++ [.returned j] }
  | .startServer => some { s with hasStrand := true }
  | .post work =>
      if work ≠ .copy then
        some { s with strand := s.strand ++ [work] }
      else
        none
  | .runStrand =>
      match s.strand with
      | [] => none
      | work :: rest =>
          some ({ s with strand := rest }.runWork work)
  | .notify payload =>
      match s.pc with
      | .ready => some (s.begin payload)
      | .copying _ => none
      | .visiting _ _ => none
  | .visit =>
      match s.pc with
      | .visiting payload listed =>
          some (s.visit setup payload listed)
      | .ready => none
      | .copying _ => none

abbrev Reachable
    (setup : Link.Setup ω ω')
    (s : Feed) : Prop :=
  Transition.Reachable (step setup) (start setup) s

@[simp] theorem link_track
    (s : Feed)
    (m : Link.Move ω ω') :
    (s.track m).link = s.link := by
  unfold track
  split <;> rfl

@[simp] theorem link_begin
    (s : Feed)
    (payload : Payload) :
    (s.begin payload).link = s.link := by
  unfold begin
  split <;> rfl

@[simp] theorem link_runWork
    (s : Feed)
    (work : StrandWork) :
    (s.runWork work).link = s.link := by
  cases work with
  | copy =>
      unfold runWork
      cases s.pc <;> rfl
  | _ => rfl

/- The strand lets the task go on within its call. -/
@[simp] theorem current_runWork
    (s : Feed)
    (work : StrandWork) :
    (s.runWork work).pc.current = s.pc.current := by
  cases work with
  | copy =>
      unfold runWork
      cases hPc : s.pc <;> simp [hPc, NotifyPc.current]
  | _ => rfl

@[simp] theorem sent_runWork
    (s : Feed)
    (work : StrandWork) :
    (s.runWork work).sent = s.sent := by
  cases work with
  | copy =>
      unfold runWork
      cases s.pc <;> rfl
  | _ => rfl

@[simp] theorem fates_runWork
    (s : Feed)
    (work : StrandWork) :
    (s.runWork work).fates = s.fates := by
  cases work with
  | copy =>
      unfold runWork
      cases s.pc <;> rfl
  | _ => rfl

/-
  The rule for what one move keeps. A move of an end is one
  of its session, and the client's moves are tracked.
-/
theorem step_cases
    {P : Feed → Prop}
    {setup : Link.Setup ω ω'}
    {s s' : Feed}
    {m : FeedMove ω ω'}
    (hStep : step setup s m = some s')
    (hClient :
      ∀ (a : Action ω) (l : Link),
        Link.step (sessions setup) s.link (.client a) = some l →
        s.link.client.Enabled a →
        l.client =
          s.link.client.update (sessions setup).client a →
        l.server = s.link.server →
        (runsCallback (.client a : Link.Move ω ω') = true →
          s.callback = none) →
        P { s.track (.client a : Link.Move ω ω') with
          link := l })
    (hServer :
      ∀ (a : Action ω') (l : Link),
        Link.step (sessions setup) s.link (.server a) = some l →
        l.client = s.link.client →
        l.server = s.link.server.update setup.server a →
        P { s with link := l })
    (hReturn :
      ∀ j, s.callback = some j →
        P { s with
          callback := none
          calls := s.calls ++ [.returned j] })
    (hStart : P { s with hasStrand := true })
    (hPost :
      ∀ work, P { s with strand := s.strand ++ [work] })
    (hWork :
      ∀ work rest,
        P ({ s with strand := rest }.runWork work))
    (hBegin :
      ∀ payload, s.pc = .ready → P (s.begin payload))
    (hVisit :
      ∀ payload listed, s.pc = .visiting payload listed →
        P (s.visit setup payload listed)) :
    P s' := by
  cases m with
  | link m =>
      simp only [step, Option.ite_none_right_eq_some,
        Option.map_eq_some_iff] at hStep
      rcases hStep with ⟨hFree, l, hLink, rfl⟩
      rcases Link.step_cases hLink with
        ⟨a, rfl, _, hEnabled, rfl⟩ | ⟨a, rfl, _, _, rfl⟩
      · exact hClient a _ hLink hEnabled rfl rfl hFree
      · exact hServer a _ hLink rfl rfl
  | callbackReturns =>
      simp only [step, Option.map_eq_some_iff] at hStep
      rcases hStep with ⟨j, hJ, rfl⟩
      exact hReturn j hJ
  | startServer =>
      rcases Option.some.inj hStep with rfl
      exact hStart
  | post work =>
      simp only [step, Option.ite_none_right_eq_some] at hStep
      rcases Option.some.inj hStep.2 with rfl
      exact hPost work
  | runStrand =>
      simp only [step] at hStep
      split at hStep
      · cases hStep
      · rcases Option.some.inj hStep with rfl
        exact hWork _ _
  | notify payload =>
      simp only [step] at hStep
      split at hStep
      · next hPc =>
          rcases Option.some.inj hStep with rfl
          exact hBegin payload hPc
      · cases hStep
      · cases hStep
  | visit =>
      simp only [step] at hStep
      split at hStep
      · next payload listed hPc =>
          rcases Option.some.inj hStep with rfl
          exact hVisit payload listed hPc
      · cases hStep
      · cases hStep

/- The link of a feed is a link. -/
theorem link_reachable
    {setup : Link.Setup ω ω'}
    {s : Feed}
    (hReach : Reachable setup s) :
    Link.Reachable (sessions setup) s.link := by
  induction hReach with
  | start => exact .start
  | @next s s' m _ _ hStep hInv =>
      apply step_cases
        (P := fun s' : Feed =>
          Link.Reachable (sessions setup) s'.link) hStep
      case hClient =>
        intro a l hMove _ _ _ _
        exact hInv.next trivial hMove
      case hServer =>
        intro a l hMove _ _
        exact hInv.next trivial hMove
      case hReturn => exact fun _ _ => hInv
      case hStart => exact hInv
      case hPost => exact fun _ => hInv
      case hWork =>
        intro work rest
        rw [link_runWork]
        exact hInv
      case hBegin =>
        intro payload _
        rw [link_begin]
        exact hInv
      case hVisit =>
        intro payload listed _
        unfold visit
        split
        · have hMove :=
            Link.step_server (sessions setup) s.link
              (a := .tryNotify payload.funcName payload.buffer)
              trivial trivial
          exact hInv.next trivial hMove
        · exact hInv

/- Its ends are sessions, fed with what the other wrote. -/
theorem ends
    {setup : Link.Setup ω ω'}
    {s : Feed}
    (hReach : Reachable setup s) :
    Link.Ends (sessions setup) (fun _ _ => True)
      (fun _ _ => True) s.link :=
  Link.ends (fun _ _ _ => trivial) (fun _ _ _ => trivial)
    (link_reachable hReach)

end Feed

end GrlxRpc
