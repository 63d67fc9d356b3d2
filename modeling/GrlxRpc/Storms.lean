import GrlxRpc.Link

/-
  Replies do not breed replies.

  Request and ping frames are the only ones that are
  answered, each at most once. What is still to be answered,
  on its way or being handled, bounds the frames that two
  sessions queue while their applications start nothing.

  The bound needs readers that are aligned with the frames
  that were sent, or whose side can queue nothing any more.

  Main declarations:
    * `WriteItem.asks` and `Session.handling`
    * `Session.weight` and `Session.weight_update`
    * `Session.load` and `Session.load_update`
    * `Link.Settled`, `Link.Quiet` and `Link.potential_le`
    * `Link.noStorm`
    * `Link.rejected_frame_answered`
-/

------------------------------------------------------------
-- Frames That Are Answered
------------------------------------------------------------

namespace GrlxRpc

def MsgType.asks : MsgType → Bool
  | request => true
  | ping => true
  | nop => false
  | response => false
  | notification => false
  | error => false
  | pong => false

def WriteItem.asks (item : WriteItem) : Bool :=
  item.header.incomingType.any MsgType.asks

/- Does the source of the item answer a request? -/
def Source.isReply : Source → Bool
  | reply _ => true
  | call _ => false
  | notify => false
  | tryNotify => false
  | ping => false
  | pong => false

/- Does the reader hold a ping or a request to be answered? -/
def ReaderPc.answers : ReaderPc → Bool
  | pong => true
  | body _ .limited => true
  | body _ .request => true
  | body _ .response => false
  | body _ .notification => false
  | body _ .error => false
  | header => false
  | complete _ _ => false
  | completing _ _ => false
  | completed _ => false
  | rejecting _ _ _ => false
  | rejected _ _ => false
  | close _ => false
  | closing _ => false
  | exited => false

/- Has the request's reply not been offered to the queue? -/
def RequestPc.isPending : RequestPc → Bool
  | rejecting => true
  | spawned => true
  | running => true
  | answering _ => true
  | sending _ => false
  | done => false

/- Does the header leave something to be answered? -/
def Intake.answers : Intake → Bool
  | answerPing => true
  | oversizedRequest => true
  | read .limited => true
  | read .request => true
  | read .response => false
  | read .notification => false
  | read .error => false
  | drop => false
  | skip => false
  | oversized => false
  | emptyError => false

namespace Session

variable {ω ω' : Type}
variable {cfg : Config ω} {cfg' : Config ω'}
variable {ok : Session → Action ω → Prop}
variable {ok' : Session → Action ω' → Prop}
variable {s peer : Session}
variable {a : Action ω}

/- Request and ping frames taken and not yet answered. -/
def handling (s : Session) : Nat :=
  s.reader.answers.toNat +
    s.requests.countP fun request => request.pc.isPending

/- An action that starts or queues a frame of one's own. -/
def isOwn : Action ω → Bool
  | .generateToken _ _ => true
  | .queueCall _ => true
  | .notify _ _ => true
  | .tryNotify _ _ => true
  | .tryPing => true
  | _ => false

/- Other actions queue replies and pongs only. -/
theorem asks_admits
    (cfg : Config ω)
    (s : Session)
    (hOther : isOwn a = false) :
    ∀ item ∈ s.admits cfg a, item.asks = false := by
  intro item hMem
  revert hOther
  apply admits_cases
    (P := fun a item => isOwn a = false → item.asks = false)
    hMem
  case hCall => exact fun _ _ hOther => by cases hOther
  case hNotify => exact fun _ _ hOther => by cases hOther
  case hTryNotify => exact fun _ _ hOther => by cases hOther
  case hPing => exact fun hOther => by cases hOther
  case hPong =>
    intro _
    simp [WriteItem.asks, WriteItem.pong, MsgType.asks]
  case hReject =>
    intro rid header closes _
    simp [WriteItem.asks, WriteItem.respond, MsgType.asks]
  case hReply =>
    intro rid header answer _
    cases answer <;>
      simp [WriteItem.asks, WriteItem.respond, Answer.type,
        MsgType.asks]

/- An intake that is to be answered comes of such a header. -/
theorem asks_of_intake
    {limits : SessionLimits}
    {granted : Bool}
    {header : Header}
    (hAnswers :
      (intake limits granted header).answers = true) :
    header.magic = magicHeaderNumber ∧
      header.incomingType.any MsgType.asks = true := by
  by_cases hMagic : header.magic = magicHeaderNumber
  · refine ⟨hMagic, ?_⟩
    cases hType : header.incomingType with
    | none =>
        simp [intake, hMagic, hType, Intake.answers] at hAnswers
    | some type =>
        cases type with
        | request | ping => rfl
        | nop | pong =>
            simp [intake, hMagic, hType, Intake.answers]
              at hAnswers
        | response | notification =>
            simp only [intake, hMagic, hType, ne_eq, not_true,
              if_false] at hAnswers
            split at hAnswers <;> cases hAnswers
        | error =>
            simp only [intake, hMagic, hType, ne_eq, not_true,
              if_false] at hAnswers
            split at hAnswers
            · split at hAnswers <;> cases hAnswers
            · cases hAnswers
  · simp [intake, hMagic, Intake.answers] at hAnswers

------------------------------------------------------------
-- Handling
------------------------------------------------------------

/- A header adds what it leaves to be answered. -/
theorem handling_readHeader
    (cfg : Config ω)
    {now : Int}
    (hReader : s.reader = .header) :
    (s.update cfg (.readHeader now)).handling =
      s.handling + (s.nextIntake cfg now).answers.toNat := by
  simp only [handling, update, hReader, List.countP_append]
  cases s.nextIntake cfg now with
  | read use =>
      cases use <;>
        simp [afterHeader, oversizedRequest,
          ReaderPc.answers, Intake.answers, Nat.add_comm]
  | answerPing =>
      simp [afterHeader, oversizedRequest, ReaderPc.answers,
        Intake.answers, Nat.add_comm]
  | _ =>
      simp [afterHeader, oversizedRequest, ReaderPc.answers,
        Intake.answers, RequestPc.isPending]

/- A request moves on, and what it queues was pending. -/
theorem handling_move
    {s' : Session}
    {rid : Nat}
    {request : Request}
    {f : Request → RequestPc}
    {queued : Nat}
    (hGet : s.requests[rid]? = some request)
    (hRequests :
      s'.requests =
        s.requests.modify rid fun request =>
          { request with pc := f request })
    (hReader :
      s'.reader.answers.toNat ≤ s.reader.answers.toNat)
    (hPc :
      (f request).isPending.toNat + queued ≤
        request.pc.isPending.toNat) :
    s'.handling + queued ≤ s.handling := by
  have hCount :=
    Records.countP_modify
      (fun request : Request => request.pc.isPending) hGet
      fun request => { request with pc := f request }
  rw [handling, handling, hRequests]
  simp only at hCount
  omega

/- What is queued for a request or a ping was handled. -/
theorem handling_update
    (cfg : Config ω)
    (hReach : ReachableBy cfg ok s)
    (hEnabled : s.Enabled a)
    (hOther : isOwn a = false)
    (hNot : ∀ now, a ≠ .readHeader now) :
    (s.update cfg a).handling + (s.admits cfg a).length ≤
      s.handling := by
  have hReader :
      ∀ {s' : Session}, s'.requests = s.requests →
        s'.reader.answers = false →
          s'.handling ≤ s.handling := by
    intro s' hRequests hNone
    rw [handling, handling, hRequests, hNone]
    exact Nat.add_le_add_right (Nat.zero_le _) _
  cases a with
  | readHeader now => exact absurd rfl (hNot now)
  | readBody header use =>
      simp only [handling, update, admits, hEnabled.1,
        List.countP_append]
      cases use <;>
        simp [afterBody, readRequest, ReaderPc.answers,
          RequestPc.isPending, Nat.add_comm]
  | sendPong =>
      have hAt : s.reader = .pong := hEnabled
      simp only [handling, update, admits, hAt]
      cases s.writeChannel.hasRoom <;>
        simp only [ReaderPc.answers, Bool.toNat_true,
          Bool.toNat_false, Bool.false_eq_true, if_true,
          if_false, List.length_nil, List.length_singleton]
      all_goals omega
  | readFail | resumeResult i =>
      exact hReader rfl rfl
  | findOperation token result =>
      refine hReader rfl ?_
      simp only [update]
      cases s.channels.lookup token <;> rfl
  | sendResult i result =>
      refine hReader rfl ?_
      simp only [update]
      split <;> rfl
  | readerClose again =>
      refine hReader rfl ?_
      by_cases hIdle : s.teardown = .idle <;> cases again <;>
        simp [update, hIdle, ReaderPc.afterClose,
          ReaderPc.answers]
  | readerClosed again =>
      refine hReader rfl ?_
      cases again <;> rfl
  | rejectRequest rid header closes =>
      have hReject := (replyInv hReach).2
      have hAt : s.reader = .rejecting rid header closes :=
        hEnabled
      rw [hAt] at hReject
      rcases hReject with ⟨request, hGet, -, -, hPc⟩
      refine handling_move hGet rfl ?_ ?_
      · simp only [update]
        split <;> exact Nat.zero_le _
      · rw [hPc, admits]
        cases s.writeChannel.isOpen <;>
          simp [RequestPc.isPending]
  | resumeReject rid closes =>
      have hReject := (replyInv hReach).2
      rw [hEnabled.1] at hReject
      rcases hReject with ⟨request, hGet, -, hPc⟩
      refine handling_move hGet rfl ?_ (Nat.zero_le _)
      cases closes <;> exact Nat.zero_le _
  | startHandler rid header w =>
      rcases hEnabled with ⟨request, hGet, -, hPc⟩
      refine handling_move hGet rfl (le_refl _) ?_
      rw [hPc]
      exact Bool.toNat_le _
  | finishHandler rid w =>
      rcases hEnabled with ⟨request, hGet, hPc⟩
      refine handling_move hGet
        (f := fun request =>
          .answering (handlerAnswer cfg w request))
        rfl (le_refl _) ?_
      rw [hPc]
      exact le_refl _
  | sendReply rid header answer =>
      rcases hEnabled with ⟨request, hGet, -, hPc⟩
      refine handling_move hGet rfl (le_refl _) ?_
      rw [hPc, admits]
      cases s.writeChannel.isOpen <;> cases answer <;>
        simp [RequestPc.isPending, afterOffer]
  | resumeReply rid =>
      rcases hEnabled with ⟨⟨request, hGet, -, hSending⟩, -⟩
      exact handling_move hGet
        (f := fun _ => .done) rfl (le_refl _)
        (Nat.zero_le _)
  | generateToken callName reqBuffer | queueCall i
  | notify callName buffer | tryNotify callName buffer
  | tryPing => cases hOther
  | _ => exact le_refl _

------------------------------------------------------------
-- Weight And Load
------------------------------------------------------------

/-
  What the session has still to answer: the frames of its
  peer that it has not taken, and those it is handling.
-/
def weight (s peer : Session) : Nat :=
  (peer.writeChannel.admitted.drop s.taken.length).countP
      WriteItem.asks +
    s.handling

/- Without its queue a session answers nothing. -/
def load (s peer : Session) : Nat :=
  if s.writeChannel.isOpen then s.weight peer else 0

theorem length_taken_update
    (cfg : Config ω)
    (s : Session)
    (hNot : ∀ now, a ≠ .readHeader now) :
    (s.update cfg a).taken.length = s.taken.length := by
  cases a with
  | readHeader now => exact absurd rfl (hNot now)
  | readBody header use =>
      have hHeads :=
        map_fst_fillLast (s.nextBody header).bytes s.taken
      simpa [update] using congrArg List.length hHeads
  | _ => rfl

/- The header that an aligned reader takes was sent. -/
theorem asks_of_header
    (hReach : ReachableBy cfg (Settles Teardown.hasClosed) s)
    (hPeer : ReachableBy cfg' ok' peer)
    (hStream : s.received <+: peer.outbound)
    (hOpen : s.writeChannel.isOpen = true)
    {now : Int}
    (hEnabled : s.Enabled (.readHeader now : Action ω))
    (hAnswers : (s.nextIntake cfg now).answers = true) :
    ∃ item,
      peer.writeChannel.admitted[s.taken.length]? = some item ∧
        item.asks = true := by
  rcases asks_of_intake hAnswers with ⟨hMagic, hAsks⟩
  have hNext :=
    hReach.next (a := .readHeader now)
      (fun hGoes => by cases hGoes)
      ((step_eq_some_iff _ _ _ _).mpr ⟨hEnabled, rfl⟩)
  have hHeads :=
    headInv (latch_hasClosed cfg) (fun _ _ h => h) hReach
  have hNextHeads :=
    headInv (latch_hasClosed cfg) (fun _ _ h => h) hNext
  have hNotPassed : s.teardown.hasClosed = false := by
    have hClosed := isOpen_eq hReach
    rw [hOpen] at hClosed
    simpa using hClosed.symm
  have hClean :
      Clean cfg.limits
        (s.update cfg (.readHeader now)).taken
        s.taken.length := by
    intro frame hMem
    have hOld : frame ∈ s.taken := by
      simpa [update] using hMem
    refine hHeads.within ?_ hNotPassed frame.1
      (List.mem_map_of_mem hOld)
    rw [hEnabled.1]
    rfl
  have hTaken :
      (s.update cfg (.readHeader now)).taken[
          s.taken.length]? =
        some (s.nextHeader cfg, []) :=
    List.getElem?_concat_length
  rcases item_of_taken hNext hPeer hStream hNextHeads hTaken
      hMagic hClean with ⟨item, hItem, hHeader, -⟩
  refine ⟨item, ?_, ?_⟩
  · exact Records.getElem?_mono
      peer.writeChannel.accepted_prefix_admitted hItem
  · have hSame : s.nextHeader cfg = item.header := hHeader
    rw [WriteItem.asks, ← hSame]
    exact hAsks

/- A frame that is taken and answered was to be answered. -/
theorem weight_update
    (hReach : ReachableBy cfg (Settles Teardown.hasClosed) s)
    (hPeer : ReachableBy cfg' ok' peer)
    (hStream : s.received <+: peer.outbound)
    (hOpen : s.writeChannel.isOpen = true)
    (hEnabled : s.Enabled a)
    (hOther : isOwn a = false) :
    (s.update cfg a).weight peer +
        (s.admits cfg a).length ≤
      s.weight peer := by
  by_cases hHeader : ∃ now, a = .readHeader now
  · rcases hHeader with ⟨now, rfl⟩
    have hHandling :
        (s.update cfg (.readHeader now)).handling =
          s.handling + (s.nextIntake cfg now).answers.toNat :=
      handling_readHeader cfg hEnabled.1
    have hLength :
        (s.update cfg (.readHeader now)).taken.length =
          s.taken.length + 1 := by
      simp [update]
    have hNone :
        (s.admits cfg (.readHeader now)).length = 0 := rfl
    have hDrop :=
      List.drop_eq_getElem?_toList_append
        (l := peer.writeChannel.admitted) (i := s.taken.length)
    rw [weight, weight, hLength, hHandling, hNone, hDrop,
      List.countP_append]
    cases hAnswers : (s.nextIntake cfg now).answers with
    | true =>
        rcases asks_of_header hReach hPeer hStream hOpen
            hEnabled hAnswers with ⟨item, hItem, hAsks⟩
        simp only [hItem, Option.toList_some,
          List.countP_singleton, hAsks, if_true,
          Bool.toNat_true]
        omega
    | false =>
        simp only [Bool.toNat_false]
        omega
  · have hNot : ∀ now, a ≠ .readHeader now :=
      fun now hEq => hHeader ⟨now, hEq⟩
    have hHandling :=
      handling_update cfg hReach hEnabled hOther hNot
    rw [weight, weight, length_taken_update cfg s hNot]
    omega

/- A session queues no more than its load pays for. -/
theorem load_update
    (hReach : ReachableBy cfg (Settles Teardown.hasClosed) s)
    (hPeer : ReachableBy cfg' ok' peer)
    (hStream : s.received <+: peer.outbound)
    (hEnabled : s.Enabled a)
    (hOther : isOwn a = false) :
    (s.update cfg a).load peer + (s.admits cfg a).length ≤
      s.load peer := by
  cases hOpen : s.writeChannel.isOpen with
  | true =>
      have hWeight :=
        weight_update hReach hPeer hStream hOpen hEnabled
          hOther
      have hLoad :
          (s.update cfg a).load peer ≤
            (s.update cfg a).weight peer := by
        unfold load
        split
        · exact le_refl _
        · exact Nat.zero_le _
      have hFull : s.load peer = s.weight peer := by
        rw [load, if_pos hOpen]
      omega
  | false =>
      have hStill := isOpen_update cfg s a hOpen
      have hNone := admits_of_closed cfg s a hOpen
      simp [load, hStill, hNone]

/- What a session answers is no load for its peer. -/
theorem load_of_peer
    (cfg : Config ω)
    (s peer : Session)
    (hOther : isOwn a = false) :
    peer.load (s.update cfg a) = peer.load s := by
  have hNone :
      ∀ n,
        ((s.admits cfg a).drop n).countP WriteItem.asks = 0 := by
    intro n
    rw [List.countP_eq_zero]
    intro item hMem
    simp [asks_admits cfg s hOther item
      (List.mem_of_mem_drop hMem)]
  rw [load, load, weight, weight, admitted_update,
    List.drop_append, List.countP_append, hNone,
    Nat.add_zero]

------------------------------------------------------------
-- Unanswered Frames
------------------------------------------------------------

/-
  The request and ping frames that the peer queued and the
  session has not answered: not taken yet, being handled, or
  with a reply that waits for a slot. Frames that a closed
  stream will never deliver count too.
-/
def unanswered (s peer : Session) : Nat :=
  (peer.writeChannel.accepted.drop s.taken.length).countP
      WriteItem.asks +
    s.handling + s.writeChannel.senders.length

/- Only replies wait for a slot of the queue. -/
def OnlyReplies (s : Session) : Prop :=
  ∀ item ∈ s.writeChannel.senders, item.source.isReply = true

instance (s : Session) : Decidable s.OnlyReplies :=
  inferInstanceAs (Decidable (∀ item ∈ _, _))

/- A waiting reply asks for nothing. -/
theorem asks_of_isReply
    (hReach : ReachableBy cfg ok s)
    {item : WriteItem}
    (hMem : item ∈ s.writeChannel.admitted)
    (hReply : item.source.isReply = true) :
    item.asks = false := by
  cases produced hReach item hMem with
  | reply answer header rid =>
      cases answer <;>
        simp [WriteItem.asks, WriteItem.respond, Answer.type,
          MsgType.asks]
  | request | notify | tryNotify | ping | pong => cases hReply

theorem load_le_unanswered
    (hPeer : ReachableBy cfg' ok' peer)
    (hReplies : peer.OnlyReplies) :
    s.load peer + s.writeChannel.senders.length ≤
      s.unanswered peer := by
  have hNone :
      ∀ n,
        (peer.writeChannel.senders.drop n).countP
          WriteItem.asks = 0 := by
    intro n
    rw [List.countP_eq_zero]
    intro item hMem
    have hSender := List.mem_of_mem_drop hMem
    simp [asks_of_isReply hPeer
      (List.mem_append_right _ hSender)
      (hReplies item hSender)]
  have hWeight :
      s.weight peer + s.writeChannel.senders.length =
        s.unanswered peer := by
    rw [weight, unanswered, Channel.admitted,
      List.drop_append, List.countP_append, hNone,
      Nat.add_zero]
  unfold load
  split <;> omega

end Session

------------------------------------------------------------
-- Two Sessions
------------------------------------------------------------

namespace Link

variable {ω ω' : Type}
variable {setup : Setup ω ω'}

/-
  Neither reader goes on behind a rejected frame while
  another `close()` has yet to close its side's queue.
-/
def Settled
    (l : Link) : Move ω ω' → Prop
  | .client a => l.client.Settles Teardown.hasClosed a
  | .server a => l.server.Settles Teardown.hasClosed a

instance
    (l : Link) :
    (m : Move ω ω') → Decidable (l.Settled m)
  | .client a =>
      inferInstanceAs
        (Decidable (l.client.Settles Teardown.hasClosed a))
  | .server a =>
      inferInstanceAs
        (Decidable (l.server.Settles Teardown.hasClosed a))

/-
  Neither application starts a call, a notify or a ping, and
  no call that was started comes to queue its frame.
-/
def Quiet : Move ω ω' → Prop
  | .client a => Session.isOwn a = false
  | .server a => Session.isOwn a = false

instance :
    (m : Move ω ω') → Decidable (Quiet m)
  | .client _ => inferInstanceAs (Decidable (_ = _))
  | .server _ => inferInstanceAs (Decidable (_ = _))

/- The continuations in which both applications are quiet. -/
abbrev GoesOn
    (setup : Setup ω ω')
    (ok : Link → Move ω ω' → Prop)
    (l l' : Link) : Prop :=
  Transition.ReachableBy (step setup)
    (fun l m => ok l m ∧ Quiet m) l l'

/- All frames that both sessions have queued. -/
def queued (l : Link) : Nat :=
  l.client.writeChannel.accepted.length +
    l.server.writeChannel.accepted.length

/-
  Requests and pings queued, in flight or being handled, with
  those that can no longer be delivered.
-/
def outstanding (l : Link) : Nat :=
  l.client.unanswered l.server + l.server.unanswered l.client

/- Frames admitted, and those that can still come of them. -/
def potential (l : Link) : Nat :=
  l.client.writeChannel.admitted.length +
    l.server.writeChannel.admitted.length +
      (l.client.load l.server + l.server.load l.client)

/- A quiet step does not raise the potential. -/
theorem potential_step
    {l l' : Link}
    {m : Move ω ω'}
    (hReach : ReachableBy setup Settled l)
    (hQuiet : Quiet m)
    (hStep : step setup l m = some l') :
    l'.potential ≤ l.potential := by
  have hEnds :
      Ends setup (Session.Settles Teardown.hasClosed)
        (Session.Settles Teardown.hasClosed) l :=
    ends (fun _ _ h => h) (fun _ _ h => h) hReach
  rcases step_cases hStep with
    ⟨a, rfl, -, hEnabled, rfl⟩ | ⟨a, rfl, -, hEnabled, rfl⟩
  · have hLoad :=
      Session.load_update hEnds.client hEnds.server
        hEnds.replies hEnabled hQuiet
    have hPeer :=
      Session.load_of_peer setup.client l.client l.server
        hQuiet
    simp only [potential, Session.admitted_update,
      List.length_append, hPeer]
    omega
  · have hLoad :=
      Session.load_update hEnds.server hEnds.client
        hEnds.requests hEnabled hQuiet
    have hPeer :=
      Session.load_of_peer setup.server l.server l.client
        hQuiet
    simp only [potential, Session.admitted_update,
      List.length_append, hPeer]
    omega

/- Nor does a quiet continuation. -/
theorem potential_le
    {l l' : Link}
    (hReach : ReachableBy setup Settled l)
    (hGoesOn : GoesOn setup Settled l l') :
    l'.potential ≤ l.potential := by
  induction hGoesOn with
  | start => exact le_refl _
  | next hPrior hOk hStep ih =>
      have hMid :=
        hReach.trans (hPrior.mono fun _ _ h => h.1)
      exact (potential_step hMid hOk.2 hStep).trans ih

/- What a link has queued it keeps, at both ends. -/
theorem accepted_mono
    {ok : Link → Move ω ω' → Prop}
    {l l' : Link}
    (hGoesOn : Transition.ReachableBy (step setup) ok l l') :
    l.client.writeChannel.accepted <+:
        l'.client.writeChannel.accepted ∧
      l.server.writeChannel.accepted <+:
        l'.server.writeChannel.accepted := by
  induction hGoesOn with
  | start => exact ⟨List.prefix_rfl, List.prefix_rfl⟩
  | next _ _ hStep ih =>
      rcases step_cases hStep with
        ⟨a, rfl, -, -, rfl⟩ | ⟨a, rfl, -, -, rfl⟩
      · exact ⟨ih.1.trans
          (Session.accepted_prefix_update _ _ a), ih.2⟩
      · exact ⟨ih.1, ih.2.trans
          (Session.accepted_prefix_update _ _ a)⟩

/- In between stand the load and the waiting replies. -/
theorem queued_le
    {l l' : Link}
    (hReach : ReachableBy setup Settled l)
    (hClient : l.client.OnlyReplies)
    (hServer : l.server.OnlyReplies)
    (hGoesOn : GoesOn setup Settled l l') :
    l'.queued ≤ l.queued + l.outstanding := by
  have hEnds :
      Ends setup (Session.Settles Teardown.hasClosed)
        (Session.Settles Teardown.hasClosed) l :=
    ends (fun _ _ h => h) (fun _ _ h => h) hReach
  have hPotential := potential_le hReach hGoesOn
  have hLoad :=
    Session.load_le_unanswered (s := l.client) hEnds.server
      hServer
  have hLoad' :=
    Session.load_le_unanswered (s := l.server) hEnds.client
      hClient
  simp only [potential, Channel.admitted, List.length_append]
    at hPotential
  simp only [queued, outstanding]
  omega

/-
  In a quiet continuation two sessions queue at most one
  frame for each request or ping that was queued, in flight
  or being handled. Where none was, they queue nothing.
-/
theorem noStorm
    (setup : Setup ω ω')
    (l l' : Link)
    (hReach : ReachableBy setup Settled l)
    (hClient : l.client.OnlyReplies)
    (hServer : l.server.OnlyReplies)
    (hGoesOn : GoesOn setup Settled l l') :
    l'.queued ≤ l.queued + l.outstanding ∧
      (l.outstanding = 0 →
        l'.client.writeChannel.accepted =
            l.client.writeChannel.accepted ∧
          l'.server.writeChannel.accepted =
            l.server.writeChannel.accepted) := by
  have hQueued := queued_le hReach hClient hServer hGoesOn
  refine ⟨hQueued, fun hNone => ?_⟩
  rcases accepted_mono hGoesOn with ⟨hFirst, hSecond⟩
  have hLength := hFirst.length_le
  have hLength' := hSecond.length_le
  simp only [queued, hNone] at hQueued
  constructor
  · exact (hFirst.eq_of_length (by omega)).symm
  · exact (hSecond.eq_of_length (by omega)).symm

------------------------------------------------------------
-- A Quiet Exchange
------------------------------------------------------------

/- The client's call of `wipe` is on its way. -/
def wipeSent : List (Move Unit Unit) :=
  [.client (.generateToken (literal "wipe") Buffer.empty),
    .client (.registerOperation 0),
    .client (.queueCall 0),
    .client .writerReceive,
    .client .writerTake,
    .client (.writerWrite (wipeRequest.bytes .little) [])]

/- The server answers it, and the client takes the answer. -/
def wipeAnswered : List (Move Unit Unit) :=
  [.server (.deliver (wipeRequest.bytes .little)),
    .server (.readHeader 1),
    .server (.readBody wipeRequest.header .request),
    .server (.startHandler 0 wipeRequest.header ()),
    .server (.finishHandler 0 ()),
    .server (.sendReply 0 wipeRequest.header
      (.response Session.wiped)),
    .server .writerReceive,
    .server .writerTake,
    .server (.writerWrite (wipeResponse.bytes .little) []),
    .client (.deliver (wipeResponse.bytes .little)),
    .client (.readHeader 1),
    .client (.readBody wipeResponse.header .response)]

/- One request in flight is worth one frame. -/
theorem noStorm_wipe :
    ∃ l l' : Link, Reachable wiping l ∧
      l.queued = 1 ∧ l.outstanding = 1 ∧
        l'.queued = 2 ∧
          l'.queued ≤ l.queued + l.outstanding := by
  obtain ⟨l, hReach, hRun⟩ :=
    Transition.exists_of_runBy (step wiping) Settled
      (start wiping) wipeSent
      (fun l : Link =>
        decide (l.client.OnlyReplies ∧
          l.server.OnlyReplies ∧
          l.queued = 1 ∧ l.outstanding = 1) &&
        (Transition.runBy (step wiping)
          (fun l m => Settled l m ∧ Quiet m) l
          wipeAnswered).any fun l' : Link =>
            decide (l'.queued = 2))
      (by decide +kernel)
  rcases (Bool.and_eq_true _ _).mp hRun with
    ⟨hBefore, hAfter⟩
  rcases of_decide_eq_true hBefore with
    ⟨hClient, hServer, hQueued, hOutstanding⟩
  rcases (Option.any_eq_true _ _).mp hAfter with
    ⟨l', hRuns, hQueued'⟩
  have hGoesOn : GoesOn wiping Settled l l' :=
    Transition.reachableBy_of_runBy hRuns
  exact ⟨l, l', hReach.reachable, hQueued, hOutstanding,
    of_decide_eq_true hQueued',
    (noStorm wiping l l' hReach hClient hServer hGoesOn).1⟩

------------------------------------------------------------
-- A Rejected Frame Is Answered
------------------------------------------------------------

/- A notification whose body is a request header. -/
def forgedNotification : WriteItem :=
  .notify true (literal "put") forgedBody

/- It is the only frame, and on its way to the server. -/
def notificationSent : List (Move Unit Unit) :=
  [.client (.notify (literal "put") forgedBody),
    .client .writerReceive,
    .client .writerTake,
    .client (.writerWrite
      (forgedNotification.bytes .little) [])]

/-
  The server rejects it as oversized while another thread is
  inside `close()`, reads on in its body, and answers.
-/
def notificationAnswered : List (Move Unit Unit) :=
  [.server (.deliver (forgedNotification.bytes .little)),
    .server (.readHeader 1),
    .server .close,
    .server (.readerClose true),
    .server (.readHeader 2),
    .server (.readBody forged .request),
    .server (.startHandler 0 forged ()),
    .server (.finishHandler 0 ()),
    .server (.sendReply 0 forged (.response Session.wiped))]

theorem rejected_frame_answered :
    ∃ l l' : Link, Reachable limited l ∧
      l.client.OnlyReplies ∧ l.server.OnlyReplies ∧
        l.outstanding = 0 ∧
          GoesOn limited (fun _ _ => True) l l' ∧
            ¬ l'.queued ≤ l.queued + l.outstanding := by
  obtain ⟨l, hReach, hRun⟩ :=
    Transition.exists_of_run (step limited)
      (start limited) notificationSent
      (fun l : Link =>
        decide (l.client.OnlyReplies ∧
          l.server.OnlyReplies ∧ l.outstanding = 0) &&
        (Transition.runBy (step limited)
          (fun _ m => True ∧ Quiet m) l
          notificationAnswered).any fun l' : Link =>
            decide (¬ l'.queued ≤ l.queued + l.outstanding))
      (by decide +kernel)
  rcases (Bool.and_eq_true _ _).mp hRun with
    ⟨hBefore, hAfter⟩
  rcases of_decide_eq_true hBefore with
    ⟨hClient, hServer, hNone⟩
  rcases (Option.any_eq_true _ _).mp hAfter with
    ⟨l', hRuns, hMore⟩
  exact ⟨l, l', hReach, hClient, hServer, hNone,
    Transition.reachableBy_of_runBy hRuns,
    of_decide_eq_true hMore⟩

end Link

end GrlxRpc
