import GrlxRpc.Session.Requests

/-
  A client session and a server session, joined by two byte
  streams that deliver in order what was written.

  A call that returns does so with the body of the response
  the server queued for that call's own request frame: the
  reply's token leads back to one request, the request's
  place in the stream to one call, and tokens do not repeat.

  Main declarations:
    * `Link`, `Link.Setup`, `Link.Move` and `Link.step`
    * `Link.Joined` and `Link.joined`
    * `Session.item_of_clean`
    * `Link.Answers` and `Link.Correlated`
    * `Link.correlated`
-/

------------------------------------------------------------
-- Two Sessions
------------------------------------------------------------

namespace GrlxRpc

structure Link where
  client : Session
  server : Session

namespace Link

variable {ω ω' : Type}

/- What the two ends are built with. -/
structure Setup (ω ω' : Type) where
  client : Config ω
  server : Config ω'

/- A step of one end. -/
inductive Move (ω ω' : Type)
  | client (a : Action ω)
  | server (a : Action ω')

/- Delivered bytes are the next that the other end wrote. -/
def Carries
    (reader writer : Session) : Action ω → Prop
  | .deliver bytes =>
      reader.received ++ bytes <+: writer.outbound
  | _ => True

instance
    (reader writer : Session)
    (a : Action ω) : Decidable (Carries reader writer a) := by
  unfold Carries
  split <;> infer_instance

def start (setup : Setup ω ω') : Link where
  client := .start setup.client
  server := .start setup.server

def step
    (setup : Setup ω ω')
    (l : Link) : Move ω ω' → Option Link
  | .client a =>
      if Carries l.client l.server a then
        (l.client.step setup.client a).map fun s =>
          { l with client := s }
      else
        none
  | .server a =>
      if Carries l.server l.client a then
        (l.server.step setup.server a).map fun s =>
          { l with server := s }
      else
        none

/- A step of the link is a step of one end, which carries. -/
theorem step_cases
    {setup : Setup ω ω'}
    {l l' : Link}
    {m : Move ω ω'}
    (hStep : step setup l m = some l') :
    (∃ a, m = .client a ∧ Carries l.client l.server a ∧
      l.client.Enabled a ∧
        l' =
          { l with
            client := l.client.update setup.client a }) ∨
    ∃ a, m = .server a ∧ Carries l.server l.client a ∧
      l.server.Enabled a ∧
        l' =
          { l with
            server := l.server.update setup.server a } := by
  cases m with
  | client a =>
      simp only [step, Option.ite_none_right_eq_some,
        Option.map_eq_some_iff] at hStep
      rcases hStep with ⟨hCarries, s, hStep, rfl⟩
      rcases (Session.step_eq_some_iff _ _ _ _).mp hStep with
        ⟨hEnabled, rfl⟩
      exact .inl ⟨a, rfl, hCarries, hEnabled, rfl⟩
  | server a =>
      simp only [step, Option.ite_none_right_eq_some,
        Option.map_eq_some_iff] at hStep
      rcases hStep with ⟨hCarries, s, hStep, rfl⟩
      rcases (Session.step_eq_some_iff _ _ _ _).mp hStep with
        ⟨hEnabled, rfl⟩
      exact .inr ⟨a, rfl, hCarries, hEnabled, rfl⟩

theorem step_server
    (setup : Setup ω ω')
    (l : Link)
    {a : Action ω'}
    (hCarries : Carries l.server l.client a)
    (hEnabled : l.server.Enabled a) :
    step setup l (.server a) =
      some { l with
        server := l.server.update setup.server a } := by
  rw [step, if_pos hCarries,
    (Session.step_eq_some_iff _ _ _ _).mpr ⟨hEnabled, rfl⟩]
  rfl

/- The links that runs of moves meeting `ok` reach. -/
abbrev ReachableBy
    (setup : Setup ω ω')
    (ok : Link → Move ω ω' → Prop)
    (l : Link) : Prop :=
  Transition.ReachableBy (step setup) ok (start setup) l

abbrev Reachable
    (setup : Setup ω ω')
    (l : Link) : Prop :=
  Transition.Reachable (step setup) (start setup) l

/-
  No reader goes on behind a rejected frame while another
  `close()` is under way: at the client until it has emptied
  the table, at the server until it has closed the queue.
-/
def Orderly
    (l : Link) : Move ω ω' → Prop
  | .client a => l.client.Correlates a
  | .server a => l.server.Settles Teardown.hasClosed a

instance
    (l : Link) :
    (m : Move ω ω') → Decidable (l.Orderly m)
  | .client a =>
      inferInstanceAs (Decidable (l.client.Correlates a))
  | .server a =>
      inferInstanceAs
        (Decidable (l.server.Settles Teardown.hasClosed a))

end Link

------------------------------------------------------------
-- The Streams
------------------------------------------------------------

namespace Session

variable {ω : Type}
variable {cfg : Config ω}

/- What was written stays written. -/
theorem outbound_prefix_update
    (cfg : Config ω)
    (s : Session)
    (a : Action ω) :
    s.outbound <+: (s.update cfg a).outbound := by
  cases a with
  | writerWrite chunk rest => exact List.prefix_append _ _
  | _ => exact List.prefix_rfl

theorem received_update
    (cfg : Config ω)
    {s peer : Session}
    {a : Action ω}
    (hCarries : Link.Carries s peer a)
    (hOld : s.received <+: peer.outbound) :
    (s.update cfg a).received <+: peer.outbound := by
  cases a with
  | deliver bytes => exact hCarries
  | _ => exact hOld

end Session

namespace Link

variable {ω ω' : Type}
variable {setup : Setup ω ω'}

/- What every reachable link gives about its two ends. -/
structure Joined
    (setup : Setup ω ω')
    (l : Link) : Prop where
  client :
    Session.ReachableBy setup.client Session.Correlates
      l.client
  server :
    Session.ReachableBy setup.server
      (Session.Settles Teardown.hasClosed) l.server
  requests : l.server.received <+: l.client.outbound
  replies : l.client.received <+: l.server.outbound

/-
  The ends of a link are reachable sessions, and each has
  received what the other wrote.
-/
structure Ends
    (setup : Setup ω ω')
    (okClient : Session → Action ω → Prop)
    (okServer : Session → Action ω' → Prop)
    (l : Link) : Prop where
  client : Session.ReachableBy setup.client okClient l.client
  server : Session.ReachableBy setup.server okServer l.server
  requests : l.server.received <+: l.client.outbound
  replies : l.client.received <+: l.server.outbound

theorem ends
    {ok : Link → Move ω ω' → Prop}
    {okClient : Session → Action ω → Prop}
    {okServer : Session → Action ω' → Prop}
    (hClient :
      ∀ l a, ok l (.client a) → okClient l.client a)
    (hServer :
      ∀ l a, ok l (.server a) → okServer l.server a)
    {l : Link}
    (hReach : ReachableBy setup ok l) :
    Ends setup okClient okServer l := by
  refine hReach.invariant
    ⟨.start, .start, List.prefix_rfl, List.prefix_rfl⟩ ?_
  intro l m l' _ hInv hOk hStep
  rcases step_cases hStep with
    ⟨a, rfl, hCarries, hEnabled, rfl⟩ |
      ⟨a, rfl, hCarries, hEnabled, rfl⟩
  · exact
      { client := hInv.client.next (hClient l a hOk)
          ((Session.step_eq_some_iff _ _ _ _).mpr
            ⟨hEnabled, rfl⟩)
        server := hInv.server
        requests := hInv.requests.trans
          (l.client.outbound_prefix_update setup.client a)
        replies := Session.received_update setup.client
          hCarries hInv.replies }
  · exact
      { client := hInv.client
        server := hInv.server.next (hServer l a hOk)
          ((Session.step_eq_some_iff _ _ _ _).mpr
            ⟨hEnabled, rfl⟩)
        requests := Session.received_update setup.server
          hCarries hInv.requests
        replies := hInv.replies.trans
          (l.server.outbound_prefix_update setup.server a) }

theorem joined
    {l : Link}
    (hReach : ReachableBy setup Orderly l) :
    Joined setup l := by
  have hEnds :
      Ends setup Session.Correlates
        (Session.Settles Teardown.hasClosed) l :=
    ends (fun _ _ h => h) (fun _ _ h => h) hReach
  exact ⟨hEnds.client, hEnds.server, hEnds.requests,
    hEnds.replies⟩

end Link

------------------------------------------------------------
-- Frames And Items
------------------------------------------------------------

/- A wire starts with its first header's magic number. -/
theorem take_wire_cons
    (order : ByteOrder)
    (frame : Frame)
    (rest : List Frame) :
    (wire order (frame :: rest)).take 8 =
      order.encode frame.1.magic := by
  have hLength := ByteOrder.length_encode order frame.1.magic
  rw [wire, Framing.Code.flat_cons]
  change ((frame.1.toBytes order) ++ _).take 8 = _
  rw [Header.toBytes, List.append_assoc]
  exact (Header.take_drop_words hLength).1

/-
  Two hosts that agree on the magic number of the first
  header have one byte order.
-/
theorem order_eq_of_prefix
    {order order' : ByteOrder}
    {taken frames : List Frame}
    (hPrefix : wire order taken <+: wire order' frames)
    {first : Frame}
    (hFirst : taken[0]? = some first)
    (hMagic : first.1.magic = magicHeaderNumber)
    (hFrames :
      ∀ frame ∈ frames, frame.1.magic = magicHeaderNumber) :
    order = order' := by
  have hEncode :
      order.encode magicHeaderNumber =
          order'.encode magicHeaderNumber →
        order = order' := by
    cases order <;> cases order' <;> decide
  obtain ⟨rest, rfl⟩ : ∃ rest, taken = first :: rest := by
    cases taken with
    | nil => cases hFirst
    | cons head rest =>
        exact ⟨rest, by rw [Option.some.inj hFirst]⟩
  have hSize : 40 ≤ (wire order (first :: rest)).length :=
    (headerCode order).size_le_length_flat first rest
  rcases hPrefix with ⟨more, hEq⟩
  have hTake := congrArg (List.take 8) hEq
  rw [List.take_append_of_le_length
    (by omega), take_wire_cons, hMagic] at hTake
  cases frames with
  | nil =>
      have hNone : wire order (first :: rest) = [] :=
        (List.append_eq_nil_iff.mp hEq).1
      simp [hNone] at hSize
  | cons frame frames =>
      rw [take_wire_cons, hFrames frame List.mem_cons_self]
        at hTake
      exact hEncode hTake

namespace Session

variable {ω ω' : Type}
variable {cfg : Config ω} {cfg' : Config ω'}

/- Behind frames it read to their end, the reader is aligned. -/
theorem aligned_of_clean
    {ok : Session → Action ω → Prop}
    {s : Session}
    (hReach : ReachableBy cfg ok s)
    {frames : List Frame}
    (hFramed : ∀ frame ∈ frames, Framed frame)
    (hKeepalive : ∀ frame ∈ frames, KeepaliveEmpty frame)
    (hStream : s.received <+: wire cfg.order frames)
    {k : Nat}
    (hClean : Clean cfg.limits s.taken k) :
    ∀ j ≤ k, ∀ frame, s.taken[j]? = some frame →
      ∃ sent, frames[j]? = some sent ∧
        frame.1 = sent.1 ∧
        (frame.2.length = frame.1.msgSize.toNat →
          frame = sent) := by
  intro j
  induction j using Nat.strong_induction_on with
  | _ j ih =>
      intro hLe frame hAt
      have hWithin :
          ∀ n earlier, n < j → s.taken[n]? = some earlier →
            earlier.1.msgSize ≤ cfg.limits.maxMessageBytes := by
        intro n earlier hLt hEarlier
        rcases ih n hLt (by omega) earlier hEarlier with
          ⟨sent, hSent, hHead, -⟩
        have hMem : earlier ∈ s.taken.take k :=
          List.mem_of_getElem? (i := n)
            (by rw [List.getElem?_take_of_lt (by omega),
              hEarlier])
        rcases hClean earlier hMem with
          hSize | ⟨type, hType, hAlive⟩
        · exact hSize
        · -- Keepalives of a peer declare no body.
          have hZero :=
            hKeepalive sent (List.mem_of_getElem? hSent)
              ⟨type, hHead ▸ hType, hAlive⟩
          rw [hHead, hZero]
          exact UInt64.le_iff_toNat_le.mpr (Nat.zero_le _)
      rcases taken_aligned hReach hFramed hKeepalive hStream hAt
          hWithin with ⟨sent, hSent, hHead, -, hWhole⟩
      exact ⟨sent, hSent, hHead, hWhole⟩

/-
  A frame behind clean ones is the item the peer queued at
  its place, also while its body is still to be read.
-/
theorem item_of_taken
    {ok : Session → Action ω → Prop}
    {ok' : Session → Action ω' → Prop}
    {s p : Session}
    (hReach : ReachableBy cfg ok s)
    (hPeer : ReachableBy cfg' ok' p)
    (hStream : s.received <+: p.outbound)
    {passed : Bool}
    (hHeads :
      HeadInv cfg.limits passed (s.taken.map Prod.fst)
        s.reader)
    {k : Nat}
    {frame : Frame}
    (hTaken : s.taken[k]? = some frame)
    (hMagic : frame.1.magic = magicHeaderNumber)
    (hClean : Clean cfg.limits s.taken k) :
    ∃ item, p.writeChannel.accepted[k]? = some item ∧
      frame.1 = item.header ∧
      (frame.2.length = frame.1.msgSize.toNat →
        frame.2 = item.body.bytes) := by
  have hFramed :
      ∀ sent ∈ p.writeChannel.accepted.map WriteItem.frame,
        Framed sent :=
    framed_items hPeer
  have hKeepalive :
      ∀ sent ∈ p.writeChannel.accepted.map WriteItem.frame,
        KeepaliveEmpty sent :=
    keepalive_items hPeer
  have hLt := (List.getElem?_eq_some_iff.mp hTaken).1
  have hWritten :
      s.received <+: wire cfg'.order
        (p.writeChannel.accepted.map WriteItem.frame) :=
    hStream.trans (outbound_prefix_accepted hPeer)
  -- The first header's magic number gives the byte order.
  have hOrder : cfg.order = cfg'.order := by
    have hPrefix :
        wire cfg.order s.taken <+: wire cfg'.order
          (p.writeChannel.accepted.map WriteItem.frame) := by
      rw [← (readerInv hReach).parsed]
      exact (List.take_prefix _ _).trans hWritten
    have hZero := List.getElem?_eq_getElem
      (Nat.lt_of_le_of_lt (Nat.zero_le k) hLt)
    refine order_eq_of_prefix hPrefix hZero ?_
      fun sent hMem => (hFramed sent hMem).magic
    cases k with
    | zero =>
        rw [Option.some.inj (hZero.symm.trans hTaken)]
        exact hMagic
    | succ k =>
        refine hHeads.genuine _
          (List.mem_of_getElem? (i := 0) ?_)
        rw [List.getElem?_dropLast,
          if_pos (by simp; omega), List.getElem?_map, hZero,
          Option.map_some]
  rw [← hOrder] at hWritten
  rcases aligned_of_clean hReach hFramed hKeepalive hWritten
      hClean k le_rfl frame hTaken with
    ⟨sent, hSent, hHead, hWhole⟩
  rw [List.getElem?_map, Option.map_eq_some_iff] at hSent
  rcases hSent with ⟨item, hItem, rfl⟩
  exact ⟨item, hItem, hHead,
    fun hComplete => by rw [hWhole hComplete]; rfl⟩

/- A clean frame is the item the peer queued at its place. -/
theorem item_of_clean
    {ok : Session → Action ω → Prop}
    {ok' : Session → Action ω' → Prop}
    {s p : Session}
    (hReach : ReachableBy cfg ok s)
    (hPeer : ReachableBy cfg' ok' p)
    (hStream : s.received <+: p.outbound)
    {passed : Bool}
    (hHeads :
      HeadInv cfg.limits passed (s.taken.map Prod.fst)
        s.reader)
    {k : Nat}
    {frame : Frame}
    (hDone : s.done[k]? = some frame)
    (hMagic : frame.1.magic = magicHeaderNumber)
    (hClean : Clean cfg.limits s.done k) :
    ∃ item, p.writeChannel.accepted[k]? = some item ∧
      frame.1 = item.header ∧
      (frame.2.length = frame.1.msgSize.toNat →
        frame.2 = item.body.bytes) := by
  have hTaken : s.taken[k]? = some frame :=
    Records.getElem?_mono s.done_prefix_taken hDone
  have hLe := (List.getElem?_eq_some_iff.mp hDone).1.le
  exact item_of_taken hReach hPeer hStream hHeads hTaken
    hMagic (hClean.mono s.done_prefix_taken hLe)

end Session

------------------------------------------------------------
-- Answers
------------------------------------------------------------

namespace Link

variable {ω ω' : Type}
variable {setup : Setup ω ω'}

/-
  A reply the server queued for the request frame of call
  `i`: the frame's place among those the client queued is
  its place among those the server took.
-/
def Answers
    (l : Link)
    (i : Nat)
    (reply : WriteItem) : Prop :=
  ∃ k own rid request,
    l.client.writeChannel.accepted[k]? = some own ∧
      own.source = .call i ∧
      l.server.requests[rid]? = some request ∧
      request.ord = k ∧
      request.header = own.header ∧
      reply ∈ l.server.queuedReplies rid

/- How calls, their request frames and the replies relate. -/
structure Correlated (l : Link) : Prop where
  returned :
    ∀ (i : Nat) (call : PendingCall) (buffer : Buffer),
      l.client.calls[i]? = some call →
        call.pc = .returned buffer →
          ∃ reply, l.Answers i reply ∧
            reply.header.incomingType = some .response ∧
            reply.body = buffer
  unique :
    ∀ i reply reply', l.Answers i reply →
      l.Answers i reply' → reply = reply'
  completesOne :
    ∀ (i j : Nat) (call call' : PendingCall)
        (r r' : OpResult),
      l.client.calls[i]? = some call →
        l.client.calls[j]? = some call' →
          r ∈ call.channel.admitted →
            r' ∈ call'.channel.admitted →
              r.frame = r'.frame → i = j
  errored :
    ∀ (i : Nat) (call : PendingCall) (reply : WriteItem),
      l.client.calls[i]? = some call →
        l.Answers i reply →
          reply.header.incomingType = some .error →
            ∀ buffer, call.pc ≠ .returned buffer

/- A list of one element has it in one place. -/
theorem eq_of_itemsOf_le_one
    {source : Source}
    {items : List WriteItem}
    (hOne : (itemsOf source items).length ≤ 1)
    {k k' : Nat}
    {item item' : WriteItem}
    (hGet : items[k]? = some item)
    (hGet' : items[k']? = some item')
    (hSource : item.source = source)
    (hSource' : item'.source = source) :
    k = k' := by
  induction items generalizing k k' with
  | nil => cases hGet
  | cons first rest ih =>
      by_cases hFirst : first.source = source
      · -- Then no item of the rest has this source.
        have hRest : itemsOf source rest = [] := by
          rw [itemsOf, List.filter_cons_of_pos
            (by simpa using hFirst), List.length_cons] at hOne
          exact List.length_eq_zero_iff.mp (by
            rw [itemsOf]
            omega)
        rw [itemsOf_eq_nil_iff] at hRest
        cases k with
        | zero =>
            cases k' with
            | zero => rfl
            | succ k' =>
                exact absurd hSource' (hRest item'
                  (List.mem_of_getElem? (i := k') hGet'))
        | succ k =>
            exact absurd hSource (hRest item
              (List.mem_of_getElem? (i := k) hGet))
      · rw [itemsOf, List.filter_cons_of_neg
          (by simpa using hFirst)] at hOne
        cases k with
        | zero =>
            rcases Option.some.inj hGet with rfl
            exact absurd hSource hFirst
        | succ k =>
            cases k' with
            | zero =>
                rcases Option.some.inj hGet' with rfl
                exact absurd hSource' hFirst
            | succ k' =>
                exact congrArg Nat.succ (ih hOne hGet hGet')

/- The request frame of a call is queued in one place. -/
theorem place_unique
    {l : Link}
    (hJoined : Joined setup l)
    {i k k' : Nat}
    {own own' : WriteItem}
    (hOwn : l.client.writeChannel.accepted[k]? = some own)
    (hOwn' : l.client.writeChannel.accepted[k']? = some own')
    (hSource : own.source = .call i)
    (hSource' : own'.source = .call i) :
    k = k' := by
  have hAccepted :
      (itemsOf (.call i)
        l.client.writeChannel.accepted).length ≤ 1 := by
    have hAll := (Session.ownInv hJoined.client i).length_le_one
    rw [Channel.admitted, itemsOf_append, List.length_append]
      at hAll
    omega
  exact eq_of_itemsOf_le_one hAccepted hOwn hOwn' hSource
    hSource'

/- One place in the stream is one request. -/
theorem request_unique
    {l : Link}
    (hJoined : Joined setup l)
    {rid rid' : Nat}
    {request request' : Request}
    (hRequest : l.server.requests[rid]? = some request)
    (hRequest' : l.server.requests[rid']? = some request')
    (hOrd : request.ord = request'.ord) :
    rid = rid' := by
  have hNodup :=
    (Session.requestsInv (fun _ _ h => h)
      hJoined.server).distinct
  have hLt := (List.getElem?_eq_some_iff.mp hRequest).1
  refine (List.getElem?_inj (by simpa using hLt) hNodup).mp ?_
  rw [List.getElem?_map, List.getElem?_map, hRequest,
    hRequest', Option.map_some, Option.map_some, hOrd]

/- A call has one answer. -/
theorem answers_unique
    {l : Link}
    (hJoined : Joined setup l)
    {i : Nat}
    {reply reply' : WriteItem}
    (hAnswers : l.Answers i reply)
    (hAnswers' : l.Answers i reply') :
    reply = reply' := by
  rcases hAnswers with
    ⟨k, own, rid, request, hOwn, hSource, hRequest,
      hOrd, -, hReply⟩
  rcases hAnswers' with
    ⟨k', own', rid', request', hOwn', hSource', hRequest',
      hOrd', -, hReply'⟩
  have hPlace : k = k' :=
    place_unique hJoined hOwn hOwn' hSource hSource'
  have hRids : rid = rid' :=
    request_unique hJoined hRequest hRequest'
      (by rw [hOrd, hOrd', hPlace])
  subst hRids
  have hOnce :=
    (l.server.queuedReplies_sublist rid).length_le.trans
      ((Session.replyInv hJoined.server).1 rid).length_le_one
  cases hList : l.server.queuedReplies rid with
  | nil => simp [hList] at hReply
  | cons first rest =>
      rw [hList, List.length_cons] at hOnce
      have hNil : rest = [] :=
        List.length_eq_zero_iff.mp (by omega)
      rw [hList, hNil, List.mem_singleton] at hReply hReply'
      rw [hReply, hReply']

/- A result's frame is an item that the server queued. -/
theorem reply_of_result
    {l : Link}
    (hJoined : Joined setup l)
    {i : Nat}
    {call : PendingCall}
    {buffer : Buffer}
    (hCall : l.client.calls[i]? = some call)
    (hReturned : call.pc = .returned buffer) :
    ∃ reply ∈ l.server.writeChannel.accepted,
      reply.header.incomingType = some .response ∧
        reply.header.userToken = tokenOf i ∧
        reply.body = buffer := by
  have hResults :=
    Session.resultsInv hJoined.client i call hCall
  rcases hResults.returned buffer hReturned with
    ⟨r, hDelivered, hOk, rfl⟩
  have hResult := hResults.results r
    (.inl (call.channel.delivered_prefix_admitted.subset
      hDelivered))
  rcases hResult.source with
    ⟨frame, hGet, hMagic, hToken, hResponse⟩
  rcases hResponse hOk with ⟨hType, hBody, hSize⟩
  have hClean :
      Clean setup.client.limits l.client.done r.frame := by
    rcases hResult.clean with hClean | ⟨-, hPc | ⟨e, hPc⟩⟩
    · exact hClean
    · simp [hReturned] at hPc
    · simp [hReturned] at hPc
  have hHeads :=
    Session.headInv (Session.latch_hasTaken setup.client)
      (fun _ _ h => h.settles) hJoined.client
  rcases Session.item_of_clean hJoined.client hJoined.server
      hJoined.replies hHeads hGet hMagic hClean with
    ⟨reply, hReply, hHead, hWhole⟩
  refine ⟨reply, List.mem_of_getElem? hReply, hHead ▸ hType,
    hHead ▸ hToken, ?_⟩
  have hBytes := (hWhole hSize).symm.trans hBody
  cases hReplyBody : reply.body
  cases hBuffer : r.buffer
  simp_all

/-
  A request behind clean frames is the frame that one of the
  client's calls queued at its place.
-/
theorem own_of_clean
    {l : Link}
    (hJoined : Joined setup l)
    {rid : Nat}
    {request : Request}
    (hRequest : l.server.requests[rid]? = some request)
    (hClean :
      Clean setup.server.limits l.server.done request.ord) :
    ∃ (i : Nat) (call : PendingCall) (own : WriteItem),
      l.client.calls[i]? = some call ∧
      call.token = tokenOf i ∧
      own = .request setup.client.charSigned i call.callName
        call.token call.reqBuffer ∧
      l.client.writeChannel.accepted[request.ord]? =
        some own ∧
      request.header = own.header ∧
      ∀ body,
        l.server.done[request.ord]? =
            some (request.header, body) →
          body.length = request.header.msgSize.toNat →
            body = call.reqBuffer.bytes := by
  have hRequestInv :=
    (Session.requestsInv (fun _ _ h => h)
      hJoined.server).each rid request hRequest
  rcases hRequestInv.source with ⟨body, hGet⟩
  have hHeads :=
    Session.headInv (Session.latch_hasClosed setup.server)
      (fun _ _ h => h) hJoined.server
  rcases Session.item_of_clean hJoined.server hJoined.client
      hJoined.requests hHeads hGet hRequestInv.magic hClean with
    ⟨own, hOwn, hHead, hWhole⟩
  have hHeader : request.header = own.header := hHead
  have hOwnAdmitted :=
    l.client.writeChannel.accepted_prefix_admitted.subset
      (List.mem_of_getElem? hOwn)
  -- The client's frame at this place is the request of a call.
  obtain ⟨i, hSource⟩ : ∃ i, own.source = .call i := by
    have hOwnType := hHeader ▸ hRequestInv.type
    cases Session.produced hJoined.client own hOwnAdmitted with
    | request i callName token reqBuffer => exact ⟨i, rfl⟩
    | notify => simp [WriteItem.notify] at hOwnType
    | tryNotify => simp [WriteItem.tryNotify] at hOwnType
    | ping => simp [WriteItem.ping] at hOwnType
    | pong => simp [WriteItem.pong] at hOwnType
    | reply answer header rid =>
        cases answer <;>
          simp [WriteItem.respond, Answer.type] at hOwnType
  have hMem :
      own ∈ itemsOf (.call i)
        l.client.writeChannel.admitted :=
    mem_itemsOf.mpr ⟨hOwnAdmitted, hSource⟩
  have hOwnInv := Session.ownInv hJoined.client i
  cases hCall : l.client.calls[i]? with
  | none =>
      rw [hCall] at hOwnInv
      rw [show itemsOf (.call i)
        l.client.writeChannel.admitted = [] from hOwnInv]
        at hMem
      cases hMem
  | some call =>
      rw [hCall] at hOwnInv
      have hItem :
          own = .request setup.client.charSigned i
            call.callName call.token call.reqBuffer := by
        rcases hOwnInv.2 with hNone | hOne
        · rw [hNone] at hMem
          cases hMem
        · rwa [hOne, List.mem_singleton] at hMem
      have hToken : call.token = tokenOf i :=
        ((Session.callsInv (fun _ _ h => h.few)
          hJoined.client).each i call hCall).token
      refine ⟨i, call, own, hCall, hToken, hItem, hOwn,
        hHeader, ?_⟩
      intro whole hDone hSize
      rw [hGet] at hDone
      obtain rfl : body = whole :=
        congrArg Prod.snd (Option.some.inj hDone)
      have hBytes : body = own.body.bytes := hWhole hSize
      rw [hBytes, hItem]
      rfl

/- A queued reply answers one of the client's calls. -/
theorem answers_of_reply
    {l : Link}
    (hJoined : Joined setup l)
    {reply : WriteItem}
    (hReply : reply ∈ l.server.writeChannel.accepted)
    (hType :
      reply.header.incomingType = some .response ∨
        reply.header.incomingType = some .error) :
    ∃ i call, l.client.calls[i]? = some call ∧
      reply.header.userToken = tokenOf i ∧
        l.Answers i reply := by
  have hAdmitted :=
    l.server.writeChannel.accepted_prefix_admitted.subset hReply
  rcases Session.reply_source hJoined.server hAdmitted hType with
    ⟨rid, request, hRequest, hAmong⟩
  have hReplyInv := (Session.replyInv hJoined.server).1 rid
  rw [hRequest] at hReplyInv
  rcases hReplyInv.echoes hAmong with ⟨answer, hAnswer⟩
  have hClean :
      Clean setup.server.limits l.server.done request.ord := by
    rcases ((Session.requestsInv (fun _ _ h => h)
        hJoined.server).each rid request hRequest).clean with
      hClean | ⟨-, hNone⟩
    · exact hClean
    · rw [hNone] at hAmong
      cases hAmong
  rcases own_of_clean hJoined hRequest hClean with
    ⟨i, call, own, hCall, hToken, hItem, hOwn, hHeader, -⟩
  refine ⟨i, call, hCall, ?_, request.ord, own, rid, request,
    hOwn, by rw [hItem]; rfl, hRequest, rfl, hHeader, ?_⟩
  · rw [hAnswer, ← hToken]
    change request.header.userToken = call.token
    rw [hHeader, hItem]
    rfl
  · exact mem_itemsOf.mpr
      ⟨hReply, (mem_itemsOf.mp hAmong).2⟩

/-
  Calls are correlated in every run in which no reader goes
  on behind a rejected frame while a `close()` is under way.
-/
theorem correlated
    (setup : Setup ω ω')
    (l : Link)
    (hReach : ReachableBy setup Orderly l) :
    Correlated l := by
  have hJoined := joined hReach
  have hCalls :=
    Session.callsInv (fun _ _ h => h.few) hJoined.client
  have hReturned :
      ∀ i call buffer, l.client.calls[i]? = some call →
        call.pc = .returned buffer →
          ∃ reply, l.Answers i reply ∧
            reply.header.incomingType = some .response ∧
            reply.body = buffer := by
    intro i call buffer hCall hPc
    rcases reply_of_result hJoined hCall hPc with
      ⟨reply, hReply, hType, hToken, hBody⟩
    rcases answers_of_reply hJoined hReply (.inl hType) with
      ⟨j, call', hCall', hToken', hAnswers⟩
    have hSame : j = i := by
      by_contra hNe
      exact hCalls.token_ne
        (List.getElem?_eq_some_iff.mp hCall).1
        (List.getElem?_eq_some_iff.mp hCall').1 hNe
        (hToken'.symm.trans hToken)
    exact ⟨reply, hSame ▸ hAnswers, hType, hBody⟩
  constructor
  case returned => exact hReturned
  case unique =>
    exact fun i reply reply' => answers_unique hJoined
  case completesOne =>
    intro i j call call' r r' hCall hCall' hMem hMem' hFrame
    have hResults := Session.resultsInv hJoined.client
    have hSent := (hResults i call hCall).results r (.inl hMem)
    rcases hSent.source with
      ⟨frame, hGet, -, hToken, -⟩
    have hSent' :=
      (hResults j call' hCall').results r' (.inl hMem')
    rcases hSent'.source with
      ⟨frame', hGet', -, hToken', -⟩
    rw [hFrame, hGet'] at hGet
    rcases Option.some.inj hGet with rfl
    by_contra hNe
    exact hCalls.token_ne
      (List.getElem?_eq_some_iff.mp hCall').1
      (List.getElem?_eq_some_iff.mp hCall).1 hNe
      (hToken.symm.trans hToken')
  case errored =>
    intro i call reply hCall hAnswers hError buffer hPc
    rcases hReturned i call buffer hCall hPc with
      ⟨reply', hAnswers', hType, -⟩
    rw [answers_unique hJoined hAnswers hAnswers', hType]
      at hError
    cases hError

/- A client of the server whose `wipe` returns nothing. -/
def wiping : Setup Unit Unit where
  client := {}
  server := Session.guarded true

/- Its request for `wipe`, and the response to it. -/
def wipeRequest : WriteItem :=
  .request true 0 (literal "wipe") 1 Buffer.empty

def wipeResponse : WriteItem :=
  .respond .response wipeRequest.header Session.wiped 0

/- A call that returns with its response. -/
theorem correlated_wipe :
    ∃ l : Link, Reachable wiping l ∧
      (∃ call ∈ l.client.calls,
        call.pc = .returned Session.wiped) ∧
      Correlated l := by
  obtain ⟨l, hReach, hRun⟩ :=
    Transition.exists_of_runBy (step wiping) Orderly
      (start wiping)
      [.client (.generateToken (literal "wipe") Buffer.empty),
        .client (.registerOperation 0),
        .client (.queueCall 0),
        .client (.armTimer 0),
        .client (.receiveReply 0),
        .client .writerReceive,
        .client .writerTake,
        .client (.writerWrite (wipeRequest.bytes .little) []),
        .server (.deliver (wipeRequest.bytes .little)),
        .server (.readHeader 1),
        .server (.readBody wipeRequest.header .request),
        .server (.startHandler 0 wipeRequest.header ()),
        .server (.finishHandler 0 ()),
        .server (.sendReply 0 wipeRequest.header
          (.response Session.wiped)),
        .server .writerReceive,
        .server .writerTake,
        .server (.writerWrite
          (wipeResponse.bytes .little) []),
        .client (.deliver (wipeResponse.bytes .little)),
        .client (.readHeader 1),
        .client (.readBody wipeResponse.header .response),
        .client (.findOperation 1
          { ec := none, buffer := Session.wiped, frame := 0 }),
        .client (.sendResult 0
          { ec := none, buffer := Session.wiped, frame := 0 }),
        .client (.resumeCall 0)]
      (fun l =>
        decide (∃ call ∈ l.client.calls,
          call.pc = .returned Session.wiped))
      (by decide +kernel)
  exact ⟨l, hReach.reachable, of_decide_eq_true hRun,
    correlated wiping l hReach⟩

------------------------------------------------------------
-- A Forged Request
------------------------------------------------------------

/- The same server with a limit below one header's size. -/
def limited : Setup Unit Unit where
  client := {}
  server := { Session.guarded true with
    limits := { maxMessageBytes := 39 } }

/- A request for `wipe` under the token of the first call. -/
def forged : Header :=
  frameHeader .request Session.wipeId 1 Buffer.empty

/- It is the body of the second call's request. -/
def forgedBody : Buffer :=
  ⟨forged.toBytes .little, by decide +kernel⟩

def echoRequest : WriteItem :=
  .request true 0 (literal "echo") 1 Buffer.empty

def putRequest : WriteItem :=
  .request true 1 (literal "put") 2 forgedBody

/- The replies to the rejected and to the forged request. -/
def putError : WriteItem :=
  .respond .error putRequest.header Buffer.empty 1

def forgedResponse : WriteItem :=
  .respond .response forged Session.wiped 2

/-
  The server rejects the second request as oversized while
  another thread is inside `close()`, and goes on to read
  its body as a request of its own. The first call returns
  with the response to that, and has no answer itself.
-/
theorem forged_reply_returned :
    ∃ l : Link, Reachable limited l ∧ ¬ Correlated l := by
  obtain ⟨l, hReach, hRun⟩ :=
    Transition.exists_of_run (step limited) (start limited)
      [.client (.generateToken (literal "echo") Buffer.empty),
        .client (.registerOperation 0),
        .client (.queueCall 0),
        .client (.armTimer 0),
        .client (.receiveReply 0),
        .client (.generateToken (literal "put") forgedBody),
        .client (.registerOperation 1),
        .client (.queueCall 1),
        .client .writerReceive,
        .client .writerTake,
        .client (.writerWrite (echoRequest.bytes .little) []),
        .client .writerFinish,
        .client .writerReceive,
        .client .writerTake,
        .client (.writerWrite (putRequest.bytes .little) []),
        .server (.deliver (echoRequest.bytes .little ++
          putRequest.bytes .little)),
        .server (.readHeader 1),
        .server (.readBody echoRequest.header .request),
        .server (.readHeader 2),
        .server (.rejectRequest 1 putRequest.header true),
        .server (.resumeReject 1 true),
        .server .close,
        .server (.readerClose true),
        .server (.readHeader 3),
        .server (.readBody forged .request),
        .server (.startHandler 2 forged ()),
        .server (.finishHandler 2 ()),
        .server (.sendReply 2 forged
          (.response Session.wiped)),
        .server .writerReceive,
        .server .writerTake,
        .server (.writerWrite (putError.bytes .little) []),
        .server .writerFinish,
        .server .writerReceive,
        .server .writerTake,
        .server (.writerWrite
          (forgedResponse.bytes .little) []),
        .client (.deliver (putError.bytes .little ++
          forgedResponse.bytes .little)),
        .client (.readHeader 1),
        .client (.findOperation 2
          { ec := some .invalidArgument
            buffer := Buffer.empty
            frame := 0 }),
        .client (.sendResult 1
          { ec := some .invalidArgument
            buffer := Buffer.empty
            frame := 0 }),
        .client (.resumeResult 1),
        .client (.readHeader 2),
        .client (.readBody forgedResponse.header .response),
        .client (.findOperation 1
          { ec := none, buffer := Session.wiped, frame := 1 }),
        .client (.sendResult 0
          { ec := none, buffer := Session.wiped, frame := 1 }),
        .client (.resumeCall 0)]
      (fun l =>
        decide ((∃ call : PendingCall,
            call ∈ l.client.calls[0]? ∧
              call.pc = .returned Session.wiped) ∧
          l.client.writeChannel.accepted =
            [echoRequest, putRequest] ∧
          l.server.requests.map Request.ord = [0, 1, 2] ∧
          l.server.queuedReplies 0 = []))
      (by decide +kernel)
  rcases of_decide_eq_true hRun with
    ⟨⟨call, hCall, hPc⟩, hAccepted, hOrds, hNone⟩
  refine ⟨l, hReach, fun hCorrelated => ?_⟩
  rcases hCorrelated.returned 0 call _ hCall hPc with
    ⟨reply, ⟨k, own, rid, request, hOwn, hSource,
      hRequest, hOrd, -, hReply⟩, -⟩
  -- The first call's own frame is the first of the stream.
  have hFirst : k = 0 := by
    rw [hAccepted] at hOwn
    rcases k with _ | _ | k
    · rfl
    · rcases Option.some.inj hOwn with rfl
      cases hSource
    · simp at hOwn
  have hRid : rid = 0 := by
    have hAt : (l.server.requests.map Request.ord)[rid]? =
        some 0 := by
      rw [List.getElem?_map, hRequest, Option.map_some, hOrd,
        hFirst]
    rw [hOrds] at hAt
    rcases rid with _ | _ | _ | rid
    · rfl
    · simp at hAt
    · simp at hAt
    · simp at hAt
  rw [hRid, hNone] at hReply
  cases hReply

end Link

end GrlxRpc
