import GrlxRpc.Link
import GrlxRpc.Session.Rest

/-
  A link at rest.

  Where two open sessions have no step left that nobody has
  to decide on, only the transport can hold anything up. If
  it holds no bytes, nothing is stuck on the way, for the
  calls of either end: each has read every frame that the
  other queued, every request has its reply, every call
  whose frame was queued has ended, and no such call is left
  in the table.

  Main declarations:
    * `Session.done_eq_items`
    * `Link.swap` and `Link.reachable_swap`
    * `Link.AtRest` and `Link.InTransit`
    * `Link.repliesTaken`
    * `Link.Quiescent` and `Link.quiescent`
-/

------------------------------------------------------------
-- Whole Streams
------------------------------------------------------------

namespace GrlxRpc

namespace Session

variable {ω ω' : Type}
variable {cfg : Config ω} {cfg' : Config ω'}
variable {ok : Session → Action ω → Prop}
variable {ok' : Session → Action ω' → Prop}
variable {s peer : Session}

/- A frame within the limit that is drained is complete. -/
theorem complete_of_within
    {limits : SessionLimits}
    {frame sent : Frame}
    (hFramed : Framed sent)
    (hKeepalive : KeepaliveEmpty sent)
    (hHead : frame.1 = sent.1)
    (hWithin : Within limits frame.1)
    (hDrained : GrlxRpc.Drained limits frame) :
    frame.2.length = frame.1.msgSize.toNat := by
  refine hFramed.complete_of_drained hKeepalive ?_ hHead
    hDrained
  rcases hWithin with hSize | ⟨type, hType, hAlive⟩
  · exact hSize
  · have hZero := hKeepalive ⟨type, hHead ▸ hType, hAlive⟩
    rw [hHead, hZero]
    exact UInt64.le_iff_toNat_le.mpr (Nat.zero_le _)

/- A finished frame is drained, while the reader goes on. -/
theorem drained_of_done
    (hReading :
      ReaderInv cfg s.received s.consumed s.taken s.reader)
    (hStarved : s.Starved)
    {k : Nat}
    {frame : Frame}
    (hGet : s.done[k]? = some frame) :
    GrlxRpc.Drained cfg.limits frame := by
  rcases hStarved with ⟨hAt, -⟩ | ⟨header, use, hAt, -⟩
  · rw [done_eq_taken (by rw [hAt]; rfl)] at hGet
    by_cases hLast : k = s.taken.length - 1
    · refine hReading.boundary (by rw [hAt]; rfl) frame ?_
      rw [List.getLast?_eq_getElem?, ← hLast]
      exact hGet
    · refine hReading.earlier frame
        (List.mem_of_getElem? (i := k) ?_)
      have hLt := (List.getElem?_eq_some_iff.mp hGet).1
      rw [List.getElem?_dropLast, if_pos (by omega)]
      exact hGet
  · have hDone : s.done = s.taken.dropLast := by
      simp [done, hAt, ReaderPc.inBody]
    rw [hDone] at hGet
    exact hReading.earlier frame (List.mem_of_getElem? hGet)

/-
  A reader that waits for more, between clean frames, has
  finished every frame of a stream that has arrived.
-/
theorem done_of_clean
    (hReach : ReachableBy cfg ok s)
    {frames : List Frame}
    (hFramed : ∀ frame ∈ frames, Framed frame)
    (hKeepalive : ∀ frame ∈ frames, KeepaliveEmpty frame)
    (hStream : s.received = wire cfg.order frames)
    (hClean : ∀ k, Clean cfg.limits s.taken k)
    (hStarved : s.Starved) :
    s.done = frames := by
  have hReading := readerInv hReach
  have hParsed := congrArg List.length hReading.parsed
  rw [List.length_take, Nat.min_eq_left hReading.within]
    at hParsed
  have hPrefix : s.received <+: wire cfg.order frames := by
    rw [hStream]
  have hAligned :
      ∀ (k : Nat) (frame : Frame), s.taken[k]? = some frame →
        ∃ sent, frames[k]? = some sent ∧
          frame.1 = sent.1 ∧
          (frame.2.length = frame.1.msgSize.toNat →
            frame = sent) :=
    fun k frame hGet =>
      aligned_of_clean hReach hFramed hKeepalive hPrefix
        (hClean k) k (Nat.le_refl k) frame hGet
  -- What is finished is a prefix of what was sent.
  have hFront : s.done = frames.take s.done.length := by
    apply List.ext_getElem?
    intro k
    cases hGet : s.done[k]? with
    | none =>
        have hLe := List.getElem?_eq_none_iff.mp hGet
        exact (List.getElem?_eq_none_iff.mpr
          (by rw [List.length_take]; omega)).symm
    | some frame =>
        have hTaken : s.taken[k]? = some frame :=
          Records.getElem?_mono s.done_prefix_taken hGet
        rcases hAligned k frame hTaken with
          ⟨sent, hSent, hHead, hWhole⟩
        have hWithin : Within cfg.limits frame.1 :=
          hClean (k + 1) frame
            (List.mem_of_getElem? (i := k)
              (by rw [List.getElem?_take_of_lt (by omega),
                hTaken]))
        have hMem := List.mem_of_getElem? hSent
        have hSame := hWhole (complete_of_within
          (hFramed sent hMem) (hKeepalive sent hMem) hHead
          hWithin (drained_of_done hReading hStarved hGet))
        have hLt := (List.getElem?_eq_some_iff.mp hGet).1
        rw [List.getElem?_take_of_lt hLt, hSent, hSame]
  -- A further frame would not leave the reader waiting.
  have hAll : frames.length ≤ s.done.length := by
    by_contra hMore
    obtain ⟨next, hNext⟩ :
        ∃ next, frames[s.done.length]? = some next :=
      ⟨_, List.getElem?_eq_getElem (Nat.lt_of_not_le hMore)⟩
    have hLong := length_wire_take cfg.order hNext
      (Nat.lt_of_not_le hMore)
    rw [List.take_length, ← hFront, ← hStream] at hLong
    rcases hStarved with
      ⟨hAt, hShort⟩ | ⟨header, use, hAt, hShort⟩
    · rw [done_eq_taken (by rw [hAt]; rfl)] at hLong
      rw [unread, List.length_drop] at hShort
      omega
    · rcases List.getLast?_eq_some_iff.mp
        (hReading.reading header use hAt) with ⟨front, hTaken⟩
      have hDone : s.done = front := by
        simp [done, hAt, ReaderPc.inBody, hTaken]
      rcases hAligned front.length (header, [])
        (by rw [hTaken]; simp) with ⟨sent, hSent, hHead, -⟩
      rw [hDone] at hNext hLong
      obtain rfl : next = sent :=
        Option.some.inj (hNext.symm.trans hSent)
      have hBody :=
        (hFramed next (List.mem_of_getElem? hNext)).complete
      have hSize : next.1.msgSize = header.msgSize :=
        congrArg Header.msgSize hHead.symm
      rw [hBody, hSize] at hLong
      rw [hTaken, wire_concat] at hParsed
      rw [unread, List.length_drop] at hShort
      simp only [List.length_append, Header.length_toBytes,
        List.length_nil] at hParsed
      omega
  rw [hFront, List.take_of_length_le hAll]

/-
  A session at rest that never rejected a frame has finished
  every frame that its peer queued.
-/
theorem done_eq_items
    (hReach : ReachableBy cfg ok s)
    (hPeer : ReachableBy cfg' ok' peer)
    (hHeads :
      HeadInv cfg.limits false (s.taken.map Prod.fst) s.reader)
    (hStream : s.received = wire cfg'.order peer.items)
    (hStarved : s.Starved) :
    s.done = peer.items := by
  have hReading := readerInv hReach
  have hFramed := framed_items hPeer
  have hGoes : s.reader.leaves = false ∧
      s.reader.shuts = false := by
    rcases hStarved with ⟨hAt, -⟩ | ⟨header, use, hAt, -⟩ <;>
      rw [hAt] <;> exact ⟨rfl, rfl⟩
  have hPrefix :
      wire cfg.order s.taken <+: wire cfg'.order peer.items := by
    rw [← hReading.parsed, ← hStream]
    exact List.take_prefix _ _
  cases hTaken : s.taken with
  | nil =>
      -- Not even one header has arrived.
      have hParsed := congrArg List.length hReading.parsed
      rw [List.length_take, Nat.min_eq_left hReading.within,
        hTaken] at hParsed
      rcases hStarved with ⟨hAt, hShort⟩ | ⟨header, use, hAt, -⟩
      · rw [done_eq_taken (by rw [hAt]; rfl), hTaken]
        simp only [wire, Framing.Code.flat_nil,
          List.length_nil] at hParsed
        rw [unread, hParsed, List.drop_zero, hStream] at hShort
        cases hItems : peer.items with
        | nil => rfl
        | cons first rest =>
            rw [hItems] at hShort
            have hSize :=
              (headerCode cfg'.order).size_le_length_flat
                first rest
            exact absurd hSize (Nat.not_le_of_lt hShort)
      · have hLast := hReading.reading header use hAt
        rw [hTaken] at hLast
        cases hLast
  | cons first rest =>
      have hOrder : cfg.order = cfg'.order := by
        apply order_eq_of_prefix hPrefix
        case hFirst =>
          rw [hTaken]
          rfl
        case hMagic =>
          apply hHeads.proceeding hGoes.1
          rw [hTaken]
          exact List.mem_map_of_mem List.mem_cons_self
        case hFrames =>
          exact fun frame hMem => (hFramed frame hMem).magic
      refine done_of_clean hReach hFramed
        (keepalive_items hPeer) (hOrder ▸ hStream) ?_ hStarved
      intro k frame hMem
      exact hHeads.within hGoes.2 rfl frame.1
        (List.mem_map_of_mem (List.mem_of_mem_take hMem))

------------------------------------------------------------
-- Replies That Were Taken
------------------------------------------------------------

/- Does a frame of this type complete a call? -/
def IsReply (header : Header) : Prop :=
  header.incomingType = some .response ∨
    header.incomingType = some .error

/- A reply's header is read on, completes a call, or ends. -/
theorem intake_of_reply
    (limits : SessionLimits)
    (granted : Bool)
    (header : Header)
    (hReply : IsReply header) :
    intake limits granted header = .drop ∨
      intake limits granted header = .oversized ∨
        intake limits granted header = .emptyError ∨
          ∃ use, intake limits granted header = .read use := by
  unfold intake
  by_cases hMagic : header.magic = magicHeaderNumber
  · rcases hReply with hType | hType <;>
      simp only [hMagic, hType, ne_eq, not_true, if_false]
    · split
      · exact .inr (.inl rfl)
      · exact .inr (.inr (.inr ⟨_, rfl⟩))
    · split
      · split
        · exact .inr (.inl rfl)
        · exact .inr (.inr (.inr ⟨_, rfl⟩))
      · exact .inr (.inr (.inl rfl))
  · exact .inl (if_pos hMagic)

/-
  The token of every reply frame that was read to its end has
  left the table, or the reader is about to take it out.
-/
def RepliesTaken (s : Session) : Prop :=
  ∀ frame ∈ s.done, IsReply frame.1 →
    s.channels.lookup frame.1.userToken = none ∨
      ∃ r, s.reader = .complete frame.1.userToken r

/- The reader is elsewhere, so every token has left. -/
theorem RepliesTaken.left
    (hTaken : s.RepliesTaken)
    (hNot : ∀ token r, s.reader ≠ .complete token r) :
    ∀ frame ∈ s.done, IsReply frame.1 →
      s.channels.lookup frame.1.userToken = none := by
  intro frame hMem hReply
  rcases hTaken frame hMem hReply with hNone | ⟨r, hAt⟩
  · exact hNone
  · exact absurd hAt (hNot _ r)

/- A frame is finished, and it is no reply, or is completed. -/
theorem RepliesTaken.concat
    {s' : Session}
    {frame : Frame}
    (hLeft :
      ∀ frame ∈ s.done, IsReply frame.1 →
        s.channels.lookup frame.1.userToken = none)
    (hChannels : s'.channels = s.channels)
    (hDone : s'.done = s.done ++ [frame])
    (hNew :
      IsReply frame.1 →
        ∃ r, s'.reader = .complete frame.1.userToken r) :
    s'.RepliesTaken := by
  intro other hMem hReply
  rw [hDone, List.mem_append, List.mem_singleton] at hMem
  rcases hMem with hOld | rfl
  · rw [hChannels]
    exact .inl (hLeft other hOld hReply)
  · exact .inr (hNew hReply)

/-
  A step of an open session whose reader goes on. A call is
  only registered under a token that no reply has had.
-/
theorem repliesTaken_update
    {passed : Teardown → Bool}
    (hLatch : Latch cfg passed)
    (hSettles : ∀ s a, ok s a → Settles passed s a)
    (hReach : ReachableBy cfg ok s)
    {a : Action ω}
    (hEnabled : s.Enabled a)
    (hIdle : (s.update cfg a).teardown = .idle)
    (hOn : (s.update cfg a).reader.shuts = false)
    (hInv : s.reader.shuts = false → s.RepliesTaken)
    (hFresh :
      ∀ (i : Nat) (call : PendingCall),
        a = .registerOperation i → s.calls[i]? = some call →
          s.reader.shuts = false →
            ∀ frame ∈ s.done, IsReply frame.1 →
              frame.1.userToken ≠ call.token) :
    (s.update cfg a).RepliesTaken := by
  have hReading := readerInv hReach
  have hWas : s.teardown = .idle := teardown_eq_idle hIdle
  -- A step between two frames leaves them as they are.
  have hBetween :
      ∀ {s' : Session}, s'.taken = s.taken →
        s'.channels = s.channels →
          s.reader.inBody = false →
            s'.reader.inBody = false →
              s.reader.shuts = false →
                (∀ token r, s.reader ≠ .complete token r) →
                  s'.RepliesTaken := by
    intro s' hTaken hChannels hBefore hAfter hShuts hNot
      frame hMem hReply
    rw [done_eq_taken hAfter, hTaken, ← done_eq_taken hBefore]
      at hMem
    rw [hChannels]
    exact .inl ((hInv hShuts).left hNot frame hMem hReply)
  cases a with
  | readHeader now =>
      have hAt : s.reader = .header := hEnabled.1
      have hDone : s.done = s.taken :=
        done_eq_taken (by rw [hAt]; rfl)
      have hLeft := (hInv (by rw [hAt]; rfl)).left
        (by simp [hAt])
      have hPass :
          (afterHeader s.requests.length s.taken.length
              (s.nextHeader cfg)
              (s.nextIntake cfg now)).inBody = false →
            (IsReply (s.nextHeader cfg) →
              ∃ r, afterHeader s.requests.length
                  s.taken.length (s.nextHeader cfg)
                  (s.nextIntake cfg now) =
                .complete (s.nextHeader cfg).userToken r) →
              (s.update cfg (.readHeader now)).RepliesTaken := by
        intro hBody hNew
        have hConcat :
            (s.update cfg (.readHeader now)).done =
              s.done ++ [(s.nextHeader cfg, [])] := by
          rw [done_eq_taken hBody, hDone]
          rfl
        exact RepliesTaken.concat hLeft rfl hConcat hNew
      have hReply :=
        intake_of_reply cfg.limits (s.nextBucket cfg now).2
          (s.nextHeader cfg)
      change (_ → s.nextIntake cfg now = _ ∨
        s.nextIntake cfg now = _ ∨
          s.nextIntake cfg now = _ ∨
            ∃ use, s.nextIntake cfg now = _) at hReply
      cases hKind : s.nextIntake cfg now with
      | drop | oversizedRequest | oversized =>
          simp [update, hKind, afterHeader, ReaderPc.shuts]
            at hOn
      | read use =>
          have hSame :
              (s.update cfg (.readHeader now)).done =
                s.done := by
            rw [hDone]
            simp [done, update, hKind, afterHeader,
              ReaderPc.inBody]
          intro frame hMem hType
          rw [hSame] at hMem
          exact .inl (hLeft frame hMem hType)
      | skip | answerPing =>
          rw [hKind] at hPass hReply
          exact hPass rfl fun hType => by
            simpa using hReply hType
      | emptyError =>
          rw [hKind] at hPass
          exact hPass rfl fun _ => ⟨_, rfl⟩
  | readBody header use =>
      have hAt : s.reader = .body header use := hEnabled.1
      have hLeft := (hInv (by rw [hAt]; rfl)).left
        (by simp [hAt])
      rcases body_header hReading
        (headInv hLatch hSettles hReach) hAt with
        ⟨-, hType, -⟩
      refine RepliesTaken.concat hLeft rfl
        (done_readBody hReading hAt) ?_
      intro hReply
      cases use with
      | limited | request | notification =>
          simp [IsReply, hType, BodyUse.type] at hReply
      | response => exact ⟨_, rfl⟩
      | error => exact ⟨_, rfl⟩
  | sendPong =>
      have hAt : s.reader = .pong := hEnabled
      exact hBetween rfl rfl (by rw [hAt]; rfl) rfl
        (by rw [hAt]; rfl) (by simp [hAt])
  | readFail => cases hOn
  | findOperation token result =>
      have hAt : s.reader = .complete token result := hEnabled
      have hTaken := hInv (by rw [hAt]; rfl)
      intro frame hMem hReply
      have hOld : frame ∈ s.done := by
        rw [done_eq_taken (by rw [hAt]; rfl)]
        rw [done_eq_taken (by
          simp only [update]
          cases s.channels.lookup token <;> rfl)] at hMem
        exact hMem
      left
      by_cases hSame : frame.1.userToken = token
      · rw [hSame]
        exact AList.lookup_erase _ _
      · rw [show (s.update cfg
            (.findOperation token result)).channels =
              s.channels.erase token from rfl,
          AList.lookup_erase_ne hSame]
        rcases hTaken frame hOld hReply with hNone | ⟨r, hAt'⟩
        · exact hNone
        · cases hAt.symm.trans hAt'
          exact absurd rfl hSame
  | sendResult i result =>
      have hAt : s.reader = .completing i result := hEnabled
      refine hBetween rfl rfl (by rw [hAt]; rfl) ?_
        (by rw [hAt]; rfl) (by simp [hAt])
      simp only [update]
      split <;> rfl
  | resumeResult i =>
      have hAt : s.reader = .completed i := hEnabled.1
      exact hBetween rfl rfl (by rw [hAt]; rfl) rfl
        (by rw [hAt]; rfl) (by simp [hAt])
  | rejectRequest rid header closes =>
      have hAt : s.reader = .rejecting rid header closes :=
        hEnabled
      have hReads : closes = false := by
        simp only [update] at hOn
        split at hOn
        · exact hOn
        · cases hOn
      refine hBetween rfl rfl (by rw [hAt]; rfl) ?_
        (by rw [hAt, hReads]; rfl) (by simp [hAt])
      simp only [update]
      split <;> rfl
  | resumeReject rid closes =>
      have hAt : s.reader = .rejected rid closes := hEnabled.1
      have hReads : closes = false := by
        cases closes with
        | false => rfl
        | true => cases hOn
      subst hReads
      exact hBetween rfl rfl (by rw [hAt]; rfl) rfl
        (by rw [hAt]; rfl) (by simp [hAt])
  | readerClose again =>
      simp [update, hWas, Teardown.begin] at hIdle
  | readerClosed again => cases hEnabled.2.symm.trans hWas
  | takeTable => cases hIdle
  | registerOperation i =>
      rcases hEnabled with ⟨call, hCall, -⟩
      have hGet : s.calls[i]? = some call := hCall
      intro frame hMem hReply
      have hNe := hFresh i call rfl hGet hOn frame hMem hReply
      have hChannels :
          (s.update cfg (.registerOperation i)).channels =
            s.channels.insert call.token i := by
        simp [update, hGet]
      rw [hChannels, AList.lookup_insert_ne hNe]
      exact hInv hOn frame hMem hReply
  | _ => exact hInv hOn

/- An open session's queue takes frames. -/
theorem isOpen_of_idle
    (hReach : ReachableBy cfg ok s)
    (hIdle : s.teardown = .idle) :
    s.writeChannel.isOpen = true := by
  rw [isOpen_eq hReach, hIdle]
  rfl

/- A reader that waits for bytes is in no other business. -/
theorem Starved.waits
    (hStarved : s.Starved) :
    s.reader.leaves = false ∧
      s.reader.shuts = false ∧
        s.reader.completes = none ∧
          ∀ token r, s.reader ≠ .complete token r := by
  rcases hStarved with ⟨hAt, -⟩ | ⟨header, use, hAt, -⟩
  · simp [hAt, ReaderPc.leaves, ReaderPc.shuts,
      ReaderPc.completes]
  · simp [hAt, ReaderPc.leaves, ReaderPc.shuts,
      ReaderPc.completes]

/- The reader goes on behind no frame that it rejected. -/
def Keeps
    (s : Session)
    (a : Action ω) : Prop :=
  FewCalls s a ∧ goesOn a = false

/- An open session's reader does not. -/
theorem goesOn_eq_false
    {a : Action ω}
    (hIdle : (s.update cfg a).teardown = .idle) :
    goesOn a = false := by
  have hWas : s.teardown = .idle := teardown_eq_idle hIdle
  cases a with
  | readerClose again =>
      simp [update, hWas, Teardown.begin] at hIdle
  | _ => rfl

theorem Keeps.settles
    {a : Action ω}
    (hKeeps : s.Keeps a)
    (passed : Teardown → Bool) :
    Settles passed s a := by
  intro hGoes
  cases hKeeps.2.symm.trans hGoes

end Session

------------------------------------------------------------
-- Links At Rest
------------------------------------------------------------

namespace Link

variable {ω ω' : Type}
variable {setup : Setup ω ω'}
variable {l : Link}

/- A step that nobody has to decide on, at either end. -/
def Proceeds : Move ω ω' → Prop
  | .client a => Session.proceeds a = true
  | .server a => Session.proceeds a = true

/- Neither end can go on by itself. -/
abbrev AtRest
    (setup : Setup ω ω')
    (l : Link) : Prop :=
  Transition.AtRest (step setup) (fun _ => Proceeds) l

/-
  The transport has bytes to move: those that a writer waits
  for it to take, or those that have not arrived. While it
  moves none, because its buffers are full or for any other
  reason, both readers may wait for room in their queues.
-/
def InTransit (l : Link) : Prop :=
  l.client.Blocked ∨ l.server.Blocked ∨
    l.server.received ≠ l.client.outbound ∨
    l.client.received ≠ l.server.outbound

instance (l : Link) : Decidable l.InTransit :=
  inferInstanceAs (Decidable (_ ∨ _))

/- Each end makes fewer than 2^64 calls. -/
def FewCalls
    (l : Link) : Move ω ω' → Prop
  | .client a => l.client.FewCalls a
  | .server a => l.server.FewCalls a

instance
    (l : Link) :
    (m : Move ω ω') → Decidable (l.FewCalls m)
  | .client a =>
      inferInstanceAs (Decidable (l.client.FewCalls a))
  | .server a =>
      inferInstanceAs (Decidable (l.server.FewCalls a))

/- Neither session was closed, from outside or within. -/
structure BothOpen (l : Link) : Prop where
  client : l.client.teardown = .idle
  server : l.server.teardown = .idle

/- No reader goes on behind a frame that it rejected. -/
def Keeps
    (l : Link) : Move ω ω' → Prop
  | .client a => l.client.Keeps a
  | .server a => l.server.Keeps a

/- The two ends exchanged. -/
def swap (l : Link) : Link where
  client := l.server
  server := l.client

def Setup.swap (setup : Setup ω ω') : Setup ω' ω where
  client := setup.server
  server := setup.client

def Move.swap : Move ω ω' → Move ω' ω
  | .client a => .server a
  | .server a => .client a

/- Nothing tells the two ends of a link apart. -/
theorem step_swap
    (setup : Setup ω ω')
    (l : Link)
    (m : Move ω ω') :
    step setup.swap l.swap m.swap =
      (step setup l m).map swap := by
  cases m with
  | client a =>
      change
        (if Carries l.client l.server a then
          (l.client.step setup.client a).map fun s =>
            ({ l.swap with server := s } : Link)
        else
          none) = _
      rw [step]
      by_cases hCarries : Carries l.client l.server a
      · rw [if_pos hCarries, if_pos hCarries, Option.map_map]
        rfl
      · rw [if_neg hCarries, if_neg hCarries]
        rfl
  | server a =>
      change
        (if Carries l.server l.client a then
          (l.server.step setup.server a).map fun s =>
            ({ l.swap with client := s } : Link)
        else
          none) = _
      rw [step]
      by_cases hCarries : Carries l.server l.client a
      · rw [if_pos hCarries, if_pos hCarries, Option.map_map]
        rfl
      · rw [if_neg hCarries, if_neg hCarries]
        rfl

theorem reachable_swap
    (hReach : ReachableBy setup Keeps l) :
    ReachableBy setup.swap Keeps l.swap := by
  induction hReach with
  | start => exact .start
  | @next l l' m _ hKeeps hStep ih =>
      have hSwapped :
          Keeps l.swap (m.swap : Move ω' ω) := by
        cases m with
        | client a => exact hKeeps
        | server a => exact hKeeps
      refine ih.next hSwapped ?_
      rw [step_swap, hStep]
      rfl

theorem BothOpen.swap
    (hOpen : l.BothOpen) :
    l.swap.BothOpen :=
  ⟨hOpen.server, hOpen.client⟩

/- It could only do so in a session that is being closed. -/
theorem keeps_of_open
    (hReach : ReachableBy setup FewCalls l)
    (hOpen : l.BothOpen) :
    ReachableBy setup Keeps l := by
  induction hReach with
  | start => exact .start
  | next _ hFew hStep ih =>
      rcases step_cases hStep with
        ⟨a, rfl, -, -, rfl⟩ | ⟨a, rfl, -, -, rfl⟩
      · have hKeeps : Keeps _ (.client a : Move ω ω') :=
          ⟨hFew, Session.goesOn_eq_false hOpen.client⟩
        refine .next (ih ?_) hKeeps hStep
        exact ⟨Session.teardown_eq_idle hOpen.client,
          hOpen.server⟩
      · have hKeeps : Keeps _ (.server a : Move ω ω') :=
          ⟨hFew, Session.goesOn_eq_false hOpen.server⟩
        refine .next (ih ?_) hKeeps hStep
        exact ⟨hOpen.client,
          Session.teardown_eq_idle hOpen.server⟩

/- What a run that keeps both ends open gives about them. -/
theorem ends_of_keeps
    (hReach : ReachableBy setup Keeps l) :
    Ends setup Session.Keeps Session.Keeps l :=
  ends (fun _ _ h => h) (fun _ _ h => h) hReach

theorem joined_of_keeps
    (hReach : ReachableBy setup Keeps l) :
    Joined setup l := by
  refine joined (hReach.mono ?_)
  intro l m hKeeps
  cases m with
  | client a =>
      exact ⟨hKeeps.1, Session.Keeps.settles hKeeps _⟩
  | server a => exact Session.Keeps.settles hKeeps _

/- An open session's reader has met no frame to reject. -/
theorem heads_of_keeps
    {cfg : Config ω}
    {s : Session}
    (hReach : Session.ReachableBy cfg Session.Keeps s)
    (hIdle : s.teardown = .idle) :
    HeadInv cfg.limits false (s.taken.map Prod.fst)
      s.reader := by
  have hHeads :=
    Session.headInv (Session.latch_hasClosed cfg)
      (fun _ _ h => Session.Keeps.settles h _) hReach
  rwa [hIdle] at hHeads

------------------------------------------------------------
-- Replies Have Callers
------------------------------------------------------------

/- A reply frame has the token of a call that was queued. -/
theorem caller_of_reply
    (hReach : ReachableBy setup Keeps l)
    (hOpen : l.BothOpen)
    (hOn : l.client.reader.shuts = false)
    {frame : Frame}
    (hMem : frame ∈ l.client.done)
    (hReply : Session.IsReply frame.1) :
    ∃ (i : Nat) (call : PendingCall),
      l.client.calls[i]? = some call ∧
        frame.1.userToken = tokenOf i ∧
          call.pc ≠ .created := by
  have hEnds := ends_of_keeps hReach
  have hJoined := joined_of_keeps hReach
  have hHeads := heads_of_keeps hEnds.client hOpen.client
  have hHead : frame.1 ∈ l.client.taken.map Prod.fst :=
    List.mem_map_of_mem
      (l.client.done_prefix_taken.subset hMem)
  have hLeaves : l.client.reader.leaves = false := by
    cases hAt : l.client.reader <;>
      simp_all [ReaderPc.shuts, ReaderPc.leaves]
  rcases List.mem_iff_getElem?.mp hMem with ⟨k, hGet⟩
  have hClean :
      Clean setup.client.limits l.client.done k :=
    fun other hOther =>
      hHeads.within hOn rfl other.1
        (List.mem_map_of_mem
          (l.client.done_prefix_taken.subset
            (List.mem_of_mem_take hOther)))
  rcases Session.item_of_clean hEnds.client hEnds.server
      hEnds.replies hHeads hGet
      (hHeads.proceeding hLeaves _ hHead) hClean with
    ⟨reply, hItem, hSame, -⟩
  have hType :
      reply.header.incomingType = some .response ∨
        reply.header.incomingType = some .error := by
    rw [← hSame]
    exact hReply
  rcases answers_of_reply hJoined (List.mem_of_getElem? hItem)
      hType with ⟨i, call, hCall, hToken, hAnswers⟩
  refine ⟨i, call, hCall, hSame ▸ hToken, ?_⟩
  rcases hAnswers with ⟨_, own, _, _, hOwn, hSource, -⟩
  intro hCreated
  have hOwnInv := Session.ownInv hEnds.client i
  rw [hCall] at hOwnInv
  have hNone := hOwnInv.1 (.inl hCreated)
  rw [itemsOf_eq_nil_iff] at hNone
  exact hNone own
    (l.client.writeChannel.accepted_prefix_admitted.subset
      (List.mem_of_getElem? hOwn)) hSource

/- A call is registered before a reply can have its token. -/
theorem fresh_of_created
    (hReach : ReachableBy setup Keeps l)
    (hOpen : l.BothOpen)
    {i : Nat}
    (hEnabled :
      l.client.Enabled (.registerOperation i : Action ω))
    {call : PendingCall}
    (hCall : l.client.calls[i]? = some call)
    (hOn : l.client.reader.shuts = false) :
    ∀ frame ∈ l.client.done, Session.IsReply frame.1 →
      frame.1.userToken ≠ call.token := by
  intro frame hMem hReply hEq
  rcases caller_of_reply hReach hOpen hOn hMem hReply with
    ⟨j, other, hOther, hToken, hPc⟩
  have hCalls := Session.callsInv (fun _ _ h => h.1)
    (ends_of_keeps hReach).client
  rcases hEnabled with ⟨created, hCreated, hNew⟩
  have hSame : created = call :=
    Option.some.inj
      ((Option.mem_def.mp hCreated).symm.trans hCall)
  rw [hSame] at hNew
  by_cases hIndex : j = i
  · subst hIndex
    rw [Option.some.inj (hCall.symm.trans hOther)] at hNew
    exact hPc hNew
  · refine hCalls.token_ne
      (List.getElem?_eq_some_iff.mp hCall).1
      (List.getElem?_eq_some_iff.mp hOther).1 hIndex ?_
    rw [← hToken, hEq, (hCalls.each i call hCall).token]

/- No reply that the client has read is still awaited. -/
theorem repliesTaken
    (hReach : ReachableBy setup Keeps l)
    (hOpen : l.BothOpen)
    (hOn : l.client.reader.shuts = false) :
    l.client.RepliesTaken := by
  induction hReach with
  | start =>
      simp [Session.RepliesTaken, start, Session.start,
        Session.done, ReaderPc.inBody]
  | @next l _ m hPrior hKeeps hStep ih =>
      rcases step_cases hStep with
        ⟨a, rfl, -, hEnabled, rfl⟩ | ⟨a, rfl, -, -, rfl⟩
      · have hWas : l.BothOpen :=
          ⟨Session.teardown_eq_idle hOpen.client,
            hOpen.server⟩
        have hEnds := ends_of_keeps hPrior
        refine Session.repliesTaken_update
          (Session.latch_hasClosed setup.client)
          (fun _ _ h => Session.Keeps.settles h _)
          hEnds.client hEnabled hOpen.client hOn (ih hWas) ?_
        exact fun i call hAction hCall =>
          fresh_of_created hPrior hWas (hAction ▸ hEnabled)
            hCall
      · exact ih ⟨hOpen.client,
          Session.teardown_eq_idle hOpen.server⟩ hOn

------------------------------------------------------------
-- Both Ends At Rest
------------------------------------------------------------

/- Only delivered bytes have to be the peer's. -/
theorem carries_of_proceeds
    {reader writer : Session}
    {a : Action ω}
    (hProceeds : Session.proceeds a = true) :
    Carries reader writer a := by
  cases a with
  | deliver bytes => cases hProceeds
  | _ => trivial

/- An end that is at rest has only bytes to wait for. -/
theorem rests_client
    (hRest : AtRest setup l) :
    l.client.Rests ω := by
  intro a hProceeds hEnabled
  have hNone := hRest (.client a) hProceeds
  rw [step, if_pos (carries_of_proceeds hProceeds),
    (Session.step_eq_some_iff _ _ _ _).mpr ⟨hEnabled, rfl⟩]
    at hNone
  cases hNone

theorem rests_server
    (hRest : AtRest setup l) :
    l.server.Rests ω' := by
  intro a hProceeds hEnabled
  have hNone := hRest (.server a) hProceeds
  rw [step_server setup l (carries_of_proceeds hProceeds)
    hEnabled] at hNone
  cases hNone

/- What the two ends of an open link at rest have done. -/
structure Still
    (setup : Setup ω ω')
    (l : Link) : Prop where
  client : Session.Rested setup.client l.client
  server : Session.Rested setup.server l.server
  requestsRead : l.server.done = l.client.items
  repliesRead : l.client.done = l.server.items

theorem Still.swap
    (hStill : Still setup l) :
    Still setup.swap l.swap where
  client := hStill.server
  server := hStill.client
  requestsRead := hStill.repliesRead
  repliesRead := hStill.requestsRead

theorem still
    [Nonempty ω]
    [Nonempty ω']
    (hReach : ReachableBy setup Keeps l)
    (hOpen : l.BothOpen)
    (hRest : AtRest setup l)
    (hArrived : ¬ l.InTransit) :
    Still setup l := by
  have hEnds := ends_of_keeps hReach
  simp only [InTransit, not_or, not_not] at hArrived
  rcases hArrived with
    ⟨hWrote, hWrote', hRequests, hReplies⟩
  have hClient : Session.Rested setup.client l.client :=
    Session.rested (fun _ _ h => h.1) hEnds.client
      hOpen.client (rests_client hRest) hWrote
  have hServer : Session.Rested setup.server l.server :=
    Session.rested (fun _ _ h => h.1) hEnds.server
      hOpen.server (rests_server hRest) hWrote'
  refine ⟨hClient, hServer, ?_, ?_⟩
  · exact Session.done_eq_items hEnds.server hEnds.client
      (heads_of_keeps hEnds.server hOpen.server)
      (hRequests.trans hClient.written) hServer.starved
  · exact Session.done_eq_items hEnds.client hEnds.server
      (heads_of_keeps hEnds.client hOpen.client)
      (hReplies.trans hServer.written) hClient.starved

------------------------------------------------------------
-- Nothing Is Stuck
------------------------------------------------------------

/-
  The calls of one end are settled: the other has read every
  frame that it queued and has one reply to each request,
  every call that queued its frame has ended and has an
  answer, and only calls that have yet to queue theirs are
  in the table.
-/
structure CallsSettled (l : Link) : Prop where
  read : l.server.done = l.client.items
  nobodyWaits : l.client.writeChannel.senders = []
  answered :
    ∀ (rid : Nat) (request : Request),
      l.server.requests[rid]? = some request →
        ∃ reply, l.server.queuedReplies rid = [reply]
  ended :
    ∀ (i : Nat) (call : PendingCall),
      l.client.calls[i]? = some call →
        call.pc = .created ∨ call.pc = .registered ∨
          (call.pc.isFinished = true ∧
            ∃ reply, l.Answers i reply)
  cleared :
    ∀ i, Pending l.client.channels i →
      ∃ call, l.client.calls[i]? = some call ∧
        call.pc = .registered

/- An open link at rest: the calls of both ends are. -/
structure Quiescent (l : Link) : Prop where
  forth : l.CallsSettled
  back : l.swap.CallsSettled

/- A request frame that was queued has its answer. -/
theorem answers_of_own
    (hReach : ReachableBy setup Keeps l)
    (hOpen : l.BothOpen)
    (hStill : Still setup l)
    {i : Nat}
    {own : WriteItem}
    (hOwn : own ∈ l.client.writeChannel.accepted)
    (hSource : own.source = .call i) :
    ∃ reply, l.Answers i reply ∧
      reply.header.userToken = own.header.userToken := by
  have hEnds := ends_of_keeps hReach
  have hProduced := Session.produced hEnds.client own
    (l.client.writeChannel.accepted_prefix_admitted.subset hOwn)
  have hType : own.header.incomingType = some .request := by
    cases hProduced with
    | request => simp [WriteItem.request]
    | notify | tryNotify | ping | pong => cases hSource
    | reply => cases hSource
  rcases List.mem_iff_getElem?.mp hOwn with ⟨k, hGet⟩
  have hDone : l.server.done[k]? = some own.frame := by
    rw [hStill.requestsRead, Session.items, List.getElem?_map,
      hGet]
    rfl
  have hRecorded :=
    Session.recorded (Session.latch_hasClosed setup.server)
      (fun _ _ h => Session.Keeps.settles h _) hEnds.server
      hStill.server.starved.waits.1 k own.frame hDone hType
  rcases List.mem_map.mp hRecorded with
    ⟨request, hMem, hOrd⟩
  rcases List.mem_iff_getElem?.mp hMem with ⟨rid, hRequest⟩
  have hHeader : request.header = own.header := by
    have hSourced := ((Session.requestsInv
      (fun _ _ h => Session.Keeps.settles h _)
      hEnds.server).each rid request hRequest).source
    rcases hSourced with ⟨body, hAt⟩
    rw [hOrd, hDone] at hAt
    exact (congrArg Prod.fst (Option.some.inj hAt)).symm
  rcases Session.queuedReplies_of_done hEnds.server hRequest
      (hStill.server.answered request hMem)
      (Session.isOpen_of_idle hEnds.server hOpen.server) with
    ⟨answer, hReplies⟩
  refine ⟨answer.item request.header rid,
    ⟨k, own, rid, request, hGet, hSource, hRequest, hOrd,
      hHeader, by rw [hReplies]; exact List.mem_singleton_self _⟩,
    ?_⟩
  rw [← hHeader]
  rfl

/- Its token has left the table, for its reply was read. -/
theorem cleared_of_own
    (hReach : ReachableBy setup Keeps l)
    (hOpen : l.BothOpen)
    (hStill : Still setup l)
    {i : Nat}
    {own : WriteItem}
    (hOwn : own ∈ l.client.writeChannel.accepted)
    (hSource : own.source = .call i) :
    l.client.channels.lookup own.header.userToken = none := by
  rcases answers_of_own hReach hOpen hStill hOwn hSource with
    ⟨reply, ⟨_, _, rid, request, -, -, hRequest, -, -, hMem⟩,
      hToken⟩
  rcases mem_itemsOf.mp hMem with ⟨hReply, -⟩
  have hEnds := ends_of_keeps hReach
  have hType : Session.IsReply reply.header := by
    have hReplyInv := (Session.replyInv hEnds.server).1 rid
    rw [hRequest] at hReplyInv
    rcases hReplyInv.echoes
        ((l.server.queuedReplies_sublist rid).subset hMem) with
      ⟨answer, rfl⟩
    cases answer with
    | response body =>
        exact .inl (by simp [Answer.item, WriteItem.respond,
          Answer.type])
    | error =>
        exact .inr (by simp [Answer.item, WriteItem.respond,
          Answer.type])
  rcases hStill.client.starved.waits with
    ⟨-, hShuts, -, hElsewhere⟩
  have hRead : reply.frame ∈ l.client.done := by
    rw [hStill.repliesRead]
    exact List.mem_map_of_mem hReply
  have hLeft :=
    (repliesTaken hReach hOpen hShuts).left hElsewhere
      reply.frame hRead hType
  rw [← hToken]
  exact hLeft

/- A call past its registration queued its frame. -/
theorem own_of_call
    (hReach : ReachableBy setup Keeps l)
    (hOpen : l.BothOpen)
    (hStill : Still setup l)
    {i : Nat}
    {call : PendingCall}
    (hCall : l.client.calls[i]? = some call)
    (hCreated : call.pc ≠ .created)
    (hRegistered : call.pc ≠ .registered) :
    ∃ own ∈ l.client.writeChannel.accepted,
      own.source = .call i ∧
        own.header.userToken = call.token := by
  have hEnds := ends_of_keeps hReach
  have hServes :=
    Session.isOpen_of_idle hEnds.client hOpen.client
  have hParked :=
    l.client.writeChannel.parked hStill.client.waiting
  have hOffered := Session.offered hEnds.client i call hCall
  rcases (hOffered.resolve_left hCreated).resolve_left
      hRegistered with hClosed | ⟨own, hOwn, hSource⟩
  · rw [hServes] at hClosed
    cases hClosed
  · refine ⟨own, ?_, hSource, ?_⟩
    · rw [Channel.admitted, hParked.2.2, List.append_nil]
        at hOwn
      exact hOwn
    · have hOwnInv := Session.ownInv hEnds.client i
      rw [hCall] at hOwnInv
      have hMem := mem_itemsOf.mpr ⟨hOwn, hSource⟩
      rcases hOwnInv.2 with hNone | hOne
      · rw [hNone] at hMem
        cases hMem
      · rw [hOne, List.mem_singleton] at hMem
        rw [hMem]
        rfl

/- Only calls that have yet to queue are in the table. -/
theorem registered_of_pending
    (hReach : ReachableBy setup Keeps l)
    (hOpen : l.BothOpen)
    (hStill : Still setup l)
    {i : Nat}
    (hPending : Pending l.client.channels i) :
    ∃ call, l.client.calls[i]? = some call ∧
      call.pc = .registered := by
  have hCalls := Session.callsInv (fun _ _ h => h.1)
    (ends_of_keeps hReach).client
  have hLt := (hCalls.keys _ _ hPending).1
  have hCall := List.getElem?_eq_getElem hLt
  refine ⟨_, hCall, ?_⟩
  have hInv := hCalls.each i _ hCall
  by_contra hRegistered
  rcases own_of_call hReach hOpen hStill hCall
      (fun hCreated => (hInv.created hCreated).1 hPending)
      hRegistered with ⟨own, hOwn, hSource, hToken⟩
  have hNone := cleared_of_own hReach hOpen hStill hOwn hSource
  rw [hToken, hInv.token, hPending] at hNone
  cases hNone

/- No call whose frame was queued waits any more. -/
theorem finished_of_rest
    (hReach : ReachableBy setup Keeps l)
    (hOpen : l.BothOpen)
    (hStill : Still setup l)
    {i : Nat}
    {call : PendingCall}
    (hCall : l.client.calls[i]? = some call)
    (hCreated : call.pc ≠ .created)
    (hRegistered : call.pc ≠ .registered) :
    call.pc.isFinished = true := by
  have hInv := (Session.callsInv (fun _ _ h => h.1)
    (ends_of_keeps hReach).client).each i call hCall
  rcases hStill.client.called call
      (List.mem_of_getElem? hCall) with
    hPc | hPc | hFinished | ⟨hPc, hWaiting⟩
  · exact absurd hPc hCreated
  · exact absurd hPc hRegistered
  · exact hFinished
  · -- Its channel is open and empty, so it is in the table.
    exfalso
    have hParked := call.channel.parked hWaiting
    have hEmpty : call.channel.admitted = [] := by
      rw [Channel.admitted, call.channel.fifo,
        hInv.undelivered (.inr hWaiting), hParked.2.1,
        hParked.2.2]
      rfl
    have hNone := hStill.client.starved.waits.2.2.1
    rcases hInv.live hCreated hParked.1 hEmpty with
      hPending | hCompletes | hClosing
    · rcases registered_of_pending hReach hOpen hStill
          hPending with ⟨other, hOther, hRegistered'⟩
      rw [Option.some.inj (hCall.symm.trans hOther)]
        at hRegistered
      exact hRegistered hRegistered'
    · rw [hNone] at hCompletes
      cases hCompletes
    · rw [hOpen.client] at hClosing
      cases hClosing

/- The calls of one end. -/
theorem callsSettled
    (hReach : ReachableBy setup Keeps l)
    (hOpen : l.BothOpen)
    (hStill : Still setup l) :
    l.CallsSettled := by
  have hEnds := ends_of_keeps hReach
  constructor
  case read => exact hStill.requestsRead
  case nobodyWaits =>
    exact (l.client.writeChannel.parked
      hStill.client.waiting).2.2
  case answered =>
    intro rid request hRequest
    rcases Session.queuedReplies_of_done hEnds.server hRequest
        (hStill.server.answered request
          (List.mem_of_getElem? hRequest))
        (Session.isOpen_of_idle hEnds.server hOpen.server) with
      ⟨answer, hReplies⟩
    exact ⟨_, hReplies⟩
  case ended =>
    intro i call hCall
    by_cases hCreated : call.pc = .created
    · exact .inl hCreated
    by_cases hRegistered : call.pc = .registered
    · exact .inr (.inl hRegistered)
    rcases own_of_call hReach hOpen hStill hCall hCreated
        hRegistered with ⟨own, hOwn, hSource, -⟩
    rcases answers_of_own hReach hOpen hStill hOwn hSource with
      ⟨reply, hAnswers, -⟩
    exact .inr (.inr ⟨finished_of_rest hReach hOpen hStill
      hCall hCreated hRegistered, reply, hAnswers⟩)
  case cleared =>
    exact fun i hPending =>
      registered_of_pending hReach hOpen hStill hPending

/-
  No step is left to take, so nothing is left to do, unless
  the transport holds bytes: two open sessions wait for
  nothing else of each other, and no call whose frame was
  queued depends on its timer.
-/
theorem quiescent
    [Nonempty ω]
    [Nonempty ω']
    (setup : Setup ω ω')
    (l : Link)
    (hReach : ReachableBy setup FewCalls l)
    (hOpen : l.BothOpen)
    (hRest : AtRest setup l) :
    l.InTransit ∨ Quiescent l := by
  by_cases hArrived : l.InTransit
  · exact .inl hArrived
  right
  have hKeeps := keeps_of_open hReach hOpen
  have hStill := still hKeeps hOpen hRest hArrived
  exact
    { forth := callsSettled hKeeps hOpen hStill
      back := callsSettled (reachable_swap hKeeps) hOpen.swap
        hStill.swap }

end Link

------------------------------------------------------------
-- A Link That Comes To Rest
------------------------------------------------------------

/- An open session between frames, with everything done. -/
def Session.Idles (s : Session) : Prop :=
  s.reader = .header ∧ s.unread.length < Header.size ∧
    s.writer = .receiving ∧
      s.writeChannel.receiver.isWaiting = true ∧
        s.teardown = .idle ∧ s.notifications = [] ∧
          (∀ call ∈ s.calls, call.pc.isFinished = true) ∧
            ∀ request ∈ s.requests, request.pc = .done

instance (s : Session) : Decidable s.Idles :=
  inferInstanceAs (Decidable (_ ∧ _))

theorem Session.rests_of_idles
    {ω : Type}
    {s : Session}
    (hIdles : s.Idles) :
    s.Rests ω := by
  rcases hIdles with ⟨hReader, hShort, hWriter, hWaiting,
    hTeardown, hTasks, hCalls, hRequests⟩
  have hCall :
      ∀ {i : Nat} {pc : CallPc}, pc.isFinished = false →
        ∀ call ∈ s.calls[i]?, call.pc ≠ pc := by
    intro i pc hPc call hGet hAt
    have hFinished := hCalls call (List.mem_of_getElem? hGet)
    rw [hAt, hPc] at hFinished
    cases hFinished
  have hRequest :
      ∀ {rid : Nat}, ∀ request ∈ s.requests[rid]?,
        request.pc = .done :=
    fun request hGet =>
      hRequests request (List.mem_of_getElem? hGet)
  intro a hProceeds hEnabled
  cases a with
  | armTimer i =>
      rcases hEnabled.1 with ⟨call, hGet, hPc⟩
      exact hCall rfl call hGet hPc
  | receiveReply i =>
      rcases hEnabled with ⟨call, hGet, hPc⟩
      exact hCall rfl call hGet hPc
  | resumeCall i =>
      rcases hEnabled with ⟨call, hGet, hPc, -⟩
      exact hCall rfl call hGet hPc
  | startHandler rid header w =>
      rcases hEnabled with ⟨request, hGet, -, hPc⟩
      cases (hRequest request hGet).symm.trans hPc
  | finishHandler rid w =>
      rcases hEnabled with ⟨request, hGet, hPc⟩
      cases (hRequest request hGet).symm.trans hPc
  | sendReply rid header answer =>
      rcases hEnabled with ⟨request, hGet, -, hPc⟩
      cases (hRequest request hGet).symm.trans hPc
  | resumeReply rid =>
      rcases hEnabled with ⟨⟨request, hGet, -, hSending⟩, -⟩
      rw [hRequest request hGet] at hSending
      cases hSending
  | readHeader now =>
      exact absurd hEnabled.2 (Nat.not_le_of_lt hShort)
  | runNotification callId body w =>
      simp [Enabled, hTasks] at hEnabled
  | writerTake =>
      have hCompleted := hEnabled.2
      rw [Receiver.isWaiting_iff.mp hWaiting] at hCompleted
      cases hCompleted
  | deliver | writerWrite
  | generateToken | registerOperation | queueCall | timerFire
  | timerStore | timerCancel | notify | tryNotify | tryPing
  | close | stamp | readFail | writerFail => cases hProceeds
  | _ => simp [Enabled, hReader, hWriter, hTeardown] at hEnabled

namespace Link

variable {ω ω' : Type}
variable {setup : Setup ω ω'}
variable {l : Link}

theorem atRest_of_idles
    (hClient : l.client.Idles)
    (hServer : l.server.Idles) :
    AtRest setup l := by
  intro m hProceeds
  cases m with
  | client a =>
      rw [step, if_pos (carries_of_proceeds hProceeds),
        Option.map_eq_none_iff, Session.step, if_neg]
      exact Session.rests_of_idles hClient a hProceeds
  | server a =>
      rw [step, if_pos (carries_of_proceeds hProceeds),
        Option.map_eq_none_iff, Session.step, if_neg]
      exact Session.rests_of_idles hServer a hProceeds

/- One call of `wipe`, until nothing is left to do. -/
def restMoves : List (Move Unit Unit) :=
  [.client (.generateToken (literal "wipe") Buffer.empty),
    .client (.registerOperation 0),
    .client (.queueCall 0),
    .client .writerReceive,
    .client .writerTake,
    .client (.writerWrite (wipeRequest.bytes .little) []),
    .client .writerFinish,
    .client .writerReceive,
    .client (.armTimer 0),
    .client (.receiveReply 0),
    .server (.deliver (wipeRequest.bytes .little)),
    .server (.readHeader 1),
    .server (.readBody wipeRequest.header .request),
    .server (.startHandler 0 wipeRequest.header ()),
    .server (.finishHandler 0 ()),
    .server (.sendReply 0 wipeRequest.header
      (.response Session.wiped)),
    .server (.resumeReply 0),
    .server .writerReceive,
    .server .writerTake,
    .server (.writerWrite (wipeResponse.bytes .little) []),
    .server .writerFinish,
    .server .writerReceive,
    .client (.deliver (wipeResponse.bytes .little)),
    .client (.readHeader 1),
    .client (.readBody wipeResponse.header .response),
    .client (.findOperation 1
      { ec := none, buffer := Session.wiped, frame := 0 }),
    .client (.sendResult 0
      { ec := none, buffer := Session.wiped, frame := 0 }),
    .client (.resumeResult 0),
    .client (.resumeCall 0)]

theorem quiescent_wipe :
    ∃ l : Link,
      (∃ call ∈ l.client.calls,
        call.pc = .returned Session.wiped) ∧
      Quiescent l := by
  obtain ⟨l, hReach, hRun⟩ :=
    Transition.exists_of_runBy (step wiping) FewCalls
      (start wiping) restMoves
      (fun l =>
        decide ((∃ call ∈ l.client.calls,
            call.pc = .returned Session.wiped) ∧
          l.client.Idles ∧ l.server.Idles ∧
          ¬ l.InTransit))
      (by decide +kernel)
  rcases of_decide_eq_true hRun with
    ⟨hReturned, hClient, hServer, hArrived⟩
  have hOpen : l.BothOpen :=
    ⟨hClient.2.2.2.2.1, hServer.2.2.2.2.1⟩
  have hEnds := quiescent wiping l hReach hOpen
    (atRest_of_idles hClient hServer)
  exact ⟨l, hReturned, hEnds.resolve_left hArrived⟩

end Link

end GrlxRpc
