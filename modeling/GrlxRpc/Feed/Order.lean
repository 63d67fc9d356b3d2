import GrlxRpc.Feed.Callbacks

/-
  Notifications are applied in order.

  A callback is a payload's when its frame starts where the
  payload's item starts in the stream. Frames are taken and
  items are queued in order, so the payloads a client hears
  are a subsequence of those the task sent. While the session
  is open and bodies are within the limit, what is missing
  was never offered, was refused, or is still on its way.

  Main declarations:
    * `frame_eq_of_offset` and `Session.done_eq_take`
    * `TaskInv` and `Feed.taskInv`
    * `Feed.heard` and `Feed.InFlight`
    * `Feed.InOrder` and `Feed.inOrder`
-/

------------------------------------------------------------
-- Places In The Stream
------------------------------------------------------------

namespace GrlxRpc

/- Where frame `k` starts. -/
abbrev offset
    (order : ByteOrder)
    (frames : List Frame)
    (k : Nat) : Nat :=
  (headerCode order).offset frames k

/-
  Whole frames that start at one place of a stream are equal,
  and their hosts have one byte order.
-/
theorem frame_eq_of_offset
    {order order' : ByteOrder}
    {taken frames : List Frame}
    (hPrefix : wire order taken <+: wire order' frames)
    (hFramed : ∀ frame ∈ frames, Framed frame)
    {j k : Nat}
    {frame sent : Frame}
    (hTaken : taken[j]? = some frame)
    (hSent : frames[k]? = some sent)
    (hPlace : offset order taken j = offset order' frames k)
    (hMagic : frame.1.magic = magicHeaderNumber)
    (hComplete : frame.2.length = frame.1.msgSize.toNat) :
    order = order' ∧ frame = sent := by
  have hRest :=
    Framing.Code.drop_prefix_drop hPrefix hPlace
  rcases List.getElem?_eq_some_iff.mp hTaken with ⟨hJ, rfl⟩
  rcases List.getElem?_eq_some_iff.mp hSent with ⟨hK, rfl⟩
  rw [List.drop_eq_getElem_cons hJ,
    List.drop_eq_getElem_cons hK] at hRest
  have hOrder : order = order' := by
    apply order_eq_of_prefix hRest (by rfl) hMagic
    intro other hMem
    rw [← List.drop_eq_getElem_cons hK] at hMem
    exact (hFramed other (List.mem_of_mem_drop hMem)).magic
  refine ⟨hOrder, ?_⟩
  rw [← hOrder] at hRest
  have hWhole := (hFramed _ (List.getElem_mem hK)).complete
  have hSame :=
    Framing.Code.block_eq_of_prefix (headerCode order)
      hComplete hWhole hRest
  exact hSame.1

namespace Session

variable {ω : Type}
variable {cfg : Config ω}

/- A reader that goes on has finished frames of the stream. -/
theorem done_eq_take
    {s : Session}
    (hReach : Reachable cfg s)
    {frames : List Frame}
    (hFramed : ∀ frame ∈ frames, Framed frame)
    (hKeepalive : ∀ frame ∈ frames, KeepaliveEmpty frame)
    (hLimit :
      ∀ frame ∈ frames,
        frame.1.msgSize ≤ cfg.limits.maxMessageBytes)
    (hStream : s.received <+: wire cfg.order frames)
    (hOn : s.reader.shuts = false) :
    s.done = frames.take s.done.length := by
  cases hBody : s.reader.inBody with
  | false =>
      have hBoundary : s.reader.atBoundary = true := by
        cases hReader : s.reader <;>
          simp_all [ReaderPc.shuts, ReaderPc.inBody,
            ReaderPc.atBoundary]
      rw [done_eq_taken hBody]
      exact taken_eq_take hReach hFramed hKeepalive hLimit
        hStream hBoundary
  | true =>
      obtain ⟨header, use, hReader⟩ :
          ∃ header use, s.reader = .body header use := by
        cases hReader : s.reader <;>
          simp_all [ReaderPc.inBody]
      have hLast :=
        (readerInv hReach).reading header use hReader
      rcases List.getLast?_eq_some_iff.mp hLast with
        ⟨front, hTaken⟩
      have hFront :=
        (reader_aligned cfg frames hFramed hLimit hKeepalive s
          hReach hStream front.length header
          (by simp [hTaken])).2.1
      have hDone : s.done = front := by
        simp [done, hBody, hTaken]
      rw [hTaken, List.take_left] at hFront
      rw [hDone]
      exact hFront

/-
  A reader that waits for more has finished every frame, once
  the whole stream has arrived.
-/
theorem done_of_starved
    {s : Session}
    (hReach : Reachable cfg s)
    {frames : List Frame}
    (hFramed : ∀ frame ∈ frames, Framed frame)
    (hKeepalive : ∀ frame ∈ frames, KeepaliveEmpty frame)
    (hLimit :
      ∀ frame ∈ frames,
        frame.1.msgSize ≤ cfg.limits.maxMessageBytes)
    (hStream : s.received = wire cfg.order frames)
    (hStarved : s.Starved) :
    s.done = frames := by
  have hPrefix : s.received <+: wire cfg.order frames := by
    rw [hStream]
  have hAll : frames <+: s.taken := by
    have hWhole :
        wire cfg.order (frames.take frames.length) <+:
          s.received := by
      rw [List.take_length, hStream]
    have hTake := starved_complete hReach hFramed hKeepalive
      hLimit hPrefix hStarved (Nat.le_refl _) hWhole
    rwa [List.take_length] at hTake
  have hOn : s.reader.shuts = false := by
    rcases hStarved with ⟨hReader, _⟩ | ⟨header, use, hReader, _⟩
    · rw [hReader]
      rfl
    · rw [hReader]
      rfl
  have hDone := done_eq_take hReach hFramed hKeepalive hLimit
    hPrefix hOn
  -- Else the frame it is in the middle of has no body.
  have hLength : frames.length ≤ s.done.length := by
    rcases hStarved with ⟨hReader, _⟩ |
      ⟨header, use, hReader, hShort⟩
    · rw [done_eq_taken (by rw [hReader]; rfl)]
      exact hAll.length_le
    · by_contra hNot
      have hLast :=
        (readerInv hReach).reading header use hReader
      have hSize := length_done_of_inBody (s := s)
        (by rw [hReader]; rfl)
      have hTaken : s.taken = frames := by
        symm
        apply hAll.eq_of_length_le
        omega
      rw [hTaken] at hLast
      have hComplete :=
        (hFramed _ (List.mem_of_getLast? hLast)).complete
      simp only [List.length_nil] at hComplete
      omega
  rw [hDone, List.take_of_length_le hLength]

end Session

------------------------------------------------------------
-- The Task
------------------------------------------------------------

/- The item `try_notify` queues for a payload. -/
def Payload.item
    (charSigned : Bool)
    (payload : Payload) : WriteItem :=
  .tryNotify charSigned payload.funcName payload.buffer

/-
  Every call but the one the task is in has its fate, and
  what was accepted is among the accepted items, in order.
-/
structure TaskInv
    (charSigned : Bool)
    (accepted : List WriteItem)
    (pc : NotifyPc)
    (sent : List Payload)
    (fates : List Fate) : Prop where
  answered :
    sent.length = fates.length + pc.current.toList.length
  last :
    ∀ payload, pc.current = some payload →
      sent[fates.length]? = some payload
  queued :
    ∀ m k : Nat, fates[m]? = some (.accepted k) →
      ∃ payload,
        sent[m]? = some payload ∧
          accepted[k]? = some (payload.item charSigned)
  rising :
    ∀ m m' k k' : Nat, m < m' →
      fates[m]? = some (.accepted k) →
        fates[m']? = some (.accepted k') →
          k < k'

namespace TaskInv

variable {charSigned : Bool}
variable {accepted accepted' : List WriteItem}
variable {pc pc' : NotifyPc}
variable {sent : List Payload}
variable {fates : List Fate}

/- The queue accepts from others. -/
theorem mono
    (hInv : TaskInv charSigned accepted pc sent fates)
    (hPrefix : accepted <+: accepted') :
    TaskInv charSigned accepted' pc sent fates := by
  refine { hInv with queued := ?_ }
  intro m k hFate
  rcases hInv.queued m k hFate with ⟨payload, hSent, hItem⟩
  exact ⟨payload, hSent, Records.getElem?_mono hPrefix hItem⟩

/- The task goes on in the same call. -/
theorem proceed
    (hInv : TaskInv charSigned accepted pc sent fates)
    (hPc : pc'.current = pc.current) :
    TaskInv charSigned accepted pc' sent fates := by
  constructor
  case answered =>
    rw [hPc]
    exact hInv.answered
  case last =>
    rw [hPc]
    exact hInv.last
  case queued => exact hInv.queued
  case rising => exact hInv.rising

/- The task begins a call. -/
theorem begin
    (hInv : TaskInv charSigned accepted pc sent fates)
    (hReady : pc.current = none)
    {payload : Payload}
    (hPc : pc'.current = some payload) :
    TaskInv charSigned accepted pc' (sent ++ [payload])
      fates := by
  have hLength := hInv.answered
  rw [hReady] at hLength
  constructor
  case answered =>
    rw [hPc, List.length_append, hLength]
    rfl
  case last =>
    intro payload' hCurrent
    have hSame := hPc.symm.trans hCurrent
    rw [Option.some.injEq] at hSame
    rw [← hSame, List.getElem?_append_right (by
      simp at hLength
      omega)]
    simp at hLength
    simp [hLength]
  case queued =>
    intro m k hFate
    rcases hInv.queued m k hFate with ⟨old, hSent, hItem⟩
    exact ⟨old, Records.getElem?_mono
      (List.prefix_append _ _) hSent, hItem⟩
  case rising => exact hInv.rising

/- A call comes to its end at the client's session. -/
theorem answer
    (hInv : TaskInv charSigned accepted pc sent fates)
    {payload : Payload}
    (hPc : pc.current = some payload)
    (hPc' : pc'.current = none)
    {fate : Fate}
    (hFate :
      ∀ k, fate = .accepted k →
        accepted'[k]? = some (payload.item charSigned) ∧
          accepted.length ≤ k)
    (hPrefix : accepted <+: accepted') :
    TaskInv charSigned accepted' pc' sent
      (fates ++ [fate]) := by
  have hNow := hInv.mono hPrefix
  constructor
  case answered =>
    rw [hPc', List.length_append, hInv.answered, hPc]
    rfl
  case last =>
    intro payload' hCurrent
    rw [hPc'] at hCurrent
    cases hCurrent
  case queued =>
    intro m k hGet
    rcases Records.getElem?_concat_eq_some.mp hGet with
      hOld | ⟨rfl, hNew⟩
    · exact hNow.queued m k hOld
    · exact ⟨payload, hInv.last payload hPc,
        (hFate k hNew).1⟩
  case rising =>
    intro m m' k k' hLt hGet hGet'
    rcases Records.getElem?_concat_eq_some.mp hGet' with
      hOld' | ⟨rfl, hNew⟩
    · have hBound := (List.getElem?_eq_some_iff.mp hOld').1
      rw [List.getElem?_append_left (by omega)] at hGet
      exact hInv.rising m m' k k' hLt hGet hOld'
    · rw [List.getElem?_append_left hLt] at hGet
      rcases hInv.queued m k hGet with ⟨_, _, hItem⟩
      have hBound := (List.getElem?_eq_some_iff.mp hItem).1
      have hFrom := (hFate k' hNew).2
      omega

end TaskInv

namespace Feed

variable {ω ω' : Type}

/- The task invariant of a feed. -/
def Task
    (setup : Link.Setup ω ω')
    (s : Feed) : Prop :=
  TaskInv setup.server.charSigned
    s.link.server.writeChannel.accepted s.pc s.sent s.fates

/- `try_notify` answers the call with what it returns. -/
theorem Task.visit
    {setup : Link.Setup ω ω'}
    {s : Feed}
    (hInv : s.Task setup)
    {payload : Payload}
    {listed : Bool}
    (hPc : s.pc = .visiting payload listed) :
    (s.visit setup payload listed).Task setup := by
  have hCurrent : s.pc.current = some payload := by
    rw [hPc]
    rfl
  unfold Feed.visit
  split
  · apply TaskInv.answer hInv hCurrent rfl
    case hFate =>
      intro k hFate
      unfold offer at hFate
      split at hFate
      · next hRoom =>
          rw [Fate.accepted.injEq] at hFate
          subst hFate
          refine ⟨?_, Nat.le_refl _⟩
          change ((s.link.server.writeChannel.trySend _).accepted)[
            s.link.server.writeChannel.accepted.length]? = _
          rw [Channel.trySend_accepted, if_pos hRoom,
            List.getElem?_concat_length]
          rfl
      · cases hFate
    case hPrefix =>
      exact Session.accepted_prefix_update _ _ _
  · apply TaskInv.answer hInv hCurrent rfl
    case hFate =>
      intro k hFate
      cases hFate
    case hPrefix => exact List.prefix_rfl

theorem taskInv
    {setup : Link.Setup ω ω'}
    {s : Feed}
    (hReach : Reachable setup s) :
    s.Task setup := by
  refine hReach.invariant ?_ ?_
  · constructor
    case answered => rfl
    case last =>
      intro payload hCurrent
      cases hCurrent
    case queued =>
      intro m k hFate
      cases hFate
    case rising =>
      intro m m' k k' _ hFate
      cases hFate
  intro s m s' _ hInv _ hStep
  apply step_cases
    (P := fun s' : Feed => s'.Task setup) hStep
  case hClient =>
    intro a l _ _ _ hServer _
    unfold Task
    rw [hServer]
    cases a with
    | readBody header use => cases use <;> exact hInv
    | _ => exact hInv
  case hServer =>
    intro a l _ _ hServer
    apply TaskInv.mono hInv
    rw [hServer]
    exact Session.accepted_prefix_update _ _ _
  case hReturn => exact fun _ _ => hInv
  case hStart => exact hInv
  case hPost => exact fun _ => hInv
  case hWork =>
    intro work rest
    unfold Task
    rw [link_runWork, sent_runWork, fates_runWork]
    exact TaskInv.proceed hInv (current_runWork _ work)
  case hBegin =>
    intro payload hPc
    have hReady : s.pc.current = none := by
      rw [hPc]
      rfl
    have hBegun :
        TaskInv setup.server.charSigned
          s.link.server.writeChannel.accepted
          (.copying payload) (s.sent ++ [payload]) s.fates :=
      TaskInv.begin hInv hReady rfl
    unfold begin
    split
    · exact hBegun
    · apply TaskInv.answer hBegun rfl hReady
      case hFate =>
        intro k hFate
        cases hFate
      case hPrefix => exact List.prefix_rfl
  case hVisit =>
    intro payload listed hPc
    exact Task.visit hInv hPc

end Feed

------------------------------------------------------------
-- What The Client Hears
------------------------------------------------------------

namespace Feed

variable {ω ω' : Type}

/-
  Frame `j` of the client starts where the item of payload
  `m` starts in the stream.
-/
def hears
    (setup : Link.Setup ω ω')
    (s : Feed)
    (j m : Nat) : Bool :=
  match s.fates[m]? with
  | some (.accepted k) =>
      decide (offset setup.client.order s.link.client.taken j =
        offset setup.server.order s.link.server.items k)
  | _ => false

/- The payloads whose callbacks ran, in the order they ran. -/
def heard
    (setup : Link.Setup ω ω')
    (s : Feed) : List Nat :=
  s.ran.filterMap fun j =>
    (List.range s.fates.length).find? (s.hears setup j)

/- Did `try_notify` take payload `m` for this session? -/
def isAccepted
    (s : Feed)
    (m : Nat) : Bool :=
  s.fates[m]?.any Fate.isAccepted

theorem hears_iff
    {setup : Link.Setup ω ω'}
    {s : Feed}
    {j m : Nat} :
    s.hears setup j m = true ↔
      ∃ k, s.fates[m]? = some (.accepted k) ∧
        offset setup.client.order s.link.client.taken j =
          offset setup.server.order s.link.server.items k := by
  unfold hears
  split
  · next k hFate => simp [hFate]
  · next hNot =>
      constructor
      · intro hFalse
        cases hFalse
      · rintro ⟨k, hFate, _⟩
        exact absurd hFate (hNot k)

theorem isAccepted_iff
    {s : Feed}
    {m : Nat} :
    s.isAccepted m = true ↔
      ∃ k, s.fates[m]? = some (.accepted k) := by
  unfold isAccepted
  rcases s.fates[m]? with _ | _ | _ | k <;>
    simp [Fate.isAccepted]

section Reached

variable {setup : Link.Setup ω ω'}
variable {s : Feed}

/- An accepted payload's item is among the accepted. -/
theorem Task.items
    (hTask : s.Task setup)
    {m k : Nat}
    (hFate : s.fates[m]? = some (.accepted k)) :
    ∃ payload,
      s.sent[m]? = some payload ∧
        s.link.server.items[k]? =
          some (payload.item setup.server.charSigned).frame := by
  rcases TaskInv.queued hTask m k hFate with
    ⟨payload, hSent, hItem⟩
  refine ⟨payload, hSent, ?_⟩
  rw [Session.items, List.getElem?_map, hItem]
  rfl

theorem Task.bound
    (hTask : s.Task setup)
    {m k : Nat}
    (hFate : s.fates[m]? = some (.accepted k)) :
    k < s.link.server.items.length := by
  rcases hTask.items hFate with ⟨_, _, hItem⟩
  exact (List.getElem?_eq_some_iff.mp hItem).1

/- A frame of the strand is a whole one the reader took. -/
theorem Strand.frame
    (hStrand : s.Strand setup)
    {j : Nat}
    (hMem : j ∈ s.ran ++ s.posted) :
    ∃ frame,
      s.link.client.done[j]? = some frame ∧
        s.link.client.taken[j]? = some frame ∧
        IsNotification frame := by
  rcases StrandInv.frames hStrand j hMem with
    ⟨frame, hDone, hIs⟩
  exact ⟨frame, hDone,
    Records.getElem?_mono
      s.link.client.done_prefix_taken hDone, hIs⟩

theorem Strand.bound
    (hStrand : s.Strand setup)
    {j : Nat}
    (hMem : j ∈ s.ran ++ s.posted) :
    j < s.link.client.taken.length := by
  rcases hStrand.frame hMem with ⟨_, _, hTaken, _⟩
  exact (List.getElem?_eq_some_iff.mp hTaken).1

/- One frame is one payload's. -/
theorem Task.eq_of_hears
    (hTask : s.Task setup)
    {j m m' : Nat}
    (hHears : s.hears setup j m = true)
    (hHears' : s.hears setup j m' = true) :
    m = m' := by
  rcases hears_iff.mp hHears with ⟨k, hFate, hPlace⟩
  rcases hears_iff.mp hHears' with ⟨k', hFate', hPlace'⟩
  have hSame : k = k' :=
    (headerCode setup.server.order).offset_inj
      (hTask.bound hFate) (hTask.bound hFate')
      (hPlace.symm.trans hPlace')
  rcases Nat.lt_trichotomy m m' with hLt | hEq | hGt
  · have := TaskInv.rising hTask m m' k k' hLt hFate hFate'
    omega
  · exact hEq
  · have := TaskInv.rising hTask m' m k' k hGt hFate' hFate
    omega

/- A later frame is a later payload's. -/
theorem Task.lt_of_hears
    (hTask : s.Task setup)
    {j j' m m' : Nat}
    (hBound : j < s.link.client.taken.length)
    (hLt : j < j')
    (hHears : s.hears setup j m = true)
    (hHears' : s.hears setup j' m' = true) :
    m < m' := by
  rcases hears_iff.mp hHears with ⟨k, hFate, hPlace⟩
  rcases hears_iff.mp hHears' with ⟨k', hFate', hPlace'⟩
  have hBefore :
      offset setup.client.order s.link.client.taken j <
        offset setup.client.order s.link.client.taken j' :=
    (headerCode setup.client.order).offset_lt hBound hLt
  rw [hPlace, hPlace'] at hBefore
  have hRises : k < k' :=
    (headerCode setup.server.order).lt_of_offset_lt hBefore
  by_contra hNot
  rcases Nat.eq_or_lt_of_not_lt hNot with hEq | hGt
  · rw [hEq, hFate'] at hFate
    cases hFate
    omega
  · have := TaskInv.rising hTask m' m k' k hGt hFate' hFate
    omega

theorem Task.mem_heard
    (hTask : s.Task setup)
    {m : Nat} :
    m ∈ s.heard setup ↔
      ∃ j ∈ s.ran, s.hears setup j m = true := by
  unfold heard
  rw [List.mem_filterMap]
  constructor
  · rintro ⟨j, hMem, hFind⟩
    exact ⟨j, hMem, List.find?_some hFind⟩
  · rintro ⟨j, hMem, hHears⟩
    refine ⟨j, hMem, ?_⟩
    cases hFind :
        (List.range s.fates.length).find? (s.hears setup j) with
    | some m' =>
        rw [hTask.eq_of_hears (List.find?_some hFind) hHears]
    | none =>
        rcases hears_iff.mp hHears with ⟨k, hFate, _⟩
        have hNone := List.find?_eq_none.mp hFind m
          (List.mem_range.mpr
            (List.getElem?_eq_some_iff.mp hFate).1)
        exact absurd hHears hNone

/- Payloads are heard in the order they were sent. -/
theorem heard_rising
    (hTask : s.Task setup)
    (hStrand : s.Strand setup) :
    (s.heard setup).Pairwise (· < ·) := by
  have hRan : s.ran.Pairwise (· < ·) :=
    (List.pairwise_append.mp hStrand.rising).1
  unfold heard
  rw [List.pairwise_filterMap]
  apply hRan.imp_of_mem
  intro j j' hMem _ hLt m hFind m' hFind'
  exact hTask.lt_of_hears
    (hStrand.bound (List.mem_append_left _ hMem)) hLt
    (List.find?_some hFind) (List.find?_some hFind')

/- Frames taken are bytes of the accepted items. -/
theorem taken_prefix_items
    (hReach : Reachable setup s) :
    wire setup.client.order s.link.client.taken <+:
      wire setup.server.order s.link.server.items := by
  have hEnds := ends hReach
  have hParsed := (Session.readerInv hEnds.client).parsed
  change wire (sessions setup).client.order _ <+: _
  rw [← hParsed]
  exact (List.take_prefix _ _).trans
    (hEnds.replies.trans
      (Session.outbound_prefix_accepted hEnds.server))

/- A frame that is a payload's is the frame of its item. -/
theorem frame_of_place
    (hReach : Reachable setup s)
    {j k m : Nat}
    (hMem : j ∈ s.ran ++ s.posted)
    (hFate : s.fates[m]? = some (.accepted k))
    (hPlace :
      offset setup.client.order s.link.client.taken j =
        offset setup.server.order s.link.server.items k) :
    setup.client.order = setup.server.order ∧
      ∃ payload,
        s.sent[m]? = some payload ∧
          s.link.server.items[k]? =
            some (payload.item setup.server.charSigned).frame ∧
          s.link.client.done[j]? =
            some (payload.item setup.server.charSigned).frame := by
  rcases (taskInv hReach).items hFate with
    ⟨payload, hSent, hItem⟩
  rcases (strandInv hReach).frame hMem with
    ⟨frame, hDone, hTaken, hIs⟩
  rcases frame_eq_of_offset (taken_prefix_items hReach)
    (Session.framed_items (ends hReach).server) hTaken hItem
    hPlace hIs.magic hIs.complete with ⟨hOrder, rfl⟩
  exact ⟨hOrder, payload, hSent, hItem, hDone⟩

/- A callback that is a payload's is run with its bytes. -/
theorem body_of_hears
    (hReach : Reachable setup s)
    {j m : Nat}
    (hMem : j ∈ s.ran ++ s.posted)
    (hHears : s.hears setup j m = true) :
    ∃ payload,
      s.sent[m]? = some payload ∧
        s.link.client.bodyAt j =
          some
            (shash64 setup.server.charSigned payload.funcName,
              payload.buffer.bytes) := by
  rcases hears_iff.mp hHears with ⟨k, hFate, hPlace⟩
  rcases frame_of_place hReach hMem hFate hPlace with
    ⟨_, payload, hSent, _, hDone⟩
  refine ⟨payload, hSent, ?_⟩
  rw [Session.bodyAt, hDone]
  rfl

end Reached

------------------------------------------------------------
-- What Is Missing
------------------------------------------------------------

/- The client's session was not closed, and goes on reading. -/
structure StaysOpen (s : Feed) : Prop where
  idle : s.link.client.teardown = .idle
  reads : s.link.client.reader.shuts = false

/- Every body is within the client's `max_message_bytes`. -/
def WithinLimit
    (setup : Link.Setup ω ω')
    (s : Feed) : Prop :=
  ∀ frame ∈ s.link.server.items,
    frame.1.msgSize ≤ setup.client.limits.maxMessageBytes

/-
  Payload `m` is on its way: the client has not finished the
  frame, or its task waits on the notification strand.
-/
def InFlight
    (setup : Link.Setup ω ω')
    (s : Feed)
    (m : Nat) : Prop :=
  (∃ k, s.fates[m]? = some (.accepted k) ∧
    (wire setup.client.order s.link.client.done).length <
      offset setup.server.order s.link.server.items (k + 1)) ∨
    ∃ j ∈ s.posted, s.hears setup j m = true

/-
  The writer waits for items, the reader has got all bytes
  and waits for more, and no task is on the strand.
-/
structure AtRest (s : Feed) : Prop where
  writer : s.link.server.writer = .receiving
  queue : s.link.server.writeChannel.receiver = .waiting
  arrived : s.link.client.received = s.link.server.outbound
  starved : s.link.client.Starved
  called : s.posted = []

section Missing

variable {setup : Link.Setup ω ω'}
variable {s : Feed}

/- A reader that goes on shares the writer's byte order. -/
theorem order_eq
    (hReach : Reachable setup s)
    (hOpen : s.StaysOpen)
    (hSome : s.link.client.taken ≠ []) :
    setup.client.order = setup.server.order := by
  have hEnds := ends hReach
  have hLeaves : s.link.client.reader.leaves = false := by
    have hReads := hOpen.reads
    cases hReader : s.link.client.reader <;>
      simp_all [ReaderPc.shuts, ReaderPc.leaves]
  cases hTaken : s.link.client.taken with
  | nil => exact absurd hTaken hSome
  | cons first rest =>
      apply order_eq_of_prefix (taken_prefix_items hReach)
      case hFirst =>
        rw [hTaken]
        rfl
      case hMagic =>
        apply (Session.headInv_always hEnds.client).proceeding
          hLeaves
        rw [hTaken]
        exact List.mem_map_of_mem List.mem_cons_self
      case hFrames =>
        intro frame hMem
        exact (Session.framed_items hEnds.server frame hMem).magic

/- What is on its way was not heard. -/
theorem not_heard
    (hReach : Reachable setup s)
    {m : Nat}
    (hFlight : s.InFlight setup m) :
    m ∉ s.heard setup := by
  intro hHeard
  have hTask := taskInv hReach
  have hStrand := strandInv hReach
  rcases hTask.mem_heard.mp hHeard with ⟨j, hRan, hHears⟩
  have hMem : j ∈ s.ran ++ s.posted :=
    List.mem_append_left _ hRan
  rcases hears_iff.mp hHears with ⟨k, hFate, hPlace⟩
  rcases hFlight with ⟨k', hFate', hShort⟩ |
    ⟨j', hPosted, hHears'⟩
  · -- The frame's end would be past all finished frames.
    rw [hFate, Option.some.injEq, Fate.accepted.injEq] at hFate'
    subst hFate'
    rcases frame_of_place hReach hMem hFate hPlace with
      ⟨hOrder, payload, _, hItem, hDone⟩
    have hEnd :=
      (headerCode setup.client.order).offset_le_length
        s.link.client.done (j + 1)
    have hStart :=
      (headerCode setup.client.order).offset_congr
        s.link.client.done_prefix_taken
        (Nat.le_of_lt (List.getElem?_eq_some_iff.mp hDone).1)
    rw [(headerCode setup.client.order).offset_succ hDone,
      hStart] at hEnd
    rw [offset, (headerCode setup.server.order).offset_succ
      hItem] at hShort
    change offset setup.client.order _ j + _ + _ ≤ _ at hEnd
    rw [hPlace] at hEnd
    exact absurd hEnd (Nat.not_le_of_lt hShort)
  · -- Its task would have been posted twice.
    rcases hears_iff.mp hHears' with ⟨k', hFate', hPlace'⟩
    rw [hFate, Option.some.injEq, Fate.accepted.injEq] at hFate'
    subst hFate'
    have hSame : j = j' :=
      (headerCode setup.client.order).offset_inj
        (hStrand.bound hMem)
        (hStrand.bound (List.mem_append_right _ hPosted))
        (hPlace.trans hPlace'.symm)
    have hLt :=
      (List.pairwise_append.mp hStrand.rising).2.2 j hRan j'
        hPosted
    omega

/- What was accepted is heard, or on its way. -/
theorem heard_or_inFlight
    (hReach : Reachable setup s)
    (hOpen : s.StaysOpen)
    (hWithin : s.WithinLimit setup)
    {m : Nat}
    (hAccepted : s.isAccepted m = true) :
    m ∈ s.heard setup ∨ s.InFlight setup m := by
  have hEnds := ends hReach
  have hTask := taskInv hReach
  rcases isAccepted_iff.mp hAccepted with ⟨k, hFate⟩
  rcases hTask.items hFate with ⟨payload, hSent, hItem⟩
  by_cases hShort :
      (wire setup.client.order s.link.client.done).length <
        offset setup.server.order s.link.server.items (k + 1)
  · exact .inr (.inl ⟨k, hFate, hShort⟩)
  have hRead := Nat.le_of_not_lt hShort
  have hEnd : 0 < offset setup.server.order
      s.link.server.items (k + 1) := by
    rw [offset, (headerCode setup.server.order).offset_succ
      hItem]
    have hSize := (headerCode setup.server.order).size_pos
    omega
  have hOrder : setup.client.order = setup.server.order := by
    apply order_eq hReach hOpen
    intro hNone
    have hDone : s.link.client.done = [] :=
      List.prefix_nil.mp
        (hNone ▸ s.link.client.done_prefix_taken)
    rw [hDone] at hRead
    simp only [wire, Framing.Code.flat_nil, List.length_nil]
      at hRead
    omega
  have hDone :
      s.link.client.done =
        s.link.server.items.take s.link.client.done.length := by
    apply Session.done_eq_take hEnds.client
      (Session.framed_items hEnds.server)
      (Session.keepalive_items hEnds.server) hWithin
    case hStream =>
      change _ <+: wire setup.client.order _
      rw [hOrder]
      exact hEnds.replies.trans
        (Session.outbound_prefix_accepted hEnds.server)
    case hOn => exact hOpen.reads
  -- So frame `k` is finished, and it is the payload's.
  have hLt : k < s.link.client.done.length := by
    apply (headerCode setup.server.order).lt_of_offset_lt
    rw [hDone, hOrder] at hRead
    apply Nat.lt_of_lt_of_le _ hRead
    exact (headerCode setup.server.order).offset_lt
      (List.getElem?_eq_some_iff.mp hItem).1
      (Nat.lt_succ_self k)
  have hGet :
      s.link.client.done[k]? =
        some (payload.item setup.server.charSigned).frame := by
    rw [hDone, List.getElem?_take_of_lt hLt]
    exact hItem
  have hMem : k ∈ s.ran ++ s.posted := by
    apply (strandInv hReach).kept hOpen.idle hOpen.reads k _ hGet
    case a => exact incomingType_frameHeader _ _ _ _
    case a => exact hWithin _ (List.mem_of_getElem? hItem)
  have hHears : s.hears setup k m = true := by
    apply hears_iff.mpr
    refine ⟨k, hFate, ?_⟩
    have hItems :
        s.link.client.done <+: s.link.server.items := by
      rw [hDone]
      exact List.take_prefix _ _
    have hTaken :=
      (headerCode setup.client.order).offset_congr
        s.link.client.done_prefix_taken (Nat.le_of_lt hLt)
    have hSent :=
      (headerCode setup.client.order).offset_congr
        hItems (Nat.le_of_lt hLt)
    rw [← hOrder]
    exact hTaken.symm.trans hSent
  rcases List.mem_append.mp hMem with hRan | hPosted
  · exact .inl (hTask.mem_heard.mpr ⟨k, hRan, hHears⟩)
  · exact .inr (.inr ⟨k, hPosted, hHears⟩)

/- At rest the client has got every accepted item. -/
theorem received_of_rest
    (hReach : Reachable setup s)
    (hRest : s.AtRest) :
    s.link.client.received =
      wire setup.server.order s.link.server.items := by
  have hBytes := Session.accepted_bytes (ends hReach).server
    (by rw [hRest.writer]; rfl)
  have hHeld : s.link.server.held (sessions setup).server = [] := by
    simp [Session.held, hRest.writer, hRest.queue]
  rw [hHeld, (s.link.server.writeChannel.parked
    hRest.queue).2.1] at hBytes
  simp only [itemBytes, List.map_nil, wire,
    Framing.Code.flat_nil, List.append_nil] at hBytes
  rw [hRest.arrived]
  exact hBytes.symm

/- It has begun to read them, if there are any. -/
theorem taken_ne_nil
    (hReach : Reachable setup s)
    (hRest : s.AtRest)
    (hItems : s.link.server.items ≠ []) :
    s.link.client.taken ≠ [] := by
  intro hNone
  have hReader := Session.readerInv (ends hReach).client
  rcases hRest.starved with ⟨_, hShort⟩ |
    ⟨header, use, hBody, _⟩
  · have hParsed := congrArg List.length hReader.parsed
    rw [List.length_take, Nat.min_eq_left hReader.within, hNone]
      at hParsed
    simp only [wire, Framing.Code.flat_nil, List.length_nil]
      at hParsed
    rw [Session.unread, hParsed, List.drop_zero,
      received_of_rest hReach hRest] at hShort
    cases hSplit : s.link.server.items with
    | nil => exact hItems hSplit
    | cons frame rest =>
        rw [hSplit] at hShort
        have hSize :=
          (headerCode setup.server.order).size_le_length_flat
            frame rest
        exact absurd hSize (Nat.not_le_of_lt hShort)
  · have hLast := hReader.reading header use hBody
    rw [hNone] at hLast
    cases hLast

theorem not_inFlight_of_rest
    (hReach : Reachable setup s)
    (hOpen : s.StaysOpen)
    (hWithin : s.WithinLimit setup)
    (hRest : s.AtRest)
    {m : Nat} :
    ¬ s.InFlight setup m := by
  have hEnds := ends hReach
  intro hFlight
  rcases hFlight with ⟨k, hFate, hShort⟩ | ⟨j, hPosted, _⟩
  · have hBound := (taskInv hReach).bound hFate
    have hItems : s.link.server.items ≠ [] :=
      List.ne_nil_of_length_pos (Nat.zero_lt_of_lt hBound)
    have hOrder := order_eq hReach hOpen
      (taken_ne_nil hReach hRest hItems)
    have hDone :
        s.link.client.done = s.link.server.items := by
      apply Session.done_of_starved hEnds.client
        (Session.framed_items hEnds.server)
        (Session.keepalive_items hEnds.server) hWithin
      case hStream =>
        change _ = wire setup.client.order _
        rw [hOrder]
        exact received_of_rest hReach hRest
      case hStarved => exact hRest.starved
    rw [hDone, hOrder] at hShort
    exact absurd
      ((headerCode setup.server.order).offset_le_length
        s.link.server.items (k + 1))
      (Nat.not_le_of_lt hShort)
  · rw [hRest.called] at hPosted
    cases hPosted

end Missing

------------------------------------------------------------
-- Notifications In Order
------------------------------------------------------------

/-
  The callbacks of the task's payloads: in the order sent,
  each once and with the bytes sent, one after another. While
  the session is open and bodies are within the limit, the
  payloads not heard are those that were not offered, those
  that were refused, and those that are on their way; at rest
  none is on its way. What the queue accepted is on the stream
  or with the writer, as long as that runs.
-/
structure InOrder
    (setup : Link.Setup ω ω')
    (s : Feed) : Prop where
  ordered : (s.heard setup).Pairwise (· < ·)
  subsequence :
    ((s.heard setup).filterMap fun m => s.sent[m]?).Sublist
      s.sent
  genuine :
    ∀ j ∈ s.ran, ∀ m, s.hears setup j m = true →
      ∃ payload,
        s.sent[m]? = some payload ∧
          s.link.client.bodyAt j =
            some
              (shash64 setup.server.charSigned
                payload.funcName,
                payload.buffer.bytes)
  told :
    (s.link.client.log.filterMap Event.told).map some =
      s.ran.map s.link.client.bodyAt
  serial :
    s.calls ++ s.callback.toList.map .returned =
      s.ran.flatMap fun j => [.entered j, .returned j]
  missing :
    s.StaysOpen → s.WithinLimit setup →
      ∀ m < s.sent.length,
        (m ∉ s.heard setup ↔
          s.isAccepted m = false ∨ s.InFlight setup m)
  exact :
    s.StaysOpen → s.WithinLimit setup → s.AtRest →
      ∀ m < s.sent.length,
        (m ∉ s.heard setup ↔ s.isAccepted m = false)
  carried :
    s.link.client.received <+: s.link.server.outbound ∧
      (s.link.server.writer.hasStopped = false →
        itemBytes setup.server.order
            s.link.server.writeChannel.accepted =
          s.link.server.outbound ++
            s.link.server.held setup.server ++
            itemBytes setup.server.order
              s.link.server.writeChannel.buffer)

/-
  A server task's notifications are applied in order, by every
  client session, whatever else the server sends, the client
  asks for, and the queue has room for.
-/
theorem inOrder
    (setup : Link.Setup ω ω')
    (s : Feed)
    (hReach : Reachable setup s) :
    s.InOrder setup := by
  have hEnds := ends hReach
  have hTask := taskInv hReach
  have hStrand := strandInv hReach
  have hMissing :
      s.StaysOpen → s.WithinLimit setup →
        ∀ m, m ∉ s.heard setup ↔
          s.isAccepted m = false ∨ s.InFlight setup m := by
    intro hOpen hWithin m
    constructor
    · intro hNot
      cases hAccepted : s.isAccepted m with
      | false => exact .inl rfl
      | true =>
          exact .inr ((heard_or_inFlight hReach hOpen hWithin
            hAccepted).resolve_left hNot)
    · rintro (hLost | hFlight)
      · intro hHeard
        rcases hTask.mem_heard.mp hHeard with ⟨j, _, hHears⟩
        rcases hears_iff.mp hHears with ⟨k, hFate, _⟩
        rw [isAccepted_iff.mpr ⟨k, hFate⟩] at hLost
        cases hLost
      · exact not_heard hReach hFlight
  constructor
  case ordered => exact heard_rising hTask hStrand
  case subsequence =>
    exact Records.filterMap_getElem?_sublist
      (heard_rising hTask hStrand)
  case genuine =>
    intro j hRan m hHears
    exact body_of_hears hReach
      (List.mem_append_left _ hRan) hHears
  case told => exact hStrand.told
  case serial => exact hStrand.serial
  case missing =>
    intro hOpen hWithin m _
    exact hMissing hOpen hWithin m
  case exact =>
    intro hOpen hWithin hRest m _
    rw [hMissing hOpen hWithin m]
    exact or_iff_left
      (not_inFlight_of_rest hReach hOpen hWithin hRest)
  case carried =>
    exact ⟨hEnds.replies,
      Session.accepted_bytes hEnds.server⟩

/- Two sessions without handlers. -/
def plain : Link.Setup Unit Unit where
  client := {}
  server := {}

/- A new value of what the clients show. -/
def update
    (value : UInt8)
    (target : Option StdString) : Payload where
  funcName := literal "update"
  buffer := ⟨[value], by simp⟩
  target := target

/- The item for a value, written, read and called back. -/
def carry (value : UInt8) : List (FeedMove Unit Unit) :=
  let item := (update value none).item true
  [.link (.server .writerReceive),
    .link (.server .writerTake),
    .link (.server (.writerWrite (item.bytes .little) [])),
    .link (.server .writerFinish),
    .link (.client (.deliver (item.bytes .little))),
    .link (.client (.readHeader 0)),
    .link (.client (.readBody item.header .notification)),
    .link (.client
      (.runNotification item.header.callId item.body ())),
    .callbackReturns]

/-
  Three payloads, the second for another session: the client
  hears the first and the third, and then all is at rest.
-/
theorem inOrder_plain :
    ∃ s : Feed, Reachable plain s ∧
      s.sent.length = 3 ∧
      s.heard plain = [0, 2] ∧
      s.StaysOpen ∧ s.WithinLimit plain ∧ s.AtRest ∧
      s.InOrder plain := by
  obtain ⟨s, hReach, hRun⟩ :=
    Transition.exists_of_run (step plain) (start plain)
      ([.startServer, .post .insert, .runStrand,
        .notify (update 1 none), .runStrand, .visit,
        .notify (update 2 (some (literal "other"))),
        .runStrand, .visit,
        .notify (update 3 none), .runStrand, .visit] ++
        carry 1 ++ carry 3 ++
        [.link (.server .writerReceive)])
      (fun s =>
        decide (s.sent.length = 3 ∧ s.heard plain = [0, 2]) &&
        decide (s.link.client.teardown = .idle ∧
          s.link.client.reader = .header) &&
        decide (∀ frame ∈ s.link.server.items,
          frame.1.msgSize ≤
            plain.client.limits.maxMessageBytes) &&
        decide (s.link.server.writer = .receiving ∧
          s.link.server.writeChannel.receiver.isWaiting = true ∧
          s.link.client.received = s.link.server.outbound ∧
          s.link.client.unread.length < Header.size ∧
          s.posted = []))
      (by decide +kernel)
  simp only [Bool.and_eq_true, decide_eq_true_eq] at hRun
  rcases hRun with ⟨⟨⟨⟨hSent, hHeard⟩, hIdle, hReader⟩,
    hWithin⟩, hWriter, hWaits, hArrived, hShort, hCalled⟩
  refine ⟨s, hReach, hSent, hHeard, ?_, hWithin, ?_,
    inOrder plain s hReach⟩
  · constructor
    case idle => exact hIdle
    case reads =>
      rw [hReader]
      rfl
  · constructor
    case writer => exact hWriter
    case queue => exact Receiver.isWaiting_iff.mp hWaits
    case arrived => exact hArrived
    case starved => exact .inl ⟨hReader, hShort⟩
    case called => exact hCalled

end Feed

end GrlxRpc
