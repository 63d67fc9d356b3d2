import GrlxRpc.Session.Step

/-
  The reader's alignment with the stream.

  What the reader consumed is the concatenation of the
  frames it took, and every frame it is done with has all
  its body bytes, unless the reader is one that skips the
  body. A parse of well-formed frames can therefore only
  lose its place behind a skipped body.

  Main declarations:
    * `ReaderInv` and `Session.readerInv`
    * `Session.taken_aligned`
    * `Session.reader_aligned`
-/

------------------------------------------------------------
-- Skipped Bodies
------------------------------------------------------------

namespace GrlxRpc

/- Headers after which the reader takes no body. -/
def Skipped
    (limits : SessionLimits)
    (header : Header) : Prop :=
  header.magic ≠ magicHeaderNumber ∨
    (∀ type, header.incomingType = some type →
      type.isKeepalive = true) ∨
    limits.maxMessageBytes < header.msgSize

/- A frame whose body is complete, or was skipped. -/
def Drained
    (limits : SessionLimits)
    (frame : Frame) : Prop :=
  frame.2.length = frame.1.msgSize.toNat ∨
    (frame.2 = [] ∧ Skipped limits frame.1)

namespace Session

/- The reader reads a body exactly when it skips none. -/
theorem intake_spec
    (limits : SessionLimits)
    (granted : Bool)
    (header : Header) :
    match intake limits granted header with
    | .read _ => True
    | .emptyError => header.msgSize = 0
    | _ => Skipped limits header := by
  unfold intake
  by_cases hMagic : header.magic = magicHeaderNumber
  · simp only [hMagic, ne_eq, not_true, if_false]
    cases hType : header.incomingType with
    | none => simp [Skipped, hType]
    | some type =>
        cases type with
        | nop => simp [Skipped, hType, MsgType.isKeepalive]
        | ping => simp [Skipped, hType, MsgType.isKeepalive]
        | pong => simp [Skipped, hType, MsgType.isKeepalive]
        | request =>
            by_cases hSize :
                limits.maxMessageBytes < header.msgSize
            · simp [Skipped, hSize]
            · cases granted <;> simp [hSize]
        | response =>
            by_cases hSize :
                limits.maxMessageBytes < header.msgSize
            · simp [Skipped, hSize]
            · simp [hSize]
        | notification =>
            by_cases hSize :
                limits.maxMessageBytes < header.msgSize
            · simp [Skipped, hSize]
            · simp [hSize]
        | error =>
            by_cases hEmpty : header.msgSize > 0
            · by_cases hSize :
                  limits.maxMessageBytes < header.msgSize
              · simp [hEmpty, Skipped, hSize]
              · simp [hEmpty, hSize]
            · simp only [hEmpty, if_false]
              have hZero : ¬ 0 < header.msgSize := hEmpty
              exact UInt64.le_zero_iff.mp
                (UInt64.not_lt.mp hZero)
  · simp [hMagic, Skipped]

end Session

------------------------------------------------------------
-- The Invariant
------------------------------------------------------------

/-
  The points where every frame taken so far is dealt with.
  A reader that is about to exit may leave one unread.
-/
def ReaderPc.atBoundary : ReaderPc → Bool
  | header => true
  | pong => true
  | complete _ _ => true
  | completing _ _ => true
  | completed _ => true
  | rejecting _ _ _ => true
  | rejected _ _ => true
  | close again => again
  | closing again => again
  | body _ _ => false
  | exited => false

structure ReaderInv
    {ω : Type}
    (cfg : Config ω)
    (received : List UInt8)
    (consumed : Nat)
    (taken : List Frame)
    (reader : ReaderPc) : Prop where
  within : consumed ≤ received.length
  parsed : received.take consumed = wire cfg.order taken
  earlier : ∀ frame ∈ taken.dropLast, Drained cfg.limits frame
  reading :
    ∀ header use, reader = .body header use →
      taken.getLast? = some (header, [])
  boundary :
    reader.atBoundary = true →
      ∀ frame, taken.getLast? = some frame →
        Drained cfg.limits frame

namespace ReaderInv

variable {ω : Type}
variable {cfg : Config ω}
variable {received : List UInt8}
variable {consumed : Nat}
variable {taken : List Frame}
variable {reader : ReaderPc}

/- At a boundary every frame is dealt with. -/
theorem drained
    (hInv : ReaderInv cfg received consumed taken reader)
    (hBoundary : reader.atBoundary = true)
    {frame : Frame}
    (hMem : frame ∈ taken) :
    Drained cfg.limits frame := by
  rcases List.eq_nil_or_concat taken with
    hNil | ⟨front, last, hEq⟩
  · simp [hNil] at hMem
  · rw [List.concat_eq_append] at hEq
    subst hEq
    rw [List.mem_append, List.mem_singleton] at hMem
    rcases hMem with hFront | rfl
    · exact hInv.earlier frame (by simpa using hFront)
    · exact hInv.boundary hBoundary _ (by simp)

/- A boundary is only reached from a boundary. -/
theorem goto
    (hInv : ReaderInv cfg received consumed taken reader)
    {next : ReaderPc}
    (hBody : ∀ header use, next ≠ .body header use)
    (hFrom :
      next.atBoundary = true → reader.atBoundary = true) :
    ReaderInv cfg received consumed taken next where
  within := hInv.within
  parsed := hInv.parsed
  earlier := hInv.earlier
  reading := fun header use hNext =>
    absurd hNext (hBody header use)
  boundary := fun hNext => hInv.boundary (hFrom hNext)

/- Moving between boundaries keeps the invariant. -/
theorem move
    (hInv : ReaderInv cfg received consumed taken reader)
    (hFrom : reader.atBoundary = true)
    {next : ReaderPc}
    (hBody : ∀ header use, next ≠ .body header use) :
    ReaderInv cfg received consumed taken next :=
  hInv.goto hBody fun _ => hFrom

/- Leaving the loop needs no boundary. -/
theorem leave
    (hInv : ReaderInv cfg received consumed taken reader)
    {next : ReaderPc}
    (hBody : ∀ header use, next ≠ .body header use)
    (hNext : next.atBoundary = false) :
    ReaderInv cfg received consumed taken next :=
  hInv.goto hBody fun hTrue => by simp [hNext] at hTrue

end ReaderInv

------------------------------------------------------------
-- Reading A Header
------------------------------------------------------------

namespace Session

variable {ω : Type}
variable {cfg : Config ω}

theorem fillLast_concat
    (body : List UInt8)
    (front : List Frame)
    (frame : Frame) :
    fillLast body (front ++ [frame]) =
      front ++ [(frame.1, body)] := by
  induction front with
  | nil => rfl
  | cons first rest ih =>
      cases rest with
      | nil => rfl
      | cons second rest =>
          simpa [fillLast] using ih

/- A header that has arrived is the next forty bytes. -/
theorem nextHeader_toBytes
    (cfg : Config ω)
    (s : Session)
    (hSize : Header.size ≤ s.unread.length) :
    (s.nextHeader cfg).toBytes cfg.order =
      s.unread.take Header.size :=
  Header.toBytes_ofBytes cfg.order (by
    rw [List.length_take]
    exact Nat.min_eq_left hSize)

theorem nextBody_length
    (s : Session)
    (header : Header)
    (hSize : header.msgSize.toNat ≤ s.unread.length) :
    (s.nextBody header).bytes.length =
      header.msgSize.toNat := by
  simpa [nextBody, Buffer.ofStream] using hSize

/- Consuming more bytes extends what was parsed. -/
theorem take_consumed_add
    (s : Session)
    (count : Nat) :
    s.received.take (s.consumed + count) =
      s.received.take s.consumed ++ s.unread.take count := by
  rw [List.take_add, unread]

theorem consumed_add_le
    (s : Session)
    (count : Nat)
    (hWithin : s.consumed ≤ s.received.length)
    (hCount : count ≤ s.unread.length) :
    s.consumed + count ≤ s.received.length := by
  rw [unread, List.length_drop] at hCount
  omega

/- The header branch and its size checks. -/
theorem readerInv_readHeader
    (s : Session)
    (now : Int)
    (hInv :
      ReaderInv cfg s.received s.consumed s.taken s.reader)
    (hReader : s.reader = .header)
    (hSize : Header.size ≤ s.unread.length) :
    ReaderInv cfg s.received (s.consumed + Header.size)
      (s.taken ++ [(s.nextHeader cfg, [])])
      (afterHeader s.requests.length s.taken.length
        (s.nextHeader cfg) (s.nextIntake cfg now)) := by
  have hBoundary : s.reader.atBoundary = true := by
    simp [hReader, ReaderPc.atBoundary]
  have hIntake :=
    intake_spec cfg.limits (s.nextBucket cfg now).2
      (s.nextHeader cfg)
  refine
    { within := s.consumed_add_le _ hInv.within hSize
      parsed := ?_
      earlier := ?_
      reading := ?_
      boundary := ?_ }
  · rw [take_consumed_add, hInv.parsed,
      ← nextHeader_toBytes cfg s hSize, wire_concat,
      List.append_nil]
  · intro frame hMem
    rw [List.dropLast_concat] at hMem
    exact hInv.drained hBoundary hMem
  · intro header use hBody
    rw [List.getLast?_concat]
    cases hKind : s.nextIntake cfg now <;>
      simp_all [afterHeader]
  · intro hAt frame hLast
    obtain rfl : (s.nextHeader cfg, []) = frame := by
      simpa using hLast
    change match s.nextIntake cfg now with
      | .read _ => True
      | .emptyError => (s.nextHeader cfg).msgSize = 0
      | _ => Skipped cfg.limits (s.nextHeader cfg) at hIntake
    cases hKind : s.nextIntake cfg now with
    | read use =>
        simp [hKind, afterHeader, ReaderPc.atBoundary] at hAt
    | emptyError =>
        rw [hKind] at hIntake
        left
        simp [hIntake]
    | drop => rw [hKind] at hIntake; exact .inr ⟨rfl, hIntake⟩
    | skip => rw [hKind] at hIntake; exact .inr ⟨rfl, hIntake⟩
    | answerPing =>
        rw [hKind] at hIntake; exact .inr ⟨rfl, hIntake⟩
    | oversizedRequest =>
        rw [hKind] at hIntake; exact .inr ⟨rfl, hIntake⟩
    | oversized =>
        rw [hKind] at hIntake; exact .inr ⟨rfl, hIntake⟩

/- The body branch: exactly the declared size is drained. -/
theorem readerInv_readBody
    (s : Session)
    (header : Header)
    (use : BodyUse)
    (hInv :
      ReaderInv cfg s.received s.consumed s.taken s.reader)
    (hReader : s.reader = .body header use)
    (hSize : header.msgSize.toNat ≤ s.unread.length) :
    ReaderInv cfg s.received
      (s.consumed + header.msgSize.toNat)
      (fillLast (s.nextBody header).bytes s.taken)
      (afterBody s.requests.length (s.taken.length - 1)
        header (s.nextBody header) use) := by
  have hLast := hInv.reading header use hReader
  have hParsed := hInv.parsed
  have hEarlier := hInv.earlier
  rcases List.getLast?_eq_some_iff.mp hLast with
    ⟨front, hTaken⟩
  rw [hTaken] at hParsed hEarlier ⊢
  rw [List.dropLast_concat] at hEarlier
  rw [fillLast_concat]
  refine
    { within := s.consumed_add_le _ hInv.within hSize
      parsed := ?_
      earlier := ?_
      reading := ?_
      boundary := ?_ }
  · rw [take_consumed_add, hParsed, wire_concat, wire_concat,
      List.append_nil, List.append_assoc]
    rfl
  · simpa using hEarlier
  · intro header' use' hBody
    cases use <;> simp [afterBody] at hBody
  · intro _ frame hFrame
    obtain rfl : (header, (s.nextBody header).bytes) = frame := by
      simpa using hFrame
    exact .inl (s.nextBody_length header hSize)

------------------------------------------------------------
-- Every Run
------------------------------------------------------------

theorem readerInv
    {ok : Session → Action ω → Prop}
    {s : Session}
    (hReach : ReachableBy cfg ok s) :
    ReaderInv cfg s.received s.consumed s.taken s.reader := by
  refine invariant
    (fun s =>
      ReaderInv cfg s.received s.consumed s.taken s.reader)
    ?_ ?_ hReach
  · exact
      { within := Nat.le_refl _
        parsed := rfl
        earlier := by simp [start]
        reading := by simp [start]
        boundary := by simp [start] }
  · intro s a _ hInv _ hEnabled
    cases a with
    | deliver bytes =>
        exact
          { hInv with
            within := by
              have hWithin := hInv.within
              simp only [update, List.length_append]
              omega
            parsed :=
              (List.take_append_of_le_length
                hInv.within).trans hInv.parsed }
    | readHeader now =>
        exact s.readerInv_readHeader now hInv hEnabled.1
          hEnabled.2
    | readBody header use =>
        exact s.readerInv_readBody header use hInv hEnabled.1
          hEnabled.2
    | sendPong =>
        have hAt : s.reader = .pong := hEnabled
        exact hInv.move (by simp [hAt, ReaderPc.atBoundary])
          (by simp [update])
    | readFail => exact hInv.leave (by simp [update]) rfl
    | findOperation token result =>
        have hAt : s.reader = .complete token result :=
          hEnabled
        refine hInv.move
          (by simp [hAt, ReaderPc.atBoundary]) ?_
        cases hFound : s.channels.lookup token <;>
          simp [update, hFound]
    | sendResult i result =>
        have hAt : s.reader = .completing i result := hEnabled
        refine hInv.move
          (by simp [hAt, ReaderPc.atBoundary]) ?_
        intro header use
        simp only [update]
        split <;> simp
    | resumeResult i =>
        exact hInv.move
          (by simp [hEnabled.1, ReaderPc.atBoundary])
          (by simp [update])
    | rejectRequest rid header closes =>
        have hAt : s.reader = .rejecting rid header closes :=
          hEnabled
        refine hInv.move
          (by simp [hAt, ReaderPc.atBoundary]) ?_
        intro header use
        simp only [update]
        split <;> simp
    | resumeReject rid closes =>
        refine hInv.move
          (by simp [hEnabled.1, ReaderPc.atBoundary]) ?_
        intro header use
        simp only [update]
        split <;> simp
    | readerClose again =>
        have hAt : s.reader = .close again := hEnabled
        have hBody :
            ∀ header use,
              (if s.teardown = .idle then .closing again
                else .afterClose again) ≠
                ReaderPc.body header use := by
          intro header use
          split <;> cases again <;>
            simp [ReaderPc.afterClose]
        cases again with
        | true =>
            exact hInv.move
              (by simp [hAt, ReaderPc.atBoundary]) hBody
        | false =>
            refine hInv.leave hBody ?_
            simp only [update]
            split <;> rfl
    | readerClosed again =>
        cases again with
        | true =>
            exact hInv.move
              (by simp [hEnabled.1, ReaderPc.atBoundary])
              (by simp [update, ReaderPc.afterClose])
        | false =>
            exact hInv.leave
              (by simp [update, ReaderPc.afterClose]) rfl
    | _ => exact hInv

------------------------------------------------------------
-- Alignment
------------------------------------------------------------

end Session

/-
  A frame a peer may send: the magic number, one of the seven
  types, and exactly `MSG_SIZE` body bytes.
-/
structure Framed (frame : Frame) : Prop where
  magic : frame.1.magic = magicHeaderNumber
  known : frame.1.incomingType.isSome = true
  complete : frame.2.length = frame.1.msgSize.toNat

instance (frame : Frame) : Decidable (Framed frame) :=
  decidable_of_iff
    (frame.1.magic = magicHeaderNumber ∧
      frame.1.incomingType.isSome = true ∧
      frame.2.length = frame.1.msgSize.toNat)
    ⟨fun h => ⟨h.1, h.2.1, h.2.2⟩,
      fun h => ⟨h.magic, h.known, h.complete⟩⟩

/- A nop, ping or pong declares no body. -/
def KeepaliveEmpty (frame : Frame) : Prop :=
  (∃ type ∈ frame.1.incomingType,
    type.isKeepalive = true) →
      frame.1.msgSize = 0

instance (frame : Frame) : Decidable (KeepaliveEmpty frame) :=
  inferInstanceAs (Decidable (_ → _))

/-
  A well-formed frame whose header declares no oversized body
  and which is no keepalive with a body leaves nothing behind.
-/
theorem Framed.complete_of_drained
    {limits : SessionLimits}
    {sent frame : Frame}
    (hFramed : Framed sent)
    (hKeepalive : KeepaliveEmpty sent)
    (hSize : frame.1.msgSize ≤ limits.maxMessageBytes)
    (hHead : frame.1 = sent.1)
    (hDrained : Drained limits frame) :
    frame.2.length = frame.1.msgSize.toNat := by
  rcases hDrained with hComplete | ⟨hEmpty, hSkipped⟩
  · exact hComplete
  · rcases hSkipped with hMagic | hType | hOver
    · exact absurd (hHead ▸ hFramed.magic) hMagic
    · rcases Option.isSome_iff_exists.mp hFramed.known with
        ⟨type, hKnown⟩
      have hZero : frame.1.msgSize = 0 := by
        rw [hHead]
        refine hKeepalive ⟨type, hKnown, hType type ?_⟩
        rw [hHead, hKnown]
      simp [hEmpty, hZero]
    · exact absurd hOver (UInt64.not_lt.mpr hSize)

namespace Session

/-
  Frame `k` of the reader is frame `k` of the stream, at the
  same offset, as long as the frames before it were within
  the limit.
-/
theorem taken_aligned
    {ok : Session → Action ω → Prop}
    {s : Session}
    (hReach : ReachableBy cfg ok s)
    {frames : List Frame}
    (hFramed : ∀ frame ∈ frames, Framed frame)
    (hKeepalive : ∀ frame ∈ frames, KeepaliveEmpty frame)
    (hStream : s.received <+: wire cfg.order frames)
    {k : Nat}
    {frame : Frame}
    (hTaken : s.taken[k]? = some frame)
    (hWithin :
      ∀ j frame, j < k → s.taken[j]? = some frame →
        frame.1.msgSize ≤ cfg.limits.maxMessageBytes) :
    ∃ sent, frames[k]? = some sent ∧
      frame.1 = sent.1 ∧
      s.taken.take k = frames.take k ∧
      (frame.2.length = frame.1.msgSize.toNat →
        frame = sent) := by
  have hInv := readerInv hReach
  have hPrefix :
      wire cfg.order s.taken <+: wire cfg.order frames := by
    rw [← hInv.parsed]
    exact (List.take_prefix _ _).trans hStream
  refine (headerCode cfg.order).aligned_of_heads hPrefix
    (fun frame hMem => (hFramed frame hMem).complete)
    hTaken ?_
  intro j earlier sent hLt hEarlier hSent hHead
  have hMem : sent ∈ frames := List.mem_of_getElem? hSent
  have hBound : k < s.taken.length :=
    (List.getElem?_eq_some_iff.mp hTaken).1
  have hDrained : Drained cfg.limits earlier := by
    refine hInv.earlier earlier
      (List.mem_of_getElem? (i := j) ?_)
    rw [List.getElem?_dropLast, if_pos (by omega), hEarlier]
  exact (hFramed sent hMem).complete_of_drained
    (hKeepalive sent hMem) (hWithin j earlier hLt hEarlier)
    hHead hDrained

/-
  Every header the reader took is the header of the frame at
  its place, the frames before it were consumed in full, and
  it was taken right behind them.
-/
def HeadersAligned
    (cfg : Config ω)
    (frames : List Frame)
    (s : Session) : Prop :=
  ∀ k header, (s.taken.map Prod.fst)[k]? = some header →
    (frames.map Prod.fst)[k]? = some header ∧
      s.taken.take k = frames.take k ∧
      ∃ rest,
        s.received.take s.consumed =
          wire cfg.order (frames.take k) ++
            (header.toBytes cfg.order ++ rest)

/- A frame taken from the stream stands behind those before. -/
theorem consumed_eq
    {s : Session}
    (hInv :
      ReaderInv cfg s.received s.consumed s.taken s.reader)
    {k : Nat}
    {frame : Frame}
    (hTaken : s.taken[k]? = some frame) :
    ∃ rest,
      s.received.take s.consumed =
        wire cfg.order (s.taken.take k) ++
          (frame.1.toBytes cfg.order ++ rest) := by
  have hSplit :
      s.taken =
        s.taken.take k ++ frame :: s.taken.drop (k + 1) := by
    rcases List.getElem?_eq_some_iff.mp hTaken with
      ⟨hLt, hEq⟩
    rw [← hEq, ← List.drop_eq_getElem_cons hLt,
      List.take_append_drop]
  refine
    ⟨frame.2 ++ wire cfg.order (s.taken.drop (k + 1)), ?_⟩
  calc
    s.received.take s.consumed = wire cfg.order s.taken :=
      hInv.parsed
    _ = wire cfg.order
        (s.taken.take k ++ frame :: s.taken.drop (k + 1)) := by
      rw [← hSplit]
    _ = _ := by
      rw [wire, Framing.Code.flat_append,
        Framing.Code.flat_cons]
      rfl

/-
  No body byte is read as a header, provided no keepalive
  frame declares a body.
-/
theorem reader_aligned
    (cfg : Config ω)
    (frames : List Frame)
    (hFramed : ∀ frame ∈ frames, Framed frame)
    (hLimit :
      ∀ frame ∈ frames,
        frame.1.msgSize ≤ cfg.limits.maxMessageBytes)
    (hKeepalive : ∀ frame ∈ frames, KeepaliveEmpty frame)
    (s : Session)
    (hReach : Reachable cfg s)
    (hStream : s.received <+: wire cfg.order frames) :
    HeadersAligned cfg frames s := by
  have hAligned :
      ∀ k frame, s.taken[k]? = some frame →
        ∃ sent, frames[k]? = some sent ∧
          frame.1 = sent.1 ∧
          s.taken.take k = frames.take k := by
    intro k
    induction k using Nat.strong_induction_on with
    | _ k ih =>
        intro frame hAt
        -- Frames before this one are aligned, so within limit.
        have hWithin :
            ∀ j earlier, j < k → s.taken[j]? = some earlier →
              earlier.1.msgSize ≤ cfg.limits.maxMessageBytes := by
          intro j earlier hLt hEarlier
          rcases ih j hLt earlier hEarlier with
            ⟨sent, hSent, hHead, _⟩
          rw [hHead]
          exact hLimit sent (List.mem_of_getElem? hSent)
        rcases taken_aligned hReach hFramed hKeepalive hStream hAt
            hWithin with ⟨sent, hSent, hHead, hTake, _⟩
        exact ⟨sent, hSent, hHead, hTake⟩
  intro k header hHeader
  rw [List.getElem?_map, Option.map_eq_some_iff] at hHeader
  rcases hHeader with ⟨frame, hTaken, rfl⟩
  rcases hAligned k frame hTaken with
    ⟨sent, hSent, hHead, hTake⟩
  refine ⟨by simp [hSent, hHead], hTake, ?_⟩
  rw [← hTake]
  exact consumed_eq (readerInv hReach) hTaken

/- A request whose body is one word, and a ping after it. -/
def requestThenPing : List Frame :=
  [(frameHeader .request 3 1 ⟨[1, 0, 0, 0, 0, 0, 0, 0],
      by decide⟩, [1, 0, 0, 0, 0, 0, 0, 0]),
    (frameHeader .ping 0 0 Buffer.empty, [])]

/- The ping is found behind the request's body. -/
theorem reader_aligned_requestThenPing :
    ∃ s : Session, Reachable ({} : Config Unit) s ∧
      s.taken = requestThenPing ∧
      HeadersAligned ({} : Config Unit) requestThenPing s := by
  obtain ⟨s, hReach, hRun⟩ :=
    Transition.exists_of_run (step ({} : Config Unit))
      (start ({} : Config Unit))
      [.deliver (wire .little requestThenPing),
        .readHeader 1,
        .readBody (frameHeader .request 3 1
          ⟨[1, 0, 0, 0, 0, 0, 0, 0], by decide⟩) .request,
        .readHeader 2]
      (fun s =>
        decide (s.taken = requestThenPing ∧
          s.received = wire .little requestThenPing))
      (by decide +kernel)
  rcases of_decide_eq_true hRun with ⟨hTaken, hReceived⟩
  exact ⟨s, hReach, hTaken,
    reader_aligned {} requestThenPing (by decide +kernel)
      (by decide +kernel) (by decide +kernel) s hReach
      (hReceived ▸ List.prefix_rfl)⟩

/- A request header as the body of a nop. -/
def forgedRequest : Buffer :=
  ⟨(frameHeader .request 3 7 Buffer.empty).toBytes .little,
    by decide +kernel⟩

def nopWithBody : List Frame :=
  [(frameHeader .nop 0 0 forgedRequest, forgedRequest.bytes)]

/- The body of a nop is read as the header of a request. -/
theorem nop_body_read_as_header :
    (∀ frame ∈ nopWithBody, Framed frame ∧
      frame.1.msgSize ≤
        ({} : Config Unit).limits.maxMessageBytes) ∧
    ∃ s : Session, Reachable ({} : Config Unit) s ∧
      s.received = wire .little nopWithBody ∧
      s.requests.length = 1 ∧
      ¬ HeadersAligned ({} : Config Unit) nopWithBody s := by
  refine ⟨by decide +kernel, ?_⟩
  obtain ⟨s, hReach, hRun⟩ :=
    Transition.exists_of_run (step ({} : Config Unit))
      (start ({} : Config Unit))
      [.deliver (wire .little nopWithBody),
        .readHeader 1,
        .readHeader 2,
        .readBody (frameHeader .request 3 7 Buffer.empty)
          .request]
      (fun s =>
        decide (s.received = wire .little nopWithBody ∧
          s.requests.length = 1 ∧
          (s.taken.map Prod.fst)[1]? =
            some (frameHeader .request 3 7 Buffer.empty)))
      (by decide +kernel)
  rcases of_decide_eq_true hRun with
    ⟨hReceived, hRequests, hHeader⟩
  refine ⟨s, hReach, hReceived, hRequests, ?_⟩
  intro hAligned
  have hMissing := (hAligned 1 _ hHeader).1
  cases hMissing

end Session

end GrlxRpc
