import GrlxRpc.Session.Origin

/-
  The reader as a function of the byte stream.

  How the bytes arrive, what the limiter answers, which calls
  are pending and what anyone else does changes how far the
  reader comes, but never what it takes for a frame: a pure
  parser of the stream gives the frames of every run, also
  where the stream holds no frames at all.

  Main declarations:
    * `bodySize`, `readsOn` and `frameGrammar`
    * `SettledInv` and `Session.settledInv`
    * `Session.taken_follows`
-/

------------------------------------------------------------
-- The Parser
------------------------------------------------------------

namespace GrlxRpc

/- How many bytes behind a header are read as its body. -/
def bodySize
    (limits : SessionLimits)
    (header : Header) : Nat :=
  match Session.intake limits true header with
  | .read _ => header.msgSize.toNat
  | .drop => 0
  | .skip => 0
  | .answerPing => 0
  | .oversizedRequest => 0
  | .oversized => 0
  | .emptyError => 0

/- Can the reader take a header behind this one? -/
def readsOn
    (limits : SessionLimits)
    (header : Header) : Bool :=
  decide (Session.intake limits true header ≠ .drop)

/- The stream as `msg_reader` takes it apart. -/
def frameGrammar
    (limits : SessionLimits)
    (order : ByteOrder) :
    Framing.Grammar Header UInt8 where
  toCode :=
    { headerCode order with tailLength := bodySize limits }
  ofBytes := Header.ofBytes order
  ofBytes_bytes := Header.ofBytes_toBytes order
  goesOn := readsOn limits

/- A frame behind which the reader takes the next header. -/
structure Settled
    (limits : SessionLimits)
    (frame : Frame) : Prop where
  size : frame.2.length = bodySize limits frame.1
  goesOn : readsOn limits frame.1 = true

theorem Settled.block
    {limits : SessionLimits}
    {frame : Frame}
    (hSettled : Settled limits frame)
    (order : ByteOrder) :
    (frameGrammar limits order).Settled frame :=
  ⟨hSettled.size, hSettled.goesOn⟩

/- What a header makes the reader do fixes its body. -/
theorem intake_bodySize
    (limits : SessionLimits)
    (granted : Bool)
    (header : Header) :
    match Session.intake limits granted header with
    | .read _ =>
        bodySize limits header = header.msgSize.toNat ∧
          readsOn limits header = true
    | .drop => bodySize limits header = 0
    | _ =>
        bodySize limits header = 0 ∧
          readsOn limits header = true := by
  have hGranted :
      Session.intake limits granted header =
          Session.intake limits true header ∨
        Session.intake limits granted header =
            .read .limited ∧
          Session.intake limits true header =
            .read .request := by
    cases granted with
    | true => exact .inl rfl
    | false =>
        unfold Session.intake
        split
        · exact .inl rfl
        · split <;> try exact .inl rfl
          split
          · exact .inl rfl
          · exact .inr ⟨rfl, rfl⟩
  unfold bodySize readsOn
  rcases hGranted with hSame | ⟨hLimited, hRequest⟩
  · rw [hSame]
    cases Session.intake limits true header <;> simp
  · rw [hLimited, hRequest]
    simp

------------------------------------------------------------
-- The Invariant
------------------------------------------------------------

/-
  Every frame but the last is settled, and so is the last
  where the reader is between two frames. A body that is
  being read is one that the parser reads.
-/
structure SettledInv
    (limits : SessionLimits)
    (taken : List Frame)
    (reader : ReaderPc) : Prop where
  earlier : ∀ frame ∈ taken.dropLast, Settled limits frame
  boundary :
    reader.atBoundary = true →
      ∀ frame ∈ taken.getLast?, Settled limits frame
  reading :
    ∀ header use, reader = .body header use →
      bodySize limits header = header.msgSize.toNat ∧
        readsOn limits header = true

namespace SettledInv

variable {limits : SessionLimits}
variable {taken : List Frame}
variable {reader : ReaderPc}

/- At a boundary every frame is settled. -/
theorem settled
    (hInv : SettledInv limits taken reader)
    (hBoundary : reader.atBoundary = true) :
    ∀ frame ∈ taken, Settled limits frame := by
  intro frame hMem
  rcases List.eq_nil_or_concat taken with
    rfl | ⟨front, last, rfl⟩
  · cases hMem
  · rw [List.concat_eq_append, List.mem_append,
      List.mem_singleton] at hMem
    rcases hMem with hFront | rfl
    · exact hInv.earlier frame (by simpa using hFront)
    · exact hInv.boundary hBoundary frame (by simp)

/- A boundary is only reached from a boundary. -/
theorem goto
    (hInv : SettledInv limits taken reader)
    {next : ReaderPc}
    (hBody : next.inBody = false)
    (hFrom :
      next.atBoundary = true → reader.atBoundary = true) :
    SettledInv limits taken next where
  earlier := hInv.earlier
  boundary := fun hNext => hInv.boundary (hFrom hNext)
  reading := by
    rintro header use rfl
    simp [ReaderPc.inBody] at hBody

/- The reader takes a header. -/
theorem take
    (hInv : SettledInv limits taken .header)
    (granted : Bool)
    (header : Header)
    (rid ord : Nat) :
    SettledInv limits (taken ++ [(header, [])])
      (Session.afterHeader rid ord header
        (Session.intake limits granted header)) := by
  have hIntake := intake_bodySize limits granted header
  constructor
  case earlier =>
    rw [List.dropLast_concat]
    exact hInv.settled rfl
  case boundary =>
    intro hAt frame hLast
    obtain rfl : (header, []) = frame := by
      simpa using hLast
    cases hKind : Session.intake limits granted header <;>
      rw [hKind] at hIntake hAt
    case drop =>
      simp [Session.afterHeader, ReaderPc.atBoundary] at hAt
    case read use =>
      simp [Session.afterHeader, ReaderPc.atBoundary] at hAt
    all_goals exact ⟨hIntake.1.symm, hIntake.2⟩
  case reading =>
    intro header' use hBody
    cases hKind : Session.intake limits granted header <;>
      rw [hKind] at hIntake hBody <;>
      simp only [Session.afterHeader, ReaderPc.body.injEq,
        reduceCtorEq] at hBody
    rcases hBody with ⟨rfl, rfl⟩
    exact hIntake

/- The reader takes the body of the last header. -/
theorem fill
    {header : Header}
    {use : BodyUse}
    (hInv : SettledInv limits taken (.body header use))
    {front : List Frame}
    (hTaken : taken = front ++ [(header, [])])
    {body : List UInt8}
    (hLength : body.length = header.msgSize.toNat)
    {next : ReaderPc}
    (hBody : next.inBody = false) :
    SettledInv limits (front ++ [(header, body)]) next := by
  rcases hInv.reading header use rfl with ⟨hSize, hOn⟩
  constructor
  case earlier =>
    have hEarlier := hInv.earlier
    rw [hTaken, List.dropLast_concat] at hEarlier
    rw [List.dropLast_concat]
    exact hEarlier
  case boundary =>
    intro _ frame hLast
    obtain rfl : (header, body) = frame := by
      simpa using hLast
    exact ⟨hLength.trans hSize.symm, hOn⟩
  case reading =>
    rintro header' use' rfl
    simp [ReaderPc.inBody] at hBody

end SettledInv

------------------------------------------------------------
-- Every Run
------------------------------------------------------------

namespace Session

variable {ω : Type}
variable {cfg : Config ω}

theorem settledInv
    {ok : Session → Action ω → Prop}
    {s : Session}
    (hReach : ReachableBy cfg ok s) :
    SettledInv cfg.limits s.taken s.reader := by
  refine invariant
    (fun s => SettledInv cfg.limits s.taken s.reader) ?_ ?_
    hReach
  · exact
      { earlier := by simp [start]
        boundary := by simp [start]
        reading := by simp [start] }
  intro s a hPrior hInv _ hEnabled
  cases a with
  | readHeader now =>
      have hAt : s.reader = .header := hEnabled.1
      rw [hAt] at hInv
      exact hInv.take _ _ _ _
  | readBody header use =>
      rcases hEnabled with ⟨hAt, hSize⟩
      rw [hAt] at hInv
      rcases List.getLast?_eq_some_iff.mp
        ((readerInv hPrior).reading header use hAt) with
        ⟨front, hTaken⟩
      simp only [update, hTaken, fillLast_concat]
      exact hInv.fill hTaken (s.nextBody_length header hSize)
        (inBody_afterBody ..)
  | readFail => exact hInv.goto rfl Bool.noConfusion
  | sendPong =>
      have hAt : s.reader = .pong := hEnabled
      exact hInv.goto rfl fun _ => by
        simp [hAt, ReaderPc.atBoundary]
  | findOperation token result =>
      have hAt : s.reader = .complete token result := hEnabled
      refine hInv.goto ?_ fun _ => by
        simp [hAt, ReaderPc.atBoundary]
      simp only [update]
      cases s.channels.lookup token <;> rfl
  | sendResult i result =>
      have hAt : s.reader = .completing i result := hEnabled
      refine hInv.goto ?_ fun _ => by
        simp [hAt, ReaderPc.atBoundary]
      simp only [update]
      split <;> rfl
  | resumeResult i =>
      exact hInv.goto rfl fun _ => by
        simp [hEnabled.1, ReaderPc.atBoundary]
  | rejectRequest rid header closes =>
      have hAt : s.reader = .rejecting rid header closes :=
        hEnabled
      refine hInv.goto ?_ fun _ => by
        simp [hAt, ReaderPc.atBoundary]
      simp only [update]
      split <;> rfl
  | resumeReject rid closes =>
      refine hInv.goto ?_ fun _ => by
        simp [hEnabled.1, ReaderPc.atBoundary]
      simp only [update]
      split <;> rfl
  | readerClose again =>
      have hAt : s.reader = .close again := hEnabled
      simp only [update]
      split
      · exact hInv.goto rfl fun hNext => by
          simpa [hAt, ReaderPc.atBoundary] using hNext
      · refine hInv.goto (inBody_afterClose again) ?_
        cases again <;>
          simp [hAt, ReaderPc.afterClose,
            ReaderPc.atBoundary]
  | readerClosed again =>
      have hAt : s.reader = .closing again := hEnabled.1
      refine hInv.goto (inBody_afterClose again) ?_
      simp only [update]
      cases again <;>
        simp [hAt, ReaderPc.afterClose, ReaderPc.atBoundary]
  | _ => exact hInv

/-
  Whatever a run does, the frames that the reader takes lie
  in the parse of any stream that starts with the bytes the
  session received: each as it is there, the last at least
  with its header.
-/
theorem taken_follows
    (cfg : Config ω)
    (s : Session)
    (hReach : Reachable cfg s)
    (stream : List UInt8)
    (hStream : s.received <+: stream) :
    (frameGrammar cfg.limits cfg.order).Follows s.taken
        stream ∧
      (s.reader.atBoundary = true →
        s.taken <+:
          (frameGrammar cfg.limits cfg.order).parse
            stream) := by
  have hReader := readerInv hReach
  have hSettled := settledInv hReach
  have hPrefix :
      (frameGrammar cfg.limits cfg.order).flat s.taken <+:
        stream := by
    have hWire : wire cfg.order s.taken <+: s.received := by
      rw [← hReader.parsed]
      exact List.take_prefix _ _
    exact hWire.trans hStream
  have hFollows :=
    (frameGrammar cfg.limits cfg.order).follows_mono
      hPrefix fun frame hMem =>
        (hSettled.earlier frame hMem).block cfg.order
  refine ⟨hFollows, fun hBoundary => ?_⟩
  exact hFollows.last fun frame hLast =>
    (hSettled.boundary hBoundary frame hLast).size

/- A request, and five words that are no header. -/
def requestThenZeros : List UInt8 :=
  (frameHeader .request 7 1 Buffer.empty).toBytes .little ++
    List.replicate 41 0

/-
  The stream comes in three pieces, one of which ends within
  the first header, and the last byte is not there yet.
-/
theorem taken_follows_requestThenZeros :
    ∃ s : Session, Reachable ({} : Config Unit) s ∧
      s.taken.map Prod.fst =
        [frameHeader .request 7 1 Buffer.empty,
          ⟨0, 0, 0, 0, 0⟩] ∧
      s.taken.map Prod.fst <+:
        ((frameGrammar {} .little).parse
          requestThenZeros).map Prod.fst := by
  obtain ⟨s, hReach, hRun⟩ :=
    Transition.exists_of_run (step ({} : Config Unit))
      (start ({} : Config Unit))
      [.deliver (requestThenZeros.take 20),
        .deliver ((requestThenZeros.drop 20).take 25),
        .readHeader 1,
        .readBody (frameHeader .request 7 1 Buffer.empty)
          .request,
        .deliver ((requestThenZeros.drop 45).take 35),
        .readHeader 2]
      (fun s =>
        decide (s.received = requestThenZeros.take 80 ∧
          s.taken.map Prod.fst =
            [frameHeader .request 7 1 Buffer.empty,
              ⟨0, 0, 0, 0, 0⟩]))
      (by decide +kernel)
  rcases of_decide_eq_true hRun with ⟨hReceived, hTaken⟩
  refine ⟨s, hReach, hTaken, ?_⟩
  exact (taken_follows {} s hReach requestThenZeros
    (hReceived ▸ List.take_prefix 80 _)).1.heads

end Session

end GrlxRpc
