import GrlxRpc.Session.Origin
import GrlxRpc.Session.Auth

/-
  What follows an oversized frame.

  The functions that reject a frame for its size close the
  session and return to the reader's loop, which asks for the
  next header. It gets one if the stream is still open, or
  if a header's bytes had arrived before it was closed.

  Main declarations:
    * `Oversized`
    * `Session.StopsReading` and `Session.reads_on`
    * `OversizedInv` and `Session.oversizedInv`
    * `Silent` and `Session.oversized_ends`
-/

------------------------------------------------------------
-- Oversized Frames
------------------------------------------------------------

namespace GrlxRpc

/- A frame with a body that is longer than allowed. -/
def Oversized
    (limits : SessionLimits)
    (header : Header) : Prop :=
  header.magic = magicHeaderNumber ∧
    (∃ type ∈ header.incomingType, type.isKeepalive = false) ∧
    limits.maxMessageBytes < header.msgSize

instance
    (limits : SessionLimits)
    (header : Header) : Decidable (Oversized limits header) :=
  inferInstanceAs (Decidable (_ ∧ _))

/- Where the reader may be behind an oversized frame. -/
def ReaderPc.isBehind : ReaderPc → Bool
  | header => true
  | rejecting _ _ closes => closes
  | rejected _ closes => closes
  | close _ => true
  | closing _ => true
  | exited => true
  | pong => false
  | body _ _ => false
  | complete _ _ => false
  | completing _ _ => false
  | completed _ => false

namespace Session

variable {ω : Type}
variable {cfg : Config ω}

/- Every kind of oversized frame is rejected. -/
theorem intake_of_oversized
    {limits : SessionLimits}
    {header : Header}
    (hOversized : Oversized limits header)
    (granted : Bool) :
    intake limits granted header = .oversizedRequest ∨
      intake limits granted header = .oversized := by
  rcases hOversized with ⟨hMagic, ⟨type, hType, hKind⟩, hSize⟩
  have hSome : header.msgSize > 0 :=
    UInt64.lt_of_le_of_lt
      (UInt64.le_iff_toNat_le.mpr (Nat.zero_le _)) hSize
  rw [Option.mem_def] at hType
  cases type <;>
    simp [intake, hMagic, hType, hSize, hSome,
      MsgType.isKeepalive] at hKind ⊢

/- No socket to read from, and no header left to return. -/
def Drained (s : Session) : Prop :=
  s.streamOpen = false ∧ s.unread.length < Header.size

instance (s : Session) : Decidable s.Drained :=
  inferInstanceAs (Decidable (_ ∧ _))

/- Does the reader return to its loop from a rejection? -/
def returns (s : Session) : Action ω → Bool
  | .readerClose again => again && s.teardown ≠ .idle
  | .readerClosed again => again
  | _ => false

/-
  When the reader returns to its loop after an oversized
  frame, nothing is left to be read.
-/
def StopsReading
    (s : Session)
    (a : Action ω) : Prop :=
  s.returns a = true → s.Drained

instance
    (s : Session)
    (a : Action ω) : Decidable (s.StopsReading a) :=
  inferInstanceAs (Decidable (_ → _))

/- Has the reader taken an oversized frame? -/
def TookOversized
    (cfg : Config ω)
    (s : Session) : Prop :=
  ∃ header ∈ s.taken.map Prod.fst,
    Oversized cfg.limits header

instance
    (cfg : Config ω)
    (s : Session) : Decidable (s.TookOversized cfg) :=
  inferInstanceAs (Decidable (∃ header ∈ _, _))

end Session

/-
  An oversized frame is the last one. Behind it the reader
  asks for a header only when none can come.
-/
structure OversizedInv
    {ω : Type}
    (cfg : Config ω)
    (s : Session) : Prop where
  last :
    ∀ header ∈ (s.taken.map Prod.fst).dropLast,
      ¬ Oversized cfg.limits header
  behind : s.TookOversized cfg → s.reader.isBehind = true
  drained :
    s.TookOversized cfg → s.reader = .header → s.Drained

namespace OversizedInv

variable {ω : Type}
variable {cfg : Config ω}
variable {s s' : Session}

/- A step without a header, to a place behind the frame. -/
theorem move
    (hInv : OversizedInv cfg s)
    (hTaken :
      s'.taken.map Prod.fst = s.taken.map Prod.fst)
    (hBehind :
      s.reader.isBehind = true → s'.reader.isBehind = true)
    (hDrained :
      s.TookOversized cfg → s'.reader = .header →
        s'.Drained) :
    OversizedInv cfg s' := by
  have hTook :
      s'.TookOversized cfg → s.TookOversized cfg := by
    intro h
    simpa only [Session.TookOversized, hTaken] using h
  constructor
  · rw [hTaken]
    exact hInv.last
  · exact fun h => hBehind (hInv.behind (hTook h))
  · exact fun h => hDrained (hTook h)

/- A step that leaves the reader and the stream alone. -/
theorem stay
    (hInv : OversizedInv cfg s)
    (hTaken : s'.taken = s.taken)
    (hReader : s'.reader = s.reader)
    (hDrained : s.Drained → s'.Drained) :
    OversizedInv cfg s' := by
  refine hInv.move (by rw [hTaken]) (by rw [hReader]; exact id)
    fun hTook hHeader => ?_
  rw [hReader] at hHeader
  exact hDrained (hInv.drained hTook hHeader)

/- No header was left behind an oversized frame. -/
theorem not_took
    (hInv : OversizedInv cfg s)
    (hReader : s.reader = .header)
    (hBytes : Header.size ≤ s.unread.length) :
    ¬ s.TookOversized cfg := by
  intro hTook
  have hLess := (hInv.drained hTook hReader).2
  omega

/- The reader takes the next header. -/
theorem take
    (hInv : OversizedInv cfg s)
    (hReader : s.reader = .header)
    (hBytes : Header.size ≤ s.unread.length)
    (now : Int) :
    OversizedInv cfg (s.update cfg (.readHeader now)) := by
  have hNone := hInv.not_took hReader hBytes
  have hNew :
      (s.update cfg (.readHeader now)).TookOversized cfg →
        Oversized cfg.limits (s.nextHeader cfg) := by
    rintro ⟨header, hMem, hOversized⟩
    simp only [Session.update, List.map_append,
      List.map_cons, List.map_nil, List.mem_append,
      List.mem_singleton] at hMem
    rcases hMem with hOld | rfl
    · exact absurd ⟨header, hOld, hOversized⟩ hNone
    · exact hOversized
  constructor
  · intro header hMem hOversized
    apply hNone
    refine ⟨header, ?_, hOversized⟩
    simpa [Session.update] using hMem
  · intro hTook
    simp only [Session.update, Session.nextIntake]
    rcases Session.intake_of_oversized (hNew hTook)
        (s.nextBucket cfg now).2 with hKind | hKind
    · rw [hKind]
      rfl
    · rw [hKind]
      rfl
  · intro hTook hHeader
    simp only [Session.update, Session.nextIntake]
      at hHeader
    rcases Session.intake_of_oversized (hNew hTook)
        (s.nextBucket cfg now).2 with hKind | hKind
    · rw [hKind] at hHeader
      cases hHeader
    · rw [hKind] at hHeader
      cases hHeader

/- A reader in the middle of a frame is behind none. -/
theorem of_not_behind
    (hInv : OversizedInv cfg s)
    (hReader : s.reader.isBehind = false)
    (hTaken :
      s'.taken.map Prod.fst = s.taken.map Prod.fst) :
    OversizedInv cfg s' := by
  have hNone : ¬ s'.TookOversized cfg := by
    intro hTook
    have hBehind := hInv.behind (by
      simpa only [Session.TookOversized, hTaken] using hTook)
    rw [hReader] at hBehind
    cases hBehind
  constructor
  · rw [hTaken]
    exact hInv.last
  · exact fun h => absurd h hNone
  · exact fun h => absurd h hNone

end OversizedInv

namespace Session

variable {ω : Type}
variable {cfg : Config ω}
variable {s : Session}

theorem oversizedInv
    (hReach : ReachableBy cfg StopsReading s) :
    OversizedInv cfg s := by
  refine invariant (OversizedInv cfg) ?_ ?_ hReach
  · exact
      { last := by simp [start]
        behind := fun _ => rfl
        drained := by
          rintro ⟨header, hMem, _⟩
          simp [start] at hMem }
  · intro s a _ hInv hOk hEnabled
    cases a with
    | deliver bytes =>
        refine hInv.stay rfl rfl fun hDrained => ?_
        have hOpen : s.streamOpen = true := hEnabled
        rw [hDrained.1] at hOpen
        cases hOpen
    | closeStream =>
        exact hInv.stay rfl rfl fun hDrained =>
          ⟨rfl, hDrained.2⟩
    | readHeader now => exact hInv.take hEnabled.1 hEnabled.2 now
    | readBody header use =>
        exact hInv.of_not_behind (by rw [hEnabled.1]; rfl)
          (map_fst_fillLast _ _)
    | sendPong =>
        have hAt : s.reader = .pong := hEnabled
        exact hInv.of_not_behind (by rw [hAt]; rfl) rfl
    | readFail =>
        exact hInv.move rfl (fun _ => rfl) fun _ hHeader => by
          cases hHeader
    | findOperation token result =>
        have hAt : s.reader = .complete token result := hEnabled
        exact hInv.of_not_behind (by rw [hAt]; rfl) rfl
    | sendResult i result =>
        have hAt : s.reader = .completing i result := hEnabled
        exact hInv.of_not_behind (by rw [hAt]; rfl) rfl
    | resumeResult i =>
        exact hInv.of_not_behind (by rw [hEnabled.1]; rfl) rfl
    | rejectRequest rid header closes =>
        have hAt : s.reader = .rejecting rid header closes :=
          hEnabled
        refine hInv.move rfl ?_ fun _ hHeader => ?_
        · rw [hAt]
          simp only [update]
          split
          · exact id
          · exact fun _ => rfl
        · simp only [update] at hHeader
          split at hHeader <;> cases hHeader
    | resumeReject rid closes =>
        cases closes with
        | true =>
            exact hInv.move rfl (fun _ => rfl)
              fun _ hHeader => by cases hHeader
        | false =>
            exact hInv.of_not_behind
              (by rw [hEnabled.1]; rfl) rfl
    | readerClose again =>
        refine hInv.move rfl (fun _ => ?_) fun _ hHeader => ?_
        · simp only [update]
          split
          · rfl
          · cases again <;> rfl
        · simp only [update] at hHeader
          split at hHeader
          · cases hHeader
          · next hNot =>
              cases again with
              | false => cases hHeader
              | true => exact hOk (by simp [returns, hNot])
    | readerClosed again =>
        cases again with
        | false =>
            exact hInv.move rfl (fun _ => rfl)
              fun _ hHeader => by cases hHeader
        | true =>
            exact hInv.move rfl (fun _ => rfl)
              fun _ _ => hOk rfl
    | _ => exact hInv.stay rfl rfl id

end Session

------------------------------------------------------------
-- Nothing More Is Read
------------------------------------------------------------

/-
  From `s` to `s'` the reader took no byte and began nothing:
  no request, no notification and no completion of a call.
-/
structure Silent (s s' : Session) : Prop where
  taken : s'.taken = s.taken
  consumed : s'.consumed = s.consumed
  requests : s'.requests.length = s.requests.length
  notifications : s'.notifications <:+ s.notifications
  reader : s'.reader.isBehind = true

theorem Silent.trans
    {s s' s'' : Session}
    (hFirst : Silent s s')
    (hSecond : Silent s' s'') :
    Silent s s'' where
  taken := hSecond.taken.trans hFirst.taken
  consumed := hSecond.consumed.trans hFirst.consumed
  requests := hSecond.requests.trans hFirst.requests
  notifications :=
    hSecond.notifications.trans hFirst.notifications
  reader := hSecond.reader

namespace Session

variable {ω : Type}
variable {cfg : Config ω}
variable {s : Session}

/- What one step keeps behind an oversized frame. -/
theorem silent_update
    (hInv : OversizedInv cfg s)
    (hTook : s.TookOversized cfg)
    {a : Action ω}
    (hEnabled : s.Enabled a)
    (hInv' : OversizedInv cfg (s.update cfg a)) :
    Silent s (s.update cfg a) := by
  have hBehind := hInv.behind hTook
  -- The frame stays among those that were taken.
  have hSilent :
      (s.update cfg a).taken = s.taken →
      (s.update cfg a).consumed = s.consumed →
      (s.update cfg a).requests.length = s.requests.length →
      (s.update cfg a).notifications <:+ s.notifications →
        Silent s (s.update cfg a) := by
    intro hTaken hConsumed hRequests hNotifications
    refine
      ⟨hTaken, hConsumed, hRequests, hNotifications, ?_⟩
    apply hInv'.behind
    simpa only [TookOversized, hTaken] using hTook
  cases a with
  | readHeader now =>
      exact absurd hTook (hInv.not_took hEnabled.1 hEnabled.2)
  | readBody header use =>
      rw [hEnabled.1] at hBehind
      cases hBehind
  | runNotification callId body w =>
      exact hSilent rfl rfl rfl (List.tail_suffix _)
  | rejectRequest rid header closes =>
      exact hSilent rfl rfl (List.length_modify _ _ _)
        (List.suffix_refl _)
  | resumeReject rid closes =>
      exact hSilent rfl rfl (List.length_modify _ _ _)
        (List.suffix_refl _)
  | startHandler rid header w =>
      exact hSilent rfl rfl (List.length_modify _ _ _)
        (List.suffix_refl _)
  | finishHandler rid w =>
      exact hSilent rfl rfl (List.length_modify _ _ _)
        (List.suffix_refl _)
  | sendReply rid header answer =>
      exact hSilent rfl rfl (List.length_modify _ _ _)
        (List.suffix_refl _)
  | resumeReply rid =>
      exact hSilent rfl rfl (List.length_modify _ _ _)
        (List.suffix_refl _)
  | _ => exact hSilent rfl rfl rfl (List.suffix_refl _)

/-
  In a run in which the reader finds nothing to read when it
  returns from a rejection, an oversized frame is the last
  one it takes, and nothing comes of later bytes.
-/
theorem oversized_ends
    (cfg : Config ω)
    (s s' : Session)
    (hReach : ReachableBy cfg StopsReading s)
    (hTook : s.TookOversized cfg)
    (hLater :
      Transition.ReachableBy (step cfg) StopsReading s s') :
    (∀ header ∈ (s.taken.map Prod.fst).dropLast,
        ¬ Oversized cfg.limits header) ∧
      Silent s s' := by
  refine ⟨(oversizedInv hReach).last, ?_⟩
  refine hLater.invariant ?_ ?_
  · exact
      { taken := rfl
        consumed := rfl
        requests := rfl
        notifications := List.suffix_refl _
        reader := (oversizedInv hReach).behind hTook }
  · intro t a t' hPrior hSilent hOk hStep
    rcases (step_eq_some_iff cfg t t' a).mp hStep with
      ⟨hEnabled, rfl⟩
    have hReachT := hReach.trans hPrior
    have hTookT : t.TookOversized cfg := by
      simpa only [TookOversized, hSilent.taken] using hTook
    apply hSilent.trans
    exact silent_update (oversizedInv hReachT) hTookT hEnabled
      (oversizedInv (hReachT.next hOk hStep))

------------------------------------------------------------
-- Frames Behind An Oversized One
------------------------------------------------------------

/- A header that has arrived, or can arrive, is taken. -/
theorem takes_header
    (cfg : Config ω)
    (hReader : s.reader = .header)
    (hLeft : ¬ s.Drained) :
    ∃ actions s',
      Transition.run (step cfg) s actions = some s' ∧
        s'.taken.length = s.taken.length + 1 := by
  by_cases hBytes : Header.size ≤ s.unread.length
  · have hStep :=
      (step_eq_some_iff cfg s _ (.readHeader 0)).mpr
        ⟨⟨hReader, hBytes⟩, rfl⟩
    refine ⟨[.readHeader 0], s.update cfg (.readHeader 0),
      by simp [Transition.run, hStep], ?_⟩
    simp [update]
  · have hOpen : s.streamOpen = true := by
      by_contra hShut
      exact hLeft ⟨Bool.eq_false_iff.mpr hShut,
        Nat.lt_of_not_le hBytes⟩
    let bytes : List UInt8 :=
      List.replicate (s.consumed + Header.size) 0
    have hDeliver :=
      (step_eq_some_iff cfg s _ (.deliver bytes)).mpr
        ⟨hOpen, rfl⟩
    have hArrived :
        Header.size ≤
          (s.update cfg (.deliver bytes)).unread.length := by
      simp only [bytes, unread, update, List.length_drop,
        List.length_append, List.length_replicate]
      omega
    have hStep :=
      (step_eq_some_iff cfg (s.update cfg (.deliver bytes)) _
        (.readHeader 0)).mpr ⟨⟨hReader, hArrived⟩, rfl⟩
    refine ⟨[.deliver bytes, .readHeader 0],
      (s.update cfg (.deliver bytes)).update cfg
        (.readHeader 0),
      by simp [Transition.run, hDeliver, hStep], ?_⟩
    simp [update]

/-
  A reader that returns while there is something to be read
  can take a further frame.
-/
theorem reads_on
    (cfg : Config ω)
    {a : Action ω}
    (hNot : ¬ s.StopsReading a) :
    ∃ actions s',
      Transition.run (step cfg) (s.update cfg a) actions =
          some s' ∧
        s'.taken.length = s.taken.length + 1 := by
  simp only [StopsReading, Classical.not_imp] at hNot
  rcases hNot with ⟨hReturns, hLeft⟩
  cases a with
  | readerClose again =>
      simp only [returns, Bool.and_eq_true,
        decide_eq_true_eq] at hReturns
      rcases hReturns with ⟨rfl, hBusy⟩
      have hLoop :
          (s.update cfg (.readerClose true)).reader =
            .header := by
        simp [update, hBusy, ReaderPc.afterClose]
      exact takes_header cfg hLoop hLeft
  | readerClosed again =>
      obtain rfl : again = true := hReturns
      have hLoop :
          (s.update cfg (.readerClosed true)).reader =
            .header := rfl
      exact takes_header cfg hLoop hLeft
  | _ => cases hReturns

/- A notification header that announces a byte too many. -/
def oversizedNotification : Header where
  magic := magicHeaderNumber
  msgSize := ((8 : UInt64) <<< 20) + 1
  msgType := MsgType.field .notification
  callId := 3
  userToken := 0

def wipeRequest : Header :=
  frameHeader .request wipeId 7 Buffer.empty

/- The reader tears the session down for it. -/
def tearDown : List (Action Unit) :=
  [.readerClose true,
    .closeWriteChannel,
    .takeTable,
    .closeStream,
    .readerClosed true]

/- With nothing behind the frame the reader ends. -/
theorem oversized_ends_notification :
    ∃ s s' : Session, Reachable (guarded true) s ∧
      s'.reader = .exited ∧ Silent s s' := by
  obtain ⟨s, hReach, hRun⟩ :=
    Transition.exists_of_runBy (step (guarded true))
      StopsReading (start (guarded true))
      [.deliver (oversizedNotification.toBytes .little),
        .readHeader 1]
      (fun s =>
        decide (s.TookOversized (guarded true)) &&
          (Transition.runBy (step (guarded true)) StopsReading
            s (tearDown ++ [.readFail, .readerClose false])).any
              fun s' : Session => decide (s'.reader = .exited))
      (by decide +kernel)
  rcases (Bool.and_eq_true _ _).mp hRun with ⟨hTook, hLater⟩
  rcases (Option.any_eq_true _ _).mp hLater with
    ⟨s', hRun', hReader⟩
  exact ⟨s, s', hReach.reachable, of_decide_eq_true hReader,
    (oversized_ends (guarded true) s s' hReach
      (of_decide_eq_true hTook)
      (Transition.reachableBy_of_runBy hRun')).2⟩

/-
  A request had arrived behind the frame. It is handled by
  the session that was closed for the frame.
-/
theorem buffered_request_handled :
    ∃ s : Session, Reachable (guarded true) s ∧
      (∃ header ∈ (s.taken.map Prod.fst).dropLast,
        Oversized (guarded true).limits header) ∧
      s.requests.map Request.ord = [1] ∧
      .invoked (.request 0) wipeId ∈ s.log := by
  obtain ⟨s, hReach, hRun⟩ :=
    Transition.exists_of_run (step (guarded true))
      (start (guarded true))
      ([.deliver (oversizedNotification.toBytes .little ++
          wipeRequest.toBytes .little)] ++
        [.readHeader 1] ++ tearDown ++
        [.readHeader 2,
          .readBody wipeRequest .request,
          .startHandler 0 wipeRequest ()])
      (fun s =>
        decide ((∃ header ∈ (s.taken.map Prod.fst).dropLast,
            Oversized (guarded true).limits header) ∧
          s.requests.map Request.ord = [1] ∧
          .invoked (.request 0) wipeId ∈ s.log))
      (by decide +kernel)
  exact ⟨s, hReach, of_decide_eq_true hRun⟩

end Session

end GrlxRpc
