import GrlxRpc.Feed.State

/-
  The notification strand of the client's session.

  Its tasks are the notification frames the reader finished,
  in the order of the stream, and its callbacks run one
  after another. As long as the session is open, no finished
  notification within the limit is left out.

  Main declarations:
    * `StrandInv`
    * `Feed.strandInv`
-/

------------------------------------------------------------
-- What A Frame Tells
------------------------------------------------------------

namespace GrlxRpc

/- The arguments of a callback that ran. -/
def Event.told : Event → Option (UInt64 × List UInt8)
  | notified callId body => some (callId, body.bytes)
  | stamped _ => none
  | authCalled _ _ => none
  | invoked _ _ => none

/- A whole notification frame. -/
structure IsNotification (frame : Frame) : Prop where
  magic : frame.1.magic = magicHeaderNumber
  type : frame.1.incomingType = some .notification
  complete : frame.2.length = frame.1.msgSize.toNat

namespace Session

variable {ω : Type}
variable {cfg : Config ω}

/- Call id and body of a frame the reader finished. -/
def bodyAt
    (s : Session)
    (j : Nat) : Option (UInt64 × List UInt8) :=
  s.done[j]?.map fun frame => (frame.1.callId, frame.2)

/- In every run: a `close()` needs not come far. -/
theorem latch_always (cfg : Config ω) :
    Latch cfg fun _ => true where
  finished := rfl
  update := fun _ _ _ _ => rfl

theorem headInv_always
    {ok : Session → Action ω → Prop}
    {s : Session}
    (hReach : ReachableBy cfg ok s) :
    HeadInv cfg.limits true (s.taken.map Prod.fst) s.reader :=
  headInv (latch_always cfg) (fun _ _ _ _ => .inr rfl) hReach

/- A notification within the limit has its body read. -/
theorem intake_notification
    {limits : SessionLimits}
    {granted : Bool}
    {header : Header}
    (hMagic : header.magic = magicHeaderNumber)
    (hType : header.incomingType = some .notification)
    (hSize : header.msgSize ≤ limits.maxMessageBytes) :
    intake limits granted header = .read .notification := by
  have hNot : ¬ limits.maxMessageBytes < header.msgSize :=
    UInt64.not_lt.mpr hSize
  simp [intake, hMagic, hType, hNot]

/- No step but two touches what callbacks are run with. -/
def touchesStrand : Action ω → Bool
  | .readBody _ .notification => true
  | .runNotification _ _ _ => true
  | _ => false

theorem notifications_update
    (cfg : Config ω)
    (s : Session)
    {a : Action ω}
    (hNot : touchesStrand a = false) :
    (s.update cfg a).notifications = s.notifications := by
  cases a with
  | readBody header use =>
      cases use with
      | notification => cases hNot
      | _ => exact List.append_nil _
  | runNotification callId body w => cases hNot
  | _ => rfl

theorem told_update
    (cfg : Config ω)
    (s : Session)
    {a : Action ω}
    (hNot : touchesStrand a = false) :
    (s.update cfg a).log.filterMap Event.told =
      s.log.filterMap Event.told := by
  cases a with
  | stamp identity => simp [update, Event.told]
  | startHandler rid header w =>
      have hNone :
          (startEvents rid header.callId
            (s.gate cfg header w)).filterMap Event.told = [] := by
        rcases s.gate cfg header w with ⟨_ | call, _ | entry⟩ <;>
          simp [startEvents, Event.told]
      simp [update, hNone]
  | runNotification callId body w => cases hNot
  | _ => rfl

/-
  No other step finishes a notification within the limit,
  while the session is open and its reader goes on.
-/
theorem done_of_update
    {ok : Session → Action ω → Prop}
    {s : Session}
    (hReach : ReachableBy cfg ok s)
    {a : Action ω}
    (hEnabled : s.Enabled a)
    (hNot : touchesStrand a = false)
    (hIdle : (s.update cfg a).teardown = .idle)
    (hOn : (s.update cfg a).reader.shuts = false) :
    s.reader.shuts = false ∧
      ∀ (j : Nat) (frame : Frame),
        (s.update cfg a).done[j]? = some frame →
          frame.1.incomingType = some .notification →
            frame.1.msgSize ≤ cfg.limits.maxMessageBytes →
              s.done[j]? = some frame := by
  -- A step between two frames leaves them as they are.
  have hBetween :
      s.reader.inBody = false →
        (s.update cfg a).reader.inBody = false →
          (s.update cfg a).taken = s.taken →
            (s.update cfg a).done = s.done := by
    intro hBefore hAfter hTaken
    rw [done_eq_taken hBefore, done_eq_taken hAfter, hTaken]
  cases a with
  | readHeader now =>
      have hAt : s.reader = .header := hEnabled.1
      refine ⟨by rw [hAt]; rfl, ?_⟩
      intro j frame hGet hType hSize
      rw [done_eq_taken (s := s)
        (by rw [hAt]; rfl)]
      have hMem :
          (s.taken ++ [(s.nextHeader cfg, [])])[j]? =
            some frame := by
        have hPrefix :=
          (s.update cfg (.readHeader now)).done_prefix_taken
        exact Records.getElem?_mono hPrefix hGet
      rcases Records.getElem?_concat_eq_some.mp hMem with
        hOld | ⟨rfl, rfl⟩
      · exact hOld
      · -- The new frame is finished, so it is none of these.
        exfalso
        by_cases hMagic :
            (s.nextHeader cfg).magic = magicHeaderNumber
        · have hRead :
              s.nextIntake cfg now = .read .notification :=
            intake_notification hMagic hType hSize
          rw [done, if_pos
            (by simp [update, hRead, afterHeader,
              ReaderPc.inBody])] at hGet
          simp [update] at hGet
        · have hDrop : s.nextIntake cfg now = .drop := by
            simp [nextIntake, intake, hMagic]
          simp [update, hDrop, afterHeader, ReaderPc.shuts]
            at hOn
  | readBody header use =>
      have hAt : s.reader = .body header use := hEnabled.1
      refine ⟨by rw [hAt]; rfl, ?_⟩
      intro j frame hGet hType _
      rw [done_readBody (readerInv hReach) hAt] at hGet
      rcases Records.getElem?_concat_eq_some.mp hGet with
        hOld | ⟨_, rfl⟩
      · exact hOld
      · have hUse := (headInv_always hReach).reading header use
          hAt
        rw [show header.incomingType = some .notification from
          hType] at hUse
        cases use <;> cases hUse
        cases hNot
  | sendPong =>
      have hAt : s.reader = .pong := hEnabled
      refine ⟨by rw [hAt]; rfl, ?_⟩
      rw [hBetween (by rw [hAt]; rfl) rfl rfl]
      exact fun _ _ h _ _ => h
  | readFail => cases hOn
  | findOperation token result =>
      have hAt : s.reader = .complete token result := hEnabled
      refine ⟨by rw [hAt]; rfl, ?_⟩
      rw [hBetween (by rw [hAt]; rfl) ?_ rfl]
      · exact fun _ _ h _ _ => h
      · simp only [update]
        cases s.channels.lookup token <;> rfl
  | sendResult i result =>
      have hAt : s.reader = .completing i result := hEnabled
      refine ⟨by rw [hAt]; rfl, ?_⟩
      rw [hBetween (by rw [hAt]; rfl) ?_ rfl]
      · exact fun _ _ h _ _ => h
      · simp only [update]
        split <;> rfl
  | resumeResult i =>
      have hAt : s.reader = .completed i := hEnabled.1
      refine ⟨by rw [hAt]; rfl, ?_⟩
      rw [hBetween (by rw [hAt]; rfl) rfl rfl]
      exact fun _ _ h _ _ => h
  | rejectRequest rid header closes =>
      have hAt : s.reader = .rejecting rid header closes :=
        hEnabled
      constructor
      · simp only [update] at hOn
        split at hOn
        · rw [hAt]
          exact hOn
        · cases hOn
      · rw [hBetween (by rw [hAt]; rfl) ?_ rfl]
        · exact fun _ _ h _ _ => h
        · simp only [update]
          split <;> rfl
  | resumeReject rid closes =>
      have hAt : s.reader = .rejected rid closes := hEnabled.1
      constructor
      · cases closes with
        | true => cases hOn
        | false =>
            rw [hAt]
            rfl
      · rw [hBetween (by rw [hAt]; rfl) ?_ rfl]
        · exact fun _ _ h _ _ => h
        · cases closes <;> rfl
  | readerClose again =>
      simp only [update] at hIdle
      cases hTeardown : s.teardown <;>
        simp [hTeardown, Teardown.begin] at hIdle
  | readerClosed again =>
      cases hEnabled.2.symm.trans hIdle
  | _ => exact ⟨hOn, fun _ _ h _ _ => h⟩

end Session

------------------------------------------------------------
-- The Strand
------------------------------------------------------------

/-
  `ran` and `posted` name the notification frames the client
  finished, in order. `kept` says that none is left out.
-/
structure StrandInv
    (limits : SessionLimits)
    (client : Session)
    (posted ran : List Nat)
    (callback : Option Nat)
    (calls : List CallbackEvent) : Prop where
  rising : (ran ++ posted).Pairwise (· < ·)
  frames :
    ∀ j ∈ ran ++ posted, ∃ frame,
      client.done[j]? = some frame ∧ IsNotification frame
  pending :
    client.notifications.map
        (fun task => some (task.1, task.2.bytes)) =
      posted.map client.bodyAt
  told :
    (client.log.filterMap Event.told).map some =
      ran.map client.bodyAt
  serial :
    calls ++ callback.toList.map .returned =
      ran.flatMap fun j => [.entered j, .returned j]
  kept :
    client.teardown = .idle →
      client.reader.shuts = false →
        ∀ (j : Nat) (frame : Frame),
          client.done[j]? = some frame →
            frame.1.incomingType = some .notification →
              frame.1.msgSize ≤ limits.maxMessageBytes →
                j ∈ ran ++ posted

namespace StrandInv

variable {limits : SessionLimits}
variable {client client' : Session}
variable {posted ran : List Nat}
variable {callback : Option Nat}
variable {calls : List CallbackEvent}

theorem map_bodyAt
    (hInv :
      StrandInv limits client posted ran callback calls)
    (hDone : client.done <+: client'.done)
    {js : List Nat}
    (hSub : ∀ j ∈ js, j ∈ ran ++ posted) :
    js.map client'.bodyAt = js.map client.bodyAt := by
  apply List.map_congr_left
  intro j hMem
  rcases hInv.frames j (hSub j hMem) with ⟨frame, hGet, _⟩
  rw [Session.bodyAt, Session.bodyAt, hGet,
    Records.getElem?_mono hDone hGet]

/- A step of the client that the strand does not see. -/
theorem keep
    (hInv :
      StrandInv limits client posted ran callback calls)
    (hDone : client.done <+: client'.done)
    (hNotifications :
      client'.notifications = client.notifications)
    (hTold :
      client'.log.filterMap Event.told =
        client.log.filterMap Event.told)
    (hStays :
      client'.teardown = .idle →
        client'.reader.shuts = false →
          client.teardown = .idle ∧
            client.reader.shuts = false ∧
            ∀ (j : Nat) (frame : Frame),
              client'.done[j]? = some frame →
                frame.1.incomingType = some .notification →
                  frame.1.msgSize ≤ limits.maxMessageBytes →
                    client.done[j]? = some frame) :
    StrandInv limits client' posted ran callback calls := by
  constructor
  case rising => exact hInv.rising
  case frames =>
    intro j hMem
    rcases hInv.frames j hMem with ⟨frame, hGet, hIs⟩
    exact ⟨frame, Records.getElem?_mono hDone hGet, hIs⟩
  case pending =>
    rw [hNotifications, hInv.pending,
      hInv.map_bodyAt hDone fun j hMem =>
        List.mem_append_right _ hMem]
  case told =>
    rw [hTold, hInv.told,
      hInv.map_bodyAt hDone fun j hMem =>
        List.mem_append_left _ hMem]
  case serial => exact hInv.serial
  case kept =>
    intro hIdle hOn j frame hGet hType hSize
    rcases hStays hIdle hOn with ⟨hWas, hWent, hOld⟩
    exact hInv.kept hWas hWent j frame
      (hOld j frame hGet hType hSize) hType hSize

/- The reader finished a notification and posts a task. -/
theorem post
    (hInv :
      StrandInv limits client posted ran callback calls)
    {frame : Frame}
    {body : Buffer}
    (hDone : client'.done = client.done ++ [frame])
    (hFrame : IsNotification frame)
    (hBody : frame.2 = body.bytes)
    (hNotifications :
      client'.notifications =
        client.notifications ++ [(frame.1.callId, body)])
    (hLog : client'.log = client.log)
    (hTeardown : client'.teardown = client.teardown)
    (hWent : client.reader.shuts = false) :
    StrandInv limits client' (posted ++ [client.done.length])
      ran callback calls := by
  have hPrefix : client.done <+: client'.done :=
    ⟨_, hDone.symm⟩
  have hLast :
      client'.done[client.done.length]? = some frame := by
    rw [hDone, List.getElem?_concat_length]
  constructor
  case rising =>
    rw [← List.append_assoc, List.pairwise_append]
    refine ⟨hInv.rising, List.pairwise_singleton _ _, ?_⟩
    intro j hMem j' hNew
    rcases hInv.frames j hMem with ⟨old, hGet, _⟩
    rw [List.mem_singleton.mp hNew]
    exact (List.getElem?_eq_some_iff.mp hGet).1
  case frames =>
    intro j hMem
    rw [← List.append_assoc] at hMem
    rcases List.mem_append.mp hMem with hOld | hNew
    · rcases hInv.frames j hOld with ⟨old, hGet, hIs⟩
      exact ⟨old, Records.getElem?_mono hPrefix hGet, hIs⟩
    · rw [List.mem_singleton.mp hNew]
      exact ⟨frame, hLast, hFrame⟩
  case pending =>
    rw [hNotifications, List.map_append, List.map_append,
      hInv.pending,
      hInv.map_bodyAt hPrefix fun j hMem =>
        List.mem_append_right _ hMem]
    simp [Session.bodyAt, hLast, hBody]
  case told =>
    rw [hLog, hInv.told,
      hInv.map_bodyAt hPrefix fun j hMem =>
        List.mem_append_left _ hMem]
  case serial => exact hInv.serial
  case kept =>
    intro hIdle _ j other hGet hType hSize
    rw [← List.append_assoc]
    rw [hDone] at hGet
    rcases Records.getElem?_concat_eq_some.mp hGet with
      hOld | ⟨rfl, _⟩
    · exact List.mem_append_left _
        (hInv.kept (hTeardown ▸ hIdle) hWent j other hOld hType
          hSize)
    · exact List.mem_append_right _ (List.mem_singleton_self _)

/- The strand runs its next task, which enters the callback. -/
theorem enter
    (hInv : StrandInv limits client posted ran none calls)
    {callId : UInt64}
    {body : Buffer}
    (hHead : client.notifications.head? = some (callId, body))
    (hDone : client'.done = client.done)
    (hNotifications :
      client'.notifications = client.notifications.tail)
    (hLog : client'.log = client.log ++ [.notified callId body])
    (hTeardown : client'.teardown = client.teardown)
    (hReader : client'.reader = client.reader) :
    StrandInv limits client' posted.tail
      (ran ++ posted.head?.toList) posted.head?
      (calls ++ posted.head?.toList.map .entered) := by
  have hPending := hInv.pending
  cases hPosted : posted with
  | nil =>
      rw [hPosted, List.map_nil, List.map_eq_nil_iff] at hPending
      rw [hPending] at hHead
      cases hHead
  | cons j rest =>
      rw [List.head?_eq_some_iff] at hHead
      rcases hHead with ⟨tasks, hTasks⟩
      rw [hTasks, hPosted, List.map_cons, List.map_cons,
        List.cons.injEq] at hPending
      have hAll : ran ++ [j] ++ rest = ran ++ posted := by
        rw [hPosted, List.append_assoc]
        rfl
      have hBodies :
          ∀ js : List Nat,
            js.map client'.bodyAt = js.map client.bodyAt := by
        intro js
        apply List.map_congr_left
        intro i _
        rw [Session.bodyAt, Session.bodyAt, hDone]
      constructor
      case rising =>
        exact hAll ▸ hInv.rising
      case frames =>
        intro i hMem
        rw [hDone]
        exact hInv.frames i (hAll ▸ hMem)
      case pending =>
        rw [hNotifications, hTasks, hBodies]
        exact hPending.2
      case told =>
        rw [hLog, hBodies]
        simp [Event.told, hInv.told, ← hPending.1]
      case serial =>
        have hSerial := hInv.serial
        simp only [Option.toList_none, List.map_nil,
          List.append_nil] at hSerial
        simp [hSerial]
      case kept =>
        intro hIdle hOn i frame hGet hType hSize
        have hMem := hInv.kept (hTeardown ▸ hIdle)
          (hReader ▸ hOn) i frame (hDone ▸ hGet) hType hSize
        exact hAll ▸ hMem

/- The callback returns. -/
theorem leave
    {j : Nat}
    (hInv :
      StrandInv limits client posted ran (some j) calls) :
    StrandInv limits client posted ran none
      (calls ++ [.returned j]) := by
  refine { hInv with serial := ?_ }
  simpa using hInv.serial

end StrandInv

namespace Feed

variable {ω ω' : Type}

/- The strand invariant of a feed. -/
def Strand
    (setup : Link.Setup ω ω')
    (s : Feed) : Prop :=
  StrandInv setup.client.limits s.link.client s.posted s.ran
    s.callback s.calls

/- A move of the client keeps it. -/
theorem Strand.client
    {setup : Link.Setup ω ω'}
    {s : Feed}
    (hReach :
      Session.Reachable (sessions setup).client s.link.client)
    (hInv : s.Strand setup)
    {a : Action ω}
    {l : Link}
    (hEnabled : s.link.client.Enabled a)
    (hClient :
      l.client =
        s.link.client.update (sessions setup).client a)
    (hFree :
      runsCallback (.client a : Link.Move ω ω') = true →
        s.callback = none) :
    { s.track (.client a : Link.Move ω ω') with
      link := l }.Strand setup := by
  by_cases hNot : Session.touchesStrand a = false
  · -- Then the move is not tracked either.
    have hTrack :
        { s.track (.client a : Link.Move ω ω') with
          link := l } = { s with link := l } := by
      cases a with
      | readBody header use =>
          cases use with
          | notification => cases hNot
          | _ => rfl
      | runNotification callId body w => cases hNot
      | _ => rfl
    rw [hTrack]
    unfold Strand
    rw [hClient]
    apply StrandInv.keep hInv
    case hDone => exact Session.done_prefix_update hReach hEnabled
    case hNotifications =>
      exact Session.notifications_update _ _ hNot
    case hTold => exact Session.told_update _ _ hNot
    case hStays =>
      intro hIdle hOn
      refine ⟨Session.teardown_eq_idle hIdle, ?_⟩
      exact Session.done_of_update hReach hEnabled hNot hIdle
        hOn
  · cases a with
    | readBody header use =>
        cases use with
        | notification =>
            have hAt :
                s.link.client.reader =
                  .body header .notification := hEnabled.1
            have hReader := Session.readerInv hReach
            have hHeads := Session.headInv_always hReach
            rcases Session.body_header hReader hHeads hAt with
              ⟨hMagic, hType, hPlace⟩
            unfold Strand
            simp only [track]
            rw [hClient, ← hPlace]
            apply StrandInv.post hInv
              (Session.done_readBody hReader hAt)
            case hFrame =>
              exact ⟨hMagic, hType,
                s.link.client.nextBody_length header
                  hEnabled.2⟩
            case hBody => rfl
            case hNotifications => rfl
            case hLog => rfl
            case hTeardown => rfl
            case hWent =>
              rw [hAt]
              rfl
        | _ => exact absurd rfl hNot
    | runNotification callId body w =>
        have hNone : s.callback = none := hFree rfl
        have hOld := hInv
        unfold Strand at hOld ⊢
        rw [hNone] at hOld
        rw [hClient]
        exact hOld.enter hEnabled rfl rfl rfl rfl rfl
    | _ => exact absurd rfl hNot

theorem strandInv
    {setup : Link.Setup ω ω'}
    {s : Feed}
    (hReach : Reachable setup s) :
    s.Strand setup := by
  refine hReach.invariant ?_ ?_
  · constructor
    case rising => exact List.Pairwise.nil
    case frames => simp [start]
    case pending => rfl
    case told => rfl
    case serial => rfl
    case kept =>
      intro _ _ j frame hGet
      cases hGet
  intro s m s' hPrior hInv _ hStep
  apply step_cases
    (P := fun s' : Feed => s'.Strand setup) hStep
  case hClient =>
    intro a l _ hEnabled hClient _ hFree
    exact hInv.client (ends hPrior).client hEnabled hClient
      hFree
  case hServer =>
    intro a l _ hClient _
    unfold Strand
    rw [hClient]
    exact hInv
  case hReturn =>
    intro j hJ
    unfold Strand at hInv ⊢
    rw [hJ] at hInv
    exact hInv.leave
  case hStart => exact hInv
  case hPost => exact fun _ => hInv
  case hWork =>
    intro work rest
    cases work with
    | copy =>
        unfold runWork
        cases s.pc <;> exact hInv
    | _ => exact hInv
  case hBegin =>
    intro payload _
    unfold begin
    split <;> exact hInv
  case hVisit =>
    intro payload listed _
    unfold visit
    split <;> exact hInv

end Feed

end GrlxRpc
