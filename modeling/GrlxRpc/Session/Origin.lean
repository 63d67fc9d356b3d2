import GrlxRpc.Session.Teardown

/-
  Where the results of calls come from.

  A result that completes a call stands for one frame the
  reader took. As long as the reader does not go on behind a
  rejected frame while a `close()` is under way, every frame
  before it was read to its end, or the result comes too
  late to matter.

  Main declarations:
    * `Session.done` and `Session.done_prefix_update`
    * `HeadInv` and `Session.headInv`
    * `RepliedBy` and `Clean`
    * `CallResults` and `Session.resultsInv`
-/

------------------------------------------------------------
-- Finished Frames
------------------------------------------------------------

namespace GrlxRpc

/- Is the reader in the middle of a frame? -/
def ReaderPc.inBody : ReaderPc → Bool
  | body _ _ => true
  | header => false
  | pong => false
  | complete _ _ => false
  | completing _ _ => false
  | completed _ => false
  | rejecting _ _ _ => false
  | rejected _ _ => false
  | close _ => false
  | closing _ => false
  | exited => false

namespace Session

variable {ω : Type}
variable {cfg : Config ω}

/- The frames the reader is not in the middle of. -/
def done (s : Session) : List Frame :=
  if s.reader.inBody then s.taken.dropLast else s.taken

theorem done_eq_taken
    {s : Session}
    (hReader : s.reader.inBody = false) :
    s.done = s.taken := by
  simp [done, hReader]

theorem done_prefix_taken (s : Session) :
    s.done <+: s.taken := by
  unfold done
  split
  · exact s.taken.dropLast_prefix
  · exact List.prefix_rfl

theorem inBody_afterBody
    (rid ord : Nat)
    (header : Header)
    (body : Buffer)
    (use : BodyUse) :
    (afterBody rid ord header body use).inBody = false := by
  cases use <;> rfl

theorem inBody_afterClose (again : Bool) :
    (ReaderPc.afterClose again).inBody = false := by
  cases again <;> rfl

/- The frame whose body is read is filled in last. -/
theorem done_readBody
    {s : Session}
    {header : Header}
    {use : BodyUse}
    (hInv :
      ReaderInv cfg s.received s.consumed s.taken s.reader)
    (hReader : s.reader = .body header use) :
    (s.update cfg (.readBody header use)).done =
      s.done ++ [(header, (s.nextBody header).bytes)] := by
  rcases List.getLast?_eq_some_iff.mp
    (hInv.reading header use hReader) with ⟨front, hTaken⟩
  rw [done_eq_taken (by simp [update, inBody_afterBody])]
  simp [update, done, hReader, ReaderPc.inBody, hTaken,
    fillLast_concat]

/- A frame that is finished stays as it is. -/
theorem done_prefix_update
    {ok : Session → Action ω → Prop}
    {s : Session}
    (hReach : ReachableBy cfg ok s)
    {a : Action ω}
    (hEnabled : s.Enabled a) :
    s.done <+: (s.update cfg a).done := by
  -- Most steps leave the frames alone, and no body is begun.
  have hSame :
      ∀ {s' : Session}, s'.taken = s.taken →
        s'.reader.inBody = false → s.done <+: s'.done := by
    intro s' hTaken hReader
    rw [done_eq_taken hReader, hTaken]
    exact s.done_prefix_taken
  cases a with
  | readHeader now =>
      rw [done_eq_taken (s := s)
        (by simp [hEnabled.1, ReaderPc.inBody])]
      unfold done
      split
      · simp [update]
      · exact List.prefix_append _ _
  | readBody header use =>
      rw [done_readBody (readerInv hReach) hEnabled.1]
      exact List.prefix_append _ _
  | sendPong => exact hSame rfl rfl
  | readFail => exact hSame rfl rfl
  | findOperation token result =>
      refine hSame rfl ?_
      simp only [update]
      cases s.channels.lookup token <;> rfl
  | sendResult i result =>
      refine hSame rfl ?_
      simp only [update]
      split <;> rfl
  | resumeResult i => exact hSame rfl rfl
  | rejectRequest rid header closes =>
      refine hSame rfl ?_
      simp only [update]
      split <;> rfl
  | resumeReject rid closes =>
      refine hSame rfl ?_
      simp only [update]
      split <;> rfl
  | readerClose again =>
      refine hSame rfl ?_
      simp only [update]
      split
      · rfl
      · exact inBody_afterClose again
  | readerClosed again => exact hSame rfl (inBody_afterClose again)
  | _ => exact List.prefix_rfl

------------------------------------------------------------
-- Going On After A Rejected Frame
------------------------------------------------------------

/- Does the reader go on although it has called `close()`? -/
def goesOn : Action ω → Bool
  | .readerClose again => again
  | _ => false

/-
  When the reader goes on, no other `close()` is between its
  first step and the point `passed`.
-/
def Settles
    (passed : Teardown → Bool)
    (s : Session)
    (a : Action ω) : Prop :=
  goesOn a = true →
    s.teardown = .idle ∨ passed s.teardown = true

instance
    (passed : Teardown → Bool)
    (s : Session)
    (a : Action ω) : Decidable (s.Settles passed a) :=
  inferInstanceAs (Decidable (_ → _))

/- A point of `close()` that is not undone. -/
structure Latch
    (cfg : Config ω)
    (passed : Teardown → Bool) : Prop where
  finished : passed .finished = true
  update :
    ∀ (s : Session) (a : Action ω), s.Enabled a →
      passed s.teardown = true →
        passed (s.update cfg a).teardown = true

/- A point that all later steps of `close()` are past. -/
theorem latch_of_past
    (cfg : Config ω)
    {passed : Teardown → Bool}
    (hBegin : ∀ t : Teardown, passed t.begin = passed t)
    (hTable :
      passed .writeChannel = true → passed .table = true)
    (hChannels : ∀ todo, passed (.channels todo) = true)
    (hChannel : ∀ i todo, passed (.channel i todo) = true)
    (hFinished : passed .finished = true) :
    Latch cfg passed where
  finished := hFinished
  update := by
    intro s a hEnabled hPassed
    cases a with
    | close => exact (hBegin s.teardown).trans hPassed
    | readerClose again =>
        exact (hBegin s.teardown).trans hPassed
    | writerClose => exact (hBegin s.teardown).trans hPassed
    | closeWriteChannel =>
        have hAt : s.teardown = .writeChannel := hEnabled
        exact hTable (hAt ▸ hPassed)
    | takeTable => exact hChannels _
    | cancelChannel i => exact hChannel i _
    | closeChannel i => exact hChannels _
    | closeStream => exact hFinished
    | _ => exact hPassed

theorem latch_hasClosed (cfg : Config ω) :
    Latch cfg Teardown.hasClosed :=
  latch_of_past cfg Teardown.hasClosed_begin (fun _ => rfl)
    (fun _ => rfl) (fun _ _ => rfl) rfl

theorem latch_hasTaken (cfg : Config ω) :
    Latch cfg Teardown.hasTaken :=
  latch_of_past cfg Teardown.hasTaken_begin
    (fun hBefore => by cases hBefore)
    (fun _ => rfl) (fun _ _ => rfl) rfl

end Session

------------------------------------------------------------
-- Headers
------------------------------------------------------------

/- A header after which the reader goes on by itself. -/
def Within
    (limits : SessionLimits)
    (header : Header) : Prop :=
  header.msgSize ≤ limits.maxMessageBytes ∨
    ∃ type, header.incomingType = some type ∧
      type.isKeepalive = true

/- The type of the frames whose bodies are read for a use. -/
def BodyUse.type : BodyUse → MsgType
  | limited => .request
  | request => .request
  | response => .response
  | notification => .notification
  | error => .error

namespace ReaderPc

/- Is the reader about to exit? -/
def leaves : ReaderPc → Bool
  | close again => !again
  | closing again => !again
  | exited => true
  | header => false
  | pong => false
  | body _ _ => false
  | complete _ _ => false
  | completing _ _ => false
  | completed _ => false
  | rejecting _ _ _ => false
  | rejected _ _ => false

/- Is the reader about to call `close()`, or has it exited? -/
def shuts : ReaderPc → Bool
  | close _ => true
  | closing _ => true
  | exited => true
  | rejecting _ _ closes => closes
  | rejected _ closes => closes
  | header => false
  | pong => false
  | body _ _ => false
  | complete _ _ => false
  | completing _ _ => false
  | completed _ => false

end ReaderPc

namespace Session

/- What a header's intake tells about the header. -/
theorem intake_head
    (limits : SessionLimits)
    (granted : Bool)
    (header : Header) :
    match intake limits granted header with
    | .drop => True
    | .oversizedRequest =>
        header.magic = magicHeaderNumber ∧
          header.incomingType = some .request
    | .oversized => header.magic = magicHeaderNumber
    | .read use =>
        header.magic = magicHeaderNumber ∧
          Within limits header ∧
          header.incomingType = some use.type
    | _ =>
        header.magic = magicHeaderNumber ∧
          Within limits header := by
  unfold intake
  by_cases hMagic : header.magic = magicHeaderNumber
  · simp only [hMagic, ne_eq, not_true, if_false]
    by_cases hSize : limits.maxMessageBytes < header.msgSize
    · cases hType : header.incomingType with
      | none => trivial
      | some type =>
          cases type with
          | nop => exact ⟨trivial, .inr ⟨_, hType, rfl⟩⟩
          | ping => exact ⟨trivial, .inr ⟨_, hType, rfl⟩⟩
          | pong => exact ⟨trivial, .inr ⟨_, hType, rfl⟩⟩
          | request => simp [hSize]
          | response => simp [hSize]
          | notification => simp [hSize]
          | error =>
              have hSome : header.msgSize > 0 :=
                UInt64.lt_of_le_of_lt
                  (UInt64.le_iff_toNat_le.mpr (Nat.zero_le _))
                  hSize
              simp [hSome, hSize]
    · have hWithin : Within limits header :=
        .inl (UInt64.not_lt.mp hSize)
      cases hType : header.incomingType with
      | none => trivial
      | some type =>
          cases type with
          | nop => exact ⟨trivial, hWithin⟩
          | ping => exact ⟨trivial, hWithin⟩
          | pong => exact ⟨trivial, hWithin⟩
          | request =>
              cases granted <;>
                simp [hSize, hWithin, BodyUse.type]
          | response => simp [hSize, hWithin, BodyUse.type]
          | notification =>
              simp [hSize, hWithin, BodyUse.type]
          | error =>
              by_cases hSome : header.msgSize > 0 <;>
                simp [hSome, hSize, hWithin, BodyUse.type]
  · simp [hMagic]

end Session

/-
  What the reader's place tells about the headers it took.
  `passed` tells that a `close()` has come far enough for
  later frames not to matter.
-/
structure HeadInv
    (limits : SessionLimits)
    (passed : Bool)
    (heads : List Header)
    (reader : ReaderPc) : Prop where
  genuine :
    ∀ header ∈ heads.dropLast,
      header.magic = magicHeaderNumber
  proceeding :
    reader.leaves = false →
      ∀ header ∈ heads, header.magic = magicHeaderNumber
  within :
    reader.shuts = false → passed = false →
      ∀ header ∈ heads, Within limits header
  reading :
    ∀ header use, reader = .body header use →
      header.incomingType = some use.type

namespace HeadInv

variable {limits : SessionLimits}
variable {passed passed' : Bool}
variable {heads : List Header}
variable {reader reader' : ReaderPc}

/- The reader moves on without taking a header. -/
theorem move
    (hInv : HeadInv limits passed heads reader)
    (hPassed : passed = true → passed' = true)
    (hLeaves : reader'.leaves = false → reader.leaves = false)
    (hShuts :
      reader'.shuts = false →
        reader.shuts = false ∨ passed' = true)
    (hBody : reader'.inBody = false) :
    HeadInv limits passed' heads reader' where
  genuine := hInv.genuine
  proceeding := fun h => hInv.proceeding (hLeaves h)
  within := by
    intro hOn hNot
    rcases hShuts hOn with hWas | hNow
    · refine hInv.within hWas ?_
      cases passed with
      | false => rfl
      | true => simp [hPassed rfl] at hNot
    · simp [hNot] at hNow
  reading := by
    rintro header use rfl
    simp [ReaderPc.inBody] at hBody

/- A `close()` goes on. -/
theorem later
    (hInv : HeadInv limits passed heads reader)
    (hPassed : passed = true → passed' = true) :
    HeadInv limits passed' heads reader := by
  refine { hInv with within := fun hOn hNot => ?_ }
  refine hInv.within hOn ?_
  cases passed with
  | false => rfl
  | true => simp [hPassed rfl] at hNot

/- The reader takes a header. -/
theorem take
    (hInv : HeadInv limits passed heads .header)
    (granted : Bool)
    (header : Header)
    (rid ord : Nat) :
    HeadInv limits passed (heads ++ [header])
      (Session.afterHeader rid ord header
        (Session.intake limits granted header)) := by
  have hHead := Session.intake_head limits granted header
  have hMagic := hInv.proceeding rfl
  have hWithin := hInv.within rfl
  refine
    { genuine := by simpa using hMagic
      proceeding := ?_
      within := ?_
      reading := ?_ }
  · intro hOn header' hMem
    rcases List.mem_append.mp hMem with hOld | hNew
    · exact hMagic header' hOld
    · rcases List.mem_singleton.mp hNew with rfl
      cases hKind : Session.intake limits granted header' <;>
        rw [hKind] at hHead hOn
      case drop => simp [Session.afterHeader,
        ReaderPc.leaves] at hOn
      case oversized => exact hHead
      all_goals exact hHead.1
  · intro hOn hNot header' hMem
    rcases List.mem_append.mp hMem with hOld | hNew
    · exact hWithin hNot header' hOld
    · rcases List.mem_singleton.mp hNew with rfl
      cases hKind : Session.intake limits granted header' <;>
        rw [hKind] at hHead hOn
      case drop => simp [Session.afterHeader,
        ReaderPc.shuts] at hOn
      case oversizedRequest => simp [Session.afterHeader,
        ReaderPc.shuts] at hOn
      case oversized => simp [Session.afterHeader,
        ReaderPc.shuts] at hOn
      case read use => exact hHead.2.1
      all_goals exact hHead.2
  · intro header' use hBody
    cases hKind : Session.intake limits granted header <;>
      rw [hKind] at hHead hBody <;>
      simp only [Session.afterHeader, ReaderPc.body.injEq,
        reduceCtorEq] at hBody
    rcases hBody with ⟨rfl, rfl⟩
    exact hHead.2.2

end HeadInv

namespace Session

variable {ω : Type}
variable {cfg : Config ω}
variable {passed : Teardown → Bool}

theorem map_fst_fillLast
    (body : List UInt8)
    (frames : List Frame) :
    (fillLast body frames).map Prod.fst =
      frames.map Prod.fst := by
  rcases List.eq_nil_or_concat frames with
    hNil | ⟨front, last, hEq⟩
  · simp [hNil, fillLast]
  · simp [hEq, fillLast_concat]

theorem headInv
    (hLatch : Latch cfg passed)
    {ok : Session → Action ω → Prop}
    (hSettles : ∀ s a, ok s a → Settles passed s a)
    {s : Session}
    (hReach : ReachableBy cfg ok s) :
    HeadInv cfg.limits (passed s.teardown)
      (s.taken.map Prod.fst) s.reader := by
  refine invariant
    (fun s =>
      HeadInv cfg.limits (passed s.teardown)
        (s.taken.map Prod.fst) s.reader) ?_ ?_ hReach
  · exact
      { genuine := by simp [start]
        proceeding := by simp [start]
        within := by simp [start]
        reading := by simp [start] }
  intro s a _ hInv hOk hEnabled
  have hPassed := hLatch.update s a hEnabled
  cases a with
  | readHeader now =>
      rw [hEnabled.1] at hInv
      simp only [update, List.map_append, List.map_cons,
        List.map_nil]
      exact hInv.take (s.nextBucket cfg now).2
        (s.nextHeader cfg) s.requests.length s.taken.length
  | readBody header use =>
      simp only [update, map_fst_fillLast]
      refine hInv.move id ?_ ?_ (inBody_afterBody ..)
      · simp [hEnabled.1, ReaderPc.leaves]
      · simp [hEnabled.1, ReaderPc.shuts]
  | sendPong =>
      have hAt : s.reader = .pong := hEnabled
      exact hInv.move id (by simp [hAt, ReaderPc.leaves])
        (by simp [hAt, ReaderPc.shuts]) rfl
  | readFail => exact
        hInv.move id Bool.noConfusion Bool.noConfusion rfl
  | findOperation token result =>
      have hAt : s.reader = .complete token result := hEnabled
      refine hInv.move id (by simp [hAt, ReaderPc.leaves])
        (by simp [hAt, ReaderPc.shuts]) ?_
      simp only [update]
      cases s.channels.lookup token <;> rfl
  | sendResult i result =>
      have hAt : s.reader = .completing i result := hEnabled
      refine hInv.move id (by simp [hAt, ReaderPc.leaves])
        (by simp [hAt, ReaderPc.shuts]) ?_
      simp only [update]
      split <;> rfl
  | resumeResult i =>
      exact hInv.move id
        (by simp [hEnabled.1, ReaderPc.leaves])
        (by simp [hEnabled.1, ReaderPc.shuts]) rfl
  | rejectRequest rid header closes =>
      have hAt : s.reader = .rejecting rid header closes :=
        hEnabled
      simp only [update]
      split
      · refine hInv.move id (by simp [hAt, ReaderPc.leaves])
          (fun hOn => .inl ?_) rfl
        simpa [hAt, ReaderPc.shuts] using hOn
      · exact
          hInv.move id Bool.noConfusion Bool.noConfusion rfl
  | resumeReject rid closes =>
      simp only [update]
      cases closes with
      | true =>
          exact hInv.move id
            (by simp [hEnabled.1, ReaderPc.leaves]) Bool.noConfusion rfl
      | false =>
          exact hInv.move id
            (by simp [hEnabled.1, ReaderPc.leaves])
            (by simp [hEnabled.1, ReaderPc.shuts]) rfl
  | readerClose again =>
      have hAt : s.reader = .close again := hEnabled
      by_cases hIdle : s.teardown = .idle
      · simp only [update, hIdle, if_true] at hPassed ⊢
        rw [hIdle] at hInv
        exact hInv.move hPassed
          (by simp [hAt, ReaderPc.leaves]) Bool.noConfusion rfl
      · simp only [update, if_neg hIdle] at hPassed ⊢
        refine hInv.move hPassed ?_ ?_ (inBody_afterClose again)
        · cases again <;>
            simp [hAt, ReaderPc.afterClose, ReaderPc.leaves]
        · cases again with
          | false => exact Bool.noConfusion
          | true =>
              have hFar := hSettles _ _ hOk rfl
              exact fun _ => .inr
                (hPassed (hFar.resolve_left hIdle))
  | readerClosed again =>
      rcases hEnabled with ⟨hAt, hFinished⟩
      simp only [update]
      refine hInv.move id ?_ ?_ (inBody_afterClose again)
      · cases again <;>
          simp [hAt, ReaderPc.afterClose, ReaderPc.leaves]
      · exact fun _ => .inr (hFinished ▸ hLatch.finished)
  | _ => exact hInv.later hPassed

end Session

------------------------------------------------------------
-- Results
------------------------------------------------------------

/- The frame that a result for a token stands for. -/
def RepliedBy
    (frames : List Frame)
    (token : UInt64)
    (r : OpResult) : Prop :=
  ∃ frame, frames[r.frame]? = some frame ∧
    frame.1.magic = magicHeaderNumber ∧
    frame.1.userToken = token ∧
    (r.ec = none →
      frame.1.incomingType = some .response ∧
        frame.2 = r.buffer.bytes ∧
        frame.2.length = frame.1.msgSize.toNat)

/- The reader went on by itself behind all frames before. -/
def Clean
    (limits : SessionLimits)
    (frames : List Frame)
    (k : Nat) : Prop :=
  ∀ frame ∈ frames.take k, Within limits frame.1

theorem RepliedBy.mono
    {frames frames' : List Frame}
    (hPrefix : frames <+: frames')
    {token : UInt64}
    {r : OpResult}
    (hReplied : RepliedBy frames token r) :
    RepliedBy frames' token r := by
  rcases hReplied with ⟨frame, hGet, hRest⟩
  exact ⟨frame, Records.getElem?_mono hPrefix hGet, hRest⟩

theorem Clean.mono
    {limits : SessionLimits}
    {frames frames' : List Frame}
    (hPrefix : frames <+: frames')
    {k : Nat}
    (hBound : k ≤ frames.length)
    (hClean : Clean limits frames k) :
    Clean limits frames' k := by
  rcases hPrefix with ⟨rest, rfl⟩
  rwa [Clean, List.take_append_of_le_length hBound]

/-
  One result of call `i`: its frame, and that it is clean
  unless the call will throw because the queue is closed.
-/
structure ResultInv
    (limits : SessionLimits)
    (frames : List Frame)
    (isOpen : Bool)
    (i : Nat)
    (pc : CallPc)
    (r : OpResult) : Prop where
  source : RepliedBy frames (tokenOf i) r
  clean :
    Clean limits frames r.frame ∨
      (isOpen = false ∧
        (pc = .registered ∨ ∃ e, pc = .threw e))

namespace ResultInv

variable {limits : SessionLimits}
variable {frames frames' : List Frame}
variable {isOpen isOpen' : Bool}
variable {i : Nat}
variable {pc pc' : CallPc}
variable {r : OpResult}

theorem mono
    (hInv : ResultInv limits frames isOpen i pc r)
    (hPrefix : frames <+: frames')
    (hOpen : isOpen = false → isOpen' = false) :
    ResultInv limits frames' isOpen' i pc r where
  source := hInv.source.mono hPrefix
  clean := by
    rcases hInv.source with ⟨frame, hGet, -⟩
    have hLt := (List.getElem?_eq_some_iff.mp hGet).1
    exact hInv.clean.imp (Clean.mono hPrefix hLt.le)
      fun h => ⟨hOpen h.1, h.2⟩

/- A call that goes on had a clean result. -/
theorem move
    (hInv : ResultInv limits frames isOpen i pc r)
    (hOn :
      isOpen = false →
        (pc = .registered ∨ ∃ e, pc = .threw e) →
          ∃ e, pc' = .threw e) :
    ResultInv limits frames isOpen i pc' r where
  source := hInv.source
  clean := hInv.clean.imp id fun h =>
    ⟨h.1, .inr (hOn h.1 h.2)⟩

end ResultInv

/- The result that the reader is about to send to call `i`. -/
def ReaderPc.carries
    (reader : ReaderPc)
    (i : Nat) : List OpResult :=
  match reader with
  | completing j r => if j = i then [r] else []
  | _ => []

theorem ReaderPc.completes_of_carries
    {reader : ReaderPc}
    {i : Nat}
    {r : OpResult}
    (hMem : r ∈ reader.carries i) :
    reader.completes = some i := by
  cases reader with
  | completing j result =>
      by_cases hSame : j = i
      · simp [completes, hSame]
      · simp [carries, hSame] at hMem
  | _ => cases hMem

theorem ReaderPc.carries_eq_nil
    {reader : ReaderPc}
    (hNone : reader.completes = none)
    (i : Nat) :
    reader.carries i = [] := by
  cases reader with
  | completing j result => cases hNone
  | _ => rfl

/- All results of one call, and what it returned. -/
structure CallResults
    (limits : SessionLimits)
    (frames : List Frame)
    (isOpen : Bool)
    (carried : List OpResult)
    (i : Nat)
    (call : PendingCall) : Prop where
  results :
    ∀ r, r ∈ call.channel.admitted ∨ r ∈ carried →
      ResultInv limits frames isOpen i call.pc r
  returned :
    ∀ buffer, call.pc = .returned buffer →
      ∃ r ∈ call.channel.delivered,
        r.ec = none ∧ r.buffer = buffer

namespace CallResults

variable {limits : SessionLimits}
variable {frames frames' : List Frame}
variable {isOpen isOpen' : Bool}
variable {carried carried' : List OpResult}
variable {i : Nat}
variable {call : PendingCall}

theorem mono
    (hInv : CallResults limits frames isOpen carried i call)
    (hPrefix : frames <+: frames')
    (hOpen : isOpen = false → isOpen' = false)
    (hCarried : ∀ r ∈ carried', r ∈ carried) :
    CallResults limits frames' isOpen' carried' i call where
  results := fun r hMem =>
    (hInv.results r (hMem.imp id (hCarried r))).mono hPrefix
      hOpen
  returned := hInv.returned

/- The call moves on, or its channel changes hands. -/
theorem move
    (hInv : CallResults limits frames isOpen carried i call)
    {call' : PendingCall}
    (hAdmitted :
      ∀ r ∈ call'.channel.admitted,
        r ∈ call.channel.admitted)
    (hOn :
      ∀ r, ResultInv limits frames isOpen i call.pc r →
        ResultInv limits frames isOpen i call'.pc r)
    (hReturned :
      ∀ buffer, call'.pc = .returned buffer →
        ∃ r ∈ call'.channel.delivered,
          r.ec = none ∧ r.buffer = buffer) :
    CallResults limits frames isOpen carried i call' where
  results := fun r hMem =>
    hOn r (hInv.results r (hMem.imp (hAdmitted r) id))
  returned := hReturned

/- Only the timer or the channel's receiver changes. -/
theorem congr
    (hInv : CallResults limits frames isOpen carried i call)
    {call' : PendingCall}
    (hPc : call'.pc = call.pc)
    (hAdmitted :
      ∀ r ∈ call'.channel.admitted,
        r ∈ call.channel.admitted)
    (hDelivered :
      call'.channel.delivered = call.channel.delivered) :
    CallResults limits frames isOpen carried i call' := by
  refine hInv.move hAdmitted (fun r h => hPc ▸ h) ?_
  rw [hPc, hDelivered]
  exact hInv.returned

/- The reader is given results for the call. -/
theorem carry
    (hInv : CallResults limits frames isOpen [] i call)
    (hCarried :
      ∀ r ∈ carried,
        ResultInv limits frames isOpen i call.pc r) :
    CallResults limits frames isOpen carried i call := by
  constructor
  case results =>
    rintro r (hAdmitted | hMem)
    · exact hInv.results r (.inl hAdmitted)
    · exact hCarried r hMem
  case returned => exact hInv.returned

/- The reader sends the result it carries. -/
theorem send
    {result : OpResult}
    (hInv :
      CallResults limits frames isOpen [result] i call) :
    CallResults limits frames isOpen [] i
      { call with channel := call.channel.asyncSend result } := by
  constructor
  case results =>
    rintro r (hAdmitted | hNone)
    · apply hInv.results
      dsimp only at hAdmitted
      rw [Channel.asyncSend_admitted] at hAdmitted
      split at hAdmitted
      · exact List.mem_append.mp hAdmitted
      · exact .inl hAdmitted
    · cases hNone
  case returned =>
    intro buffer hReturned
    rcases hInv.returned buffer hReturned with
      ⟨r, hDelivered, hRest⟩
    exact ⟨r, call.channel.delivered_subset_asyncSend
      result hDelivered, hRest⟩

end CallResults

namespace Session

variable {ω : Type}
variable {cfg : Config ω}

theorem nextIntake_head
    (cfg : Config ω)
    (s : Session)
    (now : Int) :
    match s.nextIntake cfg now with
    | .drop => True
    | .oversizedRequest =>
        (s.nextHeader cfg).magic = magicHeaderNumber ∧
          (s.nextHeader cfg).incomingType = some .request
    | .oversized =>
        (s.nextHeader cfg).magic = magicHeaderNumber
    | .read use =>
        (s.nextHeader cfg).magic = magicHeaderNumber ∧
          Within cfg.limits (s.nextHeader cfg) ∧
          (s.nextHeader cfg).incomingType = some use.type
    | _ =>
        (s.nextHeader cfg).magic = magicHeaderNumber ∧
          Within cfg.limits (s.nextHeader cfg) :=
  intake_head cfg.limits (s.nextBucket cfg now).2
    (s.nextHeader cfg)

/- A header being read is the last one taken. -/
theorem reading_mem
    {s : Session}
    (hInv :
      ReaderInv cfg s.received s.consumed s.taken s.reader)
    {header : Header}
    {use : BodyUse}
    (hReader : s.reader = .body header use) :
    header ∈ s.taken.map Prod.fst :=
  List.mem_map.mpr ⟨_, List.mem_of_getLast?
    (hInv.reading header use hReader), rfl⟩

theorem length_done_of_inBody
    {s : Session}
    (hReader : s.reader.inBody = true) :
    s.done.length = s.taken.length - 1 := by
  simp [done, hReader]

/- What the reader knows of a frame it is in the middle of. -/
theorem body_header
    {passed : Bool}
    {s : Session}
    (hReading :
      ReaderInv cfg s.received s.consumed s.taken s.reader)
    (hHeads :
      HeadInv cfg.limits passed (s.taken.map Prod.fst)
        s.reader)
    {header : Header}
    {use : BodyUse}
    (hReader : s.reader = .body header use) :
    header.magic = magicHeaderNumber ∧
      header.incomingType = some use.type ∧
      s.done.length = s.taken.length - 1 := by
  have hLeaves : s.reader.leaves = false := by
    rw [hReader]
    rfl
  have hInBody : s.reader.inBody = true := by
    rw [hReader]
    rfl
  exact ⟨hHeads.proceeding hLeaves header
      (reading_mem hReading hReader),
    hHeads.reading header use hReader,
    length_done_of_inBody hInBody⟩

/- The frame of the reader's result is the last one done. -/
theorem complete_source
    {passed : Teardown → Bool}
    (hLatch : Latch cfg passed)
    {ok : Session → Action ω → Prop}
    (hSettles : ∀ s a, ok s a → Settles passed s a)
    {s : Session}
    (hReach : ReachableBy cfg ok s) :
    ∀ token r, s.reader = .complete token r →
      RepliedBy s.done token r := by
  refine invariant
    (fun s =>
      ∀ token r, s.reader = .complete token r →
        RepliedBy s.done token r) ?_ ?_ hReach
  · simp [start]
  intro s a hPrior hInv hOk hEnabled token r hReader
  have hHeads := headInv hLatch hSettles hPrior
  cases a with
  | readHeader now =>
      have hHead := nextIntake_head cfg s now
      rw [done_eq_taken (by rw [hReader]; rfl)]
      simp only [update] at hReader ⊢
      cases hKind : s.nextIntake cfg now with
      | emptyError =>
          rw [hKind] at hReader hHead
          rcases ReaderPc.complete.inj hReader with
            ⟨rfl, rfl⟩
          exact ⟨_, List.getElem?_concat_length, hHead.1,
            rfl, by simp⟩
      | _ => simp [hKind, afterHeader] at hReader
  | readBody header use =>
      have hReading := readerInv hPrior
      rcases body_header hReading hHeads hEnabled.1 with
        ⟨hMagic, hType, hLength⟩
      have hBody := s.nextBody_length header hEnabled.2
      rw [done_readBody hReading hEnabled.1]
      have hAt :
          (s.done ++ [(header, (s.nextBody header).bytes)])[
            s.taken.length - 1]? =
              some (header, (s.nextBody header).bytes) := by
        rw [← hLength]
        exact List.getElem?_concat_length
      cases use with
      | response =>
          rcases ReaderPc.complete.inj hReader with
            ⟨rfl, rfl⟩
          exact ⟨_, hAt, hMagic, rfl,
            fun _ => ⟨hType, rfl, hBody⟩⟩
      | error =>
          rcases ReaderPc.complete.inj hReader with
            ⟨rfl, rfl⟩
          exact ⟨_, hAt, hMagic, rfl, by simp⟩
      | limited => simp [update, afterBody] at hReader
      | request => simp [update, afterBody] at hReader
      | notification => simp [update, afterBody] at hReader
  | sendPong => simp [update] at hReader
  | readFail => simp [update] at hReader
  | findOperation token' result =>
      simp only [update] at hReader
      cases hLookup : s.channels.lookup token' <;>
        simp [hLookup] at hReader
  | sendResult i result =>
      simp only [update] at hReader
      split at hReader <;> simp at hReader
  | resumeResult i => simp [update] at hReader
  | rejectRequest rid header closes =>
      simp only [update] at hReader
      split at hReader <;> simp at hReader
  | resumeReject rid closes =>
      simp only [update] at hReader
      split at hReader <;> simp at hReader
  | readerClose again =>
      simp only [update] at hReader
      split at hReader
      · simp at hReader
      · cases again <;> simp [ReaderPc.afterClose] at hReader
  | readerClosed again =>
      cases again <;>
        simp [update, ReaderPc.afterClose] at hReader
  | _ => exact hInv token r hReader

/- At a boundary, a clean reader or a `close()` far enough. -/
theorem clean_or_passed
    {passed : Teardown → Bool}
    {s : Session}
    (hHeads :
      HeadInv cfg.limits (passed s.teardown)
        (s.taken.map Prod.fst) s.reader)
    (hReader : s.reader.shuts = false)
    (k : Nat) :
    Clean cfg.limits s.taken k ∨ passed s.teardown = true := by
  cases hPassed : passed s.teardown with
  | true => exact .inr rfl
  | false =>
      refine .inl fun frame hMem => ?_
      exact hHeads.within hReader hPassed frame.1
        (List.mem_map_of_mem (List.mem_of_mem_take hMem))

/- What the conditions on a run give for its results. -/
structure Correlates
    (s : Session)
    (a : Action ω) : Prop where
  few : FewCalls s a
  settles : Settles Teardown.hasTaken s a

instance
    (s : Session)
    (a : Action ω) : Decidable (s.Correlates a) :=
  decidable_of_iff
    (FewCalls s a ∧ Settles Teardown.hasTaken s a)
    ⟨fun h => ⟨h.1, h.2⟩, fun h => ⟨h.few, h.settles⟩⟩

/- What the reader finds in the table is a result of the call. -/
theorem found_result
    {s : Session}
    (hReach : ReachableBy (ω := ω) cfg Correlates s)
    {token : UInt64}
    {result : OpResult}
    (hAt : s.reader = .complete token result)
    {i : Nat}
    {call : PendingCall}
    (hLookup : s.channels.lookup token = some i)
    (hGet : s.calls[i]? = some call) :
    ResultInv cfg.limits s.done s.writeChannel.isOpen i call.pc
      result := by
  have hCalls := callsInv (fun _ _ h => h.few) hReach
  have hHeads := headInv (latch_hasTaken cfg)
    (fun _ _ h => h.settles) hReach
  have hSource := complete_source (latch_hasTaken cfg)
    (fun _ _ h => h.settles) hReach token result hAt
  have hClean := clean_or_passed hHeads
    (by rw [hAt]; rfl) result.frame
  rcases hCalls.keys token i hLookup with ⟨-, rfl⟩
  refine ⟨hSource, ?_⟩
  rw [done_eq_taken (by rw [hAt]; rfl)]
  refine hClean.imp id fun hPassed => ?_
  rcases (hCalls.each i call hGet).pending hLookup with
    ⟨-, -, -, -, -, hLeft⟩
  refine ⟨?_, hLeft hPassed⟩
  rw [isOpen_eq hReach, Teardown.hasClosed_of_hasTaken hPassed]
  rfl

/- A step that changes no call's result. -/
theorem carries_update
    (cfg : Config ω)
    (s : Session)
    {a : Action ω}
    (hEnabled : s.Enabled a)
    (hNot : completesCall a = false)
    (i : Nat) :
    (s.update cfg a).reader.carries i = s.reader.carries i := by
  rcases reader_update cfg s hEnabled hNot with
    hSame | ⟨hBefore, hAfter⟩
  · rw [hSame]
  · rw [ReaderPc.carries_eq_nil hBefore,
      ReaderPc.carries_eq_nil hAfter]

theorem resultsInv
    {s : Session}
    (hReach : ReachableBy (ω := ω) cfg Correlates s) :
    ∀ (i : Nat) (call : PendingCall),
      s.calls[i]? = some call →
        CallResults cfg.limits s.done s.writeChannel.isOpen
          (s.reader.carries i) i call := by
  refine invariant
    (fun s : Session =>
      ∀ (i : Nat) (call : PendingCall),
        s.calls[i]? = some call →
          CallResults cfg.limits s.done
            s.writeChannel.isOpen (s.reader.carries i) i
            call) (by simp [start]) ?_ hReach
  intro s a hPrior hInv hOk hEnabled
  have hPrefix := done_prefix_update hPrior hEnabled
  have hOpen := s.isOpen_update cfg a
  have hCalls := callsInv (fun _ _ h => h.few) hPrior
  -- One call moves on, and the rest stays as it is.
  have hModify :
      ∀ {i : Nat} {f : PendingCall → PendingCall},
        (∀ call, s.calls[i]? = some call →
          CallResults cfg.limits s.done s.writeChannel.isOpen
            (s.reader.carries i) i (f call)) →
        ∀ (j : Nat) (call : PendingCall),
          (s.calls.modify i f)[j]? = some call →
            CallResults cfg.limits s.done
              s.writeChannel.isOpen (s.reader.carries j) j
              call :=
    fun hAt => Records.forall_getElem?_modify
      (P := fun j call =>
        CallResults cfg.limits s.done s.writeChannel.isOpen
          (s.reader.carries j) j call)
      (fun j call hGet _ => hInv j call hGet) hAt
  cases a with
  | generateToken callName reqBuffer =>
      refine Records.forall_getElem?_concat
        (P := fun i call =>
          CallResults cfg.limits s.done s.writeChannel.isOpen
            (s.reader.carries i) i call) hInv ?_
      refine ⟨fun r hMem => ?_, by simp [PendingCall.create]⟩
      rcases hMem with hNone | hCarried
      · simp [PendingCall.create, Channel.make,
          Channel.admitted] at hNone
      · exact absurd (hCalls.completed _
          (ReaderPc.completes_of_carries hCarried))
          (Nat.lt_irrefl _)
  | registerOperation i =>
      rcases hEnabled with ⟨call, hGet, hPc⟩
      refine hModify (Records.forall_of_getElem? hGet ?_)
      exact (hInv i call hGet).move (fun _ h => h)
        (fun r h => h.move (by simp [hPc])) (by simp)
  | queueCall i =>
      rcases hEnabled with ⟨call, hGet, hPc⟩
      have hSame :
          (s.update cfg (.queueCall i)).writeChannel.isOpen =
            s.writeChannel.isOpen := by
        simp [update, Option.mem_def.mp hGet]
      rw [hSame]
      refine hModify (Records.forall_of_getElem? hGet ?_)
      refine (hInv i call hGet).move (fun _ h => h)
        (fun r h => h.move fun hClosed _ => ?_) ?_
      · exact ⟨.queueClosed, by simp [hClosed]⟩
      · intro buffer hReturned
        cases hNow : s.writeChannel.isOpen <;>
          simp [hNow] at hReturned
  | armTimer i =>
      rcases hEnabled with ⟨⟨call, hGet, hPc⟩, -⟩
      refine hModify (Records.forall_of_getElem? hGet ?_)
      exact (hInv i call hGet).move (fun _ h => h)
        (fun r h => h.move (by simp [hPc])) (by simp)
  | receiveReply i =>
      rcases hEnabled with ⟨call, hGet, hPc⟩
      refine hModify (Records.forall_of_getElem? hGet ?_)
      exact (hInv i call hGet).move
        (fun r h => by simpa using h)
        (fun r h => h.move (by simp [hPc])) (by simp)
  | resumeCall i =>
      rcases hEnabled with ⟨call, hGet, hPc, hDone⟩
      refine hModify (Records.forall_of_getElem? hGet ?_)
      cases hReceiver : call.channel.receiver with
      | idle => simp [hReceiver, Receiver.isCompleted] at hDone
      | waiting =>
          simp [hReceiver, Receiver.isCompleted] at hDone
      | completed result =>
          rw [PendingCall.resume, hReceiver]
          refine (hInv i call hGet).move (fun _ h => h)
            (fun r h => h.move (by simp [hPc])) ?_
          intro buffer hReturned
          rcases PendingCall.outcome_eq_returned hReturned with
            ⟨r, rfl, hNone, hBuffer⟩
          exact ⟨r, call.channel.handed r hReceiver, hNone,
            hBuffer⟩
  | timerFire i =>
      exact hModify fun call hGet =>
        (hInv i call hGet).congr rfl (fun _ h => h) rfl
  | timerStore i =>
      exact hModify fun call hGet =>
        (hInv i call hGet).congr rfl (fun _ h => h) rfl
  | timerCancel i =>
      exact hModify fun call hGet =>
        (hInv i call hGet).congr rfl
          (fun _ h => call.channel.admitted_cancel_subset h)
          rfl
  | cancelChannel i =>
      exact hModify fun call hGet =>
        (hInv i call hGet).congr rfl
          (fun _ h => call.channel.admitted_cancel_subset h)
          rfl
  | closeChannel i =>
      exact hModify fun call hGet =>
        (hInv i call hGet).congr rfl (fun _ h => h) rfl
  | findOperation token result =>
      have hAt : s.reader = .complete token result := hEnabled
      intro i call hGet
      have hOld :
          CallResults cfg.limits
            (s.update cfg (.findOperation token result)).done
            s.writeChannel.isOpen [] i call :=
        (hInv i call hGet).mono hPrefix hOpen (by simp)
      refine hOld.carry fun r hMem => ?_
      simp only [update] at hMem
      cases hLookup : s.channels.lookup token with
      | none => simp [hLookup, ReaderPc.carries] at hMem
      | some j =>
          obtain ⟨rfl, rfl⟩ : j = i ∧ r = result := by
            simpa [hLookup, ReaderPc.carries] using hMem
          exact (found_result hPrior hAt hLookup hGet).mono
            hPrefix hOpen
  | sendResult i result =>
      have hAt : s.reader = .completing i result := hEnabled
      have hNone :
          ∀ j, (s.update cfg
            (.sendResult i result)).reader.carries j = [] := by
        intro j
        simp only [update]
        split <;> rfl
      refine Records.forall_getElem?_modify
        (P := fun j call =>
          CallResults cfg.limits _ _
            ((s.update cfg
              (.sendResult i result)).reader.carries j) j call)
        ?_ ?_
      · intro j call hGet _
        exact (hInv j call hGet).mono hPrefix hOpen
          (by simp [hNone])
      · intro call hGet
        rw [hNone]
        have hOld := (hInv i call hGet).mono hPrefix hOpen
          (fun _ h => h)
        rw [hAt, ReaderPc.carries, if_pos rfl] at hOld
        exact hOld.send
  | _ =>
      -- The reader moves on, and the calls stay as they are.
      intro i call hGet
      rw [carries_update cfg s hEnabled rfl]
      exact (hInv i call hGet).mono hPrefix hOpen
        fun _ h => h

end Session

end GrlxRpc
