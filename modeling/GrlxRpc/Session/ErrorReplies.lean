import GrlxRpc.Session.Origin

/-
  A call fails with the code of an error frame: no response,
  and nothing the session does by itself, gives it one.

  Main declarations:
    * `ErrorBy` and `ErrorInv`
    * `Session.errorInv`
    * `Session.failed_by_error`
-/

------------------------------------------------------------
-- Results With A Code
------------------------------------------------------------

namespace GrlxRpc

/- A call fails with the code of the result it received. -/
theorem PendingCall.outcome_eq_failed
    {timedOut : Bool}
    {result : Except ChannelError OpResult}
    {ec : ErrorCode}
    (hFailed : outcome timedOut result = .threw (.failed ec)) :
    ∃ r, result = .ok r ∧ r.ec = some ec := by
  rcases result with error | ⟨_ | _ | _, _, _⟩ <;>
    cases timedOut <;> simp_all [outcome]

/- A result with a code stands for an error frame. -/
def ErrorBy
    (frames : List Frame)
    (r : OpResult) : Prop :=
  r.ec.isSome = true →
    ∃ frame, frames[r.frame]? = some frame ∧
      frame.1.incomingType = some .error

theorem ErrorBy.mono
    {frames frames' : List Frame}
    {r : OpResult}
    (hError : ErrorBy frames r)
    (hPrefix : frames <+: frames') :
    ErrorBy frames' r := by
  intro hCode
  rcases hError hCode with ⟨frame, hGet, hType⟩
  exact ⟨frame, Records.getElem?_mono hPrefix hGet, hType⟩

/- The result that the reader has for some call. -/
def ReaderPc.result : ReaderPc → Option OpResult
  | complete _ r => some r
  | completing _ r => some r
  | header => none
  | pong => none
  | body _ _ => none
  | completed _ => none
  | rejecting _ _ _ => none
  | rejected _ _ => none
  | close _ => none
  | closing _ => none
  | exited => none

/- A result that lies among frames read behind clean ones. -/
structure CleanResult
    (limits : SessionLimits)
    (frames : List Frame)
    (r : OpResult) : Prop where
  frame_le : r.frame ≤ frames.length
  clean : Clean limits frames r.frame

theorem CleanResult.mono
    {limits : SessionLimits}
    {frames frames' : List Frame}
    {r : OpResult}
    (hClean : CleanResult limits frames r)
    (hPrefix : frames <+: frames') :
    CleanResult limits frames' r where
  frame_le := hClean.frame_le.trans hPrefix.length_le
  clean := hClean.clean.mono hPrefix hClean.frame_le

/- What a call has been sent, and why it failed if it did. -/
structure CallErrors
    (limits : SessionLimits)
    (frames : List Frame)
    (call : PendingCall) : Prop where
  admitted :
    ∀ r ∈ call.channel.admitted, ErrorBy frames r
  failed :
    ∀ ec, call.pc = .threw (.failed ec) →
      ∃ r ∈ call.channel.delivered,
        r.ec = some ec ∧ CleanResult limits frames r

namespace CallErrors

variable {limits : SessionLimits}
variable {frames frames' : List Frame}
variable {call : PendingCall}

theorem mono
    (hInv : CallErrors limits frames call)
    (hPrefix : frames <+: frames') :
    CallErrors limits frames' call where
  admitted := fun r hMem => (hInv.admitted r hMem).mono hPrefix
  failed := by
    intro ec hFailed
    rcases hInv.failed ec hFailed with
      ⟨r, hMem, hCode, hClean⟩
    exact ⟨r, hMem, hCode, hClean.mono hPrefix⟩

/- The call moves on to a point that is no failure. -/
theorem move
    (hInv : CallErrors limits frames call)
    {call' : PendingCall}
    (hAdmitted :
      ∀ r ∈ call'.channel.admitted,
        r ∈ call.channel.admitted)
    (hPc : ∀ ec, call'.pc ≠ .threw (.failed ec)) :
    CallErrors limits frames call' where
  admitted := fun r hMem => hInv.admitted r (hAdmitted r hMem)
  failed := fun ec hFailed => absurd hFailed (hPc ec)

/- The channel changes, and keeps what it delivered. -/
theorem channel
    (hInv : CallErrors limits frames call)
    {call' : PendingCall}
    (hPc : call'.pc = call.pc)
    (hAdmitted :
      ∀ r ∈ call'.channel.admitted,
        r ∈ call.channel.admitted)
    (hDelivered :
      call'.channel.delivered = call.channel.delivered) :
    CallErrors limits frames call' where
  admitted := fun r hMem => hInv.admitted r (hAdmitted r hMem)
  failed := by
    rw [hPc, hDelivered]
    exact hInv.failed

/- The reader hands over its result. -/
theorem send
    (hInv : CallErrors limits frames call)
    {result : OpResult}
    (hResult : ErrorBy frames result) :
    CallErrors limits frames
      { call with
        channel := call.channel.asyncSend result } where
  admitted := by
    intro r hMem
    dsimp only at hMem
    rw [Channel.asyncSend_admitted] at hMem
    split at hMem
    · rcases List.mem_append.mp hMem with hOld | hNew
      · exact hInv.admitted r hOld
      · exact List.mem_singleton.mp hNew ▸ hResult
    · exact hInv.admitted r hMem
  failed := by
    intro ec hFailed
    rcases hInv.failed ec hFailed with ⟨r, hMem, hRest⟩
    exact ⟨r, call.channel.delivered_subset_asyncSend result
      hMem, hRest⟩

/- The call resumes with what it was handed. -/
theorem resume
    (hInv : CallErrors limits frames call)
    (hDone : call.channel.receiver.isCompleted = true)
    (hClean :
      ∀ r ∈ call.channel.delivered,
        CleanResult limits frames r) :
    CallErrors limits frames call.resume := by
  cases hReceiver : call.channel.receiver with
  | idle => simp [hReceiver, Receiver.isCompleted] at hDone
  | waiting => simp [hReceiver, Receiver.isCompleted] at hDone
  | completed result =>
      rw [PendingCall.resume, hReceiver]
      refine ⟨hInv.admitted, fun ec hFailed => ?_⟩
      rcases PendingCall.outcome_eq_failed hFailed with
        ⟨r, rfl, hCode⟩
      have hMem := call.channel.handed r hReceiver
      exact ⟨r, hMem, hCode, hClean r hMem⟩

end CallErrors

/- The reader's result and those of all calls. -/
structure ErrorInv
    (limits : SessionLimits)
    (frames : List Frame)
    (reader : ReaderPc)
    (calls : List PendingCall) : Prop where
  carried :
    ∀ r, reader.result = some r → ErrorBy frames r
  calls :
    ∀ (i : Nat) (call : PendingCall),
      calls[i]? = some call → CallErrors limits frames call

------------------------------------------------------------
-- Every Run
------------------------------------------------------------

namespace Session

variable {ω : Type}
variable {cfg : Config ω}

/- An empty error is an error frame. -/
theorem type_of_emptyError
    {limits : SessionLimits}
    {granted : Bool}
    {header : Header}
    (hKind : intake limits granted header = .emptyError) :
    header.incomingType = some .error := by
  by_cases hMagic : header.magic = magicHeaderNumber
  · simp only [intake, hMagic, ne_eq, not_true, if_false]
      at hKind
    cases hType : header.incomingType with
    | none => simp [hType] at hKind
    | some type =>
        cases type with
        | error => rfl
        | request =>
            simp only [hType] at hKind
            split at hKind
            · cases hKind
            · split at hKind <;> cases hKind
        | response =>
            simp only [hType] at hKind
            split at hKind <;> cases hKind
        | notification =>
            simp only [hType] at hKind
            split at hKind <;> cases hKind
        | nop => simp [hType] at hKind
        | ping => simp [hType] at hKind
        | pong => simp [hType] at hKind
  · simp [intake, hMagic] at hKind

/- A new result with a code is that of an error frame. -/
theorem errorBy_of_body
    {frames : List Frame}
    {header : Header}
    {use : BodyUse}
    {body : Buffer}
    (hType : header.incomingType = some use.type)
    {rid ord : Nat}
    (hOrd : ord = frames.length)
    {r : OpResult}
    (hResult :
      (afterBody rid ord header body use).result = some r) :
    ErrorBy (frames ++ [(header, body.bytes)]) r := by
  intro hCode
  cases use with
  | error =>
      rcases Option.some.inj hResult with rfl
      subst hOrd
      exact ⟨_, List.getElem?_concat_length, hType⟩
  | response =>
      rcases Option.some.inj hResult with rfl
      cases hCode
  | limited => cases hResult
  | request => cases hResult
  | notification => cases hResult

theorem errorInv
    {s : Session}
    (hReach : ReachableBy (ω := ω) cfg Correlates s) :
    ErrorInv cfg.limits s.done s.reader s.calls := by
  refine invariant
    (fun s : Session =>
      ErrorInv cfg.limits s.done s.reader s.calls)
    ⟨by simp [start, ReaderPc.result], by simp [start]⟩ ?_
    hReach
  intro s a hPrior hInv _ hEnabled
  have hPrefix : s.done <+: (s.update cfg a).done :=
    done_prefix_update hPrior hEnabled
  have hHeads := headInv (latch_hasTaken cfg)
    (fun _ _ h => h.settles) hPrior
  have hCalls :
      ∀ (i : Nat) (call : PendingCall),
        s.calls[i]? = some call →
          CallErrors cfg.limits (s.update cfg a).done call :=
    fun i call hGet => (hInv.calls i call hGet).mono hPrefix
  have hCarried :
      ∀ r, s.reader.result = some r →
        ErrorBy (s.update cfg a).done r :=
    fun r hResult => (hInv.carried r hResult).mono hPrefix
  -- One call changes, and the reader stays where it is.
  have hModify :
      ∀ {i : Nat} {f : PendingCall → PendingCall},
        (∀ call, s.calls[i]? = some call →
          CallErrors cfg.limits (s.update cfg a).done call →
            CallErrors cfg.limits (s.update cfg a).done (f call)) →
        ErrorInv cfg.limits (s.update cfg a).done s.reader
          (s.calls.modify i f) :=
    fun hAt => ⟨hCarried,
      Records.forall_getElem?_modify_of_forall hCalls hAt⟩
  -- The reader goes where it has no result.
  have hReader :
      (s.update cfg a).reader.result = none →
        (s.update cfg a).calls = s.calls →
          ErrorInv cfg.limits (s.update cfg a).done
            (s.update cfg a).reader (s.update cfg a).calls :=
    fun hNone hSame => ⟨by simp [hNone], hSame ▸ hCalls⟩
  cases a with
  | generateToken callName reqBuffer =>
      refine ⟨hCarried,
        Records.forall_getElem?_concat hCalls ?_⟩
      constructor <;>
        simp [PendingCall.create, Channel.make,
          Channel.admitted]
  | registerOperation i =>
      exact hModify fun call _ hOld =>
        hOld.move (fun _ h => h) (by simp)
  | queueCall i =>
      refine hModify fun call _ hOld =>
        hOld.move (fun _ h => h) fun ec => ?_
      dsimp only
      split <;> simp
  | armTimer i =>
      exact hModify fun call _ hOld =>
        hOld.move (fun _ h => h) (by simp)
  | receiveReply i =>
      exact hModify fun call _ hOld =>
        hOld.move (fun _ h => by simpa using h) (by simp)
  | resumeCall i =>
      rcases hEnabled with ⟨call, hGet, hPc, hDone⟩
      refine hModify fun call' hGet' hOld => ?_
      obtain rfl : call = call' :=
        Option.some.inj (hGet.symm.trans hGet')
      refine hOld.resume hDone fun r hMem => ?_
      have hResult :=
        (resultsInv hPrior i call hGet).results r
          (.inl (call.channel.delivered_prefix_admitted.subset
            hMem))
      rcases hResult.source with ⟨frame, hAt, -⟩
      have hLe := (List.getElem?_eq_some_iff.mp hAt).1.le
      rcases hResult.clean with hClean | ⟨-, hEnded⟩
      · exact CleanResult.mono ⟨hLe, hClean⟩ hPrefix
      · rcases hEnded with hNot | ⟨e, hNot⟩ <;>
          simp [hPc] at hNot
  | timerFire i =>
      exact hModify fun call _ hOld =>
        hOld.channel rfl (fun _ h => h) rfl
  | timerStore i =>
      exact hModify fun call _ hOld =>
        hOld.channel rfl (fun _ h => h) rfl
  | timerCancel i =>
      exact hModify fun call _ hOld =>
        hOld.channel rfl
          (fun _ h => call.channel.admitted_cancel_subset h)
          rfl
  | cancelChannel i =>
      exact hModify fun call _ hOld =>
        hOld.channel rfl
          (fun _ h => call.channel.admitted_cancel_subset h)
          rfl
  | closeChannel i =>
      exact hModify fun call _ hOld =>
        hOld.channel rfl (fun _ h => h) rfl
  | readHeader now =>
      refine ⟨fun r hResult => ?_, hCalls⟩
      simp only [update] at hResult
      cases hKind : s.nextIntake cfg now with
      | emptyError =>
          have hType := type_of_emptyError hKind
          rw [hKind] at hResult
          rcases Option.some.inj hResult with rfl
          intro _
          rw [done_eq_taken (by
            simp [update, hKind, afterHeader,
              ReaderPc.inBody])]
          exact ⟨_, List.getElem?_concat_length, hType⟩
      | _ =>
          simp [hKind, afterHeader, ReaderPc.result]
            at hResult
  | readBody header use =>
      refine ⟨fun r hResult => ?_, hCalls⟩
      have hLength : s.done.length = s.taken.length - 1 :=
        length_done_of_inBody (by rw [hEnabled.1]; rfl)
      rw [done_readBody (readerInv hPrior) hEnabled.1]
      exact errorBy_of_body
        (hHeads.reading header use hEnabled.1) hLength.symm
        hResult
  | sendPong => exact hReader rfl rfl
  | readFail => exact hReader rfl rfl
  | findOperation token result =>
      have hAt : s.reader = .complete token result := hEnabled
      refine ⟨fun r hResult => hCarried r ?_, hCalls⟩
      rw [hAt]
      simp only [update] at hResult
      cases hLookup : s.channels.lookup token with
      | none => simp [hLookup, ReaderPc.result] at hResult
      | some i =>
          rw [hLookup] at hResult
          exact hResult
  | sendResult i result =>
      have hAt : s.reader = .completing i result := hEnabled
      have hOwn := hCarried result (by rw [hAt]; rfl)
      refine ⟨fun r hResult => ?_,
        Records.forall_getElem?_modify_of_forall hCalls
          fun call _ hOld => hOld.send hOwn⟩
      simp only [update] at hResult
      split at hResult <;> cases hResult
  | resumeResult i => exact hReader rfl rfl
  | rejectRequest rid header closes =>
      refine hReader ?_ rfl
      simp only [update]
      split <;> rfl
  | resumeReject rid closes =>
      refine hReader ?_ rfl
      simp only [update]
      split <;> rfl
  | readerClose again =>
      refine hReader ?_ rfl
      simp only [update]
      split
      · rfl
      · cases again <;> rfl
  | readerClosed again =>
      exact hReader (by cases again <;> rfl) rfl
  | _ => exact ⟨hCarried, hCalls⟩

/- The clean error frame that a call failed by. -/
theorem failed_by_error
    {s : Session}
    (hReach : ReachableBy (ω := ω) cfg Correlates s)
    {i : Nat}
    {call : PendingCall}
    (hCall : s.calls[i]? = some call)
    {ec : ErrorCode}
    (hFailed : call.pc = .threw (.failed ec)) :
    ∃ (r : OpResult) (frame : Frame),
      s.done[r.frame]? = some frame ∧
      Clean cfg.limits s.done r.frame ∧
      frame.1.magic = magicHeaderNumber ∧
      frame.1.userToken = tokenOf i ∧
      frame.1.incomingType = some .error := by
  have hErrors := (errorInv hReach).calls i call hCall
  rcases hErrors.failed ec hFailed with
    ⟨r, hMem, hCode, hClean⟩
  have hAdmitted :=
    call.channel.delivered_prefix_admitted.subset hMem
  rcases ((resultsInv hReach i call hCall).results r
      (.inl hAdmitted)).source with
    ⟨frame, hGet, hMagic, hToken, -⟩
  rcases hErrors.admitted r hAdmitted (by rw [hCode]; rfl)
    with ⟨frame', hGet', hType⟩
  obtain rfl : frame = frame' :=
    Option.some.inj (hGet.symm.trans hGet')
  exact ⟨r, frame, hGet, hClean.clean, hMagic, hToken, hType⟩

end Session

end GrlxRpc
