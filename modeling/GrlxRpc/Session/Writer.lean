import GrlxRpc.Session.Reader

/-
  The write queue and the writer.

  Whatever the producers do, the bytes on the wire are the
  accepted items, in the order of acceptance, each as its
  header followed by its body; and a reader that is fed those
  bytes takes no other frames.

  Main declarations:
    * `Session.admits` and `Session.admitted_update`
    * `Produced` and `Session.wellBuilt`
    * `WriterInv` and `Session.writerInv`
    * `Session.outbound_prefix_accepted`
    * `Session.taken_eq_take` and `Session.starved_complete`
-/

------------------------------------------------------------
-- What Each Action Queues
------------------------------------------------------------

namespace GrlxRpc

/- The items with a given source. -/
def itemsOf
    (source : Source)
    (items : List WriteItem) : List WriteItem :=
  items.filter fun item => item.source = source

@[simp] theorem itemsOf_append
    (source : Source)
    (first second : List WriteItem) :
    itemsOf source (first ++ second) =
      itemsOf source first ++ itemsOf source second := by
  simp [itemsOf]

theorem itemsOf_eq_nil_iff
    (source : Source)
    (items : List WriteItem) :
    itemsOf source items = [] ↔
      ∀ item ∈ items, item.source ≠ source := by
  simp [itemsOf, List.filter_eq_nil_iff]

theorem mem_itemsOf
    {source : Source}
    {items : List WriteItem}
    {item : WriteItem} :
    item ∈ itemsOf source items ↔
      item ∈ items ∧ item.source = source := by
  simp [itemsOf]

namespace Session

variable {ω : Type}
variable {cfg : Config ω}

/- The items an action adds to those the queue admitted. -/
def admits
    (cfg : Config ω)
    (s : Session) : Action ω → List WriteItem
  | .queueCall i =>
      s.calls[i]?.elim [] fun call =>
        if s.writeChannel.isOpen then
          [.request cfg.charSigned i call.callName call.token
            call.reqBuffer]
        else
          []
  | .notify callName buffer =>
      if s.writeChannel.isOpen then
        [.notify cfg.charSigned callName buffer]
      else
        []
  | .tryNotify callName buffer =>
      if s.writeChannel.hasRoom then
        [.tryNotify cfg.charSigned callName buffer]
      else
        []
  | .tryPing =>
      if s.writeChannel.hasRoom then [.ping] else []
  | .sendPong =>
      if s.writeChannel.hasRoom then [.pong] else []
  | .rejectRequest rid header _ =>
      if s.writeChannel.isOpen then
        [.respond .error header Buffer.empty rid]
      else
        []
  | .sendReply rid header answer =>
      if s.writeChannel.isOpen then
        [.respond answer.type header answer.body rid]
      else
        []
  | _ => []

/- The source of the items that an action queues. -/
def producer : Action ω → Option Source
  | .queueCall i => some (.call i)
  | .notify _ _ => some .notify
  | .tryNotify _ _ => some .tryNotify
  | .tryPing => some .ping
  | .sendPong => some .pong
  | .rejectRequest rid _ _ => some (.reply rid)
  | .sendReply rid _ _ => some (.reply rid)
  | _ => none

/- What each action adds, when it adds an item. -/
theorem admits_cases
    {P : Action ω → WriteItem → Prop}
    {cfg : Config ω}
    {s : Session}
    {a : Action ω}
    {item : WriteItem}
    (hMem : item ∈ s.admits cfg a)
    (hCall :
      ∀ (i : Nat) (call : PendingCall),
        P (.queueCall i)
          (.request cfg.charSigned i call.callName call.token
            call.reqBuffer))
    (hNotify :
      ∀ callName buffer,
        P (.notify callName buffer)
          (.notify cfg.charSigned callName buffer))
    (hTryNotify :
      ∀ callName buffer,
        P (.tryNotify callName buffer)
          (.tryNotify cfg.charSigned callName buffer))
    (hPing : P .tryPing .ping)
    (hPong : P .sendPong .pong)
    (hReject :
      ∀ rid header closes,
        P (.rejectRequest rid header closes)
          (.respond .error header Buffer.empty rid))
    (hReply :
      ∀ rid header (answer : Answer),
        P (.sendReply rid header answer)
          (.respond answer.type header answer.body rid)) :
    P a item := by
  cases a with
  | queueCall i =>
      cases hGet : s.calls[i]? with
      | none => simp [admits, hGet] at hMem
      | some call =>
          simp only [admits, hGet, Option.elim_some,
            List.mem_ite_nil_right, List.mem_singleton] at hMem
          rw [hMem.2]
          exact hCall i call
  | notify callName buffer =>
      simp only [admits, List.mem_ite_nil_right,
        List.mem_singleton] at hMem
      rw [hMem.2]
      exact hNotify callName buffer
  | tryNotify callName buffer =>
      simp only [admits, List.mem_ite_nil_right,
        List.mem_singleton] at hMem
      rw [hMem.2]
      exact hTryNotify callName buffer
  | tryPing =>
      simp only [admits, List.mem_ite_nil_right,
        List.mem_singleton] at hMem
      rw [hMem.2]
      exact hPing
  | sendPong =>
      simp only [admits, List.mem_ite_nil_right,
        List.mem_singleton] at hMem
      rw [hMem.2]
      exact hPong
  | rejectRequest rid header closes =>
      simp only [admits, List.mem_ite_nil_right,
        List.mem_singleton] at hMem
      rw [hMem.2]
      exact hReject rid header closes
  | sendReply rid header answer =>
      simp only [admits, List.mem_ite_nil_right,
        List.mem_singleton] at hMem
      rw [hMem.2]
      exact hReply rid header answer
  | _ => simp [admits] at hMem

theorem producer_admits
    (cfg : Config ω)
    (s : Session)
    (a : Action ω)
    {item : WriteItem}
    (hMem : item ∈ s.admits cfg a) :
    producer a = some item.source := by
  apply admits_cases
    (P := fun a item => producer a = some item.source) hMem
  case hCall => exact fun _ _ => rfl
  case hNotify => exact fun _ _ => rfl
  case hTryNotify => exact fun _ _ => rfl
  case hPing => rfl
  case hPong => rfl
  case hReject => exact fun _ _ _ => rfl
  case hReply => exact fun _ _ _ => rfl

/- A closed queue admits nothing. -/
theorem admits_of_closed
    (cfg : Config ω)
    (s : Session)
    (a : Action ω)
    (hClosed : s.writeChannel.isOpen = false) :
    s.admits cfg a = [] := by
  cases a with
  | queueCall i =>
      cases hCall : s.calls[i]? <;>
        simp [admits, hCall, hClosed]
  | _ => simp [admits, hClosed, Channel.hasRoom]

theorem asyncSend_admits
    (c : Channel WriteItem)
    (item : WriteItem) :
    (c.asyncSend item).admitted =
      c.admitted ++ if c.isOpen then [item] else [] := by
  rw [Channel.asyncSend_admitted]
  cases c.isOpen <;> simp

theorem trySend_admits
    (c : Channel WriteItem)
    (item : WriteItem) :
    (c.trySend item).admitted =
      c.admitted ++ if c.hasRoom then [item] else [] := by
  rw [Channel.trySend_admitted]
  cases c.hasRoom <;> simp

/- Nothing else reaches the queue. -/
theorem admitted_update
    (cfg : Config ω)
    (s : Session)
    (a : Action ω) :
    (s.update cfg a).writeChannel.admitted =
      s.writeChannel.admitted ++ s.admits cfg a := by
  cases a with
  | queueCall i =>
      cases hCall : s.calls[i]? with
      | none => simp [update, admits, hCall]
      | some call =>
          simpa [update, admits, hCall] using
            asyncSend_admits s.writeChannel _
  | notify callName buffer => exact asyncSend_admits _ _
  | tryNotify callName buffer => exact trySend_admits _ _
  | tryPing => exact trySend_admits _ _
  | sendPong => exact trySend_admits _ _
  | rejectRequest rid header closes =>
      exact asyncSend_admits _ _
  | sendReply rid header answer => exact asyncSend_admits _ _
  | closeWriteChannel => simp [update, admits]
  | writerReceive => simp [update, admits]
  | writerTake => simp [update, admits]
  | _ => exact (List.append_nil _).symm

/- What the queue accepted stays accepted, in its place. -/
theorem accepted_prefix_update
    (cfg : Config ω)
    (s : Session)
    (a : Action ω) :
    s.writeChannel.accepted <+:
      (s.update cfg a).writeChannel.accepted := by
  cases a with
  | queueCall i =>
      simp only [update]
      cases s.calls[i]? with
      | none => exact List.prefix_rfl
      | some call => exact Channel.accepted_prefix_asyncSend _ _
  | notify callName buffer =>
      exact Channel.accepted_prefix_asyncSend _ _
  | tryNotify callName buffer =>
      exact Channel.accepted_prefix_trySend _ _
  | tryPing => exact Channel.accepted_prefix_trySend _ _
  | sendPong => exact Channel.accepted_prefix_trySend _ _
  | rejectRequest rid header closes =>
      exact Channel.accepted_prefix_asyncSend _ _
  | sendReply rid header answer =>
      exact Channel.accepted_prefix_asyncSend _ _
  | writerReceive =>
      exact Channel.accepted_prefix_asyncReceive _
  | _ => exact List.prefix_rfl

/- A waiting sender waited before, or has just begun to. -/
theorem mem_senders_update
    (cfg : Config ω)
    (s : Session)
    (a : Action ω)
    {item : WriteItem}
    (hMem : item ∈ (s.update cfg a).writeChannel.senders) :
    item ∈ s.writeChannel.senders ∨ item ∈ s.admits cfg a := by
  have hSend :
      ∀ sent,
        item ∈ (s.writeChannel.asyncSend sent).senders →
        item ∈ s.writeChannel.senders ∨
          item ∈ if s.writeChannel.isOpen then [sent] else [] := by
    intro sent hSent
    rcases s.writeChannel.mem_senders_asyncSend hSent with
      hOld | ⟨hOpen, hEq⟩
    · exact .inl hOld
    · exact .inr (by simp [hOpen, hEq])
  cases a with
  | queueCall i =>
      cases hCall : s.calls[i]? with
      | none =>
          simp only [update, hCall, Option.elim_none] at hMem
          exact .inl hMem
      | some call =>
          simp only [update, hCall, Option.elim_some] at hMem
          simpa [admits, hCall] using hSend _ hMem
  | notify callName buffer => exact hSend _ hMem
  | tryNotify callName buffer =>
      exact .inl (by simpa [update] using hMem)
  | tryPing => exact .inl (by simpa [update] using hMem)
  | sendPong => exact .inl (by simpa [update] using hMem)
  | rejectRequest rid header closes => exact hSend _ hMem
  | sendReply rid header answer => exact hSend _ hMem
  | writerReceive =>
      exact .inl
        (s.writeChannel.senders_asyncReceive_subset hMem)
  | _ => exact .inl hMem

/- An action queues items of its own source only. -/
theorem itemsOf_admits
    (cfg : Config ω)
    (s : Session)
    (a : Action ω)
    {source : Source}
    (hOther : producer a ≠ some source) :
    itemsOf source (s.admits cfg a) = [] := by
  rw [itemsOf_eq_nil_iff]
  intro item hMem hSource
  exact hOther (hSource ▸ producer_admits cfg s a hMem)

/- A closed write channel stays closed. -/
theorem isOpen_update
    (cfg : Config ω)
    (s : Session)
    (a : Action ω)
    (hClosed : s.writeChannel.isOpen = false) :
    (s.update cfg a).writeChannel.isOpen = false := by
  cases a with
  | queueCall i =>
      cases hCall : s.calls[i]? <;>
        simp [update, hCall, hClosed]
  | notify callName buffer => simp [update, hClosed]
  | tryNotify callName buffer => simp [update, hClosed]
  | tryPing => simp [update, hClosed]
  | sendPong => simp [update, hClosed]
  | rejectRequest rid header closes => simp [update, hClosed]
  | sendReply rid header answer => simp [update, hClosed]
  | closeWriteChannel => simp [update]
  | writerReceive => simp [update, hClosed]
  | _ => exact hClosed

end Session

------------------------------------------------------------
-- Well-Built Items
------------------------------------------------------------

/- An item whose header describes its body. -/
structure WellBuilt (item : WriteItem) : Prop where
  framed : Framed item.frame
  keepalive : KeepaliveEmpty item.frame
  size : item.header.msgSize = item.body.size

/- The common shape of every producer's item. -/
theorem wellBuilt_frameHeader
    (type : MsgType)
    (callId userToken : UInt64)
    (body : Buffer)
    (source : Source)
    (hKeepalive : type.isKeepalive = true → body = Buffer.empty) :
    WellBuilt
      { header := frameHeader type callId userToken body
        body := body
        source := source } where
  framed :=
    { magic := rfl
      known := by
        simp [WriteItem.frame, incomingType_frameHeader]
      complete := by
        simp [WriteItem.frame, frameHeader] }
  keepalive := by
    rintro ⟨type', hType, hAlive⟩
    obtain rfl : type = type' := by
      simpa [WriteItem.frame] using hType
    have hEmpty := hKeepalive hAlive
    simp [WriteItem.frame, frameHeader, hEmpty]
  size := rfl

/- The items that the six producers build. -/
inductive Produced (charSigned : Bool) : WriteItem → Prop
  | request
      (i : Nat) (callName : StdString) (token : UInt64)
      (reqBuffer : Buffer) :
      Produced charSigned
        (.request charSigned i callName token reqBuffer)
  | notify (callName : StdString) (buffer : Buffer) :
      Produced charSigned (.notify charSigned callName buffer)
  | tryNotify (callName : StdString) (buffer : Buffer) :
      Produced charSigned
        (.tryNotify charSigned callName buffer)
  | ping : Produced charSigned .ping
  | pong : Produced charSigned .pong
  | reply (answer : Answer) (header : Header) (rid : Nat) :
      Produced charSigned
        (.respond answer.type header answer.body rid)

/- Six producers, one layout. -/
theorem Produced.wellBuilt
    {charSigned : Bool}
    {item : WriteItem}
    (hProduced : Produced charSigned item) :
    WellBuilt item := by
  cases hProduced with
  | request i callName token reqBuffer =>
      exact wellBuilt_frameHeader _ _ _ _ _ Bool.noConfusion
  | notify callName buffer =>
      exact wellBuilt_frameHeader _ _ _ _ _ Bool.noConfusion
  | tryNotify callName buffer =>
      exact wellBuilt_frameHeader _ _ _ _ _ Bool.noConfusion
  | ping => exact wellBuilt_frameHeader _ _ _ _ _ fun _ => rfl
  | pong => exact wellBuilt_frameHeader _ _ _ _ _ fun _ => rfl
  | reply answer header rid =>
      refine wellBuilt_frameHeader _ _ _ _ _ ?_
      cases answer <;> simp [Answer.type, MsgType.isKeepalive]

namespace Session

variable {ω : Type}
variable {cfg : Config ω}

theorem produced_admits
    (cfg : Config ω)
    (s : Session)
    (a : Action ω) :
    ∀ item ∈ s.admits cfg a, Produced cfg.charSigned item := by
  intro item hMem
  apply admits_cases
    (P := fun _ item => Produced cfg.charSigned item) hMem
  case hCall => exact fun i call => .request _ _ _ _
  case hNotify => exact .notify
  case hTryNotify => exact .tryNotify
  case hPing => exact .ping
  case hPong => exact .pong
  case hReject =>
    exact fun rid header _ => .reply .error header rid
  case hReply =>
    exact fun rid header answer => .reply answer header rid

/- Every item of the queue was built by a producer. -/
theorem produced
    {ok : Session → Action ω → Prop}
    {s : Session}
    (hReach : ReachableBy cfg ok s) :
    ∀ item ∈ s.writeChannel.admitted,
      Produced cfg.charSigned item := by
  refine invariant
    (fun s => ∀ item ∈ s.writeChannel.admitted,
      Produced cfg.charSigned item) ?_ ?_ hReach
  · simp [start, Channel.admitted, Channel.make]
  · intro s a _ hInv _ _ item hMem
    rw [admitted_update, List.mem_append] at hMem
    rcases hMem with hOld | hNew
    · exact hInv item hOld
    · exact produced_admits cfg s a item hNew

theorem wellBuilt
    {ok : Session → Action ω → Prop}
    {s : Session}
    (hReach : ReachableBy cfg ok s)
    {item : WriteItem}
    (hMem : item ∈ s.writeChannel.admitted) :
    WellBuilt item :=
  (produced hReach item hMem).wellBuilt

theorem wellBuilt_accepted
    {ok : Session → Action ω → Prop}
    {s : Session}
    (hReach : ReachableBy cfg ok s)
    {item : WriteItem}
    (hMem : item ∈ s.writeChannel.accepted) :
    WellBuilt item :=
  wellBuilt hReach
    (s.writeChannel.accepted_prefix_admitted.subset hMem)

/- The frames of the items the queue accepted. -/
def items (s : Session) : List Frame :=
  s.writeChannel.accepted.map WriteItem.frame

theorem framed_items
    {ok : Session → Action ω → Prop}
    {s : Session}
    (hReach : ReachableBy cfg ok s) :
    ∀ frame ∈ s.items, Framed frame := by
  intro frame hMem
  rcases List.mem_map.mp hMem with ⟨item, hItem, rfl⟩
  exact (wellBuilt_accepted hReach hItem).framed

theorem keepalive_items
    {ok : Session → Action ω → Prop}
    {s : Session}
    (hReach : ReachableBy cfg ok s) :
    ∀ frame ∈ s.items, KeepaliveEmpty frame := by
  intro frame hMem
  rcases List.mem_map.mp hMem with ⟨item, hItem, rfl⟩
  exact (wellBuilt_accepted hReach hItem).keepalive

end Session

------------------------------------------------------------
-- The Writer
------------------------------------------------------------

/- The bytes of a list of items. -/
def itemBytes
    (order : ByteOrder)
    (items : List WriteItem) : List UInt8 :=
  wire order (items.map WriteItem.frame)

@[simp] theorem itemBytes_concat
    (order : ByteOrder)
    (items : List WriteItem)
    (item : WriteItem) :
    itemBytes order (items ++ [item]) =
      itemBytes order items ++ item.bytes order := by
  rw [itemBytes, List.map_append]
  exact wire_concat order _ _

theorem itemBytes_mono
    (order : ByteOrder)
    {items more : List WriteItem}
    (hPrefix : items <+: more) :
    itemBytes order items <+: itemBytes order more := by
  rcases hPrefix with ⟨rest, rfl⟩
  rw [itemBytes, itemBytes, List.map_append, wire_append]
  exact List.prefix_append _ _

/-
  What is on the wire and what the writer still holds add up
  to the items delivered to it, until a write fails.
-/
def WriterInv
    (order : ByteOrder)
    (channel : Channel WriteItem)
    (outbound : List UInt8) : WriterPc → Prop
  | .ready =>
      channel.receiver = .idle ∧
        outbound = itemBytes order channel.delivered
  | .receiving =>
      match channel.receiver with
      | .idle => False
      | .waiting =>
          outbound = itemBytes order channel.delivered
      | .completed (.ok item) =>
          outbound ++ item.bytes order =
            itemBytes order channel.delivered
      | .completed (.error _) =>
          outbound = itemBytes order channel.delivered
  | .writing rest =>
      channel.receiver = .idle ∧
        outbound ++ rest = itemBytes order channel.delivered
  | .close | .closing | .exited =>
      channel.receiver = .idle ∧
        outbound <+: itemBytes order channel.delivered

namespace WriterInv

variable {order : ByteOrder}
variable {channel channel' : Channel WriteItem}
variable {outbound : List UInt8}
variable {writer : WriterPc}

/- Only the receiver and what it was given matter. -/
theorem congr
    (hInv : WriterInv order channel outbound writer)
    (hReceiver : channel'.receiver = channel.receiver)
    (hDelivered : channel'.delivered = channel.delivered) :
    WriterInv order channel' outbound writer := by
  cases writer <;>
    simpa only [WriterInv, hReceiver, hDelivered] using hInv

/- A payload handed to the waiting writer. -/
theorem handed
    (hInv : WriterInv order channel outbound writer)
    {item : WriteItem}
    (hWaiting : channel.receiver = .waiting)
    (hReceiver : channel'.receiver = .completed (.ok item))
    (hDelivered :
      channel'.delivered = channel.delivered ++ [item]) :
    WriterInv order channel' outbound writer := by
  cases writer <;>
    simp_all [WriterInv]

theorem asyncSend
    (hInv : WriterInv order channel outbound writer)
    (item : WriteItem) :
    WriterInv order (channel.asyncSend item) outbound
      writer := by
  rcases channel.asyncSend_receiver item with
    ⟨hReceiver, hDelivered⟩ | ⟨hWaiting, hReceiver, hDelivered⟩
  · exact hInv.congr hReceiver hDelivered
  · exact hInv.handed hWaiting hReceiver hDelivered

theorem trySend
    (hInv : WriterInv order channel outbound writer)
    (item : WriteItem) :
    WriterInv order (channel.trySend item) outbound
      writer := by
  rcases channel.trySend_receiver item with
    ⟨hReceiver, hDelivered⟩ | ⟨hWaiting, hReceiver, hDelivered⟩
  · exact hInv.congr hReceiver hDelivered
  · exact hInv.handed hWaiting hReceiver hDelivered

theorem close
    (hInv : WriterInv order channel outbound writer) :
    WriterInv order channel.close outbound writer := by
  rcases channel.close_receiver with
    hSame | ⟨hWaiting, hReceiver⟩
  · exact hInv.congr hSame rfl
  · have hDelivered :
        channel.close.delivered = channel.delivered := rfl
    cases writer <;>
      simp_all [WriterInv]

/- The writer is on the wire up to what it was given. -/
theorem outbound_within
    (hInv : WriterInv order channel outbound writer) :
    outbound <+: itemBytes order channel.delivered := by
  cases writer with
  | ready => exact hInv.2 ▸ List.prefix_rfl
  | receiving =>
      simp only [WriterInv] at hInv
      split at hInv
      · exact hInv.elim
      · exact hInv ▸ List.prefix_rfl
      · exact ⟨_, hInv⟩
      · exact hInv ▸ List.prefix_rfl
  | writing rest => exact ⟨_, hInv.2⟩
  | close => exact hInv.2
  | closing => exact hInv.2
  | exited => exact hInv.2

end WriterInv

namespace Session

variable {ω : Type}
variable {cfg : Config ω}

theorem writerInv
    {ok : Session → Action ω → Prop}
    {s : Session}
    (hReach : ReachableBy cfg ok s) :
    WriterInv cfg.order s.writeChannel s.outbound s.writer := by
  refine invariant
    (fun s =>
      WriterInv cfg.order s.writeChannel s.outbound s.writer)
    ⟨rfl, rfl⟩ ?_ hReach
  intro s a _ hInv _ hEnabled
  cases a with
  | queueCall i =>
      simp only [update]
      cases s.calls[i]? with
      | none => exact hInv
      | some call => exact hInv.asyncSend _
  | notify callName buffer => exact hInv.asyncSend _
  | tryNotify callName buffer => exact hInv.trySend _
  | tryPing => exact hInv.trySend _
  | sendPong => exact hInv.trySend _
  | rejectRequest rid header closes => exact hInv.asyncSend _
  | sendReply rid header answer => exact hInv.asyncSend _
  | closeWriteChannel => exact hInv.close
  | writerReceive =>
      have hAt : s.writer = .ready := hEnabled
      rw [hAt] at hInv
      rcases hInv with ⟨-, hWritten⟩
      rcases s.writeChannel.asyncReceive_receiver with
        ⟨item, hReceiver, hDelivered⟩ |
          ⟨hWaiting | hClosed, hDelivered⟩
      · simp [WriterInv, update, hReceiver, hDelivered, hWritten]
      · simp [WriterInv, update, hWaiting, hDelivered, hWritten]
      · simp [WriterInv, update, hClosed, hDelivered, hWritten]
  | writerTake =>
      rcases hEnabled with ⟨hAt, hCompleted⟩
      rw [hAt] at hInv
      simp only [WriterInv] at hInv
      cases hReceiver : s.writeChannel.receiver with
      | idle => simp [hReceiver] at hInv
      | waiting =>
          simp [hReceiver, Receiver.isCompleted] at hCompleted
      | completed result =>
          rw [hReceiver] at hInv
          cases result with
          | error e =>
              simp only [update, hReceiver]
              exact ⟨rfl, hInv ▸ List.prefix_rfl⟩
          | ok item =>
              simp only [update, hReceiver]
              exact ⟨rfl, hInv⟩
  | writerWrite chunk rest =>
      rw [hEnabled.1] at hInv
      exact ⟨hInv.1, by simpa [update] using hInv.2⟩
  | writerFinish =>
      have hAt : s.writer = .writing [] := hEnabled
      rw [hAt] at hInv
      exact ⟨hInv.1, by simpa [update] using hInv.2⟩
  | writerFail rest =>
      have hAt : s.writer = .writing rest := hEnabled
      rw [hAt] at hInv
      exact ⟨hInv.1, ⟨rest, hInv.2⟩⟩
  | writerClose =>
      have hAt : s.writer = .close := hEnabled
      rw [hAt] at hInv
      simp only [update]
      split
      · exact hInv
      · exact hInv
  | writerClosed =>
      rw [hEnabled.1] at hInv
      exact hInv
  | _ => exact hInv

/-
  The stream is a prefix of the accepted items, in order,
  each one whole before the next begins.
-/
theorem outbound_prefix_accepted
    {ok : Session → Action ω → Prop}
    {s : Session}
    (hReach : ReachableBy cfg ok s) :
    s.outbound <+:
      itemBytes cfg.order s.writeChannel.accepted :=
  (writerInv hReach).outbound_within.trans
    (itemBytes_mono cfg.order
      s.writeChannel.delivered_prefix_accepted)

/- What the writer was given and has not written yet. -/
def held
    (cfg : Config ω)
    (s : Session) : List UInt8 :=
  match s.writer, s.writeChannel.receiver with
  | .writing rest, _ => rest
  | .receiving, .completed (.ok item) => item.bytes cfg.order
  | _, _ => []

/-
  As long as the writer runs, every accepted item is on the
  stream, in the writer's hands, or in the queue.
-/
theorem accepted_bytes
    {ok : Session → Action ω → Prop}
    {s : Session}
    (hReach : ReachableBy cfg ok s)
    (hRuns : s.writer.hasStopped = false) :
    itemBytes cfg.order s.writeChannel.accepted =
      s.outbound ++ s.held cfg ++
        itemBytes cfg.order s.writeChannel.buffer := by
  have hInv := writerInv hReach
  rw [s.writeChannel.fifo, itemBytes, List.map_append,
    wire_append]
  congr 1
  change itemBytes cfg.order s.writeChannel.delivered = _
  cases hWriter : s.writer with
  | ready =>
      rw [hWriter] at hInv
      simp [held, hWriter, hInv.2]
  | receiving =>
      rw [hWriter] at hInv
      simp only [WriterInv] at hInv
      rcases hReceiver : s.writeChannel.receiver with
        _ | _ | ⟨_ | item⟩ <;>
        rw [hReceiver] at hInv
      · exact hInv.elim
      · simp [held, hWriter, hReceiver, hInv]
      · simp [held, hWriter, hReceiver, hInv]
      · simp [held, hWriter, hReceiver, hInv]
  | writing rest =>
      rw [hWriter] at hInv
      simp [held, hWriter, hInv.2]
  | close => simp [hWriter, WriterPc.hasStopped] at hRuns
  | closing => simp [hWriter, WriterPc.hasStopped] at hRuns
  | exited => simp [hWriter, WriterPc.hasStopped] at hRuns

------------------------------------------------------------
-- Reading Back
------------------------------------------------------------

/- The reader waits for bytes that have not arrived. -/
def Starved (p : Session) : Prop :=
  (p.reader = .header ∧ p.unread.length < Header.size) ∨
    ∃ header use, p.reader = .body header use ∧
      p.unread.length < header.msgSize.toNat

/- At a boundary the frames taken are frames of the stream. -/
theorem taken_eq_take
    {p : Session}
    (hReach : Reachable cfg p)
    {frames : List Frame}
    (hFramed : ∀ frame ∈ frames, Framed frame)
    (hKeepalive : ∀ frame ∈ frames, KeepaliveEmpty frame)
    (hLimit :
      ∀ frame ∈ frames,
        frame.1.msgSize ≤ cfg.limits.maxMessageBytes)
    (hStream : p.received <+: wire cfg.order frames)
    (hBoundary : p.reader.atBoundary = true) :
    p.taken = frames.take p.taken.length := by
  have hHeaders :=
    reader_aligned cfg frames hFramed hLimit hKeepalive p
      hReach hStream
  have hSame :
      ∀ (k : Nat) (frame : Frame),
        p.taken[k]? = some frame →
          frames[k]? = some frame := by
    intro k frame hTaken
    have hWithin :
        ∀ j earlier, j < k + 1 → p.taken[j]? = some earlier →
          earlier.1.msgSize ≤ cfg.limits.maxMessageBytes := by
      intro j earlier _ hEarlier
      rcases hHeaders j earlier.1
        (by simp [hEarlier]) with ⟨hHeader, -⟩
      rw [List.getElem?_map, Option.map_eq_some_iff] at hHeader
      rcases hHeader with ⟨sent, hSent, hEq⟩
      exact hEq ▸ hLimit sent (List.mem_of_getElem? hSent)
    rcases taken_aligned hReach hFramed hKeepalive hStream hTaken
        (fun j earlier hLt => hWithin j earlier (by omega)) with
      ⟨sent, hSent, hHead, -, hWhole⟩
    have hMem : sent ∈ frames := List.mem_of_getElem? hSent
    have hComplete :=
      (hFramed sent hMem).complete_of_drained
        (hKeepalive sent hMem)
        (hWithin k frame (by omega) hTaken) hHead
        ((readerInv hReach).drained hBoundary
          (List.mem_of_getElem? hTaken))
    rw [hSent, hWhole hComplete]
  refine List.ext_getElem? fun k => ?_
  cases hTaken : p.taken[k]? with
  | none =>
      have hLe := List.getElem?_eq_none_iff.mp hTaken
      rw [List.getElem?_take, if_neg (by omega)]
  | some frame =>
      have hLt := (List.getElem?_eq_some_iff.mp hTaken).1
      rw [List.getElem?_take_of_lt hLt,
        hSame k frame hTaken]

/- A starved reader has taken every complete frame. -/
theorem starved_complete
    {p : Session}
    (hReach : Reachable cfg p)
    {frames : List Frame}
    (hFramed : ∀ frame ∈ frames, Framed frame)
    (hKeepalive : ∀ frame ∈ frames, KeepaliveEmpty frame)
    (hLimit :
      ∀ frame ∈ frames,
        frame.1.msgSize ≤ cfg.limits.maxMessageBytes)
    (hStream : p.received <+: wire cfg.order frames)
    (hStarved : p.Starved)
    {m : Nat}
    (hBound : m ≤ frames.length)
    (hSent : wire cfg.order (frames.take m) <+: p.received) :
    frames.take m <+: p.taken := by
  have hInv := readerInv hReach
  have hParsed := congrArg List.length hInv.parsed
  rw [List.length_take, Nat.min_eq_left hInv.within] at hParsed
  have hReceived := hSent.length_le
  rcases hStarved with
    ⟨hReader, hShort⟩ | ⟨header, use, hReader, hShort⟩
  · -- Between frames: a further frame would have forty bytes.
    have hTaken :=
      taken_eq_take hReach hFramed hKeepalive hLimit hStream
        (by simp [hReader, ReaderPc.atBoundary])
    rw [unread, List.length_drop] at hShort
    have hLe : m ≤ p.taken.length := by
      by_contra hMore
      have hGet : p.taken.length < frames.length := by omega
      have hLong :=
        length_wire_take cfg.order
          (List.getElem?_eq_getElem hGet)
          (Nat.lt_of_not_le hMore)
      rw [← hTaken] at hLong
      omega
    rw [hTaken]
    exact List.take_prefix_take_left hLe
  · -- In a body: the whole frame would have its last byte.
    rcases List.getLast?_eq_some_iff.mp
      (hInv.reading header use hReader) with ⟨front, hTaken⟩
    have hHeaders :=
      reader_aligned cfg frames hFramed hLimit hKeepalive p
        hReach hStream
    rcases hHeaders front.length header
      (by simp [hTaken]) with ⟨hHeader, hFront, -⟩
    rw [List.getElem?_map, Option.map_eq_some_iff] at hHeader
    rcases hHeader with ⟨sent, hGet, rfl⟩
    rw [hTaken, List.take_left] at hFront
    rw [unread, List.length_drop] at hShort
    have hLe : m ≤ front.length := by
      by_contra hMore
      have hLong :=
        length_wire_take cfg.order hGet
          (Nat.lt_of_not_le hMore)
      have hBody :=
        (hFramed sent (List.mem_of_getElem? hGet)).complete
      rw [← hFront] at hLong
      rw [hTaken, wire_concat] at hParsed
      simp only [List.length_append, Header.length_toBytes,
        List.length_nil] at hParsed
      omega
    rw [hTaken, hFront]
    exact (List.take_prefix_take_left hLe).trans
      (List.prefix_append _ _)

end Session

end GrlxRpc
