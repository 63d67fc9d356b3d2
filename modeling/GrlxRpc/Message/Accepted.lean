import GrlxRpc.Message.RoundTrip

/-
  What the bounded archive accepts.

  A frame decodes to a value exactly when, behind the byte
  that tells the writer's order, it starts with the bytes
  that a machine of that order saves for the value. Anything
  may follow, and the object that was filled does not matter.

  Main declarations:
    * `frameOrder`
    * `WireType.parses_load`
    * `decodeMessage_eq_true_iff`
-/

------------------------------------------------------------
-- The Byte Order Of A Frame
------------------------------------------------------------

namespace GrlxRpc

open InPlace

/- The order in which a machine reads behind a first byte. -/
def frameOrder
    (order : ByteOrder)
    (byte : UInt8) : ByteOrder :=
  if byte = orderByte order then
    order
  else
    match order with
    | .little => .big
    | .big => .little

theorem frameOrder_orderByte
    (order peer : ByteOrder) :
    frameOrder order (orderByte peer) = peer := by
  cases order <;> cases peer <;> rfl

namespace InputArchive

variable {order peer : ByteOrder}

/- The archive swaps just when the orders differ. -/
theorem swaps_frameOrder
    (order : ByteOrder)
    (byte : UInt8) :
    swaps order (frameOrder order byte) =
      decide (byte ≠ orderByte order) := by
  unfold swaps frameOrder
  by_cases hSame : byte = orderByte order
  · simp [hSame]
  · cases order <;> simp [hSame]

------------------------------------------------------------
-- Archives Over A Peer's Frame
------------------------------------------------------------

/- A bounded archive over a frame that `peer` wrote. -/
structure Reads
    (order peer : ByteOrder)
    (archive : InputArchive) : Prop where
  total : archive.total = archive.bytes.length
  size_lt : archive.bytes.length < 2 ^ 64
  converts : archive.convertEndianness = swaps order peer

namespace Reads

variable {archive : InputArchive}

theorem moved
    (hReads : Reads order peer archive)
    (count : Nat) :
    Reads order peer (archive.moved count) :=
  ⟨hReads.total, hReads.size_lt, hReads.converts⟩

/- What is left of the frame starts with some bytes. -/
theorem takes
    (hReads : Reads order peer archive)
    {bytes : List UInt8}
    (hStarts :
      (archive.bytes.drop archive.pos).take bytes.length =
        bytes) :
    Takes order peer archive bytes
      (archive.moved bytes.length) where
  total := hReads.total
  size_lt := hReads.size_lt
  converts := hReads.converts
  starts := by
    refine
      ⟨(archive.bytes.drop archive.pos).drop bytes.length, ?_⟩
    calc
      archive.bytes.drop archive.pos =
          (archive.bytes.drop archive.pos).take
              bytes.length ++
            (archive.bytes.drop archive.pos).drop
              bytes.length :=
        (List.take_append_drop _ _).symm
      _ = bytes ++ _ := by rw [hStarts]
  moves := rfl

end Reads

theorem joins_source (order peer : ByteOrder) :
    (source order peer).Joins (Reads order peer) := by
  constructor
  case takes_nil =>
    intro archive hReads
    have hNothing :
        (archive.bytes.drop archive.pos).take
            ([] : List UInt8).length = [] := rfl
    exact hReads.takes hNothing
  case takes_append =>
    intro archive middle archive' front back hFront hBack
    rcases hFront.starts with ⟨tail, hStarts⟩
    rcases hBack.starts with ⟨tail', hStarts'⟩
    have hMoves := hFront.moves
    subst hMoves
    -- The second piece starts where the first one ends.
    have hTail : tail = back ++ tail' := by
      rw [← hStarts', moved, ← List.drop_drop, hStarts,
        List.drop_left]
    exact
      { total := hFront.total
        size_lt := hFront.size_lt
        converts := hFront.converts
        starts :=
          ⟨tail', by rw [hStarts, hTail, List.append_assoc]⟩
        moves := by
          rw [hBack.moves, List.length_append]
          simp [moved, Nat.add_assoc] }

------------------------------------------------------------
-- Loaders Of The Archive
------------------------------------------------------------

variable {archive : InputArchive}

/- The bytes that a read of `count` bytes comes upon. -/
def next
    (archive : InputArchive)
    (count : Nat) : List UInt8 :=
  (archive.bytes.drop archive.pos).take count

theorem length_next
    {count : Nat}
    (hLeft : count ≤ archive.left) :
    (archive.next count).length = count := by
  simp only [next, List.length_take, List.length_drop]
  simp only [left] at hLeft
  omega

/- A read that the archive can satisfy takes these bytes. -/
theorem loadBinary_next
    (dataSize : Nat)
    {data : List UInt8}
    (hLeft : data.length ≤ archive.left) :
    archive.loadBinary dataSize data =
      (if archive.convertEndianness then
          swapElements dataSize (data.length / dataSize)
            (archive.next data.length)
        else
          archive.next data.length,
        some (archive.moved data.length)) :=
  loadBinary_of_le hLeft

theorem Reads.takes_next
    (hReads : Reads order peer archive)
    {count : Nat}
    (hLeft : count ≤ archive.left) :
    Takes order peer archive (archive.next count)
      (archive.moved count) := by
  have hLength := length_next hLeft
  have hStarts :
      (archive.bytes.drop archive.pos).take
          (archive.next count).length =
        archive.next count := by
    rw [hLength]
    rfl
  have hTakes := hReads.takes hStarts
  rwa [hLength] at hTakes

/- Swapping one number reverses its bytes. -/
theorem swapElements_reverse
    {size : Nat}
    {bytes : List UInt8}
    (hLength : bytes.length = size) :
    swapElements size 1 bytes = bytes.reverse := by
  have hLe := Nat.le_of_eq hLength
  rw [swapElements, swapElements, List.drop_eq_nil_of_le hLe,
    List.append_nil, List.take_of_length_le hLe]

/- Bytes of one order are the other's, reversed. -/
theorem toBytes_ofBytes_reverse
    {size : Nat}
    (hOther : peer ≠ order)
    {bytes : List UInt8}
    (hLength : bytes.length = size) :
    peer.toBytes (order.ofBytes size bytes.reverse) =
      bytes := by
  have hReversed : bytes.reverse.length = size := by
    rw [List.length_reverse, hLength]
  rw [← ByteOrder.reverse_toBytes hOther.symm,
    order.toBytes_ofBytes hReversed, List.reverse_reverse]

/- Memory for one more number is that number and the rest. -/
theorem length_blocks
    {size count : Nat}
    {bytes : List UInt8}
    (hLength : bytes.length = (count + 1) * size) :
    (bytes.take size).length = size ∧
      (bytes.drop size).length = count * size := by
  rw [Nat.succ_mul] at hLength
  constructor
  · rw [List.length_take]
    omega
  · rw [List.length_drop]
    omega

/- The numbers in some memory save as that memory. -/
theorem flatMap_numbersOf
    {size : Nat}
    (count : Nat)
    {bytes : List UInt8}
    (hLength : bytes.length = count * size) :
    (numbersOf order size count bytes).flatMap
        order.toBytes =
      bytes := by
  induction count generalizing bytes with
  | zero =>
      rw [Nat.zero_mul] at hLength
      rw [List.eq_nil_of_length_eq_zero hLength]
      rfl
  | succ count ih =>
      rcases length_blocks hLength with ⟨hTake, hDrop⟩
      rw [numbersOf, List.flatMap_cons, ih hDrop,
        order.toBytes_ofBytes hTake, List.take_append_drop]

/- As many numbers as were asked for. -/
theorem length_numbersOf
    (size count : Nat)
    (bytes : List UInt8) :
    (numbersOf order size count bytes).length = count := by
  induction count generalizing bytes with
  | zero => rfl
  | succ count ih =>
      rw [numbersOf, List.length_cons, ih]

/- Swapping the numbers in some memory reverses each. -/
theorem flatMap_numbersOf_swapElements
    {size : Nat}
    (hOther : peer ≠ order)
    (count : Nat)
    {bytes : List UInt8}
    (hLength : bytes.length = count * size) :
    (numbersOf order size count
        (swapElements size count bytes)).flatMap
          peer.toBytes =
      bytes := by
  induction count generalizing bytes with
  | zero =>
      rw [Nat.zero_mul] at hLength
      rw [List.eq_nil_of_length_eq_zero hLength]
      rfl
  | succ count ih =>
      rcases length_blocks hLength with ⟨hTake, hDrop⟩
      have hReverse :
          (bytes.take size).reverse.length = size := by
        rw [List.length_reverse, hTake]
      rw [numbersOf, swapElements, List.take_left' hReverse,
        List.drop_left' hReverse, List.flatMap_cons,
        ih hDrop, toBytes_ofBytes_reverse hOther hTake,
        List.take_append_drop]

theorem parses_loadNumber
    (order peer : ByteOrder)
    {size : Nat}
    (hSize : 0 < size) :
    Loader.Parses (source order peer) (Reads order peer)
      (loadNumber order size) peer.toBytes := by
  intro archive object archive' hReads hRest
  have hBinary :
      (archive.loadBinary size (order.toBytes object)).2 =
        some archive' := hRest
  rcases loadBinary_eq_some_iff.mp hBinary with ⟨hLeft, rfl⟩
  have hRead := loadBinary_next size hLeft
  rw [ByteOrder.length_toBytes] at hLeft hRead ⊢
  rw [Nat.div_self hSize] at hRead
  refine ⟨hReads.moved size, ?_⟩
  have hLength := length_next hLeft
  have hBytes :
      peer.toBytes
          (loadNumber order size archive object).object =
        archive.next size := by
    simp only [loadNumber, hRead, hReads.converts]
    by_cases hSame : peer = order
    · subst hSame
      simp only [swaps, ne_eq, not_true_eq_false,
        decide_false, Bool.false_eq_true, if_false]
      exact peer.toBytes_ofBytes hLength
    · simp only [swaps, ne_eq, hSame, not_false_eq_true,
        decide_true, if_true]
      rw [swapElements_reverse hLength]
      exact toBytes_ofBytes_reverse hSame hLength
  rw [hBytes]
  exact hReads.takes_next hLeft

theorem parsesAll_loadData
    (order peer : ByteOrder)
    {size : Nat}
    (hSize : 0 < size) :
    Loader.ParsesAll (source order peer) (Reads order peer)
      (loadData order size) peer.toBytes := by
  intro archive objects archive' hReads hRest
  have hBinary :
      (archive.loadBinary size
          (objects.flatMap order.toBytes)).2 =
        some archive' := hRest
  rcases loadBinary_eq_some_iff.mp hBinary with ⟨hLeft, rfl⟩
  have hRead := loadBinary_next size hLeft
  rw [length_flatMap_toBytes] at hLeft hRead ⊢
  rw [Nat.mul_div_cancel _ hSize] at hRead
  refine
    ⟨hReads.moved _, length_numbersOf size _ _, ?_⟩
  have hLength := length_next hLeft
  have hBytes :
      (loadData order size archive objects).object.flatMap
          peer.toBytes =
        archive.next (objects.length * size) := by
    simp only [loadData, hRead, hReads.converts]
    by_cases hSame : peer = order
    · subst hSame
      simp only [swaps, ne_eq, not_true_eq_false,
        decide_false, Bool.false_eq_true, if_false]
      exact flatMap_numbersOf objects.length hLength
    · simp only [swaps, ne_eq, hSame, not_false_eq_true,
        decide_true, if_true]
      exact flatMap_numbersOf_swapElements hSame
        objects.length hLength
  rw [hBytes]
  exact hReads.takes_next hLeft

theorem parsesAll_loadText (order peer : ByteOrder) :
    Loader.ParsesAll (source order peer) (Reads order peer)
      loadText fun char => [char] := by
  intro archive text archive' hReads hRest
  have hBinary :
      (archive.loadBinary 1 text).2 = some archive' := hRest
  rcases loadBinary_eq_some_iff.mp hBinary with ⟨hLeft, rfl⟩
  have hRead := loadBinary_next 1 hLeft
  simp only [swapElements_one, ite_self] at hRead
  have hObject :
      (loadText archive text).object =
        archive.next text.length := by
    simp only [loadText, hRead, next]
  rw [List.flatMap_singleton', hObject]
  exact ⟨hReads.moved _, length_next hLeft,
    hReads.takes_next hLeft⟩

/- A size that was read is the size that was written. -/
theorem parses_loadSize
    (kind : ArchiveKind)
    (order peer : ByteOrder)
    (archive : InputArchive)
    (count : Nat)
    (archive' : InputArchive)
    (hReads : Reads order peer archive)
    (hSize :
      loadSize kind order archive = some (count, archive')) :
    Reads order peer archive' ∧
      Takes order peer archive (saveSize peer count)
        archive' := by
  have hCount :
      (loadUInt64 order archive 0).2 = some archive' ∧
        count = (loadUInt64 order archive 0).1.toNat := by
    unfold loadSize at hSize
    rcases hLoad : loadUInt64 order archive 0 with
      ⟨size, _ | rest⟩
    · simp [hLoad] at hSize
    · rw [hLoad] at hSize
      simp only [Option.ite_none_right_eq_some] at hSize
      rcases Prod.mk.inj (Option.some.inj hSize.2) with
        ⟨rfl, rfl⟩
      exact ⟨rfl, rfl⟩
  rcases hCount with ⟨hRest, rfl⟩
  have hBinary :
      (archive.loadBinary 8 (order.encode 0)).2 =
        some archive' := hRest
  rcases loadBinary_eq_some_iff.mp hBinary with ⟨hLeft, rfl⟩
  have hRead := loadBinary_next 8 hLeft
  rw [ByteOrder.length_encode] at hLeft hRead ⊢
  refine ⟨hReads.moved 8, ?_⟩
  have hLength := length_next hLeft
  have hBytes :
      saveSize peer (loadUInt64 order archive 0).1.toNat =
        archive.next 8 := by
    simp only [saveSize, UInt64.ofNat_toNat, loadUInt64,
      hRead, hReads.converts]
    by_cases hSame : peer = order
    · subst hSame
      simp only [swaps, ne_eq, not_true_eq_false,
        decide_false, Bool.false_eq_true, if_false]
      exact peer.encode_decode hLength
    · have hReversed :
          (archive.next 8).reverse.length = 8 := by
        rw [List.length_reverse, hLength]
      simp only [swaps, ne_eq, hSame, not_false_eq_true,
        decide_true, if_true, Nat.div_self (Nat.succ_pos 7)]
      rw [swapElements_reverse hLength,
        ← ByteOrder.reverse_encode (Ne.symm hSame)]
      change (order.encode (order.decode
        (archive.next 8).reverse)).reverse = _
      rw [order.encode_decode hReversed,
        List.reverse_reverse]
  rw [hBytes]
  exact hReads.takes_next hLeft

end InputArchive

------------------------------------------------------------
-- Every Type
------------------------------------------------------------

namespace WireType

open InputArchive

variable (kind : ArchiveKind)
variable (order peer : ByteOrder)

theorem parsesAll_loadElements
    (element : WireType)
    (hLoad :
      Loader.Parses (source order peer) (Reads order peer)
        (element.load kind order) (element.save peer)) :
    Loader.ParsesAll (source order peer) (Reads order peer)
      (element.loadElements order (element.load kind order))
      (element.save peer) := by
  have hJoins := joins_source order peer
  cases element with
  | arithmetic type =>
      cases type with
      | bool => exact hLoad.each hJoins
      | number size size_pos =>
          exact parsesAll_loadData order peer size_pos
  | string => exact hLoad.each hJoins
  | vector element => exact hLoad.each hJoins
  | pair first second => exact hLoad.each hJoins
  | unit => exact hLoad.each hJoins

/- A value that was loaded was there as `peer` saves it. -/
theorem parses_load (type : WireType) :
    Loader.Parses (source order peer) (Reads order peer)
      (type.load kind order) (type.save peer) := by
  have hJoins := joins_source order peer
  induction type with
  | arithmetic type =>
      exact parses_loadNumber order peer type.size_pos
  | string =>
      have hParses :=
        (parsesAll_loadText order peer).container hJoins
          (parses_loadSize kind order peer) 0
      simp only [List.flatMap_singleton'] at hParses
      exact hParses
  | vector element ih =>
      exact (parsesAll_loadElements kind order peer element
        ih).container hJoins (parses_loadSize kind order peer)
          element.initial
  | pair first second ihFirst ihSecond =>
      exact ihFirst.andThen hJoins ihSecond
  | unit => exact Loader.parses_unit hJoins

end WireType

------------------------------------------------------------
-- Accepted Frames
------------------------------------------------------------

/- The archive that the constructor leaves over a frame. -/
theorem reads_of_make
    (order : ByteOrder)
    {byte : UInt8}
    {body : List UInt8}
    (hSize : (byte :: body).length < 2 ^ 64) :
    InputArchive.Reads order (frameOrder order byte)
      { bytes := byte :: body
        pos := 1
        total := body.length + 1
        convertEndianness :=
          decide (byte ≠ orderByte order) } where
  total := rfl
  size_lt := hSize
  converts :=
    (InputArchive.swaps_frameOrder order byte).symm

/- The bytes saved for a value are read back as that value. -/
theorem decodeMessage_of_save
    (order : ByteOrder)
    (message : Message)
    (hBacked : message.body.Backed)
    {buffer : Buffer}
    {byte : UInt8}
    {tail : List UInt8}
    {value : message.body.Val}
    (hFrame :
      buffer.bytes =
        byte ::
          (message.body.save (frameOrder order byte) value ++
            tail))
    (object : message.body.Val) :
    decodeMessage .bounded order message buffer object =
      (value, true) := by
  have hSize := buffer.size_lt
  rw [hFrame] at hSize
  have hTakes :
      InputArchive.Takes order (frameOrder order byte)
        _ (message.body.save (frameOrder order byte)
          value) _ :=
    (reads_of_make order hSize).takes (by
      rw [List.drop_succ_cons, List.drop_zero,
        List.take_left])
  rcases WireType.reads_load .bounded order
      (frameOrder order byte) message.body hBacked _ _
      value object hTakes with ⟨hObject, hRest⟩
  simp only [decodeMessage, decode, hFrame,
    InputArchive.make_cons, Load.ofLoader, hObject, hRest,
    List.length_cons, Nat.succ_pos, gt_iff_lt, if_true,
    Option.isSome_some]

/- A machine reads what another encoded for it. -/
theorem decodeMessage_of_encode
    (order : ByteOrder)
    {peer : ByteOrder}
    {message : Message}
    (hBacked : message.body.Backed)
    {value : message.body.Val}
    {buffer : Buffer}
    (hEncode : encode peer message.body value = some buffer)
    (object : message.body.Val) :
    decodeMessage .bounded order message buffer object =
      (value, true) := by
  have hFrame :
      buffer.bytes =
        orderByte peer ::
          (message.body.save
            (frameOrder order (orderByte peer)) value ++
              []) := by
    rw [bytes_of_encode hEncode, frameOrder_orderByte,
      List.append_nil]
  exact decodeMessage_of_save order message hBacked hFrame
    object

/-
  A frame decodes to a value exactly when it starts with the
  bytes saved for the value in the order its first byte
  tells. What follows them is ignored.
-/
theorem decodeMessage_eq_true_iff
    (order : ByteOrder)
    (message : Message)
    (hBacked : message.body.Backed)
    (buffer : Buffer)
    (object value : message.body.Val) :
    decodeMessage .bounded order message buffer object =
        (value, true) ↔
      ∃ byte tail,
        buffer.bytes =
          byte ::
            (message.body.save (frameOrder order byte) value ++
              tail) := by
  constructor
  · intro hAccepted
    have hSize := buffer.size_lt
    unfold decodeMessage decode at hAccepted
    cases hBytes : buffer.bytes with
    | nil => simp [hBytes] at hAccepted
    | cons byte body =>
        rw [hBytes] at hSize
        have hReads := reads_of_make order hSize
        simp only [hBytes, List.length_cons, Nat.succ_pos,
          gt_iff_lt, if_true, InputArchive.make_cons,
          Load.ofLoader, Prod.mk.injEq,
          Option.isSome_iff_exists] at hAccepted
        rcases hAccepted with ⟨rfl, archive', hRest⟩
        have hTakes :=
          (WireType.parses_load .bounded order
            (frameOrder order byte) message.body _ object
            archive' hReads hRest).2
        rcases hTakes.starts with ⟨tail, hStarts⟩
        refine ⟨byte, tail, ?_⟩
        rw [← hStarts]
        rfl
  · rintro ⟨byte, tail, hFrame⟩
    exact decodeMessage_of_save order message hBacked hFrame
      object

/- A frame of a big-endian peer with a byte too many. -/
def trailedFrame : Buffer where
  bytes := numberAndTextFrame.bytes ++ [9]
  size_lt := by decide

theorem decodeMessage_eq_true_iff_trailed :
    ∃ byte tail,
      trailedFrame.bytes =
        byte ::
          (numberAndText.body.save (frameOrder .little byte)
            (258#16, literal "ok", ()) ++ tail) :=
  (decodeMessage_eq_true_iff .little numberAndText
    ⟨trivial, trivial, trivial⟩ trailedFrame
    numberAndText.body.initial
    (258#16, literal "ok", ())).mp (by decide +kernel)

end GrlxRpc
