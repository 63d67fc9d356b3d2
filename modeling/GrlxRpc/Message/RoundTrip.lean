import GrlxRpc.Message.Archive

/-
  What a machine encodes the bounded archive of any machine
  reads back.

  A reader of the other byte order swaps each number, and
  the guard never stands in the way: after a size tag there
  remain at least as many bytes as the container has
  elements.

  Main declarations:
    * `InputArchive.source`
    * `WireType.reads_load`
    * `decodeMessage_encode`
-/

------------------------------------------------------------
-- Swapping
------------------------------------------------------------

namespace GrlxRpc

open InPlace

namespace InputArchive

variable {order peer : ByteOrder}

/- Does a reader of this order swap what `peer` wrote? -/
def swaps (order peer : ByteOrder) : Bool :=
  decide (peer ≠ order)

/- Swapping single bytes changes nothing. -/
theorem swapElements_one
    (count : Nat)
    (bytes : List UInt8) :
    swapElements 1 count bytes = bytes := by
  induction count generalizing bytes with
  | zero => rfl
  | succ count ih =>
      rw [swapElements, ih]
      cases bytes <;> rfl

/- Swapping the numbers of a machine of the other order. -/
theorem swapElements_flatMap
    {size : Nat}
    (hOther : peer ≠ order)
    (numbers : List (BitVec (8 * size))) :
    swapElements size numbers.length
        (numbers.flatMap peer.toBytes) =
      numbers.flatMap order.toBytes := by
  induction numbers with
  | nil => rfl
  | cons number numbers ih =>
      have hLength := peer.length_toBytes number
      rw [List.flatMap_cons, List.flatMap_cons,
        List.length_cons, swapElements,
        List.take_left' hLength, List.drop_left' hLength,
        ByteOrder.reverse_toBytes hOther, ih]

/- The numbers in memory are those that were put there. -/
theorem numbersOf_flatMap
    {size : Nat}
    (numbers : List (BitVec (8 * size))) :
    numbersOf order size numbers.length
        (numbers.flatMap order.toBytes) =
      numbers := by
  induction numbers with
  | nil => rfl
  | cons number numbers ih =>
      have hLength := order.length_toBytes number
      rw [List.flatMap_cons, List.length_cons, numbersOf,
        List.take_left' hLength, List.drop_left' hLength,
        ByteOrder.ofBytes_toBytes, ih]

@[simp] theorem length_flatMap_toBytes
    {size : Nat}
    (numbers : List (BitVec (8 * size))) :
    (numbers.flatMap order.toBytes).length =
      numbers.length * size := by
  simp [List.length_flatMap]

------------------------------------------------------------
-- Reading What Was Written
------------------------------------------------------------

/-
  The unread bytes start with `bytes`, and `archive'` is the
  archive behind them. Both are bounded archives over one
  frame that `peer` wrote.
-/
structure Takes
    (order peer : ByteOrder)
    (archive : InputArchive)
    (bytes : List UInt8)
    (archive' : InputArchive) : Prop where
  total : archive.total = archive.bytes.length
  size_lt : archive.bytes.length < 2 ^ 64
  converts : archive.convertEndianness = swaps order peer
  starts :
    ∃ tail, archive.bytes.drop archive.pos = bytes ++ tail
  moves : archive' = archive.moved bytes.length

namespace Takes

variable {archive archive' : InputArchive}
variable {bytes front back : List UInt8}

theorem append
    (hTakes :
      Takes order peer archive (front ++ back) archive') :
    Takes order peer archive front
        (archive.moved front.length) ∧
      Takes order peer (archive.moved front.length) back
        archive' := by
  rcases hTakes.starts with ⟨tail, hStarts⟩
  have hBack :
      archive.bytes.drop (archive.pos + front.length) =
        back ++ tail := by
    rw [← List.drop_drop, hStarts, List.append_assoc,
      List.drop_left]
  constructor
  · exact
      { total := hTakes.total
        size_lt := hTakes.size_lt
        converts := hTakes.converts
        starts :=
          ⟨back ++ tail, by rw [hStarts, List.append_assoc]⟩
        moves := rfl }
  · exact
      { total := hTakes.total
        size_lt := hTakes.size_lt
        converts := hTakes.converts
        starts := ⟨tail, hBack⟩
        moves := by
          rw [hTakes.moves, List.length_append]
          simp [moved, Nat.add_assoc] }

theorem length_le
    (hTakes : Takes order peer archive bytes archive') :
    bytes.length ≤ archive.left := by
  rcases hTakes.starts with ⟨tail, hStarts⟩
  have hLength := congrArg List.length hStarts
  simp only [List.length_drop, List.length_append] at hLength
  simp only [left]
  omega

/- `loadBinary` over as much memory as was written. -/
theorem loadBinary
    (hTakes : Takes order peer archive bytes archive')
    (dataSize : Nat)
    {data : List UInt8}
    (hData : data.length = bytes.length) :
    archive.loadBinary dataSize data =
      (if swaps order peer then
          swapElements dataSize (bytes.length / dataSize) bytes
        else
          bytes,
        some archive') := by
  rcases hTakes.starts with ⟨tail, hStarts⟩
  have hLeft : data.length ≤ archive.left :=
    hData ▸ hTakes.length_le
  rw [loadBinary_of_le hLeft, hData, hStarts,
    List.take_left, hTakes.converts, hTakes.moves]

end Takes

/- Archives over frames of `peer`, read by `order`. -/
def source
    (order peer : ByteOrder) :
    Source InputArchive UInt8 where
  Takes := Takes order peer
  takes_nil := fun hTakes => hTakes.moves.symm
  takes_append := fun hTakes => ⟨_, hTakes.append⟩

------------------------------------------------------------
-- Loaders Of The Archive
------------------------------------------------------------

theorem reads_loadNumber
    (order peer : ByteOrder)
    {size : Nat}
    (hSize : 0 < size) :
    Loader.Reads (source order peer) (loadNumber order size)
      peer.toBytes := by
  intro archive archive' value object hTakes
  have hData :
      (order.toBytes object).length =
        (peer.toBytes value).length := by simp
  have hRead := hTakes.loadBinary size hData
  rw [ByteOrder.length_toBytes, Nat.div_self hSize] at hRead
  simp only [loadNumber, hRead, and_true]
  by_cases hSame : peer = order
  · simp [swaps, hSame]
  · have hSwap := swapElements_flatMap hSame [value]
    simp only [List.length_singleton, List.flatMap_singleton]
      at hSwap
    simp [swaps, hSame, hSwap]

theorem readsAll_loadData
    (order peer : ByteOrder)
    {size : Nat}
    (hSize : 0 < size) :
    Loader.ReadsAll (source order peer)
      (loadData order size) peer.toBytes := by
  intro archive archive' values objects hLength hTakes
  have hData :
      (objects.flatMap order.toBytes).length =
        (values.flatMap peer.toBytes).length := by
    simp [hLength]
  have hRead := hTakes.loadBinary size hData
  rw [length_flatMap_toBytes,
    Nat.mul_div_cancel _ hSize] at hRead
  simp only [loadData, hRead, hLength, and_true]
  by_cases hSame : peer = order
  · subst hSame
    simpa [swaps] using numbersOf_flatMap values
  · have hSwap := swapElements_flatMap hSame values
    simpa [swaps, hSame, hSwap] using numbersOf_flatMap values

theorem readsAll_loadText (order peer : ByteOrder) :
    Loader.ReadsAll (source order peer) loadText
      fun char => [char] := by
  intro archive archive' text object hLength hTakes
  rw [List.flatMap_singleton'] at hTakes
  have hRead := hTakes.loadBinary 1 hLength
  simp only [swapElements_one, ite_self] at hRead
  simp [loadText, hRead]

/-
  A size tag is read back, and accepted: the elements that
  follow it take a byte each at least.
-/
theorem reads_loadSize
    (kind : ArchiveKind)
    (order peer : ByteOrder)
    {archive archive' : InputArchive}
    {count : Nat}
    {back : List UInt8}
    (hCount : count ≤ back.length)
    (hTakes :
      Takes order peer archive (saveSize peer count ++ back)
        archive') :
    ∃ middle,
      loadSize kind order archive = some (count, middle) ∧
        Takes order peer middle back archive' := by
  rcases hTakes.append with ⟨hTag, hBack⟩
  rw [length_saveSize] at hTag hBack
  refine ⟨archive.moved 8, ?_, hBack⟩
  have hBounds := hBack.length_le
  have hLess : count < 2 ^ 64 := by
    have hSize := hBack.size_lt
    simp only [left] at hBounds
    omega
  have hRead :
      loadUInt64 order archive 0 =
        (UInt64.ofNat count, some (archive.moved 8)) := by
    have hData :
        (order.encode 0).length =
          (saveSize peer count).length := by simp
    have hTagRead := hTag.loadBinary 8 hData
    rw [length_saveSize] at hTagRead
    simp only [loadUInt64, hTagRead]
    by_cases hSame : peer = order
    · simp [swaps, hSame, saveSize]
    · have hSwap :=
        ByteOrder.reverse_encode hSame (UInt64.ofNat count)
      simp [swaps, hSame, saveSize, swapElements,
        List.take_of_length_le, List.drop_eq_nil_of_le, hSwap]
  have hToNat : (UInt64.ofNat count).toNat = count := by
    simpa using Nat.mod_eq_of_lt hLess
  have hAccepts :
      acceptsSize kind (archive.moved 8)
        (UInt64.ofNat count) = true := by
    cases kind with
    | portable => rfl
    | bounded =>
        have hTotal := hBack.total
        have hRemaining :
            count ≤ (archive.moved 8).remainingBytes := by
          simp only [left, remainingBytes] at hBounds ⊢
          rw [hTotal]
          split
          · omega
          · omega
        simp only [acceptsSize, hToNat, Bool.not_eq_true',
          Bool.and_eq_false_iff, decide_eq_false_iff_not]
        right
        omega
  simp only [loadSize, hRead, hAccepts, if_true, hToNat]

end InputArchive

------------------------------------------------------------
-- Every Type
------------------------------------------------------------

namespace WireType

open InputArchive

variable (kind : ArchiveKind)
variable (order peer : ByteOrder)

/- Elements are read back if each of them is. -/
theorem readsAll_loadElements
    (element : WireType)
    (hLoad :
      Loader.Reads (source order peer)
        (element.load kind order) (element.save peer)) :
    Loader.ReadsAll (source order peer)
      (element.loadElements order (element.load kind order))
      (element.save peer) := by
  cases element with
  | arithmetic type =>
      cases type with
      | bool => exact hLoad.each
      | number size size_pos =>
          exact readsAll_loadData order peer size_pos
  | string => exact hLoad.each
  | vector element => exact hLoad.each
  | pair first second => exact hLoad.each
  | unit => exact hLoad.each

/- What `peer` saves for a value is read back as that value. -/
theorem reads_load
    (type : WireType)
    (hBacked : type.Backed) :
    Loader.Reads (source order peer) (type.load kind order)
      (type.save peer) := by
  induction type with
  | arithmetic type =>
      exact reads_loadNumber order peer type.size_pos
  | string =>
      have hReads :=
        (readsAll_loadText order peer).container
          (fun archive archive' text =>
            reads_loadSize kind order peer (by simp))
          0
      simp only [List.flatMap_singleton'] at hReads
      exact hReads
  | vector element ih =>
      apply (readsAll_loadElements kind order peer element
        (ih hBacked.2)).container
      intro archive archive' values
      apply reads_loadSize
      exact length_le_flatMap_save peer hBacked.1 values
  | pair first second ihFirst ihSecond =>
      exact (ihFirst hBacked.1).andThen (ihSecond hBacked.2)
  | unit => exact Loader.reads_unit _

end WireType

------------------------------------------------------------
-- The Round Trip
------------------------------------------------------------

/-
  A message that a machine of either byte order encodes is
  decoded through the bounded archive to the value encoded,
  whatever the object held before.
-/
theorem decodeMessage_encode
    (order peer : ByteOrder)
    (message : Message)
    (hBacked : message.body.Backed)
    (value object : message.body.Val)
    (buffer : Buffer)
    (hEncode : encode peer message.body value = some buffer) :
    decodeMessage .bounded order message buffer object =
      (value, true) := by
  have hBytes := bytes_of_encode hEncode
  have hMake :=
    InputArchive.make_cons order (orderByte peer)
      (message.body.save peer value)
  have hTakes :
      InputArchive.Takes order peer
        { bytes :=
            orderByte peer :: message.body.save peer value
          pos := 1
          total := (message.body.save peer value).length + 1
          convertEndianness :=
            decide (orderByte peer ≠ orderByte order) }
        (message.body.save peer value) _ :=
    { total := rfl
      size_lt := hBytes ▸ buffer.size_lt
      converts := by
        cases order <;> cases peer <;> rfl
      starts := ⟨[], by simp⟩
      moves := rfl }
  rcases WireType.reads_load .bounded order peer message.body
      hBacked _ _ value object hTakes with
    ⟨hObject, hRest⟩
  simp only [decodeMessage, decode, hBytes, hMake,
    Load.ofLoader, hObject, hRest, List.length_cons,
    Nat.succ_pos, gt_iff_lt, if_true, Option.isSome_some]

/- A request with a 16-bit number and a string. -/
def numberAndText : Message :=
  .request [.arithmetic (.number 2 (by decide)), .string]

/- What a big-endian peer sends for 258 and "ok". -/
def numberAndTextFrame : Buffer where
  bytes := [0, 1, 2, 0, 0, 0, 0, 0, 0, 0, 2, 111, 107]
  size_lt := by decide

theorem decodeMessage_encode_numberAndText :
    decodeMessage .bounded .little numberAndText
        numberAndTextFrame numberAndText.body.initial =
      ((258#16, literal "ok", ()), true) :=
  decodeMessage_encode .little .big numberAndText
    ⟨trivial, trivial, trivial⟩ (258#16, literal "ok", ())
    numberAndText.body.initial numberAndTextFrame
    (by decide +kernel)

end GrlxRpc
