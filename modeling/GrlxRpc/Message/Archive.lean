import GrlxRpc.Message.WireType

/-
  Loading messages from an input archive.

  The bounded archive and cereal's portable one read the same
  bytes and swap them alike. The bounded one also checks each
  size tag before the container is resized. A container too
  large to be resized would have more elements than the
  archive has bytes, so where the source throws at the
  resize the model throws at the elements.

  Main declarations:
    * `ArchiveKind` and `InputArchive.loadSize`
    * `WireType.load`
    * `decodeMessage` and `resizes`
-/

------------------------------------------------------------
-- Size Tags
------------------------------------------------------------

namespace GrlxRpc

open InPlace

inductive ArchiveKind
  | bounded
  | portable
  deriving DecidableEq, Repr

namespace InputArchive

/- `bounded()` -/
def bounded (archive : InputArchive) : Bool :=
  decide (0 < archive.total)

/- `remaining_bytes()` -/
def remainingBytes (archive : InputArchive) : Nat :=
  if archive.pos < archive.total then
    archive.total - archive.pos
  else
    0

/-
  Does the archive accept a size that it has just read? No
  frame is so long that `remaining_bytes() + 64` wraps.
-/
def acceptsSize
    (kind : ArchiveKind)
    (archive : InputArchive)
    (size : UInt64) : Bool :=
  match kind with
  | .portable => true
  | .bounded =>
      !(archive.bounded &&
        decide (archive.remainingBytes + 64 < size.toNat))

/- Load a `SizeTag`. -/
def loadSize
    (kind : ArchiveKind)
    (order : ByteOrder)
    (archive : InputArchive) : Option (Nat × InputArchive) :=
  match loadUInt64 order archive 0 with
  | (_, none) => none
  | (size, some rest) =>
      if acceptsSize kind rest size then
        some (size.toNat, rest)
      else
        none

------------------------------------------------------------
-- Numbers And Binary Data
------------------------------------------------------------

/- A number in place. -/
def loadNumber
    (order : ByteOrder)
    (size : Nat) : Loader InputArchive (BitVec (8 * size)) :=
  fun archive number =>
    let (bytes, rest) :=
      archive.loadBinary size (order.toBytes number)
    ⟨order.ofBytes size bytes, [], rest⟩

/- The numbers that these bytes hold. -/
def numbersOf
    (order : ByteOrder)
    (size : Nat) :
    Nat → List UInt8 → List (BitVec (8 * size))
  | 0, _ => []
  | count + 1, bytes =>
      order.ofBytes size (bytes.take size) ::
        numbersOf order size count (bytes.drop size)

/- `BinaryData`: the memory of all numbers at once. -/
def loadData
    (order : ByteOrder)
    (size : Nat) :
    Loader InputArchive (List (BitVec (8 * size))) :=
  fun archive numbers =>
    let (bytes, rest) :=
      archive.loadBinary size (numbers.flatMap order.toBytes)
    ⟨numbersOf order size numbers.length bytes, [], rest⟩

/- `BinaryData` of characters. -/
def loadText : Loader InputArchive StdString :=
  fun archive text =>
    let (bytes, rest) := archive.loadBinary 1 text
    ⟨bytes, [], rest⟩

end InputArchive

------------------------------------------------------------
-- Messages
------------------------------------------------------------

namespace WireType

/-
  The elements of a vector: numbers all at once, anything
  else one after the other. `std::vector<bool>` has no
  numbers in memory.
-/
def loadElements
    (order : ByteOrder) :
    (element : WireType) →
      Loader InputArchive element.Val →
        Loader InputArchive (List element.Val)
  | arithmetic (.number size _), _ =>
      InputArchive.loadData order size
  | arithmetic .bool, load => load.each
  | string, load => load.each
  | vector _, load => load.each
  | pair _ _, load => load.each
  | unit, load => load.each

/- Load a value in place. -/
def load
    (kind : ArchiveKind)
    (order : ByteOrder) :
    (type : WireType) → Loader InputArchive type.Val
  | arithmetic type => InputArchive.loadNumber order type.size
  | string =>
      Loader.container (InputArchive.loadSize kind order) 0
        InputArchive.loadText
  | vector element =>
      Loader.container (InputArchive.loadSize kind order)
        element.initial
        (element.loadElements order (element.load kind order))
  | pair first second =>
      (first.load kind order).andThen
        (second.load kind order)
  | unit => Loader.unit

end WireType

/- A loader without the record of its resizes. -/
def Load.ofLoader
    {α : Type}
    (load : Loader InputArchive α) : Load α :=
  fun archive object =>
    ((load archive object).object, (load archive object).rest)

/- `generic_message_encoder::decode` through an archive. -/
def decodeMessage
    (kind : ArchiveKind)
    (order : ByteOrder)
    (message : Message)
    (buffer : Buffer)
    (object : message.body.Val) : message.body.Val × Bool :=
  decode order (.ofLoader (message.body.load kind order))
    buffer object

/-
  The element counts to which containers are resized while
  the bounded archive decodes the frame.
-/
def resizes
    (order : ByteOrder)
    (message : Message)
    (buffer : Buffer)
    (object : message.body.Val) : List Nat :=
  match InputArchive.make order buffer.bytes with
  | none => []
  | some archive =>
      (message.body.load .bounded order archive
        object).resized

------------------------------------------------------------
-- Reading Bytes
------------------------------------------------------------

namespace InputArchive

/- What `sgetn` can still give. -/
def left (archive : InputArchive) : Nat :=
  archive.bytes.length - archive.pos

def moved
    (archive : InputArchive)
    (count : Nat) : InputArchive :=
  { archive with pos := archive.pos + count }

variable {archive archive' : InputArchive}
variable {dataSize : Nat}
variable {data : List UInt8}

/- A read that the archive can satisfy. -/
theorem loadBinary_of_le
    (hLeft : data.length ≤ archive.left) :
    archive.loadBinary dataSize data =
      (if archive.convertEndianness then
          swapElements dataSize (data.length / dataSize)
            ((archive.bytes.drop archive.pos).take
              data.length)
        else
          (archive.bytes.drop archive.pos).take data.length,
        some (archive.moved data.length)) := by
  have hRead :
      ((archive.bytes.drop archive.pos).take
        data.length).length = data.length := by
    simp only [List.length_take, List.length_drop]
    simp only [left] at hLeft
    omega
  simp only [loadBinary, hRead, if_true, moved]
  cases archive.convertEndianness <;> rfl

theorem loadBinary_of_lt
    (hLeft : archive.left < data.length) :
    (archive.loadBinary dataSize data).2 = none := by
  have hRead :
      ((archive.bytes.drop archive.pos).take
        data.length).length ≠ data.length := by
    simp only [List.length_take, List.length_drop]
    simp only [left] at hLeft
    omega
  simp only [loadBinary, hRead, if_false]

/- A read succeeds when there are bytes enough. -/
theorem loadBinary_eq_some_iff :
    (archive.loadBinary dataSize data).2 = some archive' ↔
      data.length ≤ archive.left ∧
        archive' = archive.moved data.length := by
  by_cases hLeft : data.length ≤ archive.left
  · rw [loadBinary_of_le hLeft]
    simp [hLeft, eq_comm]
  · rw [loadBinary_of_lt (Nat.lt_of_not_le hLeft)]
    simp [hLeft]

/- The archive that the constructor leaves over a frame. -/
theorem make_cons
    (order : ByteOrder)
    (byte : UInt8)
    (body : List UInt8) :
    make order (byte :: body) =
      some
        { bytes := byte :: body
          pos := 1
          total := body.length + 1
          convertEndianness :=
            decide (byte ≠ orderByte order) } := by
  unfold make loadBinary orderByte
  cases order with
  | little => simp
  | big => simp

end InputArchive

end GrlxRpc
