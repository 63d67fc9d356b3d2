import GrlxRpc.Wire.Frame

/-
  Decoding a request body into an argument tuple.

  A loader reads one object from the archive in place. It
  may throw at any byte, and then leaves the object as it
  was filled so far.

  Main declarations:
    * `InputArchive` and `InputArchive.loadBinary`
    * `Load` and `Load.andThen`
    * `decode`
-/

------------------------------------------------------------
-- The Bounded Archive
------------------------------------------------------------

namespace GrlxRpc

/- A `bounded_binary_input_archive` over one frame. -/
structure InputArchive where
  bytes : List UInt8
  pos : Nat
  total : Nat
  convertEndianness : Bool
  deriving DecidableEq

/-
  Load an object from an archive. The result is the object
  as the loader left it, and the archive after it, or `none`
  when the loader threw.
-/
abbrev Load (α : Type) :=
  InputArchive → α → α × Option InputArchive

namespace InputArchive

/- Reverse each of `count` elements of `dataSize` bytes. -/
def swapElements
    (dataSize : Nat) :
    Nat → List UInt8 → List UInt8
  | 0, bytes => bytes
  | count + 1, bytes =>
      (bytes.take dataSize).reverse ++
        swapElements dataSize count (bytes.drop dataSize)

/-
  Read over `data`. A short read throws after the bytes that
  were left have already been copied.
-/
def loadBinary
    (archive : InputArchive)
    (dataSize : Nat)
    (data : List UInt8) :
    List UInt8 × Option InputArchive :=
  let read :=
    (archive.bytes.drop archive.pos).take data.length
  let moved :=
    { archive with pos := archive.pos + read.length }
  if read.length = data.length then
    if archive.convertEndianness then
      (swapElements dataSize (data.length / dataSize) read,
        some moved)
    else
      (read, some moved)
  else
    (read ++ data.drop read.length, none)

/-
  The constructor: measure the frame, then consume the byte
  that tells the writer's byte order.
-/
def make
    (order : ByteOrder)
    (bytes : List UInt8) : Option InputArchive :=
  let fresh : InputArchive :=
    { bytes := bytes
      pos := 0
      total := bytes.length
      convertEndianness := false }
  let (streamLittle, archive) := fresh.loadBinary 1 [0]
  archive.map fun archive =>
    { archive with
      convertEndianness :=
        decide
          (streamLittle ≠
            [if order = .little then 1 else 0]) }

/- A 64-bit integer in place. -/
def loadUInt64
    (order : ByteOrder) : Load UInt64 :=
  fun archive value =>
    let (bytes, rest) :=
      archive.loadBinary 8 (order.encode value)
    (order.decode bytes, rest)

end InputArchive

------------------------------------------------------------
-- Argument Tuples
------------------------------------------------------------

namespace Load

/- A tuple without elements. -/
def unit : Load Unit :=
  fun archive value => (value, some archive)

/- `for_each_arg`: the later one only after the earlier. -/
def andThen
    {α β : Type}
    (first : Load α)
    (second : Load β) : Load (α × β) :=
  fun archive value =>
    match first archive value.1 with
    | (a, none) => ((a, value.2), none)
    | (a, some rest) =>
        let (b, rest) := second rest value.2
        ((a, b), rest)

end Load

/-
  `generic_message_encoder::decode` of a request: the request
  object as it was left, and the value returned.
-/
def decode
    {α : Type}
    (order : ByteOrder)
    (load : Load α)
    (buffer : Buffer)
    (request : α) : α × Bool :=
  if buffer.bytes.length > 0 then
    match InputArchive.make order buffer.bytes with
    | none => (request, false)
    | some archive =>
        let (request, rest) := load archive request
        (request, rest.isSome)
  else
    (request, false)

@[simp] theorem decode_empty
    {α : Type}
    (order : ByteOrder)
    (load : Load α)
    (request : α) :
    decode order load Buffer.empty request =
      (request, false) := rfl

end GrlxRpc
