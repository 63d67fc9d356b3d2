import GrlxRpc.Lib.Word
import GrlxRpc.Lib.Framing

/-
  Frames on the wire: a header of five 64-bit words in host
  byte order, then `MSG_SIZE` body bytes.

  Main declarations:
    * `Buffer`
    * `MsgType`
    * `Header` and `Header.ofBytes_toBytes`
    * `frameHeader`
    * `headerCode`
-/

------------------------------------------------------------
-- Buffers
------------------------------------------------------------

namespace GrlxRpc

/- A `std::string`: any bytes. -/
abbrev StdString := List UInt8

/- The bytes of a string literal of the source. -/
def literal (text : String) : StdString :=
  text.toUTF8.toList

/- A `std::vector<char>`: its size fits a `std::size_t`. -/
structure Buffer where
  bytes : List UInt8
  size_lt : bytes.length < 2 ^ 64
  deriving DecidableEq

namespace Buffer

def empty : Buffer := ⟨[], by decide⟩

def size (buffer : Buffer) : UInt64 :=
  UInt64.ofNat buffer.bytes.length

@[simp] theorem size_toNat
    (buffer : Buffer) :
    buffer.size.toNat = buffer.bytes.length := by
  simpa [size] using Nat.mod_eq_of_lt buffer.size_lt

@[simp] theorem size_empty :
    empty.size = 0 := rfl

@[simp] theorem bytes_empty :
    empty.bytes = [] := rfl

/- The first `count` bytes of a stream. -/
def ofStream
    (stream : List UInt8)
    (count : UInt64) : Buffer where
  bytes := stream.take count.toNat
  size_lt := by
    have hTake := List.length_take_le count.toNat stream
    have hCount := count.toNat_lt
    omega

end Buffer

------------------------------------------------------------
-- Message Types
------------------------------------------------------------

inductive MsgType
  | nop
  | request
  | response
  | notification
  | error
  | ping
  | pong
  deriving DecidableEq, Repr

namespace MsgType

/- The enumerator's value. -/
def code : MsgType → UInt64
  | nop => 0
  | request => 1
  | response => 2
  | notification => 3
  | error => 4
  | ping => 5
  | pong => 6

def ofCode? (value : UInt64) : Option MsgType :=
  if value = 0 then some nop
  else if value = 1 then some request
  else if value = 2 then some response
  else if value = 3 then some notification
  else if value = 4 then some error
  else if value = 5 then some ping
  else if value = 6 then some pong
  else none

/- The type as a `MSG_TYPE` word: in the high half. -/
def field (type : MsgType) : UInt64 :=
  type.code <<< 32

@[simp] theorem ofCode?_field
    (type : MsgType) :
    ofCode? (type.field >>> 32) = some type := by
  cases type <;> decide

/- Frames the reader answers or drops without a body. -/
def isKeepalive : MsgType → Bool
  | nop | ping | pong => true
  | request | response | notification | error => false

end MsgType

------------------------------------------------------------
-- Headers
------------------------------------------------------------

def magicHeaderNumber : UInt64 := 0xBADC0FFEE

/- The words of a `header_type`, in index order. -/
structure Header where
  magic : UInt64
  msgSize : UInt64
  msgType : UInt64
  callId : UInt64
  userToken : UInt64
  deriving DecidableEq, Repr

namespace Header

/- `msg_header.size() * sizeof(header_type::value_type)` -/
def size : Nat := 40

def toBytes
    (order : ByteOrder)
    (header : Header) : List UInt8 :=
  order.encode header.magic ++
    (order.encode header.msgSize ++
      (order.encode header.msgType ++
        (order.encode header.callId ++
          order.encode header.userToken)))

/- The `index`-th word of a header in memory. -/
def wordAt
    (order : ByteOrder)
    (bytes : List UInt8)
    (index : Nat) : UInt64 :=
  order.decode ((bytes.drop (8 * index)).take 8)

def ofBytes
    (order : ByteOrder)
    (bytes : List UInt8) : Header where
  magic := wordAt order bytes 0
  msgSize := wordAt order bytes 1
  msgType := wordAt order bytes 2
  callId := wordAt order bytes 3
  userToken := wordAt order bytes 4

@[simp] theorem length_toBytes
    (order : ByteOrder)
    (header : Header) :
    (header.toBytes order).length = size := by
  simp [toBytes, size]

/- Dropping a whole number of words from eight-byte words. -/
theorem take_drop_words
    {first rest : List UInt8}
    (hLength : first.length = 8) :
    (first ++ rest).take 8 = first ∧
      (first ++ rest).drop 8 = rest := by
  constructor
  · rw [List.take_append_of_le_length (by omega),
      List.take_of_length_le (by omega)]
  · rw [List.drop_append_of_le_length (by omega),
      List.drop_of_length_le (by omega), List.nil_append]

@[simp] theorem ofBytes_toBytes
    (order : ByteOrder)
    (header : Header) :
    ofBytes order (header.toBytes order) = header := by
  have hDrop :
      ∀ (bytes : List UInt8) (index : Nat),
        bytes.drop (8 * (index + 1)) =
          (bytes.drop 8).drop (8 * index) := by
    intro bytes index
    rw [List.drop_drop, Nat.mul_succ, Nat.add_comm]
  have hWord :
      ∀ (word : UInt64) (rest : List UInt8),
        (order.encode word ++ rest).take 8 =
            order.encode word ∧
          (order.encode word ++ rest).drop 8 = rest :=
    fun word rest =>
      take_drop_words (ByteOrder.length_encode order word)
  have hLast :
      (order.encode header.userToken).take 8 =
        order.encode header.userToken :=
    List.take_of_length_le (by simp)
  simp [ofBytes, wordAt, toBytes, hWord, hLast,
    hDrop _ 1, hDrop _ 2, hDrop _ 3]

theorem toBytes_ofBytes
    (order : ByteOrder)
    {bytes : List UInt8}
    (hLength : bytes.length = size) :
    (ofBytes order bytes).toBytes order = bytes := by
  have hSize : bytes.length = 40 := hLength
  have hWord :
      ∀ index, index < 5 →
        order.encode (wordAt order bytes index) =
          (bytes.drop (8 * index)).take 8 := by
    intro index hIndex
    refine order.encode_decode ?_
    rw [List.length_take, List.length_drop]
    omega
  have hSplit :
      ∀ count,
        (bytes.drop count).take 8 ++ bytes.drop (count + 8) =
          bytes.drop count := by
    intro count
    rw [← List.drop_drop, List.take_append_drop]
  have hLast :
      (bytes.drop 32).take 8 = bytes.drop 32 := by
    refine List.take_of_length_le ?_
    rw [List.length_drop]
    omega
  simp only [ofBytes, toBytes, hWord, Nat.reduceMul,
    Nat.reduceLT, hLast, hSplit, Nat.mul_zero, List.drop_zero]
  exact List.take_append_drop 8 bytes

theorem toBytes_injective
    (order : ByteOrder)
    (a b : Header)
    (hEq : a.toBytes order = b.toBytes order) :
    a = b := by
  rw [← ofBytes_toBytes order a, hEq, ofBytes_toBytes]

/- `static_cast<msg_type>(msg_header[MSG_TYPE_IDX] >> 32)` -/
def incomingType (header : Header) : Option MsgType :=
  MsgType.ofCode? (header.msgType >>> 32)

end Header

/-
  The header that every producer fills in the same way: its
  message type, call id and token, and the body's size.
-/
def frameHeader
    (type : MsgType)
    (callId userToken : UInt64)
    (body : Buffer) : Header where
  magic := magicHeaderNumber
  msgSize := body.size
  msgType := type.field
  callId := callId
  userToken := userToken

@[simp] theorem incomingType_frameHeader
    (type : MsgType)
    (callId userToken : UInt64)
    (body : Buffer) :
    (frameHeader type callId userToken body).incomingType =
      some type := by
  simp [Header.incomingType, frameHeader]

------------------------------------------------------------
-- The Stream As Blocks
------------------------------------------------------------

/- Headers delimit their bodies by `MSG_SIZE`. -/
def headerCode
    (order : ByteOrder) : Framing.Code Header UInt8 where
  bytes := Header.toBytes order
  size := Header.size
  length_bytes := Header.length_toBytes order
  size_pos := by decide
  injective := Header.toBytes_injective order
  tailLength := fun header => header.msgSize.toNat

/- A header with its body. -/
abbrev Frame := Framing.Code.Block Header UInt8

/- The bytes of a sequence of frames. -/
abbrev wire
    (order : ByteOrder)
    (frames : List Frame) : List UInt8 :=
  (headerCode order).flat frames

theorem wire_append
    (order : ByteOrder)
    (first second : List Frame) :
    wire order (first ++ second) =
      wire order first ++ wire order second :=
  (headerCode order).flat_append first second

theorem wire_concat
    (order : ByteOrder)
    (frames : List Frame)
    (frame : Frame) :
    wire order (frames ++ [frame]) =
      wire order frames ++
        (frame.1.toBytes order ++ frame.2) := by
  rw [wire_append, wire, wire, Framing.Code.flat_cons,
    Framing.Code.flat_nil, List.append_nil]
  rfl

/- A longer run of frames holds the next frame in full. -/
theorem length_wire_take
    (order : ByteOrder)
    {frames : List Frame}
    {k m : Nat}
    {frame : Frame}
    (hFrame : frames[k]? = some frame)
    (hLt : k < m) :
    (wire order (frames.take k)).length + Header.size +
        frame.2.length ≤
      (wire order (frames.take m)).length := by
  have hSucc := (headerCode order).offset_succ hFrame
  have hLe :
      (headerCode order).offset frames (k + 1) ≤
        (headerCode order).offset frames m :=
    (headerCode order).offset_le frames hLt
  rw [hSucc] at hLe
  exact hLe

end GrlxRpc
