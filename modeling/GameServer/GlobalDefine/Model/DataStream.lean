import GameServer.Common.Wire
/-!
# GlobalDefine — `DataStream`

A vector of bytes to which typed values are pushed at the end and from
which they are popped at the front. The overloads of `pushValue` and
`popValue` are one function here, which takes the type (`Ty`).

An element of a vector is pushed through a constant reference. For a
`DataStream` that is another overload, since `pushValue(DataStream &)`
takes none: it goes to the template for vectors, of `char`, and each
`char` is pushed as an `int`.

Sizes have 32 bits, and a stream has less than `2 ^ 31` bytes: there is
no room for more in the address space, and growing it further fails. An
iterator that leaves the stream is `none`. The overloads for `float` are
left out.
-/

namespace GameServer.GlobalDefine

abbrev DataStream := List UInt8

/-- The types whose `pushValue` and `popValue` are `push` and `pop`. -/
inductive Scalar where
  | unsignedShort
  | int
  | unsignedInt
  | longLong
  | unsignedLongLong
  | unsignedChar
  | bool
  deriving DecidableEq, Repr

@[reducible] def Scalar.Val : Scalar → Type
  | unsignedShort => UInt16
  | int => Int32
  | unsignedInt => UInt32
  | longLong => Int64
  | unsignedLongLong => UInt64
  | unsignedChar => UInt8
  | bool => Bool

/-- How they lie in memory. -/
def Scalar.layout : (k : Scalar) → Layout k.Val
  | unsignedShort => .uint16
  | int => .int32
  | unsignedInt => .uint32
  | longLong => .int64
  | unsignedLongLong => .uint64
  | unsignedChar => .uint8
  | bool => .bool

def Scalar.zero : (k : Scalar) → k.Val
  | unsignedShort => (0 : UInt16)
  | int => (0 : Int32)
  | unsignedInt => (0 : UInt32)
  | longLong => (0 : Int64)
  | unsignedLongLong => (0 : UInt64)
  | unsignedChar => (0 : UInt8)
  | bool => false

/-- The types with a `pushValue` and a `popValue`. -/
inductive Ty where
  | scalar (k : Scalar)
  | unsignedLong
  | string
  | dataStream
  | vector (elem : Ty)
  deriving DecidableEq, Repr

@[reducible] def Ty.Val : Ty → Type
  | scalar k => k.Val
  | unsignedLong => UInt32
  | string => List UInt8
  | dataStream => List UInt8
  | vector elem => List elem.Val

/-- A variable before anything is popped into it. -/
def Ty.initial : (t : Ty) → t.Val
  | scalar k => k.zero
  | unsignedLong => (0 : UInt32)
  | string => ([] : List UInt8)
  | dataStream => ([] : List UInt8)
  | vector _ => []

namespace DataStream

/-! ## Pushing -/

def incSize (s : DataStream) (data : List UInt8) : Option DataStream :=
  if s.length + data.length < 2 ^ 31 then some (s ++ data) else none

def push {α : Type} (L : Layout α) (s : DataStream) (data : α) : Option DataStream :=
  s.incSize (L.toBytes data)

/-- `pushValue` for a `string` and for a `DataStream &`. -/
def pushSized (s : DataStream) (data : List UInt8) : Option DataStream :=
  (push .int32 s (Int32.ofNat data.length)).bind fun s =>
  if data = [] then some s else s.incSize data

/-- `pushValue` for a vector, given that of its elements. -/
def pushVector {α : Type} (pushElem : DataStream → α → Option DataStream) (s : DataStream)
    (data : List α) : Option DataStream :=
  (push .uint32 s (UInt32.ofNat data.length)).bind fun s => data.foldlM pushElem s

/-- `pushValue` for a `char`, which is promoted to `int`. -/
def pushChar (s : DataStream) (c : UInt8) : Option DataStream :=
  push .int32 s c.toInt8.toInt32

/-- `pushValue` as it is resolved for a constant argument. -/
def pushConst : (t : Ty) → DataStream → t.Val → Option DataStream
  | .scalar k => push k.layout
  | .unsignedLong => push .uint32
  | .string => pushSized
  | .dataStream => pushVector pushChar
  | .vector elem => pushVector (pushConst elem)

def pushValue : (t : Ty) → DataStream → t.Val → Option DataStream
  | .dataStream => pushSized
  | t => pushConst t

/-! ## Popping -/

/-- Copying the first `n` bytes out and erasing them. -/
def takeFront (s : DataStream) (n : ℕ) : Option (List UInt8 × DataStream) :=
  if n ≤ s.length then some (s.take n, s.drop n) else none

/-- Assigning the range from `begin()` to `begin() + nSize` and erasing
it. -/
def takeRange (s : DataStream) (nSize : Int32) : Option (List UInt8 × DataStream) :=
  if nSize.toInt < 0 then none else s.takeFront nSize.toInt.toNat

def popString (s : DataStream) (data : List UInt8) : Option (List UInt8 × DataStream) :=
  if s.length < 4 then some (data, s)
  else
    let (nSize, s) := Layout.int32.pop 0 s
    if nSize = 0 then some (data, s) else takeRange s nSize

def popStream (s : DataStream) (value : List UInt8) : Option (List UInt8 × DataStream) :=
  if s.length < 4 then some (value, s)
  else
    let (nSize, s) := Layout.int32.pop 0 s
    if nSize = 0 then some (value, s)
    else if s.length < nSize.toInt then some (value, s)
    else takeRange s nSize

def popUnsignedLong (s : DataStream) (value : UInt32) : UInt32 × DataStream :=
  if s.length ≤ 4 then (value, s) else Layout.uint32.pop 0 s

/-- The loop of `popValue` for a vector: `n` elements are popped and
appended. -/
def popElems {α : Type} (popElem : DataStream → Option (α × DataStream)) :
    ℕ → DataStream → List α → Option (List α × DataStream)
  | 0, s, data => some (data, s)
  | n + 1, s, data => (popElem s).bind fun (tmp, s) => popElems popElem n s (data ++ [tmp])

/-- The size a vector is popped with, and the stream behind it. -/
def popCount (s : DataStream) : UInt32 × DataStream := Layout.uint32.pop 0 s

/-- `popValue`. The variable of an element starts with its initial value,
also where the program leaves it uninitialised. -/
def popValue : (t : Ty) → DataStream → t.Val → Option (t.Val × DataStream)
  | .scalar k, s, value => some (k.layout.pop value s)
  | .unsignedLong, s, value => some (s.popUnsignedLong value)
  | .string, s, data => s.popString data
  | .dataStream, s, value => s.popStream value
  | .vector elem, s, data =>
      popElems (fun s => popValue elem s elem.initial) s.popCount.1.toNat s.popCount.2 data

/-- `popValue` for raw data of `iSize` bytes. -/
def popRaw (s : DataStream) (iSize : ℕ) (value : List UInt8) : Option (List UInt8 × DataStream) :=
  if s.length < iSize then some (value, s) else s.takeFront iSize

/-! ## Sequences of values -/

abbrev Typed := (t : Ty) × t.Val

def pushAll (s : DataStream) (vs : List Typed) : Option DataStream :=
  vs.foldlM (fun s v => pushValue v.1 s v.2) s

/-- Popping values of the given types into fresh variables. -/
def popAll : List Ty → DataStream → Option (List Typed × DataStream)
  | [], s => some ([], s)
  | t :: ts, s =>
      (popValue t s t.initial).bind fun (v, s) =>
      (popAll ts s).map fun (vs, s) => (⟨t, v⟩ :: vs, s)

end DataStream

end GameServer.GlobalDefine
