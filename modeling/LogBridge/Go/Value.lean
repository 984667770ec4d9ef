import Mathlib.Data.BitVec

/-!
# Go values seen by the logging bridge

The bridge receives `interface{}` values from its callers: the `Interface` slot of a
`zapcore.Field`, the elements of a sugared key/value list, the operands of a templated
call. This module fixes what the development knows about such a value: its dynamic type,
the payload the bridge and zap read out of it, and, for the user types among them, what
their methods do when called (`String`, `Error`, `MarshalLogArray`), recorded as data.

A method that panics is recorded with the value it panics with. Nothing here is
formatted: rendering a value as text is left to `GoLib`.
-/

namespace LogBridge

/-- The sized and unsized Go integer types zap stores in a field's `Integer` slot. -/
inductive IntKind where
  | int | int8 | int16 | int32 | int64
  | uint | uint8 | uint16 | uint32 | uint64 | uintptr
  deriving DecidableEq, Repr

/-- Go's name for an integer type, as `reflect.Type.String` prints it. -/
def IntKind.typeName : IntKind → String
  | .int => "int" | .int8 => "int8" | .int16 => "int16" | .int32 => "int32"
  | .int64 => "int64" | .uint => "uint" | .uint8 => "uint8" | .uint16 => "uint16"
  | .uint32 => "uint32" | .uint64 => "uint64" | .uintptr => "uintptr"

/-- Seconds from year 1 to the Unix epoch: `time.unixToInternal`. -/
def unixToInternal : Int := 62135596800

/-- A `time.Time`, as the `time` package stores it without a monotonic reading: seconds
since January 1, year 1 (`Time.sec`, an `int64`) and a nanosecond offset below one second.
The location is left out: no function of the bridge reads it. -/
structure GoTime where
  sec : BitVec 64
  nsec : Nat
  nsec_lt : nsec < 1000000000
  deriving DecidableEq, Repr

namespace GoTime

/-- `time.Unix(sec, nsec)` after its normalisation of `nsec` into `[0, 1e9)`. -/
def unix (sec : Int) (nsec : Nat) (nsec_lt : nsec < 1000000000) : GoTime :=
  ⟨BitVec.ofInt 64 (sec + unixToInternal), nsec, nsec_lt⟩

/-- `Time.UnixNano`: `unixSec()*1e9 + nsec()`, evaluated in wrapping `int64` arithmetic. -/
def unixNano (t : GoTime) : BitVec 64 :=
  (t.sec + BitVec.ofInt 64 (-unixToInternal)) * 1000000000#64 + BitVec.ofNat 64 t.nsec

/-- The exact number of nanoseconds from the Unix epoch to `t`, with no overflow. -/
def exactNanos (t : GoTime) : Int :=
  (t.sec.toInt - unixToInternal) * 1000000000 + t.nsec

/-- `Time.Before`: an earlier second, or the same second and an earlier nanosecond. -/
def before (t u : GoTime) : Bool :=
  decide (t.sec.toInt < u.sec.toInt) ||
    (decide (t.sec.toInt = u.sec.toInt) && decide (t.nsec < u.nsec))

/-- `Time.After`, the mirror of `before`. -/
def after (t u : GoTime) : Bool :=
  decide (u.sec.toInt < t.sec.toInt) ||
    (decide (t.sec.toInt = u.sec.toInt) && decide (u.nsec < t.nsec))

end GoTime

/-- How a Go panic starts, as far as this development distinguishes them. -/
inductive GoPanic where
  /-- A failed type assertion `x.(T)`: the dynamic type found and the type wanted. -/
  | interfaceConversion (found wanted : String)
  /-- A method of a caller's value panicked with this value. -/
  | method (value : String)
  /-- A nil pointer or nil interface was dereferenced. -/
  | nilDereference
  /-- The code called `panic` itself, with a value described by this text. -/
  | value (description : String)
  deriving DecidableEq, Repr

/-- A computation that may panic returns `b` exactly when its first part returns and the rest
returns `b` from there; every proof about a sequence of Go calls peels it with this. -/
theorem Except.bind_eq_ok {ε α β : Type} {x : Except ε α} {f : α → Except ε β} {b : β} :
    x >>= f = .ok b ↔ ∃ a, x = .ok a ∧ f a = .ok b := by
  cases x <;> simp [bind, Except.bind]

mutual

/-- A value stored in a Go `interface{}`. The first constructors are the predeclared and
`time` types the bridge and zap switch on; `stringer`, `error` and the marshalers are
values of caller-defined types, described by their type name and by what their methods do. -/
inductive GoValue where
  /-- The untyped nil interface. -/
  | nil
  | bool (value : Bool)
  /-- An integer of the given type, as the 64-bit pattern of its value: sign-extended for the
  signed kinds, zero-extended for the unsigned ones. -/
  | int (kind : IntKind) (bits : BitVec 64)
  | float32 (bits : BitVec 32)
  | float64 (bits : BitVec 64)
  | complex64 (re im : BitVec 32)
  | complex128 (re im : BitVec 64)
  | string (value : String)
  /-- A `[]byte`. -/
  | bytes (value : List UInt8)
  /-- A `[]string`. -/
  | strings (value : List String)
  /-- A `time.Duration`, in nanoseconds. -/
  | duration (nanos : BitVec 64)
  | time (value : GoTime)
  /-- A `*time.Location`. -/
  | location (name : String)
  /-- A value of a caller type with a `String` method: whether it is a nil pointer, and
  what `String()` returns (`.ok`) or panics with (`.error`). -/
  | stringer (typeName : String) (nilPointer : Bool) (result : Except String String)
  /-- A value of a caller type implementing `error`, described as `stringer` is. -/
  | error (typeName : String) (nilPointer : Bool) (result : Except String String)
  /-- A caller's `zapcore.ArrayMarshaler`. -/
  | arrayMarshaler (typeName : String) (marshaler : ArrayMarshaler)
  /-- A caller's `zapcore.ObjectMarshaler`. -/
  | objectMarshaler (typeName : String) (marshaler : ObjectMarshaler)
  /-- The `map[string]interface{}` a fresh `MapObjectEncoder` holds after `marshaler`'s
  `MarshalLogObject` has run on it. -/
  | objectFields (marshaler : ObjectMarshaler)
  /-- Any other value; the bridge only passes it on. -/
  | other (typeName : String)

/-- A caller's `MarshalLogArray`, as the sequence of encoder calls it makes and how it ends. -/
inductive ArrayMarshaler where
  | mk (appends : List ArrayAppend) (outcome : Outcome)

/-- One call a marshaler makes on the `zapcore.ArrayEncoder` it is given. The integer
methods (`AppendInt` to `AppendUintptr`) are one constructor, told apart by their kind. -/
inductive ArrayAppend where
  | bool (value : Bool)
  | byteString (value : List UInt8)
  | complex128 (re im : BitVec 64)
  | complex64 (re im : BitVec 32)
  | duration (nanos : BitVec 64)
  | float64 (bits : BitVec 64)
  | float32 (bits : BitVec 32)
  | int (kind : IntKind) (bits : BitVec 64)
  | string (value : String)
  | time (value : GoTime)
  | array (marshaler : ArrayMarshaler)
  | object (marshaler : ObjectMarshaler)
  | reflected (value : GoValue)

/-- A caller's `MarshalLogObject`, described by how it ends. -/
inductive ObjectMarshaler where
  | mk (outcome : Outcome)

/-- How a marshaler's method ends: it returns an error value (`.nil` for a nil error), or
it panics. -/
inductive Outcome where
  | returns (err : GoValue)
  | panics (value : String)

end

instance : Inhabited GoValue := ⟨.nil⟩

namespace GoValue

/-- `reflect.TypeOf(v).String()` for a non-nil value. -/
def typeName : GoValue → String
  | .nil => "<nil>"
  | .bool _ => "bool"
  | .int kind _ => kind.typeName
  | .float32 _ => "float32"
  | .float64 _ => "float64"
  | .complex64 _ _ => "complex64"
  | .complex128 _ _ => "complex128"
  | .string _ => "string"
  | .bytes _ => "[]uint8"
  | .strings _ => "[]string"
  | .duration _ => "time.Duration"
  | .time _ => "time.Time"
  | .location _ => "*time.Location"
  | .stringer name _ _ | .error name _ _ | .arrayMarshaler name _
  | .objectMarshaler name _ | .other name => name
  | .objectFields _ => "map[string]interface {}"

/-- The panic of a failed assertion of `v` to the type `wanted`. -/
def conversionPanic (v : GoValue) (wanted : String) : GoPanic :=
  .interfaceConversion (match v with | .nil => "nil" | v => v.typeName) wanted

/-- `v.(error)` followed by a call of `Error()`: the message, or the panic. -/
def callError : GoValue → Except GoPanic String
  | .error _ _ (.ok message) => .ok message
  | .error _ _ (.error value) => .error (.method value)
  | v => .error (v.conversionPanic "error")

/-- Whether `v` implements `error`, the check `v.(error)` makes with `, ok`. -/
def isError : GoValue → Bool
  | .error _ _ _ => true
  | _ => false

end GoValue

end LogBridge
