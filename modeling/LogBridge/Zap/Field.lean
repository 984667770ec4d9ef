import LogBridge.Go.Numeric

/-!
# zap fields

`zapcore.Field` and the public constructors of `go.uber.org/zap` that build one, as the
library defines them: a type tag, a key, and three payload slots, the `int64` slot carrying
booleans, integers, float bits, durations and nanosecond timestamps alike.

`Field.addTo` is zap's own encoding of a field, `Field.AddTo`, reduced to the one thing the
bridge is compared against: whether it returns or panics. Its encoder output is left out.
-/

namespace LogBridge

/-- `zapcore.FieldType`, in declaration order. -/
inductive FieldType where
  | unknownType | arrayMarshalerType | objectMarshalerType | binaryType | boolType
  | byteStringType | complex128Type | complex64Type | durationType | float64Type
  | float32Type | int64Type | int32Type | int16Type | int8Type | stringType | timeType
  | timeFullType | uint64Type | uint32Type | uint16Type | uint8Type | uintptrType
  | reflectType | namespaceType | stringerType | errorType | skipType | inlineMarshalerType
  deriving DecidableEq, Repr, Inhabited

/-- `zapcore.Field`. The `uint8` type codes past the declared ones behave as `unknownType`
in every function of this development, which all fall to their default branch on both. -/
structure Field where
  key : String
  type : FieldType
  integer : BitVec 64
  string : String
  iface : GoValue
  deriving Inhabited

/-- An element of a `[]interface{}` argument list: a `zapcore.Field`, or any other value. -/
inductive Arg where
  | field (f : Field)
  | value (v : GoValue)
  deriving Inhabited

/-- The earliest instant zap stores as `TimeType`: `time.Unix(0, math.MinInt64)`. -/
def minTimeInt64 : GoTime := GoTime.unix (-9223372037) 145224192 (by decide)

/-- The latest instant zap stores as `TimeType`: `time.Unix(0, math.MaxInt64)`. -/
def maxTimeInt64 : GoTime := GoTime.unix 9223372036 854775807 (by decide)

namespace Zap

/-- `zap.Skip`. -/
def skip : Field := ⟨"", .skipType, 0, "", .nil⟩

/-- `zap.String`. -/
def string (key value : String) : Field := ⟨key, .stringType, 0, value, .nil⟩

/-- `zap.Bool`: `1` or `0` in the integer slot. -/
def bool (key : String) (value : Bool) : Field :=
  ⟨key, .boolType, if value then 1 else 0, "", .nil⟩

/-- The integer constructors `zap.Int64` to `zap.Uintptr`: `int64(value)` in the integer slot,
sign-extended for signed kinds and zero-extended for unsigned ones, with the kind's tag. -/
def integer (type : FieldType) (key : String) (value : BitVec 64) : Field :=
  ⟨key, type, value, "", .nil⟩

/-- `zap.Int64`. -/
def int64 (key : String) (value : BitVec 64) : Field := integer .int64Type key value
/-- `zap.Int32`. -/
def int32 (key : String) (value : BitVec 32) : Field :=
  integer .int32Type key (value.signExtend 64)
/-- `zap.Int16`. -/
def int16 (key : String) (value : BitVec 16) : Field :=
  integer .int16Type key (value.signExtend 64)
/-- `zap.Int8`. -/
def int8 (key : String) (value : BitVec 8) : Field := integer .int8Type key (value.signExtend 64)
/-- `zap.Uint64`. -/
def uint64 (key : String) (value : BitVec 64) : Field := integer .uint64Type key value
/-- `zap.Uint32`. -/
def uint32 (key : String) (value : BitVec 32) : Field :=
  integer .uint32Type key (value.setWidth 64)
/-- `zap.Uint16`. -/
def uint16 (key : String) (value : BitVec 16) : Field :=
  integer .uint16Type key (value.setWidth 64)
/-- `zap.Uint8`. -/
def uint8 (key : String) (value : BitVec 8) : Field := integer .uint8Type key (value.setWidth 64)
/-- `zap.Uintptr`, for a 64-bit `uintptr`. -/
def uintptr (key : String) (value : BitVec 64) : Field := integer .uintptrType key value

/-- `zap.Duration`: the nanosecond count in the integer slot. -/
def duration (key : String) (nanos : BitVec 64) : Field := ⟨key, .durationType, nanos, "", .nil⟩

/-- `zap.Float64`: `int64(math.Float64bits(value))`. -/
def float64 (key : String) (bits : BitVec 64) : Field := ⟨key, .float64Type, bits, "", .nil⟩

/-- `zap.Float32`: `int64(math.Float32bits(value))`, the 32 bits zero-extended. -/
def float32 (key : String) (bits : BitVec 32) : Field :=
  ⟨key, .float32Type, bits.setWidth 64, "", .nil⟩

/-- `zap.Complex128`. -/
def complex128 (key : String) (re im : BitVec 64) : Field :=
  ⟨key, .complex128Type, 0, "", .complex128 re im⟩

/-- `zap.Complex64`. -/
def complex64 (key : String) (re im : BitVec 32) : Field :=
  ⟨key, .complex64Type, 0, "", .complex64 re im⟩

/-- `zap.Binary`. -/
def binary (key : String) (value : List UInt8) : Field :=
  ⟨key, .binaryType, 0, "", .bytes value⟩

/-- `zap.ByteString`. -/
def byteString (key : String) (value : List UInt8) : Field :=
  ⟨key, .byteStringType, 0, "", .bytes value⟩

/-- `zap.Time`: nanoseconds in the integer slot and the location in the interface slot when
the instant lies within `int64` nanoseconds of the epoch, the whole `time.Time` otherwise. -/
def time (key : String) (t : GoTime) : Field :=
  if t.before minTimeInt64 || t.after maxTimeInt64 then ⟨key, .timeFullType, 0, "", .time t⟩
  else ⟨key, .timeType, t.unixNano, "", .location "Local"⟩

/-- zap keeps an instant as `TimeType` exactly when its nanosecond count fits an `int64`:
`minTimeInt64` and `maxTimeInt64` are the two ends of that range. -/
theorem time_type_eq_timeType_iff (key : String) (t : GoTime) :
    (time key t).type = .timeType ↔ -2 ^ 63 ≤ t.exactNanos ∧ t.exactNanos < 2 ^ 63 := by
  have low : minTimeInt64.exactNanos = -2 ^ 63 := by decide
  have high : maxTimeInt64.exactNanos = 2 ^ 63 - 1 := by decide
  unfold time
  split <;> simp_all [GoTime.before_eq_true_iff, GoTime.after_eq_true_iff] <;> omega

/-- `zap.Stringer`. -/
def stringer (key : String) (value : GoValue) : Field := ⟨key, .stringerType, 0, "", value⟩

/-- `zap.NamedError`: a nil error gives `zap.Skip()`. -/
def namedError (key : String) : GoValue → Field
  | .nil => skip
  | err => ⟨key, .errorType, 0, "", err⟩

/-- `zap.Error`. -/
def error (err : GoValue) : Field := namedError "error" err

/-- `zap.Array`. -/
def array (key : String) (value : GoValue) : Field := ⟨key, .arrayMarshalerType, 0, "", value⟩

/-- `zap.Object`. -/
def object (key : String) (value : GoValue) : Field :=
  ⟨key, .objectMarshalerType, 0, "", value⟩

/-- `zap.Reflect`. -/
def reflect (key : String) (value : GoValue) : Field := ⟨key, .reflectType, 0, "", value⟩

/-- `zap.Namespace` (a Lean keyword, hence the name). -/
def openNamespace (key : String) : Field := ⟨key, .namespaceType, 0, "", .nil⟩

/-- The marshaler behind `zap.Strings`: one `AppendString` per element, then a nil error. -/
def stringArray (values : List String) : GoValue :=
  .arrayMarshaler "zap.stringArray" (.mk (values.map .string) (.returns .nil))

/-- The field type `zap.Any` picks for an integer kind. -/
def intFieldType : IntKind → FieldType
  | .int | .int64 => .int64Type | .int32 => .int32Type | .int16 => .int16Type
  | .int8 => .int8Type | .uint | .uint64 => .uint64Type | .uint32 => .uint32Type
  | .uint16 => .uint16Type | .uint8 => .uint8Type | .uintptr => .uintptrType

/-- `zap.Any`: the constructor chosen by the value's dynamic type, `zap.Reflect` for the rest.
A `zapcore.Field` passed as a value is only reflected. -/
def any (key : String) : Arg → Field
  | .field _ => reflect key (.other "zapcore.Field")
  | .value v =>
    match v with
    | .objectMarshaler _ _ => object key v
    | .arrayMarshaler _ _ => array key v
    | .bool b => bool key b
    | .complex128 re im => complex128 key re im
    | .complex64 re im => complex64 key re im
    | .float64 bits => float64 key bits
    | .float32 bits => float32 key bits
    | .int kind bits => integer (intFieldType kind) key bits
    | .string s => string key s
    | .strings values => array key (stringArray values)
    | .bytes value => binary key value
    | .time t => time key t
    | .duration nanos => duration key nanos
    | .error _ _ _ => namedError key v
    | .stringer _ _ _ | .location _ => stringer key v
    | .nil | .objectFields _ | .other _ => reflect key v

end Zap

/-- The value a marshaler's method ends with: its error, or its panic. -/
def Outcome.result : Outcome → Except GoPanic GoValue
  | .returns err => .ok err
  | .panics value => .error (.method value)

mutual

/-- A marshaler run against zap's own encoder: nested marshalers run in turn, a panic
propagates, and the returned error is the result. -/
def ArrayMarshaler.zapRun : ArrayMarshaler → Except GoPanic GoValue
  | .mk appends outcome => do
    ArrayAppend.zapRunAll appends
    outcome.result

/-- The calls of a marshaler, in order. -/
def ArrayAppend.zapRunAll : List ArrayAppend → Except GoPanic Unit
  | [] => .ok ()
  | a :: rest => do
    ArrayAppend.zapRun a
    ArrayAppend.zapRunAll rest

/-- One encoder call: only the nested marshalers can panic. -/
def ArrayAppend.zapRun : ArrayAppend → Except GoPanic Unit
  | .array m => do
    let _ ← m.zapRun
    pure ()
  | .object (.mk outcome) => do
    let _ ← outcome.result
    pure ()
  | _ => .ok ()

end

/-- `err.Error()` on the error a marshaler returned, as `Field.AddTo` calls it when the error
is not nil. -/
def reportError : GoValue → Except GoPanic Unit
  | .nil => .ok ()
  | err => do
    let _ ← err.callError
    pure ()

/-- zap's `Field.AddTo`, reduced to whether it returns. Each type assertion it makes on the
interface slot panics on a value of another type; `encodeStringer` and `encodeError`
recover every panic of the `String` and `Error` calls they make; an unknown type panics. -/
def Field.addTo (f : Field) : Except GoPanic Unit :=
  match f.type, f.iface with
  | .arrayMarshalerType, .arrayMarshaler _ m => do reportError (← m.zapRun)
  | .arrayMarshalerType, v => .error (v.conversionPanic "zapcore.ArrayMarshaler")
  | .objectMarshalerType, .objectMarshaler _ (.mk outcome)
  | .inlineMarshalerType, .objectMarshaler _ (.mk outcome) => do reportError (← outcome.result)
  | .objectMarshalerType, v | .inlineMarshalerType, v =>
    .error (v.conversionPanic "zapcore.ObjectMarshaler")
  | .binaryType, .bytes _ | .byteStringType, .bytes _ => .ok ()
  | .binaryType, v | .byteStringType, v => .error (v.conversionPanic "[]uint8")
  | .complex128Type, .complex128 _ _ => .ok ()
  | .complex128Type, v => .error (v.conversionPanic "complex128")
  | .complex64Type, .complex64 _ _ => .ok ()
  | .complex64Type, v => .error (v.conversionPanic "complex64")
  | .timeType, .nil | .timeType, .location _ => .ok ()
  | .timeType, v => .error (v.conversionPanic "*time.Location")
  | .timeFullType, .time _ => .ok ()
  | .timeFullType, v => .error (v.conversionPanic "time.Time")
  | .errorType, .error _ _ _ => .ok ()
  | .errorType, v => .error (v.conversionPanic "error")
  | .unknownType, _ => .error (.value "unknown field type")
  | _, _ => .ok ()

mutual

/-- A marshaler run by zap panics only with the panic of a marshaler's own method. -/
theorem ArrayMarshaler.zapRun_error : ∀ {m : ArrayMarshaler} {p : GoPanic},
    m.zapRun = .error p → ∃ value, p = .method value
  | .mk appends outcome, p, ran => by
    unfold ArrayMarshaler.zapRun at ran
    cases calls : ArrayAppend.zapRunAll appends with
    | error q =>
      rw [calls] at ran
      cases ran
      exact ArrayAppend.zapRunAll_error calls
    | ok =>
      rw [calls] at ran
      cases outcome with
      | returns => cases ran
      | panics value => cases ran; exact ⟨value, rfl⟩

/-- The calls of a marshaler panic only with a nested marshaler's panic. -/
theorem ArrayAppend.zapRunAll_error : ∀ {appends : List ArrayAppend} {p : GoPanic},
    ArrayAppend.zapRunAll appends = .error p → ∃ value, p = .method value
  | [], _, ran => by cases ran
  | a :: rest, p, ran => by
    unfold ArrayAppend.zapRunAll at ran
    cases call : ArrayAppend.zapRun a with
    | error q =>
      rw [call] at ran
      cases ran
      exact ArrayAppend.zapRun_error call
    | ok =>
      rw [call] at ran
      exact ArrayAppend.zapRunAll_error ran

/-- One call panics only when it runs a nested marshaler that does. -/
theorem ArrayAppend.zapRun_error : ∀ {a : ArrayAppend} {p : GoPanic},
    ArrayAppend.zapRun a = .error p → ∃ value, p = .method value
  | .array m, p, ran => by
    unfold ArrayAppend.zapRun at ran
    cases nested : m.zapRun with
    | error q =>
      rw [nested] at ran
      cases ran
      exact ArrayMarshaler.zapRun_error nested
    | ok => rw [nested] at ran; cases ran
  | .object (.mk outcome), p, ran => by
    cases outcome with
    | returns => cases ran
    | panics value => cases ran; exact ⟨value, rfl⟩
  | .bool _, _, ran | .byteString _, _, ran | .complex128 _ _, _, ran | .complex64 _ _, _, ran
  | .duration _, _, ran | .float64 _, _, ran | .float32 _, _, ran | .int _ _, _, ran
  | .string _, _, ran | .time _, _, ran | .reflected _, _, ran => by cases ran

end

/-- A marshaler that only appends strings never panics. -/
theorem ArrayAppend.zapRunAll_map_string (values : List String) :
    ArrayAppend.zapRunAll (values.map .string) = .ok () := by
  induction values with
  | nil => rfl
  | cons v rest inductionHypothesis => exact inductionHypothesis

end LogBridge
