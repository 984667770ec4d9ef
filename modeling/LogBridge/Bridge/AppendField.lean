import LogBridge.Zap.Logger

/-!
# Field conversion

`appendField` turns one `zapcore.Field` into span attributes by a switch on its type tag,
and `bufferArrayEncoder` renders a caller's `ArrayMarshaler` to strings for it. Both are
translated case by case from the bridge; a type assertion that fails or a caller's method
that panics makes the conversion panic, as it does in Go, since nothing here recovers.
-/

namespace LogBridge

/-- Go's `string(b)` for a `[]byte`. A Lean string holds only valid UTF-8, so a byte sequence
that is not is read one character per byte, each widened to the code point of its value, where
Go's string keeps the raw bytes: on such input the text differs from Go's. -/
def goString (b : List UInt8) : String :=
  (String.fromUTF8? ⟨b.toArray⟩).getD (String.mk (b.map fun x => Char.ofNat x.toNat))

/-- `f.(fmt.Stringer).String()`: the caller's `String` method, or the `time` types' own. -/
def GoValue.callString (lib : GoLib) : GoValue → Except GoPanic String
  | .stringer _ _ (.ok s) => pure s
  | .stringer _ _ (.error value) => .error (.method value)
  | .time t => pure (lib.timeString t)
  | .duration nanos => pure (lib.durationString nanos)
  | .location name => pure name
  | v => .error (v.conversionPanic "fmt.Stringer")

namespace BufferArrayEncoder

variable (lib : GoLib)

/-- The methods of `bufferArrayEncoder` that append `fmt.Sprintf("%v", v)` to its strings. -/
def appendValue (strings : List String) (v : GoValue) : List String :=
  strings ++ [lib.sprintf "%v" [.value v]]

/-- `AppendBool`. -/
def appendBool (strings : List String) (v : Bool) := appendValue lib strings (.bool v)
/-- `AppendByteString`. -/
def appendByteString (strings : List String) (v : List UInt8) :=
  appendValue lib strings (.bytes v)
/-- `AppendComplex128`. -/
def appendComplex128 (strings : List String) (re im : BitVec 64) :=
  appendValue lib strings (.complex128 re im)
/-- `AppendComplex64`. -/
def appendComplex64 (strings : List String) (re im : BitVec 32) :=
  appendValue lib strings (.complex64 re im)
/-- `AppendDuration`. -/
def appendDuration (strings : List String) (v : BitVec 64) :=
  appendValue lib strings (.duration v)
/-- `AppendFloat64`. -/
def appendFloat64 (strings : List String) (v : BitVec 64) := appendValue lib strings (.float64 v)
/-- `AppendFloat32`. -/
def appendFloat32 (strings : List String) (v : BitVec 32) := appendValue lib strings (.float32 v)
/-- `AppendInt`, `AppendInt64` to `AppendInt8`, `AppendUint` to `AppendUintptr`. -/
def appendInt (strings : List String) (kind : IntKind) (v : BitVec 64) :=
  appendValue lib strings (.int kind v)
/-- `AppendTime`. -/
def appendTime (strings : List String) (v : GoTime) := appendValue lib strings (.time v)
/-- `AppendReflected`, which always returns nil. -/
def appendReflected (strings : List String) (v : GoValue) := appendValue lib strings v

/-- `AppendString`: the string itself, not its `%v` rendering. -/
def appendString (strings : List String) (v : String) : List String := strings ++ [v]

end BufferArrayEncoder

open BufferArrayEncoder in
mutual

/-- `MarshalLogArray` on a fresh `bufferArrayEncoder`: the strings it holds afterwards and the
error returned, or the panic. `AppendArray` renders a nested marshaler's strings with `%v`;
`AppendObject` renders the map a `MapObjectEncoder` collects. -/
def ArrayMarshaler.bufferRun (lib : GoLib) :
    ArrayMarshaler → Except GoPanic (List String × GoValue)
  | .mk appends outcome => do
    let strings ← ArrayAppend.bufferRunAll lib [] appends
    let err ← outcome.result
    pure (strings, err)

/-- The calls of a marshaler on the encoder, in order, from the strings already held. -/
def ArrayAppend.bufferRunAll (lib : GoLib) (strings : List String) :
    List ArrayAppend → Except GoPanic (List String)
  | [] => pure strings
  | a :: rest => do
    let strings ← ArrayAppend.bufferRun lib strings a
    ArrayAppend.bufferRunAll lib strings rest

/-- One call on the encoder. -/
def ArrayAppend.bufferRun (lib : GoLib) (strings : List String) :
    ArrayAppend → Except GoPanic (List String)
  | .bool v => pure (appendBool lib strings v)
  | .byteString v => pure (appendByteString lib strings v)
  | .complex128 re im => pure (appendComplex128 lib strings re im)
  | .complex64 re im => pure (appendComplex64 lib strings re im)
  | .duration v => pure (appendDuration lib strings v)
  | .float64 v => pure (appendFloat64 lib strings v)
  | .float32 v => pure (appendFloat32 lib strings v)
  | .int kind v => pure (appendInt lib strings kind v)
  | .string v => pure (appendString strings v)
  | .time v => pure (appendTime lib strings v)
  | .reflected v => pure (appendReflected lib strings v)
  | .array m => do
    let (nested, _) ← m.bufferRun lib
    pure (appendValue lib strings (.strings nested))
  | .object o =>
    match o with
    | .mk outcome => do
      let _ ← outcome.result
      pure (appendValue lib strings (.objectFields o))

end

/-- `appendField`: the attributes of one field, after `attrs`. -/
def appendField (lib : GoLib) (attrs : List Attr) (f : Field) : Except GoPanic (List Attr) :=
  match f.type with
  | .boolType => pure (attrs ++ [⟨f.key, .bool (f.integer == 1)⟩])
  | .int8Type | .int16Type | .int32Type | .int64Type | .uint32Type | .uint8Type | .uint16Type
  | .uint64Type | .uintptrType => pure (attrs ++ [⟨f.key, .int64 f.integer⟩])
  | .float32Type | .float64Type => pure (attrs ++ [⟨f.key, .float64 f.integer⟩])
  | .complex64Type =>
    match f.iface with
    | .complex64 re im => pure (attrs ++ [⟨f.key, .string (lib.formatComplex64 re im)⟩])
    | v => .error (v.conversionPanic "complex64")
  | .complex128Type =>
    match f.iface with
    | .complex128 re im => pure (attrs ++ [⟨f.key, .string (lib.formatComplex128 re im)⟩])
    | v => .error (v.conversionPanic "complex128")
  | .stringType => pure (attrs ++ [⟨f.key, .string f.string⟩])
  | .binaryType | .byteStringType =>
    match f.iface with
    | .bytes b => pure (attrs ++ [⟨f.key, .string (goString b)⟩])
    | v => .error (v.conversionPanic "[]uint8")
  | .stringerType => do
    let s ← f.iface.callString lib
    pure (attrs ++ [⟨f.key, .string s⟩])
  | .durationType | .timeType => pure (attrs ++ [⟨f.key, .int64 f.integer⟩])
  | .timeFullType =>
    match f.iface with
    | .time t => pure (attrs ++ [⟨f.key, .int64 t.unixNano⟩])
    | v => .error (v.conversionPanic "time.Time")
  | .errorType => do
    let message ← f.iface.callError
    pure (attrs ++ [⟨"exception.type", .string f.iface.typeName⟩,
      ⟨"exception.message", .string message⟩])
  | .reflectType => pure (attrs ++ [lib.otelutilAttribute f.key (.value f.iface)])
  | .skipType => pure attrs
  | .arrayMarshalerType =>
    match f.iface with
    | .arrayMarshaler _ m => do
      match ← m.bufferRun lib with
      | (strings, .nil) => pure (attrs ++ [⟨f.key, .stringSlice strings⟩])
      | (_, err) => pure (attrs ++ [⟨f.key ++ "_error",
          .string (lib.sprintf "otelzap: unable to marshal array: %v" [.value err])⟩])
    | v => .error (v.conversionPanic "zapcore.ArrayMarshaler")
  | .objectMarshalerType =>
    pure (attrs ++ [⟨f.key ++ "_error",
      .string "otelzap: zapcore.ObjectMarshalerType is not implemented"⟩])
  | _ => pure (attrs ++ [⟨f.key ++ "_error",
      .string (lib.sprintf "otelzap: unknown field type: %v" [.field f])⟩])

/-- The loop of `logFields` over its fields: `appendField` on each, in order. -/
def appendFields (lib : GoLib) (attrs : List Attr) (fields : List Field) :
    Except GoPanic (List Attr) :=
  fields.foldlM (appendField lib) attrs

/-- `Level.CapitalString`. -/
def capitalString (lvl : Level) : String :=
  if lvl = debugLevel then "DEBUG" else if lvl = infoLevel then "INFO"
  else if lvl = warnLevel then "WARN" else if lvl = errorLevel then "ERROR"
  else if lvl = dPanicLevel then "DPANIC" else if lvl = panicLevel then "PANIC"
  else if lvl = fatalLevel then "FATAL" else "LEVEL(" ++ toString lvl ++ ")"

/-- `levelString`: `DPanic` is reported as `PANIC`. -/
def levelString (lvl : Level) : String :=
  if lvl = dPanicLevel then "PANIC" else capitalString lvl

end LogBridge
