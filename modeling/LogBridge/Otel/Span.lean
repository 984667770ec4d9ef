import LogBridge.Zap.Field

/-!
# The OpenTelemetry side: attributes and the active span

The bridge writes `attribute.KeyValue`s and calls two methods of the span it finds in the
request context, `AddEvent` and `SetStatus`; it reads the span's `IsRecording` and its span
context. A span is therefore modelled by what is read from it, and a call's effect on it by
the list of calls the bridge makes.
-/

namespace LogBridge

/-- The value of an `attribute.KeyValue`, one constructor per `attribute.Type` the bridge
and `otelutil` produce; `invalid` is the zero `KeyValue`'s. -/
inductive AttrValue where
  | invalid
  | bool (value : Bool)
  | int64 (value : BitVec 64)
  /-- A `FLOAT64` attribute, by the bits of its `float64`. -/
  | float64 (bits : BitVec 64)
  | string (value : String)
  | boolSlice (values : List Bool)
  | int64Slice (values : List (BitVec 64))
  | float64Slice (values : List (BitVec 64))
  | stringSlice (values : List String)
  deriving DecidableEq, Repr

/-- `attribute.KeyValue`. -/
structure Attr where
  key : String
  value : AttrValue
  deriving DecidableEq, Repr

/-- The lowercase hexadecimal digit of a nibble. -/
def hexDigit (n : Nat) : Char :=
  if n < 10 then Char.ofNat (48 + n) else Char.ofNat (87 + n)

/-- `hex.EncodeToString`: two lowercase digits per byte, high nibble first. -/
def hexEncode (bytes : List UInt8) : String :=
  String.mk (bytes.flatMap fun b => [hexDigit (b.toNat / 16), hexDigit (b.toNat % 16)])

/-- `trace.TraceID`, sixteen bytes. -/
structure TraceID where
  bytes : List UInt8
  length_eq : bytes.length = 16
  deriving DecidableEq, Repr

/-- `trace.SpanID`, eight bytes. -/
structure SpanID where
  bytes : List UInt8
  length_eq : bytes.length = 8
  deriving DecidableEq, Repr

/-- `TraceID.String`. -/
def TraceID.string (t : TraceID) : String := hexEncode t.bytes

/-- `SpanID.String`. -/
def SpanID.string (s : SpanID) : String := hexEncode s.bytes

/-- `trace.SpanContext`, reduced to the two identifiers the bridge reads. -/
structure SpanContext where
  traceID : TraceID
  spanID : SpanID
  deriving DecidableEq, Repr

/-- `SpanContext.HasTraceID`: the trace id is not all zeros. -/
def SpanContext.hasTraceID (sc : SpanContext) : Bool := sc.traceID.bytes.any (· != 0)

/-- The span `trace.SpanFromContext` returns for a call's context: whether it records, and
its span context. A context with no span yields a non-recording one. -/
structure Span where
  recording : Bool
  context : SpanContext
  deriving DecidableEq, Repr

/-- A recording span with trace id `0…01` and span id `0…02`, for concrete runs. -/
def Span.sample : Span :=
  ⟨true,
    ⟨⟨List.replicate 15 0 ++ [1], by decide⟩, ⟨List.replicate 7 0 ++ [2], by decide⟩⟩⟩

/-- `codes.Code`. -/
inductive StatusCode where
  | unset | error | ok
  deriving DecidableEq, Repr

/-- A call the bridge makes on the span. -/
inductive SpanCall where
  | addEvent (name : String) (attrs : List Attr)
  | setStatus (code : StatusCode) (description : String)
  deriving DecidableEq, Repr

end LogBridge
