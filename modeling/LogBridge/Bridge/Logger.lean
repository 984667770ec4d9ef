import LogBridge.Go.Slice
import LogBridge.Bridge.AppendField

/-!
# The bridge's logger and its strict calls

`Logger` wraps two zap loggers with the bridge's configuration; its `extraFields` is a slice
header into the store of backing arrays, since `Clone` and `WithOptions` copy the header.
`logFields` is the core of every strict call: it appends the extra fields, converts the
fields to a span event when the level and the span allow it, and appends the trace
identifiers for the sink.

Everything a call reads from its environment apart from the span, the frame the runtime
reports and the stack it prints, comes in as a `Runtime`.
-/

namespace LogBridge

/-- The bridge's `Logger`. -/
structure Logger where
  /-- The embedded `*zap.Logger`. -/
  logger : ZapLogger
  /-- The same logger with one more frame of caller skip; strict calls write through it. -/
  skipCaller : ZapLogger
  withTraceID : Bool
  minLevel : Level
  errorStatusLevel : Level
  caller : Bool
  stackTrace : Bool
  extraFields : Slice
  callerDepth : Int

/-- The bridge's `Option`s, one constructor per constructor function of the source. -/
inductive LoggerOption where
  | withMinLevel (lvl : Level)
  | withErrorStatusLevel (lvl : Level)
  | withCaller (enabled : Bool)
  | withCallerDepth (depth : Int)
  | withStackTrace (enabled : Bool)
  | withExtraFields (fields : List Field)
  | withTraceIDField (enabled : Bool)

section Construction

variable (rule : GrowthRule)

/-- Run one option on a logger; only `WithExtraFields` touches the store, by `append`. -/
def LoggerOption.apply (σ : Store Field) (l : Logger) : LoggerOption → Logger × Store Field
  | .withMinLevel lvl => ({ l with minLevel := lvl }, σ)
  | .withErrorStatusLevel lvl => ({ l with errorStatusLevel := lvl }, σ)
  | .withCaller enabled => ({ l with caller := enabled }, σ)
  | .withCallerDepth depth => ({ l with callerDepth := depth }, σ)
  | .withStackTrace enabled => ({ l with stackTrace := enabled }, σ)
  | .withExtraFields fields =>
    let (extraFields, σ) := l.extraFields.append rule σ fields
    ({ l with extraFields }, σ)
  | .withTraceIDField enabled => ({ l with withTraceID := enabled }, σ)

/-- The options of one call, in order. -/
def LoggerOption.applyAll (σ : Store Field) (l : Logger) :
    List LoggerOption → Logger × Store Field
  | [] => (l, σ)
  | opt :: rest =>
    let (l, σ) := opt.apply rule σ l
    applyAll σ l rest

/-- `NewOtel`: warnings and above go to the span, errors set its status, the caller is
recorded, and no extra field is set before the options run. `AddCallerSkip(1)` changes only
the caller skip, which is not modelled, so `skipCaller` has the logger's core. -/
def newOtel (σ : Store Field) (z : ZapLogger) (opts : List LoggerOption) : Logger × Store Field :=
  LoggerOption.applyAll rule σ
    { logger := z, skipCaller := z, withTraceID := false, minLevel := warnLevel,
      errorStatusLevel := errorLevel, caller := true, stackTrace := false,
      extraFields := .nil, callerDepth := 0 } opts

/-- `Logger.Clone`: a copy of the struct, header included, then the options. -/
def Logger.clone (σ : Store Field) (l : Logger) (opts : List LoggerOption) :
    Logger × Store Field :=
  LoggerOption.applyAll rule σ l opts

/-- `Logger.WithOptions`: the options run once against a throwaway `fieldExtractorCore` to
collect the fields of `zap.Fields` options, then on both zap loggers; the collected fields are
appended to a copy of the header. -/
def Logger.withOptions (σ : Store Field) (l : Logger) (opts : List ZapOption) :
    Except GoPanic (Logger × Store Field) := do
  let (_, extracted) ← ZapOption.applyAll .fieldExtractor [] opts
  let logger ← l.logger.withOptions opts
  let skipCaller ← l.skipCaller.withOptions opts
  let (extraFields, σ) := l.extraFields.append rule σ extracted
  pure ({ l with logger, skipCaller, extraFields }, σ)

end Construction

/-- The logger the package starts with, `NewOtel(zap.NewNop())`. -/
def nopOtel : Logger := (newOtel fieldGrowth ⟨[]⟩ (.new .nop) []).1

/-- A stack frame as `runtime.CallersFrames` reports it. -/
structure Frame where
  function : String
  file : String
  line : Int
  pc : Nat

/-- What a call reads from the Go runtime: the frame `runtime.Callers` finds at a given skip
(`none` when the stack is shallower), and what `runtime.Stack` writes into 2048 bytes. -/
structure Runtime where
  callers : Int → Option Frame
  stack : String

/-- A runtime that finds no caller frame and prints an empty stack, for concrete runs. -/
def Runtime.noFrames : Runtime := ⟨fun _ => none, ""⟩

/-- `runtimeCaller`: function, file, line, and whether the frame has a program counter. -/
def runtimeCaller (rt : Runtime) (skip : Int) : String × String × Int × Bool :=
  match rt.callers (skip + 1) with
  | none => ("", "", 0, false)
  | some frame => (frame.function, frame.file, frame.line, frame.pc != 0)

/-- The caller attributes `log` adds for a resolved frame. -/
def callerAttrs : String × String × Int × Bool → List Attr
  | (_, _, _, false) => []
  | (fn, file, line, true) =>
    (if fn ≠ "" then [⟨"code.function", .string fn⟩] else []) ++
    (if file ≠ "" then [⟨"code.filepath", .string file⟩,
      ⟨"code.lineno", .int64 (BitVec.ofInt 64 line)⟩] else [])

/-- `Logger.log`: the severity and message attributes, the caller and the stack when enabled,
all in one event named `log`; then the error status at `errorStatusLevel` and above. -/
def Logger.log (l : Logger) (rt : Runtime) (lvl : Level) (msg : String) (attrs : List Attr) :
    List SpanCall :=
  let attrs := attrs ++
    [⟨"log.severity", .string (levelString lvl)⟩, ⟨"log.message", .string msg⟩]
  let attrs := if l.caller then attrs ++ callerAttrs (runtimeCaller rt (4 + l.callerDepth))
    else attrs
  let attrs := if l.stackTrace then attrs ++ [⟨"exception.stacktrace", .string rt.stack⟩]
    else attrs
  .addEvent "log" attrs :: (if l.errorStatusLevel ≤ lvl then [.setStatus .error msg] else [])

/-- The event `log` adds holds the call's attributes, then the severity and the message, then
what the caller and stack options add; at `errorStatusLevel` and above the status follows,
described by the message. -/
theorem Logger.log_eq (l : Logger) (rt : Runtime) (lvl : Level) (msg : String)
    (attrs : List Attr) :
    ∃ extra, l.log rt lvl msg attrs =
      .addEvent "log" (attrs ++ [⟨"log.severity", .string (levelString lvl)⟩,
        ⟨"log.message", .string msg⟩] ++ extra) ::
        if l.errorStatusLevel ≤ lvl then [.setStatus .error msg] else [] := by
  refine ⟨(if l.caller then callerAttrs (runtimeCaller rt (4 + l.callerDepth)) else []) ++
    if l.stackTrace then [⟨"exception.stacktrace", .string rt.stack⟩] else [], ?_⟩
  unfold Logger.log
  split_ifs <;> simp

/-- `strconv.NumError`'s two causes. -/
inductive NumError where
  | errSyntax
  | errRange
  deriving DecidableEq, Repr

/-- A digit's value in bases up to 36, letters in either case; `none` for any other byte. -/
def digitValue (c : Char) : Option Nat :=
  if '0' ≤ c ∧ c ≤ '9' then some (c.toNat - '0'.toNat)
  else if 'a' ≤ c ∧ c ≤ 'z' then some (c.toNat - 'a'.toNat + 10)
  else if 'A' ≤ c ∧ c ≤ 'Z' then some (c.toNat - 'A'.toNat + 10)
  else none

/-- The digit loop of `strconv.ParseUint` for 64 bits: a syntax error on a byte that is not a
digit below `base`, a range error once `n` reaches the cutoff or `n*base + d` exceeds
`2^64 - 1`. -/
def parseUintDigits (base : Nat) (n : Nat) : List Char → Except NumError Nat
  | [] => pure n
  | c :: rest =>
    match digitValue c with
    | none => .error .errSyntax
    | some d =>
      if base ≤ d then .error .errSyntax
      else if (2 ^ 64 - 1) / base + 1 ≤ n then .error .errRange
      else if 2 ^ 64 - 1 < n * base + d then .error .errRange
      else parseUintDigits base (n * base + d) rest

/-- `strconv.ParseUint(s, base, 64)` for a base from 2 to 36: an empty string is a syntax
error. -/
def parseUint (base : Nat) (s : String) : Except NumError Nat :=
  if s.isEmpty then .error .errSyntax else parseUintDigits base 0 s.toList

/-- `convertTraceID`: the last 16 hex digits as a decimal `uint64`, or the empty string for an
id shorter than 16 or one that does not parse. The ids it is given are ASCII, where Go's byte
lengths and slices are character counts. -/
def convertTraceID (id : String) : String :=
  if id.length < 16 then ""
  else
    let id := if id.length > 16 then id.drop 16 else id
    match parseUint 16 id with
    | .ok value => toString value
    | .error _ => ""

/-- The four fields `logFields` appends for the sink when trace ids are on. -/
def traceFields (sc : SpanContext) : List Field :=
  [Zap.string "traceId" sc.traceID.string, Zap.string "trace_id" (convertTraceID sc.traceID.string),
    Zap.string "spanId" sc.spanID.string, Zap.string "span_id" (convertTraceID sc.spanID.string)]

/-- `logFields`: the call's fields followed by the extra fields; below `minLevel` or on a span
that does not record, nothing more. Otherwise an event from every field but namespaces, then
the trace fields for the sink when trace ids are on and the span has one. -/
def Logger.logFields (lib : GoLib) (σ : Store Field) (l : Logger) (span : Span) (rt : Runtime)
    (lvl : Level) (msg : String) (fields : List Field) :
    Except GoPanic (List Field × List SpanCall) := do
  let fields := if 0 < l.extraFields.len then fields ++ l.extraFields.view σ else fields
  if lvl < l.minLevel then return (fields, [])
  if !span.recording then return (fields, [])
  let attrs ← appendFields lib [] (fields.filter (·.type != .namespaceType))
  let calls := l.log rt lvl msg attrs
  if l.withTraceID && span.context.hasTraceID then
    return (fields ++ traceFields span.context, calls)
  return (fields, calls)

/-- What one log call does: the record its sink writes, if any, its calls on the span, and how
it ends once both are done. -/
structure CallEffect where
  record : Option Record
  spanCalls : List SpanCall
  ending : Ending

/-- `Logger.DebugContext` to `Logger.FatalContext` and `LoggerWithCtx.Debug` to `Fatal`, which
differ only in their level: `logFields`, then the zap call through `skipCaller`. -/
def Logger.logContext (lib : GoLib) (σ : Store Field) (l : Logger) (span : Span) (rt : Runtime)
    (lvl : Level) (msg : String) (fields : List Field) : Except GoPanic CallEffect := do
  let (fields, spanCalls) ← l.logFields lib σ span rt lvl msg fields
  let (record, ending) ← l.skipCaller.write lvl msg fields
  pure ⟨record, spanCalls, ending⟩

/-- The bridge's `SugaredLogger`: the embedded zap sugared logger and its `skipCaller`, both
sugared views of the logger's zap loggers, and `l`, what `Desugar` returns. `l` is the
logger itself, or a pointer to it where pointer identity matters. -/
structure SugaredLogger (α : Type) where
  base : ZapLogger
  skipCaller : ZapLogger
  l : α

/-- `SugaredLogger.Desugar`. -/
def SugaredLogger.desugar {α : Type} (s : SugaredLogger α) : α := s.l

/-- `Logger.Sugar` on the logger `l`, reached through `ref`. -/
def Logger.sugarAt {α : Type} (ref : α) (l : Logger) : SugaredLogger α :=
  ⟨l.logger, l.skipCaller, ref⟩

/-- `Logger.Sugar`. -/
def Logger.sugar (l : Logger) : SugaredLogger Logger := l.sugarAt l

@[simp] theorem Logger.sugar_l (l : Logger) : l.sugar.l = l := rfl

end LogBridge
