import LogBridge.Bridge.Logger
import LogBridge.Bridge.ArrayEncoder

/-!
# What a strict call makes of its fields

`logFields` turns a strict call's fields, the extra fields after them, into the attributes of
one span event by `appendField`, and hands the zap sink the same fields with the trace
identifiers after them. This module states what it returns, in one equation, and what the
conversion gives for the field types whose payload it decodes from the `Integer` slot: floats
and times.

The conversion makes the type assertions zap's `AddTo` makes, but recovers from none of the
panics `AddTo` recovers from; where the two part is stated here too. On a field built by
`zap.Any` the assertions always hold: such a conversion panics only where a method of the
caller's value does.

The keys of the event follow the fields: each field adds its own key, except an error, which
adds `exception.type` and `exception.message` whatever its key, a skipped field, which adds
none, and the fields the conversion reports instead of rendering (an array whose
`MarshalLogArray` fails, an object marshaler, a type it has no branch for), which add the key
followed by `_error`.
-/

namespace LogBridge

/-- A panic in the conversion of one field ends the loop over the fields. -/
theorem appendFields_cons_of_error {lib : GoLib} {attrs : List Attr} {f : Field}
    {rest : List Field} {p : GoPanic} (panicked : appendField lib attrs f = .error p) :
    appendFields lib attrs (f :: rest) = .error p := by
  simp only [appendFields, List.foldlM_cons, panicked]
  rfl

/-- `appendField` only appends: what it adds does not depend on the attributes before it. -/
theorem appendField_eq_map (lib : GoLib) (attrs : List Attr) (f : Field) :
    appendField lib attrs f = (appendField lib [] f).map (attrs ++ ·) := by
  obtain ⟨key, type, integer, string, iface⟩ := f
  cases type <;> simp only [appendField] <;> (try split) <;>
    simp [Except.map, bind, Except.bind, pure, Except.pure]
  all_goals split <;> (try split) <;> simp_all

/-- The loop of `logFields` over its fields converts each field on its own: the attributes are,
in order, the conversions of the fields taken one at a time, and the first conversion that
panics ends the loop with its panic. -/
theorem appendFields_eq_mapM (lib : GoLib) (attrs : List Attr) (fs : List Field) :
    appendFields lib attrs fs =
      (fs.mapM (appendField lib [])).map fun parts => attrs ++ parts.flatten := by
  unfold appendFields
  induction fs generalizing attrs with
  | nil =>
    show Except.ok attrs = Except.ok (attrs ++ [])
    rw [List.append_nil]
  | cons f rest inductionHypothesis =>
    rw [List.foldlM_cons, List.mapM_cons, appendField_eq_map]
    cases appendField lib [] f with
    | error p => rfl
    | ok part =>
      simp only [Except.map, bind, Except.bind, inductionHypothesis]
      cases rest.mapM (appendField lib []) <;> simp [pure, Except.pure]

/-- The keys `appendField` gives the attributes of a field it converts: none for a skipped
field; the two exception keys for an error, whatever the field's key; the key followed by
`_error` where it reports the field instead of rendering it, for an array whose
`MarshalLogArray` returns an error, an object marshaler, and a type it has no branch for; the
field's key for every other type. -/
def FieldKeys (f : Field) (keys : List String) : Prop :=
  match f.type, f.iface with
  | .skipType, _ => keys = []
  | .errorType, _ => keys = ["exception.type", "exception.message"]
  | .arrayMarshalerType, .arrayMarshaler _ m =>
    match m.zapRun with
    | .ok .nil => keys = [f.key]
    | _ => keys = [f.key ++ "_error"]
  | .objectMarshalerType, _ | .unknownType, _ | .namespaceType, _ | .inlineMarshalerType, _ =>
    keys = [f.key ++ "_error"]
  | _, _ => keys = [f.key]

/-- Whenever `appendField` returns, the keys it adds are those `FieldKeys` gives. -/
theorem appendField_keys {lib : GoLib} {f : Field} {part : List Attr}
    (converted : appendField lib [] f = .ok part) : FieldKeys f (part.map (·.key)) := by
  obtain ⟨key, type, integer, string, iface⟩ := f
  cases type
  case arrayMarshalerType =>
    cases iface <;> simp only [appendField] at converted <;> try cases converted
    rename_i m
    rw [ArrayMarshaler.bufferRun_eq] at converted
    simp only [FieldKeys]
    cases ran : m.zapRun with
    | error => rw [ran] at converted; cases converted
    | ok err => rw [ran] at converted; cases err <;> cases converted <;> rfl
  all_goals
    simp only [appendField, FieldKeys] at converted ⊢
    (try split at converted) <;>
      (try obtain ⟨_, -, converted⟩ := Except.bind_eq_ok.1 converted) <;>
      cases converted
    all_goals simp [lib.otelutilAttribute_key]

/-- Whenever the loop over fields returns, the keys it adds are, in order, those `FieldKeys`
gives each field. -/
theorem appendFields_keys {lib : GoLib} {attrs out : List Attr} {fs : List Field}
    (converted : appendFields lib attrs fs = .ok out) :
    ∃ keys, List.Forall₂ FieldKeys fs keys ∧
      out.map (·.key) = attrs.map (·.key) ++ keys.flatten := by
  unfold appendFields at converted
  induction fs generalizing attrs with
  | nil =>
    cases converted
    exact ⟨[], .nil, by simp⟩
  | cons f rest inductionHypothesis =>
    rw [List.foldlM_cons] at converted
    obtain ⟨attrs₁, step, converted⟩ := Except.bind_eq_ok.1 converted
    rw [appendField_eq_map] at step
    obtain ⟨part, partEq, rfl⟩ : ∃ part, appendField lib [] f = .ok part ∧ attrs ++ part = attrs₁ := by
      cases partEq : appendField lib [] f with
      | error => rw [partEq] at step; cases step
      | ok part => rw [partEq] at step; exact ⟨part, rfl, Except.ok.inj step⟩
    obtain ⟨keys, fieldKeys, keysEq⟩ := inductionHypothesis converted
    exact ⟨part.map (·.key) :: keys, .cons (appendField_keys partEq) fieldKeys, by simp [keysEq]⟩

/-- `logFields` in one equation: the call's fields followed by the extra fields; below
`minLevel` or on a span that does not record, nothing more; otherwise the event built from the
fields that are not namespaces, and the trace fields for the sink only. -/
theorem Logger.logFields_eq (lib : GoLib) (σ : Store Field) (l : Logger) (span : Span)
    (rt : Runtime) (lvl : Level) (msg : String) (fs : List Field) :
    l.logFields lib σ span rt lvl msg fs =
      if lvl < l.minLevel ∨ span.recording = false then .ok (fs ++ l.extraFields.view σ, [])
      else
        (appendFields lib [] ((fs ++ l.extraFields.view σ).filter (·.type != .namespaceType))).map
          fun attrs =>
            (if l.withTraceID && span.context.hasTraceID then
              fs ++ l.extraFields.view σ ++ traceFields span.context
            else fs ++ l.extraFields.view σ, l.log rt lvl msg attrs) := by
  have withExtra : (if 0 < l.extraFields.len then fs ++ l.extraFields.view σ else fs) =
      fs ++ l.extraFields.view σ := by
    split <;> simp_all [Slice.view]
  unfold Logger.logFields
  dsimp only
  rw [withExtra]
  by_cases below : lvl < l.minLevel
  · simp [below]
    rfl
  cases span.recording
  · simp [below]
    rfl
  cases appendFields lib [] ((fs ++ l.extraFields.view σ).filter (·.type != .namespaceType)) <;>
    simp [below] <;> split <;> rfl

/-- The keys of the event `log` adds: those of the call's attributes, the severity and the
message, then the caller's when the caller option is on and the stack's when that option is. -/
theorem Logger.log_keys (l : Logger) (rt : Runtime) (lvl : Level) (msg : String)
    (attrs : List Attr) :
    ∃ event rest, l.log rt lvl msg attrs = .addEvent "log" event :: rest ∧
      event.map (·.key) = attrs.map (·.key) ++ "log.severity" :: "log.message" ::
        ((if l.caller then (callerAttrs (runtimeCaller rt (4 + l.callerDepth))).map (·.key)
          else []) ++ if l.stackTrace then ["exception.stacktrace"] else []) := by
  refine ⟨_, _, rfl, ?_⟩
  split_ifs <;> simp

/-- Where a strict call adds the span event, the event's keys are, in order: for each of the
call's fields and then each extra field, namespaces apart, the keys `FieldKeys` gives it; then
`log.severity` and `log.message`; then the caller's keys and `exception.stacktrace`, each when
its option is on. -/
theorem logFields_event_keys (lib : GoLib) (σ : Store Field) (l : Logger) (span : Span)
    (rt : Runtime) (lvl : Level) (msg : String) (fs : List Field) {fields : List Field}
    {calls : List SpanCall} (enabled : l.minLevel ≤ lvl) (recording : span.recording = true)
    (returned : l.logFields lib σ span rt lvl msg fs = .ok (fields, calls)) :
    ∃ keys event rest,
      List.Forall₂ FieldKeys ((fs ++ l.extraFields.view σ).filter (·.type != .namespaceType))
        keys ∧
      calls = .addEvent "log" event :: rest ∧
      event.map (·.key) = keys.flatten ++ "log.severity" :: "log.message" ::
        ((if l.caller then (callerAttrs (runtimeCaller rt (4 + l.callerDepth))).map (·.key)
          else []) ++ if l.stackTrace then ["exception.stacktrace"] else []) := by
  rw [Logger.logFields_eq, if_neg (by simp [not_lt.2 enabled, recording])] at returned
  obtain ⟨attrs, converted, ⟨⟩⟩ := Except.bind_eq_ok.1 returned
  obtain ⟨keys, fieldKeys, keysEq⟩ := appendFields_keys converted
  obtain ⟨event, rest, logged, eventKeys⟩ := l.log_keys rt lvl msg attrs
  exact ⟨keys, event, rest, fieldKeys, logged, by simp [eventKeys, keysEq]⟩

/-- The initial logger warning with `zap.NamedError("cause", err)`, `zap.String("user", "x")`
and `zap.Object("o", obj)` on the sample span: the event holds no `cause`, only the exception
keys, then `user` and `o_error`. -/
theorem logFields_event_keys_on_named_error :
    let fs := [Zap.namedError "cause" (.error "*errors.errorString" false (.ok "boom")),
      Zap.string "user" "x", Zap.object "o" (.objectMarshaler "main.obj" (.mk (.returns .nil)))]
    ∃ fields calls, nopOtel.minLevel ≤ warnLevel ∧ Span.sample.recording = true ∧
      nopOtel.logFields GoLib.placeholder ⟨[]⟩ Span.sample Runtime.noFrames warnLevel "m" fs =
        .ok (fields, calls) ∧
      (∃ keys event rest,
        List.Forall₂ FieldKeys ((fs ++ nopOtel.extraFields.view ⟨[]⟩).filter
          (·.type != .namespaceType)) keys ∧
        calls = .addEvent "log" event :: rest ∧
        event.map (·.key) = keys.flatten ++ "log.severity" :: "log.message" ::
          ((if nopOtel.caller then
              (callerAttrs (runtimeCaller Runtime.noFrames (4 + nopOtel.callerDepth))).map (·.key)
            else []) ++ if nopOtel.stackTrace then ["exception.stacktrace"] else [])) ∧
      ∃ event rest, calls = .addEvent "log" event :: rest ∧
        event.map (·.key) = ["exception.type", "exception.message", "user", "o_error",
          "log.severity", "log.message"] := by
  intro fs
  exact ⟨_, _, by decide, rfl, rfl,
    logFields_event_keys GoLib.placeholder ⟨[]⟩ nopOtel Span.sample Runtime.noFrames warnLevel
      "m" fs (by decide) rfl rfl, _, _, rfl, rfl⟩

/-- A `zap.Stringer` of a nil interface, first among a strict call's fields: zap's `AddTo`
recovers from the failed `String` call and returns, but on the traced path the conversion
asserts `f.Interface.(fmt.Stringer)` and the call panics, whatever the logger, the other
fields and the extra fields. -/
theorem logContext_panics_on_nil_stringer (lib : GoLib) (σ : Store Field) (l : Logger)
    (span : Span) (rt : Runtime) (lvl : Level) (msg key : String) (fs : List Field)
    (enabled : l.minLevel ≤ lvl) (recording : span.recording = true) :
    (Zap.stringer key .nil).addTo = .ok () ∧
      l.logContext lib σ span rt lvl msg (Zap.stringer key .nil :: fs) =
        .error (.interfaceConversion "nil" "fmt.Stringer") := by
  refine ⟨rfl, ?_⟩
  have panicked : l.logFields lib σ span rt lvl msg (Zap.stringer key .nil :: fs) =
      .error (.interfaceConversion "nil" "fmt.Stringer") := by
    rw [Logger.logFields_eq, if_neg (by simp [not_lt.2 enabled, recording]), List.cons_append,
      List.filter_cons_of_pos rfl, appendFields_cons_of_error (f := Zap.stringer key .nil) rfl]
    rfl
  simp only [Logger.logContext, panicked]
  rfl

/-- The initial logger warning on the sample span with a nil `Stringer` and no other field. -/
theorem logContext_panics_on_nil_stringer_at_warn :
    nopOtel.minLevel ≤ warnLevel ∧ Span.sample.recording = true ∧
      (Zap.stringer "k" .nil).addTo = .ok () ∧
      nopOtel.logContext GoLib.placeholder ⟨[]⟩ Span.sample Runtime.noFrames warnLevel "m"
          [Zap.stringer "k" .nil] =
        .error (.interfaceConversion "nil" "fmt.Stringer") :=
  ⟨le_refl _, rfl, logContext_panics_on_nil_stringer GoLib.placeholder ⟨[]⟩ nopOtel
    Span.sample Runtime.noFrames warnLevel "m" "k" [] (le_refl _) rfl⟩

/-- A `zap.NamedError` of a nil pointer whose `Error` method panics, first among the fields:
zap's `AddTo` recovers and returns, but on the traced path `logFields` calls `Error()` itself
and panics, so it returns no field list at all. -/
theorem logFields_panics_on_panicking_error (lib : GoLib) (σ : Store Field) (l : Logger)
    (span : Span) (rt : Runtime) (lvl : Level) (msg key typeName description : String)
    (fs : List Field) (enabled : l.minLevel ≤ lvl) (recording : span.recording = true) :
    (Zap.namedError key (.error typeName true (.error description))).addTo = .ok () ∧
      l.logFields lib σ span rt lvl msg
          (Zap.namedError key (.error typeName true (.error description)) :: fs) =
        .error (.method description) := by
  refine ⟨rfl, ?_⟩
  rw [Logger.logFields_eq, if_neg (by simp [not_lt.2 enabled, recording]), List.cons_append,
    List.filter_cons_of_pos rfl,
    appendFields_cons_of_error
      (f := Zap.namedError key (.error typeName true (.error description))) rfl]
  rfl

/-- The initial logger warning on the sample span with a `*MyErr(nil)` whose `Error`
dereferences its receiver. -/
theorem logFields_panics_on_panicking_error_at_warn :
    nopOtel.minLevel ≤ warnLevel ∧ Span.sample.recording = true ∧
      (Zap.namedError "err" (.error "*main.MyErr" true (.error "nil pointer dereference"))).addTo =
        .ok () ∧
      nopOtel.logFields GoLib.placeholder ⟨[]⟩ Span.sample Runtime.noFrames warnLevel "m"
          [Zap.namedError "err" (.error "*main.MyErr" true (.error "nil pointer dereference"))] =
        .error (.method "nil pointer dereference") :=
  ⟨le_refl _, rfl, logFields_panics_on_panicking_error GoLib.placeholder ⟨[]⟩ nopOtel
    Span.sample Runtime.noFrames warnLevel "m" "err" "*main.MyErr" "nil pointer dereference" []
    (le_refl _) rfl⟩

/-- `zap.Float64` and `zap.Float32` converted by `appendField`: both give one `Float64`
attribute of the `Integer` slot's bits. For a `float64` these are its own bits; for a
`float32` they are its 32 bits zero-extended, a binary64 subnormal, which has the `float32`'s
value only for `+0`. -/
theorem appendField_float_bits (lib : GoLib) (attrs : List Attr) (key : String)
    (w : BitVec 64) (v : BitVec 32) :
    appendField lib attrs (Zap.float64 key w) = .ok (attrs ++ [⟨key, .float64 w⟩]) ∧
      appendField lib attrs (Zap.float32 key v) =
        .ok (attrs ++ [⟨key, .float64 (v.setWidth 64)⟩]) ∧
      float64Value (v.setWidth 64) = some ((v.toNat : ℚ) * 2 ^ (-1074 : ℤ)) ∧
      (float64Value (v.setWidth 64) = float32Value v ↔ v = 0) :=
  ⟨rfl, rfl, float64Value_setWidth v,
    by rw [float64Value_setWidth, eq_comm, float32Value_eq_subnormal_iff]⟩

example : float32Value 0x3F800000#32 = some 1 := by norm_num [float32Value, ieeeValue]

/-- `zap.Time` converted by `appendField`: one `Int64` attribute holding `t.UnixNano()`, the
nanosecond count wrapped into `int64`. It is the exact count precisely on the instants zap
stores as `TimeType`; past either end of that range zap stores `TimeFullType`, and the count
the attribute holds is wrapped. -/
theorem appendField_time_unixNano (lib : GoLib) (attrs : List Attr) (key : String)
    (t : GoTime) :
    appendField lib attrs (Zap.time key t) = .ok (attrs ++ [⟨key, .int64 t.unixNano⟩]) ∧
      t.unixNano.toInt = t.exactNanos.bmod (2 ^ 64) ∧
      ((Zap.time key t).type = .timeType ↔ t.unixNano.toInt = t.exactNanos) := by
  refine ⟨?_, t.unixNano_toInt,
    by rw [Zap.time_type_eq_timeType_iff, GoTime.unixNano_toInt_eq_iff]⟩
  unfold Zap.time
  split <;> rfl

/-- One second after zap's latest `TimeType` instant, in the year 2262: the attribute holds
the count less `2^64`, a date in 1677. -/
theorem appendField_time_wraps_after_2262 :
    (∀ lib attrs, appendField lib attrs (Zap.time "k" (GoTime.unix 9223372037 0 (by decide))) =
      .ok (attrs ++ [⟨"k", .int64 (GoTime.unix 9223372037 0 (by decide)).unixNano⟩])) ∧
      (GoTime.unix 9223372037 0 (by decide)).exactNanos = 9223372037000000000 ∧
      (GoTime.unix 9223372037 0 (by decide)).unixNano.toInt = 9223372037000000000 - 2 ^ 64 :=
  ⟨fun _ _ => rfl, by decide, by decide⟩

/-- `appendField` turns `f` into one `Int64` attribute at `key` whose value is `x`. -/
def YieldsInt64 (lib : GoLib) (attrs : List Attr) (key : String) (f : Field) (x : Int) :
    Prop :=
  ∃ w : BitVec 64, appendField lib attrs f = .ok (attrs ++ [⟨key, .int64 w⟩]) ∧ w.toInt = x

/-- Once `appendField` is known to give the `Int64` attribute `w`, it yields `x` exactly when
`w` denotes `x`. -/
theorem yieldsInt64_iff {lib : GoLib} {attrs : List Attr} {key : String} {f : Field}
    {w : BitVec 64} (converted : appendField lib attrs f = .ok (attrs ++ [⟨key, .int64 w⟩]))
    (x : Int) : YieldsInt64 lib attrs key f x ↔ w.toInt = x := by
  refine ⟨fun ⟨w', converted', value⟩ => ?_, fun value => ⟨w, converted, value⟩⟩
  simp only [converted, Except.ok.injEq, List.append_cancel_left_eq, List.cons.injEq,
    Attr.mk.injEq, AttrValue.int64.injEq, true_and, and_true] at converted'
  rw [converted']
  exact value

/-- The values zap keeps in the `Integer` slot other than floats and times, and strings, each
converted by `appendField` into one attribute at the field's key. A bool, a signed integer of
any width, an unsigned one of at most 32 bits, a duration and a string come out with their
exact value. A `uint64` or `uintptr` becomes `int64(v)`, which is `v` only below `2^63`. -/
theorem appendField_primitive_values (lib : GoLib) (attrs : List Attr) (key : String) :
    (∀ v, appendField lib attrs (Zap.bool key v) = .ok (attrs ++ [⟨key, .bool v⟩])) ∧
    (∀ v, appendField lib attrs (Zap.string key v) = .ok (attrs ++ [⟨key, .string v⟩])) ∧
    (∀ v : BitVec 8, YieldsInt64 lib attrs key (Zap.int8 key v) v.toInt) ∧
    (∀ v : BitVec 16, YieldsInt64 lib attrs key (Zap.int16 key v) v.toInt) ∧
    (∀ v : BitVec 32, YieldsInt64 lib attrs key (Zap.int32 key v) v.toInt) ∧
    (∀ v : BitVec 64, YieldsInt64 lib attrs key (Zap.int64 key v) v.toInt) ∧
    (∀ v : BitVec 8, YieldsInt64 lib attrs key (Zap.uint8 key v) v.toNat) ∧
    (∀ v : BitVec 16, YieldsInt64 lib attrs key (Zap.uint16 key v) v.toNat) ∧
    (∀ v : BitVec 32, YieldsInt64 lib attrs key (Zap.uint32 key v) v.toNat) ∧
    (∀ nanos : BitVec 64, YieldsInt64 lib attrs key (Zap.duration key nanos) nanos.toInt) ∧
    (∀ v : BitVec 64, YieldsInt64 lib attrs key (Zap.uint64 key v) v.toNat ↔ v.toNat < 2 ^ 63) ∧
    (∀ v : BitVec 64,
      YieldsInt64 lib attrs key (Zap.uintptr key v) v.toNat ↔ v.toNat < 2 ^ 63) :=
  ⟨fun v => by cases v <;> rfl, fun _ => rfl,
    fun v => (yieldsInt64_iff (by rfl) _).2 (toInt_signExtend_64 (by decide) v),
    fun v => (yieldsInt64_iff (by rfl) _).2 (toInt_signExtend_64 (by decide) v),
    fun v => (yieldsInt64_iff (by rfl) _).2 (toInt_signExtend_64 (by decide) v),
    fun v => ⟨v, rfl, rfl⟩,
    fun v => (yieldsInt64_iff (by rfl) _).2 (toInt_setWidth_64 (by decide) v),
    fun v => (yieldsInt64_iff (by rfl) _).2 (toInt_setWidth_64 (by decide) v),
    fun v => (yieldsInt64_iff (by rfl) _).2 (toInt_setWidth_64 (by decide) v),
    fun nanos => ⟨nanos, rfl, rfl⟩,
    fun v => (yieldsInt64_iff (by rfl) _).trans (toInt_eq_toNat_iff_lt v),
    fun v => (yieldsInt64_iff (by rfl) _).trans (toInt_eq_toNat_iff_lt v)⟩

/-- `zap.Uint64("k", 1<<63)`: the attribute holds `-2^63`, and no `Int64` of value `2^63`. -/
theorem appendField_uint64_two_pow_63 :
    appendField GoLib.placeholder [] (Zap.uint64 "k" (BitVec.ofNat 64 (2 ^ 63))) =
        .ok [⟨"k", .int64 (BitVec.ofNat 64 (2 ^ 63))⟩] ∧
      (BitVec.ofNat 64 (2 ^ 63)).toInt = -2 ^ 63 ∧
      ¬YieldsInt64 GoLib.placeholder [] "k" (Zap.uint64 "k" (BitVec.ofNat 64 (2 ^ 63)))
        (2 ^ 63) := by
  obtain ⟨-, -, -, -, -, -, -, -, -, -, uint64, -⟩ :=
    appendField_primitive_values GoLib.placeholder [] "k"
  exact ⟨rfl, by decide, fun exact => absurd ((uint64 _).1 exact) (by decide)⟩

/-- The panics a method of the caller's value raises in the conversion of `zap.Any(key, v)`: that
of `v`'s `String` or `Error` method, or that of `MarshalLogArray`, `v`'s own or a nested one. -/
def Arg.PanicsInMethod : Arg → GoPanic → Prop
  | .value (.stringer _ _ (Except.error thrown)), p
  | .value (.error _ _ (Except.error thrown)), p => p = .method thrown
  | .value (.arrayMarshaler _ m), p => m.zapRun = .error p
  | _, _ => False

/-- The conversion of `zap.Any(key, v)` panics exactly when a method of the caller's value does,
with that method's panic: the bridge's own type assertions never fail on a `zap.Any` field. -/
theorem appendField_any_panics_iff (lib : GoLib) (attrs : List Attr) (key : String) (a : Arg)
    (p : GoPanic) :
    (appendField lib attrs (Zap.any key a) = .error p ↔ a.PanicsInMethod p) ∧
      (appendField lib attrs (Zap.any key a) = .error p → ∃ value, p = .method value) := by
  have panics : appendField lib attrs (Zap.any key a) = .error p ↔ a.PanicsInMethod p := by
    rcases a with f | v
    · exact iff_of_false (fun converted => nomatch converted) fun named => named
    cases v
    case stringer _ _ result | error _ _ result =>
      cases result with
      | ok => exact iff_of_false (fun converted => nomatch converted) fun named => named
      | error value =>
        exact ⟨fun converted => by cases converted; rfl,
          fun named => by cases (named : p = .method value); rfl⟩
    case arrayMarshaler typeName m =>
      show _ ↔ m.zapRun = .error p
      simp only [Zap.any, Zap.array, appendField, ArrayMarshaler.bufferRun_eq]
      cases m.zapRun with
      | error q => simp [Except.map, bind, Except.bind]
      | ok err =>
        simp only [Except.map, bind, Except.bind]
        split <;> simp [pure, Except.pure]
    case strings values =>
      refine iff_of_false (fun converted => ?_) id
      simp [Zap.any, Zap.array, Zap.stringArray, appendField, ArrayMarshaler.bufferRun_eq,
        ArrayMarshaler.zapRun, ArrayAppend.zapRunAll_map_string, Except.map, bind,
        Except.bind, Outcome.result, pure, Except.pure] at converted
    case time t =>
      refine iff_of_false (fun converted => ?_) id
      simp only [Zap.any, Zap.time] at converted
      split at converted <;> cases converted
    case int kind bits =>
      cases kind <;> exact iff_of_false (fun converted => nomatch converted) fun named => named
    all_goals exact iff_of_false (fun converted => nomatch converted) fun named => named
  refine ⟨panics, fun converted => ?_⟩
  have named := panics.1 converted
  rcases a with f | v
  · exact named.elim
  cases v <;> try exact named.elim
  case stringer _ _ result | error _ _ result =>
    cases result with
    | ok => exact named.elim
    | error value => exact ⟨value, named⟩
  case arrayMarshaler m => exact ArrayMarshaler.zapRun_error named

end LogBridge
