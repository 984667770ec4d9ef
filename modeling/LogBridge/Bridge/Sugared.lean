import LogBridge.Bridge.Logger

/-!
# Sugared calls

The sugared logger forwards each call to zap's sugared logger and, on the way, records a
span event of its own: `logArgs` for the templated calls (`*f`), with `fmt.Sprintf` of the
template as the message, and `logKVs` for the key/value calls (`*w`), which reads the
arguments two at a time and appends the trace identifiers as further key/value pairs.

zap parses the same arguments with `sweetenFields` and computes the message with
`getMessage`. Where the two readings part is the subject of this module.
-/

namespace LogBridge

/-- The pairs `logKVs` turns into attributes: elements `2i` and `2i+1`, kept when the first is
a string; a last element without a partner is skipped. -/
def kvPairs : List Arg → List (String × Arg)
  | key :: value :: rest =>
    (match key with
      | .value (.string k) => [(k, value)]
      | _ => []) ++ kvPairs rest
  | _ => []

/-- The key/value pairs `logKVs` appends for the sink when trace ids are on. -/
def traceKVs (sc : SpanContext) : List Arg :=
  [.value (.string "traceId"), .value (.string sc.traceID.string),
    .value (.string "trace_id"), .value (.string (convertTraceID sc.traceID.string)),
    .value (.string "spanId"), .value (.string sc.spanID.string),
    .value (.string "span_id"), .value (.string (convertTraceID sc.spanID.string))]

/-- An argument zap's scan reads as part of a pair: neither a field nor an error. -/
def Arg.pairable : Arg → Bool
  | .field _ => false
  | .value v => !v.isError

/-- Whether zap's scan of `args` ends on a lone element, which it drops: the scan takes a field
or an error alone, and any other element with the one after it. -/
def danglesLast : List Arg → Bool
  | [] => false
  | [a] => a.pairable
  | a :: b :: rest => if a.pairable then danglesLast rest else danglesLast (b :: rest)

theorem danglesLast_of_not_pairable {a : Arg} (alone : a.pairable = false) (rest : List Arg) :
    danglesLast (a :: rest) = danglesLast rest := by
  cases rest <;> simp [danglesLast, alone]

/-- Where there is no field and no error among the arguments, zap's scan and `logKVs`'s read
the same pairs: the two readings part only at a field or an error. -/
theorem sweetenFields_eq_kvPairs (seenError : Bool) (kvs : List Arg)
    (plain : ∀ a ∈ kvs, a.pairable) :
    sweetenFields seenError kvs = (kvPairs kvs).map fun (k, v) => Zap.any k v := by
  induction seenError, kvs using sweetenFields.induct with
  | case1 => rfl
  | case2 _ f => simp [Arg.pairable] at plain
  | case3 v _ isError | case4 _ v _ isError => simp [Arg.pairable, isError] at plain
  | case5 _ v notError => simp [sweetenFields, notError, kvPairs]
  | case6 _ val rest key _ inductionHypothesis =>
    simp only [List.mem_cons, forall_eq_or_imp] at plain
    simp [sweetenFields, kvPairs, GoValue.isError, inductionHypothesis plain.2.2]
  | case7 _ v notError val rest notString inductionHypothesis =>
    simp only [List.mem_cons, forall_eq_or_imp] at plain
    rw [sweetenFields.eq_5 _ _ _ _ notString, if_neg notError, inductionHypothesis plain.2.2,
      kvPairs.eq_2 _ _ _ fun k same => notString k (Arg.value.inj same), List.nil_append]

/-- Two string-keyed pairs, read alike by both scans. -/
theorem sweetenFields_eq_kvPairs_on_pairs :
    (∀ a ∈ [.value (.string "id"), .value (.int .int 42), .value (.string "name"),
        .value (.string "x")], Arg.pairable a) ∧
      sweetenFields false [.value (.string "id"), .value (.int .int 42), .value (.string "name"),
          .value (.string "x")] =
        (kvPairs [.value (.string "id"), .value (.int .int 42), .value (.string "name"),
          .value (.string "x")]).map fun (k, v) => Zap.any k v :=
  ⟨by decide, sweetenFields_eq_kvPairs false _ (by decide)⟩

/-- When zap's scan of `kvs` leaves no lone element, the trace pairs `logKVs` appends parse
as the four trace fields a strict call writes. -/
theorem sweetenFields_append_traceKVs (seenError : Bool) (kvs : List Arg) (sc : SpanContext)
    (even : danglesLast kvs = false) :
    sweetenFields seenError (kvs ++ traceKVs sc) =
      sweetenFields seenError kvs ++ traceFields sc := by
  induction seenError, kvs using sweetenFields.induct with
  | case1 => rfl
  | case2 _ f _ inductionHypothesis =>
    rw [danglesLast_of_not_pairable (a := .field f) rfl] at even
    simp [sweetenFields, inductionHypothesis even]
  | case3 v _ isError inductionHypothesis | case4 _ v _ isError _ inductionHypothesis =>
    rw [danglesLast_of_not_pairable (by simp [Arg.pairable, isError])] at even
    simp_all [sweetenFields_error]
  | case5 _ v notError => simp [danglesLast, Arg.pairable, notError] at even
  | case6 _ val rest key _ inductionHypothesis | case7 _ v _ val rest _ inductionHypothesis =>
    simp_all [sweetenFields, danglesLast, Arg.pairable]

/-- `Infow("user created", "id", 42)` on the sample span: no lone element, four trace fields. -/
theorem sweetenFields_append_traceKVs_after_pair :
    danglesLast [.value (.string "id"), .value (.int .int 42)] = false ∧
      sweetenFields false ([.value (.string "id"), .value (.int .int 42)] ++
          traceKVs Span.sample.context) =
        sweetenFields false [.value (.string "id"), .value (.int .int 42)] ++
          traceFields Span.sample.context :=
  ⟨rfl, sweetenFields_append_traceKVs false _ _ rfl⟩

namespace SugaredLogger

variable (lib : GoLib) (s : SugaredLogger Logger) (span : Span) (rt : Runtime) (lvl : Level)

/-- `logArgs`: at `minLevel` and above on a recording span, an event with the template as
`log.template` and `fmt.Sprintf(template, args...)` as the message. -/
def logArgs (template : String) (args : List Arg) : List SpanCall :=
  if lvl < s.l.minLevel then []
  else if !span.recording then []
  else s.l.log rt lvl (lib.sprintf template args) [⟨"log.template", .string template⟩]

/-- `logKVs`: at `minLevel` and above on a recording span, an event with an attribute per
pair of `kvPairs`; then the trace pairs appended for the sink when trace ids are on and the
span has one. -/
def logKVs (msg : String) (kvs : List Arg) : List Arg × List SpanCall :=
  if lvl < s.l.minLevel then (kvs, [])
  else if !span.recording then (kvs, [])
  else
    let calls := s.l.log rt lvl msg ((kvPairs kvs).map fun (k, v) => lib.otelutilAttribute k v)
    if s.l.withTraceID && span.context.hasTraceID then (kvs ++ traceKVs span.context, calls)
    else (kvs, calls)

/-- `SugaredLogger.With` (a Lean keyword, hence the name): zap's `With` on the embedded
sugared logger, which adds the fields `sweetenFields` parses from `args` to its core. The
`skipCaller` and the logger `Desugar` returns are kept as they were. -/
def withArgs {α : Type} (s : SugaredLogger α) (args : List Arg) :
    Except GoPanic (SugaredLogger α) := do
  let base ← s.base.withFields (sweetenFields false args)
  pure { s with base }

/-- The templated calls, which differ only in their level and in which zap sugared logger
writes: `SugaredLogger.DebugfContext` to `FatalfContext` write through `base`,
`SugaredLoggerWithCtx.Debugf` to `Fatalf` through `skipCaller`. -/
def logf (sink : ZapLogger) (template : String) (args : List Arg) : Except GoPanic CallEffect := do
  let spanCalls := s.logArgs lib span rt lvl template args
  let (record, ending) ← sink.sugarWrite lib lvl template args []
  pure ⟨record, spanCalls, ending⟩

/-- The key/value calls: `SugaredLogger.DebugwContext` to `FatalwContext` through `base`,
`SugaredLoggerWithCtx.Debugw` to `Fatalw` through `skipCaller`. -/
def logw (sink : ZapLogger) (msg : String) (kvs : List Arg) : Except GoPanic CallEffect := do
  let (kvs, spanCalls) := s.logKVs lib span rt lvl msg kvs
  let (record, ending) ← sink.sugarWrite lib lvl msg [] kvs
  pure ⟨record, spanCalls, ending⟩

/-- `With` adds the fields it parses to the records of the calls that write through the
embedded sugared logger, the `*wContext` calls: each such record holds the context its core had
before, then those fields, then the call's own. The `Ctx(ctx).*w` calls write through
`skipCaller`, which `With` leaves as it was: they do what they did before. -/
theorem withArgs_fields_reach_base_only (args kvs : List Arg) (msg : String)
    {s' : SugaredLogger Logger} (withed : s.withArgs args = .ok s') :
    (∀ effect, s'.logw lib span rt lvl s'.base msg kvs = .ok effect → ∀ record ∈ effect.record,
      ∃ context, s.base.core.check lvl = .ok (some context) ∧
        record.fields = context ++ sweetenFields false args ++
          sweetenFields false (s.logKVs lib span rt lvl msg kvs).1) ∧
    s'.logw lib span rt lvl s'.skipCaller msg kvs =
      s.logw lib span rt lvl s.skipCaller msg kvs := by
  obtain ⟨base, added, ⟨⟩⟩ := Except.bind_eq_ok.1 withed
  refine ⟨fun effect called record found => ?_, rfl⟩
  obtain ⟨⟨written, ending⟩, wrote, ⟨⟩⟩ := Except.bind_eq_ok.1 called
  cases found
  obtain ⟨-, -, context', taken, fields⟩ := ZapLogger.write_eq_ok wrote
  obtain ⟨context, before, rfl⟩ := ZapLogger.check_of_withFields added taken
  exact ⟨context, before, fields⟩

/-- `NewOtel` on an io core at debug, `With("a", 1)`, then a warning with no key/value pair
through each of the two sugared loggers: both write a record, and `a` reaches only the one
written through `base`. -/
theorem withArgs_fields_reach_base_only_on_io :
    let s := (newOtel fieldGrowth ⟨[]⟩ (.new (.io debugLevel [])) []).1.sugar
    ∃ s', s.withArgs [.value (.string "a"), .value (.int .int 1)] = .ok s' ∧
      (∃ effect, s'.logw GoLib.placeholder Span.sample Runtime.noFrames warnLevel s'.base "m" [] =
        .ok effect ∧ effect.record.map (·.fields.map (·.key)) = some ["a"]) ∧
      (∃ effect, s'.logw GoLib.placeholder Span.sample Runtime.noFrames warnLevel s'.skipCaller
        "m" [] = .ok effect ∧ effect.record.map (·.fields.map (·.key)) = some []) ∧
      (∀ effect, s'.logw GoLib.placeholder Span.sample Runtime.noFrames warnLevel s'.base "m" [] =
          .ok effect → ∀ record ∈ effect.record,
        ∃ context, s.base.core.check warnLevel = .ok (some context) ∧
          record.fields = context ++
            sweetenFields false [.value (.string "a"), .value (.int .int 1)] ++ sweetenFields false
              (s.logKVs GoLib.placeholder Span.sample Runtime.noFrames warnLevel "m" []).1) ∧
      s'.logw GoLib.placeholder Span.sample Runtime.noFrames warnLevel s'.skipCaller "m" [] =
        s.logw GoLib.placeholder Span.sample Runtime.noFrames warnLevel s.skipCaller "m" [] :=
  ⟨_, rfl, ⟨_, rfl, rfl⟩, ⟨_, rfl, rfl⟩,
    withArgs_fields_reach_base_only GoLib.placeholder
      (newOtel fieldGrowth ⟨[]⟩ (.new (.io debugLevel [])) []).1.sugar Span.sample
      Runtime.noFrames warnLevel [.value (.string "a"), .value (.int .int 1)] [] "m" rfl⟩

/-- Above `minLevel` on a recording span, `logArgs` logs `fmt.Sprintf` of the template. -/
theorem logArgs_of_enabled (template : String) (args : List Arg)
    (enabled : s.l.minLevel ≤ lvl) (recording : span.recording = true) :
    s.logArgs lib span rt lvl template args =
      s.l.log rt lvl (lib.sprintf template args) [⟨"log.template", .string template⟩] := by
  simp [logArgs, not_lt.2 enabled, recording]

/-- Above `minLevel` on a recording span, `logKVs` logs an attribute per pair of `kvPairs`,
and hands the sink the arguments with the trace pairs after them when trace ids are on. -/
theorem logKVs_of_enabled (msg : String) (kvs : List Arg)
    (enabled : s.l.minLevel ≤ lvl) (recording : span.recording = true) :
    s.logKVs lib span rt lvl msg kvs =
      (if s.l.withTraceID && span.context.hasTraceID then kvs ++ traceKVs span.context else kvs,
        s.l.log rt lvl msg ((kvPairs kvs).map fun (k, v) => lib.otelutilAttribute k v)) := by
  unfold logKVs
  rw [if_neg (not_lt.2 enabled), if_neg (by simp [recording])]
  split <;> rfl

/-- A zap field in key position puts `logKVs` off zap's pairs. On `[f, "a", "b", 1]` zap takes
the field alone, pairs `"a"` with `"b"` and drops the lone `1`; `logKVs` skips the pair
`(f, "a")` and keys its one attribute by `"b"`, a value to zap. -/
theorem logKVs_keys_attribute_by_zap_value (enabled : s.l.minLevel ≤ lvl)
    (recording : span.recording = true) :
    (sweetenFields false [.field (Zap.string "f" "x"), .value (.string "a"),
        .value (.string "b"), .value (.int .int 1)]).map (·.key) = ["f", "a"] ∧
      (s.logKVs lib span rt lvl "m" [.field (Zap.string "f" "x"), .value (.string "a"),
        .value (.string "b"), .value (.int .int 1)]).2 =
        s.l.log rt lvl "m" [lib.otelutilAttribute "b" (.value (.int .int 1))] :=
  ⟨rfl, by rw [logKVs_of_enabled lib s span rt lvl _ _ enabled recording]; rfl⟩

/-- The initial logger, warning on a recording span with no caller frame. -/
theorem logKVs_keys_attribute_by_zap_value_on_nop :
    nopOtel.sugar.l.minLevel ≤ warnLevel ∧ Span.sample.recording = true ∧
      (sweetenFields false [.field (Zap.string "f" "x"), .value (.string "a"),
        .value (.string "b"), .value (.int .int 1)]).map (·.key) = ["f", "a"] ∧
      (nopOtel.sugar.logKVs GoLib.placeholder Span.sample Runtime.noFrames warnLevel "m"
          [.field (Zap.string "f" "x"), .value (.string "a"), .value (.string "b"),
            .value (.int .int 1)]).2 =
        nopOtel.log Runtime.noFrames warnLevel "m"
          [GoLib.placeholder.otelutilAttribute "b" (.value (.int .int 1))] :=
  ⟨le_refl _, rfl, logKVs_keys_attribute_by_zap_value GoLib.placeholder nopOtel.sugar
    Span.sample Runtime.noFrames warnLevel (le_refl _) rfl⟩

/-- With trace ids on, the spec's own `Infow("user created", "id", 42, "oops")` hands zap an
argument list whose lone `"oops"` takes `"traceId"` as its value, after which every trace
identifier is read as a key: zap writes `oops`, the hex trace id, its decimal form and the hex
span id as keys, where the four trace fields `traceId` to `span_id` were meant. -/
theorem logKVs_shifts_trace_pairs (enabled : s.l.minLevel ≤ lvl)
    (recording : span.recording = true) (traced : s.l.withTraceID = true)
    (hasTraceID : span.context.hasTraceID = true) :
    sweetenFields false [.value (.string "id"), .value (.int .int 42), .value (.string "oops")] =
        [Zap.any "id" (.value (.int .int 42))] ∧
      sweetenFields false (s.logKVs lib span rt lvl "user created"
          [.value (.string "id"), .value (.int .int 42), .value (.string "oops")]).1 =
        [Zap.any "id" (.value (.int .int 42)), Zap.string "oops" "traceId",
          Zap.string span.context.traceID.string "trace_id",
          Zap.string (convertTraceID span.context.traceID.string) "spanId",
          Zap.string span.context.spanID.string "span_id"] := by
  refine ⟨rfl, ?_⟩
  rw [logKVs_of_enabled lib s span rt lvl _ _ enabled recording, traced, hasTraceID]
  rfl

/-- A traced initial logger, warning on the sample span. -/
theorem logKVs_shifts_trace_pairs_on_traced_nop :
    let s := { nopOtel with withTraceID := true }.sugar
    s.l.minLevel ≤ warnLevel ∧ Span.sample.recording = true ∧ s.l.withTraceID = true ∧
      Span.sample.context.hasTraceID = true ∧
      sweetenFields false (s.logKVs GoLib.placeholder Span.sample Runtime.noFrames warnLevel
          "user created" [.value (.string "id"), .value (.int .int 42),
            .value (.string "oops")]).1 =
        [Zap.any "id" (.value (.int .int 42)), Zap.string "oops" "traceId",
          Zap.string Span.sample.context.traceID.string "trace_id",
          Zap.string (convertTraceID Span.sample.context.traceID.string) "spanId",
          Zap.string Span.sample.context.spanID.string "span_id"] :=
  ⟨le_refl _, rfl, rfl, by decide, (logKVs_shifts_trace_pairs GoLib.placeholder
    { nopOtel with withTraceID := true }.sugar Span.sample Runtime.noFrames warnLevel
    (le_refl _) rfl rfl (by decide)).2⟩

/-- A templated call at the error status level with the template `%%` and no operands: the
span's event and status carry `fmt.Sprintf`'s `%`, while the record zap writes carries the
template `%%` verbatim, as `getMessage` leaves a template without operands. -/
theorem logf_percent_template_diverges (sink : ZapLogger) (enabled : s.l.minLevel ≤ lvl)
    (errorStatus : s.l.errorStatusLevel ≤ lvl) (recording : span.recording = true) :
    ∀ effect, s.logf lib span rt lvl sink "%%" [] = .ok effect →
      (∃ attrs, effect.spanCalls = [.addEvent "log" attrs, .setStatus .error "%"] ∧
        ⟨"log.message", .string "%"⟩ ∈ attrs) ∧
      ∀ record ∈ effect.record, record.message = "%%" := by
  intro effect called
  obtain ⟨⟨record, ending⟩, wrote, ⟨⟩⟩ := Except.bind_eq_ok.1 called
  obtain ⟨extra, logged⟩ := s.l.log_eq rt lvl "%" [⟨"log.template", .string "%%"⟩]
  refine ⟨⟨_, by rw [logArgs_of_enabled lib s span rt lvl _ _ enabled recording,
    lib.sprintf_percent, logged, if_pos errorStatus], by simp⟩, fun r found => ?_⟩
  cases found
  exact (ZapLogger.write_eq_ok wrote).2.1

/-- The initial logger at the error level, writing through an io core that takes every level. -/
theorem logf_percent_template_diverges_on_nop :
    let s := nopOtel.sugar
    ∃ effect, s.logf GoLib.placeholder Span.sample Runtime.noFrames errorLevel
        (.new (.io debugLevel [])) "%%" [] = .ok effect ∧ effect.record.isSome ∧
      s.l.minLevel ≤ errorLevel ∧ s.l.errorStatusLevel ≤ errorLevel ∧
      Span.sample.recording = true ∧
      ((∃ attrs, effect.spanCalls = [.addEvent "log" attrs, .setStatus .error "%"] ∧
        ⟨"log.message", .string "%"⟩ ∈ attrs) ∧
      ∀ record ∈ effect.record, record.message = "%%") :=
  ⟨_, rfl, rfl, by decide, le_refl _, rfl,
    logf_percent_template_diverges GoLib.placeholder nopOtel.sugar Span.sample Runtime.noFrames
      errorLevel (.new (.io debugLevel [])) (by decide) (le_refl _) rfl _ rfl⟩

end SugaredLogger

end LogBridge
