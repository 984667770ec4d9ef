import LogBridge.Go.Library

/-!
# zap loggers, cores and options

The part of `go.uber.org/zap` the bridge drives: a logger's core, the `Core` methods the
bridge's own `fieldExtractorCore` implements (`With`, `Enabled`, `Check`), the built-in
options `Logger.WithOptions` applies, and the record a call writes. The sugared logger's
message and argument parsing (`getMessage`, `sweetenFields`) is here too: the bridge forwards
every sugared call to it.

A `Core.io` stands for the cores a real logger is built from (`zapcore.NewCore`): it writes
the fields added by `With` before a call's own fields. Besides its core, a logger keeps what
decides how a call at `DPanic` and above ends: `check` attaches a terminal hook to such an
entry whether or not a core takes it, and the hook runs once the cores have written. The other
fields of `zap.Logger` (caller annotation, stack capture, clocks, the error output) decide
nothing the development states, and are left out.
-/

namespace LogBridge

/-- `zapcore.Level`, an `int8`. -/
abbrev Level := Int

/-- `zapcore.DebugLevel`. -/
def debugLevel : Level := -1
/-- `zapcore.InfoLevel`. -/
def infoLevel : Level := 0
/-- `zapcore.WarnLevel`. -/
def warnLevel : Level := 1
/-- `zapcore.ErrorLevel`. -/
def errorLevel : Level := 2
/-- `zapcore.DPanicLevel`. -/
def dPanicLevel : Level := 3
/-- `zapcore.PanicLevel`. -/
def panicLevel : Level := 4
/-- `zapcore.FatalLevel`. -/
def fatalLevel : Level := 5

/-- The `zapcore.Core` implementations a logger can hold here. -/
inductive Core where
  /-- `zapcore.NewCore`: writes entries at `level` or above, after the fields in `context`. -/
  | io (level : Level) (context : List Field)
  /-- `zapcore.NewNopCore`. -/
  | nop
  /-- `zapcore.RegisterHooks`. -/
  | hooked (core : Core)
  /-- `zapcore.NewIncreaseLevelCore`. -/
  | levelFilter (core : Core) (level : Level)
  /-- The bridge's `fieldExtractorCore`. -/
  | fieldExtractor
  /-- A nil `zapcore.Core`: every method call on it panics. -/
  | nil

namespace Core

/-- `Core.With`, threading the slice a `fieldExtractorCore` appends to: that core appends the
fields and returns nil; an io core encodes them (running `AddTo`) into its context. -/
def withFields (fs : List Field) : Core → List Field → Except GoPanic (Core × List Field)
  | .io level context, extracted => do
    fs.forM Field.addTo
    pure (.io level (context ++ fs), extracted)
  | .nop, extracted => pure (.nop, extracted)
  | .hooked core, extracted => do
    let (core, extracted) ← core.withFields fs extracted
    pure (.hooked core, extracted)
  | .levelFilter core level, extracted => do
    let (core, extracted) ← core.withFields fs extracted
    pure (.levelFilter core level, extracted)
  | .fieldExtractor, extracted => pure (.nil, extracted ++ fs)
  | .nil, _ => .error .nilDereference

/-- `Core.Enabled`. -/
def enabled : Core → Level → Except GoPanic Bool
  | .io level _, lvl => pure (decide (level ≤ lvl))
  | .nop, _ => pure false
  | .hooked core, lvl => core.enabled lvl
  | .levelFilter _ level, lvl => pure (decide (level ≤ lvl))
  | .fieldExtractor, _ => pure false
  | .nil, _ => .error .nilDereference

/-- `Core.Check`: the context of the core that will write an entry at `lvl`, if any. -/
def check : Core → Level → Except GoPanic (Option (List Field))
  | .io level context, lvl => pure (if level ≤ lvl then some context else none)
  | .nop, _ => pure none
  | .hooked core, lvl => core.check lvl
  | .levelFilter core level, lvl => if level ≤ lvl then core.check lvl else pure none
  | .fieldExtractor, _ => pure none
  | .nil, _ => .error .nilDereference

/-- Whether some level from `Fatal` down to `Debug` is enabled by `level` but not by the core:
the failure `NewIncreaseLevelCore` reports. -/
def rejectsIncrease (core : Core) (level : Level) : List Level → Except GoPanic Bool
  | [] => pure false
  | l :: rest => do
    if !(← core.enabled l) && decide (level ≤ l) then pure true
    else core.rejectsIncrease level rest

/-- `zapcore.NewIncreaseLevelCore`: a level filter, or `none` for its error. -/
def newIncreaseLevelCore (core : Core) (level : Level) : Except GoPanic (Option Core) := do
  if ← core.rejectsIncrease level [5, 4, 3, 2, 1, 0, -1] then pure none
  else pure (some (.levelFilter core level))

/-- A nil core, possibly wrapped by `RegisterHooks`: a method called on it reaches the nil
core and panics. -/
def wrapsNil : Core → Bool
  | .nil => true
  | .hooked core => core.wrapsNil
  | _ => false

variable {core : Core}

theorem withFields_of_wrapsNil (fs extracted : List Field) (nil : core.wrapsNil) :
    core.withFields fs extracted = .error .nilDereference := by
  induction core with
  | nil => rfl
  | hooked core inductionHypothesis => simp [withFields, inductionHypothesis nil]
  | _ => simp [wrapsNil] at nil

theorem newIncreaseLevelCore_of_wrapsNil (level : Level) (nil : core.wrapsNil) :
    core.newIncreaseLevelCore level = .error .nilDereference := by
  have enabled : ∀ lvl, core.enabled lvl = .error .nilDereference := by
    intro lvl
    induction core with
    | nil => rfl
    | hooked core inductionHypothesis => exact inductionHypothesis nil
    | _ => simp [wrapsNil] at nil
  simp only [newIncreaseLevelCore, rejectsIncrease, enabled]
  rfl

theorem wrapsNil_iterate_hooked (k : Nat) (core : Core) :
    (Core.hooked^[k] core).wrapsNil = core.wrapsNil := by
  induction k with
  | zero => rfl
  | succ k inductionHypothesis => rw [Function.iterate_succ_apply', wrapsNil, inductionHypothesis]

/-- `With` on hooked cores is `With` on the core inside, wrapped as it was. -/
theorem withFields_iterate_hooked (k : Nat) (core : Core) (fs extracted : List Field) :
    (Core.hooked^[k] core).withFields fs extracted =
      (core.withFields fs extracted).map fun r => (Core.hooked^[k] r.1, r.2) := by
  induction k with
  | zero =>
    show core.withFields fs extracted = _
    cases core.withFields fs extracted <;> rfl
  | succ k inductionHypothesis =>
    simp only [Function.iterate_succ_apply', withFields, inductionHypothesis]
    cases core.withFields fs extracted <;> rfl

/-- A core that takes an entry after `With` took it before, and writes the added fields after
the context it had then. -/
theorem check_of_withFields {fs extracted extracted' context' : List Field} {core' : Core}
    {lvl : Level} (withed : core.withFields fs extracted = .ok (core', extracted'))
    (taken : core'.check lvl = .ok (some context')) :
    ∃ context, core.check lvl = .ok (some context) ∧ context' = context ++ fs := by
  induction core generalizing core' with
  | io level context =>
    obtain ⟨-, -, ⟨⟩⟩ := Except.bind_eq_ok.1 withed
    simp only [check, pure, Except.pure, Except.ok.injEq] at taken ⊢
    split at taken <;> cases taken
    exact ⟨context, by rw [if_pos ‹_›], rfl⟩
  | hooked core inductionHypothesis =>
    obtain ⟨_, inner, ⟨⟩⟩ := Except.bind_eq_ok.1 withed
    exact inductionHypothesis inner taken
  | levelFilter core level inductionHypothesis =>
    obtain ⟨_, inner, ⟨⟩⟩ := Except.bind_eq_ok.1 withed
    simp only [check] at taken ⊢
    split at taken
    · rw [if_pos ‹_›]
      exact inductionHypothesis inner taken
    · cases taken
  | nop | fieldExtractor =>
    cases withed
    cases taken
  | nil => cases withed

/-- `Wraps base core`: `core` is `base` under the wrappers `RegisterHooks` and
`NewIncreaseLevelCore` put around a core, the only cores the built-in options other than
`WrapCore` build from `base`. -/
inductive Wraps (base : Core) : Core → Prop
  | refl : Wraps base base
  | hooked {core : Core} : Wraps base core → Wraps base (.hooked core)
  | levelFilter {core : Core} (level : Level) : Wraps base core →
      Wraps base (.levelFilter core level)

/-- `With` on a wrapped `fieldExtractorCore` collects the fields and leaves a wrapped nil core. -/
theorem withFields_of_wraps_fieldExtractor (wraps : Wraps .fieldExtractor core)
    (fs extracted : List Field) :
    ∃ core', core.withFields fs extracted = .ok (core', extracted ++ fs) ∧ Wraps .nil core' := by
  induction wraps with
  | refl => exact ⟨.nil, rfl, .refl⟩
  | hooked _ inductionHypothesis =>
    obtain ⟨core', withed, wraps'⟩ := inductionHypothesis
    exact ⟨.hooked core', by simp [withFields, withed], .hooked wraps'⟩
  | levelFilter level _ inductionHypothesis =>
    obtain ⟨core', withed, wraps'⟩ := inductionHypothesis
    exact ⟨.levelFilter core' level, by simp [withFields, withed], .levelFilter level wraps'⟩

/-- `With` on a wrapped nil core reaches the nil core. -/
theorem withFields_of_wraps_nil (wraps : Wraps .nil core) (fs extracted : List Field) :
    core.withFields fs extracted = .error .nilDereference := by
  induction wraps with
  | refl => rfl
  | hooked _ inductionHypothesis | levelFilter _ _ inductionHypothesis =>
    simp [withFields, inductionHypothesis]

/-- `NewIncreaseLevelCore` returns its error or a level filter around the core. -/
theorem newIncreaseLevelCore_eq_ok {level : Level} {result : Option Core}
    (increased : core.newIncreaseLevelCore level = .ok result) :
    result = none ∨ result = some (.levelFilter core level) := by
  unfold newIncreaseLevelCore at increased
  obtain ⟨rejected, -, increased⟩ := Except.bind_eq_ok.1 increased
  cases rejected <;> cases increased <;> simp

end Core

/-- How a log call ends once its entry has gone to the cores. -/
inductive Ending where
  | returns
  /-- `panic` with this value. -/
  | panics (value : GoPanic)
  /-- `runtime.Goexit`: the goroutine ends after its deferred calls. -/
  | goexits
  /-- `os.Exit` with this status. -/
  | exits (code : Int)
  deriving DecidableEq, Repr

/-- A `zapcore.CheckWriteHook`: one of the `CheckWriteAction`s zap defines, or a hook of the
program's own, known by how it ends the call it runs in. -/
inductive CheckWriteHook where
  | writeThenNoop
  | writeThenGoexit
  | writeThenPanic
  | writeThenFatal
  | custom (ending : Ending)
  deriving DecidableEq, Repr

/-- `OnWrite`, run after the entry is written: `WriteThenPanic` panics with the entry's
message, `WriteThenFatal` exits with status 1. -/
def CheckWriteHook.onWrite (msg : String) : CheckWriteHook → Ending
  | .writeThenNoop => .returns
  | .writeThenGoexit => .goexits
  | .writeThenPanic => .panics (.value msg)
  | .writeThenFatal => .exits 1
  | .custom ending => ending

/-- `terminalHookOverride`: the hook set on the logger, unless it is nil or `WriteThenNoop`,
either of which would let a `Panic` or `Fatal` call return. -/
def terminalHookOverride (defaultHook : CheckWriteHook) : Option CheckWriteHook → CheckWriteHook
  | none | some .writeThenNoop => defaultHook
  | some hook => hook

/-- The built-in `zap.Option`s. -/
inductive ZapOption where
  /-- `zap.Fields`. -/
  | fields (fs : List Field)
  /-- `zap.Hooks`. -/
  | hooks
  /-- `zap.WrapCore`. -/
  | wrapCore (wrap : Core → Core)
  /-- `zap.IncreaseLevel`. -/
  | increaseLevel (level : Level)
  /-- `zap.Development`. -/
  | development
  | addCaller
  | withCaller (enabled : Bool)
  | addCallerSkip (skip : Int)
  | addStacktrace (level : Level)
  | errorOutput
  | withClock
  /-- `zap.WithPanicHook`, with a hook or nil. -/
  | withPanicHook (hook : Option CheckWriteHook)
  /-- `zap.WithFatalHook`, with a hook or nil. -/
  | withFatalHook (hook : Option CheckWriteHook)

/-- A `zap.Logger`: its core, and what decides how a call at `DPanic` and above ends. -/
structure ZapLogger where
  core : Core
  /-- Set by `Development`: a `DPanic` call then panics. -/
  development : Bool
  /-- Set by `WithPanicHook`. -/
  onPanic : Option CheckWriteHook
  /-- Set by `WithFatalHook`. -/
  onFatal : Option CheckWriteHook

/-- `zap.New(core)` without options, and `zap.NewNop` on the nop core: not in development,
with no hook set. -/
def ZapLogger.new (core : Core) : ZapLogger := ⟨core, false, none, none⟩

/-- A record a zap logger writes: level, message, and the encoded fields in order. -/
structure Record where
  level : Level
  message : String
  fields : List Field

namespace ZapOption

/-- The part of a logger other than its core that an option sets. -/
def setTerminal (z : ZapLogger) : ZapOption → ZapLogger
  | .development => { z with development := true }
  | .withPanicHook hook => { z with onPanic := hook }
  | .withFatalHook hook => { z with onFatal := hook }
  | _ => z

/-- Apply one option to a logger's core, threading the extractor's slice. The options that
set something other than the core leave it alone; a failed `IncreaseLevel` only prints. -/
def apply (core : Core) (extracted : List Field) :
    ZapOption → Except GoPanic (Core × List Field)
  | .fields fs => core.withFields fs extracted
  | .hooks => pure (.hooked core, extracted)
  | .wrapCore wrap => pure (wrap core, extracted)
  | .increaseLevel level => do
    match ← core.newIncreaseLevelCore level with
    | some filtered => pure (filtered, extracted)
    | none => pure (core, extracted)
  | _ => pure (core, extracted)

/-- `Logger.WithOptions`: the options applied in order. -/
def applyAll (core : Core) (extracted : List Field) :
    List ZapOption → Except GoPanic (Core × List Field)
  | [] => pure (core, extracted)
  | opt :: rest => do
    let (core, extracted) ← opt.apply core extracted
    applyAll core extracted rest

/-- The options that call a method of the core: `Fields` calls `With`, `IncreaseLevel`
calls `Enabled`. -/
def callsCore : ZapOption → Bool
  | .fields _ | .increaseLevel _ => true
  | _ => false

/-- The options that leave the core as it is, or wrap it in hooks: all but `Fields`,
`IncreaseLevel` and `WrapCore`. -/
def keepsCore : ZapOption → Bool
  | .fields _ | .increaseLevel _ | .wrapCore _ => false
  | _ => true

variable {core : Core} {extracted : List Field}

theorem applyAll_append (first second : List ZapOption) :
    applyAll core extracted (first ++ second) =
      applyAll core extracted first >>= fun r => applyAll r.1 r.2 second := by
  induction first generalizing core extracted with
  | nil => rfl
  | cons opt rest inductionHypothesis =>
    simp only [List.cons_append, applyAll]
    cases opt.apply core extracted with
    | error => rfl
    | ok result => exact inductionHypothesis

theorem apply_of_callsCore {opt : ZapOption} (calls : opt.callsCore) (nil : core.wrapsNil) :
    opt.apply core extracted = .error .nilDereference := by
  cases opt <;> simp only [callsCore, reduceCtorEq] at calls
  · exact core.withFields_of_wrapsNil _ _ nil
  · simp [apply, core.newIncreaseLevelCore_of_wrapsNil _ nil]
    rfl

/-- An option that keeps the core leaves it, or wraps it in hooks, and collects no field. -/
theorem apply_of_keepsCore {opt : ZapOption} (keeps : opt.keepsCore) :
    ∃ k, opt.apply core extracted = .ok (Core.hooked^[k] core, extracted) := by
  cases opt <;> simp only [keepsCore, reduceCtorEq] at keeps
  case hooks => exact ⟨1, rfl⟩
  all_goals exact ⟨0, rfl⟩

theorem applyAll_of_keepsCore {opts : List ZapOption} (keep : ∀ opt ∈ opts, opt.keepsCore) :
    ∃ k, applyAll core extracted opts = .ok (Core.hooked^[k] core, extracted) := by
  induction opts generalizing core with
  | nil => exact ⟨0, rfl⟩
  | cons opt rest inductionHypothesis =>
    obtain ⟨k, applied⟩ : ∃ k, opt.apply core extracted =
        .ok (Core.hooked^[k] core, extracted) := apply_of_keepsCore (keep opt (.head _))
    obtain ⟨j, ran⟩ : ∃ j, applyAll (Core.hooked^[k] core) extracted rest =
        .ok (Core.hooked^[j] (Core.hooked^[k] core), extracted) :=
      inductionHypothesis fun o member => keep o (.tail _ member)
    exact ⟨j + k, by rw [applyAll, applied, Function.iterate_add_apply]; exact ran⟩

/-- The throwaway `fieldExtractorCore` of `WithOptions` turns nil at its first `Fields`
option: an option calling the core after it, with only core-keeping options between, panics. -/
theorem applyAll_fieldExtractor_panics (fs : List Field) {between : List ZapOption}
    {next : ZapOption} (rest : List ZapOption) (keep : ∀ opt ∈ between, opt.keepsCore)
    (calls : next.callsCore) :
    applyAll .fieldExtractor [] (.fields fs :: between ++ next :: rest) =
      .error .nilDereference := by
  obtain ⟨k, ran⟩ : ∃ k, applyAll .nil ([] ++ fs) between =
      .ok (Core.hooked^[k] .nil, [] ++ fs) := applyAll_of_keepsCore keep
  show applyAll .nil ([] ++ fs) (between ++ next :: rest) = _
  rw [applyAll_append, ran]
  show (apply (Core.hooked^[k] .nil) ([] ++ fs) next >>= fun r => applyAll r.1 r.2 rest) = _
  rw [apply_of_callsCore calls (by rw [Core.wrapsNil_iterate_hooked]; rfl)]
  rfl

/-- With one `Fields` option, and only core-keeping options before and after it, the
throwaway core collects exactly that option's fields. -/
theorem applyAll_fieldExtractor_single (fs : List Field) {before after : List ZapOption}
    (keepBefore : ∀ opt ∈ before, opt.keepsCore) (keepAfter : ∀ opt ∈ after, opt.keepsCore) :
    ∃ core, applyAll .fieldExtractor [] (before ++ .fields fs :: after) = .ok (core, fs) := by
  obtain ⟨k, ranBefore⟩ : ∃ k, applyAll .fieldExtractor [] before =
      .ok (Core.hooked^[k] .fieldExtractor, []) := applyAll_of_keepsCore keepBefore
  obtain ⟨j, ranAfter⟩ : ∃ j, applyAll (Core.hooked^[k] .nil) ([] ++ fs) after =
      .ok (Core.hooked^[j] (Core.hooked^[k] .nil), [] ++ fs) := applyAll_of_keepsCore keepAfter
  refine ⟨Core.hooked^[j] (Core.hooked^[k] .nil), ?_⟩
  rw [applyAll_append, ranBefore]
  show (apply (Core.hooked^[k] .fieldExtractor) [] (.fields fs) >>=
    fun r => applyAll r.1 r.2 after) = _
  rw [apply, Core.withFields_iterate_hooked]
  show applyAll (Core.hooked^[k] .nil) ([] ++ fs) after = _
  rw [ranAfter, List.nil_append]

/-- The fields of a `Fields` option. -/
def fieldsOf : ZapOption → Option (List Field)
  | .fields fs => some fs
  | _ => none

/-- `WrapCore`, the one built-in option that can put any core in place of the one it is given. -/
def isWrapCore : ZapOption → Bool
  | .wrapCore _ => true
  | _ => false

theorem eq_fields_of_fieldsOf {opt : ZapOption} {fs : List Field} (fields : opt.fieldsOf = some fs) :
    opt = .fields fs := by
  cases opt <;> simp_all [fieldsOf]

/-- An option other than `Fields` and `WrapCore` keeps the collected fields and the base the
core is built on. -/
theorem apply_of_wraps {opt : ZapOption} {base core' : Core} {extracted' : List Field}
    (notWrap : opt.isWrapCore = false) (notFields : opt.fieldsOf = none)
    (wraps : Core.Wraps base core) (applied : opt.apply core extracted = .ok (core', extracted')) :
    extracted' = extracted ∧ Core.Wraps base core' := by
  cases opt <;> simp only [isWrapCore, fieldsOf, reduceCtorEq] at notWrap notFields
  case hooks =>
    cases applied
    exact ⟨rfl, .hooked wraps⟩
  case increaseLevel level =>
    obtain ⟨filtered, increased, applied⟩ := Except.bind_eq_ok.1 applied
    rcases Core.newIncreaseLevelCore_eq_ok increased with rfl | rfl <;> cases applied
    · exact ⟨rfl, wraps⟩
    · exact ⟨rfl, .levelFilter level wraps⟩
  all_goals
    cases applied
    exact ⟨rfl, wraps⟩

/-- Once the throwaway core is nil, a run of options without `WrapCore` returns only if none of
them is `Fields`, and then collects nothing more. -/
theorem applyAll_of_wraps_nil {opts : List ZapOption} {core' : Core} {extracted' : List Field}
    (noWrap : ∀ opt ∈ opts, opt.isWrapCore = false) (wraps : Core.Wraps .nil core)
    (ran : applyAll core extracted opts = .ok (core', extracted')) :
    extracted' = extracted ∧ opts.filterMap fieldsOf = [] := by
  induction opts generalizing core extracted with
  | nil =>
    cases ran
    exact ⟨rfl, rfl⟩
  | cons opt rest inductionHypothesis =>
    obtain ⟨⟨core₁, extracted₁⟩, step, ranRest⟩ := Except.bind_eq_ok.1 ran
    cases fields : opt.fieldsOf with
    | some fs =>
      rw [eq_fields_of_fieldsOf fields, apply, Core.withFields_of_wraps_nil wraps] at step
      cases step
    | none =>
      obtain ⟨kept, wraps₁⟩ := apply_of_wraps (noWrap opt (.head _)) fields wraps step
      obtain ⟨collected, none'⟩ :=
        inductionHypothesis (fun o member => noWrap o (.tail _ member)) wraps₁ ranRest
      exact ⟨collected.trans kept, by simp [List.filterMap_cons, fields, none']⟩

/-- Without `WrapCore`, the throwaway `fieldExtractorCore` of `WithOptions` returns only if at
most one option is `Fields`, and then holds that option's fields. -/
theorem applyAll_of_wraps_fieldExtractor {opts : List ZapOption} {core' : Core}
    {extracted' : List Field} (noWrap : ∀ opt ∈ opts, opt.isWrapCore = false)
    (wraps : Core.Wraps .fieldExtractor core) (ran : applyAll core [] opts = .ok (core', extracted')) :
    (opts.filterMap fieldsOf).length ≤ 1 ∧ extracted' = (opts.filterMap fieldsOf).flatten := by
  induction opts generalizing core with
  | nil =>
    cases ran
    exact ⟨Nat.zero_le _, rfl⟩
  | cons opt rest inductionHypothesis =>
    obtain ⟨⟨core₁, extracted₁⟩, step, ranRest⟩ := Except.bind_eq_ok.1 ran
    cases fields : opt.fieldsOf with
    | some fs =>
      obtain ⟨core₂, withed, wraps₂⟩ := Core.withFields_of_wraps_fieldExtractor wraps fs []
      rw [eq_fields_of_fieldsOf fields, apply, withed] at step
      cases step
      obtain ⟨collected, none'⟩ :=
        applyAll_of_wraps_nil (fun o member => noWrap o (.tail _ member)) wraps₂ ranRest
      simp [List.filterMap_cons, fields, none', collected]
    | none =>
      obtain ⟨rfl, wraps₁⟩ := apply_of_wraps (noWrap opt (.head _)) fields wraps step
      simpa [List.filterMap_cons, fields] using
        inductionHypothesis (fun o member => noWrap o (.tail _ member)) wraps₁ ranRest

end ZapOption

namespace ZapLogger

/-- `Logger.WithOptions`: the options applied in order to a copy of the logger. No option
reads what another sets, so the core and the rest are set apart. -/
def withOptions (z : ZapLogger) (opts : List ZapOption) : Except GoPanic ZapLogger := do
  let (core, _) ← ZapOption.applyAll z.core [] opts
  pure { opts.foldl ZapOption.setTerminal z with core }

/-- `Logger.With`: the logger itself for no fields, otherwise a copy whose core has the fields
added by `Core.With`. -/
def withFields (z : ZapLogger) (fields : List Field) : Except GoPanic ZapLogger :=
  if fields.isEmpty then pure z
  else do
    let (core, _) ← z.core.withFields fields []
    pure { z with core }

/-- A logger made by `With` takes the entries its parent takes, and writes the added fields
after the parent's context. -/
theorem check_of_withFields {z z' : ZapLogger} {fields context' : List Field} {lvl : Level}
    (withed : z.withFields fields = .ok z') (taken : z'.core.check lvl = .ok (some context')) :
    ∃ context, z.core.check lvl = .ok (some context) ∧ context' = context ++ fields := by
  unfold withFields at withed
  split at withed
  · rename_i empty
    cases withed
    exact ⟨context', taken, by rw [List.isEmpty_iff.1 empty, List.append_nil]⟩
  · obtain ⟨_, added, ⟨⟩⟩ := Except.bind_eq_ok.1 withed
    exact Core.check_of_withFields added taken

/-- The hook `check` attaches to an entry at `lvl`, whether or not a core takes it: at `Panic`
and `Fatal` always, at `DPanic` in development. -/
def terminalHook (z : ZapLogger) (lvl : Level) : Option CheckWriteHook :=
  if lvl = panicLevel then some (terminalHookOverride .writeThenPanic z.onPanic)
  else if lvl = fatalLevel then some (terminalHookOverride .writeThenFatal z.onFatal)
  else if lvl = dPanicLevel ∧ z.development then
    some (terminalHookOverride .writeThenPanic z.onPanic)
  else none

/-- How a call at `lvl` ends once its entry is written. -/
def ending (z : ZapLogger) (lvl : Level) (msg : String) : Ending :=
  match z.terminalHook lvl with
  | none => .returns
  | some hook => hook.onWrite msg

/-- The cores' part of `CheckedEntry.Write`: the record of the core `Check` found, if any, its
context followed by the call's fields, each encoded with `AddTo`. -/
def writeEntry (lvl : Level) (msg : String) (fields : List Field) :
    Option (List Field) → Except GoPanic (Option Record)
  | none => pure none
  | some context => do
    fields.forM Field.addTo
    pure (some ⟨lvl, msg, context ++ fields⟩)

/-- `Logger.Debug` to `Logger.Fatal`: `check`, then `CheckedEntry.Write`. A core that takes the
entry writes a record of its context followed by the call's fields, each encoded with `AddTo`;
then the hook `check` attached ends the call, whether a core took the entry or not. Below
`DPanic`, `check` asks `Enabled` before `Check`; on these cores a level `Enabled` refuses is
one `Check` refuses (`Core.check_of_not_enabled`). -/
def write (z : ZapLogger) (lvl : Level) (msg : String) (fields : List Field) :
    Except GoPanic (Option Record × Ending) := do
  let record ← writeEntry lvl msg fields (← z.core.check lvl)
  pure (record, z.ending lvl msg)

/-- A record a strict call writes: the call's level and message, and the writing core's
context followed by the call's fields. -/
theorem write_eq_ok {z : ZapLogger} {lvl : Level} {msg : String} {fields : List Field}
    {record : Record} {ending : Ending}
    (wrote : z.write lvl msg fields = .ok (some record, ending)) :
    record.level = lvl ∧ record.message = msg ∧
      ∃ context, z.core.check lvl = .ok (some context) ∧ record.fields = context ++ fields := by
  obtain ⟨checked, checkEq, wrote⟩ := Except.bind_eq_ok.1 wrote
  obtain ⟨written, writtenEq, ⟨⟩⟩ := Except.bind_eq_ok.1 wrote
  cases checked with
  | none => cases writtenEq
  | some context =>
    obtain ⟨-, -, ⟨⟩⟩ := Except.bind_eq_ok.1 writtenEq
    exact ⟨rfl, rfl, context, checkEq, rfl⟩

end ZapLogger

/-- The sugared logger's message: the template alone without operands; with an empty
template, a lone string operand or `fmt.Sprint` of the operands; `fmt.Sprintf` otherwise. -/
def getMessage (lib : GoLib) (template : String) (fmtArgs : List Arg) : String :=
  if fmtArgs.isEmpty then template
  else if template ≠ "" then lib.sprintf template fmtArgs
  else
    match fmtArgs with
    | [.value (.string s)] => s
    | _ => lib.sprint fmtArgs

/-- `SugaredLogger.sweetenFields`: a `zapcore.Field` is taken alone; so is an error, of which
only the first becomes a field; otherwise two elements form a pair, kept when the first is a
string; a lone last element is dropped. What zap reports about dropped elements goes to
separate records. -/
def sweetenFields (seenError : Bool) : List Arg → List Field
  | [] => []
  | .field f :: rest => f :: sweetenFields seenError rest
  | .value v :: rest =>
    if v.isError then
      if seenError then sweetenFields true rest else Zap.error v :: sweetenFields true rest
    else
      match rest with
      | [] => []
      | val :: rest =>
        match v with
        | .string key => Zap.any key val :: sweetenFields seenError rest
        | _ => sweetenFields seenError rest

/-- An error element is taken alone, whatever follows it. -/
theorem sweetenFields_error {v : GoValue} (isError : v.isError = true) (seenError : Bool)
    (rest : List Arg) :
    sweetenFields seenError (.value v :: rest) =
      if seenError then sweetenFields true rest else Zap.error v :: sweetenFields true rest := by
  rw [sweetenFields.eq_def]
  simp only [isError, if_true]

/-- `SugaredLogger.log`: `getMessage`'s message, then the strict logger's `check` and `Write`
with the fields `sweetenFields` parses from the key/value arguments. -/
def ZapLogger.sugarWrite (lib : GoLib) (z : ZapLogger) (lvl : Level) (template : String)
    (fmtArgs context : List Arg) : Except GoPanic (Option Record × Ending) :=
  z.write lvl (getMessage lib template fmtArgs) (sweetenFields false context)

end LogBridge
