import LogBridge.Bridge.Sugared

/-!
# Derived loggers and their extra fields

A program makes loggers with `NewOtel` and derives more from them with `Clone` and
`WithOptions`. Each copies its parent's `extraFields` header and appends through the copy, so
all the loggers of a program share the store of backing arrays. A `World` is the loggers made
so far and that store; a derivation is one step on it.

A derivation changes what an earlier logger shows only through the store, and only where the
header it appends through shares that logger's array, is shorter, and has room left: the
parent itself is never changed, but a sibling can be.
-/

namespace LogBridge

/-- The fields an option appends to the extra fields: those of `WithExtraFields`. -/
def LoggerOption.addedFields : LoggerOption → List Field
  | .withExtraFields fields => fields
  | _ => []

section Options

variable (rule : GrowthRule)

/-- An option acts on the extra fields and the store only by appending its fields. -/
theorem LoggerOption.apply_extraFields (opt : LoggerOption) (σ : Store Field) (l : Logger) :
    (opt.apply rule σ l).1.extraFields = (l.extraFields.append rule σ opt.addedFields).1 ∧
      (opt.apply rule σ l).2 = (l.extraFields.append rule σ opt.addedFields).2 := by
  cases opt <;> exact ⟨rfl, rfl⟩

variable {rule}

/-- The options of one call leave the new header within the store, showing the old extra
fields followed by the fields of its `WithExtraFields` options. -/
theorem LoggerOption.applyAll_extraFields (opts : List LoggerOption) {σ : Store Field}
    {l : Logger} (fits : l.extraFields.Fits σ) :
    (applyAll rule σ l opts).1.extraFields.Fits (applyAll rule σ l opts).2 ∧
      (applyAll rule σ l opts).1.extraFields.view (applyAll rule σ l opts).2 =
        l.extraFields.view σ ++ opts.flatMap addedFields := by
  induction opts generalizing σ l with
  | nil => exact ⟨fits, by simp [applyAll]⟩
  | cons opt rest inductionHypothesis =>
    have applied := opt.apply_extraFields rule σ l
    obtain ⟨restFits, restView⟩ := inductionHypothesis (σ := (opt.apply rule σ l).2)
      (l := (opt.apply rule σ l).1) (by rw [applied.1, applied.2]; exact Slice.fits_append fits)
    refine ⟨restFits, ?_⟩
    rw [applyAll, restView, applied.1, applied.2, Slice.view_append fits, List.flatMap_cons,
      List.append_assoc]

/-- The frame of the options of one call: every header within the store stays so, and one
untouched by the logger's own keeps what it shows. -/
theorem LoggerOption.applyAll_frame (opts : List LoggerOption) {σ : Store Field} {l : Logger}
    {t : Slice} (fits : l.extraFields.Fits σ) (other : t.Fits σ) :
    t.Fits (applyAll rule σ l opts).2 ∧
      (t.Untouched l.extraFields → t.view (applyAll rule σ l opts).2 = t.view σ) := by
  induction opts generalizing σ l with
  | nil => exact ⟨other, fun _ => rfl⟩
  | cons opt rest inductionHypothesis =>
    have applied := opt.apply_extraFields rule σ l
    obtain ⟨restFits, restView⟩ := inductionHypothesis (σ := (opt.apply rule σ l).2)
      (l := (opt.apply rule σ l).1) (by rw [applied.1, applied.2]; exact Slice.fits_append fits)
      (by rw [applied.2]; exact Slice.fits_append_frame fits other)
    refine ⟨restFits, fun apart => ?_⟩
    rw [applyAll, restView (by rw [applied.1]; exact Slice.untouched_append other apart),
      applied.2, Slice.view_append_frame fits other apart]

/-- `WithOptions` acts on the extra fields and the store by one append of the fields it
extracted. -/
theorem Logger.withOptions_extraFields {σ σ' : Store Field} {l l' : Logger}
    {opts : List ZapOption} (derived : l.withOptions rule σ opts = .ok (l', σ')) :
    ∃ extracted, l'.extraFields = (l.extraFields.append rule σ extracted).1 ∧
      σ' = (l.extraFields.append rule σ extracted).2 := by
  obtain ⟨⟨_, extracted⟩, -, derived⟩ := Except.bind_eq_ok.1 derived
  obtain ⟨logger, -, derived⟩ := Except.bind_eq_ok.1 derived
  obtain ⟨skipCaller, -, derived⟩ := Except.bind_eq_ok.1 derived
  cases derived
  exact ⟨extracted, rfl, rfl⟩

/-- `WithOptions` first runs its options on a throwaway `fieldExtractorCore`, whose `With`
returns a nil core. A `zap.Fields` option followed by a second one or by `IncreaseLevel`, with
only `Hooks` and options that leave the core alone between them, calls a method of that nil
core: the call panics, whatever the logger and its zap loggers, and returns no logger. -/
theorem withOptions_panics_after_fields (l : Logger) (σ : Store Field) (fs : List Field)
    (between : List ZapOption) (next : ZapOption) (rest : List ZapOption)
    (keep : ∀ opt ∈ between, opt.keepsCore) (calls : next.callsCore) :
    l.withOptions rule σ (.fields fs :: between ++ next :: rest) = .error .nilDereference := by
  rw [Logger.withOptions, ZapOption.applyAll_fieldExtractor_panics fs rest keep calls]
  rfl

/-- The initial logger with `zap.Fields(a)`, `zap.Hooks()`, `zap.Fields(b)`. -/
theorem withOptions_panics_on_fields_after_hooks :
    (∀ opt ∈ [ZapOption.hooks], opt.keepsCore) ∧
      (ZapOption.fields [Zap.string "b" ""]).callsCore ∧
      nopOtel.withOptions fieldGrowth ⟨[]⟩
          (.fields [Zap.string "a" ""] :: [.hooks] ++ [.fields [Zap.string "b" ""]]) =
        .error .nilDereference :=
  ⟨by decide, rfl,
    withOptions_panics_after_fields nopOtel ⟨[]⟩ _ _ _ [] (by decide) rfl⟩

/-- `WithOptions` with one `zap.Fields`, and only `Hooks` and options that leave the core alone
around it, returns once both zap loggers take the options: the new logger holds them, and
shows the receiver's extra fields followed by those of the `zap.Fields` option. -/
theorem withOptions_single_fields {σ : Store Field} {l : Logger} (fits : l.extraFields.Fits σ)
    (fs : List Field) {before after : List ZapOption}
    (keepBefore : ∀ opt ∈ before, opt.keepsCore) (keepAfter : ∀ opt ∈ after, opt.keepsCore)
    {z₁ z₂ : ZapLogger} (logger : l.logger.withOptions (before ++ .fields fs :: after) = .ok z₁)
    (skipCaller : l.skipCaller.withOptions (before ++ .fields fs :: after) = .ok z₂) :
    ∃ l' σ', l.withOptions rule σ (before ++ .fields fs :: after) = .ok (l', σ') ∧
      l'.logger = z₁ ∧ l'.skipCaller = z₂ ∧
      l'.extraFields.view σ' = l.extraFields.view σ ++ fs := by
  obtain ⟨core, extracted⟩ := ZapOption.applyAll_fieldExtractor_single fs keepBefore keepAfter
  refine ⟨{ l with
      logger := z₁, skipCaller := z₂, extraFields := (l.extraFields.append rule σ fs).1 },
    (l.extraFields.append rule σ fs).2, ?_, rfl, rfl, Slice.view_append fits⟩
  rw [Logger.withOptions, extracted]
  simp only [bind, Except.bind, logger, skipCaller]
  rfl

/-- The initial logger with `zap.Fields(a)` alone: it shows `a`. -/
theorem withOptions_single_fields_on_nop :
    nopOtel.extraFields.Fits (⟨[]⟩ : Store Field) ∧
      nopOtel.logger.withOptions ([] ++ [.fields [Zap.string "a" ""]]) = .ok (.new .nop) ∧
      nopOtel.skipCaller.withOptions ([] ++ [.fields [Zap.string "a" ""]]) = .ok (.new .nop) ∧
      ∃ l' σ', nopOtel.withOptions fieldGrowth ⟨[]⟩ ([] ++ [.fields [Zap.string "a" ""]]) =
          .ok (l', σ') ∧ l'.logger = .new .nop ∧ l'.skipCaller = .new .nop ∧
        l'.extraFields.view σ' = nopOtel.extraFields.view ⟨[]⟩ ++ [Zap.string "a" ""] :=
  ⟨Slice.fits_nil _, rfl, rfl,
    withOptions_single_fields (Slice.fits_nil _) _ (by decide) (by decide) rfl rfl⟩

/-- Without `WrapCore`, `WithOptions` appends the fields of its `zap.Fields` options. -/
theorem Logger.withOptions_view {σ σ' : Store Field} {l l' : Logger} {opts : List ZapOption}
    (noWrap : ∀ opt ∈ opts, opt.isWrapCore = false) (fits : l.extraFields.Fits σ)
    (derived : l.withOptions rule σ opts = .ok (l', σ')) :
    l'.extraFields.view σ' =
      l.extraFields.view σ ++ (opts.filterMap ZapOption.fieldsOf).flatten := by
  obtain ⟨⟨core, extracted⟩, ran, derived⟩ := Except.bind_eq_ok.1 derived
  obtain ⟨-, collected⟩ := ZapOption.applyAll_of_wraps_fieldExtractor noWrap .refl ran
  obtain ⟨logger, -, derived⟩ := Except.bind_eq_ok.1 derived
  obtain ⟨skipCaller, -, derived⟩ := Except.bind_eq_ok.1 derived
  cases derived
  exact collected ▸ Slice.view_append fits

/-- Without `WrapCore`, `WithOptions` returns only when at most one of its options is
`zap.Fields`: a second one, wherever it stands and whatever lies between, reaches the nil core
`fieldExtractorCore.With` left behind and panics. When it returns, the new logger shows the
receiver's extra fields followed by the fields of that one option. -/
theorem withOptions_fields_at_most_once {σ σ' : Store Field} {l l' : Logger}
    {opts : List ZapOption} (noWrap : ∀ opt ∈ opts, opt.isWrapCore = false)
    (fits : l.extraFields.Fits σ) (derived : l.withOptions rule σ opts = .ok (l', σ')) :
    (opts.filterMap ZapOption.fieldsOf).length ≤ 1 ∧
      l'.extraFields.view σ' =
        l.extraFields.view σ ++ (opts.filterMap ZapOption.fieldsOf).flatten := by
  obtain ⟨_, ran, -⟩ := Except.bind_eq_ok.1 derived
  exact ⟨(ZapOption.applyAll_of_wraps_fieldExtractor noWrap .refl ran).1,
    Logger.withOptions_view noWrap fits derived⟩

/-- The initial logger with `zap.AddCaller()`, `zap.Fields(a)`, `zap.Hooks()`. -/
theorem withOptions_fields_at_most_once_on_nop :
    ∃ l' σ', (∀ opt ∈ [.addCaller, .fields [Zap.string "a" ""], ZapOption.hooks],
        opt.isWrapCore = false) ∧ nopOtel.extraFields.Fits (⟨[]⟩ : Store Field) ∧
      nopOtel.withOptions fieldGrowth ⟨[]⟩ [.addCaller, .fields [Zap.string "a" ""], .hooks] =
        .ok (l', σ') ∧
      ([ZapOption.addCaller, .fields [Zap.string "a" ""], .hooks].filterMap
          ZapOption.fieldsOf).length ≤ 1 ∧
      l'.extraFields.view σ' = nopOtel.extraFields.view ⟨[]⟩ ++
        ([ZapOption.addCaller, .fields [Zap.string "a" ""], .hooks].filterMap
          ZapOption.fieldsOf).flatten :=
  ⟨_, _, by decide, Slice.fits_nil _, rfl,
    withOptions_fields_at_most_once (by decide) (Slice.fits_nil _) rfl⟩

end Options

/-- How a logger of the program comes about: `NewOtel` on a zap logger, or `Clone` or
`WithOptions` on a logger made earlier, named by its place in the order of making. -/
inductive Derivation where
  | newOtel (z : ZapLogger) (opts : List LoggerOption)
  | clone (parent : Nat) (opts : List LoggerOption)
  | withOptions (parent : Nat) (opts : List ZapOption)

/-- The parent a derivation copies, if any. -/
def Derivation.parent : Derivation → Option Nat
  | .newOtel _ _ => none
  | .clone parent _ | .withOptions parent _ => some parent

/-- The loggers made so far, in order, and the store their headers point into. -/
structure World where
  store : Store Field
  loggers : List Logger

namespace World

/-- A program before its first logger. -/
def empty : World := ⟨⟨[]⟩, []⟩

/-- The extra fields the `i`-th logger's calls append, as its header shows them now. -/
def extraFieldsOf (w : World) (i : Nat) : List Field :=
  (w.loggers[i]?.map fun l => l.extraFields.view w.store).getD []

/-- Every logger's header lies within the store. -/
def WellFormed (w : World) : Prop := ∀ l ∈ w.loggers, l.extraFields.Fits w.store

/-- The header a derivation starts appending through: the nil slice for `NewOtel`, the parent's
extra fields otherwise. -/
def source (w : World) (d : Derivation) : Slice :=
  ((d.parent.bind fun p => w.loggers[p]?).map (·.extraFields)).getD .nil

variable (rule : GrowthRule)

/-- One derivation. A parent not made yet is a nil `*Logger`, which the method dereferences. -/
def derive (w : World) : Derivation → Except GoPanic World
  | .newOtel z opts =>
    let (l, store) := newOtel rule w.store z opts
    pure ⟨store, w.loggers ++ [l]⟩
  | .clone parent opts =>
    match w.loggers[parent]? with
    | none => .error .nilDereference
    | some l =>
      let (l, store) := l.clone rule w.store opts
      pure ⟨store, w.loggers ++ [l]⟩
  | .withOptions parent opts =>
    match w.loggers[parent]? with
    | none => .error .nilDereference
    | some l => do
      let (l, store) ← l.withOptions rule w.store opts
      pure ⟨store, w.loggers ++ [l]⟩

/-- Derivations in order. -/
def run (w : World) : List Derivation → Except GoPanic World
  | [] => pure w
  | d :: rest => do run (← w.derive rule d) rest

variable {rule} {w w' : World} {d : Derivation}

/-- What a derivation does: it adds one logger whose header lies within the new store; every
header within the old store stays so, and one untouched by the source keeps what it shows. -/
theorem derive_eq_ok (wf : w.WellFormed) (derived : w.derive rule d = .ok w') :
    (∃ l, w'.loggers = w.loggers ++ [l] ∧ l.extraFields.Fits w'.store) ∧
      ∀ t : Slice, t.Fits w.store → t.Fits w'.store ∧
        (t.Untouched (w.source d) → t.view w'.store = t.view w.store) := by
  cases d with
  | newOtel z opts =>
    cases derived
    have start := Slice.fits_nil w.store
    exact ⟨⟨_, rfl, (LoggerOption.applyAll_extraFields opts start).1⟩,
      fun t other => LoggerOption.applyAll_frame opts start other⟩
  | clone parent opts =>
    rw [derive] at derived
    split at derived
    · cases derived
    · rename_i l found
      cases derived
      have start := wf l (List.getElem?_mem found)
      have frame := fun (t : Slice) (other : t.Fits w.store) =>
        @LoggerOption.applyAll_frame rule opts _ _ _ start other
      exact ⟨⟨_, rfl, (LoggerOption.applyAll_extraFields opts start).1⟩,
        by simpa [source, Derivation.parent, found] using frame⟩
  | withOptions parent opts =>
    rw [derive] at derived
    split at derived
    · cases derived
    · rename_i l found
      obtain ⟨⟨l', store⟩, derived', derived⟩ := Except.bind_eq_ok.1 derived
      cases derived
      have start := wf l (List.getElem?_mem found)
      obtain ⟨extracted, newHeader, newStore⟩ := Logger.withOptions_extraFields derived'
      refine ⟨⟨l', rfl, by rw [newHeader, newStore]; exact Slice.fits_append start⟩,
        fun t other => ⟨by rw [newStore]; exact Slice.fits_append_frame start other, ?_⟩⟩
      simpa [source, Derivation.parent, found, newStore] using
        Slice.view_append_frame start other

theorem derive_wellFormed (wf : w.WellFormed) (derived : w.derive rule d = .ok w') :
    w'.WellFormed := by
  obtain ⟨⟨l, loggers, fits⟩, frame⟩ := derive_eq_ok wf derived
  intro l' member
  rw [loggers, List.mem_append, List.mem_singleton] at member
  rcases member with old | rfl
  · exact (frame _ (wf l' old)).1
  · exact fits

/-- Every world a run reaches from a well-formed one is well formed. -/
theorem run_wellFormed {ds : List Derivation} (wf : w.WellFormed) (ran : w.run rule ds = .ok w') :
    w'.WellFormed := by
  induction ds generalizing w with
  | nil =>
    cases ran
    exact wf
  | cons d rest inductionHypothesis =>
    obtain ⟨w₁, derived, ranRest⟩ := Except.bind_eq_ok.1 ran
    exact inductionHypothesis (derive_wellFormed wf derived) ranRest

theorem wellFormed_empty : empty.WellFormed := by simp [WellFormed, empty]

/-- A derivation keeps what every logger untouched by its source shows, its parent among them:
deriving never changes the parent's extra fields. -/
theorem derive_keeps_untouched (wf : w.WellFormed) (derived : w.derive rule d = .ok w')
    {i : Nat} {l : Logger} (found : w.loggers[i]? = some l)
    (apart : l.extraFields.Untouched (w.source d)) :
    w'.extraFieldsOf i = w.extraFieldsOf i := by
  obtain ⟨⟨l', loggers, -⟩, frame⟩ := derive_eq_ok wf derived
  have stillFound : w'.loggers[i]? = some l := by
    rw [loggers, List.getElem?_append_left (List.getElem?_eq_some_iff.1 found).1, found]
  simp [extraFieldsOf, found, stillFound,
    (frame _ (wf l (List.getElem?_mem found))).2 apart]

theorem derive_keeps_parent (wf : w.WellFormed) (derived : w.derive rule d = .ok w')
    {p : Nat} (parent : d.parent = some p) : w'.extraFieldsOf p = w.extraFieldsOf p := by
  cases found : w.loggers[p]? with
  | none =>
    cases d <;> simp only [Derivation.parent, Option.some.injEq, reduceCtorEq] at parent <;>
      subst parent <;> simp [derive, found] at derived
  | some l =>
    exact derive_keeps_untouched wf derived found
      (by simp [source, parent, found, Slice.untouched_self])

/-- `NewOtel` with the field `a`, then a clone of that logger adding `b`. -/
theorem derive_keeps_parent_of_clone :
    ∃ w w', empty.run fieldGrowth [.newOtel (.new .nop) [.withExtraFields [Zap.string "a" ""]]] =
        .ok w ∧ w.WellFormed ∧
      w.derive fieldGrowth (.clone 0 [.withExtraFields [Zap.string "b" ""]]) = .ok w' ∧
      (Derivation.clone 0 [.withExtraFields [Zap.string "b" ""]]).parent = some 0 ∧
      w'.extraFieldsOf 0 = w.extraFieldsOf 0 :=
  have wf := @run_wellFormed fieldGrowth empty _
    [.newOtel (.new .nop) [.withExtraFields [Zap.string "a" ""]]] wellFormed_empty rfl
  ⟨_, _, rfl, wf, rfl, rfl, @derive_keeps_parent fieldGrowth _ _
    (.clone 0 [.withExtraFields [Zap.string "b" ""]]) wf rfl _ rfl⟩

/-- A clone shows its parent's extra fields followed by those of its `WithExtraFields`
options, in order. -/
theorem derive_clone_extraFields (wf : w.WellFormed) {parent : Nat} {opts : List LoggerOption}
    (derived : w.derive rule (.clone parent opts) = .ok w') :
    w'.extraFieldsOf w.loggers.length =
      w.extraFieldsOf parent ++ opts.flatMap LoggerOption.addedFields := by
  rw [derive] at derived
  split at derived
  · cases derived
  · rename_i l found
    cases derived
    simp [extraFieldsOf, found, Logger.clone,
      (LoggerOption.applyAll_extraFields opts (wf l (List.getElem?_mem found))).2]

/-- `NewOtel` with the field `a`, then a clone adding `b` and `c` with two options. -/
theorem derive_clone_extraFields_of_two_options :
    ∃ w w', empty.run fieldGrowth [.newOtel (.new .nop) [.withExtraFields [Zap.string "a" ""]]] =
        .ok w ∧ w.WellFormed ∧
      w.derive fieldGrowth (.clone 0 [.withExtraFields [Zap.string "b" ""], .withCaller false,
        .withExtraFields [Zap.string "c" ""]]) = .ok w' ∧
      w'.extraFieldsOf w.loggers.length = w.extraFieldsOf 0 ++
        [.withExtraFields [Zap.string "b" ""], .withCaller false,
          .withExtraFields [Zap.string "c" ""]].flatMap LoggerOption.addedFields :=
  have wf := @run_wellFormed fieldGrowth empty _
    [.newOtel (.new .nop) [.withExtraFields [Zap.string "a" ""]]] wellFormed_empty rfl
  ⟨_, _, rfl, wf, rfl, @derive_clone_extraFields fieldGrowth _ _ wf _ _ rfl⟩

end World

/-- Five derivations from `NewOtel`, each adding one field: the clone of the third logger
shows `a b c d`. A second clone of the third then appends its `e` in place, into the array
with room for four that the two clones share, and the first clone shows `a b c e` from then
on, without any call on it. -/
theorem clone_overwrites_sibling_fields :
    ((World.empty.run fieldGrowth
        [.newOtel (.new .nop) [.withExtraFields [Zap.string "a" ""]],
          .clone 0 [.withExtraFields [Zap.string "b" ""]],
          .clone 1 [.withExtraFields [Zap.string "c" ""]],
          .clone 2 [.withExtraFields [Zap.string "d" ""]]]).map
        fun w => (w.extraFieldsOf 3).map (·.key)) = .ok ["a", "b", "c", "d"] ∧
      ((World.empty.run fieldGrowth
        [.newOtel (.new .nop) [.withExtraFields [Zap.string "a" ""]],
          .clone 0 [.withExtraFields [Zap.string "b" ""]],
          .clone 1 [.withExtraFields [Zap.string "c" ""]],
          .clone 2 [.withExtraFields [Zap.string "d" ""]],
          .clone 2 [.withExtraFields [Zap.string "e" ""]]]).map
        fun w => (w.extraFieldsOf 3).map (·.key)) = .ok ["a", "b", "c", "e"] :=
  ⟨rfl, rfl⟩

/-- Two derivations of one zap logger, each adding the field `a`. The clone that adds it with
`WithExtraFields` shows it, yet a sugared call on the clone writes a record without it: the
sugared calls never read `extraFields`. The logger that adds it with `zap.Fields` shows it too,
and a strict call on it writes it twice, once from the core's context and once from the
extra fields appended to the call's own. -/
theorem extraFields_dropped_or_written_twice (lib : GoLib) (span : Span) (rt : Runtime) :
    let z : ZapLogger := .new (.io debugLevel [])
    let a := Zap.string "a" "1"
    let cloned :=
      (newOtel fieldGrowth ⟨[]⟩ z []).1.clone fieldGrowth ⟨[]⟩ [.withExtraFields [a]]
    cloned.1.extraFields.view cloned.2 = [a] ∧
      (∃ record calls,
        cloned.1.sugar.logw lib span rt warnLevel cloned.1.sugar.base "m" [] =
          .ok ⟨some record, calls, .returns⟩ ∧ record.fields = []) ∧
      ∃ l σ,
        (newOtel fieldGrowth ⟨[]⟩ z []).1.withOptions fieldGrowth ⟨[]⟩ [.fields [a]] =
          .ok (l, σ) ∧ l.extraFields.view σ = [a] ∧
        ∃ record calls,
          l.logContext lib σ span rt warnLevel "m" [] = .ok ⟨some record, calls, .returns⟩ ∧
          record.fields = [a, a] := by
  refine ⟨rfl, ?_, _, _, rfl, rfl, ?_⟩ <;>
    rcases span with ⟨_ | _, context⟩ <;> exact ⟨_, _, rfl, rfl⟩

end LogBridge
