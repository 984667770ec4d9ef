import LogBridge.Bridge.Logger

/-!
# The global logger

`L`, `S` and `ReplaceGlobals` keep the process-wide logger and its sugared form behind one
read/write mutex, held for the pointer swap only, so every call is one atomic step on the
pair and an interleaving of concurrent callers is a sequence of such steps. A restore closure
is `ReplaceGlobals(prev)` with the `prev` its own replacement captured; the closure that call
returns is dropped.

Every state a run reaches holds the sugared form of the logger it holds, and a restore puts
back the logger that was global just before its own replacement, whatever ran in between:
restores need not come in LIFO order for that.
-/

namespace LogBridge

/-- `_globalL` and `_globalS` as pointers, with the `prev` captured by each restore closure
handed out so far, oldest first. -/
structure Globals (Ptr : Type) where
  logger : Ptr
  sugar : SugaredLogger Ptr
  restores : List Ptr

/-- One atomic step on the globals: a `ReplaceGlobals` call, or a call of the `k`-th restore
closure handed out. -/
inductive GlobalsEvent (Ptr : Type) where
  | replace (logger : Ptr)
  | restore (k : Nat)

namespace Globals

variable {Ptr : Type} (deref : Ptr → Option Logger)

/-- The initial pair, `_globalL` pointing at `nopOtel` and `_globalS` its `Sugar()`. -/
def initial (p0 : Ptr) : Globals Ptr := ⟨p0, nopOtel.sugarAt p0, []⟩

/-- `ReplaceGlobals(logger)` under the lock: the new pair and the `prev` its closure captures.
`logger.Sugar()` dereferences the pointer; on nil it panics with the lock still held, after
which every call blocks, so there is no next state. -/
def replaceGlobals (g : Globals Ptr) (logger : Ptr) : Option (Globals Ptr × Ptr) := do
  let l ← deref logger
  pure ({ g with logger, sugar := l.sugarAt logger }, g.logger)

/-- One event. -/
def step (g : Globals Ptr) : GlobalsEvent Ptr → Option (Globals Ptr)
  | .replace logger => do
    let (g, prev) ← replaceGlobals deref g logger
    pure { g with restores := g.restores ++ [prev] }
  | .restore k => do
    let prev ← g.restores[k]?
    let (g, _) ← replaceGlobals deref g prev
    pure g

/-- A sequence of events from `g`; `none` once a call never returns. -/
def run (g : Globals Ptr) : List (GlobalsEvent Ptr) → Option (Globals Ptr)
  | [] => some g
  | e :: rest => (step deref g e).bind (run · rest)

/-- The number of restore closures the replacements in `events` hand out. -/
def replaceCount : List (GlobalsEvent Ptr) → Nat
  | [] => 0
  | .replace _ :: rest => replaceCount rest + 1
  | .restore _ :: rest => replaceCount rest

/-- The pair is coherent: `_globalS` is `Sugar()` of the logger `_globalL` points at. -/
def Coherent (g : Globals Ptr) : Prop :=
  ∃ l, deref g.logger = some l ∧ g.sugar = l.sugarAt g.logger

variable {deref}

theorem replaceGlobals_eq_some {g g' : Globals Ptr} {logger prev : Ptr}
    (replaced : replaceGlobals deref g logger = some (g', prev)) :
    ∃ l, deref logger = some l ∧ g' = { g with logger, sugar := l.sugarAt logger } ∧
      prev = g.logger := by
  simp only [replaceGlobals, Option.bind_eq_bind, Option.bind_eq_some, Option.some.injEq,
    Prod.mk.injEq] at replaced
  obtain ⟨l, found, rfl, rfl⟩ := replaced
  exact ⟨l, found, rfl, rfl⟩

/-- What a step does, once for all the proofs below: a replacement installs a logger that is
there and hands out the closure that restores the previous one; a restore installs the logger
its closure captured and hands out nothing. -/
theorem step_eq_some {g g' : Globals Ptr} {e : GlobalsEvent Ptr}
    (stepped : step deref g e = some g') :
    (∃ logger l, e = .replace logger ∧ deref logger = some l ∧
      g' = ⟨logger, l.sugarAt logger, g.restores ++ [g.logger]⟩) ∨
    (∃ k prev l, e = .restore k ∧ g.restores[k]? = some prev ∧ deref prev = some l ∧
      g' = ⟨prev, l.sugarAt prev, g.restores⟩) := by
  cases e with
  | replace logger =>
    simp only [step, Option.pure_def, Option.bind_eq_bind, Option.bind_eq_some,
      Option.some.injEq] at stepped
    obtain ⟨⟨g₁, prev⟩, replaced, rfl⟩ := stepped
    obtain ⟨l, found, rfl, rfl⟩ := replaceGlobals_eq_some replaced
    exact .inl ⟨logger, l, rfl, found, rfl⟩
  | restore k =>
    simp only [step, Option.pure_def, Option.bind_eq_bind, Option.bind_eq_some,
      Option.some.injEq] at stepped
    obtain ⟨prev, captured, ⟨g₁, _⟩, replaced, rfl⟩ := stepped
    obtain ⟨l, found, rfl, -⟩ := replaceGlobals_eq_some replaced
    exact .inr ⟨k, prev, l, rfl, captured, found, rfl⟩

theorem step_coherent {g g' : Globals Ptr} {e : GlobalsEvent Ptr}
    (stepped : step deref g e = some g') : Coherent deref g' := by
  obtain ⟨logger, l, -, found, rfl⟩ | ⟨k, prev, l, -, -, found, rfl⟩ := step_eq_some stepped
  · exact ⟨l, found, rfl⟩
  · exact ⟨l, found, rfl⟩

theorem run_append (g : Globals Ptr) (first second : List (GlobalsEvent Ptr)) :
    run deref g (first ++ second) = (run deref g first).bind (run deref · second) := by
  induction first generalizing g with
  | nil => rfl
  | cons e rest inductionHypothesis =>
    simp only [List.cons_append, run]
    cases step deref g e <;> simp [inductionHypothesis]

/-- A run only appends closures, one per replacement. -/
theorem run_restores {g g' : Globals Ptr} {events : List (GlobalsEvent Ptr)}
    (ran : run deref g events = some g') :
    ∃ handedOut, g'.restores = g.restores ++ handedOut ∧
      handedOut.length = replaceCount events := by
  induction events generalizing g with
  | nil =>
    cases ran
    exact ⟨[], by simp, rfl⟩
  | cons e rest inductionHypothesis =>
    simp only [run, Option.bind_eq_some] at ran
    obtain ⟨g₁, stepped, ranRest⟩ := ran
    obtain ⟨later, laterEq, laterLength⟩ := inductionHypothesis ranRest
    obtain ⟨logger, l, rfl, -, rfl⟩ | ⟨k, prev, l, rfl, -, -, rfl⟩ := step_eq_some stepped
    · exact ⟨g.logger :: later, by simp [laterEq], by simp [replaceCount, laterLength]⟩
    · exact ⟨later, laterEq, by simp [replaceCount, laterLength]⟩

/-- Every state a run reaches after its first step is coherent. -/
theorem run_coherent {g g' : Globals Ptr} {events : List (GlobalsEvent Ptr)}
    (start : Coherent deref g) (ran : run deref g events = some g') : Coherent deref g' := by
  induction events generalizing g with
  | nil =>
    cases ran
    exact start
  | cons e rest inductionHypothesis =>
    simp only [run, Option.bind_eq_some] at ran
    obtain ⟨g₁, stepped, ranRest⟩ := ran
    exact inductionHypothesis (step_coherent stepped) ranRest

/-- The globals after any run of replacements and restores from the initial pair: `S()` is
`Sugar()` of `L()`, so `S().Desugar() == L()`; and a call of the restore closure of the
replacement that followed `before` leaves `L()` where it was before that replacement, with any
events in between, restores of later replacements included. -/
theorem replaceGlobals_restores_previous (p0 : Ptr) (start : deref p0 = some nopOtel) :
    (∀ events g, run deref (initial p0) events = some g →
      g.sugar.desugar = g.logger ∧ Coherent deref g) ∧
    (∀ before logger between g,
      run deref (initial p0)
          (before ++ .replace logger :: between ++ [.restore (replaceCount before)]) = some g →
        some g.logger = (run deref (initial p0) before).map (·.logger)) := by
  refine ⟨fun events g ran => ?_, fun before logger between g ran => ?_⟩
  · obtain ⟨l, found, sugared⟩ := run_coherent ⟨nopOtel, start, rfl⟩ ran
    exact ⟨by rw [sugared]; rfl, l, found, sugared⟩
  · simp only [List.append_assoc, List.cons_append, run_append, run, Option.bind_eq_some,
      Option.some.injEq] at ran
    obtain ⟨g₁, ranBefore, g₂, replaced, g₃, ranBetween, g₄, stepped, rfl⟩ := ran
    obtain ⟨handedBefore, beforeEq, beforeLength⟩ := run_restores ranBefore
    obtain ⟨handedBetween, betweenEq, -⟩ := run_restores ranBetween
    obtain ⟨_, _, ⟨⟩, -⟩ | ⟨_, prev, _, ⟨⟩, captured, -, rfl⟩ := step_eq_some stepped
    obtain ⟨_, _, ⟨⟩, -, rfl⟩ | ⟨_, _, _, ⟨⟩, -⟩ := step_eq_some replaced
    rw [ranBefore, Option.map_some', ← captured, betweenEq, beforeEq, ← beforeLength]
    simp [initial, List.getElem_append_right]

/-- Two nested replacements over the initial logger, restored inner first: the outer restore
puts the initial pointer back. -/
theorem replaceGlobals_restores_nested :
    ∃ g, run (fun _ : Nat => some nopOtel) (initial 0)
        ([] ++ .replace 1 :: [.replace 2, .restore 1] ++
          [.restore (replaceCount ([] : List (GlobalsEvent Nat)))]) = some g ∧
      g.sugar.desugar = g.logger ∧ g.logger = 0 := by
  obtain ⟨coherent, restores⟩ :=
    @replaceGlobals_restores_previous Nat (fun _ => some nopOtel) 0 rfl
  have ran : run (fun _ : Nat => some nopOtel) (initial 0)
      ([] ++ GlobalsEvent.replace 1 :: [GlobalsEvent.replace 2, GlobalsEvent.restore 1] ++
        [GlobalsEvent.restore (replaceCount ([] : List (GlobalsEvent Nat)))]) =
      some ⟨0, nopOtel.sugarAt 0, [0, 1]⟩ := rfl
  exact ⟨_, ran, (coherent _ _ ran).1,
    Option.some.inj ((restores [] 1 [.replace 2, .restore 1] _ ran).trans rfl)⟩

end Globals

end LogBridge
