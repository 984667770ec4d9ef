import LogBridge.Bridge.Isolation

/-!
# Extra fields as values

The code reads `extraFields` as a value: `Clone` copies the struct, `WithOptions` copies it and
appends, and the docstring of `extraFields` speaks of fields "added to every log entry". This
module states that reading as its own model, in which each logger holds a list: its parent's
list as it was when the logger was made, or none for `NewOtel`, followed by the fields its
derivation adds. It proves that the store of backing arrays refines that model on every run
that derives from each logger at most once and gives `WithOptions` no `WrapCore`.

The invariant is a relation `Shows` between a world and the lists of the model. One derivation
keeps it (`Shows.derive`), the new logger by what its options append and the loggers before it
by `derive_apart`; the run theorem follows by induction from the last derivation. The
condition on parents cannot be dropped: two clones of one logger with room for both write
into the same cells, and the first then shows the second's fields.
-/

namespace LogBridge

/-- The fields a derivation adds to those of the header it starts from: the fields of its
`WithExtraFields` options, or those of the `zap.Fields` options given to `WithOptions`. -/
def Derivation.addedFields : Derivation → List Field
  | .newOtel _ opts | .clone _ opts => opts.flatMap LoggerOption.addedFields
  | .withOptions _ opts => (opts.filterMap ZapOption.fieldsOf).flatten

/-- The zap options a derivation passes to `WithOptions`, if it is one. -/
def Derivation.zapOptions : Derivation → List ZapOption
  | .withOptions _ opts => opts
  | _ => []

/-- The extra fields of the loggers made so far, read as values: a logger shows its parent's
fields as they were when it was made, or none for `NewOtel`, followed by the fields its
derivation adds. -/
def Derivation.fieldsAfter (shown : List (List Field)) (d : Derivation) : List (List Field) :=
  shown ++ [(d.parent.map fun p => shown[p]?.getD []).getD [] ++ d.addedFields]

namespace World

variable {rule : GrowthRule} {w w' : World} {d : Derivation}

/-- What the header a derivation starts from shows: its parent's extra fields, or nothing. -/
theorem view_source (w : World) (d : Derivation) :
    (w.source d).view w.store = (d.parent.map w.extraFieldsOf).getD [] := by
  cases d with
  | newOtel => rfl
  | clone p _ | withOptions p _ =>
    cases found : w.loggers[p]? <;>
      simp [source, Derivation.parent, extraFieldsOf, found, Slice.view, Slice.nil]

/-- The logger a derivation adds shows what its starting header shows, followed by the fields
the derivation adds. -/
theorem derive_view (wf : w.WellFormed) (noWrap : ∀ opt ∈ d.zapOptions, opt.isWrapCore = false)
    (derived : w.derive rule d = .ok w') :
    ∃ l, w'.loggers = w.loggers ++ [l] ∧
      l.extraFields.view w'.store = (w.source d).view w.store ++ d.addedFields := by
  cases d with
  | newOtel z opts =>
    cases derived
    exact ⟨_, rfl, (LoggerOption.applyAll_extraFields opts (Slice.fits_nil _)).2⟩
  | clone p opts =>
    rw [derive] at derived
    split at derived
    · cases derived
    · rename_i l found
      cases derived
      refine ⟨_, rfl, ?_⟩
      simpa [source, Derivation.parent, found] using
        (LoggerOption.applyAll_extraFields opts (wf l (List.getElem?_mem found))).2
  | withOptions p opts =>
    rw [derive] at derived
    split at derived
    · cases derived
    · rename_i l found
      obtain ⟨⟨l', store⟩, derived', derived⟩ := Except.bind_eq_ok.1 derived
      cases derived
      refine ⟨l', rfl, ?_⟩
      simpa [source, Derivation.parent, found] using
        Logger.withOptions_view noWrap (wf l (List.getElem?_mem found)) derived'

/-- Derivations one after another: the run of a concatenation is the run of its parts. -/
theorem run_append (ds₁ ds₂ : List Derivation) :
    w.run rule (ds₁ ++ ds₂) = w.run rule ds₁ >>= fun w₁ => w₁.run rule ds₂ := by
  induction ds₁ generalizing w with
  | nil => rfl
  | cons d rest inductionHypothesis =>
    simp only [List.cons_append, run]
    cases w.derive rule d with
    | error => rfl
    | ok w₁ => exact inductionHypothesis

/-- `w` shows the value reading `shown`: one list for each logger, what its header shows. -/
structure Shows (w : World) (shown : List (List Field)) : Prop where
  length : w.loggers.length = shown.length
  view : ∀ i, w.extraFieldsOf i = shown[i]?.getD []

/-- The value reading gains one entry per derivation. -/
theorem length_foldl_fieldsAfter (ds : List Derivation) (shown : List (List Field)) :
    (ds.foldl Derivation.fieldsAfter shown).length = shown.length + ds.length := by
  induction ds generalizing shown with
  | nil => rfl
  | cons d rest inductionHypothesis =>
    rw [List.foldl_cons, inductionHypothesis, Derivation.fieldsAfter, List.length_append,
      List.length_singleton, List.length_cons]
    omega

/-- A derivation from a live parent, or from none, keeps the world showing the value reading,
with the new logger's entry added. -/
theorem Shows.derive {shown : List (List Field)} {used : List Nat} (shows : w.Shows shown)
    (wf : w.WellFormed) (apart : Apart w.loggers used) (fresh : ∀ p, d.parent = some p → p ∉ used)
    (noWrap : ∀ opt ∈ d.zapOptions, opt.isWrapCore = false) (derived : w.derive rule d = .ok w') :
    w'.Shows (d.fieldsAfter shown) := by
  obtain ⟨l, loggers, view⟩ := derive_view wf noWrap derived
  have kept := (derive_apart wf apart fresh derived).2
  have reading : w.extraFieldsOf = fun p => shown[p]?.getD [] := funext shows.view
  refine ⟨by simp [loggers, Derivation.fieldsAfter, shows.length], fun i => ?_⟩
  rcases lt_trichotomy i w.loggers.length with old | rfl | past
  · rw [kept i old, shows.view i, Derivation.fieldsAfter,
      List.getElem?_append_left (shows.length ▸ old)]
  · rw [extraFieldsOf_eq (loggers ▸ List.getElem?_concat_length _ _), view, view_source,
      reading, Derivation.fieldsAfter, shows.length, List.getElem?_concat_length]
    rfl
  · have beyond : w'.loggers.length ≤ i := by rw [loggers, List.length_append]; exact past
    have beyond' : (d.fieldsAfter shown).length ≤ i := by
      rw [Derivation.fieldsAfter, List.length_append, ← shows.length]; exact past
    simp [extraFieldsOf, List.getElem?_eq_none beyond, List.getElem?_eq_none beyond']

/-- In a run that derives at most once from each logger, and gives `WithOptions` no `WrapCore`,
the store refines the value reading of extra fields: the run makes one logger per derivation,
and each shows its parent's extra fields, as they were when it was made, followed by the fields
its own derivation adds. -/
theorem run_refines_fieldsAfter {ds : List Derivation} {w : World}
    (once : (ds.filterMap Derivation.parent).Nodup)
    (noWrap : ∀ d ∈ ds, ∀ opt ∈ d.zapOptions, opt.isWrapCore = false)
    (ran : empty.run rule ds = .ok w) :
    w.loggers.length = ds.length ∧
      ∀ i, w.extraFieldsOf i = (ds.foldl Derivation.fieldsAfter [])[i]?.getD [] := by
  induction ds using List.reverseRecOn generalizing w with
  | nil =>
    cases ran
    exact ⟨rfl, fun i => by simp [extraFieldsOf, empty]⟩
  | append_singleton ds d inductionHypothesis =>
    rw [run_append] at ran
    obtain ⟨w₁, first, ran⟩ := Except.bind_eq_ok.1 ran
    obtain ⟨w', derived, ⟨⟩⟩ := Except.bind_eq_ok.1 ran
    rw [List.filterMap_append, List.nodup_append] at once
    obtain ⟨wf₁, apart₁, -⟩ := run_apart wellFormed_empty (apart_empty []) once.1
      (fun _ _ => List.not_mem_nil _) first
    obtain ⟨length₁, view₁⟩ := inductionHypothesis once.1
      (fun d member => noWrap d (List.mem_append_left _ member)) first
    have shows := Shows.derive ⟨length₁.trans (by simp [length_foldl_fieldsAfter]), view₁⟩ wf₁
      apart₁ (fun p named member => once.2.2 (by simpa using member) (by simp [named]))
      (noWrap d (List.mem_append_right _ (List.mem_singleton_self d))) derived
    rw [List.foldl_append, List.foldl_cons, List.foldl_nil]
    exact ⟨shows.length.trans (by simp [Derivation.fieldsAfter, length_foldl_fieldsAfter]),
      shows.view⟩

/-- `NewOtel` with `a`, a clone of it with `b`, and `WithOptions(zap.Fields(c))` on the clone:
the loggers show `a`, `a b` and `a b c`. -/
theorem run_refines_fieldsAfter_on_chain :
    let ds : List Derivation :=
      [.newOtel (.new .nop) [.withExtraFields [Zap.string "a" ""]],
        .clone 0 [.withExtraFields [Zap.string "b" ""]],
        .withOptions 1 [.fields [Zap.string "c" ""]]]
    ∃ w, (ds.filterMap Derivation.parent).Nodup ∧
      (∀ d ∈ ds, ∀ opt ∈ d.zapOptions, opt.isWrapCore = false) ∧
      empty.run fieldGrowth ds = .ok w ∧
      (w.loggers.length = ds.length ∧
        ∀ i, w.extraFieldsOf i = (ds.foldl Derivation.fieldsAfter [])[i]?.getD []) ∧
      (ds.foldl Derivation.fieldsAfter []).map (·.map (·.key)) =
        [["a"], ["a", "b"], ["a", "b", "c"]] := by
  intro ds
  exact ⟨_, by decide, by decide, rfl,
    @run_refines_fieldsAfter fieldGrowth ds _ (by decide) (by decide) rfl, by decide⟩

end World

end LogBridge
