import LogBridge.Bridge.Derivation

/-!
# Derived loggers that stay apart

`Clone` and `WithOptions` copy their parent's `extraFields` header and append through the copy,
so two loggers derived from one parent can append in place into one backing array, the second
over the first. This module states both sides of that.

A run that derives from each logger at most once keeps every logger's extra fields as they were
when it was made, whatever the growth rule, the options and the zap loggers. The invariant is
over headers alone: a logger not yet derived from is *live*; every header is untouched by every
live one, and two live headers are separate. A derivation starts from a live header, its
parent's or the nil slice, and each append of its options keeps the header it builds apart from
the live ones.

Conversely, two clones of a logger whose header has room for both write into the same cells,
and the first clone then shows the second's fields.
-/

namespace LogBridge

theorem getElem?_concat_cases {α : Type} {xs : List α} {x y : α} {i : Nat}
    (found : (xs ++ [x])[i]? = some y) : xs[i]? = some y ∨ (i = xs.length ∧ y = x) := by
  rcases Nat.lt_or_ge i xs.length with old | new
  · exact .inl (by rwa [List.getElem?_append_left old] at found)
  · rw [List.getElem?_append_right new] at found
    rcases Nat.eq_or_lt_of_le new with same | past
    · subst same
      simp only [Nat.sub_self, List.getElem?_cons_zero, Option.some.injEq] at found
      exact .inr ⟨rfl, found.symm⟩
    · simp [List.getElem?_eq_none (by simp; omega : [x].length ≤ i - xs.length)] at found

namespace World

/-- The invariant of a run that derives at most once from each logger, `used` listing the
loggers derived from so far: every logger is untouched by the header of each logger not derived
from, and two such headers are separate. -/
structure Apart (loggers : List Logger) (used : List Nat) : Prop where
  untouched : ∀ {i j : Nat} {t u : Logger}, loggers[i]? = some t → loggers[j]? = some u →
    j ∉ used → t.extraFields.Untouched u.extraFields
  separate : ∀ {i j : Nat} {u v : Logger}, i ≠ j → loggers[i]? = some u →
    loggers[j]? = some v → i ∉ used → j ∉ used → u.extraFields.Separate v.extraFields

/-- A header a derivation is appending through, against the loggers made before it: it touches
none of them, and it is separate from, and does not touch, the header of one not derived from. -/
structure Pending (loggers : List Logger) (used : List Nat) (s : Slice) : Prop where
  untouched : ∀ t ∈ loggers, t.extraFields.Untouched s
  apart : ∀ {j : Nat} {u : Logger}, loggers[j]? = some u → j ∉ used →
    s.Separate u.extraFields ∧ s.Untouched u.extraFields

variable {rule : GrowthRule} {loggers : List Logger} {used : List Nat}

theorem apart_empty (used : List Nat) : Apart [] used := ⟨by simp, by simp⟩

/-- Marking more loggers used keeps the invariant. -/
theorem Apart.mono {used' : List Nat} (apart : Apart loggers used)
    (more : ∀ j, j ∉ used' → j ∉ used) : Apart loggers used' :=
  ⟨fun found found' live => apart.untouched found found' (more _ live),
    fun different found found' live live' =>
      apart.separate different found found' (more _ live) (more _ live')⟩

theorem pending_nil (loggers : List Logger) (used : List Nat) : Pending loggers used .nil :=
  ⟨fun _ _ => Slice.untouched_nil _, fun _ _ => ⟨Slice.nil_separate _, Slice.nil_untouched _⟩⟩

/-- A live parent's header, once the parent is marked used, is pending against the others. -/
theorem Apart.pending_parent (apart : Apart loggers used) {p : Nat} {l : Logger}
    (found : loggers[p]? = some l) (live : p ∉ used) : Pending loggers (p :: used) l.extraFields where
  untouched t member := by
    obtain ⟨i, found'⟩ := List.mem_iff_getElem?.1 member
    exact apart.untouched found' found live
  apart {j _} found' notUsed := by
    have different : p ≠ j := fun same => notUsed (same ▸ List.mem_cons_self _ _)
    have liveJ : j ∉ used := fun member => notUsed (List.mem_cons_of_mem _ member)
    exact ⟨apart.separate different found found' live liveJ, apart.untouched found found' liveJ⟩

/-- One append keeps a pending header pending while the loggers' headers lie within the store. -/
theorem Pending.append {σ : Store Field} {s : Slice} {xs : List Field}
    (pending : Pending loggers used s) (fits : ∀ t ∈ loggers, t.extraFields.Fits σ) :
    Pending loggers used (s.append rule σ xs).1 where
  untouched t member := Slice.untouched_append (fits t member) (pending.untouched t member)
  apart found notUsed :=
    Slice.separate_append (fits _ (List.getElem?_mem found)) (pending.apart found notUsed).1
      (pending.apart found notUsed).2

/-- The options of one call keep the header they append through pending. -/
theorem Pending.applyAll (opts : List LoggerOption) {σ : Store Field} {l : Logger}
    (pending : Pending loggers used l.extraFields) (fits : ∀ t ∈ loggers, t.extraFields.Fits σ)
    (own : l.extraFields.Fits σ) :
    Pending loggers used (LoggerOption.applyAll rule σ l opts).1.extraFields := by
  induction opts generalizing σ l with
  | nil => exact pending
  | cons opt rest inductionHypothesis =>
    have applied := opt.apply_extraFields rule σ l
    refine inductionHypothesis (σ := (opt.apply rule σ l).2) (l := (opt.apply rule σ l).1)
      (by rw [applied.1]; exact pending.append fits) (fun t member => ?_)
      (by rw [applied.1, applied.2]; exact Slice.fits_append own)
    rw [applied.2]
    exact Slice.fits_append_frame own (fits t member)

/-- A new logger whose header is pending keeps the invariant. -/
theorem Apart.push {l : Logger} (apart : Apart loggers used)
    (pending : Pending loggers used l.extraFields) : Apart (loggers ++ [l]) used where
  untouched {i j _ _} found found' live := by
    rcases getElem?_concat_cases found with old | ⟨-, rfl⟩ <;>
      rcases getElem?_concat_cases found' with old' | ⟨-, rfl⟩
    · exact apart.untouched old old' live
    · exact pending.untouched _ (List.getElem?_mem old)
    · exact (pending.apart old' live).2
    · exact Slice.untouched_self _
  separate {i j _ _} different found found' live live' := by
    rcases getElem?_concat_cases found with old | ⟨rfl, rfl⟩ <;>
      rcases getElem?_concat_cases found' with old' | ⟨rfl, rfl⟩
    · exact apart.separate different old old' live live'
    · exact (pending.apart old live).1.symm
    · exact (pending.apart old' live').1
    · exact absurd rfl different

variable {w w' : World} {d : Derivation}

/-- The header a derivation starts from is pending once its parent is marked used. -/
theorem Apart.pending_source (apart : Apart w.loggers used)
    (fresh : ∀ p, d.parent = some p → p ∉ used) (derived : w.derive rule d = .ok w') :
    Pending w.loggers (d.parent.toList ++ used) (w.source d) := by
  cases d with
  | newOtel z opts => exact pending_nil _ _
  | clone p opts | withOptions p opts =>
    cases found : w.loggers[p]? with
    | none => simp [derive, found] at derived
    | some l =>
      simpa [source, Derivation.parent, found] using
        apart.pending_parent found (fresh p rfl)

/-- The logger a derivation adds has, as its header, the end of the appends through the
derivation's starting header: a pending start gives a pending end. -/
theorem derive_pending (wf : w.WellFormed) (derived : w.derive rule d = .ok w')
    {used : List Nat} (pending : Pending w.loggers used (w.source d)) :
    ∃ l, w'.loggers = w.loggers ++ [l] ∧ Pending w.loggers used l.extraFields := by
  cases d with
  | newOtel z opts =>
    cases derived
    exact ⟨_, rfl, Pending.applyAll opts pending wf (Slice.fits_nil _)⟩
  | clone p opts =>
    rw [derive] at derived
    split at derived
    · cases derived
    · rename_i l found
      cases derived
      have start : Pending w.loggers used l.extraFields := by
        simpa [source, Derivation.parent, found] using pending
      exact ⟨_, rfl, Pending.applyAll opts start wf (wf l (List.getElem?_mem found))⟩
  | withOptions p opts =>
    rw [derive] at derived
    split at derived
    · cases derived
    · rename_i l found
      obtain ⟨⟨l', store⟩, derived', derived⟩ := Except.bind_eq_ok.1 derived
      cases derived
      have start : Pending w.loggers used l.extraFields := by
        simpa [source, Derivation.parent, found] using pending
      obtain ⟨extracted, newHeader, -⟩ := Logger.withOptions_extraFields derived'
      exact ⟨l', rfl, newHeader ▸ start.append wf⟩

/-- One derivation from a live parent, or from none: the invariant holds with the parent marked
used, and every logger made before shows the extra fields it showed. -/
theorem derive_apart (wf : w.WellFormed) (apart : Apart w.loggers used)
    (fresh : ∀ p, d.parent = some p → p ∉ used) (derived : w.derive rule d = .ok w') :
    Apart w'.loggers (d.parent.toList ++ used) ∧
      ∀ i < w.loggers.length, w'.extraFieldsOf i = w.extraFieldsOf i := by
  have start := apart.pending_source fresh derived
  obtain ⟨l, loggers, pending⟩ := derive_pending wf derived start
  refine ⟨loggers ▸ (apart.mono fun j live member => live (List.mem_append_right _ member)).push
    pending, fun i made => ?_⟩
  obtain ⟨t, found⟩ : ∃ t, w.loggers[i]? = some t := ⟨_, List.getElem?_eq_getElem made⟩
  exact derive_keeps_untouched wf derived found (start.untouched t (List.getElem?_mem found))

/-- A run that derives at most once from each logger, none of them already used, keeps the
invariant and the extra fields of every logger made before it. -/
theorem run_apart {ds : List Derivation} (wf : w.WellFormed) (apart : Apart w.loggers used)
    (once : (ds.filterMap Derivation.parent).Nodup)
    (fresh : ∀ p ∈ ds.filterMap Derivation.parent, p ∉ used) (ran : w.run rule ds = .ok w') :
    w'.WellFormed ∧ Apart w'.loggers (ds.filterMap Derivation.parent ++ used) ∧
      ∀ i < w.loggers.length, w'.extraFieldsOf i = w.extraFieldsOf i := by
  induction ds generalizing w used with
  | nil =>
    cases ran
    exact ⟨wf, apart, fun _ _ => rfl⟩
  | cons d rest inductionHypothesis =>
    obtain ⟨w₁, derived, ranRest⟩ := Except.bind_eq_ok.1 ran
    have parents : (d :: rest).filterMap Derivation.parent =
        d.parent.toList ++ rest.filterMap Derivation.parent := by
      rw [List.filterMap_cons]
      cases d.parent <;> rfl
    rw [parents, List.nodup_append] at once
    have stepped := derive_apart wf apart
      (fun p named => fresh p (by rw [parents]; simp [named])) derived
    have freshRest : ∀ p ∈ rest.filterMap Derivation.parent, p ∉ d.parent.toList ++ used := by
      intro p member used'
      rcases List.mem_append.1 used' with named | old
      · exact once.2.2 named member
      · exact fresh p (by rw [parents]; exact List.mem_append_right _ member) old
    obtain ⟨wf', apart', kept⟩ := inductionHypothesis (derive_wellFormed wf derived) stepped.1
      once.2.1 freshRest ranRest
    obtain ⟨⟨l, grown, -⟩, -⟩ := derive_eq_ok wf derived
    refine ⟨wf', apart'.mono fun j live member => live ?_, fun i made => ?_⟩
    · rw [parents, List.append_assoc]
      exact (List.perm_append_comm_assoc _ _ _).mem_iff.1 member
    · rw [kept i (by rw [grown, List.length_append]; omega), stepped.2 i made]

/-- A run in which no logger is the parent of two derivations (`Clone` or `WithOptions`) never
changes a logger's extra fields: whatever the growth rule and the options, each logger shows to
the end of the run the extra fields it showed when it was made. -/
theorem run_keeps_extraFields {ds₁ ds₂ : List Derivation} {w₁ w₂ : World}
    (once : ((ds₁ ++ ds₂).filterMap Derivation.parent).Nodup)
    (first : empty.run rule ds₁ = .ok w₁) (second : w₁.run rule ds₂ = .ok w₂)
    {i : Nat} (made : i < w₁.loggers.length) : w₂.extraFieldsOf i = w₁.extraFieldsOf i := by
  rw [List.filterMap_append, List.nodup_append] at once
  obtain ⟨wf₁, apart₁, -⟩ := run_apart wellFormed_empty (apart_empty []) once.1
    (fun _ _ => List.not_mem_nil _) first
  exact (run_apart wf₁ apart₁ once.2.1
    (fun p member used => once.2.2 (by simpa using used) member) second).2.2 i made

/-- Five loggers, each the clone of the one before with one more field: the last clone leaves
the fourth logger's `a b c d` as they were. -/
theorem run_keeps_extraFields_of_chain :
    let ds₁ : List Derivation :=
      [.newOtel (.new .nop) [.withExtraFields [Zap.string "a" ""]],
        .clone 0 [.withExtraFields [Zap.string "b" ""]],
        .clone 1 [.withExtraFields [Zap.string "c" ""]],
        .clone 2 [.withExtraFields [Zap.string "d" ""]]]
    let ds₂ : List Derivation := [.clone 3 [.withExtraFields [Zap.string "e" ""]]]
    ∃ w₁ w₂, ((ds₁ ++ ds₂).filterMap Derivation.parent).Nodup ∧
      empty.run fieldGrowth ds₁ = .ok w₁ ∧ w₁.run fieldGrowth ds₂ = .ok w₂ ∧
      3 < w₁.loggers.length ∧ w₂.extraFieldsOf 3 = w₁.extraFieldsOf 3 ∧
      (w₁.extraFieldsOf 3).map (·.key) = ["a", "b", "c", "d"] := by
  intro ds₁ ds₂
  exact ⟨_, _, by decide, rfl, rfl, by decide,
    @run_keeps_extraFields fieldGrowth ds₁ ds₂ _ _ (by decide) rfl rfl 3 (by decide), rfl⟩

theorem extraFieldsOf_eq {w : World} {i : Nat} {l : Logger} (found : w.loggers[i]? = some l) :
    w.extraFieldsOf i = l.extraFields.view w.store := by
  simp [extraFieldsOf, found]

/-- The cells a header of length `n + |xs|` shows after `xs` and then `ys` are written at `n`
over the same array. -/
theorem take_overwrite {α : Type} {P : List α} {n : Nat} (length : P.length = n)
    (xs ys R : List α) :
    ((P ++ xs ++ R).take n ++ ys ++ (P ++ xs ++ R).drop (n + ys.length)).take (n + xs.length) =
      P ++ (ys ++ xs.drop ys.length).take xs.length := by
  subst length
  rw [List.append_assoc P xs R, List.take_left' rfl, List.drop_append,
    List.drop_append_eq_append_drop, List.append_assoc, List.take_append, ← List.append_assoc,
    List.take_append_of_le_length (by simp; omega)]

/-- Two clones of one logger whose header has room for either clone's fields: both append in
place at the parent's length, so after the second clone the first shows the parent's extra
fields followed by the second clone's fields, and its own only past their end. -/
theorem derive_clone_twice_overwrites {rule : GrowthRule} {w : World} (wf : w.WellFormed)
    {p : Nat} {l : Logger} (found : w.loggers[p]? = some l) (xs ys : List Field)
    (roomFirst : l.extraFields.len + xs.length ≤ l.extraFields.cap)
    (roomSecond : l.extraFields.len + ys.length ≤ l.extraFields.cap) :
    ∃ w₁ w₂, w.derive rule (.clone p [.withExtraFields xs]) = .ok w₁ ∧
      w₁.derive rule (.clone p [.withExtraFields ys]) = .ok w₂ ∧
      w₁.extraFieldsOf w.loggers.length = w.extraFieldsOf p ++ xs ∧
      w₂.extraFieldsOf w.loggers.length =
        w.extraFieldsOf p ++ (ys ++ xs.drop ys.length).take xs.length := by
  have fits := wf l (List.getElem?_mem found)
  let first := l.extraFields.append rule w.store xs
  let second := l.extraFields.append rule first.2 ys
  obtain ⟨header, firstCells⟩ := @Slice.append_of_room Field _ rule w.store l.extraFields xs
    fits roomFirst
  obtain ⟨-, secondCells⟩ := @Slice.append_of_room Field _ rule first.2 l.extraFields ys
    (Slice.fits_append_frame fits fits) roomSecond
  have stillFound : (w.loggers ++ [{ l with extraFields := first.1 }])[p]? = some l := by
    rw [List.getElem?_append_left (List.getElem?_eq_some_iff.1 found).1, found]
  have firstFound : (w.loggers ++ [{ l with extraFields := first.1 }] ++
      [{ l with extraFields := second.1 }])[w.loggers.length]? =
        some { l with extraFields := first.1 } := by
    rw [List.getElem?_append_left (by simp), List.getElem?_concat_length]
  refine ⟨⟨first.2, w.loggers ++ [{ l with extraFields := first.1 }]⟩,
    ⟨second.2, w.loggers ++ [{ l with extraFields := first.1 }] ++
      [{ l with extraFields := second.1 }]⟩,
    by simp only [derive, found]; rfl, by simp only [derive, stillFound]; rfl, ?_, ?_⟩
  · rw [extraFieldsOf_eq (List.getElem?_concat_length _ _), extraFieldsOf_eq found]
    exact Slice.view_append fits
  · rw [extraFieldsOf_eq firstFound, extraFieldsOf_eq found]
    show (second.2.get first.1.array).take first.1.len = _
    rw [header]
    dsimp only
    have prefixLength : ((w.store.get l.extraFields.array).take l.extraFields.len).length =
        l.extraFields.len := Slice.length_view fits
    rw [secondCells, firstCells, take_overwrite prefixLength]
    rfl

/-- The third logger of a chain of clones has three fields and room for four: cloning it with
`d` and then with `e` leaves the first clone showing `e` where its `d` was. -/
theorem derive_clone_twice_overwrites_in_chain :
    ∃ w, empty.run fieldGrowth
        [.newOtel (.new .nop) [.withExtraFields [Zap.string "a" ""]],
          .clone 0 [.withExtraFields [Zap.string "b" ""]],
          .clone 1 [.withExtraFields [Zap.string "c" ""]]] = .ok w ∧ w.WellFormed ∧
      ∃ l, w.loggers[2]? = some l ∧
        l.extraFields.len + [Zap.string "d" ""].length ≤ l.extraFields.cap ∧
        l.extraFields.len + [Zap.string "e" ""].length ≤ l.extraFields.cap ∧
        ∃ w₁ w₂, w.derive fieldGrowth (.clone 2 [.withExtraFields [Zap.string "d" ""]]) = .ok w₁ ∧
          w₁.derive fieldGrowth (.clone 2 [.withExtraFields [Zap.string "e" ""]]) = .ok w₂ ∧
          w₁.extraFieldsOf w.loggers.length = w.extraFieldsOf 2 ++ [Zap.string "d" ""] ∧
          w₂.extraFieldsOf w.loggers.length = w.extraFieldsOf 2 ++
            ([Zap.string "e" ""] ++ [Zap.string "d" ""].drop 1).take 1 :=
  have wf := @run_wellFormed fieldGrowth empty _
    [.newOtel (.new .nop) [.withExtraFields [Zap.string "a" ""]],
      .clone 0 [.withExtraFields [Zap.string "b" ""]],
      .clone 1 [.withExtraFields [Zap.string "c" ""]]] wellFormed_empty rfl
  ⟨_, rfl, wf, _, rfl, by decide, by decide,
    derive_clone_twice_overwrites wf rfl _ _ (by decide) (by decide)⟩

end World

end LogBridge
