import LogBridge.Bridge.AppendField

/-!
# What `bufferArrayEncoder` collects

`appendField` converts a `zap.Array` field by running the caller's `MarshalLogArray` on a
`bufferArrayEncoder` and attaching the strings it collects. This module states the rules those
strings follow, independently of the encoder's accumulator: one entry per call, in order; a
nested `AppendArray` contributes the rendering of its own entries, collected by a fresh encoder,
so nothing it appends reaches the outer list; `AppendObject` contributes the rendering of the
map the object's `MarshalLogObject` fills, not of the object. It proves that the encoder's run
refines these rules: it returns exactly when the marshaler returns, with the same error.

A marshaler ends the same way on every encoder, so how it ends is read from `zapRun`.
-/

namespace LogBridge

mutual

/-- The entries the encoder holds after a marshaler's calls. -/
def ArrayMarshaler.entries (lib : GoLib) : ArrayMarshaler → List String
  | .mk appends _ => ArrayAppend.entriesAll lib appends

/-- One entry per call, in call order. -/
def ArrayAppend.entriesAll (lib : GoLib) : List ArrayAppend → List String
  | [] => []
  | a :: rest => ArrayAppend.entry lib a :: ArrayAppend.entriesAll lib rest

/-- The entry of one call: the string itself for `AppendString`, the `%v` rendering of the
nested entries for `AppendArray`, of the object's fields map for `AppendObject`, and of the
argument for every other call. -/
def ArrayAppend.entry (lib : GoLib) : ArrayAppend → String
  | .string v => v
  | .array m => lib.sprintf "%v" [.value (.strings (m.entries lib))]
  | .object o => lib.sprintf "%v" [.value (.objectFields o)]
  | .bool v => lib.sprintf "%v" [.value (.bool v)]
  | .byteString v => lib.sprintf "%v" [.value (.bytes v)]
  | .complex128 re im => lib.sprintf "%v" [.value (.complex128 re im)]
  | .complex64 re im => lib.sprintf "%v" [.value (.complex64 re im)]
  | .duration v => lib.sprintf "%v" [.value (.duration v)]
  | .float64 v => lib.sprintf "%v" [.value (.float64 v)]
  | .float32 v => lib.sprintf "%v" [.value (.float32 v)]
  | .int kind v => lib.sprintf "%v" [.value (.int kind v)]
  | .time v => lib.sprintf "%v" [.value (.time v)]
  | .reflected v => lib.sprintf "%v" [.value v]

end

theorem ArrayAppend.entriesAll_eq_map (lib : GoLib) (appends : List ArrayAppend) :
    ArrayAppend.entriesAll lib appends = appends.map (ArrayAppend.entry lib) := by
  induction appends with
  | nil => rfl
  | cons a rest inductionHypothesis => rw [ArrayAppend.entriesAll, inductionHypothesis]; rfl

mutual

/-- The encoder's run of a marshaler returns exactly when the marshaler does, with its error,
and holds the marshaler's entries. -/
theorem ArrayMarshaler.bufferRun_eq (lib : GoLib) : ∀ m : ArrayMarshaler,
    m.bufferRun lib = m.zapRun.map fun err => (m.entries lib, err)
  | .mk appends outcome => by
    rw [ArrayMarshaler.bufferRun, ArrayAppend.bufferRunAll_eq lib [] appends]
    simp only [ArrayMarshaler.zapRun, ArrayMarshaler.entries]
    cases ArrayAppend.zapRunAll appends <;> cases outcome.result <;> rfl

/-- From the strings already held, the calls append their entries, unless one panics. -/
theorem ArrayAppend.bufferRunAll_eq (lib : GoLib) (strings : List String) :
    ∀ appends : List ArrayAppend, ArrayAppend.bufferRunAll lib strings appends =
      (ArrayAppend.zapRunAll appends).map fun _ => strings ++ ArrayAppend.entriesAll lib appends
  | [] => by
    rw [ArrayAppend.entriesAll, List.append_nil]
    rfl
  | a :: rest => by
    rw [ArrayAppend.bufferRunAll, ArrayAppend.bufferRun_eq lib strings a]
    simp only [ArrayAppend.zapRunAll, ArrayAppend.entriesAll]
    cases ArrayAppend.zapRun a with
    | error => rfl
    | ok =>
      show ArrayAppend.bufferRunAll lib (strings ++ [ArrayAppend.entry lib a]) rest = _
      rw [ArrayAppend.bufferRunAll_eq lib _ rest, List.append_assoc, List.singleton_append]
      rfl

/-- One call appends its entry, unless a nested marshaler panics. -/
theorem ArrayAppend.bufferRun_eq (lib : GoLib) (strings : List String) :
    ∀ a : ArrayAppend, ArrayAppend.bufferRun lib strings a =
      (ArrayAppend.zapRun a).map fun _ => strings ++ [ArrayAppend.entry lib a]
  | .array m => by
    rw [ArrayAppend.bufferRun, ArrayMarshaler.bufferRun_eq lib m]
    simp only [ArrayAppend.zapRun, ArrayAppend.entry]
    cases ArrayMarshaler.zapRun m <;> rfl
  | .object (.mk outcome) => by
    simp only [ArrayAppend.bufferRun, ArrayAppend.zapRun]
    cases outcome.result <;> rfl
  | .bool _ | .byteString _ | .complex128 _ _ | .complex64 _ _ | .duration _ | .float64 _
  | .float32 _ | .int _ _ | .string _ | .time _ | .reflected _ => rfl

end

/-- `appendField` on `zap.Array(key, m)`, by how `m`'s `MarshalLogArray` ends: on a nil error,
one `StringSlice` at `key` with one entry per call of `m`, in call order; on another error, one
`String` at `key + "_error"`; on a panic, in `m` or in a nested marshaler, the same panic. -/
theorem appendField_array (lib : GoLib) (attrs : List Attr) (key name : String)
    (appends : List ArrayAppend) (outcome : Outcome) :
    ((ArrayMarshaler.mk appends outcome).zapRun = .ok .nil →
      appendField lib attrs (Zap.array key (.arrayMarshaler name (.mk appends outcome))) =
        .ok (attrs ++ [⟨key, .stringSlice (appends.map (ArrayAppend.entry lib))⟩])) ∧
    (∀ err, (ArrayMarshaler.mk appends outcome).zapRun = .ok err → err ≠ .nil →
      appendField lib attrs (Zap.array key (.arrayMarshaler name (.mk appends outcome))) =
        .ok (attrs ++ [⟨key ++ "_error",
          .string (lib.sprintf "otelzap: unable to marshal array: %v" [.value err])⟩])) ∧
    (∀ p, (ArrayMarshaler.mk appends outcome).zapRun = .error p →
      appendField lib attrs (Zap.array key (.arrayMarshaler name (.mk appends outcome))) =
        .error p) := by
  have converted : appendField lib attrs (Zap.array key (.arrayMarshaler name
      (.mk appends outcome))) = (do
        match ← (ArrayMarshaler.mk appends outcome).bufferRun lib with
        | (strings, .nil) => pure (attrs ++ [⟨key, .stringSlice strings⟩])
        | (_, err) => pure (attrs ++ [⟨key ++ "_error",
            .string (lib.sprintf "otelzap: unable to marshal array: %v" [.value err])⟩])) := rfl
  rw [converted, ArrayMarshaler.bufferRun_eq]
  refine ⟨fun ended => ?_, fun err ended notNil => ?_, fun p ended => ?_⟩ <;> rw [ended]
  · simp only [ArrayMarshaler.entries, ArrayAppend.entriesAll_eq_map]
    rfl
  · simp only [Except.map, bind, Except.bind]
    rfl
  · rfl

/-- `AppendString("a")`, a nested array of `1`, then `AppendBool(true)`, ending on a nil
error: three entries, in call order; placeholder text renders the other two as empty. -/
theorem appendField_array_nested :
    (ArrayMarshaler.mk [.string "a", .array (.mk [.int .int 1] (.returns .nil)), .bool true]
        (.returns .nil)).zapRun = .ok .nil ∧
      appendField GoLib.placeholder [] (Zap.array "k" (.arrayMarshaler "main.list"
          (.mk [.string "a", .array (.mk [.int .int 1] (.returns .nil)), .bool true]
            (.returns .nil)))) =
        .ok [⟨"k", .stringSlice ["a", "", ""]⟩] :=
  ⟨rfl, (appendField_array GoLib.placeholder [] "k" "main.list" _ _).1 rfl⟩

/-- `fmt` as far as an empty object goes: `%v` prints the map its `MarshalLogObject` fills as
`map[]`, the object itself, an empty struct, as its empty braces. -/
def GoLib.emptyObjectFmt : GoLib :=
  { GoLib.placeholder with
    sprintf := fun template args =>
      if template = "%%" then "%"
      else match args with
        | [.value (.objectFields _)] => "map[]"
        | [.value (.objectMarshaler _ _)] => "\x7b\x7d"
        | _ => ""
    sprintf_percent := rfl }

/-- An array of one `AppendObject`, of an object that adds no field: the entry is the
rendering of the object's fields map, not of the object it was given. -/
theorem appendField_array_object_entry :
    GoLib.emptyObjectFmt.sprintf "%v"
        [.value (.objectMarshaler "main.empty" (.mk (.returns .nil)))] = "\x7b\x7d" ∧
      appendField GoLib.emptyObjectFmt [] (Zap.array "k" (.arrayMarshaler "main.list"
          (.mk [.object (.mk (.returns .nil))] (.returns .nil)))) =
        .ok [⟨"k", .stringSlice ["map[]"]⟩] :=
  ⟨rfl, rfl⟩

end LogBridge
