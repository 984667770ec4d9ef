import LogBridge.Otel.Span

/-!
# Library functions the bridge calls

Text the bridge produces by calling into Go's standard library and `otelutil` is not
computed here: `fmt`'s verbs, `strconv`'s shortest float digits, the `String` methods of
`time`, and `otelutil.Attribute`'s reflection-driven choice of attribute type are functions of
a `GoLib`. Results about the bridge hold for every `GoLib`; the two properties a `GoLib`
carries are the documented behaviour those results use.
-/

namespace LogBridge

/-- The library functions the bridge calls, with the documented facts about them that the
development relies on. -/
structure GoLib where
  /-- `fmt.Sprintf`. -/
  sprintf : String → List Arg → String
  /-- `fmt.Sprint`. -/
  sprint : List Arg → String
  /-- `strconv.FormatComplex(complex128(c), 'E', -1, 64)` for a `complex64` `c`. -/
  formatComplex64 : BitVec 32 → BitVec 32 → String
  /-- `strconv.FormatComplex(c, 'E', -1, 128)` for a `complex128` `c`. -/
  formatComplex128 : BitVec 64 → BitVec 64 → String
  /-- `time.Time.String`. -/
  timeString : GoTime → String
  /-- `time.Duration.String`. -/
  durationString : BitVec 64 → String
  /-- `otelutil.Attribute`, taken to return an attribute for every key and value: no panic in
  it is modelled. -/
  otelutilAttribute : String → Arg → Attr
  /-- Every attribute `otelutil.Attribute` builds has the key it is given. -/
  otelutilAttribute_key : ∀ key value, (otelutilAttribute key value).key = key
  /-- The verb `%%` prints a literal percent sign and consumes no operand. -/
  sprintf_percent : sprintf "%%" [] = "%"

/-- A `GoLib` of placeholders: `Sprintf` knows only the bare template `%%`, the other text
functions return the empty string, and `otelutil.Attribute` an invalid attribute. It shows
that the two properties hold together, and gives concrete runs a library. -/
def GoLib.placeholder : GoLib where
  sprintf template _ := if template = "%%" then "%" else ""
  sprint _ := ""
  formatComplex64 _ _ := ""
  formatComplex128 _ _ := ""
  timeString _ := ""
  durationString _ := ""
  otelutilAttribute key _ := ⟨key, .invalid⟩
  otelutilAttribute_key _ _ := rfl
  sprintf_percent := rfl

end LogBridge
