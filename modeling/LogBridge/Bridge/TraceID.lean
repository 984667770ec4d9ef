import Mathlib.Data.Nat.Digits
import Mathlib.Data.String.Basic
import LogBridge.Bridge.Logger

/-!
# Trace identifiers in decimal

`convertTraceID` gives the `trace_id` and `span_id` fields: it keeps the last sixteen digits of
an identifier's hexadecimal text, parses them with `strconv.ParseUint` in base 16 and prints
the value with `strconv.FormatUint` in base 10. This module states what that computes on the
text `TraceID.String` and `SpanID.String` produce, for every identifier: the big-endian value
of the last eight bytes, with neither range check of the parse firing.

The layers follow the text: one hexadecimal digit, one byte as two digits, the digit loop over
the bytes, then the slicing of `convertTraceID`. The decimal text is then read back the same way,
one digit of `strconv.FormatUint` at a time: the fields it gives are lossless.
-/

namespace LogBridge

/-- The unsigned big-endian value of a byte sequence. -/
def bigEndian (bytes : List UInt8) : Nat := bytes.foldl (fun n b => n * 256 + b.toNat) 0

/-- Each of the sixteen digits `hex.EncodeToString` writes reads back as its value. -/
theorem digitValue_hexDigit : ∀ n < 16, digitValue (hexDigit n) = some n := by decide

theorem hexEncode_data_cons (b : UInt8) (bytes : List UInt8) :
    (hexEncode (b :: bytes)).data =
      hexDigit (b.toNat / 16) :: hexDigit (b.toNat % 16) :: (hexEncode bytes).data := rfl

theorem length_hexEncode (bytes : List UInt8) : (hexEncode bytes).length = 2 * bytes.length := by
  induction bytes with
  | nil => rfl
  | cons b bytes inductionHypothesis =>
    simp only [String.length, hexEncode_data_cons, List.length_cons] at inductionHypothesis ⊢
    omega

theorem data_drop_string (s : String) (n : Nat) : (s.drop n).data = s.data.drop n := by
  rw [← String.toString_toSubstring s, ← s.valid_toSubstring.data_drop n,
    String.toString_toSubstring]
  rfl

/-- Dropping the text of the first `k` bytes leaves the text of the others: Go's `id[16:]`
on an identifier's text is the text of its bytes from the ninth on. -/
theorem hexEncode_drop (bytes : List UInt8) (k : Nat) :
    (hexEncode bytes).drop (2 * k) = hexEncode (bytes.drop k) := by
  apply String.ext
  rw [data_drop_string]
  induction k generalizing bytes with
  | zero => rfl
  | succ k inductionHypothesis =>
    cases bytes with
    | nil => simp [hexEncode]
    | cons b bytes =>
      rw [hexEncode_data_cons, show 2 * (k + 1) = 2 * k + 1 + 1 by omega]
      simpa using inductionHypothesis bytes

/-- One pass of the digit loop, on a digit of the base when neither range check fires. -/
theorem parseUintDigits_cons {base n d : Nat} {c : Char} (rest : List Char)
    (digit : digitValue c = some d) (below : d < base) (noCutoff : n < (2 ^ 64 - 1) / base + 1)
    (noOverflow : n * base + d ≤ 2 ^ 64 - 1) :
    parseUintDigits base n (c :: rest) = parseUintDigits base (n * base + d) rest := by
  simp only [parseUintDigits, digit, if_neg (Nat.not_le.2 below),
    if_neg (Nat.not_le.2 noCutoff), if_neg (Nat.not_lt.2 noOverflow)]

/-- The digit loop over the text of `bytes`, from `n`, reads `n` followed by the bytes in base
256 whenever every such value fits 64 bits: two digits make one byte, and the cutoff and the
overflow check never fire below `2^64`. -/
theorem parseUintDigits_hexEncode (bytes : List UInt8) (n : Nat)
    (fits : (n + 1) * 256 ^ bytes.length ≤ 2 ^ 64) :
    parseUintDigits 16 n (hexEncode bytes).data =
      .ok (bytes.foldl (fun n b => n * 256 + b.toNat) n) := by
  induction bytes generalizing n with
  | nil => rfl
  | cons b bytes inductionHypothesis =>
    have byte := b.toNat_lt
    rw [List.length_cons, pow_succ', ← mul_assoc] at fits
    have room : (n + 1) * 256 ≤ 2 ^ 64 :=
      calc (n + 1) * 256 ≤ (n + 1) * 256 * 256 ^ bytes.length :=
            Nat.le_mul_of_pos_right _ (by positivity)
        _ ≤ 2 ^ 64 := fits
    rw [hexEncode_data_cons,
      parseUintDigits_cons _ (digitValue_hexDigit _ (by omega)) (by omega) (by omega) (by omega),
      parseUintDigits_cons _ (digitValue_hexDigit _ (by omega)) (by omega) (by omega) (by omega),
      show (n * 16 + b.toNat / 16) * 16 + b.toNat % 16 = n * 256 + b.toNat by omega]
    apply inductionHypothesis
    calc (n * 256 + b.toNat + 1) * 256 ^ bytes.length ≤ (n + 1) * 256 * 256 ^ bytes.length := by
          gcongr
          omega
      _ ≤ 2 ^ 64 := fits

/-- `strconv.ParseUint(s, 16, 64)` on the text of one to eight bytes returns their big-endian
value. -/
theorem parseUint_hexEncode (bytes : List UInt8) (nonempty : bytes ≠ [])
    (short : bytes.length ≤ 8) : parseUint 16 (hexEncode bytes) = .ok (bigEndian bytes) := by
  have text : hexEncode bytes ≠ "" := by
    obtain ⟨b, rest, rfl⟩ := List.exists_cons_of_ne_nil nonempty
    simp [String.ext_iff, hexEncode_data_cons]
  rw [parseUint, if_neg (by simpa [String.isEmpty_iff] using text)]
  apply parseUintDigits_hexEncode
  calc (0 + 1) * 256 ^ bytes.length ≤ 256 ^ 8 := by
        rw [Nat.zero_add, Nat.one_mul]
        exact Nat.pow_le_pow_right (by norm_num) short
    _ = 2 ^ 64 := by norm_num

/-- `strconv.FormatUint(v, 10)` is never empty: zero prints as `0`. -/
theorem toString_nat_ne_empty (n : Nat) : toString n ≠ "" := by
  have digits : Nat.toDigits 10 n ≠ [] := by
    simp only [Nat.toDigits, Nat.toDigitsCore]
    split
    · exact List.cons_ne_nil _ _
    · rw [← List.length_pos, Nat.toDigitsCore_lens_eq]
      exact Nat.succ_pos _
  exact fun empty => digits (congrArg String.data empty)

/-- The last sixteen digits of a trace id's text parse as its last eight bytes. -/
theorem parseUint_traceID (t : TraceID) :
    parseUint 16 (t.string.drop 16) = .ok (bigEndian (t.bytes.drop 8)) := by
  rw [TraceID.string, hexEncode_drop t.bytes 8]
  exact parseUint_hexEncode _ (by simp [t.length_eq]) (by simp [t.length_eq])

/-- A span id's sixteen digits parse as its eight bytes. -/
theorem parseUint_spanID (s : SpanID) : parseUint 16 s.string = .ok (bigEndian s.bytes) :=
  parseUint_hexEncode _ (by simp [← List.length_pos, s.length_eq]) (by simp [s.length_eq])

/-- `convertTraceID` on a trace id's text: the last eight bytes in decimal. -/
theorem convertTraceID_traceID (t : TraceID) :
    convertTraceID t.string = toString (bigEndian (t.bytes.drop 8)) := by
  have traceLength : t.string.length = 32 := by
    rw [TraceID.string, length_hexEncode, t.length_eq]
  simp [convertTraceID, traceLength, parseUint_traceID t]

/-- `convertTraceID` on a span id's text: its eight bytes in decimal. -/
theorem convertTraceID_spanID (s : SpanID) :
    convertTraceID s.string = toString (bigEndian s.bytes) := by
  have spanLength : s.string.length = 16 := by
    rw [SpanID.string, length_hexEncode, s.length_eq]
  simp [convertTraceID, spanLength, parseUint_spanID s]

/-- `convertTraceID` on `TraceID.String` and `SpanID.String`, for every identifier: the parse
of the last sixteen digits of a trace id returns, with no range or syntax error, the big-endian
value of its last eight bytes, and that of a span id's sixteen digits its own; the result is
that value in decimal, and never empty. -/
theorem convertTraceID_bigEndian (t : TraceID) (s : SpanID) :
    parseUint 16 (t.string.drop 16) = .ok (bigEndian (t.bytes.drop 8)) ∧
      convertTraceID t.string = toString (bigEndian (t.bytes.drop 8)) ∧
      parseUint 16 s.string = .ok (bigEndian s.bytes) ∧
      convertTraceID s.string = toString (bigEndian s.bytes) ∧
      convertTraceID t.string ≠ "" ∧ convertTraceID s.string ≠ "" :=
  ⟨parseUint_traceID t, convertTraceID_traceID t, parseUint_spanID s, convertTraceID_spanID s,
    convertTraceID_traceID t ▸ toString_nat_ne_empty _,
    convertTraceID_spanID s ▸ toString_nat_ne_empty _⟩

example : convertTraceID (hexEncode (List.replicate 8 0 ++ List.replicate 8 255)) =
    "18446744073709551615" := by decide

/-- The ten digits `strconv.FormatUint` writes in base 10 read back as their values. -/
theorem digitValue_digitChar : ∀ d < 10, digitValue (Nat.digitChar d) = some d := by decide

/-- `FormatUint`'s loop writes each digit in front of those it has written. -/
theorem toDigitsCore_append (base : Nat) : ∀ fuel n (ds : List Char),
    Nat.toDigitsCore base fuel n ds = Nat.toDigitsCore base fuel n [] ++ ds
  | 0, _, _ => rfl
  | fuel + 1, n, ds => by
    simp only [Nat.toDigitsCore]
    split
    · rfl
    · rw [toDigitsCore_append base fuel _ (_ :: ds), toDigitsCore_append base fuel _ [_],
        List.append_assoc, List.singleton_append]

/-- The digit loop over two texts, the first read without error, carries on from the value the
first one gives. -/
theorem parseUintDigits_append {base n m : Nat} {cs : List Char} (ds : List Char)
    (parsed : parseUintDigits base n cs = .ok m) :
    parseUintDigits base n (cs ++ ds) = parseUintDigits base m ds := by
  induction cs generalizing n with
  | nil =>
    cases parsed
    rfl
  | cons c rest inductionHypothesis =>
    rw [List.cons_append, parseUintDigits]
    rw [parseUintDigits] at parsed
    split at parsed
    · cases parsed
    · split_ifs at parsed ⊢
      exact inductionHypothesis parsed

/-- The digit loop reads the decimal text of a value below `2^64` back as the value, one digit at
a time, last digit last: `Nat.toDigits` gives the loop more fuel than the value has digits. -/
theorem parseUintDigits_toDigitsCore : ∀ fuel n, n < fuel → n < 2 ^ 64 →
    parseUintDigits 10 0 (Nat.toDigitsCore 10 fuel n []) = .ok n
  | 0, _, enough, _ => absurd enough (Nat.not_lt_zero _)
  | fuel + 1, n, enough, fits => by
    have digit := digitValue_digitChar (n % 10) (Nat.mod_lt _ (by decide))
    simp only [Nat.toDigitsCore]
    split
    · rw [parseUintDigits_cons _ digit (Nat.mod_lt _ (by decide)) (by omega) (by omega),
        show 0 * 10 + n % 10 = n by omega]
      rfl
    · rw [toDigitsCore_append, parseUintDigits_append _
        (parseUintDigits_toDigitsCore fuel (n / 10) (by omega) (by omega)),
        parseUintDigits_cons _ digit (Nat.mod_lt _ (by decide)) (by omega) (by omega),
        Nat.div_add_mod']
      rfl

/-- `strconv.ParseUint(strconv.FormatUint(v, 10), 10, 64)` returns `v` for every `uint64`. -/
theorem parseUint_toString (n : Nat) (fits : n < 2 ^ 64) : parseUint 10 (toString n) = .ok n := by
  rw [parseUint, if_neg (by simpa [String.isEmpty_iff] using toString_nat_ne_empty n)]
  exact parseUintDigits_toDigitsCore (n + 1) n (Nat.lt_succ_self n) fits

/-- Reading bytes after a value already read shifts that value up a byte per byte read. -/
theorem foldl_bigEndian (bytes : List UInt8) (n : Nat) :
    bytes.foldl (fun n b => n * 256 + b.toNat) n = n * 256 ^ bytes.length + bigEndian bytes := by
  induction bytes generalizing n with
  | nil => simp [bigEndian]
  | cons b bytes inductionHypothesis =>
    rw [bigEndian, List.foldl_cons, List.foldl_cons, inductionHypothesis, inductionHypothesis,
      List.length_cons, pow_succ]
    ring

/-- The first byte is the most significant. -/
theorem bigEndian_cons (b : UInt8) (bytes : List UInt8) :
    bigEndian (b :: bytes) = b.toNat * 256 ^ bytes.length + bigEndian bytes := by
  rw [bigEndian, List.foldl_cons, foldl_bigEndian, Nat.zero_mul, Nat.zero_add]

/-- `k` bytes hold a value below `256^k`. -/
theorem bigEndian_lt (bytes : List UInt8) : bigEndian bytes < 256 ^ bytes.length := by
  induction bytes with
  | nil => decide
  | cons b bytes inductionHypothesis =>
    have byte := b.toNat_lt
    rw [bigEndian_cons, List.length_cons, pow_succ']
    calc b.toNat * 256 ^ bytes.length + bigEndian bytes
        < (b.toNat + 1) * 256 ^ bytes.length := by rw [Nat.add_one_mul]; omega
      _ ≤ 256 * 256 ^ bytes.length := Nat.mul_le_mul_right _ byte

/-- Byte sequences of one length are told apart by their big-endian value. -/
theorem bigEndian_injective {xs ys : List UInt8} (length : xs.length = ys.length)
    (same : bigEndian xs = bigEndian ys) : xs = ys := by
  induction xs generalizing ys with
  | nil => exact (List.eq_nil_of_length_eq_zero length.symm).symm
  | cons x xs inductionHypothesis =>
    obtain ⟨y, ys, rfl⟩ := List.exists_cons_of_length_eq_add_one length.symm
    have restLength : xs.length = ys.length := by simpa using length
    rw [bigEndian_cons, bigEndian_cons, restLength] at same
    have positive : 0 < 256 ^ ys.length := by positivity
    have low := restLength ▸ bigEndian_lt xs
    have first : (x.toNat * 256 ^ ys.length + bigEndian xs) / 256 ^ ys.length = x.toNat ∧
        (x.toNat * 256 ^ ys.length + bigEndian xs) % 256 ^ ys.length = bigEndian xs :=
      (Nat.div_mod_unique positive).2 ⟨by ring, low⟩
    have second : (y.toNat * 256 ^ ys.length + bigEndian ys) / 256 ^ ys.length = y.toNat ∧
        (y.toNat * 256 ^ ys.length + bigEndian ys) % 256 ^ ys.length = bigEndian ys :=
      (Nat.div_mod_unique positive).2 ⟨by ring, bigEndian_lt ys⟩
    rw [same] at first
    rw [UInt8.toNat.inj (first.1.symm.trans second.1),
      inductionHypothesis restLength (first.2.symm.trans second.2)]

/-- Eight bytes hold a `uint64`. -/
theorem bigEndian_lt_two_pow_64 {bytes : List UInt8} (eight : bytes.length = 8) :
    bigEndian bytes < 2 ^ 64 :=
  calc bigEndian bytes < 256 ^ bytes.length := bigEndian_lt bytes
    _ = 2 ^ 64 := by rw [eight]; norm_num

/-- The decimal `trace_id` and `span_id` fields lose nothing: `strconv.ParseUint(_, 10, 64)` reads
them back as the values `convertTraceID` printed, so two trace ids get the same `trace_id` exactly
when their last eight bytes agree, and two span ids the same `span_id` exactly when they are the
same id. -/
theorem convertTraceID_lossless (t t' : TraceID) (s s' : SpanID) :
    parseUint 10 (convertTraceID t.string) = .ok (bigEndian (t.bytes.drop 8)) ∧
      parseUint 10 (convertTraceID s.string) = .ok (bigEndian s.bytes) ∧
      (convertTraceID t.string = convertTraceID t'.string ↔ t.bytes.drop 8 = t'.bytes.drop 8) ∧
      (convertTraceID s.string = convertTraceID s'.string ↔ s = s') := by
  have traceBack : ∀ t : TraceID,
      parseUint 10 (convertTraceID t.string) = .ok (bigEndian (t.bytes.drop 8)) := fun t => by
    rw [convertTraceID_traceID]
    exact parseUint_toString _ (bigEndian_lt_two_pow_64 (by simp [t.length_eq]))
  have spanBack : ∀ s : SpanID,
      parseUint 10 (convertTraceID s.string) = .ok (bigEndian s.bytes) := fun s => by
    rw [convertTraceID_spanID]
    exact parseUint_toString _ (bigEndian_lt_two_pow_64 s.length_eq)
  refine ⟨traceBack t, spanBack s, ⟨fun same => ?_, fun same => ?_⟩, ⟨fun same => ?_, ?_⟩⟩
  · have values := (traceBack t).symm.trans (same ▸ traceBack t')
    exact bigEndian_injective (by simp [t.length_eq, t'.length_eq]) (Except.ok.inj values)
  · rw [convertTraceID_traceID, convertTraceID_traceID, same]
  · have values := (spanBack s).symm.trans (same ▸ spanBack s')
    obtain ⟨bytes, eight⟩ := s
    obtain ⟨bytes', eight'⟩ := s'
    cases bigEndian_injective (eight.trans eight'.symm) (Except.ok.inj values)
    rfl
  · rintro rfl
    rfl

end LogBridge
