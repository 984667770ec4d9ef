import Mathlib.Data.List.Basic
import Mathlib.Tactic.Ring

/-!
# Slices over an explicit store of backing arrays

A Go slice is a header `(array, len, cap)` over a backing array that other headers may
share. `append` writes in place while the new length fits the capacity and otherwise copies
into a fresh array sized by the runtime's growth rule. Copying a struct copies the header,
not the array: this is the sharing the bridge's derived loggers inherit.

Arrays are never freed or resized; a store only grows, and an in-place `append` writes only
at and past its own length.
-/

namespace LogBridge

/-- The backing arrays allocated so far; each is as long as its capacity. -/
structure Store (α : Type) where
  arrays : List (List α)

/-- A slice header: the backing array it points into, its length, its capacity. A header of
capacity zero (the nil slice) never reads or writes its array. -/
structure Slice where
  array : Nat
  len : Nat
  cap : Nat
  deriving DecidableEq, Repr

/-- The nil slice. -/
def Slice.nil : Slice := ⟨0, 0, 0⟩

/-- How the runtime sizes the array of a growing slice: `grow oldCap newLen` is at least
`newLen`. -/
structure GrowthRule where
  grow : Nat → Nat → Nat
  le_grow : ∀ oldCap newLen, newLen ≤ grow oldCap newLen

namespace Store

variable {α : Type}

/-- The contents of array `a`. -/
def get (σ : Store α) (a : Nat) : List α := σ.arrays.getD a []

/-- Overwrite array `a` from index `start` with `xs`, keeping its length. -/
def write (σ : Store α) (a start : Nat) (xs : List α) : Store α :=
  ⟨σ.arrays.modify (fun arr => arr.take start ++ xs ++ arr.drop (start + xs.length)) a⟩

/-- Allocate a fresh array holding `arr`; its id is the old number of arrays. -/
def alloc (σ : Store α) (arr : List α) : Store α := ⟨σ.arrays ++ [arr]⟩

theorem get_write_ne {σ : Store α} {a b start : Nat} {xs : List α} (different : b ≠ a) :
    (σ.write a start xs).get b = σ.get b := by
  simp [get, write, List.getD_eq_getElem?_getD, List.getElem?_modify, Ne.symm different]

theorem get_write_self {σ : Store α} {a : Nat} (start : Nat) (xs : List α)
    (allocated : a < σ.arrays.length) :
    (σ.write a start xs).get a =
      (σ.get a).take start ++ xs ++ (σ.get a).drop (start + xs.length) := by
  simp [get, write, List.getD_eq_getElem?_getD, List.getElem?_modify, allocated]

theorem get_alloc_lt {σ : Store α} {arr : List α} {b : Nat} (old : b < σ.arrays.length) :
    (σ.alloc arr).get b = σ.get b := by
  simp [get, alloc, List.getD_eq_getElem?_getD, List.getElem?_append_left old]

@[simp] theorem get_alloc_self (σ : Store α) (arr : List α) :
    (σ.alloc arr).get σ.arrays.length = arr := by
  simp [get, alloc, List.getD_eq_getElem?_getD]

@[simp] theorem length_write (σ : Store α) (a start : Nat) (xs : List α) :
    (σ.write a start xs).arrays.length = σ.arrays.length := by
  simp [write]

@[simp] theorem length_alloc (σ : Store α) (arr : List α) :
    (σ.alloc arr).arrays.length = σ.arrays.length + 1 := by
  simp [alloc]

/-- Only allocated arrays have cells. -/
theorem lt_length_of_get {σ : Store α} {a : Nat} (nonempty : 0 < (σ.get a).length) :
    a < σ.arrays.length := by
  by_contra outside
  simp [get, List.getD_eq_getElem?_getD, List.getElem?_eq_none (Nat.le_of_not_lt outside)]
    at nonempty

theorem length_get_write (σ : Store α) (a b start : Nat) (xs : List α)
    (inside : start + xs.length ≤ (σ.get a).length) :
    ((σ.write a start xs).get b).length = (σ.get b).length := by
  by_cases same : b = a
  · subst same
    by_cases allocated : b < σ.arrays.length
    · rw [get_write_self start xs allocated]
      simp only [List.length_append, List.length_take, List.length_drop]
      omega
    · simp [get, write, List.getD_eq_getElem?_getD, List.getElem?_modify,
        List.getElem?_eq_none (Nat.le_of_not_lt allocated)]
  · rw [get_write_ne same]

end Store

namespace Slice

variable {α : Type}

/-- The elements a header shows: the first `len` cells of its array. -/
def view (s : Slice) (σ : Store α) : List α := (σ.get s.array).take s.len

/-- `append(s, xs...)`: in place when `len + |xs| ≤ cap`, otherwise into a fresh array of
the capacity `rule` gives, holding the old elements, then `xs`, then zero values. -/
def append [Inhabited α] (rule : GrowthRule) (σ : Store α) (s : Slice) (xs : List α) :
    Slice × Store α :=
  if xs.isEmpty then (s, σ)
  else if s.len + xs.length ≤ s.cap then
    ({ s with len := s.len + xs.length }, σ.write s.array s.len xs)
  else
    let newLen := s.len + xs.length
    let newCap := rule.grow s.cap newLen
    (⟨σ.arrays.length, newLen, newCap⟩,
      σ.alloc (s.view σ ++ xs ++ List.replicate (newCap - newLen) default))

/-- A header fits its store: its length is within its capacity, and its capacity within its
array. -/
def Fits (σ : Store α) (s : Slice) : Prop := s.len ≤ s.cap ∧ s.cap ≤ (σ.get s.array).length

theorem fits_nil (σ : Store α) : Slice.nil.Fits σ := by simp [Fits, nil]

/-- Appends through `s` leave what `t` shows alone: `t` points into another array, or is no
longer than `s`, or `s` is full, so that its next append copies. -/
def Untouched (t s : Slice) : Prop := t.array ≠ s.array ∨ t.len ≤ s.len ∨ s.cap ≤ s.len

theorem untouched_self (s : Slice) : s.Untouched s := .inr (.inl le_rfl)

theorem untouched_nil (t : Slice) : t.Untouched nil := .inr (.inr le_rfl)

theorem nil_untouched (s : Slice) : nil.Untouched s := .inr (.inl (Nat.zero_le _))

/-- Appends through `s` and appends through `t` never write where the other shows: the two
point into different arrays, or one of them is full, so that its next append copies. -/
def Separate (s t : Slice) : Prop := s.array ≠ t.array ∨ s.cap ≤ s.len ∨ t.cap ≤ t.len

theorem Separate.symm {s t : Slice} (separate : s.Separate t) : t.Separate s := by
  rcases separate with different | full | full
  · exact .inl (Ne.symm different)
  · exact .inr (.inr full)
  · exact .inr (.inl full)

theorem nil_separate (t : Slice) : nil.Separate t := .inr (.inl le_rfl)

theorem length_view {σ : Store α} {s : Slice} (fits : s.Fits σ) :
    (s.view σ).length = s.len := by
  simp only [view, List.length_take]
  have := fits.1
  have := fits.2
  omega

private theorem allocated_of_inPlace {σ : Store α} {s : Slice} {xs : List α} (fits : s.Fits σ)
    (nonempty : 0 < xs.length) (inPlace : s.len + xs.length ≤ s.cap) :
    s.array < σ.arrays.length :=
  Store.lt_length_of_get (by have := fits.2; omega)

private theorem length_take_of_fits {σ : Store α} {s : Slice} (fits : s.Fits σ) :
    ((σ.get s.array).take s.len).length = s.len := length_view fits

private theorem take_prefix_append {l m : List α} {n : Nat} (length : l.length = n) (k : Nat) :
    (l ++ m).take (n + k) = l ++ m.take k := by
  subst length
  exact List.take_append k

variable [Inhabited α] {rule : GrowthRule} {σ : Store α} {s : Slice} {xs : List α}

/-- The three things `append` can do: nothing, write in place, or copy into a fresh array. -/
theorem append_cases (rule : GrowthRule) (σ : Store α) (s : Slice) (xs : List α) :
    (xs = [] ∧ append rule σ s xs = (s, σ)) ∨
    (0 < xs.length ∧ s.len + xs.length ≤ s.cap ∧
      append rule σ s xs = ({ s with len := s.len + xs.length }, σ.write s.array s.len xs)) ∨
    (0 < xs.length ∧ s.cap < s.len + xs.length ∧
      append rule σ s xs =
        (⟨σ.arrays.length, s.len + xs.length, rule.grow s.cap (s.len + xs.length)⟩,
          σ.alloc (s.view σ ++ xs ++
            List.replicate (rule.grow s.cap (s.len + xs.length) - (s.len + xs.length))
              default))) := by
  unfold append
  rcases xs with _ | ⟨x, xs⟩
  · simp
  · by_cases inPlace : s.len + (x :: xs).length ≤ s.cap
    · exact .inr (.inl ⟨by simp, inPlace, by rw [if_neg (by simp), if_pos inPlace]⟩)
    · exact .inr (.inr ⟨by simp, by omega, by rw [if_neg (by simp), if_neg inPlace]⟩)

/-- Appending shows the old elements followed by the new ones. -/
theorem view_append (fits : s.Fits σ) :
    (append rule σ s xs).1.view (append rule σ s xs).2 = s.view σ ++ xs := by
  rcases append_cases rule σ s xs with ⟨rfl, same⟩ | ⟨nonempty, inPlace, written⟩ |
    ⟨nonempty, over, copied⟩
  · simp [same]
  · rw [written]
    simp only [view, Store.get_write_self _ _ (allocated_of_inPlace fits nonempty inPlace)]
    rw [List.append_assoc, take_prefix_append (length_take_of_fits fits), List.take_left]
  · rw [copied]
    simp only [view, Store.get_alloc_self]
    rw [List.append_assoc, ← view, take_prefix_append (length_view fits), List.take_left]

/-- Appending keeps the header within its store. -/
theorem fits_append (fits : s.Fits σ) :
    (append rule σ s xs).1.Fits (append rule σ s xs).2 := by
  rcases append_cases rule σ s xs with ⟨rfl, same⟩ | ⟨nonempty, inPlace, written⟩ |
    ⟨nonempty, over, copied⟩
  · simpa [same] using fits
  · rw [written]
    refine ⟨inPlace, ?_⟩
    rw [Store.length_get_write _ _ _ _ _ (by have := fits.2; omega)]
    exact fits.2
  · rw [copied]
    refine ⟨rule.le_grow _ _, ?_⟩
    have := rule.le_grow s.cap (s.len + xs.length)
    simp [length_view fits]
    omega

/-- The frame of `append`: a header that fits, and that either points into another array
or is no longer than `s`, shows the same elements afterwards. -/
theorem view_append_frame {t : Slice} (fits : s.Fits σ) (other : t.Fits σ)
    (apart : t.Untouched s) :
    t.view (append rule σ s xs).2 = t.view σ := by
  rcases append_cases rule σ s xs with ⟨rfl, same⟩ | ⟨nonempty, inPlace, written⟩ |
    ⟨nonempty, over, copied⟩
  · simp [same]
  · rw [written]
    by_cases shared : t.array = s.array
    · have shorter : t.len ≤ s.len :=
        (apart.resolve_left (not_not.mpr shared)).resolve_right (by omega)
      simp only [view, shared,
        Store.get_write_self _ _ (allocated_of_inPlace fits nonempty inPlace)]
      rw [List.append_assoc, List.take_append_of_le_length
        (by rw [length_take_of_fits fits]; exact shorter), List.take_take,
        Nat.min_eq_left shorter]
    · simp only [view, Store.get_write_ne shared]
  · rw [copied]
    simp only [view]
    by_cases empty : t.len = 0
    · simp [empty]
    · rw [Store.get_alloc_lt (Store.lt_length_of_get (by have := other.2; have := other.1; omega))]

/-- A header untouched by `s` is untouched by the header appending through `s` leaves: an
in-place append only lengthens `s`, and a copy moves it to a fresh array. -/
theorem untouched_append {t : Slice} (other : t.Fits σ) (apart : t.Untouched s) :
    t.Untouched (append rule σ s xs).1 := by
  rcases append_cases rule σ s xs with ⟨rfl, same⟩ | ⟨nonempty, inPlace, written⟩ |
    ⟨nonempty, over, copied⟩
  · simpa [same] using apart
  · rw [written]
    rcases apart with other | shorter | full
    · exact .inl other
    · exact .inr (.inl (by simp only; omega))
    · omega
  · rw [copied]
    by_cases empty : t.len = 0
    · exact .inr (.inl (by simp [empty]))
    · exact .inl (Nat.ne_of_lt
        (Store.lt_length_of_get (by have := other.1; have := other.2; omega)))

/-- Appending keeps every other fitting header within the store. -/
theorem fits_append_frame {t : Slice} (fits : s.Fits σ) (other : t.Fits σ) :
    t.Fits (append rule σ s xs).2 := by
  rcases append_cases rule σ s xs with ⟨rfl, same⟩ | ⟨nonempty, inPlace, written⟩ |
    ⟨nonempty, over, copied⟩
  · simpa [same] using other
  · rw [written]
    refine ⟨other.1, ?_⟩
    rw [Store.length_get_write _ _ _ _ _ (by have := fits.2; omega)]
    exact other.2
  · rw [copied]
    refine ⟨other.1, ?_⟩
    by_cases empty : t.cap = 0
    · simp [empty]
    · rw [Store.get_alloc_lt (Store.lt_length_of_get (by have := other.2; omega))]
      exact other.2

/-- The header appending through `s` leaves stays separate from, and does not touch, a header
within the store that `s` was separate from and did not touch: in place it is `s` lengthened,
which was not full; a copy is a fresh array. -/
theorem separate_append {u : Slice} (other : u.Fits σ) (separate : s.Separate u)
    (untouched : s.Untouched u) :
    (append rule σ s xs).1.Separate u ∧ (append rule σ s xs).1.Untouched u := by
  rcases append_cases rule σ s xs with ⟨rfl, same⟩ | ⟨nonempty, inPlace, written⟩ |
    ⟨nonempty, over, copied⟩
  · rw [same]
    exact ⟨separate, untouched⟩
  · rw [written]
    rcases separate with different | full | full
    · exact ⟨.inl different, .inl different⟩
    · omega
    · exact ⟨.inr (.inr full), .inr (.inr full)⟩
  · rw [copied]
    by_cases empty : u.cap = 0
    · exact ⟨.inr (.inr (by omega)), .inr (.inr (by omega))⟩
    · have fresh := Store.lt_length_of_get (by have := other.2; omega : 0 < (σ.get u.array).length)
      exact ⟨.inl (by simp only; omega), .inl (by simp only; omega)⟩

/-- With room for `xs`, `append` writes in place: the header is lengthened, and its array
holds the old cells up to its length, then `xs`, then the cells past them. -/
theorem append_of_room (fits : s.Fits σ) (room : s.len + xs.length ≤ s.cap) :
    (append rule σ s xs).1 = { s with len := s.len + xs.length } ∧
      (append rule σ s xs).2.get s.array =
        (σ.get s.array).take s.len ++ xs ++ (σ.get s.array).drop (s.len + xs.length) := by
  rcases append_cases rule σ s xs with ⟨rfl, same⟩ | ⟨nonempty, inPlace, written⟩ |
    ⟨nonempty, over, copied⟩
  · simp [same]
  · rw [written]
    exact ⟨rfl, Store.get_write_self _ _ (allocated_of_inPlace fits nonempty inPlace)⟩
  · omega

end Slice

/-- One round of `runtime.nextslicecap`'s loop for large slices, `newcap += (newcap + 768) / 4`,
repeated until the capacity reaches `newLen`; `fuel` bounds the rounds. -/
def growLarge (newLen : Nat) : Nat → Nat → Nat
  | 0, newcap => newcap
  | fuel + 1, newcap =>
    let next := newcap + (newcap + 768) / 4
    if newLen ≤ next then next else growLarge newLen fuel next

/-- `runtime.nextslicecap` (Go 1.20 and later): jump to `newLen` when doubling is not enough,
double a slice below 256 elements, and grow a larger one by a quarter plus 192 at a time. -/
def nextslicecap (newLen oldCap : Nat) : Nat :=
  let doublecap := oldCap + oldCap
  if doublecap < newLen then newLen
  else if oldCap < 256 then doublecap
  else growLarge newLen newLen oldCap

/-- The runtime's small-object size classes in bytes (`class_to_size`, Go 1.21). -/
def sizeClasses : List Nat :=
  [0, 8, 16, 24, 32, 48, 64, 80, 96, 112, 128, 144, 160, 176, 192, 208, 224, 240, 256, 288,
    320, 352, 384, 416, 448, 480, 512, 576, 640, 704, 768, 896, 1024, 1152, 1280, 1408, 1536,
    1792, 2048, 2304, 2688, 3072, 3200, 3456, 4096, 4864, 5376, 6144, 6528, 6784, 6912, 8192,
    9472, 9728, 10240, 10880, 12288, 13568, 14336, 16384, 18432, 19072, 20480, 21760, 24576,
    27264, 28672, 32768]

/-- `runtime.roundupsize`: the size class holding `size` bytes, or whole 8 KiB pages above
32 KiB. -/
def roundupsize (size : Nat) : Nat :=
  if size ≤ 32768 then (sizeClasses.find? (fun c => decide (size ≤ c))).getD size
  else (size + 8191) / 8192 * 8192

theorem le_growLarge (newLen : Nat) : ∀ fuel newcap, newLen ≤ newcap + fuel * 192 →
    newLen ≤ growLarge newLen fuel newcap
  | 0, newcap, bound => by simpa [growLarge] using bound
  | fuel + 1, newcap, bound => by
    simp only [growLarge]
    split
    · assumption
    · exact le_growLarge newLen fuel _ (by rw [Nat.add_mul] at bound; omega)

theorem le_nextslicecap (newLen oldCap : Nat) : newLen ≤ nextslicecap newLen oldCap := by
  simp only [nextslicecap]
  split_ifs
  · exact le_refl _
  · omega
  · exact le_growLarge newLen newLen oldCap (by omega)

theorem le_roundupsize (size : Nat) : size ≤ roundupsize size := by
  unfold roundupsize
  split
  · cases found : sizeClasses.find? (fun c => decide (size ≤ c)) with
    | none => simp
    | some c => simpa using List.find?_some found
  · omega

/-- The growth of a `[]zapcore.Field`: a `zapcore.Field` is 64 bytes wide, a power of two, so
`growslice` rounds `nextslicecap`'s element count up to a size class and divides back. -/
def fieldGrowth : GrowthRule where
  grow oldCap newLen := roundupsize (nextslicecap newLen oldCap * 64) / 64
  le_grow oldCap newLen := by
    show newLen ≤ roundupsize (nextslicecap newLen oldCap * 64) / 64
    have := le_roundupsize (nextslicecap newLen oldCap * 64)
    have := le_nextslicecap newLen oldCap
    omega

end LogBridge
