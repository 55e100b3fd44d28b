import KapsuleDbusMux.Library.Machine
import Mathlib.Data.String.Basic

/-! # Texts that are cut at byte offsets

A text is a list of characters, each of which takes one to four bytes in UTF-8. A slice
is given by byte offsets, and taking it panics when an offset is beyond the end or
inside a character. Offsets come from searching: `find` gives the offset of the first
occurrence of a character.
-/

namespace Offsets

open Machine (Exec Quiet)
open String (utf8Len)

/-! ## Cutting -/

/-- The two parts of a text at an offset. -/
def splitAt : List Char → Nat → Option (List Char × List Char)
  | [], n => if n = 0 then some ([], []) else none
  | c :: s, n =>
      if n = 0 then some ([], c :: s)
      else if n < c.utf8Size then none
      else (splitAt s (n - c.utf8Size)).map (fun (u, v) => (c :: u, v))

theorem splitAt_append (u v : List Char) : splitAt (u ++ v) (utf8Len u) = some (u, v) := by
  induction u with
  | nil => cases v <;> rfl
  | cons c u ih =>
      have hc := c.utf8Size_pos
      rw [List.cons_append, splitAt, String.utf8Len_cons, if_neg (by omega), if_neg (by omega),
        Nat.add_sub_cancel, ih]
      rfl

/-- `&s[lo..]`. -/
def sliceFrom (s : List Char) (lo : Nat) : Exec (List Char) :=
  match splitAt s lo with
  | some (_, rest) => .done rest false
  | none => .panic .outOfBounds

/-- `&s[..hi]`. -/
def sliceTo (s : List Char) (hi : Nat) : Exec (List Char) :=
  match splitAt s hi with
  | some (front, _) => .done front false
  | none => .panic .outOfBounds

/-- `&s[lo..hi]`. -/
def slice (s : List Char) (lo hi : Nat) : Exec (List Char) :=
  if lo ≤ hi then do
    let front ← sliceTo s hi
    sliceFrom front lo
  else .panic .outOfBounds

theorem quiet_sliceFrom (u v : List Char) : Quiet (sliceFrom (u ++ v) (utf8Len u)) v := by
  unfold sliceFrom
  rw [splitAt_append]
  rfl

theorem quiet_sliceTo (u v : List Char) : Quiet (sliceTo (u ++ v) (utf8Len u)) u := by
  unfold sliceTo
  rw [splitAt_append]
  rfl

theorem quiet_slice (u v w : List Char) :
    Quiet (slice (u ++ v ++ w) (utf8Len u) (utf8Len u + utf8Len v)) v := by
  have hto := quiet_sliceTo (u ++ v) w
  rw [String.utf8Len_append] at hto
  unfold slice
  rw [if_pos (Nat.le_add_right _ _)]
  exact Machine.quiet_bind.mpr ⟨u ++ v, hto, quiet_sliceFrom u v⟩

/-! ## Searching -/

def find (c : Char) : List Char → Option Nat
  | [] => none
  | a :: s => if a = c then some 0 else (find c s).map (fun n => n + a.utf8Size)

theorem find_append {c : Char} {u : List Char} (hu : c ∉ u) (v : List Char) :
    find c (u ++ c :: v) = some (utf8Len u) := by
  induction u with
  | nil => rw [List.nil_append, find, if_pos rfl, String.utf8Len_nil]
  | cons a u ih =>
      rw [List.mem_cons, not_or] at hu
      rw [List.cons_append, find, if_neg (Ne.symm hu.1), ih hu.2]
      rfl

theorem find_eq_none {c : Char} {s : List Char} (hs : c ∉ s) : find c s = none := by
  induction s with
  | nil => rfl
  | cons a s ih =>
      rw [List.mem_cons, not_or] at hs
      rw [find, if_neg (Ne.symm hs.1), ih hs.2]
      rfl

/-- The first occurrence, or the end of the text, is where the characters before it end. -/
theorem find_getD (c : Char) (s : List Char) :
    (find c s).getD (utf8Len s) = utf8Len (s.takeWhile (· ≠ c)) := by
  induction s with
  | nil => rfl
  | cons a s ih =>
      by_cases ha : a = c
      · rw [find, if_pos ha, List.takeWhile_cons_of_neg (by simpa using ha)]
        rfl
      · rw [find, if_neg ha, List.takeWhile_cons_of_pos (by simpa using ha), String.utf8Len_cons,
          String.utf8Len_cons, ← ih]
        cases find c s with
        | none => rfl
        | some n => rfl

end Offsets
