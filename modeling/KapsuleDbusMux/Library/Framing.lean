import Mathlib.Data.List.Basic

/-! # Self-delimiting frames

A stream of frames, each of which starts with a header of a fixed length that
says how long the whole frame is. Such frames can only be cut out of a stream in
one way, and no proper beginning of a frame is a sequence of frames.
-/

universe u

/-- How long headers are, and the length of the frame that starts with a header. -/
structure Framing (α : Type u) where
  headerLength : Nat
  size : List α → Nat
  headerLength_pos : 0 < headerLength

namespace Framing

variable {α : Type u} (framing : Framing α)

structure IsFrame (frame : List α) : Prop where
  header : framing.headerLength ≤ frame.length
  size : framing.size (frame.take framing.headerLength) = frame.length

/-- A beginning that lacks a part of the header, or of what the header announces. -/
def Incomplete (start : List α) : Prop :=
  framing.headerLength ≤ start.length →
    start.length < framing.size (start.take framing.headerLength)

variable {framing}

theorem IsFrame.length_pos {frame : List α} (h : framing.IsFrame frame) : 0 < frame.length :=
  Nat.lt_of_lt_of_le framing.headerLength_pos h.header

/-- Of two streams with the same elements, the first header is the same. -/
theorem take_header_eq (framing : Framing α) {a b x y : List α}
    (ha : framing.headerLength ≤ a.length) (hb : framing.headerLength ≤ b.length)
    (h : a ++ x = b ++ y) : a.take framing.headerLength = b.take framing.headerLength := by
  have htake := congrArg (List.take framing.headerLength) h
  rwa [List.take_append_of_le_length ha, List.take_append_of_le_length hb] at htake

theorem IsFrame.append_inj {a b x y : List α} (ha : framing.IsFrame a) (hb : framing.IsFrame b)
    (h : a ++ x = b ++ y) : a = b ∧ x = y := by
  refine List.append_inj h ?_
  rw [← ha.size, ← hb.size, framing.take_header_eq ha.header hb.header h]

/-- A stream of frames that starts with some frames goes on with frames. -/
theorem flatten_prefix (framing : Framing α) {frames others : List (List α)} {rest : List α}
    (hframes : ∀ b ∈ frames, framing.IsFrame b) (hothers : ∀ b ∈ others, framing.IsFrame b)
    (h : frames.flatten ++ rest = others.flatten) :
    ∃ left, others = frames ++ left ∧ rest = left.flatten := by
  induction frames generalizing others with
  | nil => exact ⟨others, rfl, by simpa using h⟩
  | cons b frames ih =>
      have hb := hframes b List.mem_cons_self
      cases others with
      | nil =>
          have hlength := congrArg List.length h
          have hpos := hb.length_pos
          simp only [List.flatten_cons, List.length_append, List.flatten_nil,
            List.length_nil] at hlength
          omega
      | cons c others =>
          rw [List.flatten_cons, List.flatten_cons, List.append_assoc] at h
          have hsplit := hb.append_inj (hothers c List.mem_cons_self) h
          have hrest := ih (fun d hd => hframes d (List.mem_cons_of_mem b hd))
            (fun d hd => hothers d (List.mem_cons_of_mem c hd)) hsplit.2
          rcases hrest with ⟨left, heq, hleft⟩
          exact ⟨left, by rw [hsplit.1, heq]; rfl, hleft⟩

/-- What lacks a part of a frame is no sequence of frames, unless it is empty. -/
theorem Incomplete.eq_nil {start : List α} (hstart : framing.Incomplete start)
    {frames : List (List α)} (hframes : ∀ b ∈ frames, framing.IsFrame b)
    (h : start = frames.flatten) : frames = [] := by
  cases frames with
  | nil => rfl
  | cons b frames =>
      have hb := hframes b List.mem_cons_self
      have hlength : start.length = b.length + frames.flatten.length := by
        rw [h, List.flatten_cons, List.length_append]
      have hheader := hb.header
      have hsame : start.take framing.headerLength = b.take framing.headerLength := by
        rw [h, List.flatten_cons, List.take_append_of_le_length hb.header]
      have hshort := hstart (by omega)
      rw [hsame, hb.size] at hshort
      omega

end Framing
