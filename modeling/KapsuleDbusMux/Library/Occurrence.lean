import Mathlib.Data.List.Infix

/-! # Occurrences of a pattern in a list

A list that has a pattern somewhere is a part in which no occurrence begins, the
pattern, and a rest. Functions that walk over a list from one occurrence to the next
are reasoned about with `match_induction`, which follows these parts.
-/

universe u

namespace Occurrence

variable {α : Type u} {pattern : List α}

/-- No occurrence begins in `part` when `rest` follows it. -/
def NoneBegins (pattern part rest : List α) : Prop :=
  ∀ v w, part = v ++ w → w ≠ [] → ¬ pattern <+: w ++ rest

theorem noneBegins_nil (pattern rest : List α) : NoneBegins pattern [] rest :=
  fun _ _ h hne => absurd (List.append_eq_nil_iff.mp h.symm).2 hne

theorem noneBegins_cons {a : α} {part rest : List α} :
    NoneBegins pattern (a :: part) rest ↔
      ¬ pattern <+: a :: (part ++ rest) ∧ NoneBegins pattern part rest := by
  constructor
  · intro h
    exact ⟨h [] (a :: part) rfl (List.cons_ne_nil _ _),
      fun v w hpart hw => h (a :: v) w (by rw [hpart, List.cons_append]) hw⟩
  · rintro ⟨hhead, htail⟩ v w hpart hw
    cases v with
    | nil =>
        rw [List.nil_append] at hpart
        rw [← hpart]
        exact hhead
    | cons a' v =>
        rw [List.cons_append, List.cons.injEq] at hpart
        exact htail v w hpart.2 hw

theorem noneBegins_of_absent {l : List α} (h : ¬ pattern <:+: l) : NoneBegins pattern l [] := by
  rintro v w rfl _ ⟨rest, hrest⟩
  rw [List.append_nil] at hrest
  exact h ⟨v, rest, by rw [List.append_assoc, hrest]⟩

theorem exists_first_match {l : List α} (h : pattern <:+: l) :
    ∃ u v, l = u ++ (pattern ++ v) ∧ NoneBegins pattern u (pattern ++ v) := by
  induction l with
  | nil =>
      have hnil : pattern = [] := List.eq_nil_of_infix_nil h
      exact ⟨[], [], by rw [hnil]; rfl, noneBegins_nil _ _⟩
  | cons a l ih =>
      by_cases hstarts : pattern <+: a :: l
      · obtain ⟨v, hv⟩ := hstarts
        exact ⟨[], v, hv.symm, noneBegins_nil _ _⟩
      · have hlater : pattern <:+: l := (List.infix_cons_iff.mp h).resolve_left hstarts
        obtain ⟨u, v, hl, hfirst⟩ := ih hlater
        refine ⟨a :: u, v, by rw [hl, List.cons_append], noneBegins_cons.mpr ⟨?_, hfirst⟩⟩
        rw [← hl]
        exact hstarts

/-- Induction from one occurrence to the next. -/
theorem match_induction {P : List α → Prop} (hpattern : pattern ≠ [])
    (hnone : ∀ l, ¬ pattern <:+: l → P l)
    (hmatch : ∀ u v, NoneBegins pattern u (pattern ++ v) → P v → P (u ++ (pattern ++ v)))
    (l : List α) : P l := by
  induction hlen : l.length using Nat.strong_induction_on generalizing l with
  | _ len ih =>
      by_cases hoccurs : pattern <:+: l
      · obtain ⟨u, v, hl, hfirst⟩ := exists_first_match hoccurs
        have hpos := List.length_pos_iff.mpr hpattern
        have hshort : v.length < len := by
          rw [← hlen, hl]
          simp only [List.length_append]
          omega
        rw [hl]
        exact hmatch u v hfirst (ih v.length hshort v rfl)
      · exact hnone l hoccurs

/-- An occurrence does not reach across something that the pattern does not have. -/
theorem prefix_of_notMem {sep : α} {part rest : List α} (hsep : sep ∉ pattern)
    (h : pattern <+: part ++ sep :: rest) : pattern <+: part := by
  have hpart : part ++ [sep] <+: part ++ sep :: rest := ⟨rest, List.append_assoc _ _ _⟩
  rcases List.prefix_or_prefix_of_prefix h hpart with hshort | hlong
  · rcases List.prefix_concat_iff.mp hshort with heq | hbefore
    · exact absurd (heq ▸ List.mem_append_right _ List.mem_cons_self) hsep
    · exact hbefore
  · exact absurd (hlong.subset (List.mem_append_right _ List.mem_cons_self)) hsep

end Occurrence
