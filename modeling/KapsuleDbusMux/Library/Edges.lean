import Mathlib.Data.Finset.Basic
import Mathlib.Data.List.Chain

/-! # Levels and their edges

Each key is on or off, and a log gets an entry whenever a key changes: `true` when it
goes on, `false` when it goes off. Such a log tells for each key a story that
alternates, and the keys that are on are the ones it leaves standing (`Tracks`). One
rule says how a log stays in step when one key changes, one that nothing has to be
logged when none does.
-/

universe u

namespace Edges

variable {κ : Type u} [DecidableEq κ]

/-- What the log says about one key, oldest first. -/
def about (k : κ) (log : List (κ × Bool)) : List Bool :=
  (log.filter (fun e => decide (e.1 = k))).map Prod.snd

/-- On, off, on, off: nothing is said twice in a row, and the first is not off. -/
def Alternates (flags : List Bool) : Prop := (false :: flags).IsChain (· ≠ ·)

/-- The keys that went on and have not gone off again. -/
def standing (log : List (κ × Bool)) : Finset κ :=
  log.foldl (fun keys e => if e.2 then insert e.1 keys else keys.erase e.1) ∅

theorem about_concat (k : κ) (log : List (κ × Bool)) (e : κ × Bool) :
    about k (log ++ [e]) = if e.1 = k then about k log ++ [e.2] else about k log := by
  unfold about
  rw [List.filter_append, List.map_append]
  by_cases he : e.1 = k
  · rw [if_pos he, List.filter_singleton, decide_eq_true he]
    rfl
  · rw [if_neg he, List.filter_singleton, decide_eq_false he]
    exact List.append_nil _

theorem about_append (k : κ) (log more : List (κ × Bool)) :
    about k (log ++ more) = about k log ++ about k more := by
  unfold about
  rw [List.filter_append, List.map_append]

theorem about_eq_nil {k : κ} {log : List (κ × Bool)} (h : ∀ e ∈ log, e.1 ≠ k) :
    about k log = [] := by
  unfold about
  rw [List.map_eq_nil_iff, List.filter_eq_nil_iff]
  intro e he
  rw [decide_eq_true_iff]
  exact h e he

theorem mem_standing {k : κ} {log : List (κ × Bool)} :
    k ∈ standing log ↔ (about k log).getLast? = some true := by
  induction log using List.reverseRecOn with
  | nil => exact iff_of_false (Finset.notMem_empty k) (fun h => nomatch h)
  | append_singleton log e ih =>
      rw [about_concat, standing, List.foldl_append, List.foldl_cons, List.foldl_nil, ← standing]
      by_cases he : e.1 = k
      · rw [if_pos he, List.getLast?_concat, Option.some.injEq]
        split
        · next hon => exact iff_of_true (by rw [he]; exact Finset.mem_insert_self k _) hon
        · next hoff => exact iff_of_false (by rw [he]; exact Finset.notMem_erase k _) hoff
      · rw [if_neg he, ← ih]
        split
        · rw [Finset.mem_insert, or_iff_right (Ne.symm he)]
        · rw [Finset.mem_erase, and_iff_right (Ne.symm he)]

/-- A story goes on with the opposite of its last word. -/
theorem Alternates.concat {flags : List Bool} (h : Alternates flags) {b : Bool}
    (hb : b = true ↔ flags.getLast? ≠ some true) : Alternates (flags ++ [b]) := by
  unfold Alternates at h ⊢
  rw [← List.cons_append, List.isChain_append]
  refine ⟨h, List.isChain_singleton b, ?_⟩
  intro last hlast next hnext
  cases hnext
  rw [List.getLast?_cons, Option.mem_some_iff] at hlast
  cases hflags : flags.getLast? with
  | none =>
      rw [hflags, Option.getD_none] at hlast
      rw [← hlast, hb.mpr (by rw [hflags]; exact nofun)]
      exact Bool.false_ne_true
  | some flag =>
      rw [hflags, Option.getD_some] at hlast
      rw [hflags, hlast] at hb
      cases last <;> cases b <;> simp at hb ⊢

/-- The log alternates for every key and leaves standing what is on. -/
structure Tracks (log : List (κ × Bool)) (level : κ → Bool) : Prop where
  alternates : ∀ k, Alternates (about k log)
  standing : ∀ k, k ∈ standing log ↔ level k = true

theorem tracks_nil {level : κ → Bool} (hoff : ∀ k, level k = false) : Tracks [] level where
  alternates _ := List.isChain_singleton false
  standing k := iff_of_false (Finset.notMem_empty k) (by rw [hoff k]; exact Bool.false_ne_true)

/-- As long as no key changes, the log may stay as it is. -/
theorem Tracks.quiet {log : List (κ × Bool)} {level level' : κ → Bool} (h : Tracks log level)
    (hsame : ∀ k, level' k = level k) : Tracks log level' where
  alternates := h.alternates
  standing k := by rw [hsame k]; exact h.standing k

/-- A key that has changed is logged, and no other. -/
theorem Tracks.edge {log : List (κ × Bool)} {level level' : κ → Bool} (h : Tracks log level)
    {k : κ} (hk : level' k ≠ level k) (hother : ∀ k', k' ≠ k → level' k' = level k') :
    Tracks (log ++ [(k, level' k)]) level' where
  alternates := by
    intro k'
    rw [about_concat]
    by_cases he : k = k'
    · subst he
      rw [if_pos rfl]
      apply (h.alternates k).concat
      rw [ne_eq, ← mem_standing, h.standing k]
      cases hlevel : level' k <;> cases hbefore : level k <;> simp [hlevel, hbefore] at hk ⊢
    · rw [if_neg he]
      exact h.alternates k'
  standing := by
    intro k'
    rw [mem_standing, about_concat]
    by_cases he : k = k'
    · subst he
      rw [if_pos rfl, List.getLast?_concat, Option.some.injEq]
    · rw [if_neg he, ← mem_standing, hother k' (Ne.symm he)]
      exact h.standing k'

end Edges
