import Mathlib.Logic.Basic

/-! # Two runs of one computation

A computation with a state and an error is run twice, from states that are related. It
respects the relation when both runs fail with the same error, or both end in related
states with related results. The rules below take a computation apart; a result that is
equal in both runs is handed on as one value.
-/

universe u

namespace Coupling

variable {σ ε α β : Type u} {S : σ → σ → Prop}

/-- Two outcomes that cannot be told apart through `S` and `R`. -/
inductive Alike (S : σ → σ → Prop) (R : α → α → Prop) :
    Except ε (α × σ) → Except ε (α × σ) → Prop
  | error (e : ε) : Alike S R (.error e) (.error e)
  | ok {a a' : α} {s s' : σ} (results : R a a') (states : S s s') :
      Alike S R (.ok (a, s)) (.ok (a', s'))

/-- From related states the computation has outcomes that are alike. -/
def Respects (S : σ → σ → Prop) (R : α → α → Prop) (x : StateT σ (Except ε) α) : Prop :=
  ∀ s s', S s s' → Alike S R (x.run s) (x.run s')

theorem respects_pure {R : α → α → Prop} {a : α} (h : R a a) :
    Respects S R (pure a : StateT σ (Except ε) α) :=
  fun _ _ hs => .ok h hs

theorem respects_throw {R : α → α → Prop} (e : ε) :
    Respects S R (throw e : StateT σ (Except ε) α) :=
  fun _ _ _ => .error e

theorem Respects.bind {R : β → β → Prop} {x : StateT σ (Except ε) α}
    {f : α → StateT σ (Except ε) β} (hx : Respects S Eq x) (hf : ∀ a, Respects S R (f a)) :
    Respects S R (x >>= f) := by
  intro s s' hs
  rw [StateT.run_bind, StateT.run_bind]
  have hfirst := hx s s' hs
  revert hfirst
  generalize x.run s = first
  generalize x.run s' = second
  intro hfirst
  cases hfirst with
  | error e => exact .error e
  | ok results states =>
      subst results
      exact hf _ _ _ states

theorem respects_ite {R : α → α → Prop} {c : Prop} [Decidable c] {x y : StateT σ (Except ε) α}
    (hx : Respects S R x) (hy : Respects S R y) : Respects S R (if c then x else y) := by
  split
  · exact hx
  · exact hy

end Coupling
