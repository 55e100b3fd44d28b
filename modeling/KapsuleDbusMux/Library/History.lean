import Mathlib.Data.List.Induction

/-! # The last event that matters

State that is set by some events and left alone by all others is known from the
history alone: it is what the last event of that kind set it to. `last p` is that
event. The rule `observe_foldl` is about folds, and `last_filter` says that events
of other kinds may be dropped, so that interleavings do not matter. What has held
after every event is decided event by event (`forall_prefix_iff`).
-/

universe u v w

namespace History

variable {ε : Type u}

/-- The last event with the property, if there was one. -/
def last (p : ε → Bool) (events : List ε) : Option ε := (events.filter p).getLast?

theorem last_concat (p : ε → Bool) (events : List ε) (e : ε) :
    last p (events ++ [e]) = if p e then some e else last p events := by
  unfold last
  rw [List.filter_append]
  cases h : p e with
  | true => simp [h]
  | false => simp [h]

theorem last_append_of_forall {p : ε → Bool} (events : List ε) {more : List ε}
    (hmore : ∀ e ∈ more, p e = false) : last p (events ++ more) = last p events := by
  have hnone : more.filter p = [] := by
    rw [List.filter_eq_nil_iff]
    intro e he
    rw [hmore e he]
    exact Bool.false_ne_true
  unfold last
  rw [List.filter_append, hnone, List.append_nil]

/-- An event with nothing of its kind after it is the last one. -/
theorem last_of_split {p : ε → Bool} {before after : List ε} {e : ε} (he : p e = true)
    (hafter : ∀ x ∈ after, p x = false) : last p (before ++ e :: after) = some e := by
  rw [List.append_cons, last_append_of_forall _ hafter, last_concat, if_pos he]

/-- Only events with the property have a say, so others may be left out. -/
theorem last_filter {p q : ε → Bool} (hpq : ∀ e, p e = true → q e = true) (events : List ε) :
    last p (events.filter q) = last p events := by
  have hboth : ∀ e, (p e && q e) = p e := by
    intro e
    cases hp : p e with
    | false => rfl
    | true => rw [hpq e hp]; rfl
  unfold last
  rw [List.filter_filter]
  simp only [hboth]

/-- Where at most one event has the property, the order of events does not matter. -/
theorem last_perm {p : ε → Bool} {events events' : List ε} (h : events'.Perm events)
    (hone : events.countP p ≤ 1) : last p events' = last p events := by
  rw [List.countP_eq_length_filter] at hone
  have hfiltered := h.filter p
  unfold last
  cases hl : events.filter p with
  | nil => rw [hl] at hfiltered; rw [hfiltered.eq_nil]
  | cons e rest =>
      rw [hl, List.length_cons] at hone
      have hrest : rest = [] := List.eq_nil_of_length_eq_zero (by omega)
      rw [hl, hrest] at hfiltered
      rw [List.perm_singleton.mp hfiltered, hrest]

/-- Every event sets the observation or leaves it alone: after all of them it is
what the last one set it to. -/
theorem observe_foldl {σ : Type v} {ρ : Type w} (apply : σ → ε → σ) (observe : σ → ρ)
    {p : ε → Bool} {f : ε → ρ}
    (hstep : ∀ s e, observe (apply s e) = if p e then f e else observe s) (s : σ)
    (events : List ε) :
    observe (events.foldl apply s) = ((last p events).map f).getD (observe s) := by
  induction events using List.reverseRecOn with
  | nil => rfl
  | append_singleton events e ih =>
      rw [List.foldl_append, List.foldl_cons, List.foldl_nil, hstep, last_concat]
      cases h : p e with
      | true => simp
      | false => simpa using ih

/-- When a sound history stays sound exactly under `C`, all of a history has been sound
exactly when each of its events met `C`. -/
theorem forall_prefix_iff {P : List ε → Prop} {C : List ε → ε → Prop} (hnil : P [])
    (hstep : ∀ past e, P past → (P (past ++ [e]) ↔ C past e)) (events : List ε) :
    (∀ past, past <+: events → P past) ↔ ∀ past e, past ++ [e] <+: events → C past e := by
  constructor
  · intro h past e hpast
    have hbefore : past <+: events := (List.prefix_append past [e]).trans hpast
    exact (hstep past e (h past hbefore)).mp (h (past ++ [e]) hpast)
  · intro h past
    induction past using List.reverseRecOn with
    | nil => exact fun _ => hnil
    | append_singleton past e ih =>
        intro hpast
        have hbefore : past <+: events := (List.prefix_append past [e]).trans hpast
        exact (hstep past e (ih hbefore)).mpr (h past e hpast)

/-! ## The state before each event -/

/-- Each event with the state it was applied to. -/
def steps {σ : Type v} (apply : σ → ε → σ) : σ → List ε → List (σ × ε)
  | _, [] => []
  | s, e :: events => (s, e) :: steps apply (apply s e) events

theorem steps_concat {σ : Type v} (apply : σ → ε → σ) (s : σ) (events : List ε) (e : ε) :
    steps apply s (events ++ [e]) = steps apply s events ++ [(events.foldl apply s, e)] := by
  induction events generalizing s with
  | nil => rfl
  | cons first events ih =>
      rw [List.cons_append, steps, ih (apply s first)]
      rfl

end History
