import Mathlib.Data.List.Forall2
import Mathlib.Data.List.Induction
import Mathlib.Logic.Basic
import Mathlib.Tactic.ByContra

/-! # Runs of a partial step function

A system is a step function `σ → ε → Option σ`: the event selects the party that
moves and resolves every choice the scheduler or the environment has, and
`none` says that the event is not enabled. A run is a list of events that are
all enabled. `Along P` says that `P` holds of each event and of the state it is
taken from; assumptions about the environment and conditions on the schedule
are stated with it, and the rules below turn one-step facts into facts about
whole runs.
-/

universe u v w

namespace Trace

variable {σ : Type u} {ε : Type v} {step : σ → ε → Option σ}

/-- The state after all the events, when each of them is enabled in turn. -/
def run (step : σ → ε → Option σ) : σ → List ε → Option σ
  | s, [] => some s
  | s, e :: es => (step s e).bind (fun t => run step t es)

/-- `P` holds of every event of the run and the state it is taken from. -/
def Along (step : σ → ε → Option σ) (P : σ → ε → Prop) : σ → List ε → Prop
  | _, [] => True
  | s, e :: es => P s e ∧ ∀ t, step s e = some t → Along step P t es

theorem run_cons_eq_some {s t : σ} {e : ε} {es : List ε} :
    run step s (e :: es) = some t ↔ ∃ m, step s e = some m ∧ run step m es = some t :=
  Option.bind_eq_some_iff

theorem run_append_eq_some {s t : σ} {es fs : List ε} :
    run step s (es ++ fs) = some t ↔ ∃ m, run step s es = some m ∧ run step m fs = some t := by
  induction es generalizing s with
  | nil => exact ⟨fun h => ⟨s, rfl, h⟩, fun ⟨m, hm, h⟩ => by cases hm; exact h⟩
  | cons e es ih =>
      rw [List.cons_append, run_cons_eq_some]
      constructor
      · rintro ⟨n, hn, h⟩
        rcases ih.mp h with ⟨m, hm, hrest⟩
        exact ⟨m, run_cons_eq_some.mpr ⟨n, hn, hm⟩, hrest⟩
      · rintro ⟨m, hm, hrest⟩
        rcases run_cons_eq_some.mp hm with ⟨n, hn, h⟩
        exact ⟨n, hn, ih.mpr ⟨m, h, hrest⟩⟩

instance decidableAlong {P : σ → ε → Prop} [∀ s e, Decidable (P s e)] :
    ∀ s es, Decidable (Along step P s es)
  | _, [] => isTrue trivial
  | s, e :: es =>
      match h : step s e with
      | none => decidable_of_iff (P s e)
          ⟨fun hp => ⟨hp, fun t ht => by cases h.symm.trans ht⟩, fun hp => hp.1⟩
      | some m =>
          have : Decidable (Along step P m es) := decidableAlong m es
          decidable_of_iff (P s e ∧ Along step P m es)
            ⟨fun hp => ⟨hp.1, fun t ht => by cases h.symm.trans ht; exact hp.2⟩,
              fun hp => ⟨hp.1, hp.2 m h⟩⟩

/-- A run that can be evaluated, with what is evaluated of its last state. -/
theorem exists_of_eval {p : σ → Prop} [DecidablePred p] {s : σ} {es : List ε}
    (h : (run step s es).any (fun t => decide (p t)) = true) :
    ∃ t, run step s es = some t ∧ p t := by
  rcases (Option.any_eq_true _ _).mp h with ⟨t, ht, hp⟩
  exact ⟨t, ht, of_decide_eq_true hp⟩

theorem along_of_forall {p : ε → Prop} {s : σ} {es : List ε} (h : ∀ e ∈ es, p e) :
    Along step (fun _ e => p e) s es := by
  induction es generalizing s with
  | nil => trivial
  | cons e es ih =>
      exact ⟨h e List.mem_cons_self, fun _ _ => ih (fun f hf => h f (List.mem_cons_of_mem e hf))⟩

theorem Along.and {P Q : σ → ε → Prop} {s : σ} {es : List ε}
    (hP : Along step P s es) (hQ : Along step Q s es) :
    Along step (fun s e => P s e ∧ Q s e) s es := by
  induction es generalizing s with
  | nil => trivial
  | cons e es ih =>
      exact ⟨⟨hP.1, hQ.1⟩, fun t ht => ih (hP.2 t ht) (hQ.2 t ht)⟩

/-- The condition holds of each event at the state the events before it lead to. -/
theorem Along.at_event {P : σ → ε → Prop} {s m : σ} {es fs : List ε} {e : ε}
    (h : Along step P s (es ++ e :: fs)) (hm : run step s es = some m) : P m e := by
  induction es generalizing s with
  | nil =>
      cases hm
      exact h.1
  | cons e' es ih =>
      obtain ⟨n, hn, hrest⟩ := run_cons_eq_some.mp hm
      exact ih (h.2 n hn) hrest

/-! ## Invariants -/

/-- An invariant of every step that meets `P` holds after every run that does. -/
theorem invariant_of_along {I : σ → Prop} {P : σ → ε → Prop}
    (hstep : ∀ s e t, I s → P s e → step s e = some t → I t)
    {s t : σ} {es : List ε} (hs : I s) (hP : Along step P s es) (h : run step s es = some t) :
    I t := by
  induction es generalizing s with
  | nil =>
      cases h
      exact hs
  | cons e es ih =>
      obtain ⟨m, hm, hrest⟩ := run_cons_eq_some.mp h
      exact ih (hstep s e m hs hP.1 hm) (hP.2 m hm) hrest

theorem invariant_of_run {I : σ → Prop} (hstep : ∀ s e t, I s → step s e = some t → I t)
    {s t : σ} {es : List ε} (hs : I s) (h : run step s es = some t) : I t :=
  invariant_of_along (P := fun _ _ => True) (fun s e t hI _ ht => hstep s e t hI ht) hs
    (along_of_forall (fun _ _ => trivial)) h

/-- Where every step of one system is a run of another one between related states, so is
every run. -/
theorem refines_of_step {τ : Type w} {φ : Type*} {step' : τ → φ → Option τ} {R : σ → τ → Prop}
    (hstep : ∀ s e t x, R s x → step s e = some t → ∃ fs y, run step' x fs = some y ∧ R t y)
    {s t : σ} {x : τ} {es : List ε} (hrelated : R s x) (h : run step s es = some t) :
    ∃ fs y, run step' x fs = some y ∧ R t y := by
  induction es generalizing s x with
  | nil =>
      cases h
      exact ⟨[], x, rfl, hrelated⟩
  | cons e es ih =>
      obtain ⟨m, hm, hrest⟩ := run_cons_eq_some.mp h
      obtain ⟨fs, y, hfs, hmiddle⟩ := hstep s e m x hrelated hm
      obtain ⟨gs, z, hgs, hend⟩ := ih hmiddle hrest
      exact ⟨fs ++ gs, z, run_append_eq_some.mpr ⟨y, hfs, hgs⟩, hend⟩

/-- Under an invariant of all steps one condition may follow from another. -/
theorem Along.imp_of_invariant {I : σ → Prop} {P Q : σ → ε → Prop}
    (hstep : ∀ s e t, I s → step s e = some t → I t) (himp : ∀ s e, I s → P s e → Q s e)
    {s : σ} {es : List ε} (hs : I s) (hP : Along step P s es) : Along step Q s es := by
  induction es generalizing s with
  | nil => trivial
  | cons e es ih =>
      exact ⟨himp s e hs hP.1, fun t ht => ih (hstep s e t hs ht) (hP.2 t ht)⟩

/-- While an invariant of the steps that meet `P` holds, `P` may be read as `Q`.
After the first event that breaks `P` nothing more is known, and nothing more
is needed: both sides have already failed. -/
theorem along_iff_of_invariant {I : σ → Prop} {W P Q : σ → ε → Prop}
    (hstep : ∀ s e t, I s → W s e → P s e → step s e = some t → I t)
    (hiff : ∀ s e, I s → W s e → (P s e ↔ Q s e))
    {s : σ} {es : List ε} (hs : I s) (hW : Along step W s es) :
    Along step P s es ↔ Along step Q s es := by
  induction es generalizing s with
  | nil => exact Iff.rfl
  | cons e es ih =>
      constructor
      · rintro ⟨hp, hrest⟩
        refine ⟨(hiff s e hs hW.1).mp hp, fun t ht => ?_⟩
        exact (ih (hstep s e t hs hW.1 hp ht) (hW.2 t ht)).mp (hrest t ht)
      · rintro ⟨hq, hrest⟩
        have hp := (hiff s e hs hW.1).mpr hq
        refine ⟨hp, fun t ht => ?_⟩
        exact (ih (hstep s e t hs hW.1 hp ht) (hW.2 t ht)).mpr (hrest t ht)

/-- When a defect is never repaired and a sound state stays sound exactly under
`P`, a run ends in a sound state exactly when all of its events met `P`. -/
theorem sound_iff_along {I S : σ → Prop} {P : σ → ε → Prop}
    (hinv : ∀ s e t, I s → step s e = some t → I t)
    (hsound : ∀ s e t, I s → S s → step s e = some t → (S t ↔ P s e))
    (hdefect : ∀ s e t, I s → ¬ S s → step s e = some t → ¬ S t)
    {s t : σ} {es : List ε} (hI : I s) (hs : S s) (h : run step s es = some t) :
    S t ↔ Along step P s es := by
  have hkeep : ∀ es s, I s → ¬ S s → run step s es = some t → ¬ S t := by
    intro es
    induction es with
    | nil =>
        intro s _ hbad h
        cases h
        exact hbad
    | cons e es ih =>
        intro s hI hbad h
        obtain ⟨m, hm, hrest⟩ := run_cons_eq_some.mp h
        exact ih m (hinv s e m hI hm) (hdefect s e m hI hbad hm) hrest
  induction es generalizing s with
  | nil =>
      cases h
      exact iff_of_true hs trivial
  | cons e es ih =>
      obtain ⟨m, hm, hrest⟩ := run_cons_eq_some.mp h
      have hstep := hsound s e m hI hs hm
      constructor
      · intro ht
        have hmid : S m := by
          by_contra hbad
          exact hkeep es m (hinv s e m hI hm) hbad hrest ht
        refine ⟨hstep.mp hmid, fun t' ht' => ?_⟩
        cases hm.symm.trans ht'
        exact (ih (hinv s e m hI hm) hmid hrest).mp ht
      · rintro ⟨hp, hP⟩
        exact (ih (hinv s e m hI hm) (hstep.mpr hp) hrest).mpr (hP m hm)

/-! ## Logs and counts -/

theorem run_concat_eq_some {s t : σ} {es : List ε} {e : ε} :
    run step s (es ++ [e]) = some t ↔ ∃ m, run step s es = some m ∧ step m e = some t := by
  rw [run_append_eq_some]
  refine exists_congr (fun m => and_congr_right (fun _ => ?_))
  rw [run_cons_eq_some]
  exact ⟨fun ⟨u, hu, ht⟩ => by cases ht; exact hu, fun h => ⟨t, h, rfl⟩⟩

/-- A log that grows by at most one entry with each event, or starts over, has its
entries in the order of the events and at most one for each of them. -/
theorem log_follows_run {ρ : Type w} {R : ρ → ε → Prop} (log : σ → List ρ)
    (hstep : ∀ s e t, step s e = some t →
      log t = [] ∨ log t = log s ∨ ∃ r, R r e ∧ log t = log s ++ [r])
    {s t : σ} {es : List ε} (hs : log s = []) (h : run step s es = some t) :
    List.SublistForall₂ R (log t) es := by
  induction es using List.reverseRecOn generalizing t with
  | nil =>
      cases h
      rw [hs]
      exact .nil
  | append_singleton es e ih =>
      obtain ⟨m, hm, ht⟩ := run_concat_eq_some.mp h
      obtain ⟨sub, hsub, hsublist⟩ := List.sublistForall₂_iff.mp (ih hm)
      rcases hstep m e t ht with hnil | hsame | ⟨r, hr, hgrown⟩
      · rw [hnil]
        exact .nil
      · rw [hsame]
        exact List.sublistForall₂_iff.mpr ⟨sub, hsub,
          hsublist.trans (List.sublist_append_left es [e])⟩
      · rw [hgrown]
        exact List.sublistForall₂_iff.mpr ⟨sub ++ [e],
          List.rel_append hsub (.cons hr .nil), hsublist.append (List.Sublist.refl [e])⟩

/-- A quantity that only certain events raise, and by one each, is at most their number. -/
theorem count_le_of_run {I : σ → Prop} {P : σ → ε → Prop} (p : ε → Bool) (count : σ → Nat)
    (hinv : ∀ s e t, I s → P s e → step s e = some t → I t)
    (hstep : ∀ s e t, I s → P s e → step s e = some t →
      count t ≤ count s + if p e then 1 else 0)
    {s t : σ} {es : List ε} (hs : I s) (hP : Along step P s es) (h : run step s es = some t) :
    count t ≤ count s + es.countP p := by
  induction es generalizing s with
  | nil =>
      cases h
      exact Nat.le_refl _
  | cons e es ih =>
      obtain ⟨m, hm, hrest⟩ := run_cons_eq_some.mp h
      have hfirst := hstep s e m hs hP.1 hm
      have hothers := ih (hinv s e m hs hP.1 hm) (hP.2 m hm) hrest
      rw [List.countP_cons]
      omega

/-- Events of two kinds are no more than those of either kind together. -/
theorem countP_or_le (p q : ε → Bool) (es : List ε) :
    es.countP (fun e => p e || q e) ≤ es.countP p + es.countP q := by
  induction es with
  | nil => exact Nat.le_refl 0
  | cons e es ih =>
      simp only [List.countP_cons, Bool.or_eq_true]
      by_cases hp : p e = true
      · rw [if_pos (Or.inl hp), if_pos hp]
        omega
      · by_cases hq : q e = true
        · rw [if_pos (Or.inr hq), if_neg hp, if_pos hq]
          omega
        · rw [if_neg (not_or.mpr ⟨hp, hq⟩), if_neg hp, if_neg hq]
          exact ih

/-- The system together with a log, to which every step adds what it records. -/
def recorded {ρ : Type w} (step : σ → ε → Option σ) (records : σ → ε → List ρ)
    (p : σ × List ρ) (e : ε) : Option (σ × List ρ) :=
  (step p.1 e).map (fun t => (t, p.2 ++ records p.1 e))

theorem recorded_eq_some {ρ : Type w} {records : σ → ε → List ρ} {p q : σ × List ρ} {e : ε} :
    recorded step records p e = some q ↔
      ∃ t, step p.1 e = some t ∧ q = (t, p.2 ++ records p.1 e) := by
  unfold recorded
  rw [Option.map_eq_some_iff]
  exact exists_congr (fun t => and_congr_right (fun _ => eq_comm))

end Trace
