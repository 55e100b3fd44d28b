import KapsuleDbusMux.Library.Edges
import KapsuleDbusMux.Matching.Subscriptions

/-! # What a reference counter reports

`MatchRuleRefCount` of `match_rules.rs` over whole histories. The multiplexer asks a
bus to add a rule when `increment` says that it is the first reference, and to remove
it when `decrement` or `remove_client_rules` say that it was the last one. These
reports alone tell at every point which rules the counter has for each bus.
-/

namespace KapsuleDbusMux

open Edges (about Alternates standing Tracks)

namespace MatchRuleRefCount

def rulesForBus (refs : MatchRuleRefCount) (bus : String) : List String :=
  (refs.counts.entries.filter (fun e => e.1.1 == bus && decide (0 < e.2))).map (fun e => e.1.2)

/-- Give up one reference for each rule of a list, and say which of them were the last. -/
def removeClientRules (refs : MatchRuleRefCount) (bus : String) :
    List String → List String × MatchRuleRefCount
  | [] => ([], refs)
  | rule :: rules =>
      let (last, refs) := refs.decrement bus rule
      let (toRemove, refs) := removeClientRules refs bus rules
      (if last then rule :: toRemove else toRemove, refs)

def referenced (refs : MatchRuleRefCount) (key : String × String) : Bool :=
  decide (0 < refs.count key.1 key.2)

theorem count_eq_of_mem {refs : MatchRuleRefCount} {bus rule : String} {n : Nat}
    (h : (⟨(bus, rule), n⟩ : Sigma fun _ : String × String => Nat) ∈ refs.counts.entries) :
    refs.count bus rule = n := by
  unfold count
  rw [AList.lookup_eq_some_iff.mpr h]
  rfl

theorem mem_rulesForBus {refs : MatchRuleRefCount} {bus rule : String} :
    rule ∈ refs.rulesForBus bus ↔ refs.referenced (bus, rule) = true := by
  unfold rulesForBus referenced
  rw [decide_eq_true_iff, List.mem_map]
  constructor
  · rintro ⟨⟨⟨b, r⟩, n⟩, hmem, rfl⟩
    rw [List.mem_filter, Bool.and_eq_true, beq_iff_eq, decide_eq_true_iff] at hmem
    obtain ⟨hentry, rfl, hpos⟩ := hmem
    rw [count_eq_of_mem hentry]
    exact hpos
  · intro hpos
    unfold count at hpos
    cases hl : refs.counts.lookup (bus, rule) with
    | none => rw [hl] at hpos; exact absurd hpos (Nat.lt_irrefl 0)
    | some n =>
        rw [hl, Option.getD_some] at hpos
        refine ⟨⟨(bus, rule), n⟩, ?_, rfl⟩
        rw [List.mem_filter]
        exact ⟨AList.lookup_eq_some_iff.mp hl, by simp [hpos]⟩

theorem nodup_rulesForBus (refs : MatchRuleRefCount) (bus : String) :
    (refs.rulesForBus bus).Nodup := by
  unfold rulesForBus
  have hkeys : (refs.counts.entries.map Sigma.fst).Nodup := refs.counts.nodupKeys
  apply List.Nodup.map_on
  · intro e he e' he' hrule
    rw [List.mem_filter, Bool.and_eq_true, beq_iff_eq] at he he'
    have hkey : e.1 = e'.1 := Prod.ext (he.2.1.trans he'.2.1.symm) hrule
    exact List.inj_on_of_nodup_map hkeys he.1 he'.1 hkey
  · exact (List.Nodup.of_map _ hkeys).filter _

/-! ## One operation -/

theorem decrement_of_count_zero {refs : MatchRuleRefCount} {bus rule : String}
    (h : refs.count bus rule = 0) : refs.decrement bus rule = (false, refs) := by
  unfold count at h
  unfold decrement
  cases hl : refs.counts.lookup (bus, rule) with
  | none => rfl
  | some n =>
      rw [hl, Option.getD_some] at h
      rw [h]

theorem lookup_increment_of_ne {refs : MatchRuleRefCount} {bus rule : String}
    {key : String × String} (hkey : key ≠ (bus, rule)) :
    (refs.increment bus rule).2.counts.lookup key = refs.counts.lookup key :=
  (AList.lookup_insert_if _ _ _ _).trans (if_neg hkey)

theorem lookup_decrement_of_ne {refs : MatchRuleRefCount} {bus rule : String}
    {key : String × String} (hkey : key ≠ (bus, rule)) :
    (refs.decrement bus rule).2.counts.lookup key = refs.counts.lookup key := by
  unfold decrement
  split
  · rfl
  · rfl
  · exact (AList.lookup_erase_if _ _ _).trans (if_neg hkey)
  · exact (AList.lookup_insert_if _ _ _ _).trans (if_neg hkey)

theorem lookup_removeClientRules_of_ne {refs : MatchRuleRefCount} {bus : String}
    {rules : List String} {key : String × String} (hkey : ∀ rule ∈ rules, key ≠ (bus, rule)) :
    (refs.removeClientRules bus rules).2.counts.lookup key = refs.counts.lookup key := by
  induction rules generalizing refs with
  | nil => rfl
  | cons rule rules ih =>
      have hrest : ∀ r ∈ rules, key ≠ (bus, r) :=
        fun r hr => hkey r (List.mem_cons_of_mem rule hr)
      exact (ih hrest).trans (lookup_decrement_of_ne (hkey rule List.mem_cons_self))

theorem removed_subset {refs : MatchRuleRefCount} {bus : String} {rules : List String}
    {rule : String} (h : rule ∈ (refs.removeClientRules bus rules).1) : rule ∈ rules := by
  induction rules generalizing refs with
  | nil => cases h
  | cons first rules ih =>
      unfold removeClientRules at h
      dsimp only at h
      split at h
      · rcases List.mem_cons.mp h with heq | hrest
        · rw [heq]
          exact List.mem_cons_self
        · exact List.mem_cons_of_mem first (ih hrest)
      · exact List.mem_cons_of_mem first (ih h)

end MatchRuleRefCount

/-! ## Reports -/

inductive RefOperation where
  | increment (bus rule : String)
  | decrement (bus rule : String)
  | removeClientRules (bus : String) (rules : List String)
  deriving DecidableEq, Repr

def RefOperation.concerns : RefOperation → String × String → Prop
  | .increment bus rule, key => key = (bus, rule)
  | .decrement bus rule, key => key = (bus, rule)
  | .removeClientRules bus rules, key => ∃ rule ∈ rules, key = (bus, rule)

/-- A counter and everything it has reported: a rule to add to a bus, or one to remove
from it. -/
structure ObservedRefCount where
  refs : MatchRuleRefCount := .new
  reports : List ((String × String) × Bool) := []

namespace ObservedRefCount

def perform (s : ObservedRefCount) : RefOperation → ObservedRefCount
  | .increment bus rule =>
      let (first, refs) := s.refs.increment bus rule
      ⟨refs, s.reports ++ if first then [((bus, rule), true)] else []⟩
  | .decrement bus rule =>
      let (last, refs) := s.refs.decrement bus rule
      ⟨refs, s.reports ++ if last then [((bus, rule), false)] else []⟩
  | .removeClientRules bus rules =>
      let (toRemove, refs) := s.refs.removeClientRules bus rules
      ⟨refs, s.reports ++ toRemove.map (fun rule => ((bus, rule), false))⟩

def history (operations : List RefOperation) : ObservedRefCount := operations.foldl perform {}

variable {refs : MatchRuleRefCount} {log : List ((String × String) × Bool)}

theorem tracks_increment (h : Tracks log refs.referenced) (bus rule : String) :
    Tracks (log ++ if (refs.increment bus rule).1 then [((bus, rule), true)] else [])
      (refs.increment bus rule).2.referenced := by
  have hother : ∀ key, key ≠ (bus, rule) →
      (refs.increment bus rule).2.referenced key = refs.referenced key := by
    intro key hkey
    unfold MatchRuleRefCount.referenced
    rw [MatchRuleRefCount.count_increment, if_neg hkey, Nat.add_zero]
  have hself : (refs.increment bus rule).2.referenced (bus, rule) = true := by
    unfold MatchRuleRefCount.referenced
    rw [MatchRuleRefCount.count_increment, if_pos rfl, decide_eq_true_iff]
    omega
  have hresult := MatchRuleRefCount.increment_result refs bus rule
  split
  · next hfirst =>
      have hbefore : refs.referenced (bus, rule) = false :=
        decide_eq_false (by rw [hresult.mp hfirst]; exact Nat.lt_irrefl 0)
      rw [← hself]
      exact h.edge (by rw [hself, hbefore]; exact Bool.noConfusion) hother
  · next hmore =>
      rw [List.append_nil]
      apply h.quiet
      intro key
      by_cases hkey : key = (bus, rule)
      · rw [hkey, hself]
        exact (decide_eq_true (Nat.pos_of_ne_zero (fun hzero => hmore (hresult.mpr hzero)))).symm
      · exact hother key hkey

theorem tracks_decrement (h : Tracks log refs.referenced) (bus rule : String) :
    Tracks (log ++ if (refs.decrement bus rule).1 then [((bus, rule), false)] else [])
      (refs.decrement bus rule).2.referenced := by
  have hother : ∀ key, key ≠ (bus, rule) →
      (refs.decrement bus rule).2.referenced key = refs.referenced key := by
    intro key hkey
    unfold MatchRuleRefCount.referenced
    rw [MatchRuleRefCount.count_decrement, if_neg hkey, Nat.sub_zero]
  have hself : (refs.decrement bus rule).2.referenced (bus, rule) =
      decide (0 < refs.count bus rule - 1) := by
    unfold MatchRuleRefCount.referenced
    rw [MatchRuleRefCount.count_decrement, if_pos rfl]
  have hresult := MatchRuleRefCount.decrement_result refs bus rule
  split
  · next hlast =>
      have hcount := hresult.mp hlast
      have hafter : (refs.decrement bus rule).2.referenced (bus, rule) = false := by
        rw [hself, hcount]
        rfl
      have hbefore : refs.referenced (bus, rule) = true :=
        decide_eq_true (by rw [hcount]; exact Nat.one_pos)
      rw [← hafter]
      exact h.edge (by rw [hafter, hbefore]; exact Bool.noConfusion) hother
  · next hmore =>
      rw [List.append_nil]
      apply h.quiet
      intro key
      by_cases hkey : key = (bus, rule)
      · have hne : refs.count bus rule ≠ 1 := fun hone => hmore (hresult.mpr hone)
        rw [hkey, hself]
        unfold MatchRuleRefCount.referenced
        dsimp only
        rw [decide_eq_decide]
        omega
      · exact hother key hkey

/-- A batch is one decrement after the other, also for rules it names repeatedly. -/
theorem tracks_removeClientRules (h : Tracks log refs.referenced) (bus : String)
    (rules : List String) :
    Tracks (log ++ (refs.removeClientRules bus rules).1.map (fun rule => ((bus, rule), false)))
      (refs.removeClientRules bus rules).2.referenced := by
  induction rules generalizing refs log with
  | nil =>
      rw [MatchRuleRefCount.removeClientRules, List.map_nil, List.append_nil]
      exact h
  | cons rule rules ih =>
      have hrest := ih (tracks_decrement h bus rule)
      rw [List.append_assoc] at hrest
      unfold MatchRuleRefCount.removeClientRules
      dsimp only
      cases hlast : (refs.decrement bus rule).1 with
      | true =>
          rw [hlast] at hrest
          exact hrest
      | false =>
          rw [hlast] at hrest
          exact hrest

theorem tracks_perform {s : ObservedRefCount} (h : Tracks s.reports s.refs.referenced)
    (operation : RefOperation) :
    Tracks (s.perform operation).reports (s.perform operation).refs.referenced := by
  cases operation with
  | increment bus rule => exact tracks_increment h bus rule
  | decrement bus rule => exact tracks_decrement h bus rule
  | removeClientRules bus rules => exact tracks_removeClientRules h bus rules

theorem tracks_history (operations : List RefOperation) :
    Tracks (history operations).reports (history operations).refs.referenced := by
  induction operations using List.reverseRecOn with
  | nil => exact Edges.tracks_nil (fun _ => rfl)
  | append_singleton operations operation ih =>
      have hstep : history (operations ++ [operation]) =
          (history operations).perform operation := by
        rw [history, List.foldl_append]
        rfl
      rw [hstep]
      exact tracks_perform ih operation

theorem perform_of_not_concerns (s : ObservedRefCount) {operation : RefOperation}
    {key : String × String} (hkey : ¬ operation.concerns key) :
    (s.perform operation).refs.counts.lookup key = s.refs.counts.lookup key ∧
      about key (s.perform operation).reports = about key s.reports := by
  have hsilent : ∀ more : List ((String × String) × Bool), (∀ e ∈ more, e.1 ≠ key) →
      about key (s.reports ++ more) = about key s.reports := by
    intro more hmore
    rw [Edges.about_append, Edges.about_eq_nil hmore, List.append_nil]
  have hone : ∀ (reported flag : Bool) (other : String × String), key ≠ other →
      about key (s.reports ++ if reported then [(other, flag)] else []) = about key s.reports := by
    intro reported flag other hne
    apply hsilent
    intro e he
    cases reported with
    | false => cases he
    | true =>
        rw [List.mem_singleton.mp he]
        exact Ne.symm hne
  cases operation with
  | increment bus rule =>
      exact ⟨MatchRuleRefCount.lookup_increment_of_ne hkey, hone _ _ _ hkey⟩
  | decrement bus rule =>
      exact ⟨MatchRuleRefCount.lookup_decrement_of_ne hkey, hone _ _ _ hkey⟩
  | removeClientRules bus rules =>
      have hne : ∀ rule ∈ rules, key ≠ (bus, rule) := fun rule hrule heq => hkey ⟨rule, hrule, heq⟩
      refine ⟨MatchRuleRefCount.lookup_removeClientRules_of_ne hne, hsilent _ (fun e he => ?_)⟩
      obtain ⟨rule, hrule, rfl⟩ := List.mem_map.mp he
      exact Ne.symm (hne rule (MatchRuleRefCount.removed_subset hrule))

/-- After every history the reports alternate for each rule on each bus, and the rules
they leave standing on a bus are the ones the counter lists for it. Rules without
references cannot be decremented, and no operation touches what it is not about. -/
theorem reports_reconstruct_references (operations : List RefOperation) :
    let s := history operations
    (∀ key, Alternates (about key s.reports)) ∧
      (∀ bus, (s.refs.rulesForBus bus).Nodup ∧
        ∀ rule, rule ∈ s.refs.rulesForBus bus ↔ (bus, rule) ∈ standing s.reports) ∧
      (∀ bus rule, s.refs.count bus rule = 0 → s.refs.decrement bus rule = (false, s.refs)) ∧
      (∀ operation key, ¬ operation.concerns key →
        (s.perform operation).refs.counts.lookup key = s.refs.counts.lookup key ∧
          about key (s.perform operation).reports = about key s.reports) := by
  intro s
  have htracks := tracks_history operations
  refine ⟨htracks.alternates, fun bus => ⟨s.refs.nodup_rulesForBus bus, fun rule => ?_⟩,
    fun bus rule => MatchRuleRefCount.decrement_of_count_zero,
    fun operation key => s.perform_of_not_concerns⟩
  rw [MatchRuleRefCount.mem_rulesForBus]
  exact (htracks.standing (bus, rule)).symm

end ObservedRefCount

end KapsuleDbusMux
