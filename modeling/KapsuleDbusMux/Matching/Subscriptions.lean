import KapsuleDbusMux.Library.Roster
import KapsuleDbusMux.Matching.MatchRule

/-! # Rules of a client and references on a bus

`match_rules.rs`. A client's rules are kept once per rule text. The reference
counter says for each bus and rule text how many additions it has seen, and
reports the first and the last reference so that the rule is added to and
removed from the bus.
-/

namespace KapsuleDbusMux

open Roster (Distinct leave has)

/-- The rules of one client; no two have the same text. -/
structure ClientMatchRules where
  rules : List MatchRule
  distinct : Distinct MatchRule.ruleString rules
  deriving DecidableEq

namespace ClientMatchRules

def new : ClientMatchRules := ⟨[], Roster.distinct_nil _⟩

def add (client : ClientMatchRules) (rule : MatchRule) : ClientMatchRules :=
  if h : has MatchRule.ruleString rule.ruleString client.rules = true then client
  else ⟨client.rules ++ [rule],
    Roster.distinct_concat client.distinct (fun hmem => h (Roster.has_iff.mpr hmem))⟩

def remove (client : ClientMatchRules) (ruleString : String) : Bool × ClientMatchRules :=
  let rules := leave MatchRule.ruleString ruleString client.rules
  (decide (rules.length < client.rules.length), ⟨rules, client.distinct.leave ruleString⟩)

def isMatch (client : ClientMatchRules) (msg : Message) : Bool :=
  client.rules.any (fun rule => rule.isMatch msg)

def matchesIgnoringDestination (client : ClientMatchRules) (msg : Message) : Bool :=
  client.rules.any (fun rule => rule.matchesIgnoringDestination msg)

def ruleStrings (client : ClientMatchRules) : List String := client.rules.map MatchRule.ruleString

def holds (client : ClientMatchRules) (ruleString : String) : Bool :=
  has MatchRule.ruleString ruleString client.rules

@[simp] theorem holds_new (ruleString : String) : new.holds ruleString = false := rfl

theorem mem_ruleStrings {client : ClientMatchRules} {ruleString : String} :
    ruleString ∈ client.ruleStrings ↔ client.holds ruleString = true :=
  Roster.has_iff.symm

theorem nodup_ruleStrings (client : ClientMatchRules) : client.ruleStrings.Nodup := client.distinct

theorem holds_add (client : ClientMatchRules) (rule : MatchRule) (ruleString : String) :
    (client.add rule).holds ruleString =
      (client.holds ruleString || decide (ruleString = rule.ruleString)) := by
  rw [Bool.eq_iff_iff, ← mem_ruleStrings, Bool.or_eq_true, ← mem_ruleStrings, decide_eq_true_iff]
  unfold add
  split
  · next h =>
      constructor
      · exact Or.inl
      · intro hor
        rcases hor with hold | hnew
        · exact hold
        · rw [hnew]
          exact Roster.has_iff.mp h
  · simp [ruleStrings, eq_comm]

theorem holds_remove (client : ClientMatchRules) (removed ruleString : String) :
    (client.remove removed).2.holds ruleString =
      (client.holds ruleString && decide (ruleString ≠ removed)) := by
  rw [Bool.eq_iff_iff, ← mem_ruleStrings, Bool.and_eq_true, ← mem_ruleStrings, decide_eq_true_iff]
  simp only [ruleStrings, remove, List.mem_map, Roster.mem_leave]
  constructor
  · rintro ⟨rule, ⟨hmem, hne⟩, heq⟩
    exact ⟨⟨rule, hmem, heq⟩, heq ▸ hne⟩
  · rintro ⟨⟨rule, hmem, heq⟩, hne⟩
    exact ⟨rule, ⟨hmem, heq ▸ hne⟩, heq⟩

theorem remove_result (client : ClientMatchRules) (ruleString : String) :
    (client.remove ruleString).1 = client.holds ruleString := by
  rw [Bool.eq_iff_iff]
  unfold remove
  rw [decide_eq_true_iff]
  exact Roster.length_leave_lt

end ClientMatchRules

/-! ## Reference counts -/

structure MatchRuleRefCount where
  counts : AssocMap (String × String) Nat

namespace MatchRuleRefCount

def new : MatchRuleRefCount := ⟨∅⟩

/-- Add a reference, and say whether it is the first one. -/
def increment (refs : MatchRuleRefCount) (bus rule : String) : Bool × MatchRuleRefCount :=
  let count := (refs.counts.lookup (bus, rule)).getD 0 + 1
  (count == 1, ⟨refs.counts.insert (bus, rule) count⟩)

/-- Take a reference away, and say whether it was the last one. -/
def decrement (refs : MatchRuleRefCount) (bus rule : String) : Bool × MatchRuleRefCount :=
  match refs.counts.lookup (bus, rule) with
  | none => (false, refs)
  | some 0 => (false, refs)
  | some 1 => (true, ⟨refs.counts.erase (bus, rule)⟩)
  | some (count + 2) => (false, ⟨refs.counts.insert (bus, rule) (count + 1)⟩)

def count (refs : MatchRuleRefCount) (bus rule : String) : Nat :=
  (refs.counts.lookup (bus, rule)).getD 0

theorem count_increment (refs : MatchRuleRefCount) (bus rule bus' rule' : String) :
    (refs.increment bus rule).2.count bus' rule' =
      refs.count bus' rule' + if (bus', rule') = (bus, rule) then 1 else 0 := by
  unfold count increment
  dsimp only
  rw [AList.lookup_insert_if]
  by_cases hkey : (bus', rule') = (bus, rule)
  · rw [if_pos hkey, if_pos hkey, Option.getD_some, hkey]
  · rw [if_neg hkey, if_neg hkey, Nat.add_zero]

theorem increment_result (refs : MatchRuleRefCount) (bus rule : String) :
    (refs.increment bus rule).1 = true ↔ refs.count bus rule = 0 := by
  simp [increment, count]

theorem count_decrement (refs : MatchRuleRefCount) (bus rule bus' rule' : String) :
    (refs.decrement bus rule).2.count bus' rule' =
      refs.count bus' rule' - if (bus', rule') = (bus, rule) then 1 else 0 := by
  unfold count decrement
  by_cases hkey : (bus', rule') = (bus, rule)
  · rw [if_pos hkey, hkey]
    split
    · next h => simp [h]
    · next h => simp [h]
    · next h => simp [h]
    · next h => simp [h]
  · rw [if_neg hkey, Nat.sub_zero]
    split
    · rfl
    · rfl
    · rw [AList.lookup_erase_if, if_neg hkey]
    · rw [AList.lookup_insert_if, if_neg hkey]

theorem decrement_result (refs : MatchRuleRefCount) (bus rule : String) :
    (refs.decrement bus rule).1 = true ↔ refs.count bus rule = 1 := by
  unfold count decrement
  split
  · next h => simp [h]
  · next h => simp [h]
  · next h => simp [h]
  · next h => simp [h]

end MatchRuleRefCount

end KapsuleDbusMux
