import Mathlib.Data.List.Nodup
import Mathlib.Data.List.Basic

/-! # Rosters

A roster is a list of members with pairwise distinct keys, in a meaningful order:
the first member holds something and the others wait for it. Members join at
either end and leave from any place.
-/

universe u v

namespace Roster

variable {α : Type u} {κ : Type v} (key : α → κ)

def Distinct (l : List α) : Prop := (l.map key).Nodup

theorem distinct_nil : Distinct key [] := List.nodup_nil

theorem distinct_singleton (a : α) : Distinct key [a] := List.nodup_singleton _

variable {key}

theorem distinct_cons {a : α} {l : List α} :
    Distinct key (a :: l) ↔ key a ∉ l.map key ∧ Distinct key l := by
  unfold Distinct
  rw [List.map_cons, List.nodup_cons]

theorem distinct_concat {a : α} {l : List α} (hl : Distinct key l) (ha : key a ∉ l.map key) :
    Distinct key (l ++ [a]) := by
  unfold Distinct
  rw [List.map_append, List.map_singleton]
  exact List.Nodup.append hl (List.nodup_singleton _) (by simpa using ha)

/-- A part of a list without repetitions has its elements in the order of the whole. -/
theorem pair_sublist_iff {l l' : List κ} (hsub : l.Sublist l') (hnodup : l'.Nodup) {a b : κ}
    (ha : a ∈ l) (hb : b ∈ l) : [a, b].Sublist l ↔ [a, b].Sublist l' := by
  refine ⟨fun h => h.trans hsub, fun hpair => ?_⟩
  induction hsub with
  | slnil => cases ha
  | @cons l l' x hsub ih =>
      rw [List.nodup_cons] at hnodup
      cases hpair with
      | cons _ hpair => exact ih hnodup.2 ha hb hpair
      | cons_cons _ _ => exact absurd (hsub.subset ha) hnodup.1
  | @cons_cons l l' x hsub ih =>
      rw [List.nodup_cons] at hnodup
      -- what stands in the tail of the whole is not its head
      have htail : ∀ c, c ∈ x :: l → c ∈ l' → c ∈ l := by
        intro c hc hc'
        rcases List.mem_cons.mp hc with rfl | hc
        · exact absurd hc' hnodup.1
        · exact hc
      cases hpair with
      | cons _ hpair =>
          have ha' := htail a ha (hpair.subset List.mem_cons_self)
          have hb' := htail b hb (hpair.subset (List.mem_cons_of_mem _ List.mem_cons_self))
          exact (ih hnodup.2 ha' hb' hpair).cons x
      | cons_cons _ hrest =>
          have hb' := htail b hb (List.singleton_sublist.mp hrest)
          exact (List.singleton_sublist.mpr hb').cons_cons _

variable [DecidableEq κ] (key)

def leave (k : κ) (l : List α) : List α := l.filter (fun a => key a != k)

def has (k : κ) (l : List α) : Bool := l.any (fun a => key a == k)

variable {key}

theorem has_iff {k : κ} {l : List α} : has key k l = true ↔ k ∈ l.map key := by
  simp [has]

theorem mem_leave {k : κ} {l : List α} {a : α} : a ∈ leave key k l ↔ a ∈ l ∧ key a ≠ k := by
  simp [leave]

theorem not_mem_leave (k : κ) (l : List α) : k ∉ (leave key k l).map key := by
  intro h
  rcases List.mem_map.mp h with ⟨a, ha, hk⟩
  exact (mem_leave.mp ha).2 hk

theorem leave_sublist (k : κ) (l : List α) : (leave key k l).Sublist l := List.filter_sublist

theorem Distinct.leave {l : List α} (h : Distinct key l) (k : κ) :
    Distinct key (leave key k l) :=
  h.sublist ((leave_sublist k l).map key)

theorem leave_of_not_has {k : κ} {l : List α} (h : has key k l = false) : leave key k l = l := by
  unfold Roster.leave
  rw [List.filter_eq_self]
  intro a ha
  have hne : key a ≠ k := by
    intro he
    have hhas : has key k l = true := has_iff.mpr (he ▸ List.mem_map_of_mem ha)
    rw [h] at hhas
    cases hhas
  simpa using hne

theorem leave_cons_ne {k : κ} {a : α} (l : List α) (h : key a ≠ k) :
    leave key k (a :: l) = a :: leave key k l := by
  simp [leave, h]

theorem leave_cons_self {a : α} {l : List α} (h : key a ∉ l.map key) :
    leave key (key a) (a :: l) = l := by
  have hnot : has key (key a) l = false := by
    cases hh : has key (key a) l with
    | false => rfl
    | true => exact absurd (has_iff.mp hh) h
  have hskip : leave key (key a) (a :: l) = leave key (key a) l := by
    simp [leave]
  rw [hskip, leave_of_not_has hnot]

theorem leave_head {a : α} {l : List α} (h : Distinct key (a :: l)) :
    leave key (key a) (a :: l) = l :=
  leave_cons_self (distinct_cons.mp h).1

theorem leave_leave_self (k : κ) (l : List α) : leave key k (leave key k l) = leave key k l :=
  leave_of_not_has (by rw [← Bool.not_eq_true, has_iff]; exact not_mem_leave k l)

theorem leave_comm (j k : κ) (l : List α) :
    leave key j (leave key k l) = leave key k (leave key j l) :=
  List.filter_comm _ _ l

variable (key) in
def leaveAll (ks : List κ) (l : List α) : List α := ks.foldl (fun l k => leave key k l) l

theorem leave_leaveAll (k : κ) (ks : List κ) (l : List α) :
    leave key k (leaveAll key ks l) = leaveAll key ks (leave key k l) := by
  induction ks generalizing l with
  | nil => rfl
  | cons j ks ih =>
      have hfirst : leave key k (leaveAll key ks (leave key j l)) =
          leaveAll key ks (leave key k (leave key j l)) := ih (leave key j l)
      rw [leave_comm] at hfirst
      exact hfirst

theorem length_leave_lt {k : κ} {l : List α} :
    (leave key k l).length < l.length ↔ has key k l = true := by
  constructor
  · intro h
    cases hh : has key k l with
    | true => rfl
    | false =>
        rw [leave_of_not_has hh] at h
        omega
  · intro h
    rcases List.mem_map.mp (has_iff.mp h) with ⟨a, ha, hk⟩
    apply List.length_filter_lt_length_iff_exists.mpr
    exact ⟨a, ha, by simp [hk]⟩

end Roster
