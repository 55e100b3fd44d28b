import KapsuleDbusMux.Library.AssocMap
import KapsuleDbusMux.Library.Trace

/-! # Tables whose entries expire

A system keeps a table of entries with time stamps. A step drops entries, or puts one in
with the time of the step, and now and then a sweep drops the entries that are too old.
The table then never has more entries than were put in since some time before the last
sweep, however the other entries came to be dropped.
-/

universe u v w x

namespace Expiring

variable {κ : Type u} {ν : Type v} [DecidableEq κ]

/-- All a step can do to the table, when it puts entries in at the time `now`. -/
inductive Change (stamp : ν → Nat) (now : Option Nat) (m m' : AssocMap κ ν) : Prop
  | dropped (h : ∀ k v, m'.lookup k = some v → m.lookup k = some v)
  | put (k : κ) (v : ν) (hnow : now = some (stamp v)) (h : m' = m.insert k v)

theorem Change.refl {stamp : ν → Nat} {now : Option Nat} (m : AssocMap κ ν) :
    Change stamp now m m :=
  .dropped (fun _ _ h => h)

theorem Change.of_eq {stamp : ν → Nat} {now : Option Nat} {m m' : AssocMap κ ν} (h : m' = m) :
    Change stamp now m m' := by
  rw [h]
  exact .refl m

theorem Change.of_retain {stamp : ν → Nat} {now : Option Nat} (p : κ → ν → Bool)
    (m : AssocMap κ ν) : Change stamp now m (m.retain p) := by
  refine .dropped (fun k v hl => ?_)
  rw [AList.lookup_retain] at hl
  exact (Option.filter_eq_some_iff.mp hl).1

def recent (stamp : ν → Nat) (sweep limit : Nat) (_ : κ) (v : ν) : Bool :=
  decide (sweep - stamp v < limit)

variable {stamp : ν → Nat} {sweep limit : Nat} {now : Option Nat} {m m' : AssocMap κ ν}

theorem Change.count_le (h : Change stamp now m m') :
    m'.count (recent stamp sweep limit) ≤
      m.count (recent stamp sweep limit) +
        if now.any (fun i => decide (sweep - i < limit)) then 1 else 0 := by
  cases h with
  | dropped hdropped =>
      exact Nat.le_trans (AList.count_le_of_lookup _ hdropped) (Nat.le_add_right _ _)
  | put k v hnow hput =>
      have herase := AList.count_erase_add (recent stamp sweep limit) m k
      rw [hput, AList.count_insert, hnow, Option.any_some]
      unfold recent at herase ⊢
      omega

theorem Change.forall_recent (h : Change stamp now m m')
    (hm : ∀ k v, m.lookup k = some v → sweep - stamp v < limit) (hlimit : 0 < limit)
    (hlater : ∀ i, now = some i → sweep ≤ i) :
    ∀ k v, m'.lookup k = some v → sweep - stamp v < limit := by
  intro k v hl
  cases h with
  | dropped hdropped => exact hm k v (hdropped k v hl)
  | put k' v' hnow hput =>
      rw [hput, AList.lookup_insert_if] at hl
      split at hl
      · cases hl
        have hle := hlater _ hnow
        omega
      · exact hm k v hl

/-! ## Runs -/

section Runs

variable {σ : Type w} {ε : Type x} {step : σ → ε → Option σ} (table : σ → AssocMap κ ν)
  (puts : ε → Option Nat)

/-- The entries that are recent at a certain time were put in by as many events. -/
theorem count_recent_le
    (hstep : ∀ s e t, step s e = some t → Change stamp (puts e) (table s) (table t))
    (sweep limit : Nat) {s t : σ} {es : List ε} (h : Trace.run step s es = some t) :
    (table t).count (recent stamp sweep limit) ≤
      (table s).count (recent stamp sweep limit) +
        es.countP (fun e => (puts e).any (fun i => decide (sweep - i < limit))) :=
  Trace.count_le_of_run (I := fun _ => True) (P := fun _ _ => True) _
    (fun s => (table s).count (recent stamp sweep limit)) (fun _ _ _ _ _ _ => trivial)
    (fun s e t _ _ ht => (hstep s e t ht).count_le) trivial
    (Trace.along_of_forall (fun _ _ => trivial)) h

theorem forall_recent_of_run
    (hstep : ∀ s e t, step s e = some t → Change stamp (puts e) (table s) (table t))
    {s t : σ} {es : List ε} (hs : ∀ k v, (table s).lookup k = some v → sweep - stamp v < limit)
    (hlimit : 0 < limit) (hlater : ∀ e ∈ es, ∀ i, puts e = some i → sweep ≤ i)
    (h : Trace.run step s es = some t) :
    ∀ k v, (table t).lookup k = some v → sweep - stamp v < limit :=
  Trace.invariant_of_along
    (I := fun s => ∀ k v, (table s).lookup k = some v → sweep - stamp v < limit)
    (P := fun _ e => ∀ i, puts e = some i → sweep ≤ i)
    (fun s e t hI he ht => (hstep s e t ht).forall_recent hI hlimit he) hs
    (Trace.along_of_forall hlater) h

/-- The table has at most as many entries as events put some in, not too long before the
last sweep and after it. -/
theorem length_le_recent
    (hstep : ∀ s e t, step s e = some t → Change stamp (puts e) (table s) (table t))
    {s t : σ} {sweeps : ε} {before after : List ε}
    (hempty : table s = ∅) (hquiet : puts sweeps = none)
    (hsweep : ∀ m n, Trace.run step s before = some m → step m sweeps = some n →
      ∀ k v, (table n).lookup k = some v → sweep - stamp v < limit)
    (hlimit : 0 < limit) (hlater : ∀ e ∈ after, ∀ i, puts e = some i → sweep ≤ i)
    (h : Trace.run step s (before ++ sweeps :: after) = some t) :
    (table t).entries.length ≤
      (before ++ after).countP (fun e => (puts e).any (fun i => decide (sweep - i < limit))) := by
  have hcount := count_recent_le table puts hstep sweep limit h
  obtain ⟨m, hm, hrest⟩ := Trace.run_append_eq_some.mp h
  obtain ⟨n, hn, hafter⟩ := Trace.run_cons_eq_some.mp hrest
  have hall := forall_recent_of_run table puts hstep (hsweep m n hm hn) hlimit hlater hafter
  have hlength : (table t).count (recent stamp sweep limit) = (table t).entries.length :=
    AList.count_eq_length (fun k v hl => decide_eq_true (hall k v hl))
  rw [hlength, hempty] at hcount
  simp only [List.countP_append, List.countP_cons, hquiet, Option.any_none, Bool.false_eq_true,
    if_false, Nat.add_zero] at hcount ⊢
  exact Nat.le_trans hcount (Nat.le_of_eq (Nat.zero_add _))

end Runs

end Expiring
