import Mathlib.Data.List.AList
import Mathlib.Data.Finset.Basic

/-! # Finite maps with an unspecified iteration order

A hash map is a list of entries with pairwise distinct keys. Lookup, insertion
and erasure are those of `AList`; this file adds the bulk operations a program
performs while it walks over the entries: keeping some of them, rewriting every
value, counting and summing. Every fact is stated through `lookup` or through counts
and sums, so nothing depends on the order of the entries.
-/

universe u v w

/-- A finite map from `κ` to `ν`; distinctness of the keys is a field. -/
abbrev AssocMap (κ : Type u) (ν : Type v) := AList (fun _ : κ => ν)

namespace AList

variable {κ : Type u} {ν : Type v} {μ : Type w}

/-! ## Keeping entries -/

def retain (p : κ → ν → Bool) (m : AssocMap κ ν) : AssocMap κ ν where
  entries := m.entries.filter (fun e => p e.1 e.2)
  nodupKeys := m.nodupKeys.sublist List.filter_sublist

theorem notMem_of_entries_nil {m : AssocMap κ ν} (h : m.entries = []) (k : κ) : k ∉ m := by
  rw [AList.mem_keys]
  unfold AList.keys
  rw [h]
  exact List.not_mem_nil

section Lookup

variable [DecidableEq κ]

theorem lookup_eq_some_iff {m : AssocMap κ ν} {k : κ} {v : ν} :
    m.lookup k = some v ↔ (⟨k, v⟩ : Sigma fun _ : κ => ν) ∈ m.entries :=
  mem_lookup_iff

theorem lookup_of_entries_nil {m : AssocMap κ ν} (h : m.entries = []) (k : κ) :
    m.lookup k = none :=
  AList.lookup_eq_none.mpr (notMem_of_entries_nil h k)

theorem lookup_insert_if (m : AssocMap κ ν) (k k' : κ) (v : ν) :
    (m.insert k v).lookup k' = if k' = k then some v else m.lookup k' := by
  by_cases h : k' = k
  · subst h
    rw [if_pos rfl]
    exact AList.lookup_insert m
  · rw [if_neg h]
    exact AList.lookup_insert_ne h

theorem lookup_erase_if (m : AssocMap κ ν) (k k' : κ) :
    (m.erase k).lookup k' = if k' = k then none else m.lookup k' := by
  by_cases h : k' = k
  · subst h
    rw [if_pos rfl]
    exact AList.lookup_erase k' m
  · rw [if_neg h]
    exact AList.lookup_erase_ne h

theorem lookup_retain (p : κ → ν → Bool) (m : AssocMap κ ν) (k : κ) :
    (m.retain p).lookup k = (m.lookup k).filter (p k) := by
  ext v
  rw [lookup_eq_some_iff, Option.filter_eq_some_iff, lookup_eq_some_iff]
  simp [retain]

theorem entries_perm_of_lookup {m m' : AssocMap κ ν} (h : ∀ k, m.lookup k = m'.lookup k) :
    m.entries.Perm m'.entries :=
  List.lookup_ext m.nodupKeys m'.nodupKeys (fun k v => by
    have hk : List.dlookup k m.entries = List.dlookup k m'.entries := h k
    rw [hk])

end Lookup

/-! ## Rewriting values -/

def mapValues (f : κ → ν → μ) (m : AssocMap κ ν) : AssocMap κ μ where
  entries := m.entries.map (fun e => ⟨e.1, f e.1 e.2⟩)
  nodupKeys := m.nodupKeys.map₂ f m.entries

theorem lookup_mapValues [DecidableEq κ] (f : κ → ν → μ) (m : AssocMap κ ν) (k : κ) :
    (m.mapValues f).lookup k = (m.lookup k).map (f k) := by
  exact List.dlookup_map₂ k

def modify [DecidableEq κ] (k : κ) (f : ν → ν) (m : AssocMap κ ν) : AssocMap κ ν :=
  m.mapValues (fun k' v => if k' = k then f v else v)

theorem lookup_modify [DecidableEq κ] (k k' : κ) (f : ν → ν) (m : AssocMap κ ν) :
    (m.modify k f).lookup k' = if k' = k then (m.lookup k').map f else m.lookup k' := by
  rw [modify, lookup_mapValues]
  by_cases h : k' = k
  · simp [h]
  · simp [h]

@[simp] theorem mem_modify [DecidableEq κ] (k k' : κ) (f : ν → ν) (m : AssocMap κ ν) :
    k' ∈ m.modify k f ↔ k' ∈ m := by
  rw [← AList.lookup_isSome, ← AList.lookup_isSome, lookup_modify]
  split <;> simp

theorem mapValues_mapValues {ξ : Type*} (g : κ → μ → ξ) (f : κ → ν → μ) (m : AssocMap κ ν) :
    (m.mapValues f).mapValues g = m.mapValues (fun k v => g k (f k v)) := by
  refine AList.ext ?_
  show (m.entries.map _).map _ = m.entries.map _
  rw [List.map_map]
  rfl

theorem mapValues_congr {f g : κ → ν → μ} (h : ∀ k v, f k v = g k v) (m : AssocMap κ ν) :
    m.mapValues f = m.mapValues g := by
  have hsame : f = g := funext (fun k => funext (h k))
  rw [hsame]

theorem entries_mapValues (f : κ → ν → μ) (m : AssocMap κ ν) :
    (m.mapValues f).entries = m.entries.map (fun e => ⟨e.1, f e.1 e.2⟩) := rfl

theorem mapValues_erase [DecidableEq κ] (f : κ → ν → μ) (k : κ) (m : AssocMap κ ν) :
    (m.erase k).mapValues f = (m.mapValues f).erase k := by
  refine AList.ext ?_
  rw [entries_mapValues]
  show (List.kerase k m.entries).map _ = List.kerase k (m.mapValues f).entries
  rw [entries_mapValues]
  unfold List.kerase
  rw [List.eraseP_map]
  rfl

theorem mapValues_insert [DecidableEq κ] (f : κ → ν → μ) (k : κ) (v : ν) (m : AssocMap κ ν) :
    (m.insert k v).mapValues f = (m.mapValues f).insert k (f k v) := by
  refine AList.ext ?_
  rw [AList.entries_insert, entries_mapValues, entries_mapValues, AList.entries_insert,
    List.map_cons]
  unfold List.kerase
  rw [List.eraseP_map]
  rfl

/-- A view of the values under which an update is an update. -/
theorem mapValues_modify [DecidableEq κ] {f : κ → ν → μ} {g : ν → ν} {g' : μ → μ} {k : κ}
    (h : ∀ v, f k (g v) = g' (f k v)) (m : AssocMap κ ν) :
    (m.modify k g).mapValues f = (m.mapValues f).modify k g' := by
  unfold modify
  rw [mapValues_mapValues, mapValues_mapValues]
  refine mapValues_congr (fun k' v => ?_) m
  by_cases hk : k' = k
  · rw [if_pos hk, if_pos hk, hk, h]
  · rw [if_neg hk, if_neg hk]

/-- A view of the values that does not show an update. -/
theorem mapValues_modify_of_hidden [DecidableEq κ] {f : κ → ν → μ} {g : ν → ν} {k : κ}
    (h : ∀ v, f k (g v) = f k v) (m : AssocMap κ ν) :
    (m.modify k g).mapValues f = m.mapValues f := by
  unfold modify
  rw [mapValues_mapValues]
  refine mapValues_congr (fun k' v => ?_) m
  by_cases hk : k' = k
  · rw [if_pos hk, hk, h]
  · rw [if_neg hk]

/-! ## Reporting entries -/

/-- A report on some of the entries, each under its key. -/
def report (f : ν → Option μ) (m : AssocMap κ ν) : List (κ × μ) :=
  m.entries.filterMap (fun e => (f e.2).map (fun r => (e.1, r)))

theorem mem_report [DecidableEq κ] {f : ν → Option μ} {m : AssocMap κ ν} {k : κ} {r : μ} :
    (k, r) ∈ m.report f ↔ ∃ v, m.lookup k = some v ∧ f v = some r := by
  simp only [report, List.mem_filterMap, Option.map_eq_some_iff, Prod.mk.injEq]
  constructor
  · rintro ⟨⟨k', v⟩, hmem, r', hr, rfl, rfl⟩
    exact ⟨v, lookup_eq_some_iff.mpr hmem, hr⟩
  · rintro ⟨v, hl, hr⟩
    exact ⟨⟨k, v⟩, lookup_eq_some_iff.mp hl, r, hr, rfl, rfl⟩

theorem report_perm [DecidableEq κ] (f : ν → Option μ) {m m' : AssocMap κ ν}
    (h : ∀ k, m.lookup k = m'.lookup k) : (m.report f).Perm (m'.report f) :=
  (entries_perm_of_lookup h).filterMap _

theorem nodup_report (f : ν → Option μ) (m : AssocMap κ ν) :
    ((m.report f).map Prod.fst).Nodup := by
  have hsub : ∀ l : List (Sigma fun _ : κ => ν),
      ((l.filterMap (fun e => (f e.2).map (fun r => (e.1, r)))).map Prod.fst).Sublist
        (l.map Sigma.fst) := by
    intro l
    induction l with
    | nil => exact List.Sublist.refl _
    | cons e l ih =>
        cases hr : f e.2 with
        | none =>
            rw [List.filterMap_cons_none (by rw [hr]; rfl)]
            exact ih.cons e.1
        | some r =>
            rw [List.filterMap_cons_some (by rw [hr]; rfl)]
            exact ih.cons_cons e.1
  exact (hsub m.entries).nodup m.keys_nodup

/-! ## Counting -/

def count (p : κ → ν → Bool) (m : AssocMap κ ν) : Nat :=
  m.entries.countP (fun e => p e.1 e.2)

theorem count_pos_iff [DecidableEq κ] (p : κ → ν → Bool) (m : AssocMap κ ν) :
    0 < m.count p ↔ ∃ k v, m.lookup k = some v ∧ p k v = true := by
  unfold count
  rw [List.countP_pos_iff]
  constructor
  · rintro ⟨⟨k, v⟩, hmem, hp⟩
    exact ⟨k, v, lookup_eq_some_iff.mpr hmem, hp⟩
  · rintro ⟨k, v, hlook, hp⟩
    exact ⟨⟨k, v⟩, lookup_eq_some_iff.mp hlook, hp⟩

theorem count_retain_le (p q : κ → ν → Bool) (m : AssocMap κ ν) :
    (m.retain q).count p ≤ m.count p :=
  List.filter_sublist.countP_le

theorem count_le_of_lookup [DecidableEq κ] (p : κ → ν → Bool) {m m' : AssocMap κ ν}
    (h : ∀ k v, m'.lookup k = some v → m.lookup k = some v) : m'.count p ≤ m.count p := by
  have hsubset : m'.entries ⊆ m.entries := by
    rintro ⟨k, v⟩ hmem
    exact lookup_eq_some_iff.mp (h k v (lookup_eq_some_iff.mpr hmem))
  exact (List.subperm_of_subset m'.nodupKeys.nodup hsubset).countP_le _

theorem count_eq_length [DecidableEq κ] {p : κ → ν → Bool} {m : AssocMap κ ν}
    (h : ∀ k v, m.lookup k = some v → p k v = true) : m.count p = m.entries.length :=
  List.countP_eq_length.mpr (fun e he => h e.1 e.2 (lookup_eq_some_iff.mpr he))

section Count

variable [DecidableEq κ] (p : κ → ν → Bool) (m : AssocMap κ ν)

theorem count_erase (k : κ) :
    (m.erase k).count p = (List.kerase k m.entries).countP (fun e => p e.1 e.2) :=
  rfl

theorem count_erase_add (k : κ) :
    (m.erase k).count p + (if ((m.lookup k).any (p k)) then 1 else 0) = m.count p := by
  cases hl : m.lookup k with
  | none =>
      have hk : k ∉ m.entries.keys := AList.lookup_eq_none.mp hl
      rw [count_erase, List.kerase_of_notMem_keys hk]
      simp [count]
  | some v =>
      have hmem := lookup_eq_some_iff.mp hl
      have hperm : m.entries.Perm (⟨k, v⟩ :: List.kerase k m.entries) := by
        have hins : (m.erase k |>.insert k v).entries.Perm m.entries := by
          apply entries_perm_of_lookup
          intro k'
          rw [lookup_insert_if, lookup_erase_if]
          split
          · next h => rw [h, hl]
          · rfl
        have hnot : k ∉ m.erase k := by simp
        rw [AList.entries_insert_of_notMem hnot] at hins
        exact hins.symm
      have hc := hperm.countP_eq (fun e => p e.1 e.2)
      rw [count_erase, count, hc, List.countP_cons, Option.any_some]

theorem count_erase_of_notMem {k : κ} (hk : k ∉ m) : (m.erase k).count p = m.count p := by
  have hcount := count_erase_add p m k
  rw [AList.lookup_eq_none.mpr hk] at hcount
  exact hcount

theorem count_insert (k : κ) (v : ν) :
    (m.insert k v).count p = (m.erase k).count p + (if p k v then 1 else 0) := by
  rw [count_erase, count, AList.entries_insert, List.countP_cons]

theorem count_modify (k : κ) (f : ν → ν) :
    (m.modify k f).count p =
      (m.erase k).count p + (if ((m.lookup k).any (fun v => p k (f v))) then 1 else 0) := by
  have herase : ((m.modify k f).erase k).count p = (m.erase k).count p := by
    apply List.Perm.countP_eq
    apply entries_perm_of_lookup
    intro k'
    rw [lookup_erase_if, lookup_erase_if, lookup_modify]
    split <;> rfl
  rw [← count_erase_add p (m.modify k f) k, herase, lookup_modify, if_pos rfl, Option.any_map]

end Count

/-! ## Summing -/

def total (f : κ → ν → Nat) (m : AssocMap κ ν) : Nat :=
  m.entries.foldr (fun e n => f e.1 e.2 + n) 0

end AList
