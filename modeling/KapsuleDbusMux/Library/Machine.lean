import Mathlib.Data.UInt
import Mathlib.Logic.Basic

/-! # Machine arithmetic that may go wrong

Unsigned 32-bit operations panic on overflow when overflow checks are on and wrap
when they are off, and slices out of bounds panic always. A computation of type
`Exec α` panics or gives a result and says whether some operation has wrapped.
`Quiet x a` says that `x` gives `a` and nothing went wrong on the way, and `Ends x P`
that this is so for some result with the property; both are taken apart with the rules
below, one for each operation.
-/

universe u v

namespace Machine

inductive Panic where
  | overflow
  | outOfBounds
  deriving DecidableEq, Repr

/-- A panic, or a result and whether an operation has wrapped. -/
inductive Exec (α : Type u) where
  | panic (p : Panic)
  | done (a : α) (wrapped : Bool)
  deriving DecidableEq, Repr

namespace Exec

def bind {α : Type u} {β : Type v} (x : Exec α) (f : α → Exec β) : Exec β :=
  match x with
  | panic p => panic p
  | done a wrapped =>
      match f a with
      | panic p => panic p
      | done b wrapped' => done b (wrapped || wrapped')

instance : Monad Exec where
  pure a := done a false
  bind := bind

end Exec

def Quiet {α : Type u} (x : Exec α) (a : α) : Prop := x = .done a false

theorem quiet_done {α : Type u} {a b : α} : Quiet (.done a false) b ↔ b = a := by
  rw [Quiet, Exec.done.injEq, and_iff_left rfl, eq_comm]

theorem quiet_pure {α : Type u} {a b : α} : Quiet (pure a) b ↔ b = a := quiet_done

theorem quiet_bind {α β : Type u} {x : Exec α} {f : α → Exec β} {b : β} :
    Quiet (x >>= f) b ↔ ∃ a, Quiet x a ∧ Quiet (f a) b := by
  have hbind : x >>= f = x.bind f := rfl
  rw [hbind]
  unfold Quiet Exec.bind
  cases x with
  | panic p => exact iff_of_false nofun (fun ⟨_, h, _⟩ => nomatch h)
  | done a wrapped =>
      dsimp only
      constructor
      · intro h
        cases hf : f a with
        | panic p => simp [hf] at h
        | done b' wrapped' =>
            simp only [hf, Exec.done.injEq, Bool.or_eq_false_iff] at h
            obtain ⟨rfl, rfl, rfl⟩ := h
            exact ⟨a, rfl, hf⟩
      · rintro ⟨a', ha, hf⟩
        cases ha
        simp [hf]

/-! ## Operations -/

def addU32 (checks : Bool) (a b : UInt32) : Exec UInt32 :=
  if a.toNat + b.toNat < 2 ^ 32 then .done (a + b) false
  else if checks then .panic .overflow else .done (a + b) true

def subU32 (checks : Bool) (a b : UInt32) : Exec UInt32 :=
  if b.toNat ≤ a.toNat then .done (a - b) false
  else if checks then .panic .overflow else .done (a - b) true

/-- A difference of lengths, on a machine with words of 64 bits. -/
def subUsize (checks : Bool) (a b : Nat) : Exec Nat :=
  if b ≤ a then .done (a - b) false
  else if checks then .panic .overflow else .done (a + 2 ^ 64 - b) true

def slice {α : Type u} (buf : List α) (lo hi : Nat) : Exec (List α) :=
  if lo ≤ hi ∧ hi ≤ buf.length then .done ((buf.take hi).drop lo) false else .panic .outOfBounds

/-- `buf[lo..hi].copy_from_slice(bytes)`, which also panics when the lengths differ. -/
def copyFromSlice {α : Type u} (buf : List α) (lo hi : Nat) (bytes : List α) : Exec (List α) :=
  if lo ≤ hi ∧ hi ≤ buf.length ∧ bytes.length = hi - lo then
    .done (buf.take lo ++ bytes ++ buf.drop hi) false
  else .panic .outOfBounds

theorem quiet_ite {α : Type u} {p : Prop} [Decidable p] {a b : α} {x : Exec α}
    (hx : ∀ c, ¬ Quiet x c) : Quiet (if p then .done a false else x) b ↔ p ∧ b = a := by
  by_cases hp : p
  · rw [if_pos hp, quiet_done, and_iff_right hp]
  · rw [if_neg hp]
    exact iff_of_false (hx b) (fun h => hp h.1)

theorem not_quiet_overflow {α : Type u} (checks : Bool) (a b : α) :
    ¬ Quiet (if checks then .panic .overflow else .done a true) b := by
  unfold Quiet
  cases checks <;> simp

theorem quiet_addU32 {checks : Bool} {a b c : UInt32} :
    Quiet (addU32 checks a b) c ↔ a.toNat + b.toNat < 2 ^ 32 ∧ c = a + b :=
  quiet_ite (not_quiet_overflow checks (a + b))

theorem quiet_subU32 {checks : Bool} {a b c : UInt32} :
    Quiet (subU32 checks a b) c ↔ b.toNat ≤ a.toNat ∧ c = a - b :=
  quiet_ite (not_quiet_overflow checks (a - b))

theorem quiet_subUsize {checks : Bool} {a b c : Nat} :
    Quiet (subUsize checks a b) c ↔ b ≤ a ∧ c = a - b :=
  quiet_ite (not_quiet_overflow checks (a + 2 ^ 64 - b))

theorem quiet_slice {α : Type u} {buf part : List α} {lo hi : Nat} :
    Quiet (slice buf lo hi) part ↔
      (lo ≤ hi ∧ hi ≤ buf.length) ∧ part = (buf.take hi).drop lo :=
  quiet_ite (fun _ => nofun)

theorem quiet_copyFromSlice {α : Type u} {buf bytes buf' : List α} {lo hi : Nat} :
    Quiet (copyFromSlice buf lo hi bytes) buf' ↔
      (lo ≤ hi ∧ hi ≤ buf.length ∧ bytes.length = hi - lo) ∧
        buf' = buf.take lo ++ bytes ++ buf.drop hi :=
  quiet_ite (fun _ => nofun)

/-! ## Postconditions -/

def Ends {α : Type u} (x : Exec α) (P : α → Prop) : Prop := ∃ a, Quiet x a ∧ P a

theorem ends_pure {α : Type u} {a : α} {P : α → Prop} (h : P a) : Ends (pure a) P :=
  ⟨a, quiet_pure.mpr rfl, h⟩

theorem Ends.bind {α β : Type u} {x : Exec α} {f : α → Exec β} {P : α → Prop} {Q : β → Prop}
    (hx : Ends x P) (hf : ∀ a, P a → Ends (f a) Q) : Ends (x >>= f) Q := by
  obtain ⟨a, hquiet, hP⟩ := hx
  obtain ⟨b, hquiet', hQ⟩ := hf a hP
  exact ⟨b, quiet_bind.mpr ⟨a, hquiet, hquiet'⟩, hQ⟩

theorem ends_subU32 {checks : Bool} {a b : UInt32} (h : b.toNat ≤ a.toNat) :
    Ends (subU32 checks a b) (· = a - b) :=
  ⟨_, quiet_subU32.mpr ⟨h, rfl⟩, rfl⟩

theorem ends_slice {α : Type u} {buf : List α} {lo hi : Nat} (hlo : lo ≤ hi)
    (hhi : hi ≤ buf.length) : Ends (slice buf lo hi) (· = (buf.take hi).drop lo) :=
  ⟨_, quiet_slice.mpr ⟨⟨hlo, hhi⟩, rfl⟩, rfl⟩

theorem ends_copyFromSlice {α : Type u} {buf bytes : List α} {lo hi : Nat} (hlo : lo ≤ hi)
    (hhi : hi ≤ buf.length) (hbytes : bytes.length = hi - lo) :
    Ends (copyFromSlice buf lo hi bytes) (fun buf' => buf'.length = buf.length) := by
  refine ⟨_, quiet_copyFromSlice.mpr ⟨⟨hlo, hhi, hbytes⟩, rfl⟩, ?_⟩
  simp only [List.length_append, List.length_take, List.length_drop]
  omega

end Machine
