import KapsuleDbusMux.Serial.SerialMap
import Mathlib.Logic.Function.Basic

/-! # Serials drawn at the same time

`SerialGenerator::next` of `serial_map.rs` takes one atomic step on the counter, and a
second one when the first has brought a zero. Any number of callers may do so at the
same time, and the steps of one may come between the two of another. All that matters
is that no two steps of a window shorter than the cycle of the counter bring the same
value, and that each call returns the value of one of its own steps.
-/

namespace KapsuleDbusMux

/-- A call of `next` that has returned, with the first and the last of its steps, which
are counted over all callers. -/
structure DrawnSerial where
  firstStep : Nat
  lastStep : Nat
  serial : UInt32
  deriving DecidableEq, Repr

/-- A generator and its callers. The ones that have drawn a zero have a second step to
take; `retrying` says at which step that happened. -/
structure SharedGenerator (τ : Type) where
  gen : SerialGenerator
  retrying : τ → Option Nat := fun _ => none
  steps : Nat := 0
  returned : List DrawnSerial := []

namespace SharedGenerator

variable {τ : Type}

section Steps

variable [DecidableEq τ]

/-- The next atomic step of a caller, which is the first of a new call unless it is in
the middle of one. -/
def step (s : SharedGenerator τ) (caller : τ) : SharedGenerator τ :=
  let (serial, gen) := s.gen.fetchAdd
  match s.retrying caller with
  | some first =>
      { gen := gen
        retrying := Function.update s.retrying caller none
        steps := s.steps + 1
        returned := s.returned ++ [⟨first, s.steps, serial⟩] }
  | none =>
      if serial = 0 then
        { s with
          gen := gen
          retrying := Function.update s.retrying caller (some s.steps)
          steps := s.steps + 1 }
      else
        { s with
          gen := gen
          steps := s.steps + 1
          returned := s.returned ++ [⟨s.steps, s.steps, serial⟩] }

def run (gen : SerialGenerator) (schedule : List τ) : SharedGenerator τ :=
  schedule.foldl step { gen := gen }

/-- A caller that nobody interrupts does what `next` does. -/
theorem uninterrupted_eq_next {s : SharedGenerator τ} {caller : τ}
    (hidle : s.retrying caller = none) :
    ∃ t call, (t = s.step caller ∨ t = (s.step caller).step caller) ∧
      t.returned = s.returned ++ [call] ∧ t.retrying = s.retrying ∧
      (call.serial, t.gen) = s.gen.next := by
  by_cases hzero : s.gen.counter = 0
  · refine ⟨(s.step caller).step caller, ⟨s.steps, s.steps + 1, 1⟩, Or.inr rfl, ?_⟩
    simp [step, SerialGenerator.fetchAdd, hidle, hzero, SerialGenerator.next_of_zero hzero]
  · refine ⟨s.step caller, ⟨s.steps, s.steps, s.gen.counter⟩, Or.inl rfl, ?_⟩
    simp [step, SerialGenerator.fetchAdd, hidle, hzero, SerialGenerator.next_of_ne_zero hzero]

end Steps

/-! ## What the steps bring -/

def stepValue (start : SerialGenerator) (i : Nat) : Nat := (start.counter.toNat + i) % 2 ^ 32

/-- Steps less than a cycle apart bring different values. -/
theorem stepValue_ne (start : SerialGenerator) {i j : Nat} (hlt : i < j)
    (hgap : j - i < 2 ^ 32) :
    stepValue start i ≠ stepValue start j := by
  unfold stepValue
  omega

/-- A call returns the value of its last step. It has taken only one when that is not
zero, and otherwise the first one has brought a zero. -/
structure Drew (start : SerialGenerator) (call : DrawnSerial) : Prop where
  serial : call.serial.toNat = stepValue start call.lastStep
  steps : call.firstStep = call.lastStep ∧ call.serial ≠ 0 ∨
    call.firstStep < call.lastStep ∧ stepValue start call.firstStep = 0

structure Counted (start : SerialGenerator) (s : SharedGenerator τ) : Prop where
  counter : s.gen.counter.toNat = stepValue start s.steps
  retrying : ∀ caller first, s.retrying caller = some first →
    first < s.steps ∧ stepValue start first = 0
  drew : ∀ call ∈ s.returned, Drew start call ∧ call.lastStep < s.steps
  inOrder : s.returned.Pairwise (fun call later => call.lastStep < later.lastStep)

theorem toNat_fetchAdd {start gen : SerialGenerator} {i : Nat}
    (h : gen.counter.toNat = stepValue start i) :
    gen.fetchAdd.2.counter.toNat = stepValue start (i + 1) := by
  unfold stepValue at h ⊢
  unfold SerialGenerator.fetchAdd
  have hadd : (gen.counter + 1).toNat = (gen.counter.toNat + 1) % 2 ^ 32 := UInt32.toNat_add _ _
  rw [hadd, h]
  omega

/-- A call that returns at this step comes last. -/
theorem Counted.returned_concat {start : SerialGenerator} {s : SharedGenerator τ}
    (h : Counted start s) (call : DrawnSerial) (hcall : Drew start call)
    (hlast : call.lastStep = s.steps) :
    (∀ c ∈ s.returned ++ [call], Drew start c ∧ c.lastStep < s.steps + 1) ∧
      (s.returned ++ [call]).Pairwise (fun call later => call.lastStep < later.lastStep) := by
  constructor
  · intro c hc
    rcases List.mem_append.mp hc with hold | hnew
    · exact ⟨(h.drew c hold).1, Nat.lt_succ_of_lt (h.drew c hold).2⟩
    · rw [List.mem_singleton.mp hnew, hlast]
      exact ⟨hcall, Nat.lt_succ_self _⟩
  · rw [List.pairwise_append]
    refine ⟨h.inOrder, List.pairwise_singleton _ _, fun c hc later hlater => ?_⟩
    rw [List.mem_singleton.mp hlater, hlast]
    exact (h.drew c hc).2

theorem Counted.retrying_update [DecidableEq τ] {start : SerialGenerator} {s : SharedGenerator τ}
    (h : Counted start s) (caller : τ) (now : Option Nat)
    (hnow : ∀ first, now = some first → first < s.steps + 1 ∧ stepValue start first = 0) (c : τ)
    (first : Nat) (hc : Function.update s.retrying caller now c = some first) :
    first < s.steps + 1 ∧ stepValue start first = 0 := by
  by_cases heq : c = caller
  · rw [heq, Function.update_self] at hc
    exact hnow first hc
  · rw [Function.update_of_ne heq] at hc
    have hfirst := h.retrying c first hc
    exact ⟨Nat.lt_succ_of_lt hfirst.1, hfirst.2⟩

theorem Counted.step [DecidableEq τ] {start : SerialGenerator} {s : SharedGenerator τ}
    (h : Counted start s) (caller : τ) : Counted start (s.step caller) := by
  have hcounter := toNat_fetchAdd h.counter
  unfold SharedGenerator.step
  dsimp only
  split
  · next first hretrying =>
      have hreturned := h.returned_concat ⟨first, s.steps, s.gen.counter⟩
        ⟨h.counter, Or.inr (h.retrying caller first hretrying)⟩ rfl
      exact ⟨hcounter, h.retrying_update caller none nofun, hreturned.1, hreturned.2⟩
  · split
    · next hzero =>
        have hvalue : stepValue start s.steps = 0 := by
          rw [← h.counter]
          exact congrArg UInt32.toNat hzero
        refine ⟨hcounter, h.retrying_update caller (some s.steps) ?_, fun c hc => ?_, h.inOrder⟩
        · rintro first ⟨⟩
          exact ⟨Nat.lt_succ_self _, hvalue⟩
        · exact ⟨(h.drew c hc).1, Nat.lt_succ_of_lt (h.drew c hc).2⟩
    · next hnonzero =>
        have hreturned := h.returned_concat ⟨s.steps, s.steps, s.gen.counter⟩
          ⟨h.counter, Or.inl ⟨rfl, hnonzero⟩⟩ rfl
        refine ⟨hcounter, fun c first hc => ?_, hreturned.1, hreturned.2⟩
        have hfirst := h.retrying c first hc
        exact ⟨Nat.lt_succ_of_lt hfirst.1, hfirst.2⟩

theorem counted_run [DecidableEq τ] (gen : SerialGenerator) (schedule : List τ) :
    Counted gen (run gen schedule) := by
  have hinit : Counted gen ({ gen := gen } : SharedGenerator τ) := {
    counter := (Nat.mod_eq_of_lt gen.counter.toNat_lt).symm
    retrying := fun _ _ h => nomatch h
    drew := fun _ h => nomatch h
    inOrder := List.Pairwise.nil }
  unfold run
  induction schedule using List.reverseRecOn with
  | nil => exact hinit
  | append_singleton schedule caller ih =>
      rw [List.foldl_append]
      exact ih.step caller

/-! ## Windows -/

def within (lo hi : Nat) (call : DrawnSerial) : Bool :=
  decide (lo ≤ call.firstStep ∧ call.lastStep < hi)

theorem Drew.serial_ne_zero {start : SerialGenerator} {call : DrawnSerial} (h : Drew start call)
    {lo hi : Nat} (hwindow : hi - lo < 2 ^ 32) (hwithin : within lo hi call = true) :
    call.serial ≠ 0 := by
  have hsteps := of_decide_eq_true hwithin
  rcases h.steps with ⟨_, hnonzero⟩ | ⟨hlt, hzero⟩
  · exact hnonzero
  · have hne := stepValue_ne start hlt (by omega)
    rw [hzero, ← h.serial] at hne
    intro hserial
    rw [hserial] at hne
    exact hne rfl

theorem Drew.serial_ne {start : SerialGenerator} {call later : DrawnSerial} (h : Drew start call)
    (h' : Drew start later) (hlt : call.lastStep < later.lastStep)
    (hgap : later.lastStep - call.lastStep < 2 ^ 32) : call.serial ≠ later.serial := by
  intro heq
  have hne := stepValue_ne start hlt hgap
  rw [← h.serial, ← h'.serial, heq] at hne
  exact hne rfl

/-- From whatever value the counter starts and however the callers take turns, no call
with its steps in a window of fewer than 2³² steps returns zero, and no two of them
return the same serial. -/
theorem serials_distinct_in_window [DecidableEq τ] (gen : SerialGenerator) (schedule : List τ)
    (lo hi : Nat) (hwindow : hi - lo < 2 ^ 32) :
    (∀ call ∈ (run gen schedule).returned, within lo hi call = true → call.serial ≠ 0) ∧
      (((run gen schedule).returned.filter (within lo hi)).map DrawnSerial.serial).Nodup := by
  have hcounted := counted_run gen schedule
  constructor
  · intro call hcall hwithin
    exact (hcounted.drew call hcall).1.serial_ne_zero hwindow hwithin
  · rw [List.Nodup, List.pairwise_map]
    apply (hcounted.inOrder.filter (within lo hi)).imp_of_mem
    intro call later hcall hlater hlt
    rw [List.mem_filter] at hcall hlater
    have hfirst := of_decide_eq_true hcall.2
    have hlast := of_decide_eq_true hlater.2
    have hdrew := (hcounted.drew call hcall.1).1
    have horder : call.firstStep ≤ call.lastStep := by
      rcases hdrew.steps with ⟨heq, _⟩ | ⟨hless, _⟩
      · exact heq.le
      · exact hless.le
    exact hdrew.serial_ne (hcounted.drew later hlater.1).1 hlt (by omega)

/-- Three callers at the wrap: the second one draws the zero, and the third comes in
between. -/
theorem serials_distinct_at_wrap :
    ((run ⟨0xffffffff⟩ [1, 2, 3, 2]).returned.filter (within 0 4)).map DrawnSerial.serial =
        [0xffffffff, 1, 2] ∧
      (((run ⟨0xffffffff⟩ [1, 2, 3, 2]).returned.filter (within 0 4)).map
        DrawnSerial.serial).Nodup :=
  ⟨by decide, (serials_distinct_in_window ⟨0xffffffff⟩ [1, 2, 3, 2] 0 4 (by decide)).2⟩

end SharedGenerator

end KapsuleDbusMux
