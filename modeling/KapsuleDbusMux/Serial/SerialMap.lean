import KapsuleDbusMux.Routing.RoutingTable
import Mathlib.Data.UInt

/-! # Serial numbers and pending calls

`serial_map.rs`. `SerialGenerator` numbers the calls forwarded on one bus
connection, `SerialMap` remembers whose call each number stands for. Instants
and durations are natural numbers of one unit; `Instant::duration_since`
saturates at zero, as subtraction does here.
-/

namespace KapsuleDbusMux

abbrev ClientId := Nat

abbrev Instant := Nat

structure PendingCall where
  clientId : ClientId
  clientSerial : UInt32
  timestamp : Instant
  deriving DecidableEq, Repr

structure SerialKey where
  route : Route
  serial : UInt32
  deriving DecidableEq, Repr

structure SerialMap where
  pending : AssocMap SerialKey PendingCall
  timeout : Nat

namespace SerialMap

def withTimeout (timeout : Nat) : SerialMap := ⟨∅, timeout⟩

def insert (map : SerialMap) (now : Instant) (route : Route) (forwardedSerial : UInt32)
    (clientId : ClientId) (clientSerial : UInt32) : SerialMap :=
  { map with pending := map.pending.insert ⟨route, forwardedSerial⟩ ⟨clientId, clientSerial, now⟩ }

def remove (map : SerialMap) (route : Route) (replySerial : UInt32) :
    Option PendingCall × SerialMap :=
  (map.pending.lookup ⟨route, replySerial⟩,
    { map with pending := map.pending.erase ⟨route, replySerial⟩ })

/-- Drop the calls that have waited for `timeout` or longer, and say how many. -/
def cleanupExpired (map : SerialMap) (now : Instant) : Nat × SerialMap :=
  let kept := map.pending.retain (fun _ call => decide (now - call.timestamp < map.timeout))
  (map.pending.entries.length - kept.entries.length, { map with pending := kept })

def pendingForClient (map : SerialMap) (clientId : ClientId) : Nat :=
  map.pending.count (fun _ call => decide (call.clientId = clientId))

theorem lookup_insert (map : SerialMap) (now : Instant) (route : Route) (serial : UInt32)
    (clientId : ClientId) (clientSerial : UInt32) (key : SerialKey) :
    (map.insert now route serial clientId clientSerial).pending.lookup key =
      if key = ⟨route, serial⟩ then some ⟨clientId, clientSerial, now⟩
      else map.pending.lookup key :=
  AList.lookup_insert_if _ _ _ _

theorem lookup_remove (map : SerialMap) (route : Route) (serial : UInt32) (key : SerialKey) :
    (map.remove route serial).2.pending.lookup key =
      if key = ⟨route, serial⟩ then none else map.pending.lookup key :=
  AList.lookup_erase_if _ _ _

theorem lookup_cleanupExpired (map : SerialMap) (now : Instant) (key : SerialKey) :
    (map.cleanupExpired now).2.pending.lookup key =
      (map.pending.lookup key).filter (fun call => decide (now - call.timestamp < map.timeout)) :=
  AList.lookup_retain _ _ _

end SerialMap

/-! ## The generator -/

structure SerialGenerator where
  counter : UInt32
  deriving DecidableEq, Repr

namespace SerialGenerator

def new : SerialGenerator := ⟨1⟩

/-- `AtomicU32::fetch_add(1)`: the old value, with the counter wrapping at 2³². -/
def fetchAdd (gen : SerialGenerator) : UInt32 × SerialGenerator :=
  (gen.counter, ⟨gen.counter + 1⟩)

/-- Serial 0 is invalid in D-Bus, so a second number is drawn in its place. -/
def next (gen : SerialGenerator) : UInt32 × SerialGenerator :=
  let (serial, gen) := gen.fetchAdd
  if serial = 0 then gen.fetchAdd else (serial, gen)

def drawn : Nat → SerialGenerator
  | 0 => .new
  | n + 1 => (drawn n).next.2

/-- The `n`-th number drawn, counting from 0. -/
def serialOf (n : Nat) : UInt32 := (drawn n).next.1

/-- One full cycle of serial numbers: every 32-bit value except 0. -/
def cycle : Nat := 2 ^ 32 - 1

theorem next_of_zero {gen : SerialGenerator} (h : gen.counter = 0) : gen.next = (1, ⟨2⟩) := by
  cases gen
  cases h
  rfl

theorem next_of_ne_zero {gen : SerialGenerator} (h : gen.counter ≠ 0) :
    gen.next = (gen.counter, ⟨gen.counter + 1⟩) := by
  simp [next, fetchAdd, h]

theorem drawn_counter (n : Nat) :
    (drawn n).counter.toNat = n % cycle + 1 ∨
      (drawn n).counter.toNat = 0 ∧ n % cycle = 0 := by
  induction n with
  | zero => left; rfl
  | succ n ih =>
      have hmod : (n + 1) % cycle = if n % cycle + 1 = cycle then 0 else n % cycle + 1 := by
        rw [Nat.add_mod_eq_ite]
        unfold cycle
        split <;> split <;> omega
      have hlt : n % cycle < cycle := Nat.mod_lt n (by decide)
      rcases ih with ih | ⟨ih, hz⟩
      · have hne : (drawn n).counter ≠ 0 := by
          intro h0
          rw [h0] at ih
          simp at ih
        have hc : (drawn (n + 1)).counter = (drawn n).counter + 1 := by
          rw [drawn, next_of_ne_zero hne]
        rw [hc, UInt32.toNat_add, ih, hmod]
        unfold cycle at hlt ⊢
        simp only [UInt32.toNat_one]
        split <;> omega
      · have h0 : (drawn n).counter = 0 := UInt32.toNat_inj.mp ih
        have hc : (drawn (n + 1)).counter = 2 := by rw [drawn, next_of_zero h0]
        left
        rw [hc, hmod, hz]
        rfl

theorem serialOf_toNat (n : Nat) : (serialOf n).toNat = n % cycle + 1 := by
  rcases drawn_counter n with h | ⟨h, hz⟩
  · have hne : (drawn n).counter ≠ 0 := by
      intro h0
      rw [h0] at h
      simp at h
    rw [serialOf, next_of_ne_zero hne]
    exact h
  · rw [serialOf, next_of_zero (UInt32.toNat_inj.mp h), hz]
    rfl

/-- Fewer than a full cycle apart, two draws give different numbers. -/
theorem serialOf_inj_of_lt_cycle {m n : Nat} (hlt : m < n) (hgap : n - m < cycle) :
    serialOf m ≠ serialOf n := by
  intro h
  have hm := serialOf_toNat m
  have hn := serialOf_toNat n
  rw [h] at hm
  have hmod : m % cycle = n % cycle := by omega
  have hdvd : cycle ∣ n - m := (Nat.modEq_iff_dvd' hlt.le).mp hmod
  have hle := Nat.le_of_dvd (by omega) hdvd
  omega

end SerialGenerator

end KapsuleDbusMux
