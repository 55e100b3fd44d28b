import KapsuleDbusMux.Library.Trace
import KapsuleDbusMux.Serial.SerialMap
import Mathlib.Algebra.Order.BigOperators.Group.Finset
import Mathlib.Data.Finset.Insert
import Mathlib.Logic.Function.Basic

/-! # The channels between the main loop and the handlers

The loops of `Multiplexer::run` and `ClientHandler::run` with their bounded channels.
Of a message only matters which clients it has to be sent to. The main loop waits for
room in the channel to a client, and meanwhile takes nothing from the channel that
the handlers put messages on; a handler waits for room in that channel, and meanwhile
takes nothing from its own. Clients stay connected and their sockets stay readable
and writable.
-/

namespace KapsuleDbusMux

/-- `mpsc::channel` to each client, in `handle_new_client`. -/
def outboundCapacity : Nat := 256

/-- `mpsc::channel` to the main loop, in `Multiplexer::new`. -/
def inboundCapacity : Nat := 1024

/-- A handler is in `select!`, or in `inbound_tx.send` with a message it has read. -/
inductive HandlerPhase where
  | selecting
  | sending
  deriving DecidableEq, Repr

/-- The main loop is in `select!`, or in `tx.send` to a client, with the clients it has
to send to after that one. While it sends it holds the read lock on the clients. -/
inductive MainPhase where
  | selecting
  | sending (target : ClientId) (rest : List ClientId)
  deriving DecidableEq, Repr

def MainPhase.next : List ClientId → MainPhase
  | [] => .selecting
  | target :: rest => .sending target rest

/-- `inbound` has the senders of the messages on the shared channel, oldest first, and
`outbound` the number of messages on each client's own. -/
structure Channels where
  clients : Finset ClientId := ∅
  handler : ClientId → HandlerPhase := fun _ => .selecting
  outbound : ClientId → Nat := fun _ => 0
  inbound : List ClientId := []
  main : MainPhase := .selecting

/-- `read`, `connect` and `busMessage` start with something from outside. The targets
of a bus message are the clients it is for, in the order of the hash map; the message of
a client is replied to or not. -/
inductive ChannelEvent where
  | connect (clientId : ClientId)
  | read (clientId : ClientId)
  | busMessage (targets : List ClientId)
  | push (clientId : ClientId)
  | drain (clientId : ClientId)
  | clientMessage (replies : Bool)
  | deliver
  deriving DecidableEq, Repr

/-- A step a task can take with what is in the channels. -/
def ChannelEvent.isInternal : ChannelEvent → Bool
  | .connect _ => false
  | .read _ => false
  | .busMessage _ => false
  | .push _ => true
  | .drain _ => true
  | .clientMessage _ => true
  | .deliver => true

namespace Channels

/-- Registering a client needs the write lock on the clients, which the main loop
leaves free in `select!` only. -/
def step (s : Channels) : ChannelEvent → Option Channels
  | .connect c =>
      if s.main = .selecting ∧ c ∉ s.clients then
        some { s with
          clients := insert c s.clients
          handler := Function.update s.handler c .selecting
          outbound := Function.update s.outbound c 0 }
      else none
  | .read c =>
      if c ∈ s.clients ∧ s.handler c = .selecting then
        some { s with handler := Function.update s.handler c .sending }
      else none
  | .busMessage targets =>
      if s.main = .selecting ∧ targets.Nodup ∧ ∀ c ∈ targets, c ∈ s.clients then
        some { s with main := .next targets }
      else none
  | .push c =>
      if c ∈ s.clients ∧ s.handler c = .sending ∧ s.inbound.length < inboundCapacity then
        some { s with
          handler := Function.update s.handler c .selecting
          inbound := s.inbound ++ [c] }
      else none
  | .drain c =>
      if c ∈ s.clients ∧ s.handler c = .selecting ∧ 0 < s.outbound c then
        some { s with outbound := Function.update s.outbound c (s.outbound c - 1) }
      else none
  | .clientMessage replies =>
      match s.main, s.inbound with
      | .selecting, c :: rest =>
          some { s with
            inbound := rest
            main := if replies = true ∧ c ∈ s.clients then .sending c [] else .selecting }
      | _, _ => none
  | .deliver =>
      match s.main with
      | .selecting => none
      | .sending c rest =>
          if s.outbound c < outboundCapacity then
            some { s with
              outbound := Function.update s.outbound c (s.outbound c + 1)
              main := .next rest }
          else none

/-! ## Deadlock -/

/-- A channel has a message, or a task waits to send one. -/
def Pending (s : Channels) : Prop :=
  s.inbound ≠ [] ∨ s.main ≠ .selecting ∨
    ∃ c ∈ s.clients, 0 < s.outbound c ∨ s.handler c = .sending

def Progress (s : Channels) : Prop :=
  s.Pending → ∃ e, e.isInternal = true ∧ s.step e ≠ none

/-- The handler of a client waits for the main loop, and its own channel is full. -/
def Blocked (s : Channels) (c : ClientId) : Prop :=
  s.handler c = .sending ∧ outboundCapacity ≤ s.outbound c ∧ inboundCapacity ≤ s.inbound.length

instance (s : Channels) (c : ClientId) : Decidable (s.Blocked c) :=
  inferInstanceAs (Decidable (_ ∧ _ ∧ _))

/-- The main loop waits for such a handler. -/
def CircularWait (s : Channels) : Prop := ∃ c rest, s.main = .sending c rest ∧ s.Blocked c

structure Wf (s : Channels) : Prop where
  target : ∀ c rest, s.main = .sending c rest → c ∈ s.clients ∧ (c :: rest).Nodup ∧
    ∀ d ∈ rest, d ∈ s.clients
  inbound : s.inbound.length ≤ inboundCapacity

inductive Stepped (s : Channels) : ChannelEvent → Channels → Prop
  | connect (c : ClientId) (hmain : s.main = .selecting) (hnew : c ∉ s.clients) :
      Stepped s (.connect c)
        { s with
          clients := insert c s.clients
          handler := Function.update s.handler c .selecting
          outbound := Function.update s.outbound c 0 }
  | read (c : ClientId) (hc : c ∈ s.clients) (hhandler : s.handler c = .selecting) :
      Stepped s (.read c) { s with handler := Function.update s.handler c .sending }
  | busMessage (targets : List ClientId) (hmain : s.main = .selecting) (hnodup : targets.Nodup)
      (htargets : ∀ c ∈ targets, c ∈ s.clients) :
      Stepped s (.busMessage targets) { s with main := .next targets }
  | push (c : ClientId) (hc : c ∈ s.clients) (hhandler : s.handler c = .sending)
      (hroom : s.inbound.length < inboundCapacity) :
      Stepped s (.push c)
        { s with
          handler := Function.update s.handler c .selecting
          inbound := s.inbound ++ [c] }
  | drain (c : ClientId) (hc : c ∈ s.clients) (hhandler : s.handler c = .selecting)
      (hsome : 0 < s.outbound c) :
      Stepped s (.drain c)
        { s with outbound := Function.update s.outbound c (s.outbound c - 1) }
  | clientMessage (replies : Bool) (c : ClientId) (rest : List ClientId)
      (hmain : s.main = .selecting) (hinbound : s.inbound = c :: rest) :
      Stepped s (.clientMessage replies)
        { s with
          inbound := rest
          main := if replies = true ∧ c ∈ s.clients then .sending c [] else .selecting }
  | deliver (c : ClientId) (rest : List ClientId) (hmain : s.main = .sending c rest)
      (hroom : s.outbound c < outboundCapacity) :
      Stepped s .deliver
        { s with
          outbound := Function.update s.outbound c (s.outbound c + 1)
          main := .next rest }

theorem step_stepped {s t : Channels} {e : ChannelEvent} (hstep : s.step e = some t) :
    s.Stepped e t := by
  cases e with
  | connect c =>
      simp only [step] at hstep
      split at hstep
      · next h =>
          cases hstep
          exact .connect c h.1 h.2
      · cases hstep
  | read c =>
      simp only [step] at hstep
      split at hstep
      · next h =>
          cases hstep
          exact .read c h.1 h.2
      · cases hstep
  | busMessage targets =>
      simp only [step] at hstep
      split at hstep
      · next h =>
          cases hstep
          exact .busMessage targets h.1 h.2.1 h.2.2
      · cases hstep
  | push c =>
      simp only [step] at hstep
      split at hstep
      · next h =>
          cases hstep
          exact .push c h.1 h.2.1 h.2.2
      · cases hstep
  | drain c =>
      simp only [step] at hstep
      split at hstep
      · next h =>
          cases hstep
          exact .drain c h.1 h.2.1 h.2.2
      · cases hstep
  | clientMessage replies =>
      simp only [step] at hstep
      split at hstep
      · next c rest hmain hinbound =>
          cases hstep
          exact .clientMessage replies c rest hmain hinbound
      · cases hstep
  | deliver =>
      simp only [step] at hstep
      split at hstep
      · cases hstep
      · next c rest hmain =>
          split at hstep
          · next hroom =>
              cases hstep
              exact .deliver c rest hmain hroom
          · cases hstep

theorem wf_initial : Wf {} where
  target _ _ h := by cases h
  inbound := Nat.zero_le _

theorem next_eq_sending {targets rest : List ClientId} {c : ClientId}
    (h : MainPhase.next targets = .sending c rest) : targets = c :: rest := by
  cases targets with
  | nil => cases h
  | cons d others =>
      cases h
      rfl

theorem step_wf {s t : Channels} {e : ChannelEvent} (h : s.Wf) (hstep : s.step e = some t) :
    t.Wf := by
  cases step_stepped hstep with
  | connect c hmain hnew =>
      refine ⟨fun d rest hd => ?_, h.inbound⟩
      rw [show s.main = _ from hd] at hmain
      cases hmain
  | read c hc hhandler => exact ⟨h.target, h.inbound⟩
  | busMessage targets hmain hnodup htargets =>
      refine ⟨fun d rest hd => ?_, h.inbound⟩
      rw [next_eq_sending hd] at hnodup htargets
      exact ⟨htargets d List.mem_cons_self, hnodup,
        fun c hc => htargets c (List.mem_cons_of_mem d hc)⟩
  | push c hc hhandler hroom =>
      refine ⟨h.target, ?_⟩
      rw [List.length_append, List.length_singleton]
      omega
  | drain c hc hhandler hsome => exact ⟨h.target, h.inbound⟩
  | clientMessage replies c rest hmain hinbound =>
      have hlength := h.inbound
      rw [hinbound, List.length_cons] at hlength
      refine ⟨fun d others hd => ?_, Nat.le_of_succ_le hlength⟩
      dsimp only at hd
      split at hd
      · next hreply =>
          cases hd
          exact ⟨hreply.2, List.nodup_singleton c, fun _ hnone => by cases hnone⟩
      · cases hd
  | deliver c rest hmain hroom =>
      obtain ⟨_, hnodup, hrest⟩ := h.target c rest hmain
      refine ⟨fun d others hd => ?_, h.inbound⟩
      rw [next_eq_sending hd] at hnodup hrest
      exact ⟨hrest d List.mem_cons_self, (List.nodup_cons.mp hnodup).2,
        fun x hx => hrest x (List.mem_cons_of_mem d hx)⟩

/-! ## Progress without a circular wait -/

/-- Unless the main loop waits for a handler that waits for the main loop, whoever
waits can go on, or someone it waits for can. -/
theorem Wf.progress {s : Channels} (h : s.Wf) (hopen : ¬ s.CircularWait) : s.Progress := by
  intro hpending
  have hdrain : ∀ c ∈ s.clients, s.handler c = .selecting → 0 < s.outbound c →
      ∃ e, e.isInternal = true ∧ s.step e ≠ none := by
    intro c hc hselecting hsome
    refine ⟨.drain c, rfl, ?_⟩
    simp only [step]
    rw [if_pos ⟨hc, hselecting, hsome⟩]
    simp
  have hpush : ∀ c ∈ s.clients, s.handler c = .sending → s.inbound.length < inboundCapacity →
      ∃ e, e.isInternal = true ∧ s.step e ≠ none := by
    intro c hc hsending hroom
    refine ⟨.push c, rfl, ?_⟩
    simp only [step]
    rw [if_pos ⟨hc, hsending, hroom⟩]
    simp
  cases hmain : s.main with
  | selecting =>
      cases hinbound : s.inbound with
      | cons c rest =>
          refine ⟨.clientMessage false, rfl, ?_⟩
          simp [step, hmain, hinbound]
      | nil =>
          have hroom : s.inbound.length < inboundCapacity := by
            rw [hinbound]
            decide
          rcases hpending with hsome | hsome | ⟨c, hc, hsome⟩
          · exact absurd hinbound hsome
          · exact absurd hmain hsome
          · cases hhandler : s.handler c with
            | sending => exact hpush c hc hhandler hroom
            | selecting =>
                rw [hhandler] at hsome
                exact hdrain c hc hhandler (hsome.resolve_right (by decide))
  | sending c rest =>
      have hc := (h.target c rest hmain).1
      by_cases hroom : s.outbound c < outboundCapacity
      · refine ⟨.deliver, rfl, ?_⟩
        simp [step, hmain, hroom]
      · have hfull : outboundCapacity ≤ s.outbound c := Nat.not_lt.mp hroom
        cases hhandler : s.handler c with
        | selecting => exact hdrain c hc hhandler (Nat.lt_of_lt_of_le (by decide) hfull)
        | sending =>
            refine hpush c hc hhandler (Nat.not_le.mp (fun hinbound => ?_))
            exact hopen ⟨c, rest, hmain, hhandler, hfull, hinbound⟩

/-! ## How a circular wait comes about -/

/-- The last part of a circle: a handler starts to wait for the main loop, which waits
for it; the shared channel becomes full while the main loop waits for a handler
that waits; or the main loop turns to a handler that waits. -/
def Closes (s : Channels) : ChannelEvent → Prop
  | .read c => ∃ rest, s.main = .sending c rest ∧ outboundCapacity ≤ s.outbound c ∧
      inboundCapacity ≤ s.inbound.length
  | .push c => ∃ d rest, s.main = .sending d rest ∧ d ≠ c ∧ s.handler d = .sending ∧
      outboundCapacity ≤ s.outbound d ∧ inboundCapacity ≤ s.inbound.length + 1
  | .busMessage targets => ∃ c rest, targets = c :: rest ∧ s.Blocked c
  | .deliver => ∃ c d rest, s.main = .sending c (d :: rest) ∧ s.Blocked d
  | _ => False

theorem update_sending {handler : ClientId → HandlerPhase} {c d : ClientId}
    (h : Function.update handler c .selecting d = .sending) : d ≠ c ∧ handler d = .sending := by
  by_cases hd : d = c
  · subst hd
    rw [Function.update_self] at h
    cases h
  · rw [Function.update_of_ne hd] at h
    exact ⟨hd, h⟩

theorem circularWait_iff {s t : Channels} {e : ChannelEvent} (h : s.Wf) (hopen : ¬ s.CircularWait)
    (hstep : s.step e = some t) : t.CircularWait ↔ s.Closes e := by
  cases step_stepped hstep with
  | connect c hmain hnew =>
      refine iff_of_false ?_ id
      rintro ⟨d, rest, hd, _⟩
      rw [show s.main = _ from hd] at hmain
      cases hmain
  | read c hc hhandler =>
      constructor
      · rintro ⟨d, rest, hd, hsending, hfull⟩
        by_cases heq : d = c
        · subst heq
          exact ⟨rest, hd, hfull⟩
        · dsimp only at hsending
          rw [Function.update_of_ne heq] at hsending
          exact absurd ⟨d, rest, hd, hsending, hfull⟩ hopen
      · rintro ⟨rest, hd, hfull⟩
        exact ⟨c, rest, hd, Function.update_self _ _ _, hfull⟩
  | busMessage targets hmain hnodup htargets =>
      constructor
      · rintro ⟨c, rest, hc, hblocked⟩
        exact ⟨c, rest, next_eq_sending hc, hblocked⟩
      · rintro ⟨c, rest, rfl, hblocked⟩
        exact ⟨c, rest, rfl, hblocked⟩
  | push c hc hhandler hroom =>
      constructor
      · rintro ⟨d, rest, hd, hsending, houtbound, hinbound⟩
        obtain ⟨hne, hother⟩ := update_sending hsending
        rw [List.length_append, List.length_singleton] at hinbound
        exact ⟨d, rest, hd, hne, hother, houtbound, hinbound⟩
      · rintro ⟨d, rest, hd, hne, hother, houtbound, hinbound⟩
        refine ⟨d, rest, hd, ?_, houtbound, ?_⟩
        · exact (Function.update_of_ne hne _ _).trans hother
        · rw [List.length_append, List.length_singleton]
          exact hinbound
  | drain c hc hhandler hsome =>
      refine iff_of_false ?_ id
      rintro ⟨d, rest, hd, hsending, houtbound, hinbound⟩
      have hne : d ≠ c := by
        rintro rfl
        rw [show s.handler d = _ from hsending] at hhandler
        cases hhandler
      dsimp only at houtbound
      rw [Function.update_of_ne hne] at houtbound
      exact hopen ⟨d, rest, hd, hsending, houtbound, hinbound⟩
  | clientMessage replies c rest hmain hinbound =>
      refine iff_of_false ?_ id
      rintro ⟨_, _, _, _, _, hfull⟩
      have hlength := h.inbound
      rw [hinbound, List.length_cons] at hlength
      exact absurd hfull (Nat.not_le.mpr hlength)
  | deliver c rest hmain hroom =>
      obtain ⟨_, hnodup, _⟩ := h.target c rest hmain
      constructor
      · rintro ⟨d, others, hd, hsending, houtbound, hinbound⟩
        have hrest := next_eq_sending hd
        rw [hrest] at hnodup hmain
        have hne : d ≠ c := fun heq => (List.nodup_cons.mp hnodup).1 (heq ▸ List.mem_cons_self)
        dsimp only at houtbound
        rw [Function.update_of_ne hne] at houtbound
        exact ⟨c, d, others, hmain, hsending, houtbound, hinbound⟩
      · rintro ⟨c', d, others, hd, hsending, houtbound, hinbound⟩
        cases hmain.symm.trans hd
        have hne : d ≠ c := fun heq => (List.nodup_cons.mp hnodup).1 (heq ▸ List.mem_cons_self)
        exact ⟨d, others, rfl, hsending, by
          dsimp only
          rw [Function.update_of_ne hne]
          exact houtbound, hinbound⟩

/-- Nobody can break a circular wait. -/
theorem CircularWait.stays {s t : Channels} {e : ChannelEvent} (h : s.CircularWait)
    (hstep : s.step e = some t) : t.CircularWait := by
  obtain ⟨c, rest, hmain, hsending, houtbound, hinbound⟩ := h
  cases step_stepped hstep with
  | connect d hselecting hnew =>
      rw [hmain] at hselecting
      cases hselecting
  | read d hd hhandler =>
      have hne : c ≠ d := by
        rintro rfl
        rw [hsending] at hhandler
        cases hhandler
      exact ⟨c, rest, hmain, (Function.update_of_ne hne _ _).trans hsending, houtbound, hinbound⟩
  | busMessage targets hselecting hnodup htargets =>
      rw [hmain] at hselecting
      cases hselecting
  | push d hd hhandler hroom => exact absurd hinbound (Nat.not_le.mpr hroom)
  | drain d hd hhandler hsome =>
      have hne : c ≠ d := by
        rintro rfl
        rw [hsending] at hhandler
        cases hhandler
      exact ⟨c, rest, hmain, hsending, by
        dsimp only
        rw [Function.update_of_ne hne]
        exact houtbound, hinbound⟩
  | clientMessage replies d others hselecting hsome =>
      rw [hmain] at hselecting
      cases hselecting
  | deliver d others hd hroom =>
      cases hmain.symm.trans hd
      exact absurd houtbound (Nat.not_le.mpr hroom)

/-- A run ends without a circular wait exactly when none of its events closed one. -/
theorem not_circularWait_iff {events : List ChannelEvent} {t : Channels}
    (hrun : Trace.run step {} events = some t) :
    ¬ t.CircularWait ↔ Trace.Along step (fun s e => ¬ s.Closes e) {} events := by
  refine Trace.sound_iff_along (I := Wf) (S := fun s => ¬ s.CircularWait)
    (fun _ _ _ hs hstep => step_wf hs hstep) ?_ ?_ wf_initial ?_ hrun
  · exact fun s e u hs hopen hstep => not_congr (circularWait_iff hs hopen hstep)
  · exact fun s e u _ hcircle hstep hopen => hopen ((not_not.mp hcircle).stays hstep)
  · rintro ⟨c, rest, hmain, _⟩
    cases hmain

/-! ## Channels that fill up -/

/-- The main loop and the handler of the only client are in `select!`, and this much is on
the channels. -/
structure Idle (s : Channels) (c : ClientId) (inbound outbound : Nat) : Prop where
  clients : s.clients = {c}
  handler : s.handler c = .selecting
  main : s.main = .selecting
  inbound : s.inbound.length = inbound
  outbound : s.outbound c = outbound

theorem Idle.connected {s : Channels} {c : ClientId} {m k : Nat} (h : s.Idle c m k) :
    c ∈ s.clients := by
  rw [h.clients]
  exact Finset.mem_singleton_self c

theorem Idle.client {s : Channels} {c : ClientId} {m k : Nat} (h : s.Idle c m k)
    (hroom : m < inboundCapacity) :
    ∃ t, Trace.run step s [.read c, .push c] = some t ∧ t.Idle c (m + 1) k := by
  have hread : s.step (.read c) =
      some { s with handler := Function.update s.handler c .sending } := by
    simp only [step]
    exact if_pos ⟨h.connected, h.handler⟩
  have hinbound : s.inbound.length < inboundCapacity := by
    rw [h.inbound]
    exact hroom
  refine ⟨{ s with
    handler := Function.update (Function.update s.handler c .sending) c .selecting
    inbound := s.inbound ++ [c] }, ?_, ?_⟩
  · refine Trace.run_cons_eq_some.mpr ⟨_, hread, ?_⟩
    refine Trace.run_cons_eq_some.mpr ⟨_, ?_, rfl⟩
    simp only [step]
    exact if_pos ⟨h.connected, Function.update_self _ _ _, hinbound⟩
  · refine ⟨h.clients, Function.update_self _ _ _, h.main, ?_, h.outbound⟩
    rw [List.length_append, List.length_singleton, h.inbound]

theorem Idle.turn {s : Channels} {c : ClientId} {m k : Nat} (h : s.Idle c m k) :
    s.step (.busMessage [c]) = some { s with main := .sending c [] } := by
  simp only [step]
  refine if_pos ⟨h.main, List.nodup_singleton c, fun d hd => ?_⟩
  rw [List.mem_singleton.mp hd]
  exact h.connected

theorem Idle.signal {s : Channels} {c : ClientId} {m k : Nat} (h : s.Idle c m k)
    (hroom : k < outboundCapacity) :
    ∃ t, Trace.run step s [.busMessage [c], .deliver] = some t ∧ t.Idle c m (k + 1) := by
  have houtbound : s.outbound c < outboundCapacity := by
    rw [h.outbound]
    exact hroom
  refine ⟨{ s with
    outbound := Function.update s.outbound c (s.outbound c + 1)
    main := .selecting }, ?_, ?_⟩
  · refine Trace.run_cons_eq_some.mpr ⟨_, h.turn, ?_⟩
    refine Trace.run_cons_eq_some.mpr ⟨_, ?_, rfl⟩
    simp only [step]
    exact if_pos houtbound
  · refine ⟨h.clients, h.handler, rfl, h.inbound, ?_⟩
    show Function.update s.outbound c (s.outbound c + 1) c = k + 1
    rw [Function.update_self, h.outbound]

theorem run_rounds {round : List ChannelEvent} {P : Nat → Channels → Prop} {bound : Nat}
    (hround : ∀ s m, P m s → m < bound → ∃ t, Trace.run step s round = some t ∧ P (m + 1) t)
    (n : Nat) {s : Channels} (h : P 0 s) (hn : n ≤ bound) :
    ∃ t, Trace.run step s (List.replicate n round).flatten = some t ∧ P n t := by
  induction n with
  | zero => exact ⟨s, rfl, h⟩
  | succ n ih =>
      obtain ⟨m, hrun, hm⟩ := ih (by omega)
      obtain ⟨t, hlast, ht⟩ := hround m n hm (by omega)
      refine ⟨t, ?_, ht⟩
      rw [List.replicate_succ', List.flatten_append, List.flatten_singleton]
      exact Trace.run_append_eq_some.mpr ⟨m, hrun, hlast⟩

/-- A client sends faster than the main loop takes messages while signals for it come
in. -/
def fillBoth : List ChannelEvent :=
  [.connect 1] ++ (List.replicate inboundCapacity [.read 1, .push 1]).flatten ++
    (List.replicate outboundCapacity [.busMessage [1], .deliver]).flatten

theorem exists_filled :
    ∃ s, Trace.run step {} fillBoth = some s ∧ s.Idle 1 inboundCapacity outboundCapacity := by
  obtain ⟨s₀, hconnect, h₀⟩ : ∃ s₀, Trace.run step {} [.connect 1] = some s₀ ∧ s₀.Idle 1 0 0 :=
    ⟨_, rfl, ⟨rfl, rfl, rfl, rfl, rfl⟩⟩
  obtain ⟨s₁, hclient, h₁⟩ := run_rounds (P := fun m s => s.Idle 1 m 0)
    (fun s m hs hm => hs.client hm) inboundCapacity h₀ (Nat.le_refl _)
  obtain ⟨s₂, hsignals, h₂⟩ := run_rounds (P := fun k s => s.Idle 1 inboundCapacity k)
    (fun s k hs hk => hs.signal hk) outboundCapacity h₁ (Nat.le_refl _)
  refine ⟨s₂, ?_, h₂⟩
  refine Trace.run_append_eq_some.mpr ⟨s₁, ?_, hsignals⟩
  exact Trace.run_append_eq_some.mpr ⟨s₀, hconnect, hclient⟩

/-! ## How it ends -/

/-- With a circular wait, and nothing left for the other handlers to take, no task can
take a step. -/
theorem CircularWait.not_progress {s : Channels} (h : s.CircularWait)
    (hdrained : ∀ d ∈ s.clients, s.handler d = .selecting → s.outbound d = 0) :
    ¬ s.Progress := by
  obtain ⟨c, rest, hmain, hsending, houtbound, hinbound⟩ := h
  intro hprogress
  have hpending : s.Pending := by
    refine Or.inr (Or.inl ?_)
    rw [hmain]
    simp
  obtain ⟨e, hinternal, hstep⟩ := hprogress hpending
  cases hnext : s.step e with
  | none => exact hstep hnext
  | some t =>
      cases step_stepped hnext with
      | connect d _ _ => cases hinternal
      | read d _ _ => cases hinternal
      | busMessage targets _ _ _ => cases hinternal
      | push d hd hhandler hroom => exact absurd hinbound (Nat.not_le.mpr hroom)
      | drain d hd hhandler hsome =>
          have hnone := hdrained d hd hhandler
          omega
      | clientMessage replies d others hselecting hsome =>
          rw [hmain] at hselecting
          cases hselecting
      | deliver d others hd hroom =>
          cases hmain.symm.trans hd
          exact absurd houtbound (Nat.not_le.mpr hroom)

/-- A circular wait ends in a deadlock when no more messages arrive. -/
theorem CircularWait.deadlock {s : Channels} (h : s.CircularWait) :
    ∃ more t, Trace.run step s more = some t ∧ (∀ e ∈ more, e.isInternal = true) ∧
      ¬ t.Progress := by
  -- the other handlers take what is on their channels
  generalize hsize : ∑ d ∈ s.clients, s.outbound d = size
  induction size using Nat.strongRecOn generalizing s with
  | _ size ih =>
      by_cases hdrained : ∀ d ∈ s.clients, s.handler d = .selecting → s.outbound d = 0
      · exact ⟨[], s, rfl, List.forall_mem_nil _, h.not_progress hdrained⟩
      · simp only [not_forall] at hdrained
        obtain ⟨d, hd, hhandler, hsome⟩ := hdrained
        have hstep : s.step (.drain d) = some { s with
            outbound := Function.update s.outbound d (s.outbound d - 1) } := by
          simp only [step]
          exact if_pos ⟨hd, hhandler, Nat.pos_of_ne_zero hsome⟩
        have hless : ∑ x ∈ s.clients, Function.update s.outbound d (s.outbound d - 1) x < size := by
          rw [← hsize]
          refine Finset.sum_lt_sum (fun x _ => ?_) ⟨d, hd, ?_⟩
          · by_cases hx : x = d
            · subst hx
              rw [Function.update_self]
              exact Nat.sub_le _ _
            · rw [Function.update_of_ne hx]
          · rw [Function.update_self]
            omega
        obtain ⟨more, t, hrun, hinternal, hstuck⟩ := ih _ hless (h.stays hstep) rfl
        refine ⟨.drain d :: more, t, Trace.run_cons_eq_some.mpr ⟨_, hstep, hrun⟩, ?_, hstuck⟩
        intro e he
        rcases List.mem_cons.mp he with rfl | he
        · rfl
        · exact hinternal e he

/-- In every run none of whose events closes a circle, a task can take a step whenever
something is pending. A run with such an event can be brought to a deadlock by the
tasks alone. -/
theorem progress_unless_closed {events : List ChannelEvent} {t : Channels}
    (hrun : Trace.run step {} events = some t) :
    (Trace.Along step (fun s e => ¬ s.Closes e) {} events → t.Progress) ∧
      (¬ Trace.Along step (fun s e => ¬ s.Closes e) {} events →
        ∃ more u, Trace.run step t more = some u ∧ (∀ e ∈ more, e.isInternal = true) ∧
          ¬ u.Progress) := by
  have hiff := not_circularWait_iff hrun
  have hwf : t.Wf :=
    Trace.invariant_of_run (fun _ _ _ hs hstep => step_wf hs hstep) wf_initial hrun
  constructor
  · exact fun hopen => hwf.progress (hiff.mpr hopen)
  · intro hclosed
    have hcircle : t.CircularWait := not_not.mp (mt hiff.mp hclosed)
    exact hcircle.deadlock

/-- Both channels are full and the main loop waits for the client, whose handler is still
in `select!`. -/
theorem progress_fullChannels :
    ∃ t rest, Trace.run step {} (fillBoth ++ [.busMessage [1]]) = some t ∧
      t.main = .sending 1 rest ∧ t.outbound 1 = outboundCapacity ∧
      t.inbound.length = inboundCapacity ∧ t.Pending ∧ t.Progress := by
  obtain ⟨s, hfill, hs⟩ := exists_filled
  have hrun : Trace.run step {} (fillBoth ++ [.busMessage [1]]) =
      some { s with main := .sending 1 [] } :=
    Trace.run_append_eq_some.mpr ⟨s, hfill, Trace.run_cons_eq_some.mpr ⟨_, hs.turn, rfl⟩⟩
  have hopen : ¬ CircularWait { s with main := .sending 1 [] } := by
    rintro ⟨c, rest, hmain, hsending, _⟩
    cases hmain
    cases hs.handler.symm.trans hsending
  refine ⟨_, [], hrun, rfl, hs.outbound, hs.inbound, Or.inr (Or.inl (by simp)), ?_⟩
  exact (progress_unless_closed hrun).1 ((not_circularWait_iff hrun).mp hopen)

/-- With both channels full the handler reads one more message and the main loop turns
to its client: they wait for each other. -/
def floodedClient : List ChannelEvent := fillBoth ++ [.read 1, .busMessage [1]]

theorem flooded_client_deadlocks :
    ¬ ∀ (events : List ChannelEvent) (t : Channels),
      Trace.run step {} events = some t → t.Progress := by
  intro hclaim
  obtain ⟨s₂, hfill, h₂⟩ := exists_filled
  have hlast : Trace.run step s₂ [.read 1, .busMessage [1]] = some { s₂ with
      handler := Function.update s₂.handler 1 .sending
      main := .sending 1 [] } := by
    refine Trace.run_cons_eq_some.mpr ⟨_, if_pos ⟨h₂.connected, h₂.handler⟩, ?_⟩
    refine Trace.run_cons_eq_some.mpr ⟨_, if_pos ⟨h₂.main, List.nodup_singleton 1, ?_⟩, rfl⟩
    intro d hd
    rw [List.mem_singleton.mp hd]
    exact h₂.connected
  have hrun : Trace.run step {} floodedClient = some { s₂ with
      handler := Function.update s₂.handler 1 .sending
      main := .sending 1 [] } :=
    Trace.run_append_eq_some.mpr ⟨s₂, hfill, hlast⟩
  have hcircle : CircularWait { s₂ with
      handler := Function.update s₂.handler 1 .sending
      main := .sending 1 [] } := by
    refine ⟨1, [], rfl, ?_, Nat.le_of_eq h₂.outbound.symm, Nat.le_of_eq h₂.inbound.symm⟩
    exact Function.update_self 1 HandlerPhase.sending s₂.handler
  refine hcircle.not_progress ?_ (hclaim _ _ hrun)
  · intro d hd hselecting
    have hone : d = 1 := by
      rw [show s₂.clients = {1} from h₂.clients] at hd
      exact Finset.mem_singleton.mp hd
    subst hone
    dsimp only at hselecting
    rw [Function.update_self] at hselecting
    cases hselecting

end Channels

end KapsuleDbusMux
