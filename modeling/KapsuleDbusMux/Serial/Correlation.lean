import KapsuleDbusMux.Library.Trace
import KapsuleDbusMux.Serial.Router
import Mathlib.Data.List.Nodup

/-! # Reply correlation over whole runs

The router between the clients and the two buses. The main loop of
`Multiplexer::run` handles one thing at a time, so `forward_method_call` is never
interrupted by `handle_reply` or by a cleanup tick, while a bus may put its reply
into the connection's stream as soon as the call has been sent: between the send
and the `insert` as well as later. Calls that the multiplexer makes itself through zbus share
the stream; zbus numbers them on its own.

The system carries its history next to the router: which calls were forwarded,
and what has happened to each of them since. The code never reads the history.
-/

namespace KapsuleDbusMux.Correlation

open SerialGenerator (serialOf cycle)

/-- The `index`-th call forwarded on `route`. -/
@[ext]
structure CallId where
  route : Route
  index : Nat
  deriving DecidableEq, Repr

structure Call where
  clientId : ClientId
  clientSerial : UInt32
  forwardedSerial : UInt32
  recorded : Bool
  replied : Bool
  handled : Bool
  expired : Bool
  deriving DecidableEq, Repr

namespace Call

/-- The call has been recorded, no reply to it has been handled, and cleanup has
not removed its entry. -/
def awaiting (call : Call) : Bool := call.recorded && !call.handled && !call.expired

end Call

/-- The call a reply answers: a client's, or one the multiplexer made itself. -/
inductive Origin where
  | call (id : CallId)
  | own (serial : UInt32)
  deriving DecidableEq, Repr

def Origin.callId? : Origin → Option CallId
  | .call id => some id
  | .own _ => none

structure Arrival where
  origin : Origin
  msg : Message
  deriving DecidableEq, Repr

/-- `forward_method_call` suspended between its `send` and its `insert`. -/
structure Recording where
  call : ForwardedCall
  index : Nat
  deriving DecidableEq, Repr

def Recording.id (recording : Recording) : CallId := ⟨recording.call.route, recording.index⟩

/-- What one call of `handle_reply` returned. -/
structure Outcome where
  route : Route
  origin : Origin
  result : Except MessageError (Option (ClientId × UInt32))

structure System where
  router : MessageRouter
  now : Instant
  recording : Option Recording
  arrivals : Route → List Arrival
  drawn : Route → Nat
  calls : CallId → Option Call
  ownCalls : Route → List UInt32
  outcomes : List Outcome

def init (containerName hostName : Option String) (timeout : Nat) (now : Instant) : System where
  router := ⟨.connect containerName, .connect hostName, .withTimeout timeout⟩
  now := now
  recording := none
  arrivals := fun _ => []
  drawn := fun _ => 0
  calls := fun _ => none
  ownCalls := fun _ => []
  outcomes := []

/-- `forward` is `forward_method_call` up to its `send`, which fails when
`delivered` is false; `record` is the rest of it. `reply` and `ownReply` are the
bus answering, `recv` is the main loop taking the next message of a stream, and
`tick` the periodic cleanup. -/
inductive Event where
  | forward (clientId : ClientId) (msg : Message) (route : Route) (delivered : Bool)
  | record
  | reply (id : CallId) (msg : Message)
  | ownCall (route : Route) (serial : UInt32)
  | ownReply (route : Route) (serial : UInt32) (msg : Message)
  | recv (route : Route)
  | tick
  | elapse (duration : Nat)
  deriving DecidableEq, Repr

def Event.isOwn : Event → Bool
  | .ownCall _ _ => true
  | .ownReply _ _ _ => true
  | _ => false

namespace System

def amend (s : System) (id : CallId) (f : Call → Call) : CallId → Option Call :=
  fun other => if other = id then (s.calls other).map f else s.calls other

def forward (s : System) (clientId : ClientId) (msg : Message) (route : Route)
    (delivered : Bool) : System :=
  let index := s.drawn route
  let prepared := s.router.prepareForward clientId msg route
  let s := { s with router := prepared.2, drawn := Function.update s.drawn route (index + 1) }
  match prepared.1 with
  | .error _ => s
  | .ok (call, _) =>
      if delivered then
        { s with
          recording := some ⟨call, index⟩
          calls := Function.update s.calls ⟨route, index⟩
            (some ⟨clientId, msg.serial, call.forwardedSerial, false, false, false, false⟩) }
      else s

def record (s : System) (recording : Recording) : System :=
  { s with
    router := s.router.recordForward s.now recording.call
    recording := none
    calls := s.amend recording.id (fun call => { call with recorded := true }) }

def arrive (s : System) (route : Route) (arrival : Arrival) : Route → List Arrival :=
  Function.update s.arrivals route (s.arrivals route ++ [arrival])

def handled (s : System) : Origin → CallId → Option Call
  | .call id => s.amend id (fun call => { call with handled := true })
  | .own _ => s.calls

def recv (s : System) (route : Route) (arrival : Arrival) (rest : List Arrival) : System :=
  let handledReply := s.router.handleReply arrival.msg route
  { s with
    router := handledReply.2
    arrivals := Function.update s.arrivals route rest
    calls := s.handled arrival.origin
    outcomes := s.outcomes ++ [⟨route, arrival.origin, handledReply.1⟩] }

def removedBy (before after : MessageRouter) (id : CallId) (call : Call) : Bool :=
  call.awaiting && (before.pendingAt id.route call.forwardedSerial).isSome &&
    (after.pendingAt id.route call.forwardedSerial).isNone

def tick (s : System) : System :=
  let router := (s.router.cleanupExpired s.now).2
  { s with
    router := router
    calls := fun id => (s.calls id).map (fun call =>
      if removedBy s.router router id call then { call with expired := true } else call) }

def step (s : System) : Event → Option System
  | .forward clientId msg route delivered =>
      if s.recording = none then some (s.forward clientId msg route delivered) else none
  | .record => s.recording.map s.record
  | .reply id msg =>
      match s.calls id with
      | some call =>
          if call.replied = false ∧ msg.replySerial = some call.forwardedSerial then
            some { s with
              calls := s.amend id (fun call => { call with replied := true })
              arrivals := s.arrive id.route ⟨.call id, msg⟩ }
          else none
      | none => none
  | .ownCall route serial =>
      some { s with
        ownCalls := Function.update s.ownCalls route (serial :: s.ownCalls route) }
  | .ownReply route serial msg =>
      if serial ∈ s.ownCalls route ∧ msg.replySerial = some serial then
        some { s with
          ownCalls := Function.update s.ownCalls route ((s.ownCalls route).erase serial)
          arrivals := s.arrive route ⟨.own serial, msg⟩ }
      else none
  | .recv route =>
      if s.recording = none then
        match s.arrivals route with
        | arrival :: rest => some (s.recv route arrival rest)
        | [] => none
      else none
  | .tick => if s.recording = none then some s.tick else none
  | .elapse duration => some { s with now := s.now + duration }

end System

/-! ## One-step facts -/

namespace System

theorem amend_eq_some {s : System} {id other : CallId} {f : Call → Call} {call : Call} :
    s.amend id f other = some call ↔
      ∃ before, s.calls other = some before ∧ call = if other = id then f before else before := by
  unfold amend
  by_cases h : other = id
  · simp only [if_pos h, Option.map_eq_some_iff]
    constructor
    · rintro ⟨before, hb, rfl⟩
      exact ⟨before, hb, rfl⟩
    · rintro ⟨before, hb, rfl⟩
      exact ⟨before, hb, rfl⟩
  · simp [h]

theorem forwardedSerial_amend {s : System} {id : CallId} {f : Call → Call}
    (hf : ∀ call, (f call).forwardedSerial = call.forwardedSerial) {other : CallId} {after : Call}
    (h : s.amend id f other = some after) :
    ∃ call, s.calls other = some call ∧ after.forwardedSerial = call.forwardedSerial := by
  obtain ⟨call, hcall, rfl⟩ := amend_eq_some.mp h
  refine ⟨call, hcall, ?_⟩
  split
  · exact hf call
  · rfl

theorem forward_eq (s : System) (clientId : ClientId) (msg : Message) (route : Route)
    (delivered : Bool) :
    let serial := (s.router.connectionFor route).serialGen.next.1
    let base : System := { s with
      router := s.router.setConnection (s.router.connectionFor route).nextSerial.2 route
      drawn := Function.update s.drawn route (s.drawn route + 1) }
    s.forward clientId msg route delivered = base ∨
      s.forward clientId msg route delivered =
        { base with
          recording := some ⟨⟨clientId, msg.serial, route, serial⟩, s.drawn route⟩
          calls := Function.update s.calls ⟨route, s.drawn route⟩
            (some ⟨clientId, msg.serial, serial, false, false, false, false⟩) } := by
  unfold forward
  dsimp only
  rw [MessageRouter.prepareForward_router]
  cases h : (s.router.prepareForward clientId msg route).1 with
  | error e => left; rfl
  | ok prepared =>
      obtain ⟨call, forwarded⟩ := prepared
      have hcall := MessageRouter.prepareForward_ok h
      cases delivered with
      | false => left; rfl
      | true => right; subst hcall; rfl

theorem step_drawn_le {s t : System} {e : Event} (h : s.step e = some t) (route : Route) :
    t.drawn route ≤ s.drawn route + 1 := by
  cases e with
  | forward clientId msg other delivered =>
      obtain ⟨_, ⟨⟩⟩ := Option.ite_none_right_eq_some.mp h
      have hupdate : Function.update s.drawn other (s.drawn other + 1) route ≤
          s.drawn route + 1 := by
        rw [Function.update_apply]
        split
        · next heq => rw [heq]
        · omega
      rcases forward_eq s clientId msg other delivered with hf | hf <;> rw [hf] <;> exact hupdate
  | record =>
      obtain ⟨recording, _, rfl⟩ := Option.map_eq_some_iff.mp h
      exact Nat.le_succ _
  | reply id msg =>
      cases hc : s.calls id with
      | none => simp [step, hc] at h
      | some call =>
          simp only [step, hc] at h
          obtain ⟨_, ⟨⟩⟩ := Option.ite_none_right_eq_some.mp h
          exact Nat.le_succ _
  | recv other =>
      obtain ⟨_, h⟩ := Option.ite_none_right_eq_some.mp h
      cases hstream : s.arrivals other with
      | nil => simp [hstream] at h
      | cons arrival rest =>
          simp only [hstream] at h
          cases h
          exact Nat.le_succ _
  | ownReply other serial msg =>
      obtain ⟨_, ⟨⟩⟩ := Option.ite_none_right_eq_some.mp h
      exact Nat.le_succ _
  | tick =>
      obtain ⟨_, ⟨⟩⟩ := Option.ite_none_right_eq_some.mp h
      exact Nat.le_succ _
  | ownCall other serial =>
      cases h
      exact Nat.le_succ _
  | elapse duration =>
      cases h
      exact Nat.le_succ _

end System

/-! ## History and router agree -/

/-- What holds in every run, whatever the buses send and however long it takes. -/
structure Wf (s : System) : Prop where
  numbered : ∀ route, (s.router.connectionFor route).serialGen = .drawn (s.drawn route)
  call_serial : ∀ id call, s.calls id = some call →
    id.index < s.drawn id.route ∧ call.forwardedSerial = serialOf id.index
  recording_call : ∀ recording, s.recording = some recording →
    ∃ call, s.calls recording.id = some call ∧ call.recorded = false ∧
      recording.call =
        ⟨call.clientId, call.clientSerial, recording.id.route, call.forwardedSerial⟩
  unrecorded : ∀ id call, s.calls id = some call → call.recorded = false →
    call.handled = false ∧ call.expired = false ∧
      ∃ recording, s.recording = some recording ∧ recording.id = id
  handled_replied : ∀ id call, s.calls id = some call → call.handled = true →
    call.replied = true
  arrival_call : ∀ route arrival id, arrival ∈ s.arrivals route → arrival.origin = .call id →
    id.route = route ∧ ∃ call, s.calls id = some call ∧ call.replied = true ∧
      call.handled = false ∧ arrival.msg.replySerial = some call.forwardedSerial
  arrival_own : ∀ route arrival serial, arrival ∈ s.arrivals route →
    arrival.origin = .own serial → arrival.msg.replySerial = some serial
  arrival_once : ∀ route, ((s.arrivals route).filterMap (·.origin.callId?)).Nodup
  entry_call : ∀ route serial entry, s.router.pendingAt route serial = some entry →
    ∃ index call, s.calls ⟨route, index⟩ = some call ∧ call.awaiting = true ∧
      serialOf index = serial ∧ entry.clientId = call.clientId ∧
      entry.clientSerial = call.clientSerial
  outcome_call : ∀ outcome ∈ s.outcomes, ∀ id, outcome.origin = .call id →
    id.route = outcome.route ∧ ∃ call, s.calls id = some call ∧ call.handled = true
  outcome_once : (s.outcomes.filterMap (·.origin.callId?)).Nodup

theorem Origin.callId?_eq_some {origin : Origin} {id : CallId} :
    origin.callId? = some id ↔ origin = .call id := by
  cases origin <;> simp [Origin.callId?]

theorem nodup_callIds_concat {α : Type} {callId : α → Option CallId} {xs : List α} {x : α}
    (h : (xs.filterMap callId).Nodup)
    (hnew : ∀ id, callId x = some id → ∀ y ∈ xs, callId y ≠ some id) :
    ((xs ++ [x]).filterMap callId).Nodup := by
  rw [List.filterMap_append]
  cases hx : callId x with
  | none => simpa [hx] using h
  | some id =>
      refine h.append (by simp [hx]) (fun other hold hlast => ?_)
      have hid : other = id := by simpa [hx] using hlast
      rcases List.mem_filterMap.mp hold with ⟨y, hy, hother⟩
      exact hnew id hx y hy (by rw [hother, hid])

theorem wf_init (containerName hostName : Option String) (timeout : Nat) (now : Instant) :
    Wf (init containerName hostName timeout now) where
  numbered := by
    intro route
    cases route <;> rfl
  call_serial := by intro id call h; cases h
  recording_call := by intro recording h; cases h
  unrecorded := by intro id call h; cases h
  handled_replied := by intro id call h; cases h
  arrival_call := by intro route arrival id h; cases h
  arrival_own := by intro route arrival serial h; cases h
  arrival_once := by intro route; exact List.nodup_nil
  entry_call := by intro route serial entry h; cases h
  outcome_call := by intro outcome h; cases h
  outcome_once := List.nodup_nil

namespace Wf

variable {s : System}

theorem fresh (hs : Wf s) (route : Route) : s.calls ⟨route, s.drawn route⟩ = none := by
  cases h : s.calls ⟨route, s.drawn route⟩ with
  | none => rfl
  | some call =>
      have hlt := (hs.call_serial _ _ h).1
      simp at hlt

theorem call_serial_of_calls (hs : Wf s) {calls : CallId → Option Call}
    (hcalls : ∀ {id after}, calls id = some after →
      ∃ call, s.calls id = some call ∧ after.forwardedSerial = call.forwardedSerial) (id : CallId)
    (after : Call) (h : calls id = some after) :
    id.index < s.drawn id.route ∧ after.forwardedSerial = serialOf id.index := by
  obtain ⟨call, hcall, hserial⟩ := hcalls h
  rw [hserial]
  exact hs.call_serial id call hcall

theorem recorded_of_idle (hs : Wf s) (hidle : s.recording = none) {id : CallId} {call : Call}
    (h : s.calls id = some call) : call.recorded = true := by
  cases hrec : call.recorded with
  | true => rfl
  | false =>
      obtain ⟨_, _, recording, hsome, _⟩ := hs.unrecorded id call h hrec
      rw [hidle] at hsome
      cases hsome

theorem draw (hs : Wf s) (route : Route) :
    Wf { s with
      router := s.router.setConnection (s.router.connectionFor route).nextSerial.2 route
      drawn := Function.update s.drawn route (s.drawn route + 1) } where
  numbered := by
    intro other
    simp only [MessageRouter.setConnection_connectionFor]
    by_cases h : other = route
    · subst h
      simp [BusConnection.nextSerial, hs.numbered, SerialGenerator.drawn]
    · simpa [h] using hs.numbered other
  call_serial := by
    intro id call h
    obtain ⟨hlt, hserial⟩ := hs.call_serial id call h
    refine ⟨?_, hserial⟩
    simp only [Function.update_apply]
    split
    · next heq => rw [heq] at hlt; omega
    · exact hlt
  recording_call := hs.recording_call
  unrecorded := hs.unrecorded
  handled_replied := hs.handled_replied
  arrival_call := hs.arrival_call
  arrival_own := hs.arrival_own
  arrival_once := hs.arrival_once
  entry_call := by
    intro other serial entry h
    refine hs.entry_call other serial entry ?_
    simpa [MessageRouter.pendingAt] using h
  outcome_call := hs.outcome_call
  outcome_once := hs.outcome_once

theorem send (hs : Wf s) (hidle : s.recording = none) (id : CallId) (hnew : s.calls id = none)
    (hindex : id.index < s.drawn id.route) (clientId : ClientId) (clientSerial : UInt32) :
    Wf { s with
      recording := some ⟨⟨clientId, clientSerial, id.route, serialOf id.index⟩, id.index⟩
      calls := Function.update s.calls id
        (some ⟨clientId, clientSerial, serialOf id.index, false, false, false, false⟩) } := by
  have hkeep : ∀ {other : CallId} {call : Call}, s.calls other = some call →
      Function.update s.calls id
        (some ⟨clientId, clientSerial, serialOf id.index, false, false, false, false⟩) other =
        some call := by
    intro other call h
    have hne : other ≠ id := by
      intro he
      rw [he, hnew] at h
      cases h
    rw [Function.update_of_ne hne]
    exact h
  have hcases : ∀ {other : CallId} {call : Call},
      Function.update s.calls id
        (some ⟨clientId, clientSerial, serialOf id.index, false, false, false, false⟩) other =
        some call →
      (other = id ∧
        call = ⟨clientId, clientSerial, serialOf id.index, false, false, false, false⟩) ∨
      s.calls other = some call := by
    intro other call h
    by_cases he : other = id
    · rw [he, Function.update_self] at h
      cases h
      exact Or.inl ⟨he, rfl⟩
    · rw [Function.update_of_ne he] at h
      exact Or.inr h
  constructor
  case numbered =>
    exact hs.numbered
  case call_serial =>
    intro other call h
    rcases hcases h with ⟨rfl, rfl⟩ | h
    · exact ⟨hindex, rfl⟩
    · exact hs.call_serial other call h
  case recording_call =>
    intro recording h
    cases h
    exact ⟨_, Function.update_self _ _ _, rfl, rfl⟩
  case unrecorded =>
    intro other call h hrec
    rcases hcases h with ⟨rfl, rfl⟩ | h
    · exact ⟨rfl, rfl, _, rfl, rfl⟩
    · rw [hs.recorded_of_idle hidle h] at hrec
      cases hrec
  case handled_replied =>
    intro other call h hh
    rcases hcases h with ⟨rfl, rfl⟩ | h
    · cases hh
    · exact hs.handled_replied other call h hh
  case arrival_call =>
    intro route arrival other hmem horigin
    obtain ⟨hroute, call, hcall, hrest⟩ := hs.arrival_call route arrival other hmem horigin
    exact ⟨hroute, call, hkeep hcall, hrest⟩
  case arrival_own =>
    exact hs.arrival_own
  case arrival_once =>
    exact hs.arrival_once
  case entry_call =>
    intro route serial entry h
    obtain ⟨index, call, hcall, hrest⟩ := hs.entry_call route serial entry h
    exact ⟨index, call, hkeep hcall, hrest⟩
  case outcome_call =>
    intro outcome hmem other horigin
    obtain ⟨hroute, call, hcall, hh⟩ := hs.outcome_call outcome hmem other horigin
    exact ⟨hroute, call, hkeep hcall, hh⟩
  case outcome_once =>
    exact hs.outcome_once

theorem forward (hs : Wf s) (hidle : s.recording = none) (clientId : ClientId) (msg : Message)
    (route : Route) (delivered : Bool) : Wf (s.forward clientId msg route delivered) := by
  have hserial : (s.router.connectionFor route).serialGen.next.1 = serialOf (s.drawn route) := by
    rw [hs.numbered]
    rfl
  rcases System.forward_eq s clientId msg route delivered with h | h
  · rw [h]
    exact hs.draw route
  · rw [h, hserial]
    exact (hs.draw route).send hidle ⟨route, s.drawn route⟩ (hs.fresh route)
      (by simp) clientId msg.serial

theorem record (hs : Wf s) {recording : Recording} (hrec : s.recording = some recording) :
    Wf (s.record recording) := by
  obtain ⟨current, hcurrent, hnot, hcall⟩ := hs.recording_call recording hrec
  obtain ⟨hhandled, hexpired, _⟩ := hs.unrecorded _ _ hcurrent hnot
  have hserial := (hs.call_serial _ _ hcurrent).2
  have hkeep : ∀ {id : CallId} {call : Call}, s.calls id = some call →
      ∃ after, (s.record recording).calls id = some after ∧ after.clientId = call.clientId ∧
        after.clientSerial = call.clientSerial ∧ after.forwardedSerial = call.forwardedSerial ∧
        after.replied = call.replied ∧ after.handled = call.handled ∧
        after.expired = call.expired ∧ (call.recorded = true → after.recorded = true) := by
    intro id call h
    refine ⟨_, System.amend_eq_some.mpr ⟨call, h, rfl⟩, ?_⟩
    split <;> simp
  constructor
  case numbered =>
    intro route
    have hn := hs.numbered route
    cases route <;> exact hn
  case call_serial =>
    exact hs.call_serial_of_calls (System.forwardedSerial_amend (by intro _; rfl))
  case recording_call =>
    intro other h
    cases h
  case unrecorded =>
    intro id call h hno
    obtain ⟨before, hbefore, rfl⟩ := System.amend_eq_some.mp h
    exfalso
    by_cases he : id = recording.id
    · simp [he] at hno
    · simp only [if_neg he] at hno
      obtain ⟨_, _, p, hp, hid⟩ := hs.unrecorded id before hbefore hno
      rw [hrec] at hp
      cases hp
      exact he hid.symm
  case handled_replied =>
    intro id call h hh
    obtain ⟨before, hbefore, rfl⟩ := System.amend_eq_some.mp h
    have hb := hs.handled_replied id before hbefore
    split at hh <;> split <;> exact hb hh
  case arrival_call =>
    intro route arrival id hmem horigin
    obtain ⟨hroute, call, hc, hreplied, hh, hmsg⟩ :=
      hs.arrival_call route arrival id hmem horigin
    obtain ⟨after, hafter, _, _, hfs, hr, hhd, _, _⟩ := hkeep hc
    exact ⟨hroute, after, hafter, hr.trans hreplied, hhd.trans hh, by rw [hfs]; exact hmsg⟩
  case arrival_own =>
    exact hs.arrival_own
  case arrival_once =>
    exact hs.arrival_once
  case entry_call =>
    intro route serial entry h
    rw [show (s.record recording).router = s.router.recordForward s.now recording.call from rfl,
      MessageRouter.pendingAt_recordForward] at h
    split at h
    · next hkey =>
        obtain ⟨hr, hz⟩ := hkey
        cases h
        have hid : (⟨route, recording.index⟩ : CallId) = recording.id := by
          rw [hr]
          rfl
        refine ⟨recording.index, { current with recorded := true }, ?_, ?_, ?_, ?_, ?_⟩
        · rw [hid]
          exact System.amend_eq_some.mpr ⟨current, hcurrent, by simp⟩
        · simp [Call.awaiting, hhandled, hexpired]
        · rw [hz, hcall]
          exact hserial.symm
        · rw [hcall]
        · rw [hcall]
    · obtain ⟨index, call, hc, haw, hz, hcl, hcs⟩ := hs.entry_call route serial entry h
      obtain ⟨after, hafter, h1, h2, _, _, h5, h6, h7⟩ := hkeep hc
      refine ⟨index, after, hafter, ?_, hz, hcl.trans h1.symm, hcs.trans h2.symm⟩
      simp only [Call.awaiting, Bool.and_eq_true, Bool.not_eq_true'] at haw ⊢
      exact ⟨⟨h7 haw.1.1, h5.trans haw.1.2⟩, h6.trans haw.2⟩
  case outcome_call =>
    intro outcome hmem id horigin
    obtain ⟨hroute, call, hc, hh⟩ := hs.outcome_call outcome hmem id horigin
    obtain ⟨after, hafter, _, _, _, _, h5, _, _⟩ := hkeep hc
    exact ⟨hroute, after, hafter, h5.trans hh⟩
  case outcome_once =>
    exact hs.outcome_once

theorem arrive (hs : Wf s) (route : Route) (arrival : Arrival)
    (hcall : ∀ id, arrival.origin = .call id → id.route = route ∧
      ∃ call, s.calls id = some call ∧ call.replied = true ∧ call.handled = false ∧
        arrival.msg.replySerial = some call.forwardedSerial)
    (hown : ∀ serial, arrival.origin = .own serial → arrival.msg.replySerial = some serial)
    (hnew : ∀ id, arrival.origin = .call id →
      ∀ other ∈ s.arrivals route, other.origin ≠ .call id) :
    Wf { s with arrivals := s.arrive route arrival } := by
  have hmem : ∀ {other : Route} {a : Arrival}, a ∈ s.arrive route arrival other →
      a ∈ s.arrivals other ∨ (other = route ∧ a = arrival) := by
    intro other a h
    unfold System.arrive at h
    by_cases he : other = route
    · subst he
      simpa using h
    · rw [Function.update_of_ne he] at h
      exact Or.inl h
  exact { hs with
    arrival_call := by
      intro other a id h horigin
      rcases hmem h with h | ⟨rfl, rfl⟩
      · exact hs.arrival_call other a id h horigin
      · exact hcall id horigin
    arrival_own := by
      intro other a serial h horigin
      rcases hmem h with h | ⟨rfl, rfl⟩
      · exact hs.arrival_own other a serial h horigin
      · exact hown serial horigin
    arrival_once := by
      intro other
      change ((s.arrive route arrival other).filterMap (·.origin.callId?)).Nodup
      unfold System.arrive
      by_cases he : other = route
      · subst he
        rw [Function.update_self]
        refine nodup_callIds_concat (hs.arrival_once other) (fun id hid a ha hold => ?_)
        exact hnew id (Origin.callId?_eq_some.mp hid) a ha (Origin.callId?_eq_some.mp hold)
      · rw [Function.update_of_ne he]
        exact hs.arrival_once other }

theorem markReplied (hs : Wf s) (id : CallId) :
    Wf { s with calls := s.amend id (fun call => { call with replied := true }) } := by
  have hkeep : ∀ {other : CallId} {call : Call}, s.calls other = some call →
      ∃ after, s.amend id (fun call => { call with replied := true }) other = some after ∧
        (after.replied = true ∨ after.replied = call.replied) ∧
        after = { call with replied := after.replied } := by
    intro other call h
    refine ⟨_, System.amend_eq_some.mpr ⟨call, h, rfl⟩, ?_⟩
    split <;> simp
  exact { hs with
    call_serial := hs.call_serial_of_calls (System.forwardedSerial_amend (by intro _; rfl))
    recording_call := by
      intro recording h
      obtain ⟨call, hc, hrec, hcall⟩ := hs.recording_call recording h
      obtain ⟨after, hafter, _, heq⟩ := hkeep hc
      refine ⟨after, hafter, ?_, ?_⟩
      · rw [heq]
        exact hrec
      · rw [heq]
        exact hcall
    unrecorded := by
      intro other call h hrec
      obtain ⟨before, hbefore, rfl⟩ := System.amend_eq_some.mp h
      have hb : before.recorded = false := by
        split at hrec <;> exact hrec
      have hu := hs.unrecorded other before hbefore hb
      split <;> exact hu
    handled_replied := by
      intro other call h hh
      obtain ⟨before, hbefore, rfl⟩ := System.amend_eq_some.mp h
      have hb := hs.handled_replied other before hbefore
      split at hh <;> split <;> first | rfl | exact hb hh
    arrival_call := by
      intro route arrival other hmem horigin
      obtain ⟨hroute, call, hc, hreplied, hh, hmsg⟩ :=
        hs.arrival_call route arrival other hmem horigin
      obtain ⟨after, hafter, hrep, heq⟩ := hkeep hc
      refine ⟨hroute, after, hafter, ?_, ?_, ?_⟩
      · rcases hrep with h | h
        · exact h
        · exact h.trans hreplied
      · rw [heq]
        exact hh
      · rw [heq]
        exact hmsg
    entry_call := by
      intro route serial entry h
      obtain ⟨index, call, hc, haw, hz, hcl, hcs⟩ := hs.entry_call route serial entry h
      obtain ⟨after, hafter, _, heq⟩ := hkeep hc
      refine ⟨index, after, hafter, ?_, hz, ?_, ?_⟩
      · rw [heq]
        exact haw
      · rw [heq]
        exact hcl
      · rw [heq]
        exact hcs
    outcome_call := by
      intro outcome hmem other horigin
      obtain ⟨hroute, call, hc, hh⟩ := hs.outcome_call outcome hmem other horigin
      obtain ⟨after, hafter, _, heq⟩ := hkeep hc
      refine ⟨hroute, after, hafter, ?_⟩
      rw [heq]
      exact hh }

theorem pop (hs : Wf s) {route : Route} {arrival : Arrival} {rest : List Arrival}
    (hstream : s.arrivals route = arrival :: rest) :
    Wf { s with arrivals := Function.update s.arrivals route rest } := by
  have hmem : ∀ {other : Route} {a : Arrival}, a ∈ Function.update s.arrivals route rest other →
      a ∈ s.arrivals other := by
    intro other a h
    by_cases he : other = route
    · subst he
      rw [Function.update_self] at h
      rw [hstream]
      exact List.mem_cons_of_mem arrival h
    · rwa [Function.update_of_ne he] at h
  exact { hs with
    arrival_call := fun other a id h => hs.arrival_call other a id (hmem h)
    arrival_own := fun other a serial h => hs.arrival_own other a serial (hmem h)
    arrival_once := by
      intro other
      by_cases he : other = route
      · subst he
        have hnodup := hs.arrival_once other
        rw [hstream] at hnodup
        simp only [Function.update_self]
        exact hnodup.sublist (List.Sublist.filterMap _ (List.sublist_cons_self arrival rest))
      · simp only [Function.update_of_ne he]
        exact hs.arrival_once other }

theorem answer (hs : Wf s) {id : CallId} {call : Call} {msg : Message}
    (hidle : s.recording = none) (hcall : s.calls id = some call)
    (hreplied : call.replied = true) (hopen : call.handled = false)
    (hmsg : msg.replySerial = some call.forwardedSerial)
    (hgone : ∀ route, ∀ a ∈ s.arrivals route, a.origin ≠ .call id) :
    Wf { s with
      router := (s.router.handleReply msg id.route).2
      calls := s.handled (.call id)
      outcomes := s.outcomes ++ [⟨id.route, .call id, (s.router.handleReply msg id.route).1⟩] } := by
  have hserial := (hs.call_serial id call hcall).2
  have hother : ∀ {other : CallId} {c : Call}, other ≠ id → s.calls other = some c →
      s.handled (.call id) other = some c := by
    intro other c hne h
    exact System.amend_eq_some.mpr ⟨c, h, by simp [hne]⟩
  have hself : s.handled (.call id) id = some { call with handled := true } :=
    System.amend_eq_some.mpr ⟨call, hcall, by simp⟩
  have hnot : ∀ outcome ∈ s.outcomes, outcome.origin ≠ .call id := by
    intro outcome hmem horigin
    obtain ⟨_, c, hc, hh⟩ := hs.outcome_call outcome hmem id horigin
    rw [hcall] at hc
    cases hc
    rw [hopen] at hh
    cases hh
  constructor
  case numbered =>
    intro route
    simpa using hs.numbered route
  case call_serial =>
    exact hs.call_serial_of_calls (System.forwardedSerial_amend (by intro _; rfl))
  case recording_call =>
    intro recording h
    change s.recording = some recording at h
    rw [hidle] at h
    cases h
  case unrecorded =>
    intro other c h hrec
    obtain ⟨before, hbefore, rfl⟩ := System.amend_eq_some.mp h
    have hb : before.recorded = false := by
      split at hrec <;> exact hrec
    rw [hs.recorded_of_idle hidle hbefore] at hb
    cases hb
  case handled_replied =>
    intro other c h hh
    by_cases he : other = id
    · subst he
      cases hself.symm.trans h
      exact hreplied
    · obtain ⟨before, hbefore, rfl⟩ := System.amend_eq_some.mp h
      simp only [if_neg he] at hh ⊢
      exact hs.handled_replied other before hbefore hh
  case arrival_call =>
    intro route a other hmem horigin
    obtain ⟨hroute, c, hc, hrest⟩ := hs.arrival_call route a other hmem horigin
    have hne : other ≠ id := by
      intro he
      exact hgone route a hmem (by rw [horigin, he])
    exact ⟨hroute, c, hother hne hc, hrest⟩
  case arrival_own =>
    exact hs.arrival_own
  case arrival_once =>
    exact hs.arrival_once
  case entry_call =>
    intro route serial entry h
    rw [MessageRouter.pendingAt_handleReply hmsg] at h
    split at h
    · cases h
    · next hkey =>
        obtain ⟨index, c, hc, haw, hz, hinfo⟩ := hs.entry_call route serial entry h
        have hne : (⟨route, index⟩ : CallId) ≠ id := by
          intro he
          apply hkey
          subst he
          exact ⟨rfl, by rw [hserial]; exact hz.symm⟩
        exact ⟨index, c, hother hne hc, haw, hz, hinfo⟩
  case outcome_call =>
    intro outcome hmem other horigin
    rcases List.mem_append.mp hmem with hold | hnew
    · obtain ⟨hroute, c, hc, hh⟩ := hs.outcome_call outcome hold other horigin
      have hne : other ≠ id := by
        intro he
        exact hnot outcome hold (by rw [horigin, he])
      exact ⟨hroute, c, hother hne hc, hh⟩
    · have ho := List.mem_singleton.mp hnew
      subst ho
      cases horigin
      exact ⟨rfl, _, hself, rfl⟩
  case outcome_once =>
    refine nodup_callIds_concat hs.outcome_once (fun other hother outcome hmem hold => ?_)
    cases hother
    exact hnot outcome hmem (Origin.callId?_eq_some.mp hold)

theorem answerOwn (hs : Wf s) {serial : UInt32} {msg : Message}
    (hmsg : msg.replySerial = some serial) (route : Route) :
    Wf { s with
      router := (s.router.handleReply msg route).2
      outcomes := s.outcomes ++ [⟨route, .own serial, (s.router.handleReply msg route).1⟩] } := by
  exact { hs with
    numbered := by
      intro other
      simpa using hs.numbered other
    entry_call := by
      intro other z entry h
      rw [MessageRouter.pendingAt_handleReply hmsg] at h
      split at h
      · cases h
      · exact hs.entry_call other z entry h
    outcome_call := by
      intro outcome hmem id horigin
      rcases List.mem_append.mp hmem with hold | hnew
      · exact hs.outcome_call outcome hold id horigin
      · have ho := List.mem_singleton.mp hnew
        subst ho
        cases horigin
    outcome_once := by
      simpa [Origin.callId?] using hs.outcome_once }

theorem recv (hs : Wf s) (hidle : s.recording = none) {route : Route} {arrival : Arrival}
    {rest : List Arrival} (hstream : s.arrivals route = arrival :: rest) :
    Wf (s.recv route arrival rest) := by
  have hmem : arrival ∈ s.arrivals route := by
    rw [hstream]
    exact List.mem_cons_self
  have hpop := hs.pop hstream
  cases ho : arrival.origin with
  | own serial =>
      have h := hpop.answerOwn (hs.arrival_own route arrival serial hmem ho) route
      unfold System.recv
      rw [ho]
      exact h
  | call id =>
      obtain ⟨hroute, call, hcall, hrep, hopen, hmsg⟩ := hs.arrival_call route arrival id hmem ho
      have hgone : ∀ other, ∀ a ∈ Function.update s.arrivals route rest other,
          a.origin ≠ .call id := by
        intro other a ha horigin
        have hr := (hpop.arrival_call other a id ha horigin).1
        have hor : other = route := hr.symm.trans hroute
        subst hor
        have hnodup := hs.arrival_once other
        rw [hstream, List.filterMap_cons] at hnodup
        simp only [ho, Origin.callId?] at hnodup
        rw [Function.update_self] at ha
        apply (List.nodup_cons.mp hnodup).1
        exact List.mem_filterMap.mpr ⟨a, ha, by simp [horigin]⟩
      have h := hpop.answer hidle hcall hrep hopen hmsg hgone
      unfold System.recv
      rw [ho, ← hroute]
      rw [← hroute] at h
      exact h

theorem tick (hs : Wf s) (hidle : s.recording = none) : Wf s.tick := by
  have hcalls : ∀ {id : CallId} {after : Call}, s.tick.calls id = some after →
      ∃ call, s.calls id = some call ∧ after.forwardedSerial = call.forwardedSerial ∧
        after.recorded = call.recorded := by
    intro id after h
    obtain ⟨call, hcall, rfl⟩ := Option.map_eq_some_iff.mp h
    refine ⟨call, hcall, ?_⟩
    split <;> simp
  have hkeep : ∀ {id : CallId} {call : Call}, s.calls id = some call →
      ∃ after, s.tick.calls id = some after ∧ after.replied = call.replied ∧
        after.handled = call.handled ∧ after.forwardedSerial = call.forwardedSerial := by
    intro id call h
    refine ⟨_, Option.map_eq_some_iff.mpr ⟨call, h, rfl⟩, ?_⟩
    split <;> simp
  exact { hs with
    numbered := by
      intro route
      have hn := hs.numbered route
      cases route <;> exact hn
    call_serial := hs.call_serial_of_calls (fun h => by
      obtain ⟨call, hcall, hserial, _⟩ := hcalls h
      exact ⟨call, hcall, hserial⟩)
    recording_call := by
      intro recording h
      change s.recording = some recording at h
      rw [hidle] at h
      cases h
    unrecorded := by
      intro id after h hrec
      obtain ⟨call, hcall, _, hr⟩ := hcalls h
      rw [hr, hs.recorded_of_idle hidle hcall] at hrec
      cases hrec
    handled_replied := by
      intro id after h hh
      obtain ⟨call, hcall, rfl⟩ := Option.map_eq_some_iff.mp h
      have hb := hs.handled_replied id call hcall
      split at hh <;> split <;> exact hb hh
    arrival_call := by
      intro route arrival id hmem horigin
      obtain ⟨hroute, call, hc, hreplied, hh, hmsg⟩ :=
        hs.arrival_call route arrival id hmem horigin
      obtain ⟨after, hafter, h1, h2, h3⟩ := hkeep hc
      exact ⟨hroute, after, hafter, h1.trans hreplied, h2.trans hh, by rw [h3]; exact hmsg⟩
    entry_call := by
      intro route serial entry h
      have hafter : (s.router.cleanupExpired s.now).2.pendingAt route serial = some entry := h
      have hbefore : s.router.pendingAt route serial = some entry := by
        rw [MessageRouter.pendingAt_cleanupExpired] at hafter
        exact (Option.filter_eq_some_iff.mp hafter).1
      obtain ⟨index, call, hc, haw, hz, hinfo⟩ := hs.entry_call route serial entry hbefore
      have hkept :
          System.removedBy s.router (s.router.cleanupExpired s.now).2 ⟨route, index⟩ call =
            false := by
        have hfs := (hs.call_serial _ _ hc).2
        simp only [System.removedBy]
        rw [hfs, hz, hafter]
        simp
      refine ⟨index, call, ?_, haw, hz, hinfo⟩
      exact Option.map_eq_some_iff.mpr ⟨call, hc, if_neg (by simpa using hkept)⟩
    outcome_call := by
      intro outcome hmem id horigin
      obtain ⟨hroute, call, hc, hh⟩ := hs.outcome_call outcome hmem id horigin
      obtain ⟨after, hafter, _, h2, _⟩ := hkeep hc
      exact ⟨hroute, after, hafter, h2.trans hh⟩ }

end Wf

theorem wf_step {s t : System} {e : Event} (hs : Wf s) (h : s.step e = some t) : Wf t := by
  cases e with
  | forward clientId msg route delivered =>
      obtain ⟨hidle, ⟨⟩⟩ := Option.ite_none_right_eq_some.mp h
      exact hs.forward hidle clientId msg route delivered
  | record =>
      obtain ⟨recording, hrec, rfl⟩ := Option.map_eq_some_iff.mp h
      exact hs.record hrec
  | reply id msg =>
      cases hc : s.calls id with
      | none => simp [System.step, hc] at h
      | some call =>
          simp only [System.step, hc] at h
          obtain ⟨⟨hreplied, hmsg⟩, ⟨⟩⟩ := Option.ite_none_right_eq_some.mp h
          have hopen : call.handled = false := by
            cases hh : call.handled with
            | false => rfl
            | true => exact absurd (hs.handled_replied id call hc hh) (by simp [hreplied])
          have hmark := hs.markReplied id
          refine hmark.arrive _ _ ?_ ?_ ?_
          · rintro other ⟨⟩
            exact ⟨rfl, { call with replied := true },
              System.amend_eq_some.mpr ⟨call, hc, by simp⟩, rfl, hopen, hmsg⟩
          · intro serial ho
            cases ho
          · rintro other ⟨⟩ a ha horigin
            obtain ⟨_, c, hc', hrep, _⟩ := hs.arrival_call _ a id ha horigin
            rw [hc] at hc'
            cases hc'
            rw [hreplied] at hrep
            cases hrep
  | ownCall route serial =>
      cases h
      exact { hs with }
  | ownReply route serial msg =>
      obtain ⟨⟨_, hmsg⟩, ⟨⟩⟩ := Option.ite_none_right_eq_some.mp h
      have harrive := hs.arrive route ⟨.own serial, msg⟩
        (by intro id ho; cases ho) (by rintro z ⟨⟩; exact hmsg) (by intro id ho; cases ho)
      exact { harrive with }
  | recv route =>
      obtain ⟨hidle, h⟩ := Option.ite_none_right_eq_some.mp h
      cases hstream : s.arrivals route with
      | nil => simp [hstream] at h
      | cons arrival rest =>
          simp only [hstream] at h
          cases h
          exact hs.recv hidle hstream
  | tick =>
      obtain ⟨hidle, ⟨⟩⟩ := Option.ite_none_right_eq_some.mp h
      exact hs.tick hidle
  | elapse duration =>
      cases h
      exact { hs with }

end KapsuleDbusMux.Correlation
