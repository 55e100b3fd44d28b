import KapsuleDbusMux.Library.Expiring
import KapsuleDbusMux.Multiplexer.RoundTrip

/-! # What the multiplexer remembers

Calls whose reply never comes and portal requests without a response are dropped by the
periodic cleanup of the main loop. Whatever clients and buses do, and however long it
runs, the multiplexer remembers no more of them than came in within the timeout before
the last cleanup, and since then.
-/

namespace KapsuleDbusMux

namespace MuxState

def calledAt : MuxEvent → Option Instant
  | .clientMessage _ msg env => if msg.isMethodCall then some env.now else none
  | _ => none

/-- The time of a reply with the handle of a portal request. -/
def handleAt : MuxEvent → Option Instant
  | .busMessage _ msg _ now => if (extractRequestHandle msg).isSome then some now else none
  | _ => none

def pendingCalls (s : MuxState) : AssocMap SerialKey PendingCall := s.router.serialMap.pending

def trackedRequests (s : MuxState) : AssocMap String PendingPortalRequest :=
  s.portalRequests.requests

variable {s t : MuxState} {e : MuxEvent}

/-! ## One event -/

theorem pendingCalls_change (hstep : s.step e = some t) :
    Expiring.Change PendingCall.timestamp (calledAt e) s.pendingCalls t.pendingCalls := by
  cases e with
  | clientMessage clientId msg env =>
      cases hstep
      by_cases hcall : msg.isMethodCall = true
      · rcases handleClientMessage_cases env s clientId hcall with hreplied | hforwarded
        · exact .of_eq (congrArg SerialMap.pending hreplied.pending)
        · obtain ⟨serial, _, hpending⟩ := hforwarded.1.copied
          exact .put _ ⟨clientId, msg.serial, env.now⟩ (by simp [calledAt, hcall]) hpending
      · rw [handleClientMessage_of_not_call env s clientId hcall]
        exact .refl _
  | busMessage route msg builder now =>
      cases hstep
      exact .dropped (fun key call hl => Multiplexer.pendingAt_of_handleBusMessage hl)
  | cleanupTick now =>
      cases hstep
      exact .of_retain (fun _ (call : PendingCall) =>
        decide (now - call.timestamp < s.router.serialMap.timeout)) s.pendingCalls
  | connect clientId credentials =>
      simp only [MuxState.step] at hstep
      split at hstep
      · cases hstep
      · cases hstep
        exact .refl _
  | _ =>
      cases hstep
      exact .refl _

theorem requests_lookupAndRemove {tracker : PortalRequestTracker} {other path : String}
    {request : PendingPortalRequest}
    (h : (tracker.lookupAndRemove other).2.requests.lookup path = some request) :
    tracker.requests.lookup path = some request := by
  unfold PortalRequestTracker.lookupAndRemove at h
  split at h
  · rw [AList.lookup_erase_if] at h
    split at h
    · cases h
    · exact h
  · exact h

theorem trackedRequests_change (hstep : s.step e = some t) :
    Expiring.Change PendingPortalRequest.timestamp (handleAt e) s.trackedRequests
      t.trackedRequests := by
  cases e with
  | clientMessage clientId msg env =>
      cases hstep
      exact .of_eq (congrArg PortalRequestTracker.requests
        (portalRequests_handleClientMessage env s clientId msg))
  | busMessage route msg builder now =>
      cases hstep
      unfold trackedRequests
      cases tracker_handleBusMessage s.toMultiplexer builder now msg route with
      | kept hsame => exact .of_eq (congrArg PortalRequestTracker.requests hsame)
      | registered path owner hhandle hregistered =>
          exact .put path ⟨owner, now⟩ (by simp [handleAt, hhandle])
            (congrArg PortalRequestTracker.requests hregistered)
      | consumed path _ _ hconsumed =>
          refine .dropped (fun other request hl => ?_)
          dsimp only at hl
          rw [hconsumed] at hl
          exact requests_lookupAndRemove hl
  | removeRequests clientId =>
      cases hstep
      exact .of_retain (fun _ (pending : PendingPortalRequest) => pending.clientId != clientId)
        s.trackedRequests
  | cleanupTick now =>
      cases hstep
      exact .of_retain (fun _ (pending : PendingPortalRequest) =>
        !decide (now - pending.timestamp ≥ s.portalRequests.timeout)) s.trackedRequests
  | connect clientId credentials =>
      simp only [MuxState.step] at hstep
      split at hstep
      · cases hstep
      · cases hstep
        exact .refl _
  | _ =>
      cases hstep
      exact .refl _

/-! ## Whole runs -/

section Runs

variable {containerName hostName : Option String} {timeout : Nat} {routing : RoutingTable}
  {guid : String} {before after : List MuxEvent} {now : Instant}

theorem young_of_tick {m n : MuxState}
    (hm : Trace.run step (initial containerName hostName timeout routing guid) before = some m)
    (hn : m.step (.cleanupTick now) = some n) :
    (∀ key call, n.pendingCalls.lookup key = some call → now - call.timestamp < timeout) ∧
      ∀ path request, n.trackedRequests.lookup path = some request →
        now - request.timestamp < PortalRequestTracker.new.timeout := by
  have htimeout : m.router.serialMap.timeout = timeout :=
    Trace.invariant_of_run (I := fun s => s.router.serialMap.timeout = timeout)
      (fun _ _ _ hs hstep => (step_timeout hstep).trans hs) rfl hm
  have hportal := portalTimeout_of_run hm
  cases hn
  constructor
  · intro key call hl
    have hkept := m.router.serialMap.lookup_cleanupExpired now key
    have hyoung := (Option.filter_eq_some_iff.mp (hkept.symm.trans hl)).2
    rw [htimeout] at hyoung
    exact of_decide_eq_true hyoung
  · intro path request hl
    have hkept := AList.lookup_retain (fun _ (pending : PendingPortalRequest) =>
      !decide (now - pending.timestamp ≥ m.portalRequests.timeout)) m.portalRequests.requests path
    have hyoung := (Option.filter_eq_some_iff.mp (hkept.symm.trans hl)).2
    rw [hportal] at hyoung
    simpa using hyoung

/-- Time goes on after the last cleanup. In every run, the calls whose reply is expected are
no more than the calls that came within the timeout before that cleanup or after it,
and the portal requests are no more than the handles that came within five minutes
before it or after it. -/
theorem memory_bounded (htimeout : 0 < timeout)
    (hclock : ∀ e ∈ after, ∀ i, calledAt e = some i ∨ handleAt e = some i → now ≤ i)
    (hrun : Trace.run step (initial containerName hostName timeout routing guid)
      (before ++ .cleanupTick now :: after) = some t) :
    t.router.serialMap.pending.entries.length ≤
        (before ++ after).countP
          (fun e => (calledAt e).any (fun i => decide (now - i < timeout))) ∧
      t.portalRequests.requests.entries.length ≤
        (before ++ after).countP
          (fun e => (handleAt e).any
            (fun i => decide (now - i < PortalRequestTracker.new.timeout))) := by
  constructor
  · exact Expiring.length_le_recent pendingCalls calledAt (fun _ _ _ => pendingCalls_change) rfl rfl
      (fun m n hm hn => (young_of_tick hm hn).1) htimeout
      (fun e he i hi => hclock e he i (Or.inl hi)) hrun
  · exact Expiring.length_le_recent trackedRequests handleAt (fun _ _ _ => trackedRequests_change)
      rfl rfl (fun m n hm hn => (young_of_tick hm hn).2) (by decide)
      (fun e he i hi => hclock e he i (Or.inr hi)) hrun

end Runs

def twoCalls : List MuxEvent :=
  [.connect 1 ⟨1000, none, 1000⟩, .clientMessage 1 (callTo "org.a" "Run") cooperative,
    .cleanupTick 40, .clientMessage 1 (callTo "org.a" "Run") { cooperative with now := 50 }]

/-- Both have been forwarded, and the first one has been forgotten. -/
theorem memory_bounded_twoCalls :
    ∃ t, Trace.run step (initial (some ":1.5") (some ":1.88") 30 .new "0123") twoCalls = some t ∧
      t.sent.length = 2 ∧ t.router.serialMap.pending.entries.length ≤ 1 := by
  have heval : (Trace.run step (initial (some ":1.5") (some ":1.88") 30 .new "0123")
      twoCalls).any (fun t => decide (t.sent.length = 2)) = true := by
    decide
  obtain ⟨t, hrun, hsent⟩ := Trace.exists_of_eval heval
  have hsplit : twoCalls = twoCalls.take 2 ++ .cleanupTick 40 :: twoCalls.drop 3 := rfl
  have hclock : ∀ e ∈ twoCalls.drop 3, ∀ i, calledAt e = some i ∨ handleAt e = some i →
      40 ≤ i := by
    intro e he i hi
    rw [List.mem_singleton.mp he] at hi
    rcases hi with hi | hi
    · cases hi
      decide
    · cases hi
  rw [hsplit] at hrun
  have hbounded := memory_bounded (by decide) hclock hrun
  exact ⟨t, hsplit ▸ hrun, hsent, Nat.le_trans hbounded.1 (by decide)⟩

end MuxState

end KapsuleDbusMux
