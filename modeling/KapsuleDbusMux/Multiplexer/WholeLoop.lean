import KapsuleDbusMux.Matching.Relay
import KapsuleDbusMux.Multiplexer.Refinement
import KapsuleDbusMux.Names.Presence

/-! # The state of the main loop

What the two refinements give in every state of the main loop with whole handlers, under
the restrictions that `Multiplexer.System` puts on the buses. One thing comes in addition to
what holds of all interleavings: a request that is handled in one go reaches the queue while
its client is still there, so a client in a queue is connected or its cleanup has still to
take it out.
-/

namespace KapsuleDbusMux

namespace NameState

variable {n m : NameState}

/-! ## A handler left alone is in time -/

/-- A request that is under way to the queue is one of a connected client. -/
def Ready (n : NameState) : Prop :=
  ∀ clientId name flags uniqueName, n.main = .requestQueue clientId name flags uniqueName →
    clientId ∈ n.clients

theorem ready_of_idle (hidle : n.main = .idle) : n.Ready := by
  intro clientId name flags uniqueName hmain
  rw [hidle] at hmain
  cases hmain

theorem ready_resume {answered : Bool} (hstep : n.resume answered = some m) : m.Ready := by
  intro clientId name flags uniqueName hmain
  cases resume_stepped hstep with
  | requestQueue =>
      dsimp only at hmain
      split at hmain
      · cases hmain
      · cases hmain
  | _ => cases hmain

theorem ready_step {e : NameEvent} (hidle : n.main = .idle) (hstep : n.step e = some m) :
    m.Ready := by
  cases step_stepped hstep with
  | requestName clientId name flags info _ hl =>
      intro c name' flags' uniqueName hmain
      cases hmain
      exact AList.lookup_isSome.mp (by rw [hl]; rfl)
  | releaseName clientId name =>
      intro c name' flags uniqueName hmain
      simp only [handleReleaseName, MainTask.ofRelease] at hmain
      split at hmain
      · cases hmain
      · split at hmain
        · cases hmain
        · cases hmain
  | resume answered _ hresume => exact ready_resume hresume
  | cleanUp clientId answered cleanup _ _ hclean =>
      exact ready_of_idle ((cleanUp_frame hclean).2.1.trans hidle)
  | connect | ignored | nameOwnerChanged | disconnect | removeFromQueues =>
      exact ready_of_idle hidle

theorem Ready.inTime (h : n.Ready) (e : NameEvent) : InTime n e := by
  unfold InTime
  split
  · split
    · next hmain => exact Or.inl (h _ _ _ _ hmain)
    · trivial
  · trivial

theorem Ready.along {events : List NameEvent} (h : n.Ready)
    (hresumes : events.all NameEvent.isResume = true) : Trace.Along step InTime n events := by
  induction events generalizing n with
  | nil => trivial
  | cons e events ih =>
      rw [List.all_cons, Bool.and_eq_true] at hresumes
      refine ⟨h.inTime e, fun m hstep => ih ?_ hresumes.2⟩
      cases e with
      | resume answered => exact ready_resume hstep
      | _ => cases hresumes.1

/-- What happens in one go happens in time. -/
theorem InOneGo.present (h : n.InOneGo m) (hidle : n.main = .idle) (hwf : n.Wf)
    (hpresent : n.Present) : m.Wf ∧ m.Present := by
  obtain ⟨events, hresumes, hrun⟩ := h
  have htime : Trace.Along step InTime n events := by
    cases events with
    | nil => trivial
    | cons e events =>
        refine ⟨(ready_of_idle hidle).inTime e, fun m hstep => ?_⟩
        exact (ready_step hidle hstep).along hresumes
  exact Trace.invariant_of_along (I := fun n => n.Wf ∧ n.Present)
    (fun n e m hn he hm => ⟨step_wf hn.1 hm, step_present hn.1 hn.2 he hm⟩) ⟨hwf, hpresent⟩ htime
    hrun

end NameState

/-! ## Every state of the main loop -/

namespace System

open MatchAccounting (buses)

/-- What holds between two handlers of the main loop. The rules in `subscribed` are those
whose last call on a bus was `AddMatch`. -/
structure Sound (s : System) : Prop where
  named : s.mux.clients.Named
  queues : s.mux.nameQueue.Named
  present : ∀ name, ∀ entry ∈ s.mux.nameQueue.members name, entry.clientId ∈ s.mux.clients ∨
    ∃ cleanup, s.cleanups.lookup entry.clientId = some cleanup ∧ cleanup.phase = .queue
  gone : ∀ clientId ∈ s.cleanups, clientId ∉ s.mux.clients
  subscribed : ∀ clientId info rule, s.mux.clients.lookup clientId = some info →
    info.matchRules.holds rule = true → ∀ bus ∈ buses, (bus, rule) ∈ s.subscribed
  counted : ∀ bus rule, (bus, rule) ∈ s.subscribed ↔ 0 < s.mux.matchRuleRefcount.count bus rule

variable {s t : System} {mux : MuxState} {bus : ContainerBus} {events : List Event}

theorem mem_names {clientId : ClientId} :
    clientId ∈ s.names.clients ↔ clientId ∈ s.mux.clients := by
  rw [← AList.lookup_isSome, ← AList.lookup_isSome]
  show (s.mux.clients.nameView.lookup clientId).isSome = true ↔ _
  rw [Clients.lookup_nameView, Option.isSome_map]

theorem run_present (hrun : Trace.run step (initial mux bus) events = some t) :
    t.names.Wf ∧ t.names.Present := by
  have hinitial : (initial mux bus).names.Wf ∧ (initial mux bus).names.Present :=
    ⟨NameState.wf_initial mux.routingTable bus, fun _ _ he => by cases he⟩
  exact Trace.invariant_of_run (I := fun s : System => s.names.Wf ∧ s.names.Present)
    (fun s e t hs hstep => (names_step hstep).present rfl hs.1 hs.2) hinitial hrun

/-- In every state of every run in which no cleanup falls into the middle of a handler, the
container bus grants names or fails, and the changes of names that are announced are those of
the multiplexer's own. -/
theorem whole_loop_sound (hrun : Trace.run step (initial mux bus) events = some t) : t.Sound := by
  obtain ⟨hwf, hpresent⟩ := run_present hrun
  obtain ⟨ruleEvents, m, hrules, hshows⟩ :=
    Trace.refines_of_step (fun s e t m h hstep => h.step hstep) (shows_initial mux bus) hrun
  have hrulesWf : m.Wf := Trace.invariant_of_run
    (fun s e t hs ht => MatchAccounting.step_wf hs ht) MatchAccounting.wf_initial hrules
  refine ⟨?_, hwf.queue, ?_, ?_, ?_, ?_⟩
  · intro clientId info hl
    exact hwf.clients clientId info.nameOnly (lookup_names hl)
  · intro name entry hentry
    rcases hpresent name entry hentry with hclient | hbefore
    · exact Or.inl (mem_names.mp hclient)
    · obtain ⟨cleanup, hl, hphase⟩ := (Option.any_eq_true _ _).mp hbefore
      exact Or.inr ⟨cleanup, hl, of_decide_eq_true hphase⟩
  · intro clientId hcleanup hclient
    exact hwf.gone clientId hcleanup (mem_names.mpr hclient)
  · intro clientId info rule hl hholds bus hbus
    have hview := hshows.clients clientId
    unfold Clients.rulesOf at hview
    rw [hl, Option.map_some] at hview
    obtain ⟨info', hl', hsame⟩ := Option.map_eq_some_iff.mp hview
    have hmem := MatchAccounting.subscribed_of_holds hrules hshows.idle hl'
      (by rw [hsame]; exact hholds) hbus
    rw [hshows.references] at hmem
    exact hmem
  · intro bus rule
    have hagrees := hrulesWf.agrees bus rule
    rw [hshows.references] at hagrees
    exact hagrees

theorem whole_loop_sound_handover :
    ∃ t, Trace.run step (initial MuxState.oneClient startingBus) handover = some t ∧
      t.mux.nameQueue.listQueuedOwners "org.a" = [":mux.2"] ∧ 1 ∈ t.cleanups ∧ t.Sound := by
  have heval : (Trace.run step (initial MuxState.oneClient startingBus) handover).any
      (fun t => decide (t.mux.nameQueue.listQueuedOwners "org.a" = [":mux.2"] ∧
        1 ∈ t.cleanups)) = true := by
    decide
  obtain ⟨t, hrun, howners, hcleanup⟩ := Trace.exists_of_eval heval
  exact ⟨t, hrun, howners, hcleanup, whole_loop_sound hrun⟩

end System

end KapsuleDbusMux
