import KapsuleDbusMux.Multiplexer.BusAnswer
import KapsuleDbusMux.Multiplexer.NameView

/-! # Whole handlers are cut handlers left alone

The accounting of match rules is the other view of the system: a message that adds or
removes a rule is the two halves of its handler. Together, every run of the main loop
with whole handlers is a run of the name handlers and a run of the match rule handlers,
cut at their await points.
-/

namespace KapsuleDbusMux

open MatchAccounting (References)

namespace Clients

variable (clients : Clients) (clientId : ClientId)

/-- What match rule handlers see of a client. -/
def rulesOf : Option ClientMatchRules := (clients.lookup clientId).map ClientInfo.matchRules

theorem rulesOf_silent : clients.silent.rulesOf clientId = clients.rulesOf clientId := by
  unfold rulesOf silent
  rw [AList.lookup_mapValues, Option.map_map]
  rfl

theorem rulesOf_updateOwned (f : Finset String → Finset String) (c : ClientId) :
    (clients.updateOwned clientId f).rulesOf c = clients.rulesOf c := by
  unfold rulesOf
  rw [lookup_updateOwned]
  split
  · rw [Option.map_map]
    rfl
  · rfl

theorem rulesOf_updateRules (f : ClientMatchRules → ClientMatchRules) (c : ClientId) :
    (clients.updateRules clientId f).rulesOf c =
      if c = clientId then (clients.rulesOf c).map f else clients.rulesOf c := by
  unfold rulesOf updateRules
  rw [AList.lookup_modify]
  split
  · rw [Option.map_map, Option.map_map]
    rfl
  · rfl

theorem rulesOf_insert (info : ClientInfo) (c : ClientId) :
    Clients.rulesOf (clients.insert clientId info) c =
      if c = clientId then some info.matchRules else clients.rulesOf c := by
  unfold rulesOf
  rw [AList.lookup_insert_if]
  split <;> rfl

theorem rulesOf_putBack {info : ClientInfo} (hl : clients.lookup clientId = some info)
    (f : ClientMatchRules → ClientMatchRules) (c : ClientId) :
    Clients.rulesOf (clients.insert clientId { info with matchRules := f info.matchRules }) c =
      (clients.updateRules clientId f).rulesOf c := by
  rw [rulesOf_insert, rulesOf_updateRules]
  split
  · next hc =>
      subst hc
      simp [rulesOf, hl]
  · rfl

theorem rulesOf_erase (c : ClientId) :
    Clients.rulesOf (clients.erase clientId) c =
      if c = clientId then none else clients.rulesOf c := by
  unfold rulesOf
  rw [AList.lookup_erase_if]
  split <;> rfl

end Clients

/-! ## What name handlers leave alone -/

namespace MuxState

/-- The rules of the clients, and the references to them. -/
def ruling (s : MuxState) : MatchRuleRefCount × (ClientId → Option ClientMatchRules) :=
  (s.matchRuleRefcount, fun c => s.clients.rulesOf c)

theorem ruling_of_silent {s t : MuxState} (hrefs : t.matchRuleRefcount = s.matchRuleRefcount)
    (hclients : t.clients.silent = s.clients.silent) : t.ruling = s.ruling := by
  unfold ruling
  rw [hrefs, Prod.mk.injEq]
  refine ⟨rfl, funext (fun c => ?_)⟩
  rw [← Clients.rulesOf_silent, hclients, Clients.rulesOf_silent]

theorem ruling_of_core {s t : MuxState} (hcore : t.core = s.core) : t.ruling = s.ruling := by
  unfold core at hcore
  simp only [Prod.mk.injEq] at hcore
  exact ruling_of_silent hcore.2.2.1 hcore.2.2.2

variable (env : Environment) (s : MuxState) (clientId : ClientId) (msg : Message)

@[simp] theorem ruling_sendReplyToClient (body : ReplyBody) :
    (s.sendReplyToClient env clientId msg body).ruling = s.ruling :=
  ruling_of_core (core_sendReplyToClient env s clientId msg body)

@[simp] theorem ruling_sendErrorToClient (e : DriverError) :
    (s.sendErrorToClient env clientId msg e).ruling = s.ruling :=
  ruling_of_core (core_sendErrorToClient env s clientId msg e)

theorem ruling_recordName (name uniqueName : String) (code : UInt32) :
    (s.recordName clientId name uniqueName code).ruling = s.ruling := by
  unfold recordName ruling
  split
  · simp only [Clients.rulesOf_updateOwned]
  · rfl

theorem ruling_handleRequestName :
    (s.handleRequestName env clientId msg).ruling = s.ruling := by
  unfold handleRequestName
  split
  · exact ruling_sendErrorToClient env s clientId msg _
  · split
    · rfl
    · dsimp only
      split
      · split
        · rw [ruling_sendReplyToClient, ruling_recordName]
          rfl
        · rw [ruling_sendErrorToClient]
          rfl
      · rw [ruling_sendReplyToClient]
        rfl

theorem ruling_handleReleaseName :
    (s.handleReleaseName env clientId msg).ruling = s.ruling := by
  unfold handleReleaseName
  split
  · exact ruling_sendErrorToClient env s clientId msg _
  · dsimp only
    rw [ruling_sendReplyToClient]
    unfold settleRelease ruling
    split
    · simp only [Clients.rulesOf_updateOwned]
    · split
      · split
        · simp only [Clients.rulesOf_updateOwned]
        · rfl
      · simp only [Clients.rulesOf_updateOwned]

end MuxState

theorem NameState.rulesOf_cleanUp {n n' : NameState} {clientId : ClientId} {cleanup : Cleanup}
    {answered : Bool} (hstep : n.cleanUp clientId cleanup answered = some n') (c : ClientId) :
    n'.clients.rulesOf c = n.clients.rulesOf c := by
  cases cleanUp_stepped hstep with
  | promoteOwned newOwnerId name rest hphase =>
      exact Clients.rulesOf_updateOwned n.clients newOwnerId _ c
  | _ => rfl

/-! ## The view of the match rule handlers -/

namespace System

variable {s t : System} {clientId : ClientId} {msg : Message} {m : MatchAccounting.State}

/-- The accounting shows the rules and the references of the system. -/
structure Shows (s : System) (m : MatchAccounting.State) : Prop where
  clients : ∀ c, m.clients.rulesOf c = s.mux.clients.rulesOf c
  references : m.references = s.references
  idle : m.handler = .idle
  cleanups : m.cleanups = s.ruleCleanups
  registered : m.registered = s.registered

theorem Shows.of_ruling (h : s.Shows m) (hruling : t.mux.ruling = s.mux.ruling)
    (hsubscribed : t.subscribed = s.subscribed) (hcleanups : t.ruleCleanups = s.ruleCleanups)
    (hregistered : t.registered = s.registered) : t.Shows m where
  clients c := (h.clients c).trans (congrFun (congrArg Prod.snd hruling) c).symm
  references := by
    have hrefs : t.mux.matchRuleRefcount = s.mux.matchRuleRefcount := congrArg Prod.fst hruling
    rw [h.references]
    unfold System.references
    rw [hrefs, hsubscribed]
  idle := h.idle
  cleanups := h.cleanups.trans hcleanups.symm
  registered := h.registered.trans hregistered.symm

theorem Shows.mayHandle (h : s.Shows m) (hmem : clientId ∈ s.registered) :
    m.mayHandle clientId := by
  refine ⟨h.idle, ?_⟩
  rw [h.registered]
  exact hmem

theorem Shows.update (h : s.Shows m) (references : References)
    {f : ClientMatchRules → ClientMatchRules} {clients : Clients}
    (hclients : ∀ c, clients.rulesOf c = (m.clients.updateRules clientId f).rulesOf c)
    (hruling : t.mux.ruling =
      (references.refs, fun c => (s.mux.clients.updateRules clientId f).rulesOf c))
    (hsubscribed : t.subscribed = references.subscribed)
    (hcleanups : t.ruleCleanups = s.ruleCleanups) (hregistered : t.registered = s.registered) :
    t.Shows { m with clients := clients, references := references, handler := .idle } where
  clients c := by
    have hrules : t.mux.clients.rulesOf c = (s.mux.clients.updateRules clientId f).rulesOf c :=
      congrFun (congrArg Prod.snd hruling) c
    rw [hrules, Clients.rulesOf_updateRules, ← h.clients, ← Clients.rulesOf_updateRules]
    exact hclients c
  references := by
    have hrefs : t.mux.matchRuleRefcount = references.refs := congrArg Prod.fst hruling
    unfold System.references
    rw [hrefs, hsubscribed]
  idle := rfl
  cleanups := h.cleanups.trans hcleanups.symm
  registered := h.registered.trans hregistered.symm

/-- A rule is added: the two halves of the handler, with nothing in between. -/
theorem Shows.addMatch (h : s.Shows m) (hmem : clientId ∈ s.registered) {env : Environment}
    {ruleString : String} (hbody : msg.body.deserializeString = some ruleString)
    (bus : ContainerBus) :
    ∃ events m', Trace.run MatchAccounting.step m events = some m' ∧ Shows { s with
      mux := s.mux.handleAddMatch env clientId msg
      bus := bus
      subscribed := s.subscribedAfter clientId (.addMatch ruleString) } m' := by
  unfold MuxState.handleAddMatch subscribedAfter
  simp only [hbody]
  cases hparse : MatchRule.parse ruleString with
  | error e =>
      refine ⟨[], m, rfl, h.of_ruling ?_ rfl rfl rfl⟩
      exact MuxState.ruling_sendErrorToClient env s.mux clientId msg _
  | ok rule =>
      refine ⟨[.addMatch clientId ruleString, .updateReferences],
        { m with
          clients := m.clients.updateRules clientId (·.add rule)
          references := s.references.add ruleString
          handler := .idle }, ?_, ?_⟩
      · simp only [Trace.run, MatchAccounting.step, h.mayHandle hmem, if_true,
          MatchAccounting.handleAddMatch, hparse, Option.bind_some, h.references]
        rfl
      · refine h.update (s.references.add ruleString) (fun c => rfl) ?_ rfl rfl rfl
        exact MuxState.ruling_sendReplyToClient env _ clientId msg _

theorem Shows.exists_info (h : s.Shows m) {info : ClientInfo}
    (hl : s.mux.clients.lookup clientId = some info) :
    ∃ shown, m.clients.lookup clientId = some shown ∧ shown.matchRules = info.matchRules := by
  have hrules := h.clients clientId
  unfold Clients.rulesOf at hrules
  rw [hl] at hrules
  exact Option.map_eq_some_iff.mp hrules

theorem Shows.removeMatch (h : s.Shows m) (hmem : clientId ∈ s.registered) {env : Environment}
    {ruleString : String} (hbody : msg.body.deserializeString = some ruleString)
    (bus : ContainerBus) :
    ∃ events m', Trace.run MatchAccounting.step m events = some m' ∧ Shows { s with
      mux := s.mux.handleRemoveMatch env clientId msg
      bus := bus
      subscribed := s.subscribedAfter clientId (.removeMatch ruleString) } m' := by
  unfold MuxState.handleRemoveMatch subscribedAfter
  simp only [hbody]
  let remove : ClientMatchRules → ClientMatchRules := fun rules => (rules.remove ruleString).2
  cases hl : s.mux.clients.lookup clientId with
  | none =>
      simp only [Option.any_none, Bool.false_eq_true, if_false]
      refine ⟨[], m, rfl, h.of_ruling ?_ rfl rfl rfl⟩
      refine (MuxState.ruling_sendErrorToClient env _ clientId msg _).trans ?_
      refine congrArg (Prod.mk s.mux.matchRuleRefcount) (funext (fun c => ?_))
      refine (Clients.rulesOf_updateRules s.mux.clients clientId remove c).trans ?_
      split
      · next hc =>
          subst hc
          simp [Clients.rulesOf, hl]
      · rfl
  | some info =>
      obtain ⟨shown, hshown, hrules⟩ := h.exists_info hl
      have hmay := h.mayHandle hmem
      have hclients := Clients.rulesOf_putBack m.clients clientId hshown remove
      simp only [Option.any_some]
      by_cases hremoved : (info.matchRules.remove ruleString).1 = true
      · rw [if_pos hremoved, if_pos hremoved]
        refine ⟨[.removeMatch clientId ruleString, .updateReferences], _, ?_,
          h.update (s.references.drop ruleString) hclients ?_ rfl rfl rfl⟩
        · rw [← hrules] at hremoved
          simp only [Trace.run, MatchAccounting.step, hmay, if_true,
            MatchAccounting.handleRemoveMatch, hshown, hremoved, Option.bind_some, h.references]
          rfl
        · exact MuxState.ruling_sendReplyToClient env _ clientId msg _
      · rw [if_neg hremoved, if_neg hremoved]
        refine ⟨[.removeMatch clientId ruleString], _, ?_,
          h.update s.references hclients ?_ rfl rfl rfl⟩
        · rw [← hrules] at hremoved
          simp only [Trace.run, MatchAccounting.step, hmay, if_true,
            MatchAccounting.handleRemoveMatch, hshown, hremoved, Option.bind_some, h.references]
          rfl
        · exact MuxState.ruling_sendErrorToClient env _ clientId msg _

theorem Shows.clientMessage (h : s.Shows m) (hmem : clientId ∈ s.registered) (env : Environment)
    (bus : ContainerBus) :
    ∃ events m', Trace.run MatchAccounting.step m events = some m' ∧ Shows { s with
      mux := s.mux.handleClientMessage env clientId msg
      bus := bus
      subscribed := s.subscribedAfter clientId msg.driverCall } m' := by
  have hhandled := MuxState.handled_handleClientMessage env s.mux clientId msg
  generalize s.mux.handleClientMessage env clientId msg = mux at hhandled ⊢
  generalize msg.driverCall = call at hhandled ⊢
  cases hhandled with
  | requestName hbody =>
      refine ⟨[], m, rfl, h.of_ruling ?_ rfl rfl rfl⟩
      exact MuxState.ruling_handleRequestName env s.mux clientId msg
  | releaseName hbody =>
      refine ⟨[], m, rfl, h.of_ruling ?_ rfl rfl rfl⟩
      exact MuxState.ruling_handleReleaseName env s.mux clientId msg
  | addMatch hbody => exact h.addMatch hmem hbody bus
  | removeMatch hbody => exact h.removeMatch hmem hbody bus
  | other hcore =>
      refine ⟨[], m, rfl, h.of_ruling ?_ rfl rfl rfl⟩
      exact MuxState.ruling_of_core hcore

theorem Shows.connect (h : s.Shows m) (hnew : clientId ∉ s.registered)
    (credentials : ClientCredentials) :
    ∃ events m', Trace.run MatchAccounting.step m events = some m' ∧ Shows { s with
      mux := { s.mux with
        clients := s.mux.clients.insert clientId (.registered clientId credentials) }
      registered := insert clientId s.registered } m' := by
  refine ⟨[.connect clientId credentials], { m with
    clients := m.clients.insert clientId (.registered clientId credentials)
    registered := insert clientId m.registered }, ?_, ?_⟩
  · have hunknown : clientId ∉ m.registered := by
      rw [h.registered]
      exact hnew
    simp only [Trace.run, MatchAccounting.step, hunknown, if_false, Option.bind_some]
  · refine ⟨fun c => ?_, h.references, h.idle, h.cleanups, ?_⟩
    · rw [Clients.rulesOf_insert, Clients.rulesOf_insert, h.clients]
    · rw [h.registered]

theorem Shows.disconnect (h : s.Shows m) {info : ClientInfo}
    (hl : s.mux.clients.lookup clientId = some info) (cleanups : AssocMap ClientId Cleanup) :
    ∃ events m', Trace.run MatchAccounting.step m events = some m' ∧ Shows { s with
      mux := { s.mux with clients := s.mux.clients.erase clientId }
      cleanups := cleanups
      ruleCleanups := s.ruleCleanups.insert clientId info.matchRules.ruleStrings } m' := by
  obtain ⟨shown, hshown, hrules⟩ := h.exists_info hl
  refine ⟨[.disconnect clientId], { m with
    clients := m.clients.erase clientId
    cleanups := m.cleanups.insert clientId shown.matchRules.ruleStrings }, ?_, ?_⟩
  · simp only [Trace.run, MatchAccounting.step, hshown, Option.bind_some]
  · refine ⟨fun c => ?_, h.references, h.idle, ?_, h.registered⟩
    · rw [Clients.rulesOf_erase, Clients.rulesOf_erase, h.clients]
    · rw [h.cleanups, hrules]

theorem Shows.step {e : Event} (h : s.Shows m) (hstep : s.step e = some t) :
    ∃ events m', Trace.run MatchAccounting.step m events = some m' ∧ t.Shows m' := by
  have hquiet : t.mux.ruling = s.mux.ruling → t.subscribed = s.subscribed →
      t.ruleCleanups = s.ruleCleanups → t.registered = s.registered →
      ∃ events m', Trace.run MatchAccounting.step m events = some m' ∧ t.Shows m' :=
    fun hruling hsubscribed hcleanups hregistered =>
      ⟨[], m, rfl, h.of_ruling hruling hsubscribed hcleanups hregistered⟩
  cases step_stepped hstep with
  | connect clientId credentials hnew => exact h.connect hnew credentials
  | clientMessage clientId msg env answered error hmem => exact h.clientMessage hmem _ _
  | busMessage route msg builder now =>
      refine hquiet ?_ rfl rfl rfl
      exact MuxState.ruling_of_silent rfl (Multiplexer.silent_handleBusMessage _ _ _ _ _)
  | nameOwnerChanged msg builder now =>
      refine hquiet ?_ rfl rfl rfl
      exact MuxState.ruling_of_silent rfl (Multiplexer.silent_handleBusMessage _ _ _ _ _)
  | cleanupTick now mux hmux =>
      cases hmux
      exact hquiet rfl rfl rfl rfl
  | disconnect clientId ownedNames info hl => exact h.disconnect hl _
  | releaseRules clientId rules hl =>
      refine ⟨[.releaseRules clientId], { m with
        references := rules.foldl References.drop m.references
        cleanups := m.cleanups.erase clientId }, ?_, ?_⟩
      · rw [← h.cleanups] at hl
        simp only [Trace.run, MatchAccounting.step, hl, Option.bind_some]
      · refine ⟨h.clients, ?_, h.idle, ?_, h.registered⟩
        · rw [h.references]
          rfl
        · rw [h.cleanups]
  | removeRequests clientId mux hmux =>
      cases hmux
      exact hquiet rfl rfl rfl rfl
  | removeFromQueues clientId results n hn =>
      cases NameState.step_stepped hn with
      | removeFromQueues _ _ cleanup _ _ _ => exact hquiet rfl rfl rfl rfl
  | cleanUp clientId answered n hn =>
      cases NameState.step_stepped hn with
      | cleanUp _ _ cleanup _ _ hclean =>
          refine hquiet (congrArg (Prod.mk _) (funext (fun c => ?_))) rfl rfl rfl
          exact NameState.rulesOf_cleanUp hclean c

theorem shows_initial (mux : MuxState) (bus : ContainerBus) : (initial mux bus).Shows {} where
  clients _ := rfl
  references := rfl
  idle := rfl
  cleanups := rfl
  registered := rfl

/-- Every run of the main loop with whole handlers, in which clients come and go, call
whatever they like and are cleaned up behind, is a run of the name handlers and a run of
the match rule handlers that are cut at their await points. The container bus grants names
or fails, and the changes of names that are announced are those of the multiplexer's own. -/
theorem whole_handlers_refine_tasks {mux : MuxState} {bus : ContainerBus} {events : List Event}
    (hrun : Trace.run System.step (initial mux bus) events = some t) :
    (∃ nameEvents, Trace.run NameState.step (.initial mux.routingTable bus) nameEvents =
        some t.names) ∧
      ∃ ruleEvents m, Trace.run MatchAccounting.step {} ruleEvents = some m ∧ t.Shows m := by
  constructor
  · obtain ⟨nameEvents, n, hnames, rfl⟩ := Trace.refines_of_step
      (R := fun (s : System) n => n = s.names) (fun s e t n hn hstep => by
        subst hn
        obtain ⟨events, _, hevents⟩ := names_step hstep
        exact ⟨events, _, hevents, rfl⟩) rfl hrun
    exact ⟨nameEvents, hnames⟩
  · exact Trace.refines_of_step (fun s e t m h hstep => h.step hstep) (shows_initial mux bus) hrun

def startingBus : ContainerBus := ⟨":1.5", by decide, ∅, []⟩

/-- A client gets a name, another one waits for it and adds a rule, and the first one goes. -/
def handover : List Event :=
  [.connect 1 ⟨1000, none, 1000⟩, .connect 2 ⟨1000, none, 1000⟩,
    .clientMessage 1 (MuxState.requestNameCall "org.a") MuxState.cooperative true "",
    .busMessage .container (Multiplexer.signalFrom "/org/freedesktop/DBus" "org.freedesktop.DBus"
      "NameOwnerChanged" [.str "org.a", .str "", .str ":1.5"])
      .unfailing 5,
    .clientMessage 2 (MuxState.requestNameCall "org.a") MuxState.cooperative true "",
    .clientMessage 2 { MuxState.callTo "org.freedesktop.DBus" "AddMatch" with
      body := ⟨[.str "member='Closed'"], true⟩ } MuxState.cooperative true "",
    .disconnect 1 ["org.a"], .removeFromQueues 1 [("org.a", some (2, ":mux.2"))],
    .cleanUp 1 true, .cleanUp 1 true]

theorem whole_handlers_refine_tasks_handover :
    ∃ t, Trace.run System.step (initial MuxState.oneClient startingBus) handover = some t ∧
      t.mux.nameQueue.getPrimaryOwner "org.a" = some (2, ":mux.2") ∧
      t.subscribed = {("container", "member='Closed'"), ("host", "member='Closed'")} ∧
      (∃ nameEvents, Trace.run NameState.step
          (.initial MuxState.oneClient.routingTable startingBus) nameEvents = some t.names) ∧
      ∃ ruleEvents m, Trace.run MatchAccounting.step {} ruleEvents = some m ∧ t.Shows m := by
  have heval : (Trace.run System.step (initial MuxState.oneClient startingBus) handover).any
      (fun t => decide (t.mux.nameQueue.getPrimaryOwner "org.a" = some (2, ":mux.2") ∧
        t.subscribed = {("container", "member='Closed'"), ("host", "member='Closed'")})) =
        true := by
    decide
  obtain ⟨t, hrun, howner, hsubscribed⟩ := Trace.exists_of_eval heval
  exact ⟨t, hrun, howner, hsubscribed, whole_handlers_refine_tasks hrun⟩

end System

end KapsuleDbusMux
