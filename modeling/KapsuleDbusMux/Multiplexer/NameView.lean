import KapsuleDbusMux.Multiplexer.System

/-! # What the name handlers see

The system without the channels and the match rules of its clients. A message that asks
for a name or gives one up is a run of the critical sections of its handler, with nothing
in between; other messages change nothing here, and a step of a cleanup is a step of the
same cleanup.
-/

namespace KapsuleDbusMux

/-! ## The view of a client -/

/-- What name handlers see of a client. -/
def ClientInfo.nameOnly (info : ClientInfo) : ClientInfo :=
  { info with tx := [], matchRules := .new }

namespace Clients

def nameView (clients : Clients) : Clients := clients.mapValues (fun _ info => info.nameOnly)

variable (clients : Clients) (clientId : ClientId)

theorem nameView_silent : clients.silent.nameView = clients.nameView :=
  AList.mapValues_mapValues _ _ clients

theorem lookup_nameView (c : ClientId) :
    clients.nameView.lookup c = (clients.lookup c).map ClientInfo.nameOnly :=
  AList.lookup_mapValues _ clients c

theorem nameView_updateOwned (f : Finset String → Finset String) :
    (clients.updateOwned clientId f).nameView = clients.nameView.updateOwned clientId f := by
  refine AList.mapValues_modify (fun info => ?_) clients
  rfl

def updateRules (f : ClientMatchRules → ClientMatchRules) : Clients :=
  clients.modify clientId (fun info => { info with matchRules := f info.matchRules })

theorem nameView_updateRules (f : ClientMatchRules → ClientMatchRules) :
    (clients.updateRules clientId f).nameView = clients.nameView := by
  refine AList.mapValues_modify_of_hidden (fun info => ?_) clients
  rfl

end Clients

/-! ## Messages from the buses -/

namespace Multiplexer

variable (mux : Multiplexer) (builder : MessageBuilder) (now : Instant) (msg : Message)
  (route : Route)

theorem silent_forwardSignal :
    (mux.forwardSignal msg route).clients.silent = mux.clients.silent := by
  unfold forwardSignal Clients.silent
  rw [AList.mapValues_mapValues]
  refine AList.mapValues_congr (fun c info => ?_) mux.clients
  split <;> rfl

theorem silent_handleReplyMessage :
    (mux.handleReplyMessage builder now msg route).clients.silent = mux.clients.silent := by
  unfold handleReplyMessage
  split
  · exact Clients.silent_send mux.clients _ _
  · rfl

theorem silent_handleSignal :
    (mux.handleSignal builder msg route).clients.silent = mux.clients.silent := by
  unfold handleSignal
  split
  · exact silent_forwardSignal mux msg route
  · split
    · exact silent_forwardSignal _ msg route
    · dsimp only
      split
      · exact Clients.silent_send mux.clients _ _
      · rfl

theorem silent_handleBusMessage :
    (mux.handleBusMessage builder now msg route).clients.silent = mux.clients.silent := by
  unfold handleBusMessage
  split
  · rw [clients_handleNameOwnerChanged]
  · dsimp only
    split
    · rw [silent_handleSignal]
      split
      · exact silent_handleReplyMessage mux builder now msg route
      · rfl
    · split
      · exact silent_handleReplyMessage mux builder now msg route
      · rfl

theorem routingTable_handleSignal :
    (mux.handleSignal builder msg route).routingTable = mux.routingTable := by
  unfold handleSignal
  split
  · rfl
  · split <;> rfl

theorem routingTable_handleBusMessage (hother : msg.isNameOwnerChanged = false) :
    (mux.handleBusMessage builder now msg route).routingTable = mux.routingTable := by
  have hreply : (mux.handleReplyMessage builder now msg route).routingTable = mux.routingTable := by
    unfold handleReplyMessage
    split <;> rfl
  unfold handleBusMessage
  rw [if_neg (by simp [hother])]
  dsimp only
  split
  · rw [routingTable_handleSignal]
    split
    · exact hreply
    · rfl
  · split
    · exact hreply
    · rfl

end Multiplexer

/-! ## Handlers left alone -/

def NameEvent.isResume : NameEvent → Bool
  | .resume _ => true
  | _ => false

namespace NameState

/-- A task starts or goes on, and a handler that was started goes on to its end. -/
def InOneGo (n m : NameState) : Prop :=
  ∃ events, events.tail.all NameEvent.isResume = true ∧ Trace.run step n events = some m

theorem InOneGo.of_eq {n m : NameState} (h : m = n) : n.InOneGo m :=
  ⟨[], rfl, congrArg some h.symm⟩

theorem InOneGo.refl (n : NameState) : n.InOneGo n := .of_eq rfl

theorem InOneGo.of_step {n m : NameState} (e : NameEvent) (h : n.step e = some m) :
    n.InOneGo m :=
  ⟨[e], rfl, Trace.run_cons_eq_some.mpr ⟨m, h, rfl⟩⟩

variable {n : NameState} {clientId : ClientId} {info : ClientInfo} {name : String} {flags : UInt32}

theorem run_requestName_queued (hmay : n.mayHandle clientId)
    (hl : n.clients.lookup clientId = some info)
    (hqueued : (n.queue.requestName name clientId info.uniqueName flags).1.forwardToBus = false) :
    Trace.run step n [.requestName clientId name flags, .resume true] =
      some { n with queue := (n.queue.requestName name clientId info.uniqueName flags).2 } := by
  have hidle : n.main = .idle := hmay.1
  simp [Trace.run, step, hmay, handleRequestName, hl, resume, hqueued, hidle]

theorem run_requestName_granted (hmay : n.mayHandle clientId)
    (hl : n.clients.lookup clientId = some info)
    (hforward : (n.queue.requestName name clientId info.uniqueName flags).1.forwardToBus = true)
    (hname : isUniqueName name = false) :
    Trace.run step n [.requestName clientId name flags, .resume true, .resume true, .resume true,
        .resume true] =
      some { n with
        queue := (n.queue.requestName name clientId info.uniqueName flags).2
        bus := (n.bus.requestName name).2
        routing := n.routing.onContainerNameChange name "" info.uniqueName
        clients := n.clients.updateOwned clientId (insert name) } := by
  have hidle : n.main = .idle := hmay.1
  have hcode : (n.bus.requestName name).1 = 1 ∨ (n.bus.requestName name).1 = 4 :=
    requestName_code n.bus name
  simp [Trace.run, step, hmay, handleRequestName, hl, resume, hforward, hname, hcode, hidle]

theorem run_requestName_failed (hmay : n.mayHandle clientId)
    (hl : n.clients.lookup clientId = some info)
    (hforward : (n.queue.requestName name clientId info.uniqueName flags).1.forwardToBus = true) :
    Trace.run step n [.requestName clientId name flags, .resume true, .resume false,
        .resume false] =
      some { n with
        queue := ((n.queue.requestName name clientId info.uniqueName flags).2.releaseName name
          clientId).2 } := by
  have hidle : n.main = .idle := hmay.1
  simp [Trace.run, step, hmay, handleRequestName, hl, resume, hforward, hidle]

theorem run_releaseName_promoted (hmay : n.mayHandle clientId) {newOwner : ClientId × String}
    (hpromoted : (n.queue.releaseName name clientId).1.newOwner = some newOwner) :
    Trace.run step n [.releaseName clientId name, .resume true, .resume true] =
      some { n with
        queue := (n.queue.releaseName name clientId).2
        routing := n.routing.onContainerNameChange name "" newOwner.2
        clients := (n.clients.updateOwned clientId (·.erase name)).updateOwned newOwner.1
          (insert name) } := by
  have hidle : n.main = .idle := hmay.1
  simp [Trace.run, step, hmay, handleReleaseName, MainTask.ofRelease, hpromoted, resume, hidle]

theorem run_releaseName_released (hmay : n.mayHandle clientId)
    (hnobody : (n.queue.releaseName name clientId).1.newOwner = none)
    (hforward : (n.queue.releaseName name clientId).1.forwardToBus = true) :
    n.InOneGo { n with
      queue := (n.queue.releaseName name clientId).2
      bus := n.bus.releaseName name
      routing :=
        match n.clients.lookup clientId with
        | some info => n.routing.onContainerNameChange name info.uniqueName ""
        | none => n.routing
      clients := n.clients.updateOwned clientId (·.erase name) } := by
  have hidle : n.main = .idle := hmay.1
  cases hl : n.clients.lookup clientId with
  | none =>
      refine ⟨[.releaseName clientId name, .resume true, .resume true, .resume true], rfl, ?_⟩
      simp [Trace.run, step, hmay, handleReleaseName, MainTask.ofRelease, hnobody, hforward, resume,
        hidle, hl]
  | some info =>
      refine ⟨[.releaseName clientId name, .resume true, .resume true, .resume true,
        .resume true], rfl, ?_⟩
      simp [Trace.run, step, hmay, handleReleaseName, MainTask.ofRelease, hnobody, hforward, resume,
        hidle, hl]

theorem run_releaseName_failed (hmay : n.mayHandle clientId)
    (hnobody : (n.queue.releaseName name clientId).1.newOwner = none)
    (hforward : (n.queue.releaseName name clientId).1.forwardToBus = true) :
    Trace.run step n [.releaseName clientId name, .resume true, .resume false] =
      some { n with queue := (n.queue.releaseName name clientId).2 } := by
  have hidle : n.main = .idle := hmay.1
  simp [Trace.run, step, hmay, handleReleaseName, MainTask.ofRelease, hnobody, hforward, resume,
    hidle]

theorem run_releaseName_kept (hmay : n.mayHandle clientId)
    (hnobody : (n.queue.releaseName name clientId).1.newOwner = none)
    (hkept : (n.queue.releaseName name clientId).1.forwardToBus = false) :
    Trace.run step n [.releaseName clientId name, .resume true] =
      some { n with
        queue := (n.queue.releaseName name clientId).2
        clients := n.clients.updateOwned clientId (·.erase name) } := by
  have hidle : n.main = .idle := hmay.1
  simp [Trace.run, step, hmay, handleReleaseName, MainTask.ofRelease, hnobody, hkept, resume,
    hidle]

end NameState

/-! ## The view of the name handlers -/

namespace System

def names (s : System) : NameState := { s.nameState with clients := s.mux.clients.nameView }

variable {s t : System} {clientId : ClientId} {msg : Message} {env : Environment}
  {answered : Bool} {error : String}

theorem names_congr (hclients : t.mux.clients.nameView = s.mux.clients.nameView)
    (hqueue : t.mux.nameQueue = s.mux.nameQueue)
    (hrouting : t.mux.routingTable = s.mux.routingTable) (hbus : t.bus = s.bus)
    (hcleanups : t.cleanups = s.cleanups) (hregistered : t.registered = s.registered) :
    t.names = s.names := by
  unfold names nameState
  rw [hclients, hqueue, hrouting, hbus, hcleanups, hregistered]

theorem names_of_core (hcore : t.mux.core = s.mux.core) (hbus : t.bus = s.bus)
    (hcleanups : t.cleanups = s.cleanups) (hregistered : t.registered = s.registered) :
    t.names = s.names := by
  unfold MuxState.core at hcore
  simp only [Prod.mk.injEq] at hcore
  obtain ⟨hqueue, hrouting, -, hclients⟩ := hcore
  have hview : t.mux.clients.nameView = s.mux.clients.nameView := by
    rw [← Clients.nameView_silent, hclients, Clients.nameView_silent]
  exact names_congr hview hqueue hrouting hbus hcleanups hregistered

theorem names_sendReplyToClient (u : System) (env : Environment) (body : ReplyBody) :
    names { u with mux := u.mux.sendReplyToClient env clientId msg body } = u.names :=
  names_of_core (MuxState.core_sendReplyToClient env u.mux clientId msg body) rfl rfl rfl

theorem names_sendErrorToClient (u : System) (env : Environment) (e : DriverError) :
    names { u with mux := u.mux.sendErrorToClient env clientId msg e } = u.names :=
  names_of_core (MuxState.core_sendErrorToClient env u.mux clientId msg e) rfl rfl rfl

theorem mayHandle_names (hmem : clientId ∈ s.registered) : s.names.mayHandle clientId :=
  ⟨rfl, hmem⟩

theorem lookup_names {info : ClientInfo} (hl : s.mux.clients.lookup clientId = some info) :
    s.names.clients.lookup clientId = some info.nameOnly := by
  show s.mux.clients.nameView.lookup clientId = _
  rw [Clients.lookup_nameView, hl]
  rfl

section RequestName

variable {name : String} {flags : UInt32} {info : ClientInfo}
  (hbody : msg.body.deserializeStringUInt32 = some (name, flags))
  (hmem : clientId ∈ s.registered) (hl : s.mux.clients.lookup clientId = some info)
include hbody hmem hl

theorem names_requestName_queued
    (hqueued : (s.mux.nameQueue.requestName name clientId info.uniqueName flags).1.forwardToBus =
      false) :
    s.names.InOneGo (names { s with
      mux := s.mux.handleRequestName (s.bus.environment answered error env) clientId msg
      bus := s.busAfter clientId answered (.requestName name flags) }) := by
  let u : System := { s with
    mux := { s.mux with
      nameQueue := (s.mux.nameQueue.requestName name clientId info.uniqueName flags).2 } }
  have hafter : s.busAfter clientId answered (.requestName name flags) = u.bus := by
    simp only [busAfter, hl, hqueued, Bool.false_and, Bool.false_eq_true, if_false, u]
  have hmux : s.mux.handleRequestName (s.bus.environment answered error env) clientId msg =
      u.mux.sendReplyToClient (s.bus.environment answered error env) clientId msg
        (.uint32 (s.mux.nameQueue.requestName name clientId info.uniqueName
          flags).1.replyCode) := by
    simp only [MuxState.handleRequestName, hbody, hl, hqueued, Bool.false_eq_true, if_false, u]
  rw [hafter, hmux, names_sendReplyToClient u]
  exact ⟨_, rfl, (NameState.run_requestName_queued (mayHandle_names hmem) (lookup_names hl)
    hqueued).trans rfl⟩

theorem names_requestName_granted
    (hforward : (s.mux.nameQueue.requestName name clientId info.uniqueName flags).1.forwardToBus =
      true)
    (hgranted : (answered && !isUniqueName name) = true) :
    s.names.InOneGo (names { s with
      mux := s.mux.handleRequestName (s.bus.environment answered error env) clientId msg
      bus := s.busAfter clientId answered (.requestName name flags) }) := by
  let u : System := { s with
    mux := { s.mux with
      nameQueue := (s.mux.nameQueue.requestName name clientId info.uniqueName flags).2
      routingTable := s.mux.routingTable.onContainerNameChange name "" info.uniqueName
      clients := s.mux.clients.updateOwned clientId (insert name) }
    bus := (s.bus.requestName name).2 }
  have hname : isUniqueName name = false := by simpa using (Bool.and_eq_true_iff.mp hgranted).2
  have hbus : (s.bus.environment answered error env).requestName name flags =
      .ok (s.bus.requestName name).1 := if_pos hgranted
  have hafter : s.busAfter clientId answered (.requestName name flags) = u.bus := by
    simp only [busAfter, hl, hforward, hgranted, Bool.and_self, if_true, u]
  have hmux : s.mux.handleRequestName (s.bus.environment answered error env) clientId msg =
      u.mux.sendReplyToClient (s.bus.environment answered error env) clientId msg
        (.uint32 (s.mux.nameQueue.requestName name clientId info.uniqueName
          flags).1.replyCode) := by
    simp only [MuxState.handleRequestName, hbody, hl, hforward, if_true, hbus,
      MuxState.recordName, if_pos (NameState.requestName_code s.bus name), u]
  rw [hafter, hmux, names_sendReplyToClient u]
  refine ⟨_, rfl, (NameState.run_requestName_granted (mayHandle_names hmem) (lookup_names hl)
    hforward hname).trans ?_⟩
  unfold names nameState
  rw [Clients.nameView_updateOwned]
  rfl

theorem names_requestName_failed
    (hforward : (s.mux.nameQueue.requestName name clientId info.uniqueName flags).1.forwardToBus =
      true)
    (hfailed : (answered && !isUniqueName name) = false) :
    s.names.InOneGo (names { s with
      mux := s.mux.handleRequestName (s.bus.environment answered error env) clientId msg
      bus := s.busAfter clientId answered (.requestName name flags) }) := by
  let u : System := { s with
    mux := { s.mux with
      nameQueue := ((s.mux.nameQueue.requestName name clientId info.uniqueName flags).2.releaseName
        name clientId).2 } }
  have hbus : (s.bus.environment answered error env).requestName name flags = .error error :=
    if_neg (by simp [hfailed])
  have hafter : s.busAfter clientId answered (.requestName name flags) = u.bus := by
    simp only [busAfter, hl, hfailed, Bool.and_false, Bool.false_eq_true, if_false, u]
  have hmux : s.mux.handleRequestName (s.bus.environment answered error env) clientId msg =
      u.mux.sendErrorToClient (s.bus.environment answered error env) clientId msg
        ⟨ErrorNames.failed, "RequestName failed: " ++ error⟩ := by
    simp only [MuxState.handleRequestName, hbody, hl, hforward, if_true, hbus, u]
  rw [hafter, hmux, names_sendErrorToClient u]
  exact ⟨_, rfl, (NameState.run_requestName_failed (mayHandle_names hmem) (lookup_names hl)
    hforward).trans rfl⟩

end RequestName

theorem names_requestName {name : String} {flags : UInt32}
    (hbody : msg.body.deserializeStringUInt32 = some (name, flags))
    (hmem : clientId ∈ s.registered) :
    s.names.InOneGo (names { s with
      mux := s.mux.handleRequestName (s.bus.environment answered error env) clientId msg
      bus := s.busAfter clientId answered (.requestName name flags) }) := by
  cases hl : s.mux.clients.lookup clientId with
  | none =>
      simp only [MuxState.handleRequestName, hbody, hl, busAfter]
      exact .refl _
  | some info =>
      cases hforward : (s.mux.nameQueue.requestName name clientId info.uniqueName
          flags).1.forwardToBus with
      | false => exact names_requestName_queued hbody hmem hl hforward
      | true =>
          cases hgranted : answered && !isUniqueName name with
          | true => exact names_requestName_granted hbody hmem hl hforward hgranted
          | false => exact names_requestName_failed hbody hmem hl hforward hgranted

section ReleaseName

variable {name : String}

/-- What `handle_release_name` leaves before its reply, and on the bus. -/
def released (s : System) (clientId : ClientId) (name : String) (answered : Bool) (error : String)
    (env : Environment) : System :=
  { s with
    mux := MuxState.settleRelease (s.bus.environment answered error env)
      { s.mux with nameQueue := (s.mux.nameQueue.releaseName name clientId).2 } clientId name
      (s.mux.nameQueue.releaseName name clientId).1
    bus := s.busAfter clientId answered (.releaseName name) }

theorem names_released (hmem : clientId ∈ s.registered) :
    s.names.InOneGo (s.released clientId name answered error env).names := by
  have hmay := mayHandle_names hmem
  unfold released MuxState.settleRelease busAfter
  cases hpromoted : (s.mux.nameQueue.releaseName name clientId).1.newOwner with
  | some newOwner =>
      refine ⟨_, rfl, (NameState.run_releaseName_promoted hmay hpromoted).trans ?_⟩
      unfold names nameState
      simp only [hpromoted, reduceCtorEq, false_and, if_false, Clients.nameView_updateOwned]
  | none =>
      cases hforward : (s.mux.nameQueue.releaseName name clientId).1.forwardToBus with
      | false =>
          refine ⟨_, rfl, (NameState.run_releaseName_kept hmay hpromoted hforward).trans ?_⟩
          unfold names nameState
          simp only [hforward, Bool.false_eq_true, false_and, and_false, if_false,
            Clients.nameView_updateOwned]
      | true =>
          cases answered with
          | false =>
              refine ⟨_, rfl, (NameState.run_releaseName_failed hmay hpromoted hforward).trans ?_⟩
              unfold names nameState
              simp only [ContainerBus.environment, Bool.false_eq_true, and_false, if_false, if_true]
          | true =>
              obtain ⟨events, huncut, hrun⟩ :=
                NameState.run_releaseName_released hmay hpromoted hforward
              refine ⟨events, huncut, hrun.trans ?_⟩
              unfold names nameState
              simp only [hpromoted, hforward, ContainerBus.environment, and_self, if_true,
                Clients.nameView_updateOwned, Clients.lookup_nameView]
              cases s.mux.clients.lookup clientId <;> rfl

theorem names_releaseName (hbody : msg.body.deserializeString = some name)
    (hmem : clientId ∈ s.registered) :
    s.names.InOneGo (names { s with
      mux := s.mux.handleReleaseName (s.bus.environment answered error env) clientId msg
      bus := s.busAfter clientId answered (.releaseName name) }) := by
  have hmux : s.mux.handleReleaseName (s.bus.environment answered error env) clientId msg =
      (s.released clientId name answered error env).mux.sendReplyToClient
        (s.bus.environment answered error env) clientId msg
        (.uint32 (s.mux.nameQueue.releaseName name clientId).1.replyCode) := by
    simp only [MuxState.handleReleaseName, hbody]
    rfl
  rw [hmux]
  obtain ⟨events, huncut, hrun⟩ := names_released hmem
  refine ⟨events, huncut, hrun.trans (congrArg some ?_)⟩
  exact (names_sendReplyToClient (s.released clientId name answered error env) _ _).symm

end ReleaseName

theorem names_updateRules (f : ClientMatchRules → ClientMatchRules)
    (refcount : MatchRuleRefCount) :
    names { s with
      mux := { s.mux.updateRules clientId f with matchRuleRefcount := refcount } } = s.names :=
  names_congr (s := s) (Clients.nameView_updateRules s.mux.clients clientId f) rfl rfl rfl rfl rfl

theorem names_handleAddMatch (env : Environment) {ruleString : String}
    (hbody : msg.body.deserializeString = some ruleString) :
    names { s with mux := s.mux.handleAddMatch env clientId msg } = s.names := by
  unfold MuxState.handleAddMatch
  simp only [hbody]
  split
  · exact names_sendErrorToClient s env _
  · next rule _ =>
      let u : System := { s with
        mux := (s.mux.updateRules clientId (·.add rule)).addReferences ruleString }
      exact (names_sendReplyToClient u env _).trans (names_updateRules _ _)

theorem names_handleRemoveMatch (env : Environment) {ruleString : String}
    (hbody : msg.body.deserializeString = some ruleString) :
    names { s with mux := s.mux.handleRemoveMatch env clientId msg } = s.names := by
  unfold MuxState.handleRemoveMatch
  simp only [hbody]
  split
  · let u : System := { s with
      mux := (s.mux.updateRules clientId
        (fun rules => (rules.remove ruleString).2)).dropReferences ruleString }
    exact (names_sendReplyToClient u env _).trans (names_updateRules _ _)
  · let u : System := { s with
      mux := s.mux.updateRules clientId (fun rules => (rules.remove ruleString).2) }
    refine (names_sendErrorToClient u env _).trans ?_
    exact names_congr (s := s) (Clients.nameView_updateRules s.mux.clients clientId
      (fun rules => (rules.remove ruleString).2)) rfl rfl rfl rfl rfl

theorem names_clientMessage (hmem : clientId ∈ s.registered) :
    s.names.InOneGo (names { s with
      mux := s.mux.handleClientMessage (s.bus.environment answered error env) clientId msg
      bus := s.busAfter clientId answered msg.driverCall }) := by
  have hhandled := MuxState.handled_handleClientMessage (s.bus.environment answered error env)
    s.mux clientId msg
  generalize s.mux.handleClientMessage (s.bus.environment answered error env) clientId msg = mux
    at hhandled ⊢
  cases hcall : msg.driverCall with
  | requestName name flags =>
      rw [hcall] at hhandled
      cases hhandled with
      | requestName hbody => exact names_requestName hbody hmem
  | releaseName name =>
      rw [hcall] at hhandled
      cases hhandled with
      | releaseName hbody => exact names_releaseName hbody hmem
  | addMatch ruleString =>
      rw [hcall] at hhandled
      cases hhandled with
      | addMatch hbody => exact .of_eq (names_handleAddMatch _ hbody)
  | removeMatch ruleString =>
      rw [hcall] at hhandled
      cases hhandled with
      | removeMatch hbody => exact .of_eq (names_handleRemoveMatch _ hbody)
  | other =>
      rw [hcall] at hhandled
      cases hhandled with
      | other hcore =>
          exact .of_eq (names_of_core (s := s) hcore rfl rfl rfl)

end System

namespace NameState

/-- The state without the match rules and the channels of the clients. -/
def blind (n : NameState) : NameState := { n with clients := n.clients.nameView }

variable {n m : NameState} {clientId : ClientId} {answered : Bool}

theorem step_removeFromQueues_blind {results : List (String × Option (ClientId × String))}
    (hstep : n.step (.removeFromQueues clientId results) = some m) :
    n.blind.step (.removeFromQueues clientId results) = some m.blind := by
  cases step_stepped hstep with
  | removeFromQueues _ _ cleanup hl hphase hresults =>
      have hl' : n.blind.cleanups.lookup clientId = some cleanup := hl
      have hresults' : results.Perm (n.blind.queue.removeClient clientId).1 := hresults
      simp only [step, hl', if_pos (And.intro hphase hresults')]
      rfl

theorem step_cleanUp_blind (hstep : n.step (.cleanUp clientId answered) = some m) :
    n.blind.step (.cleanUp clientId answered) = some m.blind := by
  cases step_stepped hstep with
  | cleanUp _ _ cleanup _ hl hclean =>
      have hl' : n.blind.cleanups.lookup clientId = some cleanup := hl
      simp only [step, hl']
      cases cleanUp_stepped hclean with
      | promoteOwned newOwnerId name rest hphase =>
          simp only [cleanUp, hphase]
          unfold blind advance
          simp only [Clients.nameView_updateOwned]
      | resultsDone hphase | finished hphase =>
          simp only [cleanUp, hphase]
          rfl
      | promoted name newOwner rest hphase | vacated name rest hphase
      | releaseBus name rest hphase | nextName name rest hphase
      | ownedRouting name rest hphase | ownedBus name rest hphase =>
          simp only [cleanUp, hphase]
          rfl

end NameState

namespace System

variable {s t : System} {e : Event}

theorem names_putNames {n : NameState} (hmain : n.main = .idle)
    (hregistered : n.registered = s.registered) : (s.putNames n).names = n.blind := by
  unfold names nameState putNames NameState.blind
  cases n
  cases hmain
  cases hregistered
  rfl

theorem core_busMessage {route : Route} {msg : Message} (hother : msg.isNameOwnerChanged = false)
    (mux : MuxState) (builder : MessageBuilder) (now : Instant) :
    MuxState.core { mux with toMultiplexer := mux.handleBusMessage builder now msg route } =
      mux.core := by
  unfold MuxState.core
  rw [Multiplexer.silent_handleBusMessage,
    Multiplexer.routingTable_handleBusMessage _ _ _ _ _ hother]

theorem names_step (hstep : s.step e = some t) : s.names.InOneGo t.names := by
  cases step_stepped hstep with
  | connect clientId credentials hnew =>
      refine .of_step (.connect clientId credentials) ((if_neg hnew).trans ?_)
      unfold names nameState Clients.nameView
      rw [AList.mapValues_insert]
      rfl
  | clientMessage clientId msg env answered error hmem => exact names_clientMessage hmem
  | busMessage route msg builder now hother =>
      exact .of_eq (names_of_core (s := s) (core_busMessage hother s.mux builder now) rfl rfl rfl)
  | nameOwnerChanged msg builder now change signals hchanged hparse hsignals =>
      obtain ⟨name, oldOwner, newOwner⟩ := change
      have hmux : s.mux.handleBusMessage builder now msg .container =
          { s.mux.toMultiplexer with
            routingTable := s.mux.routingTable.onContainerNameChange name oldOwner newOwner } := by
        unfold Multiplexer.handleBusMessage
        rw [if_pos hchanged]
        unfold Multiplexer.handleNameOwnerChanged
        rw [hparse]
      refine .of_step .nameOwnerChanged ?_
      simp only [NameState.step, names, nameState, hsignals, hmux]
  | cleanupTick now mux hmux =>
      cases hmux
      exact .refl _
  | disconnect clientId ownedNames info hl howned =>
      refine .of_step (.disconnect clientId ownedNames) ?_
      simp only [NameState.step, lookup_names hl]
      refine (if_pos howned).trans ?_
      unfold names nameState Clients.nameView
      rw [AList.mapValues_erase]
  | releaseRules clientId rules hl => exact .refl _
  | removeRequests clientId mux hmux =>
      cases hmux
      exact .refl _
  | removeFromQueues clientId results n hn =>
      refine .of_step (.removeFromQueues clientId results) ?_
      have hnames : (s.putNames n).names = n.blind := by
        cases NameState.step_stepped hn with
        | removeFromQueues _ _ cleanup _ _ _ => exact names_putNames rfl rfl
      rw [hnames]
      exact NameState.step_removeFromQueues_blind hn
  | cleanUp clientId answered n hn =>
      refine .of_step (.cleanUp clientId answered) ?_
      have hnames : (s.putNames n).names = n.blind := by
        cases NameState.step_stepped hn with
        | cleanUp _ _ cleanup _ _ hclean =>
            have hframe := NameState.cleanUp_frame hclean
            exact names_putNames hframe.2.1 hframe.2.2.1
      rw [hnames]
      exact NameState.step_cleanUp_blind hn

end System

end KapsuleDbusMux
