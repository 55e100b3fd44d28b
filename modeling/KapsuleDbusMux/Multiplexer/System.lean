import KapsuleDbusMux.Matching.Accounting
import KapsuleDbusMux.Multiplexer.Loop
import KapsuleDbusMux.Multiplexer.NameInvariant

/-! # Whole handlers and cut ones

The main loop as `Loop` has it, where a message is handled in one go, together with the
container bus and with the cleanups of clients that are gone. What the tasks of the name
handlers and the accounting of match rules look at are two views of this system. Under
each of them a handler does its critical sections one after the other with nothing in
between, so what holds in all runs of the cut handlers holds here.

The system is restricted in what the buses do about names. On the container bus names
change through the multiplexer only: the bus grants a request or the call fails, it never
answers that somebody else has the name, and its `NameOwnerChanged` signals are those about
the multiplexer's own names. Such signals from the host bus are no events here. The parts
of a cleanup may come in any order.
-/

namespace KapsuleDbusMux

open MatchAccounting (References)

/-! ## What a call asks of the buses -/

/-- The calls on the driver that change names or match rules, when their arguments can be
decoded. -/
inductive DriverCall where
  | requestName (name : String) (flags : UInt32)
  | releaseName (name : String)
  | addMatch (ruleString : String)
  | removeMatch (ruleString : String)
  | other
  deriving DecidableEq, Repr

def Message.driverCall (msg : Message) : DriverCall :=
  if msg.isDbusDaemonCall && msg.isMethodCall then
    match msg.member.getD "" with
    | "RequestName" =>
        match msg.body.deserializeStringUInt32 with
        | some (name, flags) => .requestName name flags
        | none => .other
    | "ReleaseName" => (msg.body.deserializeString.map DriverCall.releaseName).getD .other
    | "AddMatch" => (msg.body.deserializeString.map DriverCall.addMatch).getD .other
    | "RemoveMatch" => (msg.body.deserializeString.map DriverCall.removeMatch).getD .other
    | _ => .other
  else .other

/-- The environment in which the container bus answers about names. It grants every name
that does not start with a colon, or the call fails; that another connection has the name is
no answer of it. -/
def ContainerBus.environment (bus : ContainerBus) (answered : Bool) (error : String)
    (env : Environment) : Environment :=
  { env with
    requestName := fun name _ =>
      if answered && !isUniqueName name then .ok (bus.requestName name).1 else .error error
    releaseName := fun _ => if answered then .ok () else .error error }

/-- The multiplexer, the names it has on the container bus, the rules whose last call on a
bus was `AddMatch`, whatever the bus answered, and the cleanups in progress. -/
structure System where
  mux : MuxState
  bus : ContainerBus
  subscribed : Finset (String × String) := ∅
  cleanups : AssocMap ClientId Cleanup := ∅
  ruleCleanups : AssocMap ClientId (List String) := ∅
  registered : Finset ClientId := ∅

namespace System

def references (s : System) : References := ⟨s.mux.matchRuleRefcount, s.subscribed⟩

def busAfter (s : System) (clientId : ClientId) (answered : Bool) : DriverCall → ContainerBus
  | .requestName name flags =>
      match s.mux.clients.lookup clientId with
      | none => s.bus
      | some info =>
          if (s.mux.nameQueue.requestName name clientId info.uniqueName flags).1.forwardToBus &&
              (answered && !isUniqueName name) then (s.bus.requestName name).2
          else s.bus
  | .releaseName name =>
      let result := (s.mux.nameQueue.releaseName name clientId).1
      if result.newOwner = none ∧ result.forwardToBus ∧ answered then s.bus.releaseName name
      else s.bus
  | _ => s.bus

/-- What a call asks of the buses about rules. The handlers ignore the answers. -/
def subscribedAfter (s : System) (clientId : ClientId) : DriverCall → Finset (String × String)
  | .addMatch ruleString =>
      match MatchRule.parse ruleString with
      | .error _ => s.subscribed
      | .ok _ => (s.references.add ruleString).subscribed
  | .removeMatch ruleString =>
      if (s.mux.clients.lookup clientId).any
          (fun info => (info.matchRules.remove ruleString).1) then
        (s.references.drop ruleString).subscribed
      else s.subscribed
  | _ => s.subscribed

/-! ## Events -/

/-- The clients, the queues and the routes, as the tasks of the name handlers see them. -/
def nameState (s : System) : NameState where
  clients := s.mux.clients
  queue := s.mux.nameQueue
  routing := s.mux.routingTable
  bus := s.bus
  cleanups := s.cleanups
  registered := s.registered

def putNames (s : System) (n : NameState) : System :=
  { s with
    mux := { s.mux with clients := n.clients, nameQueue := n.queue, routingTable := n.routing }
    bus := n.bus
    cleanups := n.cleanups }

inductive Event where
  | connect (clientId : ClientId) (credentials : ClientCredentials)
  | clientMessage (clientId : ClientId) (msg : Message) (env : Environment) (answered : Bool)
      (error : String)
  | busMessage (route : Route) (msg : Message) (builder : MessageBuilder) (now : Instant)
  | cleanupTick (now : Instant)
  | disconnect (clientId : ClientId) (ownedNames : List String)
  | releaseRules (clientId : ClientId)
  | removeRequests (clientId : ClientId)
  | removeFromQueues (clientId : ClientId) (results : List (String × Option (ClientId × String)))
  | cleanUp (clientId : ClientId) (answered : Bool)

/-- Of the `NameOwnerChanged` signals only the next one of the container bus about a name of
the multiplexer is a step. -/
def step (s : System) : Event → Option System
  | .connect clientId credentials =>
      if clientId ∈ s.registered then none
      else some { s with
        mux := { s.mux with
          clients := s.mux.clients.insert clientId (.registered clientId credentials) }
        registered := insert clientId s.registered }
  | .clientMessage clientId msg env answered error =>
      if clientId ∈ s.registered then
        some { s with
          mux := s.mux.handleClientMessage (s.bus.environment answered error env) clientId msg
          bus := s.busAfter clientId answered msg.driverCall
          subscribed := s.subscribedAfter clientId msg.driverCall }
      else none
  | .busMessage route msg builder now =>
      let mux := { s.mux with toMultiplexer := s.mux.handleBusMessage builder now msg route }
      if msg.isNameOwnerChanged then
        match route, s.bus.signals, msg.parseNameOwnerChanged with
        | .container, signal :: signals, .ok change =>
            if change = signal then
              some { s with mux := mux, bus := { s.bus with signals := signals } }
            else none
        | _, _, _ => none
      else some { s with mux := mux }
  | .cleanupTick now => (s.mux.step (.cleanupTick now)).map (fun mux => { s with mux := mux })
  | .disconnect clientId ownedNames =>
      match s.mux.clients.lookup clientId with
      | none => none
      | some info =>
          if ownedNames.Nodup ∧ ownedNames.toFinset = info.ownedNames then
            some { s with
              mux := { s.mux with clients := s.mux.clients.erase clientId }
              cleanups := s.cleanups.insert clientId ⟨ownedNames, .queue⟩
              ruleCleanups := s.ruleCleanups.insert clientId info.matchRules.ruleStrings }
          else none
  | .releaseRules clientId =>
      match s.ruleCleanups.lookup clientId with
      | none => none
      | some rules =>
          let references := rules.foldl References.drop s.references
          some { s with
            mux := { s.mux with matchRuleRefcount := references.refs }
            subscribed := references.subscribed
            ruleCleanups := s.ruleCleanups.erase clientId }
  | .removeRequests clientId =>
      (s.mux.step (.removeRequests clientId)).map (fun mux => { s with mux := mux })
  | .removeFromQueues clientId results =>
      (s.nameState.step (.removeFromQueues clientId results)).map s.putNames
  | .cleanUp clientId answered => (s.nameState.step (.cleanUp clientId answered)).map s.putNames

def initial (mux : MuxState) (bus : ContainerBus) : System where
  mux := { mux with clients := ∅, nameQueue := .new, matchRuleRefcount := .new }
  bus := { bus with owned := ∅, signals := [] }

inductive Stepped (s : System) : Event → System → Prop
  | connect (clientId : ClientId) (credentials : ClientCredentials)
      (hnew : clientId ∉ s.registered) :
      Stepped s (.connect clientId credentials)
        { s with
          mux := { s.mux with
            clients := s.mux.clients.insert clientId (.registered clientId credentials) }
          registered := insert clientId s.registered }
  | clientMessage (clientId : ClientId) (msg : Message) (env : Environment) (answered : Bool)
      (error : String) (hmem : clientId ∈ s.registered) :
      Stepped s (.clientMessage clientId msg env answered error)
        { s with
          mux := s.mux.handleClientMessage (s.bus.environment answered error env) clientId msg
          bus := s.busAfter clientId answered msg.driverCall
          subscribed := s.subscribedAfter clientId msg.driverCall }
  | busMessage (route : Route) (msg : Message) (builder : MessageBuilder) (now : Instant)
      (hother : msg.isNameOwnerChanged = false) :
      Stepped s (.busMessage route msg builder now)
        { s with
          mux := { s.mux with toMultiplexer := s.mux.handleBusMessage builder now msg route } }
  | nameOwnerChanged (msg : Message) (builder : MessageBuilder) (now : Instant)
      (change : String × String × String) (signals : List (String × String × String))
      (hchanged : msg.isNameOwnerChanged = true) (hparse : msg.parseNameOwnerChanged = .ok change)
      (hsignals : s.bus.signals = change :: signals) :
      Stepped s (.busMessage .container msg builder now)
        { s with
          mux := { s.mux with toMultiplexer := s.mux.handleBusMessage builder now msg .container }
          bus := { s.bus with signals := signals } }
  | cleanupTick (now : Instant) (mux : MuxState) (hmux : s.mux.step (.cleanupTick now) = some mux) :
      Stepped s (.cleanupTick now) { s with mux := mux }
  | disconnect (clientId : ClientId) (ownedNames : List String) (info : ClientInfo)
      (hl : s.mux.clients.lookup clientId = some info)
      (howned : ownedNames.Nodup ∧ ownedNames.toFinset = info.ownedNames) :
      Stepped s (.disconnect clientId ownedNames)
        { s with
          mux := { s.mux with clients := s.mux.clients.erase clientId }
          cleanups := s.cleanups.insert clientId ⟨ownedNames, .queue⟩
          ruleCleanups := s.ruleCleanups.insert clientId info.matchRules.ruleStrings }
  | releaseRules (clientId : ClientId) (rules : List String)
      (hl : s.ruleCleanups.lookup clientId = some rules) :
      Stepped s (.releaseRules clientId)
        { s with
          mux := { s.mux with
            matchRuleRefcount := (rules.foldl References.drop s.references).refs }
          subscribed := (rules.foldl References.drop s.references).subscribed
          ruleCleanups := s.ruleCleanups.erase clientId }
  | removeRequests (clientId : ClientId) (mux : MuxState)
      (hmux : s.mux.step (.removeRequests clientId) = some mux) :
      Stepped s (.removeRequests clientId) { s with mux := mux }
  | removeFromQueues (clientId : ClientId)
      (results : List (String × Option (ClientId × String))) (n : NameState)
      (hn : s.nameState.step (.removeFromQueues clientId results) = some n) :
      Stepped s (.removeFromQueues clientId results) (s.putNames n)
  | cleanUp (clientId : ClientId) (answered : Bool) (n : NameState)
      (hn : s.nameState.step (.cleanUp clientId answered) = some n) :
      Stepped s (.cleanUp clientId answered) (s.putNames n)

theorem step_stepped {s t : System} {e : Event} (hstep : s.step e = some t) : s.Stepped e t := by
  cases e with
  | connect clientId credentials =>
      simp only [step] at hstep
      split at hstep
      · cases hstep
      · next hnew =>
          cases hstep
          exact .connect clientId credentials hnew
  | clientMessage clientId msg env answered error =>
      simp only [step] at hstep
      split at hstep
      · next hmem =>
          cases hstep
          exact .clientMessage clientId msg env answered error hmem
      · cases hstep
  | busMessage route msg builder now =>
      cases hchanged : msg.isNameOwnerChanged with
      | false =>
          simp only [step, hchanged, Bool.false_eq_true, if_false] at hstep
          cases hstep
          exact .busMessage route msg builder now hchanged
      | true =>
          simp only [step, hchanged, if_true] at hstep
          split at hstep
          · next signal signals change hsignals hparse =>
              split at hstep
              · next hsignal =>
                  subst hsignal
                  cases hstep
                  exact .nameOwnerChanged msg builder now change signals hchanged hparse hsignals
              · cases hstep
          · cases hstep
  | cleanupTick now =>
      cases hstep
      exact .cleanupTick now _ rfl
  | disconnect clientId ownedNames =>
      simp only [step] at hstep
      split at hstep
      · cases hstep
      · next info hl =>
          split at hstep
          · next howned =>
              cases hstep
              exact .disconnect clientId ownedNames info hl howned
          · cases hstep
  | releaseRules clientId =>
      simp only [step] at hstep
      split at hstep
      · cases hstep
      · next rules hl =>
          cases hstep
          exact .releaseRules clientId rules hl
  | removeRequests clientId =>
      cases hstep
      exact .removeRequests clientId _ rfl
  | removeFromQueues clientId results =>
      obtain ⟨n, hn, rfl⟩ := Option.map_eq_some_iff.mp hstep
      exact .removeFromQueues clientId results n hn
  | cleanUp clientId answered =>
      obtain ⟨n, hn, rfl⟩ := Option.map_eq_some_iff.mp hstep
      exact .cleanUp clientId answered n hn

end System

/-! ## What handlers leave alone -/

namespace Clients

/-- The clients without what is on their channels. -/
def silent (clients : Clients) : Clients := clients.mapValues (fun _ info => { info with tx := [] })

theorem silent_send (clients : Clients) (clientId : ClientId) (msg : Message) :
    (clients.send clientId msg).silent = clients.silent := by
  refine AList.mapValues_modify_of_hidden (fun info => ?_) clients
  rfl

end Clients

namespace MuxState

/-- All that names and match rules depend on: everything but the router, the portal
requests and the channels. -/
def core (s : MuxState) : NameQueueManager × RoutingTable × MatchRuleRefCount × Clients :=
  (s.nameQueue, s.routingTable, s.matchRuleRefcount, s.clients.silent)

theorem core_send (s : MuxState) (clientId : ClientId) (msg : Message) :
    core { s with clients := s.clients.send clientId msg } = s.core := by
  unfold core
  rw [Clients.silent_send]

section Handlers

variable (env : Environment) (s : MuxState) (clientId : ClientId) (msg : Message)

@[simp] theorem core_sendReplyToClient (body : ReplyBody) :
    (s.sendReplyToClient env clientId msg body).core = s.core := by
  unfold sendReplyToClient
  split
  · rfl
  · split
    · rfl
    · exact core_send s clientId _

@[simp] theorem core_sendErrorToClient (e : DriverError) :
    (s.sendErrorToClient env clientId msg e).core = s.core := by
  unfold sendErrorToClient
  split
  · rfl
  · split
    · rfl
    · exact core_send s clientId _

theorem core_answer (result : Answer) : (s.answer env clientId msg result).core = s.core := by
  cases result with
  | ok body => exact core_sendReplyToClient env s clientId msg body
  | error e => exact core_sendErrorToClient env s clientId msg e

theorem core_answerAbout (query : String → Answer) :
    (s.answerAbout env clientId msg query).core = s.core := by
  unfold answerAbout
  split
  · exact core_sendErrorToClient env s clientId msg _
  · exact core_answer env s clientId msg _

theorem core_forwardOr (route : Route) (onError : String → DriverError) :
    (s.forwardOr env clientId msg route onError).core = s.core := by
  unfold forwardOr forwardMethodCall
  cases s.router.prepareForward clientId msg route with
  | mk prepared router =>
      cases prepared with
      | error e => exact core_sendErrorToClient env _ clientId msg _
      | ok forward =>
          obtain ⟨call, forwarded⟩ := forward
          cases hsend : env.send route forwarded with
          | error e =>
              simp only [hsend]
              exact core_sendErrorToClient env _ clientId msg _
          | ok sent =>
              simp only [hsend]
              rfl

/-- How a message is handled, by what it asks of names and match rules. -/
inductive Handled : DriverCall → MuxState → Prop
  | requestName {name : String} {flags : UInt32}
      (hbody : msg.body.deserializeStringUInt32 = some (name, flags)) :
      Handled (.requestName name flags) (s.handleRequestName env clientId msg)
  | releaseName {name : String} (hbody : msg.body.deserializeString = some name) :
      Handled (.releaseName name) (s.handleReleaseName env clientId msg)
  | addMatch {ruleString : String} (hbody : msg.body.deserializeString = some ruleString) :
      Handled (.addMatch ruleString) (s.handleAddMatch env clientId msg)
  | removeMatch {ruleString : String} (hbody : msg.body.deserializeString = some ruleString) :
      Handled (.removeMatch ruleString) (s.handleRemoveMatch env clientId msg)
  | other {t : MuxState} (hcore : t.core = s.core) : Handled .other t

theorem core_handleHello : (s.handleHello env clientId msg).core = s.core := by
  unfold handleHello
  split
  · rfl
  · exact core_sendReplyToClient env s clientId msg _

theorem handled_handleRequestName :
    Handled env s clientId msg
      (match msg.body.deserializeStringUInt32 with
      | some (name, flags) => .requestName name flags
      | none => .other)
      (s.handleRequestName env clientId msg) := by
  cases hbody : msg.body.deserializeStringUInt32 with
  | some arguments => exact .requestName hbody
  | none =>
      refine .other ?_
      unfold handleRequestName
      rw [hbody]
      exact core_sendErrorToClient env s clientId msg _

theorem handled_handleReleaseName :
    Handled env s clientId msg
      ((msg.body.deserializeString.map DriverCall.releaseName).getD .other)
      (s.handleReleaseName env clientId msg) := by
  cases hbody : msg.body.deserializeString with
  | some name => exact .releaseName hbody
  | none =>
      refine .other ?_
      unfold handleReleaseName
      rw [hbody]
      exact core_sendErrorToClient env s clientId msg _

theorem handled_handleAddMatch :
    Handled env s clientId msg
      ((msg.body.deserializeString.map DriverCall.addMatch).getD .other)
      (s.handleAddMatch env clientId msg) := by
  cases hbody : msg.body.deserializeString with
  | some ruleString => exact .addMatch hbody
  | none =>
      refine .other ?_
      unfold handleAddMatch
      rw [hbody]
      exact core_sendErrorToClient env s clientId msg _

theorem handled_handleRemoveMatch :
    Handled env s clientId msg
      ((msg.body.deserializeString.map DriverCall.removeMatch).getD .other)
      (s.handleRemoveMatch env clientId msg) := by
  cases hbody : msg.body.deserializeString with
  | some ruleString => exact .removeMatch hbody
  | none =>
      refine .other ?_
      unfold handleRemoveMatch
      rw [hbody]
      exact core_sendErrorToClient env s clientId msg _

theorem handled_handleClientMessage :
    Handled env s clientId msg msg.driverCall (s.handleClientMessage env clientId msg) := by
  unfold Message.driverCall handleClientMessage
  by_cases hdriver : (msg.isDbusDaemonCall && msg.isMethodCall) = true
  · rw [if_pos hdriver, if_pos hdriver]
    unfold handleDbusMethod
    generalize msg.member.getD "" = member
    have hanswer : ∀ result,
        Handled env s clientId msg .other (s.answer env clientId msg result) :=
      fun result => .other (core_answer env s clientId msg result)
    have habout : ∀ query,
        Handled env s clientId msg .other (s.answerAbout env clientId msg query) :=
      fun query => .other (core_answerAbout env s clientId msg query)
    have hreply : ∀ body,
        Handled env s clientId msg .other (s.sendReplyToClient env clientId msg body) :=
      fun body => .other (core_sendReplyToClient env s clientId msg body)
    split
    · exact handled_handleRequestName env s clientId msg
    · exact handled_handleReleaseName env s clientId msg
    · exact handled_handleAddMatch env s clientId msg
    · exact handled_handleRemoveMatch env s clientId msg
    · next hrequest hrelease hadd hremove =>
        split
        · exact .other (core_handleHello env s clientId msg)
        · exact absurd rfl hrequest
        · exact absurd rfl hrelease
        · exact hanswer _
        · exact hanswer _
        · exact habout _
        · exact habout _
        · exact hreply _
        · exact hreply _
        · exact hanswer _
        · exact habout _
        · exact habout _
        · exact habout _
        · exact habout _
        · exact absurd rfl hadd
        · exact absurd rfl hremove
        · exact hanswer _
        · exact hanswer _
        · exact .other (core_forwardOr env s clientId msg .container _)
  · rw [if_neg hdriver, if_neg hdriver]
    refine .other ?_
    split
    · exact core_forwardOr env s clientId msg _ _
    · rfl

end Handlers

end MuxState

end KapsuleDbusMux
