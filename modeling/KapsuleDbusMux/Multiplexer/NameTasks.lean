import KapsuleDbusMux.Library.Trace
import KapsuleDbusMux.Multiplexer.ClientInfo
import KapsuleDbusMux.Names.QueueSpec

/-! # Name handlers and disconnect cleanups as tasks

`handle_request_name`, `handle_release_name`, the `NameOwnerChanged` branch of
`handle_bus_message`, and the names part of the cleanup in `handle_new_client`.
The main loop handles one message at a time and every disconnected client has a
cleanup task of its own; tasks are cut at their await points, so that each event
is one critical section or one call on the container bus. The lock on the
routing table that two of the handlers keep while they wait for the client map
is left out, which only allows more interleavings.
-/

namespace KapsuleDbusMux

/-! ## The container bus -/

/-- What the bus holds for the connection of the multiplexer: its unique name,
the names it owns, and the `NameOwnerChanged` signals it has not read yet. -/
structure ContainerBus where
  uniqueName : String
  named : uniqueName ≠ ""
  owned : Finset String := ∅
  signals : List (String × String × String) := []

namespace ContainerBus

def requestName (bus : ContainerBus) (name : String) : UInt32 × ContainerBus :=
  if name ∈ bus.owned then (RequestNameReply.alreadyOwner, bus)
  else (RequestNameReply.primaryOwner,
    { bus with
      owned := insert name bus.owned
      signals := bus.signals ++ [(name, "", bus.uniqueName)] })

def releaseName (bus : ContainerBus) (name : String) : ContainerBus :=
  if name ∈ bus.owned then
    { bus with
      owned := bus.owned.erase name
      signals := bus.signals ++ [(name, bus.uniqueName, "")] }
  else bus

end ContainerBus

/-! ## Tasks -/

inductive MainTask where
  | idle
  | requestQueue (clientId : ClientId) (name : String) (flags : UInt32) (uniqueName : String)
  | requestBus (clientId : ClientId) (name uniqueName : String)
  | requestRouting (clientId : ClientId) (name uniqueName : String)
  | requestOwned (clientId : ClientId) (name : String)
  | requestRevert (clientId : ClientId) (name : String)
  | promoteRouting (clientId : ClientId) (name : String) (newOwner : ClientId × String)
  | promoteOwned (clientId : ClientId) (name : String) (newOwnerId : ClientId)
  | releaseLookup (clientId : ClientId) (name : String)
  | releaseBus (clientId : ClientId) (name : String) (uniqueName : Option String)
  | releaseRouting (clientId : ClientId) (name uniqueName : String)
  | releaseOwned (clientId : ClientId) (name : String)
  deriving DecidableEq, Repr

/-- The branch `handle_release_name` takes after the queue update. -/
def MainTask.ofRelease (clientId : ClientId) (name : String) (result : ReleaseNameResult) :
    MainTask :=
  match result.newOwner with
  | some newOwner => .promoteRouting clientId name newOwner
  | none =>
      if result.forwardToBus then .releaseLookup clientId name else .releaseOwned clientId name

/-- What a cleanup does next. The lists are what its two loops have left. -/
inductive CleanupPhase where
  | queue
  | results (rest : List (String × Option (ClientId × String)))
  | promoteOwned (newOwnerId : ClientId) (name : String)
      (rest : List (String × Option (ClientId × String)))
  | releaseBus (name : String) (rest : List (String × Option (ClientId × String)))
  | ownedNames (rest : List String)
  | ownedRouting (name : String) (rest : List String)
  | ownedBus (name : String) (rest : List String)
  deriving DecidableEq, Repr

/-- A disconnect cleanup, with the names it collected when it removed its client. -/
structure Cleanup where
  ownedNames : List String
  phase : CleanupPhase
  deriving DecidableEq, Repr

structure NameState where
  clients : Clients := ∅
  queue : NameQueueManager := .new
  routing : RoutingTable
  bus : ContainerBus
  main : MainTask := .idle
  cleanups : AssocMap ClientId Cleanup := ∅
  registered : Finset ClientId := ∅

def Clients.updateOwned (clients : Clients) (clientId : ClientId)
    (f : Finset String → Finset String) : Clients :=
  clients.modify clientId (fun info => { info with ownedNames := f info.ownedNames })

namespace NameState

/-- `unique_name` lookup, the first step of `handle_request_name`. -/
def handleRequestName (s : NameState) (clientId : ClientId) (name : String) (flags : UInt32) :
    NameState :=
  match s.clients.lookup clientId with
  | none => s
  | some info => { s with main := .requestQueue clientId name flags info.uniqueName }

/-- The queue update, the first step of `handle_release_name`. -/
def handleReleaseName (s : NameState) (clientId : ClientId) (name : String) : NameState :=
  { s with
    queue := (s.queue.releaseName name clientId).2
    main := .ofRelease clientId name (s.queue.releaseName name clientId).1 }

/-- The next step of the handler in progress. `answered` says whether a call on
the bus succeeds; the bus never grants a name that starts with a colon. -/
def resume (s : NameState) (answered : Bool) : Option NameState :=
  match s.main with
  | .idle => none
  | .requestQueue clientId name flags uniqueName =>
      let outcome := s.queue.requestName name clientId uniqueName flags
      some { s with
        queue := outcome.2
        main := if outcome.1.forwardToBus then .requestBus clientId name uniqueName else .idle }
  | .requestBus clientId name uniqueName =>
      if answered then
        if isUniqueName name then none
        else
          let outcome := s.bus.requestName name
          some { s with
            bus := outcome.2
            main :=
              if outcome.1 = RequestNameReply.primaryOwner ∨
                  outcome.1 = RequestNameReply.alreadyOwner then
                .requestRouting clientId name uniqueName
              else .idle }
      else some { s with main := .requestRevert clientId name }
  | .requestRouting clientId name uniqueName =>
      some { s with
        routing := s.routing.onContainerNameChange name "" uniqueName
        main := .requestOwned clientId name }
  | .requestOwned clientId name =>
      some { s with clients := s.clients.updateOwned clientId (insert name), main := .idle }
  | .requestRevert clientId name =>
      some { s with queue := (s.queue.releaseName name clientId).2, main := .idle }
  | .promoteRouting clientId name newOwner =>
      some { s with
        routing := s.routing.onContainerNameChange name "" newOwner.2
        main := .promoteOwned clientId name newOwner.1 }
  | .promoteOwned clientId name newOwnerId =>
      some { s with
        clients := (s.clients.updateOwned clientId (·.erase name)).updateOwned newOwnerId
          (insert name)
        main := .idle }
  | .releaseLookup clientId name =>
      some { s with
        main := .releaseBus clientId name ((s.clients.lookup clientId).map (·.uniqueName)) }
  | .releaseBus clientId name uniqueName =>
      if answered then
        some { s with
          bus := s.bus.releaseName name
          main :=
            match uniqueName with
            | some uniqueName => .releaseRouting clientId name uniqueName
            | none => .releaseOwned clientId name }
      else some { s with main := .idle }
  | .releaseRouting clientId name uniqueName =>
      some { s with
        routing := s.routing.onContainerNameChange name uniqueName ""
        main := .releaseOwned clientId name }
  | .releaseOwned clientId name =>
      some { s with clients := s.clients.updateOwned clientId (·.erase name), main := .idle }

def advance (s : NameState) (clientId : ClientId) (cleanup : Cleanup) (phase : CleanupPhase) :
    NameState :=
  { s with cleanups := s.cleanups.insert clientId { cleanup with phase := phase } }

/-- The next step of a cleanup that has removed its client from the queues. -/
def cleanUp (s : NameState) (clientId : ClientId) (cleanup : Cleanup) (answered : Bool) :
    Option NameState :=
  match cleanup.phase with
  | .queue => none
  | .results [] => some (s.advance clientId cleanup (.ownedNames cleanup.ownedNames))
  | .results ((name, some newOwner) :: rest) =>
      some { s.advance clientId cleanup (.promoteOwned newOwner.1 name rest) with
        routing := s.routing.onContainerNameChange name (muxUniqueName clientId) newOwner.2 }
  | .results ((name, none) :: rest) =>
      some { s.advance clientId cleanup (.releaseBus name rest) with
        routing := s.routing.onContainerNameChange name (muxUniqueName clientId) "" }
  | .promoteOwned newOwnerId name rest =>
      some { s.advance clientId cleanup (.results rest) with
        clients := s.clients.updateOwned newOwnerId (insert name) }
  | .releaseBus name rest =>
      some { s.advance clientId cleanup (.results rest) with
        bus := if answered then s.bus.releaseName name else s.bus }
  | .ownedNames [] => some { s with cleanups := s.cleanups.erase clientId }
  | .ownedNames (name :: rest) =>
      some (s.advance clientId cleanup
        (if s.queue.nameHasOwner name then .ownedNames rest else .ownedRouting name rest))
  | .ownedRouting name rest =>
      some { s.advance clientId cleanup (.ownedBus name rest) with
        routing := s.routing.onContainerNameChange name (muxUniqueName clientId) "" }
  | .ownedBus name rest =>
      some { s.advance clientId cleanup (.ownedNames rest) with
        bus := if answered then s.bus.releaseName name else s.bus }

end NameState

/-! ## Events -/

/-- One atomic step. Requests of a client may be handled after it has gone: they
then waited in `client_msg_rx`. The lists of `disconnect` and `removeFromQueues`
fix the iteration order of a hash set and of a hash map. -/
inductive NameEvent where
  | connect (clientId : ClientId) (credentials : ClientCredentials)
  | requestName (clientId : ClientId) (name : String) (flags : UInt32)
  | releaseName (clientId : ClientId) (name : String)
  | resume (answered : Bool)
  | nameOwnerChanged
  | disconnect (clientId : ClientId) (ownedNames : List String)
  | removeFromQueues (clientId : ClientId) (results : List (String × Option (ClientId × String)))
  | cleanUp (clientId : ClientId) (answered : Bool)
  deriving DecidableEq, Repr

namespace NameState

def mayHandle (s : NameState) (clientId : ClientId) : Prop :=
  s.main = .idle ∧ clientId ∈ s.registered

instance (s : NameState) (clientId : ClientId) : Decidable (s.mayHandle clientId) :=
  inferInstanceAs (Decidable (_ ∧ _))

def step (s : NameState) : NameEvent → Option NameState
  | .connect clientId credentials =>
      if clientId ∈ s.registered then none
      else some { s with
        clients := s.clients.insert clientId (.registered clientId credentials)
        registered := insert clientId s.registered }
  | .requestName clientId name flags =>
      if s.mayHandle clientId then some (s.handleRequestName clientId name flags) else none
  | .releaseName clientId name =>
      if s.mayHandle clientId then some (s.handleReleaseName clientId name) else none
  | .resume answered => s.resume answered
  | .nameOwnerChanged =>
      match s.main, s.bus.signals with
      | .idle, (name, oldOwner, newOwner) :: signals =>
          some { s with
            routing := s.routing.onContainerNameChange name oldOwner newOwner
            bus := { s.bus with signals := signals } }
      | _, _ => none
  | .disconnect clientId ownedNames =>
      match s.clients.lookup clientId with
      | none => none
      | some info =>
          if ownedNames.Nodup ∧ ownedNames.toFinset = info.ownedNames then
            some { s with
              clients := s.clients.erase clientId
              cleanups := s.cleanups.insert clientId ⟨ownedNames, .queue⟩ }
          else none
  | .removeFromQueues clientId results =>
      match s.cleanups.lookup clientId with
      | none => none
      | some cleanup =>
          if cleanup.phase = .queue ∧ results.Perm (s.queue.removeClient clientId).1 then
            some { s.advance clientId cleanup (.results results) with
              queue := (s.queue.removeClient clientId).2 }
          else none
  | .cleanUp clientId answered =>
      match s.cleanups.lookup clientId with
      | none => none
      | some cleanup => s.cleanUp clientId cleanup answered

def initial (routing : RoutingTable) (bus : ContainerBus) : NameState :=
  { routing := routing, bus := { bus with owned := ∅, signals := [] } }

def quiescent (s : NameState) : Prop := s.main = .idle ∧ s.cleanups.entries = []

instance (s : NameState) : Decidable s.quiescent := inferInstanceAs (Decidable (_ ∧ _))

end NameState

end KapsuleDbusMux
