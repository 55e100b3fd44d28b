import KapsuleDbusMux.Library.Trace
import KapsuleDbusMux.Multiplexer.ClientMessages

/-! # The main loop

The branches of `select!` in `Multiplexer::run`, with clients that connect and go away.
Messages are handled one after the other. The disconnect of a client and the steps of
its cleanup are events of their own, so that messages may be handled in between. What
the cleanup does to names and match rules is left open here: it may leave them in any
state.
-/

namespace KapsuleDbusMux

/-- What happens next. A message of a client may be handled after the client has gone. -/
inductive MuxEvent where
  | connect (clientId : ClientId) (credentials : ClientCredentials)
  | clientMessage (clientId : ClientId) (msg : Message) (env : Environment)
  | busMessage (route : Route) (msg : Message) (builder : MessageBuilder) (now : Instant)
  | disconnect (clientId : ClientId)
  | removeRequests (clientId : ClientId)
  | removeNames (routing : RoutingTable) (queue : NameQueueManager) (refcount : MatchRuleRefCount)
      (owned : ClientId → Finset String)
  | cleanupTick (now : Instant)

namespace MuxState

def step (s : MuxState) : MuxEvent → Option MuxState
  | .connect clientId credentials =>
      if clientId ∈ s.clients then none
      else some { s with clients := s.clients.insert clientId (.registered clientId credentials) }
  | .clientMessage clientId msg env => some (s.handleClientMessage env clientId msg)
  | .busMessage route msg builder now =>
      some { s with toMultiplexer := s.handleBusMessage builder now msg route }
  | .disconnect clientId => some { s with clients := s.clients.erase clientId }
  | .removeRequests clientId =>
      some { s with portalRequests := (s.portalRequests.removeClient clientId).2 }
  | .removeNames routing queue refcount owned =>
      some { s with
        routingTable := routing
        nameQueue := queue
        matchRuleRefcount := refcount
        clients := s.clients.mapValues (fun c info => { info with ownedNames := owned c }) }
  | .cleanupTick now =>
      some { s with
        router := (s.router.cleanupExpired now).2
        portalRequests := (s.portalRequests.cleanupExpired now).2 }

/-- Whatever becomes of names and match rules, clients keep their channels. -/
theorem lookup_removeNames (clients : Clients) (owned : ClientId → Finset String) (c : ClientId) :
    ((clients.mapValues (fun c info => { info with ownedNames := owned c })).lookup c).map
        (fun info => (info.uniqueName, info.tx)) =
      (clients.lookup c).map (fun info => (info.uniqueName, info.tx)) := by
  rw [AList.lookup_mapValues, Option.map_map]
  rfl

/-- The multiplexer when it starts: connected to both buses, without clients. -/
def initial (containerName hostName : Option String) (timeout : Nat) (routing : RoutingTable)
    (guid : String) : MuxState where
  router := ⟨.connect containerName, .connect hostName, .withTimeout timeout⟩
  routingTable := routing
  portalRequests := .new
  clients := ∅
  guid := guid

end MuxState

end KapsuleDbusMux
