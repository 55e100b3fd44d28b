import KapsuleDbusMux.Message
import KapsuleDbusMux.Serial.SerialMap

/-! # Forwarding calls and correlating replies

`router.rs` and the part of `bus_connection.rs` it uses. `forward_method_call`
is cut at its only effectful await, the `send`: `prepareForward` is what runs
before the message is on the wire, `recordForward` what runs after.
-/

namespace KapsuleDbusMux

/-- What the multiplexer itself keeps of a bus connection. -/
structure BusConnection where
  uniqueName : Option String
  serialGen : SerialGenerator
  deriving DecidableEq, Repr

namespace BusConnection

def connect (uniqueName : Option String) : BusConnection := ⟨uniqueName, .new⟩

def nextSerial (conn : BusConnection) : UInt32 × BusConnection :=
  (conn.serialGen.next.1, { conn with serialGen := conn.serialGen.next.2 })

end BusConnection

structure MessageRouter where
  containerConn : BusConnection
  hostConn : BusConnection
  serialMap : SerialMap

/-- The variables of `forward_method_call` that are live across its `send`. -/
structure ForwardedCall where
  clientId : ClientId
  clientSerial : UInt32
  route : Route
  forwardedSerial : UInt32
  deriving DecidableEq, Repr

namespace MessageRouter

def connectionFor (router : MessageRouter) : Route → BusConnection
  | .container => router.containerConn
  | .host => router.hostConn

def setConnection (router : MessageRouter) (conn : BusConnection) : Route → MessageRouter
  | .container => { router with containerConn := conn }
  | .host => { router with hostConn := conn }

/-- `forward_method_call` up to its `send`: draw a serial and renumber the message. -/
def prepareForward (router : MessageRouter) (clientId : ClientId) (msg : Message)
    (route : Route) : Except MessageError (ForwardedCall × Message) × MessageRouter :=
  let (forwardedSerial, conn) := (router.connectionFor route).nextSerial
  let router := router.setConnection conn route
  match msg.cloneMessageWithSerial forwardedSerial with
  | .error e => (.error e, router)
  | .ok forwardedMsg => (.ok (⟨clientId, msg.serial, route, forwardedSerial⟩, forwardedMsg), router)

/-- `forward_method_call` after its `send`: record whose call it was. -/
def recordForward (router : MessageRouter) (now : Instant) (call : ForwardedCall) :
    MessageRouter :=
  { router with
    serialMap := router.serialMap.insert now call.route call.forwardedSerial call.clientId
      call.clientSerial }

def handleReply (router : MessageRouter) (msg : Message) (route : Route) :
    Except MessageError (Option (ClientId × UInt32)) × MessageRouter :=
  match msg.replySerial with
  | none => (.error .noReplySerial, router)
  | some replySerial =>
      let (pending, serialMap) := router.serialMap.remove route replySerial
      (.ok (pending.map (fun call => (call.clientId, call.clientSerial))),
        { router with serialMap := serialMap })

def cleanupExpired (router : MessageRouter) (now : Instant) : Nat × MessageRouter :=
  let (count, serialMap) := router.serialMap.cleanupExpired now
  (count, { router with serialMap := serialMap })

def pendingAt (router : MessageRouter) (route : Route) (serial : UInt32) : Option PendingCall :=
  router.serialMap.pending.lookup ⟨route, serial⟩

/-! ## Connections -/

theorem setConnection_connectionFor (router : MessageRouter) (conn : BusConnection)
    (route other : Route) :
    (router.setConnection conn route).connectionFor other =
      if other = route then conn else router.connectionFor other := by
  cases route <;> cases other <;> rfl

@[simp] theorem setConnection_serialMap (router : MessageRouter) (conn : BusConnection)
    (route : Route) : (router.setConnection conn route).serialMap = router.serialMap := by
  cases route <;> rfl

theorem prepareForward_router (router : MessageRouter) (clientId : ClientId) (msg : Message)
    (route : Route) :
    (router.prepareForward clientId msg route).2 =
      router.setConnection (router.connectionFor route).nextSerial.2 route := by
  unfold prepareForward
  dsimp only
  split <;> rfl

theorem prepareForward_ok {router : MessageRouter} {clientId : ClientId} {msg : Message}
    {route : Route} {call : ForwardedCall} {forwarded : Message}
    (h : (router.prepareForward clientId msg route).1 = .ok (call, forwarded)) :
    call = ⟨clientId, msg.serial, route, (router.connectionFor route).nextSerial.1⟩ := by
  unfold prepareForward at h
  dsimp only at h
  split at h
  · cases h
  · cases h
    rfl

theorem prepareForward_forwarded {router : MessageRouter} {clientId : ClientId} {msg : Message}
    {route : Route} {call : ForwardedCall} {forwarded : Message}
    (h : (router.prepareForward clientId msg route).1 = .ok (call, forwarded)) :
    forwarded = { msg with serial := call.forwardedSerial, fds := [] } := by
  unfold prepareForward Message.cloneMessageWithSerial at h
  dsimp only at h
  split at h
  · cases h
  · next hclone =>
      cases h
      split at hclone
      · cases hclone
      · cases hclone
        rfl

/-! ## Pending entries -/

theorem pendingAt_recordForward (router : MessageRouter) (now : Instant) (call : ForwardedCall)
    (route : Route) (serial : UInt32) :
    (router.recordForward now call).pendingAt route serial =
      if route = call.route ∧ serial = call.forwardedSerial
      then some ⟨call.clientId, call.clientSerial, now⟩ else router.pendingAt route serial := by
  unfold pendingAt recordForward
  simp [SerialMap.lookup_insert]

theorem handleReply_fst {router : MessageRouter} {msg : Message} {serial : UInt32}
    (hserial : msg.replySerial = some serial) (route : Route) :
    (router.handleReply msg route).1 =
      .ok ((router.pendingAt route serial).map (fun call => (call.clientId, call.clientSerial))) := by
  simp [handleReply, hserial, pendingAt, SerialMap.remove]

theorem pendingAt_handleReply {router : MessageRouter} {msg : Message} {serial : UInt32}
    (hserial : msg.replySerial = some serial) (route other : Route) (otherSerial : UInt32) :
    (router.handleReply msg route).2.pendingAt other otherSerial =
      if other = route ∧ otherSerial = serial then none
      else router.pendingAt other otherSerial := by
  simp [handleReply, hserial, pendingAt, SerialMap.lookup_remove]

@[simp] theorem connectionFor_handleReply (router : MessageRouter) (msg : Message)
    (route other : Route) :
    (router.handleReply msg route).2.connectionFor other = router.connectionFor other := by
  unfold handleReply
  split <;> cases other <;> rfl

theorem pendingAt_cleanupExpired (router : MessageRouter) (now : Instant) (route : Route)
    (serial : UInt32) :
    (router.cleanupExpired now).2.pendingAt route serial =
      (router.pendingAt route serial).filter
        (fun call => decide (now - call.timestamp < router.serialMap.timeout)) := by
  unfold pendingAt cleanupExpired
  exact SerialMap.lookup_cleanupExpired _ _ _

end MessageRouter

end KapsuleDbusMux
