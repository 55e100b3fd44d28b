import KapsuleDbusMux.Serial.SerialMap

/-! # Name ownership queues

`name_queue.rs`. For each well-known name the manager keeps a primary owner and
the clients that wait for the name, in order. The functions return what the
multiplexer acts on: the reply code, whether the upstream bus has to be told, and
who becomes owner next.
-/

namespace KapsuleDbusMux

namespace RequestNameFlags

def allowReplacement : UInt32 := 0x1
def replaceExisting : UInt32 := 0x2
def doNotQueue : UInt32 := 0x4

def has (flags flag : UInt32) : Bool := (flags &&& flag) != 0

end RequestNameFlags

namespace RequestNameReply

@[simp] def primaryOwner : UInt32 := 1
@[simp] def inQueue : UInt32 := 2
@[simp] def nameExists : UInt32 := 3
@[simp] def alreadyOwner : UInt32 := 4

end RequestNameReply

namespace ReleaseNameReply

@[simp] def released : UInt32 := 1
@[simp] def nonExistent : UInt32 := 2
@[simp] def notOwner : UInt32 := 3

end ReleaseNameReply

structure QueueEntry where
  clientId : ClientId
  uniqueName : String
  allowReplacement : Bool
  deriving DecidableEq, Repr

/-- A client id with its unique name, as results report an owner. -/
def QueueEntry.owner (entry : QueueEntry) : ClientId × String := (entry.clientId, entry.uniqueName)

structure NameQueue where
  primaryOwner : Option QueueEntry := none
  waiters : List QueueEntry := []
  deriving DecidableEq, Repr

namespace NameQueue

def allOwners (queue : NameQueue) : List String :=
  queue.primaryOwner.toList.map (·.uniqueName) ++ queue.waiters.map (·.uniqueName)

def isPrimaryOwner (queue : NameQueue) (clientId : ClientId) : Bool :=
  queue.primaryOwner.any (fun owner => owner.clientId == clientId)

def containsClient (queue : NameQueue) (clientId : ClientId) : Bool :=
  queue.isPrimaryOwner clientId || queue.waiters.any (fun e => e.clientId == clientId)

end NameQueue

structure RequestNameResult where
  replyCode : UInt32
  forwardToBus : Bool
  replacedOwner : Option String
  deriving DecidableEq, Repr

structure ReleaseNameResult where
  replyCode : UInt32
  forwardToBus : Bool
  newOwner : Option (ClientId × String)
  deriving DecidableEq, Repr

structure NameQueueManager where
  queues : AssocMap String NameQueue

namespace NameQueue

/-- The body of `request_name` once the queue of the name is at hand. -/
def request (queue : NameQueue) (clientId : ClientId) (uniqueName : String) (flags : UInt32) :
    RequestNameResult × NameQueue :=
  if queue.isPrimaryOwner clientId then (⟨RequestNameReply.alreadyOwner, false, none⟩, queue)
  else if queue.containsClient clientId then (⟨RequestNameReply.inQueue, false, none⟩, queue)
  else
    let entry : QueueEntry :=
      ⟨clientId, uniqueName, RequestNameFlags.has flags RequestNameFlags.allowReplacement⟩
    match queue.primaryOwner with
    | none =>
        (⟨RequestNameReply.primaryOwner, true, none⟩, { queue with primaryOwner := some entry })
    | some currentOwner =>
        if RequestNameFlags.has flags RequestNameFlags.replaceExisting &&
            currentOwner.allowReplacement then
          (⟨RequestNameReply.primaryOwner, true, some currentOwner.uniqueName⟩,
            ⟨some entry, currentOwner :: queue.waiters⟩)
        else if RequestNameFlags.has flags RequestNameFlags.doNotQueue then
          (⟨RequestNameReply.nameExists, false, none⟩, queue)
        else
          (⟨RequestNameReply.inQueue, false, none⟩,
            { queue with waiters := queue.waiters ++ [entry] })

/-- What `remove_client` does to one queue: the queue left behind and, when the
client was its primary owner, the new owner. -/
def removeClient (queue : NameQueue) (clientId : ClientId) :
    NameQueue × Option (Option (ClientId × String)) :=
  if queue.isPrimaryOwner clientId then
    match queue.waiters with
    | next :: rest => (⟨some next, rest⟩, some (some next.owner))
    | [] => ({}, some none)
  else
    ({ queue with waiters := queue.waiters.filter (fun e => e.clientId != clientId) }, none)

/-- The queues `remove_client` puts on its list of empty queues. -/
def isVacant (queue : NameQueue) : Bool := queue.primaryOwner.isNone && queue.waiters.isEmpty

end NameQueue

namespace NameQueueManager

def new : NameQueueManager := ⟨∅⟩

/-- `entry(name).or_default()` leaves a queue in the map on every path. -/
def requestName (manager : NameQueueManager) (name : String) (clientId : ClientId)
    (uniqueName : String) (flags : UInt32) : RequestNameResult × NameQueueManager :=
  let queue := (manager.queues.lookup name).getD {}
  let (result, queue) := queue.request clientId uniqueName flags
  (result, ⟨manager.queues.insert name queue⟩)

def releaseName (manager : NameQueueManager) (name : String) (clientId : ClientId) :
    ReleaseNameResult × NameQueueManager :=
  match manager.queues.lookup name with
  | none => (⟨ReleaseNameReply.nonExistent, false, none⟩, manager)
  | some queue =>
      if queue.isPrimaryOwner clientId then
        match queue.waiters with
        | next :: rest =>
            (⟨ReleaseNameReply.released, false, some next.owner⟩,
              ⟨manager.queues.insert name ⟨some next, rest⟩⟩)
        | [] => (⟨ReleaseNameReply.released, true, none⟩, ⟨manager.queues.erase name⟩)
      else
        let waiters := queue.waiters.filter (fun e => e.clientId != clientId)
        let manager : NameQueueManager :=
          ⟨manager.queues.insert name { queue with waiters := waiters }⟩
        if waiters.length < queue.waiters.length then
          (⟨ReleaseNameReply.released, false, none⟩, manager)
        else (⟨ReleaseNameReply.notOwner, false, none⟩, manager)

def listQueuedOwners (manager : NameQueueManager) (name : String) : List String :=
  ((manager.queues.lookup name).map NameQueue.allOwners).getD []

/-- One result for each name the client owned, in the iteration order of the map. -/
def removeClient (manager : NameQueueManager) (clientId : ClientId) :
    List (String × Option (ClientId × String)) × NameQueueManager :=
  (manager.queues.report (fun queue => (queue.removeClient clientId).2),
    ⟨(manager.queues.mapValues (fun _ queue => (queue.removeClient clientId).1)).retain
      (fun _ queue => !queue.isVacant)⟩)

def nameHasOwner (manager : NameQueueManager) (name : String) : Bool :=
  (manager.queues.lookup name).any (fun queue => queue.primaryOwner.isSome)

def getPrimaryOwner (manager : NameQueueManager) (name : String) : Option (ClientId × String) :=
  (manager.queues.lookup name).bind (fun queue => queue.primaryOwner.map QueueEntry.owner)

end NameQueueManager

end KapsuleDbusMux
