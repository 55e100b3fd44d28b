import KapsuleDbusMux.Library.Locks
import Mathlib.Data.Fintype.Option

/-! # The locks of the multiplexer

The order in which the tasks of `multiplexer.rs` and `router.rs` take the `RwLock`s they
share: every function with the guards it takes, how long it keeps them, and where it
awaits something else. What a function does under a guard is left out, and a branch may
be taken whatever the data, so every run of the program is a run here.

A guard lives to the end of its block, or of its statement when it has no name. Calls on
a bus and sends on a channel are pauses: they are taken to end. The mutex around the
stream of a bus is left out, as only the main loop takes it.
-/

namespace KapsuleDbusMux

open Locks

namespace Locking

inductive Lock where
  | routingTable
  | clients
  | nameQueue
  | matchRuleRefcount
  | portalRequests
  | serialMap
  deriving DecidableEq, Repr

abbrev Script := Code Lock

def read (lock : Lock) (body : Script) : Script := .hold lock .read body

def write (lock : Lock) (body : Script) : Script := .hold lock .write body

/-- A guard without a name, for one call that does not await. -/
def readOnce (lock : Lock) : Script := read lock .skip

def writeOnce (lock : Lock) : Script := write lock .skip

/-! ## The router -/

def routeFor : Script := readOnce .routingTable

/-- Cloning or sending may fail before the call is recorded. -/
def forwardMethodCall : Script := .optional (.seq .pause (.optional (writeOnce .serialMap)))

def handleReply : Script := .optional (writeOnce .serialMap)

def cleanupExpired : Script := writeOnce .serialMap

/-! ## Replies -/

def sendReplyToClient : Script := read .clients (.optional .pause)

def sendErrorToClient : Script := read .clients (.optional .pause)

/-- A handler first decodes its arguments. -/
def decoded (body : Script) : Script := .choose sendErrorToClient body

/-! ## Methods of the driver -/

def findClientCredentials : Script := readOnce .clients

def handleHello : Script := read .clients (.optional .pause)

def handleRequestName : Script :=
  decoded (.seq (readOnce .clients) (.optional (.seq (writeOnce .nameQueue)
    (.choose
      (.seq .pause
        (.choose
          (.seq (.optional (write .routingTable (writeOnce .clients))) sendReplyToClient)
          (write .nameQueue sendErrorToClient)))
      sendReplyToClient))))

def handleReleaseName : Script :=
  decoded (.block [
    writeOnce .nameQueue,
    .oneOf [
      write .routingTable (writeOnce .clients),
      .block [
        readOnce .clients,
        .pause,
        .optional (.seq (.optional (writeOnce .routingTable)) (writeOnce .clients))],
      writeOnce .clients],
    sendReplyToClient])

def handleListNames : Script := .seq (readOnce .routingTable) sendReplyToClient

def handleListActivatableNames : Script :=
  .seq .pause (.choose sendReplyToClient sendErrorToClient)

def handleGetNameOwner : Script :=
  decoded (.block [
    readOnce .routingTable,
    .pause,
    .choose sendReplyToClient sendErrorToClient])

def handleNameHasOwner : Script := decoded (.seq (readOnce .routingTable) sendReplyToClient)

def handleGetId : Script := sendReplyToClient

def handlePing : Script := sendReplyToClient

def handleGetMachineId : Script := sendReplyToClient

/-- The driver answers for itself without a lookup. -/
def answerCredentials : Script :=
  decoded (.choose sendReplyToClient
    (.seq findClientCredentials (.choose sendReplyToClient sendErrorToClient)))

def handleGetConnectionUnixUser : Script := answerCredentials

def handleGetConnectionUnixProcessId : Script := answerCredentials

def handleGetConnectionCredentials : Script := answerCredentials

/-- The guard on the queues lives until the reply is sent. -/
def handleListQueuedOwners : Script := decoded (read .nameQueue sendReplyToClient)

def handleIntrospect : Script := sendReplyToClient

def handleAddMatch : Script :=
  decoded (.choose sendErrorToClient
    (.seq (writeOnce .clients)
      (write .matchRuleRefcount
        (.block [.optional .pause, .optional .pause, sendReplyToClient]))))

def handleRemoveMatch : Script :=
  decoded (.seq (writeOnce .clients)
    (.choose sendErrorToClient
      (write .matchRuleRefcount
        (.block [.optional .pause, .optional .pause, sendReplyToClient]))))

def handleGetAll : Script := sendReplyToClient

def handleDbusMethod : Script :=
  .oneOf [
    handleHello,
    handleRequestName,
    handleReleaseName,
    handleListNames,
    handleListActivatableNames,
    handleGetNameOwner,
    handleNameHasOwner,
    handleGetId,
    handlePing,
    handleGetMachineId,
    handleGetConnectionUnixUser,
    handleGetConnectionUnixProcessId,
    handleGetConnectionCredentials,
    handleListQueuedOwners,
    handleAddMatch,
    handleRemoveMatch,
    handleIntrospect,
    handleGetAll,
    .seq forwardMethodCall (.optional sendErrorToClient)]

/-! ## The main loop -/

def handleClientMessage : Script :=
  .choose handleDbusMethod
    (.seq routeFor (.optional (.seq forwardMethodCall (.optional sendErrorToClient))))

/-- A tracked portal response goes to its client; every other signal to the clients with
a matching rule, one after the other under one guard. -/
def handleSignal : Script :=
  .seq (.optional (writeOnce .portalRequests))
    (.choose (read .clients (.optional .pause)) (read .clients (.loop (.optional .pause))))

/-- A reply may register a portal request before it goes to its client. -/
def handleReplyMessage : Script :=
  .seq handleReply
    (.optional (.seq (.optional (writeOnce .portalRequests)) (read .clients (.optional .pause))))

def handleBusMessage : Script :=
  .choose (.optional (writeOnce .routingTable))
    (.seq (.optional handleReplyMessage) (.optional handleSignal))

/-- `sync_routing_table` keeps its guard over three calls on the buses. -/
def new : Script :=
  .block [.pause, write .routingTable (.block [.pause, .pause, .pause]), .pause]

def run : Script :=
  .loop (.seq .pause
    (.oneOf [
      handleBusMessage,
      handleClientMessage,
      .seq cleanupExpired (writeOnce .portalRequests)]))

/-! ## The task of a client -/

def releaseRules : Script :=
  .optional (write .matchRuleRefcount (.loop (.seq (.optional .pause) (.optional .pause))))

/-- Names of a client that goes away: first those that the queues report, then those it
recorded. The guard on the queues ends at `continue` or at `drop`. -/
def releaseNames : Script :=
  .seq
    (.loop (.choose
      (write .routingTable (writeOnce .clients))
      (.seq (writeOnce .routingTable) .pause)))
    (.loop (.seq (readOnce .nameQueue) (.optional (.seq (writeOnce .routingTable) .pause))))

def handleNewClient : Script :=
  .seq .pause (.optional (.block [
    writeOnce .clients,
    .loop .pause,
    writeOnce .clients,
    releaseRules,
    writeOnce .portalRequests,
    writeOnce .nameQueue,
    releaseNames]))

/-! ## The order -/

/-- The client map comes last: it is taken under other guards, and nothing under it. -/
def rank : Lock → Nat
  | .clients => 1
  | _ => 0

def script {n : Nat} : Option (Fin n) → Script
  | none => .seq new run
  | some _ => handleNewClient

def initial (n : Nat) : State (Option (Fin n)) Lock := ⟨fun i => [.code (script i)], []⟩

theorem script_above {n : Nat} (i : Option (Fin n)) : (script i).Above rank 0 := by
  cases i with
  | none =>
      show (Code.seq new run).Above rank 0
      decide
  | some c =>
      show handleNewClient.Above rank 0
      decide

/-- In every interleaving of the main loop with any number of clients that come and go, a
lock that is held for writing is held by one task, and the tasks never block each other:
from every state all of them can be brought to their end. -/
theorem locks_never_deadlock {n : Nat} {events : List (Event (Option (Fin n)))}
    {s : State (Option (Fin n)) Lock} (hrun : Trace.run State.step (initial n) events = some s) :
    s.Exclusive ∧ ∃ more t, Trace.run State.step s more = some t ∧ ∀ i, t.tasks i = [] := by
  have hwf : s.Wf rank := State.wf_of_order script_above hrun
  exact ⟨hwf.exclusive, hwf.exists_finishing_run⟩

def go {ι : Type} (i : ι) (choices : List Bool) : List (Event ι) := choices.map (Event.advance i)

def enter {ι : Type} (i : ι) : List (Event ι) := [.request i, .grant i]

/-- The main loop has a name to record and a client registers: both want the client map,
and the main loop holds the routing table. -/
def contended : List (Event (Option (Fin 2))) :=
  go none [true, true, true, true] ++ enter none ++
    go none [true, true, true, true, true, true, true, true, true, true, true] ++
    go none [true, true, true, false, true, true, false, true, false, true] ++ enter none ++
    go none [true, true, true, true] ++ enter none ++
    go none [true, true, true, true, true, true, true, true] ++ enter none ++
    go (some 0) [true, true, true, true] ++ enter (some 0) ++
    [.request none] ++ go (some 1) [true, true, true, true] ++ [.request (some 1)]

theorem locks_never_deadlock_contended :
    ∃ s, Trace.run State.step (initial 2) contended = some s ∧ s.waiting = [none, some 1] ∧
      Item.release Lock.routingTable .write ∈ s.tasks none ∧
      Item.release Lock.clients .write ∈ s.tasks (some 0) ∧
      ∃ more t, Trace.run State.step s more = some t ∧ ∀ i, t.tasks i = [] := by
  have heval : (Trace.run State.step (initial 2) contended).any (fun s => decide
      (s.waiting = [none, some 1] ∧ Item.release Lock.routingTable .write ∈ s.tasks none ∧
        Item.release Lock.clients .write ∈ s.tasks (some 0))) = true := by
    decide
  obtain ⟨s, hrun, hwaiting, hmain, hclient⟩ := Trace.exists_of_eval heval
  exact ⟨s, hrun, hwaiting, hmain, hclient, (locks_never_deadlock hrun).2⟩

end Locking

end KapsuleDbusMux
