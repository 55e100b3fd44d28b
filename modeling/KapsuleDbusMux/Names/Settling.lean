import KapsuleDbusMux.Multiplexer.NameInvariant

/-! # The name tasks come to an end

Once no client asks for anything, the handler in progress, the cleanups and the signals of
the bus are all that is left to do. Every step of theirs uses up some of a measure, in
whatever order they take turns and whatever the bus answers. A call on the bus is one step,
so it is taken to return, which it does not when the answer is behind more signals than the
connection keeps for a main loop that waits for that answer. Otherwise none of the tasks
waits for another one but at a lock (`Multiplexer.Locking` is about these). The measure of
a cleanup that has yet to remove its client from the queues depends on the queues, which
the handler in progress may still make one more of.
-/

namespace KapsuleDbusMux

/-! ## The number of queues -/

namespace NameQueueManager

variable (manager : NameQueueManager)

def size : Nat := manager.queues.count (fun _ _ => true)

end NameQueueManager

namespace ContainerBus

end ContainerBus

/-! ## What is left to do -/

/-- The steps a handler has left at most, and one for the signal its call on the bus may
bring about. -/
def MainTask.work : MainTask → Nat
  | .idle => 0
  | .requestQueue .. => 5
  | .requestBus .. => 4
  | .requestRouting .. => 2
  | .requestOwned .. => 1
  | .requestRevert .. => 1
  | .promoteRouting .. => 2
  | .promoteOwned .. => 1
  | .releaseLookup .. => 5
  | .releaseBus .. => 4
  | .releaseRouting .. => 2
  | .releaseOwned .. => 1

def MainTask.queuesAhead : MainTask → Nat
  | .requestQueue .. => 1
  | _ => 0

/-- The same for a cleanup that collected `owned` names and will find its client in at most
`queues` queues: three for each queue, four for each name. -/
def CleanupPhase.work (owned queues : Nat) : CleanupPhase → Nat
  | .queue => 3 + 3 * queues + 4 * owned
  | .results rest => 2 + 3 * rest.length + 4 * owned
  | .promoteOwned _ _ rest => 3 + 3 * rest.length + 4 * owned
  | .releaseBus _ rest => 4 + 3 * rest.length + 4 * owned
  | .ownedNames rest => 1 + 4 * rest.length
  | .ownedRouting _ rest => 4 + 4 * rest.length
  | .ownedBus _ rest => 3 + 4 * rest.length

def Cleanup.work (queues : Nat) (cleanup : Cleanup) : Nat :=
  cleanup.phase.work cleanup.ownedNames.length queues

/-- An event that brings nothing new: a task goes on, or a signal is read. -/
def NameEvent.settles : NameEvent → Bool
  | .resume _ | .nameOwnerChanged | .removeFromQueues .. | .cleanUp .. => true
  | .connect .. | .requestName .. | .releaseName .. | .disconnect .. => false

namespace NameState

/-- A bound on the queues there will be, as long as no client asks for anything. -/
def queuesAhead (s : NameState) : Nat := s.queue.size + s.main.queuesAhead

def work (s : NameState) : Nat :=
  s.main.work + s.bus.signals.length +
    s.cleanups.total (fun _ cleanup => cleanup.work s.queuesAhead)

def Settled (s : NameState) : Prop := s.quiescent ∧ s.bus.signals = []

instance (s : NameState) : Decidable s.Settled := inferInstanceAs (Decidable (_ ∧ _))

/-- The handler is waiting for the answer to a request that the bus never grants. -/
def AsksInVain (s : NameState) : Prop :=
  ∃ clientId name uniqueName,
    s.main = .requestBus clientId name uniqueName ∧ isUniqueName name = true

/-- As long as calls on the bus return, no task waits for another one: the handler goes on
after every answer that the bus can give, and so does each of the cleanups, and signals are
read unless the main loop is busy. -/
structure Unblocked (s : NameState) : Prop where
  handler : s.main ≠ .idle → ∀ answered,
    (s.step (.resume answered)).isSome ↔ (answered = true → ¬ s.AsksInVain)
  cleanup : ∀ clientId ∈ s.cleanups,
    (∃ results, (s.step (.removeFromQueues clientId results)).isSome) ∨
      ∀ answered, (s.step (.cleanUp clientId answered)).isSome
  signals : s.main = .idle → s.bus.signals ≠ [] → (s.step .nameOwnerChanged).isSome

/-- While something is left to do, something can be done. -/
theorem Unblocked.settled {s : NameState} (h : s.Unblocked)
    (hnone : ∀ e, e.settles = true → s.step e = none) : s.Settled := by
  have hidle : s.main = .idle := by
    by_contra hbusy
    have hsome := (h.handler hbusy false).mpr (fun hfalse => by cases hfalse)
    rw [hnone (.resume false) rfl] at hsome
    cases hsome
  refine ⟨⟨hidle, ?_⟩, ?_⟩
  · cases hentries : s.cleanups.entries with
    | nil => rfl
    | cons entry entries =>
        have hmem : entry.1 ∈ s.cleanups := by
          rw [AList.mem_keys]
          unfold AList.keys
          rw [hentries]
          exact List.mem_cons_self
        rcases h.cleanup entry.1 hmem with ⟨results, hsome⟩ | hsome
        · rw [hnone (.removeFromQueues entry.1 results) rfl] at hsome
          cases hsome
        · have hstep := hsome true
          rw [hnone (.cleanUp entry.1 true) rfl] at hstep
          cases hstep
  · by_contra hread
    have hsome := h.signals hidle hread
    rw [hnone .nameOwnerChanged rfl] at hsome
    cases hsome

end NameState

end KapsuleDbusMux
