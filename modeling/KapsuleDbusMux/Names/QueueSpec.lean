import KapsuleDbusMux.Library.Roster
import KapsuleDbusMux.Names.NameQueue

/-! # What a name queue is

A name has a roster of clients: the first owns it, the others wait. `request`
and `release` say what the two operations do to a roster and what they answer,
and removing a client is leaving every roster. The manager's hash map of owner slots and
deques refines that, as long as it keeps no queue without an owner
(`WellFormed`), which every operation preserves.
-/

namespace KapsuleDbusMux

open Roster (Distinct leave has)

abbrev QueueRoster := List QueueEntry

namespace QueueRoster

def request (members : QueueRoster) (clientId : ClientId) (uniqueName : String)
    (flags : UInt32) : RequestNameResult × QueueRoster :=
  let entry : QueueEntry :=
    ⟨clientId, uniqueName, RequestNameFlags.has flags RequestNameFlags.allowReplacement⟩
  match members with
  | [] => (⟨RequestNameReply.primaryOwner, true, none⟩, [entry])
  | owner :: waiters =>
      if owner.clientId = clientId then
        (⟨RequestNameReply.alreadyOwner, false, none⟩, owner :: waiters)
      else if has QueueEntry.clientId clientId waiters then
        (⟨RequestNameReply.inQueue, false, none⟩, owner :: waiters)
      else if RequestNameFlags.has flags RequestNameFlags.replaceExisting &&
          owner.allowReplacement then
        (⟨RequestNameReply.primaryOwner, true, some owner.uniqueName⟩,
          entry :: owner :: waiters)
      else if RequestNameFlags.has flags RequestNameFlags.doNotQueue then
        (⟨RequestNameReply.nameExists, false, none⟩, owner :: waiters)
      else (⟨RequestNameReply.inQueue, false, none⟩, owner :: waiters ++ [entry])

def releaseResult (members : QueueRoster) (clientId : ClientId) : ReleaseNameResult :=
  match members with
  | [] => ⟨ReleaseNameReply.nonExistent, false, none⟩
  | owner :: waiters =>
      if owner.clientId = clientId then
        ⟨ReleaseNameReply.released, waiters.isEmpty, waiters.head?.map QueueEntry.owner⟩
      else if has QueueEntry.clientId clientId waiters then
        ⟨ReleaseNameReply.released, false, none⟩
      else ⟨ReleaseNameReply.notOwner, false, none⟩

def requestEntry (clientId : ClientId) (uniqueName : String) (flags : UInt32) : QueueEntry :=
  ⟨clientId, uniqueName, RequestNameFlags.has flags RequestNameFlags.allowReplacement⟩

inductive Requested (clientId : ClientId) (uniqueName : String) (flags : UInt32) :
    QueueRoster → RequestNameResult × QueueRoster → Prop
  | vacant : Requested clientId uniqueName flags []
      (⟨RequestNameReply.primaryOwner, true, none⟩, [requestEntry clientId uniqueName flags])
  | owns {owner : QueueEntry} {waiters : QueueRoster} (howner : owner.clientId = clientId) :
      Requested clientId uniqueName flags (owner :: waiters)
        (⟨RequestNameReply.alreadyOwner, false, none⟩, owner :: waiters)
  | waits {owner : QueueEntry} {waiters : QueueRoster} (howner : owner.clientId ≠ clientId)
      (hwaits : clientId ∈ waiters.map QueueEntry.clientId) :
      Requested clientId uniqueName flags (owner :: waiters)
        (⟨RequestNameReply.inQueue, false, none⟩, owner :: waiters)
  | replaces {owner : QueueEntry} {waiters : QueueRoster}
      (hnew : clientId ∉ (owner :: waiters).map QueueEntry.clientId)
      (hreplace : RequestNameFlags.has flags RequestNameFlags.replaceExisting = true)
      (hallow : owner.allowReplacement = true) :
      Requested clientId uniqueName flags (owner :: waiters)
        (⟨RequestNameReply.primaryOwner, true, some owner.uniqueName⟩,
          requestEntry clientId uniqueName flags :: owner :: waiters)
  | refused {owner : QueueEntry} {waiters : QueueRoster}
      (hnew : clientId ∉ (owner :: waiters).map QueueEntry.clientId) :
      Requested clientId uniqueName flags (owner :: waiters)
        (⟨RequestNameReply.nameExists, false, none⟩, owner :: waiters)
  | queued {owner : QueueEntry} {waiters : QueueRoster}
      (hnew : clientId ∉ (owner :: waiters).map QueueEntry.clientId) :
      Requested clientId uniqueName flags (owner :: waiters)
        (⟨RequestNameReply.inQueue, false, none⟩,
          owner :: waiters ++ [requestEntry clientId uniqueName flags])

/-- Whoever is in the queue already changes nothing by asking again. -/
theorem request_member {members : QueueRoster} {clientId : ClientId}
    (hmem : clientId ∈ members.map QueueEntry.clientId) (uniqueName : String) (flags : UInt32) :
    (request members clientId uniqueName flags).2 = members := by
  cases members with
  | nil => cases hmem
  | cons owner waiters =>
      by_cases howner : owner.clientId = clientId
      · simp [request, howner]
      · rw [List.map_cons, List.mem_cons, or_iff_right (Ne.symm howner)] at hmem
        simp [request, howner, Roster.has_iff.mpr hmem]

/-- A newcomer replaces the owner, goes away or waits, as the flags say. -/
theorem request_newcomer {owner : QueueEntry} {waiters : QueueRoster} {clientId : ClientId}
    (hnew : clientId ∉ (owner :: waiters).map QueueEntry.clientId) (uniqueName : String)
    (flags : UInt32) :
    (request (owner :: waiters) clientId uniqueName flags).2 =
      if RequestNameFlags.has flags RequestNameFlags.replaceExisting &&
          owner.allowReplacement then
        requestEntry clientId uniqueName flags :: owner :: waiters
      else if RequestNameFlags.has flags RequestNameFlags.doNotQueue then owner :: waiters
      else owner :: waiters ++ [requestEntry clientId uniqueName flags] := by
  rw [List.map_cons, List.mem_cons, not_or] at hnew
  have hnot : has QueueEntry.clientId clientId waiters = false := by
    rw [← Bool.not_eq_true, Roster.has_iff]
    exact hnew.2
  simp only [request, Ne.symm hnew.1, hnot, if_false, Bool.false_eq_true, requestEntry]
  split
  · rfl
  · split <;> rfl

theorem request_requested (members : QueueRoster) (clientId : ClientId) (uniqueName : String)
    (flags : UInt32) :
    Requested clientId uniqueName flags members (request members clientId uniqueName flags) := by
  cases members with
  | nil => exact .vacant
  | cons owner waiters =>
      simp only [request]
      by_cases howner : owner.clientId = clientId
      · rw [if_pos howner]
        exact .owns howner
      · rw [if_neg howner]
        cases hhas : has QueueEntry.clientId clientId waiters with
        | true => exact .waits howner (Roster.has_iff.mp hhas)
        | false =>
            have hnew : clientId ∉ (owner :: waiters).map QueueEntry.clientId := by
              rw [List.map_cons, List.mem_cons, not_or]
              refine ⟨Ne.symm howner, fun hmem => ?_⟩
              rw [Roster.has_iff.mpr hmem] at hhas
              cases hhas
            rw [if_neg Bool.false_ne_true]
            split
            · next h =>
                rw [Bool.and_eq_true] at h
                exact .replaces hnew h.1 h.2
            · split
              · exact .refused hnew
              · exact .queued hnew

section Requested

variable {members : QueueRoster} {clientId : ClientId} {uniqueName : String} {flags : UInt32}
  {outcome : RequestNameResult × QueueRoster}
  (h : Requested clientId uniqueName flags members outcome)
include h

theorem Requested.distinct (hd : Distinct QueueEntry.clientId members) :
    Distinct QueueEntry.clientId outcome.2 := by
  cases h with
  | vacant => exact Roster.distinct_singleton _ _
  | owns _ => exact hd
  | waits _ _ => exact hd
  | replaces hnew _ _ => exact Roster.distinct_cons.mpr ⟨hnew, hd⟩
  | refused _ => exact hd
  | queued hnew => exact Roster.distinct_concat hd hnew

/-- Whoever is in a roster after a request was in it before, or is the caller and new. -/
theorem Requested.mem_cases {e : QueueEntry} (he : e ∈ outcome.2) :
    e ∈ members ∨
      clientId ∉ members.map QueueEntry.clientId ∧ e = requestEntry clientId uniqueName flags := by
  cases h with
  | vacant => exact Or.inr ⟨List.not_mem_nil, List.mem_singleton.mp he⟩
  | owns _ => exact Or.inl he
  | waits _ _ => exact Or.inl he
  | replaces hnew _ _ => exact (List.mem_cons.mp he).symm.imp id (And.intro hnew)
  | refused _ => exact Or.inl he
  | queued hnew => exact (List.mem_append.mp he).imp id (fun h => ⟨hnew, List.mem_singleton.mp h⟩)

/-- Who owns the name after a request: the caller when the answer is
`PRIMARY_OWNER`, and otherwise whoever owned it before. -/
theorem Requested.head :
    outcome.2.head?.map QueueEntry.owner =
      if outcome.1.replyCode = RequestNameReply.primaryOwner then some (clientId, uniqueName)
      else members.head?.map QueueEntry.owner := by
  cases h <;> rfl

/-- The bus hears of a request exactly when the caller becomes owner. -/
theorem Requested.forwardToBus :
    outcome.1.forwardToBus = true ↔ outcome.1.replyCode = RequestNameReply.primaryOwner := by
  cases h <;> simp

/-- Whoever becomes owner was not in the queue and goes in front of it. -/
theorem Requested.forwarded (hforward : outcome.1.forwardToBus = true) :
    clientId ∉ members.map QueueEntry.clientId ∧
      outcome.2 = requestEntry clientId uniqueName flags :: members := by
  cases h with
  | vacant => exact ⟨List.not_mem_nil, rfl⟩
  | replaces hnew _ _ => exact ⟨hnew, rfl⟩
  | owns _ => cases hforward
  | waits _ _ => cases hforward
  | refused _ => cases hforward
  | queued _ => cases hforward

theorem Requested.ne_nil : outcome.2 ≠ [] := by
  cases h <;> simp

/-- The four answers, by the caller's place in the queue before and afterwards. -/
theorem Requested.replyCode (hd : Distinct QueueEntry.clientId members) :
    (outcome.1.replyCode = RequestNameReply.alreadyOwner ↔
        members.head?.map QueueEntry.clientId = some clientId) ∧
      (outcome.1.replyCode = RequestNameReply.inQueue ↔
        clientId ∈ outcome.2.tail.map QueueEntry.clientId) ∧
      (outcome.1.replyCode = RequestNameReply.nameExists ↔
        clientId ∉ outcome.2.map QueueEntry.clientId) ∧
      (outcome.1.replyCode = RequestNameReply.primaryOwner ↔
        members.head?.map QueueEntry.clientId ≠ some clientId ∧
          outcome.2.head?.map QueueEntry.clientId = some clientId) := by
  cases h with
  | vacant => simp [requestEntry]
  | owns howner =>
      have hwaits := (Roster.distinct_cons.mp hd).1
      rw [howner] at hwaits
      simpa [howner] using hwaits
  | waits howner hwaits => simp [howner, List.mem_map.mp hwaits]
  | replaces hnew _ _ =>
      rw [List.map_cons, List.mem_cons, not_or] at hnew
      simp [requestEntry, Ne.symm hnew.1, hnew]
  | refused hnew =>
      rw [List.map_cons, List.mem_cons, not_or] at hnew
      simp [Ne.symm hnew.1, hnew]
  | queued hnew =>
      rw [List.map_cons, List.mem_cons, not_or] at hnew
      simp [requestEntry, Ne.symm hnew.1]

end Requested

/-! ## Leaving one roster -/

/-- All that a release can come to, on a roster with distinct clients. -/
inductive Released (clientId : ClientId) : QueueRoster → ReleaseNameResult → QueueRoster → Prop
  | absent : Released clientId [] ⟨ReleaseNameReply.nonExistent, false, none⟩ []
  | last {owner : QueueEntry} (howner : owner.clientId = clientId) :
      Released clientId [owner] ⟨ReleaseNameReply.released, true, none⟩ []
  | promotes {owner next : QueueEntry} {rest : QueueRoster} (howner : owner.clientId = clientId)
      (hnext : next.clientId ≠ clientId) :
      Released clientId (owner :: next :: rest)
        ⟨ReleaseNameReply.released, false, some next.owner⟩ (next :: rest)
  | stopsWaiting {owner : QueueEntry} {waiters : QueueRoster} (howner : owner.clientId ≠ clientId) :
      Released clientId (owner :: waiters) ⟨ReleaseNameReply.released, false, none⟩
        (owner :: leave QueueEntry.clientId clientId waiters)
  | stranger {owner : QueueEntry} {waiters : QueueRoster} (howner : owner.clientId ≠ clientId) :
      Released clientId (owner :: waiters) ⟨ReleaseNameReply.notOwner, false, none⟩
        (owner :: leave QueueEntry.clientId clientId waiters)

theorem release_released {members : QueueRoster} (hd : Distinct QueueEntry.clientId members)
    (clientId : ClientId) :
    Released clientId members (releaseResult members clientId)
      (leave QueueEntry.clientId clientId members) := by
  cases members with
  | nil => exact .absent
  | cons owner waiters =>
      by_cases howner : owner.clientId = clientId
      · subst howner
        rw [Roster.leave_head hd]
        simp only [releaseResult, if_true]
        cases waiters with
        | nil => exact .last rfl
        | cons next rest =>
            have hnot := (Roster.distinct_cons.mp hd).1
            rw [List.map_cons, List.mem_cons, not_or] at hnot
            exact .promotes rfl (Ne.symm hnot.1)
      · rw [Roster.leave_cons_ne _ howner]
        simp only [releaseResult, howner, if_false]
        split
        · exact .stopsWaiting howner
        · exact .stranger howner

theorem Released.newOwner {clientId : ClientId} {members left : QueueRoster}
    {result : ReleaseNameResult} {newOwner : ClientId × String}
    (h : Released clientId members result left) (hnew : result.newOwner = some newOwner) :
    ∃ next ∈ members, newOwner = next.owner := by
  cases h with
  | promotes _ _ =>
      cases hnew
      exact ⟨_, List.mem_cons_of_mem _ List.mem_cons_self, rfl⟩
  | absent => cases hnew
  | last _ => cases hnew
  | stopsWaiting _ => cases hnew
  | stranger _ => cases hnew

end QueueRoster

namespace NameQueue

def members (queue : NameQueue) : QueueRoster := queue.primaryOwner.toList ++ queue.waiters

/-- Somebody owns the name, and nobody is in its queue twice. -/
structure WellFormed (queue : NameQueue) : Prop where
  owned : queue.primaryOwner.isSome = true
  distinct : Distinct QueueEntry.clientId queue.members

theorem WellFormed.exists_owner {queue : NameQueue} (h : queue.WellFormed) :
    ∃ owner, queue = ⟨some owner, queue.waiters⟩ := by
  rcases Option.isSome_iff_exists.mp h.owned with ⟨owner, howner⟩
  exact ⟨owner, by rw [← howner]⟩

/-- The body of `request_name` does to the roster what `QueueRoster.request` says.
The default queue of `or_default` counts as the empty roster. -/
theorem request_refines {queue : NameQueue} (h : queue = {} ∨ queue.WellFormed)
    (clientId : ClientId) (uniqueName : String) (flags : UInt32) :
    (queue.request clientId uniqueName flags).1 =
        (QueueRoster.request queue.members clientId uniqueName flags).1 ∧
      (queue.request clientId uniqueName flags).2.members =
        (QueueRoster.request queue.members clientId uniqueName flags).2 ∧
      (queue.request clientId uniqueName flags).2.WellFormed := by
  rcases h with h | h
  · subst h
    exact ⟨rfl, rfl, rfl, Roster.distinct_singleton _ _⟩
  · rcases h.exists_owner with ⟨owner, howner⟩
    have hdistinct :=
      (QueueRoster.request_requested queue.members clientId uniqueName flags).distinct h.distinct
    rw [howner] at hdistinct ⊢
    have heq : ((⟨some owner, queue.waiters⟩ : NameQueue).request clientId uniqueName flags).1 =
          (QueueRoster.request (owner :: queue.waiters) clientId uniqueName flags).1 ∧
        ((⟨some owner, queue.waiters⟩ : NameQueue).request clientId uniqueName flags).2.members =
          (QueueRoster.request (owner :: queue.waiters) clientId uniqueName flags).2 ∧
        ((⟨some owner, queue.waiters⟩ : NameQueue).request clientId uniqueName
          flags).2.primaryOwner.isSome = true := by
      have hmem : queue.waiters.any (fun e => e.clientId == clientId) =
          has QueueEntry.clientId clientId queue.waiters := rfl
      simp only [request, QueueRoster.request, isPrimaryOwner, containsClient, Option.any_some,
        hmem, beq_iff_eq, Bool.or_eq_true]
      by_cases hc : owner.clientId = clientId
      · simp [hc, members]
      · simp only [hc, if_false, false_or]
        cases has QueueEntry.clientId clientId queue.waiters with
        | true => simp [members]
        | false =>
            simp only [Bool.false_eq_true, if_false]
            split
            · simp [members]
            · split <;> simp [members]
    refine ⟨heq.1, heq.2.1, heq.2.2, ?_⟩
    rw [heq.2.1]
    exact hdistinct

theorem removeClient_refines {queue : NameQueue} (h : queue.WellFormed) (clientId : ClientId) :
    (queue.removeClient clientId).1.members = leave QueueEntry.clientId clientId queue.members ∧
      ((queue.removeClient clientId).1.isVacant = true ↔
        (queue.removeClient clientId).1.members = []) ∧
      ((queue.removeClient clientId).1.isVacant = false →
        (queue.removeClient clientId).1.WellFormed) ∧
      (queue.removeClient clientId).2 =
        if queue.isPrimaryOwner clientId
        then some (queue.waiters.head?.map QueueEntry.owner) else none := by
  rcases h.exists_owner with ⟨owner, howner⟩
  have hdistinct := h.distinct
  rw [howner] at hdistinct ⊢
  have hd : Distinct QueueEntry.clientId (owner :: queue.waiters) := hdistinct
  by_cases hc : owner.clientId = clientId
  · subst hc
    have hleave : leave QueueEntry.clientId owner.clientId (owner :: queue.waiters) =
        queue.waiters := Roster.leave_head hd
    have hmembers : (⟨some owner, queue.waiters⟩ : NameQueue).members = owner :: queue.waiters :=
      rfl
    rw [hmembers, hleave]
    cases hw : queue.waiters with
    | nil => simp [removeClient, isPrimaryOwner, isVacant, members]
    | cons next rest =>
        rw [hw] at hd
        refine ⟨by simp [removeClient, isPrimaryOwner, members],
          by simp [removeClient, isPrimaryOwner, isVacant, members], fun _ => ?_,
          by simp [removeClient, isPrimaryOwner]⟩
        simp only [removeClient, isPrimaryOwner, Option.any_some, beq_self_eq_true, if_true]
        exact ⟨rfl, (Roster.distinct_cons.mp hd).2⟩
  · have hresult : (⟨some owner, queue.waiters⟩ : NameQueue).removeClient clientId =
        (⟨some owner, leave QueueEntry.clientId clientId queue.waiters⟩, none) := by
      simp [removeClient, isPrimaryOwner, hc, Roster.leave]
    have hleave : leave QueueEntry.clientId clientId (owner :: queue.waiters) =
        owner :: leave QueueEntry.clientId clientId queue.waiters :=
      Roster.leave_cons_ne _ hc
    rw [hresult]
    refine ⟨hleave.symm, by simp [isVacant, members], fun _ => ⟨rfl, ?_⟩,
      by simp [isPrimaryOwner, hc]⟩
    have hkeep := hd.leave clientId
    rw [hleave] at hkeep
    exact hkeep

end NameQueue

namespace NameQueueManager

def members (manager : NameQueueManager) (name : String) : QueueRoster :=
  ((manager.queues.lookup name).map NameQueue.members).getD []

def WellFormed (manager : NameQueueManager) : Prop :=
  ∀ name queue, manager.queues.lookup name = some queue → queue.WellFormed

theorem new_wellFormed : new.WellFormed := by
  intro name queue h
  cases h

theorem members_of_lookup {manager : NameQueueManager} {name : String} {queue : NameQueue}
    (h : manager.queues.lookup name = some queue) : manager.members name = queue.members := by
  rw [members, h, Option.map_some, Option.getD_some]

theorem members_of_lookup_none {manager : NameQueueManager} {name : String}
    (h : manager.queues.lookup name = none) : manager.members name = [] := by
  rw [members, h, Option.map_none, Option.getD_none]

theorem listQueuedOwners_eq (manager : NameQueueManager) (name : String) :
    manager.listQueuedOwners name = (manager.members name).map QueueEntry.uniqueName := by
  unfold listQueuedOwners members
  cases manager.queues.lookup name with
  | none => rfl
  | some queue => simp [NameQueue.allOwners, NameQueue.members]

section Queries

variable {manager : NameQueueManager} (h : manager.WellFormed) (name : String)
include h

theorem distinct_members : Distinct QueueEntry.clientId (manager.members name) := by
  cases hl : manager.queues.lookup name with
  | none =>
      rw [members_of_lookup_none hl]
      exact Roster.distinct_nil _
  | some queue =>
      rw [members_of_lookup hl]
      exact (h name queue hl).distinct

theorem getPrimaryOwner_eq :
    manager.getPrimaryOwner name = (manager.members name).head?.map QueueEntry.owner := by
  unfold getPrimaryOwner
  cases hl : manager.queues.lookup name with
  | none => rw [members_of_lookup_none hl]; rfl
  | some queue =>
      rcases (h name queue hl).exists_owner with ⟨owner, howner⟩
      rw [members_of_lookup hl, howner]
      rfl

theorem nameHasOwner_iff :
    manager.nameHasOwner name = true ↔ manager.members name ≠ [] := by
  unfold nameHasOwner
  cases hl : manager.queues.lookup name with
  | none => simp [members_of_lookup_none hl]
  | some queue =>
      rcases (h name queue hl).exists_owner with ⟨owner, howner⟩
      rw [members_of_lookup hl, howner]
      simp [NameQueue.members]

/-- A queue is in the map exactly for the names with members, and holds just these. -/
theorem lookup_eq_members :
    manager.queues.lookup name =
      (manager.members name).head?.map (fun owner => ⟨some owner, (manager.members name).tail⟩) := by
  cases hl : manager.queues.lookup name with
  | none =>
      rw [members_of_lookup_none hl]
      rfl
  | some queue =>
      rcases (h name queue hl).exists_owner with ⟨owner, howner⟩
      rw [members_of_lookup hl, howner]
      rfl

end Queries

def SameQueues (manager other : NameQueueManager) : Prop :=
  ∀ name, manager.queues.lookup name = other.queues.lookup name

theorem sameQueues_of_members {manager other : NameQueueManager} (h : manager.WellFormed)
    (h' : other.WellFormed) (hmembers : ∀ name, manager.members name = other.members name) :
    manager.SameQueues other := by
  intro name
  rw [lookup_eq_members h, lookup_eq_members h', hmembers]

theorem SameQueues.members {manager other : NameQueueManager} (h : manager.SameQueues other)
    (name : String) : manager.members name = other.members name := by
  unfold NameQueueManager.members
  rw [h name]

/-! ## The operations on the rosters -/

theorem members_insert (manager : NameQueueManager) (name n : String) (queue : NameQueue) :
    members ⟨manager.queues.insert name queue⟩ n =
      if n = name then queue.members else manager.members n := by
  unfold members
  rw [AList.lookup_insert_if]
  split <;> rfl

theorem members_erase (manager : NameQueueManager) (name n : String) :
    members ⟨manager.queues.erase name⟩ n = if n = name then [] else manager.members n := by
  unfold members
  rw [AList.lookup_erase_if]
  split <;> rfl

theorem WellFormed.insert {manager : NameQueueManager} (h : manager.WellFormed) (name : String)
    {queue : NameQueue} (hqueue : queue.WellFormed) :
    WellFormed ⟨manager.queues.insert name queue⟩ := by
  intro n q hq
  rw [AList.lookup_insert_if] at hq
  split at hq
  · cases hq
    exact hqueue
  · exact h n q hq

theorem WellFormed.erase {manager : NameQueueManager} (h : manager.WellFormed) (name : String) :
    WellFormed ⟨manager.queues.erase name⟩ := by
  intro n q hq
  rw [AList.lookup_erase_if] at hq
  split at hq
  · cases hq
  · exact h n q hq

section Operations

variable {manager : NameQueueManager} (h : manager.WellFormed)
include h

theorem requestName_refines (name : String) (clientId : ClientId) (uniqueName : String)
    (flags : UInt32) :
    (manager.requestName name clientId uniqueName flags).1 =
        (QueueRoster.request (manager.members name) clientId uniqueName flags).1 ∧
      (∀ n, (manager.requestName name clientId uniqueName flags).2.members n =
        if n = name then (QueueRoster.request (manager.members name) clientId uniqueName flags).2
        else manager.members n) ∧
      (manager.requestName name clientId uniqueName flags).2.WellFormed := by
  have hqueue : (manager.queues.lookup name).getD {} = {} ∨
      ((manager.queues.lookup name).getD {}).WellFormed := by
    cases hl : manager.queues.lookup name with
    | none => exact Or.inl rfl
    | some queue => exact Or.inr (h name queue hl)
  have hmembers : ((manager.queues.lookup name).getD {}).members = manager.members name := by
    unfold members
    cases manager.queues.lookup name with
    | none => rfl
    | some queue => rfl
  have href := NameQueue.request_refines hqueue clientId uniqueName flags
  rw [hmembers] at href
  refine ⟨href.1, fun n => ?_, h.insert name href.2.2⟩
  rw [← href.2.1]
  exact members_insert manager name n
    (((manager.queues.lookup name).getD {}).request clientId uniqueName flags).2

theorem releaseName_refines (name : String) (clientId : ClientId) :
    (manager.releaseName name clientId).1 =
        QueueRoster.releaseResult (manager.members name) clientId ∧
      (∀ n, (manager.releaseName name clientId).2.members n =
        if n = name then leave QueueEntry.clientId clientId (manager.members name)
        else manager.members n) ∧
      (manager.releaseName name clientId).2.WellFormed := by
  unfold releaseName
  cases hl : manager.queues.lookup name with
  | none =>
      have hnil := members_of_lookup_none hl
      refine ⟨by rw [hnil]; rfl, fun n => ?_, h⟩
      by_cases hn : n = name
      · rw [if_pos hn, hn, hnil]
        rfl
      · rw [if_neg hn]
  | some queue =>
      rcases (h name queue hl).exists_owner with ⟨owner, howner⟩
      have hmembers : manager.members name = owner :: queue.waiters := by
        rw [members_of_lookup hl, howner]
        rfl
      have hd := distinct_members h name
      rw [hmembers] at hd ⊢
      by_cases hc : owner.clientId = clientId
      · subst hc
        have hprimary : queue.isPrimaryOwner owner.clientId = true := by
          rw [howner]
          simp [NameQueue.isPrimaryOwner]
        simp only [hprimary, if_true]
        rw [Roster.leave_head hd]
        cases hw : queue.waiters with
        | nil =>
            exact ⟨by simp [QueueRoster.releaseResult], members_erase manager name, h.erase name⟩
        | cons next rest =>
            rw [hw] at hd
            exact ⟨by simp [QueueRoster.releaseResult],
              fun n => members_insert manager name n ⟨some next, rest⟩,
              h.insert name ⟨rfl, (Roster.distinct_cons.mp hd).2⟩⟩
      · have hprimary : queue.isPrimaryOwner clientId = false := by
          rw [howner]
          simp [NameQueue.isPrimaryOwner, hc]
        have hleave : leave QueueEntry.clientId clientId (owner :: queue.waiters) =
            owner :: leave QueueEntry.clientId clientId queue.waiters :=
          Roster.leave_cons_ne queue.waiters hc
        have hkept : NameQueue.WellFormed
            { queue with waiters := leave QueueEntry.clientId clientId queue.waiters } := by
          rw [howner]
          have hkeep := hd.leave clientId
          rw [hleave] at hkeep
          exact ⟨rfl, hkeep⟩
        have hstays : ∀ n, members ⟨manager.queues.insert name
            { queue with waiters := leave QueueEntry.clientId clientId queue.waiters }⟩ n =
            if n = name then owner :: leave QueueEntry.clientId clientId queue.waiters
            else manager.members n := by
          intro n
          rw [members_insert, howner]
          rfl
        have hshort : (leave QueueEntry.clientId clientId queue.waiters).length <
            queue.waiters.length ↔ has QueueEntry.clientId clientId queue.waiters = true :=
          Roster.length_leave_lt
        have hfilter : queue.waiters.filter (fun e => e.clientId != clientId) =
            leave QueueEntry.clientId clientId queue.waiters := rfl
        simp only [hprimary, Bool.false_eq_true, if_false, hfilter, hshort, hleave,
          QueueRoster.releaseResult, hc]
        split
        · exact ⟨rfl, hstays, h.insert name hkept⟩
        · exact ⟨rfl, hstays, h.insert name hkept⟩

theorem removeClient_refines (clientId : ClientId) :
    (∀ n, (manager.removeClient clientId).2.members n =
        leave QueueEntry.clientId clientId (manager.members n)) ∧
      (manager.removeClient clientId).2.WellFormed := by
  have hlook : ∀ n, (manager.removeClient clientId).2.queues.lookup n =
      ((manager.queues.lookup n).map (fun queue => (queue.removeClient clientId).1)).filter
        (fun queue => !queue.isVacant) := by
    intro n
    unfold removeClient
    rw [AList.lookup_retain, AList.lookup_mapValues]
  constructor
  · intro n
    unfold members
    rw [hlook]
    cases hl : manager.queues.lookup n with
    | none => rfl
    | some queue =>
        have href := NameQueue.removeClient_refines (h n queue hl) clientId
        simp only [Option.map_some, Option.getD_some]
        rw [← href.1]
        cases hv : (queue.removeClient clientId).1.isVacant with
        | true =>
            rw [href.2.1.mp hv, Option.filter_some, hv]
            rfl
        | false =>
            rw [Option.filter_some, hv]
            rfl
  · intro n queue hq
    rw [hlook] at hq
    cases hl : manager.queues.lookup n with
    | none => simp [hl] at hq
    | some old =>
        rw [hl, Option.map_some, Option.filter_eq_some_iff, Option.some.injEq] at hq
        rcases hq with ⟨hq, hv⟩
        subst hq
        exact (NameQueue.removeClient_refines (h n old hl) clientId).2.2.1 (by simpa using hv)

/-- `remove_client` reports the names the client owned, each with its next owner. -/
theorem mem_removeClient_results {clientId : ClientId} {n : String}
    {newOwner : Option (ClientId × String)} :
    (n, newOwner) ∈ (manager.removeClient clientId).1 ↔
      ∃ owner waiters, manager.members n = owner :: waiters ∧ owner.clientId = clientId ∧
        newOwner = waiters.head?.map QueueEntry.owner := by
  have hmem : (n, newOwner) ∈ (manager.removeClient clientId).1 ↔
      ∃ queue, manager.queues.lookup n = some queue ∧
        (queue.removeClient clientId).2 = some newOwner := by
    rw [removeClient, AList.mem_report]
  rw [hmem]
  constructor
  · rintro ⟨queue, hl, hresult⟩
    rcases (h n queue hl).exists_owner with ⟨owner, howner⟩
    rw [(NameQueue.removeClient_refines (h n queue hl) clientId).2.2.2] at hresult
    refine ⟨owner, queue.waiters, by rw [members_of_lookup hl, howner]; rfl, ?_⟩
    rw [howner] at hresult
    by_cases hc : owner.clientId = clientId
    · simp only [NameQueue.isPrimaryOwner, Option.any_some, hc, beq_self_eq_true, if_true,
        Option.some.injEq] at hresult
      exact ⟨hc, hresult.symm⟩
    · simp [NameQueue.isPrimaryOwner, hc] at hresult
  · rintro ⟨owner, waiters, hmembers, hc, hnew⟩
    cases hl : manager.queues.lookup n with
    | none =>
        rw [members_of_lookup_none hl] at hmembers
        cases hmembers
    | some queue =>
        refine ⟨queue, rfl, ?_⟩
        rcases (h n queue hl).exists_owner with ⟨owner', howner⟩
        rw [(NameQueue.removeClient_refines (h n queue hl) clientId).2.2.2]
        rw [members_of_lookup hl, howner] at hmembers
        have howned : owner' = owner := (List.cons.inj hmembers).1
        have hwaiters : queue.waiters = waiters := (List.cons.inj hmembers).2
        rw [howner, howned, hwaiters, hnew]
        simp [NameQueue.isPrimaryOwner, hc]

theorem nameHasOwner_requestName (name : String) (clientId : ClientId) (uniqueName : String)
    (flags : UInt32) (n : String) :
    (manager.requestName name clientId uniqueName flags).2.nameHasOwner n =
      (decide (n = name) || manager.nameHasOwner n) := by
  have href := requestName_refines h name clientId uniqueName flags
  rw [Bool.eq_iff_iff, nameHasOwner_iff href.2.2, href.2.1, Bool.or_eq_true,
    nameHasOwner_iff h, decide_eq_true_iff]
  by_cases hn : n = name
  · rw [if_pos hn]
    exact iff_of_true (QueueRoster.request_requested _ _ _ _).ne_nil (Or.inl hn)
  · rw [if_neg hn, or_iff_right hn]

theorem nameHasOwner_of_not_forwarded {name : String} {clientId : ClientId} {uniqueName : String}
    {flags : UInt32}
    (hquiet : (manager.requestName name clientId uniqueName flags).1.forwardToBus = false) :
    manager.nameHasOwner name = true := by
  rw [nameHasOwner_iff h]
  intro hnil
  rw [(requestName_refines h name clientId uniqueName flags).1, hnil] at hquiet
  cases hquiet

theorem nameHasOwner_releaseName_ne {name n : String} (hn : n ≠ name) (clientId : ClientId) :
    (manager.releaseName name clientId).2.nameHasOwner n = manager.nameHasOwner n := by
  have href := releaseName_refines h name clientId
  rw [Bool.eq_iff_iff, nameHasOwner_iff href.2.2, href.2.1, if_neg hn, nameHasOwner_iff h]

/-- A request puts an entry into the queue of its name when the caller was not in it. -/
theorem mem_members_requestName_cases {name : String} {clientId : ClientId} {uniqueName : String}
    {flags : UInt32} {n : String} {e : QueueEntry}
    (he : e ∈ (manager.requestName name clientId uniqueName flags).2.members n) :
    e ∈ manager.members n ∨
      n = name ∧ clientId ∉ (manager.members n).map QueueEntry.clientId ∧
        e = QueueRoster.requestEntry clientId uniqueName flags := by
  rw [(requestName_refines h name clientId uniqueName flags).2.1] at he
  split at he
  · next heq =>
      rw [heq]
      exact ((QueueRoster.request_requested _ _ _ _).mem_cases he).imp id (And.intro rfl)
  · exact Or.inl he

/-- Nobody enters a queue but the client of a request. -/
theorem mem_members_requestName {name : String} {clientId : ClientId} {uniqueName : String}
    {flags : UInt32} {n : String} {e : QueueEntry}
    (he : e ∈ (manager.requestName name clientId uniqueName flags).2.members n) :
    e ∈ manager.members n ∨ e = QueueRoster.requestEntry clientId uniqueName flags :=
  (mem_members_requestName_cases h he).imp id (fun hnew => hnew.2.2)

theorem mem_members_releaseName {name : String} {clientId : ClientId} {n : String}
    {e : QueueEntry} (he : e ∈ (manager.releaseName name clientId).2.members n) :
    e ∈ manager.members n := by
  rw [(releaseName_refines h name clientId).2.1] at he
  split at he
  · next heq =>
      rw [heq]
      exact (Roster.mem_leave.mp he).1
  · exact he

theorem mem_members_removeClient {clientId : ClientId} {n : String} {e : QueueEntry}
    (he : e ∈ (manager.removeClient clientId).2.members n) :
    e ∈ manager.members n ∧ e.clientId ≠ clientId := by
  rw [(removeClient_refines h clientId).1] at he
  exact Roster.mem_leave.mp he

end Operations

theorem nodup_removeClient_results (manager : NameQueueManager) (clientId : ClientId) :
    ((manager.removeClient clientId).1.map Prod.fst).Nodup :=
  AList.nodup_report (fun queue => (queue.removeClient clientId).2) manager.queues

end NameQueueManager

end KapsuleDbusMux
