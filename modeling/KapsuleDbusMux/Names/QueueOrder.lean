import KapsuleDbusMux.Names.Ownership

/-! # The order of a queue

The owner slot and the deque of waiters are one list, and one operation can do four
things to it: leave it alone, put the caller behind everybody, put the caller in
front of the owner it replaces, or take one client out. So clients that stay keep
their order, and the second in the list is next.
-/

namespace KapsuleDbusMux

open Roster (Distinct leave)

def NameOperation.client : NameOperation → ClientId
  | .requestName _ clientId _ _ => clientId
  | .releaseName _ clientId => clientId
  | .removeClient clientId => clientId

def NameOperation.concerns (n : String) : NameOperation → Prop
  | .requestName name _ _ _ => n = name
  | .releaseName name _ => n = name
  | .removeClient _ => True

def NameOperation.replacedOwner (manager : NameQueueManager) : NameOperation → Option String
  | .requestName name clientId uniqueName flags =>
      (manager.requestName name clientId uniqueName flags).1.replacedOwner
  | .releaseName _ _ => none
  | .removeClient _ => none

namespace QueueRoster

def ids (members : QueueRoster) : List ClientId := members.map QueueEntry.clientId

/-- Where a newcomer is: last, or first with the owner it replaced behind it. -/
def Placed (entry : QueueEntry) (before after : QueueRoster) : Option String → Prop
  | none => after = before ++ [entry]
  | some name => ∃ owner waiters, before = owner :: waiters ∧ name = owner.uniqueName ∧
      after = entry :: owner :: waiters

/-- All that an operation can do to one roster, with the owner it replaced. -/
inductive Moved (clientId : ClientId) : Option String → QueueRoster → QueueRoster → Prop
  | stays (replaced : Option String) (members : QueueRoster) :
      Moved clientId replaced members members
  | joins {entry : QueueEntry} {members : QueueRoster} (hentry : entry.clientId = clientId)
      (hnew : clientId ∉ members.ids) : Moved clientId none members (members ++ [entry])
  | takesOver {entry owner : QueueEntry} {waiters : QueueRoster} (hentry : entry.clientId = clientId)
      (hnew : clientId ∉ QueueRoster.ids (owner :: waiters)) :
      Moved clientId (some owner.uniqueName) (owner :: waiters) (entry :: owner :: waiters)
  | leaves (members : QueueRoster) :
      Moved clientId none members (leave QueueEntry.clientId clientId members)

theorem Requested.moved {clientId : ClientId} {uniqueName : String} {flags : UInt32}
    {members : QueueRoster} {outcome : RequestNameResult × QueueRoster}
    (h : Requested clientId uniqueName flags members outcome) :
    Moved clientId outcome.1.replacedOwner members outcome.2 := by
  cases h with
  | vacant => exact .joins rfl List.not_mem_nil
  | owns _ => exact .stays _ _
  | waits _ _ => exact .stays _ _
  | replaces hnew _ _ => exact .takesOver rfl hnew
  | refused _ => exact .stays _ _
  | queued hnew => exact .joins rfl hnew

section Moved

variable {clientId : ClientId} {replaced : Option String} {before after : QueueRoster}
  (h : Moved clientId replaced before after)
include h

theorem Moved.sublist : before.ids.Sublist after.ids ∨ after.ids.Sublist before.ids := by
  cases h with
  | stays _ _ => exact Or.inl (List.Sublist.refl _)
  | joins _ _ => exact Or.inl ((List.sublist_append_left _ _).map _)
  | takesOver _ _ => exact Or.inl ((List.sublist_cons_self _ _).map _)
  | leaves _ => exact Or.inr ((Roster.leave_sublist _ _).map _)

theorem Moved.order (hbefore : before.ids.Nodup) (hafter : after.ids.Nodup) {a b : ClientId}
    (ha : a ∈ before.ids) (hb : b ∈ before.ids) (ha' : a ∈ after.ids) (hb' : b ∈ after.ids) :
    [a, b].Sublist before.ids ↔ [a, b].Sublist after.ids := by
  rcases h.sublist with hsub | hsub
  · exact Roster.pair_sublist_iff hsub hafter ha hb
  · exact (Roster.pair_sublist_iff hsub hbefore ha' hb').symm

theorem Moved.mem_iff {a : ClientId} (ha : a ≠ clientId) : a ∈ before.ids ↔ a ∈ after.ids := by
  cases h with
  | stays _ _ => exact Iff.rfl
  | joins hentry _ => simp [ids, hentry, ha]
  | takesOver hentry _ => simp [ids, hentry, ha]
  | leaves _ =>
      simp only [ids, List.mem_map, Roster.mem_leave]
      constructor
      · rintro ⟨e, he, rfl⟩
        exact ⟨e, ⟨he, ha⟩, rfl⟩
      · rintro ⟨e, he, rfl⟩
        exact ⟨e, he.1, rfl⟩

theorem Moved.newcomer (hbefore : clientId ∉ before.ids) (hafter : clientId ∈ after.ids) :
    ∃ entry : QueueEntry, entry.clientId = clientId ∧ Placed entry before after replaced := by
  cases h with
  | stays _ _ => exact absurd hafter hbefore
  | joins hentry _ => exact ⟨_, hentry, rfl⟩
  | takesOver hentry _ => exact ⟨_, hentry, _, _, rfl, rfl, rfl⟩
  | leaves _ => exact absurd hafter (Roster.not_mem_leave _ _)

theorem Moved.next {owner : QueueEntry} {waiters : QueueRoster}
    (hd : Distinct QueueEntry.clientId before) (hbefore : before = owner :: waiters)
    (hafter : owner.clientId ∉ after.ids) : after = waiters := by
  subst hbefore
  cases h with
  | stays _ _ => exact absurd List.mem_cons_self hafter
  | joins _ _ => simp [ids] at hafter
  | takesOver _ _ => simp [ids] at hafter
  | leaves _ =>
      by_cases hc : owner.clientId = clientId
      · subst hc
        exact Roster.leave_head hd
      · rw [Roster.leave_cons_ne _ hc] at hafter
        exact absurd List.mem_cons_self hafter

end Moved

end QueueRoster

namespace ObservedManager

open QueueRoster (Moved)

/-- The rosters of a well-formed manager move as the operation says. -/
theorem perform_moved {s : ObservedManager} (h : s.manager.WellFormed) (operation : NameOperation)
    (n : String) :
    Moved operation.client (operation.replacedOwner s.manager) (s.manager.members n)
      ((s.perform operation).manager.members n) := by
  cases operation with
  | requestName name clientId uniqueName flags =>
      have href := NameQueueManager.requestName_refines h name clientId uniqueName flags
      have hmembers : (s.perform (.requestName name clientId uniqueName flags)).manager.members n =
          if n = name then
            (QueueRoster.request (s.manager.members name) clientId uniqueName flags).2
          else s.manager.members n := href.2.1 n
      rw [hmembers]
      split
      · next hn =>
          subst hn
          simp only [NameOperation.replacedOwner, href.1]
          exact (QueueRoster.request_requested _ _ _ _).moved
      · exact .stays _ _
  | releaseName name clientId =>
      have hmembers : (s.perform (.releaseName name clientId)).manager.members n =
          if n = name then leave QueueEntry.clientId clientId (s.manager.members name)
          else s.manager.members n :=
        (NameQueueManager.releaseName_refines h name clientId).2.1 n
      rw [hmembers]
      split
      · next hn =>
          subst hn
          exact .leaves _
      · exact .stays _ _
  | removeClient clientId =>
      have hmembers : (s.perform (.removeClient clientId)).manager.members n =
          leave QueueEntry.clientId clientId (s.manager.members n) :=
        (NameQueueManager.removeClient_refines h clientId).1 n
      rw [hmembers]
      exact .leaves _

theorem lookup_perform_of_not_concerns (s : ObservedManager) {operation : NameOperation}
    {n : String} (hn : ¬ operation.concerns n) :
    (s.perform operation).manager.queues.lookup n = s.manager.queues.lookup n := by
  cases operation with
  | requestName name clientId uniqueName flags =>
      exact (AList.lookup_insert_if _ _ _ _).trans (if_neg hn)
  | releaseName name clientId =>
      simp only [perform, NameQueueManager.releaseName]
      split
      · rfl
      · split
        · split
          · exact (AList.lookup_insert_if _ _ _ _).trans (if_neg hn)
          · exact (AList.lookup_erase_if _ _ _).trans (if_neg hn)
        · split
          · exact (AList.lookup_insert_if _ _ _ _).trans (if_neg hn)
          · exact (AList.lookup_insert_if _ _ _ _).trans (if_neg hn)
  | removeClient clientId => exact absurd trivial hn

/-- One operation of a client keeps the order of every queue: whoever is in it before
and after stands in the same order, nobody but the client comes or goes, a newcomer is
last or in front of the owner it replaces, and the second in the list follows the
owner. Queues of other names are not touched. -/
theorem queue_order_stable (operations : List NameOperation) (operation : NameOperation)
    (n : String) :
    let manager := (history operations).manager
    let after := (history (operations ++ [operation])).manager
    let client := operation.client
    (∀ a b, a ∈ (manager.members n).ids → b ∈ (manager.members n).ids →
        a ∈ (after.members n).ids → b ∈ (after.members n).ids →
        ([a, b].Sublist (manager.members n).ids ↔ [a, b].Sublist (after.members n).ids)) ∧
      (∀ a, a ≠ client → (a ∈ (manager.members n).ids ↔ a ∈ (after.members n).ids)) ∧
      (client ∉ (manager.members n).ids → client ∈ (after.members n).ids →
        ∃ entry : QueueEntry, entry.clientId = client ∧
          QueueRoster.Placed entry (manager.members n) (after.members n)
            (operation.replacedOwner manager)) ∧
      (∀ owner waiters, manager.members n = owner :: waiters →
        owner.clientId ∉ (after.members n).ids → (after.members n).head? = waiters.head?) ∧
      (¬ operation.concerns n → after.queues.lookup n = manager.queues.lookup n) := by
  intro manager after client
  have hafter : after = ((history operations).perform operation).manager := by
    simp only [after, history_concat]
  have hwf := (history_agrees operations).wellFormed
  have hwf' := (history_agrees (operations ++ [operation])).wellFormed
  have hd := NameQueueManager.distinct_members hwf n
  have hd' := NameQueueManager.distinct_members hwf' n
  have hmoved := perform_moved hwf operation n
  rw [← hafter] at hmoved
  refine ⟨fun a b ha hb ha' hb' => hmoved.order hd hd' ha hb ha' hb',
    fun a ha => hmoved.mem_iff ha, hmoved.newcomer, fun owner waiters hbefore hgone => ?_,
    fun hn => ?_⟩
  · rw [hmoved.next hd hbefore hgone]
  · rw [hafter]
    exact lookup_perform_of_not_concerns (history operations) hn

end ObservedManager

end KapsuleDbusMux
