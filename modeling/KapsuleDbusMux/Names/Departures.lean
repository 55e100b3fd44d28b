import KapsuleDbusMux.Names.Ownership

/-! # Leaving the queues

When the bus refuses a name, `handle_request_name` takes the request back with
`release_name`, while other clients, or the same one, may have disconnected. When a
client disconnects, `remove_client` does in one walk over the map what releasing
every name would do. Both are about members that leave rosters, and it does not
matter in which order they leave.
-/

namespace KapsuleDbusMux

open Roster (leave leaveAll)

/-- Whoever becomes owner is not in the queue and has everybody in it behind itself. -/
theorem NameQueue.request_forwarded {queue : NameQueue} {clientId : ClientId} {uniqueName : String}
    {flags : UInt32} (hforward : (queue.request clientId uniqueName flags).1.forwardToBus = true) :
    queue.isPrimaryOwner clientId = false ∧
      (queue.request clientId uniqueName flags).2 =
        ⟨some (QueueRoster.requestEntry clientId uniqueName flags), queue.members⟩ := by
  rcases queue with ⟨primaryOwner, waiters⟩
  unfold NameQueue.request at hforward ⊢
  split at hforward
  · cases hforward
  · next howns =>
      rw [if_neg howns]
      split at hforward
      · cases hforward
      · next hwaits =>
          rw [if_neg hwaits]
          refine ⟨by simpa using howns, ?_⟩
          cases primaryOwner with
          | none => rfl
          | some owner =>
              dsimp only at hforward ⊢
              split at hforward
              · next hreplaces =>
                  rw [if_pos hreplaces]
                  rfl
              · split at hforward
                · cases hforward
                · cases hforward

namespace NameQueueManager

def removeClients (manager : NameQueueManager) (clients : List ClientId) : NameQueueManager :=
  clients.foldl (fun manager clientId => (manager.removeClient clientId).2) manager

def releaseNames (manager : NameQueueManager) (names : List String) (clientId : ClientId) :
    NameQueueManager :=
  names.foldl (fun manager name => (manager.releaseName name clientId).2) manager

theorem removeClients_refines {manager : NameQueueManager} (h : manager.WellFormed)
    (clients : List ClientId) :
    (∀ n, (manager.removeClients clients).members n =
        leaveAll QueueEntry.clientId clients (manager.members n)) ∧
      (manager.removeClients clients).WellFormed := by
  induction clients generalizing manager with
  | nil => exact ⟨fun _ => rfl, h⟩
  | cons clientId clients ih =>
      have href := removeClient_refines h clientId
      have hrest := ih href.2
      constructor
      · intro n
        have hn := hrest.1 n
        rw [href.1 n] at hn
        exact hn
      · exact hrest.2

theorem releaseNames_refines {manager : NameQueueManager} (h : manager.WellFormed)
    (names : List String) (clientId : ClientId) :
    (∀ n, (manager.releaseNames names clientId).members n =
        if n ∈ names then leave QueueEntry.clientId clientId (manager.members n)
        else manager.members n) ∧
      (manager.releaseNames names clientId).WellFormed := by
  induction names generalizing manager with
  | nil => exact ⟨fun _ => rfl, h⟩
  | cons name names ih =>
      have href := releaseName_refines h name clientId
      have hrest := ih href.2.2
      refine ⟨fun n => ?_, hrest.2⟩
      have hn := hrest.1 n
      rw [href.2.1 n] at hn
      apply hn.trans
      by_cases hhead : n = name
      · subst hhead
        simp only [if_true, List.mem_cons, true_or]
        split
        · exact Roster.leave_leave_self _ _
        · rfl
      · simp only [hhead, if_false, List.mem_cons, false_or]

/-! ## Taking a request back -/

section Revert

variable {manager : NameQueueManager} {name : String} {clientId : ClientId} {uniqueName : String}
  {flags : UInt32}
  (hforward : (manager.requestName name clientId uniqueName flags).1.forwardToBus = true)
include hforward

theorem lookup_requestName_of_forwarded :
    (manager.requestName name clientId uniqueName flags).2.queues.lookup name =
      some ⟨some (QueueRoster.requestEntry clientId uniqueName flags), manager.members name⟩ := by
  have hmembers : ((manager.queues.lookup name).getD {}).members = manager.members name := by
    unfold members
    cases manager.queues.lookup name with
    | none => rfl
    | some queue => rfl
  have hrequest := (NameQueue.request_forwarded hforward).2
  rw [hmembers] at hrequest
  rw [← hrequest]
  exact AList.lookup_insert _

/-- A request that the bus hears of changes the queue of its name. -/
theorem not_sameQueues_of_forwarded :
    ¬ (manager.requestName name clientId uniqueName flags).2.SameQueues manager := by
  intro hsame
  have hlookup := (hsame name).symm.trans (lookup_requestName_of_forwarded hforward)
  have hnot := (NameQueue.request_forwarded hforward).1
  rw [hlookup] at hnot
  simp [NameQueue.isPrimaryOwner, QueueRoster.requestEntry] at hnot

/-- The release promotes whoever was first before the request. -/
theorem lookup_revert (n : String) :
    ((manager.requestName name clientId uniqueName flags).2.releaseName name
        clientId).2.queues.lookup n =
      if n = name then (manager.members name).head?.map
        (fun owner => ⟨some owner, (manager.members name).tail⟩)
      else manager.queues.lookup n := by
  have hother : n ≠ name →
      (manager.requestName name clientId uniqueName flags).2.queues.lookup n =
        manager.queues.lookup n :=
    fun hn => (AList.lookup_insert_if _ _ _ _).trans (if_neg hn)
  have hprimary : NameQueue.isPrimaryOwner
      ⟨some (QueueRoster.requestEntry clientId uniqueName flags), manager.members name⟩ clientId =
        true := by
    simp [NameQueue.isPrimaryOwner, QueueRoster.requestEntry]
  unfold releaseName
  rw [lookup_requestName_of_forwarded hforward]
  dsimp only
  rw [if_pos hprimary]
  cases manager.members name with
  | nil =>
      dsimp only
      rw [AList.lookup_erase_if]
      split
      · rfl
      · next hn => exact hother hn
  | cons next rest =>
      dsimp only
      rw [AList.lookup_insert_if]
      split
      · rfl
      · next hn => exact hother hn

/-- Taking a request back restores the queues, unless the queue of the name had no owner,
which no operation leaves behind. -/
theorem sameQueues_revert_iff :
    ((manager.requestName name clientId uniqueName flags).2.releaseName name
        clientId).2.SameQueues manager ↔
      ∀ queue, manager.queues.lookup name = some queue → queue.primaryOwner.isSome = true := by
  have hrevert := lookup_revert hforward
  have hname : ((manager.requestName name clientId uniqueName flags).2.releaseName name
      clientId).2.SameQueues manager ↔ (manager.members name).head?.map
        (fun owner => (⟨some owner, (manager.members name).tail⟩ : NameQueue)) =
        manager.queues.lookup name := by
    constructor
    · intro h
      rw [← h name, hrevert, if_pos rfl]
    · intro h n
      rw [hrevert]
      split
      · next hn => rw [hn, h]
      · rfl
  rw [hname]
  cases hl : manager.queues.lookup name with
  | none =>
      rw [members_of_lookup_none hl]
      exact iff_of_true rfl (fun _ hqueue => nomatch hqueue)
  | some queue =>
      rw [members_of_lookup hl]
      rcases queue with ⟨primaryOwner, waiters⟩
      cases primaryOwner with
      | some owner =>
          refine iff_of_true rfl (fun _ hqueue => ?_)
          cases hqueue
          rfl
      | none =>
          refine iff_of_false (fun h => ?_) (fun h => Bool.false_ne_true (h _ rfl))
          cases waiters with
          | nil => cases h
          | cons next rest => cases h

end Revert

/-- A request that made its caller the owner is undone by a release: the caller was
in front of the roster as it had been, and is gone from it now. -/
theorem members_release_of_forwarded {manager : NameQueueManager} (h : manager.WellFormed)
    {name : String} {clientId : ClientId} {uniqueName : String} {flags : UInt32}
    (hforward : (manager.requestName name clientId uniqueName flags).1.forwardToBus = true)
    (gone : List ClientId) (n : String) :
    ((((manager.requestName name clientId uniqueName flags).2.removeClients gone).releaseName name
      clientId).2).members n = (manager.removeClients gone).members n := by
  have hrequest := requestName_refines h name clientId uniqueName flags
  have hgone := removeClients_refines hrequest.2.2 gone
  rw [(releaseName_refines hgone.2 name clientId).2.1, hgone.1, hgone.1,
    (removeClients_refines h gone).1, hrequest.2.1, hrequest.2.1]
  by_cases hn : n = name
  · subst hn
    rw [hrequest.1] at hforward
    have hfront := (QueueRoster.request_requested (manager.members n) clientId uniqueName
      flags).forwarded hforward
    have hleft : leave QueueEntry.clientId clientId
        (QueueRoster.requestEntry clientId uniqueName flags :: manager.members n) =
        manager.members n := Roster.leave_cons_self hfront.1
    rw [if_pos rfl, if_pos rfl, hfront.2, Roster.leave_leaveAll, hleft]
  · rw [if_neg hn, if_neg hn]

end NameQueueManager

namespace ObservedManager

/-- Taking back a request that made its caller the owner leaves the queues as if it
had never been made, whoever has disconnected in the meantime. -/
theorem revert_restores_queues (operations : List NameOperation) (name : String)
    (clientId : ClientId) (uniqueName : String) (flags : UInt32)
    (hforward : ((history operations).manager.requestName name clientId uniqueName
      flags).1.forwardToBus = true) (gone : List ClientId) :
    NameQueueManager.SameQueues
      ((((history operations).manager.requestName name clientId uniqueName
        flags).2.removeClients gone).releaseName name clientId).2
      ((history operations).manager.removeClients gone) := by
  have h := (history_agrees operations).wellFormed
  have hrequest := NameQueueManager.requestName_refines h name clientId uniqueName flags
  have hgone := NameQueueManager.removeClients_refines hrequest.2.2 gone
  have hreleased := NameQueueManager.releaseName_refines hgone.2 name clientId
  exact NameQueueManager.sameQueues_of_members hreleased.2.2
    (NameQueueManager.removeClients_refines h gone).2
    (NameQueueManager.members_release_of_forwarded h hforward gone)

def replaceable : List NameOperation :=
  [.requestName "org.a" 1 (muxUniqueName 1) 1, .requestName "org.a" 2 (muxUniqueName 2) 0,
    .requestName "org.a" 3 (muxUniqueName 3) 0]

theorem revert_restores_queues_replaceable :
    ((history replaceable).manager.requestName "org.a" 4 (muxUniqueName 4) 2).1.forwardToBus =
        true ∧
      NameQueueManager.SameQueues
        ((((history replaceable).manager.requestName "org.a" 4 (muxUniqueName 4)
          2).2.removeClients [1, 4, 3]).releaseName "org.a" 4).2
        ((history replaceable).manager.removeClients [1, 4, 3]) ∧
      ((history replaceable).manager.removeClients [1, 4, 3]).listQueuedOwners "org.a" =
        [":mux.2"] :=
  ⟨by decide,
    revert_restores_queues replaceable "org.a" 4 (muxUniqueName 4) 2 (by decide) [1, 4, 3],
    by decide⟩

/-! ## Disconnecting -/

/-- Disconnecting is releasing every name, in whatever order: the queues are the same,
and the results are those of the releases for the names the client owned, each once.
Only the order of the results depends on the order of the hash map. -/
theorem removeClient_releases_all (operations : List NameOperation) (clientId : ClientId) :
    let manager := (history operations).manager
    let results := (manager.removeClient clientId).1
    (∀ names : List String, names.Perm manager.queues.keys →
        (manager.releaseNames names clientId).SameQueues (manager.removeClient clientId).2) ∧
      (∀ n newOwner, (n, newOwner) ∈ results ↔
        (queueOf manager n).isPrimaryOwner clientId = true ∧
          newOwner = (manager.releaseName n clientId).1.newOwner) ∧
      (results.map Prod.fst).Nodup ∧
      ∀ other : NameQueueManager, other.SameQueues manager →
        (other.removeClient clientId).1.Perm results ∧
          (other.removeClient clientId).2.SameQueues (manager.removeClient clientId).2 := by
  intro manager results
  have h := (history_agrees operations).wellFormed
  have hremoved := NameQueueManager.removeClient_refines h clientId
  refine ⟨fun names hnames => ?_, fun n newOwner => ?_,
    manager.nodup_removeClient_results clientId, fun other hother => ?_⟩
  · have hreleased := NameQueueManager.releaseNames_refines h names clientId
    apply NameQueueManager.sameQueues_of_members hreleased.2 hremoved.2
    intro n
    rw [hreleased.1 n, hremoved.1 n]
    split
    · rfl
    · next hn =>
        -- a name that is not in the map has nobody who could leave
        have habsent : n ∉ manager.queues := fun hmem => hn (hnames.mem_iff.mpr hmem)
        rw [NameQueueManager.members_of_lookup_none (AList.lookup_eq_none.mpr habsent)]
        rfl
  · rw [NameQueueManager.mem_removeClient_results h, isPrimaryOwner_queueOf h,
      (NameQueueManager.releaseName_refines h n clientId).1]
    cases hm : manager.members n with
    | nil => simp
    | cons owner waiters =>
        by_cases hc : owner.clientId = clientId
        · simp [hc, QueueRoster.releaseResult]
        · simp [hc]
  · have hwf : other.WellFormed := fun n queue hl => h n queue ((hother n).symm.trans hl)
    constructor
    · exact AList.report_perm (fun queue : NameQueue => (queue.removeClient clientId).2) hother
    · apply NameQueueManager.sameQueues_of_members
        (NameQueueManager.removeClient_refines hwf clientId).2 hremoved.2
      intro n
      rw [(NameQueueManager.removeClient_refines hwf clientId).1, hremoved.1, hother.members]

end ObservedManager

end KapsuleDbusMux
