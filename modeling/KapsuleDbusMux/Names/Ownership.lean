import KapsuleDbusMux.Names.QueueSpec
import KapsuleDbusMux.Multiplexer.ClientInfo

/-! # Histories of the name queue manager

Any sequence of requests, releases and client removals, from an empty manager.
Every manager such a history leads to is well formed, and somebody who sees only
the results the operations return can tell at every point who owns each name and
which names are held on the upstream bus.
-/

namespace KapsuleDbusMux

open Roster (Distinct leave)

/-! ## Observing the results -/

/-- What can be told from the returned results: an owner for each name, and the
names the upstream bus was asked for. -/
structure OwnershipTracker where
  owners : AssocMap String (ClientId × String) := ∅
  upstream : Finset String := ∅

namespace OwnershipTracker

def onRequest (tracker : OwnershipTracker) (name : String) (caller : ClientId × String)
    (result : RequestNameResult) : OwnershipTracker where
  owners :=
    if result.replyCode = RequestNameReply.primaryOwner then tracker.owners.insert name caller
    else tracker.owners
  upstream := if result.forwardToBus then insert name tracker.upstream else tracker.upstream

def onRelease (tracker : OwnershipTracker) (name : String) (result : ReleaseNameResult) :
    OwnershipTracker where
  owners :=
    if result.replyCode = ReleaseNameReply.released then
      match result.newOwner with
      | some owner => tracker.owners.insert name owner
      | none => if result.forwardToBus then tracker.owners.erase name else tracker.owners
    else tracker.owners
  upstream := if result.forwardToBus then tracker.upstream.erase name else tracker.upstream

/-- A release that the caller's roster allows keeps the tracker informed of it. -/
theorem onRelease_tracks {tracker : OwnershipTracker} {name : String} {clientId : ClientId}
    {members left : QueueRoster} {result : ReleaseNameResult}
    (h : QueueRoster.Released clientId members result left)
    (howners : tracker.owners.lookup name = members.head?.map QueueEntry.owner)
    (hupstream : name ∈ tracker.upstream ↔ members ≠ []) :
    (tracker.onRelease name result).owners.lookup name = left.head?.map QueueEntry.owner ∧
      (name ∈ (tracker.onRelease name result).upstream ↔ left ≠ []) := by
  cases h with
  | absent => exact ⟨howners, hupstream⟩
  | last _ => simp [onRelease]
  | promotes _ _ => exact ⟨AList.lookup_insert _, by simpa [onRelease] using hupstream⟩
  | stopsWaiting _ => exact ⟨howners, by simpa [onRelease] using hupstream⟩
  | stranger _ => exact ⟨howners, by simpa [onRelease] using hupstream⟩

theorem onRelease_other (tracker : OwnershipTracker) (result : ReleaseNameResult)
    {name n : String} (hn : n ≠ name) :
    (tracker.onRelease name result).owners.lookup n = tracker.owners.lookup n ∧
      (n ∈ (tracker.onRelease name result).upstream ↔ n ∈ tracker.upstream) := by
  unfold onRelease
  constructor
  · dsimp only
    split
    · split
      · rw [AList.lookup_insert_if, if_neg hn]
      · split
        · rw [AList.lookup_erase_if, if_neg hn]
        · rfl
    · rfl
  · dsimp only
    split
    · rw [Finset.mem_erase, and_iff_right hn]
    · rfl

def onRemoved (tracker : OwnershipTracker) (result : String × Option (ClientId × String)) :
    OwnershipTracker :=
  match result with
  | (name, some owner) => { tracker with owners := tracker.owners.insert name owner }
  | (name, none) => ⟨tracker.owners.erase name, tracker.upstream.erase name⟩

theorem lookup_onRemoved (tracker : OwnershipTracker) (name n : String)
    (newOwner : Option (ClientId × String)) :
    (tracker.onRemoved (name, newOwner)).owners.lookup n =
      if n = name then newOwner else tracker.owners.lookup n := by
  cases newOwner with
  | none => exact AList.lookup_erase_if _ _ _
  | some owner => exact AList.lookup_insert_if _ _ _ _

theorem mem_upstream_onRemoved (tracker : OwnershipTracker) (name n : String)
    (newOwner : Option (ClientId × String)) :
    n ∈ (tracker.onRemoved (name, newOwner)).upstream ↔
      n ∈ tracker.upstream ∧ (n, none) ≠ (name, newOwner) := by
  cases newOwner with
  | none => simp [onRemoved, and_comm]
  | some owner => simp [onRemoved]

/-- The results of one removal name each name once, so their order does not matter. -/
theorem lookup_foldl_onRemoved {results : List (String × Option (ClientId × String))}
    (hnodup : (results.map Prod.fst).Nodup) (tracker : OwnershipTracker) (n : String) :
    (∀ newOwner, (n, newOwner) ∈ results →
        (results.foldl onRemoved tracker).owners.lookup n = newOwner) ∧
      ((∀ newOwner, (n, newOwner) ∉ results) →
        (results.foldl onRemoved tracker).owners.lookup n = tracker.owners.lookup n) := by
  induction results generalizing tracker with
  | nil => exact ⟨fun _ h => absurd h List.not_mem_nil, fun _ => rfl⟩
  | cons result results ih =>
      rcases result with ⟨name, first⟩
      rw [List.map_cons, List.nodup_cons] at hnodup
      have hrest := ih hnodup.2 (tracker.onRemoved (name, first))
      rw [lookup_onRemoved] at hrest
      constructor
      · intro newOwner hmem
        rcases List.mem_cons.mp hmem with hhead | htail
        · cases hhead
          rw [if_pos rfl] at hrest
          exact hrest.2 (fun o ho => hnodup.1 (List.mem_map.mpr ⟨(n, o), ho, rfl⟩))
        · exact hrest.1 newOwner htail
      · intro hnot
        have hne : n ≠ name := fun he => hnot first (he ▸ List.mem_cons_self)
        rw [if_neg hne] at hrest
        exact hrest.2 (fun o ho => hnot o (List.mem_cons_of_mem _ ho))

theorem mem_upstream_foldl_onRemoved (results : List (String × Option (ClientId × String)))
    (tracker : OwnershipTracker) (n : String) :
    n ∈ (results.foldl onRemoved tracker).upstream ↔
      n ∈ tracker.upstream ∧ (n, none) ∉ results := by
  induction results generalizing tracker with
  | nil => simp
  | cons result results ih =>
      rw [List.foldl_cons, ih, mem_upstream_onRemoved, List.mem_cons, not_or, and_assoc]

end OwnershipTracker

/-! ## Histories -/

inductive NameOperation where
  | requestName (name : String) (clientId : ClientId) (uniqueName : String) (flags : UInt32)
  | releaseName (name : String) (clientId : ClientId)
  | removeClient (clientId : ClientId)
  deriving DecidableEq, Repr

/-- A manager and somebody who sees its results. -/
structure ObservedManager where
  manager : NameQueueManager := .new
  tracker : OwnershipTracker := {}

namespace ObservedManager

def perform (s : ObservedManager) : NameOperation → ObservedManager
  | .requestName name clientId uniqueName flags =>
      let (result, manager) := s.manager.requestName name clientId uniqueName flags
      ⟨manager, s.tracker.onRequest name (clientId, uniqueName) result⟩
  | .releaseName name clientId =>
      let (result, manager) := s.manager.releaseName name clientId
      ⟨manager, s.tracker.onRelease name result⟩
  | .removeClient clientId =>
      let (results, manager) := s.manager.removeClient clientId
      ⟨manager, results.foldl OwnershipTracker.onRemoved s.tracker⟩

def history (operations : List NameOperation) : ObservedManager :=
  operations.foldl perform {}

/-- The tracker knows the first member of every roster, and whether there is one. -/
structure Agrees (s : ObservedManager) : Prop where
  wellFormed : s.manager.WellFormed
  owners : ∀ n, s.tracker.owners.lookup n = (s.manager.members n).head?.map QueueEntry.owner
  upstream : ∀ n, n ∈ s.tracker.upstream ↔ s.manager.members n ≠ []

theorem agrees_initial : Agrees {} where
  wellFormed := NameQueueManager.new_wellFormed
  owners _ := rfl
  upstream n := iff_of_false (Finset.notMem_empty n) (fun h => h rfl)

theorem Agrees.requestName {s : ObservedManager} (h : s.Agrees) (name : String)
    (clientId : ClientId) (uniqueName : String) (flags : UInt32) :
    (s.perform (.requestName name clientId uniqueName flags)).Agrees := by
  have href := NameQueueManager.requestName_refines h.wellFormed name clientId uniqueName flags
  have hreq := QueueRoster.request_requested (s.manager.members name) clientId uniqueName flags
  refine ⟨href.2.2, fun n => ?_, fun n => ?_⟩
  · simp only [perform, OwnershipTracker.onRequest]
    rw [href.2.1, href.1]
    by_cases hn : n = name
    · subst hn
      rw [if_pos rfl, hreq.head]
      split
      · exact AList.lookup_insert _
      · exact h.owners n
    · rw [if_neg hn]
      split
      · rw [AList.lookup_insert_if, if_neg hn]
        exact h.owners n
      · exact h.owners n
  · simp only [perform, OwnershipTracker.onRequest]
    rw [href.2.1, href.1]
    by_cases hn : n = name
    · subst hn
      rw [if_pos rfl]
      refine iff_of_true ?_ hreq.ne_nil
      split
      · exact Finset.mem_insert_self _ _
      · next hquiet =>
          -- a request the bus does not hear of finds the name owned
          refine (h.upstream n).mpr (fun hnil => hquiet ?_)
          rw [hnil]
          rfl
    · rw [if_neg hn, ← h.upstream n]
      split
      · exact Finset.mem_insert.trans (or_iff_right hn)
      · exact Iff.rfl

theorem Agrees.releaseName {s : ObservedManager} (h : s.Agrees) (name : String)
    (clientId : ClientId) : (s.perform (.releaseName name clientId)).Agrees := by
  have href := NameQueueManager.releaseName_refines h.wellFormed name clientId
  have hrel := QueueRoster.release_released
    (NameQueueManager.distinct_members h.wellFormed name) clientId
  rw [← href.1] at hrel
  have htracks := OwnershipTracker.onRelease_tracks hrel (h.owners name) (h.upstream name)
  have hother := fun n (hn : n ≠ name) => OwnershipTracker.onRelease_other s.tracker
    (s.manager.releaseName name clientId).1 hn
  refine ⟨href.2.2, fun n => ?_, fun n => ?_⟩
  · simp only [perform]
    rw [href.2.1]
    by_cases hn : n = name
    · subst hn
      rw [if_pos rfl]
      exact htracks.1
    · rw [if_neg hn, (hother n hn).1]
      exact h.owners n
  · simp only [perform]
    rw [href.2.1]
    by_cases hn : n = name
    · subst hn
      rw [if_pos rfl]
      exact htracks.2
    · rw [if_neg hn, (hother n hn).2]
      exact h.upstream n

theorem Agrees.removeClient {s : ObservedManager} (h : s.Agrees) (clientId : ClientId) :
    (s.perform (.removeClient clientId)).Agrees := by
  have href := NameQueueManager.removeClient_refines h.wellFormed clientId
  have hresult : ∀ n newOwner, (n, newOwner) ∈ (s.manager.removeClient clientId).1 ↔
      ∃ owner waiters, s.manager.members n = owner :: waiters ∧ owner.clientId = clientId ∧
        newOwner = waiters.head?.map QueueEntry.owner :=
    fun _ _ => NameQueueManager.mem_removeClient_results h.wellFormed
  have hlookup := OwnershipTracker.lookup_foldl_onRemoved
    (s.manager.nodup_removeClient_results clientId) s.tracker
  have hmem := OwnershipTracker.mem_upstream_foldl_onRemoved
    (s.manager.removeClient clientId).1 s.tracker
  have key : ∀ n, ((s.perform (.removeClient clientId)).tracker.owners.lookup n =
        (leave QueueEntry.clientId clientId (s.manager.members n)).head?.map QueueEntry.owner) ∧
      (n ∈ (s.perform (.removeClient clientId)).tracker.upstream ↔
        leave QueueEntry.clientId clientId (s.manager.members n) ≠ []) := by
    intro n
    have howners := h.owners n
    have hupstream := h.upstream n
    have hd := NameQueueManager.distinct_members h.wellFormed n
    have hreported := hresult n
    simp only [perform]
    rw [hmem n]
    cases hm : s.manager.members n with
    | nil =>
        rw [hm] at howners hupstream hreported
        have hnone : ∀ o, (n, o) ∉ (s.manager.removeClient clientId).1 := by
          intro o ho
          rcases (hreported o).mp ho with ⟨_, _, hcons, _⟩
          cases hcons
        rw [(hlookup n).2 hnone]
        exact ⟨howners, by simp [hupstream, leave]⟩
    | cons owner waiters =>
        rw [hm] at howners hupstream hreported hd
        by_cases hc : owner.clientId = clientId
        · subst hc
          rw [Roster.leave_head hd]
          have hrep := (hreported (waiters.head?.map QueueEntry.owner)).mpr
            ⟨owner, waiters, rfl, rfl, rfl⟩
          refine ⟨(hlookup n).1 _ hrep, ?_⟩
          have hlast : (n, none) ∈ (s.manager.removeClient owner.clientId).1 ↔ waiters = [] := by
            rw [hreported]
            constructor
            · rintro ⟨_, _, hcons, _, hnone⟩
              cases hcons
              simpa using hnone.symm
            · rintro rfl
              exact ⟨owner, [], rfl, rfl, rfl⟩
          rw [hlast, and_iff_right (hupstream.mpr (List.cons_ne_nil _ _))]
        · have hnone : ∀ o, (n, o) ∉ (s.manager.removeClient clientId).1 := by
            intro o ho
            rcases (hreported o).mp ho with ⟨_, _, hcons, hc', _⟩
            cases hcons
            exact hc hc'
          rw [Roster.leave_cons_ne _ hc, (hlookup n).2 hnone]
          exact ⟨howners, by simp [hupstream, hnone]⟩
  refine ⟨href.2, fun n => ?_, fun n => ?_⟩
  · rw [(key n).1, ← href.1]
    rfl
  · rw [(key n).2, ← href.1]
    rfl

theorem Agrees.perform {s : ObservedManager} (h : s.Agrees) (operation : NameOperation) :
    (s.perform operation).Agrees := by
  cases operation with
  | requestName name clientId uniqueName flags => exact h.requestName name clientId uniqueName flags
  | releaseName name clientId => exact h.releaseName name clientId
  | removeClient clientId => exact h.removeClient clientId

theorem history_concat (operations : List NameOperation) (operation : NameOperation) :
    history (operations ++ [operation]) = (history operations).perform operation := by
  unfold history
  rw [List.foldl_append, List.foldl_cons, List.foldl_nil]

theorem history_agrees (operations : List NameOperation) : (history operations).Agrees := by
  induction operations using List.reverseRecOn with
  | nil => exact agrees_initial
  | append_singleton operations operation ih =>
      rw [history_concat]
      exact ih.perform operation

/-! ## What the results tell -/

/-- The queue of a name, as `request_name` finds it. -/
def queueOf (manager : NameQueueManager) (name : String) : NameQueue :=
  (manager.queues.lookup name).getD {}

theorem members_queueOf (manager : NameQueueManager) (name : String) :
    (queueOf manager name).members = manager.members name := by
  unfold queueOf NameQueueManager.members
  cases manager.queues.lookup name with
  | none => rfl
  | some queue => rfl

section QueueOf

variable {manager : NameQueueManager} (h : manager.WellFormed) (name : String)
include h

/-- The slot and the deque of a queue are the head and the tail of its roster. -/
theorem queueOf_eq :
    queueOf manager name = ⟨(manager.members name).head?, (manager.members name).tail⟩ := by
  rw [← members_queueOf]
  unfold queueOf
  cases hl : manager.queues.lookup name with
  | none => rfl
  | some queue =>
      rcases (h name queue hl).exists_owner with ⟨owner, howner⟩
      rw [Option.getD_some, howner]
      rfl

theorem isPrimaryOwner_queueOf (clientId : ClientId) :
    (queueOf manager name).isPrimaryOwner clientId = true ↔
      (manager.members name).head?.map QueueEntry.clientId = some clientId := by
  rw [queueOf_eq h]
  unfold NameQueue.isPrimaryOwner
  cases (manager.members name).head? with
  | none => simp
  | some owner => simp

theorem containsClient_queueOf (clientId : ClientId) :
    (queueOf manager name).containsClient clientId = true ↔
      clientId ∈ (manager.members name).map QueueEntry.clientId := by
  rw [queueOf_eq h]
  unfold NameQueue.containsClient NameQueue.isPrimaryOwner
  cases manager.members name with
  | nil => simp
  | cons owner waiters =>
      have hswap : owner.clientId = clientId ↔ clientId = owner.clientId := eq_comm
      simp [hswap]

end QueueOf

/-- The results are enough to follow ownership: after every history the tracker
that folded them in has the owner of each name and the names held upstream, and
the answer to the next request tells the caller's place in the queue. -/
theorem results_track_ownership (operations : List NameOperation) :
    (∀ n, (history operations).tracker.owners.lookup n =
        (history operations).manager.getPrimaryOwner n) ∧
      (∀ n, n ∈ (history operations).tracker.upstream ↔
        (history operations).manager.nameHasOwner n = true) ∧
      ∀ name clientId uniqueName flags,
        let manager := (history operations).manager
        let after := (manager.requestName name clientId uniqueName flags).2
        let result := (manager.requestName name clientId uniqueName flags).1
        (result.replyCode = RequestNameReply.alreadyOwner ↔
            (queueOf manager name).isPrimaryOwner clientId = true) ∧
          (result.replyCode = RequestNameReply.inQueue ↔
            ∃ e ∈ (queueOf after name).waiters, e.clientId = clientId) ∧
          (result.replyCode = RequestNameReply.nameExists ↔
            (queueOf after name).containsClient clientId = false) ∧
          (result.replyCode = RequestNameReply.primaryOwner ↔
            (queueOf manager name).isPrimaryOwner clientId = false ∧
              (queueOf after name).isPrimaryOwner clientId = true) := by
  have h := history_agrees operations
  refine ⟨fun n => ?_, fun n => ?_, fun name clientId uniqueName flags => ?_⟩
  · rw [h.owners, NameQueueManager.getPrimaryOwner_eq h.wellFormed]
  · rw [h.upstream, NameQueueManager.nameHasOwner_iff h.wellFormed]
  · intro manager after result
    have href := NameQueueManager.requestName_refines h.wellFormed name clientId uniqueName flags
    have hafter := href.2.1 name
    rw [if_pos rfl] at hafter
    have hcode := (QueueRoster.request_requested (manager.members name) clientId uniqueName
      flags).replyCode (NameQueueManager.distinct_members h.wellFormed name)
    rw [← hafter, ← href.1] at hcode
    have hbefore := isPrimaryOwner_queueOf h.wellFormed name clientId
    have hbecomes := isPrimaryOwner_queueOf href.2.2 name clientId
    have hcontains := containsClient_queueOf href.2.2 name clientId
    have hqueue := queueOf_eq href.2.2 name
    refine ⟨hcode.1.trans hbefore.symm, ?_, ?_, ?_⟩
    · rw [hqueue, ← List.mem_map]
      exact hcode.2.1
    · rw [← Bool.not_eq_true, hcontains]
      exact hcode.2.2.1
    · rw [← Bool.not_eq_true, hbefore, hbecomes]
      exact hcode.2.2.2

/-! ## What a reachable manager looks like -/

/-- The operation gives each client the unique name `unique` has for it. -/
def namesClientsBy (unique : ClientId → String) : NameOperation → Prop
  | .requestName _ clientId uniqueName _ => uniqueName = unique clientId
  | .releaseName _ _ => True
  | .removeClient _ => True

theorem uniqueName_of_history {unique : ClientId → String} {operations : List NameOperation}
    (hnames : ∀ operation ∈ operations, namesClientsBy unique operation) (n : String) :
    ∀ e ∈ (history operations).manager.members n, e.uniqueName = unique e.clientId := by
  induction operations using List.reverseRecOn generalizing n with
  | nil => intro e he; cases he
  | append_singleton operations operation ih =>
      have hwf := (history_agrees operations).wellFormed
      have hbefore := ih (fun o ho => hnames o (List.mem_append_left _ ho))
      have hlast := hnames operation (List.mem_append_right _ List.mem_cons_self)
      rw [history_concat]
      intro e he
      cases operation with
      | requestName name clientId uniqueName flags =>
          rcases NameQueueManager.mem_members_requestName hwf he with hold | hnew
          · exact hbefore n e hold
          · rw [hnew]
            exact hlast
      | releaseName name clientId =>
          exact hbefore n e (NameQueueManager.mem_members_releaseName hwf he)
      | removeClient clientId =>
          exact hbefore n e (NameQueueManager.mem_members_removeClient hwf he).1

/-- In every manager a history leads to, each queue has an owner and no client
twice. So the list of queued owners is empty exactly for names without an owner,
repeats no name when clients have distinct ones, and a removed client is in no
queue. -/
theorem history_queue_invariant (operations : List NameOperation) :
    (∀ n queue, (history operations).manager.queues.lookup n = some queue →
        queue.primaryOwner.isSome = true ∧
          ((queue.primaryOwner.toList ++ queue.waiters).map QueueEntry.clientId).Nodup) ∧
      (∀ n, (history operations).manager.listQueuedOwners n = [] ↔
        (history operations).manager.nameHasOwner n = false) ∧
      (∀ unique : ClientId → String, Function.Injective unique →
        (∀ operation ∈ operations, namesClientsBy unique operation) →
        ∀ n, ((history operations).manager.listQueuedOwners n).Nodup) ∧
      ∀ clientId n queue,
        ((history operations).perform (.removeClient clientId)).manager.queues.lookup n =
          some queue → queue.containsClient clientId = false := by
  have h := (history_agrees operations).wellFormed
  refine ⟨fun n queue hl => ⟨(h n queue hl).owned, (h n queue hl).distinct⟩, fun n => ?_,
    fun unique hinj hnames n => ?_, fun clientId n queue hl => ?_⟩
  · rw [← Bool.not_eq_true, NameQueueManager.nameHasOwner_iff h, not_not,
      NameQueueManager.listQueuedOwners_eq, List.map_eq_nil_iff]
  · rw [NameQueueManager.listQueuedOwners_eq]
    have hunique : ((history operations).manager.members n).map QueueEntry.uniqueName =
        (((history operations).manager.members n).map QueueEntry.clientId).map unique := by
      rw [List.map_map]
      exact List.map_congr_left (uniqueName_of_history hnames n)
    rw [hunique]
    exact (NameQueueManager.distinct_members h n).map hinj
  · have href := NameQueueManager.removeClient_refines h clientId
    have hqueue : queueOf ((history operations).manager.removeClient clientId).2 n = queue := by
      unfold queueOf
      rw [show ((history operations).manager.removeClient clientId).2.queues.lookup n =
        some queue from hl, Option.getD_some]
    have hcontains := containsClient_queueOf href.2 n clientId
    rw [hqueue, href.1 n] at hcontains
    rw [← Bool.not_eq_true, hcontains]
    exact Roster.not_mem_leave clientId _

def handover : List NameOperation :=
  [.requestName "org.a" 1 (muxUniqueName 1) 0, .requestName "org.a" 2 (muxUniqueName 2) 0,
    .requestName "org.a" 3 (muxUniqueName 3) 4, .removeClient 1]

theorem history_queue_invariant_handover :
    (history handover).manager.listQueuedOwners "org.a" = [":mux.2"] ∧
      ((history handover).manager.listQueuedOwners "org.a").Nodup ∧
      ((history handover).manager.listQueuedOwners "org.a" = [] ↔
        (history handover).manager.nameHasOwner "org.a" = false) := by
  have hinv := history_queue_invariant handover
  refine ⟨by decide, hinv.2.2.1 muxUniqueName muxUniqueName_injective ?_ "org.a",
    hinv.2.1 "org.a"⟩
  intro operation hmem
  simp only [handover, List.mem_cons, List.not_mem_nil, or_false] at hmem
  rcases hmem with rfl | rfl | rfl | rfl
  · rfl
  · rfl
  · rfl
  · trivial

end ObservedManager

end KapsuleDbusMux
