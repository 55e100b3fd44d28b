import KapsuleDbusMux.Names.Presence

/-! # The owned names of a client and the queue

Operations one after the other: every request, release and cleanup runs to its
end before the next one starts, and every call on the bus succeeds. In such a
run the names recorded for a client are those the queue has it as primary owner
of, unless a request replaced an owner: the replaced client keeps the name in its
record. `find_client_credentials` goes by these records.
-/

namespace KapsuleDbusMux

/-! ## Primary owners -/

namespace NameQueueManager

def primaryId (manager : NameQueueManager) (n : String) : Option ClientId :=
  (manager.members n).head?.map QueueEntry.clientId

def replaces (manager : NameQueueManager) (clientId : ClientId) (name : String) (flags : UInt32) :
    Bool :=
  match manager.members name with
  | [] => false
  | owner :: waiters =>
      !Roster.has QueueEntry.clientId clientId (owner :: waiters) &&
        RequestNameFlags.has flags RequestNameFlags.replaceExisting && owner.allowReplacement

theorem primaryId_eq_none_of_subset {manager manager' : NameQueueManager} {n : String}
    (hsubset : ∀ e ∈ manager'.members n, e ∈ manager.members n)
    (hnone : manager.primaryId n = none) : manager'.primaryId n = none := by
  unfold primaryId at hnone ⊢
  rw [Option.map_eq_none_iff, List.head?_eq_none_iff] at hnone ⊢
  rw [hnone] at hsubset
  exact List.eq_nil_iff_forall_not_mem.mpr (fun e he => List.not_mem_nil (hsubset e he))

section Operations

variable {manager : NameQueueManager} (h : manager.WellFormed)
include h

theorem getPrimaryOwner_map (n : String) :
    (manager.getPrimaryOwner n).map Prod.fst = manager.primaryId n := by
  rw [getPrimaryOwner_eq h, Option.map_map]
  rfl

/-- A request that replaces nobody takes a name without owner, or changes no owner. -/
theorem primaryId_requestName {name : String} {clientId : ClientId} {flags : UInt32}
    (hkeeps : manager.replaces clientId name flags = false) (uniqueName : String) :
    ((manager.requestName name clientId uniqueName flags).1.forwardToBus = true ∧
        manager.primaryId name = none ∧
        ∀ n, (manager.requestName name clientId uniqueName flags).2.primaryId n =
          if n = name then some clientId else manager.primaryId n) ∨
      ((manager.requestName name clientId uniqueName flags).1.forwardToBus = false ∧
        ∀ n, (manager.requestName name clientId uniqueName flags).2.primaryId n =
          manager.primaryId n) := by
  have href := requestName_refines h name clientId uniqueName flags
  have hrequested := QueueRoster.request_requested (manager.members name) clientId uniqueName flags
  unfold replaces at hkeeps
  unfold primaryId
  simp only [href.1, href.2.1]
  generalize QueueRoster.request (manager.members name) clientId uniqueName flags = outcome at *
  have hsame : outcome.2.head?.map QueueEntry.clientId =
      (manager.members name).head?.map QueueEntry.clientId → ∀ n,
      (if n = name then outcome.2 else manager.members n).head?.map QueueEntry.clientId =
        (manager.members n).head?.map QueueEntry.clientId := by
    intro hhead n
    by_cases hn : n = name
    · rw [if_pos hn, hn]
      exact hhead
    · rw [if_neg hn]
  generalize manager.members name = members at *
  cases hrequested with
  | vacant =>
      refine Or.inl ⟨rfl, rfl, fun n => ?_⟩
      by_cases hn : n = name
      · rw [if_pos hn, if_pos hn]
        rfl
      · rw [if_neg hn, if_neg hn]
  | replaces hnew hreplace hallow =>
      rw [← Roster.has_iff, Bool.not_eq_true] at hnew
      simp [hnew, hreplace, hallow] at hkeeps
  | owns _ => exact Or.inr ⟨rfl, hsame rfl⟩
  | waits _ _ => exact Or.inr ⟨rfl, hsame rfl⟩
  | refused _ => exact Or.inr ⟨rfl, hsame rfl⟩
  | queued _ => exact Or.inr ⟨rfl, hsame rfl⟩

/-- After a release the client does not own the name. A name that changes hands
went to the client the release reports. -/
theorem primaryId_releaseName (name : String) (clientId : ClientId) :
    (manager.releaseName name clientId).2.primaryId name ≠ some clientId ∧
      (∀ n, n ≠ name →
        (manager.releaseName name clientId).2.primaryId n = manager.primaryId n) ∧
      (∀ newOwner, (manager.releaseName name clientId).1.newOwner = some newOwner →
        manager.primaryId name = some clientId ∧
          (manager.releaseName name clientId).2.primaryId name = some newOwner.1) ∧
      ((manager.releaseName name clientId).1.newOwner = none → ∀ c, c ≠ clientId →
        ((manager.releaseName name clientId).2.primaryId name = some c ↔
          manager.primaryId name = some c)) := by
  have href := releaseName_refines h name clientId
  have hreleased := QueueRoster.release_released (distinct_members h name) clientId
  unfold primaryId
  simp only [href.1, href.2.1, if_true]
  refine ⟨?_, fun n hn => by rw [if_neg hn], ?_⟩
  all_goals
    generalize QueueRoster.releaseResult (manager.members name) clientId = result at *
    generalize Roster.leave QueueEntry.clientId clientId (manager.members name) = left at *
    generalize manager.members name = members at *
  · cases hreleased with
    | absent => simp
    | last _ => simp
    | promotes _ hnext => simpa using hnext
    | stopsWaiting howner => simpa using howner
    | stranger howner => simpa using howner
  · cases hreleased with
    | absent => simp
    | last howner => simp [howner, eq_comm]
    | promotes howner _ => simp [howner, QueueEntry.owner]
    | stopsWaiting _ => simp
    | stranger _ => simp

/-- When a client is removed, the names it owned go to the clients the results
report, and the others keep their owner. -/
theorem primaryId_removeClient (clientId : ClientId) (n : String) :
    (∀ newOwner, (n, some newOwner) ∈ (manager.removeClient clientId).1 →
        manager.primaryId n = some clientId ∧
          (manager.removeClient clientId).2.primaryId n = some newOwner.1) ∧
      ∀ c, c ≠ clientId → (∀ uniqueName, (n, some (c, uniqueName)) ∉
          (manager.removeClient clientId).1) →
        ((manager.removeClient clientId).2.primaryId n = some c ↔
          manager.primaryId n = some c) := by
  have hmem : ∀ newOwner, (n, newOwner) ∈ (manager.removeClient clientId).1 ↔ _ :=
    fun _ => mem_removeClient_results h
  have hd := distinct_members h n
  unfold primaryId
  rw [(removeClient_refines h clientId).1]
  simp only [hmem]
  cases hmembers : manager.members n with
  | nil => simp [Roster.leave]
  | cons owner waiters =>
      rw [hmembers] at hd
      by_cases howner : owner.clientId = clientId
      · subst howner
        rw [Roster.leave_head hd]
        cases waiters with
        | nil => simp [eq_comm]
        | cons next rest =>
            refine ⟨by simp [QueueEntry.owner], fun c hc hnot => ?_⟩
            have hnext : next.clientId ≠ c := fun heq =>
              hnot next.uniqueName ⟨owner, next :: rest, rfl, rfl, by rw [← heq]; rfl⟩
            simp [hnext, Ne.symm hc]
      · rw [Roster.leave_cons_ne _ howner]
        simp [howner]

end Operations

end NameQueueManager

/-! ## What the tasks are about to record -/

/-- The handler is about to add the name to the record of the client. -/
def MainTask.gains (clientId : ClientId) (n : String) : MainTask → Prop
  | .requestBus c name _ => c = clientId ∧ name = n
  | .requestRouting c name _ => c = clientId ∧ name = n
  | .requestOwned c name => c = clientId ∧ name = n
  | .promoteRouting _ name newOwner => newOwner.1 = clientId ∧ name = n
  | .promoteOwned _ name newOwnerId => newOwnerId = clientId ∧ name = n
  | _ => False

def MainTask.erases (clientId : ClientId) (n : String) : MainTask → Prop
  | .promoteRouting c name _ => c = clientId ∧ name = n
  | .promoteOwned c name _ => c = clientId ∧ name = n
  | .releaseLookup c name => c = clientId ∧ name = n
  | .releaseBus c name _ => c = clientId ∧ name = n
  | .releaseRouting c name _ => c = clientId ∧ name = n
  | .releaseOwned c name => c = clientId ∧ name = n
  | _ => False

def Cleanup.gains (cleanup : Cleanup) (clientId : ClientId) (n : String) : Prop :=
  (∃ uniqueName, (n, some (clientId, uniqueName)) ∈ cleanup.phase.resultsLeft) ∨
    ∃ rest, cleanup.phase = .promoteOwned clientId n rest

namespace NameState

def gains (s : NameState) (clientId : ClientId) (n : String) : Prop :=
  s.main.gains clientId n ∨
    ∃ c cleanup, s.cleanups.lookup c = some cleanup ∧ cleanup.gains clientId n

/-- A request, a release or a cleanup starts when nothing else is in progress, and
every call on the bus succeeds. -/
def Sequential (s : NameState) : NameEvent → Prop
  | .requestName _ _ _ => s.quiescent
  | .releaseName _ _ => s.quiescent
  | .disconnect _ _ => s.quiescent
  | .resume answered => answered = true
  | .cleanUp _ answered => answered = true
  | _ => True

instance (s : NameState) (e : NameEvent) : Decidable (Sequential s e) :=
  match e with
  | .requestName _ _ _ => inferInstanceAs (Decidable s.quiescent)
  | .releaseName _ _ => inferInstanceAs (Decidable s.quiescent)
  | .disconnect _ _ => inferInstanceAs (Decidable s.quiescent)
  | .resume answered => inferInstanceAs (Decidable (answered = true))
  | .cleanUp _ answered => inferInstanceAs (Decidable (answered = true))
  | .connect _ _ => isTrue trivial
  | .nameOwnerChanged => isTrue trivial
  | .removeFromQueues _ _ => isTrue trivial

/-- The task is not a request about to take a name from its owner. -/
def keepsOwner (s : NameState) : MainTask → Bool
  | .requestQueue clientId name flags _ => !s.queue.replaces clientId name flags
  | _ => true

def NoReplacement (s : NameState) : NameEvent → Prop
  | .resume _ => s.keepsOwner s.main = true
  | _ => True

instance (s : NameState) (e : NameEvent) : Decidable (NoReplacement s e) :=
  match e with
  | .resume _ => inferInstanceAs (Decidable (_ = true))
  | .connect _ _ => isTrue trivial
  | .requestName _ _ _ => isTrue trivial
  | .releaseName _ _ => isTrue trivial
  | .nameOwnerChanged => isTrue trivial
  | .disconnect _ _ => isTrue trivial
  | .removeFromQueues _ _ => isTrue trivial
  | .cleanUp _ _ => isTrue trivial

/-- A name in the record of a client, up to what is about to be recorded. -/
structure Recorded (s : NameState) (clientId : ClientId) (n : String) : Prop where
  gains : s.gains clientId n → s.queue.primaryId n = some clientId
  erases : s.main.erases clientId n → s.queue.primaryId n ≠ some clientId
  owned : ∀ info, s.clients.lookup clientId = some info → ¬ s.main.erases clientId n →
    (n ∈ info.ownedNames ↔ s.queue.primaryId n = some clientId ∧ ¬ s.gains clientId n)

/-- What holds all along a sequential run without replacements. -/
structure InOrder (s : NameState) : Prop where
  wf : s.Wf
  present : s.Present
  alone : s.main = .idle ∨ s.cleanups.entries = []
  single : ∀ c c', c ∈ s.cleanups → c' ∈ s.cleanups → c = c'
  requester : ∀ c name flags uniqueName,
    s.main = .requestQueue c name flags uniqueName → c ∈ s.clients
  noRevert : ∀ c n, s.main ≠ .requestRevert c n
  wellKnown : ∀ n, s.queue.primaryId n ≠ none →
    isUniqueName n = false ∨ ∃ c uniqueName, s.main = .requestBus c n uniqueName
  recorded : ∀ c n, s.Recorded c n

/-! ## One step -/

theorem Recorded.of_same {s t : NameState} {c : ClientId} {n : String} (h : s.Recorded c n)
    (hprimary : t.queue.primaryId n = s.queue.primaryId n)
    (hgains : t.gains c n ↔ s.gains c n) (herases : t.main.erases c n ↔ s.main.erases c n)
    (hclients : t.clients.lookup c = s.clients.lookup c) : t.Recorded c n where
  gains hg := by
    rw [hprimary]
    exact h.gains (hgains.mp hg)
  erases he := by
    rw [hprimary]
    exact h.erases (herases.mp he)
  owned info hl he := by
    rw [hprimary, hgains]
    rw [hclients] at hl
    rw [herases] at he
    exact h.owned info hl he

theorem gains_of_noCleanups {s : NameState} (hnone : s.cleanups.entries = []) (c : ClientId)
    (n : String) : s.gains c n ↔ s.main.gains c n := by
  unfold gains
  simp [AList.lookup_of_entries_nil hnone]

theorem not_gains_of_quiescent {s : NameState} (hquiet : s.quiescent) (c : ClientId) (n : String) :
    ¬ s.gains c n := by
  rw [gains_of_noCleanups hquiet.2, hquiet.1]
  exact id

theorem gains_of_single {s : NameState} (hmain : s.main = .idle)
    (hsingle : ∀ c c', c ∈ s.cleanups → c' ∈ s.cleanups → c = c') {clientId : ClientId}
    {cleanup : Cleanup} (hl : s.cleanups.lookup clientId = some cleanup) (c : ClientId)
    (n : String) : s.gains c n ↔ cleanup.gains c n := by
  unfold gains
  rw [hmain]
  constructor
  · rintro (hgains | ⟨c', other, hother, hgains⟩)
    · exact hgains.elim
    · have heq := hsingle c' clientId (mem_of_lookup hother) (mem_of_lookup hl)
      rw [heq, hl] at hother
      cases hother
      exact hgains
  · intro hgains
    exact Or.inr ⟨clientId, cleanup, hl, hgains⟩

theorem owned_updateOwned {clients : Clients} {clientId c : ClientId}
    {f : Finset String → Finset String} {info : ClientInfo}
    (hl : (clients.updateOwned clientId f).lookup c = some info) :
    ∃ old, clients.lookup c = some old ∧
      info.ownedNames = if c = clientId then f old.ownedNames else old.ownedNames := by
  rw [Clients.lookup_updateOwned] at hl
  split at hl
  · next hc =>
      rcases Option.map_eq_some_iff.mp hl with ⟨old, hold, heq⟩
      exact ⟨old, hold, by rw [← heq, if_pos hc]⟩
  · next hc => exact ⟨info, hl, by rw [if_neg hc]⟩

theorem Recorded.requestQueue {s t : NameState} {clientId : ClientId} {name uniqueName : String}
    {flags : UInt32} (h : ∀ c n, s.Recorded c n) (hwf : s.queue.WellFormed)
    (hkeeps : s.queue.replaces clientId name flags = false) (hs : ∀ c n, ¬ s.gains c n)
    (hmain : s.main = .requestQueue clientId name flags uniqueName)
    (hclients : t.clients = s.clients)
    (hqueue : t.queue = (s.queue.requestName name clientId uniqueName flags).2)
    (hnext : t.main = if (s.queue.requestName name clientId uniqueName flags).1.forwardToBus
      then .requestBus clientId name uniqueName else .idle)
    (ht : ∀ c n, t.gains c n ↔ t.main.gains c n) (c : ClientId) (n : String) :
    t.Recorded c n := by
  have hold := h c n
  have herases : ¬ t.main.erases c n := by
    rw [hnext]
    split <;> exact id
  rcases NameQueueManager.primaryId_requestName hwf hkeeps uniqueName with
    ⟨hforward, hfree, hprimary⟩ | ⟨hforward, hprimary⟩
  · have hgains : t.gains c n ↔ clientId = c ∧ name = n := by
      rw [ht, hnext, if_pos hforward]
      rfl
    refine ⟨fun hg => ?_, fun he => absurd he herases, fun info hl _ => ?_⟩
    · rcases hgains.mp hg with ⟨rfl, rfl⟩
      rw [hqueue, hprimary, if_pos rfl]
    · rw [hclients] at hl
      have howned := hold.owned info hl (by rw [hmain]; exact id)
      rw [howned, hgains, hqueue, hprimary]
      by_cases hn : n = name
      · subst hn
        rw [if_pos rfl, hfree]
        simp [hs c n]
      · rw [if_neg hn]
        simp [hs c n, Ne.symm hn]
  · refine hold.of_same (by rw [hqueue, hprimary]) ?_ (iff_of_false herases ?_) (by rw [hclients])
    · rw [ht, hnext, if_neg (by rw [hforward]; exact Bool.false_ne_true)]
      exact iff_of_false id (hs c n)
    · rw [hmain]
      exact id

/-- The last step of a request, a release or a promotion writes down what was due. -/
theorem Recorded.settle {s t : NameState} (h : ∀ c n, s.Recorded c n)
    (hqueue : t.queue = s.queue) (hidle : t.main = .idle)
    (hgains : ∀ c n, t.gains c n → s.gains c n)
    (hclients : ∀ c info, t.clients.lookup c = some info → ∃ old, s.clients.lookup c = some old ∧
      ∀ n, n ∈ info.ownedNames ↔
        (n ∈ old.ownedNames ∨ s.gains c n ∧ ¬ t.gains c n) ∧ ¬ s.main.erases c n)
    (c : ClientId) (n : String) : t.Recorded c n where
  gains hg := by
    rw [hqueue]
    exact (h c n).gains (hgains c n hg)
  erases he := by
    rw [hidle] at he
    exact he.elim
  owned info hl _ := by
    have hold := h c n
    have hless := hgains c n
    rcases hclients c info hl with ⟨old, hlold, hmem⟩
    rw [hmem n, hqueue]
    by_cases he : s.main.erases c n
    · simp [he, hold.erases he]
    · rw [hold.owned old hlold he]
      by_cases hg : s.gains c n
      · simp [he, hg, hold.gains hg]
      · simp [he, hg, mt hless hg]

/-- All that a step of a handler does to queues and records while the bus answers:
the queue step, the answer to a request, a step towards the records, and the step
that writes them. -/
inductive Resumed (s t : NameState) : Prop
  | queue (clientId : ClientId) (name : String) (flags : UInt32) (uniqueName : String)
      (hmain : s.main = .requestQueue clientId name flags uniqueName)
      (hqueue : t.queue = (s.queue.requestName name clientId uniqueName flags).2)
      (hclients : t.clients = s.clients)
      (hnext : t.main = if (s.queue.requestName name clientId uniqueName flags).1.forwardToBus
        then .requestBus clientId name uniqueName else .idle)
  | granted (clientId : ClientId) (name uniqueName : String)
      (hmain : s.main = .requestBus clientId name uniqueName)
      (hcolon : isUniqueName name = false) (hqueue : t.queue = s.queue)
      (hclients : t.clients = s.clients) (hnext : t.main = .requestRouting clientId name uniqueName)
  | moves (hmain : ∀ c n uniqueName, s.main ≠ .requestBus c n uniqueName)
      (hqueue : t.queue = s.queue) (hclients : t.clients = s.clients)
      (hgains : ∀ c n, t.main.gains c n ↔ s.main.gains c n)
      (herases : ∀ c n, t.main.erases c n ↔ s.main.erases c n)
      (hrequest : ∀ c n flags uniqueName, t.main ≠ .requestQueue c n flags uniqueName)
      (hrevert : ∀ c n, t.main ≠ .requestRevert c n)
  | settles (hmain : ∀ c n uniqueName, s.main ≠ .requestBus c n uniqueName)
      (hqueue : t.queue = s.queue) (hidle : t.main = .idle)
      (hclients : ∀ c info, t.clients.lookup c = some info → ∃ old,
        s.clients.lookup c = some old ∧ ∀ n, n ∈ info.ownedNames ↔
          (n ∈ old.ownedNames ∨ s.main.gains c n) ∧ ¬ s.main.erases c n)

theorem resume_resumed {s t : NameState} (hrevert : ∀ c n, s.main ≠ .requestRevert c n)
    (hapart : ∀ c n, s.main.gains c n → ¬ s.main.erases c n) (hstep : s.resume true = some t) :
    s.Resumed t := by
  cases resume_stepped hstep with
  | requestQueue clientId name flags uniqueName hmain =>
      exact .queue clientId name flags uniqueName hmain rfl rfl rfl
  | granted clientId name uniqueName hmain _ hname =>
      exact .granted clientId name uniqueName hmain hname rfl rfl rfl
  | failed _ _ _ _ hanswered => cases hanswered
  | requestOwned clientId name hmain =>
      refine .settles (by simp [hmain]) rfl rfl (fun c info hl => ?_)
      rcases owned_updateOwned hl with ⟨old, hold, howned⟩
      refine ⟨old, hold, fun n => ?_⟩
      rw [howned, hmain]
      simp only [MainTask.gains, MainTask.erases]
      by_cases hc : c = clientId
      · simp [hc, or_comm, eq_comm]
      · simp [hc, Ne.symm hc]
  | requestRevert clientId name hmain => exact absurd hmain (hrevert clientId name)
  | promoteOwned clientId name newOwnerId hmain =>
      have hne : newOwnerId ≠ clientId := by
        intro hc
        rw [hmain] at hapart
        exact hapart newOwnerId name ⟨rfl, rfl⟩ ⟨hc.symm, rfl⟩
      refine .settles (by simp [hmain]) rfl rfl (fun c info hl => ?_)
      rcases owned_updateOwned hl with ⟨mid, hmid, hinsert⟩
      rcases owned_updateOwned hmid with ⟨old, hold, herase⟩
      refine ⟨old, hold, fun n => ?_⟩
      rw [hinsert, herase, hmain]
      simp only [MainTask.gains, MainTask.erases]
      by_cases hc : c = newOwnerId
      · simp [hc, hne, Ne.symm hne, or_comm, eq_comm]
      · by_cases hc' : c = clientId
        · simp [hc', Ne.symm hne, hne, and_comm, eq_comm]
        · simp [hc, hc', Ne.symm hc, Ne.symm hc']
  | unreleased _ _ _ _ hanswered => cases hanswered
  | releaseOwned clientId name hmain =>
      refine .settles (by simp [hmain]) rfl rfl (fun c info hl => ?_)
      rcases owned_updateOwned hl with ⟨old, hold, howned⟩
      refine ⟨old, hold, fun n => ?_⟩
      rw [howned, hmain]
      simp only [MainTask.gains, MainTask.erases]
      by_cases hc : c = clientId
      · simp [hc, and_comm, eq_comm]
      · simp [hc, Ne.symm hc]
  | released _ _ _ hmain _ =>
      exact .moves (by simp [hmain]) rfl rfl (by rw [hmain]; exact fun _ _ => Iff.rfl)
        (by rw [hmain]; exact fun _ _ => Iff.rfl) (by simp) (by simp)
  | releasedGone _ _ hmain _ =>
      exact .moves (by simp [hmain]) rfl rfl (by rw [hmain]; exact fun _ _ => Iff.rfl)
        (by rw [hmain]; exact fun _ _ => Iff.rfl) (by simp) (by simp)
  | _ =>
      -- the routing table and the lookup of the name
      next hmain =>
        exact .moves (by simp [hmain]) rfl rfl (by rw [hmain]; exact fun _ _ => Iff.rfl)
          (by rw [hmain]; exact fun _ _ => Iff.rfl) (by simp) (by simp)

/-- A name that has an owner and is not being asked for on the bus is a well-known one. -/
theorem InOrder.isUniqueName_eq_false {s : NameState} (h : s.InOrder)
    (hmain : ∀ c n uniqueName, s.main ≠ .requestBus c n uniqueName) {n : String}
    (hn : s.queue.primaryId n ≠ none) : isUniqueName n = false := by
  rcases h.wellKnown n hn with hcolon | ⟨c, uniqueName, hbus⟩
  · exact hcolon
  · exact absurd hbus (hmain c n uniqueName)

theorem InOrder.of_noCleanups {s t : NameState} (h : s.InOrder) (hwf : t.Wf) (hpresent : t.Present)
    (hcleanups : t.cleanups = s.cleanups) (hnone : s.cleanups.entries = [])
    (hrequest : ∀ c n flags uniqueName, t.main ≠ .requestQueue c n flags uniqueName)
    (hrevert : ∀ c n, t.main ≠ .requestRevert c n)
    (hwell : ∀ n, t.queue.primaryId n ≠ none →
      isUniqueName n = false ∨ ∃ c uniqueName, t.main = .requestBus c n uniqueName)
    (hrecorded : ∀ c n, t.Recorded c n) : t.InOrder where
  wf := hwf
  present := hpresent
  alone := Or.inr (by rw [hcleanups]; exact hnone)
  single c c' hc hc' := by
    rw [hcleanups] at hc hc'
    exact h.single c c' hc hc'
  requester c name flags uniqueName heq := absurd heq (hrequest c name flags uniqueName)
  noRevert := hrevert
  wellKnown := hwell
  recorded := hrecorded

theorem InOrder.resume {s t : NameState} (h : s.InOrder) (hkeeps : s.keepsOwner s.main = true)
    (hstep : s.resume true = some t) (hwf : t.Wf) (hpresent : t.Present) : t.InOrder := by
  have hcleanups := (resume_frame hstep).1
  have hnone : s.cleanups.entries = [] := by
    refine h.alone.resolve_left (fun hidle => ?_)
    unfold NameState.resume at hstep
    rw [hidle] at hstep
    cases hstep
  have hs : ∀ c n, s.gains c n ↔ s.main.gains c n := gains_of_noCleanups hnone
  have ht : ∀ c n, t.gains c n ↔ t.main.gains c n :=
    gains_of_noCleanups (by rw [hcleanups]; exact hnone)
  have hapart : ∀ c n, s.main.gains c n → ¬ s.main.erases c n := fun c n hg he =>
    (h.recorded c n).erases he ((h.recorded c n).gains ((hs c n).mpr hg))
  have hresumed := resume_resumed h.noRevert hapart hstep
  cases hresumed with
  | queue clientId name flags uniqueName hmain hqueue hclients hnext =>
      simp only [hmain, keepsOwner, Bool.not_eq_true'] at hkeeps
      have hfree : ∀ c n, ¬ s.gains c n := by
        intro c n hg
        rw [hs, hmain] at hg
        exact hg
      refine h.of_noCleanups hwf hpresent hcleanups hnone ?_ ?_ (fun n hn => ?_)
        (Recorded.requestQueue h.recorded h.wf.queue.wellFormed hkeeps hfree hmain hclients hqueue
          hnext ht)
      · intro c n flags uniqueName heq
        rw [hnext] at heq
        split at heq <;> cases heq
      · intro c n heq
        rw [hnext] at heq
        split at heq <;> cases heq
      · have hold := fun hn => h.isUniqueName_eq_false (n := n) (by simp [hmain]) hn
        rw [hqueue] at hn
        rcases NameQueueManager.primaryId_requestName h.wf.queue.wellFormed hkeeps
          uniqueName with ⟨hforward, _, hprimary⟩ | ⟨_, hprimary⟩
        · rw [hprimary] at hn
          split at hn
          · next hname => exact Or.inr ⟨clientId, uniqueName, by rw [hnext, if_pos hforward, hname]⟩
          · exact Or.inl (hold hn)
        · rw [hprimary] at hn
          exact Or.inl (hold hn)
  | granted clientId name uniqueName hmain hcolon hqueue hclients hnext =>
      refine h.of_noCleanups hwf hpresent hcleanups hnone (by simp [hnext]) (by simp [hnext])
        (fun n hn => ?_) (fun c n => ?_)
      · rw [hqueue] at hn
        rcases h.wellKnown n hn with hok | ⟨c, other, hbus⟩
        · exact Or.inl hok
        · rw [hmain] at hbus
          cases hbus
          exact Or.inl hcolon
      · refine (h.recorded c n).of_same (by rw [hqueue]) ?_ ?_ (by rw [hclients])
        · rw [hs, ht, hmain, hnext]
          exact Iff.rfl
        · rw [hmain, hnext]
          exact Iff.rfl
  | moves hmain hqueue hclients hgains herases hrequest hrevert =>
      refine h.of_noCleanups hwf hpresent hcleanups hnone hrequest hrevert (fun n hn => ?_)
        (fun c n => ?_)
      · rw [hqueue] at hn
        exact Or.inl (h.isUniqueName_eq_false hmain hn)
      · exact (h.recorded c n).of_same (by rw [hqueue]) (by rw [hs, ht]; exact hgains c n)
          (herases c n) (by rw [hclients])
  | settles hmain hqueue hidle hclients =>
      have hdone : ∀ c n, ¬ t.gains c n := by
        intro c n hg
        rw [ht, hidle] at hg
        exact hg
      refine h.of_noCleanups hwf hpresent hcleanups hnone (by simp [hidle]) (by simp [hidle])
        (fun n hn => ?_) (Recorded.settle h.recorded hqueue hidle
          (fun c n hg => absurd hg (hdone c n)) (fun c info hl => ?_))
      · rw [hqueue] at hn
        exact Or.inl (h.isUniqueName_eq_false hmain hn)
      · rcases hclients c info hl with ⟨old, hold, hmem⟩
        refine ⟨old, hold, fun n => ?_⟩
        rw [hmem n, hs]
        simp [hdone c n]

theorem InOrder.idle_of_lookup {s : NameState} (h : s.InOrder) {clientId : ClientId}
    {cleanup : Cleanup} (hl : s.cleanups.lookup clientId = some cleanup) : s.main = .idle := by
  refine h.alone.resolve_right (fun hnone => ?_)
  exact AList.notMem_of_entries_nil hnone clientId (mem_of_lookup hl)

theorem InOrder.of_idle {s t : NameState} (h : s.InOrder) (hwf : t.Wf) (hpresent : t.Present)
    (hidle : s.main = .idle) (hmain : t.main = s.main)
    (hprimary : ∀ n, t.queue.primaryId n ≠ none → s.queue.primaryId n ≠ none)
    (hsingle : ∀ c c', c ∈ t.cleanups → c' ∈ t.cleanups → c = c')
    (hrecorded : ∀ c n, t.Recorded c n) : t.InOrder where
  wf := hwf
  present := hpresent
  alone := Or.inl (by rw [hmain, hidle])
  single := hsingle
  requester c name flags uniqueName heq := by
    rw [hmain, hidle] at heq
    cases heq
  noRevert c n := by
    rw [hmain, hidle]
    simp
  wellKnown n hn := by
    rw [hmain]
    exact h.wellKnown n (hprimary n hn)
  recorded := hrecorded

theorem single_advance {s : NameState}
    (hsingle : ∀ c c', c ∈ s.cleanups → c' ∈ s.cleanups → c = c') {clientId : ClientId}
    {cleanup : Cleanup} (hl : s.cleanups.lookup clientId = some cleanup) (phase : CleanupPhase)
    (c c' : ClientId) (hc : c ∈ (s.advance clientId cleanup phase).cleanups)
    (hc' : c' ∈ (s.advance clientId cleanup phase).cleanups) : c = c' := by
  have hmem : ∀ d, d ∈ (s.advance clientId cleanup phase).cleanups → d ∈ s.cleanups := by
    intro d hd
    rcases (AList.mem_insert _).mp hd with heq | hd
    · rw [heq]
      exact mem_of_lookup hl
    · exact hd
  exact hsingle c c' (hmem c hc) (hmem c' hc')

theorem InOrder.of_advance {s t : NameState} (h : s.InOrder) {clientId : ClientId}
    {cleanup : Cleanup} (hl : s.cleanups.lookup clientId = some cleanup) (phase : CleanupPhase)
    (hqueue : t.queue = s.queue) (hmain : t.main = s.main) (hclients : t.clients = s.clients)
    (hcleanups : t.cleanups = (s.advance clientId cleanup phase).cleanups)
    (hgains : ∀ c n, ({ cleanup with phase := phase } : Cleanup).gains c n ↔ cleanup.gains c n)
    (hwf : t.Wf) (hpresent : t.Present) : t.InOrder := by
  have hidle := h.idle_of_lookup hl
  have hsingle : ∀ c c', c ∈ t.cleanups → c' ∈ t.cleanups → c = c' := by
    rw [hcleanups]
    exact single_advance h.single hl phase
  have hs := gains_of_single hidle h.single hl
  have ht := gains_of_single (s := t) (by rw [hmain, hidle]) hsingle
    (by rw [hcleanups]; exact AList.lookup_insert _)
  refine h.of_idle hwf hpresent hidle hmain (fun n hn => ?_) hsingle (fun c n => ?_)
  · rw [hqueue] at hn
    exact hn
  · exact (h.recorded c n).of_same (by rw [hqueue]) (by rw [ht, hs]; exact hgains c n)
      (by rw [hmain]) (by rw [hclients])

theorem gains_promoteOwned {cleanup : Cleanup} {newOwnerId : ClientId} {name : String}
    {rest : List (String × Option (ClientId × String))}
    (hphase : cleanup.phase = .promoteOwned newOwnerId name rest) (c : ClientId) (n : String) :
    cleanup.gains c n ↔
      ({ cleanup with phase := .results rest } : Cleanup).gains c n ∨
        c = newOwnerId ∧ n = name := by
  simp [Cleanup.gains, CleanupPhase.resultsLeft, hphase, eq_comm]

theorem InOrder.promoteOwned {s : NameState} (h : s.InOrder) {clientId : ClientId}
    {cleanup : Cleanup} (hl : s.cleanups.lookup clientId = some cleanup) {newOwnerId : ClientId}
    {name : String} {rest : List (String × Option (ClientId × String))}
    (hphase : cleanup.phase = .promoteOwned newOwnerId name rest)
    (hwf : Wf { s.advance clientId cleanup (.results rest) with
      clients := s.clients.updateOwned newOwnerId (insert name) })
    (hpresent : Present { s.advance clientId cleanup (.results rest) with
      clients := s.clients.updateOwned newOwnerId (insert name) }) :
    InOrder { s.advance clientId cleanup (.results rest) with
      clients := s.clients.updateOwned newOwnerId (insert name) } := by
  have hidle := h.idle_of_lookup hl
  have hs := gains_of_single hidle h.single hl
  have hsingle := single_advance h.single hl (.results rest)
  have ht := gains_of_single
    (s := { s.advance clientId cleanup (.results rest) with
      clients := s.clients.updateOwned newOwnerId (insert name) })
    hidle hsingle (AList.lookup_insert _)
  -- each name is among the results once, so this was the last time for `name`
  have hdone : ∀ c, ¬ ({ cleanup with phase := .results rest } : Cleanup).gains c name := by
    intro c hg
    have hcurrent := (h.wf.cleanups clientId cleanup hl).current
    rw [hphase] at hcurrent
    simp only [Cleanup.gains, CleanupPhase.resultsLeft] at hg
    rcases hg with ⟨uniqueName, hmem⟩ | ⟨_, hother⟩
    · exact hcurrent name rfl (List.mem_map.mpr ⟨_, hmem, rfl⟩)
    · cases hother
  refine h.of_idle hwf hpresent hidle rfl (fun _ hn => hn) hsingle
    (Recorded.settle h.recorded rfl hidle (fun c n hg => ?_) (fun c info hli => ?_))
  · rw [hs, gains_promoteOwned hphase]
    exact Or.inl ((ht c n).mp hg)
  · rcases owned_updateOwned hli with ⟨old, hold, howned⟩
    refine ⟨old, hold, fun n => ?_⟩
    rw [hs, ht, gains_promoteOwned hphase, howned, hidle]
    by_cases hn : n = name
    · subst hn
      by_cases hc : c = newOwnerId
      · simp [hc, hdone, MainTask.erases]
      · simp [hc, hdone, MainTask.erases]
    · split
      · simp [hn, MainTask.erases]
      · simp [hn, MainTask.erases]

theorem InOrder.finishCleanup {s : NameState} (h : s.InOrder) {clientId : ClientId}
    {cleanup : Cleanup} (hl : s.cleanups.lookup clientId = some cleanup)
    (hphase : cleanup.phase = .ownedNames [])
    (hwf : Wf { s with cleanups := s.cleanups.erase clientId })
    (hpresent : Present { s with cleanups := s.cleanups.erase clientId }) :
    InOrder { s with cleanups := s.cleanups.erase clientId } := by
  have hidle := h.idle_of_lookup hl
  have hempty : ∀ c, (s.cleanups.erase clientId).lookup c = none := by
    intro c
    rw [AList.lookup_eq_none, AList.mem_erase]
    exact fun hmem => hmem.1 (h.single c clientId hmem.2 (mem_of_lookup hl))
  refine h.of_idle hwf hpresent hidle rfl (fun _ hn => hn) (fun c c' hc hc' =>
    h.single c c' (AList.mem_erase.mp hc).2 (AList.mem_erase.mp hc').2) (fun c n => ?_)
  refine (h.recorded c n).of_same rfl ?_ Iff.rfl rfl
  rw [gains_of_single hidle h.single hl]
  unfold gains
  simp [hempty, hidle, MainTask.gains, Cleanup.gains, CleanupPhase.resultsLeft, hphase]

theorem InOrder.cleanUp {s t : NameState} (h : s.InOrder) {clientId : ClientId}
    {cleanup : Cleanup} (hl : s.cleanups.lookup clientId = some cleanup) {answered : Bool}
    (hstep : s.cleanUp clientId cleanup answered = some t) (hwf : t.Wf) (hpresent : t.Present) :
    t.InOrder := by
  cases cleanUp_stepped hstep with
  | resultsDone hphase =>
      refine h.of_advance hl _ rfl rfl rfl rfl (fun c n => ?_) hwf hpresent
      simp [Cleanup.gains, CleanupPhase.resultsLeft, hphase]
  | promoted name newOwner rest hphase =>
      refine h.of_advance hl _ rfl rfl rfl rfl (fun c n => ?_) hwf hpresent
      rcases newOwner with ⟨newOwnerId, newOwnerName⟩
      simp [Cleanup.gains, CleanupPhase.resultsLeft, hphase]
      grind
  | promoteOwned newOwnerId name rest hphase => exact h.promoteOwned hl hphase hwf hpresent
  | finished hphase => exact h.finishCleanup hl hphase hwf hpresent
  | nextName name rest hphase =>
      refine h.of_advance hl _ rfl rfl rfl rfl (fun c n => ?_) hwf hpresent
      split <;> simp [Cleanup.gains, CleanupPhase.resultsLeft, hphase]
  | _ =>
      -- what these phases have left does not give the name to anybody
      next hphase =>
        refine h.of_advance hl _ rfl rfl rfl rfl (fun c n => ?_) hwf hpresent
        simp [Cleanup.gains, CleanupPhase.resultsLeft, hphase]

theorem InOrder.inTime {s : NameState} (h : s.InOrder) (e : NameEvent) : InTime s e := by
  unfold InTime
  split
  · split
    · next clientId name flags uniqueName hmain =>
        exact Or.inl (h.requester clientId name flags uniqueName hmain)
    · trivial
  · trivial

theorem InOrder.connect {s t : NameState} (h : s.InOrder) {clientId : ClientId}
    {credentials : ClientCredentials} (hnew : clientId ∉ s.registered)
    (ht : t = { s with
      clients := s.clients.insert clientId (.registered clientId credentials)
      registered := insert clientId s.registered }) (hwf : t.Wf) (hpresent : t.Present) :
    t.InOrder := by
  have hnobody : ∀ n, s.queue.primaryId n ≠ some clientId := by
    intro n hprimary
    unfold NameQueueManager.primaryId at hprimary
    rcases Option.map_eq_some_iff.mp hprimary with ⟨owner, hhead, howner⟩
    rcases h.present n owner (List.mem_of_mem_head? hhead) with hclient | hbefore
    · rw [howner] at hclient
      exact hnew (h.wf.clients_registered clientId hclient)
    · rw [howner] at hbefore
      unfold beforeQueue at hbefore
      cases hl : s.cleanups.lookup clientId with
      | none => simp [hl] at hbefore
      | some cleanup => exact hnew (h.wf.cleanups_registered clientId (mem_of_lookup hl))
  subst ht
  refine { h with
    wf := hwf
    present := hpresent
    requester := fun c name flags uniqueName hmain =>
      (AList.mem_insert _).mpr (Or.inr (h.requester c name flags uniqueName hmain))
    recorded := fun c n => { h.recorded c n with owned := fun info hl he => ?_ } }
  dsimp only at hl
  rw [AList.lookup_insert_if] at hl
  split at hl
  · next hc =>
      cases hl
      rw [hc]
      exact iff_of_false (Finset.notMem_empty n) (fun hprimary => hnobody n hprimary.1)
  · exact (h.recorded c n).owned info hl he

theorem InOrder.requestName {s : NameState} (h : s.InOrder) (hquiet : s.quiescent)
    {clientId : ClientId} {name uniqueName : String} {flags : UInt32} {info : ClientInfo}
    (hl : s.clients.lookup clientId = some info)
    (hwf : Wf { s with main := .requestQueue clientId name flags uniqueName })
    (hpresent : Present { s with main := .requestQueue clientId name flags uniqueName }) :
    InOrder { s with main := .requestQueue clientId name flags uniqueName } := by
  refine { h with
    wf := hwf
    present := hpresent
    alone := Or.inr hquiet.2
    requester := fun c n flags uniqueName heq => ?_
    noRevert := by simp
    wellKnown := fun n hn => Or.inl (h.isUniqueName_eq_false (by simp [hquiet.1]) hn)
    recorded := fun c n => (h.recorded c n).of_same rfl ?_ ?_ rfl }
  · cases heq
    exact AList.lookup_isSome.mp (by rw [hl]; rfl)
  · refine iff_of_false (fun hg => ?_) (not_gains_of_quiescent hquiet c n)
    rcases hg with hg | ⟨c', cleanup, hcleanup, hg⟩
    · exact hg
    · exact not_gains_of_quiescent hquiet c n (Or.inr ⟨c', cleanup, hcleanup, hg⟩)
  · rw [hquiet.1]
    exact Iff.rfl

theorem erases_ofRelease (clientId : ClientId) (name : String) (result : ReleaseNameResult)
    (c : ClientId) (n : String) :
    (MainTask.ofRelease clientId name result).erases c n ↔ clientId = c ∧ name = n := by
  unfold MainTask.ofRelease
  split
  · exact Iff.rfl
  · split <;> exact Iff.rfl

theorem gains_ofRelease (clientId : ClientId) (name : String) (result : ReleaseNameResult)
    (c : ClientId) (n : String) :
    (MainTask.ofRelease clientId name result).gains c n ↔
      ∃ newOwner, result.newOwner = some newOwner ∧ newOwner.1 = c ∧ name = n := by
  unfold MainTask.ofRelease
  split
  · next newOwner hnew => simp [MainTask.gains, hnew]
  · next hnew => split <;> simp [MainTask.gains, hnew]

theorem InOrder.releaseName {s : NameState} (h : s.InOrder) (hquiet : s.quiescent)
    (clientId : ClientId) (name : String) (hwf : (s.handleReleaseName clientId name).Wf)
    (hpresent : (s.handleReleaseName clientId name).Present) :
    (s.handleReleaseName clientId name).InOrder := by
  have hs := not_gains_of_quiescent hquiet
  have ht : ∀ c n, (s.handleReleaseName clientId name).gains c n ↔
      (MainTask.ofRelease clientId name (s.queue.releaseName name clientId).1).gains c n :=
    gains_of_noCleanups hquiet.2
  have hprimary := NameQueueManager.primaryId_releaseName h.wf.queue.wellFormed name clientId
  have hmain : ∀ result c n flags uniqueName,
      MainTask.ofRelease clientId name result ≠ .requestQueue c n flags uniqueName ∧
        MainTask.ofRelease clientId name result ≠ .requestRevert c n := by
    intro result c n flags uniqueName
    unfold MainTask.ofRelease
    split
    · simp
    · split <;> simp
  refine { h with
    wf := hwf
    present := hpresent
    alone := Or.inr hquiet.2
    requester := fun c n flags uniqueName heq => absurd heq (hmain _ c n flags uniqueName).1
    noRevert := fun c n => (hmain _ c n 0 "").2
    wellKnown := fun n hn => ?_
    recorded := fun c n => ⟨fun hg => ?_, fun he => ?_, fun info hl he => ?_⟩ }
  · have hbefore : s.queue.primaryId n ≠ none := by
      refine mt (NameQueueManager.primaryId_eq_none_of_subset (fun e he => ?_)) hn
      exact NameQueueManager.mem_members_releaseName h.wf.queue.wellFormed he
    exact Or.inl (h.isUniqueName_eq_false (by simp [hquiet.1]) hbefore)
  · rw [ht, gains_ofRelease] at hg
    rcases hg with ⟨newOwner, hnew, hc, hn⟩
    subst hc hn
    exact (hprimary.2.2.1 newOwner hnew).2
  · rcases (erases_ofRelease _ _ _ _ _).mp he with ⟨hc, hn⟩
    subst hc hn
    exact hprimary.1
  · have hother : ¬ (clientId = c ∧ name = n) := fun heq => he ((erases_ofRelease _ _ _ _ _).mpr heq)
    have hbefore := (h.recorded c n).owned info hl (by rw [hquiet.1]; exact id)
    rw [hbefore, ht, gains_ofRelease]
    show _ ↔ (s.queue.releaseName name clientId).2.primaryId n = some c ∧ _
    by_cases hn : name = n
    · subst hn
      have hc : c ≠ clientId := fun heq => hother ⟨heq.symm, rfl⟩
      cases hnew : (s.queue.releaseName name clientId).1.newOwner with
      | none =>
          rw [hprimary.2.2.2 hnew c hc]
          simp [hs c name]
      | some newOwner =>
          rw [(hprimary.2.2.1 newOwner hnew).1, (hprimary.2.2.1 newOwner hnew).2]
          simp [Ne.symm hc]
    · rw [hprimary.2.1 n (Ne.symm hn)]
      simp [hs c n, hn]

theorem InOrder.disconnect {s t : NameState} (h : s.InOrder) (hquiet : s.quiescent)
    {clientId : ClientId} {ownedNames : List String}
    (ht : t = { s with
      clients := s.clients.erase clientId
      cleanups := s.cleanups.insert clientId ⟨ownedNames, .queue⟩ })
    (hwf : t.Wf) (hpresent : t.Present) : t.InOrder := by
  have hs := not_gains_of_quiescent hquiet
  have honly : ∀ c, c ∈ s.cleanups.insert clientId ⟨ownedNames, .queue⟩ → c = clientId := by
    intro c hc
    rcases (AList.mem_insert _).mp hc with heq | hc
    · exact heq
    · exact absurd hc (AList.notMem_of_entries_nil hquiet.2 c)
  have hsingle : ∀ c c', c ∈ t.cleanups → c' ∈ t.cleanups → c = c' := by
    rw [ht]
    exact fun c c' hc hc' => (honly c hc).trans (honly c' hc').symm
  have hgains : ∀ c n, ¬ t.gains c n := by
    intro c n
    have hlookup : t.cleanups.lookup clientId = some ⟨ownedNames, .queue⟩ := by
      rw [ht]
      exact AList.lookup_insert _
    rw [gains_of_single (by rw [ht, hquiet.1]) hsingle hlookup]
    simp [Cleanup.gains, CleanupPhase.resultsLeft]
  refine h.of_idle hwf hpresent hquiet.1 (by rw [ht]) (by rw [ht]; exact fun _ hn => hn) hsingle
    (fun c n => ⟨fun hg => absurd hg (hgains c n), fun he => ?_, fun info hl _ => ?_⟩)
  · rw [ht, hquiet.1] at he
    exact he.elim
  · have hlold : s.clients.lookup c = some info := by
      rw [ht] at hl
      dsimp only at hl
      rw [AList.lookup_erase_if] at hl
      split at hl
      · cases hl
      · exact hl
    rw [(h.recorded c n).owned info hlold (by rw [hquiet.1]; exact id), ht]
    rw [ht] at hgains
    exact and_congr_right (fun _ => iff_of_true (hs c n) (hgains c n))

theorem InOrder.removeFromQueues {s t : NameState} (h : s.InOrder) {clientId : ClientId}
    {cleanup : Cleanup} {results : List (String × Option (ClientId × String))}
    (hl : s.cleanups.lookup clientId = some cleanup) (hphase : cleanup.phase = .queue)
    (hperm : results.Perm (s.queue.removeClient clientId).1)
    (ht : t = { s.advance clientId cleanup (.results results) with
      queue := (s.queue.removeClient clientId).2 }) (hwf : t.Wf) (hpresent : t.Present) :
    t.InOrder := by
  have hidle := h.idle_of_lookup hl
  have hsingle : ∀ c c', c ∈ t.cleanups → c' ∈ t.cleanups → c = c' := by
    rw [ht]
    exact single_advance h.single hl (.results results)
  have hs : ∀ c n, ¬ s.gains c n := by
    intro c n
    rw [gains_of_single hidle h.single hl]
    simp [Cleanup.gains, CleanupPhase.resultsLeft, hphase]
  have hgains : ∀ c n, t.gains c n ↔
      ∃ uniqueName, (n, some (c, uniqueName)) ∈ (s.queue.removeClient clientId).1 := by
    intro c n
    have hlookup : t.cleanups.lookup clientId =
        some { cleanup with phase := .results results } := by
      rw [ht]
      exact AList.lookup_insert _
    rw [gains_of_single (by rw [ht]; exact hidle) hsingle hlookup]
    simp [Cleanup.gains, CleanupPhase.resultsLeft, hperm.mem_iff]
  have hprimary := NameQueueManager.primaryId_removeClient h.wf.queue.wellFormed clientId
  have hqueue : t.queue = (s.queue.removeClient clientId).2 := by rw [ht]
  refine h.of_idle hwf hpresent hidle (by rw [ht]; rfl) (fun n => ?_) hsingle
    (fun c n => ⟨fun hg => ?_, fun he => ?_, fun info hli _ => ?_⟩)
  · refine mt (NameQueueManager.primaryId_eq_none_of_subset (fun e he => ?_))
    rw [hqueue] at he
    exact (NameQueueManager.mem_members_removeClient h.wf.queue.wellFormed he).1
  · rcases (hgains c n).mp hg with ⟨uniqueName, hmem⟩
    rw [hqueue]
    exact ((hprimary n).1 _ hmem).2
  · have hmain : t.main = .idle := by rw [ht]; exact hidle
    rw [hmain] at he
    exact he.elim
  · have hlold : s.clients.lookup c = some info := by
      rw [ht] at hli
      exact hli
    have hc : c ≠ clientId := by
      intro heq
      refine h.wf.gone clientId (mem_of_lookup hl) ?_
      rw [← heq]
      exact AList.lookup_isSome.mp (by rw [hlold]; rfl)
    rw [(h.recorded c n).owned info hlold (by rw [hidle]; exact id), hgains, hqueue]
    by_cases hdue : ∃ uniqueName, (n, some (c, uniqueName)) ∈ (s.queue.removeClient clientId).1
    · rcases hdue with ⟨uniqueName, hmem⟩
      rw [((hprimary n).1 _ hmem).1]
      exact iff_of_false (fun heq => hc (Option.some.inj heq.1).symm)
        (fun hnot => hnot.2 ⟨uniqueName, hmem⟩)
    · rw [(hprimary n).2 c hc (fun uniqueName hmem => hdue ⟨uniqueName, hmem⟩)]
      exact and_congr_right (fun _ => iff_of_true (hs c n) hdue)

theorem step_inOrder {s t : NameState} {e : NameEvent} (h : s.InOrder) (hseq : Sequential s e)
    (hkeeps : NoReplacement s e) (hstep : s.step e = some t) : t.InOrder := by
  have hwf := step_wf h.wf hstep
  have hpresent := step_present h.wf h.present (h.inTime e) hstep
  cases step_stepped hstep with
  | connect clientId credentials hnew => exact h.connect hnew rfl hwf hpresent
  | ignored clientId name flags => exact h
  | requestName clientId name flags info hidle hl => exact h.requestName hseq hl hwf hpresent
  | releaseName clientId name hidle => exact h.releaseName hseq clientId name hwf hpresent
  | resume answered _ hresume =>
      have hanswered : answered = true := hseq
      subst hanswered
      exact h.resume hkeeps hresume hwf hpresent
  | nameOwnerChanged name oldOwner newOwner signals hidle hsignals =>
      exact { h with
        wf := hwf
        present := hpresent
        recorded := fun c n => (h.recorded c n).of_same rfl Iff.rfl Iff.rfl rfl }
  | disconnect clientId ownedNames hclient => exact h.disconnect hseq rfl hwf hpresent
  | removeFromQueues clientId results cleanup hl hphase hresults =>
      exact h.removeFromQueues hl hphase hresults rfl hwf hpresent
  | cleanUp clientId answered cleanup _ hl hclean => exact h.cleanUp hl hclean hwf hpresent

theorem run_inOrder {routing : RoutingTable} {bus : ContainerBus} {events : List NameEvent}
    {t : NameState} (hrun : Trace.run step (initial routing bus) events = some t)
    (hseq : Trace.Along step Sequential (initial routing bus) events)
    (hkeeps : Trace.Along step NoReplacement (initial routing bus) events) : t.InOrder := by
  refine Trace.invariant_of_along (P := fun s e => Sequential s e ∧ NoReplacement s e)
    (fun s e t hs he ht => step_inOrder hs he.1 he.2 ht) ?_ (hseq.and hkeeps) hrun
  exact {
    wf := wf_initial routing bus
    present := fun _ _ he => by cases he
    alone := Or.inl rfl
    single := fun c _ hc => absurd hc (AList.notMem_empty c)
    requester := fun _ _ _ _ hmain => by cases hmain
    noRevert := fun _ _ hmain => by cases hmain
    wellKnown := fun _ hn => absurd rfl hn
    recorded := fun c n => {
      gains := fun hg => absurd hg (not_gains_of_quiescent ⟨rfl, rfl⟩ c n)
      erases := fun he => he.elim
      owned := fun _ hl => by cases hl } }

/-! ## Between operations -/

theorem InOrder.ownedNames_iff {s : NameState} (h : s.InOrder) (hquiet : s.quiescent)
    {c : ClientId} {info : ClientInfo} (hl : s.clients.lookup c = some info) (n : String) :
    n ∈ info.ownedNames ↔ s.queue.primaryId n = some c := by
  rw [(h.recorded c n).owned info hl (by rw [hquiet.1]; exact id)]
  exact and_iff_left (not_gains_of_quiescent hquiet c n)

/-- The primary owner of a name is connected. -/
theorem InOrder.exists_owner {s : NameState} (h : s.InOrder) (hquiet : s.quiescent) {n : String}
    {c : ClientId} (hprimary : s.queue.primaryId n = some c) :
    ∃ info, s.clients.lookup c = some info := by
  unfold NameQueueManager.primaryId at hprimary
  rcases Option.map_eq_some_iff.mp hprimary with ⟨owner, hhead, howner⟩
  rcases h.present n owner (List.mem_of_mem_head? hhead) with hclient | hbefore
  · rw [howner] at hclient
    exact Option.isSome_iff_exists.mp (AList.lookup_isSome.mpr hclient)
  · unfold beforeQueue at hbefore
    rw [AList.lookup_of_entries_nil hquiet.2] at hbefore
    cases hbefore

/-- The lookup of credentials finds the owner of a well-known name, in whatever
order the clients come. -/
theorem InOrder.findClientCredentials_eq {s : NameState} (h : s.InOrder) (hquiet : s.quiescent)
    {n : String} {c : ClientId} (hprimary : s.queue.primaryId n = some c) {info : ClientInfo}
    (hl : s.clients.lookup c = some info) {infos : List ClientInfo}
    (horder : infos.Perm (s.clients.entries.map Sigma.snd)) :
    findClientCredentials infos n = some info.credentials := by
  have hcolon : isUniqueName n = false :=
    h.isUniqueName_eq_false (by simp [hquiet.1]) (by rw [hprimary]; simp)
  have hunique : infos.find? (fun other => other.uniqueName == n) = none := by
    refine find?_of_none horder (fun c' other hl' => ?_)
    rw [beq_eq_false_iff_ne, h.wf.clients c' other hl']
    intro heq
    rw [← heq, isUniqueName_muxUniqueName] at hcolon
    cases hcolon
  have howned : infos.find? (fun other => decide (n ∈ other.ownedNames)) = some info := by
    refine find?_of_only horder hl ?_ (fun c' other hl' hother => ?_)
    · rw [decide_eq_true_iff, h.ownedNames_iff hquiet hl]
      exact hprimary
    · rw [decide_eq_true_iff, h.ownedNames_iff hquiet hl', hprimary] at hother
      exact (Option.some.inj hother).symm
  unfold findClientCredentials
  rw [hunique, howned]
  rfl

/-- In every run of operations one after the other in which no request replaces an
owner, the records agree with the queue after every operation, and the credentials
found for an owned name are those of its owner. -/
theorem owned_names_agree {routing : RoutingTable} {bus : ContainerBus}
    {events : List NameEvent} {t : NameState}
    (hrun : Trace.run step (initial routing bus) events = some t)
    (hseq : Trace.Along step Sequential (initial routing bus) events)
    (hkeeps : Trace.Along step NoReplacement (initial routing bus) events)
    (hquiet : t.quiescent) :
    (∀ c info n, t.clients.lookup c = some info →
        (n ∈ info.ownedNames ↔ (t.queue.getPrimaryOwner n).map Prod.fst = some c)) ∧
      ∀ n c uniqueName, t.queue.getPrimaryOwner n = some (c, uniqueName) →
        ∃ info, t.clients.lookup c = some info ∧
          ∀ infos : List ClientInfo, infos.Perm (t.clients.entries.map Sigma.snd) →
            findClientCredentials infos n = some info.credentials := by
  have h := run_inOrder hrun hseq hkeeps
  have hprimary := NameQueueManager.getPrimaryOwner_map h.wf.queue.wellFormed
  constructor
  · intro c info n hl
    rw [hprimary]
    exact h.ownedNames_iff hquiet hl n
  · intro n c uniqueName howner
    have hid : t.queue.primaryId n = some c := by
      rw [← hprimary, howner]
      rfl
    rcases h.exists_owner hquiet hid with ⟨info, hl⟩
    exact ⟨info, hl, fun infos horder => h.findClientCredentials_eq hquiet hid hl horder⟩

theorem owned_names_agree_handover :
    ∃ t, Trace.run step (initial .new ⟨":1.5", by decide, ∅, []⟩) handover = some t ∧
      t.queue.getPrimaryOwner "org.a" = some (2, ":mux.2") ∧
      ∀ infos : List ClientInfo, infos.Perm (t.clients.entries.map Sigma.snd) →
        findClientCredentials infos "org.a" = some ⟨1000, none, 1000⟩ := by
  have heval : (Trace.run step (initial .new ⟨":1.5", by decide, ∅, []⟩) handover).any
      (fun t => decide (t.quiescent ∧ t.queue.getPrimaryOwner "org.a" = some (2, ":mux.2") ∧
        (t.clients.lookup 2).map ClientInfo.credentials = some ⟨1000, none, 1000⟩)) = true := by
    decide
  rcases Trace.exists_of_eval heval with ⟨t, hrun, hquiet, howner, hcredentials⟩
  rcases (owned_names_agree hrun (by decide) (by decide) hquiet).2 "org.a" 2 ":mux.2" howner with
    ⟨info, hl, hfind⟩
  rw [hl] at hcredentials
  rw [Option.some.inj hcredentials] at hfind
  exact ⟨t, hrun, howner, hfind⟩

/-- A client that allows replacement is replaced as owner, and keeps the name in its record. -/
theorem replaced_owner_keeps_record :
    ¬ ∀ (routing : RoutingTable) (bus : ContainerBus) (events : List NameEvent) (t : NameState),
      Trace.run step (initial routing bus) events = some t →
      Trace.Along step Sequential (initial routing bus) events → t.quiescent →
      ∀ c info n, t.clients.lookup c = some info →
        (n ∈ info.ownedNames ↔ (t.queue.getPrimaryOwner n).map Prod.fst = some c) := by
  intro hclaim
  have heval : (Trace.run step (initial .new ⟨":1.5", by decide, ∅, []⟩)
      [.connect 1 ⟨1000, none, 1000⟩, .connect 2 ⟨1001, none, 1001⟩,
        .requestName 1 "org.a" 1, .resume true, .resume true, .resume true, .resume true,
        .requestName 2 "org.a" 2, .resume true, .resume true, .resume true, .resume true]).any
      (fun t => decide (t.quiescent ∧ t.queue.getPrimaryOwner "org.a" = some (2, ":mux.2") ∧
        (t.clients.lookup 1).map ClientInfo.ownedNames = some {"org.a"})) = true := by
    decide
  rcases Trace.exists_of_eval heval with ⟨t, hrun, hquiet, howner, howned⟩
  rcases Option.map_eq_some_iff.mp howned with ⟨info, hl, hnames⟩
  have hmem := (hclaim _ _ _ t hrun (by decide) hquiet 1 info "org.a" hl).mp
    (by rw [hnames]; exact Finset.mem_singleton_self _)
  rw [howner] at hmem
  cases hmem

end NameState

end KapsuleDbusMux
