import KapsuleDbusMux.Multiplexer.NameInvariant

/-! # Clients in the name queues are connected

`handle_request_name` looks its client up in one critical section and puts it
into the queue in another one. A cleanup that runs in between has removed the
client from every queue before it gets there. As long as that does not happen,
a client in a queue is connected or its cleanup has still to remove it.
-/

namespace KapsuleDbusMux

namespace NameState

/-- The cleanup of the client has not reached the queues yet. -/
def beforeQueue (s : NameState) (clientId : ClientId) : Prop :=
  (s.cleanups.lookup clientId).any (fun cleanup => decide (cleanup.phase = .queue)) = true

instance (s : NameState) (clientId : ClientId) : Decidable (s.beforeQueue clientId) :=
  inferInstanceAs (Decidable (_ = true))

/-- A new client that asks with these flags is refused: it does not want to wait,
and it may not replace the owner. -/
def refuses (s : NameState) (name : String) (flags : UInt32) : Bool :=
  match s.queue.members name with
  | [] => false
  | owner :: _ =>
      RequestNameFlags.has flags RequestNameFlags.doNotQueue &&
        !(RequestNameFlags.has flags RequestNameFlags.replaceExisting && owner.allowReplacement)

/-- A request reaches the queue before the cleanup of its client does, or is refused. -/
def InTime (s : NameState) : NameEvent → Prop
  | .resume _ =>
      match s.main with
      | .requestQueue clientId name flags _ =>
          clientId ∈ s.clients ∨ s.beforeQueue clientId ∨ s.refuses name flags = true
      | _ => True
  | _ => True

instance (s : NameState) : (e : NameEvent) → Decidable (InTime s e)
  | .resume _ =>
      match h : s.main with
      | .requestQueue clientId name flags _ =>
          decidable_of_iff
            (clientId ∈ s.clients ∨ s.beforeQueue clientId ∨ s.refuses name flags = true)
            (by simp [InTime, h])
      | .idle | .requestBus .. | .requestRouting .. | .requestOwned .. | .requestRevert ..
      | .promoteRouting .. | .promoteOwned .. | .releaseLookup .. | .releaseBus ..
      | .releaseRouting .. | .releaseOwned .. => isTrue (by simp [InTime, h])
  | .connect .. | .requestName .. | .releaseName .. | .nameOwnerChanged | .disconnect ..
  | .removeFromQueues .. | .cleanUp .. => isTrue trivial

def Present (s : NameState) : Prop :=
  ∀ n, ∀ e ∈ s.queue.members n, e.clientId ∈ s.clients ∨ s.beforeQueue e.clientId

theorem Present.of_subset {s t : NameState} (h : s.Present)
    (hqueue : ∀ n, ∀ e ∈ t.queue.members n, e ∈ s.queue.members n)
    (hkeep : ∀ n, ∀ e ∈ t.queue.members n, e.clientId ∈ s.clients ∨ s.beforeQueue e.clientId →
      e.clientId ∈ t.clients ∨ t.beforeQueue e.clientId) : t.Present :=
  fun n e he => hkeep n e he (h n e (hqueue n e he))

theorem beforeQueue_advance {s : NameState} {clientId : ClientId} {cleanup : Cleanup}
    (hl : s.cleanups.lookup clientId = some cleanup) (hphase : cleanup.phase ≠ .queue)
    (phase : CleanupPhase) {c : ClientId} (hc : s.beforeQueue c) :
    (s.advance clientId cleanup phase).beforeQueue c := by
  unfold beforeQueue at hc ⊢
  simp only [advance]
  rw [AList.lookup_insert_if]
  split
  · next heq =>
      rw [heq, hl] at hc
      simp [hphase] at hc
  · exact hc

theorem requestName_of_refuses {s : NameState} (h : s.queue.WellFormed) {name : String}
    {clientId : ClientId} {uniqueName : String} {flags : UInt32}
    (hrefuses : s.refuses name flags = true) {n : String} {e : QueueEntry}
    (he : e ∈ (s.queue.requestName name clientId uniqueName flags).2.members n) :
    e ∈ s.queue.members n := by
  rw [(NameQueueManager.requestName_refines h name clientId uniqueName flags).2.1] at he
  split at he
  · next heq =>
      rw [heq]
      unfold refuses at hrefuses
      cases hmembers : s.queue.members name with
      | nil => simp [hmembers] at hrefuses
      | cons owner waiters =>
          rw [hmembers] at he hrefuses
          simp only [Bool.and_eq_true, Bool.not_eq_true'] at hrefuses
          simp only [QueueRoster.request, hrefuses.1, hrefuses.2] at he
          split at he
          · exact he
          · split at he
            · exact he
            · simpa using he
  · exact he

theorem Present.resume {s t : NameState} (hwf : s.Wf) (h : s.Present) {answered : Bool}
    (htime : InTime s (.resume answered)) (hstep : s.resume answered = some t) : t.Present := by
  have hframe := resume_frame hstep
  have hkeep : ∀ c, c ∈ s.clients ∨ s.beforeQueue c → c ∈ t.clients ∨ t.beforeQueue c := by
    intro c hc
    unfold beforeQueue
    rw [hframe.2.2 c, hframe.1]
    exact hc
  cases resume_stepped hstep with
  | requestQueue clientId name flags uniqueName hmain =>
      simp only [InTime, hmain] at htime
      intro n e he
      have hcaller : clientId ∈ s.clients ∨ s.beforeQueue clientId → e.clientId ∈ s.clients ∨
          s.beforeQueue e.clientId := by
        intro hcaller
        rcases NameQueueManager.mem_members_requestName hwf.queue.wellFormed he with hold | hnew
        · exact h n e hold
        · rw [hnew]
          exact hcaller
      rcases htime with hclient | hbefore | hrefuses
      · exact hkeep _ (hcaller (Or.inl hclient))
      · exact hkeep _ (hcaller (Or.inr hbefore))
      · exact hkeep _ (h n e (requestName_of_refuses hwf.queue.wellFormed hrefuses he))
  | requestRevert clientId name hmain =>
      exact h.of_subset (fun _ _ => NameQueueManager.mem_members_releaseName hwf.queue.wellFormed)
        (fun _ e _ => hkeep e.clientId)
  | _ => exact h.of_subset (fun _ _ he => he) (fun _ e _ => hkeep e.clientId)

theorem Present.cleanUp {s t : NameState} (h : s.Present) {clientId : ClientId}
    {cleanup : Cleanup} (hl : s.cleanups.lookup clientId = some cleanup) {answered : Bool}
    (hstep : s.cleanUp clientId cleanup answered = some t) : t.Present := by
  have hframe := cleanUp_frame hstep
  have hkeep : ∀ c, s.beforeQueue c → t.beforeQueue c := by
    intro c hc
    have hadvance := fun phase => beforeQueue_advance hl hframe.2.2.2.2 phase hc
    cases cleanUp_stepped hstep with
    | finished _ =>
        unfold beforeQueue at hc ⊢
        dsimp only
        rw [AList.lookup_erase_if]
        split
        · next heq =>
            rw [heq, hl] at hc
            simp [hframe.2.2.2.2] at hc
        · exact hc
    | _ => exact hadvance _
  refine h.of_subset (fun n e he => by rw [← hframe.1]; exact he) (fun n e _ hin => ?_)
  rcases hin with hclient | hbefore
  · exact Or.inl ((hframe.2.2.2.1 e.clientId).mpr hclient)
  · exact Or.inr (hkeep e.clientId hbefore)

theorem step_present {s t : NameState} {e : NameEvent} (hwf : s.Wf) (h : s.Present)
    (htime : InTime s e) (hstep : s.step e = some t) : t.Present := by
  cases step_stepped hstep with
  | connect clientId credentials hnew =>
      exact h.of_subset (fun _ _ he => he)
        (fun _ _ _ hin => hin.imp_left (fun hc => (AList.mem_insert _).mpr (Or.inr hc)))
  | ignored clientId name flags => exact h
  | requestName clientId name flags info hidle hl => exact h
  | releaseName clientId name hidle =>
      exact h.of_subset
        (fun _ _ => NameQueueManager.mem_members_releaseName hwf.queue.wellFormed)
        (fun _ _ _ hin => hin)
  | resume answered _ hresume => exact Present.resume hwf h htime hresume
  | nameOwnerChanged name oldOwner newOwner signals hidle hsignals => exact h
  | disconnect clientId ownedNames hclient =>
      refine h.of_subset (fun _ _ he => he) (fun _ e _ hin => ?_)
      unfold beforeQueue at hin ⊢
      dsimp only
      rw [AList.mem_erase, AList.lookup_insert_if]
      by_cases heq : e.clientId = clientId
      · rw [if_pos heq]
        exact Or.inr rfl
      · rw [if_neg heq]
        exact hin.imp_left (fun hc => ⟨heq, hc⟩)
  | removeFromQueues clientId results cleanup hl hphase hresults =>
      have hgone : ∀ n, ∀ e ∈ (s.queue.removeClient clientId).2.members n,
          e ∈ s.queue.members n ∧ e.clientId ≠ clientId :=
        fun _ _ => NameQueueManager.mem_members_removeClient hwf.queue.wellFormed
      refine h.of_subset (fun n e he => (hgone n e he).1) (fun n e he hin => ?_)
      have hne := (hgone n e he).2
      unfold beforeQueue at hin ⊢
      simp only [advance]
      rw [AList.lookup_insert_if, if_neg hne]
      exact hin
  | cleanUp clientId answered cleanup _ hl hclean => exact h.cleanUp hl hclean

/-- In every run in which requests reach the queue in time, a client that owns or
waits for a name while no task is in progress is connected. -/
theorem queued_clients_connected {routing : RoutingTable} {bus : ContainerBus}
    {events : List NameEvent} {t : NameState}
    (hrun : Trace.run step (initial routing bus) events = some t)
    (htime : Trace.Along step InTime (initial routing bus) events) (hquiet : t.quiescent) :
    ∀ n queue, t.queue.queues.lookup n = some queue →
      ∀ e ∈ queue.primaryOwner.toList ++ queue.waiters, e.clientId ∈ t.clients := by
  have hinv : t.Wf ∧ t.Present :=
    Trace.invariant_of_along (I := fun s => s.Wf ∧ s.Present)
      (fun s e t hs he ht => ⟨step_wf hs.1 ht, step_present hs.1 hs.2 he ht⟩)
      ⟨wf_initial routing bus, fun _ _ he => by cases he⟩ htime hrun
  intro n queue hl e he
  have hmember : e ∈ t.queue.members n := by
    rw [NameQueueManager.members_of_lookup hl]
    exact he
  rcases hinv.2 n e hmember with hclient | hbefore
  · exact hclient
  · unfold beforeQueue at hbefore
    rw [AList.lookup_of_entries_nil hquiet.2] at hbefore
    cases hbefore

def handover : List NameEvent :=
  [.connect 1 ⟨1000, none, 1000⟩, .connect 2 ⟨1000, none, 1000⟩,
    .requestName 1 "org.a" 0, .resume true, .resume true, .resume true, .resume true,
    .requestName 2 "org.a" 0, .resume true,
    .disconnect 1 ["org.a"], .removeFromQueues 1 [("org.a", some (2, ":mux.2"))],
    .cleanUp 1 true, .cleanUp 1 true, .cleanUp 1 true, .cleanUp 1 true, .cleanUp 1 true]

theorem queued_clients_connected_handover :
    ∃ t, Trace.run step (initial .new ⟨":1.5", by decide, ∅, []⟩) handover = some t ∧
      t.queue.listQueuedOwners "org.a" = [":mux.2"] ∧
      ∀ n queue, t.queue.queues.lookup n = some queue →
        ∀ e ∈ queue.primaryOwner.toList ++ queue.waiters, e.clientId ∈ t.clients := by
  have heval : (Trace.run step (initial .new ⟨":1.5", by decide, ∅, []⟩) handover).any
      (fun t => decide (t.quiescent ∧ t.queue.listQueuedOwners "org.a" = [":mux.2"])) = true := by
    decide
  rcases Trace.exists_of_eval heval with ⟨t, hrun, hquiet, howners⟩
  exact ⟨t, hrun, howners, queued_clients_connected hrun (by decide) hquiet⟩

/-- A client asks for a name and disconnects; its cleanup runs between the lookup
and the queue update of the request, and the client owns the name for ever. -/
theorem request_outlives_cleanup :
    ¬ ∀ (routing : RoutingTable) (bus : ContainerBus) (events : List NameEvent) (t : NameState),
      Trace.run step (initial routing bus) events = some t → t.quiescent →
      ∀ n queue, t.queue.queues.lookup n = some queue →
        ∀ e ∈ queue.primaryOwner.toList ++ queue.waiters, e.clientId ∈ t.clients := by
  intro hclaim
  have heval : (Trace.run step (initial .new ⟨":1.5", by decide, ∅, []⟩)
      [.connect 1 ⟨1000, none, 1000⟩, .requestName 1 "org.a" 0, .disconnect 1 [],
        .removeFromQueues 1 [], .cleanUp 1 true, .cleanUp 1 true,
        .resume true, .resume true, .resume true, .resume true]).any
      (fun t => decide (t.quiescent ∧ t.clients.keys = [] ∧
        t.queue.queues.lookup "org.a" = some ⟨some ⟨1, ":mux.1", false⟩, []⟩)) = true := by
    decide
  rcases Trace.exists_of_eval heval with ⟨t, hrun, hquiet, hnobody, hqueue⟩
  have hmem := hclaim _ _ _ t hrun hquiet "org.a" _ hqueue ⟨1, ":mux.1", false⟩
    List.mem_cons_self
  rw [AList.mem_keys, hnobody] at hmem
  cases hmem

end NameState

end KapsuleDbusMux
