import KapsuleDbusMux.Multiplexer.NameInvariant

/-! # Names that start with a colon

A client may ask for such a name, and is in its queue while the bus is asked for it. The
bus never grants it, so it gets into no record of owned names and no cleanup hands it on.
-/

namespace KapsuleDbusMux

/-- The name a handler is on the way to record for a client. -/
def MainTask.recording : MainTask → Option String
  | .requestRouting _ name _ => some name
  | .requestOwned _ name => some name
  | .promoteRouting _ name _ => some name
  | .promoteOwned _ name _ => some name
  | _ => none

/-- The client for which a handler has asked the bus for a name, and the name. -/
def MainTask.asking : MainTask → Option (ClientId × String)
  | .requestBus clientId name _ => some (clientId, name)
  | .requestRevert clientId name => some (clientId, name)
  | _ => none

/-- No client has a record of the name. -/
def Clients.Without (n : String) (clients : Clients) : Prop :=
  ∀ c info, clients.lookup c = some info → n ∉ info.ownedNames

namespace Clients.Without

variable {n : String} {clients : Clients}

theorem updateOwned (h : clients.Without n) (clientId : ClientId)
    {f : Finset String → Finset String} (hf : ∀ owned, n ∉ owned → n ∉ f owned) :
    (clients.updateOwned clientId f).Without n := by
  intro c info hl
  rw [Clients.lookup_updateOwned] at hl
  split at hl
  · obtain ⟨old, hold, heq⟩ := Option.map_eq_some_iff.mp hl
    rw [← heq]
    exact hf old.ownedNames (h c old hold)
  · exact h c info hl

theorem record (h : clients.Without n) (clientId : ClientId) {name : String} (hname : name ≠ n) :
    (clients.updateOwned clientId (insert name)).Without n :=
  h.updateOwned clientId (fun owned howned => by simpa [Ne.symm hname] using howned)

theorem erase (h : clients.Without n) (clientId : ClientId) (name : String) :
    (clients.updateOwned clientId (·.erase name)).Without n :=
  h.updateOwned clientId (fun _ howned hmem => howned (Finset.mem_of_mem_erase hmem))

end Clients.Without

namespace NameState

/-- The name is in no client's record and nothing will put it there. The queue has it only
while the bus is asked for it, for the client on whose behalf it is asked. -/
structure Unrecorded (n : String) (s : NameState) : Prop where
  records : s.clients.Without n
  recording : s.main.recording ≠ some n
  asking : ∀ entry ∈ s.queue.members n, s.main.asking = some (entry.clientId, n)
  results : ∀ c cleanup newOwner, s.cleanups.lookup c = some cleanup →
    (n, some newOwner) ∉ cleanup.phase.resultsLeft
  promoting : ∀ c cleanup newOwnerId rest, s.cleanups.lookup c = some cleanup →
    cleanup.phase ≠ .promoteOwned newOwnerId n rest

variable {n : String} {s t : NameState}

theorem unrecorded_initial (n : String) (routing : RoutingTable) (bus : ContainerBus) :
    (initial routing bus).Unrecorded n where
  records _ _ hl := nomatch hl
  recording := nofun
  asking _ hentry := nomatch hentry
  results _ _ _ hl := nomatch hl
  promoting _ _ _ _ hl := nomatch hl

/-- While the bus is not asked for it the name has no queue. -/
theorem Unrecorded.members_eq_nil (h : s.Unrecorded n) (hmain : s.main.asking = none) :
    s.queue.members n = [] := by
  rw [List.eq_nil_iff_forall_not_mem]
  intro entry hentry
  have hasking := h.asking entry hentry
  rw [hmain] at hasking
  cases hasking

/-! ## Handlers -/

theorem Unrecorded.handleReleaseName (hwf : s.Wf) (h : s.Unrecorded n) (clientId : ClientId)
    (name : String) (hidle : s.main = .idle) :
    (s.handleReleaseName clientId name).Unrecorded n := by
  have hnil := h.members_eq_nil (by rw [hidle]; rfl)
  have href := NameQueueManager.releaseName_refines hwf.queue.wellFormed name clientId
  refine { h with recording := ?_, asking := fun entry hentry => ?_ }
  · unfold NameState.handleReleaseName MainTask.ofRelease
    dsimp only
    split
    · next newOwner hnew =>
        intro hrecording
        cases hrecording
        rw [href.1, hnil] at hnew
        cases hnew
    · split
      · exact nofun
      · exact nofun
  · have hbefore := NameQueueManager.mem_members_releaseName hwf.queue.wellFormed hentry
    rw [hnil] at hbefore
    cases hbefore

/-- A handler that leaves the queue alone and asks the bus for nothing. -/
theorem Unrecorded.handler (h : s.Unrecorded n) {main : MainTask} {clients : Clients}
    {routing : RoutingTable} {bus : ContainerBus} (hbefore : s.main.asking = none)
    (hclients : clients.Without n) (hrecording : main.recording ≠ some n) :
    Unrecorded n
      { s with main := main, clients := clients, routing := routing, bus := bus } where
  records := hclients
  recording := hrecording
  asking entry hentry := by
    rw [show s.queue.members n = [] from h.members_eq_nil hbefore] at hentry
    cases hentry
  results := h.results
  promoting := h.promoting

/-- A request for the name enters the queue, and its handler turns to the bus. -/
theorem Unrecorded.requestQueue (hwf : s.Wf) (h : s.Unrecorded n) {clientId : ClientId}
    {name : String} {flags : UInt32} {uniqueName : String}
    (hmain : s.main = .requestQueue clientId name flags uniqueName) :
    Unrecorded n { s with
      queue := (s.queue.requestName name clientId uniqueName flags).2
      main :=
        if (s.queue.requestName name clientId uniqueName flags).1.forwardToBus then
          .requestBus clientId name uniqueName
        else .idle } := by
  have hqueue := hwf.queue.wellFormed
  have hnil := h.members_eq_nil (by rw [hmain]; rfl)
  refine { h with recording := ?_, asking := fun entry hentry => ?_ }
  · dsimp only
    split
    · exact nofun
    · exact nofun
  · have hname : n = name := by
      by_contra hother
      rw [(NameQueueManager.requestName_refines hqueue name clientId uniqueName flags).2.1,
        if_neg hother, hnil] at hentry
      cases hentry
    subst hname
    have hforward : (s.queue.requestName n clientId uniqueName flags).1.forwardToBus = true := by
      by_contra hquiet
      have hhas := NameQueueManager.nameHasOwner_of_not_forwarded hqueue (by simpa using hquiet)
      exact (NameQueueManager.nameHasOwner_iff hqueue n).mp hhas hnil
    rcases NameQueueManager.mem_members_requestName hqueue hentry with hold | hnew
    · rw [hnil] at hold
      cases hold
    · rw [hnew]
      simp [hforward, MainTask.asking, QueueRoster.requestEntry]

/-- The bus refuses the name, and the client leaves the queue again. -/
theorem Unrecorded.requestRevert (hwf : s.Wf) (h : s.Unrecorded n) {clientId : ClientId}
    {name : String} (hmain : s.main = .requestRevert clientId name) :
    Unrecorded n { s with queue := (s.queue.releaseName name clientId).2, main := .idle } := by
  have hqueue := hwf.queue.wellFormed
  refine { h with recording := nofun, asking := fun entry hentry => ?_ }
  have hasking := h.asking entry (NameQueueManager.mem_members_releaseName hqueue hentry)
  rw [hmain] at hasking
  cases hasking
  rw [(NameQueueManager.releaseName_refines hqueue n entry.clientId).2.1, if_pos rfl] at hentry
  exact absurd rfl (Roster.mem_leave.mp hentry).2

theorem Unrecorded.resume (hwf : s.Wf) (h : s.Unrecorded n) (hcolon : isUniqueName n = true)
    {answered : Bool} (hstep : s.resume answered = some t) : t.Unrecorded n := by
  have hrecording := h.recording
  cases resume_stepped hstep with
  | requestQueue _ _ _ _ hmain => exact h.requestQueue hwf hmain
  | granted clientId name uniqueName hmain _ hgranted =>
      -- the bus does not grant this name
      have hname : name ≠ n := by
        rintro rfl
        rw [hcolon] at hgranted
        cases hgranted
      refine { h with recording := fun hsame => hname (Option.some.inj hsame), asking := ?_ }
      intro entry hentry
      have hasking := h.asking entry hentry
      rw [hmain] at hasking
      cases hasking
      exact absurd rfl hname
  | failed clientId name uniqueName hmain _ =>
      refine { h with recording := nofun, asking := fun entry hentry => ?_ }
      have hasking := h.asking entry hentry
      rw [hmain] at hasking
      exact hasking
  | requestRouting _ _ _ hmain =>
      rw [hmain] at hrecording
      exact h.handler (by rw [hmain]; rfl) h.records hrecording
  | requestOwned clientId name hmain =>
      rw [hmain] at hrecording
      have hname : name ≠ n := fun hsame => hrecording (congrArg some hsame)
      exact h.handler (by rw [hmain]; rfl) (h.records.record clientId hname) nofun
  | requestRevert _ _ hmain => exact h.requestRevert hwf hmain
  | promoteRouting _ _ _ hmain =>
      rw [hmain] at hrecording
      exact h.handler (by rw [hmain]; rfl) h.records hrecording
  | promoteOwned clientId name newOwnerId hmain =>
      rw [hmain] at hrecording
      have hname : name ≠ n := fun hsame => hrecording (congrArg some hsame)
      exact h.handler (by rw [hmain]; rfl)
        ((h.records.erase clientId name).record newOwnerId hname) nofun
  | releaseOwned clientId name hmain =>
      exact h.handler (by rw [hmain]; rfl) (h.records.erase clientId name) nofun
  | releaseLookup _ _ hmain => exact h.handler (by rw [hmain]; rfl) h.records nofun
  | released _ _ _ hmain _ => exact h.handler (by rw [hmain]; rfl) h.records nofun
  | releasedGone _ _ hmain _ => exact h.handler (by rw [hmain]; rfl) h.records nofun
  | unreleased _ _ _ hmain _ => exact h.handler (by rw [hmain]; rfl) h.records nofun
  | releaseRouting _ _ _ hmain => exact h.handler (by rw [hmain]; rfl) h.records nofun

/-! ## Cleanups -/

theorem Unrecorded.advance (h : s.Unrecorded n) (clientId : ClientId) (cleanup : Cleanup)
    (phase : CleanupPhase) (hphase : ∀ newOwner, (n, some newOwner) ∉ phase.resultsLeft)
    (hpromoting : ∀ newOwnerId rest, phase ≠ .promoteOwned newOwnerId n rest) :
    (s.advance clientId cleanup phase).Unrecorded n := by
  refine { h with
    results := fun c other newOwner hl => ?_
    promoting := fun c other newOwnerId rest hl => ?_ }
  · simp only [NameState.advance] at hl
    rw [AList.lookup_insert_if] at hl
    split at hl
    · cases hl
      exact hphase newOwner
    · exact h.results c other newOwner hl
  · simp only [NameState.advance] at hl
    rw [AList.lookup_insert_if] at hl
    split at hl
    · cases hl
      exact hpromoting newOwnerId rest
    · exact h.promoting c other newOwnerId rest hl

theorem Unrecorded.cleanUp (h : s.Unrecorded n) {clientId : ClientId} {cleanup : Cleanup}
    (hl : s.cleanups.lookup clientId = some cleanup) {answered : Bool}
    (hstep : s.cleanUp clientId cleanup answered = some t) : t.Unrecorded n := by
  have hresults := fun newOwner => h.results clientId cleanup newOwner hl
  cases cleanUp_stepped hstep with
  | resultsDone _ => exact h.advance clientId cleanup _ nofun nofun
  | promoted name newOwner rest hphase =>
      rw [hphase] at hresults
      have hnext := h.advance clientId cleanup (.promoteOwned newOwner.1 name rest)
        (fun other hmem => hresults other (List.mem_cons_of_mem _ hmem))
        (fun newOwnerId left hsame => by
          cases hsame
          exact hresults newOwner List.mem_cons_self)
      exact { hnext with }
  | vacated name rest hphase =>
      rw [hphase] at hresults
      have hnext := h.advance clientId cleanup (.releaseBus name rest)
        (fun other hmem => hresults other (List.mem_cons_of_mem _ hmem)) nofun
      exact { hnext with }
  | promoteOwned newOwnerId name rest hphase =>
      have hname : name ≠ n := by
        rintro rfl
        exact h.promoting clientId cleanup newOwnerId rest hl hphase
      rw [hphase] at hresults
      have hnext := h.advance clientId cleanup (.results rest) hresults nofun
      exact { hnext with records := h.records.record newOwnerId hname }
  | releaseBus name rest hphase =>
      rw [hphase] at hresults
      have hnext := h.advance clientId cleanup (.results rest) hresults nofun
      exact { hnext with }
  | finished _ =>
      refine { h with
        results := fun c other newOwner hother => ?_
        promoting := fun c other newOwnerId rest hother => ?_ }
      · dsimp only at hother
        rw [AList.lookup_erase_if] at hother
        split at hother
        · cases hother
        · exact h.results c other newOwner hother
      · dsimp only at hother
        rw [AList.lookup_erase_if] at hother
        split at hother
        · cases hother
        · exact h.promoting c other newOwnerId rest hother
  | nextName name rest _ =>
      refine h.advance clientId cleanup _ (fun newOwner => ?_) (fun newOwnerId left => ?_)
      · split
        · exact nofun
        · exact nofun
      · split
        · exact nofun
        · exact nofun
  | ownedRouting name rest _ =>
      have hnext := h.advance clientId cleanup (.ownedBus name rest) nofun nofun
      exact { hnext with }
  | ownedBus name rest _ =>
      have hnext := h.advance clientId cleanup (.ownedNames rest) nofun nofun
      exact { hnext with }

/-- Removing a client from a queue with one entry promotes nobody. -/
theorem Unrecorded.removeFromQueues (hwf : s.Wf) (h : s.Unrecorded n) {clientId : ClientId}
    {cleanup : Cleanup} {results : List (String × Option (ClientId × String))}
    (hresults : results.Perm (s.queue.removeClient clientId).1) :
    Unrecorded n { s.advance clientId cleanup (.results results) with
      queue := (s.queue.removeClient clientId).2 } := by
  have hqueue := hwf.queue.wellFormed
  have hnext := h.advance clientId cleanup (.results results)
    (fun newOwner hmem => by
      obtain ⟨owner, waiters, hmembers, _, hpromoted⟩ :=
        (NameQueueManager.mem_removeClient_results hqueue).mp (hresults.mem_iff.mp hmem)
      cases hwaiters : waiters with
      | nil =>
          rw [hwaiters] at hpromoted
          cases hpromoted
      | cons next rest =>
          rw [hwaiters] at hmembers
          have howner := h.asking owner (hmembers ▸ List.mem_cons_self)
          have hother := h.asking next (hmembers ▸ List.mem_cons_of_mem _ List.mem_cons_self)
          have hsame := howner.symm.trans hother
          have hdistinct := NameQueueManager.distinct_members hqueue n
          rw [hmembers] at hdistinct
          have hnot := (Roster.distinct_cons.mp hdistinct).1
          rw [List.map_cons, List.mem_cons, not_or] at hnot
          exact hnot.1 (congrArg Prod.fst (Option.some.inj hsame)))
    nofun
  refine { hnext with asking := fun entry hentry => ?_ }
  exact h.asking entry (NameQueueManager.mem_members_removeClient hqueue hentry).1

theorem Unrecorded.step (hwf : s.Wf) (h : s.Unrecorded n) (hcolon : isUniqueName n = true)
    {e : NameEvent} (hstep : s.step e = some t) : t.Unrecorded n := by
  cases step_stepped hstep with
  | connect clientId credentials hnew =>
      refine { h with records := fun c info hl => ?_ }
      dsimp only at hl
      rw [AList.lookup_insert_if] at hl
      split at hl
      · cases hl
        exact Finset.notMem_empty n
      · exact h.records c info hl
  | ignored clientId name flags => exact h
  | requestName clientId name flags info hidle hl =>
      exact h.handler (by rw [hidle]; rfl) h.records nofun
  | releaseName clientId name hidle => exact h.handleReleaseName hwf clientId name hidle
  | resume answered _ hresume => exact h.resume hwf hcolon hresume
  | nameOwnerChanged name oldOwner newOwner signals hidle hsignals => exact { h with }
  | disconnect clientId ownedNames hclient =>
      have hqueued := h.advance clientId ⟨ownedNames, .queue⟩ .queue nofun nofun
      refine { hqueued with records := fun c info hl => ?_ }
      dsimp only at hl
      rw [AList.lookup_erase_if] at hl
      split at hl
      · cases hl
      · exact h.records c info hl
  | removeFromQueues clientId results cleanup hl hphase hresults =>
      exact h.removeFromQueues hwf hresults
  | cleanUp clientId answered cleanup _ hl hclean => exact h.cleanUp hl hclean

theorem run_unrecorded {routing : RoutingTable} {bus : ContainerBus} {events : List NameEvent}
    (hrun : Trace.run NameState.step (initial routing bus) events = some t)
    (hcolon : isUniqueName n = true) : t.Unrecorded n := by
  have hinv : t.Wf ∧ t.Unrecorded n :=
    Trace.invariant_of_run (I := fun s => s.Wf ∧ s.Unrecorded n)
      (fun s e t hs ht => ⟨step_wf hs.1 ht, hs.2.step hs.1 hcolon ht⟩)
      ⟨wf_initial routing bus, unrecorded_initial n routing bus⟩ hrun
  exact hinv.2

end NameState

end KapsuleDbusMux
