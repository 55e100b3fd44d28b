import KapsuleDbusMux.Multiplexer.NameTasks

/-! # What every run of the name tasks keeps

No assumption on the schedule or on the bus: the queues stay well formed, every
unique name in sight is the one its client was given, a client is connected,
being cleaned up, or neither, and the results a cleanup works through name each
name once.
-/

namespace KapsuleDbusMux

/-! ## Updates of the client map -/

theorem Clients.lookup_updateOwned (clients : Clients) (clientId c : ClientId)
    (f : Finset String → Finset String) :
    (clients.updateOwned clientId f).lookup c =
      if c = clientId then
        (clients.lookup c).map (fun info => { info with ownedNames := f info.ownedNames })
      else clients.lookup c :=
  AList.lookup_modify _ _ _ _

@[simp] theorem Clients.mem_updateOwned (clients : Clients) (clientId c : ClientId)
    (f : Finset String → Finset String) :
    c ∈ clients.updateOwned clientId f ↔ c ∈ clients :=
  AList.mem_modify _ _ _ _

def Clients.Named (clients : Clients) : Prop :=
  ∀ c info, clients.lookup c = some info → info.uniqueName = muxUniqueName c

theorem Clients.Named.updateOwned {clients : Clients} (h : clients.Named) (clientId : ClientId)
    (f : Finset String → Finset String) : (clients.updateOwned clientId f).Named := by
  intro c info hl
  rw [Clients.lookup_updateOwned] at hl
  split at hl
  · rcases Option.map_eq_some_iff.mp hl with ⟨old, hold, heq⟩
    rw [← heq]
    exact h c old hold
  · exact h c info hl

/-! ## Queues -/

/-- The queues are well formed and list every client under its unique name. -/
structure NameQueueManager.Named (queue : NameQueueManager) : Prop where
  wellFormed : queue.WellFormed
  entry : ∀ n, ∀ e ∈ queue.members n, e.uniqueName = muxUniqueName e.clientId

namespace NameQueueManager

variable {queue : NameQueueManager} (h : queue.Named)
include h

theorem Named.requestName (name : String) (clientId : ClientId) (flags : UInt32) :
    (queue.requestName name clientId (muxUniqueName clientId) flags).2.Named := by
  refine ⟨(requestName_refines h.wellFormed name clientId _ flags).2.2, fun n e he => ?_⟩
  rcases mem_members_requestName h.wellFormed he with hold | hnew
  · exact h.entry n e hold
  · rw [hnew]
    rfl

theorem Named.releaseName (name : String) (clientId : ClientId) :
    (queue.releaseName name clientId).2.Named :=
  ⟨(releaseName_refines h.wellFormed name clientId).2.2,
    fun n e he => h.entry n e (mem_members_releaseName h.wellFormed he)⟩

theorem Named.removeClient (clientId : ClientId) : (queue.removeClient clientId).2.Named :=
  ⟨(removeClient_refines h.wellFormed clientId).2,
    fun n e he => h.entry n e (mem_members_removeClient h.wellFormed he).1⟩

theorem Named.releaseName_newOwner {name : String} {clientId : ClientId}
    {newOwner : ClientId × String}
    (hnew : (queue.releaseName name clientId).1.newOwner = some newOwner) :
    newOwner.2 = muxUniqueName newOwner.1 := by
  have href := releaseName_refines h.wellFormed name clientId
  have hrel := QueueRoster.release_released (distinct_members h.wellFormed name) clientId
  rw [href.1] at hnew
  rcases hrel.newOwner hnew with ⟨next, hnext, howner⟩
  rw [howner]
  exact h.entry name next hnext

theorem Named.removeClient_newOwner {name : String} {clientId : ClientId}
    {newOwner : ClientId × String}
    (hnew : (name, some newOwner) ∈ (queue.removeClient clientId).1) :
    newOwner.2 = muxUniqueName newOwner.1 := by
  rcases (mem_removeClient_results h.wellFormed).mp hnew with
    ⟨owner, waiters, hmembers, _, hhead⟩
  cases waiters with
  | nil => cases hhead
  | cons next rest =>
      cases hhead
      refine h.entry name next ?_
      rw [hmembers]
      exact List.mem_cons_of_mem _ List.mem_cons_self

end NameQueueManager

/-! ## Tasks -/

def MainTask.Named : MainTask → Prop
  | .requestQueue clientId _ _ uniqueName => uniqueName = muxUniqueName clientId
  | .requestBus clientId _ uniqueName => uniqueName = muxUniqueName clientId
  | .requestRouting clientId _ uniqueName => uniqueName = muxUniqueName clientId
  | .promoteRouting _ _ newOwner => newOwner.2 = muxUniqueName newOwner.1
  | _ => True

def CleanupPhase.resultsLeft : CleanupPhase → List (String × Option (ClientId × String))
  | .results rest => rest
  | .promoteOwned _ _ rest => rest
  | .releaseBus _ rest => rest
  | _ => []

def CleanupPhase.currentName : CleanupPhase → Option String
  | .promoteOwned _ name _ => some name
  | .releaseBus name _ => some name
  | _ => none

structure Cleanup.Wf (cleanup : Cleanup) : Prop where
  named : ∀ name newOwner, (name, some newOwner) ∈ cleanup.phase.resultsLeft →
    newOwner.2 = muxUniqueName newOwner.1
  nodup : (cleanup.phase.resultsLeft.map Prod.fst).Nodup
  current : ∀ name ∈ cleanup.phase.currentName,
    name ∉ cleanup.phase.resultsLeft.map Prod.fst

theorem Cleanup.Wf.tail {cleanup next : Cleanup} (h : cleanup.Wf) {name : String}
    {newOwner : Option (ClientId × String)} {rest : List (String × Option (ClientId × String))}
    (hleft : cleanup.phase.resultsLeft = (name, newOwner) :: rest)
    (hrest : next.phase.resultsLeft = rest) (hcurrent : next.phase.currentName = some name) :
    next.Wf := by
  have hnodup := h.nodup
  rw [hleft, List.map_cons, List.nodup_cons] at hnodup
  refine ⟨fun m o hm => h.named m o ?_, by rw [hrest]; exact hnodup.2, fun m hm => ?_⟩
  · rw [hleft]
    exact List.mem_cons_of_mem _ (hrest ▸ hm)
  · rw [hcurrent] at hm
    cases hm
    rw [hrest]
    exact hnodup.1

theorem Cleanup.Wf.settled {cleanup : Cleanup} (h : cleanup.Wf)
    {rest : List (String × Option (ClientId × String))}
    (hleft : cleanup.phase.resultsLeft = rest) :
    Cleanup.Wf { cleanup with phase := .results rest } where
  named m o hm := h.named m o (by rw [hleft]; exact hm)
  nodup := by rw [← hleft]; exact h.nodup
  current _ hm := by cases hm

namespace NameState

structure Wf (s : NameState) : Prop where
  queue : s.queue.Named
  clients : s.clients.Named
  main : s.main.Named
  cleanups : ∀ c cleanup, s.cleanups.lookup c = some cleanup → cleanup.Wf
  clients_registered : ∀ c, c ∈ s.clients → c ∈ s.registered
  cleanups_registered : ∀ c, c ∈ s.cleanups → c ∈ s.registered
  gone : ∀ c, c ∈ s.cleanups → c ∉ s.clients

theorem wf_initial (routing : RoutingTable) (bus : ContainerBus) : (initial routing bus).Wf where
  queue := ⟨NameQueueManager.new_wellFormed, fun _ _ he => by cases he⟩
  clients _ _ h := by cases h
  main := trivial
  cleanups _ _ h := by cases h
  clients_registered c hc := absurd hc (AList.notMem_empty c)
  cleanups_registered c hc := absurd hc (AList.notMem_empty c)
  gone c hc := absurd hc (AList.notMem_empty c)

theorem mem_of_lookup {s : NameState} {clientId : ClientId} {cleanup : Cleanup}
    (hl : s.cleanups.lookup clientId = some cleanup) : clientId ∈ s.cleanups :=
  AList.lookup_isSome.mp (by rw [hl]; rfl)

theorem Wf.advance {s : NameState} (h : s.Wf) {clientId : ClientId} {cleanup : Cleanup}
    (hl : s.cleanups.lookup clientId = some cleanup) (phase : CleanupPhase)
    (hphase : ({ cleanup with phase := phase } : Cleanup).Wf) :
    (s.advance clientId cleanup phase).Wf where
  queue := h.queue
  clients := h.clients
  main := h.main
  cleanups c other hc := by
    simp only [NameState.advance] at hc
    rw [AList.lookup_insert_if] at hc
    split at hc
    · cases hc
      exact hphase
    · exact h.cleanups c other hc
  clients_registered := h.clients_registered
  cleanups_registered c hc := by
    rcases (AList.mem_insert _).mp hc with heq | hc
    · rw [heq]
      exact h.cleanups_registered clientId (mem_of_lookup hl)
    · exact h.cleanups_registered c hc
  gone c hc := by
    rcases (AList.mem_insert _).mp hc with heq | hc
    · rw [heq]
      exact h.gone clientId (mem_of_lookup hl)
    · exact h.gone c hc

theorem Wf.updateOwned {s : NameState} (h : s.Wf) (clientId : ClientId)
    (f : Finset String → Finset String) :
    Wf { s with clients := s.clients.updateOwned clientId f } :=
  { h with
    clients := h.clients.updateOwned clientId f
    clients_registered := fun c hc =>
      h.clients_registered c ((Clients.mem_updateOwned _ _ _ _).mp hc)
    gone := fun c hc hclient => h.gone c hc ((Clients.mem_updateOwned _ _ _ _).mp hclient) }

theorem Wf.handleReleaseName {s : NameState} (h : s.Wf) (clientId : ClientId) (name : String) :
    (s.handleReleaseName clientId name).Wf := by
  refine { h with queue := h.queue.releaseName name clientId, main := ?_ }
  simp only [NameState.handleReleaseName, MainTask.ofRelease]
  split
  · next newOwner hnew => exact h.queue.releaseName_newOwner hnew
  · split <;> trivial

inductive HandlerStepped (s : NameState) (answered : Bool) : NameState → Prop
  | requestQueue (clientId : ClientId) (name : String) (flags : UInt32) (uniqueName : String)
      (hmain : s.main = .requestQueue clientId name flags uniqueName) :
      HandlerStepped s answered
        { s with
          queue := (s.queue.requestName name clientId uniqueName flags).2
          main :=
            if (s.queue.requestName name clientId uniqueName flags).1.forwardToBus then
              .requestBus clientId name uniqueName
            else .idle }
  | granted (clientId : ClientId) (name uniqueName : String)
      (hmain : s.main = .requestBus clientId name uniqueName) (hanswered : answered = true)
      (hname : isUniqueName name = false) :
      HandlerStepped s answered
        { s with
          bus := (s.bus.requestName name).2
          main := .requestRouting clientId name uniqueName }
  | failed (clientId : ClientId) (name uniqueName : String)
      (hmain : s.main = .requestBus clientId name uniqueName) (hanswered : answered = false) :
      HandlerStepped s answered { s with main := .requestRevert clientId name }
  | requestRouting (clientId : ClientId) (name uniqueName : String)
      (hmain : s.main = .requestRouting clientId name uniqueName) :
      HandlerStepped s answered
        { s with
          routing := s.routing.onContainerNameChange name "" uniqueName
          main := .requestOwned clientId name }
  | requestOwned (clientId : ClientId) (name : String)
      (hmain : s.main = .requestOwned clientId name) :
      HandlerStepped s answered
        { s with clients := s.clients.updateOwned clientId (insert name), main := .idle }
  | requestRevert (clientId : ClientId) (name : String)
      (hmain : s.main = .requestRevert clientId name) :
      HandlerStepped s answered
        { s with queue := (s.queue.releaseName name clientId).2, main := .idle }
  | promoteRouting (clientId : ClientId) (name : String) (newOwner : ClientId × String)
      (hmain : s.main = .promoteRouting clientId name newOwner) :
      HandlerStepped s answered
        { s with
          routing := s.routing.onContainerNameChange name "" newOwner.2
          main := .promoteOwned clientId name newOwner.1 }
  | promoteOwned (clientId : ClientId) (name : String) (newOwnerId : ClientId)
      (hmain : s.main = .promoteOwned clientId name newOwnerId) :
      HandlerStepped s answered
        { s with
          clients := (s.clients.updateOwned clientId (·.erase name)).updateOwned newOwnerId
            (insert name)
          main := .idle }
  | releaseLookup (clientId : ClientId) (name : String)
      (hmain : s.main = .releaseLookup clientId name) :
      HandlerStepped s answered
        { s with
          main := .releaseBus clientId name ((s.clients.lookup clientId).map (·.uniqueName)) }
  | released (clientId : ClientId) (name uniqueName : String)
      (hmain : s.main = .releaseBus clientId name (some uniqueName)) (hanswered : answered = true) :
      HandlerStepped s answered
        { s with
          bus := s.bus.releaseName name
          main := .releaseRouting clientId name uniqueName }
  | releasedGone (clientId : ClientId) (name : String)
      (hmain : s.main = .releaseBus clientId name none) (hanswered : answered = true) :
      HandlerStepped s answered
        { s with bus := s.bus.releaseName name, main := .releaseOwned clientId name }
  | unreleased (clientId : ClientId) (name : String) (uniqueName : Option String)
      (hmain : s.main = .releaseBus clientId name uniqueName) (hanswered : answered = false) :
      HandlerStepped s answered { s with main := .idle }
  | releaseRouting (clientId : ClientId) (name uniqueName : String)
      (hmain : s.main = .releaseRouting clientId name uniqueName) :
      HandlerStepped s answered
        { s with
          routing := s.routing.onContainerNameChange name uniqueName ""
          main := .releaseOwned clientId name }
  | releaseOwned (clientId : ClientId) (name : String)
      (hmain : s.main = .releaseOwned clientId name) :
      HandlerStepped s answered
        { s with clients := s.clients.updateOwned clientId (·.erase name), main := .idle }

/-- Whatever the bus says about a name it grants, the multiplexer owns the name. -/
theorem requestName_code (bus : ContainerBus) (name : String) :
    (bus.requestName name).1 = RequestNameReply.primaryOwner ∨
      (bus.requestName name).1 = RequestNameReply.alreadyOwner := by
  unfold ContainerBus.requestName
  split
  · exact Or.inr rfl
  · exact Or.inl rfl

theorem resume_stepped {s t : NameState} {answered : Bool} (hstep : s.resume answered = some t) :
    s.HandlerStepped answered t := by
  unfold NameState.resume at hstep
  cases hmain : s.main with
  | idle =>
      rw [hmain] at hstep
      cases hstep
  | requestQueue clientId name flags uniqueName =>
      rw [hmain] at hstep
      cases hstep
      exact .requestQueue clientId name flags uniqueName hmain
  | requestBus clientId name uniqueName =>
      rw [hmain] at hstep
      cases answered with
      | false =>
          cases hstep
          exact .failed clientId name uniqueName hmain rfl
      | true =>
          simp only [if_true, if_pos (requestName_code s.bus name)] at hstep
          split at hstep
          · cases hstep
          · next hname =>
              cases hstep
              exact .granted clientId name uniqueName hmain rfl (by simpa using hname)
  | requestRouting clientId name uniqueName =>
      rw [hmain] at hstep
      cases hstep
      exact .requestRouting clientId name uniqueName hmain
  | requestOwned clientId name =>
      rw [hmain] at hstep
      cases hstep
      exact .requestOwned clientId name hmain
  | requestRevert clientId name =>
      rw [hmain] at hstep
      cases hstep
      exact .requestRevert clientId name hmain
  | promoteRouting clientId name newOwner =>
      rw [hmain] at hstep
      cases hstep
      exact .promoteRouting clientId name newOwner hmain
  | promoteOwned clientId name newOwnerId =>
      rw [hmain] at hstep
      cases hstep
      exact .promoteOwned clientId name newOwnerId hmain
  | releaseLookup clientId name =>
      rw [hmain] at hstep
      cases hstep
      exact .releaseLookup clientId name hmain
  | releaseBus clientId name uniqueName =>
      rw [hmain] at hstep
      cases answered with
      | false =>
          cases hstep
          exact .unreleased clientId name uniqueName hmain rfl
      | true =>
          cases hstep
          cases uniqueName with
          | none => exact .releasedGone clientId name hmain rfl
          | some uniqueName => exact .released clientId name uniqueName hmain rfl
  | releaseRouting clientId name uniqueName =>
      rw [hmain] at hstep
      cases hstep
      exact .releaseRouting clientId name uniqueName hmain
  | releaseOwned clientId name =>
      rw [hmain] at hstep
      cases hstep
      exact .releaseOwned clientId name hmain

inductive CleanupStepped (s : NameState) (clientId : ClientId) (cleanup : Cleanup)
    (answered : Bool) : NameState → Prop
  | resultsDone (hphase : cleanup.phase = .results []) :
      CleanupStepped s clientId cleanup answered
        (s.advance clientId cleanup (.ownedNames cleanup.ownedNames))
  | promoted (name : String) (newOwner : ClientId × String)
      (rest : List (String × Option (ClientId × String)))
      (hphase : cleanup.phase = .results ((name, some newOwner) :: rest)) :
      CleanupStepped s clientId cleanup answered
        { s.advance clientId cleanup (.promoteOwned newOwner.1 name rest) with
          routing := s.routing.onContainerNameChange name (muxUniqueName clientId) newOwner.2 }
  | vacated (name : String) (rest : List (String × Option (ClientId × String)))
      (hphase : cleanup.phase = .results ((name, none) :: rest)) :
      CleanupStepped s clientId cleanup answered
        { s.advance clientId cleanup (.releaseBus name rest) with
          routing := s.routing.onContainerNameChange name (muxUniqueName clientId) "" }
  | promoteOwned (newOwnerId : ClientId) (name : String)
      (rest : List (String × Option (ClientId × String)))
      (hphase : cleanup.phase = .promoteOwned newOwnerId name rest) :
      CleanupStepped s clientId cleanup answered
        { s.advance clientId cleanup (.results rest) with
          clients := s.clients.updateOwned newOwnerId (insert name) }
  | releaseBus (name : String) (rest : List (String × Option (ClientId × String)))
      (hphase : cleanup.phase = .releaseBus name rest) :
      CleanupStepped s clientId cleanup answered
        { s.advance clientId cleanup (.results rest) with
          bus := if answered then s.bus.releaseName name else s.bus }
  | finished (hphase : cleanup.phase = .ownedNames []) :
      CleanupStepped s clientId cleanup answered
        { s with cleanups := s.cleanups.erase clientId }
  | nextName (name : String) (rest : List String)
      (hphase : cleanup.phase = .ownedNames (name :: rest)) :
      CleanupStepped s clientId cleanup answered
        (s.advance clientId cleanup
          (if s.queue.nameHasOwner name then .ownedNames rest else .ownedRouting name rest))
  | ownedRouting (name : String) (rest : List String)
      (hphase : cleanup.phase = .ownedRouting name rest) :
      CleanupStepped s clientId cleanup answered
        { s.advance clientId cleanup (.ownedBus name rest) with
          routing := s.routing.onContainerNameChange name (muxUniqueName clientId) "" }
  | ownedBus (name : String) (rest : List String)
      (hphase : cleanup.phase = .ownedBus name rest) :
      CleanupStepped s clientId cleanup answered
        { s.advance clientId cleanup (.ownedNames rest) with
          bus := if answered then s.bus.releaseName name else s.bus }

theorem cleanUp_stepped {s t : NameState} {clientId : ClientId} {cleanup : Cleanup}
    {answered : Bool} (hstep : s.cleanUp clientId cleanup answered = some t) :
    s.CleanupStepped clientId cleanup answered t := by
  unfold NameState.cleanUp at hstep
  split at hstep
  · cases hstep
  · next hphase =>
      cases hstep
      exact .resultsDone hphase
  · next name newOwner rest hphase =>
      cases hstep
      exact .promoted name newOwner rest hphase
  · next name rest hphase =>
      cases hstep
      exact .vacated name rest hphase
  · next newOwnerId name rest hphase =>
      cases hstep
      exact .promoteOwned newOwnerId name rest hphase
  · next name rest hphase =>
      cases hstep
      exact .releaseBus name rest hphase
  · next hphase =>
      cases hstep
      exact .finished hphase
  · next name rest hphase =>
      cases hstep
      exact .nextName name rest hphase
  · next name rest hphase =>
      cases hstep
      exact .ownedRouting name rest hphase
  · next name rest hphase =>
      cases hstep
      exact .ownedBus name rest hphase

theorem Wf.resume {s t : NameState} (h : s.Wf) {answered : Bool}
    (hstep : s.resume answered = some t) : t.Wf := by
  have hnamed := h.main
  cases resume_stepped hstep with
  | requestQueue clientId name flags uniqueName hmain =>
      rw [hmain] at hnamed
      subst hnamed
      refine { h with queue := h.queue.requestName name clientId flags, main := ?_ }
      dsimp only
      split
      · exact rfl
      · trivial
  | granted clientId name uniqueName hmain _ _ =>
      rw [hmain] at hnamed
      exact { h with main := hnamed }
  | failed _ _ _ _ _ => exact { h with main := trivial }
  | requestRouting _ _ _ _ => exact { h with main := trivial }
  | requestOwned _ _ _ => exact { h.updateOwned _ _ with main := trivial }
  | requestRevert clientId name _ =>
      exact { h with queue := h.queue.releaseName name clientId, main := trivial }
  | promoteRouting _ _ _ _ => exact { h with main := trivial }
  | promoteOwned clientId name newOwnerId _ =>
      exact { (h.updateOwned clientId (·.erase name)).updateOwned newOwnerId (insert name) with
        main := trivial }
  | releaseLookup _ _ _ => exact { h with main := trivial }
  | released _ _ _ _ _ => exact { h with main := trivial }
  | releasedGone _ _ _ _ => exact { h with main := trivial }
  | unreleased _ _ _ _ _ => exact { h with main := trivial }
  | releaseRouting _ _ _ _ => exact { h with main := trivial }
  | releaseOwned _ _ _ => exact { h.updateOwned _ _ with main := trivial }

theorem wf_of_resultsLeft_nil {cleanup : Cleanup} (hleft : cleanup.phase.resultsLeft = [])
    (hcurrent : cleanup.phase.currentName = none) : cleanup.Wf where
  named _ _ h := by
    rw [hleft] at h
    cases h
  nodup := by
    rw [hleft]
    exact List.nodup_nil
  current _ h := by
    rw [hcurrent] at h
    cases h

theorem Wf.cleanUp {s t : NameState} (h : s.Wf) {clientId : ClientId} {cleanup : Cleanup}
    (hl : s.cleanups.lookup clientId = some cleanup) {answered : Bool}
    (hstep : s.cleanUp clientId cleanup answered = some t) : t.Wf := by
  have hwf := h.cleanups clientId cleanup hl
  cases cleanUp_stepped hstep with
  | resultsDone _ => exact h.advance hl _ (wf_of_resultsLeft_nil rfl rfl)
  | promoted name newOwner rest hphase =>
      have hleft : cleanup.phase.resultsLeft = (name, some newOwner) :: rest := by rw [hphase]; rfl
      have hnext := h.advance hl (.promoteOwned newOwner.1 name rest) (hwf.tail hleft rfl rfl)
      exact { hnext with }
  | vacated name rest hphase =>
      have hleft : cleanup.phase.resultsLeft = (name, none) :: rest := by rw [hphase]; rfl
      have hnext := h.advance hl (.releaseBus name rest) (hwf.tail hleft rfl rfl)
      exact { hnext with }
  | promoteOwned newOwnerId name rest hphase =>
      have hleft : cleanup.phase.resultsLeft = rest := by rw [hphase]; rfl
      have hnext := h.advance hl (.results rest) (hwf.settled hleft)
      exact hnext.updateOwned newOwnerId (insert name)
  | releaseBus name rest hphase =>
      have hleft : cleanup.phase.resultsLeft = rest := by rw [hphase]; rfl
      have hnext := h.advance hl (.results rest) (hwf.settled hleft)
      exact { hnext with }
  | finished _ =>
      refine { h with
        cleanups := fun c other hc => ?_
        cleanups_registered := fun c hc => h.cleanups_registered c (AList.mem_erase.mp hc).2
        gone := fun c hc => h.gone c (AList.mem_erase.mp hc).2 }
      dsimp only at hc
      rw [AList.lookup_erase_if] at hc
      split at hc
      · cases hc
      · exact h.cleanups c other hc
  | nextName _ _ _ => exact h.advance hl _ (by split <;> exact wf_of_resultsLeft_nil rfl rfl)
  | ownedRouting _ _ _ => exact { h.advance hl _ (wf_of_resultsLeft_nil rfl rfl) with }
  | ownedBus _ _ _ => exact { h.advance hl _ (wf_of_resultsLeft_nil rfl rfl) with }

inductive Stepped (s : NameState) : NameEvent → NameState → Prop
  | connect (clientId : ClientId) (credentials : ClientCredentials)
      (hnew : clientId ∉ s.registered) :
      Stepped s (.connect clientId credentials)
        { s with
          clients := s.clients.insert clientId (.registered clientId credentials)
          registered := insert clientId s.registered }
  | ignored (clientId : ClientId) (name : String) (flags : UInt32) :
      Stepped s (.requestName clientId name flags) s
  | requestName (clientId : ClientId) (name : String) (flags : UInt32) (info : ClientInfo)
      (hidle : s.main = .idle) (hl : s.clients.lookup clientId = some info) :
      Stepped s (.requestName clientId name flags)
        { s with main := .requestQueue clientId name flags info.uniqueName }
  | releaseName (clientId : ClientId) (name : String) (hidle : s.main = .idle) :
      Stepped s (.releaseName clientId name) (s.handleReleaseName clientId name)
  | resume (answered : Bool) (t : NameState) (hstep : s.resume answered = some t) :
      Stepped s (.resume answered) t
  | nameOwnerChanged (name oldOwner newOwner : String) (signals : List (String × String × String))
      (hidle : s.main = .idle) (hsignals : s.bus.signals = (name, oldOwner, newOwner) :: signals) :
      Stepped s .nameOwnerChanged
        { s with
          routing := s.routing.onContainerNameChange name oldOwner newOwner
          bus := { s.bus with signals := signals } }
  | disconnect (clientId : ClientId) (ownedNames : List String) (hclient : clientId ∈ s.clients) :
      Stepped s (.disconnect clientId ownedNames)
        { s with
          clients := s.clients.erase clientId
          cleanups := s.cleanups.insert clientId ⟨ownedNames, .queue⟩ }
  | removeFromQueues (clientId : ClientId) (results : List (String × Option (ClientId × String)))
      (cleanup : Cleanup) (hl : s.cleanups.lookup clientId = some cleanup)
      (hphase : cleanup.phase = .queue)
      (hresults : results.Perm (s.queue.removeClient clientId).1) :
      Stepped s (.removeFromQueues clientId results)
        { s.advance clientId cleanup (.results results) with
          queue := (s.queue.removeClient clientId).2 }
  | cleanUp (clientId : ClientId) (answered : Bool) (cleanup : Cleanup) (t : NameState)
      (hl : s.cleanups.lookup clientId = some cleanup)
      (hstep : s.cleanUp clientId cleanup answered = some t) :
      Stepped s (.cleanUp clientId answered) t

theorem step_stepped {s t : NameState} {e : NameEvent} (hstep : s.step e = some t) :
    s.Stepped e t := by
  cases e with
  | connect clientId credentials =>
      simp only [step] at hstep
      split at hstep
      · cases hstep
      · next hnew =>
          cases hstep
          exact .connect clientId credentials hnew
  | requestName clientId name flags =>
      simp only [step] at hstep
      split at hstep
      · next hmay =>
          cases hstep
          unfold handleRequestName
          cases hl : s.clients.lookup clientId with
          | none => exact .ignored clientId name flags
          | some info => exact .requestName clientId name flags info hmay.1 hl
      · cases hstep
  | releaseName clientId name =>
      simp only [step] at hstep
      split at hstep
      · next hmay =>
          cases hstep
          exact .releaseName clientId name hmay.1
      · cases hstep
  | resume answered => exact .resume answered t hstep
  | nameOwnerChanged =>
      simp only [step] at hstep
      split at hstep
      · next name oldOwner newOwner signals hidle hsignals =>
          cases hstep
          exact .nameOwnerChanged name oldOwner newOwner signals hidle hsignals
      · cases hstep
  | disconnect clientId ownedNames =>
      simp only [step] at hstep
      split at hstep
      · cases hstep
      · next info hl =>
          split at hstep
          · cases hstep
            exact .disconnect clientId ownedNames (AList.lookup_isSome.mp (by rw [hl]; rfl))
          · cases hstep
  | removeFromQueues clientId results =>
      simp only [step] at hstep
      split at hstep
      · cases hstep
      · next cleanup hl =>
          split at hstep
          · next hguard =>
              cases hstep
              exact .removeFromQueues clientId results cleanup hl hguard.1 hguard.2
          · cases hstep
  | cleanUp clientId answered =>
      simp only [step] at hstep
      split at hstep
      · cases hstep
      · next cleanup hl => exact .cleanUp clientId answered cleanup t hl hstep

theorem Wf.connect {s : NameState} (h : s.Wf) {clientId : ClientId}
    (hnew : clientId ∉ s.registered) (credentials : ClientCredentials) :
    Wf { s with
      clients := s.clients.insert clientId (.registered clientId credentials)
      registered := insert clientId s.registered } := by
  refine { h with
    clients := fun c info hc => ?_
    clients_registered := fun c hc => ?_
    cleanups_registered := fun c hc => Finset.mem_insert_of_mem (h.cleanups_registered c hc)
    gone := fun c hc hclient => ?_ }
  · dsimp only at hc
    rw [AList.lookup_insert_if] at hc
    split at hc
    · next heq =>
        cases hc
        rw [heq]
        rfl
    · exact h.clients c info hc
  · rcases (AList.mem_insert _).mp hc with heq | hc
    · rw [heq]
      exact Finset.mem_insert_self _ _
    · exact Finset.mem_insert_of_mem (h.clients_registered c hc)
  · rcases (AList.mem_insert _).mp hclient with heq | hclient
    · rw [heq] at hc
      exact hnew (h.cleanups_registered clientId hc)
    · exact h.gone c hc hclient

theorem Wf.disconnect {s : NameState} (h : s.Wf) {clientId : ClientId}
    (hclient : clientId ∈ s.clients) (ownedNames : List String) :
    Wf { s with
      clients := s.clients.erase clientId
      cleanups := s.cleanups.insert clientId ⟨ownedNames, .queue⟩ } := by
  refine { h with
    clients := fun c info hc => ?_
    cleanups := fun c other hc => ?_
    clients_registered := fun c hc => h.clients_registered c (AList.mem_erase.mp hc).2
    cleanups_registered := fun c hc => ?_
    gone := fun c hc hleft => ?_ }
  · dsimp only at hc
    rw [AList.lookup_erase_if] at hc
    split at hc
    · cases hc
    · exact h.clients c info hc
  · dsimp only at hc
    rw [AList.lookup_insert_if] at hc
    split at hc
    · cases hc
      exact wf_of_resultsLeft_nil rfl rfl
    · exact h.cleanups c other hc
  · rcases (AList.mem_insert _).mp hc with heq | hc
    · rw [heq]
      exact h.clients_registered clientId hclient
    · exact h.cleanups_registered c hc
  · rcases (AList.mem_insert _).mp hc with heq | hc
    · exact (AList.mem_erase.mp hleft).1 heq
    · exact h.gone c hc (AList.mem_erase.mp hleft).2

theorem step_wf {s t : NameState} {e : NameEvent} (h : s.Wf) (hstep : s.step e = some t) :
    t.Wf := by
  cases step_stepped hstep with
  | connect clientId credentials hnew => exact h.connect hnew credentials
  | ignored clientId name flags => exact h
  | requestName clientId name flags info hidle hl =>
      exact { h with main := h.clients clientId info hl }
  | releaseName clientId name hidle => exact h.handleReleaseName clientId name
  | resume answered _ hresume => exact h.resume hresume
  | nameOwnerChanged name oldOwner newOwner signals hidle hsignals => exact { h with }
  | disconnect clientId ownedNames hclient => exact h.disconnect hclient ownedNames
  | removeFromQueues clientId results cleanup hl hphase hresults =>
      have hnext := h.advance hl (.results results) {
        named := fun m o hm => h.queue.removeClient_newOwner (hresults.mem_iff.mp hm)
        nodup := (hresults.map Prod.fst).nodup_iff.mpr
          (s.queue.nodup_removeClient_results clientId)
        current := fun _ hm => by cases hm }
      exact { hnext with queue := h.queue.removeClient clientId }
  | cleanUp clientId answered cleanup _ hl hclean => exact h.cleanUp hl hclean

theorem run_wf {routing : RoutingTable} {bus : ContainerBus} {events : List NameEvent}
    {t : NameState} (hrun : Trace.run step (initial routing bus) events = some t) : t.Wf :=
  Trace.invariant_of_run (fun _ _ _ hs ht => step_wf hs ht) (wf_initial routing bus) hrun

/-! ## What a task leaves alone -/

/-- A handler has nothing to do with the cleanups, and keeps the connected clients. -/
theorem resume_frame {s t : NameState} {answered : Bool} (hstep : s.resume answered = some t) :
    t.cleanups = s.cleanups ∧ t.registered = s.registered ∧
      ∀ c, c ∈ t.clients ↔ c ∈ s.clients := by
  cases resume_stepped hstep with
  | _ => exact ⟨rfl, rfl, fun c => by simp⟩

/-- After its client is out of the queues, a cleanup has nothing to do with the
queues or the handler, and keeps the connected clients. -/
theorem cleanUp_frame {s t : NameState} {clientId : ClientId} {cleanup : Cleanup}
    {answered : Bool} (hstep : s.cleanUp clientId cleanup answered = some t) :
    t.queue = s.queue ∧ t.main = s.main ∧ t.registered = s.registered ∧
      (∀ c, c ∈ t.clients ↔ c ∈ s.clients) ∧ cleanup.phase ≠ .queue := by
  cases cleanUp_stepped hstep with
  | _ =>
      next hphase =>
        exact ⟨rfl, rfl, rfl, fun c => by simp [advance], by rw [hphase]; simp⟩

end NameState

end KapsuleDbusMux
