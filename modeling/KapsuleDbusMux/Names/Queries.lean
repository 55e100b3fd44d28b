import KapsuleDbusMux.Multiplexer.Driver
import KapsuleDbusMux.Names.ColonNames

/-! # What the driver says about the names of clients

`NameHasOwner` is answered from the routing table and `GetNameOwner` by a bus, and neither
knows the unique names the multiplexer gives to its clients: the table learns names
from the buses, and from requests that the container bus has granted, which it never
does for a name that starts with a colon. So the queries disagree about every
connected client, whatever names it owns.
-/

namespace KapsuleDbusMux

namespace NameState

/-! ## Queries about one client -/

variable (answers : Route → String → Except String (Option String)) (process : Process)
  (infos : List ClientInfo)

/-- All queries about a well-known name lead to the client with this unique name.
`answers` has what the buses answer to `GetNameOwner`, and `infos` the clients. -/
structure NameQueriesAgree (s : NameState) (n uniqueName : String) : Prop where
  hasOwner : Driver.nameHasOwner s.routing n = .ok (.bool true)
  listed : ∃ names, Driver.listNames s.routing = .ok (.nameSet names) ∧ n ∈ names
  owner : Driver.getNameOwner n (answers (Driver.ownerRoute s.routing n) n) =
    .ok (.str uniqueName)
  queued : ∃ rest, Driver.listQueuedOwners s.queue n = .ok (.strs (uniqueName :: rest))
  credentials : Driver.getConnectionCredentials process infos n =
    Driver.getConnectionCredentials process infos uniqueName

structure ClientQueriesAgree (s : NameState) (c : ClientId) (uniqueName : String) : Prop where
  hasOwner : Driver.nameHasOwner s.routing uniqueName = .ok (.bool true)
  owner : Driver.getNameOwner uniqueName
    (answers (Driver.ownerRoute s.routing uniqueName) uniqueName) = .ok (.str uniqueName)
  names : ∀ n, isUniqueName n = false → (s.queue.getPrimaryOwner n).map Prod.fst = some c →
    s.NameQueriesAgree answers process infos n uniqueName

def QueriesAgree (s : NameState) : Prop :=
  ∀ c info, s.clients.lookup c = some info →
    s.ClientQueriesAgree answers process infos c info.uniqueName

end NameState

/-! ## Names that start with a colon -/

namespace NameState

/-- The name is not in the routing table either, and nothing will enter it there. -/
structure Unlisted (n : String) (s : NameState) : Prop extends Unrecorded n s where
  table : n ∉ s.routing.allNames
  owned : n ∉ s.bus.owned
  signals : ∀ signal ∈ s.bus.signals, signal.1 ≠ n

section Unlisted

variable {n : String} {s t : NameState}

theorem unlisted_initial {routing : RoutingTable} (h : n ∉ routing.allNames) (bus : ContainerBus) :
    (initial routing bus).Unlisted n where
  toUnrecorded := unrecorded_initial n routing bus
  table := h
  owned := Finset.notMem_empty n
  signals _ hsignal := nomatch hsignal

theorem notMem_onContainerNameChange {table : RoutingTable} (h : n ∉ table.allNames)
    {name oldOwner newOwner : String} (hname : newOwner ≠ "" → name ≠ n) :
    n ∉ (table.onContainerNameChange name oldOwner newOwner).allNames := by
  unfold RoutingTable.allNames at h ⊢
  rw [Finset.mem_union, not_or] at h ⊢
  rw [RoutingTable.mem_containerNames_onContainerNameChange,
    RoutingTable.onContainerNameChange_hostNames]
  refine ⟨fun hmem => ?_, h.2⟩
  split at hmem
  · next hsame => exact hname hmem hsame.symm
  · exact h.1 hmem

theorem Unlisted.busRequest (h : s.Unlisted n) {name : String} (hname : name ≠ n) :
    n ∉ (s.bus.requestName name).2.owned ∧
      ∀ signal ∈ (s.bus.requestName name).2.signals, signal.1 ≠ n := by
  unfold ContainerBus.requestName
  split
  · exact ⟨h.owned, h.signals⟩
  · refine ⟨?_, fun signal hsignal => ?_⟩
    · simpa [Ne.symm hname] using h.owned
    · rcases List.mem_append.mp hsignal with hold | hnew
      · exact h.signals signal hold
      · rw [List.mem_singleton.mp hnew]
        exact hname

theorem Unlisted.busRelease (h : s.Unlisted n) (name : String) :
    n ∉ (s.bus.releaseName name).owned ∧
      ∀ signal ∈ (s.bus.releaseName name).signals, signal.1 ≠ n := by
  unfold ContainerBus.releaseName
  split
  · next howned =>
      refine ⟨fun hmem => h.owned (Finset.mem_of_mem_erase hmem), fun signal hsignal => ?_⟩
      rcases List.mem_append.mp hsignal with hold | hnew
      · exact h.signals signal hold
      · rw [List.mem_singleton.mp hnew]
        rintro rfl
        exact h.owned howned
  · exact ⟨h.owned, h.signals⟩

theorem Unlisted.resume (hwf : s.Wf) (h : s.Unlisted n) (hcolon : isUniqueName n = true)
    {answered : Bool} (hstep : s.resume answered = some t) : t.Unlisted n := by
  have hnext := h.toUnrecorded.resume hwf hcolon hstep
  have hrecording := h.recording
  have herased : ∀ name oldOwner,
      n ∉ (s.routing.onContainerNameChange name oldOwner "").allNames := fun name oldOwner =>
    notMem_onContainerNameChange h.table (fun hempty => absurd rfl hempty)
  cases resume_stepped hstep with
  | granted clientId name uniqueName hmain _ hgranted =>
      -- the bus does not grant this name
      have hname : name ≠ n := by
        rintro rfl
        rw [hcolon] at hgranted
        cases hgranted
      exact ⟨hnext, h.table, (h.busRequest hname).1, (h.busRequest hname).2⟩
  | requestRouting clientId name uniqueName hmain =>
      rw [hmain] at hrecording
      have hname : name ≠ n := fun hsame => hrecording (congrArg some hsame)
      exact ⟨hnext, notMem_onContainerNameChange h.table (fun _ => hname), h.owned, h.signals⟩
  | promoteRouting clientId name newOwner hmain =>
      rw [hmain] at hrecording
      have hname : name ≠ n := fun hsame => hrecording (congrArg some hsame)
      exact ⟨hnext, notMem_onContainerNameChange h.table (fun _ => hname), h.owned, h.signals⟩
  | released _ name _ _ _ =>
      exact ⟨hnext, h.table, (h.busRelease name).1, (h.busRelease name).2⟩
  | releasedGone _ name _ _ =>
      exact ⟨hnext, h.table, (h.busRelease name).1, (h.busRelease name).2⟩
  | releaseRouting _ name uniqueName _ =>
      exact ⟨hnext, herased name uniqueName, h.owned, h.signals⟩
  | _ => exact ⟨hnext, h.table, h.owned, h.signals⟩

theorem Unlisted.cleanUp (h : s.Unlisted n) {clientId : ClientId} {cleanup : Cleanup}
    (hl : s.cleanups.lookup clientId = some cleanup) {answered : Bool}
    (hstep : s.cleanUp clientId cleanup answered = some t) : t.Unlisted n := by
  have hnext := h.toUnrecorded.cleanUp hl hstep
  have hresults := fun newOwner => h.results clientId cleanup newOwner hl
  have hbus : ∀ name, n ∉ (if answered then s.bus.releaseName name else s.bus).owned ∧
      ∀ signal ∈ (if answered then s.bus.releaseName name else s.bus).signals, signal.1 ≠ n := by
    intro name
    split
    · exact h.busRelease name
    · exact ⟨h.owned, h.signals⟩
  have herased : ∀ name oldOwner,
      n ∉ (s.routing.onContainerNameChange name oldOwner "").allNames := fun name oldOwner =>
    notMem_onContainerNameChange h.table (fun hempty => absurd rfl hempty)
  cases cleanUp_stepped hstep with
  | promoted name newOwner rest hphase =>
      rw [hphase] at hresults
      have hname : name ≠ n := by
        rintro rfl
        exact hresults newOwner List.mem_cons_self
      exact ⟨hnext, notMem_onContainerNameChange h.table (fun _ => hname), h.owned, h.signals⟩
  | vacated name rest _ => exact ⟨hnext, herased name _, h.owned, h.signals⟩
  | ownedRouting name rest _ => exact ⟨hnext, herased name _, h.owned, h.signals⟩
  | releaseBus name rest _ => exact ⟨hnext, h.table, (hbus name).1, (hbus name).2⟩
  | ownedBus name rest _ => exact ⟨hnext, h.table, (hbus name).1, (hbus name).2⟩
  | _ => exact ⟨hnext, h.table, h.owned, h.signals⟩

theorem Unlisted.step (hwf : s.Wf) (h : s.Unlisted n) (hcolon : isUniqueName n = true)
    {e : NameEvent} (hstep : s.step e = some t) : t.Unlisted n := by
  have hnext := h.toUnrecorded.step hwf hcolon hstep
  cases step_stepped hstep with
  | resume answered _ hresume => exact h.resume hwf hcolon hresume
  | cleanUp clientId answered cleanup _ hl hclean => exact h.cleanUp hl hclean
  | nameOwnerChanged name oldOwner newOwner signals hidle hsignals =>
      have hname : name ≠ n := h.signals (name, oldOwner, newOwner) (hsignals ▸ List.mem_cons_self)
      refine ⟨hnext, notMem_onContainerNameChange h.table (fun _ => hname), h.owned,
        fun signal hsignal => ?_⟩
      exact h.signals signal (hsignals ▸ List.mem_cons_of_mem _ hsignal)
  | _ => exact ⟨hnext, h.table, h.owned, h.signals⟩

/-- No unique name comes into the routing table that was not there from the beginning. -/
theorem run_unlisted {routing : RoutingTable} {bus : ContainerBus} {events : List NameEvent}
    (hrun : Trace.run NameState.step (initial routing bus) events = some t)
    (hcolon : isUniqueName n = true) (hnew : n ∉ routing.allNames) : n ∉ t.routing.allNames := by
  have hinv : t.Wf ∧ t.Unlisted n :=
    Trace.invariant_of_run (I := fun s => s.Wf ∧ s.Unlisted n)
      (fun s e t hs ht => ⟨step_wf hs.1 ht, hs.2.step hs.1 hcolon ht⟩)
      ⟨wf_initial routing bus, unlisted_initial hnew bus⟩ hrun
  exact hinv.2.table

end Unlisted

/-! ## The queries disagree -/

/-- In every state of every run: the queries agree about all connected clients exactly when
there are none. -/
theorem queries_agree_iff {routing : RoutingTable} {bus : ContainerBus} {events : List NameEvent}
    {t : NameState} (hmux : ∀ c, muxUniqueName c ∉ routing.allNames)
    (hrun : Trace.run step (initial routing bus) events = some t)
    (answers : Route → String → Except String (Option String)) (process : Process)
    (infos : List ClientInfo) :
    t.QueriesAgree answers process infos ↔ ∀ c, c ∉ t.clients := by
  constructor
  · intro hagree c hclient
    obtain ⟨info, hl⟩ := Option.isSome_iff_exists.mp (AList.lookup_isSome.mpr hclient)
    have hhas := (hagree c info hl).hasOwner
    rw [(run_wf hrun).clients c info hl] at hhas
    have hlisted : t.routing.nameHasOwner (muxUniqueName c) = true := by
      simpa [Driver.nameHasOwner] using hhas
    have hmem : muxUniqueName c ∈ t.routing.allNames := by
      simpa [RoutingTable.nameHasOwner, RoutingTable.allNames] using hlisted
    exact run_unlisted hrun (isUniqueName_muxUniqueName c) (hmux c) hmem
  · intro hnobody c info hl
    exact absurd (AList.lookup_isSome.mp (by rw [hl]; rfl)) (hnobody c)

/-- Buses that know the names of the multiplexer's connection and no others. -/
def busAnswers (s : NameState) : Route → String → Except String (Option String)
  | .container, n => .ok (if n ∈ s.bus.owned then some s.bus.uniqueName else none)
  | .host, _ => .ok none

def ownsName : List NameEvent :=
  [.connect 1 ⟨1000, none, 1000⟩, .requestName 1 "org.a" 0, .resume true, .resume true,
    .resume true, .resume true, .nameOwnerChanged]

def goesAway : List NameEvent :=
  [.disconnect 1 ["org.a"], .removeFromQueues 1 [("org.a", none)], .cleanUp 1 true,
    .cleanUp 1 true, .cleanUp 1 true, .cleanUp 1 true, .cleanUp 1 true, .cleanUp 1 true,
    .cleanUp 1 true]

def Succeeds : NameEvent → Prop
  | .resume answered => answered = true
  | .cleanUp _ answered => answered = true
  | _ => True

instance : DecidablePred Succeeds
  | .resume answered => inferInstanceAs (Decidable (answered = true))
  | .cleanUp _ answered => inferInstanceAs (Decidable (answered = true))
  | .connect _ _ => isTrue trivial
  | .requestName _ _ _ => isTrue trivial
  | .releaseName _ _ => isTrue trivial
  | .nameOwnerChanged => isTrue trivial
  | .disconnect _ _ => isTrue trivial
  | .removeFromQueues _ _ => isTrue trivial

/-- The queries agree again when the client has gone. -/
theorem queries_agree_goesAway :
    ∃ t, Trace.run step (initial .new ⟨":1.5", by decide, ∅, []⟩) (ownsName ++ goesAway) = some t ∧
      t.quiescent ∧ t.QueriesAgree t.busAnswers ⟨1000, 42, 1000, none⟩ [] := by
  have heval : (Trace.run step (initial .new ⟨":1.5", by decide, ∅, []⟩)
      (ownsName ++ goesAway)).any
        (fun t => decide (t.quiescent ∧ t.clients.entries = [])) = true := by
    decide
  rcases Trace.exists_of_eval heval with ⟨t, hrun, hquiet, hnobody⟩
  refine ⟨t, hrun, hquiet, ?_⟩
  exact (queries_agree_iff (fun c => Finset.notMem_empty _) hrun t.busAnswers _ []).mpr
    (AList.notMem_of_entries_nil hnobody)

/-- A client that owns a name: `NameHasOwner` denies its unique name, and `GetNameOwner`
answers with the name of the multiplexer's connection. -/
theorem queries_disagree :
    ¬ ∀ (routing : RoutingTable) (bus : ContainerBus) (events : List NameEvent) (t : NameState)
      (process : Process) (infos : List ClientInfo), (∀ c, muxUniqueName c ∉ routing.allNames) →
      (∀ e ∈ events, Succeeds e) → Trace.run step (initial routing bus) events = some t →
      t.quiescent → infos.Perm (t.clients.entries.map Sigma.snd) →
      t.QueriesAgree t.busAnswers process infos := by
  intro hclaim
  have heval : (Trace.run step (initial .new ⟨":1.5", by decide, ∅, []⟩) ownsName).any
      (fun t => decide (t.quiescent ∧
        Driver.nameHasOwner t.routing ":mux.1" = .ok (.bool false) ∧
        Driver.getNameOwner "org.a" (t.busAnswers (Driver.ownerRoute t.routing "org.a") "org.a") =
          .ok (.str ":1.5") ∧
        (t.clients.lookup 1).map ClientInfo.uniqueName = some ":mux.1")) = true := by
    decide
  rcases Trace.exists_of_eval heval with ⟨t, hrun, hquiet, hdenied, _, hname⟩
  have hagree := hclaim .new _ ownsName t ⟨1000, 42, 1000, none⟩ _
    (fun c => Finset.notMem_empty _) (by decide) hrun hquiet (List.Perm.refl _)
  obtain ⟨info, hl, hunique⟩ := Option.map_eq_some_iff.mp hname
  have hhas := (hagree 1 info hl).hasOwner
  rw [hunique, hdenied] at hhas
  exact absurd hhas (by decide)

end NameState

end KapsuleDbusMux
