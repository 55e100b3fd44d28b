import KapsuleDbusMux.Library.Trace
import KapsuleDbusMux.Multiplexer.ClientInfo

/-! # Match rules and their reference counts, together

The `AddMatch` and `RemoveMatch` handlers and the part of a disconnect cleanup
that gives the rules of the client back. Each updates the client map in one
critical section and the reference counts in another one, and a cleanup runs in
a task of its own, so the halves interleave.

Every reference that is counted, or about to be, is balanced against a rule some
client holds or whose reference is about to be dropped. No step makes up for a
surplus, so the counts agree with the clients exactly when no step ever causes one.
-/

namespace KapsuleDbusMux

namespace MatchAccounting

/-! ## The reference counts and the upstream buses -/

/-- The counts, and the rules whose last call on a bus was `AddMatch` and not `RemoveMatch`.
The handlers ignore the answers, so these are the rules on the bus as long as it accepts
both calls. -/
structure References where
  refs : MatchRuleRefCount := .new
  subscribed : Finset (String × String) := ∅

def buses : List String := ["container", "host"]

namespace References

def addOn (references : References) (bus rule : String) : References :=
  let (first, refs) := references.refs.increment bus rule
  ⟨refs, if first then insert (bus, rule) references.subscribed else references.subscribed⟩

def dropOn (references : References) (bus rule : String) : References :=
  let (last, refs) := references.refs.decrement bus rule
  ⟨refs, if last then references.subscribed.erase (bus, rule) else references.subscribed⟩

/-- The second half of `handle_add_match`. -/
def add (references : References) (rule : String) : References :=
  (references.addOn "container" rule).addOn "host" rule

/-- The second half of `handle_remove_match`, and one round of the cleanup. -/
def drop (references : References) (rule : String) : References :=
  (references.dropOn "container" rule).dropOn "host" rule

def Agrees (references : References) : Prop :=
  ∀ bus rule, (bus, rule) ∈ references.subscribed ↔ 0 < references.refs.count bus rule

theorem Agrees.addOn {references : References} (h : references.Agrees) (bus rule : String) :
    (references.addOn bus rule).Agrees := by
  intro bus' rule'
  have hfirst := references.refs.increment_result bus rule
  simp only [References.addOn]
  rw [MatchRuleRefCount.count_increment]
  by_cases hkey : (bus', rule') = (bus, rule)
  · rw [if_pos hkey]
    refine iff_of_true ?_ (Nat.succ_pos _)
    split
    · rw [hkey]
      exact Finset.mem_insert_self _ _
    · next hmore =>
        rw [hkey]
        refine (h bus rule).mpr (Nat.pos_of_ne_zero ?_)
        exact fun hzero => hmore (hfirst.mpr hzero)
  · rw [if_neg hkey, Nat.add_zero, ← h bus' rule']
    split
    · rw [Finset.mem_insert, or_iff_right hkey]
    · exact Iff.rfl

theorem Agrees.dropOn {references : References} (h : references.Agrees) (bus rule : String) :
    (references.dropOn bus rule).Agrees := by
  intro bus' rule'
  have hlast := references.refs.decrement_result bus rule
  simp only [References.dropOn]
  rw [MatchRuleRefCount.count_decrement]
  by_cases hkey : (bus', rule') = (bus, rule)
  · rw [if_pos hkey]
    cases hkey
    split
    · next hl =>
        have hone := hlast.mp hl
        exact iff_of_false (Finset.notMem_erase _ _) (by omega)
    · next hmore =>
        have hnot : references.refs.count bus rule ≠ 1 := fun hone => hmore (hlast.mpr hone)
        rw [h bus rule]
        omega
  · rw [if_neg hkey, Nat.sub_zero, ← h bus' rule']
    split
    · rw [Finset.mem_erase, and_iff_right hkey]
    · exact Iff.rfl

theorem count_add (references : References) {bus : String} (hbus : bus ∈ buses)
    (rule rule' : String) :
    (references.add rule).refs.count bus rule' =
      references.refs.count bus rule' + if rule' = rule then 1 else 0 := by
  simp only [add, addOn, MatchRuleRefCount.count_increment, Prod.mk.injEq]
  simp only [buses, List.mem_cons, List.not_mem_nil, or_false] at hbus
  rcases hbus with hbus | hbus
  · simp [hbus]
  · simp [hbus]

theorem count_drop (references : References) {bus : String} (hbus : bus ∈ buses)
    (rule rule' : String) :
    (references.drop rule).refs.count bus rule' =
      references.refs.count bus rule' - if rule' = rule then 1 else 0 := by
  simp only [drop, dropOn, MatchRuleRefCount.count_decrement, Prod.mk.injEq]
  simp only [buses, List.mem_cons, List.not_mem_nil, or_false] at hbus
  rcases hbus with hbus | hbus
  · simp [hbus]
  · simp [hbus]

theorem Agrees.add {references : References} (h : references.Agrees) (rule : String) :
    (references.add rule).Agrees :=
  (h.addOn "container" rule).addOn "host" rule

theorem Agrees.drop {references : References} (h : references.Agrees) (rule : String) :
    (references.drop rule).Agrees :=
  (h.dropOn "container" rule).dropOn "host" rule

theorem Agrees.foldl_drop {references : References} (h : references.Agrees)
    (rules : List String) : (rules.foldl References.drop references).Agrees := by
  induction rules generalizing references with
  | nil => exact h
  | cons rule rules ih => exact ih (h.drop rule)

theorem count_foldl_drop (references : References) {bus : String} (hbus : bus ∈ buses)
    {rules : List String} (hnodup : rules.Nodup) (rule : String) :
    (rules.foldl drop references).refs.count bus rule =
      references.refs.count bus rule - if rule ∈ rules then 1 else 0 := by
  induction rules generalizing references with
  | nil => simp
  | cons first rules ih =>
      rw [List.nodup_cons] at hnodup
      rw [List.foldl_cons, ih _ hnodup.2, count_drop _ hbus]
      by_cases hfirst : rule = first
      · subst hfirst
        simp [hnodup.1]
      · simp [hfirst]

end References

/-! ## The system -/

/-- Where the main loop is: between two messages, or between the two critical
sections of a handler. -/
inductive Handler where
  | idle
  | addReference (rule : String)
  | dropReference (rule : String)
  deriving DecidableEq, Repr

/-- `cleanups` has the rules a cleanup has collected and not given back yet. -/
structure State where
  clients : Clients := ∅
  references : References := {}
  handler : Handler := .idle
  cleanups : AssocMap ClientId (List String) := ∅
  registered : Finset ClientId := ∅

inductive Event where
  | connect (clientId : ClientId) (credentials : ClientCredentials)
  | addMatch (clientId : ClientId) (ruleString : String)
  | removeMatch (clientId : ClientId) (ruleString : String)
  | updateReferences
  | disconnect (clientId : ClientId)
  | releaseRules (clientId : ClientId)
  deriving DecidableEq, Repr

/-- A request may be handled long after it was sent, also when its client is gone:
it then waited in `client_msg_rx`. -/
def State.mayHandle (s : State) (clientId : ClientId) : Prop :=
  s.handler = .idle ∧ clientId ∈ s.registered

instance (s : State) (clientId : ClientId) : Decidable (s.mayHandle clientId) :=
  inferInstanceAs (Decidable (_ ∧ _))

def handleAddMatch (s : State) (clientId : ClientId) (ruleString : String) : State :=
  match MatchRule.parse ruleString with
  | .error _ => s
  | .ok rule =>
      { s with
        clients := s.clients.modify clientId (fun info =>
          { info with matchRules := info.matchRules.add rule })
        handler := .addReference ruleString }

def handleRemoveMatch (s : State) (clientId : ClientId) (ruleString : String) : State :=
  match s.clients.lookup clientId with
  | none => s
  | some info =>
      let (removed, rules) := info.matchRules.remove ruleString
      { s with
        clients := s.clients.insert clientId { info with matchRules := rules }
        handler := if removed then .dropReference ruleString else .idle }

def step (s : State) : Event → Option State
  | .connect clientId credentials =>
      if clientId ∈ s.registered then none
      else some { s with
        clients := s.clients.insert clientId (.registered clientId credentials)
        registered := insert clientId s.registered }
  | .addMatch clientId ruleString =>
      if s.mayHandle clientId then some (handleAddMatch s clientId ruleString) else none
  | .removeMatch clientId ruleString =>
      if s.mayHandle clientId then some (handleRemoveMatch s clientId ruleString) else none
  | .updateReferences =>
      match s.handler with
      | .idle => none
      | .addReference rule =>
          some { s with references := s.references.add rule, handler := .idle }
      | .dropReference rule =>
          some { s with references := s.references.drop rule, handler := .idle }
  | .disconnect clientId =>
      match s.clients.lookup clientId with
      | none => none
      | some info => some { s with
          clients := s.clients.erase clientId
          cleanups := s.cleanups.insert clientId info.matchRules.ruleStrings }
  | .releaseRules clientId =>
      match s.cleanups.lookup clientId with
      | none => none
      | some rules => some { s with
          references := rules.foldl References.drop s.references
          cleanups := s.cleanups.erase clientId }

def State.quiescent (s : State) : Prop := s.handler = .idle ∧ s.cleanups.entries = []

instance (s : State) : Decidable s.quiescent := inferInstanceAs (Decidable (_ ∧ _))

def State.holders (s : State) (rule : String) : Nat :=
  s.clients.count (fun _ info => info.matchRules.holds rule)

/-! ## What a step can do -/

inductive Stepped (s : State) : Event → State → Prop
  | connect (clientId : ClientId) (credentials : ClientCredentials)
      (hnew : clientId ∉ s.registered) :
      Stepped s (.connect clientId credentials)
        { s with
          clients := s.clients.insert clientId (.registered clientId credentials)
          registered := insert clientId s.registered }
  | addMatch (clientId : ClientId) (ruleString : String) (hidle : s.handler = .idle) :
      Stepped s (.addMatch clientId ruleString) (handleAddMatch s clientId ruleString)
  | removeMatch (clientId : ClientId) (ruleString : String) (hidle : s.handler = .idle) :
      Stepped s (.removeMatch clientId ruleString) (handleRemoveMatch s clientId ruleString)
  | addReference (rule : String) (hhandler : s.handler = .addReference rule) :
      Stepped s .updateReferences
        { s with references := s.references.add rule, handler := .idle }
  | dropReference (rule : String) (hhandler : s.handler = .dropReference rule) :
      Stepped s .updateReferences
        { s with references := s.references.drop rule, handler := .idle }
  | disconnect (clientId : ClientId) (info : ClientInfo)
      (hl : s.clients.lookup clientId = some info) :
      Stepped s (.disconnect clientId)
        { s with
          clients := s.clients.erase clientId
          cleanups := s.cleanups.insert clientId info.matchRules.ruleStrings }
  | releaseRules (clientId : ClientId) (rules : List String)
      (hl : s.cleanups.lookup clientId = some rules) :
      Stepped s (.releaseRules clientId)
        { s with
          references := rules.foldl References.drop s.references
          cleanups := s.cleanups.erase clientId }

theorem step_stepped {s t : State} {e : Event} (hstep : step s e = some t) : Stepped s e t := by
  cases e with
  | connect clientId credentials =>
      simp only [step] at hstep
      split at hstep
      · cases hstep
      · next hnew =>
          cases hstep
          exact .connect clientId credentials hnew
  | addMatch clientId ruleString =>
      simp only [step] at hstep
      split at hstep
      · next hmay =>
          cases hstep
          exact .addMatch clientId ruleString hmay.1
      · cases hstep
  | removeMatch clientId ruleString =>
      simp only [step] at hstep
      split at hstep
      · next hmay =>
          cases hstep
          exact .removeMatch clientId ruleString hmay.1
      · cases hstep
  | updateReferences =>
      simp only [step] at hstep
      split at hstep
      · cases hstep
      · next rule hhandler =>
          cases hstep
          exact .addReference rule hhandler
      · next rule hhandler =>
          cases hstep
          exact .dropReference rule hhandler
  | disconnect clientId =>
      simp only [step] at hstep
      split at hstep
      · cases hstep
      · next info hl =>
          cases hstep
          exact .disconnect clientId info hl
  | releaseRules clientId =>
      simp only [step] at hstep
      split at hstep
      · cases hstep
      · next rules hl =>
          cases hstep
          exact .releaseRules clientId rules hl

/-! ## The balance -/

/-- References that are counted, or that the handler is about to count. -/
def State.counted (s : State) (bus rule : String) : Nat :=
  s.references.refs.count bus rule + if s.handler = .addReference rule then 1 else 0

/-- Rules that are held, or whose reference is about to be dropped. -/
def State.owed (s : State) (rule : String) : Nat :=
  s.holders rule + (if s.handler = .dropReference rule then 1 else 0) +
    s.cleanups.count (fun _ rules => decide (rule ∈ rules))

def State.lacks (s : State) (clientId : ClientId) (rule : String) : Prop :=
  (s.clients.lookup clientId).any (fun info => !info.matchRules.holds rule) = true

instance (s : State) (clientId : ClientId) (rule : String) : Decidable (s.lacks clientId rule) :=
  inferInstanceAs (Decidable (_ = true))

/-- What a step leaves counted without anybody to drop it. -/
def surplus (s : State) (bus rule : String) : Event → Nat
  | .addMatch clientId ruleString =>
      if (MatchRule.parse ruleString).isOk ∧ rule = ruleString ∧ ¬ s.lacks clientId ruleString
      then 1 else 0
  | .releaseRules clientId =>
      if (s.cleanups.lookup clientId).any (fun rules => decide (rule ∈ rules)) = true ∧
        s.references.refs.count bus rule = 0 then 1 else 0
  | _ => 0

structure State.Wf (s : State) : Prop where
  clients_registered : ∀ c, c ∈ s.clients → c ∈ s.registered
  cleanups_registered : ∀ c, c ∈ s.cleanups → c ∈ s.registered
  gone : ∀ c, c ∈ s.cleanups → c ∉ s.clients
  nodup : ∀ c rules, s.cleanups.lookup c = some rules → rules.Nodup
  agrees : s.references.Agrees
  covered : ∀ bus ∈ buses, ∀ rule, s.owed rule ≤ s.counted bus rule

theorem wf_initial : State.Wf {} where
  clients_registered c hc := absurd hc (AList.notMem_empty c)
  cleanups_registered c hc := absurd hc (AList.notMem_empty c)
  gone c hc := absurd hc (AList.notMem_empty c)
  nodup c rules h := by cases h
  agrees bus rule := iff_of_false (Finset.notMem_empty _) (Nat.lt_irrefl 0)
  covered bus _ rule := Nat.zero_le _

section Balance

variable {s : State} {bus : String} (rule : String)

theorem balance_addMatch (clientId : ClientId) (ruleString : String) (hidle : s.handler = .idle) :
    (handleAddMatch s clientId ruleString).counted bus rule + s.owed rule =
      s.counted bus rule + (handleAddMatch s clientId ruleString).owed rule +
        surplus s bus rule (.addMatch clientId ruleString) := by
  unfold handleAddMatch
  cases hparse : MatchRule.parse ruleString with
  | error e =>
      simp [surplus, hparse, Except.isOk, Except.toBool]
  | ok parsed =>
      have htext := MatchRule.ruleString_of_parse hparse
      have hbefore := AList.count_erase_add
        (fun (_ : ClientId) (info : ClientInfo) => info.matchRules.holds rule) s.clients clientId
      have hafter := AList.count_modify
        (fun (_ : ClientId) (info : ClientInfo) => info.matchRules.holds rule) s.clients clientId
        (fun info => { info with matchRules := info.matchRules.add parsed })
      simp only [State.counted, State.owed, State.holders, surplus, hparse, hidle, State.lacks,
        ClientMatchRules.holds_add, htext, hafter, ← hbefore, Except.isOk, Except.toBool]
      cases hl : s.clients.lookup clientId with
      | none =>
          by_cases hr : rule = ruleString
          · simp [hr]
            omega
          · simp [hr, Ne.symm hr]
      | some info =>
          by_cases hr : rule = ruleString
          · cases hheld : info.matchRules.holds ruleString with
            | true => simp [hr, hheld]; omega
            | false => simp [hr, hheld]; omega
          · simp [hr, Ne.symm hr]

theorem balance_removeMatch (clientId : ClientId) (ruleString : String)
    (hidle : s.handler = .idle) :
    (handleRemoveMatch s clientId ruleString).counted bus rule + s.owed rule =
      s.counted bus rule + (handleRemoveMatch s clientId ruleString).owed rule := by
  unfold handleRemoveMatch
  cases hl : s.clients.lookup clientId with
  | none => rfl
  | some info =>
      have hbefore := AList.count_erase_add
        (fun (_ : ClientId) (info : ClientInfo) => info.matchRules.holds rule) s.clients clientId
      have hafter := AList.count_insert
        (fun (_ : ClientId) (info : ClientInfo) => info.matchRules.holds rule) s.clients clientId
        { info with matchRules := (info.matchRules.remove ruleString).2 }
      rw [hl] at hbefore
      simp only [State.counted, State.owed, State.holders, hidle,
        ClientMatchRules.holds_remove, ClientMatchRules.remove_result, hafter, ← hbefore]
      cases hheld : info.matchRules.holds ruleString with
      | true =>
          by_cases hr : rule = ruleString
          · simp [hr, hheld]
          · simp [hr, Ne.symm hr]
      | false =>
          by_cases hr : rule = ruleString
          · simp [hr, hheld]
          · simp [hr]

theorem owed_connect (h : s.Wf) {clientId : ClientId} (hnew : clientId ∉ s.registered)
    (credentials : ClientCredentials) :
    State.owed { s with
        clients := s.clients.insert clientId (.registered clientId credentials)
        registered := insert clientId s.registered } rule = s.owed rule := by
  have hfresh : clientId ∉ s.clients := fun hc => hnew (h.clients_registered clientId hc)
  simp [State.owed, State.holders, AList.count_insert, AList.count_erase_of_notMem _ _ hfresh,
    ClientInfo.registered]

theorem balance_addReference (hbus : bus ∈ buses) {added : String}
    (hhandler : s.handler = .addReference added) :
    State.counted { s with references := s.references.add added, handler := .idle } bus rule +
        s.owed rule =
      s.counted bus rule +
        State.owed { s with references := s.references.add added, handler := .idle } rule := by
  simp only [State.counted, State.owed, State.holders, hhandler, References.count_add _ hbus,
    Handler.addReference.injEq, eq_comm (a := rule)]
  simp

theorem balance_dropReference (h : s.Wf) (hbus : bus ∈ buses) {dropped : String}
    (hhandler : s.handler = .dropReference dropped) :
    State.counted { s with references := s.references.drop dropped, handler := .idle } bus rule +
        s.owed rule =
      s.counted bus rule +
        State.owed { s with references := s.references.drop dropped, handler := .idle } rule := by
  -- the reference is there to be dropped
  have hcovered := h.covered bus hbus rule
  simp only [State.counted, State.owed, State.holders, hhandler, References.count_drop _ hbus,
    Handler.dropReference.injEq] at hcovered ⊢
  by_cases hr : rule = dropped
  · simp [hr] at hcovered ⊢
    omega
  · simp [hr, Ne.symm hr]

theorem owed_disconnect (h : s.Wf) {clientId : ClientId} {info : ClientInfo}
    (hl : s.clients.lookup clientId = some info) :
    State.owed { s with
        clients := s.clients.erase clientId
        cleanups := s.cleanups.insert clientId info.matchRules.ruleStrings } rule =
      s.owed rule := by
  have hmem : clientId ∈ s.clients := AList.lookup_isSome.mp (by rw [hl]; rfl)
  have hout : clientId ∉ s.cleanups := fun hc => h.gone clientId hc hmem
  have hclients := AList.count_erase_add
    (fun (_ : ClientId) (info : ClientInfo) => info.matchRules.holds rule) s.clients clientId
  rw [hl, Option.any_some] at hclients
  simp only [State.owed, State.holders, AList.count_insert, AList.count_erase_of_notMem _ _ hout,
    ClientMatchRules.mem_ruleStrings, ← hclients, decide_eq_true_eq]
  omega

theorem balance_releaseRules (h : s.Wf) (hbus : bus ∈ buses) {clientId : ClientId}
    {rules : List String} (hl : s.cleanups.lookup clientId = some rules) :
    State.counted { s with
        references := rules.foldl References.drop s.references
        cleanups := s.cleanups.erase clientId } bus rule + s.owed rule =
      s.counted bus rule +
        State.owed { s with
          references := rules.foldl References.drop s.references
          cleanups := s.cleanups.erase clientId } rule +
        surplus s bus rule (.releaseRules clientId) := by
  have hcleanups := AList.count_erase_add
    (fun (_ : ClientId) (rules : List String) => decide (rule ∈ rules)) s.cleanups clientId
  rw [hl, Option.any_some] at hcleanups
  simp only [State.counted, State.owed, State.holders, surplus, hl,
    References.count_foldl_drop _ hbus (h.nodup clientId rules hl), Option.any_some,
    decide_eq_true_eq] at hcleanups ⊢
  by_cases hmem : rule ∈ rules
  · simp only [hmem, if_true, true_and] at hcleanups ⊢
    by_cases hzero : s.references.refs.count bus rule = 0
    · rw [if_pos hzero]
      omega
    · rw [if_neg hzero]
      omega
  · simp only [hmem, if_false, false_and] at hcleanups ⊢
    omega

end Balance

/-- Every step keeps the balance but for its surplus. -/
theorem step_balance {s t : State} {e : Event} (h : s.Wf) (hstep : step s e = some t)
    {bus : String} (hbus : bus ∈ buses) (rule : String) :
    t.counted bus rule + s.owed rule =
      s.counted bus rule + t.owed rule + surplus s bus rule e := by
  cases step_stepped hstep with
  | connect clientId credentials hnew =>
      rw [owed_connect rule h hnew]
      rfl
  | addMatch clientId ruleString hidle => exact balance_addMatch rule clientId ruleString hidle
  | removeMatch clientId ruleString hidle =>
      exact balance_removeMatch rule clientId ruleString hidle
  | addReference added hhandler => exact balance_addReference rule hbus hhandler
  | dropReference dropped hhandler => exact balance_dropReference rule h hbus hhandler
  | disconnect clientId info hl =>
      rw [owed_disconnect rule h hl]
      rfl
  | releaseRules clientId rules hl => exact balance_releaseRules rule h hbus hl

/-! ## Runs -/

/-- A step that causes no surplus. An added rule is new to a client that is still
connected, and a cleanup gives back only references that have been counted. -/
def Orderly (s : State) : Event → Prop
  | .addMatch clientId ruleString =>
      (MatchRule.parse ruleString).isOk = true → s.lacks clientId ruleString
  | .releaseRules clientId =>
      ∀ rules, s.cleanups.lookup clientId = some rules →
        ∀ rule ∈ rules, ∀ bus ∈ buses, 0 < s.references.refs.count bus rule
  | _ => True

theorem orderly_iff (s : State) (e : Event) :
    Orderly s e ↔ ∀ bus ∈ buses, ∀ rule, surplus s bus rule e = 0 := by
  have hbus : "host" ∈ buses := by decide
  cases e with
  | addMatch clientId ruleString =>
      simp only [Orderly, surplus, ite_eq_right_iff, Nat.one_ne_zero]
      constructor
      · intro hlacks bus _ rule ⟨hok, _, hnot⟩
        exact hnot (hlacks hok)
      · intro hzero hok
        by_contra hnot
        exact hzero "host" hbus ruleString ⟨hok, rfl, hnot⟩
  | releaseRules clientId =>
      simp only [Orderly, surplus, ite_eq_right_iff, Nat.one_ne_zero]
      cases hl : s.cleanups.lookup clientId with
      | none => simp
      | some rules =>
          simp only [Option.some.injEq, Option.any_some, decide_eq_true_eq]
          constructor
          · intro hpos bus hb rule ⟨hmem, hzero⟩
            have := hpos rules rfl rule hmem bus hb
            omega
          · intro hzero rules' heq rule hmem bus hb
            subst heq
            exact Nat.pos_of_ne_zero (fun hz => hzero bus hb rule ⟨hmem, hz⟩)
  | connect => exact iff_of_true trivial (fun _ _ _ => rfl)
  | removeMatch => exact iff_of_true trivial (fun _ _ _ => rfl)
  | updateReferences => exact iff_of_true trivial (fun _ _ _ => rfl)
  | disconnect => exact iff_of_true trivial (fun _ _ _ => rfl)

/-- Nothing is counted that nobody will drop. -/
def State.Balanced (s : State) : Prop :=
  ∀ bus ∈ buses, ∀ rule, s.counted bus rule = s.owed rule

theorem wf_handleAddMatch {s : State} (h : s.Wf) (clientId : ClientId) (ruleString : String)
    (hcovered : ∀ bus ∈ buses, ∀ rule,
      (handleAddMatch s clientId ruleString).owed rule ≤
        (handleAddMatch s clientId ruleString).counted bus rule) :
    (handleAddMatch s clientId ruleString).Wf := by
  revert hcovered
  unfold handleAddMatch
  cases MatchRule.parse ruleString with
  | error e => exact fun _ => h
  | ok rule =>
      intro hcovered
      exact ⟨fun c hc => h.clients_registered c ((AList.mem_modify _ _ _ _).mp hc),
        h.cleanups_registered,
        fun c hc hclient => h.gone c hc ((AList.mem_modify _ _ _ _).mp hclient),
        h.nodup, h.agrees, hcovered⟩

theorem wf_handleRemoveMatch {s : State} (h : s.Wf) (clientId : ClientId) (ruleString : String)
    (hcovered : ∀ bus ∈ buses, ∀ rule,
      (handleRemoveMatch s clientId ruleString).owed rule ≤
        (handleRemoveMatch s clientId ruleString).counted bus rule) :
    (handleRemoveMatch s clientId ruleString).Wf := by
  revert hcovered
  unfold handleRemoveMatch
  cases hl : s.clients.lookup clientId with
  | none => exact fun _ => h
  | some info =>
      intro hcovered
      have hmem : clientId ∈ s.clients := AList.lookup_isSome.mp (by rw [hl]; rfl)
      refine ⟨fun c hc => ?_, h.cleanups_registered, fun c hc => ?_, h.nodup, h.agrees, hcovered⟩
      · rcases (AList.mem_insert _).mp hc with heq | hc
        · exact heq ▸ h.clients_registered clientId hmem
        · exact h.clients_registered c hc
      · intro hclient
        rcases (AList.mem_insert _).mp hclient with heq | hclient
        · exact h.gone c hc (heq ▸ hmem)
        · exact h.gone c hc hclient

theorem step_wf {s t : State} {e : Event} (h : s.Wf) (hstep : step s e = some t) : t.Wf := by
  have hcovered : ∀ bus ∈ buses, ∀ rule, t.owed rule ≤ t.counted bus rule := by
    intro bus hb rule
    have hbefore := h.covered bus hb rule
    have hbalance := step_balance h hstep hb rule
    omega
  cases step_stepped hstep with
  | connect clientId credentials hnew =>
      refine ⟨fun c hc => ?_, fun c hc => ?_, fun c hc => ?_, h.nodup, h.agrees, hcovered⟩
      · rcases (AList.mem_insert _).mp hc with heq | hc
        · exact heq ▸ Finset.mem_insert_self _ _
        · exact Finset.mem_insert_of_mem (h.clients_registered c hc)
      · exact Finset.mem_insert_of_mem (h.cleanups_registered c hc)
      · intro hclient
        rcases (AList.mem_insert _).mp hclient with heq | hclient
        · exact hnew (heq ▸ h.cleanups_registered c hc)
        · exact h.gone c hc hclient
  | addMatch clientId ruleString _ => exact wf_handleAddMatch h clientId ruleString hcovered
  | removeMatch clientId ruleString _ => exact wf_handleRemoveMatch h clientId ruleString hcovered
  | addReference rule _ => exact { h with agrees := h.agrees.add rule, covered := hcovered }
  | dropReference rule _ => exact { h with agrees := h.agrees.drop rule, covered := hcovered }
  | disconnect clientId info hl =>
      have hmem : clientId ∈ s.clients := AList.lookup_isSome.mp (by rw [hl]; rfl)
      refine ⟨fun c hc => h.clients_registered c (AList.mem_erase.mp hc).2,
        fun c hc => ?_, fun c hc hclient => ?_, fun c rules hl => ?_, h.agrees, hcovered⟩
      · rcases (AList.mem_insert _).mp hc with heq | hc
        · exact heq ▸ h.clients_registered clientId hmem
        · exact h.cleanups_registered c hc
      · rcases (AList.mem_insert _).mp hc with heq | hc
        · exact (AList.mem_erase.mp hclient).1 heq
        · exact h.gone c hc (AList.mem_erase.mp hclient).2
      · dsimp only at hl
        rw [AList.lookup_insert_if] at hl
        split at hl
        · cases hl
          exact info.matchRules.nodup_ruleStrings
        · exact h.nodup c rules hl
  | releaseRules clientId rules _ =>
      refine ⟨h.clients_registered, fun c hc => h.cleanups_registered c (AList.mem_erase.mp hc).2,
        fun c hc => h.gone c (AList.mem_erase.mp hc).2, fun c rules hl => ?_,
        h.agrees.foldl_drop rules, hcovered⟩
      dsimp only at hl
      rw [AList.lookup_erase_if] at hl
      split at hl
      · cases hl
      · exact h.nodup c rules hl

theorem balanced_iff_orderly {events : List Event} {t : State}
    (hrun : Trace.run step {} events = some t) :
    t.Balanced ↔ Trace.Along step Orderly {} events := by
  apply Trace.sound_iff_along (I := State.Wf) (fun s e t hs ht => step_wf hs ht) ?_ ?_ wf_initial
    (fun bus _ rule => rfl) hrun
  · intro s e t hwf hbal hstep
    rw [orderly_iff]
    constructor
    · intro ht bus hb rule
      have h₁ := hbal bus hb rule
      have h₂ := ht bus hb rule
      have h₃ := step_balance hwf hstep hb rule
      omega
    · intro hzero bus hb rule
      have h₁ := hbal bus hb rule
      have h₂ := hzero bus hb rule
      have h₃ := step_balance hwf hstep hb rule
      omega
  · intro s e t hwf hbad hstep ht
    apply hbad
    intro bus hb rule
    have h₁ := hwf.covered bus hb rule
    have h₂ := ht bus hb rule
    have h₃ := step_balance hwf hstep hb rule
    omega

/-- The counts agree with the clients: every rule counts once for each client
that holds it, and is subscribed on both buses exactly while somebody does. -/
def State.CountsHolders (s : State) : Prop :=
  ∀ bus ∈ buses, ∀ rule, s.references.refs.count bus rule = s.holders rule ∧
    ((bus, rule) ∈ s.references.subscribed ↔
      ∃ clientId info, s.clients.lookup clientId = some info ∧ info.matchRules.holds rule = true)

/-- Between handlers and cleanups the counts agree with the clients exactly when
every step so far was orderly. -/
theorem counts_agree_iff_orderly {events : List Event} {t : State}
    (hrun : Trace.run step {} events = some t) (hquiet : t.quiescent) :
    t.CountsHolders ↔ Trace.Along step Orderly {} events := by
  have hwf : t.Wf := Trace.invariant_of_run (fun s e t hs ht => step_wf hs ht) wf_initial hrun
  have hcounted : ∀ bus rule, t.counted bus rule = t.references.refs.count bus rule := by
    intro bus rule
    simp [State.counted, hquiet.1]
  have howed : ∀ rule, t.owed rule = t.holders rule := by
    intro rule
    simp [State.owed, hquiet.1, AList.count, hquiet.2]
  rw [← balanced_iff_orderly hrun]
  constructor
  · intro hagree bus hb rule
    rw [hcounted, howed]
    exact (hagree bus hb rule).1
  · intro hbal bus hb rule
    have hcount : t.references.refs.count bus rule = t.holders rule := by
      rw [← hcounted, ← howed]
      exact hbal bus hb rule
    refine ⟨hcount, ?_⟩
    rw [hwf.agrees bus rule, hcount]
    exact AList.count_pos_iff _ _

/-- Two clients hold a rule and one of them disconnects. -/
def sharedRule : List Event :=
  [.connect 1 ⟨1000, none, 1000⟩, .connect 2 ⟨1000, none, 1000⟩,
    .addMatch 1 "type='signal'", .updateReferences,
    .addMatch 2 "type='signal'", .updateReferences,
    .disconnect 1, .releaseRules 1]

theorem counts_agree_sharedRule :
    ∃ t, Trace.run step {} sharedRule = some t ∧ t.quiescent ∧
      t.references.refs.count "host" "type='signal'" = 1 ∧
      (t.CountsHolders ↔ Trace.Along step Orderly {} sharedRule) := by
  have heval : (Trace.run step {} sharedRule).any (fun t => decide (t.quiescent ∧
      t.references.refs.count "host" "type='signal'" = 1)) = true := by decide
  rcases Trace.exists_of_eval heval with ⟨t, hrun, hquiet, hcount⟩
  exact ⟨t, hrun, hquiet, hcount, counts_agree_iff_orderly hrun hquiet⟩

/-- A client adds the same rule twice and disconnects: the rule is stored once and
counted twice, so one reference is never dropped. -/
theorem repeated_addMatch_leaks_reference :
    ¬ ∀ (events : List Event) (t : State),
      Trace.run step {} events = some t → t.quiescent → t.CountsHolders := by
  intro hclaim
  have heval : (Trace.run step {} [.connect 1 ⟨1000, none, 1000⟩, .addMatch 1 "type='signal'",
      .updateReferences, .addMatch 1 "type='signal'", .updateReferences, .disconnect 1,
      .releaseRules 1]).any (fun t => decide (t.quiescent ∧
        t.references.refs.count "host" "type='signal'" = 1 ∧ t.holders "type='signal'" = 0)) =
      true := by decide
  rcases Trace.exists_of_eval heval with ⟨t, hrun, hquiet, hcounted, hnobody⟩
  have hcount := (hclaim _ t hrun hquiet "host" (by decide) "type='signal'").1
  rw [hcounted, hnobody] at hcount
  cases hcount

end MatchAccounting

end KapsuleDbusMux
