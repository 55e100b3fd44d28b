import KapsuleDbusMux.Matching.Filters
import KapsuleDbusMux.Matching.Subscriptions

/-! # Filtering by sender, upstream and locally

A rule of a client is evaluated twice: by the upstream bus, which knows who owns which
name, and again by the multiplexer, which has only the sender in the header. Signals
carry the unique name of their sender, so the two disagree on filters that give a
well-known name.
-/

namespace KapsuleDbusMux

/-- The upstream bus selects a signal from `u` for a filter on `w`: by its unique name, or
by a well-known name that it owns. -/
def SelectsSender (owner : String → Option String) (w u : String) : Prop :=
  w = u ∨ isUniqueName w = false ∧ owner w = some u

namespace ClientMatchRules

theorem isMatch_of_mem {client : ClientMatchRules} {rule : MatchRule} {msg : Message}
    (hmem : rule ∈ client.rules) (h : rule.isMatch msg = true) : client.isMatch msg = true :=
  List.any_eq_true.mpr ⟨rule, hmem, h⟩

theorem isMatch_singleton {client : ClientMatchRules} {rule : MatchRule}
    (hrules : client.rules = [rule]) (msg : Message) : client.isMatch msg = rule.isMatch msg := by
  rw [isMatch, hrules, List.any_cons, List.any_nil, Bool.or_false]

def holding (rule : MatchRule) : ClientMatchRules := ⟨[rule], List.nodup_singleton _⟩

end ClientMatchRules

/-- Where the other filters accept a signal, its sender decides. -/
theorem isMatch_iff_sender {rule : MatchRule} {msg : Message} {w : String}
    (hw : rule.sender = some w)
    (hothers : ∀ filter, rule.Has filter → filter ≠ .sender w → filter.accepts msg = true) :
    rule.isMatch msg = true ↔ msg.sender = some w := by
  rw [MatchRule.isMatch_iff]
  constructor
  · intro h
    exact beq_iff_eq.mp (h (.sender w) hw)
  · intro h filter hhas
    by_cases hfilter : filter = .sender w
    · rw [hfilter, Filter.accepts, beq_iff_eq]
      exact h
    · exact hothers filter hhas hfilter

/-- The local filter accepts what the bus selects by sender, and nothing else, exactly
when the filter is not for a well-known name that the sender owns. -/
theorem local_filter_agrees_iff (owner : String → Option String) {rule : MatchRule}
    {msg : Message} {w u : String} (hw : rule.sender = some w) (_hsignal : msg.isSignal = true)
    (hu : msg.sender = some u) (hunique : isUniqueName u = true)
    (hothers : ∀ filter, rule.Has filter → filter ≠ .sender w → filter.accepts msg = true) :
    ((∀ client : ClientMatchRules, rule ∈ client.rules → SelectsSender owner w u →
          client.isMatch msg = true) ∧
        ∀ client : ClientMatchRules, client.rules = [rule] → ¬ SelectsSender owner w u →
          client.isMatch msg = false) ↔
      ¬(isUniqueName w = false ∧ owner w = some u) := by
  have hmatch : rule.isMatch msg = true ↔ w = u := by
    rw [isMatch_iff_sender hw hothers, hu, Option.some.injEq, eq_comm]
  constructor
  · rintro ⟨haccepts, _⟩ howned
    have hlocal := haccepts (.holding rule) List.mem_cons_self (Or.inr howned)
    rw [ClientMatchRules.isMatch_singleton rfl, hmatch] at hlocal
    rw [hlocal, hunique] at howned
    cases howned.1
  · intro hnot
    have hselects : SelectsSender owner w u ↔ w = u := or_iff_left hnot
    rw [hselects]
    refine ⟨fun client hmem heq => ?_, fun client hrules hne => ?_⟩
    · exact ClientMatchRules.isMatch_of_mem hmem (hmatch.mpr heq)
    · rw [ClientMatchRules.isMatch_singleton hrules, ← Bool.not_eq_true, hmatch]
      exact hne

def rulesForSender (w : String) : MatchRule :=
  { ruleString := "sender='" ++ w ++ "'", sender := some w }

theorem others_rulesForSender (w : String) (msg : Message) :
    ∀ filter, (rulesForSender w).Has filter → filter ≠ .sender w → filter.accepts msg = true := by
  intro filter hhas hne
  cases filter with
  | sender v => exact absurd (congrArg Filter.sender (Option.some.inj hhas.symm)) hne
  | _ => cases hhas

def signalOfSeven : Message where
  msgType := .signal
  serial := 4
  replySerial := none
  path := some "/org/example"
  interface := some "org.example"
  member := some "Foo"
  destination := none
  sender := some ":1.7"
  body := ⟨[], false⟩
  fds := []

def barOwner (name : String) : Option String :=
  if name = "com.example.bar" then some ":1.7" else none

theorem local_filter_agrees_unique :
    (ClientMatchRules.holding (rulesForSender ":1.7")).isMatch signalOfSeven = true :=
  ((local_filter_agrees_iff barOwner (rfl : (rulesForSender ":1.7").sender = some ":1.7")
    (rfl : signalOfSeven.isSignal = true) rfl (by decide)
    (others_rulesForSender ":1.7" _)).mpr (by decide)).1 _ List.mem_cons_self (Or.inl rfl)

/-- The bus selects the signal by the name its sender owns, and the multiplexer drops it. -/
theorem well_known_sender_filtered_away :
    ¬ ∀ (owner : String → Option String) (rule : MatchRule) (msg : Message) (w u : String),
        rule.sender = some w → msg.isSignal = true → msg.sender = some u →
        isUniqueName u = true →
        (∀ filter, rule.Has filter → filter ≠ .sender w → filter.accepts msg = true) →
        (∀ client : ClientMatchRules, rule ∈ client.rules → SelectsSender owner w u →
            client.isMatch msg = true) ∧
          ∀ client : ClientMatchRules, client.rules = [rule] → ¬ SelectsSender owner w u →
            client.isMatch msg = false := by
  intro h
  have hbar := (h barOwner (rulesForSender "com.example.bar") signalOfSeven "com.example.bar"
    ":1.7" rfl rfl rfl (by decide) (others_rulesForSender _ _)).1
    (.holding (rulesForSender "com.example.bar")) List.mem_cons_self
    (Or.inr ⟨by decide, by decide⟩)
  exact absurd hbar (by decide)

end KapsuleDbusMux
