import KapsuleDbusMux.Matching.Filters

/-! # Argument filters and the types of arguments

An argument filter is for strings and object paths. The matcher first turns the arguments
into texts, with an empty text for an argument of any other type, and then compares
texts; from there on an argument of another type looks like an empty string. Only a
filter with an empty value can tell that there is anything at all.
-/

namespace KapsuleDbusMux

/-! ## What a filter asks for -/

/-- The argument is there, it is a string or an object path, and this is its text. -/
def TextAt (args : List Value) (i : Nat) (text : String) : Prop :=
  args[i]? = some (.str text) ∨ args[i]? = some (.objectPath text)

/-- The argument is there, and is neither a string nor an object path. -/
def NoTextAt (args : List Value) (i : Nat) : Prop :=
  (∃ n, args[i]? = some (.uint32 n)) ∨ ∃ signature data, args[i]? = some (.other signature data)

/-- Equal, or one of them ends in a slash and the other begins with it. -/
def PathRelated (text other : String) : Prop :=
  text = other ∨ (other.toList.getLast? = some '/' ∧ other.toList <+: text.toList) ∨
    (text.toList.getLast? = some '/' ∧ text.toList <+: other.toList)

namespace Filter

/-- The filter, if it is one on arguments, is satisfied by an argument of the right
type. -/
def TypedAccepts (args : List Value) : Filter → Prop
  | arg n value => TextAt args n.toNat value
  | argPath n value => ∃ text, TextAt args n.toNat text ∧ PathRelated text value
  | arg0namespace value =>
      ∃ text, TextAt args 0 text ∧ (text = value ∨ (value ++ ".").toList <+: text.toList)
  | _ => True

/-- An argument filter with an empty value, for an argument that has no text. -/
def EmptyOnNoText (args : List Value) : Filter → Prop
  | arg n value => value = "" ∧ NoTextAt args n.toNat
  | argPath n value => value = "" ∧ NoTextAt args n.toNat
  | arg0namespace value => value = "" ∧ NoTextAt args 0
  | _ => False

def isArgument : Filter → Bool
  | arg _ _ => true
  | argPath _ _ => true
  | arg0namespace _ => true
  | _ => false

end Filter

/-! ## What the matcher compares -/

namespace MatchRule

theorem endsWith_slash_iff {text : List Char} :
    Text.endsWith text ['/'] = true ↔ text.getLast? = some '/' := by
  rw [Text.endsWith, List.isPrefixOf_iff_prefix, List.reverse_singleton,
    List.getLast?_eq_head?_reverse]
  cases text.reverse with
  | nil => simp
  | cons c rest => simp [List.cons_prefix_cons, eq_comm]

theorem matchesPathFilter_iff {text value : String} :
    matchesPathFilter text value = true ↔ PathRelated text value := by
  unfold matchesPathFilter PathRelated startsWith
  simp only [Bool.or_eq_true, Bool.and_eq_true, beq_iff_eq, endsWith_slash_iff,
    List.isPrefixOf_iff_prefix, or_assoc]

/-- Of the empty text, only the empty filter is satisfied. -/
theorem pathRelated_empty_iff {value : String} : PathRelated "" value ↔ value = "" := by
  unfold PathRelated
  have hempty : "".toList = [] := rfl
  rw [hempty]
  constructor
  · rintro (h | ⟨hlast, hbegins⟩ | ⟨hlast, _⟩)
    · exact h.symm
    · rw [List.prefix_nil.mp hbegins] at hlast
      cases hlast
    · cases hlast
  · exact fun h => Or.inl h.symm

theorem argText_structure {msg : Message} (hbody : msg.body.isStructure = true) (i : Nat) :
    argText msg i = msg.body.args[i]?.map argString := by
  unfold argText argTexts Body.deserializeStructure
  rw [if_pos hbody]
  exact List.getElem?_map

theorem argText_eq_some_iff {msg : Message} (hbody : msg.body.isStructure = true) {i : Nat}
    {text : String} :
    argText msg i = some text ↔
      TextAt msg.body.args i text ∨ text = "" ∧ NoTextAt msg.body.args i := by
  rw [argText_structure hbody]
  unfold TextAt NoTextAt
  cases msg.body.args[i]? with
  | none => simp
  | some value =>
      cases value with
      | str s => simp [argString]
      | objectPath p => simp [argString]
      | uint32 n => simp [argString, eq_comm]
      | other signature data => simp [argString, eq_comm]

/-- A property of the text that only the empty filter has for the placeholder. -/
theorem argText_any_iff {msg : Message} (hbody : msg.body.isStructure = true) {i : Nat}
    {value : String} {p : String → Bool} {P : String → Prop} (hp : ∀ text, p text = true ↔ P text)
    (hempty : P "" ↔ value = "") :
    (argText msg i).any p = true ↔
      (∃ text, TextAt msg.body.args i text ∧ P text) ∨
        value = "" ∧ NoTextAt msg.body.args i := by
  rw [Option.any_eq_true]
  simp only [argText_eq_some_iff hbody, hp]
  constructor
  · rintro ⟨text, htext | ⟨rfl, hno⟩, hP⟩
    · exact Or.inl ⟨text, htext, hP⟩
    · exact Or.inr ⟨hempty.mp hP, hno⟩
  · rintro (⟨text, htext, hP⟩ | ⟨hvalue, hno⟩)
    · exact ⟨text, Or.inl htext, hP⟩
    · exact ⟨"", Or.inr ⟨rfl, hno⟩, hempty.mpr hvalue⟩

/-- A filter on arguments accepts what it should, and the placeholder when it is
empty. -/
theorem accepts_argument_iff {msg : Message} (hbody : msg.body.isStructure = true)
    {filter : Filter} (harg : filter.isArgument = true) :
    filter.accepts msg = true ↔
      filter.TypedAccepts msg.body.args ∨ filter.EmptyOnNoText msg.body.args := by
  cases filter with
  | arg n value =>
      rw [Filter.accepts, beq_iff_eq]
      exact argText_eq_some_iff hbody
  | argPath n value =>
      exact argText_any_iff hbody (fun _ => matchesPathFilter_iff) pathRelated_empty_iff
  | arg0namespace value =>
      refine argText_any_iff hbody (fun text => ?_) ?_
      · rw [Bool.or_eq_true, beq_iff_eq, startsWith, List.isPrefixOf_iff_prefix]
      · have hdot : ¬(value ++ ".").toList <+: "".toList := by
          intro h
          have hnil := List.prefix_nil.mp h
          rw [String.toList_append] at hnil
          exact absurd (List.append_eq_nil_iff.mp hnil).2 (by decide)
        rw [or_iff_left hdot, eq_comm]
  | _ => cases harg

theorem argsMatch_iff_arguments {rule : MatchRule} {msg : Message} :
    rule.argsMatch msg = true ↔
      ∀ filter, rule.Has filter → filter.isArgument = true → filter.accepts msg = true := by
  rw [Filter.forall_iff, argsMatch_iff]
  simp [Has, Filter.accepts, Filter.isArgument]

end MatchRule

/-! ## Where the two differ -/

/-- All filters of the rule that are on arguments are satisfied by arguments of the
right type. -/
def MatchRule.TypedArgsMatch (rule : MatchRule) (args : List Value) : Prop :=
  ∀ filter, rule.Has filter → filter.TypedAccepts args

theorem Filter.not_typedAccepts_of_empty {args : List Value} {filter : Filter}
    (h : filter.EmptyOnNoText args) : filter.isArgument = true ∧ ¬ filter.TypedAccepts args := by
  have hdiffer : ∀ {i text}, NoTextAt args i → ¬ TextAt args i text := by
    rintro i text (⟨n, hn⟩ | ⟨signature, data, hother⟩) (htext | htext)
    · rw [hn] at htext
      cases htext
    · rw [hn] at htext
      cases htext
    · rw [hother] at htext
      cases htext
    · rw [hother] at htext
      cases htext
  cases filter with
  | arg n value => exact ⟨rfl, hdiffer h.2⟩
  | argPath n value => exact ⟨rfl, fun ⟨_, htext, _⟩ => hdiffer h.2 htext⟩
  | arg0namespace value => exact ⟨rfl, fun ⟨_, htext, _⟩ => hdiffer h.2 htext⟩
  | _ => cases h

/-- The matcher looks at typed arguments exactly when no filter with an empty value is
for an argument that has no text, or when another filter, which is not like that, is
not satisfied either. -/
theorem argument_filters_typed_iff (rule : MatchRule) {msg : Message}
    (hbody : msg.body.isStructure = true) :
    (rule.argsMatch msg = true ↔ rule.TypedArgsMatch msg.body.args) ↔
      (∀ filter, rule.Has filter → ¬ filter.EmptyOnNoText msg.body.args) ∨
        ∃ filter, rule.Has filter ∧ ¬ filter.TypedAccepts msg.body.args ∧
          ¬ filter.EmptyOnNoText msg.body.args := by
  have hcode : rule.argsMatch msg = true ↔ ∀ filter, rule.Has filter →
      filter.TypedAccepts msg.body.args ∨ filter.EmptyOnNoText msg.body.args := by
    rw [MatchRule.argsMatch_iff_arguments]
    refine forall₂_congr (fun filter _ => ?_)
    cases harg : filter.isArgument with
    | true => exact (imp_iff_right rfl).trans (MatchRule.accepts_argument_iff hbody harg)
    | false =>
        refine iff_of_true nofun (Or.inl ?_)
        cases filter <;> first | exact trivial | cases harg
  rw [hcode]
  constructor
  · intro hagree
    by_cases hempty : ∃ filter, rule.Has filter ∧ filter.EmptyOnNoText msg.body.args
    · obtain ⟨filter, hhas, hfilter⟩ := hempty
      -- the typed reading fails at this filter, so the code must fail somewhere as well
      have hfails : ¬ rule.TypedArgsMatch msg.body.args :=
        fun h => (Filter.not_typedAccepts_of_empty hfilter).2 (h filter hhas)
      refine Or.inr ?_
      by_contra hnone
      refine hfails (hagree.mp (fun other hother => ?_))
      by_contra hor
      rw [not_or] at hor
      exact hnone ⟨other, hother, hor⟩
    · exact Or.inl (fun filter hhas hfilter => hempty ⟨filter, hhas, hfilter⟩)
  · rintro (hnever | ⟨other, hother, hnot, hnotEmpty⟩)
    · exact forall₂_congr (fun filter hhas => or_iff_left (hnever filter hhas))
    · refine iff_of_false (fun h => ?_) (fun h => hnot (h other hother))
      rcases h other hother with h | h
      · exact hnot h
      · exact hnotEmpty h

def signalWith (args : List Value) : Message where
  msgType := .signal
  serial := 3
  replySerial := none
  path := some "/org/example"
  interface := some "org.example"
  member := some "Matches"
  destination := none
  sender := some ":1.7"
  body := ⟨args, true⟩
  fds := []

def ruleForArg0 (value : String) : MatchRule :=
  { ruleString := "arg0='" ++ value ++ "'", args := AList.singleton 0 value }

theorem has_ruleForArg0 {value : String} {filter : Filter} (h : (ruleForArg0 value).Has filter) :
    filter = .arg 0 value := by
  cases filter with
  | arg n v =>
      have hentry := AList.lookup_eq_some_iff.mp h
      cases List.mem_singleton.mp hentry
      rfl
  | argPath n v => exact absurd ((AList.lookup_empty n).symm.trans h) nofun
  | _ => cases h

theorem argument_filters_typed_foo :
    (ruleForArg0 "foo").argsMatch (signalWith [.uint32 7]) = true ↔
      (ruleForArg0 "foo").TypedArgsMatch [.uint32 7] :=
  (argument_filters_typed_iff (ruleForArg0 "foo")
    (rfl : (signalWith [.uint32 7]).body.isStructure = true)).mpr (Or.inl (by
      intro filter hhas hempty
      rw [has_ruleForArg0 hhas] at hempty
      exact absurd hempty.1 (by decide)))

/-- A filter for the empty string is satisfied by a number. -/
theorem empty_filter_matches_number :
    ¬ ∀ (rule : MatchRule) (msg : Message), msg.body.isStructure = true →
        (rule.argsMatch msg = true ↔ rule.TypedArgsMatch msg.body.args) := by
  intro h
  have htyped := (h (ruleForArg0 "") (signalWith [.uint32 7]) rfl).mp (by decide)
  rcases htyped (.arg 0 "") rfl with hstr | hpath
  · cases hstr
  · cases hpath

end KapsuleDbusMux
