import KapsuleDbusMux.Matching.ParseOffsets
import Mathlib.Data.List.DropRight

/-! # Which filters of a rule are kept

A rule ought to be a list of items with commas between them. `MatchRule::parse` does not
cut the text at commas: it skips one comma where there is one, and takes everything up to
the next equals sign for the key. Text that belongs nowhere becomes a part of the next
key, which is then unknown and ignored. No filter is lost exactly when every item after
the first one begins with a comma, nothing but white space stands before the last comma
of a key, and what stands behind further commas does not matter.
-/

namespace KapsuleDbusMux

/-! ## What is trimmed -/

namespace Text

theorem exists_trimStart (s : List Char) : ∃ b : Blank, s = b.chars ++ trimStart s := by
  refine ⟨⟨s.takeWhile isWhitespace, fun c hc => ?_⟩, List.takeWhile_append_dropWhile.symm⟩
  exact List.mem_takeWhile_imp hc

theorem exists_trimEnd (s : List Char) : ∃ b : Blank, s = trimEnd s ++ b.chars := by
  obtain ⟨b, hb⟩ := exists_trimStart s.reverse
  refine ⟨⟨b.chars.reverse, fun c hc => b.blank c (List.mem_reverse.mp hc)⟩, ?_⟩
  have hreverse := congrArg List.reverse hb
  rw [List.reverse_reverse, List.reverse_append] at hreverse
  exact hreverse

theorem mem_trim {c : Char} {s : List Char} (hc : isWhitespace c = false) (h : c ∈ s) :
    c ∈ trim s := by
  obtain ⟨b, hb⟩ := exists_trimStart s
  obtain ⟨b', hb'⟩ := exists_trimEnd (trimStart s)
  rw [hb, List.mem_append, or_iff_right (b.notMem hc), hb', List.mem_append,
    or_iff_left (b'.notMem hc)] at h
  exact h

theorem trimStart_append_cons {c : Char} (hc : isWhitespace c = false) (u v : List Char) :
    trimStart (u ++ c :: v) = trimStart u ++ c :: v := by
  induction u with
  | nil => exact trimStart_cons hc v
  | cons a u ih =>
      cases ha : isWhitespace a with
      | false => rw [List.cons_append, trimStart_cons ha, trimStart_cons ha, List.cons_append]
      | true =>
          unfold trimStart at ih ⊢
          rw [List.cons_append, List.dropWhile_cons_of_pos ha, List.dropWhile_cons_of_pos ha, ih]

theorem trim_trimStart (s : List Char) : trim (trimStart s) = trim s := by
  unfold trim trimStart
  rw [List.dropWhile_idempotent]

theorem trim_blank_append (b : Blank) (s : List Char) : trim (b.chars ++ s) = trim s := by
  rw [trim, trimStart_blank_append]
  rfl

end Text

/-! ## Lists of items -/

inductive ListItem where
  | empty (b : Blank)
  | quoted (key : List Char) (hkey : ',' ∉ key ∧ '=' ∉ key) (before : Blank)
      (value : List Char) (hvalue : '\'' ∉ value) (after : Blank)
  | unquoted (key : List Char) (hkey : ',' ∉ key ∧ '=' ∉ key) (value : List Char)
      (hvalue : ',' ∉ value ∧ (Text.trimStart value).head? ≠ some '\'')

namespace ListItem

def text : ListItem → List Char
  | empty b => b.chars
  | quoted key _ before value _ after =>
      key ++ '=' :: (before.chars ++ '\'' :: (value ++ '\'' :: after.chars))
  | unquoted key _ value _ => key ++ '=' :: value

def entry : ListItem → Option (List Char × String)
  | empty _ => none
  | quoted key _ _ value _ _ => some (Text.trim key, String.ofList value)
  | unquoted key _ value _ => some (Text.trim key, String.ofList (Text.trim value))

def listText (items : List ListItem) : List Char := [','].intercalate (items.map text)

def moreText (items : List ListItem) : List Char := items.flatMap (fun item => ',' :: item.text)

theorem moreText_cons (item : ListItem) (items : List ListItem) :
    moreText (item :: items) = ',' :: (item.text ++ moreText items) := rfl

theorem listText_cons (item : ListItem) (items : List ListItem) :
    listText (item :: items) = item.text ++ moreText items := by
  induction items generalizing item with
  | nil => simp [listText, moreText]
  | cons next items ih =>
      have hnext := ih next
      unfold listText at hnext ⊢
      rw [List.map_cons, List.map_cons, List.intercalate_cons_cons, ← List.map_cons, hnext,
        moreText_cons, List.append_assoc]
      rfl

end ListItem

def lastEntry (entries : List (List Char × String)) (key : FilterKey) : Option String :=
  (History.last (fun entry => FilterKey.ofText entry.1 == some key) entries).map Prod.snd

/-- The text is a list of items, and the rule has for each key the value of the last item
with it. -/
def KeepsFilters (s : String) (rule : MatchRule) : Prop :=
  ∃ items, Text.trim s.toList = ListItem.listText items ∧ ∀ key,
    rule.reading key =
      MatchRule.Reading.ofValue (lastEntry (items.filterMap ListItem.entry) key) key

/-! ## Rounds of the loop -/

/-- What one round of the loop takes: whether it begins with a comma, the text up to the
equals sign, and a value. -/
structure Round where
  comma : Bool
  key : List Char
  value : String
  deriving DecidableEq

namespace Round

/-- The part of the key behind its last comma. -/
def lastKey (round : Round) : List Char := round.key.rtakeWhile (· ≠ ',')

def entry (round : Round) : List Char × String := (Text.trim round.lastKey, round.value)

/-- Up to its last comma the key has nothing but white space and commas. -/
def BlankBefore (round : Round) : Prop :=
  ∀ c ∈ round.key.rdropWhile (· ≠ ','), Text.isWhitespace c = true ∨ c = ','

theorem blankBefore_of_notMem {round : Round} (h : ',' ∉ round.key) : round.BlankBefore := by
  have hnil : round.key.rdropWhile (· ≠ ',') = [] :=
    List.rdropWhile_eq_nil_iff.mpr (fun c hc => decide_eq_true (fun heq => h (heq ▸ hc)))
  intro c hc
  rw [hnil] at hc
  cases hc

theorem lastKey_of_notMem {round : Round} (h : ',' ∉ round.key) : round.lastKey = round.key :=
  List.rtakeWhile_eq_self_iff.mpr (fun _ hc => decide_eq_true (fun heq => h (heq ▸ hc)))

end Round

/-- How a text divides into rounds of the loop. -/
inductive Reads : List Char → List Round → Prop where
  | finished {text : List Char} (hskip : MatchRule.skipSeparator text = []) : Reads text []
  | round {text key rest after : List Char} {value : String} {rounds : List Round}
      (hskip : MatchRule.skipSeparator text = key ++ '=' :: rest) (hkey : '=' ∉ key)
      (hvalue : MatchRule.parseValue (Text.trimStart rest) = .ok (value, after))
      (hrest : Reads after rounds) :
      Reads text (⟨(Text.trimStart text).head? == some ',', key, value⟩ :: rounds)

namespace Reads

theorem unique {text : List Char} {rounds rounds' : List Round} (h : Reads text rounds)
    (h' : Reads text rounds') : rounds = rounds' := by
  induction h generalizing rounds' with
  | finished hskip =>
      cases h' with
      | finished _ => rfl
      | round hskip' _ _ _ =>
          rw [hskip] at hskip'
          exact absurd hskip'.symm (by simp)
  | round hskip hkey hvalue _ ih =>
      cases h' with
      | finished hskip' =>
          rw [hskip] at hskip'
          exact absurd hskip' (by simp)
      | @round _ key' rest' _ _ _ hskip' hkey' hvalue' hrest' =>
          have hsplit := Text.splitFirst_append hkey' rest'
          rw [← hskip', hskip, Text.splitFirst_append hkey] at hsplit
          cases hsplit
          rw [hvalue] at hvalue'
          cases hvalue'
          rw [ih hrest']

end Reads

namespace MatchRule

def putRounds (rule : MatchRule) (rounds : List Round) : MatchRule :=
  rounds.foldl (fun rule round => rule.putText (Text.trim round.key) round.value) rule

theorem skipSeparator_of_finished {text : List Char} {result : MatchRule}
    (h : parseRound text result = .finished) : skipSeparator text = [] := by
  unfold parseRound at h
  dsimp only at h
  split at h
  · next hempty => exact List.isEmpty_iff.mp hempty
  · split at h
    · cases h
    · split at h
      · cases h
      · split at h
        · cases h
        · cases h

theorem reads_of_parseItems {fuel : Nat} {text : List Char} {result rule : MatchRule}
    (hfuel : text.length ≤ fuel) (h : parseItems fuel text result = .ok rule) :
    ∃ rounds, Reads text rounds ∧ rule = result.putRounds rounds := by
  induction fuel generalizing text result with
  | zero =>
      cases h
      rw [List.eq_nil_of_length_eq_zero (Nat.le_zero.mp hfuel)]
      exact ⟨[], .finished rfl, rfl⟩
  | succ fuel ih =>
      rw [parseItems_succ] at h
      cases hround : parseRound text result with
      | finished =>
          rw [hround] at h
          cases h
          exact ⟨[], .finished (skipSeparator_of_finished hround), rfl⟩
      | failed e =>
          rw [hround] at h
          cases h
      | next rest result' =>
          rw [hround] at h
          obtain ⟨front, hfront, htext⟩ := shorter_of_parseRound hround
          have hpos := List.length_pos_iff.mpr hfront
          rw [htext, List.length_append] at hfuel
          obtain ⟨key, after, value, hskip, hkey, hvalue, hresult⟩ := parseRound_next hround
          obtain ⟨rounds, hreads, hrule⟩ := ih (by omega) h
          refine ⟨_, .round hskip hkey hvalue hreads, ?_⟩
          rw [hrule, hresult]
          rfl

/-! ## What the rule has after the rounds -/

theorem argIndex_of_comma {num : List Char} (hmem : ',' ∈ num) : argIndex num = none := by
  have hdigits : ∀ {digits : List Char}, ',' ∈ digits →
      (digits.isEmpty || !digits.all (fun c => '0' ≤ c && c ≤ '9')) = true := by
    intro digits h
    rw [Bool.or_eq_true, Bool.not_eq_true', ← Bool.not_eq_true, List.all_eq_true]
    exact Or.inr (fun hall => absurd (hall ',' h) (by decide))
  have hnone : Text.parseU8 num = none := by
    unfold Text.parseU8
    split
    · exact if_pos (hdigits (List.mem_of_ne_of_mem (by decide) hmem))
    · exact if_pos (hdigits hmem)
  rw [argIndex, hnone]
  rfl

theorem ofText_of_comma {key : List Char} (hmem : ',' ∈ key) : FilterKey.ofText key = none := by
  have hne : ∀ {name : List Char}, ',' ∉ name → key ≠ name := fun hname heq => hname (heq ▸ hmem)
  have hkey : RuleKey.ofText key =
      if "arg".toList.isPrefixOf key && Text.endsWith key "path".toList then
        .argPath ((key.drop 3).take (key.length - 7))
      else if "arg".toList.isPrefixOf key then .arg (key.drop 3)
      else .unknown := by
    rw [RuleKey.ofText, if_neg (hne (by decide)), if_neg (hne (by decide)),
      if_neg (hne (by decide)), if_neg (hne (by decide)), if_neg (hne (by decide)),
      if_neg (hne (by decide)), if_neg (hne (by decide)), if_neg (hne (by decide)),
      if_neg (hne (by decide))]
  unfold FilterKey.ofText
  cases hrule : RuleKey.ofText key with
  | argPath num =>
      rw [ofText_argPath hrule, List.mem_append, List.mem_append, or_iff_left (by decide),
        or_iff_right (by decide)] at hmem
      simp only [argIndex_of_comma hmem, Option.map_none]
  | arg num =>
      rw [ofText_arg hrule, List.mem_append, or_iff_right (by decide)] at hmem
      simp only [argIndex_of_comma hmem, Option.map_none]
  | unknown => rfl
  | _ =>
      rw [hkey] at hrule
      split at hrule
      · cases hrule
      · split at hrule
        · cases hrule
        · cases hrule

theorem reading_putText (rule : MatchRule) (text : List Char) (value : String) (key : FilterKey) :
    (rule.putText text value).reading key =
      if FilterKey.ofText text == some key then Reading.ofValue (some value) key
      else rule.reading key := by
  unfold putText
  cases FilterKey.ofText text with
  | none => rfl
  | some put => exact reading_put rule put value key

theorem reading_putRounds (ruleString : String) (rounds : List Round) (key : FilterKey) :
    (putRounds { ruleString := ruleString } rounds).reading key =
      Reading.ofValue (lastEntry ((rounds.filter (fun round => ',' ∉ round.key)).map Round.entry)
        key) key := by
  have hplain : History.last (fun round : Round =>
      FilterKey.ofText (Text.trim round.key) == some key) rounds =
      History.last (fun round : Round => FilterKey.ofText round.entry.1 == some key)
        (rounds.filter (fun round => ',' ∉ round.key)) := by
    rw [← History.last_filter (q := fun round : Round => decide (',' ∉ round.key))]
    · unfold History.last
      congr 1
      refine List.filter_congr (fun round hround => ?_)
      have hcomma := of_decide_eq_true (List.mem_filter.mp hround).2
      rw [Round.entry, Round.lastKey_of_notMem hcomma]
    · intro round hround
      refine decide_eq_true (fun hmem => ?_)
      rw [ofText_of_comma (Text.mem_trim (by decide) hmem)] at hround
      cases hround
  have hentries : lastEntry ((rounds.filter (fun round => ',' ∉ round.key)).map Round.entry) key =
      (History.last (fun round : Round => FilterKey.ofText (Text.trim round.key) == some key)
        rounds).map Round.value := by
    rw [hplain]
    unfold lastEntry History.last
    rw [List.filter_map, List.getLast?_map, Option.map_map]
    rfl
  unfold putRounds
  rw [hentries, History.observe_foldl (fun (rule : MatchRule) (round : Round) =>
    rule.putText (Text.trim round.key) round.value) (fun rule => rule.reading key)
    (fun rule round => reading_putText rule _ round.value key), ofValue_none]
  cases History.last (fun round : Round =>
      FilterKey.ofText (Text.trim round.key) == some key) rounds with
  | none => rfl
  | some round => rfl

end MatchRule

/-! ## From rounds to items -/

section Cut

variable {g last : List Char}

theorem rtakeWhile_cut (hlast : ',' ∉ last) :
    (g ++ ',' :: last).rtakeWhile (· ≠ ',') = last := by
  induction last using List.reverseRecOn with
  | nil => exact List.rtakeWhile_concat_neg _ _ _ (by decide)
  | append_singleton last c ih =>
      rw [List.mem_append, not_or, List.mem_singleton] at hlast
      have htext : g ++ ',' :: (last ++ [c]) = (g ++ ',' :: last) ++ [c] := by simp
      have hc : (fun x => decide (x ≠ ',')) c = true := decide_eq_true (Ne.symm hlast.2)
      rw [htext, List.rtakeWhile_concat_pos _ _ c hc, ih hlast.1]

theorem rdropWhile_cut (hlast : ',' ∉ last) :
    (g ++ ',' :: last).rdropWhile (· ≠ ',') = g ++ [','] := by
  induction last using List.reverseRecOn with
  | nil => exact List.rdropWhile_concat_neg _ _ _ (by decide)
  | append_singleton last c ih =>
      rw [List.mem_append, not_or, List.mem_singleton] at hlast
      have htext : g ++ ',' :: (last ++ [c]) = (g ++ ',' :: last) ++ [c] := by simp
      have hc : (fun x => decide (x ≠ ',')) c = true := decide_eq_true (Ne.symm hlast.2)
      rw [htext, List.rdropWhile_concat_pos _ _ c hc, ih hlast.1]

theorem exists_cut {key : List Char} (hmem : ',' ∈ key) :
    ∃ g last, key = g ++ ',' :: last ∧ ',' ∉ last := by
  obtain ⟨u, v, hkey, hu⟩ := List.eq_append_cons_of_mem (List.mem_reverse.mpr hmem)
  refine ⟨v.reverse, u.reverse, ?_, fun h => hu (List.mem_reverse.mp h)⟩
  have hreverse := congrArg List.reverse hkey
  rw [List.reverse_reverse, List.reverse_append, List.reverse_cons] at hreverse
  rw [hreverse]
  simp

end Cut

namespace ListItem

theorem exists_empty_items {text : List Char}
    (h : ∀ c ∈ text, Text.isWhitespace c = true ∨ c = ',') :
    ∃ first more, text = ListItem.text (.empty first) ++ moreText more ∧
      more.filterMap entry = [] := by
  induction text with
  | nil => exact ⟨⟨[], List.forall_mem_nil _⟩, [], rfl, rfl⟩
  | cons c rest ih =>
      obtain ⟨first, more, htext, hentries⟩ := ih (fun c' hc' => h c' (List.mem_cons_of_mem c hc'))
      rcases h c List.mem_cons_self with hc | rfl
      · refine ⟨⟨c :: first.chars, fun c' hc' => ?_⟩, more, by rw [htext]; rfl, hentries⟩
        rcases List.mem_cons.mp hc' with rfl | hc'
        · exact hc
        · exact first.blank c' hc'
      · refine ⟨⟨[], List.forall_mem_nil _⟩, .empty first :: more, by rw [htext]; rfl, ?_⟩
        rw [List.filterMap_cons]
        exact hentries

theorem moreText_append (items items' : List ListItem) :
    moreText (items ++ items') = moreText items ++ moreText items' :=
  List.flatMap_append

/-- A key without a comma and the value read behind it are an item, if nothing but
white space and further items follow. -/
theorem exists_item {key rest after : List Char} {value : String}
    (hkey : ',' ∉ key ∧ '=' ∉ key)
    (hvalue : MatchRule.parseValue (Text.trimStart rest) = .ok (value, after)) {b : Blank}
    {items : List ListItem} (hafter : after = b.chars ++ moreText items) :
    ∃ item, key ++ '=' :: rest = ListItem.text item ++ moreText items ∧
      item.entry = some (Text.trim key, value) := by
  obtain ⟨before, hbefore⟩ := Text.exists_trimStart rest
  rcases MatchRule.parseValue_cases hvalue with
    ⟨quoted, htext, hquoted, rfl⟩ | ⟨hstart, rfl, hdrop⟩
  · refine ⟨.quoted key hkey before quoted hquoted b, ?_, rfl⟩
    rw [hbefore, htext, hafter]
    simp [ListItem.text]
  · -- the value ends at a comma, so no white space is left over
    have hb : b.chars = [] := by
      cases hchars : b.chars with
      | nil => rfl
      | cons c chars =>
          have hnot := List.head?_dropWhile_not (fun c => decide (c ≠ ',')) (Text.trimStart rest)
          rw [← hdrop, hafter, hchars, List.cons_append, List.head?_cons] at hnot
          have hc := b.blank c (by rw [hchars]; exact List.mem_cons_self)
          rw [not_not.mp (of_decide_eq_false hnot)] at hc
          exact absurd hc (by decide)
    have hrest : rest = before.chars ++ (Text.trimStart rest).takeWhile (· ≠ ',') ++
        moreText items := by
      rw [hb, List.nil_append] at hafter
      rw [List.append_assoc, ← hafter, hdrop, List.takeWhile_append_dropWhile, ← hbefore]
    refine ⟨.unquoted key hkey (before.chars ++ (Text.trimStart rest).takeWhile (· ≠ ','))
      ⟨fun hmem => ?_, ?_⟩, ?_, ?_⟩
    · rcases List.mem_append.mp hmem with hmem | hmem
      · exact before.notMem (by decide) hmem
      · have hne := List.mem_takeWhile_imp hmem
        exact absurd rfl (of_decide_eq_true hne)
    · rw [Text.trimStart_blank_append]
      cases htrim : Text.trimStart rest with
      | nil => simp [Text.trimStart]
      | cons c more =>
          rw [htrim] at hstart
          have hc : Text.isWhitespace c = false := by
            have hnot := List.head?_dropWhile_not Text.isWhitespace rest
            unfold Text.trimStart at htrim
            rw [htrim] at hnot
            exact hnot
          rw [List.takeWhile_cons]
          split
          · rw [Text.trimStart_cons hc]
            exact hstart
          · simp [Text.trimStart]
    · conv_lhs => rw [hrest]
      simp [ListItem.text]
    · rw [entry, Text.trim_blank_append]

/-- A round with nothing but white space before the last comma of its key is an item
with empty items before it. -/
theorem exists_items_of_round {round : Round} (hblank : round.BlankBefore) {rest after : List Char}
    (hkey : '=' ∉ round.key)
    (hvalue : MatchRule.parseValue (Text.trimStart rest) = .ok (round.value, after)) (lead : Blank)
    {b : Blank} {items : List ListItem} (hafter : after = b.chars ++ moreText items) :
    ∃ first more, lead.chars ++ (round.key ++ '=' :: rest) = ListItem.text first ++ moreText more ∧
      (first :: more).filterMap entry = round.entry :: items.filterMap entry := by
  by_cases hcomma : ',' ∈ round.key
  · obtain ⟨g, last, hcut, hlast⟩ := exists_cut hcomma
    have hg : ∀ c ∈ lead.chars ++ g, Text.isWhitespace c = true ∨ c = ',' := by
      intro c hc
      rcases List.mem_append.mp hc with hc | hc
      · exact Or.inl (lead.blank c hc)
      · refine hblank c ?_
        rw [hcut, rdropWhile_cut hlast]
        exact List.mem_append_left _ hc
    obtain ⟨first, more, htext, hentries⟩ := exists_empty_items hg
    have hequals : '=' ∉ last := fun h => hkey (by
      rw [hcut]
      exact List.mem_append_right _ (List.mem_cons_of_mem _ h))
    obtain ⟨item, hitem, hentry⟩ := exists_item ⟨hlast, hequals⟩ hvalue hafter
    refine ⟨.empty first, more ++ item :: items, ?_, ?_⟩
    · rw [moreText_append, moreText_cons, ← List.append_assoc _ (moreText more), ← htext, ← hitem,
        hcut]
      simp
    · have hround : round.entry = (Text.trim last, round.value) := by
        rw [Round.entry, Round.lastKey, hcut, rtakeWhile_cut hlast]
      rw [List.filterMap_cons_none rfl, List.filterMap_append, hentries, List.nil_append,
        List.filterMap_cons_some hentry, hround]
  · have hfree : ',' ∉ lead.chars ++ round.key ∧ '=' ∉ lead.chars ++ round.key := by
      rw [List.mem_append, List.mem_append, not_or, not_or]
      exact ⟨⟨lead.notMem (by decide), hcomma⟩, lead.notMem (by decide), hkey⟩
    obtain ⟨item, hitem, hentry⟩ := exists_item hfree hvalue hafter
    refine ⟨item, items, by rw [← hitem, List.append_assoc], ?_⟩
    rw [List.filterMap_cons_some hentry, Text.trim_blank_append, Round.entry,
      Round.lastKey_of_notMem hcomma]

end ListItem

theorem skipSeparator_cases (text : List Char) :
    ((Text.trimStart text).head? == some ',') = true ∧
        (∃ b b' : Blank, text = b.chars ++ ',' :: (b'.chars ++ MatchRule.skipSeparator text)) ∨
      ((Text.trimStart text).head? == some ',') = false ∧
        ∃ b : Blank, text = b.chars ++ MatchRule.skipSeparator text := by
  obtain ⟨b, hb⟩ := Text.exists_trimStart text
  unfold MatchRule.skipSeparator
  cases htrim : Text.trimStart text with
  | nil => exact Or.inr ⟨rfl, b, by rw [hb, htrim]⟩
  | cons c rest =>
      by_cases hc : c = ','
      · subst hc
        obtain ⟨b', hb'⟩ := Text.exists_trimStart rest
        have htext : text = b.chars ++ ',' :: rest := by rw [← htrim, ← hb]
        exact Or.inl ⟨rfl, b, b', htext.trans (congrArg (fun t => b.chars ++ ',' :: t) hb')⟩
      · refine Or.inr ⟨by simpa using hc, b, ?_⟩
        split
        · next heq => exact absurd (List.cons.inj heq).1 hc
        · rw [← htrim, ← hb]

namespace Reads

open ListItem (moreText listText)

/-- Rounds that all begin with a comma are items after a comma each. -/
theorem exists_more_items {text : List Char} {rounds : List Round} (h : Reads text rounds)
    (hcomma : ∀ round ∈ rounds, round.comma = true)
    (hblank : ∀ round ∈ rounds, round.BlankBefore) :
    ∃ (b : Blank) (items : List ListItem), text = b.chars ++ moreText items ∧
      items.filterMap ListItem.entry = rounds.map Round.entry := by
  induction h with
  | @finished text hskip =>
      rcases skipSeparator_cases text with ⟨_, b, b', htext⟩ | ⟨_, b, htext⟩
      · refine ⟨b, [.empty b'], ?_, rfl⟩
        rw [htext, hskip]
        simp [moreText, ListItem.text]
      · refine ⟨b, [], ?_, rfl⟩
        rw [htext, hskip]
        rfl
  | @round text key rest after value rounds hskip hkey hvalue hrest ih =>
      obtain ⟨b, items, hafter, hentries⟩ := ih
        (fun r hr => hcomma r (List.mem_cons_of_mem _ hr))
        (fun r hr => hblank r (List.mem_cons_of_mem _ hr))
      have hfirst := hcomma _ List.mem_cons_self
      rcases skipSeparator_cases text with ⟨_, lead, lead', htext⟩ | ⟨hno, _⟩
      · obtain ⟨first, more, hitems, hmore⟩ := ListItem.exists_items_of_round
          (hblank _ List.mem_cons_self) hkey hvalue lead' hafter
        refine ⟨lead, first :: more, ?_, ?_⟩
        · rw [htext, hskip, hitems]
          rfl
        · rw [hmore, hentries]
          rfl
      · rw [hno] at hfirst
        cases hfirst

/-- Rounds that begin with a comma, from the second one on, are a list of items. -/
theorem exists_items {text : List Char} {rounds : List Round} (h : Reads text rounds)
    (hcomma : ∀ round ∈ rounds.tail, round.comma = true)
    (hblank : ∀ round ∈ rounds, round.BlankBefore) :
    ∃ items, text = listText items ∧
      items.filterMap ListItem.entry = rounds.map Round.entry := by
  -- a comma in front: then there is an empty item before it
  have hempty : (∀ round ∈ rounds, round.comma = true) → ∃ items, text = listText items ∧
      items.filterMap ListItem.entry = rounds.map Round.entry := by
    intro hall
    obtain ⟨b, items, htext, hentries⟩ := h.exists_more_items hall hblank
    refine ⟨.empty b :: items, ?_, hentries⟩
    rw [ListItem.listText_cons]
    exact htext
  cases h with
  | finished hskip => exact hempty (List.forall_mem_nil _)
  | @round _ key rest after value rounds hskip hkey hvalue hrest =>
      rcases skipSeparator_cases text with ⟨hyes, _⟩ | ⟨_, lead, htext⟩
      · refine hempty (fun r hr => ?_)
        rcases List.mem_cons.mp hr with rfl | hr
        · exact hyes
        · exact hcomma r hr
      · obtain ⟨b, items, hafter, hentries⟩ := hrest.exists_more_items hcomma
          (fun r hr => hblank r (List.mem_cons_of_mem _ hr))
        obtain ⟨first, more, hitems, hmore⟩ := ListItem.exists_items_of_round
          (hblank _ List.mem_cons_self) hkey hvalue lead hafter
        refine ⟨first :: more, ?_, ?_⟩
        · rw [ListItem.listText_cons, ← hitems, ← hskip]
          exact htext
        · rw [hmore, hentries]
          rfl

end Reads

/-! ## From items to rounds -/

namespace ListItem

theorem trimStart_append_moreText (value : List Char) (items : List ListItem) :
    Text.trimStart (value ++ moreText items) = Text.trimStart value ++ moreText items := by
  cases items with
  | nil => simp [moreText]
  | cons item items => exact Text.trimStart_append_cons (by decide) value _

theorem text_of_entry {item : ListItem} {entry : List Char × String}
    (h : item.entry = some entry) :
    ∃ key tail, item.text = key ++ '=' :: tail ∧ ',' ∉ key ∧ '=' ∉ key ∧
      entry.1 = Text.trim key ∧ ∀ items, ∃ b : Blank,
        MatchRule.parseValue (Text.trimStart (tail ++ moreText items)) =
          .ok (entry.2, b.chars ++ moreText items) := by
  cases item with
  | empty b => cases h
  | quoted key hkey before value hvalue after =>
      cases h
      refine ⟨key, _, rfl, hkey.1, hkey.2, rfl, fun items => ⟨after, ?_⟩⟩
      rw [List.append_assoc, Text.trimStart_blank_append, List.cons_append,
        Text.trimStart_cons (by decide), List.append_assoc, List.cons_append]
      simp only [MatchRule.parseValue, Text.splitFirst_append hvalue]
  | unquoted key hkey value hvalue =>
      cases h
      refine ⟨key, value, rfl, hkey.1, hkey.2, rfl, fun items => ⟨⟨[], List.forall_mem_nil _⟩, ?_⟩⟩
      have hplain : ∀ c ∈ Text.trimStart value, decide (c ≠ ',') = true := by
        intro c hc
        refine decide_eq_true (fun heq => hvalue.1 ?_)
        rw [← heq]
        exact (MatchRule.trimStart_suffix value).subset hc
      have hstop : (moreText items).takeWhile (· ≠ ',') = [] ∧
          (moreText items).dropWhile (· ≠ ',') = moreText items := by
        cases items with
        | nil => exact ⟨rfl, rfl⟩
        | cons item items => exact ⟨rfl, rfl⟩
      have hquote : (Text.trimStart value ++ moreText items).head? ≠ some '\'' := by
        cases htrim : Text.trimStart value with
        | nil =>
            cases items with
            | nil => simp [moreText]
            | cons item items => simp [moreText]
        | cons c rest =>
            rw [htrim] at hvalue
            exact hvalue.2
      rw [trimStart_append_moreText, MatchRule.parseValue_of_unquoted hquote,
        List.takeWhile_append_of_pos hplain, List.dropWhile_append_of_pos hplain, hstop.1, hstop.2,
        List.append_nil, Text.trim_trimStart, List.nil_append]

/-- Where there is an equals sign there is an item with a key, and before it nothing but
white space and commas. -/
theorem exists_first_entry {first : ListItem} {more : List ListItem}
    (h : '=' ∈ first.text ++ moreText more) :
    ∃ g item items entry,
      first.text ++ moreText more = g ++ (ListItem.text item ++ moreText items) ∧
      (∀ c ∈ g, Text.isWhitespace c = true ∨ c = ',') ∧ (g = [] ∨ ∃ g', g = g' ++ [',']) ∧
      item.entry = some entry ∧
      (first :: more).filterMap ListItem.entry = entry :: items.filterMap ListItem.entry := by
  have hempty : ∀ b : Blank, '=' ∉ (ListItem.empty b).text := fun b => b.notMem (by decide)
  induction more generalizing first with
  | nil =>
      cases hentry : first.entry with
      | some entry =>
          exact ⟨[], first, [], entry, rfl, List.forall_mem_nil _, Or.inl rfl, hentry,
            List.filterMap_cons_some hentry⟩
      | none =>
          cases first with
          | empty b =>
              rw [moreText, List.flatMap_nil, List.append_nil] at h
              exact absurd h (hempty b)
          | _ => cases hentry
  | cons next more ih =>
      cases hentry : first.entry with
      | some entry =>
          exact ⟨[], first, next :: more, entry, rfl, List.forall_mem_nil _, Or.inl rfl, hentry,
            List.filterMap_cons_some hentry⟩
      | none =>
          cases first with
          | empty b =>
              rw [moreText_cons, List.mem_append, or_iff_right (hempty b), List.mem_cons,
                or_iff_right (by decide)] at h
              obtain ⟨g, item, items, entry, htext, hg, hcut, hitem, hentries⟩ := ih h
              refine ⟨b.chars ++ ',' :: g, item, items, entry, ?_, ?_, Or.inr ?_, hitem, ?_⟩
              · rw [moreText_cons, htext]
                simp [ListItem.text]
              · intro c hc
                rcases List.mem_append.mp hc with hc | hc
                · exact Or.inl (b.blank c hc)
                · rcases List.mem_cons.mp hc with rfl | hc
                  · exact Or.inr rfl
                  · exact hg c hc
              · rcases hcut with rfl | ⟨g', rfl⟩
                · exact ⟨b.chars, rfl⟩
                · exact ⟨b.chars ++ ',' :: g', by simp⟩
              · rw [List.filterMap_cons_none rfl, hentries]
          | _ => cases hentry

theorem filterMap_entry_eq_nil {items : List ListItem} (h : '=' ∉ moreText items) :
    items.filterMap entry = [] := by
  refine List.filterMap_eq_nil_iff.mpr (fun item hitem => ?_)
  cases hentry : item.entry with
  | none => rfl
  | some entry =>
      obtain ⟨key, tail, htext, _⟩ := text_of_entry hentry
      refine absurd (List.mem_flatMap.mpr ⟨item, hitem, ?_⟩) h
      rw [htext]
      simp

/-- A round at the head of a list of items reads the first one with a key. -/
theorem round_of_items {first : ListItem} {more : List ListItem} {key rest after : List Char}
    {value : String} (hskip : Text.trimStart (first.text ++ moreText more) = key ++ '=' :: rest)
    (hkey : '=' ∉ key)
    (hvalue : MatchRule.parseValue (Text.trimStart rest) = .ok (value, after)) (comma : Bool) :
    (Round.mk comma key value).BlankBefore ∧ ∃ (b : Blank) (items : List ListItem),
      after = b.chars ++ moreText items ∧
      (first :: more).filterMap entry =
        (Round.mk comma key value).entry :: items.filterMap entry := by
  have hmem : '=' ∈ first.text ++ moreText more := by
    refine (MatchRule.trimStart_suffix _).subset ?_
    rw [hskip]
    simp
  obtain ⟨g, item, items, entry, htext, hg, hcut, hitem, hentries⟩ := exists_first_entry hmem
  obtain ⟨k, tail, hitemText, hcomma, hequals, hentry, hread⟩ := text_of_entry hitem
  -- the key of the round is all that stands before the first equals sign
  have hfree : '=' ∉ Text.trimStart (g ++ k) := by
    intro h
    rcases List.mem_append.mp ((MatchRule.trimStart_suffix _).subset h) with h | h
    · rcases hg '=' h with h | h
      · exact absurd h (by decide)
      · exact absurd h (by decide)
    · exact hequals h
  have hparts : key = Text.trimStart (g ++ k) ∧ rest = tail ++ moreText items := by
    have hsplit := Text.splitFirst_append hkey rest
    rw [← hskip, htext, hitemText] at hsplit
    have hassoc : g ++ (k ++ '=' :: tail ++ moreText items) =
        (g ++ k) ++ '=' :: (tail ++ moreText items) := by simp
    rw [hassoc, Text.trimStart_append_cons (by decide), Text.splitFirst_append hfree] at hsplit
    cases hsplit
    exact ⟨rfl, rfl⟩
  obtain ⟨rfl, rfl⟩ := hparts
  obtain ⟨b, hparsed⟩ := hread items
  rw [hparsed] at hvalue
  cases hvalue
  rcases hcut with rfl | ⟨g', rfl⟩
  · have hplain : ',' ∉ Text.trimStart k :=
      fun h => hcomma ((MatchRule.trimStart_suffix k).subset h)
    refine ⟨Round.blankBefore_of_notMem hplain, b, items, rfl, ?_⟩
    have hlast : (Round.mk comma (Text.trimStart k) entry.2).lastKey = Text.trimStart k :=
      Round.lastKey_of_notMem hplain
    rw [hentries, Round.entry, List.nil_append, hlast, Text.trim_trimStart, ← hentry]
  · have hkeyText : Text.trimStart (g' ++ [','] ++ k) = Text.trimStart g' ++ ',' :: k := by
      rw [List.append_assoc]
      exact Text.trimStart_append_cons (by decide) g' k
    refine ⟨fun c hc => ?_, b, items, rfl, ?_⟩
    · rw [hkeyText, rdropWhile_cut hcomma] at hc
      rcases List.mem_append.mp hc with hc | hc
      · exact hg c (List.mem_append_left _ ((MatchRule.trimStart_suffix g').subset hc))
      · exact hg c (List.mem_append_right _ hc)
    · rw [hentries, Round.entry, Round.lastKey, hkeyText, rtakeWhile_cut hcomma, ← hentry]

end ListItem

namespace Reads

open ListItem (moreText listText)

/-- Items after a comma each are read by rounds that begin with a comma. -/
theorem of_more_items {text : List Char} {rounds : List Round} (h : Reads text rounds) {b : Blank}
    {items : List ListItem} (htext : text = b.chars ++ moreText items) :
    (∀ round ∈ rounds, round.comma = true) ∧ (∀ round ∈ rounds, round.BlankBefore) ∧
      items.filterMap ListItem.entry = rounds.map Round.entry := by
  induction h generalizing b items with
  | @finished text hskip =>
      refine ⟨List.forall_mem_nil _, List.forall_mem_nil _, ?_⟩
      refine ListItem.filterMap_entry_eq_nil (fun hmem => ?_)
      have hequals : '=' ∈ text := by
        rw [htext]
        exact List.mem_append_right _ hmem
      have hblank : ∀ b : Blank, '=' ∉ b.chars := fun b => b.notMem (by decide)
      rcases skipSeparator_cases text with ⟨_, b₁, b₂, heq⟩ | ⟨_, b₁, heq⟩
      · rw [heq, hskip] at hequals
        simp [hblank] at hequals
      · rw [heq, hskip] at hequals
        simp [hblank] at hequals
  | @round text key rest after value rounds hskip hkey hvalue hrest ih =>
      cases items with
      | nil =>
          have hequals : '=' ∈ MatchRule.skipSeparator text := by
            rw [hskip]
            simp
          have hmem := (MatchRule.skipSeparator_suffix text).subset hequals
          rw [htext, moreText, List.flatMap_nil, List.append_nil] at hmem
          exact absurd hmem (b.notMem (by decide))
      | cons item items =>
          have htrim : Text.trimStart text = ',' :: (item.text ++ moreText items) := by
            rw [htext, Text.trimStart_blank_append]
            exact Text.trimStart_cons (by decide) _
          have hbody : Text.trimStart (item.text ++ moreText items) = key ++ '=' :: rest := by
            rw [← hskip, MatchRule.skipSeparator, htrim]
            rfl
          obtain ⟨hblank, b', items', hafter, hentries⟩ := ListItem.round_of_items hbody hkey hvalue
            ((Text.trimStart text).head? == some ',')
          obtain ⟨hcommas, hblanks, hrounds⟩ := ih hafter
          refine ⟨fun r hr => ?_, fun r hr => ?_, ?_⟩
          · rcases List.mem_cons.mp hr with rfl | hr
            · rw [htrim]
              rfl
            · exact hcommas r hr
          · rcases List.mem_cons.mp hr with rfl | hr
            · exact hblank
            · exact hblanks r hr
          · rw [hentries, hrounds]
            rfl

/-- A list of items is read by rounds that begin with a comma, from the second one on. -/
theorem of_items {text : List Char} {rounds : List Round} (h : Reads text rounds)
    {items : List ListItem} (htext : text = listText items) :
    (∀ round ∈ rounds.tail, round.comma = true) ∧ (∀ round ∈ rounds, round.BlankBefore) ∧
      items.filterMap ListItem.entry = rounds.map Round.entry := by
  -- without a key in front, all of the text is behind the first comma
  have hempty : ∀ (b : Blank) (more : List ListItem), text = b.chars ++ moreText more →
      (∀ round ∈ rounds.tail, round.comma = true) ∧ (∀ round ∈ rounds, round.BlankBefore) ∧
        more.filterMap ListItem.entry = rounds.map Round.entry := by
    intro b more hmore
    obtain ⟨hcommas, hblanks, hentries⟩ := h.of_more_items hmore
    exact ⟨fun r hr => hcommas r (List.mem_of_mem_tail hr), hblanks, hentries⟩
  cases items with
  | nil => exact hempty ⟨[], List.forall_mem_nil _⟩ [] htext
  | cons first more =>
      rw [ListItem.listText_cons] at htext
      cases hentry : first.entry with
      | none =>
          cases first with
          | empty b => exact hempty b more htext
          | _ => cases hentry
      | some entry =>
          obtain ⟨k, tail, hfirst, hcomma, _⟩ := ListItem.text_of_entry hentry
          have htrim : Text.trimStart text =
              Text.trimStart k ++ '=' :: (tail ++ moreText more) := by
            rw [htext, hfirst, List.append_assoc]
            exact Text.trimStart_append_cons (by decide) k _
          have hskip : MatchRule.skipSeparator text = Text.trimStart text := by
            unfold MatchRule.skipSeparator
            split
            · next rest heq =>
                rw [heq] at htrim
                cases hk : Text.trimStart k with
                | nil =>
                    rw [hk] at htrim
                    cases htrim
                | cons c k' =>
                    rw [hk] at htrim
                    refine absurd ((MatchRule.trimStart_suffix k).subset ?_) hcomma
                    rw [hk, (List.cons.inj htrim).1]
                    exact List.mem_cons_self
            · rfl
          cases h with
          | finished hnil =>
              rw [hskip, htrim] at hnil
              exact absurd hnil (by simp)
          | @round _ key rest after value rounds hbody hkey hvalue hrest =>
              rw [hskip, htext] at hbody
              obtain ⟨hblank, b, items, hafter, hentries⟩ := ListItem.round_of_items hbody hkey
                hvalue ((Text.trimStart text).head? == some ',')
              obtain ⟨hcommas, hblanks, hrounds⟩ := hrest.of_more_items hafter
              refine ⟨hcommas, fun r hr => ?_, by rw [hentries, hrounds]; rfl⟩
              rcases List.mem_cons.mp hr with rfl | hr
              · exact hblank
              · exact hblanks r hr

end Reads

/-! ## When no filter is lost -/

/-- Every round after the first begins with a comma, nothing but white space and commas
stands before the last comma of a key, and for no filter does it matter what is read
behind further commas. -/
structure NothingStray (rounds : List Round) : Prop where
  commas : ∀ round ∈ rounds.tail, round.comma = true
  blanks : ∀ round ∈ rounds, round.BlankBefore
  further : ∀ key, MatchRule.Reading.ofValue
      (lastEntry ((rounds.filter (fun round => ',' ∉ round.key)).map Round.entry) key) key =
    MatchRule.Reading.ofValue (lastEntry (rounds.map Round.entry) key) key

/-- Where `parse` accepts a text, it is a list of items with all its filters kept exactly
when nothing stray is read. -/
theorem parse_keeps_filters_iff {s : String} {rule : MatchRule}
    (hparse : MatchRule.parse s = .ok rule) :
    KeepsFilters s rule ↔
      ∃ rounds, Reads (Text.trim s.toList) rounds ∧ NothingStray rounds := by
  obtain ⟨rounds, hreads, hrule⟩ := MatchRule.reads_of_parseItems (Nat.le_refl _) hparse
  have hreading := MatchRule.reading_putRounds s rounds
  rw [← hrule] at hreading
  constructor
  · rintro ⟨items, htext, hkept⟩
    obtain ⟨hcommas, hblanks, hentries⟩ := hreads.of_items htext
    refine ⟨rounds, hreads, hcommas, hblanks, fun key => ?_⟩
    rw [← hreading, hkept, hentries]
  · rintro ⟨rounds', hreads', hclean⟩
    cases hreads.unique hreads'
    obtain ⟨items, htext, hentries⟩ := hreads.exists_items hclean.commas hclean.blanks
    refine ⟨items, htext, fun key => ?_⟩
    rw [hreading, hclean.further, hentries]

def twoFilters : String := "type='signal',member='Foo'"

theorem reads_twoFilters : Reads (Text.trim twoFilters.toList)
    [⟨false, "type".toList, "signal"⟩, ⟨true, "member".toList, "Foo"⟩] :=
  @Reads.round _ _ "'signal',member='Foo'".toList ",member='Foo'".toList _ _ (by decide)
    (by decide) (by decide) (@Reads.round _ _ "'Foo'".toList [] _ _ (by decide) (by decide)
      (by decide) (.finished (by decide)))

theorem parse_keeps_filters_two :
    KeepsFilters twoFilters
      { ruleString := twoFilters, msgType := some "signal", member := some "Foo" } := by
  have hplain : ∀ round ∈ [Round.mk false "type".toList "signal",
      Round.mk true "member".toList "Foo"], ',' ∉ round.key := by decide
  exact (parse_keeps_filters_iff rfl).mpr ⟨_, reads_twoFilters, by decide,
    fun round hround => Round.blankBefore_of_notMem (hplain round hround), fun key => rfl⟩

/-- A letter after the closing quote takes the next filter away. -/
def strayLetter : String := "type='signal'x,member='Foo'"

theorem reads_strayLetter : Reads (Text.trim strayLetter.toList)
    [⟨false, "type".toList, "signal"⟩, ⟨false, "x,member".toList, "Foo"⟩] :=
  @Reads.round _ _ "'signal'x,member='Foo'".toList "x,member='Foo'".toList _ _ (by decide)
    (by decide) (by decide) (@Reads.round _ _ "'Foo'".toList [] _ _ (by decide) (by decide)
      (by decide) (.finished (by decide)))

theorem stray_letter_drops_filter :
    ¬ ∀ (s : String) (rule : MatchRule), MatchRule.parse s = .ok rule → KeepsFilters s rule := by
  intro h
  have hparse : MatchRule.parse strayLetter =
      .ok { ruleString := strayLetter, msgType := some "signal" } := rfl
  obtain ⟨items, htext, _⟩ := h _ _ hparse
  have hcommas := (reads_strayLetter.of_items htext).1
  exact absurd (hcommas _ List.mem_cons_self) (by decide)

end KapsuleDbusMux
