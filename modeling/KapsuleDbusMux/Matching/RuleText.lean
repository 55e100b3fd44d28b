import KapsuleDbusMux.Library.History
import KapsuleDbusMux.Matching.MatchRule
import Mathlib.Data.Bool.AllAny

/-! # Rules that are written out

A rule is written as items `key='value'` with commas between them and white space
wherever it is allowed. `MatchRule::parse` reads every such text back: the value of
each key is that of the last item with it, whatever the values contain, as long as it
is no apostrophe.
-/

namespace KapsuleDbusMux

/-! ## White space and separators -/

/-- White space, of any length. -/
structure Blank where
  chars : List Char
  blank : ∀ c ∈ chars, Text.isWhitespace c = true

namespace Text

theorem trimStart_blank_append (b : Blank) (s : List Char) :
    trimStart (b.chars ++ s) = trimStart s :=
  List.dropWhile_append_of_pos b.blank

theorem trimStart_cons {c : Char} (hc : isWhitespace c = false) (s : List Char) :
    trimStart (c :: s) = c :: s :=
  List.dropWhile_cons_of_neg (by rw [hc]; exact Bool.false_ne_true)

theorem trimEnd_append_blank (s : List Char) (b : Blank) : trimEnd (s ++ b.chars) = trimEnd s := by
  unfold trimEnd
  rw [List.reverse_append, List.dropWhile_append_of_pos]
  intro c hc
  exact b.blank c (List.mem_reverse.mp hc)

theorem trimEnd_concat {c : Char} (hc : isWhitespace c = false) (s : List Char) :
    trimEnd (s ++ [c]) = s ++ [c] := by
  unfold trimEnd
  rw [List.reverse_append, List.reverse_singleton, List.singleton_append,
    List.dropWhile_cons_of_neg (by rw [hc]; exact Bool.false_ne_true), List.reverse_cons,
    List.reverse_reverse]

theorem trimEnd_append {s t : List Char} (ht : trimEnd t ≠ []) :
    trimEnd (s ++ t) = s ++ trimEnd t := by
  unfold trimEnd at ht ⊢
  have hleft : t.reverse.dropWhile isWhitespace ≠ [] := fun h => ht (by rw [h]; rfl)
  rw [List.reverse_append, List.dropWhile_append]
  simp [hleft]

theorem trim_append_blank {s : List Char} (hne : s ≠ []) (hs : ∀ c ∈ s, isWhitespace c = false)
    (b : Blank) : trim (s ++ b.chars) = s := by
  have hstart : trimStart (s ++ b.chars) = s ++ b.chars := by
    cases s with
    | nil => exact absurd rfl hne
    | cons c s => exact trimStart_cons (hs c List.mem_cons_self) _
  have hend : trimEnd s = s := by
    obtain ⟨rest, c, rfl⟩ : ∃ rest c, s = rest ++ [c] :=
      ⟨s.dropLast, s.getLast hne, (List.dropLast_append_getLast hne).symm⟩
    exact trimEnd_concat (hs c (List.mem_append_right _ List.mem_cons_self)) rest
  rw [trim, hstart, trimEnd_append_blank, hend]

theorem splitFirst_append {c : Char} {u : List Char} (hu : c ∉ u) (v : List Char) :
    splitFirst c (u ++ c :: v) = some (u, v) := by
  induction u with
  | nil => simp [splitFirst]
  | cons a u ih =>
      rw [List.mem_cons, not_or] at hu
      rw [List.cons_append, splitFirst, if_neg (Ne.symm hu.1), ih hu.2]
      rfl

theorem of_splitFirst_eq_some {c : Char} {s u v : List Char} (h : splitFirst c s = some (u, v)) :
    s = u ++ c :: v ∧ c ∉ u := by
  induction s generalizing u with
  | nil => cases h
  | cons a s ih =>
      unfold splitFirst at h
      split at h
      · next hac =>
          cases h
          exact ⟨by rw [hac, List.nil_append], List.not_mem_nil⟩
      · next hac =>
          obtain ⟨⟨u', v'⟩, hrest, heq⟩ := Option.map_eq_some_iff.mp h
          cases heq
          obtain ⟨hs, hu⟩ := ih hrest
          exact ⟨by rw [hs, List.cons_append], List.not_mem_cons_of_ne_of_not_mem (Ne.symm hac) hu⟩

theorem of_splitFirst_eq_none {c : Char} {s : List Char} (h : splitFirst c s = none) : c ∉ s := by
  intro hmem
  obtain ⟨u, v, hs, hu⟩ := List.eq_append_cons_of_mem hmem
  rw [hs, splitFirst_append hu] at h
  cases h

end Text

theorem Blank.notMem (b : Blank) {c : Char} (hc : Text.isWhitespace c = false) : c ∉ b.chars := by
  intro h
  rw [b.blank c h] at hc
  cases hc

/-! ## Keys -/

/-- The keys of a rule; the numbered ones go up to 63. -/
inductive FilterKey where
  | type
  | sender
  | interface
  | member
  | path
  | pathNamespace
  | destination
  | eavesdrop
  | arg0namespace
  | arg (n : Fin 64)
  | argPath (n : Fin 64)
  deriving DecidableEq, Repr

namespace FilterKey

def text : FilterKey → List Char
  | type => "type".toList
  | sender => "sender".toList
  | interface => "interface".toList
  | member => "member".toList
  | path => "path".toList
  | pathNamespace => "path_namespace".toList
  | destination => "destination".toList
  | eavesdrop => "eavesdrop".toList
  | arg0namespace => "arg0namespace".toList
  | arg n => "arg".toList ++ Nat.toDigits 10 n
  | argPath n => "arg".toList ++ Nat.toDigits 10 n ++ "path".toList

theorem text_ne_nil (key : FilterKey) : key.text ≠ [] := by
  cases key <;> exact List.cons_ne_nil _ _

theorem text_chars (key : FilterKey) :
    ∀ c ∈ key.text, Text.isWhitespace c = false ∧ c ≠ '=' ∧ c ≠ ',' := by
  rw [← List.all_iff_forall_prop]
  cases key with
  | arg n => revert n; decide
  | argPath n => revert n; decide
  | _ => decide

end FilterKey

namespace MatchRule

def put (rule : MatchRule) (key : FilterKey) (value : String) : MatchRule :=
  match key with
  | .type => { rule with msgType := some value }
  | .sender => { rule with sender := some value }
  | .interface => { rule with interface := some value }
  | .member => { rule with member := some value }
  | .path => { rule with path := some value }
  | .pathNamespace => { rule with pathNamespace := some value }
  | .destination => { rule with destination := some value }
  | .eavesdrop => { rule with eavesdrop := value == "true" }
  | .arg0namespace => { rule with arg0namespace := some value }
  | .arg n => { rule with args := rule.args.insert (UInt8.ofNat n) value }
  | .argPath n => { rule with argPaths := rule.argPaths.insert (UInt8.ofNat n) value }

theorem parseArgIndex_toDigits (key : List Char) (n : Fin 64) :
    parseArgIndex key (Nat.toDigits 10 n) = .ok (UInt8.ofNat n) := by
  have hnum : Text.parseU8 (Nat.toDigits 10 n) = some (UInt8.ofNat n) ∧ ¬ UInt8.ofNat n > 63 := by
    revert n
    decide
  unfold parseArgIndex
  rw [hnum.1]
  exact if_neg hnum.2

/-- `parse` tells all keys apart, and accepts every number up to 63. -/
theorem setKey_text (rule : MatchRule) (key : FilterKey) (value : String) :
    rule.setKey key.text value = .ok (rule.put key value) := by
  cases key with
  | arg n =>
      have hkey : RuleKey.ofText (FilterKey.arg n).text = .arg (Nat.toDigits 10 n) := by
        revert n
        decide
      simp [setKey, hkey, parseArgIndex_toDigits, Except.map, put]
  | argPath n =>
      have hkey : RuleKey.ofText (FilterKey.argPath n).text = .argPath (Nat.toDigits 10 n) := by
        revert n
        decide
      simp [setKey, hkey, parseArgIndex_toDigits, Except.map, put]
  | _ => rfl

end MatchRule

def argIndex (num : List Char) : Option (Fin 64) :=
  (Text.parseU8 num).bind (fun n => if h : n.toNat < 64 then some ⟨n.toNat, h⟩ else none)

/-- The keys `parse` recognises. A number may be written with a plus sign and with
leading zeros. -/
def FilterKey.ofText (key : List Char) : Option FilterKey :=
  match RuleKey.ofText key with
  | .type => some .type
  | .sender => some .sender
  | .interface => some .interface
  | .member => some .member
  | .path => some .path
  | .pathNamespace => some .pathNamespace
  | .destination => some .destination
  | .eavesdrop => some .eavesdrop
  | .arg0namespace => some .arg0namespace
  | .argPath num => (argIndex num).map .argPath
  | .arg num => (argIndex num).map .arg
  | .unknown => none

namespace MatchRule

/-- The rule with a value under the text of a key, which may be unknown. -/
def putText (rule : MatchRule) (key : List Char) (value : String) : MatchRule :=
  match FilterKey.ofText key with
  | some key => rule.put key value
  | none => rule

theorem argIndex_of_parseArgIndex {key num : List Char} {n : UInt8}
    (h : parseArgIndex key num = .ok n) : ∃ i, argIndex num = some i ∧ UInt8.ofNat i = n := by
  unfold parseArgIndex at h
  cases hparsed : Text.parseU8 num with
  | none => simp [hparsed] at h
  | some m =>
      simp only [hparsed] at h
      split at h
      · cases h
      · next hle =>
          cases h
          have hlt : n.toNat < 64 := by
            have hbound : ¬ 63 < n.toNat := fun hgt => hle (UInt8.lt_iff_toNat_lt.mpr hgt)
            omega
          refine ⟨⟨n.toNat, hlt⟩, ?_, UInt8.ofNat_toNat⟩
          simp [argIndex, hparsed, hlt]

/-- What is stored, is stored under the key that is recognised. -/
theorem putText_of_setKey {result result' : MatchRule} {key : List Char} {value : String}
    (h : result.setKey key value = .ok result') : result' = result.putText key value := by
  unfold setKey at h
  unfold putText FilterKey.ofText
  cases hkey : RuleKey.ofText key with
  | argPath num =>
      simp only [hkey] at h
      cases hnum : parseArgIndex key num with
      | error e => simp [hnum, Except.map] at h
      | ok n =>
          obtain ⟨i, hi, hn⟩ := argIndex_of_parseArgIndex hnum
          simp only [hnum, Except.map, Except.ok.injEq] at h
          rw [← h, ← hn]
          simp only [hi]
          rfl
  | arg num =>
      simp only [hkey] at h
      cases hnum : parseArgIndex key num with
      | error e => simp [hnum, Except.map] at h
      | ok n =>
          obtain ⟨i, hi, hn⟩ := argIndex_of_parseArgIndex hnum
          simp only [hnum, Except.map, Except.ok.injEq] at h
          rw [← h, ← hn]
          simp only [hi]
          rfl
  | _ =>
      simp only [hkey, Except.ok.injEq] at h
      exact h.symm

end MatchRule

/-! ## Items -/

/-- An item `key='value'` with the white space in and around it. -/
structure RuleItem where
  key : FilterKey
  value : List Char
  unquoted : '\'' ∉ value
  beforeKey : Blank
  afterKey : Blank
  beforeValue : Blank
  afterValue : Blank

namespace RuleItem

/-- What comes after the white space before the key, up to the closing quote. -/
def core (item : RuleItem) : List Char :=
  item.key.text ++ (item.afterKey.chars ++
    '=' :: (item.beforeValue.chars ++ '\'' :: (item.value ++ ['\''])))

def render (item : RuleItem) : List Char :=
  item.beforeKey.chars ++ (item.core ++ item.afterValue.chars)

def renderMore (items : List RuleItem) : List Char := items.flatMap (fun item => ',' :: item.render)

/-- A rule: items with commas between them, after white space. -/
def renderRule (lead : Blank) : List RuleItem → List Char
  | [] => lead.chars
  | item :: items => lead.chars ++ (item.render ++ renderMore items)

def entry (item : RuleItem) : FilterKey × String := (item.key, String.ofList item.value)

theorem core_starts (item : RuleItem) :
    ∃ c rest, item.core = c :: rest ∧ Text.isWhitespace c = false ∧ c ≠ ',' := by
  cases hkey : item.key.text with
  | nil => exact absurd hkey item.key.text_ne_nil
  | cons c rest =>
      have hc := item.key.text_chars c (by rw [hkey]; exact List.mem_cons_self)
      exact ⟨c, _, by rw [core, hkey, List.cons_append], hc.1, hc.2.2⟩

theorem core_ne_nil (item : RuleItem) : item.core ≠ [] := by
  obtain ⟨c, rest, hcore, _⟩ := item.core_starts
  rw [hcore]
  exact List.cons_ne_nil _ _

theorem core_ends (item : RuleItem) : ∃ rest, item.core = rest ++ ['\''] := by
  refine ⟨item.key.text ++ (item.afterKey.chars ++
    '=' :: (item.beforeValue.chars ++ '\'' :: item.value)), ?_⟩
  simp [core]

theorem trimStart_core (item : RuleItem) (s : List Char) :
    Text.trimStart (item.core ++ s) = item.core ++ s := by
  obtain ⟨c, rest, hcore, hc, _⟩ := item.core_starts
  rw [hcore, List.cons_append, Text.trimStart_cons hc]

theorem trimEnd_core (item : RuleItem) (b : Blank) :
    Text.trimEnd (item.core ++ b.chars) = item.core := by
  obtain ⟨rest, hcore⟩ := item.core_ends
  rw [Text.trimEnd_append_blank, hcore, Text.trimEnd_concat (by decide)]

end RuleItem

/-! ## Reading an item -/

namespace MatchRule

open RuleItem (renderMore renderRule)

theorem skipSeparator_core (b : Blank) (item : RuleItem) (s : List Char) :
    skipSeparator (b.chars ++ (item.core ++ s)) = item.core ++ s := by
  obtain ⟨c, rest, hcore, hc, hcomma⟩ := item.core_starts
  unfold skipSeparator
  rw [Text.trimStart_blank_append, item.trimStart_core, hcore, List.cons_append]
  split
  · next heq => exact absurd (List.cons.inj heq).1 hcomma
  · rfl

theorem skipSeparator_comma_core (b b' : Blank) (item : RuleItem) (s : List Char) :
    skipSeparator (b.chars ++ ',' :: (b'.chars ++ (item.core ++ s))) = item.core ++ s := by
  unfold skipSeparator
  rw [Text.trimStart_blank_append, Text.trimStart_cons (by decide)]
  exact (Text.trimStart_blank_append b' _).trans (item.trimStart_core s)

theorem parseItems_core {remaining s : List Char} {item : RuleItem}
    (hskip : skipSeparator remaining = item.core ++ s) (fuel : Nat) (result : MatchRule) :
    parseItems (fuel + 1) remaining result =
      parseItems fuel s (result.put item.entry.1 item.entry.2) := by
  have hne : (item.core ++ s).isEmpty = false := by
    rw [List.isEmpty_eq_false_iff]
    exact List.append_ne_nil_of_left_ne_nil item.core_ne_nil s
  have hkey : '=' ∉ item.key.text ++ item.afterKey.chars := by
    rw [List.mem_append, not_or]
    exact ⟨fun h => (item.key.text_chars '=' h).2.1 rfl, item.afterKey.notMem (by decide)⟩
  have hsplit : Text.splitFirst '=' (item.core ++ s) = some (item.key.text ++ item.afterKey.chars,
      item.beforeValue.chars ++ '\'' :: (item.value ++ '\'' :: s)) := by
    rw [← Text.splitFirst_append hkey]
    simp [RuleItem.core]
  have hvalue : parseValue (Text.trimStart
      (item.beforeValue.chars ++ '\'' :: (item.value ++ '\'' :: s))) =
      .ok (String.ofList item.value, s) := by
    rw [Text.trimStart_blank_append, Text.trimStart_cons (by decide)]
    simp only [parseValue, Text.splitFirst_append item.unquoted]
  have htrim : Text.trim (item.key.text ++ item.afterKey.chars) = item.key.text := by
    exact Text.trim_append_blank item.key.text_ne_nil (fun c hc => (item.key.text_chars c hc).1) _
  rw [parseItems]
  simp only [hskip, hne, Bool.false_eq_true, if_false, hsplit, hvalue, htrim, setKey_text, bind,
    Except.bind]
  rfl

/-! ## Reading a rule -/

def putAll (rule : MatchRule) (items : List RuleItem) : MatchRule :=
  (items.map RuleItem.entry).foldl (fun rule entry => rule.put entry.1 entry.2) rule

theorem parseItems_blank (b : Blank) (fuel : Nat) (result : MatchRule) :
    parseItems fuel b.chars result = .ok result := by
  have hskip : skipSeparator b.chars = [] := by
    have hall := Text.trimStart_blank_append b []
    rw [List.append_nil] at hall
    unfold skipSeparator
    rw [hall]
    rfl
  cases fuel with
  | zero => rfl
  | succ fuel =>
      rw [parseItems]
      simp only [hskip, List.isEmpty_nil, if_true]

theorem parseItems_renderMore (items : List RuleItem) (b : Blank) {fuel : Nat} (result : MatchRule)
    (hfuel : (b.chars ++ renderMore items).length ≤ fuel) :
    parseItems fuel (b.chars ++ renderMore items) result = .ok (result.putAll items) := by
  induction items generalizing b fuel result with
  | nil =>
      rw [renderMore, List.flatMap_nil, List.append_nil]
      exact parseItems_blank b fuel result
  | cons item items ih =>
      have htext : b.chars ++ renderMore (item :: items) = b.chars ++ ',' ::
          (item.beforeKey.chars ++ (item.core ++ (item.afterValue.chars ++ renderMore items))) := by
        simp [renderMore, RuleItem.render]
      rw [htext] at hfuel ⊢
      cases fuel with
      | zero => simp at hfuel
      | succ fuel =>
          have hrest : (item.afterValue.chars ++ renderMore items).length ≤ fuel := by
            simp only [List.length_append, List.length_cons] at hfuel ⊢
            omega
          rw [parseItems_core (skipSeparator_comma_core b item.beforeKey item _)]
          exact ih item.afterValue _ hrest

/-- Trimming the end of a rule takes away white space after the last item. -/
theorem trimEnd_items (item : RuleItem) (items : List RuleItem) :
    ∃ (b : Blank) (items' : List RuleItem), items'.map RuleItem.entry = items.map RuleItem.entry ∧
      Text.trimEnd (item.core ++ (item.afterValue.chars ++ renderMore items)) =
        item.core ++ (b.chars ++ renderMore items') := by
  induction items generalizing item with
  | nil =>
      refine ⟨⟨[], fun _ h => nomatch h⟩, [], rfl, ?_⟩
      have htrim := item.trimEnd_core item.afterValue
      simpa [renderMore] using htrim
  | cons next items ih =>
      obtain ⟨b, items', hentries, htrim⟩ := ih next
      refine ⟨item.afterValue, { next with afterValue := b } :: items', ?_, ?_⟩
      · rw [List.map_cons, List.map_cons, hentries]
        rfl
      · have htext : item.core ++ (item.afterValue.chars ++ renderMore (next :: items)) =
            (item.core ++ (item.afterValue.chars ++ ',' :: next.beforeKey.chars)) ++
              (next.core ++ (next.afterValue.chars ++ renderMore items)) := by
          simp [renderMore, RuleItem.render]
        have hne :
            Text.trimEnd (next.core ++ (next.afterValue.chars ++ renderMore items)) ≠ [] := by
          rw [htrim]
          exact List.append_ne_nil_of_left_ne_nil next.core_ne_nil _
        have hcore : RuleItem.core { next with afterValue := b } = next.core := rfl
        rw [htext, Text.trimEnd_append hne, htrim]
        simp [renderMore, RuleItem.render, hcore]

theorem parse_renderRule (lead : Blank) (items : List RuleItem) :
    parse (String.ofList (renderRule lead items)) =
      .ok (putAll { ruleString := String.ofList (renderRule lead items) } items) := by
  unfold parse
  rw [String.toList_ofList]
  dsimp only
  cases items with
  | nil =>
      have htrim : Text.trim (renderRule lead []) = [] := by
        have hall := Text.trimStart_blank_append lead []
        rw [List.append_nil] at hall
        rw [Text.trim, renderRule, hall]
        rfl
      rw [htrim]
      rfl
  | cons item items =>
      obtain ⟨b, items', hentries, htrim⟩ := trimEnd_items item items
      have htext : Text.trim (renderRule lead (item :: items)) =
          item.core ++ (b.chars ++ renderMore items') := by
        rw [Text.trim, renderRule, Text.trimStart_blank_append, RuleItem.render, List.append_assoc,
          Text.trimStart_blank_append, List.append_assoc, item.trimStart_core, htrim]
      have hskip := skipSeparator_core ⟨[], fun _ h => nomatch h⟩ item
        (b.chars ++ renderMore items')
      rw [List.nil_append] at hskip
      rw [htext]
      have hpos := List.length_pos_iff.mpr item.core_ne_nil
      cases hfuel : (item.core ++ (b.chars ++ renderMore items')).length with
      | zero =>
          rw [List.length_append] at hfuel
          omega
      | succ fuel =>
          have hrest : (b.chars ++ renderMore items').length ≤ fuel := by
            rw [List.length_append] at hfuel
            omega
          rw [parseItems_core hskip, parseItems_renderMore items' b _ hrest]
          simp only [putAll, List.map_cons, List.foldl_cons, hentries]

/-! ## What a rule has for its keys -/

inductive Reading where
  | text (value : Option String)
  | flag (on : Bool)
  deriving DecidableEq, Repr

def reading (rule : MatchRule) : FilterKey → Reading
  | .type => .text rule.msgType
  | .sender => .text rule.sender
  | .interface => .text rule.interface
  | .member => .text rule.member
  | .path => .text rule.path
  | .pathNamespace => .text rule.pathNamespace
  | .destination => .text rule.destination
  | .eavesdrop => .flag rule.eavesdrop
  | .arg0namespace => .text rule.arg0namespace
  | .arg n => .text (rule.args.lookup (UInt8.ofNat n))
  | .argPath n => .text (rule.argPaths.lookup (UInt8.ofNat n))

def Reading.ofValue (value : Option String) : FilterKey → Reading
  | .eavesdrop => .flag (value == some "true")
  | _ => .text value

def lastValue (items : List RuleItem) (key : FilterKey) : Option String :=
  (History.last (fun entry => entry.1 == key) (items.map RuleItem.entry)).map Prod.snd

/-- The same filters, in whatever order the maps have them. -/
structure SameFilters (rule rule' : MatchRule) : Prop where
  readings : ∀ key, rule.reading key = rule'.reading key
  args : ∀ i, rule.args.lookup i = rule'.args.lookup i
  argPaths : ∀ i, rule.argPaths.lookup i = rule'.argPaths.lookup i

theorem toNat_ofNat_fin (n : Fin 64) : (UInt8.ofNat n).toNat = n := by
  have hn := n.isLt
  rw [UInt8.toNat_ofNat']
  omega

theorem ofNat_injective {n m : Fin 64} (h : UInt8.ofNat n = UInt8.ofNat m) : n = m := by
  have hvalue := congrArg UInt8.toNat h
  rw [toNat_ofNat_fin, toNat_ofNat_fin] at hvalue
  exact Fin.ext hvalue

theorem reading_put (rule : MatchRule) (put : FilterKey) (value : String) (key : FilterKey) :
    (rule.put put value).reading key =
      if put == key then Reading.ofValue (some value) key else rule.reading key := by
  by_cases h : put = key
  · subst h
    rw [if_pos (beq_self_eq_true _)]
    cases put with
    | arg n => exact congrArg Reading.text (AList.lookup_insert _)
    | argPath n => exact congrArg Reading.text (AList.lookup_insert _)
    | _ => rfl
  · rw [if_neg (by rw [beq_iff_eq]; exact h)]
    cases put with
    | arg n =>
        cases key with
        | arg m =>
            have hne : UInt8.ofNat m ≠ UInt8.ofNat n :=
              fun heq => h (congrArg FilterKey.arg (ofNat_injective heq.symm))
            exact congrArg Reading.text (AList.lookup_insert_ne hne)
        | _ => rfl
    | argPath n =>
        cases key with
        | argPath m =>
            have hne : UInt8.ofNat m ≠ UInt8.ofNat n :=
              fun heq => h (congrArg FilterKey.argPath (ofNat_injective heq.symm))
            exact congrArg Reading.text (AList.lookup_insert_ne hne)
        | _ => rfl
    | _ =>
        cases key <;> first | rfl | exact absurd rfl h

theorem ofValue_none (ruleString : String) (key : FilterKey) :
    reading { ruleString := ruleString } key = Reading.ofValue none key := by
  cases key <;> rfl

theorem reading_putAll (ruleString : String) (items : List RuleItem) (key : FilterKey) :
    (putAll { ruleString := ruleString } items).reading key =
      Reading.ofValue (lastValue items key) key := by
  unfold putAll lastValue
  rw [History.observe_foldl (fun (rule : MatchRule) (entry : FilterKey × String) =>
    rule.put entry.1 entry.2) (fun rule => rule.reading key)
    (fun rule entry => reading_put rule entry.1 entry.2 key), ofValue_none]
  cases History.last (fun entry => entry.1 == key) (items.map RuleItem.entry) with
  | none => rfl
  | some entry => rfl

theorem lookup_put_of_gt {i : UInt8} (hi : 63 < i) (rule : MatchRule) (key : FilterKey)
    (value : String) :
    (rule.put key value).args.lookup i = rule.args.lookup i ∧
      (rule.put key value).argPaths.lookup i = rule.argPaths.lookup i := by
  have hne : ∀ n : Fin 64, i ≠ UInt8.ofNat n := by
    intro n heq
    have hlt := UInt8.lt_iff_toNat_lt.mp hi
    have hn := n.isLt
    rw [heq, toNat_ofNat_fin] at hlt
    exact absurd hn (Nat.not_lt.mpr hlt)
  cases key with
  | arg n => exact ⟨AList.lookup_insert_ne (hne n), rfl⟩
  | argPath n => exact ⟨rfl, AList.lookup_insert_ne (hne n)⟩
  | _ => exact ⟨rfl, rfl⟩

theorem lookup_putAll_of_gt {i : UInt8} (hi : 63 < i) (rule : MatchRule) (items : List RuleItem) :
    (rule.putAll items).args.lookup i = rule.args.lookup i ∧
      (rule.putAll items).argPaths.lookup i = rule.argPaths.lookup i := by
  unfold putAll
  induction items generalizing rule with
  | nil => exact ⟨rfl, rfl⟩
  | cons item items ih =>
      have hput := lookup_put_of_gt hi rule item.entry.1 item.entry.2
      have hrest := ih (rule.put item.entry.1 item.entry.2)
      rw [List.map_cons, List.foldl_cons]
      exact ⟨hrest.1.trans hput.1, hrest.2.trans hput.2⟩

/-- Where each key occurs at most once, the order of the items does not matter. -/
theorem lastValue_perm {items items' : List RuleItem} (hperm : items'.Perm items)
    (hkeys : (items.map RuleItem.key).Nodup) (key : FilterKey) :
    lastValue items' key = lastValue items key := by
  have hone : (items.map RuleItem.entry).countP (fun entry => entry.1 == key) ≤ 1 := by
    have hcount := List.nodup_iff_count_le_one.mp hkeys key
    rw [List.count, List.countP_map] at hcount
    rw [List.countP_map]
    exact hcount
  unfold lastValue
  rw [History.last_perm (hperm.map RuleItem.entry) hone]

theorem sameFilters_putAll {ruleString ruleString' : String} {items items' : List RuleItem}
    (h : ∀ key, lastValue items' key = lastValue items key) :
    (putAll { ruleString := ruleString' } items').SameFilters
      (putAll { ruleString := ruleString } items) := by
  have hreadings : ∀ key, (putAll { ruleString := ruleString' } items').reading key =
      (putAll { ruleString := ruleString } items).reading key := by
    intro key
    rw [reading_putAll, reading_putAll, h]
  have hsmall : ∀ i : UInt8, ¬ 63 < i → ∃ n : Fin 64, i = UInt8.ofNat n := by
    intro i hi
    rw [UInt8.lt_iff_toNat_lt, Nat.not_lt] at hi
    exact ⟨⟨i.toNat, by have : (63 : UInt8).toNat = 63 := rfl; omega⟩, by simp⟩
  refine ⟨hreadings, fun i => ?_, fun i => ?_⟩
  · by_cases hi : 63 < i
    · rw [(lookup_putAll_of_gt hi _ _).1, (lookup_putAll_of_gt hi _ _).1]
    · obtain ⟨n, rfl⟩ := hsmall i hi
      exact Reading.text.inj (hreadings (.arg n))
  · by_cases hi : 63 < i
    · rw [(lookup_putAll_of_gt hi _ _).2, (lookup_putAll_of_gt hi _ _).2]
    · obtain ⟨n, rfl⟩ := hsmall i hi
      exact Reading.text.inj (hreadings (.argPath n))

/-- Every rule that is written out is read back: for each key the rule has the value of
the last item with it, and nothing where there is no item. Items with different keys
may be written in any order. -/
theorem parse_reads_back (lead : Blank) (items : List RuleItem) :
    ∃ rule, parse (String.ofList (renderRule lead items)) = .ok rule ∧
      rule.ruleString = String.ofList (renderRule lead items) ∧
      (∀ key, rule.reading key = Reading.ofValue (lastValue items key) key) ∧
      (∀ i : UInt8, 63 < i → rule.args.lookup i = none ∧ rule.argPaths.lookup i = none) ∧
      ((items.map RuleItem.key).Nodup → ∀ (lead' : Blank) (items' : List RuleItem),
        items'.Perm items → ∃ rule', parse (String.ofList (renderRule lead' items')) = .ok rule' ∧
          rule'.SameFilters rule) := by
  refine ⟨_, parse_renderRule lead items, ruleString_of_parse (parse_renderRule lead items),
    reading_putAll _ items, fun i hi => ?_, fun hkeys lead' items' hperm => ?_⟩
  · exact lookup_putAll_of_gt hi { ruleString := String.ofList (renderRule lead items) } items
  · exact ⟨_, parse_renderRule lead' items', sameFilters_putAll (lastValue_perm hperm hkeys)⟩

end MatchRule

end KapsuleDbusMux
