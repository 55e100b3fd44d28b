import KapsuleDbusMux.Library.Offsets
import KapsuleDbusMux.Matching.RuleText
import Mathlib.Data.List.TakeWhile

/-! # Parsing a rule by byte offsets

`MatchRule::parse` as it is written, with every offset and every slice. Offsets are those
of ASCII characters that have just been found, and the text that is left gets shorter
with every item, so nothing panics, the loop comes to an end, and the result is that of
`MatchRule.parse`.
-/

namespace KapsuleDbusMux

open Machine (Exec Quiet quiet_bind quiet_pure subUsize quiet_subUsize)
open Offsets (sliceFrom sliceTo slice find)
open String (utf8Len)

/-! ## The loop with its offsets -/

inductive ParseRound where
  | finished
  | failed (error : MatchRuleError)
  | next (remaining : List Char) (result : MatchRule)
  deriving DecidableEq

namespace MatchRule

/-- The `match key`; the numbers of the two numbered keys are slices of the key. -/
def setKeyAt (checks : Bool) (result : MatchRule) (key : List Char) (value : String) :
    Exec (Except MatchRuleError MatchRule) :=
  match RuleKey.ofText key with
  | .argPath _ => do
      let hi ← subUsize checks (utf8Len key) 4
      let numStr ← slice key 3 hi
      pure ((parseArgIndex key numStr).map (fun num =>
        { result with argPaths := result.argPaths.insert num value }))
  | .arg _ => do
      let numStr ← sliceFrom key 3
      pure ((parseArgIndex key numStr).map (fun num =>
        { result with args := result.args.insert num value }))
  | _ => pure (result.setKey key value)

def parseValueAt (remaining : List Char) :
    Exec (Except MatchRuleError (String × List Char)) :=
  if ['\''].isPrefixOf remaining then do
    let quoted ← sliceFrom remaining 1
    match find '\'' quoted with
    | none => pure (.error (.invalidFormat "Unclosed quote"))
    | some stop => do
        let value ← slice remaining 1 (stop + 1)
        let rest ← sliceFrom remaining (stop + 2)
        pure (.ok (String.ofList value, rest))
  else do
    let stop := (find ',' remaining).getD (utf8Len remaining)
    let value ← sliceTo remaining stop
    let rest ← sliceFrom remaining stop
    pure (.ok (String.ofList (Text.trim value), rest))

def skipSeparatorAt (remaining : List Char) : Exec (List Char) :=
  let remaining := Text.trimStart remaining
  if [','].isPrefixOf remaining then do
    let rest ← sliceFrom remaining 1
    pure (Text.trimStart rest)
  else pure remaining

def parseRoundAt (checks : Bool) (remaining : List Char) (result : MatchRule) :
    Exec ParseRound := do
  let remaining ← skipSeparatorAt remaining
  if remaining.isEmpty then pure .finished
  else
    match find '=' remaining with
    | none => pure (.failed (.invalidFormat ("Missing '=' in: " ++ String.ofList remaining)))
    | some eqPos => do
        let key ← sliceTo remaining eqPos
        let rest ← sliceFrom remaining (eqPos + 1)
        match ← parseValueAt (Text.trimStart rest) with
        | .error e => pure (.failed e)
        | .ok (value, rest) =>
            match ← setKeyAt checks result (Text.trim key) value with
            | .error e => pure (.failed e)
            | .ok result => pure (.next rest result)

/-- `while !remaining.is_empty()`. The loop is cut off when the fuel is used up. -/
def parseLoopAt (checks : Bool) : Nat → List Char → MatchRule →
    Option (Exec (Except MatchRuleError MatchRule))
  | 0, _, _ => none
  | fuel + 1, remaining, result =>
      if remaining.isEmpty then some (pure (.ok result))
      else
        match parseRoundAt checks remaining result with
        | .panic p => some (.panic p)
        | .done round wrapped =>
            match round with
            | .finished => some (.done (.ok result) wrapped)
            | .failed e => some (.done (.error e) wrapped)
            | .next remaining result =>
                (parseLoopAt checks fuel remaining result).map (fun rest =>
                  (Exec.done () wrapped).bind (fun _ => rest))

def parseAt (checks : Bool) (fuel : Nat) (rule : String) :
    Option (Exec (Except MatchRuleError MatchRule)) :=
  let result : MatchRule := { ruleString := rule }
  if (Text.trim rule.toList).isEmpty then some (pure (.ok result))
  else parseLoopAt checks fuel (Text.trim rule.toList) result

/-! ## No slice goes wrong -/

theorem quiet_skipSeparatorAt (remaining : List Char) :
    Quiet (skipSeparatorAt remaining) (skipSeparator remaining) := by
  unfold skipSeparatorAt skipSeparator
  cases htrim : Text.trimStart remaining with
  | nil => exact quiet_pure.mpr rfl
  | cons c rest =>
      by_cases hc : c = ','
      · subst hc
        have hslice := Offsets.quiet_sliceFrom [','] rest
        exact quiet_bind.mpr ⟨rest, hslice, quiet_pure.mpr rfl⟩
      · dsimp only
        rw [if_neg (by simpa [List.isPrefixOf] using Ne.symm hc)]
        refine quiet_pure.mpr ?_
        split
        · next heq => exact absurd (List.cons.inj heq).1 hc
        · rfl

theorem parseValue_of_unquoted {remaining : List Char} (h : remaining.head? ≠ some '\'') :
    parseValue remaining = .ok (String.ofList (Text.trim (remaining.takeWhile (· ≠ ','))),
      remaining.dropWhile (· ≠ ',')) := by
  unfold parseValue
  split
  · exact absurd rfl h
  · rfl

theorem quiet_parseValueAt_quoted (quoted : List Char) :
    Quiet (parseValueAt ('\'' :: quoted)) (parseValue ('\'' :: quoted)) := by
  unfold parseValueAt
  rw [if_pos (by rfl)]
  refine quiet_bind.mpr ⟨quoted, Offsets.quiet_sliceFrom ['\''] quoted, ?_⟩
  cases hsplit : Text.splitFirst '\'' quoted with
  | none =>
      rw [Offsets.find_eq_none (Text.of_splitFirst_eq_none hsplit)]
      refine quiet_pure.mpr ?_
      simp only [parseValue, hsplit]
  | some parts =>
      obtain ⟨value, rest⟩ := parts
      obtain ⟨rfl, hvalue⟩ := Text.of_splitFirst_eq_some hsplit
      have hslice :
          Quiet (slice ('\'' :: (value ++ '\'' :: rest)) 1 (utf8Len value + 1)) value := by
        rw [Nat.add_comm]
        exact Offsets.quiet_slice ['\''] value ('\'' :: rest)
      have hrest :
          Quiet (sliceFrom ('\'' :: (value ++ '\'' :: rest)) (utf8Len value + 2)) rest := by
        have hlen : utf8Len ('\'' :: (value ++ ['\''])) = utf8Len value + 2 := by
          rw [String.utf8Len_cons, String.utf8Len_append]
          rfl
        have hfrom := Offsets.quiet_sliceFrom ('\'' :: (value ++ ['\''])) rest
        rw [hlen, List.cons_append, List.append_assoc] at hfrom
        exact hfrom
      rw [Offsets.find_append hvalue]
      refine quiet_bind.mpr ⟨value, hslice, quiet_bind.mpr ⟨rest, hrest, quiet_pure.mpr ?_⟩⟩
      simp only [parseValue, hsplit]

theorem quiet_parseValueAt_unquoted {remaining : List Char} (h : remaining.head? ≠ some '\'') :
    Quiet (parseValueAt remaining) (parseValue remaining) := by
  have hstart : ¬ ['\''].isPrefixOf remaining = true := by
    rw [List.isPrefixOf_iff_prefix]
    rintro ⟨quoted, rfl⟩
    exact h rfl
  have hsplit := List.takeWhile_append_dropWhile (p := fun c => decide (c ≠ ',')) (l := remaining)
  have hto :=
    Offsets.quiet_sliceTo (remaining.takeWhile (· ≠ ',')) (remaining.dropWhile (· ≠ ','))
  have hfrom :=
    Offsets.quiet_sliceFrom (remaining.takeWhile (· ≠ ',')) (remaining.dropWhile (· ≠ ','))
  rw [hsplit] at hto hfrom
  unfold parseValueAt
  rw [if_neg hstart, Offsets.find_getD, parseValue_of_unquoted h]
  exact quiet_bind.mpr ⟨_, hto, quiet_bind.mpr ⟨_, hfrom, quiet_pure.mpr rfl⟩⟩

theorem quiet_parseValueAt (remaining : List Char) :
    Quiet (parseValueAt remaining) (parseValue remaining) := by
  by_cases hquote : remaining.head? = some '\''
  · obtain ⟨quoted, rfl⟩ := List.head?_eq_some_iff.mp hquote
    exact quiet_parseValueAt_quoted quoted
  · exact quiet_parseValueAt_unquoted hquote

/-- A key cannot begin with `arg` and end with `path` without room for both. -/
theorem argPath_key {key : List Char} (hbegins : "arg".toList <+: key)
    (hends : "path".toList <:+ key) :
    ∃ num, key = "arg".toList ++ num ++ "path".toList := by
  obtain ⟨rest, rfl⟩ := hbegins
  obtain ⟨front, hfront⟩ := hends
  by_cases hlen : 3 ≤ front.length
  · have harg : "arg".toList <+: front :=
      List.prefix_of_prefix_length_le (List.prefix_append _ rest) ⟨_, hfront⟩ hlen
    obtain ⟨num, rfl⟩ := harg
    exact ⟨num, hfront.symm⟩
  · -- too short: then a letter of `path` stands where `arg` has another
    have hg : ("arg".toList ++ rest)[2]? = some 'g' := rfl
    rw [← hfront, List.getElem?_append_right (by omega)] at hg
    exact absurd (List.mem_of_getElem? hg) (by decide)

theorem eq_of_ite_of_ne {p : Prop} [Decidable p] {a b key : RuleKey}
    (h : (if p then a else b) = key) (hne : a ≠ key) : b = key := by
  split at h
  · exact absurd h hne
  · exact h

theorem ofText_argPath {key num : List Char} (h : RuleKey.ofText key = .argPath num) :
    key = "arg".toList ++ num ++ "path".toList := by
  unfold RuleKey.ofText at h
  iterate 9 replace h := eq_of_ite_of_ne h nofun
  split at h
  · next hkey =>
      rw [Bool.and_eq_true, List.isPrefixOf_iff_prefix, Text.endsWith,
        List.isPrefixOf_iff_prefix, List.reverse_prefix] at hkey
      obtain ⟨num', rfl⟩ := argPath_key hkey.1 hkey.2
      rw [← RuleKey.argPath.inj h]
      simp
  · exact absurd (eq_of_ite_of_ne h nofun) nofun

theorem ofText_arg {key num : List Char} (h : RuleKey.ofText key = .arg num) :
    key = "arg".toList ++ num := by
  unfold RuleKey.ofText at h
  iterate 10 replace h := eq_of_ite_of_ne h nofun
  split at h
  · next hkey =>
      obtain ⟨rest, rfl⟩ := List.isPrefixOf_iff_prefix.mp hkey
      rw [← RuleKey.arg.inj h]
      rfl
  · cases h

theorem quiet_setKeyAt (checks : Bool) (result : MatchRule) (key : List Char) (value : String) :
    Quiet (setKeyAt checks result key value) (result.setKey key value) := by
  unfold setKeyAt
  cases hkey : RuleKey.ofText key with
  | argPath num =>
      have htext := ofText_argPath hkey
      have hlen : utf8Len key = 3 + utf8Len num + 4 := by
        rw [htext, String.utf8Len_append, String.utf8Len_append]
        rfl
      have hslice : Quiet (slice key 3 (utf8Len key - 4)) num := by
        rw [hlen, Nat.add_sub_cancel]
        exact htext ▸ Offsets.quiet_slice "arg".toList num "path".toList
      refine quiet_bind.mpr ⟨_, quiet_subUsize.mpr ⟨by omega, rfl⟩,
        quiet_bind.mpr ⟨num, hslice, quiet_pure.mpr ?_⟩⟩
      simp only [setKey, hkey]
  | arg num =>
      have hslice : Quiet (sliceFrom key 3) num :=
        ofText_arg hkey ▸ Offsets.quiet_sliceFrom "arg".toList num
      refine quiet_bind.mpr ⟨num, hslice, quiet_pure.mpr ?_⟩
      simp only [setKey, hkey]
  | _ => exact quiet_pure.mpr rfl

/-- A round of the loop, without offsets. -/
def parseRound (remaining : List Char) (result : MatchRule) : ParseRound :=
  let remaining := skipSeparator remaining
  if remaining.isEmpty then .finished
  else
    match Text.splitFirst '=' remaining with
    | none => .failed (.invalidFormat ("Missing '=' in: " ++ String.ofList remaining))
    | some (key, rest) =>
        match parseValue (Text.trimStart rest) with
        | .error e => .failed e
        | .ok (value, rest) =>
            match result.setKey (Text.trim key) value with
            | .error e => .failed e
            | .ok result => .next rest result

theorem quiet_parseRoundAt (checks : Bool) (remaining : List Char) (result : MatchRule) :
    Quiet (parseRoundAt checks remaining result) (parseRound remaining result) := by
  unfold parseRoundAt parseRound
  refine quiet_bind.mpr ⟨_, quiet_skipSeparatorAt remaining, ?_⟩
  dsimp only
  split
  · exact quiet_pure.mpr rfl
  · cases hsplit : Text.splitFirst '=' (skipSeparator remaining) with
    | none =>
        rw [Offsets.find_eq_none (Text.of_splitFirst_eq_none hsplit)]
        exact quiet_pure.mpr rfl
    | some parts =>
        obtain ⟨key, rest⟩ := parts
        obtain ⟨htext, hkey⟩ := Text.of_splitFirst_eq_some hsplit
        have hto : Quiet (sliceTo (skipSeparator remaining) (utf8Len key)) key :=
          htext ▸ Offsets.quiet_sliceTo key ('=' :: rest)
        have hfrom : Quiet (sliceFrom (skipSeparator remaining) (utf8Len key + 1)) rest := by
          have hafter := Offsets.quiet_sliceFrom (key ++ ['=']) rest
          rw [String.utf8Len_append, List.append_assoc] at hafter
          exact htext ▸ hafter
        rw [htext, Offsets.find_append hkey, ← htext]
        refine quiet_bind.mpr ⟨key, hto, quiet_bind.mpr ⟨rest, hfrom,
          quiet_bind.mpr ⟨_, quiet_parseValueAt _, ?_⟩⟩⟩
        dsimp only
        cases hvalue : parseValue (Text.trimStart rest) with
        | error e => exact quiet_pure.mpr rfl
        | ok pair =>
            refine quiet_bind.mpr ⟨_, quiet_setKeyAt checks result (Text.trim key) pair.1, ?_⟩
            dsimp only
            cases hset : result.setKey (Text.trim key) pair.1 with
            | error e => exact quiet_pure.mpr rfl
            | ok result => exact quiet_pure.mpr rfl

/-! ## Every round makes the text shorter -/

theorem trimStart_suffix (s : List Char) : Text.trimStart s <:+ s := List.dropWhile_suffix _

theorem trim_sublist (s : List Char) : (Text.trim s).Sublist s := by
  have hend : (Text.trimEnd (Text.trimStart s)).Sublist (Text.trimStart s) := by
    have hreverse := (List.dropWhile_sublist (l := (Text.trimStart s).reverse)
      Text.isWhitespace).reverse
    rw [List.reverse_reverse] at hreverse
    exact hreverse
  exact hend.trans (trimStart_suffix s).sublist

theorem skipSeparator_suffix (remaining : List Char) : skipSeparator remaining <:+ remaining := by
  have htrim := trimStart_suffix remaining
  unfold skipSeparator
  split
  · next rest heq =>
      rw [heq] at htrim
      exact ((trimStart_suffix rest).trans (List.suffix_cons ',' rest)).trans htrim
  · exact htrim

theorem parseValue_cases {remaining rest : List Char} {value : String}
    (h : parseValue remaining = .ok (value, rest)) :
    (∃ quoted, remaining = '\'' :: (quoted ++ '\'' :: rest) ∧ '\'' ∉ quoted ∧
        value = String.ofList quoted) ∨
      remaining.head? ≠ some '\'' ∧
        value = String.ofList (Text.trim (remaining.takeWhile (· ≠ ','))) ∧
        rest = remaining.dropWhile (· ≠ ',') := by
  by_cases hquote : remaining.head? = some '\''
  · obtain ⟨text, rfl⟩ := List.head?_eq_some_iff.mp hquote
    cases hsplit : Text.splitFirst '\'' text with
    | none => simp [parseValue, hsplit] at h
    | some parts =>
        simp only [parseValue, hsplit] at h
        cases h
        obtain ⟨rfl, hinner⟩ := Text.of_splitFirst_eq_some hsplit
        exact Or.inl ⟨parts.1, rfl, hinner, rfl⟩
  · rw [parseValue_of_unquoted hquote] at h
    cases h
    exact Or.inr ⟨hquote, rfl, rfl⟩

theorem parseValue_suffix {remaining rest : List Char} {value : String}
    (h : parseValue remaining = .ok (value, rest)) : rest <:+ remaining := by
  rcases parseValue_cases h with ⟨quoted, rfl, _, _⟩ | ⟨_, _, rfl⟩
  · refine ⟨'\'' :: (quoted ++ ['\'']), ?_⟩
    rw [List.cons_append, List.append_assoc]
    rfl
  · exact List.dropWhile_suffix _

theorem parseRound_next {remaining rest : List Char} {result result' : MatchRule}
    (h : parseRound remaining result = .next rest result') :
    ∃ key after value, skipSeparator remaining = key ++ '=' :: after ∧ '=' ∉ key ∧
      parseValue (Text.trimStart after) = .ok (value, rest) ∧
      result' = result.putText (Text.trim key) value := by
  unfold parseRound at h
  dsimp only at h
  split at h
  · cases h
  · split at h
    · cases h
    · next key after hsplit =>
        obtain ⟨htext, hkey⟩ := Text.of_splitFirst_eq_some hsplit
        split at h
        · cases h
        · next value rest' hvalue =>
            split at h
            · cases h
            · next hset =>
                cases h
                exact ⟨key, after, value, htext, hkey, hvalue, putText_of_setKey hset⟩

theorem shorter_of_parseRound {remaining rest : List Char} {result result' : MatchRule}
    (h : parseRound remaining result = .next rest result') :
    ∃ front, front ≠ [] ∧ remaining = front ++ rest := by
  obtain ⟨key, after, value, htext, _, hvalue, _⟩ := parseRound_next h
  obtain ⟨before, hbefore⟩ := skipSeparator_suffix remaining
  obtain ⟨between, hbetween⟩ := (parseValue_suffix hvalue).trans (trimStart_suffix after)
  refine ⟨before ++ (key ++ '=' :: between), by simp, ?_⟩
  rw [← hbefore, htext, ← hbetween]
  simp

theorem utf8Len_of_parseRound {remaining rest : List Char} {result result' : MatchRule}
    (h : parseRound remaining result = .next rest result') : utf8Len rest < utf8Len remaining := by
  obtain ⟨front, hfront, rfl⟩ := shorter_of_parseRound h
  have hpos : utf8Len front ≠ 0 := fun hzero => hfront (String.utf8Len_eq_zero.mp hzero)
  rw [String.utf8Len_append]
  omega

theorem parseItems_succ (fuel : Nat) (remaining : List Char) (result : MatchRule) :
    parseItems (fuel + 1) remaining result =
      match parseRound remaining result with
      | .finished => .ok result
      | .failed e => .error e
      | .next rest result => parseItems fuel rest result := by
  unfold parseRound
  rw [parseItems]
  dsimp only
  split
  · rfl
  · cases Text.splitFirst '=' (skipSeparator remaining) with
    | none => rfl
    | some parts =>
        dsimp only
        cases parseValue (Text.trimStart parts.2) with
        | error e => rfl
        | ok pair =>
            simp only [bind, Except.bind]
            cases result.setKey (Text.trim parts.1) pair.1 with
            | error e => rfl
            | ok result => rfl

/-- With fuel for every byte the loop comes to its end, and gives what the loop over
characters does. -/
theorem parseLoopAt_eq (checks : Bool) {fuel : Nat} {remaining : List Char} (result : MatchRule)
    (hfuel : utf8Len remaining < fuel) :
    parseLoopAt checks fuel remaining result =
      some (.done (parseItems remaining.length remaining result) false) := by
  induction fuel generalizing remaining result with
  | zero => exact absurd hfuel (Nat.not_lt_zero _)
  | succ fuel ih =>
      rw [parseLoopAt]
      split
      · next hempty =>
          rw [List.isEmpty_iff.mp hempty]
          rfl
      · next hne =>
          have hround : parseRoundAt checks remaining result =
              .done (parseRound remaining result) false :=
            quiet_parseRoundAt checks remaining result
          obtain ⟨n, hn⟩ : ∃ n, remaining.length = n + 1 := by
            refine Nat.exists_eq_succ_of_ne_zero (fun hzero => hne ?_)
            rw [List.eq_nil_of_length_eq_zero hzero]
            rfl
          rw [hround, hn, parseItems_succ]
          dsimp only
          cases hnext : parseRound remaining result with
          | finished => rfl
          | failed e => rfl
          | next rest result' =>
              have hshort := utf8Len_of_parseRound hnext
              obtain ⟨front, hfront, rfl⟩ := shorter_of_parseRound hnext
              have hpos := List.length_pos_iff.mpr hfront
              rw [List.length_append] at hn
              dsimp only
              rw [ih result' (by omega), parseItems_fuel result' (Nat.le_refl rest.length)
                (by omega : rest.length ≤ n)]
              rfl

theorem parseAt_eq (checks : Bool) {fuel : Nat} (rule : String)
    (hfuel : utf8Len (Text.trim rule.toList) < fuel) :
    parseAt checks fuel rule = some (.done (parse rule) false) := by
  unfold parseAt
  dsimp only
  split
  · next hempty =>
      rw [parse, List.isEmpty_iff.mp hempty]
      rfl
  · exact parseLoopAt_eq checks _ hfuel

/-! ## What is stored -/

/-- Nothing is stored for arguments beyond 63. -/
def IndicesUpTo63 (rule : MatchRule) : Prop :=
  ∀ i v, rule.args.lookup i = some v ∨ rule.argPaths.lookup i = some v → i ≤ 63

theorem IndicesUpTo63.putText {rule : MatchRule} (h : rule.IndicesUpTo63) (key : List Char)
    (value : String) : (rule.putText key value).IndicesUpTo63 := by
  unfold MatchRule.putText
  split
  · next key _ =>
      intro i v hv
      by_contra hgt
      obtain ⟨hargs, hpaths⟩ := lookup_put_of_gt (UInt8.not_le.mp hgt) rule key value
      rw [hargs, hpaths] at hv
      exact hgt (h i v hv)
  · exact h

theorem IndicesUpTo63.parseItems {fuel : Nat} {remaining : List Char} {result rule : MatchRule}
    (h : result.IndicesUpTo63) (hparse : parseItems fuel remaining result = .ok rule) :
    rule.IndicesUpTo63 := by
  induction fuel generalizing remaining result with
  | zero =>
      cases hparse
      exact h
  | succ fuel ih =>
      rw [parseItems_succ] at hparse
      cases hround : parseRound remaining result with
      | finished =>
          rw [hround] at hparse
          cases hparse
          exact h
      | failed e =>
          rw [hround] at hparse
          cases hparse
      | next rest result' =>
          rw [hround] at hparse
          obtain ⟨key, _, value, _, _, _, hresult⟩ := parseRound_next hround
          rw [hresult] at hparse
          exact ih (h.putText _ _) hparse

/-- The parser comes to an end without a panic on every text, in debug and in release
builds. Every round leaves less of the text, the result is a rule whose arguments are
numbered up to 63 or one of two errors, and it is that of `parse`. -/
theorem parse_never_panics (checks : Bool) (rule : String) :
    (∀ (remaining : List Char) (result : MatchRule), ∃ round,
      Quiet (parseRoundAt checks remaining result) round ∧
        ∀ rest result', round = .next rest result' → utf8Len rest < utf8Len remaining) ∧
    ∃ outcome, (∀ fuel, utf8Len rule.toList < fuel →
        parseAt checks fuel rule = some (.done outcome false)) ∧
      outcome = parse rule ∧
      match outcome with
      | .ok parsed => parsed.IndicesUpTo63
      | .error e => (∃ msg, e = .invalidFormat msg) ∨ ∃ key, e = .invalidArgIndex key := by
  refine ⟨fun remaining result => ⟨_, quiet_parseRoundAt checks remaining result,
    fun _ _ => utf8Len_of_parseRound⟩, parse rule, fun fuel hfuel => ?_, rfl, ?_⟩
  · refine parseAt_eq checks rule (Nat.lt_of_le_of_lt ?_ hfuel)
    exact String.utf8Len_le_of_sublist (trim_sublist rule.toList)
  · cases hparse : parse rule with
    | ok parsed =>
        have hempty : IndicesUpTo63 { ruleString := rule } := by
          rintro i v (h | h)
          · cases h
          · cases h
        exact hempty.parseItems hparse
    | error e =>
        cases e with
        | invalidFormat msg => exact Or.inl ⟨msg, rfl⟩
        | invalidArgIndex key => exact Or.inr ⟨key, rfl⟩

end MatchRule

end KapsuleDbusMux
