import Mathlib.Data.List.Basic
import Mathlib.Data.List.Induction

/-! # Lines of a byte stream that arrives in pieces

A buffered reader takes whole lines from a stream. The stream reaches it in
pieces, one for each read, and a line may begin in one piece and end in another.
`readUntil_fst` and `stream_readUntil` say that the cuts do not matter: the reader
returns the first line of everything that is still to come. The last section is
about UTF-8, where a line terminator never ends in the middle of a character.
-/

namespace Lines

def lineFeed : UInt8 := 10

def carriageReturn : UInt8 := 13

/-- The first line with its line feed, or all of a stream without one, and the rest. -/
def split : List UInt8 → List UInt8 × List UInt8
  | [] => ([], [])
  | b :: rest => if b = lineFeed then ([b], rest) else (b :: (split rest).1, (split rest).2)

theorem split_append (stream : List UInt8) : (split stream).1 ++ (split stream).2 = stream := by
  induction stream with
  | nil => rfl
  | cons b rest ih =>
      unfold split
      split
      · rfl
      · rw [List.cons_append, ih]

theorem split_of_mem {start : List UInt8} (h : lineFeed ∈ start) (rest : List UInt8) :
    split (start ++ rest) = ((split start).1, (split start).2 ++ rest) := by
  induction start with
  | nil => exact absurd h List.not_mem_nil
  | cons b start ih =>
      rw [List.cons_append]
      unfold split
      by_cases hb : b = lineFeed
      · rw [if_pos hb, if_pos hb]
      · have hmem : lineFeed ∈ start := by
          rcases List.mem_cons.mp h with heq | hmem
          · exact absurd heq.symm hb
          · exact hmem
        rw [if_neg hb, if_neg hb, ih hmem]

theorem split_of_not_mem {start : List UInt8} (h : lineFeed ∉ start) (rest : List UInt8) :
    split (start ++ rest) = (start ++ (split rest).1, (split rest).2) := by
  induction start with
  | nil => rfl
  | cons b start ih =>
      rw [List.mem_cons, not_or] at h
      rw [List.cons_append, split, if_neg (Ne.symm h.1), ih h.2]
      rfl

theorem split_singleton {start : List UInt8} (h : lineFeed ∉ start) (rest : List UInt8) :
    split (start ++ lineFeed :: rest) = (start ++ [lineFeed], rest) := by
  rw [split_of_not_mem h]
  simp [split]

theorem split_all {start : List UInt8} (h : lineFeed ∉ start) : split start = (start, []) := by
  have hsplit := split_of_not_mem h []
  simpa [split] using hsplit

theorem split_cases (stream : List UInt8) :
    (∃ text rest, lineFeed ∉ text ∧ stream = text ++ lineFeed :: rest ∧
      split stream = (text ++ [lineFeed], rest)) ∨
    (lineFeed ∉ stream ∧ split stream = (stream, [])) := by
  induction stream with
  | nil => exact Or.inr ⟨List.not_mem_nil, rfl⟩
  | cons b rest ih =>
      by_cases hb : b = lineFeed
      · refine Or.inl ⟨[], rest, List.not_mem_nil, by rw [hb]; rfl, ?_⟩
        unfold split
        rw [if_pos hb, hb]
        rfl
      · rcases ih with ⟨text, after, hnot, heq, hsplit⟩ | ⟨hnot, hsplit⟩
        · have hnot' : lineFeed ∉ b :: text := by
            rw [List.mem_cons, not_or]
            exact ⟨Ne.symm hb, hnot⟩
          exact Or.inl ⟨b :: text, after, hnot', by rw [heq]; rfl,
            by rw [heq, ← List.cons_append, split_singleton hnot']⟩
        · have hnot' : lineFeed ∉ b :: rest := by
            rw [List.mem_cons, not_or]
            exact ⟨Ne.symm hb, hnot⟩
          exact Or.inr ⟨hnot', split_all hnot'⟩

/-- One line feed at the end, and then one carriage return, are not part of the text. -/
def dropEnd (b : UInt8) (line : List UInt8) : List UInt8 :=
  if line.getLast? = some b then line.dropLast else line

def strip (line : List UInt8) : List UInt8 := dropEnd carriageReturn (dropEnd lineFeed line)

theorem dropEnd_cases (b : UInt8) (line : List UInt8) :
    line = dropEnd b line ++ [b] ∨ line = dropEnd b line := by
  unfold dropEnd
  split
  · next h => exact Or.inl (List.dropLast_append_getLast? b h).symm
  · exact Or.inr rfl

/-! ## Buffered reading -/

/-- What has been read and not used yet, and what each read to come will bring. -/
structure BufReader where
  buffer : List UInt8
  arriving : List (List UInt8)
  deriving DecidableEq, Repr

namespace BufReader

def stream (reader : BufReader) : List UInt8 := reader.buffer ++ reader.arriving.flatten

end BufReader

/-- Take bytes up to the next line feed. Only when the buffer has been used up it is
filled again, by the next read. -/
def readUntil : List UInt8 → List (List UInt8) → List UInt8 × BufReader
  | buffer, [] => ((split buffer).1, ⟨(split buffer).2, []⟩)
  | buffer, piece :: arriving =>
      if lineFeed ∈ buffer then ((split buffer).1, ⟨(split buffer).2, piece :: arriving⟩)
      else
        let (line, reader) := readUntil piece arriving
        (buffer ++ line, reader)

theorem readUntil_split (buffer : List UInt8) (arriving : List (List UInt8)) :
    ((readUntil buffer arriving).1, (readUntil buffer arriving).2.stream) =
      split (buffer ++ arriving.flatten) := by
  induction arriving generalizing buffer with
  | nil => simp [readUntil, BufReader.stream]
  | cons piece arriving ih =>
      unfold readUntil
      by_cases h : lineFeed ∈ buffer
      · rw [if_pos h, split_of_mem h]
        rfl
      · rw [if_neg h, split_of_not_mem h, List.flatten_cons, ← ih piece]

theorem readUntil_fst (buffer : List UInt8) (arriving : List (List UInt8)) :
    (readUntil buffer arriving).1 = (split (buffer ++ arriving.flatten)).1 :=
  congrArg Prod.fst (readUntil_split buffer arriving)

theorem stream_readUntil (buffer : List UInt8) (arriving : List (List UInt8)) :
    (readUntil buffer arriving).2.stream = (split (buffer ++ arriving.flatten)).2 :=
  congrArg Prod.snd (readUntil_split buffer arriving)

/-! ## UTF-8 -/

def isUtf8 (bytes : List UInt8) : Bool := bytes.toByteArray.validateUTF8

theorem isUtf8_iff (bytes : List UInt8) :
    isUtf8 bytes = true ↔ ∃ chars : List Char, bytes = chars.flatMap String.utf8EncodeChar := by
  unfold isUtf8
  rw [ByteArray.validateUTF8_eq_true_iff]
  constructor
  · rintro ⟨chars, h⟩
    exact ⟨chars, by simpa [List.utf8Encode] using congrArg (fun b => b.data.toList) h⟩
  · rintro ⟨chars, h⟩
    exact ⟨chars, by rw [h]; rfl⟩

/-- A byte that starts a character and comes last is a character of its own. -/
theorem isUtf8_concat {b : UInt8} {c : Char} (hb : String.utf8EncodeChar c = [b])
    (bytes : List UInt8) : isUtf8 (bytes ++ [b]) = isUtf8 bytes := by
  have hfirst : b.IsUTF8FirstByte := by
    have hlt : 0 < (String.utf8EncodeChar c).length := by rw [hb]; exact Nat.one_pos
    have hzero := @UInt8.isUTF8FirstByte_getElem_utf8EncodeChar c 0 hlt
    simpa [hb] using hzero
  rw [Bool.eq_iff_iff, isUtf8_iff, isUtf8_iff]
  constructor
  · rintro ⟨chars, h⟩
    induction chars using List.reverseRecOn with
    | nil => simp at h
    | append_singleton chars last _ =>
        rw [List.flatMap_append, List.flatMap_singleton] at h
        -- the last byte of the last character is a first byte, so it is the only one
        have hlast := (String.utf8EncodeChar last).eq_nil_or_concat
        rcases hlast.resolve_left String.utf8EncodeChar_ne_nil with ⟨init, x, hx⟩
        rw [List.concat_eq_append] at hx
        rw [hx, ← List.append_assoc] at h
        obtain ⟨hbytes, hbx⟩ := List.append_inj' h rfl
        cases hbx
        have hlt : init.length < (String.utf8EncodeChar last).length := by rw [hx]; simp
        have hindex := @UInt8.isUTF8FirstByte_getElem_utf8EncodeChar last init.length hlt
        have hzero : init = [] := by
          rw [← List.length_eq_zero_iff]
          exact hindex.mp (by simpa [hx] using hfirst)
        exact ⟨chars, by rw [hbytes, hzero, List.append_nil]⟩
  · rintro ⟨chars, h⟩
    exact ⟨chars ++ [c], by rw [List.flatMap_append, ← h, List.flatMap_singleton, hb]⟩

theorem isUtf8_strip (line : List UInt8) : isUtf8 (strip line) = isUtf8 line := by
  have hdrop : ∀ {b : UInt8} {c : Char}, String.utf8EncodeChar c = [b] → ∀ l : List UInt8,
      isUtf8 (dropEnd b l) = isUtf8 l := by
    intro b c hb l
    rcases dropEnd_cases b l with h | h
    · conv_rhs => rw [h, isUtf8_concat hb]
    · rw [← h]
  unfold strip
  rw [hdrop (b := carriageReturn) (c := '\r') rfl, hdrop (b := lineFeed) (c := '\n') rfl]

end Lines
