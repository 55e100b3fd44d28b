import KapsuleDbusMux.Auth.SaslAuth
import Mathlib.Data.Nat.Digits.Defs

/-! # User ids on the wire

`encode_uid` and `parse_hex_uid` of `auth.rs`. A user id is sent as the hexadecimal
form of its decimal digits. The parser is told apart from what it should accept: pairs
of hexadecimal digits of either case for bytes that spell a number below 2³² in ASCII
digits, with an optional plus sign.
-/

namespace KapsuleDbusMux

open Lines (isUtf8)

def hexDigit (n : UInt8) : UInt8 := if n < 10 then 48 + n else 87 + n

def hexEncode (bytes : List UInt8) : List UInt8 :=
  bytes.flatMap (fun b => [hexDigit (b / 16), hexDigit (b % 16)])

def encodeUid (uid : UInt32) : List UInt8 := hexEncode (utf8Bytes (toString uid.toNat))

/-! ## Hexadecimal text -/

def HexDigit (b : UInt8) (n : Nat) : Prop :=
  n < 10 ∧ b.toNat = 48 + n ∨ 10 ≤ n ∧ n < 16 ∧ (b.toNat = 87 + n ∨ b.toNat = 55 + n)

inductive HexText : List UInt8 → List UInt8 → Prop where
  | nil : HexText [] []
  | cons {high low b : UInt8} {h l : Nat} {text bytes : List UInt8} (hhigh : HexDigit high h)
      (hlow : HexDigit low l) (hb : b.toNat = 16 * h + l) (rest : HexText text bytes) :
      HexText (high :: low :: text) (b :: bytes)

theorem hexValue_iff {b v : UInt8} : hexValue b = some v ↔ HexDigit b v.toNat := by
  have hv := v.toNat_lt
  have hb := b.toNat_lt
  unfold hexValue HexDigit
  simp only [UInt8.le_iff_toNat_le, UInt8.reduceToNat]
  split
  · next h =>
      rw [Option.some.injEq, ← UInt8.toNat_inj, UInt8.toNat_sub]
      simp only [UInt8.reduceToNat]
      omega
  · split
    · next h =>
        rw [Option.some.injEq, ← UInt8.toNat_inj, UInt8.toNat_sub]
        simp only [UInt8.reduceToNat]
        omega
    · split
      · next h =>
          rw [Option.some.injEq, ← UInt8.toNat_inj, UInt8.toNat_sub]
          simp only [UInt8.reduceToNat]
          omega
      · exact iff_of_false nofun (by omega)

theorem HexDigit.lt {b : UInt8} {n : Nat} (h : HexDigit b n) : n < 16 := by
  unfold HexDigit at h
  omega

theorem hexDecode_cons_cons {high low : UInt8} {text decoded : List UInt8} :
    hexDecode (high :: low :: text) = some decoded ↔ ∃ h l bytes, hexValue high = some h ∧
      hexValue low = some l ∧ hexDecode text = some bytes ∧ decoded = (16 * h + l) :: bytes := by
  rw [hexDecode]
  constructor
  · intro hsome
    split at hsome
    · next h l bytes hhigh hlow hrest =>
        exact ⟨h, l, bytes, hhigh, hlow, hrest, (Option.some.inj hsome).symm⟩
    · cases hsome
  · rintro ⟨h, l, bytes, hhigh, hlow, hrest, rfl⟩
    rw [hhigh, hlow, hrest]

theorem toNat_hexPair {h l : UInt8} (hh : h.toNat < 16) (hl : l.toNat < 16) :
    (16 * h + l).toNat = 16 * h.toNat + l.toNat := by
  rw [UInt8.toNat_add, UInt8.toNat_mul]
  simp only [UInt8.reduceToNat]
  omega

/-- The decoder accepts what is made of pairs of digits, and nothing else. -/
theorem hexDecode_iff {text bytes : List UInt8} :
    hexDecode text = some bytes ↔ HexText text bytes := by
  constructor
  · intro h
    match text with
    | [] =>
        cases h
        exact .nil
    | [_] => cases h
    | high :: low :: text =>
        obtain ⟨h, l, rest, hhigh, hlow, hrest, rfl⟩ := hexDecode_cons_cons.mp h
        have hdigit := hexValue_iff.mp hhigh
        have hdigit' := hexValue_iff.mp hlow
        exact .cons hdigit hdigit' (toNat_hexPair hdigit.lt hdigit'.lt) (hexDecode_iff.mp hrest)
  · intro h
    induction h with
    | nil => rfl
    | @cons high low b h l text bytes hhigh hlow hb rest ih =>
        have hnat : ∀ {n : Nat}, n < 16 → (UInt8.ofNat n).toNat = n := by
          intro n hn
          rw [UInt8.toNat_ofNat']
          omega
        have hh := hnat hhigh.lt
        have hl := hnat hlow.lt
        refine hexDecode_cons_cons.mpr ⟨UInt8.ofNat h, UInt8.ofNat l, bytes,
          hexValue_iff.mpr (by rw [hh]; exact hhigh), hexValue_iff.mpr (by rw [hl]; exact hlow),
          ih, ?_⟩
        rw [List.cons.injEq, and_iff_left rfl, ← UInt8.toNat_inj, hb,
          toNat_hexPair (by rw [hh]; exact hhigh.lt) (by rw [hl]; exact hlow.lt), hh, hl]
termination_by text.length

theorem hexDigit_spec {n : UInt8} (hn : n.toNat < 16) : HexDigit (hexDigit n) n.toNat := by
  unfold hexDigit HexDigit
  split
  · next h =>
      have hlt : n.toNat < 10 := UInt8.lt_iff_toNat_lt.mp h
      rw [UInt8.toNat_add]
      simp only [UInt8.reduceToNat]
      omega
  · next h =>
      rw [UInt8.lt_iff_toNat_lt, Nat.not_lt] at h
      have hge : 10 ≤ n.toNat := h
      rw [UInt8.toNat_add]
      simp only [UInt8.reduceToNat]
      omega

theorem hexText_hexEncode (bytes : List UInt8) : HexText (hexEncode bytes) bytes := by
  induction bytes with
  | nil => exact .nil
  | cons b bytes ih =>
      have hb := b.toNat_lt
      have hhigh : (b / 16).toNat = b.toNat / 16 := UInt8.toNat_div b 16
      have hlow : (b % 16).toNat = b.toNat % 16 := UInt8.toNat_mod b 16
      have hdigit := hexDigit_spec (n := b / 16) (by omega)
      have hdigit' := hexDigit_spec (n := b % 16) (by omega)
      exact .cons hdigit hdigit' (by omega) ih

/-! ## Decimal text -/

/-- The bytes are an optional plus sign and one or more ASCII digits that denote the
number. -/
def DecimalText (bytes : List UInt8) (n : Nat) : Prop :=
  ∃ digits, (bytes = digits ∨ bytes = 43 :: digits) ∧ digits ≠ [] ∧
    (∀ d ∈ digits, 48 ≤ d.toNat ∧ d.toNat ≤ 57) ∧
    Nat.ofDigits 10 (digits.reverse.map (fun d => d.toNat - 48)) = n

theorem decimalValue_eq_ofDigits (digits : List UInt8) :
    decimalValue digits = Nat.ofDigits 10 (digits.reverse.map (fun d => d.toNat - 48)) := by
  induction digits using List.reverseRecOn with
  | nil => rfl
  | append_singleton digits d ih =>
      have hstep : decimalValue (digits ++ [d]) = 10 * decimalValue digits + (d.toNat - 48) := by
        unfold decimalValue
        rw [List.foldl_append]
        rfl
      rw [hstep, ih, List.reverse_append, List.reverse_singleton, List.singleton_append,
        List.map_cons, Nat.ofDigits_cons, Nat.add_comm]

theorem all_isDigit_iff {digits : List UInt8} :
    digits.all isDigit = true ↔ ∀ d ∈ digits, 48 ≤ d.toNat ∧ d.toNat ≤ 57 := by
  rw [List.all_eq_true]
  refine forall₂_congr (fun d _ => ?_)
  rw [isDigit, decide_eq_true_iff, UInt8.le_iff_toNat_le, UInt8.le_iff_toNat_le]
  rfl

theorem parseU32_iff {bytes : List UInt8} {v : UInt32} :
    parseU32 bytes = some v ↔ DecimalText bytes v.toNat := by
  have hvalue : ∀ digits : List UInt8,
      (if digits ≠ [] ∧ digits.all isDigit ∧ decimalValue digits < 2 ^ 32 then
        some (UInt32.ofNat (decimalValue digits)) else none) = some v ↔
      digits ≠ [] ∧ (∀ d ∈ digits, 48 ≤ d.toNat ∧ d.toNat ≤ 57) ∧
        Nat.ofDigits 10 (digits.reverse.map (fun d => d.toNat - 48)) = v.toNat := by
    intro digits
    have hv := v.toNat_lt
    rw [← all_isDigit_iff, ← decimalValue_eq_ofDigits, Option.ite_none_right_eq_some,
      Option.some.injEq, ← UInt32.toNat_inj, UInt32.toNat_ofNat']
    constructor
    · rintro ⟨⟨hne, hall, hlt⟩, heq⟩
      exact ⟨hne, hall, by omega⟩
    · rintro ⟨hne, hall, heq⟩
      exact ⟨⟨hne, hall, by omega⟩, by omega⟩
  unfold parseU32 DecimalText
  by_cases hplus : bytes.head? = some 43
  · obtain ⟨digits, rfl⟩ : ∃ digits, bytes = 43 :: digits := List.head?_eq_some_iff.mp hplus
    rw [if_pos hplus, List.tail_cons, hvalue]
    constructor
    · exact fun h => ⟨digits, Or.inr rfl, h⟩
    · rintro ⟨other, hother | hother, hne, hdigits, hnumber⟩
      · -- a plus sign is not a digit
        have hsign := hdigits 43 (by rw [← hother]; exact List.mem_cons_self)
        exact absurd hsign.1 (by decide)
      · cases hother
        exact ⟨hne, hdigits, hnumber⟩
  · rw [if_neg hplus, hvalue]
    constructor
    · exact fun h => ⟨bytes, Or.inl rfl, h⟩
    · rintro ⟨other, rfl | rfl, h⟩
      · exact h
      · exact absurd rfl hplus

/-! ## Text of a user id -/

theorem utf8EncodeChar_of_ascii {c : Char} (hc : c.toNat < 128) :
    String.utf8EncodeChar c = [UInt8.ofNat c.toNat] := by
  have hsize : c.utf8Size = 1 := Char.utf8Size_eq_one_iff.mpr (UInt32.le_iff_toNat_le.mpr (by
    have hval : c.val.toNat < 128 := hc
    have hbound : (127 : UInt32).toNat = 127 := rfl
    omega))
  rw [String.utf8EncodeChar_eq_singleton hsize]
  rfl

theorem isUtf8_of_ascii {bytes : List UInt8} (h : ∀ b ∈ bytes, b.toNat < 128) :
    isUtf8 bytes = true := by
  rw [Lines.isUtf8_iff]
  refine ⟨bytes.map (fun b => Char.ofNat b.toNat), ?_⟩
  induction bytes with
  | nil => rfl
  | cons b bytes ih =>
      have hb := h b List.mem_cons_self
      have hchar : (Char.ofNat b.toNat).toNat = b.toNat := by
        rw [Char.ofNat, dif_pos (Or.inl (by omega))]
        rfl
      rw [List.map_cons, List.flatMap_cons, utf8EncodeChar_of_ascii (by rw [hchar]; exact hb),
        hchar, ← ih (fun b' hb' => h b' (List.mem_cons_of_mem b hb')), UInt8.ofNat_toNat]
      rfl

theorem DecimalText.ascii {bytes : List UInt8} {n : Nat} (h : DecimalText bytes n) :
    ∀ b ∈ bytes, b.toNat < 128 := by
  obtain ⟨digits, hbytes, _, hdigits, _⟩ := h
  intro b hb
  have hdigit : ∀ d ∈ digits, d.toNat < 128 := by
    intro d hd
    have hrange := hdigits d hd
    omega
  rcases hbytes with rfl | rfl
  · exact hdigit b hb
  · rcases List.mem_cons.mp hb with rfl | hb
    · decide
    · exact hdigit b hb

theorem decimalText_toString (n : Nat) : DecimalText (utf8Bytes (toString n)) n := by
  have hchars : ∀ c ∈ Nat.toDigits 10 n, 48 ≤ c.toNat ∧ c.toNat ≤ 57 := by
    intro c hc
    have hdigit := Nat.isDigit_of_mem_toDigits (by decide) (by decide) hc
    simpa [Char.isDigit, UInt32.le_iff_toNat_le] using hdigit
  have hbytes : utf8Bytes (toString n) =
      (Nat.toDigits 10 n).map (fun c => UInt8.ofNat c.toNat) := by
    have hflat : utf8Bytes (toString n) =
        (Nat.toDigits 10 n).flatMap String.utf8EncodeChar := by
      rw [Nat.toString_eq_ofList_toDigits, utf8Bytes, String.toUTF8, String.toByteArray_ofList,
        List.utf8Encode, List.data_toByteArray]
    rw [hflat, List.map_eq_flatMap]
    exact List.flatMap_congr
      (fun c hc => utf8EncodeChar_of_ascii (Nat.lt_of_le_of_lt (hchars c hc).2 (by decide)))
  have hbyte : ∀ c ∈ Nat.toDigits 10 n, (UInt8.ofNat c.toNat).toNat = c.toNat := by
    intro c hc
    have hrange := hchars c hc
    rw [UInt8.toNat_ofNat']
    omega
  have hvalue : decimalValue ((Nat.toDigits 10 n).map (fun c => UInt8.ofNat c.toNat)) = n := by
    conv_rhs => rw [← Nat.ofDigitChars_ten_toDigits (n := n), Nat.ofDigitChars_eq_foldl]
    rw [decimalValue, List.foldl_map]
    refine List.foldl_ext _ _ _ (fun acc c hc => ?_)
    rw [hbyte c hc]
    rfl
  refine ⟨_, Or.inl hbytes, ?_, ?_, ?_⟩
  · rw [Ne, List.map_eq_nil_iff]
    exact Nat.toDigits_ne_nil
  · intro d hd
    obtain ⟨c, hc, rfl⟩ := List.mem_map.mp hd
    rw [hbyte c hc]
    exact hchars c hc
  · rw [← decimalValue_eq_ofDigits, hvalue]

/-! ## The codec -/

theorem parseHexUid_iff {text : List UInt8} {v : UInt32} :
    parseHexUid text = .ok v ↔ ∃ bytes, HexText text bytes ∧ DecimalText bytes v.toNat := by
  unfold parseHexUid
  constructor
  · intro hok
    split at hok
    · cases hok
    · next bytes hdecoded =>
        split at hok
        · split at hok
          · cases hok
          · next uid hparsed =>
              cases hok
              exact ⟨bytes, hexDecode_iff.mp hdecoded, parseU32_iff.mp hparsed⟩
        · cases hok
  · rintro ⟨bytes, htext, hdecimal⟩
    rw [hexDecode_iff.mpr htext]
    simp only
    rw [if_pos (isUtf8_of_ascii hdecimal.ascii), parseU32_iff.mpr hdecimal]

theorem parseHexUid_encodeUid (v : UInt32) : parseHexUid (encodeUid v) = .ok v :=
  parseHexUid_iff.mpr ⟨_, hexText_hexEncode _, decimalText_toString v.toNat⟩

theorem HexText.even_length {text bytes : List UInt8} (h : HexText text bytes) :
    text.length = 2 * bytes.length := by
  induction h with
  | nil => rfl
  | cons _ _ _ _ ih =>
      rw [List.length_cons, List.length_cons, List.length_cons, ih]
      omega

/-- The encoding comes back, tells user ids apart, and a text is accepted exactly when
it is an even number of hexadecimal digits for an optional plus sign and ASCII digits
of a number below 2³². -/
theorem uid_codec_exact :
    (∀ v, parseHexUid (encodeUid v) = .ok v) ∧ Function.Injective encodeUid ∧
    (∀ text v, parseHexUid text = .ok v ↔
      ∃ bytes, text.length = 2 * bytes.length ∧ HexText text bytes ∧
        DecimalText bytes v.toNat) ∧
    (∀ text, (¬∃ bytes n, HexText text bytes ∧ DecimalText bytes n ∧ n < 2 ^ 32) →
      ∃ e, parseHexUid text = .error e) := by
  refine ⟨parseHexUid_encodeUid, ?_, ?_, ?_⟩
  · intro v w hsame
    have hv := parseHexUid_encodeUid v
    rw [hsame, parseHexUid_encodeUid w] at hv
    exact (Except.ok.inj hv).symm
  · intro text v
    rw [parseHexUid_iff]
    exact exists_congr (fun bytes => ⟨fun h => ⟨h.1.even_length, h⟩, fun h => h.2⟩)
  · intro text hnone
    cases hparsed : parseHexUid text with
    | error e => exact ⟨e, rfl⟩
    | ok v =>
        obtain ⟨bytes, htext, hdecimal⟩ := parseHexUid_iff.mp hparsed
        exact absurd ⟨bytes, v.toNat, htext, hdecimal, v.toNat_lt⟩ hnone

end KapsuleDbusMux
