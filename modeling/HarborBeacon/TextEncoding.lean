import Mathlib.Data.List.GetD
import Mathlib.Data.List.Nodup
import Mathlib.Tactic.IntervalCases

/-!
Encodings of bytes and texts by characters: hexadecimal digits, the URL-safe Base64 form
without padding, and the string literals of JSON. Each of them can be read back in one
way only.
-/

namespace HarborBeacon.TextEncoding

def utf8 (s : String) : List UInt8 :=
  s.toUTF8.data.toList

theorem utf8_injective : Function.Injective utf8 := by
  intro s t h
  apply String.toByteArray_inj.mp
  exact ByteArray.ext (Array.toList_inj.mp h)

theorem utf8_ofList (chars : List Char) :
    utf8 (String.ofList chars) = chars.flatMap String.utf8EncodeChar := by
  rw [utf8, String.toUTF8_eq_toByteArray, String.toByteArray_ofList, List.utf8Encode,
    List.data_toByteArray]

/-- `str::from_utf8`. -/
def decodeUtf8 (bytes : List UInt8) : Option String :=
  String.fromUTF8? (ByteArray.mk bytes.toArray)

theorem mk_utf8 (text : String) : ByteArray.mk (utf8 text).toArray = text.toByteArray := by
  rw [utf8, Array.toArray_toList, String.toUTF8_eq_toByteArray]

theorem decodeUtf8_utf8 (text : String) : decodeUtf8 (utf8 text) = some text := by
  rw [decodeUtf8, mk_utf8, String.fromUTF8?, dif_pos text.isValidUTF8]
  rfl

theorem toNat_of_mem_utf8EncodeChar {c : Char} {byte : UInt8}
    (hmem : byte ∈ String.utf8EncodeChar c) (hascii : byte.toNat < 128) :
    c.toNat = byte.toNat := by
  change c.val.toNat = byte.toNat
  -- a byte of a longer encoding is at least 128
  unfold String.utf8EncodeChar at hmem
  simp only at hmem
  split_ifs at hmem with hone htwo hthree
  · rw [List.mem_singleton.mp hmem, UInt8.toNat_ofNat']
    omega
  · simp only [List.mem_cons, List.not_mem_nil, or_false] at hmem
    rcases hmem with rfl | rfl <;> rw [UInt8.toNat_ofNat'] at hascii <;> omega
  · simp only [List.mem_cons, List.not_mem_nil, or_false] at hmem
    rcases hmem with rfl | rfl | rfl <;> rw [UInt8.toNat_ofNat'] at hascii <;> omega
  · simp only [List.mem_cons, List.not_mem_nil, or_false] at hmem
    rcases hmem with rfl | rfl | rfl | rfl <;> rw [UInt8.toNat_ofNat'] at hascii <;> omega

theorem mem_of_mem_utf8 {chars : List Char} {byte : UInt8}
    (hmem : byte ∈ utf8 (String.ofList chars)) (hascii : byte.toNat < 128) :
    ∃ c ∈ chars, c.toNat = byte.toNat := by
  rw [utf8_ofList] at hmem
  obtain ⟨c, hc, hbyte⟩ := List.mem_flatMap.mp hmem
  exact ⟨c, hc, toNat_of_mem_utf8EncodeChar hbyte hascii⟩

def digit (alphabet : List Char) (n : Nat) : Char :=
  alphabet.getD n 'A'

variable {rest rest' : List Char} {alphabet : List Char} {m n : Nat}

theorem digit_inj (hnodup : alphabet.Nodup) (hm : m < alphabet.length) (hn : n < alphabet.length)
    (h : digit alphabet m = digit alphabet n) : m = n := by
  rw [digit, digit, List.getD_eq_getElem _ _ hm, List.getD_eq_getElem _ _ hn] at h
  exact hnodup.getElem_inj_iff.mp h

theorem digit_mem (hn : n < alphabet.length) :
    digit alphabet n ∈ alphabet := by
  rw [digit, List.getD_eq_getElem _ _ hn]
  exact List.getElem_mem hn

def hexAlphabet : List Char :=
  "0123456789abcdef".toList

def hexDigit (n : Nat) : Char :=
  digit hexAlphabet n

def hex (bytes : List UInt8) : List Char :=
  bytes.flatMap fun byte => [hexDigit (byte.toNat / 16), hexDigit (byte.toNat % 16)]

theorem hexDigit_inj (hm : m < 16) (hn : n < 16) (h : hexDigit m = hexDigit n) :
    m = n := by
  have hnodup : hexAlphabet.Nodup := by decide
  exact digit_inj hnodup hm hn h

theorem hex_injective : Function.Injective hex := by
  intro bytes bytes' h
  induction bytes generalizing bytes' with
  | nil =>
      cases bytes' with
      | nil => rfl
      | cons byte' rest' => cases h
  | cons byte rest ih =>
      cases bytes' with
      | nil => cases h
      | cons byte' rest' =>
          simp only [hex, List.flatMap_cons, List.cons_append, List.nil_append,
            List.cons.injEq] at h
          obtain ⟨hhigh, hlow, hrest⟩ := h
          have hbyte := byte.toNat_lt
          have hbyte' := byte'.toNat_lt
          have hdiv := hexDigit_inj (by omega) (by omega) hhigh
          have hmod := hexDigit_inj (by omega) (by omega) hlow
          have hsame : byte = byte' := UInt8.toNat_inj.mp (by omega)
          rw [hsame, ih hrest]

def base64Alphabet : List Char :=
  "ABCDEFGHIJKLMNOPQRSTUVWXYZabcdefghijklmnopqrstuvwxyz0123456789-_".toList

def sextet (n : Nat) : Char :=
  digit base64Alphabet n

def base64Url : List UInt8 → List Char
  | a :: b :: c :: rest =>
      let n := a.toNat * 65536 + b.toNat * 256 + c.toNat
      sextet (n / 262144) :: sextet (n / 4096 % 64) :: sextet (n / 64 % 64) ::
        sextet (n % 64) :: base64Url rest
  | [a, b] =>
      let n := a.toNat * 1024 + b.toNat * 4
      [sextet (n / 4096), sextet (n / 64 % 64), sextet (n % 64)]
  | [a] =>
      let n := a.toNat * 16
      [sextet (n / 64), sextet (n % 64)]
  | [] => []

theorem sextet_mem (hn : n < 64) : sextet n ∈ base64Alphabet :=
  digit_mem hn

def readSextet (c : Char) : Option Nat :=
  if c ∈ base64Alphabet then some (base64Alphabet.idxOf c) else none

/-- `URL_SAFE_NO_PAD.decode`, which accepts no padding and no spare bits. -/
def decodeBase64Url : List Char → Option (List UInt8)
  | c₁ :: c₂ :: c₃ :: c₄ :: rest => do
      let n := (← readSextet c₁) * 262144 + (← readSextet c₂) * 4096 + (← readSextet c₃) * 64 +
        (← readSextet c₄)
      let bytes ← decodeBase64Url rest
      some (UInt8.ofNat (n / 65536) :: UInt8.ofNat (n / 256) :: UInt8.ofNat n :: bytes)
  | [c₁, c₂, c₃] => do
      let n := (← readSextet c₁) * 4096 + (← readSextet c₂) * 64 + (← readSextet c₃)
      if n % 4 = 0 then some [UInt8.ofNat (n / 1024), UInt8.ofNat (n / 4)] else none
  | [c₁, c₂] => do
      let n := (← readSextet c₁) * 64 + (← readSextet c₂)
      if n % 16 = 0 then some [UInt8.ofNat (n / 16)] else none
  | [_] => none
  | [] => some []

theorem readSextet_sextet (hn : n < 64) : readSextet (sextet n) = some n := by
  have hn' : n < base64Alphabet.length := hn
  have hnodup : base64Alphabet.Nodup := by decide
  rw [readSextet, if_pos (sextet_mem hn), sextet, digit, List.getD_eq_getElem _ _ hn',
    hnodup.idxOf_getElem _ hn']

theorem ofNat_eq_of_mod {byte : UInt8} (h : n % 256 = byte.toNat) : UInt8.ofNat n = byte :=
  UInt8.toNat_inj.mp (by rw [UInt8.toNat_ofNat', h])

theorem decodeBase64Url_base64Url (bytes : List UInt8) :
    decodeBase64Url (base64Url bytes) = some bytes := by
  induction bytes using base64Url.induct with
  | case1 a b c rest ih =>
      have ha := a.toNat_lt
      have hb := b.toNat_lt
      have hc := c.toNat_lt
      simp only [base64Url, decodeBase64Url, ih, Option.bind_eq_bind, Option.bind_some,
        readSextet_sextet (Nat.mod_lt _ (by decide : 0 < 64))]
      rw [readSextet_sextet (by omega)]
      simp only [Option.bind_some, Option.some.injEq, List.cons.injEq, and_true]
      exact ⟨ofNat_eq_of_mod (by omega), ofNat_eq_of_mod (by omega), ofNat_eq_of_mod (by omega)⟩
  | case2 a b =>
      have ha := a.toNat_lt
      have hb := b.toNat_lt
      simp only [base64Url, decodeBase64Url, Option.bind_eq_bind, Option.bind_some,
        readSextet_sextet (Nat.mod_lt _ (by decide : 0 < 64))]
      rw [readSextet_sextet (by omega), Option.bind_some, if_pos (by omega)]
      simp only [Option.some.injEq, List.cons.injEq, and_true]
      exact ⟨ofNat_eq_of_mod (by omega), ofNat_eq_of_mod (by omega)⟩
  | case3 a =>
      have ha := a.toNat_lt
      simp only [base64Url, decodeBase64Url, Option.bind_eq_bind, Option.bind_some,
        readSextet_sextet (Nat.mod_lt _ (by decide : 0 < 64))]
      rw [readSextet_sextet (by omega), Option.bind_some, if_pos (by omega)]
      simp only [Option.some.injEq, List.cons.injEq, and_true]
      exact ofNat_eq_of_mod (by omega)
  | case4 => rfl

theorem base64Url_injective : Function.Injective base64Url := by
  intro bytes bytes' h
  have hdecoded := decodeBase64Url_base64Url bytes
  rw [h, decodeBase64Url_base64Url, Option.some.injEq] at hdecoded
  exact hdecoded.symm

theorem mem_base64Alphabet {bytes : List UInt8} {c : Char} (hc : c ∈ base64Url bytes) :
    c ∈ base64Alphabet := by
  induction bytes using base64Url.induct with
  | case1 a b d rest ih =>
      have ha := a.toNat_lt
      have hb := b.toNat_lt
      have hd := d.toNat_lt
      simp only [base64Url, List.mem_cons] at hc
      rcases hc with rfl | rfl | rfl | rfl | hc
      on_goal 5 => exact ih hc
      all_goals exact sextet_mem (by omega)
  | case2 a b =>
      have ha := a.toNat_lt
      have hb := b.toNat_lt
      simp only [base64Url, List.mem_cons, List.not_mem_nil, or_false] at hc
      rcases hc with rfl | rfl | rfl
      all_goals exact sextet_mem (by omega)
  | case3 a =>
      have ha := a.toNat_lt
      simp only [base64Url, List.mem_cons, List.not_mem_nil, or_false] at hc
      rcases hc with rfl | rfl
      all_goals exact sextet_mem (by omega)
  | case4 => cases hc

def quote : Char := Char.ofNat 34

def backslash : Char := Char.ofNat 92

/-- What follows the backslash of a control character. -/
def controlEscape : Nat → List Char
  | 8 => ['b']
  | 9 => ['t']
  | 10 => ['n']
  | 12 => ['f']
  | 13 => ['r']
  | n => ['u', '0', '0', hexDigit (n / 16), hexDigit (n % 16)]

def escapeChar (c : Char) : List Char :=
  if c = quote ∨ c = backslash then [backslash, c]
  else if c.toNat < 32 then backslash :: controlEscape c.toNat
  else [c]

def jsonString (s : String) : List Char :=
  quote :: s.toList.flatMap escapeChar ++ [quote]

def hexValue (c : Char) : Nat :=
  hexAlphabet.idxOf c

/-- Read what follows a backslash. -/
def unescape : List Char → Option (Nat × List Char)
  | 'b' :: rest => some (8, rest)
  | 't' :: rest => some (9, rest)
  | 'n' :: rest => some (10, rest)
  | 'f' :: rest => some (12, rest)
  | 'r' :: rest => some (13, rest)
  | 'u' :: '0' :: '0' :: high :: low :: rest => some (hexValue high * 16 + hexValue low, rest)
  | c :: rest => some (c.toNat, rest)
  | [] => none

theorem unescape_controlEscape {n : Nat} (hn : n < 32) (rest : List Char) :
    unescape (controlEscape n ++ rest) = some (n, rest) := by
  interval_cases n <;> rfl

theorem escapeChar_cases (c : Char) :
    (∃ tail, escapeChar c = backslash :: tail ∧
      ∀ rest, unescape (tail ++ rest) = some (c.toNat, rest)) ∨
    escapeChar c = [c] ∧ c ≠ quote ∧ c ≠ backslash := by
  unfold escapeChar
  by_cases hspecial : c = quote ∨ c = backslash
  · left
    refine ⟨[c], if_pos hspecial, fun rest => ?_⟩
    rcases hspecial with rfl | rfl
    · rfl
    · rfl
  · rw [if_neg hspecial]
    by_cases hcontrol : c.toNat < 32
    · left
      exact ⟨controlEscape c.toNat, if_pos hcontrol, unescape_controlEscape hcontrol⟩
    · right
      rw [not_or] at hspecial
      exact ⟨if_neg hcontrol, hspecial⟩

theorem escapeChar_append_inj {c c' : Char} (h : escapeChar c ++ rest = escapeChar c' ++ rest') :
    c = c' ∧ rest = rest' := by
  rcases escapeChar_cases c with ⟨tail, htail, hread⟩ | ⟨hplain, -, hnot⟩
  · rcases escapeChar_cases c' with ⟨tail', htail', hread'⟩ | ⟨hplain', -, hnot'⟩
    · rw [htail, htail', List.cons_append, List.cons_append, List.cons.injEq] at h
      have hsame := hread rest
      rw [h.2, hread' rest', Option.some.injEq, Prod.mk.injEq] at hsame
      exact ⟨Char.toNat_inj.mp hsame.1.symm, hsame.2.symm⟩
    · rw [htail, hplain', List.cons_append, List.singleton_append, List.cons.injEq] at h
      exact absurd h.1.symm hnot'
  · rcases escapeChar_cases c' with ⟨tail', htail', hread'⟩ | ⟨hplain', -, hnot'⟩
    · rw [hplain, htail', List.singleton_append, List.cons_append, List.cons.injEq] at h
      exact absurd h.1 hnot
    · rw [hplain, hplain', List.singleton_append, List.singleton_append, List.cons.injEq] at h
      exact h

theorem escapeChar_append_ne_quote (c : Char) (rest rest' : List Char) :
    escapeChar c ++ rest ≠ quote :: rest' := by
  intro h
  rcases escapeChar_cases c with ⟨tail, htail, -⟩ | ⟨hplain, hnot, -⟩
  · rw [htail, List.cons_append, List.cons.injEq] at h
    exact absurd h.1 (by decide)
  · rw [hplain, List.singleton_append, List.cons.injEq] at h
    exact hnot h.1

theorem flatMap_escapeChar_inj {chars chars' rest rest' : List Char}
    (h : chars.flatMap escapeChar ++ quote :: rest =
      chars'.flatMap escapeChar ++ quote :: rest') : chars = chars' ∧ rest = rest' := by
  induction chars generalizing chars' with
  | nil =>
      cases chars' with
      | nil =>
          simp only [List.flatMap_nil, List.nil_append, List.cons.injEq, true_and] at h
          exact ⟨rfl, h⟩
      | cons c' tail' =>
          rw [List.flatMap_cons, List.append_assoc] at h
          exact absurd h.symm (escapeChar_append_ne_quote _ _ _)
  | cons c tail ih =>
      cases chars' with
      | nil =>
          rw [List.flatMap_cons, List.append_assoc] at h
          exact absurd h (escapeChar_append_ne_quote _ _ _)
      | cons c' tail' =>
          rw [List.flatMap_cons, List.flatMap_cons, List.append_assoc, List.append_assoc] at h
          obtain ⟨hc, htail⟩ := escapeChar_append_inj h
          obtain ⟨hchars, hrest⟩ := ih htail
          exact ⟨by rw [hc, hchars], hrest⟩

theorem jsonString_append_inj {s s' : String} (h : jsonString s ++ rest = jsonString s' ++ rest') :
    s = s' ∧ rest = rest' := by
  simp only [jsonString, List.cons_append, List.append_assoc, List.cons.injEq, true_and] at h
  obtain ⟨hchars, hrest⟩ := flatMap_escapeChar_inj h
  exact ⟨String.toList_inj.mp hchars, hrest⟩

end HarborBeacon.TextEncoding
