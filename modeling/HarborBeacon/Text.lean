import HarborBeacon.Words
import Mathlib.Data.List.Dedup
import Mathlib.Data.List.Infix
import Mathlib.Data.List.Sort
import Mathlib.Data.String.Basic

/-!
Text operations of the Rust standard library: words, trimming of Unicode white space
and lower-casing.
-/

namespace HarborBeacon.Text

open Words

/-- The code points with the Unicode `White_Space` property. -/
def isWhitespace (c : Char) : Bool :=
  let n := c.toNat
  (9 ≤ n && n ≤ 13) || n == 0x20 || n == 0x85 || n == 0xA0 || n == 0x1680 ||
    (0x2000 ≤ n && n ≤ 0x200A) || n == 0x2028 || n == 0x2029 || n == 0x202F ||
    n == 0x205F || n == 0x3000

theorem forall_mem_of_all {α : Type} {P : α → Prop} [DecidablePred P] {items : List α}
    (h : (items.all fun a => decide (P a)) = true) : ∀ a ∈ items, P a := by
  simpa using h

def trimChars (chars : List Char) : List Char :=
  (chars.dropWhile isWhitespace).rdropWhile isWhitespace

def trim (s : String) : String :=
  String.ofList (trimChars s.toList)

/-- `s.trim().is_empty()`. -/
def isBlank (s : String) : Bool :=
  trim s == ""

variable {s : String} {p : Char → Bool} {c : Char}

theorem rdropWhile_cons_of_neg (c : Char) (l : List Char) (hc : p c = false) :
    ∃ t, (c :: l).rdropWhile p = c :: t := by
  refine ⟨l.rdropWhile p, ?_⟩
  induction l using List.reverseRecOn with
  | nil => simp [List.rdropWhile, hc]
  | append_singleton l a ih =>
      rw [← List.cons_append]
      by_cases ha : p a = true
      · rw [List.rdropWhile_concat_pos _ _ _ ha, List.rdropWhile_concat_pos _ _ _ ha, ih]
      · rw [List.rdropWhile_concat_neg _ _ _ ha, List.rdropWhile_concat_neg _ _ _ ha]
        rfl

theorem dropWhile_append_cons (hc : p c = false) (front rest : List Char) :
    (front ++ c :: rest).dropWhile p = front.dropWhile p ++ c :: rest := by
  induction front with
  | nil => rw [List.nil_append, List.dropWhile_cons_of_neg (by simp [hc])]; rfl
  | cons first front ih =>
      by_cases hfirst : p first = true
      · rw [List.cons_append, List.dropWhile_cons_of_pos hfirst, List.dropWhile_cons_of_pos hfirst,
          ih]
      · rw [List.cons_append, List.dropWhile_cons_of_neg hfirst, List.dropWhile_cons_of_neg hfirst,
          List.cons_append]

theorem rdropWhile_append_concat (hc : p c = false) (front rest : List Char) :
    (front ++ [c] ++ rest).rdropWhile p = front ++ [c] ++ rest.rdropWhile p := by
  rw [List.rdropWhile, List.rdropWhile, List.append_assoc, List.reverse_append, List.reverse_append,
    List.reverse_singleton, List.append_assoc, List.singleton_append, dropWhile_append_cons hc]
  simp

theorem rdropWhile_append {α : Type} (p : α → Bool) (front back : List α) :
    (front ++ back).rdropWhile p =
      if back.rdropWhile p = [] then front.rdropWhile p else front ++ back.rdropWhile p := by
  simp only [List.rdropWhile, List.reverse_append, List.dropWhile_append, List.reverse_eq_nil_iff,
    List.isEmpty_iff]
  split_ifs
  · rfl
  · rw [List.reverse_append, List.reverse_reverse]

theorem dropWhile_flatMap {α β : Type} {encode : α → List β} {p : β → Bool} {q : α → Bool}
    (hne : ∀ c, encode c ≠ []) (h : ∀ c, ∀ byte ∈ encode c, p byte = q c) (chars : List α) :
    (chars.flatMap encode).dropWhile p = (chars.dropWhile q).flatMap encode := by
  induction chars with
  | nil => rfl
  | cons c rest ih =>
      rw [List.flatMap_cons]
      cases hc : q c with
      | true =>
          rw [List.dropWhile_cons_of_pos hc, ← ih, List.dropWhile_append_of_pos]
          exact fun byte hbyte => (h c byte hbyte).trans hc
      | false =>
          obtain ⟨byte, others, hbytes⟩ := List.exists_cons_of_ne_nil (hne c)
          have hbyte : ¬ p byte = true := by
            rw [h c byte (hbytes ▸ List.mem_cons_self), hc]
            exact Bool.false_ne_true
          rw [List.dropWhile_cons_of_neg (by rw [hc]; exact Bool.false_ne_true),
            List.flatMap_cons, hbytes, List.cons_append, List.dropWhile_cons_of_neg hbyte]

theorem rdropWhile_flatMap {α β : Type} {encode : α → List β} {p : β → Bool} {q : α → Bool}
    (hne : ∀ c, encode c ≠ []) (h : ∀ c, ∀ byte ∈ encode c, p byte = q c) (chars : List α) :
    (chars.flatMap encode).rdropWhile p = (chars.rdropWhile q).flatMap encode := by
  have hreverse : ∀ chars : List α, (chars.flatMap encode).reverse =
      chars.reverse.flatMap fun c => (encode c).reverse := by
    intro chars
    rw [List.reverse_flatMap]
    rfl
  rw [List.rdropWhile, List.rdropWhile, hreverse, dropWhile_flatMap (q := q),
    ← List.reverse_inj, List.reverse_reverse, hreverse, List.reverse_reverse]
  · exact fun c hnil => hne c (List.reverse_eq_nil_iff.mp hnil)
  · exact fun c byte hbyte => h c byte (List.mem_reverse.mp hbyte)

theorem trimMatches_idem (p : Char → Bool) (l : List Char) :
    ((((l.dropWhile p).rdropWhile p).dropWhile p).rdropWhile p) =
      (l.dropWhile p).rdropWhile p := by
  rcases h : l.dropWhile p with _ | ⟨c, t⟩
  · rfl
  · have hc : p c = false := by
      have hhead := List.head_dropWhile_not (p := p) (l := l) (by simp [h])
      simpa [h] using hhead
    obtain ⟨t', ht'⟩ := rdropWhile_cons_of_neg (p := p) c t hc
    have hdrop : (c :: t').dropWhile p = c :: t' := by simp [hc]
    calc
      (((c :: t).rdropWhile p).dropWhile p).rdropWhile p = (c :: t').rdropWhile p := by
        rw [ht', hdrop]
      _ = (c :: t).rdropWhile p := by
        rw [← ht', List.rdropWhile_idempotent]

theorem trimChars_idem (l : List Char) : trimChars (trimChars l) = trimChars l :=
  trimMatches_idem isWhitespace l

theorem trim_eq_self (h : ∀ c ∈ s.toList, isWhitespace c = false) : trim s = s := by
  have hdrop : s.toList.dropWhile isWhitespace = s.toList := by
    rw [List.dropWhile_eq_self_iff]
    intro hpos
    simpa using h _ (List.getElem_mem hpos)
  have hrdrop : s.toList.rdropWhile isWhitespace = s.toList := by
    rw [List.rdropWhile_eq_self_iff]
    intro hne
    simpa using h _ (List.getLast_mem hne)
  rw [trim, trimChars, hdrop, hrdrop, String.ofList_toList]

@[simp] theorem trim_trim (s : String) : trim (trim s) = trim s := by
  simp [trim, trimChars_idem]

@[simp] theorem trim_empty : trim "" = "" := by decide

@[simp] theorem isBlank_trim (s : String) : isBlank (trim s) = isBlank s := by
  simp [isBlank]

theorem isBlank_eq_false_iff : isBlank s = false ↔ trim s ≠ "" := by
  simp [isBlank]

theorem ne_empty_of_not_isBlank (h : isBlank s = false) : s ≠ "" := by
  rintro rfl
  simp [isBlank] at h

theorem isBlank_eq_false_of_mem (hmem : c ∈ s.toList) (hc : isWhitespace c = false) :
    isBlank s = false := by
  rw [isBlank_eq_false_iff]
  intro hblank
  have hnil : trimChars s.toList = [] := by
    simpa [trim] using congrArg String.toList hblank
  have hall : ∀ d ∈ s.toList.dropWhile isWhitespace, isWhitespace d = true :=
    List.rdropWhile_eq_nil_iff.mp hnil
  rw [← List.takeWhile_append_dropWhile (p := isWhitespace) (l := s.toList),
    List.mem_append] at hmem
  rcases hmem with hmem | hmem
  · rw [List.mem_takeWhile_imp hmem] at hc
    cases hc
  · rw [hall c hmem] at hc
    cases hc

theorem isBlank_iff : isBlank s = true ↔ ∀ c ∈ s.toList, isWhitespace c = true := by
  constructor
  · intro hblank c hmem
    by_contra hc
    rw [isBlank_eq_false_of_mem hmem (by simpa using hc)] at hblank
    cases hblank
  · intro hall
    have hdrop : s.toList.dropWhile isWhitespace = [] := List.dropWhile_eq_nil_iff.mpr hall
    simp [isBlank, trim, trimChars, hdrop]

theorem append_lt_append_iff (p a b : List Char) : p ++ a < p ++ b ↔ a < b := by
  induction p with
  | nil => rfl
  | cons c rest ih =>
      rw [List.cons_append, List.cons_append, List.cons_lt_cons_iff]
      simp [ih]

theorem append_le_append_iff (p a b : String) : p ++ a ≤ p ++ b ↔ a ≤ b := by
  rw [← not_lt, ← not_lt, String.lt_iff_toList_lt, String.lt_iff_toList_lt,
    String.toList_append, String.toList_append, append_lt_append_iff]

theorem eq_of_toString_eq {m n : Nat} (h : toString m = toString n) : m = n := by
  have hdigits : Nat.toDigits 10 m = Nat.toDigits 10 n := by
    rw [← Nat.toList_repr, ← Nat.toList_repr]
    exact congrArg String.toList h
  have hvalue := congrArg (fun digits => Nat.ofDigitChars 10 digits 0) hdigits
  simpa only [Nat.ofDigitChars_toDigits (by decide : 1 < 10) (by decide : 10 ≤ 10)] using hvalue

/-- The one-to-one lower-case mappings outside ASCII, as runs `(first, last, step, offset)`
of code points. -/
def lowercaseRanges : List (Nat × Nat × Nat × Int) :=
  [(192, 214, 1, 32), (216, 222, 1, 32), (256, 302, 2, 1), (306, 310, 2, 1), (313, 327, 2, 1),
   (330, 374, 2, 1), (376, 376, 1, -121), (377, 381, 2, 1), (385, 385, 1, 210),
   (386, 388, 2, 1), (390, 390, 1, 206), (391, 391, 1, 1), (393, 394, 1, 205), (395, 395, 1, 1),
   (398, 398, 1, 79), (399, 399, 1, 202), (400, 400, 1, 203), (401, 401, 1, 1),
   (403, 403, 1, 205), (404, 404, 1, 207), (406, 406, 1, 211), (407, 407, 1, 209),
   (408, 408, 1, 1), (412, 412, 1, 211), (413, 413, 1, 213), (415, 415, 1, 214),
   (416, 420, 2, 1), (422, 422, 1, 218), (423, 423, 1, 1), (425, 425, 1, 218), (428, 428, 1, 1),
   (430, 430, 1, 218), (431, 431, 1, 1), (433, 434, 1, 217), (435, 437, 2, 1),
   (439, 439, 1, 219), (440, 440, 1, 1), (444, 444, 1, 1), (452, 452, 1, 2), (453, 453, 1, 1),
   (455, 455, 1, 2), (456, 456, 1, 1), (458, 458, 1, 2), (459, 475, 2, 1), (478, 494, 2, 1),
   (497, 497, 1, 2), (498, 500, 2, 1), (502, 502, 1, -97), (503, 503, 1, -56), (504, 542, 2, 1),
   (544, 544, 1, -130), (546, 562, 2, 1), (570, 570, 1, 10795), (571, 571, 1, 1),
   (573, 573, 1, -163), (574, 574, 1, 10792), (577, 577, 1, 1), (579, 579, 1, -195),
   (580, 580, 1, 69), (581, 581, 1, 71), (582, 590, 2, 1), (880, 882, 2, 1), (886, 886, 1, 1),
   (895, 895, 1, 116), (902, 902, 1, 38), (904, 906, 1, 37), (908, 908, 1, 64),
   (910, 911, 1, 63), (913, 929, 1, 32), (931, 939, 1, 32), (975, 975, 1, 8), (984, 1006, 2, 1),
   (1012, 1012, 1, -60), (1015, 1015, 1, 1), (1017, 1017, 1, -7), (1018, 1018, 1, 1),
   (1021, 1023, 1, -130), (1024, 1039, 1, 80), (1040, 1071, 1, 32), (1120, 1152, 2, 1),
   (1162, 1214, 2, 1), (1216, 1216, 1, 15), (1217, 1229, 2, 1), (1232, 1326, 2, 1),
   (1329, 1366, 1, 48), (4256, 4293, 1, 7264), (4295, 4295, 1, 7264), (4301, 4301, 1, 7264),
   (5024, 5103, 1, 38864), (5104, 5109, 1, 8), (7312, 7354, 1, -3008), (7357, 7359, 1, -3008),
   (7680, 7828, 2, 1), (7838, 7838, 1, -7615), (7840, 7934, 2, 1), (7944, 7951, 1, -8),
   (7960, 7965, 1, -8), (7976, 7983, 1, -8), (7992, 7999, 1, -8), (8008, 8013, 1, -8),
   (8025, 8031, 2, -8), (8040, 8047, 1, -8), (8072, 8079, 1, -8), (8088, 8095, 1, -8),
   (8104, 8111, 1, -8), (8120, 8121, 1, -8), (8122, 8123, 1, -74), (8124, 8124, 1, -9),
   (8136, 8139, 1, -86), (8140, 8140, 1, -9), (8152, 8153, 1, -8), (8154, 8155, 1, -100),
   (8168, 8169, 1, -8), (8170, 8171, 1, -112), (8172, 8172, 1, -7), (8184, 8185, 1, -128),
   (8186, 8187, 1, -126), (8188, 8188, 1, -9), (8486, 8486, 1, -7517), (8490, 8490, 1, -8383),
   (8491, 8491, 1, -8262), (8498, 8498, 1, 28), (8544, 8559, 1, 16), (8579, 8579, 1, 1),
   (9398, 9423, 1, 26), (11264, 11311, 1, 48), (11360, 11360, 1, 1), (11362, 11362, 1, -10743),
   (11363, 11363, 1, -3814), (11364, 11364, 1, -10727), (11367, 11371, 2, 1),
   (11373, 11373, 1, -10780), (11374, 11374, 1, -10749), (11375, 11375, 1, -10783),
   (11376, 11376, 1, -10782), (11378, 11378, 1, 1), (11381, 11381, 1, 1),
   (11390, 11391, 1, -10815), (11392, 11490, 2, 1), (11499, 11501, 2, 1), (11506, 11506, 1, 1),
   (42560, 42604, 2, 1), (42624, 42650, 2, 1), (42786, 42798, 2, 1), (42802, 42862, 2, 1),
   (42873, 42875, 2, 1), (42877, 42877, 1, -35332), (42878, 42886, 2, 1), (42891, 42891, 1, 1),
   (42893, 42893, 1, -42280), (42896, 42898, 2, 1), (42902, 42920, 2, 1),
   (42922, 42922, 1, -42308), (42923, 42923, 1, -42319), (42924, 42924, 1, -42315),
   (42925, 42925, 1, -42305), (42926, 42926, 1, -42308), (42928, 42928, 1, -42258),
   (42929, 42929, 1, -42282), (42930, 42930, 1, -42261), (42931, 42931, 1, 928),
   (42932, 42946, 2, 1), (42948, 42948, 1, -48), (42949, 42949, 1, -42307),
   (42950, 42950, 1, -35384), (42951, 42953, 2, 1), (42955, 42955, 1, -42343),
   (42956, 42956, 1, 1), (42960, 42960, 1, 1), (42966, 42970, 2, 1), (42972, 42972, 1, -42561),
   (42997, 42997, 1, 1), (65313, 65338, 1, 32), (66560, 66599, 1, 40), (66736, 66771, 1, 40),
   (66928, 66938, 1, 39), (66940, 66954, 1, 39), (66956, 66962, 1, 39), (66964, 66965, 1, 39),
   (68736, 68786, 1, 64), (68944, 68965, 1, 32), (71840, 71871, 1, 32), (93760, 93791, 1, 32),
   (125184, 125217, 1, 34)]

/-- `char::to_lowercase`. -/
def lowercaseChar (c : Char) : List Char :=
  let n := c.toNat
  if n < 0x80 then
    if 65 ≤ n && n ≤ 90 then [Char.ofNat (n + 32)] else [c]
  else if n == 0x130 then
    ['i', Char.ofNat 0x307]
  else
    match lowercaseRanges.find? fun r =>
        r.1 ≤ n && n ≤ r.2.1 && (n - r.1) % r.2.2.1 == 0 with
    | some r => [Char.ofNat ((n : Int) + r.2.2.2).toNat]
    | none => [c]

/-- `str::to_lowercase` without its one context rule, the choice between the two lower-case
forms of a capital sigma: neither form is ASCII, and results are compared with ASCII words. -/
def toLowercase (s : String) : String :=
  String.ofList (s.toList.flatMap lowercaseChar)

def toAsciiLowercase (s : String) : String :=
  String.ofList (s.toList.map Char.toLower)

theorem isUpper_eq (c : Char) : c.isUpper = decide (c.val ≥ 'A'.val ∧ c.val ≤ 'Z'.val) := rfl

theorem isLower_eq (c : Char) : c.isLower = (c.val ≥ 'a'.val && c.val ≤ 'z'.val) := rfl

theorem isAlpha_eq (c : Char) : c.isAlpha = (c.isUpper || c.isLower) := rfl

theorem toLower_of_not_upper (h : ¬ (c.val ≥ 'A'.val ∧ c.val ≤ 'Z'.val)) :
    c.toLower = c :=
  dif_neg h

def containsText (s pattern : String) : Bool :=
  decide (pattern.toList <:+: s.toList)

def startsWithText (s pattern : String) : Bool :=
  decide (pattern.toList <+: s.toList)

def splitWhitespace (s : String) : List String :=
  (words isWhitespace s.toList).map String.ofList

theorem mem_splitWhitespace {s token : String} (h : token ∈ splitWhitespace s) :
    token.toList ≠ [] ∧ token.toList <:+: s.toList ∧
      ∀ c ∈ token.toList, isWhitespace c = false := by
  obtain ⟨word, hword, rfl⟩ := List.mem_map.mp h
  rw [String.toList_ofList]
  exact mem_words hword

theorem splitWhitespace_eq_nil_iff : splitWhitespace s = [] ↔ isBlank s = true := by
  rw [isBlank_iff]
  constructor
  · intro hnil c hmem
    by_contra hc
    obtain ⟨word, hword, -⟩ := exists_word_of_mem hmem (by simpa using hc)
    simp [List.map_eq_nil_iff.mp hnil] at hword
  · intro hall
    rw [List.eq_nil_iff_forall_not_mem]
    intro token htoken
    obtain ⟨hne, hwithin, hsep⟩ := mem_splitWhitespace htoken
    obtain ⟨c, hc⟩ := List.exists_mem_of_ne_nil _ hne
    have := hall c (hwithin.subset hc)
    rw [hsep c hc] at this
    cases this

def joinTexts (separator : String) (parts : List String) : String :=
  String.ofList (separator.toList.intercalate (parts.map String.toList))

/-- `chars().take(n).collect()`. -/
def takeChars (n : Nat) (s : String) : String :=
  String.ofList (s.toList.take n)

/-- The texts of a `BTreeSet`, in its order. -/
def sortedSet (items : List String) : List String :=
  items.dedup.insertionSort (· ≤ ·)

@[simp] theorem mem_sortedSet {items : List String} {item : String} :
    item ∈ sortedSet items ↔ item ∈ items := by
  rw [sortedSet, List.mem_insertionSort, List.mem_dedup]

/-- What follows the first occurrence that `str::find` finds. -/
def afterText (pattern : List Char) : List Char → Option (List Char)
  | [] => if pattern = [] then some [] else none
  | c :: rest =>
      if pattern <+: c :: rest then some ((c :: rest).drop pattern.length)
      else afterText pattern rest

def replaceFrom (pattern replacement : List Char) : Nat → List Char → List Char
  | _, [] => []
  | skip + 1, _ :: rest => replaceFrom pattern replacement skip rest
  | 0, c :: rest =>
      if pattern <+: c :: rest then
        replacement ++ replaceFrom pattern replacement (pattern.length - 1) rest
      else c :: replaceFrom pattern replacement 0 rest

/-- `str::replace` of a pattern that is not empty. -/
def replaceText (pattern replacement s : String) : String :=
  String.ofList (replaceFrom pattern.toList replacement.toList 0 s.toList)

def toAsciiUppercase (s : String) : String :=
  String.ofList (s.toList.map Char.toUpper)

/-- `trim_end_matches('/')`. -/
def trimEndSlashes (s : String) : String :=
  String.ofList (s.toList.rdropWhile (· = '/'))

def eqIgnoreAsciiCase (a b : String) : Bool :=
  toAsciiLowercase a = toAsciiLowercase b

def replaceChar (old new : Char) (s : String) : String :=
  String.ofList (s.toList.map fun c => if c = old then new else c)

def trimEnd (s : String) : String :=
  String.ofList (s.toList.rdropWhile isWhitespace)

def stripSuffixChar (c : Char) (chars : List Char) : List Char :=
  if chars.getLast? = some c then chars.dropLast else chars

/-- `str::lines`: the line ends are left out, and so is an empty line at the end. -/
def lines (s : String) : List String :=
  let pieces := s.toList.splitOn '\n'
  let ended := pieces.dropLast.map (stripSuffixChar '\r')
  let last := pieces.getLast?.getD []
  (ended ++ if last = [] then [] else [last]).map String.ofList

end HarborBeacon.Text
