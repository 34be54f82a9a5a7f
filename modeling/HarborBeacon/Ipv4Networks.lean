import HarborBeacon.DecimalText

/-!
Addresses of 32 bits as numbers: their dotted texts, the decimal texts of prefixes, the networks
that the leading bits of an address stand for, and the hosts of a network.
-/

namespace HarborBeacon.Ipv4Networks

open DecimalText

def invalidDigit : String := "invalid digit found in string"

def readDigit (max result : Nat) (c : Char) : Except String Nat :=
  if !c.isDigit then .error invalidDigit
  else if 10 * result + digitValue c ≤ max then .ok (10 * result + digitValue c)
  else .error "number too large to fit in target type"

/-- `from_str` of an unsigned integer type whose greatest value is `max`. -/
def parseUnsigned (max : Nat) : List Char → Except String Nat
  | [] => .error "cannot parse integer from empty string"
  | ['+'] => .error invalidDigit
  | '+' :: c :: rest => (c :: rest).foldlM (readDigit max) 0
  | digits => digits.foldlM (readDigit max) 0

theorem readDigit_eq_ok {max result next : Nat} {c : Char}
    (h : readDigit max result c = .ok next) : c.isDigit = true ∧ next ≤ max := by
  rw [readDigit] at h
  split at h
  · simp at h
  · rename_i hdigit
    split at h
    · rename_i hle
      rw [← Except.ok.inj h]
      exact ⟨by simpa using hdigit, hle⟩
    · simp at h

variable {digits : List Char} {address : Nat} {text : List Char}

theorem foldlM_readDigit {max start n : Nat} (h : digits.foldlM (readDigit max) start = .ok n) :
    (∀ c ∈ digits, c.isDigit = true) ∧ (start ≤ max → n ≤ max) := by
  induction digits generalizing start with
  | nil =>
      rw [← Except.ok.inj h]
      simp
  | cons c digits ih =>
      rw [List.foldlM_cons] at h
      rcases hc : readDigit max start c with message | next
      · rw [hc] at h
        simp [bind, Except.bind] at h
      · rw [hc] at h
        obtain ⟨hdigit, hnext⟩ := readDigit_eq_ok hc
        obtain ⟨hall, hn⟩ := ih h
        refine ⟨?_, fun _ => hn hnext⟩
        intro d hd
        rcases List.mem_cons.mp hd with rfl | hd
        · exact hdigit
        · exact hall d hd

theorem parseUnsigned_eq_ok {max n : Nat} (h : parseUnsigned max text = .ok n) :
    (∀ c ∈ text, c = '+' ∨ c.isDigit = true) ∧ n ≤ max := by
  rw [parseUnsigned.eq_def] at h
  split at h
  · simp at h
  · simp at h
  · obtain ⟨hall, hn⟩ := foldlM_readDigit h
    refine ⟨?_, hn (Nat.zero_le _)⟩
    intro d hd
    rcases List.mem_cons.mp hd with rfl | hd
    · exact Or.inl rfl
    · exact Or.inr (hall d hd)
  · obtain ⟨hall, hn⟩ := foldlM_readDigit h
    exact ⟨fun c hc => Or.inr (hall c hc), hn (Nat.zero_le _)⟩

theorem le_ofDigitChars (start : Nat) (digits : List Char) :
    start ≤ Nat.ofDigitChars 10 digits start := by
  induction digits generalizing start with
  | nil => simp
  | cons c digits ih =>
      rw [Nat.ofDigitChars_cons]
      have hstep := ih (10 * start + (c.toNat - '0'.toNat))
      omega

theorem foldlM_readDigit_of_le {max start : Nat} (hdigits : ∀ c ∈ digits, c.isDigit = true)
    (hle : Nat.ofDigitChars 10 digits start ≤ max) :
    digits.foldlM (readDigit max) start = .ok (Nat.ofDigitChars 10 digits start) := by
  induction digits generalizing start with
  | nil => simp [pure, Except.pure]
  | cons c digits ih =>
      rw [Nat.ofDigitChars_cons] at hle ⊢
      have hc : c.isDigit = true := hdigits c (by simp)
      have hstep := le_ofDigitChars (10 * start + (c.toNat - '0'.toNat)) digits
      have hread : readDigit max start c = .ok (10 * start + (c.toNat - '0'.toNat)) := by
        rw [readDigit, if_neg (by simp [hc]), if_pos]
        · rfl
        · exact hstep.trans hle
      rw [List.foldlM_cons, hread]
      exact ih (fun d hd => hdigits d (by simp [hd])) hle

theorem parseUnsigned_toDigits {max n : Nat} (h : n ≤ max) :
    parseUnsigned max (Nat.toDigits 10 n) = .ok n := by
  have hdigits : ∀ c ∈ Nat.toDigits 10 n, c.isDigit = true := fun c hc =>
    Nat.isDigit_of_mem_toDigits (by decide) (by decide) hc
  have hvalue := Nat.ofDigitChars_ten_toDigits (n := n)
  have hfold := foldlM_readDigit_of_le hdigits (hvalue.trans_le h)
  rw [hvalue] at hfold
  rw [parseUnsigned.eq_def]
  split
  · rename_i hnil
    exact absurd hnil (Nat.toDigits_ne_nil)
  · rename_i hplus
    exact absurd (hdigits '+' (by simp [hplus])) (by decide)
  · rename_i hplus
    exact absurd (hdigits '+' (by simp [hplus])) (by decide)
  · exact hfold

/-- A part of a dotted text: one to three digits, without a zero before the others. -/
def readOctet (digits : List Char) : Option Nat :=
  if digits ≠ [] ∧ digits.length ≤ 3 ∧ digits.all Char.isDigit = true ∧
      (digits.head? = some '0' → digits.length = 1) ∧ value digits ≤ 255 then
    some (value digits)
  else none

/-- `Ipv4Addr::from_str`. -/
def parseAddress (text : List Char) : Option Nat :=
  match text.splitOn '.' with
  | [first, second, third, fourth] => do
      let a ← readOctet first
      let b ← readOctet second
      let c ← readOctet third
      let d ← readOctet fourth
      return a * 2 ^ 24 + b * 2 ^ 16 + c * 2 ^ 8 + d
  | _ => none

def octets (address : Nat) : List Nat :=
  [address / 2 ^ 24, address / 2 ^ 16 % 256, address / 2 ^ 8 % 256, address % 256]

def displayAddress (address : Nat) : List Char :=
  ['.'].intercalate ((octets address).map (Nat.toDigits 10))

theorem readOctet_eq_some {n : Nat} (h : readOctet digits = some n) :
    (∀ c ∈ digits, c.isDigit = true) ∧ n ≤ 255 := by
  rw [readOctet] at h
  split at h
  · rename_i hread
    obtain ⟨-, -, hdigits, -, hle⟩ := hread
    rw [← Option.some.inj h]
    exact ⟨by simpa using hdigits, hle⟩
  · simp at h

theorem toDigits_of_readOctet {n : Nat} (h : readOctet digits = some n) :
    Nat.toDigits 10 n = digits := by
  rw [readOctet] at h
  split at h
  · rename_i hread
    obtain ⟨hne, -, hdigits, hzero, -⟩ := hread
    rw [← Option.some.inj h]
    exact toDigits_value (by simpa using hdigits) hne hzero
  · simp at h

theorem readOctet_toDigits {n : Nat} (h : n < 256) : readOctet (Nat.toDigits 10 n) = some n := by
  have hall : ∀ n : Fin 256, readOctet (Nat.toDigits 10 n.val) = some n.val := by decide +kernel
  exact hall ⟨n, h⟩

theorem parseAddress_eq_some (h : parseAddress text = some address) :
    (∀ c ∈ text, c = '.' ∨ c.isDigit = true) ∧ address < 2 ^ 32 := by
  rw [parseAddress] at h
  split at h
  · rename_i first second third fourth hsplit
    simp only [Option.bind_eq_bind, Option.bind_eq_some_iff] at h
    obtain ⟨a, ha, b, hb, c, hc, d, hd, hsum⟩ := h
    obtain ⟨hfirst, ha⟩ := readOctet_eq_some ha
    obtain ⟨hsecond, hb⟩ := readOctet_eq_some hb
    obtain ⟨hthird, hc⟩ := readOctet_eq_some hc
    obtain ⟨hfourth, hd⟩ := readOctet_eq_some hd
    constructor
    · intro ch hch
      have hjoin : ['.'].intercalate (text.splitOn '.') = text := List.intercalate_splitOn '.'
      rw [← hjoin, hsplit] at hch
      simp only [List.intercalate, List.intersperse, List.flatten_cons, List.flatten_nil,
        List.mem_append, List.mem_singleton, List.append_nil] at hch
      rcases hch with hch | hch | hch | hch | hch | hch | hch
      · exact Or.inr (hfirst ch hch)
      · exact Or.inl hch
      · exact Or.inr (hsecond ch hch)
      · exact Or.inl hch
      · exact Or.inr (hthird ch hch)
      · exact Or.inl hch
      · exact Or.inr (hfourth ch hch)
    · have hsum := Option.some.inj hsum
      omega
  · simp at h

theorem octet_lt {address n : Nat} (h : address < 2 ^ 32) (hn : n ∈ octets address) : n < 256 := by
  simp only [octets, List.mem_cons, List.not_mem_nil, or_false] at hn
  omega

theorem dot_not_mem_toDigits (n : Nat) : '.' ∉ Nat.toDigits 10 n := fun h =>
  absurd (Nat.isDigit_of_mem_toDigits (by decide) (by decide) h) (by decide)

theorem splitOn_displayAddress (address : Nat) :
    (displayAddress address).splitOn '.' = (octets address).map (Nat.toDigits 10) := by
  apply List.splitOn_intercalate
  · intro part hpart
    obtain ⟨n, -, rfl⟩ := List.mem_map.mp hpart
    exact dot_not_mem_toDigits n
  · simp [octets]

theorem parseAddress_displayAddress (h : address < 2 ^ 32) :
    parseAddress (displayAddress address) = some address := by
  have hread : ∀ n ∈ octets address, readOctet (Nat.toDigits 10 n) = some n := fun n hn =>
    readOctet_toDigits (octet_lt h hn)
  simp only [octets, List.forall_mem_cons] at hread
  obtain ⟨ha, hb, hc, hd, -⟩ := hread
  rw [parseAddress, splitOn_displayAddress]
  simp only [octets, List.map_cons, List.map_nil, ha, hb, hc, hd]
  change some _ = _
  rw [Option.some.injEq]
  omega

theorem parseAddress_eq_some_iff :
    parseAddress text = some address ↔ address < 2 ^ 32 ∧ text = displayAddress address := by
  constructor
  · intro h
    refine ⟨(parseAddress_eq_some h).2, ?_⟩
    rw [parseAddress] at h
    split at h
    · rename_i first second third fourth hsplit
      simp only [Option.bind_eq_bind, Option.bind_eq_some_iff] at h
      obtain ⟨a, ha, b, hb, c, hc, d, hd, hsum⟩ := h
      have hb255 := (readOctet_eq_some hb).2
      have hc255 := (readOctet_eq_some hc).2
      have hd255 := (readOctet_eq_some hd).2
      have hsum := Option.some.inj hsum
      have hoctets : octets address = [a, b, c, d] := by
        simp only [octets, List.cons.injEq, and_true]
        omega
      rw [displayAddress, hoctets]
      simp only [List.map_cons, List.map_nil, toDigits_of_readOctet ha, toDigits_of_readOctet hb,
        toDigits_of_readOctet hc, toDigits_of_readOctet hd]
      rw [← hsplit]
      exact (List.intercalate_splitOn '.').symm
    · simp at h
  · rintro ⟨h, rfl⟩
    exact parseAddress_displayAddress h

theorem takeWhile_append_dot (h : '.' ∉ digits) (rest : List Char) :
    (digits ++ '.' :: rest).takeWhile (· ≠ '.') = digits := by
  have hall : ∀ c ∈ digits, decide (c ≠ '.') = true := by
    intro c hc
    rw [decide_eq_true_eq]
    rintro rfl
    exact h hc
  rw [List.takeWhile_append_of_pos hall]
  simp

theorem prefix_displayAddress_iff {first address : Nat} :
    Nat.toDigits 10 first ++ ['.'] <+: displayAddress address ↔ address / 2 ^ 24 = first := by
  have hdisplay : ∃ rest, displayAddress address =
      Nat.toDigits 10 (address / 2 ^ 24) ++ '.' :: rest := by
    simp only [displayAddress, octets, List.map_cons, List.map_nil, List.intercalate,
      List.intersperse, List.flatten_cons, List.cons_append, List.nil_append]
    exact ⟨_, rfl⟩
  obtain ⟨rest, hrest⟩ := hdisplay
  rw [hrest]
  constructor
  · rintro ⟨after, hafter⟩
    have htake := congrArg (List.takeWhile (· ≠ '.')) hafter
    rw [List.append_assoc, List.singleton_append,
      takeWhile_append_dot (dot_not_mem_toDigits first),
      takeWhile_append_dot (dot_not_mem_toDigits _)] at htake
    have hvalue := congrArg (fun digits => Nat.ofDigitChars 10 digits 0) htake
    simpa using hvalue.symm
  · rintro rfl
    exact ⟨rest, by simp⟩

theorem mem_displayAddress {c : Char} (h : c ∈ displayAddress address) :
    c = '.' ∨ c.isDigit = true := by
  simp only [displayAddress, octets, List.map_cons, List.map_nil, List.intercalate,
    List.intersperse, List.flatten_cons, List.flatten_nil, List.mem_append, List.mem_singleton,
    List.append_nil] at h
  have hdigit : ∀ n, c ∈ Nat.toDigits 10 n → c.isDigit = true := fun n hc =>
    Nat.isDigit_of_mem_toDigits (by decide) (by decide) hc
  rcases h with h | h | h | h | h | h | h
  · exact Or.inr (hdigit _ h)
  · exact Or.inl h
  · exact Or.inr (hdigit _ h)
  · exact Or.inl h
  · exact Or.inr (hdigit _ h)
  · exact Or.inl h
  · exact Or.inr (hdigit _ h)

/-- The leading `bits` ones of 32 bits: `u32::MAX << (32 - bits)`, and no ones without a shift by
the whole width. -/
def networkMask (bits : Nat) : Nat :=
  if bits = 0 then 0 else ((2 ^ 32 - 1) <<< (32 - bits)) % 2 ^ 32

def networkSize (bits : Nat) : Nat :=
  2 ^ (32 - bits)

def networkOf (bits address : Nat) : Nat :=
  address / networkSize bits * networkSize bits

/-- The addresses of a network that hosts can have, in increasing order: all of them in a network
of two addresses or one, all but the first and the last of a larger one. -/
def usableHosts (bits network : Nat) : List Nat :=
  (List.range' network (networkSize bits)).filter fun address =>
    31 ≤ bits || (address ≠ network && address ≠ network + networkSize bits - 1)

theorem networkSize_pos (bits : Nat) : 0 < networkSize bits :=
  Nat.two_pow_pos _

theorem networkSize_dvd (bits : Nat) : networkSize bits ∣ 2 ^ 32 :=
  Nat.pow_dvd_pow 2 (Nat.sub_le 32 bits)

theorem testBit_networkMask (bits i : Nat) :
    (networkMask bits).testBit i = (decide (32 - bits ≤ i) && decide (i < 32)) := by
  rw [networkMask]
  split
  · rename_i hzero
    rw [Nat.zero_testBit, hzero]
    simp
  · rw [Nat.testBit_mod_two_pow, Nat.testBit_shiftLeft, Nat.testBit_two_pow_sub_one]
    rw [Bool.eq_iff_iff]
    simp only [Bool.and_eq_true, decide_eq_true_eq]
    omega

theorem land_networkMask (bits : Nat) (haddress : address < 2 ^ 32) :
    address &&& networkMask bits = networkOf bits address := by
  have hshift : networkOf bits address = (address >>> (32 - bits)) <<< (32 - bits) := by
    rw [networkOf, networkSize, Nat.shiftLeft_eq, Nat.shiftRight_eq_div_pow]
  rw [hshift]
  apply Nat.eq_of_testBit_eq
  intro i
  rw [Nat.testBit_and, testBit_networkMask, Nat.testBit_shiftLeft, Nat.testBit_shiftRight]
  rcases Nat.lt_or_ge i 32 with hi | hi
  · rcases Nat.lt_or_ge i (32 - bits) with hlow | hlow
    · simp [Nat.not_le_of_lt hlow]
    · simp [hi, hlow, Nat.add_sub_cancel' hlow]
  · have hbit : address.testBit i = false := by
      apply Nat.testBit_lt_two_pow
      exact haddress.trans_le (Nat.pow_le_pow_right (by decide) hi)
    rcases Nat.lt_or_ge i (32 - bits) with hlow | hlow
    · simp [hbit, Nat.not_le_of_lt hlow]
    · simp [hbit, hlow, Nat.add_sub_cancel' hlow]

theorem networkOf_networkOf (bits address : Nat) :
    networkOf bits (networkOf bits address) = networkOf bits address := by
  rw [networkOf, networkOf, Nat.mul_div_cancel _ (networkSize_pos bits)]

theorem networkOf_le (bits address : Nat) : networkOf bits address ≤ address :=
  Nat.div_mul_le_self address (networkSize bits)

theorem networkOf_add_networkSize_le (bits : Nat) (haddress : address < 2 ^ 32) :
    networkOf bits address + networkSize bits ≤ 2 ^ 32 := by
  obtain ⟨count, hcount⟩ := networkSize_dvd bits
  rw [hcount] at haddress
  have hlt : address / networkSize bits < count := Nat.div_lt_of_lt_mul haddress
  rw [networkOf, hcount]
  calc
    address / networkSize bits * networkSize bits + networkSize bits =
        (address / networkSize bits + 1) * networkSize bits := by rw [Nat.add_mul, Nat.one_mul]
    _ ≤ count * networkSize bits := Nat.mul_le_mul_right _ hlt
    _ = networkSize bits * count := Nat.mul_comm _ _

theorem usableHosts_of_le {bits : Nat} (h : 31 ≤ bits) (network : Nat) :
    usableHosts bits network = List.range' network (networkSize bits) := by
  rw [usableHosts, List.filter_eq_self]
  simp [h]

theorem usableHosts_of_lt {bits : Nat} (h : bits < 31) (network : Nat) :
    usableHosts bits network = List.range' (network + 1) (networkSize bits - 2) := by
  have hsize : networkSize bits = networkSize bits - 2 + 1 + 1 := by
    have hfour : 2 ^ 2 ≤ networkSize bits := Nat.pow_le_pow_right (by decide) (by omega)
    omega
  have hbits : ¬ 31 ≤ bits := by omega
  rw [usableHosts]
  generalize networkSize bits = size at *
  rw [hsize, List.range'_succ, List.range'_concat]
  have hinner : (List.range' (network + 1) (size - 2)).filter (fun address =>
      decide (31 ≤ bits) || (decide (address ≠ network) &&
        decide (address ≠ network + (size - 2 + 1 + 1) - 1))) =
      List.range' (network + 1) (size - 2) := by
    rw [List.filter_eq_self]
    intro address haddress
    rw [List.mem_range'_1] at haddress
    simp only [hbits, decide_false, Bool.false_or, Bool.and_eq_true, decide_eq_true_eq]
    omega
  rw [List.filter_cons_of_neg (by simp [hbits]), List.filter_append, hinner,
    List.filter_cons_of_neg]
  · simp
  · simp [hbits]
    omega

theorem length_usableHosts (bits network : Nat) :
    (usableHosts bits network).length =
      if 31 ≤ bits then networkSize bits else networkSize bits - 2 := by
  split
  · rename_i h
    rw [usableHosts_of_le h, List.length_range']
  · rename_i h
    rw [usableHosts_of_lt (by omega), List.length_range']

end HarborBeacon.Ipv4Networks
