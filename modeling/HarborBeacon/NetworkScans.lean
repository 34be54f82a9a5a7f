import HarborBeacon.Ipv4Networks
import HarborBeacon.Text

/-!
Discovery by a scan of the local network. The network is written as an address and the number of
its leading bits; every host of it becomes a candidate for a camera stream, and the admin
settings keep the text of the network in one form.
-/

namespace HarborBeacon.NetworkScans

open Ipv4Networks Text

def splitOnce (separator : Char) (text : List Char) : Option (List Char × List Char) :=
  if separator ∈ text then
    some (text.takeWhile (· ≠ separator), (text.dropWhile (· ≠ separator)).tail)
  else none

def parseIpv4Cidr (value : String) : Except String (Nat × Nat) := do
  let (ip, bits) ← match splitOnce '/' value.toList with
    | some parts => .ok parts
    | none => .error ("invalid CIDR, expected a.b.c.d/prefix: " ++ value)
  let bits ← (parseUnsigned 255 bits).mapError fun e =>
    "invalid CIDR prefix in " ++ value ++ ": " ++ e
  if bits > 32 then .error ("CIDR prefix must be <= 32: " ++ value)
  else
    let ip ← match parseAddress ip with
      | some ip => .ok ip
      | none => .error ("invalid IPv4 address in CIDR " ++ value ++
          ": invalid IPv4 address syntax")
    .ok (ip &&& networkMask bits, bits)

/-- `checked_shl` of 1 as `u32`: a shift by the whole width overflows. -/
def shiftOne (bits : Nat) : Option Nat :=
  if bits < 32 then some (1 <<< bits) else none

def checkedSub (a b : Nat) : Option Nat :=
  if b ≤ a then some (a - b) else none

def saturatingAdd (a b : Nat) : Nat :=
  min (a + b) (2 ^ 32 - 1)

/-- There is no result where the arithmetic overflows. -/
def hostCountForPrefix (bits : Nat) : Option Nat :=
  match bits with
  | 32 => some 1
  | 31 => some 2
  | _ => (shiftOne (32 - bits)).bind fun size => checkedSub size 2

inductive DiscoveryProtocol where
  | onvif | mdns | ssdp | matter | rtspProbe
deriving DecidableEq

inductive DiscoveryCandidateStatus where
  | discovered | validated | rejected
deriving DecidableEq

/-- The fields of a request that seeding reads. -/
structure DiscoveryRequest where
  networkCidr : String
  rtspPort : Option UInt16
  rtspPaths : List String
deriving DecidableEq

structure DiscoveryCandidate where
  candidateId : String
  protocol : DiscoveryProtocol
  name : Option String
  ipAddress : String
  port : Option UInt16
  vendor : Option String
  model : Option String
  rtspPaths : List String
  status : DiscoveryCandidateStatus
deriving DecidableEq

def maxRtspSeedHosts : Nat := 1024

def defaultRtspPaths : List String :=
  ["/stream1", "/stream2", "/h264/ch1/main/av_stream", "/ch1/main", "/Streaming/Channels/101",
    "/live", "/h264/ch1/sub/av_stream", "/ch1/sub", "/Streaming/Channels/102"]

def candidateFor (request : DiscoveryRequest) (host : Nat) : DiscoveryCandidate :=
  let ip := String.ofList (displayAddress host)
  { candidateId := "rtsp-" ++ replaceChar '.' '-' ip
    protocol := .rtspProbe
    name := none
    ipAddress := ip
    port := request.rtspPort.or (some 554)
    vendor := none
    model := none
    rtspPaths := if request.rtspPaths = [] then defaultRtspPaths else request.rtspPaths
    status := .discovered }

def tooLargeMessage (request : DiscoveryRequest) (hostCount : Nat) : String :=
  "network " ++ request.networkCidr ++ " is too large for RTSP fallback scan (" ++
    toString hostCount ++ " hosts > max " ++ toString maxRtspSeedHosts ++ ")"

def seedNetwork (request : DiscoveryRequest) (network bits : Nat) :
    Option (Except String (List DiscoveryCandidate)) := do
  let hostCount ← hostCountForPrefix bits
  if hostCount > maxRtspSeedHosts then some (.error (tooLargeMessage request hostCount))
  else
    let start := if bits ≥ 31 then network else saturatingAdd network 1
    let stop := if bits ≥ 31 then saturatingAdd network hostCount
      else saturatingAdd network (hostCount + 1)
    some (.ok ((List.range' start (stop - start)).map (candidateFor request)))

/-- There is no result where the arithmetic overflows. -/
def seedRtspCandidates (request : DiscoveryRequest) :
    Option (Except String (List DiscoveryCandidate)) :=
  match parseIpv4Cidr request.networkCidr with
  | .error message => some (.error message)
  | .ok (network, bits) => seedNetwork request network bits

def cidrText (network bits : Nat) : String :=
  String.ofList (displayAddress network ++ '/' :: Nat.toDigits 10 bits)

def normalizeScanCidr (value : String) : Option String := do
  let trimmed := trim value
  let (ip, bits) ← splitOnce '/' trimmed.toList
  let parsedIp ← parseAddress ip
  match parseUnsigned 255 bits with
  | .ok parsedBits =>
      if parsedBits ≤ 32 then some (cidrText (parsedIp &&& networkMask parsedBits) parsedBits)
      else normalizePort parsedIp bits
  | .error _ => normalizePort parsedIp bits
where
  /-- A port in the place of the number of bits: the network of the first three octets. -/
  normalizePort (parsedIp : Nat) (bits : List Char) : Option String :=
    match parseUnsigned 65535 bits with
    | .ok port =>
        if port > 32 then some (cidrText (parsedIp / 2 ^ 8 * 2 ^ 8) 24)
        else none
    | .error _ => none

section Parsing

variable {value : String} {network bits : Nat} {separator : Char}

theorem splitOnce_append {before after : List Char} (h : separator ∉ before) :
    splitOnce separator (before ++ separator :: after) = some (before, after) := by
  have hne : ∀ c ∈ before, decide (c ≠ separator) = true := by
    intro c hc
    simp only [decide_eq_true_eq]
    rintro rfl
    exact h hc
  rw [splitOnce, if_pos (by simp), List.takeWhile_append_of_pos hne,
    List.dropWhile_append_of_pos hne]
  simp

theorem splitOnce_eq_some {text before after : List Char}
    (h : splitOnce separator text = some (before, after)) :
    text = before ++ separator :: after ∧ separator ∉ before := by
  rw [splitOnce] at h
  split at h
  · rename_i hmem
    simp only [Option.some.injEq, Prod.mk.injEq] at h
    obtain ⟨rfl, rfl⟩ := h
    constructor
    · have hne : text.dropWhile (· ≠ separator) ≠ [] := by
        rw [Ne, List.dropWhile_eq_nil_iff]
        intro hall
        simpa using hall separator hmem
      have hhead : (text.dropWhile (· ≠ separator)).head hne = separator := by
        simpa using List.head_dropWhile_not _ hne
      have hcut := List.cons_head_tail hne
      rw [hhead] at hcut
      rw [hcut, List.takeWhile_append_dropWhile]
    · intro hsep
      simpa using List.mem_takeWhile_imp hsep
  · simp at h

theorem parseIpv4Cidr_eq_ok (h : parseIpv4Cidr value = .ok (network, bits)) :
    ∃ ip prefixText address, splitOnce '/' value.toList = some (ip, prefixText) ∧
      parseAddress ip = some address ∧ parseUnsigned 255 prefixText = .ok bits ∧ bits ≤ 32 ∧
      network = networkOf bits address := by
  rw [parseIpv4Cidr] at h
  rcases hsplit : splitOnce '/' value.toList with _ | ⟨ip, prefixText⟩
  · simp [hsplit, bind, Except.bind] at h
  · rcases hbits : parseUnsigned 255 prefixText with message | found
    · simp [hsplit, hbits, bind, Except.bind, Except.mapError] at h
    · simp only [hsplit, hbits, bind, Except.bind, Except.mapError] at h
      split at h
      · simp at h
      · rename_i hle
        rcases hip : parseAddress ip with _ | address
        · simp [hip] at h
        · simp only [hip, Except.ok.injEq, Prod.mk.injEq] at h
          obtain ⟨hnetwork, rfl⟩ := h
          refine ⟨ip, prefixText, address, rfl, hip, hbits, by omega, ?_⟩
          rw [← hnetwork]
          exact land_networkMask found (parseAddress_eq_some hip).2

theorem parseIpv4Cidr_cidrText (hbits : bits ≤ 32) (hnetwork : network < 2 ^ 32) :
    parseIpv4Cidr (cidrText network bits) = .ok (networkOf bits network, bits) := by
  have hslash : '/' ∉ displayAddress network := fun h => by
    simpa using mem_displayAddress h
  have hsplit : splitOnce '/' (cidrText network bits).toList =
      some (displayAddress network, Nat.toDigits 10 bits) := by
    rw [cidrText, String.toList_ofList]
    exact splitOnce_append hslash
  have hread : parseUnsigned 255 (Nat.toDigits 10 bits) = .ok bits :=
    parseUnsigned_toDigits (by omega)
  have hle : ¬ bits > 32 := by omega
  rw [parseIpv4Cidr, hsplit]
  simp only [hread, bind, Except.bind, Except.mapError, hle, if_false,
    parseAddress_displayAddress hnetwork, land_networkMask bits hnetwork]

end Parsing

section Coverage

variable {request : DiscoveryRequest} {network bits : Nat}

/-- Without overflow, seeding gives the error of a network that is too large exactly for those with
too many usable hosts, and one candidate for each of the usable hosts in order otherwise. -/
def CoversNetwork (request : DiscoveryRequest) (network bits : Nat) : Prop :=
  ∃ result, seedRtspCandidates request = some result ∧
    (maxRtspSeedHosts < (usableHosts bits network).length →
      result = .error (tooLargeMessage request (usableHosts bits network).length)) ∧
    ((usableHosts bits network).length ≤ maxRtspSeedHosts →
      ∃ candidates, result = .ok candidates ∧ candidates.map (·.ipAddress) =
        (usableHosts bits network).map fun host => String.ofList (displayAddress host))

theorem hostCountForPrefix_zero : hostCountForPrefix 0 = none := rfl

theorem hostCountForPrefix_eq (hpos : bits ≠ 0) (hbits : bits ≤ 32) (network : Nat) :
    hostCountForPrefix bits = some (usableHosts bits network).length := by
  rw [hostCountForPrefix.eq_def, length_usableHosts]
  split
  · rfl
  · rfl
  · rename_i hne hne'
    have hwide : bits ≠ 32 := hne
    have htwo : bits ≠ 31 := hne'
    have hlt : bits < 31 := by omega
    have hshift : shiftOne (32 - bits) = some (networkSize bits) := by
      rw [shiftOne, if_pos (by omega), Nat.one_shiftLeft, networkSize]
    have hfour : 2 ^ 2 ≤ networkSize bits := Nat.pow_le_pow_right (by decide) (by omega)
    rw [hshift, if_neg (by omega)]
    change checkedSub (networkSize bits) 2 = _
    rw [checkedSub, if_pos (by omega)]

theorem ipAddress_candidates (request : DiscoveryRequest) (hosts : List Nat) :
    (hosts.map (candidateFor request)).map (·.ipAddress) =
      hosts.map fun host => String.ofList (displayAddress host) := by
  rw [List.map_map]
  rfl

theorem seedNetwork_of_le (hpos : bits ≠ 0) (hbits : bits ≤ 32)
    (hnetwork : network + networkSize bits ≤ 2 ^ 32)
    (hle : (usableHosts bits network).length ≤ maxRtspSeedHosts) :
    seedNetwork request network bits = some (.ok
      ((if 31 ≤ bits ∧ network + networkSize bits = 2 ^ 32 then
        List.range' network (networkSize bits - 1)
      else usableHosts bits network).map (candidateFor request))) := by
  have hsize := networkSize_pos bits
  rw [seedNetwork, hostCountForPrefix_eq hpos hbits network]
  simp only [Option.bind_eq_bind, Option.bind_some]
  rw [if_neg (by omega), length_usableHosts]
  rcases Nat.lt_or_ge bits 31 with hlt | hge
  · have hfour : 2 ^ 2 ≤ networkSize bits := Nat.pow_le_pow_right (by decide) (by omega)
    have hstart : saturatingAdd network 1 = network + 1 := by
      rw [saturatingAdd]
      omega
    have hstop : saturatingAdd network (networkSize bits - 2 + 1) - (network + 1) =
        networkSize bits - 2 := by
      rw [saturatingAdd]
      omega
    rw [if_neg (by omega), if_neg (by omega), if_neg (by omega), if_neg (by omega), hstart, hstop,
      usableHosts_of_lt hlt]
  · have hstop : saturatingAdd network (networkSize bits) - network =
        if network + networkSize bits = 2 ^ 32 then networkSize bits - 1 else networkSize bits := by
      rw [saturatingAdd]
      split <;> omega
    rw [if_pos hge, if_pos hge, if_pos hge, hstop, usableHosts_of_le hge]
    split
    · rename_i htop
      rw [if_pos ⟨hge, htop⟩]
    · rename_i htop
      rw [if_neg fun h => htop h.2]

theorem coversNetwork_iff (hparse : parseIpv4Cidr request.networkCidr = .ok (network, bits)) :
    CoversNetwork request network bits ↔
      bits ≠ 0 ∧ (31 ≤ bits → network + networkSize bits < 2 ^ 32) := by
  obtain ⟨ip, prefixText, address, -, hip, -, hbits, hnetworkOf⟩ := parseIpv4Cidr_eq_ok hparse
  have hnetwork : network + networkSize bits ≤ 2 ^ 32 := by
    rw [hnetworkOf]
    exact networkOf_add_networkSize_le bits (parseAddress_eq_some hip).2
  have hsize := networkSize_pos bits
  have hseed : seedRtspCandidates request = seedNetwork request network bits := by
    rw [seedRtspCandidates, hparse]
  rw [CoversNetwork, hseed]
  constructor
  · rintro ⟨result, hresult, -, hcandidates⟩
    have hpos : bits ≠ 0 := by
      rintro rfl
      simp [seedNetwork, hostCountForPrefix_zero] at hresult
    refine ⟨hpos, fun hge => ?_⟩
    have hlength : (usableHosts bits network).length = networkSize bits := by
      rw [length_usableHosts, if_pos hge]
    have htwo : networkSize bits ≤ 2 ^ 1 := Nat.pow_le_pow_right (by decide) (by omega)
    have hle : (usableHosts bits network).length ≤ maxRtspSeedHosts := by
      rw [hlength]
      exact htwo.trans (by decide)
    obtain ⟨candidates, rfl, haddresses⟩ := hcandidates hle
    rw [seedNetwork_of_le hpos hbits hnetwork hle, Option.some.injEq, Except.ok.injEq] at hresult
    rw [← hresult, ipAddress_candidates] at haddresses
    have hlengths := congrArg List.length haddresses
    rw [List.length_map, List.length_map] at hlengths
    apply lt_of_le_of_ne hnetwork
    intro htop
    rw [if_pos ⟨hge, htop⟩, List.length_range', hlength] at hlengths
    omega
  · rintro ⟨hpos, htop⟩
    rcases Nat.lt_or_ge maxRtspSeedHosts (usableHosts bits network).length with hlt | hle
    · refine ⟨.error _, ?_, fun _ => rfl, fun hle => by omega⟩
      rw [seedNetwork, hostCountForPrefix_eq hpos hbits network]
      simp only [Option.bind_eq_bind, Option.bind_some]
      rw [if_pos hlt]
    · refine ⟨_, seedNetwork_of_le hpos hbits hnetwork hle, fun hlt => by omega, fun _ => ?_⟩
      refine ⟨_, rfl, ?_⟩
      rw [if_neg fun h => (htop h.1).ne h.2, ipAddress_candidates]

end Coverage

section Normalization

variable {value : String} {network bits : Nat}

/-- The text that the settings keep stands for the network, and is kept as it is. -/
def NormalizesAlike (value : String) (network bits : Nat) : Prop :=
  ∃ text, normalizeScanCidr value = some text ∧ parseIpv4Cidr text = .ok (network, bits) ∧
    normalizeScanCidr text = some text

theorem trim_of_parseIpv4Cidr (h : parseIpv4Cidr value = .ok (network, bits)) :
    trim value = value := by
  obtain ⟨ip, prefixText, address, hsplit, hip, hbits, -, -⟩ := parseIpv4Cidr_eq_ok h
  have hdigit : ∀ c : Char, c.isDigit = true → isWhitespace c = false := by
    intro c hc
    simp only [Char.isDigit, Bool.and_eq_true, decide_eq_true_eq] at hc
    have hlower : 48 ≤ c.toNat := hc.1
    have hupper : c.toNat ≤ 57 := hc.2
    simp [isWhitespace]
    omega
  apply trim_eq_self
  intro c hc
  rw [(splitOnce_eq_some hsplit).1, List.mem_append, List.mem_cons] at hc
  rcases hc with hc | rfl | hc
  · rcases (parseAddress_eq_some hip).1 c hc with rfl | hc
    · decide
    · exact hdigit c hc
  · decide
  · rcases (parseUnsigned_eq_ok hbits).1 c hc with rfl | hc
    · decide
    · exact hdigit c hc

theorem normalizeScanCidr_of_parse (h : parseIpv4Cidr value = .ok (network, bits)) :
    normalizeScanCidr value = some (cidrText network bits) := by
  obtain ⟨ip, prefixText, address, hsplit, hip, hbits, hle, rfl⟩ := parseIpv4Cidr_eq_ok h
  rw [normalizeScanCidr, trim_of_parseIpv4Cidr h, hsplit]
  simp only [Option.bind_eq_bind, Option.bind_some, hip, hbits]
  rw [if_pos hle, land_networkMask bits (parseAddress_eq_some hip).2]

theorem normalizesAlike (h : parseIpv4Cidr value = .ok (network, bits)) :
    NormalizesAlike value network bits := by
  obtain ⟨ip, prefixText, address, -, hip, -, hle, hnetwork⟩ := parseIpv4Cidr_eq_ok h
  have hparse : parseIpv4Cidr (cidrText network bits) = .ok (network, bits) := by
    have hlt : network < 2 ^ 32 := by
      rw [hnetwork]
      exact (networkOf_le bits address).trans_lt (parseAddress_eq_some hip).2
    rw [parseIpv4Cidr_cidrText hle hlt, hnetwork, networkOf_networkOf]
  exact ⟨_, normalizeScanCidr_of_parse h, hparse, normalizeScanCidr_of_parse hparse⟩

end Normalization

/-- For every text that is accepted, seeding covers the network and the settings keep it if and
only if the number of bits is not zero and no network of one or two addresses ends with the last
address there is. -/
theorem scan_covers_network_iff (request : DiscoveryRequest) (network bits : Nat)
    (hparse : parseIpv4Cidr request.networkCidr = .ok (network, bits)) :
    CoversNetwork request network bits ∧ NormalizesAlike request.networkCidr network bits ↔
      bits ≠ 0 ∧ (31 ≤ bits → network + networkSize bits < 2 ^ 32) := by
  rw [coversNetwork_iff hparse]
  exact and_iff_left (normalizesAlike hparse)

def scanRequest (networkCidr : String) : DiscoveryRequest where
  networkCidr := networkCidr
  rtspPort := none
  rtspPaths := []

theorem scan_covers_home_network :
    CoversNetwork (scanRequest "192.168.1.20/24") 3232235776 24 ∧
      NormalizesAlike "192.168.1.20/24" 3232235776 24 :=
  (scan_covers_network_iff (scanRequest "192.168.1.20/24") 3232235776 24 (by decide +kernel)).mpr
    (by decide)

/-- The arithmetic overflows for the network of all addresses, and the one host of the network of
the last address gets no candidate. -/
theorem scan_misses_networks :
    (parseIpv4Cidr "0.0.0.0/0" = .ok (0, 0) ∧ seedRtspCandidates (scanRequest "0.0.0.0/0") = none) ∧
      parseIpv4Cidr "255.255.255.255/32" = .ok (4294967295, 32) ∧
        seedRtspCandidates (scanRequest "255.255.255.255/32") = some (.ok []) ∧
          usableHosts 32 4294967295 = [4294967295] := by
  decide +kernel

end HarborBeacon.NetworkScans
