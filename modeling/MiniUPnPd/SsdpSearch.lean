import MiniUPnPd.LanAddresses
import MiniUPnPd.Lib.Reads
import MiniUPnPd.PcpServer

/-!
The answers to an SSDP search. The headers are looked for in the datagram alone, which is shorter
than the buffer it is received in, and what a response repeats of it is the rest of one line.
-/
namespace SsdpSearch
open CText LanAddresses PcpServer Reads

section source

/-- What is defined when the daemon is built. A build without IPv6 has senders of the first kind
    only. -/
structure Build where
  strict : Bool
  delayMsearch : Bool
  sameVersion : Bool
  igdV2 : Bool
  wanIpv6Firewall : Bool
  wanPppConn : Bool
  layer3Forwarding : Bool

inductive Sender
  | inet (addr : InAddr) (port : UInt16)
  | inet6 (addr : In6Addr) (scope : UInt32) (port : UInt16)
  | other (family : Nat)
  deriving DecidableEq

/-- The configuration, and what the system answers. -/
structure Config where
  build : Build
  lanAddrs : List LanAddr
  getSrcForRouteTo : Sender → Option (In6Addr × Int)
  getLinkLocalAddr : UInt32 → In6Addr
  inetNtop : In6Addr → Option CString
  ipv6AddrForHttp : CString
  uuidvalueIgd : CString
  uuidvalueWan : CString
  uuidvalueWcd : CString
  httpPort : UInt16
  httpsPort : Option UInt16
  httpDate : Option CString
  randomUrl : Option CString
  serverString : CString
  bootid : UInt32
  configid : UInt32
  random : Nat → Nat

structure ServiceType where
  s : CString
  version : Nat
  uuid : CString

def device (name : String) : CString := ("urn:schemas-upnp-org:device:" ++ name ++ ":").toList

def service (name : String) : CString := ("urn:schemas-upnp-org:service:" ++ name ++ ":").toList

def knownServiceTypes (cfg : Config) : List ServiceType :=
  let version := if cfg.build.igdV2 then 2 else 1
  [⟨"upnp:rootdevice".toList, 0, cfg.uuidvalueIgd⟩,
    ⟨device "InternetGatewayDevice", version, cfg.uuidvalueIgd⟩,
    ⟨device "WANConnectionDevice", version, cfg.uuidvalueWcd⟩,
    ⟨device "WANDevice", version, cfg.uuidvalueWan⟩,
    ⟨service "WANIPConnection", version, cfg.uuidvalueWcd⟩] ++
  (if cfg.build.igdV2 then [⟨service "DeviceProtection", 1, cfg.uuidvalueIgd⟩] else []) ++
  (if cfg.build.igdV2 && cfg.build.wanIpv6Firewall then
    [⟨service "WANIPv6FirewallControl", 1, cfg.uuidvalueWcd⟩] else []) ++
  [⟨service "WANCommonInterfaceConfig", 1, cfg.uuidvalueWan⟩] ++
  (if cfg.build.wanPppConn then [⟨service "WANPPPConnection", 1, cfg.uuidvalueWcd⟩] else []) ++
  (if cfg.build.layer3Forwarding then
    [⟨service "Layer3Forwarding", 1, cfg.uuidvalueIgd⟩] else [])

def getLanForSender (cfg : Config) (sender : Sender) : Option LanAddr :=
  match sender with
  | .inet addr _ => getLanForPeer cfg.lanAddrs addr
  | .inet6 addr scope _ =>
    if isV4Mapped addr then getLanForPeer cfg.lanAddrs (v4Of addr)
    else if scope ≠ 0 then cfg.lanAddrs.find? fun lan => lan.index = scope.toNat
    else
      match cfg.getSrcForRouteTo sender with
      | none => none
      | some (_, index) => cfg.lanAddrs.find? fun lan => (lan.index : Int) = index
  | .other _ => none

/-- The LAN of the sender, or the one of the interface. -/
def findLan (cfg : Config) (sender : Sender) (sourceIf : Int) : Option LanAddr :=
  match getLanForSender cfg sender with
  | some lan => some lan
  | none =>
    if sourceIf > 0 then cfg.lanAddrs.find? fun lan => (lan.index : Int) = sourceIf else none

def isLinkLocal (addr : In6Addr) : Bool := addr.toNat / 2 ^ 118 = 0x3fa

def announcedHost (cfg : Config) (sender : Sender) (lan : LanAddr) : Option CString :=
  let bracketed (addr : In6Addr) : CString :=
    match cfg.inetNtop addr with
    | none => cfg.ipv6AddrForHttp
    | some text => '[' :: text ++ [']']
  match sender with
  | .inet _ _ => some lan.str
  | .inet6 addr scope _ =>
    if isV4Mapped addr then some lan.str
    else if ¬ cfg.build.strict then some cfg.ipv6AddrForHttp
    else if isLinkLocal addr then some (bracketed (cfg.getLinkLocalAddr scope))
    else
      match cfg.getSrcForRouteTo sender with
      | none => some cfg.ipv6AddrForHttp
      | some (src, _) => some (bracketed src)
  | .other _ => none

/-- What is handed to `sendto_schedule`. The search target is `reflected` if it points into the
    datagram. -/
structure Response where
  destination : Sender
  reflected : Bool
  st : CString
  usn : CString
  buf : CString
  delay : Nat
  deriving DecidableEq

def location (cfg : Config) (name scheme host : CString) (port : UInt16) : CString :=
  name ++ ": ".toList ++ scheme ++ "://".toList ++ host ++ ":".toList ++ utoa port.toNat ++
    (match cfg.randomUrl with
      | none => []
      | some url => '/' :: url) ++
    "/rootDesc.xml\r\n".toList

def responseText (cfg : Config) (st usn host : CString) : CString :=
  "HTTP/1.1 200 OK\r\nCACHE-CONTROL: max-age=120\r\n".toList ++
  (match cfg.httpDate with
    | none => []
    | some date => "DATE: ".toList ++ date ++ "\r\n".toList) ++
  "ST: ".toList ++ st ++ "\r\nUSN: ".toList ++ usn ++ "\r\nEXT:\r\nSERVER: ".toList ++
  cfg.serverString ++ "\r\n".toList ++
  location cfg "LOCATION".toList "http".toList host cfg.httpPort ++
  (match cfg.httpsPort with
    | none => []
    | some port => location cfg "SECURELOCATION.UPNP.ORG".toList "https".toList host port) ++
  "OPT: \"http://schemas.upnp.org/upnp/1/0/\"; ns=01\r\n01-NLS: ".toList ++ utoa cfg.bootid.toNat ++
  "\r\nBOOTID.UPNP.ORG: ".toList ++ utoa cfg.bootid.toNat ++
  "\r\nCONFIGID.UPNP.ORG: ".toList ++ utoa cfg.configid.toNat ++ "\r\n\r\n".toList

def SSDP_PACKET_MAX_LEN : Nat := 1024

/-- `%.*s` prints up to a NUL, and the text is cut to the buffer. -/
def sendSSDPResponse (cfg : Config) (sender : Sender) (reflected : Bool) (st suffix host uuid : CString)
    (delay : Nat) : Response :=
  let target := untilNul st ++ suffix
  let usn := if st = uuid then uuid ++ suffix else uuid ++ "::".toList ++ target
  { destination := sender
    reflected
    st := target
    usn
    buf := (responseText cfg target usn host).take (SSDP_PACKET_MAX_LEN - 1)
    delay }

/-- `random() / (1 + RAND_MAX / (1000 * mx_value))`, which traps for 0. -/
def randomDelay (draw : Nat) (mx : Int) : Option Nat :=
  if mx = 0 then none else some (draw / (1 + 2147483647 / (1000 * mx.toNat)))

def searchDelay (cfg : Config) (draw : Nat) (mx : Int) (delay : Nat) : Option Nat :=
  if cfg.build.delayMsearch then randomDelay (cfg.random draw) mx else some delay

def verStr (i version : Nat) : CString := if i = 0 then [] else utoa version

/-- The first type that the search target starts with. -/
def respondKnown (cfg : Config) (sender : Sender) (host st : CString) (stVer mx : Int)
    (delay : Nat) : Option (List Response × Nat) :=
  let found := (knownServiceTypes cfg).zipIdx.find? fun (known, _) =>
    known.s.length ≤ st.length ∧ st.take known.s.length = known.s ∧
      (cfg.build.strict → stVer ≤ known.version)
  match found with
  | none => some ([], delay)
  | some (known, i) => do
    let delay ← searchDelay cfg 0 mx delay
    let response :=
      if cfg.build.sameVersion then sendSSDPResponse cfg sender true st [] host known.uuid delay
      else sendSSDPResponse cfg sender false known.s (verStr i known.version) host known.uuid delay
    return ([response], delay)

/-- One response for each type and each of the three devices, each a little later. -/
def respondAll (cfg : Config) (sender : Sender) (host : CString) (mx : Int) (delay : Nat) :
    List Response × Nat :=
  let increment := if cfg.build.delayMsearch then mx.toNat * 1000 / 15 else 0
  let types := (knownServiceTypes cfg).zipIdx.map fun (known, i) =>
    (known.s, verStr i known.version, known.uuid)
  let uuids := [cfg.uuidvalueIgd, cfg.uuidvalueWan, cfg.uuidvalueWcd].map fun uuid => (uuid, [], uuid)
  ((types ++ uuids).zipIdx.map fun ((st, suffix, uuid), k) =>
      sendSSDPResponse cfg sender false st suffix host uuid (delay + (k + 1) * increment),
    delay + (types ++ uuids).length * increment)

def respondUuid (cfg : Config) (sender : Sender) (host st : CString) (mx : Int) (draw delay : Nat) :
    Option (List Response) :=
  if cfg.uuidvalueIgd.length ≠ st.length then some []
  else do
    let delay ← searchDelay cfg draw mx delay
    match [cfg.uuidvalueIgd, cfg.uuidvalueWan, cfg.uuidvalueWcd].find? fun uuid =>
        uuid.take st.length = st with
    | none => return []
    | some uuid => return [sendSSDPResponse cfg sender true st [] host uuid delay]

/-- The responses to a search target, unless a delay for MX 0 stops the daemon. -/
def respond (cfg : Config) (sender : Sender) (lan : LanAddr) (st : CString) (stVer mx : Int) :
    Option (List Response) :=
  match announcedHost cfg sender lan with
  | none => some []
  | some host => do
    let (known, delay) ← respondKnown cfg sender host st stVer mx 50
    let (all, delay) :=
      if st = "ssdp:all".toList then respondAll cfg sender host mx delay else ([], delay)
    let uuids ← respondUuid cfg sender host st mx known.length delay
    return known ++ all ++ uuids

/-- `memcmp(bufr, text, strlen(text)) == 0` -/
def memcmpAt (i : Nat) (text : CString) : Reading Char Bool := do
  let s ← readSlice i text.length
  return s = text

def notCrlf (i : Nat) : Reading Char Bool := do
  let c ← read i
  if c ≠ '\r' then return true
  else
    let d ← read (i + 1)
    return d ≠ '\n'

def findCrlf (n i : Nat) : Reading Char {j // i ≤ j} :=
  if i + 1 < n then do
    let other ← notCrlf i
    if other then
      let j ← findCrlf n (i + 1)
      return ⟨j, Nat.le_of_succ_le j.property⟩
    else return ⟨i, Nat.le_refl i⟩
  else return ⟨i, Nat.le_refl i⟩
termination_by n - i

/-- `strncasecmp` or `strncmp`, which end at the first difference. -/
def matchAt (fold : Char → Char) : Nat → CString → Reading Char Bool
  | _, [] => return true
  | i, c :: text => do
      let d ← read i
      if fold d = c then matchAt fold (i + 1) text else return false

def isBlank (c : Char) : Bool := c = ' ' || c = '\t'

def isValue (c : Char) : Bool := c ≠ '\r' && c ≠ '\n'

/-- Where the value starts, and how long it is. -/
def readValue (n i : Nat) : Reading Char (Nat × Nat) := do
  let st ← scanWhile isBlank n i
  let stop ← scanWhile isValue n st
  return (st, stop.val - st.val)

/-- `while(l > 0 && st[l-1] != ':') l--` -/
def afterColon (st : Nat) : Nat → Reading Char Nat
  | 0 => return 0
  | l + 1 => do
      let c ← read (st + l)
      if c ≠ ':' then afterColon st l else return l + 1

/-- The number in a buffer for seven characters. -/
def atoiAt (start len : Nat) : Reading Char Int := do
  let buffer ← readSlice start (min 7 len)
  return atoi (untilNul buffer)

structure Headers where
  st : Option Nat
  stLen : Nat
  stVer : Int
  mxValue : Int

/-- A header that is looked for in some builds only. -/
def named (built : Bool) (n i : Nat) (name : CString) : Reading Char Bool :=
  if built ∧ i + name.length < n then matchAt tolower i name else return false

/-- The headers with the one at `i`, unless an invalid MAN ends the function. -/
def readHeader (build : Build) (n i : Nat) (headers : Headers) : Reading Char (Option Headers) := do
  let isSt ← named true n i "st:".toList
  if isSt then
    let (st, stLen) ← readValue n (i + 3)
    let l ← afterColon st stLen
    let stVer ← atoiAt (st + l) (stLen - l)
    return some { headers with st := some st, stLen, stVer }
  else
    let isMx ← named (build.strict || build.delayMsearch) n i "mx:".toList
    if isMx then
      let (mx, mxLen) ← readValue n (i + 3)
      let mxValue ← atoiAt mx mxLen
      return some { headers with mxValue }
    else
      let isMan ← named build.strict n i "man:".toList
      if isMan then
        let (man, manLen) ← readValue n (i + 4)
        if manLen < 15 then return none
        else
          let discover ← matchAt id man "\"ssdp:discover\"".toList
          return if discover then some headers else none
      else return some headers

def scanHeaders (build : Build) (n i : Nat) (headers : Headers) : Reading Char (Option Headers) :=
  if i < n then do
    let j ← findCrlf n i
    let read ← readHeader build n (j + 2) headers
    match read with
    | none => return none
    | some headers => scanHeaders build n (j + 2) headers
  else return some headers
termination_by n - i
decreasing_by
  exact Nat.sub_lt_sub_left ‹i < n› (Nat.lt_of_le_of_lt j.property (by omega))

/-- The MX value that is used, if the search is answered. -/
def usedMx (build : Build) (mx : Int) : Option Int :=
  if build.strict then if mx < 0 then none else some (if mx > 5 then 5 else mx)
  else if build.delayMsearch then some (if mx < 0 then 1 else if mx > 5 then 5 else mx)
  else some mx

/-- What follows the scan. -/
def respondHeaders (cfg : Config) (sender : Sender) (lan : LanAddr) (headers : Headers) :
    Reading Char (Option (List Response)) :=
  match usedMx cfg.build headers.mxValue, headers.st with
  | some mx, some start =>
    if headers.stLen > 0 then do
      let st ← readSlice start headers.stLen
      return respond cfg sender lan st headers.stVer mx
    else return some []
  | _, _ => return some []

/-- The responses to the datagram of `n` bytes at the start of the buffer. -/
def processSSDPData (cfg : Config) (n : Nat) (sender : Sender) (sourceIf : Int) :
    Reading Char (Option (List Response)) :=
  match findLan cfg sender sourceIf with
  | none => return some []
  | some lan => do
    let notify ← memcmpAt 0 "NOTIFY".toList
    if notify then return some []
    else
      let search ← memcmpAt 0 "M-SEARCH".toList
      if search then
        let read ← scanHeaders cfg.build n 0 { st := none, stLen := 0, stVer := 0, mxValue := -1 }
        match read with
        | none => return some []
        | some headers => respondHeaders cfg sender lan headers
      else return some []

end source

section scan
variable {n : Nat} {bufr : Nat → Char}

/-- The characters of the search target are in the datagram and in one line. -/
def OneLine (n : Nat) (bufr : Nat → Char) (headers : Headers) : Prop :=
  ∀ start, headers.st = some start → start + headers.stLen ≤ n ∧
    ∀ k, start ≤ k → k < start + headers.stLen → isValue (bufr k) = true

theorem inside_memcmpAt {i : Nat} {text : CString} (within : i + text.length ≤ n) :
    Inside n bufr (memcmpAt i text) fun _ => True := by
  apply inside_bind (inside_readSlice text.length i within)
  intro s _
  exact inside_pure trivial

theorem inside_notCrlf {i : Nat} (within : i + 1 < n) :
    Inside n bufr (notCrlf i) fun _ => True := by
  apply inside_bind (inside_read (by omega))
  intro c _
  split
  · exact inside_pure trivial
  · apply inside_bind (inside_read within)
    intro d _
    exact inside_pure trivial

theorem inside_findCrlf (i : Nat) : Inside n bufr (findCrlf n i) fun _ => True := by
  induction left : n - i generalizing i with
  | zero =>
    rw [findCrlf, if_neg (by omega)]
    exact inside_pure trivial
  | succ left ih =>
    rw [findCrlf]
    split
    · rename_i within
      apply inside_bind (inside_notCrlf within)
      intro other _
      split
      · apply inside_bind (ih (i + 1) (by omega))
        intro j _
        exact inside_pure trivial
      · exact inside_pure trivial
    · exact inside_pure trivial

theorem inside_matchAt (fold : Char → Char) (text : CString) (i : Nat)
    (within : i + text.length ≤ n) : Inside n bufr (matchAt fold i text) fun _ => True := by
  induction text generalizing i with
  | nil => exact inside_pure trivial
  | cons c text ih =>
    rw [List.length_cons] at within
    apply inside_bind (inside_read (by omega))
    intro d _
    split
    · exact ih (i + 1) (by omega)
    · exact inside_pure trivial

theorem inside_readValue {i : Nat} (within : i ≤ n) :
    Inside n bufr (readValue n i) fun (st, len) =>
      st + len ≤ n ∧ ∀ k, st ≤ k → k < st + len → isValue (bufr k) = true := by
  apply inside_bind (inside_scanWhile isBlank i within)
  intro st blank
  apply inside_bind (inside_scanWhile isValue st blank.1)
  intro stop value
  have order := stop.property
  obtain ⟨bounded, all⟩ := value
  apply inside_pure
  refine ⟨by omega, ?_⟩
  intro k low high
  exact all k low (by omega)

theorem inside_afterColon (st len : Nat) (within : st + len ≤ n) :
    Inside n bufr (afterColon st len) fun l => l ≤ len := by
  induction len with
  | zero => exact inside_pure (Nat.le_refl 0)
  | succ len ih =>
    apply inside_bind (inside_read (by omega))
    intro c _
    split
    · exact inside_mono (ih (by omega)) fun l small => Nat.le_succ_of_le small
    · exact inside_pure (Nat.le_refl (len + 1))

theorem inside_atoiAt {start len : Nat} (within : start + len ≤ n) :
    Inside n bufr (atoiAt start len) fun _ => True := by
  apply inside_bind (inside_readSlice (min 7 len) start (by omega))
  intro buffer _
  exact inside_pure trivial

theorem inside_named (built : Bool) (i : Nat) (name : CString) :
    Inside n bufr (named built n i name) fun found =>
      found = true → i + name.length < n := by
  unfold named
  split
  · rename_i within
    exact inside_mono (inside_matchAt tolower name i (by omega)) fun _ _ _ => within.2
  · exact inside_pure (by simp)

theorem inside_readHeader (build : Build) (i : Nat) {headers : Headers}
    (line : OneLine n bufr headers) :
    Inside n bufr (readHeader build n i headers) fun read =>
      ∀ headers' ∈ read, OneLine n bufr headers' := by
  have unchanged : ∀ headers' ∈ some headers, OneLine n bufr headers' := by
    intro headers' same
    obtain rfl := Option.some.inj same
    exact line
  have three : "st:".toList.length = 3 ∧ "mx:".toList.length = 3 := by decide
  have four : "man:".toList.length = 4 := by decide
  apply inside_bind (inside_named true i "st:".toList)
  intro isSt st
  split
  · rename_i found
    apply inside_bind (inside_readValue (by have within := st found; omega))
    intro value inLine
    obtain ⟨start, len⟩ := value
    apply inside_bind (inside_afterColon start len inLine.1)
    intro l small
    apply inside_bind (inside_atoiAt (by have within := inLine.1; omega))
    intro stVer _
    apply inside_pure
    intro headers' same start' first
    obtain rfl := Option.some.inj same
    obtain rfl := Option.some.inj first
    exact inLine
  · apply inside_bind (inside_named (build.strict || build.delayMsearch) i "mx:".toList)
    intro isMx mx
    split
    · rename_i found
      apply inside_bind (inside_readValue (by have within := mx found; omega))
      intro value inLine
      obtain ⟨start, len⟩ := value
      apply inside_bind (inside_atoiAt inLine.1)
      intro mxValue _
      apply inside_pure
      intro headers' same
      obtain rfl := Option.some.inj same
      exact line
    · apply inside_bind (inside_named build.strict i "man:".toList)
      intro isMan man
      split
      · rename_i found
        apply inside_bind (inside_readValue (by have within := man found; omega))
        intro value inLine
        obtain ⟨start, len⟩ := value
        dsimp only
        split
        · exact inside_pure (by simp)
        · rename_i long
          have fifteen : "\"ssdp:discover\"".toList.length = 15 := by decide
          apply inside_bind (inside_matchAt id _ start (by have within := inLine.1; omega))
          intro discover _
          apply inside_pure
          split
          · exact unchanged
          · simp
      · exact inside_pure unchanged

theorem inside_scanHeaders (build : Build) (i : Nat) (headers : Headers)
    (line : OneLine n bufr headers) :
    Inside n bufr (scanHeaders build n i headers) fun read =>
      ∀ headers' ∈ read, OneLine n bufr headers' := by
  induction left : n - i using Nat.strongRecOn generalizing i headers with
  | ind left ih =>
    rw [scanHeaders]
    split
    · rename_i more
      apply inside_bind (inside_findCrlf i)
      intro j _
      have later := j.property
      apply inside_bind (inside_readHeader build (j + 2) line)
      intro read lines
      cases read with
      | none => exact inside_pure (by simp)
      | some headers' => exact ih (n - (j + 2)) (by omega) (j + 2) headers' (lines headers' rfl) rfl
    · apply inside_pure
      intro headers' same
      obtain rfl := Option.some.inj same
      exact line

end scan

section responses
variable {cfg : Config} {sender : Sender} {lan : LanAddr} {host st : CString} {stVer mx : Int}
  {r : Response} {rs : List Response} {draw delay delay' : Nat}

/-- The search targets that the daemon announces of itself. -/
def announced (cfg : Config) : List CString :=
  ((knownServiceTypes cfg).zipIdx.map fun (known, i) => untilNul known.s ++ verStr i known.version) ++
    [cfg.uuidvalueIgd, cfg.uuidvalueWan, cfg.uuidvalueWcd].map untilNul

/-- A response goes to the sender, with the target of the search or one of the daemon's own. -/
def Answers (cfg : Config) (sender : Sender) (st : CString) (r : Response) : Prop :=
  r.destination = sender ∧
    if r.reflected then r.st = untilNul st else r.st ∈ announced cfg

theorem answers_reflected (host uuid : CString) (delay : Nat) :
    Answers cfg sender st (sendSSDPResponse cfg sender true st [] host uuid delay) := by
  simp [Answers, sendSSDPResponse]

theorem announced_known {known : ServiceType} {i : Nat}
    (member : (known, i) ∈ (knownServiceTypes cfg).zipIdx) :
    untilNul known.s ++ verStr i known.version ∈ announced cfg := by
  apply List.mem_append_left
  exact List.mem_map.mpr ⟨(known, i), member, rfl⟩

theorem answers_own {own suffix : CString} (own' : untilNul own ++ suffix ∈ announced cfg)
    (host uuid : CString) (delay : Nat) :
    Answers cfg sender st (sendSSDPResponse cfg sender false own suffix host uuid delay) := by
  simp [Answers, sendSSDPResponse, own']

theorem respondKnown_answers
    (sent : respondKnown cfg sender host st stVer mx delay = some (rs, delay')) :
    ∀ r ∈ rs, Answers cfg sender st r := by
  unfold respondKnown at sent
  dsimp only at sent
  split at sent
  · cases sent
    intro r member
    cases member
  · rename_i known i found
    have member := List.mem_of_find?_eq_some found
    simp only [Option.bind_eq_bind, Option.bind_eq_some_iff, Option.pure_def, Option.some.injEq,
      Prod.mk.injEq] at sent
    obtain ⟨delay, _, rfl, _⟩ := sent
    intro r one
    rw [List.mem_singleton.mp one]
    split
    · exact answers_reflected host known.uuid delay
    · exact answers_own (announced_known member) host known.uuid delay

theorem respondAll_answers :
    ∀ r ∈ (respondAll cfg sender host mx delay).1, Answers cfg sender st r := by
  intro r member
  obtain ⟨⟨⟨own, suffix, uuid⟩, k⟩, entry, rfl⟩ := List.mem_map.mp member
  have listed := List.fst_mem_of_mem_zipIdx entry
  apply answers_own
  rcases List.mem_append.mp listed with known | device
  · obtain ⟨⟨known, i⟩, found, same⟩ := List.mem_map.mp known
    obtain ⟨rfl, rfl, rfl⟩ := same
    exact announced_known found
  · obtain ⟨uuid', found, same⟩ := List.mem_map.mp device
    obtain ⟨rfl, rfl, rfl⟩ := same
    apply List.mem_append_right
    rw [List.append_nil]
    exact List.mem_map_of_mem found

theorem respondUuid_answers (sent : respondUuid cfg sender host st mx draw delay = some rs) :
    ∀ r ∈ rs, Answers cfg sender st r := by
  unfold respondUuid at sent
  split at sent
  · cases sent
    intro r member
    cases member
  · simp only [Option.bind_eq_bind, Option.bind_eq_some_iff] at sent
    obtain ⟨delay, _, sent⟩ := sent
    split at sent
    · cases sent
      intro r member
      cases member
    · rename_i uuid found
      cases sent
      intro r one
      rw [List.mem_singleton.mp one]
      exact answers_reflected host uuid delay

theorem respond_answers (sent : respond cfg sender lan st stVer mx = some rs) :
    ∀ r ∈ rs, Answers cfg sender st r := by
  unfold respond at sent
  split at sent
  · cases sent
    intro r member
    cases member
  · rename_i host _
    simp only [Option.bind_eq_bind, Option.bind_eq_some_iff, Option.pure_def,
      Option.some.injEq] at sent
    obtain ⟨⟨known, delay⟩, first, uuids, last, rfl⟩ := sent
    intro r member
    rcases List.mem_append.mp member with either | uuid
    · rcases List.mem_append.mp either with one | own
      · exact respondKnown_answers first r one
      · split at own
        · exact respondAll_answers r own
        · cases own
    · exact respondUuid_answers last r uuid

end responses

section searches
variable {n : Nat} {bufr : Nat → Char}

/-- A datagram of `n` bytes that starts with the name of the method. -/
def IsSearch (n : Nat) (bufr : Nat → Char) : Prop :=
  8 ≤ n ∧ ∀ i < 8, "M-SEARCH".toList[i]? = some (bufr i)

/-- A search target of one line is repeated without its end. -/
theorem untilNul_line {st : CString} (line : ∀ c ∈ st, isValue c = true) :
    '\r' ∉ untilNul st ∧ '\n' ∉ untilNul st := by
  have kept : ∀ c ∈ untilNul st, isValue c = true := by
    intro c member
    exact line c ((List.takeWhile_prefix _).subset member)
  constructor
  · intro member
    exact absurd (kept '\r' member) (by decide)
  · intro member
    exact absurd (kept '\n' member) (by decide)

/-- A response goes to the sender. What it repeats of the datagram has no line end. -/
def Harmless (cfg : Config) (sender : Sender) (r : Response) : Prop :=
  r.destination = sender ∧
    if r.reflected then '\r' ∉ r.st ∧ '\n' ∉ r.st else r.st ∈ announced cfg

theorem inside_respondHeaders (cfg : Config) (sender : Sender) (lan : LanAddr) (headers : Headers)
    (line : OneLine n bufr headers) :
    Inside n bufr (respondHeaders cfg sender lan headers) fun sent =>
      ∀ responses ∈ sent, ∀ r ∈ responses, Harmless cfg sender r := by
  have silent : ∀ responses ∈ some ([] : List Response), ∀ r ∈ responses, Harmless cfg sender r := by
    simp
  unfold respondHeaders
  split
  · rename_i mx start _ found
    obtain ⟨within, value⟩ := line start found
    split
    · apply inside_bind (inside_readSlice headers.stLen start within)
      intro st slice
      apply inside_pure
      intro responses sent r member
      obtain ⟨destination, answer⟩ := respond_answers sent r member
      refine ⟨destination, ?_⟩
      split at answer
      · rename_i reflected
        rw [if_pos reflected, answer]
        apply untilNul_line
        intro c member'
        obtain ⟨k, low, high, same⟩ := slice.2 c member'
        rw [same]
        exact value k low high
      · rename_i own
        rw [if_neg own]
        exact answer
    · exact inside_pure silent
  · exact inside_pure silent

theorem inside_processSSDPData (cfg : Config) (sender : Sender) (sourceIf : Int)
    (long : 8 ≤ n) :
    Inside n bufr (processSSDPData cfg n sender sourceIf) fun sent =>
      ∀ responses ∈ sent, ∀ r ∈ responses, Harmless cfg sender r := by
  have silent : ∀ responses ∈ some ([] : List Response), ∀ r ∈ responses, Harmless cfg sender r := by
    simp
  have eight : "M-SEARCH".toList.length = 8 := by decide
  have six : "NOTIFY".toList.length = 6 := by decide
  unfold processSSDPData
  split
  · exact inside_pure silent
  · rename_i lan _
    apply inside_bind (inside_memcmpAt (by omega))
    intro notify _
    split
    · exact inside_pure silent
    · apply inside_bind (inside_memcmpAt (by omega))
      intro search _
      split
      · apply inside_bind (inside_scanHeaders cfg.build 0 _ (by intro start none; cases none))
        intro read lines
        cases read with
        | none => exact inside_pure silent
        | some headers => exact inside_respondHeaders cfg sender lan headers (lines headers rfl)
      · exact inside_pure silent

/-- A search is answered from its own bytes, and what is repeated of it stays in one line. -/
theorem search_inside (cfg : Config) (sender : Sender) (sourceIf : Int)
    (search : IsSearch n bufr) :
    ∃ sent, processSSDPData cfg n sender sourceIf (fenced n bufr) = some sent ∧
      (∀ bufr' : Nat → Char, (∀ i < n, bufr' i = bufr i) →
        processSSDPData cfg n sender sourceIf (fun i => some (bufr' i)) = some sent) ∧
      ∀ responses ∈ sent, ∀ r ∈ responses, Harmless cfg sender r := by
  obtain ⟨sent, clean, fence, others⟩ :=
    inside_run (inside_processSSDPData cfg sender sourceIf search.1)
  exact ⟨sent, fence, others, clean⟩

/-- A target of more than one line. -/
theorem search_inside_rootdevice :
    let text := "M-SEARCH * HTTP/1.1\r\nST: upnp:rootdevice\nX-Injected: 1\r\n\r\n".toList
    let bufr := fun i => text.getD i 'x'
    let lan : LanAddr :=
      { ifname := "eth1".toList, index := 2, str := "192.168.1.1".toList
        addr := Inet.ofBytes 192 168 1 1, mask := netmask 24, addIndexes := 0 }
    let uuid := "uuid:00000000-0000-0000-0000-000000000000".toList
    let cfg : Config :=
      { build := ⟨false, false, true, false, false, false, true⟩
        lanAddrs := [lan]
        getSrcForRouteTo := fun _ => none
        getLinkLocalAddr := fun _ => 0
        inetNtop := fun _ => none
        ipv6AddrForHttp := "[::1]".toList
        uuidvalueIgd := uuid
        uuidvalueWan := uuid
        uuidvalueWcd := uuid
        httpPort := 5000
        httpsPort := none
        httpDate := none
        randomUrl := none
        serverString := "Linux UPnP/1.1 MiniUPnPd/2.3".toList
        bootid := 1
        configid := 1337
        random := fun _ => 0 }
    let sender := Sender.inet (Inet.ofBytes 192 168 1 10) 50000
    IsSearch text.length bufr ∧
      ∃ sent, processSSDPData cfg text.length sender 2 (fenced text.length bufr) = some sent ∧
        (∀ bufr' : Nat → Char, (∀ i < text.length, bufr' i = bufr i) →
          processSSDPData cfg text.length sender 2 (fun i => some (bufr' i)) = some sent) ∧
        ∀ responses ∈ sent, ∀ r ∈ responses, Harmless cfg sender r := by
  intro text bufr lan uuid cfg sender
  have search : IsSearch text.length bufr := by
    unfold IsSearch
    decide
  exact ⟨search, search_inside cfg sender 2 search⟩

end searches

end SsdpSearch
