import MiniUPnPd.NatPmp

/-!
The PCP server, without the PEER and SADSCP opcodes and without flow priority. The
receive buffer is cleared before each packet and the answer is written over the request.
`PcpEnv` adds to `Env` what a packet meets outside the redirection tables: the external
address, the LAN check and the pinholes of the IPv6 firewall.
-/
namespace PcpServer
open NetBytes CText Inet Iptc Iptcrdr NatPmp UpnpPermissions UpnpRedirect

/-- In network order, as one number. -/
abbrev In6Addr := BitVec 128

def isV4Mapped (a : In6Addr) : Bool := a.toNat / 2 ^ 32 = 0xFFFF

def v4Of (a : In6Addr) : InAddr := a.setWidth 32

def v4Mapped (a : InAddr) : In6Addr := BitVec.ofNat 128 (0xFFFF * 2 ^ 32 + a.toNat)

/-- The unspecified address, for IPv6 or IPv4. -/
def isUnspecified (a : In6Addr) : Bool := a = 0 ∨ (isV4Mapped a ∧ v4Of a = 0)

def readAddr (packet : List UInt8) (i : Nat) : In6Addr :=
  BitVec.ofNat 128 ((slice packet i 16).foldl (fun n b => n * 256 + b.toNat) 0)

def addrBytes (a : In6Addr) : List UInt8 :=
  (List.range 16).map fun k => UInt8.ofNat (a.toNat / 256 ^ (15 - k))

/-- A word of memory as the little-endian host reads it. -/
def readHost32 (packet : List UInt8) (i : Nat) : Nat :=
  (byteAt packet i).toNat + (byteAt packet (i + 1)).toNat * 2 ^ 8 +
    (byteAt packet (i + 2)).toNat * 2 ^ 16 + (byteAt packet (i + 3)).toNat * 2 ^ 24

def PCP_OPCODE_ANNOUNCE : UInt8 := 0
def PCP_OPCODE_MAP : UInt8 := 1
def PCP_OPCODE_PEER : UInt8 := 2

def PCP_SUCCESS : UInt8 := 0
def PCP_ERR_UNSUPP_VERSION : UInt8 := 1
def PCP_ERR_NOT_AUTHORIZED : UInt8 := 2
def PCP_ERR_MALFORMED_REQUEST : UInt8 := 3
def PCP_ERR_UNSUPP_OPCODE : UInt8 := 4
def PCP_ERR_UNSUPP_OPTION : UInt8 := 5
def PCP_ERR_MALFORMED_OPTION : UInt8 := 6
def PCP_ERR_NETWORK_FAILURE : UInt8 := 7
def PCP_ERR_NO_RESOURCES : UInt8 := 8
def PCP_ERR_UNSUPP_PROTOCOL : UInt8 := 9
def PCP_ERR_USER_EX_QUOTA : UInt8 := 10
def PCP_ERR_CANNOT_PROVIDE_EXTERNAL : UInt8 := 11
def PCP_ERR_ADDRESS_MISMATCH : UInt8 := 12
def PCP_ERR_EXCESSIVE_REMOTE_PEERS : UInt8 := 13

def PCP_OPTION_3RD_PARTY : UInt8 := 1
def PCP_OPTION_PREF_FAIL : UInt8 := 2
def PCP_OPTION_FILTER : UInt8 := 3

def PCP_MIN_LEN : Nat := 24
def PCP_MAX_LEN : Nat := 1100
def PCP_COMMON_REQUEST_SIZE : Nat := 24
def PCP_COMMON_RESPONSE_SIZE : Nat := 24
def PCP_MAP_V1_SIZE : Nat := 24
def PCP_MAP_V2_SIZE : Nat := 36
def PCP_OPTION_HDR_SIZE : Nat := 4
def PCP_3RD_PARTY_OPTION_SIZE : UInt16 := 20
def PCP_PREFER_FAIL_OPTION_SIZE : UInt16 := 4
def PCP_FILTER_OPTION_SIZE : UInt16 := 24

def thisServerVersion : UInt8 := 2

structure PcpInfo where
  version : UInt8
  opcode : UInt8
  resultCode : UInt8
  lifetime : Nat
  nonce : List Nat
  protocol : UInt8
  intPort : UInt16
  intIp : In6Addr
  extPort : UInt16
  extIp : Option In6Addr
  thirdpIp : Option In6Addr
  mappedIp : In6Addr
  mappedStr : CString
  pfailurePresent : Bool
  senderIp : In6Addr
  isFw : Bool
  desc : CString

def PcpInfo.fail (info : PcpInfo) (code : UInt8) : PcpInfo := { info with resultCode := code }

/-- A pinhole of the IPv6 firewall, as it is read back by its index. -/
structure Pinhole where
  uid : UInt16
  iaddr : CString
  iport : UInt16
  proto : Int
  desc : CString

structure PcpEnv extends Env where
  uplink : Uplink
  /-- `getifaddr_in6` for IPv4 on the external interface -/
  getifaddrIn6 : Option In6Addr
  inetPton6 : CString → Option In6Addr
  inetNtop6 : In6Addr → CString
  minLifetime : Nat
  maxLifetime : Nat
  allowThirdParty : Bool
  getLanForPeer : In6Addr → Bool
  pinholes : List Pinhole
  findInboundpinhole : CString → UInt16 → UInt8 → Option UInt16
  updateInboundpinhole : UInt16 → Nat → Int
  addInboundpinhole : CString → UInt16 → UInt8 → CString → Nat → Int
  deleteInboundpinhole : UInt16 → Int

def getPCPOpCodeStr (opcode : UInt8) : CString :=
  if opcode = PCP_OPCODE_ANNOUNCE then "ANNOUNCE".toList
  else if opcode = PCP_OPCODE_MAP then "MAP".toList
  else if opcode = PCP_OPCODE_PEER then "PEER".toList
  else "UNKNOWN".toList

/-- The flag is set when the version is not supported. -/
def parseCommonRequestHeader (env : PcpEnv) (req : List UInt8) (info : PcpInfo) :
    Bool × PcpInfo :=
  let lifetime := readNU32 req 4
  let info :=
    { info with
      version := byteAt req 0
      opcode := byteAt req 1 &&& 0x7f
      lifetime
      intIp := readAddr req 8
      mappedIp := readAddr req 8 }
  if thisServerVersion < info.version then (true, info.fail PCP_ERR_UNSUPP_VERSION)
  else
    let lifetime := if env.maxLifetime < lifetime then env.maxLifetime % 2 ^ 32 else lifetime
    let lifetime :=
      if lifetime < env.minLifetime ∧ lifetime ≠ 0 then env.minLifetime % 2 ^ 32 else lifetime
    (false, { info with lifetime })

def parsePCPMAPVersion1 (req : List UInt8) (i : Nat) (info : PcpInfo) : PcpInfo :=
  { info with
    protocol := byteAt req i
    intPort := readNU16 req (i + 4)
    extPort := readNU16 req (i + 6)
    extIp := some (readAddr req (i + 8)) }

def parsePCPMAPVersion2 (req : List UInt8) (i : Nat) (info : PcpInfo) : PcpInfo :=
  { info with
    nonce := [readHost32 req i, readHost32 req (i + 4), readHost32 req (i + 8)]
    protocol := byteAt req (i + 12)
    intPort := readNU16 req (i + 16)
    extPort := readNU16 req (i + 18)
    extIp := some (readAddr req (i + 20)) }

/-- The length with its header wraps at 16 bits. Length 0 ends the options. -/
def parsePCPOption (req : List UInt8) (i remain : Nat) (info : PcpInfo) : UInt16 × PcpInfo :=
  let code := byteAt req i
  let optionLength := readNU16 req (i + 2) + 4
  if remain < PCP_OPTION_HDR_SIZE ∨ remain < optionLength.toNat then
    (0, info.fail PCP_ERR_MALFORMED_OPTION)
  else if code = PCP_OPTION_3RD_PARTY then
    if optionLength ≠ PCP_3RD_PARTY_OPTION_SIZE ∨ info.thirdpIp.isSome then
      (0, info.fail PCP_ERR_MALFORMED_OPTION)
    else
      let thirdp := readAddr req (i + 4)
      (optionLength, { info with thirdpIp := some thirdp, mappedIp := thirdp })
  else if code = PCP_OPTION_PREF_FAIL then
    if optionLength ≠ PCP_PREFER_FAIL_OPTION_SIZE then (0, info.fail PCP_ERR_MALFORMED_OPTION)
    else
      let info :=
        if info.opcode ≠ PCP_OPCODE_MAP then info.fail PCP_ERR_MALFORMED_REQUEST else info
      if info.pfailurePresent then (optionLength, info.fail PCP_ERR_MALFORMED_OPTION)
      else (optionLength, { info with pfailurePresent := true })
  else if code = PCP_OPTION_FILTER then
    if optionLength ≠ PCP_FILTER_OPTION_SIZE then (0, info.fail PCP_ERR_MALFORMED_OPTION)
    else if info.opcode ≠ PCP_OPCODE_MAP then (0, info.fail PCP_ERR_MALFORMED_REQUEST)
    else (optionLength, info)
  else if code < 128 then (optionLength, info.fail PCP_ERR_UNSUPP_OPTION)
  else (optionLength, info)

/-- Each option takes at least one of the `remain` bytes. -/
def parsePCPOptions (req : List UInt8) : (fuel i remain : Nat) → PcpInfo → PcpInfo
  | 0, _, _, info => info
  | fuel + 1, i, remain, info =>
      if remain = 0 then info
      else
        let (optionLength, info) := parsePCPOption req i remain info
        if optionLength = 0 then info
        else
          parsePCPOptions req fuel (i + optionLength.toNat) (remain - optionLength.toNat) info

/-- For IPv6 the mapped address itself. -/
def externalAddr (env : PcpEnv) (mappedIp : In6Addr) : Option In6Addr :=
  if isV4Mapped mappedIp then
    match env.uplink.useExtIpAddr with
    | some s =>
        match inetPton s with
        | some a => some (v4Mapped a)
        | none => env.inetPton6 s
    | none => if env.uplink.extIfName.getD [] = [] then none else env.getifaddrIn6
  else some mappedIp

/-- Suggesting another address than the external one is an error with PREFER_FAILURE only. -/
def checkExternalAddress (env : PcpEnv) (info : PcpInfo) : Bool × PcpInfo :=
  let info := { info with isFw := !isV4Mapped info.mappedIp }
  match externalAddr env info.mappedIp with
  | none => (false, info.fail PCP_ERR_NETWORK_FAILURE)
  | some external =>
      let suggested := info.extIp.getD 0
      if isUnspecified suggested = false ∧ suggested ≠ external ∧ info.pfailurePresent then
        (false, info.fail PCP_ERR_CANNOT_PROVIDE_EXTERNAL)
      else (true, { info with extIp := some external })

def inetN46top (env : PcpEnv) (a : In6Addr) : CString :=
  if isV4Mapped a then inetNtoa (v4Of a) else env.inetNtop6 a

def hex8 (n : Nat) : CString := (Nat.toDigits 16 n).leftpad 8 '0'

def pcpDesc (opcode : UInt8) (nonce : List Nat) : CString :=
  "PCP ".toList ++ getPCPOpCodeStr opcode ++ ' ' :: (nonce.map hex8).flatten

def thirdPartyError (env : PcpEnv) (info : PcpInfo) : Option UInt8 :=
  match info.thirdpIp with
  | none => none
  | some ip =>
      if !env.allowThirdParty then some PCP_ERR_UNSUPP_OPTION
      else if ip = info.senderIp then some PCP_ERR_MALFORMED_REQUEST
      else none

def validatePCPMsg (env : PcpEnv) (info : PcpInfo) : Bool × PcpInfo :=
  if info.resultCode ≠ 0 then (false, info)
  else if info.intIp ≠ info.senderIp then (false, info.fail PCP_ERR_ADDRESS_MISMATCH)
  else
    match thirdPartyError env info with
    | some code => (false, info.fail code)
    | none =>
      let info := { info with mappedStr := inetN46top env info.mappedIp }
      if info.protocol = 0 ∧ info.intPort ≠ 0 then (false, info.fail PCP_ERR_MALFORMED_REQUEST)
      else if info.pfailurePresent ∧ isUnspecified (info.extIp.getD 0) ∧ info.extPort = 0 then
        (false, info.fail PCP_ERR_MALFORMED_OPTION)
      else
        match checkExternalAddress env info with
        | (false, info) => (false, info)
        | (true, info) =>
          if info.opcode = PCP_OPCODE_MAP ∨ info.opcode = PCP_OPCODE_PEER then
            (true, { info with desc := pcpDesc info.opcode info.nonce })
          else (true, info)

/-- The loop of `CreatePCPMap_NAT` and the redirection after it, with the result code and
    the external port. `first` is 0 before the first round. -/
def searchExtPort (env : PcpEnv) (info : PcpInfo) : (fuel : Nat) → (first extPort : UInt16) →
    (anyEportAllowed : Bool) → Daemon → Search × Daemon
  | 0, _, extPort, _, d => ({ code := PCP_ERR_NO_RESOURCES, eport := extPort }, d)
  | fuel + 1, first, extPort, anyEportAllowed, d =>
      let proto : Int := info.protocol.toNat
      let stop (code : UInt8) (d : Daemon) : Search × Daemon := ({ code, eport := extPort }, d)
      if first ≠ 0 ∧ extPort = first then
        stop (if anyEportAllowed then PCP_ERR_NO_RESOURCES else PCP_ERR_NOT_AUTHORIZED) d
      else
        let first := if first = 0 then extPort else first
        let next := searchExtPort env info fuel first (nextPort extPort)
        let redirect (d : Daemon) : Search × Daemon :=
          let (r, d) := upnpRedirectInternal env.toEnv none extPort info.mappedStr info.intPort
            proto info.desc ((env.clock.upnpTime + info.lifetime) % 2 ^ 32) d
          stop (if r < 0 then PCP_ERR_NO_RESOURCES else PCP_SUCCESS) d
        if isV4Mapped info.mappedIp ∧
            checkUpnpRuleAgainstPermissions env.upnppermlist extPort (v4Of info.mappedIp)
              info.intPort = false then
          if info.pfailurePresent then stop PCP_ERR_CANNOT_PROVIDE_EXTERNAL d
          else next anyEportAllowed d
        else if env.checkPortinuse ∧
            env.portInUse extPort proto info.mappedStr info.intPort then
          next true d
        else
          match d.lookup extPort proto with
          | (none, d) => redirect d
          | (some old, d) =>
              if info.mappedStr ≠ old.iaddr ∨ info.intPort ≠ old.iport then
                if info.pfailurePresent then stop PCP_ERR_CANNOT_PROVIDE_EXTERNAL d
                else next true d
              else
                let (r, d) := upnpDeleteRedir env.toEnv extPort proto d
                if r = 0 then redirect d
                else if info.pfailurePresent then stop PCP_ERR_CANNOT_PROVIDE_EXTERNAL d
                else next true d

def createPCPMapNAT (env : PcpEnv) (info : PcpInfo) (d : Daemon) : Search × Daemon :=
  let extPort := if info.extPort = 0 then info.intPort else info.extPort
  if extPort = 0 then ({ code := PCP_ERR_MALFORMED_REQUEST, eport := extPort }, d)
  else searchExtPort env info searchFuel 0 extPort false d

/-- The external port is changed only for a new pinhole. -/
def createPCPMapFW (env : PcpEnv) (info : PcpInfo) : Search :=
  let result (r : Int) : UInt8 := if r ≥ 0 then PCP_SUCCESS else PCP_ERR_NO_RESOURCES
  match env.findInboundpinhole info.mappedStr info.intPort info.protocol with
  | some uid =>
      { code := result (env.updateInboundpinhole uid info.lifetime), eport := info.extPort }
  | none =>
      let r := env.addInboundpinhole info.mappedStr info.intPort info.protocol info.desc
        info.lifetime
      { code := result r, eport := if r < 0 then info.extPort else info.intPort }

def createPCPMap (env : PcpEnv) (info : PcpInfo) (d : Daemon) : PcpInfo × Daemon :=
  let (result, d) :=
    if info.isFw then (createPCPMapFW env info, d) else createPCPMapNAT env info d
  ({ info with resultCode := result.code, extPort := result.eport }, d)

/-- The mapping or pinhole that the request asks to delete. -/
def isClients (info : PcpInfo) (iaddr : CString) (iport : UInt16) (proto : Int) : Bool :=
  iaddr = info.mappedStr ∧ proto = info.protocol.toNat ∧ (iport = info.intPort ∨ info.intPort = 0)

/-- The first redirection of the client, from `index` on. -/
def findMapping (info : PcpInfo) : (fuel index : Nat) → Daemon → Option RedirectRule × Daemon
  | 0, _, d => (none, d)
  | fuel + 1, index, d =>
      match getRedirectRuleByIndex index d.nf with
      | (none, nf) => (none, d.withNf nf)
      | (some rule, nf) =>
          if isClients info rule.iaddr rule.iport rule.proto then (some rule, d.withNf nf)
          else findMapping info fuel (index + 1) (d.withNf nf)

def deletePCPMap (env : PcpEnv) (info : PcpInfo) (d : Daemon) : PcpInfo × Daemon :=
  let finish (r : Int) : PcpInfo := if r ≥ 0 then info else info.fail PCP_ERR_NO_RESOURCES
  if info.isFw then
    match env.pinholes.find? fun p => isClients info p.iaddr p.iport p.proto with
    | none => (finish (-1), d)
    | some p =>
        if p.desc ≠ info.desc then (info.fail PCP_ERR_NOT_AUTHORIZED, d)
        else (finish (env.deleteInboundpinhole p.uid), d)
  else
    match findMapping info ((d.nf.chain .nat).length + 1) 0 d with
    | (none, d) => (finish (-1), d)
    | (some rule, d) =>
        if rule.desc ≠ info.desc then (info.fail PCP_ERR_NOT_AUTHORIZED, d)
        else
          let (r, d) := upnpDeleteRedir env.toEnv rule.eport rule.proto d
          (finish r, d)

/-- The flag tells whether an answer is sent. -/
structure Processed where
  answer : Bool
  info : PcpInfo

def processMAP (env : PcpEnv) (info : PcpInfo) (d : Daemon) : Processed × Daemon :=
  match validatePCPMsg env info with
  | (true, info) =>
      let (info, d) :=
        if info.lifetime = 0 then deletePCPMap env info d else createPCPMap env info d
      ({ answer := true, info }, d)
  | (false, info) => ({ answer := decide (info.resultCode ≠ 0), info }, d)

/-- The opcode-specific part of a MAP request of the version with this size and parser. -/
def readMAP (req : List UInt8) (size : Nat) (parse : List UInt8 → Nat → PcpInfo → PcpInfo)
    (info : PcpInfo) : PcpInfo :=
  let i := PCP_COMMON_REQUEST_SIZE
  let remain := req.length - i - size
  parsePCPOptions req remain (i + size) remain (parse req i info)

/-- What a packet asks for, before it is validated: nothing, an answer, or a mapping. -/
inductive Parsed where
  | ignore
  | answer (info : PcpInfo)
  | map (info : PcpInfo)

def parsePCPRequest (env : PcpEnv) (req : List UInt8) (info : PcpInfo) : Parsed :=
  let map (size : Nat) (parse : List UInt8 → Nat → PcpInfo → PcpInfo) (info : PcpInfo) : Parsed :=
    if req.length < PCP_COMMON_REQUEST_SIZE + size then
      .answer (info.fail PCP_ERR_MALFORMED_REQUEST)
    else .map (readMAP req size parse info)
  if req.length < 3 then .ignore
  else if req.length < PCP_MIN_LEN ∨ PCP_MAX_LEN < req.length ∨ req.length % 4 ≠ 0 then
    .answer (info.fail PCP_ERR_MALFORMED_REQUEST)
  else
    match parseCommonRequestHeader env req info with
    | (true, info) => .answer info
    | (false, info) =>
      if info.version = 1 then
        if info.opcode = PCP_OPCODE_MAP then map PCP_MAP_V1_SIZE parsePCPMAPVersion1 info
        else .answer (info.fail PCP_ERR_UNSUPP_OPCODE)
      else if info.version = 2 then
        if info.opcode = PCP_OPCODE_ANNOUNCE then .answer info
        else if info.opcode = PCP_OPCODE_MAP then map PCP_MAP_V2_SIZE parsePCPMAPVersion2 info
        else .answer (info.fail PCP_ERR_UNSUPP_OPCODE)
      else .answer (info.fail PCP_ERR_UNSUPP_VERSION)

def processPCPRequest (env : PcpEnv) (req : List UInt8) (info : PcpInfo) (d : Daemon) :
    Processed × Daemon :=
  match parsePCPRequest env req info with
  | .ignore => ({ answer := false, info }, d)
  | .answer info => ({ answer := true, info }, d)
  | .map info => processMAP env info d

/-- Errors that last are answered with lifetime 0, the others with 30 seconds. -/
def answeredLifetime (info : PcpInfo) : Nat :=
  if info.resultCode ∈ [PCP_ERR_UNSUPP_VERSION, PCP_ERR_NOT_AUTHORIZED,
      PCP_ERR_MALFORMED_REQUEST, PCP_ERR_UNSUPP_OPCODE, PCP_ERR_UNSUPP_OPTION,
      PCP_ERR_MALFORMED_OPTION, PCP_ERR_UNSUPP_PROTOCOL, PCP_ERR_ADDRESS_MISMATCH,
      PCP_ERR_CANNOT_PROVIDE_EXTERNAL, PCP_ERR_EXCESSIVE_REMOTE_PEERS] then 0
  else if info.resultCode ∈ [PCP_ERR_NETWORK_FAILURE, PCP_ERR_NO_RESOURCES,
      PCP_ERR_USER_EX_QUOTA] then 30
  else info.lifetime

def createPCPResponse (env : PcpEnv) (response : List UInt8) (info : PcpInfo) : List UInt8 :=
  let version :=
    if info.resultCode = PCP_ERR_UNSUPP_VERSION then thisServerVersion else info.version
  let header :=
    [version, info.opcode ||| 0x80, 0, info.resultCode] ++ writeNU32 (answeredLifetime info) ++
      writeNU32 (env.uplink.epoch env.clock.upnpTime) ++ List.replicate 12 0
  let response := writeAt response 0 header
  let mapping (i : Nat) : List UInt8 :=
    let ports := writeNU16 info.intPort ++ writeNU16 info.extPort
    writeAt response (PCP_COMMON_RESPONSE_SIZE + i)
      (ports ++ (info.extIp.map addrBytes).getD [])
  if info.opcode = PCP_OPCODE_MAP then
    if version = 1 then mapping 4 else if version = 2 then mapping 16 else response
  else response

/-- Rounded up to a multiple of four, and not below the minimum. -/
def responseLength (len : Nat) : Nat := if len < PCP_MIN_LEN then PCP_MIN_LEN else (len + 3) / 4 * 4

def PcpInfo.received (senderIp : In6Addr) : PcpInfo :=
  { version := 0, opcode := 0, resultCode := PCP_SUCCESS, lifetime := 0, nonce := [0, 0, 0]
    protocol := 0, intPort := 0, intIp := 0, extPort := 0, extIp := none, thirdpIp := none
    mappedIp := 0, mappedStr := [], pfailurePresent := false, senderIp, isFw := false, desc := [] }

def processIncomingPCPPacket (env : PcpEnv) (req : List UInt8) (senderIp : In6Addr)
    (d : Daemon) : Option (List UInt8) × Daemon :=
  if 128 ≤ byteAt req 1 then (none, d)
  else if env.allowThirdParty = false ∧ env.getLanForPeer senderIp = false then (none, d)
  else
    let (processed, d) := processPCPRequest env req (PcpInfo.received senderIp) d
    if processed.answer then
      (some (slice (createPCPResponse env req processed.info) 0 (responseLength req.length)), d)
    else (none, d)

end PcpServer
