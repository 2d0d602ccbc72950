import MiniUPnPd.PcpServer

/-!
What makes a PCP packet a request that is carried out, what is known about such a request,
and what its answer says. A packet that is not carried out changes nothing.
-/
namespace PcpRequests
open NetBytes CText Inet NatPmp PcpServer UpnpRedirect

/-- The request that is carried out, with what validation has added to it. -/
def acceptedMap (env : PcpEnv) (req : List UInt8) (senderIp : In6Addr) : Option PcpInfo :=
  if 128 ≤ byteAt req 1 then none
  else if env.allowThirdParty = false ∧ env.getLanForPeer senderIp = false then none
  else
    match parsePCPRequest env req (PcpInfo.received senderIp) with
    | .map info =>
        match validatePCPMsg env info with
        | (true, info) => some info
        | (false, _) => none
    | _ => none

section options
variable {env : PcpEnv} {req : List UInt8} {info info' : PcpInfo}

/-- The options leave alone all fields but four, and the mapped address as long as there is
    no THIRD_PARTY option. -/
def OptionsRead (info info' : PcpInfo) : Prop :=
  info' = { info with
    resultCode := info'.resultCode
    thirdpIp := info'.thirdpIp
    mappedIp := info'.mappedIp
    pfailurePresent := info'.pfailurePresent } ∧
  (info'.thirdpIp = none → info.thirdpIp = none ∧ info'.mappedIp = info.mappedIp)

theorem optionsRead_refl (info : PcpInfo) : OptionsRead info info := ⟨rfl, fun absent => ⟨absent, rfl⟩⟩

theorem optionsRead_trans {mid : PcpInfo} (first : OptionsRead info mid)
    (second : OptionsRead mid info') : OptionsRead info info' := by
  obtain ⟨frame, mapped⟩ := first
  obtain ⟨frame', mapped'⟩ := second
  refine ⟨?_, ?_⟩
  · rw [frame', frame]
  · intro absent
    obtain ⟨before, same⟩ := mapped' absent
    obtain ⟨start, same'⟩ := mapped before
    exact ⟨start, same.trans same'⟩

theorem optionsRead_fail (info : PcpInfo) (code : UInt8) : OptionsRead info (info.fail code) :=
  ⟨rfl, fun absent => ⟨absent, rfl⟩⟩

theorem parsePCPOption_read (req : List UInt8) (i remain : Nat) (info : PcpInfo) :
    OptionsRead info (parsePCPOption req i remain info).2 := by
  unfold parsePCPOption
  dsimp only
  split
  · exact optionsRead_fail info _
  · split
    · split
      · exact optionsRead_fail info _
      · exact ⟨rfl, by simp⟩
    · split
      · split
        · exact optionsRead_fail info _
        · split <;> split <;> exact ⟨rfl, fun absent => ⟨absent, rfl⟩⟩
      · split
        · split
          · exact optionsRead_fail info _
          · split
            · exact optionsRead_fail info _
            · exact optionsRead_refl info
        · split
          · exact optionsRead_fail info _
          · exact optionsRead_refl info

theorem parsePCPOptions_read (req : List UInt8) (fuel i remain : Nat) (info : PcpInfo) :
    OptionsRead info (parsePCPOptions req fuel i remain info) := by
  induction fuel generalizing i remain info with
  | zero => exact optionsRead_refl info
  | succ fuel ih =>
    have one := parsePCPOption_read req i remain info
    unfold parsePCPOptions
    dsimp only
    split
    · exact optionsRead_refl info
    · split
      · exact one
      · exact optionsRead_trans one (ih _ _ _)

end options

section accepted
variable {env : PcpEnv} {req : List UInt8} {senderIp : In6Addr} {info info' : PcpInfo}

/-- The lifetime in a request, brought within the configured bounds. -/
def grantedLifetime (env : PcpEnv) (requested : Nat) : Nat :=
  let lifetime := if env.maxLifetime < requested then env.maxLifetime % 2 ^ 32 else requested
  if lifetime < env.minLifetime ∧ lifetime ≠ 0 then env.minLifetime % 2 ^ 32 else lifetime

theorem grantedLifetime_lt {requested : Nat} (small : requested < 2 ^ 32) :
    grantedLifetime env requested < 2 ^ 32 := by
  unfold grantedLifetime
  dsimp only
  split <;> split <;> omega

/-- Bytes before the ports in the opcode-specific part, or in its answer. -/
def portsOffset (version : UInt8) : Nat := if version = 1 then 4 else 16

/-- Version 1 has no nonce. -/
def requestNonce (req : List UInt8) : List Nat :=
  if byteAt req 0 = 1 then [0, 0, 0]
  else [readHost32 req 24, readHost32 req 28, readHost32 req 32]

/-- What is known about a request that is carried out. -/
structure Accepted (env : PcpEnv) (req : List UInt8) (senderIp : In6Addr) (info : PcpInfo) :
    Prop where
  opcode : info.opcode = PCP_OPCODE_MAP
  version : info.version = byteAt req 0
  versions : info.version = 1 ∨ info.version = 2
  long : PCP_COMMON_REQUEST_SIZE + portsOffset info.version + 20 ≤ req.length
  success : info.resultCode = PCP_SUCCESS
  lifetime : info.lifetime = grantedLifetime env (readNU32 req 4)
  nonce : info.nonce = requestNonce req
  intPort : info.intPort = readNU16 req (PCP_COMMON_REQUEST_SIZE + portsOffset info.version)
  extPort : info.extPort = readNU16 req (PCP_COMMON_REQUEST_SIZE + portsOffset info.version + 2)
  sender : info.thirdpIp = none → info.mappedIp = senderIp
  third : env.allowThirdParty = false → info.thirdpIp = none
  mappedStr : info.mappedStr = inetN46top env info.mappedIp
  isFw : info.isFw = !isV4Mapped info.mappedIp
  desc : info.desc = pcpDesc PCP_OPCODE_MAP info.nonce

theorem optionsRead_readMAP (req : List UInt8) (size : Nat)
    (parse : List UInt8 → Nat → PcpInfo → PcpInfo) (info : PcpInfo) :
    OptionsRead (parse req PCP_COMMON_REQUEST_SIZE info) (readMAP req size parse info) :=
  parsePCPOptions_read _ _ _ _ _

/-- What validation checks, and what it adds. -/
theorem validated (valid : validatePCPMsg env info = (true, info')) (map : info.opcode = PCP_OPCODE_MAP) :
    info.resultCode = PCP_SUCCESS ∧ info.intIp = info.senderIp ∧
      thirdPartyError env info = none ∧
      info' = { info with
        mappedStr := inetN46top env info.mappedIp
        isFw := !isV4Mapped info.mappedIp
        extIp := externalAddr env info.mappedIp
        desc := pcpDesc PCP_OPCODE_MAP info.nonce } := by
  unfold validatePCPMsg at valid
  split at valid
  · simp at valid
  · rename_i clean
    split at valid
    · simp at valid
    · rename_i same
      cases third : thirdPartyError env info with
      | some code => simp [third] at valid
      | none =>
        simp only [third] at valid
        split at valid
        · simp at valid
        · split at valid
          · simp at valid
          · refine ⟨not_not.mp clean, not_not.mp same, rfl, ?_⟩
            unfold checkExternalAddress at valid
            dsimp only at valid
            cases external : externalAddr env info.mappedIp with
            | none => simp [external] at valid
            | some address =>
              simp only [external] at valid
              by_cases refused : isUnspecified (info.extIp.getD 0) = false ∧
                  info.extIp.getD 0 ≠ address ∧ info.pfailurePresent
              · simp only [if_pos refused] at valid
                simp at valid
              · simp only [if_neg refused, map, true_or, ↓reduceIte, Prod.mk.injEq, true_and] at valid
                rw [← valid, map]

theorem parsed_map {given : PcpInfo} (parsed : parsePCPRequest env req given = .map info) :
    ∃ header size parse, parseCommonRequestHeader env req given = (false, header) ∧
      header.opcode = PCP_OPCODE_MAP ∧ PCP_COMMON_REQUEST_SIZE + size ≤ req.length ∧
      (header.version = 1 ∧ size = PCP_MAP_V1_SIZE ∧ parse = parsePCPMAPVersion1 ∨
        header.version = 2 ∧ size = PCP_MAP_V2_SIZE ∧ parse = parsePCPMAPVersion2) ∧
      info = readMAP req size parse header := by
  have long : ∀ {size : Nat} {parse : List UInt8 → Nat → PcpInfo → PcpInfo} {header : PcpInfo},
      (if req.length < PCP_COMMON_REQUEST_SIZE + size then
        Parsed.answer (header.fail PCP_ERR_MALFORMED_REQUEST)
      else .map (readMAP req size parse header)) = .map info →
      PCP_COMMON_REQUEST_SIZE + size ≤ req.length ∧ info = readMAP req size parse header := by
    intro size parse header same
    split at same
    · simp at same
    · rename_i enough
      exact ⟨not_lt.mp enough, (Parsed.map.inj same).symm⟩
  unfold parsePCPRequest at parsed
  dsimp only at parsed
  split at parsed
  · simp at parsed
  · split at parsed
    · simp at parsed
    · rcases header : parseCommonRequestHeader env req given with ⟨_ | _, head⟩
      · simp only [header] at parsed
        split at parsed
        · rename_i one
          split at parsed
          · rename_i map
            obtain ⟨enough, same⟩ := long parsed
            exact ⟨head, _, _, rfl, map, enough, .inl ⟨one, rfl, rfl⟩, same⟩
          · simp at parsed
        · split at parsed
          · rename_i two
            split at parsed
            · simp at parsed
            · split at parsed
              · rename_i map
                obtain ⟨enough, same⟩ := long parsed
                exact ⟨head, _, _, rfl, map, enough, .inr ⟨two, rfl, rfl⟩, same⟩
              · simp at parsed
          · simp at parsed
      · simp [header] at parsed

theorem header_read {header : PcpInfo}
    (read : parseCommonRequestHeader env req (PcpInfo.received senderIp) = (false, header)) :
    header = { PcpInfo.received senderIp with
      version := byteAt req 0
      opcode := byteAt req 1 &&& 0x7f
      lifetime := grantedLifetime env (readNU32 req 4)
      intIp := readAddr req 8
      mappedIp := readAddr req 8 } := by
  unfold parseCommonRequestHeader at read
  dsimp only at read
  split at read
  · simp at read
  · exact (Prod.mk.inj read).2.symm

/-- Both versions have the ports one after the other, before the suggested address. -/
theorem layout_read {header : PcpInfo} {size : Nat} {parse : List UInt8 → Nat → PcpInfo → PcpInfo}
    (layout : header.version = 1 ∧ size = PCP_MAP_V1_SIZE ∧ parse = parsePCPMAPVersion1 ∨
      header.version = 2 ∧ size = PCP_MAP_V2_SIZE ∧ parse = parsePCPMAPVersion2) (req : List UInt8)
    (i : Nat) :
    size = portsOffset header.version + 20 ∧
      (parse req i header).nonce = (if header.version = 1 then header.nonce
        else [readHost32 req i, readHost32 req (i + 4), readHost32 req (i + 8)]) ∧
      parse req i header = { header with
        nonce := (parse req i header).nonce
        protocol := (parse req i header).protocol
        intPort := readNU16 req (i + portsOffset header.version)
        extPort := readNU16 req (i + portsOffset header.version + 2)
        extIp := (parse req i header).extIp } := by
  rcases layout with ⟨one, rfl, rfl⟩ | ⟨two, rfl, rfl⟩
  · have offset : portsOffset header.version = 4 := by rw [one]; rfl
    rw [offset, if_pos one]
    exact ⟨rfl, rfl, rfl⟩
  · have offset : portsOffset header.version = 16 := by rw [two]; rfl
    rw [offset, if_neg (by rw [two]; decide)]
    exact ⟨rfl, rfl, rfl⟩

theorem accepted_fields (accepted : acceptedMap env req senderIp = some info) :
    Accepted env req senderIp info := by
  unfold acceptedMap at accepted
  split at accepted
  · simp at accepted
  · split at accepted
    · simp at accepted
    · cases parsed : parsePCPRequest env req (PcpInfo.received senderIp) with
      | ignore => simp [parsed] at accepted
      | answer given => simp [parsed] at accepted
      | map given =>
        simp only [parsed] at accepted
        rcases checked : validatePCPMsg env given with ⟨_ | _, result⟩
        · simp [checked] at accepted
        · simp only [checked, Option.some.injEq] at accepted
          subst accepted
          obtain ⟨header, size, parse, read, map, long, layout, rfl⟩ := parsed_map parsed
          obtain ⟨frame, mapped⟩ := optionsRead_readMAP req size parse header
          obtain ⟨width, words, fields⟩ := layout_read layout req PCP_COMMON_REQUEST_SIZE
          generalize readMAP req size parse header = given at *
          generalize parse req PCP_COMMON_REQUEST_SIZE header = opened at *
          have head := header_read read
          have version : header.version = 1 ∨ header.version = 2 := layout.imp And.left And.left
          have opcode : given.opcode = PCP_OPCODE_MAP := by rw [frame, fields]; exact map
          obtain ⟨clean, own, third, rfl⟩ := validated checked opcode
          have intIp : given.intIp = readAddr req 8 := by rw [frame, fields, head]
          have sender : given.senderIp = senderIp := by rw [frame, fields, head]; rfl
          have same : given.version = header.version := by rw [frame, fields]
          constructor
          · exact opcode
          · rw [frame, fields, head]
          · rw [frame, fields]
            exact version
          · simp only [same]
            omega
          · exact clean
          · rw [frame, fields, head]
          · have number : header.version = byteAt req 0 := by rw [head]
            have cleared : header.nonce = [0, 0, 0] := by rw [head]; rfl
            rw [frame, words, number, cleared]
            rfl
          · rw [frame, fields]
          · rw [frame, fields]
          · intro absent
            have start := (mapped absent).2
            rw [fields, head] at start
            rw [start, ← intIp, own, sender]
          · intro disallowed
            unfold thirdPartyError at third
            cases party : given.thirdpIp with
            | none => rfl
            | some ip => simp [party, disallowed] at third
          · rfl
          · rfl
          · rfl

end accepted

section requests
variable {env : PcpEnv} {req : List UInt8} {senderIp : In6Addr} {info : PcpInfo} {d : Daemon}

def respond (env : PcpEnv) (req : List UInt8) (info : PcpInfo) : List UInt8 :=
  slice (createPCPResponse env req info) 0 (responseLength req.length)

/-- What an accepted request does. -/
def carryOut (env : PcpEnv) (info : PcpInfo) (d : Daemon) : PcpInfo × Daemon :=
  if info.lifetime = 0 then deletePCPMap env info d else createPCPMap env info d

theorem process_accepted (accepted : acceptedMap env req senderIp = some info) :
    processIncomingPCPPacket env req senderIp d =
      (some (respond env req (carryOut env info d).1), (carryOut env info d).2) := by
  unfold acceptedMap at accepted
  unfold processIncomingPCPPacket
  split at accepted
  · simp at accepted
  · rename_i request
    split at accepted
    · simp at accepted
    · rename_i near
      rw [if_neg request, if_neg near]
      cases parsed : parsePCPRequest env req (PcpInfo.received senderIp) with
      | ignore => simp [parsed] at accepted
      | answer info => simp [parsed] at accepted
      | map given =>
        simp only [parsed] at accepted
        rcases checked : validatePCPMsg env given with ⟨valid, result⟩
        rw [checked] at accepted
        cases valid with
        | false => simp at accepted
        | true =>
          obtain rfl := Option.some.inj accepted
          simp only [processPCPRequest, parsed, processMAP, checked, carryOut, respond, ↓reduceIte]

/-- A packet that is not accepted leaves the daemon alone. -/
theorem process_refused (refused : acceptedMap env req senderIp = none) :
    (processIncomingPCPPacket env req senderIp d).2 = d := by
  unfold acceptedMap at refused
  unfold processIncomingPCPPacket
  split at refused
  · rename_i response
    rw [if_pos response]
  · rename_i request
    split at refused
    · rename_i far
      rw [if_neg request, if_pos far]
    · rename_i near
      rw [if_neg request, if_neg near]
      cases parsed : parsePCPRequest env req (PcpInfo.received senderIp) with
      | ignore => simp [processPCPRequest, parsed]
      | answer info => simp [processPCPRequest, parsed]
      | map given =>
        simp only [parsed] at refused
        rcases checked : validatePCPMsg env given with ⟨valid, result⟩
        rw [checked] at refused
        cases valid with
        | true => simp at refused
        | false =>
          simp only [processPCPRequest, parsed, processMAP, checked]
          split <;> rfl

/-- Errors are answered as such; without one, only the answer to an ANNOUNCE is left. -/
theorem parsed_answer {given : PcpInfo}
    (parsed : parsePCPRequest env req given = .answer info) :
    info.resultCode ≠ PCP_SUCCESS ∨ byteAt req 1 &&& 0x7f = PCP_OPCODE_ANNOUNCE := by
  unfold parsePCPRequest at parsed
  have failed : ∀ {info given : PcpInfo} {code : UInt8}, code ≠ PCP_SUCCESS →
      Parsed.answer (given.fail code) = .answer info → info.resultCode ≠ PCP_SUCCESS := by
    intro info given code error same
    obtain rfl := Parsed.answer.inj same
    exact error
  have short : ∀ {size : Nat} {parse : List UInt8 → Nat → PcpInfo → PcpInfo} {given : PcpInfo},
      (if req.length < PCP_COMMON_REQUEST_SIZE + size then
        Parsed.answer (given.fail PCP_ERR_MALFORMED_REQUEST)
      else .map (readMAP req size parse given)) = .answer info → info.resultCode ≠ PCP_SUCCESS := by
    intro size parse given same
    split at same
    · exact failed (by decide) same
    · simp at same
  dsimp only at parsed
  split at parsed
  · simp at parsed
  · split at parsed
    · exact .inl (failed (by decide) parsed)
    · unfold parseCommonRequestHeader at parsed
      dsimp only at parsed
      split at parsed
      · rename_i unsupported same
        split at same
        · obtain ⟨_, rfl⟩ := Prod.mk.inj same
          exact .inl (failed (by decide) parsed)
        · simp at same
      · rename_i header same
        have opcode : header.opcode = byteAt req 1 &&& 0x7f := by
          split at same
          · simp at same
          · rw [← (Prod.mk.inj same).2]
        split at parsed
        · split at parsed
          · exact .inl (short parsed)
          · exact .inl (failed (by decide) parsed)
        · split at parsed
          · split at parsed
            · rename_i announce
              exact .inr (opcode ▸ announce)
            · split at parsed
              · exact .inl (short parsed)
              · exact .inl (failed (by decide) parsed)
          · exact .inl (failed (by decide) parsed)

/-- The first bytes of an answer, up to the opcode-specific part. -/
def responseHead (env : PcpEnv) (info : PcpInfo) : List UInt8 :=
  [if info.resultCode = PCP_ERR_UNSUPP_VERSION then thisServerVersion else info.version,
    info.opcode ||| 0x80, 0, info.resultCode] ++ writeNU32 (answeredLifetime info) ++
    writeNU32 (env.uplink.epoch env.clock.upnpTime) ++ List.replicate 12 0

theorem responseLength_le (len : Nat) : 24 ≤ responseLength len ∧ len ≤ responseLength len := by
  unfold responseLength
  have least : PCP_MIN_LEN = 24 := rfl
  split <;> omega

theorem respond_head {k : Nat} (head : k < 24) :
    byteAt (respond env req info) k = byteAt (responseHead env info) k := by
  have long := responseLength_le req.length
  have first : byteAt (writeAt req 0 (responseHead env info)) k = byteAt (responseHead env info) k := by
    have inside : k < (responseHead env info).length := head
    have written := @byteAt_writeAt req _ 0 k inside
    rwa [Nat.zero_add] at written
  rw [respond, byteAt_slice (by omega), Nat.zero_add, ← first]
  unfold createPCPResponse
  have before : ∀ {i : Nat} {bytes : List UInt8},
      byteAt (writeAt (writeAt req 0 (responseHead env info)) (PCP_COMMON_RESPONSE_SIZE + i) bytes) k =
        byteAt (writeAt req 0 (responseHead env info)) k := by
    intro i bytes
    have size : PCP_COMMON_RESPONSE_SIZE = 24 := rfl
    exact byteAt_writeAt_before (by omega)
  dsimp only
  by_cases map : info.opcode = PCP_OPCODE_MAP
  · rw [if_pos map]
    by_cases one : (if info.resultCode = PCP_ERR_UNSUPP_VERSION then thisServerVersion
        else info.version) = 1
    · rw [if_pos one]
      exact before
    · rw [if_neg one]
      by_cases two : (if info.resultCode = PCP_ERR_UNSUPP_VERSION then thisServerVersion
          else info.version) = 2
      · rw [if_pos two]
        exact before
      · rw [if_neg two]
        rfl
  · rw [if_neg map]
    rfl

theorem respond_code : byteAt (respond env req info) 3 = info.resultCode := by
  rw [respond_head (by decide)]
  rfl

/-- Only an accepted request is answered with success. -/
theorem accepted_of_success {response : List UInt8} {d' : Daemon}
    (map : byteAt req 1 = PCP_OPCODE_MAP)
    (answer : processIncomingPCPPacket env req senderIp d = (some response, d'))
    (success : byteAt response 3 = PCP_SUCCESS) :
    ∃ info, acceptedMap env req senderIp = some info := by
  have coded : ∀ {info : PcpInfo} {after : Daemon}, info.resultCode ≠ PCP_SUCCESS →
      (some (respond env req info), after) ≠ (some response, d') := by
    intro info after failed same
    obtain rfl := Option.some.inj (Prod.mk.inj same).1
    rw [respond_code] at success
    exact failed success
  unfold processIncomingPCPPacket at answer
  unfold acceptedMap
  split at answer
  · simp at answer
  · rename_i request
    rw [if_neg request]
    split at answer
    · simp at answer
    · rename_i near
      rw [if_neg near]
      unfold processPCPRequest at answer
      cases parsed : parsePCPRequest env req (PcpInfo.received senderIp) with
      | ignore => simp [parsed] at answer
      | answer info =>
        simp only [parsed, ↓reduceIte] at answer
        rcases parsed_answer parsed with failed | announce
        · exact absurd answer (coded failed)
        · rw [map] at announce
          exact absurd announce (by decide)
      | map given =>
        simp only [parsed, processMAP] at answer
        rcases checked : validatePCPMsg env given with ⟨_ | _, result⟩
        · simp only [checked, decide_eq_true_eq] at answer
          split at answer
          · rename_i failed
            exact absurd answer (coded failed)
          · simp at answer
        · exact ⟨result, by simp only [checked]⟩

theorem respond_lifetime (small : answeredLifetime info < 2 ^ 32) :
    readNU32 (respond env req info) 4 = answeredLifetime info := by
  have head : readNU32 (respond env req info) 4 = readNU32 (responseHead env info) 4 := by
    rw [readNU32, readNU32, readNU16_congr (respond_head (by decide)) (respond_head (by decide)),
      readNU16_congr (respond_head (by decide)) (respond_head (by decide))]
  rw [head]
  exact readNU32_writeNU32 _ small
    (writeNU32 (env.uplink.epoch env.clock.upnpTime) ++ List.replicate 12 0)

theorem respond_extPort (success : info.resultCode = PCP_SUCCESS)
    (map : info.opcode = PCP_OPCODE_MAP) (version : info.version = 1 ∨ info.version = 2)
    (long : PCP_COMMON_REQUEST_SIZE + portsOffset info.version + 20 ≤ req.length) :
    readNU16 (respond env req info) (PCP_COMMON_RESPONSE_SIZE + portsOffset info.version + 2) =
      info.extPort := by
  have enough := (responseLength_le req.length).2
  have known : info.resultCode ≠ PCP_ERR_UNSUPP_VERSION := by
    rw [success]
    decide
  have size : PCP_COMMON_REQUEST_SIZE = 24 := rfl
  have size' : PCP_COMMON_RESPONSE_SIZE = 24 := rfl
  have written : ∀ {packet : List UInt8} {i : Nat} {address : List UInt8},
      readNU16 (writeAt packet i (writeNU16 info.intPort ++ writeNU16 info.extPort ++ address))
        (i + 2) = info.extPort := by
    intro packet i address
    generalize all : writeNU16 info.intPort ++ writeNU16 info.extPort ++ address = bytes
    have long : 4 ≤ bytes.length := by simp [← all, writeNU16]
    have first := @byteAt_writeAt packet bytes i 2 (by omega)
    have second := @byteAt_writeAt packet bytes i 3 (by omega)
    rw [← all] at first second ⊢
    rw [readNU16_congr first second]
    exact readNU16_writeNU16 info.extPort address
  have whole : ∀ k, k < req.length →
      byteAt (respond env req info) k = byteAt (createPCPResponse env req info) k := by
    intro k inside
    rw [respond, byteAt_slice (by omega), Nat.zero_add]
  rw [readNU16_congr (whole _ (by omega)) (whole _ (by omega))]
  unfold createPCPResponse
  simp only [if_neg known, if_pos map]
  rcases version with one | two
  · rw [if_pos one, one]
    exact written
  · rw [if_neg (by rw [two]; decide), if_pos two, two]
    exact written

end requests

end PcpRequests
