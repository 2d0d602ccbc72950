import MiniUPnPd.JwtAuthUtils

/-!
The authorisation token of a request, `header.payload.signature` in base64. The OpenSSL
functions, the key file of the certificate authority and the json-c parser are parameters.
A NULL pointer that is read and a buffer that is freed twice end the daemon.
-/
namespace JwtAuth
open CText Inet JwtAuthUtils

structure PortRange where
  start : UInt16
  stop : UInt16
  deriving DecidableEq

structure IpRange where
  address : InAddr
  mask : Nat
  deriving DecidableEq

structure Permission where
  pubPortRange : List PortRange
  intIpRange : List IpRange
  deriving DecidableEq

def createPermissionObject : Permission := { pubPortRange := [], intIpRange := [] }

inductive Json where
  | string (s : List Char)
  | array (entries : List Json)
  | object (fields : List (List Char × Json))
  | other

structure JwtLibs where
  decodeBase64 : (b64str : List Char) → Option (List Char)
  /-- `PEM_read_bio_PUBKEY` and `EVP_DigestVerify`, -1 also for a key that is none. -/
  digestVerify : (pubkey payload sig : List Char) → Int
  caPubKeyFile : Option (List Char)
  jsonTokenerParse : (payload : List Char) → Option Json

inductive MemoryFault where
  | nullPointer
  | doubleFree
  deriving DecidableEq

/-- 5+1+5, two port numbers and a dash. -/
def MAX_PORTRANGE_STR_LEN : Nat := 11

def verifySignature (libs : JwtLibs) (payload sig pubkey : List Char) : Int :=
  libs.digestVerify (untilNul pubkey) payload sig

def verifySignatureFromKeyFile (libs : JwtLibs) (payload sig : List Char) : Int :=
  match libs.caPubKeyFile with
  | none => -1
  | some pubkey => libs.digestVerify pubkey payload sig

/-- `json_object_object_get_ex` -/
def fieldOf (jobj : Json) (key : String) : Option Json :=
  match jobj with
  | .object fields => (fields.find? fun field => field.1 = key.toList).map (·.2)
  | _ => none

def retrieveStringFromJsonObj (jobj : Json) (key : String) : Option (List Char) :=
  match fieldOf jobj key with
  | some (.string s) => some s
  | _ => none

def retrieveJsonArrayFromJsonObj (jobj : Json) (key : String) : Option (List Json) :=
  match fieldOf jobj key with
  | some (.array entries) => some entries
  | _ => none

def portRangeOf : Json → Option PortRange
  | .string s =>
      if s.length > MAX_PORTRANGE_STR_LEN then none
      else do
        let (startStr, rest) ← strtok '-' (untilNul s)
        let (endStr, _) ← strtok '-' rest
        if atoi startStr ≤ 0 ∨ atoi endStr ≤ 0 then none
        else some { start := atous startStr, stop := atous endStr }
  | _ => none

def ipRangeOf : Json → Option IpRange
  | .string s =>
      if s.length > MAX_IPRANGE_STR_LEN then none
      else (parseIpMaskString (untilNul s)).map fun (address, mask) => { address, mask }
  | _ => none

/-- One entry that is no range makes the whole array invalid. -/
def retrievePortRangeFromJsonObj (jobj : Json) (key : String) : Option (List PortRange) := do
  (← retrieveJsonArrayFromJsonObj jobj key).mapM portRangeOf

def retrieveIpRangeFromJsonObj (jobj : Json) (key : String) : Option (List IpRange) := do
  (← retrieveJsonArrayFromJsonObj jobj key).mapM ipRangeOf

/-- What follows once the token itself is verified. -/
def extractPermission (libs : JwtLibs) (httpSigb64 httpContent payload : List Char)
    (outPerm : Permission) : Except MemoryFault (Int × Permission) :=
  match libs.jsonTokenerParse payload with
  | none => .ok (-1, outPerm)
  | some payloadJson =>
    match retrieveStringFromJsonObj payloadJson "public_key" with
    | none => .ok (-1, outPerm)
    | some clientPubkey =>
      match libs.decodeBase64 httpSigb64 with
      -- decodeBase64 has freed the buffer, and so does its caller
      | none => .error .doubleFree
      | some httpSig =>
        if verifySignature libs httpContent httpSig clientPubkey ≠ 1 then .ok (-1, outPerm)
        else
          match retrievePortRangeFromJsonObj payloadJson "pub_port_range" with
          | none => .ok (-1, outPerm)
          | some pubPortRange =>
            let outPerm := { outPerm with pubPortRange }
            match retrieveIpRangeFromJsonObj payloadJson "int_ip_range" with
            | none => .ok (-1, outPerm)
            | some intIpRange => .ok (1, { outPerm with intIpRange })

def verifyAndExtractAuthToken (libs : JwtLibs) (auth httpSigb64 httpContent : List Char)
    (outPerm : Permission) : Except MemoryFault (Int × Permission) :=
  if auth = [] then .ok (-1, outPerm)
  else
    -- the lengths of the first two parts are taken before the parts are checked
    match strtok '.' (untilNul auth) with
    | none => .error .nullPointer
    | some (headerb64, rest) =>
      match strtok '.' rest with
      | none => .error .nullPointer
      | some (payloadb64, rest) =>
        match strtok '.' rest with
        | none => .ok (-1, outPerm)
        | some (sigb64, _) =>
          match libs.decodeBase64 headerb64, libs.decodeBase64 payloadb64,
              libs.decodeBase64 sigb64 with
          | some _, some payload, some sig =>
            if verifySignatureFromKeyFile libs (headerb64 ++ '.' :: payloadb64) sig ≠ 1 then
              .ok (-1, outPerm)
            else extractPermission libs httpSigb64 httpContent payload outPerm
          | _, _, _ => .ok (-1, outPerm)

theorem extractPermission_result {libs : JwtLibs} {httpSigb64 httpContent payload : List Char}
    {outPerm perm : Permission} {r : Int}
    (result : extractPermission libs httpSigb64 httpContent payload outPerm = .ok (r, perm)) :
    r = 1 ∨ r = -1 := by
  unfold extractPermission at result
  repeat' split at result
  all_goals simp_all

theorem verifyAndExtractAuthToken_result {libs : JwtLibs} {auth httpSigb64 httpContent : List Char}
    {outPerm perm : Permission} {r : Int}
    (result : verifyAndExtractAuthToken libs auth httpSigb64 httpContent outPerm = .ok (r, perm)) :
    r = 1 ∨ r = -1 := by
  unfold verifyAndExtractAuthToken at result
  repeat' split at result
  all_goals first
    | exact extractPermission_result result
    | simp_all

end JwtAuth
