import MiniUPnPd.JwtAuth
import MiniUPnPd.Lib.Strtok

/-!
The shapes of an authorisation token. The parts come from `strtok`, which skips empty parts and
reads no further than the third, and their lengths are taken before it is known that there are
two.
-/
namespace JwtTokens
open CText JwtAuth

/-- The parts of a text between dots that are not empty. -/
def dotParts (s : List Char) : List (List Char) := (s.splitOn '.').filter fun part => part ≠ []

/-- A token is three parts in base64 with a dot between them. -/
def ThreeParts (libs : JwtLibs) (auth : List Char) : Prop :=
  ∃ h p s, auth.splitOn '.' = [h, p, s] ∧
    ∀ part ∈ [h, p, s], part ≠ [] ∧ (libs.decodeBase64 part).isSome

theorem dotParts_nil : dotParts [] = [] := parts_nil '.'

theorem strtok_dotParts (s : List Char) :
    match strtok '.' s with
    | none => dotParts s = []
    | some (t, rest) => dotParts s = t :: dotParts rest :=
  strtok_parts '.' s

/-- The parts are in base64, and the signature of the first two is that of the authority. -/
def TokenVerified (libs : JwtLibs) (headerb64 payloadb64 sigb64 payload : List Char) : Prop :=
  (libs.decodeBase64 headerb64).isSome ∧ libs.decodeBase64 payloadb64 = some payload ∧
    ∃ sig, libs.decodeBase64 sigb64 = some sig ∧
      verifySignatureFromKeyFile libs (headerb64 ++ '.' :: payloadb64) sig = 1

/-- The payload as JSON, with the client's key that it names. -/
def ClientKey (libs : JwtLibs) (payload : List Char) (payloadJson : Json) (pubkey : List Char) :
    Prop :=
  libs.jsonTokenerParse payload = some payloadJson ∧
    retrieveStringFromJsonObj payloadJson "public_key" = some pubkey

section checks
variable {libs : JwtLibs} {headerb64 payloadb64 sigb64 payload httpSigb64 httpContent : List Char}
  {outPerm : Permission} {payloadJson : Json} {pubkey : List Char}

/-- What is done with the first three parts. -/
def checkParts (libs : JwtLibs) (headerb64 payloadb64 sigb64 httpSigb64 httpContent : List Char)
    (outPerm : Permission) : Except MemoryFault (Int × Permission) :=
  match libs.decodeBase64 headerb64, libs.decodeBase64 payloadb64, libs.decodeBase64 sigb64 with
  | some _, some payload, some sig =>
    if verifySignatureFromKeyFile libs (headerb64 ++ '.' :: payloadb64) sig ≠ 1 then
      .ok (-1, outPerm)
    else extractPermission libs httpSigb64 httpContent payload outPerm
  | _, _, _ => .ok (-1, outPerm)

theorem verify_parts {auth : List Char} (given : auth ≠ []) :
    verifyAndExtractAuthToken libs auth httpSigb64 httpContent outPerm =
      match dotParts (untilNul auth) with
      | [] => .error .nullPointer
      | [_] => .error .nullPointer
      | [_, _] => .ok (-1, outPerm)
      | headerb64 :: payloadb64 :: sigb64 :: _ =>
          checkParts libs headerb64 payloadb64 sigb64 httpSigb64 httpContent outPerm := by
  unfold verifyAndExtractAuthToken
  rw [if_neg given]
  have first := strtok_dotParts (untilNul auth)
  rcases one : strtok '.' (untilNul auth) with _ | ⟨headerb64, rest⟩
  · rw [one] at first
    dsimp only at first
    rw [first]
  · rw [one] at first
    dsimp only at first ⊢
    rw [first]
    have second := strtok_dotParts rest
    rcases two : strtok '.' rest with _ | ⟨payloadb64, rest⟩
    · rw [two] at second
      dsimp only at second
      rw [second]
    · rw [two] at second
      dsimp only at second ⊢
      rw [second]
      have third := strtok_dotParts rest
      rcases three : strtok '.' rest with _ | ⟨sigb64, rest⟩
      · rw [three] at third
        dsimp only at third
        rw [third]
      · rw [three] at third
        dsimp only at third ⊢
        rw [third]
        rfl

theorem checkParts_unverified
    (unverified : ∀ payload, ¬ TokenVerified libs headerb64 payloadb64 sigb64 payload) :
    checkParts libs headerb64 payloadb64 sigb64 httpSigb64 httpContent outPerm =
      .ok (-1, outPerm) := by
  unfold checkParts
  split
  · rename_i header payload sig first second third
    split
    · rfl
    · rename_i good
      have verified : TokenVerified libs headerb64 payloadb64 sigb64 payload := by
        refine ⟨by simp [first], second, sig, third, ?_⟩
        simpa using good
      exact absurd verified (unverified payload)
  · rfl

theorem checkParts_verified (verified : TokenVerified libs headerb64 payloadb64 sigb64 payload) :
    checkParts libs headerb64 payloadb64 sigb64 httpSigb64 httpContent outPerm =
      extractPermission libs httpSigb64 httpContent payload outPerm := by
  obtain ⟨first, second, sig, third, good⟩ := verified
  obtain ⟨header, first⟩ := Option.isSome_iff_exists.mp first
  unfold checkParts
  rw [first, second, third]
  dsimp only
  rw [if_neg (by simpa using good)]

theorem extract_keyless
    (keyless : ∀ payloadJson pubkey, ¬ ClientKey libs payload payloadJson pubkey) :
    extractPermission libs httpSigb64 httpContent payload outPerm = .ok (-1, outPerm) := by
  unfold extractPermission
  split
  · rfl
  · rename_i payloadJson parsed
    split
    · rfl
    · rename_i pubkey named
      exact absurd ⟨parsed, named⟩ (keyless payloadJson pubkey)

/-- With the client's key the signature of the request is decoded, and its buffer freed again
    where that fails. -/
theorem extract_key (key : ClientKey libs payload payloadJson pubkey) :
    extractPermission libs httpSigb64 httpContent payload outPerm =
      match libs.decodeBase64 httpSigb64 with
      | none => .error .doubleFree
      | some httpSig =>
        if verifySignature libs httpContent httpSig pubkey ≠ 1 then .ok (-1, outPerm)
        else
          match retrievePortRangeFromJsonObj payloadJson "pub_port_range" with
          | none => .ok (-1, outPerm)
          | some pubPortRange =>
            match retrieveIpRangeFromJsonObj payloadJson "int_ip_range" with
            | none => .ok (-1, { outPerm with pubPortRange })
            | some intIpRange => .ok (1, { outPerm with pubPortRange, intIpRange }) := by
  unfold extractPermission
  simp only [key.1, key.2]
  all_goals rfl

theorem TokenVerified.unique {payload' : List Char}
    (verified : TokenVerified libs headerb64 payloadb64 sigb64 payload)
    (again : TokenVerified libs headerb64 payloadb64 sigb64 payload') : payload' = payload :=
  Option.some.inj (again.2.1.symm.trans verified.2.1)

theorem ClientKey.unique {payloadJson' : Json} {pubkey' : List Char}
    (key : ClientKey libs payload payloadJson pubkey)
    (again : ClientKey libs payload payloadJson' pubkey') :
    payloadJson' = payloadJson ∧ pubkey' = pubkey := by
  obtain rfl := Option.some.inj (again.1.symm.trans key.1)
  exact ⟨rfl, Option.some.inj (again.2.symm.trans key.2)⟩

end checks

section tokens
variable (libs : JwtLibs) (auth httpSigb64 httpContent : List Char)

/-- Both signatures, of the token by the authority and of the request by the client, are right. -/
def BothVerified : Prop :=
  ∃ headerb64 payloadb64 sigb64 rest payload payloadJson pubkey httpSig,
    dotParts (untilNul auth) = headerb64 :: payloadb64 :: sigb64 :: rest ∧
      TokenVerified libs headerb64 payloadb64 sigb64 payload ∧
      ClientKey libs payload payloadJson pubkey ∧ libs.decodeBase64 httpSigb64 = some httpSig ∧
      verifySignature libs httpContent httpSig pubkey = 1

/-- The call returns, -1 for a token of another shape, and with the permission as it was unless it
    returns 1 or both signatures are right. -/
def Handled (outPerm : Permission) : Prop :=
  ∃ r perm, verifyAndExtractAuthToken libs auth httpSigb64 httpContent outPerm = .ok (r, perm) ∧
    (¬ ThreeParts libs auth → r = -1) ∧
    (perm ≠ outPerm → r = 1 ∨ BothVerified libs auth httpSigb64 httpContent)

/-- What the token and the signature have to be for the call to go right. -/
structure Regular : Prop where
  /-- There is nothing, or something on both sides of a dot. -/
  parts : auth ≠ [] → 2 ≤ (dotParts (untilNul auth)).length
  /-- Behind a good token the signature of the request is base64. -/
  signature : ∀ headerb64 payloadb64 sigb64 rest payload payloadJson pubkey,
    dotParts (untilNul auth) = headerb64 :: payloadb64 :: sigb64 :: rest →
      TokenVerified libs headerb64 payloadb64 sigb64 payload →
      ClientKey libs payload payloadJson pubkey → (libs.decodeBase64 httpSigb64).isSome
  /-- A token whose first three parts grant ranges to the client that signs has only these. -/
  shape : ∀ headerb64 payloadb64 sigb64 rest payload payloadJson pubkey httpSig,
    dotParts (untilNul auth) = headerb64 :: payloadb64 :: sigb64 :: rest →
      TokenVerified libs headerb64 payloadb64 sigb64 payload →
      ClientKey libs payload payloadJson pubkey → libs.decodeBase64 httpSigb64 = some httpSig →
      verifySignature libs httpContent httpSig pubkey = 1 →
      (retrievePortRangeFromJsonObj payloadJson "pub_port_range").isSome →
      (retrieveIpRangeFromJsonObj payloadJson "int_ip_range").isSome → ThreeParts libs auth

end tokens

section tokens
variable {libs : JwtLibs} {auth httpSigb64 httpContent : List Char} {outPerm : Permission}

theorem handled_refused
    (refused :
      verifyAndExtractAuthToken libs auth httpSigb64 httpContent outPerm = .ok (-1, outPerm)) :
    Handled libs auth httpSigb64 httpContent outPerm :=
  ⟨-1, outPerm, refused, fun _ => rfl, fun changed => absurd rfl changed⟩

theorem not_handled_fault {fault : MemoryFault}
    (stopped : verifyAndExtractAuthToken libs auth httpSigb64 httpContent outPerm = .error fault) :
    ¬ Handled libs auth httpSigb64 httpContent outPerm := by
  intro handled
  obtain ⟨r, perm, returned, _⟩ := handled
  rw [stopped] at returned
  cases returned

/-- A result of 1 is right exactly for a token of the right shape. -/
theorem handled_granted {perm : Permission}
    (granted : verifyAndExtractAuthToken libs auth httpSigb64 httpContent outPerm = .ok (1, perm)) :
    Handled libs auth httpSigb64 httpContent outPerm ↔ ThreeParts libs auth := by
  constructor
  · intro handled
    obtain ⟨r, perm', returned, refused, _⟩ := handled
    rw [granted] at returned
    cases returned
    by_contra other
    exact absurd (refused other) (by decide)
  · intro whole
    exact ⟨1, perm, granted, fun other => absurd whole other, fun _ => .inl rfl⟩

/-- Only a verified token with a key asks for more than its parts. -/
theorem regular_of_keyless (two : 2 ≤ (dotParts (untilNul auth)).length)
    (keyless : ∀ headerb64 payloadb64 sigb64 rest payload payloadJson pubkey,
      dotParts (untilNul auth) = headerb64 :: payloadb64 :: sigb64 :: rest →
        TokenVerified libs headerb64 payloadb64 sigb64 payload →
        ¬ ClientKey libs payload payloadJson pubkey) :
    Regular libs auth httpSigb64 httpContent := by
  constructor
  · intro _
    exact two
  · intro headerb64 payloadb64 sigb64 rest payload payloadJson pubkey split verified key
    exact absurd key (keyless _ _ _ _ _ payloadJson pubkey split verified)
  · intro headerb64 payloadb64 sigb64 rest payload payloadJson pubkey httpSig split verified key
    exact absurd key (keyless _ _ _ _ _ payloadJson pubkey split verified)

section verified
variable {headerb64 payloadb64 sigb64 payload pubkey : List Char} {rest : List (List Char)}
  {payloadJson : Json}

/-- Three parts without a verified payload that names a key. -/
theorem regular_of_refused
    (split : dotParts (untilNul auth) = headerb64 :: payloadb64 :: sigb64 :: rest)
    (refused : ∀ payload payloadJson pubkey,
      TokenVerified libs headerb64 payloadb64 sigb64 payload →
        ¬ ClientKey libs payload payloadJson pubkey) :
    Regular libs auth httpSigb64 httpContent := by
  apply regular_of_keyless
  · simp [split]
  · intro headerb64' payloadb64' sigb64' rest' payload payloadJson pubkey split' verified
    obtain ⟨rfl, rfl, rfl, rfl⟩ : headerb64' = headerb64 ∧ payloadb64' = payloadb64 ∧
        sigb64' = sigb64 ∧ rest' = rest := by simpa [split] using split'.symm
    exact refused payload payloadJson pubkey verified

/-- Behind a verified token with a key there is one signature, and the ranges are of one payload. -/
theorem regular_iff_of_key
    (split : dotParts (untilNul auth) = headerb64 :: payloadb64 :: sigb64 :: rest)
    (verified : TokenVerified libs headerb64 payloadb64 sigb64 payload)
    (key : ClientKey libs payload payloadJson pubkey) :
    Regular libs auth httpSigb64 httpContent ↔
      ∃ httpSig, libs.decodeBase64 httpSigb64 = some httpSig ∧
        (verifySignature libs httpContent httpSig pubkey = 1 →
          (retrievePortRangeFromJsonObj payloadJson "pub_port_range").isSome →
          (retrieveIpRangeFromJsonObj payloadJson "int_ip_range").isSome →
          ThreeParts libs auth) := by
  constructor
  · intro regular
    obtain ⟨httpSig, decoded⟩ := Option.isSome_iff_exists.mp
      (regular.signature _ _ _ _ _ _ _ split verified key)
    exact ⟨httpSig, decoded, regular.shape _ _ _ _ _ _ _ _ split verified key decoded⟩
  · intro given
    obtain ⟨httpSig, decoded, whole⟩ := given
    constructor
    · intro _
      simp [split]
    · intro _ _ _ _ _ _ _ _ _ _
      simp [decoded]
    · intro headerb64' payloadb64' sigb64' rest' payload' payloadJson' pubkey' httpSig' split'
        verified' key' decoded'
      obtain ⟨rfl, rfl, rfl, rfl⟩ : headerb64' = headerb64 ∧ payloadb64' = payloadb64 ∧
          sigb64' = sigb64 ∧ rest' = rest := by simpa [split] using split'.symm
      obtain rfl := verified.unique verified'
      obtain ⟨rfl, rfl⟩ := key.unique key'
      obtain rfl := Option.some.inj (decoded'.symm.trans decoded)
      exact whole

theorem handled_iff_of_key (given : auth ≠ [])
    (split : dotParts (untilNul auth) = headerb64 :: payloadb64 :: sigb64 :: rest)
    (verified : TokenVerified libs headerb64 payloadb64 sigb64 payload)
    (key : ClientKey libs payload payloadJson pubkey) :
    Handled libs auth httpSigb64 httpContent outPerm ↔
      Regular libs auth httpSigb64 httpContent := by
  have run : verifyAndExtractAuthToken libs auth httpSigb64 httpContent outPerm =
      extractPermission libs httpSigb64 httpContent payload outPerm := by
    rw [verify_parts given, split]
    exact checkParts_verified verified
  rw [extract_key key] at run
  rw [regular_iff_of_key split verified key]
  cases decoded : libs.decodeBase64 httpSigb64 with
  | none =>
    simp only [decoded] at run
    constructor
    · intro handled
      exact absurd handled (not_handled_fault run)
    · intro regular
      obtain ⟨httpSig, some, _⟩ := regular
      cases some
  | some httpSig =>
    simp only [decoded] at run
    by_cases good : verifySignature libs httpContent httpSig pubkey = 1
    · have both : BothVerified libs auth httpSigb64 httpContent :=
        ⟨_, _, _, _, _, _, _, _, split, verified, key, decoded, good⟩
      rw [if_neg (by simpa using good)] at run
      cases ports : retrievePortRangeFromJsonObj payloadJson "pub_port_range" with
      | none =>
        simp only [ports] at run
        constructor
        · intro _
          refine ⟨httpSig, rfl, ?_⟩
          simp
        · intro _
          exact handled_refused run
      | some pubPortRange =>
        simp only [ports] at run
        cases addresses : retrieveIpRangeFromJsonObj payloadJson "int_ip_range" with
        | none =>
          simp only [addresses] at run
          constructor
          · intro _
            refine ⟨httpSig, rfl, ?_⟩
            simp
          · intro _
            exact ⟨-1, _, run, fun _ => rfl, fun _ => .inr both⟩
        | some intIpRange =>
          simp only [addresses] at run
          rw [handled_granted run]
          constructor
          · intro whole
            exact ⟨httpSig, rfl, fun _ _ _ => whole⟩
          · intro regular
            obtain ⟨httpSig', same, whole⟩ := regular
            obtain rfl := Option.some.inj same
            exact whole good rfl rfl
    · rw [if_pos (by simpa using good)] at run
      constructor
      · intro _
        exact ⟨httpSig, rfl, fun verified => absurd verified good⟩
      · intro _
        exact handled_refused run

end verified

/-- Three parts that are not those of a verified token with a key. -/
theorem handled_iff_of_refused {headerb64 payloadb64 sigb64 : List Char} {rest : List (List Char)}
    (given : auth ≠ [])
    (split : dotParts (untilNul auth) = headerb64 :: payloadb64 :: sigb64 :: rest)
    (refused : ∀ payload payloadJson pubkey,
      TokenVerified libs headerb64 payloadb64 sigb64 payload →
        ¬ ClientKey libs payload payloadJson pubkey) :
    Handled libs auth httpSigb64 httpContent outPerm ↔
      Regular libs auth httpSigb64 httpContent := by
  have run := @verify_parts libs httpSigb64 httpContent outPerm auth given
  rw [split] at run
  dsimp only at run
  have stopped : checkParts libs headerb64 payloadb64 sigb64 httpSigb64 httpContent outPerm =
      .ok (-1, outPerm) := by
    by_cases verified : ∃ payload, TokenVerified libs headerb64 payloadb64 sigb64 payload
    · obtain ⟨payload, verified⟩ := verified
      rw [checkParts_verified verified]
      apply extract_keyless
      intro payloadJson pubkey
      exact refused payload payloadJson pubkey verified
    · push Not at verified
      exact checkParts_unverified verified
  rw [stopped] at run
  exact iff_of_true (handled_refused run) (regular_of_refused split refused)

/-- The call goes right exactly for the regular tokens. -/
theorem token_handled_iff (libs : JwtLibs) (auth httpSigb64 httpContent : List Char)
    (outPerm : Permission) :
    Handled libs auth httpSigb64 httpContent outPerm ↔
      Regular libs auth httpSigb64 httpContent := by
  by_cases empty : auth = []
  · subst empty
    have none : dotParts (untilNul []) = [] := dotParts_nil
    have regular : Regular libs [] httpSigb64 httpContent := by
      constructor <;> simp [none]
    exact iff_of_true (handled_refused rfl) regular
  have run := @verify_parts libs httpSigb64 httpContent outPerm auth empty
  have short : (dotParts (untilNul auth)).length < 2 →
      ¬ Regular libs auth httpSigb64 httpContent := by
    intro few regular
    have parts := regular.parts empty
    omega
  rcases split : dotParts (untilNul auth) with _ | ⟨headerb64, _ | ⟨payloadb64, _ | ⟨sigb64, rest⟩⟩⟩
  · rw [split] at run
    exact iff_of_false (not_handled_fault run) (short (by simp [split]))
  · rw [split] at run
    exact iff_of_false (not_handled_fault run) (short (by simp [split]))
  · rw [split] at run
    have regular : Regular libs auth httpSigb64 httpContent := by
      apply regular_of_keyless
      · simp [split]
      · intro _ _ _ _ _ _ _ whole
        simp [split] at whole
    exact iff_of_true (handled_refused run) regular
  · by_cases key : ∃ payload payloadJson pubkey,
        TokenVerified libs headerb64 payloadb64 sigb64 payload ∧
          ClientKey libs payload payloadJson pubkey
    · obtain ⟨payload, payloadJson, pubkey, verified, key⟩ := key
      exact handled_iff_of_key empty split verified key
    · apply handled_iff_of_refused empty split
      intro payload payloadJson pubkey verified named
      exact key ⟨payload, payloadJson, pubkey, verified, named⟩

/-- Every text is base64 and rightly signed, and none is JSON. -/
def signingLibs : JwtLibs :=
  { decodeBase64 := some
    digestVerify := fun _ _ _ => 1
    caPubKeyFile := some []
    jsonTokenerParse := fun _ => none }

/-- The length of a second part is taken of a token that has none. -/
theorem dotless_unhandled :
    ¬ Handled signingLibs "abc".toList [] [] createPermissionObject := by
  have stopped : verifyAndExtractAuthToken signingLibs "abc".toList [] [] createPermissionObject =
      .error .nullPointer := by
    decide
  exact not_handled_fault stopped

end tokens

end JwtTokens
