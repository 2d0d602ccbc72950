import MiniUPnPd.NetfilterNft.NftnlrdrMisc

/-!
The redirection functions of the nftables backend. A mapping is a DNAT rule in the prerouting
chain, an accepting rule in the forward chain, and an entry of the list of expiry times.
Allocations succeed.
-/
namespace Nftnlrdr
open CText Inet Iptcrdr NftnlrdrMisc

/-- `struct timestamp_entry` -/
structure TimestampEntry where
  timestamp : Nat
  eport : UInt16
  protocol : Int16
  deriving DecidableEq

structure Nft where
  prerouting : NftChain
  postrouting : NftChain
  forward : NftChain
  timestampList : List TimestampEntry

def Nft.empty : Nft :=
  { prerouting := .empty, postrouting := .empty, forward := .empty, timestampList := [] }

section caches
variable (s : Nft)

def headRedirect : List RuleT :=
  (s.prerouting.cache .RULE_NAT).filter fun p => p.natType = some .NFT_NAT_DNAT

def headPeer : List RuleT :=
  (s.postrouting.cache .RULE_NAT).filter fun p => p.natType = some .NFT_NAT_SNAT

def headFilter : List RuleT :=
  (s.forward.cache .RULE_FILTER).filter fun p => p.type = .RULE_FILTER

end caches

def entryMatches (eport : UInt16) (proto : Int) (e : TimestampEntry) : Bool :=
  e.eport = eport ∧ e.protocol = Int16.ofInt proto

def getTimestamp (eport : UInt16) (proto : Int) (s : Nft) : Nat :=
  match s.timestampList.find? (entryMatches eport proto) with
  | some e => e.timestamp
  | none => 0

def removeTimestampEntry (eport : UInt16) (proto : Int) (s : Nft) : Nft :=
  { s with timestampList := s.timestampList.eraseP (entryMatches eport proto) }

def addTimestampEntry (eport : UInt16) (proto : Int) (timestamp : Nat) (s : Nft) : Nft :=
  { s with timestampList :=
      { timestamp, eport, protocol := Int16.ofInt proto } :: s.timestampList }

/-- The remote host is not used. -/
def addRedirectRule2 (ifIdx : Option Nat) (_rhost : Option CString) (eport : UInt16)
    (iaddr : CString) (iport : UInt16) (proto : Int) (desc : Option CString) (timestamp : Nat)
    (s : Nft) : Int × Nft :=
  let r := ruleSetDnat ifIdx (UInt8.ofInt proto) 0 eport (inetAddr iaddr) iport
  let s := { s with prerouting := s.prerouting.newRule (desc.getD []) r }
  (0, addTimestampEntry eport proto timestamp s)

def addFilterRule2 (ifIdx : Option Nat) (rhost : Option CString) (iaddr : CString)
    (iport : UInt16) (proto : Int) (desc : Option CString) (s : Nft) : Int × Nft :=
  let rhostAddr := (hostGiven rhost).getD 0
  let r := ruleSetFilter ifIdx (UInt8.ofInt proto) rhostAddr (inetAddr iaddr) iport 0
  (0, { s with forward := s.forward.newRule (desc.getD []) r })

def natMatches (type : NatType) (eport : UInt16) (proto : Int) (p : RuleT) : Bool :=
  p.eport = eport ∧ p.proto.toNat = proto ∧ p.type = .RULE_NAT ∧ p.natType = some type

/-- The protocol and the remote host are not compared. -/
def filterMatches (iport : UInt16) (iaddr : InAddr) (p : RuleT) : Bool :=
  p.eport = iport ∧ p.iaddr = iaddr ∧ p.type = .RULE_FILTER

def delForward (iport : UInt16) (iaddr : InAddr) (s : Nft) : Nft :=
  match (headFilter s).find? (filterMatches iport iaddr) with
  | some p => { s with forward := s.forward.delRule p.handle }
  | none => s

/-- The forward rule that goes with a NAT rule that has been deleted. -/
def delForwardOf (deleted : Option RuleT) (s : Nft) : Nft :=
  match deleted with
  | some p => if p.iaddr ≠ 0 ∧ p.iport ≠ 0 then delForward p.iport p.iaddr s else s
  | none => s

/-- The expiry time stays in the list. -/
def deleteRedirectAndFilterRules (eport : UInt16) (proto : Int) (s : Nft) : Int × Nft :=
  let redirect := (headRedirect s).find? (natMatches .NFT_NAT_DNAT eport proto)
  let s :=
    match redirect with
    | some p => { s with prerouting := s.prerouting.delRule p.handle }
    | none => s
  let s := delForwardOf redirect s
  let peer := (headPeer s).find? (natMatches .NFT_NAT_SNAT eport proto)
  let s :=
    match peer with
    | some p => { s with postrouting := s.postrouting.delRule p.handle }
    | none => s
  (0, delForwardOf peer s)

def redirectMatches (eport : UInt16) (proto : Int) (p : RuleT) : Bool :=
  p.proto.toNat = proto ∧ p.eport = eport

/-- The first rule that the lookup finds. It writes the client into the buffer that it is given
    if the rule has one, and nothing into the buffer for the remote host. -/
def getNatRedirectRule (eport : UInt16) (proto : Int) (s : Nft) : Option RuleT :=
  (headRedirect s).find? (redirectMatches eport proto)

def updatePortmappingDescTimestamp (eport : UInt16) (proto : Int) (timestamp : Nat) (s : Nft) :
    Int × Nft :=
  (0, addTimestampEntry eport proto timestamp (removeTimestampEntry eport proto s))

/-- What the two buffers on the stack hold when the function is entered. -/
structure Buffers where
  iaddrStr : CString
  rhost : CString

def updatePortmapping (ifIdx : Option Nat) (buffers : Buffers) (eport : UInt16) (proto : Int)
    (iport : UInt16) (desc : Option CString) (timestamp : Nat) (s : Nft) : Int × Nft :=
  match getNatRedirectRule eport proto s with
  | none => (-1, s)
  | some p =>
      let iaddrStr := if p.iaddr ≠ 0 then inetNtoa p.iaddr else buffers.iaddrStr
      let s := (deleteRedirectAndFilterRules eport proto s).2
      let s :=
        (addRedirectRule2 ifIdx (some buffers.rhost) eport iaddrStr iport proto desc timestamp s).2
      addFilterRule2 ifIdx (some buffers.rhost) iaddrStr iport proto desc s

end Nftnlrdr
