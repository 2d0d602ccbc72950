import MiniUPnPd.Lib.InetNtop6
import MiniUPnPd.NetfilterNft.Nftnlrdr
import MiniUPnPd.PinholeLabel

/-!
The pinholes of the nftables backend: rules of the forward chain, known by their labels. A
buffer on the stack keeps what it held where a function does not write it.
-/
namespace Nftpinhole
open CText Inet Nftnlrdr NftnlrdrMisc PinholeLabel
open PcpServer (In6Addr)

structure Pinholes where
  nft : Nft
  nextUid : Nat
  bounded : nextUid < 65535

def succUid (uid : Nat) : Nat := if uid + 1 ≥ 65535 then 1 else uid + 1

theorem succUid_bounded (uid : Nat) : succUid uid < 65535 := by
  unfold succUid
  split <;> omega

def NFT_DESCR_SIZE : Nat := 1024

/-- The text of a remote host, unless it stands for any. -/
def remoteGiven : Option CString → Option CString
  | none => none
  | some [] => none
  | some (c :: s) => if c = '*' then none else some (c :: s)

/-- The label as `snprintf` writes it. -/
def writtenLabel (uid timestamp : Nat) (desc : CString) : CString :=
  (pinholeLabel uid timestamp desc).take (NFT_DESCR_SIZE - 1)

def Pinholes.newRule (label : CString) (exprs : List NftnlExpr) (s : Pinholes) : Pinholes :=
  { s with nft := { s.nft with forward := s.nft.forward.newRule label exprs } }

def Pinholes.delRule (handle : Nat) (s : Pinholes) : Pinholes :=
  { s with nft := { s.nft with forward := s.nft.forward.delRule handle } }

/-- `stack` is what the buffers for the two addresses held. A text that is no address leaves
    them so. -/
def addPinhole (stack : In6Addr × In6Addr) (ifIdx : Option Nat) (remHost : Option CString)
    (remPort : UInt16) (intClient : CString) (intPort : UInt16) (proto : UInt8) (desc : CString)
    (timestamp : Nat) (s : Pinholes) : Int × Pinholes :=
  let uid := s.nextUid
  let rhost := (remoteGiven remHost).map fun text => (inetPton6 text).getD stack.1
  let ihost := (inetPton6 intClient).getD stack.2
  let comment := writtenLabel uid timestamp desc
  let s := s.newRule comment (ruleSetFilter6 ifIdx proto rhost ihost intPort remPort)
  (uid, { s with nextUid := succUid uid, bounded := succUid_bounded uid })

/-- The rules that the searches look at. -/
def labelled (s : Pinholes) : List RuleT := (headFilter s.nft).filter fun p => p.desc ≠ []

def pinholeMatches (saddr : In6Addr) (remPort : UInt16) (daddr : In6Addr) (intPort : UInt16)
    (proto : UInt8) (p : RuleT) : Bool :=
  proto = p.proto ∧ remPort = p.rport ∧ saddr = p.rhost6 ∧ intPort = p.eport ∧ daddr = p.iaddr6

structure FoundPinhole where
  uid : Int
  timestamp : Nat
  desc : Option CString
  deriving DecidableEq

/-- What follows the colon and a blank. -/
def labelDesc (label : CString) : Option CString :=
  match label.dropWhile (· ≠ ':') with
  | [] => none
  | rest => some (rest.drop 2)

/-- The remote host that is searched for, zero for any. -/
def soughtAddr (stack : In6Addr) (remHost : Option CString) : In6Addr :=
  match remoteGiven remHost with
  | some text => (inetPton6 text).getD stack
  | none => 0

/-- The first of the rules for these hosts and ports that has the label of a pinhole. -/
def findPinhole (stack : In6Addr × In6Addr) (remHost : Option CString) (remPort : UInt16)
    (intClient : CString) (intPort : UInt16) (proto : UInt8) (s : Pinholes) :
    Option FoundPinhole :=
  let saddr := soughtAddr stack.1 remHost
  let daddr := (inetPton6 intClient).getD stack.2
  ((labelled s).filter (pinholeMatches saddr remPort daddr intPort proto)).findSome? fun p =>
    (scanLabel p.desc).map fun (uid, timestamp) => { uid, timestamp, desc := labelDesc p.desc }

def labelStart (uid : UInt16) : CString := pinholeText ++ utoa uid.toNat

/-- `strtok` with a blank: the text ends after its first word. -/
def cutWord (buffer : List Char) : List Char :=
  let blanks := buffer.takeWhile (· = ' ')
  let text := buffer.dropWhile (· = ' ')
  let word := text.takeWhile fun c => c ≠ ' ' ∧ c ≠ Char.ofNat 0
  match text.drop word.length with
  | ' ' :: rest => blanks ++ word ++ Char.ofNat 0 :: rest
  | _ => buffer

/-- The label is copied without its end over what the buffer held. -/
def copyLabel (desc : CString) (buffer : List Char) : List Char :=
  cutWord (desc ++ buffer.drop desc.length)

/-- The first rule whose label starts so, and that passes the other test. -/
def searchLabel (start : CString) (also : RuleT → Bool) : (tmpLabel : List Char) →
    List RuleT → Option RuleT
  | _, [] => none
  | tmpLabel, p :: rest =>
      let tmpLabel := copyLabel p.desc tmpLabel
      if untilNul tmpLabel = start ∧ also p then some p else searchLabel start also tmpLabel rest

def deletePinhole (tmpLabel : List Char) (uid : UInt16) (s : Pinholes) : Int × Pinholes :=
  match searchLabel (labelStart uid) (fun _ => true) tmpLabel (labelled s) with
  | some p => (0, s.delRule p.handle)
  | none => (-2, s)

/-- The remote port is taken from a field that a filter rule does not have, and the description
    from a text that ends before it. `reindexed` is the index of the name that is found for an
    index, or that the buffer held. -/
def updatePinhole (tmpLabel : List Char) (reindexed : Nat → Nat) (uid : UInt16) (timestamp : Nat)
    (s : Pinholes) : Int × Pinholes :=
  match searchLabel (labelStart uid) (fun _ => true) tmpLabel (labelled s) with
  | none => (-2, s)
  | some p =>
      let rhost := if p.rhost6 = 0 then none else some p.rhost6
      let comment := writtenLabel uid.toNat timestamp []
      let ifIdx := some (reindexed p.ingressIfidx)
      (0, (s.delRule p.handle).newRule comment
        (ruleSetFilter6 ifIdx p.proto rhost p.iaddr6 p.eport p.iport))

/-- Where the caller wants the results; without a pointer there is none. -/
structure PinholeInfo where
  remHost : Option CString
  remPort : Option UInt16
  intClient : Option CString
  intPort : Option UInt16
  proto : Option UInt8
  desc : Option CString
  timestamp : Option Nat
  deriving DecidableEq

/-- What is written before the label is read. An empty text for the remote host stays empty. -/
def readInfo (p : RuleT) (out : PinholeInfo) : PinholeInfo :=
  { out with
    remHost := out.remHost.map fun host => if host = [] then [] else inetNtop6 p.rhost6
    remPort := out.remPort.map fun _ => p.rport
    intClient := out.intClient.map fun _ => inetNtop6 p.iaddr6
    intPort := out.intPort.map fun _ => p.eport
    proto := out.proto.map fun _ => p.proto }

/-- A rule that is passed over, because its label cannot be read, has written its results. -/
def getLoop (start : CString) : (tmpLabel : List Char) → List RuleT → PinholeInfo → PinholeInfo
  | _, [], out => out
  | tmpLabel, p :: rest, out =>
      let tmpLabel := copyLabel p.desc tmpLabel
      if untilNul tmpLabel = start then
        let out := readInfo p out
        match out.timestamp, scanLabel p.desc with
        | some _, none => getLoop start tmpLabel rest out
        | asked, label =>
            { out with
              timestamp := asked.bind fun _ => label.map Prod.snd
              desc := out.desc.map fun _ => p.desc }
      else getLoop start tmpLabel rest out

/-- The result is zero also when no rule is found. The buffers are large enough. -/
def getPinholeInfo (tmpLabel : List Char) (uid : UInt16) (out : PinholeInfo) (s : Pinholes) :
    Int × PinholeInfo :=
  (0, getLoop (labelStart uid) tmpLabel (labelled s) out)

def UINT_MAX : Nat := 2 ^ 32 - 1

def INT_MAX : Int := 2 ^ 31 - 1

/-- The counts of the loop of `clean_pinhole_list`. -/
structure Cleaning where
  minTs : Nat
  minUid : Int
  maxUid : Int
  n : Nat

def cleanLoop (now : Nat) : List RuleT → Cleaning → Pinholes → Cleaning × Pinholes
  | [], c, s => (c, s)
  | p :: rest, c, s =>
      match scanLabel p.desc with
      | none => cleanLoop now rest c s
      | some (uid, ts) =>
          if ts ≤ now then cleanLoop now rest { c with n := c.n + 1 } (s.delRule p.handle)
          else
            let c :=
              if uid > c.maxUid then { c with maxUid := uid }
              else if uid < c.minUid then { c with minUid := uid }
              else c
            cleanLoop now rest { c with minTs := min ts c.minTs } s

/-- The next uid after a cleaning. -/
def renumbered (c : Cleaning) (nextUid : Nat) : Nat :=
  if c.maxUid > 0 then
    let next :=
      if c.minUid - 32000 ≤ nextUid ∧ (nextUid : Int) ≤ c.maxUid then (c.maxUid + 1).toNat
      else nextUid
    if next ≥ 65535 then 1 else next
  else nextUid

theorem renumbered_bounded (c : Cleaning) {nextUid : Nat} (bounded : nextUid < 65535) :
    renumbered c nextUid < 65535 := by
  have capped : ∀ n : Nat, (if n ≥ 65535 then 1 else n) < 65535 := by
    intro n
    split <;> omega
  unfold renumbered
  split
  · exact capped _
  · exact bounded

/-- The next expiry time is written unless no pinhole is left that has one. -/
def cleanPinholeList (now : Nat) (s : Pinholes) : (Nat × Option Nat) × Pinholes :=
  let (c, s) := cleanLoop (now % 2 ^ 32) (labelled s)
    { minTs := UINT_MAX, minUid := INT_MAX, maxUid := -1, n := 0 } s
  ((c.n, if c.minTs = UINT_MAX then none else some c.minTs),
    { s with nextUid := renumbered c s.nextUid, bounded := renumbered_bounded c s.bounded })

end Nftpinhole
