import MiniUPnPd.Lib.Inet

/-!
The redirections of the ipf backend. The rules are in the kernel, behind ioctls, which succeed like
all allocations here; the descriptions and expiry times are in a list of the daemon's own.
-/
namespace Ipfrdr
open CText Inet

def groupName : CString := "miniupnpd".toList

/-- What `struct ipnat` says about a redirection. -/
structure IpNat where
  inP : UInt8
  inPmin : UInt16
  inPmax : UInt16
  inPnext : UInt16
  inTag : CString
  inSrc : Option InAddr
  inIn : InAddr
  deriving DecidableEq

/-- `struct rdr_desc` -/
structure RdrDesc where
  eport : UInt16
  proto : Int
  timestamp : Nat
  str : CString
  deriving DecidableEq

structure Ipf where
  rules : List IpNat
  rdrDescList : List RdrDesc

def addRedirectDesc (eport : UInt16) (proto : Int) (timestamp : Nat) (desc : Option CString)
    (list : List RdrDesc) : List RdrDesc :=
  match desc with
  | some str => { eport, proto, timestamp, str } :: list
  | none => list

def descMatches (eport : UInt16) (proto : Int) (p : RdrDesc) : Bool :=
  p.eport = eport ∧ p.proto = proto

/-- The loop with the entry before, of which the code sees that there is none. -/
def delRedirectDesc (eport : UInt16) (proto : Int) (list : List RdrDesc) : List RdrDesc :=
  match list.dropWhile fun p => !descMatches eport proto p with
  | _ :: next => next
  | [] => list

def addRedirectRule2 (rhost : Option CString) (eport : UInt16) (iaddr : CString)
    (iport : UInt16) (proto : Int) (desc : Option CString) (timestamp : Nat) (s : Ipf) :
    Int × Ipf :=
  let ipnat : IpNat :=
    { inP := UInt8.ofInt proto, inPmin := eport, inPmax := eport, inPnext := iport
      inTag := groupName
      inSrc := (rhost.filter fun host => host ≠ [] ∧ host.head? ≠ some '*').map fun host =>
        (inetPton host).getD 0
      inIn := (inetPton iaddr).getD 0 }
  (0, { rules := s.rules ++ [ipnat]
        rdrDescList := addRedirectDesc eport proto timestamp desc s.rdrDescList })

def ruleMatches (eport : UInt16) (proto : Int) (ipn : IpNat) : Bool :=
  eport = ipn.inPmin ∧ eport = ipn.inPmax ∧ ipn.inTag = groupName ∧ (ipn.inP.toNat : Int) = proto

/-- One attempt, which comes across these rules of the table. -/
def realDeleteRedirectRule (seen : List IpNat) (eport : UInt16) (proto : Int) (s : Ipf) :
    Int × Ipf :=
  match seen.find? (ruleMatches eport proto) with
  | some ipn =>
      (0, { rules := s.rules.erase ipn
            rdrDescList := delRedirectDesc eport proto s.rdrDescList })
  | none => (-1, s)

/-- The kernel may start the first attempt somewhere in the table, after so many rules. -/
def deleteRedirectRule (passed : Nat) (eport : UInt16) (proto : Int) (s : Ipf) : Int × Ipf :=
  let (r, s) := realDeleteRedirectRule (s.rules.drop passed) eport proto s
  if r = -1 then realDeleteRedirectRule s.rules eport proto s else (r, s)

def updatePortmappingDescTimestamp (eport : UInt16) (proto : Int) (desc : Option CString)
    (timestamp : Nat) (s : Ipf) : Int × Ipf :=
  (0, { s with rdrDescList :=
          addRedirectDesc eport proto timestamp desc (delRedirectDesc eport proto s.rdrDescList) })

end Ipfrdr
