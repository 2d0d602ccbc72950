import MiniUPnPd.Lib.Inet6
import MiniUPnPd.PcpServer
import MiniUPnPd.UpnpHttp

/-!
Event subscriptions: the check of the Callback header of a SUBSCRIBE request, the subscriber
that is stored, and the connection that is opened to notify it. Past the end of a list the
memory holds NUL characters.
-/
namespace UpnpEvents
open CText Inet UpnpHttp
open PcpServer (In6Addr isV4Mapped v4Of v4Mapped)

/-- The host in a socket address. -/
inductive HostAddr where
  | v4 (a : InAddr)
  | v6 (a : In6Addr)
  deriving DecidableEq

/-- An IPv4 address is the same host as the IPv6 address it is mapped to. -/
def HostAddr.mapped : HostAddr → In6Addr
  | .v4 a => v4Mapped a
  | .v6 a => a

structure EventBuild where
  enableIpv6 : Bool
  enableL3fService : Bool
  enable6fcService : Bool
  enableDpService : Bool

/-- The sender of a request, in `struct upnphttp`. -/
structure Client where
  ipv6 : Bool
  clientaddr : InAddr
  clientaddrV6 : In6Addr

section
variable (enableIpv6 : Bool)

def Client.address (client : Client) : HostAddr :=
  if enableIpv6 ∧ client.ipv6 then .v6 client.clientaddrV6 else .v4 client.clientaddr

/-- At most `n` characters from index `i` on, up to the first that does not pass. -/
def copyWhile (p : Char → Bool) (mem : List Char) (n i : Nat) : List Char :=
  ((mem.drop i ++ List.replicate n '\x00').take n).takeWhile p

/-- The first index from `p` on that holds `c`, or `stop`. -/
def seek (c : Char) (buf : List Char) (stop p : Nat) : Nat :=
  p + (copyWhile (· ≠ c) buf (stop - p) p).length

/-- The host that starts at `p`: whether it stands in brackets, its characters, and the index
    after them. -/
def urlHost (buf : List Char) (stop p : Nat) : Bool × List Char × Nat :=
  if charAt buf p = '[' then
    let addrstr := copyWhile (fun c => c ≠ ']' ∧ c ≠ '>') buf (min 47 (stop - (p + 1))) (p + 1)
    (true, addrstr, p + 1 + addrstr.length)
  else
    let addrstr := copyWhile (fun c => c ≠ '/' ∧ c ≠ ':' ∧ c ≠ '>') buf (min 47 (stop - p)) p
    (false, addrstr, p + addrstr.length)

/-- The host of a URL is the address of the client. -/
def checkAddr (client : Client) (ipv6 : Bool) (addrstr : List Char) : Bool :=
  if ipv6 then
    if enableIpv6 then
      match inetPton6 (untilNul addrstr) with
      | none => false
      | some addr => client.ipv6 ∧ addr = client.clientaddrV6
    else false
  else
    match inetPton (untilNul addrstr) with
    | none => false
    | some addr =>
        if enableIpv6 ∧ client.ipv6 then
          isV4Mapped client.clientaddrV6 ∧ addr = v4Of client.clientaddrV6
        else addr = client.clientaddr

/-- Where the next URL starts, after one that is not valid. -/
def nextUrl (buf : List Char) (stop p : Nat) : Option Nat :=
  let p := seek '>' buf stop p
  if charAt buf p ≠ '>' then none
  else
    let p := seek '<' buf stop p
    if charAt buf p ≠ '<' then none else some p

/-- Each round starts at a later URL, with less of the header left. -/
def checkUrls (client : Client) (buf : List Char) : (fuel off len : Nat) → Option (Nat × Nat)
  | 0, _, _ => none
  | fuel + 1, off, len =>
      let stop := off + len
      let invalid (p : Nat) : Option (Nat × Nat) :=
        (nextUrl buf stop p).bind fun p => checkUrls client buf fuel p (len - (p - off))
      if off = 0 ∨ len < 10 then none
      else if slice buf off 8 ≠ "<http://".toList then invalid (off + 1)
      else
        let (ipv6, addrstr, p) := urlHost buf stop (off + 8)
        if checkAddr enableIpv6 client ipv6 addrstr then
          some (off + 1, seek '>' buf stop p - (off + 1))
        else invalid p

/-- Offset and length of the first URL on the address of the client. -/
def checkCallbackURL (client : Client) (buf : List Char) (h : HttpHeaders) : Option (Nat × Nat) :=
  checkUrls enableIpv6 client buf h.reqCallbackLen h.reqCallbackOff h.reqCallbackLen

end

inductive SubscriberService where
  | wanCfg
  | wanIpc
  | l3f
  | ip6fc
  | dp
  deriving DecidableEq

/-- The callback with the NUL that ends it. -/
structure Subscriber where
  service : SubscriberService
  callback : List Char
  deriving DecidableEq

def subscriberService (build : EventBuild) (eventurl : CString) : Option SubscriberService :=
  if eventurl = "/evt/CmnIfCfg".toList then some .wanCfg
  else if eventurl = "/evt/IPConn".toList then some .wanIpc
  else if build.enableL3fService ∧ eventurl = "/evt/L3F".toList then some .l3f
  else if build.enable6fcService ∧ eventurl = "/evt/IP6FCtl".toList then some .ip6fc
  else if build.enableDpService ∧ eventurl = "/evt/DP".toList then some .dp
  else none

def newSubscriber (build : EventBuild) (eventurl : CString) (callback : List Char) :
    Option Subscriber :=
  if callback = [] then none
  else
    (subscriberService build eventurl).map fun service =>
      { service, callback := callback ++ ['\x00'] }

/-- What is set for the connection. The path is an index from the start of the callback: the
    last character that has been read. -/
structure EventNotify where
  addrstr : List Char
  portstr : CString
  path : Nat
  addr : HostAddr
  port : UInt16
  deriving DecidableEq

/-- The host as it is written into `addrstr`, and the index of the character after it. -/
def notifyHost (enableIpv6 : Bool) (mem : List Char) : List Char × Nat :=
  if enableIpv6 ∧ charAt mem 7 = '[' then
    let host := copyWhile (· ≠ ']') mem 46 8
    let p := 8 + host.length
    ('[' :: host ++ (if host.length < 46 then [']'] else []),
      if charAt mem p = ']' then p + 1 else p)
  else
    let host := copyWhile (fun c => c ≠ '/' ∧ c ≠ ':') mem (if enableIpv6 then 47 else 15) 7
    (host, 7 + host.length)

/-- For IPv6 without the first and the last character of the text. An address that is not
    read stays 0. -/
def notifyAddr (enableIpv6 ipv6 : Bool) (addrstr : List Char) : HostAddr :=
  let text := untilNul addrstr
  if ipv6 then
    .v6 (if 2 < text.length then (inetPton6 (slice text 1 (text.length - 2))).getD 0 else 0)
  else if enableIpv6 then .v4 ((inetPton text).getD 0)
  else .v4 ((inetAton text).getD 0)

/-- `mem` is the memory from the start of the callback on. -/
def upnpEventNotifyConnect (enableIpv6 : Bool) (mem : List Char) : EventNotify :=
  let (addrstr, p) := notifyHost enableIpv6 mem
  let addr := notifyAddr enableIpv6 (enableIpv6 ∧ charAt mem 7 = '[') addrstr
  if charAt mem p = ':' then
    let stop := skip (fun c => c ≠ '\x00' ∧ c ≠ '/') mem (p + 1)
    { addrstr, portstr := ':' :: (slice mem (p + 1) (stop - (p + 1))).take 6, path := stop, addr
      port := atous (untilNul (mem.drop (p + 1))) }
  else { addrstr, portstr := [], path := p, addr, port := 80 }

end UpnpEvents
