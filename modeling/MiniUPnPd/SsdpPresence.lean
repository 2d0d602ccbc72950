import MiniUPnPd.FinalSendto
import MiniUPnPd.Lib.HeaderFields
import MiniUPnPd.Lib.Inet6
import MiniUPnPd.Lib.Presence
import MiniUPnPd.SsdpSearch

/-!
The announcements of the daemon and its farewell. Every announcement is sent twice, the second
time after 250 ms from the queue of datagrams; the farewell is sent once, and `finalize_sendto`
then empties the queue. A listener in a multicast group of one interface knows what was announced
to that group and not revoked.
-/
namespace SsdpPresence
open AsyncSendto CText FinalSendto HeaderFields Inet NetBytes Presence Runs
open SsdpSearch hiding Sender

section source

inductive Group
  | inet | linkLocal | siteLocal | global
  deriving DecidableEq

def SSDP_PORT : UInt16 := 1900

def mcastAddr : Group → CString
  | .inet => "239.255.255.250".toList
  | .linkLocal => "FF02::C".toList
  | .siteLocal => "FF05::C".toList
  | .global => "FF0E::C".toList

def destStr (g : Group) : CString :=
  match g with
  | .inet => mcastAddr g
  | _ => '[' :: mcastAddr g ++ [']']

/-- `sockaddr_in` or `sockaddr_in6`, as a little-endian Linux lays it out. -/
def sockname (g : Group) : List UInt8 :=
  match g with
  | .inet =>
    [2, 0] ++ writeNU16 SSDP_PORT ++ bytesOf 4 (inetAddr (mcastAddr g)).toNat ++ List.replicate 8 0
  | _ =>
    [10, 0] ++ writeNU16 SSDP_PORT ++ List.replicate 4 0 ++
      bytesOf 16 ((inetPton6 (mcastAddr g)).getD 0).toNat ++ List.replicate 4 0

/-- The arguments of a notification that depend on the service. -/
structure Service where
  nt : CString
  suffix : CString
  usn1 : CString
  usn2 : CString
  usn3 : CString

def Service.usn (sv : Service) : CString := sv.usn1 ++ sv.usn2 ++ sv.usn3 ++ sv.suffix

def deviceUrn : CString := "urn:schemas-upnp-org:device".toList

/-- What the loops over `known_service_types` announce for one of them. -/
def servicesOf (known : ServiceType × Nat) : List Service :=
  { nt := known.1.s, suffix := verStr known.2 known.1.version, usn1 := known.1.uuid
    usn2 := "::".toList, usn3 := known.1.s } ::
  if 0 < known.2 ∧ deviceUrn.isPrefixOf known.1.s then
    [{ nt := known.1.uuid, suffix := [], usn1 := known.1.uuid, usn2 := [], usn3 := [] }]
  else []

def services (cfg : Config) : List Service := (knownServiceTypes cfg).zipIdx.flatMap servicesOf

def urlPath (cfg : Config) : CString :=
  match cfg.randomUrl with
  | none => []
  | some url => '/' :: url

def locationLine (cfg : Config) (name scheme host : CString) (port : UInt16) : CString :=
  name ++ (": ".toList ++ scheme ++ "://".toList ++ host ++ ":".toList ++ utoa port.toNat ++
    urlPath cfg ++ "/rootDesc.xml".toList)

def hostLine (g : Group) : CString :=
  "HOST: ".toList ++ (destStr g ++ ":".toList ++ utoa SSDP_PORT.toNat)

def linesAfterNts (cfg : Config) : List CString :=
  ["OPT: \"http://schemas.upnp.org/upnp/1/0/\"; ns=01".toList,
    "01-NLS: ".toList ++ utoa cfg.bootid.toNat,
    "BOOTID.UPNP.ORG: ".toList ++ utoa cfg.bootid.toNat,
    "CONFIGID.UPNP.ORG: ".toList ++ utoa cfg.configid.toNat]

/-- What both kinds of notification have behind their first lines. -/
def noticeText (cfg : Config) (front : List CString) (sv : Service) (nts : String) : CString :=
  lined (front ++ ["NT: ".toList ++ (sv.nt ++ sv.suffix), "USN: ".toList ++ sv.usn,
    "NTS: ".toList ++ nts.toList] ++ linesAfterNts cfg) ++ crlf

def secureLocation (cfg : Config) (host : CString) : List CString :=
  match cfg.httpsPort with
  | none => []
  | some port => [locationLine cfg "SECURELOCATION.UPNP.ORG".toList "https".toList host port]

def notifyFront (cfg : Config) (g : Group) (host : CString) (lifetime : Nat) : List CString :=
  ["NOTIFY * HTTP/1.1".toList, hostLine g, "CACHE-CONTROL: max-age=".toList ++ utoa lifetime,
    locationLine cfg "LOCATION".toList "http".toList host cfg.httpPort] ++
  secureLocation cfg host ++ ["SERVER: ".toList ++ cfg.serverString]

def notifyText (cfg : Config) (g : Group) (host : CString) (sv : Service) (lifetime : Nat) :
    CString :=
  noticeText cfg (notifyFront cfg g host lifetime) sv "ssdp:alive"

def byebyeText (cfg : Config) (g : Group) (sv : Service) : CString :=
  noticeText cfg ["NOTIFY * HTTP/1.1".toList, hostLine g] sv "ssdp:byebye"

/-- The text in the buffer, cut to it, as bytes. -/
def datagram (sockfd : Int) (g : Group) (text : CString) : Datagram :=
  { sockfd, buf := (text.take (SSDP_PACKET_MAX_LEN - 1)).map fun c => UInt8.ofNat c.toNat
    flags := 0, destAddr := sockname g, srcAddr := none }

/-- What a call of `sendto_schedule2` meets. -/
structure Answer where
  result : SendResult
  tv : Option TimeOfDay
  allocated : Bool

/-- The queue, and the datagrams by the number of their submission. -/
structure Daemon where
  queue : Sender
  datagrams : List Datagram

def Daemon.start : Daemon := { queue := Sender.start, datagrams := [] }

/-- The answers are numbered by the submissions. -/
def send (env : Nat → Answer) (delay : Nat) (s : Daemon) (d : Datagram) : Daemon :=
  let a := env s.queue.submissions
  { queue := (sendtoSchedule2 d delay a.result a.tv a.allocated s.queue).2
    datagrams := s.datagrams ++ [d] }

def sendSSDPNotify (env : Nat → Answer) (s : Daemon) (d : Datagram) : Daemon :=
  send env 250 (send env 0 s d) d

def groups (cfg : Config) (ipv6 : Bool) : List Group :=
  if ipv6 then [.linkLocal, .siteLocal] ++ (if cfg.build.strict then [] else [.global])
  else [.inet]

def sendSSDPNotifies (cfg : Config) (env : Nat → Answer) (sockfd : Int) (host : CString)
    (lifetime : Nat) (ipv6 : Bool) (s : Daemon) : Daemon :=
  (groups cfg ipv6).foldl (fun s g => (services cfg).foldl (fun s sv =>
    sendSSDPNotify env s (datagram sockfd g (notifyText cfg g host sv lifetime))) s) s

/-- With IPv6 each interface has two sockets. -/
def sendSSDPNotifies2 (cfg : Config) (enableIpv6 : Bool) (sockets : Nat → Int)
    (env : Nat → Answer) (lifetime : Nat) (s : Daemon) : Daemon :=
  cfg.lanAddrs.zipIdx.foldl (fun s lan =>
    if enableIpv6 then
      let s := sendSSDPNotifies cfg env (sockets (2 * lan.2)) lan.1.str lifetime false s
      if sockets (2 * lan.2 + 1) ≥ 0 then
        sendSSDPNotifies cfg env (sockets (2 * lan.2 + 1)) cfg.ipv6AddrForHttp lifetime true s
      else s
    else sendSSDPNotifies cfg env (sockets lan.2) lan.1.str lifetime false s) s

def goodbyeGroup (enableIpv6 : Bool) (j : Nat) : Group :=
  if enableIpv6 ∧ j % 2 = 1 then .linkLocal else .inet

/-- The calls of `SendSSDPbyebye` for one socket. -/
def farewells (cfg : Config) (enableIpv6 : Bool) (sockets : Nat → Int) (j : Nat) :
    List Datagram :=
  if sockets j < 0 then []
  else (services cfg).map fun sv =>
    datagram (sockets j) (goodbyeGroup enableIpv6 j) (byebyeText cfg (goodbyeGroup enableIpv6 j) sv)

def sendSSDPGoodbye (cfg : Config) (enableIpv6 : Bool) (sockets : Nat → Int) (nSockets : Nat)
    (env : Nat → Answer) (s : Daemon) : Daemon :=
  ((List.range nSockets).flatMap (farewells cfg enableIpv6 sockets)).foldl (send env 0) s

end source

section listener

def messageOf (text : CString) : Option (Message CString) :=
  match field "NTS: ".toList text, field "USN: ".toList text with
  | some nts, some usn =>
    if nts = "ssdp:alive".toList then some (.alive usn)
    else if nts = "ssdp:byebye".toList then some (.byebye usn)
    else none
  | _, _ => none

/-- What a listener in the group hears of a datagram, on the interface of the socket. -/
def heard (sockfd : Int) (g : Group) (d : Datagram) : Option (Message CString) :=
  if d.sockfd = sockfd ∧ d.destAddr = sockname g then
    messageOf (d.buf.map fun b => Char.ofNat b.toNat)
  else none

def handedOver (datagrams : List Datagram) : Event → Option Datagram
  | .handed i _ => datagrams[i]?
  | _ => none

/-- The datagrams that the kernel took, in order. -/
def Daemon.wire (s : Daemon) : List Datagram := s.queue.record.filterMap (handedOver s.datagrams)

def Daemon.waiting (s : Daemon) : List Datagram := s.queue.sendList.map (·.datagram)

def Holds (s : Daemon) (sockfd : Int) (g : Group) (usn : CString) : Prop :=
  Known (s.wire.filterMap (heard sockfd g)) usn

end listener

section reading

theorem utoa_plain (n : Nat) : Plain (utoa n) := by
  intro c member
  have digit := utoa_digits n c member
  simp only [Char.isDigit, Bool.and_eq_true, decide_eq_true_eq] at digit
  have low : 48 ≤ c.toNat := digit.1
  have high : c.toNat ≤ 57 := digit.2
  refine ⟨by omega, ?_, ?_⟩
  · rintro rfl
    exact absurd low (by decide)
  · rintro rfl
    exact absurd low (by decide)

/-- No label of the two that a listener looks for. -/
def Unlabelled (line : CString) : Prop :=
  Plain line ∧ fieldOf "NTS: ".toList (line ++ ['\r']) = none ∧
    fieldOf "USN: ".toList (line ++ ['\r']) = none

theorem unlabelled {label value : CString} (plain : Plain label ∧ Plain value)
    (differ : differs "NTS: ".toList label = true ∧ differs "USN: ".toList label = true) :
    Unlabelled (label ++ value) := by
  refine ⟨plain.1.append plain.2, ?_, ?_⟩
  · rw [List.append_assoc]
    exact fieldOf_other differ.1 _
  · rw [List.append_assoc]
    exact fieldOf_other differ.2 _

/-- A part of a line that is not longer than its variable holds. -/
def Part (n : Nat) (text : CString) : Prop := Plain text ∧ text.length ≤ n

instance (n : Nat) (text : CString) : Decidable (Part n text) :=
  inferInstanceAs (Decidable (Plain text ∧ text.length ≤ n))

theorem Part.append {n m : Nat} {a b : CString} (left : Part n a) (right : Part m b) :
    Part (n + m) (a ++ b) := by
  refine ⟨left.1.append right.1, ?_⟩
  rw [List.length_append]
  exact Nat.add_le_add left.2 right.2

theorem Part.up {n m : Nat} {a : CString} (part : Part n a) (more : n ≤ m) : Part m a :=
  ⟨part.1, part.2.trans more⟩

/-- What the configuration puts into the texts, no longer than the arrays that hold it.
    The server string is fixed when the daemon is built. -/
structure Printable (cfg : Config) : Prop where
  server : Part 256 cfg.serverString
  url : ∀ url ∈ cfg.randomUrl, Part 15 url
  host6 : Part 63 cfg.ipv6AddrForHttp
  hosts : ∀ lan ∈ cfg.lanAddrs, Part 15 lan.str
  igd : Part 41 cfg.uuidvalueIgd
  wan : Part 41 cfg.uuidvalueWan
  wcd : Part 41 cfg.uuidvalueWcd

variable {cfg : Config}

theorem linesAfterNts_plain (cfg : Config) : ∀ line ∈ linesAfterNts cfg, Plain line := by
  intro line member
  simp only [linesAfterNts, List.mem_cons, List.not_mem_nil, or_false] at member
  rcases member with rfl | rfl | rfl | rfl
  · decide
  · exact Plain.append (by decide) (utoa_plain _)
  · exact Plain.append (by decide) (utoa_plain _)
  · exact Plain.append (by decide) (utoa_plain _)

theorem hostLine_unlabelled (g : Group) : Unlabelled (hostLine g) := by
  have port := utoa_plain SSDP_PORT.toNat
  apply unlabelled
  · refine ⟨by decide, Plain.append (Plain.append ?_ (by decide)) port⟩
    cases g <;> decide
  · exact ⟨by decide, by decide⟩

theorem locationLine_unlabelled (printable : Printable cfg) {name scheme host : CString}
    (given : Plain name ∧ Plain scheme ∧ Plain host) (port : UInt16)
    (differ : differs "NTS: ".toList name = true ∧ differs "USN: ".toList name = true) :
    Unlabelled (locationLine cfg name scheme host port) := by
  obtain ⟨plainName, plainScheme, plainHost⟩ := given
  apply unlabelled ⟨plainName, ?_⟩ differ
  have path : Plain (urlPath cfg) := by
    unfold urlPath
    cases given : cfg.randomUrl with
    | none => exact fun c member => absurd member List.not_mem_nil
    | some url => exact Plain.append (show Plain ['/'] by decide) (printable.url url given).1
  refine Plain.append (Plain.append (Plain.append (Plain.append (Plain.append (Plain.append
    (Plain.append ?_ plainScheme) ?_) plainHost) ?_) (utoa_plain _)) path) ?_
  · decide
  · decide
  · decide
  · decide

theorem notifyFront_unlabelled (printable : Printable cfg) {host : CString} (plain : Plain host)
    (g : Group) (lifetime : Nat) :
    ∀ line ∈ notifyFront cfg g host lifetime, Unlabelled line := by
  intro line member
  simp only [notifyFront, List.mem_append, List.mem_cons, List.not_mem_nil, or_false] at member
  rcases member with ((rfl | rfl | rfl | rfl) | member) | rfl
  · exact ⟨by decide, by decide, by decide⟩
  · exact hostLine_unlabelled g
  · exact unlabelled ⟨by decide, utoa_plain _⟩ ⟨by decide, by decide⟩
  · exact locationLine_unlabelled printable ⟨by decide, by decide, plain⟩ _
      ⟨by decide, by decide⟩
  · unfold secureLocation at member
    cases given : cfg.httpsPort with
    | none => simp [given] at member
    | some port =>
      simp only [given, List.mem_singleton] at member
      rw [member]
      exact locationLine_unlabelled printable ⟨by decide, by decide, plain⟩ _
        ⟨by decide, by decide⟩
  · exact unlabelled ⟨by decide, printable.server.1⟩ ⟨by decide, by decide⟩

theorem device_part {name : String} (part : Part 24 name.toList) : Part 60 (device name) := by
  have front : Part 28 "urn:schemas-upnp-org:device:".toList := by decide
  have colon : Part 1 ":".toList := by decide
  rw [device, String.toList_append, String.toList_append]
  exact ((front.append part).append colon).up (by decide)

theorem service_part {name : String} (part : Part 24 name.toList) : Part 60 (service name) := by
  have front : Part 29 "urn:schemas-upnp-org:service:".toList := by decide
  have colon : Part 1 ":".toList := by decide
  rw [service, String.toList_append, String.toList_append]
  exact ((front.append part).append colon).up (by decide)

theorem knownServiceTypes_part (printable : Printable cfg) :
    ∀ known ∈ knownServiceTypes cfg,
      Part 60 known.s ∧ Part 41 known.uuid ∧ known.version < 10 := by
  have version : (if cfg.build.igdV2 then 2 else 1) < 10 := by split <;> decide
  have one : 1 < 10 := by decide
  intro known member
  simp only [knownServiceTypes, List.mem_append, List.mem_ite_nil_right, List.mem_cons,
    List.not_mem_nil, or_false] at member
  rcases member with (((((rfl | rfl | rfl | rfl | rfl) | ⟨_, rfl⟩) | ⟨_, rfl⟩) | rfl) | ⟨_, rfl⟩) |
    ⟨_, rfl⟩
  · exact ⟨show Part 60 "upnp:rootdevice".toList by decide, printable.igd, show 0 < 10 by decide⟩
  · exact ⟨device_part (by decide), printable.igd, version⟩
  · exact ⟨device_part (by decide), printable.wcd, version⟩
  · exact ⟨device_part (by decide), printable.wan, version⟩
  · exact ⟨service_part (by decide), printable.wcd, version⟩
  · exact ⟨service_part (by decide), printable.igd, one⟩
  · exact ⟨service_part (by decide), printable.wcd, one⟩
  · exact ⟨service_part (by decide), printable.wan, one⟩
  · exact ⟨service_part (by decide), printable.wcd, one⟩
  · exact ⟨service_part (by decide), printable.igd, one⟩

theorem part_nil : Part 0 [] := ⟨fun _ member => absurd member List.not_mem_nil, le_rfl⟩

theorem utoa_part {n k : Nat} (positive : 0 < k) (small : n < 10 ^ k) : Part k (utoa n) :=
  ⟨utoa_plain n, utoa_length positive small⟩

theorem services_part (printable : Printable cfg) :
    ∀ sv ∈ services cfg, Part 61 (sv.nt ++ sv.suffix) ∧ Part 104 sv.usn := by
  intro sv member
  obtain ⟨known, inside, member⟩ := List.mem_flatMap.mp member
  obtain ⟨name, uuid, small⟩ := knownServiceTypes_part printable known.1
    (List.fst_mem_of_mem_zipIdx inside)
  have version : Part 1 (verStr known.2 known.1.version) := by
    unfold verStr
    split
    · exact part_nil.up (by decide)
    · exact utoa_part (by decide) small
  simp only [servicesOf, List.mem_cons, List.mem_ite_nil_right, List.not_mem_nil, or_false]
    at member
  rcases member with rfl | ⟨_, rfl⟩
  · have colons : Part 2 "::".toList := by decide
    exact ⟨name.append version, ((uuid.append colons).append name).append version⟩
  · constructor
    · exact (uuid.append part_nil).up (by decide)
    · exact (((uuid.append part_nil).append part_nil).append part_nil).up (by decide)

theorem services_plain (printable : Printable cfg) {sv : Service} (listed : sv ∈ services cfg) :
    Plain (sv.nt ++ sv.suffix) ∧ Plain sv.usn := by
  obtain ⟨nt, usn⟩ := services_part printable sv listed
  exact ⟨nt.1, usn.1⟩

theorem notice_fields {front : List CString} (unlabelled : ∀ line ∈ front, Unlabelled line)
    {sv : Service} (plain : Plain (sv.nt ++ sv.suffix) ∧ Plain sv.usn) {nts : String}
    (plainNts : Plain nts.toList) :
    field "NTS: ".toList (noticeText cfg front sv nts) = some nts.toList ∧
      field "USN: ".toList (noticeText cfg front sv nts) = some sv.usn := by
  have nt : Unlabelled ("NT: ".toList ++ (sv.nt ++ sv.suffix)) :=
    SsdpPresence.unlabelled ⟨by decide, plain.1⟩ ⟨by decide, by decide⟩
  constructor
  · have shape : noticeText cfg front sv nts = lined ((front ++ ["NT: ".toList ++
        (sv.nt ++ sv.suffix), "USN: ".toList ++ sv.usn]) ++ ("NTS: ".toList ++ nts.toList) ::
        linesAfterNts cfg) ++ crlf := by
      simp only [noticeText, List.append_assoc, List.cons_append, List.nil_append]
    rw [shape]
    apply field_lined _ (Plain.append (by decide) plainNts)
    intro line member
    simp only [List.mem_append, List.mem_cons, List.not_mem_nil, or_false] at member
    rcases member with member | rfl | rfl
    · exact ⟨(unlabelled line member).1, (unlabelled line member).2.1⟩
    · exact ⟨nt.1, nt.2.1⟩
    · refine ⟨Plain.append (by decide) plain.2, ?_⟩
      rw [List.append_assoc]
      exact fieldOf_other (by decide) _
  · have shape : noticeText cfg front sv nts = lined ((front ++ ["NT: ".toList ++
        (sv.nt ++ sv.suffix)]) ++ ("USN: ".toList ++ sv.usn) :: ("NTS: ".toList ++ nts.toList) ::
        linesAfterNts cfg) ++ crlf := by
      simp only [noticeText, List.append_assoc, List.cons_append, List.nil_append]
    rw [shape]
    apply field_lined _ (Plain.append (by decide) plain.2)
    intro line member
    simp only [List.mem_append, List.mem_cons, List.not_mem_nil, or_false] at member
    rcases member with member | rfl
    · exact ⟨(unlabelled line member).1, (unlabelled line member).2.2⟩
    · exact ⟨nt.1, nt.2.2⟩

theorem lined_bytes {lines : List CString} (plain : ∀ line ∈ lines, Plain line) :
    ∀ c ∈ lined lines ++ crlf, c.toNat < 256 := by
  have ends : ∀ c ∈ crlf, c.toNat < 256 := by simp [crlf]
  intro c member
  rcases List.mem_append.mp member with member | member
  · obtain ⟨line, inside, member⟩ := List.mem_flatMap.mp member
    rcases List.mem_append.mp member with member | member
    · exact (plain line inside c member).1
    · exact ends c member
  · exact ends c member

theorem notice_bytes {front : List CString} (unlabelled : ∀ line ∈ front, Unlabelled line)
    {sv : Service} (plain : Plain (sv.nt ++ sv.suffix) ∧ Plain sv.usn) {nts : String}
    (plainNts : Plain nts.toList) : ∀ c ∈ noticeText cfg front sv nts, c.toNat < 256 := by
  apply lined_bytes
  intro line member
  simp only [List.mem_append, List.mem_cons, List.not_mem_nil, or_false] at member
  rcases member with (member | rfl | rfl | rfl) | member
  · exact (unlabelled line member).1
  · exact Plain.append (by decide) plain.1
  · exact Plain.append (by decide) plain.2
  · exact Plain.append (by decide) plainNts
  · exact linesAfterNts_plain cfg line member

theorem bytes_back {text : CString} (bytes : ∀ c ∈ text, c.toNat < 256) :
    (text.map fun c => UInt8.ofNat c.toNat).map (fun b => Char.ofNat b.toNat) = text := by
  have same : ∀ c ∈ text, ((fun b : UInt8 => Char.ofNat b.toNat) ∘ fun c : Char =>
      UInt8.ofNat c.toNat) c = id c := by
    intro c member
    have value : (UInt8.ofNat c.toNat).toNat = c.toNat := by
      rw [UInt8.toNat_ofNat']
      exact Nat.mod_eq_of_lt (bytes c member)
    simp only [Function.comp_apply, value, Char.ofNat_toNat, id_eq]
  rw [List.map_map, List.map_congr_left same, List.map_id]

theorem sockname_injective {g g' : Group} (same : sockname g = sockname g') : g = g' := by
  cases g <;> cases g' <;> first | rfl | exact absurd same (by decide)

/-- A notification that fits into the buffer says to its listeners what it is meant to say, and
    nothing to the others. -/
theorem heard_notice {front : List CString} (unlabelled : ∀ line ∈ front, Unlabelled line)
    {sv : Service} (plain : Plain (sv.nt ++ sv.suffix) ∧ Plain sv.usn) {nts : String}
    (plainNts : Plain nts.toList)
    (fits : (noticeText cfg front sv nts).length < SSDP_PACKET_MAX_LEN) (sockfd sock : Int)
    (g group : Group) : heard sockfd g (datagram sock group (noticeText cfg front sv nts)) =
      if sock = sockfd ∧ group = g then
        (if nts.toList = "ssdp:alive".toList then some (.alive sv.usn)
          else if nts.toList = "ssdp:byebye".toList then some (.byebye sv.usn) else none)
      else none := by
  have whole : (noticeText cfg front sv nts).take (SSDP_PACKET_MAX_LEN - 1) =
      noticeText cfg front sv nts := List.take_of_length_le (by omega)
  have bytes : ∀ c ∈ noticeText cfg front sv nts, c.toNat < 256 :=
    notice_bytes unlabelled plain plainNts
  have back := bytes_back bytes
  have kind : field "NTS: ".toList (noticeText cfg front sv nts) = some nts.toList :=
    (notice_fields unlabelled plain plainNts).1
  have name : field "USN: ".toList (noticeText cfg front sv nts) = some sv.usn :=
    (notice_fields unlabelled plain plainNts).2
  by_cases here : sock = sockfd ∧ group = g
  · have aimed : (datagram sock group (noticeText cfg front sv nts)).sockfd = sockfd ∧
        (datagram sock group (noticeText cfg front sv nts)).destAddr = sockname g := by
      rw [← here.1, ← here.2]
      exact ⟨rfl, rfl⟩
    rw [if_pos here, heard, if_pos aimed, datagram, whole, back, messageOf, kind, name]
  · rw [if_neg here, heard, if_neg]
    rintro ⟨socket, address⟩
    exact here ⟨socket, sockname_injective address⟩

section lengths

theorem lined_cons (line : CString) (lines : List CString) :
    (lined (line :: lines)).length = line.length + 2 + (lined lines).length := by
  simp [lined, crlf]
  omega

theorem lined_append (front back : List CString) :
    (lined (front ++ back)).length = (lined front).length + (lined back).length := by
  simp [lined]

theorem linesAfterNts_length (cfg : Config) : (lined (linesAfterNts cfg)).length ≤ 130 := by
  have bootid := utoa_length (k := 10) (by decide)
    (cfg.bootid.toNat_lt.trans (by decide : 2 ^ 32 < 10 ^ 10))
  have configid := utoa_length (k := 10) (by decide)
    (cfg.configid.toNat_lt.trans (by decide : 2 ^ 32 < 10 ^ 10))
  have opt : "OPT: \"http://schemas.upnp.org/upnp/1/0/\"; ns=01".toList.length = 47 := by decide
  have nls : "01-NLS: ".toList.length = 8 := by decide
  have boot : "BOOTID.UPNP.ORG: ".toList.length = 17 := by decide
  have config : "CONFIGID.UPNP.ORG: ".toList.length = 19 := by decide
  simp only [linesAfterNts, lined_cons, List.length_append, opt, nls, boot, config]
  simp only [lined, List.flatMap_nil, List.length_nil]
  omega

theorem noticeText_length (printable : Printable cfg) {front : List CString} {n : Nat}
    (short : (lined front).length ≤ n) {sv : Service} (listed : sv ∈ services cfg) {nts : String}
    (kind : nts.toList.length ≤ 11) : (noticeText cfg front sv nts).length ≤ n + 328 := by
  obtain ⟨nt, usn⟩ := services_part printable sv listed
  have ntLength := nt.2
  have usnLength := usn.2
  have after := linesAfterNts_length cfg
  have ntLabel : "NT: ".toList.length = 4 := by decide
  have usnLabel : "USN: ".toList.length = 5 := by decide
  have ntsLabel : "NTS: ".toList.length = 5 := by decide
  have ends : crlf.length = 2 := rfl
  rw [List.length_append] at ntLength
  simp only [noticeText, List.length_append, lined_append, lined_cons, ntLabel, usnLabel, ntsLabel,
    ends]
  simp only [lined, List.flatMap_nil, List.length_nil] at short after ⊢
  omega

theorem hostLine_length (g : Group) : (hostLine g).length ≤ 26 := by
  cases g <;> decide

theorem locationLine_length (printable : Printable cfg) (name scheme : CString) {host : CString}
    (short : host.length ≤ 63) (port : UInt16) :
    (locationLine cfg name scheme host port).length ≤ name.length + scheme.length + 103 := by
  have digits := utoa_length (k := 5) (by decide)
    (port.toNat_lt.trans (by decide : 2 ^ 16 < 10 ^ 5))
  have url : (urlPath cfg).length ≤ 16 := by
    unfold urlPath
    cases given : cfg.randomUrl with
    | none => exact Nat.zero_le _
    | some url => exact Nat.succ_le_succ (printable.url url given).2
  have colon : ": ".toList.length = 2 := by decide
  have slashes : "://".toList.length = 3 := by decide
  have single : ":".toList.length = 1 := by decide
  have path : "/rootDesc.xml".toList.length = 13 := by decide
  simp only [locationLine, List.length_append, colon, slashes, single, path]
  omega

theorem notifyFront_length (printable : Printable cfg) {host : CString} (short : host.length ≤ 63)
    (g : Group) {lifetime : Nat} (small : lifetime < 2 ^ 32) :
    (lined (notifyFront cfg g host lifetime)).length ≤ 598 := by
  have hostLength := hostLine_length g
  have digits := utoa_length (k := 10) (by decide) (small.trans (by decide : 2 ^ 32 < 10 ^ 10))
  have location := locationLine_length printable "LOCATION".toList "http".toList short cfg.httpPort
  have server := printable.server.2
  have start : "NOTIFY * HTTP/1.1".toList.length = 17 := by decide
  have cache : "CACHE-CONTROL: max-age=".toList.length = 23 := by decide
  have label : "SERVER: ".toList.length = 8 := by decide
  have locationLabel : "LOCATION".toList.length = 8 := by decide
  have http : "http".toList.length = 4 := by decide
  have secure : (lined (secureLocation cfg host)).length ≤ 133 := by
    unfold secureLocation
    cases cfg.httpsPort with
    | none => exact Nat.zero_le _
    | some port =>
      have line := locationLine_length printable "SECURELOCATION.UPNP.ORG".toList "https".toList
        short port
      have secureLabel : "SECURELOCATION.UPNP.ORG".toList.length = 23 := by decide
      have https : "https".toList.length = 5 := by decide
      rw [lined_cons]
      simp only [lined, List.flatMap_nil, List.length_nil]
      omega
  simp only [notifyFront, lined_append, lined_cons, List.length_append, start, cache, label]
  have nothing : (lined []).length = 0 := rfl
  rw [nothing]
  omega

/-- Every notification fits into the buffer. -/
theorem notifyText_fits (printable : Printable cfg) {host : CString} (short : host.length ≤ 63)
    (g : Group) {sv : Service} (listed : sv ∈ services cfg) {lifetime : Nat}
    (small : lifetime < 2 ^ 32) :
    (notifyText cfg g host sv lifetime).length < SSDP_PACKET_MAX_LEN := by
  have front := notifyFront_length printable short g small
  have text := noticeText_length printable front listed
    (show "ssdp:alive".toList.length ≤ 11 by decide)
  exact text.trans_lt (by decide)

theorem byebyeText_fits (printable : Printable cfg) (g : Group) {sv : Service}
    (listed : sv ∈ services cfg) : (byebyeText cfg g sv).length < SSDP_PACKET_MAX_LEN := by
  have hostLength := hostLine_length g
  have start : "NOTIFY * HTTP/1.1".toList.length = 17 := by decide
  have nothing : (lined []).length = 0 := rfl
  have front : (lined ["NOTIFY * HTTP/1.1".toList, hostLine g]).length ≤ 47 := by
    rw [lined_cons, lined_cons, start, nothing]
    omega
  have text := noticeText_length printable front listed
    (show "ssdp:byebye".toList.length ≤ 11 by decide)
  exact text.trans_lt (by decide)

end lengths

end reading

section queue
variable {s : Daemon}

/-- The datagrams of the queue are those of their submissions. -/
structure Tracked (s : Daemon) : Prop where
  numbered : s.datagrams.length = s.queue.submissions
  queued : ∀ elt ∈ s.queue.sendList, s.datagrams[elt.submission]? = some elt.datagram
  past : ∀ i clock, .handed i clock ∈ s.queue.record → i < s.queue.submissions

/-- The wire and the queue after a call that sends `d`. -/
inductive Sent (s : Daemon) (d : Datagram) (s' : Daemon) : Prop
  | lost (wire : s'.wire = s.wire) (waiting : s'.waiting = s.waiting)
  | taken (wire : s'.wire = s.wire ++ [d]) (waiting : s'.waiting = s.waiting)
  | queued (wire : s'.wire = s.wire) (waiting : s'.waiting = d :: s.waiting)

theorem tracked_start : Tracked Daemon.start := by
  constructor <;> simp [Daemon.start, Sender.start]

theorem wire_grown (tracked : Tracked s) (d : Datagram) :
    s.queue.record.filterMap (handedOver (s.datagrams ++ [d])) = s.wire := by
  apply List.filterMap_congr
  intro e member
  cases e with
  | accepted i due => rfl
  | dropped i => rfl
  | handed i clock =>
    have early := tracked.past i clock member
    rw [← tracked.numbered] at early
    exact List.getElem?_append_left early

theorem wire_note (ds : List Datagram) (q : AsyncSendto.Sender) (events : List Event) :
    (q.note events).record.filterMap (handedOver ds) =
      q.record.filterMap (handedOver ds) ++ events.filterMap (handedOver ds) := by
  rw [Sender.note, List.filterMap_append]

/-- What a call has done to the queue and the record, with the datagram of the new element. -/
theorem sendtoSchedule2_shape (d : Datagram) (delay : Nat) (a : Answer) (q : AsyncSendto.Sender) :
    let q' := (sendtoSchedule2 d delay a.result a.tv a.allocated q).2
    q'.submissions = q.submissions + 1 ∧
      ((q'.sendList = q.sendList ∧ q'.record = q.record) ∨
        (q'.sendList = q.sendList ∧ q'.record =
          q.record ++ [.accepted q.submissions none, .handed q.submissions q.clock]) ∨
        ∃ elt due, elt.submission = q.submissions ∧ elt.datagram = d ∧
          q'.sendList = elt :: q.sendList ∧
          q'.record = q.record ++ [.accepted q.submissions due]) := by
  have later : ∀ state, let q' := (schedule d delay state a.tv a.allocated q).2
      q'.submissions = q.submissions ∧ ((q'.sendList = q.sendList ∧ q'.record = q.record) ∨
        ∃ elt due, elt.submission = q.submissions ∧ elt.datagram = d ∧
          q'.sendList = elt :: q.sendList ∧
          q'.record = q.record ++ [.accepted q.submissions due]) := by
    intro state
    unfold schedule
    cases a.tv with
    | none => exact ⟨rfl, .inl ⟨rfl, rfl⟩⟩
    | some tv =>
      cases a.allocated with
      | false => exact ⟨rfl, .inl ⟨rfl, rfl⟩⟩
      | true => exact ⟨rfl, .inr ⟨_, dueTime tv delay, rfl, rfl, rfl, rfl⟩⟩
  have queued : ∀ state, let q' := (schedule d delay state a.tv a.allocated q).2
      q'.submissions + 1 = q.submissions + 1 ∧
      ((q'.sendList = q.sendList ∧ q'.record = q.record) ∨
        (q'.sendList = q.sendList ∧ q'.record =
          q.record ++ [.accepted q.submissions none, .handed q.submissions q.clock]) ∨
        ∃ elt due, elt.submission = q.submissions ∧ elt.datagram = d ∧
          q'.sendList = elt :: q.sendList ∧
          q'.record = q.record ++ [.accepted q.submissions due]) := by
    intro state
    obtain ⟨submissions, same | added⟩ := later state
    · exact ⟨congrArg (· + 1) submissions, .inl same⟩
    · exact ⟨congrArg (· + 1) submissions, .inr (.inr added)⟩
  by_cases atOnce : delay = 0
  · simp only [sendtoSchedule2, if_pos atOnce]
    cases a.result with
    | sent n => exact ⟨rfl, .inr (.inl ⟨rfl, rfl⟩)⟩
    | again => exact queued .EWAITREADY
    | interrupted => exact queued .ESENDNOW
    | failed => exact ⟨rfl, .inl ⟨rfl, rfl⟩⟩
  · simp only [sendtoSchedule2, if_neg atOnce]
    exact queued .ESCHEDULED

theorem send_sent (tracked : Tracked s) (env : Nat → Answer) (delay : Nat) (d : Datagram) :
    Tracked (send env delay s d) ∧ Sent s d (send env delay s d) := by
  have same := wire_grown tracked d
  have newest : (s.datagrams ++ [d])[s.queue.submissions]? = some d := by
    rw [← tracked.numbered, List.getElem?_concat_length]
  have older : ∀ elt ∈ s.queue.sendList,
      (s.datagrams ++ [d])[elt.submission]? = some elt.datagram := by
    intro elt member
    have known := tracked.queued elt member
    have early := (List.getElem?_eq_some_iff.mp known).1
    rw [List.getElem?_append_left early, known]
  obtain ⟨submissions, shape⟩ := sendtoSchedule2_shape d delay (env s.queue.submissions) s.queue
  have numbered : (s.datagrams ++ [d]).length = s.queue.submissions + 1 := by
    rw [List.length_append, tracked.numbered, List.length_singleton]
  unfold send
  dsimp only
  generalize (sendtoSchedule2 d delay (env s.queue.submissions).result
    (env s.queue.submissions).tv (env s.queue.submissions).allocated s.queue).2 = q
    at submissions shape
  have before : ∀ i clock, .handed i clock ∈ s.queue.record → i < q.submissions := by
    intro i clock member
    have early := tracked.past i clock member
    omega
  rcases shape with ⟨list, record⟩ | ⟨list, record⟩ | ⟨elt, due, submission, datagram, list, record⟩
  · constructor
    · exact ⟨numbered.trans submissions.symm, list ▸ older, record ▸ before⟩
    · apply Sent.lost
      · rw [Daemon.wire, record, same]
      · rw [Daemon.waiting, list, Daemon.waiting]
  · constructor
    · refine ⟨numbered.trans submissions.symm, list ▸ older, ?_⟩
      intro i clock member
      rw [record, List.mem_append] at member
      rcases member with member | member
      · exact before i clock member
      · simp only [List.mem_cons, reduceCtorEq, Event.handed.injEq, List.not_mem_nil, or_false,
          false_or] at member
        show i < q.submissions
        omega
    · apply Sent.taken
      · rw [Daemon.wire, record, List.filterMap_append, same]
        simp only [List.filterMap_cons, handedOver, newest, List.filterMap_nil]
      · rw [Daemon.waiting, list, Daemon.waiting]
  · constructor
    · refine ⟨numbered.trans submissions.symm, ?_, ?_⟩
      · intro other member
        rw [list] at member
        rcases List.mem_cons.mp member with rfl | member
        · rw [submission, newest, datagram]
        · exact older other member
      · intro i clock member
        rw [record, List.mem_append] at member
        rcases member with member | member
        · exact before i clock member
        · simp at member
    · apply Sent.queued
      · rw [Daemon.wire, record, List.filterMap_append, same]
        simp [handedOver]
      · rw [Daemon.waiting, list, List.map_cons, datagram, Daemon.waiting]

theorem trySendtoLoop_same (writefds : List Int) (results : ScheduledSend → SendResult)
    (clock : Nat) (list : List ScheduledSend) {elt : ScheduledSend}
    (member : elt ∈ (trySendtoLoop writefds results clock list).2.1) :
    ∃ old ∈ list, old.submission = elt.submission ∧ old.datagram = elt.datagram := by
  induction list with
  | nil => simp [trySendtoLoop] at member
  | cons first rest ih =>
    rcases tail : trySendtoLoop writefds results clock rest with ⟨ret, kept, events⟩
    simp only [tail] at ih
    have later : elt ∈ kept → ∃ old ∈ first :: rest, old.submission = elt.submission ∧
        old.datagram = elt.datagram := by
      intro inside
      obtain ⟨old, there, same⟩ := ih inside
      exact ⟨old, List.mem_cons_of_mem _ there, same⟩
    obtain same | ⟨_, ⟨state, same⟩ | same | same⟩ := trySendtoLoop_cons _ _ _ _ first tail
    · simp only [same, List.mem_cons] at member
      rcases member with rfl | inside
      · exact ⟨elt, List.mem_cons_self, rfl, rfl⟩
      · exact later inside
    · simp only [same, List.mem_cons] at member
      rcases member with rfl | inside
      · exact ⟨first, List.mem_cons_self, rfl, rfl⟩
      · exact later inside
    · simp only [same] at member
      exact later member
    · simp only [same] at member
      exact later member

/-- Nothing comes to the wire or the queue that was not in one of them. -/
structure Within (s s' : Daemon) : Prop where
  wire : ∀ d ∈ s'.wire, d ∈ s.wire ∨ d ∈ s.waiting
  waiting : ∀ d ∈ s'.waiting, d ∈ s.waiting

theorem trySendto_within (tracked : Tracked s) (writefds : List Int)
    (results : ScheduledSend → SendResult) :
    let s' := { s with queue := (trySendto writefds results s.queue).2 }
    Tracked s' ∧ Within s s' := by
  have kept := @trySendtoLoop_same writefds results s.queue.clock s.queue.sendList
  have handedOn := @trySendtoLoop_handed writefds results s.queue.clock s.queue.sendList
  unfold trySendto
  generalize trySendtoLoop writefds results s.queue.clock s.queue.sendList = done at kept handedOn
  obtain ⟨ret, left, events⟩ := done
  dsimp only at kept handedOn ⊢
  constructor
  · constructor
    · exact tracked.numbered
    · intro elt member
      obtain ⟨old, inside, submission, datagram⟩ := kept member
      show s.datagrams[elt.submission]? = some elt.datagram
      rw [← submission, ← datagram]
      exact tracked.queued old inside
    · intro i clock member
      rcases List.mem_append.mp member with member | member
      · exact tracked.past i clock member
      · obtain ⟨_, old, inside, rfl, _⟩ := handedOn member
        have early := (List.getElem?_eq_some_iff.mp (tracked.queued old inside)).1
        rw [tracked.numbered] at early
        exact early
  · constructor
    · intro d member
      rw [Daemon.wire, wire_note, List.mem_append] at member
      rcases member with member | member
      · exact .inl member
      · obtain ⟨e, inside, handed⟩ := List.mem_filterMap.mp member
        cases e with
        | accepted i due => cases handed
        | dropped i => cases handed
        | handed i clock =>
          obtain ⟨_, old, there, rfl, _⟩ := handedOn inside
          have known := tracked.queued old there
          simp only [handedOver, known, Option.some.injEq] at handed
          exact .inr (handed ▸ List.mem_map_of_mem there)
    · intro d member
      obtain ⟨elt, inside, rfl⟩ := List.mem_map.mp member
      obtain ⟨old, there, _, datagram⟩ := kept inside
      exact datagram ▸ List.mem_map_of_mem there

theorem wake_datagram (now : Timeval) (elt : ScheduledSend) :
    (wake now elt).datagram = elt.datagram := by
  unfold wake
  split_ifs <;> rfl

theorem getSendtoFds_within (tracked : Tracked s) (writefds : List Int) (maxFd : Int)
    (now : TimeOfDay) :
    let s' := { s with queue := (getSendtoFds writefds maxFd now s.queue).2 }
    Tracked s' ∧ Within s s' := by
  constructor
  · constructor
    · exact tracked.numbered
    · intro elt member
      obtain ⟨old, inside, rfl⟩ := List.mem_map.mp member
      rw [wake_submission, wake_datagram]
      exact tracked.queued old inside
    · exact tracked.past
  · constructor
    · exact fun d member => .inl member
    · intro d member
      obtain ⟨elt, inside, rfl⟩ := List.mem_map.mp member
      obtain ⟨old, there, rfl⟩ := List.mem_map.mp inside
      rw [wake_datagram]
      exact List.mem_map_of_mem there

/-- A list of calls whose datagrams are all accepted by the kernel or the queue. -/
def Accepted (a : Answer) : Prop :=
  (∃ n, a.result = .sent n) ∨
    ((a.result = .again ∨ a.result = .interrupted) ∧ a.tv.isSome ∧ a.allocated)

theorem send_kept {env : Nat → Answer} (tracked : Tracked s)
    (accepted : Accepted (env s.queue.submissions)) (d : Datagram) :
    ((send env 0 s d).wire = s.wire ++ [d] ∧ (send env 0 s d).waiting = s.waiting) ∨
      ((send env 0 s d).wire = s.wire ∧ (send env 0 s d).waiting = d :: s.waiting) := by
  obtain ⟨_, sent⟩ := send_sent tracked env 0 d
  cases sent with
  | taken wire waiting => exact .inl ⟨wire, waiting⟩
  | queued wire waiting => exact .inr ⟨wire, waiting⟩
  | lost wire waiting =>
    have newest : (s.datagrams ++ [d])[s.queue.submissions]? = some d := by
      rw [← tracked.numbered, List.getElem?_concat_length]
    have same := wire_grown tracked d
    rcases accepted with ⟨n, result⟩ | ⟨result, timed, allocated⟩
    · left
      refine ⟨?_, waiting⟩
      simp only [send, sendtoSchedule2, result, ↓reduceIte, Daemon.wire, Sender.note,
        List.filterMap_append]
      rw [same]
      simp only [List.filterMap_cons, handedOver, newest, List.filterMap_nil]
      rfl
    · right
      refine ⟨wire, ?_⟩
      obtain ⟨tv, time⟩ := Option.isSome_iff_exists.mp timed
      rcases result with result | result
      · simp [send, sendtoSchedule2, schedule, result, time, allocated, Daemon.waiting, Sender.note]
      · simp [send, sendtoSchedule2, schedule, result, time, allocated, Daemon.waiting, Sender.note]

end queue

section running
variable {cfg : Config} {enableIpv6 : Bool} {sockets : Nat → Int} {env : Nat → Answer}
  {s : Daemon}

/-- No listener hears a farewell in it. -/
def Staying (d : Datagram) : Prop := ∀ sockfd g usn, heard sockfd g d ≠ some (.byebye usn)

/-- What holds while the daemon runs. -/
structure Announcing (s : Daemon) : Prop where
  tracked : Tracked s
  wire : ∀ d ∈ s.wire, Staying d
  waiting : ∀ d ∈ s.waiting, Staying d

theorem announcing_start : Announcing Daemon.start := by
  refine ⟨tracked_start, ?_, ?_⟩
  · simp [Daemon.wire, Daemon.start, Sender.start]
  · simp [Daemon.waiting, Daemon.start, Sender.start]

theorem announcing_send (announcing : Announcing s) (env : Nat → Answer) (delay : Nat)
    {d : Datagram} (staying : Staying d) : Announcing (send env delay s d) := by
  obtain ⟨tracked, sent⟩ := send_sent announcing.tracked env delay d
  refine ⟨tracked, ?_, ?_⟩
  · intro e member
    cases sent with
    | lost wire _ => exact announcing.wire e (wire ▸ member)
    | queued wire _ => exact announcing.wire e (wire ▸ member)
    | taken wire _ =>
      rw [wire, List.mem_append, List.mem_singleton] at member
      rcases member with member | rfl
      · exact announcing.wire e member
      · exact staying
  · intro e member
    cases sent with
    | lost _ waiting => exact announcing.waiting e (waiting ▸ member)
    | taken _ waiting => exact announcing.waiting e (waiting ▸ member)
    | queued _ waiting =>
      rw [waiting] at member
      rcases List.mem_cons.mp member with rfl | member
      · exact staying
      · exact announcing.waiting e member

theorem announcing_within {s' : Daemon} (announcing : Announcing s) (tracked : Tracked s')
    (within : Within s s') : Announcing s' := by
  refine ⟨tracked, ?_, fun d member => announcing.waiting d (within.waiting d member)⟩
  intro d member
  rcases within.wire d member with member | member
  · exact announcing.wire d member
  · exact announcing.waiting d member

/-- A call of the main loop, with what it meets: a round of announcements, another datagram, or a
    turn over the queue. -/
inductive Op
  | notifies (env : Nat → Answer) (lifetime : Nat)
  | other (env : Nat → Answer) (delay : Nat) (d : Datagram)
  | turn (writefds : List Int) (maxFd : Int) (now : TimeOfDay) (ready : List Int)
      (results : ScheduledSend → SendResult)

def step (cfg : Config) (enableIpv6 : Bool) (sockets : Nat → Int) (s : Daemon) : Op → Daemon
  | .notifies env lifetime => sendSSDPNotifies2 cfg enableIpv6 sockets env lifetime s
  | .other env delay d => send env delay s d
  | .turn writefds maxFd now ready results =>
    { s with queue := (trySendto ready results (getSendtoFds writefds maxFd now s.queue).2).2 }

/-- The lifetime is an `unsigned int`; other datagrams go to no multicast group. -/
def Admits (_ : Daemon) : Op → Prop
  | .notifies _ lifetime => lifetime < 2 ^ 32
  | .other _ _ d => ∀ g, d.destAddr ≠ sockname g
  | .turn .. => True

theorem heard_alive (printable : Printable cfg) {host : CString} (part : Part 63 host)
    {sv : Service} (listed : sv ∈ services cfg) {lifetime : Nat} (small : lifetime < 2 ^ 32)
    (group : Group) (sockfd sock : Int) (g : Group) :
    heard sockfd g (datagram sock group (notifyText cfg group host sv lifetime)) =
      if sock = sockfd ∧ group = g then some (.alive sv.usn) else none := by
  rw [notifyText, heard_notice (notifyFront_unlabelled printable part.1 group lifetime)
    (services_plain printable listed) (by decide)
    (notifyText_fits printable part.2 group listed small)]
  rfl

theorem heard_byebye (printable : Printable cfg) {sv : Service} (listed : sv ∈ services cfg)
    (group : Group) (sockfd sock : Int) (g : Group) :
    heard sockfd g (datagram sock group (byebyeText cfg group sv)) =
      if sock = sockfd ∧ group = g then some (.byebye sv.usn) else none := by
  have front : ∀ line ∈ ["NOTIFY * HTTP/1.1".toList, hostLine group], Unlabelled line := by
    intro line member
    simp only [List.mem_cons, List.not_mem_nil, or_false] at member
    rcases member with rfl | rfl
    · exact ⟨by decide, by decide, by decide⟩
    · exact hostLine_unlabelled group
  rw [byebyeText, heard_notice front (services_plain printable listed) (by decide)
    (byebyeText_fits printable group listed)]
  rfl

theorem foldl_announcing {α : Type*} {f : Daemon → α → Daemon} {list : List α}
    (kept : ∀ s, Announcing s → ∀ a ∈ list, Announcing (f s a)) (announcing : Announcing s) :
    Announcing (list.foldl f s) := by
  induction list generalizing s with
  | nil => exact announcing
  | cons a list ih =>
    apply ih
    · exact fun s now a member => kept s now a (List.mem_cons_of_mem _ member)
    · exact kept s announcing a List.mem_cons_self

theorem notifies_announcing (printable : Printable cfg) {host : CString} (part : Part 63 host)
    {lifetime : Nat} (small : lifetime < 2 ^ 32) (sockfd : Int) (ipv6 : Bool)
    (announcing : Announcing s) :
    Announcing (sendSSDPNotifies cfg env sockfd host lifetime ipv6 s) := by
  apply foldl_announcing _ announcing
  intro s now g _
  apply foldl_announcing _ now
  intro s now sv listed
  have staying : Staying (datagram sockfd g (notifyText cfg g host sv lifetime)) := by
    intro fd group usn
    rw [heard_alive printable part listed small]
    split
    · simp
    · simp
  exact announcing_send (announcing_send now env 0 staying) env 250 staying

theorem step_announcing (printable : Printable cfg) (op : Op) (announcing : Announcing s)
    (admitted : Admits s op) : Announcing (step cfg enableIpv6 sockets s op) := by
  cases op with
  | notifies env lifetime =>
    apply foldl_announcing _ announcing
    intro s now lan member
    have inside := List.fst_mem_of_mem_zipIdx member
    have own : ∀ sockfd s, Announcing s →
        Announcing (sendSSDPNotifies cfg env sockfd lan.1.str lifetime false s) := by
      intro sockfd s now
      have host := (printable.hosts lan.1 inside).up (show 15 ≤ 63 by decide)
      exact notifies_announcing printable host admitted sockfd false now
    dsimp only
    split
    · split
      · exact notifies_announcing printable printable.host6 admitted _ true (own _ s now)
      · exact own _ s now
    · exact own _ s now
  | other env delay d =>
    apply announcing_send announcing env delay
    intro sockfd g usn message
    rw [heard, if_neg] at message
    · cases message
    · exact fun aimed => admitted g aimed.2
  | turn writefds maxFd now ready results =>
    obtain ⟨tracked, within⟩ := getSendtoFds_within announcing.tracked writefds maxFd now
    have woken := announcing_within announcing tracked within
    obtain ⟨tracked, within⟩ := trySendto_within woken.tracked ready results
    exact announcing_within woken tracked within

/-- A state of the main loop. -/
def Reached (cfg : Config) (enableIpv6 : Bool) (sockets : Nat → Int) (s : Daemon) : Prop :=
  ∃ ops, Admitted (step cfg enableIpv6 sockets) Admits Daemon.start ops ∧
    s = ops.foldl (step cfg enableIpv6 sockets) Daemon.start

theorem reached_announcing (printable : Printable cfg)
    (reached : Reached cfg enableIpv6 sockets s) : Announcing s := by
  obtain ⟨ops, admitted, rfl⟩ := reached
  exact always_last (always_of_admitted
    (fun s op now allowed => step_announcing printable op now allowed) announcing_start admitted)

end running

section shutdown
variable {cfg : Config} {enableIpv6 : Bool} {sockets : Nat → Int} {env : Nat → Answer}
  {s : Daemon}

/-- Each of the datagrams goes to the kernel behind all earlier ones, or in front of the queue. -/
theorem sends_split (tracked : Tracked s) (accepted : ∀ i, Accepted (env i))
    (list : List Datagram) : ∃ taken kept : List Datagram,
      (list.foldl (send env 0) s).wire = s.wire ++ taken ∧
      (list.foldl (send env 0) s).waiting = kept ++ s.waiting ∧
      Tracked (list.foldl (send env 0) s) ∧ ∀ d, d ∈ list ↔ d ∈ taken ∨ d ∈ kept := by
  induction list generalizing s with
  | nil => exact ⟨[], [], by simp, rfl, tracked, by simp⟩
  | cons first list ih =>
    have next := (send_sent tracked env 0 first).1
    obtain ⟨taken, kept, wire, waiting, later, members⟩ := ih next
    rcases send_kept tracked (accepted _) first with ⟨one, same⟩ | ⟨same, one⟩
    · refine ⟨first :: taken, kept, ?_, ?_, later, ?_⟩
      · rw [List.foldl_cons, wire, one, List.append_assoc, List.singleton_append]
      · rw [List.foldl_cons, waiting, same]
      · intro d
        rw [List.mem_cons, List.mem_cons, members, or_assoc]
    · refine ⟨taken, kept ++ [first], ?_, ?_, later, ?_⟩
      · rw [List.foldl_cons, wire, same]
      · rw [List.foldl_cons, waiting, one, List.append_assoc, List.singleton_append]
      · intro d
        rw [List.mem_cons, members, List.mem_append, List.mem_singleton]
        tauto

theorem finalizeLoop_sent {results : ScheduledSend → SendResult}
    (sent : ∀ elt, ∃ n, results elt = .sent n) (clock : Nat) (list : List ScheduledSend) :
    finalizeLoop results clock list =
      ([], -1, list.map fun (elt : ScheduledSend) => .handed elt.submission clock) := by
  induction list with
  | nil => rfl
  | cons elt list ih =>
    obtain ⟨n, taken⟩ := sent elt
    simp only [finalizeLoop, ih, taken, List.map_cons]

theorem handedOver_queue (tracked : Tracked s) (clock : Nat) {list : List ScheduledSend}
    (inside : ∀ elt ∈ list, elt ∈ s.queue.sendList) :
    (list.map fun (elt : ScheduledSend) => Event.handed elt.submission clock).filterMap
      (handedOver s.datagrams) = list.map (·.datagram) := by
  induction list with
  | nil => rfl
  | cons elt list ih =>
    have known := tracked.queued elt (inside elt List.mem_cons_self)
    have rest := ih fun other member => inside other (List.mem_cons_of_mem _ member)
    rw [List.map_cons, List.filterMap_cons, handedOver, known, rest, List.map_cons]

/-- When the kernel takes everything, the queue goes to the wire in its order, in one turn. -/
theorem finalize_taken (tracked : Tracked s) {turn : Turn}
    (sent : ∀ elt, ∃ n, turn.results elt = .sent n) (start : TimeOfDay) (turns : List Turn) :
    ∃ q, finalizeSendto (some start) (turn :: turns) s.queue = some (q, []) ∧
      Daemon.wire { s with queue := q } = s.wire ++ s.waiting := by
  have loop := finalizeLoop_sent sent s.queue.clock s.queue.sendList
  by_cases empty : s.queue.sendList.isEmpty
  · refine ⟨s.queue, by simp [finalizeSendto, finalizeTurns, empty], ?_⟩
    rw [Daemon.waiting, List.isEmpty_iff.mp empty, List.map_nil, List.append_nil]
  · have gone : (attemptAll turn s.queue).sendList = [] := by
      simp only [attemptAll, loop, Sender.note]
    have again : finalizeTurns (deadlineOf start) turns (attemptAll turn s.queue) =
        some (attemptAll turn s.queue, []) := by
      cases turns with
      | nil => simp [finalizeTurns, gone]
      | cons other turns => simp [finalizeTurns, gone]
    have wire : Daemon.wire { s with queue := attemptAll turn s.queue } =
        s.wire ++ s.waiting := by
      have queued := handedOver_queue tracked s.queue.clock (fun elt member => member)
      simp only [attemptAll, loop, Daemon.wire]
      rw [wire_note, queued]
      rfl
    have nothing : discardAll (attemptAll turn s.queue) = attemptAll turn s.queue := by
      simp only [discardAll, gone, List.map_nil, Sender.note, List.append_nil]
      rw [← gone]
    have low : maxFdOf turn s.queue = -1 := by rw [maxFdOf, loop]
    refine ⟨attemptAll turn s.queue, ?_, wire⟩
    simp only [finalizeSendto, finalizeTurns, empty, Bool.false_eq_true, ↓reduceIte]
    cases time : turn.now with
    | none => rfl
    | some now =>
      simp only [low]
      split
      · rw [nothing]
      · rw [if_neg (by decide), again]

/-- An announcement that has not left the queue. -/
def Waits (s : Daemon) (sockfd : Int) (g : Group) (usn : CString) : Prop :=
  ∃ d ∈ s.waiting, heard sockfd g d = some (.alive usn)

/-- The farewell reaches the group on the interface of the socket, and names the service. -/
def Revoked (cfg : Config) (enableIpv6 : Bool) (sockets : Nat → Int) (nSockets : Nat)
    (sockfd : Int) (g : Group) (usn : CString) : Prop :=
  (∃ j < nSockets, sockets j = sockfd ∧ 0 ≤ sockfd ∧ goodbyeGroup enableIpv6 j = g) ∧
    ∃ sv ∈ services cfg, sv.usn = usn

theorem mem_farewells {nSockets : Nat} {d : Datagram} :
    d ∈ (List.range nSockets).flatMap (farewells cfg enableIpv6 sockets) ↔
      ∃ j < nSockets, 0 ≤ sockets j ∧ ∃ sv ∈ services cfg, d = datagram (sockets j)
        (goodbyeGroup enableIpv6 j) (byebyeText cfg (goodbyeGroup enableIpv6 j) sv) := by
  simp only [List.mem_flatMap, List.mem_range, farewells]
  constructor
  · rintro ⟨j, inside, member⟩
    split at member
    · cases member
    · obtain ⟨sv, listed, rfl⟩ := List.mem_map.mp member
      exact ⟨j, inside, by omega, sv, listed, rfl⟩
  · rintro ⟨j, inside, open', sv, listed, rfl⟩
    refine ⟨j, inside, ?_⟩
    rw [if_neg (by omega)]
    exact List.mem_map_of_mem listed

end shutdown

/-- After any run of the main loop, a shutdown in which the system accepts every datagram leaves a
    listener with the announcements that were still in the queue, which are sent behind the
    farewell, and with what it knew before and the farewell does not revoke. The farewell goes to
    the IPv4 group and the link-local group of each open socket only. -/
theorem shutdown_presence {cfg : Config} (printable : Printable cfg)
    {enableIpv6 : Bool} {sockets : Nat → Int} {s : Daemon}
    (reached : Reached cfg enableIpv6 sockets s) (nSockets : Nat) {env : Nat → Answer}
    (accepted : ∀ i, Accepted (env i)) {turn : Turn}
    (sent : ∀ elt, ∃ n, turn.results elt = .sent n) (start : TimeOfDay) (turns : List Turn) :
    ∃ q, finalizeSendto (some start) (turn :: turns)
        (sendSSDPGoodbye cfg enableIpv6 sockets nSockets env s).queue = some (q, []) ∧
      ∀ sockfd g usn,
        Holds { sendSSDPGoodbye cfg enableIpv6 sockets nSockets env s with queue := q }
            sockfd g usn ↔
          Waits s sockfd g usn ∨ (Holds s sockfd g usn ∧
            ¬ Revoked cfg enableIpv6 sockets nSockets sockfd g usn) := by
  have announcing := reached_announcing printable reached
  obtain ⟨taken, kept, wire, waiting, tracked, members⟩ := sends_split announcing.tracked accepted
    ((List.range nSockets).flatMap (farewells cfg enableIpv6 sockets))
  obtain ⟨q, done, last⟩ := finalize_taken tracked sent start turns
  refine ⟨q, done, ?_⟩
  intro sockfd g usn
  have whole : Daemon.wire { sendSSDPGoodbye cfg enableIpv6 sockets nSockets env s with
      queue := q } = s.wire ++ (taken ++ kept) ++ s.waiting := by
    refine last.trans ?_
    rw [wire, waiting]
    simp only [List.append_assoc]
  have farewell : ∀ d ∈ taken ++ kept, ∃ j < nSockets, 0 ≤ sockets j ∧ ∃ sv ∈ services cfg,
      heard sockfd g d = if sockets j = sockfd ∧ goodbyeGroup enableIpv6 j = g then
        some (.byebye sv.usn) else none := by
    intro d member
    have sentAway := (members d).mpr (List.mem_append.mp member)
    obtain ⟨j, inside, open', sv, listed, rfl⟩ := mem_farewells.mp sentAway
    exact ⟨j, inside, open', sv, listed, heard_byebye printable listed _ _ _ _⟩
  rw [Holds, whole, List.filterMap_append, List.filterMap_append, known_overtaken]
  · have waits : .alive usn ∈ s.waiting.filterMap (heard sockfd g) ↔ Waits s sockfd g usn :=
      List.mem_filterMap
    have revoked : .byebye usn ∈ (taken ++ kept).filterMap (heard sockfd g) ↔
        Revoked cfg enableIpv6 sockets nSockets sockfd g usn := by
      rw [List.mem_filterMap]
      constructor
      · rintro ⟨d, member, message⟩
        obtain ⟨j, inside, open', sv, listed, told⟩ := farewell d member
        rw [told] at message
        split at message
        · rename_i here
          simp only [Option.some.injEq, Message.byebye.injEq] at message
          exact ⟨⟨j, inside, here.1, here.1 ▸ open', here.2⟩, sv, listed, message⟩
        · cases message
      · rintro ⟨⟨j, inside, socket, open', group⟩, sv, listed, name⟩
        have member := (members _).mp
          (mem_farewells.mpr ⟨j, inside, socket ▸ open', sv, listed, rfl⟩)
        refine ⟨_, List.mem_append.mpr member, ?_⟩
        rw [heard_byebye printable listed, if_pos ⟨socket, group⟩, name]
    rw [waits, revoked, Holds]
  · intro k member
    obtain ⟨d, inside, message⟩ := List.mem_filterMap.mp member
    obtain ⟨j, _, _, sv, _, told⟩ := farewell d inside
    rw [told] at message
    split at message
    · cases message
    · cases message
  · intro k member
    obtain ⟨d, inside, message⟩ := List.mem_filterMap.mp member
    exact announcing.waiting d inside sockfd g k message

def announcer : Config :=
  let uuid := "uuid:00000000-0000-0000-0000-000000000000".toList
  { build := ⟨false, false, false, true, true, false, true⟩
    lanAddrs :=
      [{ ifname := "eth1".toList, index := 2, str := "192.168.1.1".toList
         addr := Inet.ofBytes 192 168 1 1, mask := Inet.ofBytes 255 255 255 0, addIndexes := 0 }]
    getSrcForRouteTo := fun _ => none
    getLinkLocalAddr := fun _ => 0
    inetNtop := fun _ => none
    ipv6AddrForHttp := "[fe80::1]".toList
    uuidvalueIgd := uuid
    uuidvalueWan := uuid
    uuidvalueWcd := uuid
    httpPort := 5000
    httpsPort := some 5001
    httpDate := none
    randomUrl := none
    serverString := "Linux UPnP/1.1 MiniUPnPd/2.3".toList
    bootid := 1
    configid := 1337
    random := fun _ => 0 }

theorem announcer_printable : Printable announcer where
  server := by decide
  url := fun _ given => nomatch given
  host6 := by decide
  hosts := by decide
  igd := by decide
  wan := by decide
  wcd := by decide

def taking (_ : Nat) : Answer :=
  { result := .sent 400, tv := some (clockAt 10 (Fin.last 9)), allocated := true }

def takingTurn : Turn :=
  { results := fun _ => .sent 400, now := some (clockAt 11 (Fin.last 9)), selected := true }

/-- The sockets 5 and 6 for the one interface, and a shutdown right after the announcements. -/
def announcedOnce : List Op := [.notifies taking 1800]

theorem announcedOnce_presence :
    ∃ q, finalizeSendto (some (clockAt 10 9)) [takingTurn]
        (sendSSDPGoodbye announcer true (fun j => 5 + j) 2 taking
          (announcedOnce.foldl (step announcer true fun j => 5 + j) Daemon.start)).queue =
        some (q, []) ∧
      ∀ sockfd g usn,
        Holds { sendSSDPGoodbye announcer true (fun j => 5 + j) 2 taking
            (announcedOnce.foldl (step announcer true fun j => 5 + j) Daemon.start) with
            queue := q } sockfd g usn ↔
          Waits (announcedOnce.foldl (step announcer true fun j => 5 + j) Daemon.start)
            sockfd g usn ∨
          (Holds (announcedOnce.foldl (step announcer true fun j => 5 + j) Daemon.start)
            sockfd g usn ∧ ¬ Revoked announcer true (fun j => 5 + j) 2 sockfd g usn) :=
  shutdown_presence announcer_printable
    ⟨announcedOnce, ⟨show 1800 < 2 ^ 32 by decide, trivial⟩, rfl⟩ 2
    (fun _ => .inl ⟨400, rfl⟩) (fun _ => ⟨400, rfl⟩) (clockAt 10 9) []

end SsdpPresence
