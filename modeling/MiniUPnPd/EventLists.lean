import MiniUPnPd.Lib.MutualLinks
import MiniUPnPd.UpnpEvents

/-!
The lists of subscribers and of their notifies, as objects in memory that point at each other.
What the sockets, the allocator and the clock do is part of each call. An operation that uses
memory without an object in it is `none`.
-/
namespace EventLists
open CText Inet UpnpEvents
open UpnpHttp (charAt)

abbrev Addr := Nat

structure EventConfig extends EventBuild where
  upnpStrict : Bool
  upnpVersion10 : Bool

inductive NotifyState where
  | created
  | connecting
  | sending
  | waitingForResponse
  | finished
  | error
  deriving DecidableEq

/-- `struct subscriber`, and the property set of the last message that was sent to it. -/
structure ListedSubscriber extends Subscriber where
  notify : Option Addr
  timeout : Int
  seq : UInt32
  uuid : List Char
  lastSent : Option CString
  deriving DecidableEq

/-- `struct upnp_event_notify`, and the property set in its message. The path is an index into the
    callback of the subscriber; before it is allocated the buffer is empty. -/
structure Notify where
  s : Int
  state : NotifyState
  sub : Option Addr
  buffer : List Char
  buffersize : Nat
  tosend : Int
  sent : Nat
  path : Nat
  addrstr : List Char
  portstr : CString
  xml : Option CString
  deriving DecidableEq

/-- The two lists, the objects in memory, the property set of each service at the moment, and
    whether an allocation, a socket or a peer has failed so far. -/
structure Events where
  subscriberlist : List Addr
  notifylist : List Addr
  subscribers : Addr → Option ListedSubscriber
  notifies : Addr → Option Notify
  vars : SubscriberService → CString
  failed : Bool

namespace Events
variable (m : Events)

def start (vars : SubscriberService → CString) : Events where
  subscriberlist := []
  notifylist := []
  subscribers _ := none
  notifies _ := none
  vars := vars
  failed := false

def fail : Events := { m with failed := true }

/-- Memory that is in use is never handed out. -/
def calloc (a : Option Addr) : Option Addr :=
  a.filter fun a => (m.subscribers a).isNone && (m.notifies a).isNone

def putSubscriber (a : Addr) (sub : ListedSubscriber) : Events :=
  { m with subscribers := Function.update m.subscribers a (some sub) }

def putNotify (b : Addr) (obj : Notify) : Events :=
  { m with notifies := Function.update m.notifies b (some obj) }

@[simp] theorem putNotify_subscribers (b : Addr) (obj : Notify) :
    (m.putNotify b obj).subscribers = m.subscribers := rfl

@[simp] theorem putSubscriber_notifies (a : Addr) (sub : ListedSubscriber) :
    (m.putSubscriber a sub).notifies = m.notifies := rfl

def insertSubscriber (a : Addr) (sub : ListedSubscriber) : Events :=
  { m.putSubscriber a sub with subscriberlist := a :: m.subscriberlist }

def insertNotify (b : Addr) (obj : Notify) : Events :=
  { m.putNotify b obj with notifylist := b :: m.notifylist }

/-- `LIST_REMOVE` and `free`. -/
def freeSubscriber (a : Addr) : Events :=
  { m with
    subscriberlist := m.subscriberlist.erase a
    subscribers := Function.update m.subscribers a none }

def freeNotify (b : Addr) : Events :=
  { m with
    notifylist := m.notifylist.erase b
    notifies := Function.update m.notifies b none }

end Events

/-- What the calls for a new notify give: the memory, the socket of a family, and whether the
    socket is made non blocking. -/
structure Creation where
  calloc : Option Addr
  socket : Bool → Int
  setNonBlocking : Bool

def upnpEventCreateNotify (config : EventConfig) (outcome : Creation) (a : Addr) (m : Events) :
    Option Events :=
  match m.calloc outcome.calloc with
  | none => some m.fail
  | some b => do
      let sub ← m.subscribers a
      let s := outcome.socket (config.enableIpv6 ∧ charAt sub.callback 7 = '[')
      if s < 0 ∨ ¬ outcome.setNonBlocking then some m.fail
      else
        let obj : Notify :=
          { s, state := .created, sub := some a, buffer := [], buffersize := 0, tosend := 0
            sent := 0, path := 0, addrstr := [], portstr := [], xml := none }
        some ((m.putSubscriber a { sub with notify := some b }).insertNotify b obj)

/-- The clock, the memory and the generated id of a new subscriber. -/
structure Admission where
  now : Int
  calloc : Option Addr
  uuid : List Char
  creation : Creation

def upnpeventsAddSubscriber (config : EventConfig) (outcome : Admission) (eventurl : CString)
    (callback : List Char) (timeout : Int) (m : Events) : Option (Events × Option (List Char)) :=
  match newSubscriber config.toEventBuild eventurl callback with
  | none => some (m, none)
  | some tmp =>
      match m.calloc outcome.calloc with
      | none => some (m.fail, none)
      | some a => do
          let sub : ListedSubscriber :=
            { tmp with
              notify := none, seq := 0, uuid := outcome.uuid, lastSent := none
              timeout := if timeout = 0 then 0 else outcome.now + timeout }
          let m ← upnpEventCreateNotify config outcome.creation a (m.insertSubscriber a sub)
          some (m, some outcome.uuid)

/-- The first subscriber of the list that passes. -/
def findSubscriber (p : ListedSubscriber → Bool) (m : Events) :
    List Addr → Option (Option (Addr × ListedSubscriber))
  | [] => some none
  | a :: rest => do
      let sub ← m.subscribers a
      if p sub then some (some (a, sub)) else findSubscriber p m rest

/-- The test `sidlen == 41 && memcmp(sid, sub->uuid, 41) == 0`. -/
def hasSid (sid : List Char) (sub : ListedSubscriber) : Bool :=
  sid.length = 41 ∧ sub.uuid.take 41 = sid

def upnpeventsRenewSubscription (config : EventConfig) (now : Int) (sid : List Char)
    (timeout : Int) (m : Events) : Option (Events × Option (List Char)) := do
  let current (sub : ListedSubscriber) : Bool :=
    ¬ (config.upnpStrict ∧ sub.timeout ≠ 0 ∧ sub.timeout < now)
  match ← findSubscriber (fun sub => hasSid sid sub && current sub) m m.subscriberlist with
  | none => some (m, none)
  | some (a, sub) =>
      let timeout := if timeout = 0 then 0 else now + timeout
      some (m.putSubscriber a { sub with timeout }, some sub.uuid)

def upnpeventsRemoveSubscriber (sid : Option (List Char)) (m : Events) : Option (Events × Int) :=
  match sid with
  | none => some (m, -1)
  | some sid => do
      match ← findSubscriber (hasSid sid) m m.subscriberlist with
      | none => some (m, -1)
      | some (a, sub) =>
          match sub.notify with
          | none => some (m.freeSubscriber a, 0)
          | some b => do
              let obj ← m.notifies b
              some ((m.putNotify b { obj with sub := none }).freeSubscriber a, 0)

/-- One round of the loop of `upnp_event_var_change_notify`. -/
def changeOne (config : EventConfig) (creation : Addr → Creation) (service : SubscriberService)
    (m : Events) (a : Addr) : Option Events := do
  let sub ← m.subscribers a
  if sub.service = service ∧ sub.notify = none then
    upnpEventCreateNotify config (creation a) a m
  else some m

def upnpEventVarChangeNotify (config : EventConfig) (creation : Addr → Creation)
    (service : SubscriberService) (m : Events) : Option Events :=
  m.subscriberlist.foldlM (changeOne config creation service) m

/-- `connects` tells for which address and port the connection is opened or in progress. -/
def eventNotifyConnect (config : EventConfig) (connects : HostAddr → UInt16 → Bool) (b : Addr)
    (m : Events) : Option Events := do
  let obj ← m.notifies b
  match obj.sub with
  | none => some (m.putNotify b { obj with state := .error })
  | some a => do
      let sub ← m.subscribers a
      let target := upnpEventNotifyConnect config.enableIpv6 sub.callback
      let obj := { obj with addrstr := target.addrstr, portstr := target.portstr,
                            path := target.path }
      if connects target.addr target.port then
        some (m.putNotify b { obj with state := .connecting })
      else some (m.putNotify b { obj with state := .error }).fail

structure FdSets where
  readset : List Int
  writeset : List Int
  maxFd : Int

def FdSets.read (sets : FdSets) (s : Int) : FdSets :=
  { sets with readset := s :: sets.readset, maxFd := max sets.maxFd s }

def FdSets.write (sets : FdSets) (s : Int) : FdSets :=
  { sets with writeset := s :: sets.writeset, maxFd := max sets.maxFd s }

def selectOne (config : EventConfig) (connects : Addr → HostAddr → UInt16 → Bool)
    (st : Events × FdSets) (b : Addr) : Option (Events × FdSets) := do
  let (m, sets) := st
  let obj ← m.notifies b
  if obj.s < 0 then some (m, sets)
  else
    match obj.state with
    | .created => do
        let m ← eventNotifyConnect config (connects b) b m
        let obj ← m.notifies b
        some (m, if obj.state = .connecting then sets.write obj.s else sets)
    | .connecting | .sending => some (m, sets.write obj.s)
    | .waitingForResponse => some (m, sets.read obj.s)
    | .finished | .error => some (m, sets)

def upnpeventsSelectfds (config : EventConfig) (connects : Addr → HostAddr → UInt16 → Bool)
    (m : Events) (sets : FdSets) : Option (Events × FdSets) :=
  m.notifylist.foldlM (selectOne config connects) (m, sets)

/-- A call of `send` or `recv`: an error, nothing done for now, or a number of bytes. -/
inductive SocketResult where
  | failed
  | again
  | bytes (n : Nat)

/-- The bytes of the rest that are sent, unless there is an error. -/
def SocketResult.count (rest : Nat) : SocketResult → Option Nat
  | .failed => none
  | .again => some 0
  | .bytes n => some (min n rest)

/-- What the calls for one notify give: `getsockopt`, whether there is memory for the property
    set, the length that is left unset otherwise, `malloc` for a size, whether `snprintf` works,
    `send` and `recv`. -/
structure NotifyIo where
  soError : Option Int
  varsAlloc : Bool
  unsetLength : Int
  malloc : Nat → Bool
  snprintf : Bool
  send : SocketResult
  recv : SocketResult

def printInt (n : Int) : CString := if n < 0 then '-' :: utoa (-n).toNat else utoa n.toNat

/-- A null pointer printed with `%.*s`. -/
def printNull (l : Int) : CString := if l < 0 ∨ 6 ≤ l then "(null)".toList else []

def notifyMsg (version10 : Bool) (path addrstr portstr : CString) (l : Int) (uuid : CString)
    (seq : UInt32) (xml : CString) : CString :=
  "NOTIFY ".toList ++ path ++ " HTTP/1.1\r\nHost: ".toList ++ addrstr ++ portstr ++
    (if version10 then "\r\nContent-Type: text/xml\r\n".toList
     else "\r\nContent-Type: text/xml; charset=\"utf-8\"\r\n".toList) ++
    "Content-Length: ".toList ++ printInt (l + 2) ++
    "\r\nNT: upnp:event\r\nNTS: upnp:propchange\r\nSID: ".toList ++ uuid ++
    "\r\nSEQ: ".toList ++ utoa seq.toNat ++
    "\r\nConnection: close\r\nCache-Control: no-cache\r\n\r\n".toList ++ xml ++ "\r\n".toList

/-- The size of the buffer for a text: a second one is allocated when the first is too small. -/
def messageBuffer (malloc : Nat → Bool) (length : Nat) : Option Nat :=
  if ¬ malloc 1024 then none
  else if length < 1024 then some 1024
  else if malloc (length + 1) then some (length + 1) else none

def upnpEventPrepare (config : EventConfig) (io : NotifyIo) (b : Addr) (m : Events) :
    Option Events := do
  let obj ← m.notifies b
  match obj.sub with
  | none => some (m.putNotify b { obj with state := .error })
  | some a => do
      let sub ← m.subscribers a
      let path := untilNul (sub.callback.drop obj.path)
      let vars := m.vars sub.service
      let text (l : Int) (xml : CString) : CString :=
        notifyMsg config.upnpVersion10 (if path = [] then ['/'] else path) (untilNul obj.addrstr)
          obj.portstr l (untilNul sub.uuid) sub.seq xml
      let buffer :=
        if io.varsAlloc then text vars.length vars
        else text io.unsetLength (printNull io.unsetLength)
      let m := if io.varsAlloc then m else m.fail
      match messageBuffer io.malloc buffer.length with
      | none => some (m.putNotify b { obj with state := .error }).fail
      | some buffersize =>
          if io.snprintf then
            some (m.putNotify b
              { obj with
                buffer, buffersize, tosend := buffer.length, state := .sending
                xml := if io.varsAlloc then some vars else none })
          else some (m.putNotify b { obj with buffersize, tosend := -1, state := .error }).fail

/-- The last part that is sent makes the property set the last one sent to the subscriber. -/
def upnpEventSend (io : NotifyIo) (b : Addr) (m : Events) : Option Events := do
  let obj ← m.notifies b
  match io.send.count (obj.tosend - obj.sent).toNat with
  | none => some (m.putNotify b { obj with state := .error }).fail
  | some i =>
      let obj := { obj with sent := obj.sent + i }
      if (obj.sent : Int) = obj.tosend then
        let m := m.putNotify b { obj with state := .waitingForResponse }
        match obj.sub with
        | none => some m
        | some a => do
            let sub ← m.subscribers a
            some (m.putSubscriber a { sub with lastSent := obj.xml })
      else some (m.putNotify b obj)

def upnpEventRecv (io : NotifyIo) (b : Addr) (m : Events) : Option Events := do
  let obj ← m.notifies b
  match io.recv with
  | .failed => some (m.putNotify b { obj with state := .error }).fail
  | .again => some m
  | .bytes _ =>
      let m := m.putNotify b { obj with state := .finished }
      match obj.sub with
      | none => some m
      | some a => do
          let sub ← m.subscribers a
          some (m.putSubscriber a { sub with seq := sub.seq + 1 })

def upnpEventProcessNotify (config : EventConfig) (io : NotifyIo) (b : Addr) (m : Events) :
    Option Events := do
  let obj ← m.notifies b
  match obj.state with
  | .connecting =>
      if io.soError ≠ some 0 then some (m.putNotify b { obj with state := .error }).fail
      else do
        let m ← upnpEventPrepare config io b m
        let obj ← m.notifies b
        if obj.state = .sending then upnpEventSend io b m else some m
  | .sending => upnpEventSend io b m
  | .waitingForResponse => upnpEventRecv io b m
  | .finished => some (m.putNotify b { obj with s := -1 })
  | .created | .error => some m

/-- `isset` tells which descriptors are in one of the two sets. -/
def processOne (config : EventConfig) (isset : Int → Bool) (io : Addr → NotifyIo) (m : Events)
    (b : Addr) : Option Events := do
  let obj ← m.notifies b
  if 0 ≤ obj.s ∧ isset obj.s then upnpEventProcessNotify config (io b) b m else some m

def cleanOne (m : Events) (b : Addr) : Option Events := do
  let obj ← m.notifies b
  if obj.state = .error ∨ obj.state = .finished then
    match obj.sub with
    | none => some (m.freeNotify b)
    | some a => do
        let sub ← m.subscribers a
        let m := m.putSubscriber a { sub with notify := none }
        let m := if obj.state = .error then m.freeSubscriber a else m
        some (m.freeNotify b)
  else some m

def timeoutOne (curtime : Int) (m : Events) (a : Addr) : Option Events := do
  let sub ← m.subscribers a
  if sub.timeout ≠ 0 ∧ sub.timeout < curtime ∧ sub.notify = none then some (m.freeSubscriber a)
  else some m

def upnpeventsProcessfds (config : EventConfig) (isset : Int → Bool) (io : Addr → NotifyIo)
    (curtime : Int) (m : Events) : Option Events := do
  let m ← m.notifylist.foldlM (processOne config isset io) m
  let m ← m.notifylist.foldlM cleanOne m
  m.subscriberlist.foldlM (timeoutOne curtime) m

/-- A change gives the service the property set that its subscribers are then notified of. -/
inductive Call where
  | addSubscriber (outcome : Admission) (eventurl : CString) (callback : List Char) (timeout : Int)
  | renewSubscription (now : Int) (sid : List Char) (timeout : Int)
  | removeSubscriber (sid : Option (List Char))
  | change (service : SubscriberService) (xml : CString) (creation : Addr → Creation)
  | selectfds (connects : Addr → HostAddr → UInt16 → Bool) (sets : FdSets)
  | processfds (isset : Int → Bool) (io : Addr → NotifyIo) (curtime : Int)

def call (config : EventConfig) (m : Events) : Call → Option Events
  | .addSubscriber outcome eventurl callback timeout =>
      (upnpeventsAddSubscriber config outcome eventurl callback timeout m).map Prod.fst
  | .renewSubscription now sid timeout =>
      (upnpeventsRenewSubscription config now sid timeout m).map Prod.fst
  | .removeSubscriber sid => (upnpeventsRemoveSubscriber sid m).map Prod.fst
  | .change service xml creation =>
      upnpEventVarChangeNotify config creation service
        { m with vars := Function.update m.vars service xml }
  | .selectfds connects sets => (upnpeventsSelectfds config connects m sets).map Prod.fst
  | .processfds isset io curtime => upnpeventsProcessfds config isset io curtime m

/-- A run after a use of memory without an object stays there. -/
def step (config : EventConfig) (m : Option Events) (c : Call) : Option Events :=
  m.bind fun m => call config m c

end EventLists
