import MiniUPnPd.EventLinks
import MiniUPnPd.Lib.FirstMatch

/-!
The SUBSCRIBE and UNSUBSCRIBE requests of the event services: what they do to the lists in memory,
what they are answered, and the table of subscriptions that stands behind the answers.
-/
namespace EventSubscriptions
open CText UpnpHttp UpnpEvents EventLists FirstMatch

/-- What `ParseHttpHeaders` finds out for these requests besides `HttpHeaders`. -/
structure EventHeaders where
  reqTimeout : Int
  reqSIDOff : Nat
  reqSIDLen : Nat
  reqNTOff : Nat
  reqNTLen : Nat
  deriving DecidableEq

def EventHeaders.none : EventHeaders :=
  { reqTimeout := 0, reqSIDOff := 0, reqSIDLen := 0, reqNTOff := 0, reqNTLen := 0 }

def afterBlanks (buf : List Char) (colon : Nat) : Nat :=
  skip (fun c => c = ' ' ∨ c = '\t') buf (colon + 1)

/-- Offset and length of the word after the colon. -/
def wordValue (buf : List Char) (colon : Nat) : Nat × Nat :=
  let p := afterBlanks buf colon
  (p, skip (fun c => isspace c = false) buf p - p)

def parseEventLine (upnpStrict : Bool) (buf : List Char) (h : EventHeaders) (line : Nat) :
    EventHeaders :=
  match colonOf buf line with
  | none => h
  | some colon =>
    if startsWith buf line "SID:".toList then
      let (off, len) := wordValue buf colon
      { h with reqSIDOff := off, reqSIDLen := len }
    else if startsWith buf line "Timeout:".toList then
      let p := afterBlanks buf colon
      if startsWith buf p "Second-".toList then { h with reqTimeout := atoi (buf.drop (p + 7)) }
      else h
    else if upnpStrict ∧ startsWith buf line "nt:".toList then
      let (off, len) := wordValue buf colon
      { h with reqNTOff := off, reqNTLen := len }
    else h

structure SubscriptionConfig extends EventConfig where
  /-- `defined(UPNP_STRICT) && (UPNP_VERSION_MAJOR > 1) || (UPNP_VERSION_MINOR > 0)` -/
  infiniteForbidden : Bool

/-- A request with its header block, and what the calls of the lists meet. -/
structure Request where
  client : Client
  path : CString
  buf : List Char
  contentoff : Nat
  admission : Admission

def Request.headers (r : Request) : HttpHeaders := parseHttpHeaders r.buf r.contentoff .none

def Request.eventHeaders (upnpStrict : Bool) (r : Request) : EventHeaders :=
  (lineStarts r.buf r.contentoff r.contentoff 0).foldl (parseEventLine upnpStrict r.buf) .none

/-- The status, and the values of the headers Timeout, 0 for `infinite`, and SID. -/
structure Reply where
  status : Nat
  timeout : Option Int
  sid : Option (List Char)
  deriving DecidableEq

def Reply.plain (status : Nat) : Reply := { status, timeout := none, sid := none }

section requests
variable (config : SubscriptionConfig) (r : Request)

def requestedTimeout : Int :=
  let timeout := (r.eventHeaders config.upnpStrict).reqTimeout
  if config.infiniteForbidden ∧ timeout = 0 then 1800 else timeout

def requestedSid : List Char :=
  let h := r.eventHeaders config.upnpStrict
  slice r.buf h.reqSIDOff h.reqSIDLen

def isEventNt (h : EventHeaders) : Bool :=
  0 < h.reqNTOff ∧ h.reqNTLen = 10 ∧ slice r.buf h.reqNTOff 10 = "upnp:event".toList

def processHTTPSubscribe (m : Events) : Option (Events × Reply) :=
  let h := r.headers
  let e := r.eventHeaders config.upnpStrict
  let timeout := requestedTimeout config r
  if h.reqCallbackOff = 0 ∧ e.reqSIDOff = 0 then some (m, .plain 412)
  else if 0 < h.reqCallbackOff then
    if config.upnpStrict ∧ 0 < e.reqSIDOff then some (m, .plain 400)
    else if config.upnpStrict ∧ isEventNt r e = false then some (m, .plain 412)
    else
      match checkCallbackURL config.enableIpv6 r.client r.buf h with
      | none => some (m, .plain 412)
      | some (off, len) => do
          let (m, sid) ← upnpeventsAddSubscriber config.toEventConfig r.admission r.path
            (slice r.buf off len) timeout m
          some (m, { status := 200, timeout := some timeout, sid })
  else if config.upnpStrict ∧ 0 < e.reqNTOff then some (m, .plain 400)
  else do
    let (m, sid) ← upnpeventsRenewSubscription config.toEventConfig r.admission.now
      (requestedSid config r) timeout m
    some (m, match sid with
      | none => .plain 412
      | some sid => { status := 200, timeout := some timeout, sid := some sid })

def processHTTPUnSubscribe (m : Events) : Option (Events × Reply) :=
  let e := r.eventHeaders config.upnpStrict
  if config.upnpStrict ∧ (e.reqSIDOff = 0 ∨ e.reqSIDLen = 0) then some (m, .plain 412)
  else if config.upnpStrict ∧ (0 < r.headers.reqCallbackOff ∨ 0 < e.reqNTOff) then
    some (m, .plain 400)
  else do
    let (m, removed) ← upnpeventsRemoveSubscriber (some (requestedSid config r)) m
    some (m, .plain (if removed < 0 then 412 else 200))

end requests

/-- The requests, and what else happens to the lists. -/
inductive Op where
  | subscribe (r : Request)
  | unsubscribe (r : Request)
  | change (service : SubscriberService) (xml : CString) (creation : Addr → Creation)
  | selectfds (connects : Addr → HostAddr → UInt16 → Bool) (sets : FdSets)
  | processfds (isset : Int → Bool) (io : Addr → NotifyIo) (curtime : Int)

def perform (config : SubscriptionConfig) (m : Events) : Op → Option (Events × Option Reply)
  | .subscribe r => (processHTTPSubscribe config r m).map fun (m, reply) => (m, some reply)
  | .unsubscribe r => (processHTTPUnSubscribe config r m).map fun (m, reply) => (m, some reply)
  | .change service xml creation =>
      (call config.toEventConfig m (.change service xml creation)).map (·, none)
  | .selectfds connects sets =>
      (call config.toEventConfig m (.selectfds connects sets)).map (·, none)
  | .processfds isset io curtime =>
      (call config.toEventConfig m (.processfds isset io curtime)).map (·, none)

/-- The lists after a run, with what each operation was answered. -/
def run (config : SubscriptionConfig) (m : Events) : List Op →
    Option (Events × List (Op × Option Reply))
  | [] => some (m, [])
  | op :: ops => do
      let (m, reply) ← perform config m op
      let (m, history) ← run config m ops
      some (m, (op, reply) :: history)

/-! ### The table of subscriptions -/

/-- A subscription as its client knows it. -/
structure Subscription where
  service : SubscriberService
  callback : List Char
  timeout : Int
  uuid : List Char
  deriving DecidableEq

def seen (sub : ListedSubscriber) : Subscription :=
  { service := sub.service, callback := sub.callback, timeout := sub.timeout, uuid := sub.uuid }

def tableOf (subscribers : Addr → Option ListedSubscriber) (list : List Addr) :
    List Subscription :=
  list.filterMap fun a => (subscribers a).map seen

def table (m : Events) : List Subscription := tableOf m.subscribers m.subscriberlist

def Subscription.hasSid (sid : List Char) (s : Subscription) : Bool :=
  sid.length = 41 ∧ s.uuid.take 41 = sid

/-- In a strict build a subscription that has expired cannot be renewed. -/
def Subscription.current (upnpStrict : Bool) (now : Int) (s : Subscription) : Bool :=
  ¬ (upnpStrict ∧ s.timeout ≠ 0 ∧ s.timeout < now)

def deadline (now timeout : Int) : Int := if timeout = 0 then 0 else now + timeout

section effects
variable (config : SubscriptionConfig) (r : Request) (t : List Subscription)

/-- A new subscription at the head of the table, if its path names a service and there is memory.
    Without either of them the request is still answered with 200. -/
def enrol (memory : Bool) (callback : List Char) : Reply × List Subscription :=
  let timeout := requestedTimeout config r
  match newSubscriber config.toEventBuild r.path callback with
  | none => ({ status := 200, timeout := some timeout, sid := none }, t)
  | some s =>
      if memory then
        ({ status := 200, timeout := some timeout, sid := some r.admission.uuid },
          { service := s.service, callback := s.callback, uuid := r.admission.uuid
            timeout := deadline r.admission.now timeout } :: t)
      else ({ status := 200, timeout := some timeout, sid := none }, t)

def renewed : Reply × List Subscription :=
  let timeout := requestedTimeout config r
  let p (s : Subscription) : Bool :=
    s.hasSid (requestedSid config r) && s.current config.upnpStrict r.admission.now
  match t.find? p with
  | none => (.plain 412, t)
  | some s =>
      ({ status := 200, timeout := some timeout, sid := some s.uuid },
        updateFirst p (fun s => { s with timeout := deadline r.admission.now timeout }) t)

/-- What a SUBSCRIBE request is answered, and the table after it. -/
def subscribed (memory : Bool) : Reply × List Subscription :=
  let h := r.headers
  let e := r.eventHeaders config.upnpStrict
  if h.reqCallbackOff = 0 ∧ e.reqSIDOff = 0 then (.plain 412, t)
  else if 0 < h.reqCallbackOff then
    if config.upnpStrict ∧ 0 < e.reqSIDOff then (.plain 400, t)
    else if config.upnpStrict ∧ isEventNt r e = false then (.plain 412, t)
    else
      match checkCallbackURL config.enableIpv6 r.client r.buf h with
      | none => (.plain 412, t)
      | some (off, len) => enrol config r t memory (slice r.buf off len)
  else if config.upnpStrict ∧ 0 < e.reqNTOff then (.plain 400, t)
  else renewed config r t

/-- What an UNSUBSCRIBE request is answered, and the table after it. -/
def unsubscribed : Reply × List Subscription :=
  let e := r.eventHeaders config.upnpStrict
  if config.upnpStrict ∧ (e.reqSIDOff = 0 ∨ e.reqSIDLen = 0) then (.plain 412, t)
  else if config.upnpStrict ∧ (0 < r.headers.reqCallbackOff ∨ 0 < e.reqNTOff) then (.plain 400, t)
  else
    let p (s : Subscription) : Bool := s.hasSid (requestedSid config r)
    if t.any p then (.plain 200, t.eraseP p) else (.plain 412, t)

end effects

/-- One operation on the table. Failed deliveries and the clock only take subscriptions out. -/
inductive Moves (config : SubscriptionConfig) (t : List Subscription) :
    Op → Option Reply → List Subscription → Prop where
  | subscribe (r : Request) (memory : Bool) :
      Moves config t (.subscribe r) (some (subscribed config r t memory).1)
        (subscribed config r t memory).2
  | unsubscribe (r : Request) :
      Moves config t (.unsubscribe r) (some (unsubscribed config r t).1)
        (unsubscribed config r t).2
  | change {service xml creation} : Moves config t (.change service xml creation) none t
  | selectfds {connects sets} : Moves config t (.selectfds connects sets) none t
  | processfds {isset io curtime t'} (kept : t'.Sublist t) :
      Moves config t (.processfds isset io curtime) none t'

/-- A whole run on the table. -/
inductive Explains (config : SubscriptionConfig) : List Subscription →
    List (Op × Option Reply) → List Subscription → Prop where
  | nil (t : List Subscription) : Explains config t [] t
  | cons {t t' t'' op reply history} (first : Moves config t op reply t')
      (rest : Explains config t' history t'') : Explains config t ((op, reply) :: history) t''

/-! ### The lists in memory and the table -/

/-- The two states stand for the same table, entry by entry. -/
structure Same (m m' : Events) : Prop where
  list : m'.subscriberlist = m.subscriberlist
  entries : ∀ a, (m'.subscribers a).map seen = (m.subscribers a).map seen

section same
variable {m m' m'' : Events} {a b : Addr} {sub sub' : ListedSubscriber}

theorem same_of (list : m'.subscriberlist = m.subscriberlist)
    (subscribers : m'.subscribers = m.subscribers) : Same m m' :=
  ⟨list, fun a => by rw [subscribers]⟩

theorem same_trans (first : Same m m') (second : Same m' m'') : Same m m'' :=
  ⟨second.list.trans first.list, fun a => (second.entries a).trans (first.entries a)⟩

theorem same_table (same : Same m m') : table m' = table m := by
  unfold table tableOf
  rw [same.list, funext same.entries]

theorem same_putSubscriber (here : m.subscribers a = some sub) (look : seen sub' = seen sub) :
    Same m (m.putSubscriber a sub') := by
  refine ⟨rfl, fun c => ?_⟩
  by_cases own : c = a
  · subst own
    simp [Events.putSubscriber, here, look]
  · simp [Events.putSubscriber, Function.update_of_ne own]

theorem same_foldlM {each : Events → Addr → Option Events}
    (one : ∀ m a m', each m a = some m' → Same m m') {list : List Addr}
    (done : list.foldlM each m = some m') : Same m m' := by
  induction list generalizing m with
  | nil =>
    cases done
    exact same_of rfl rfl
  | cons a list ih =>
    rw [List.foldlM_cons, Option.bind_eq_bind, Option.bind_eq_some_iff] at done
    obtain ⟨mid, first, rest⟩ := done
    exact same_trans (one m a mid first) (ih rest)

theorem createNotify_same {config : EventConfig} {outcome : Creation}
    (here : m.subscribers a = some sub)
    (done : upnpEventCreateNotify config outcome a m = some m') : Same m m' := by
  unfold upnpEventCreateNotify at done
  cases got : m.calloc outcome.calloc with
  | none =>
    rw [got] at done
    cases done
    exact same_of rfl rfl
  | some b =>
    simp only [got, here, Option.bind_eq_bind, Option.bind_some] at done
    split at done
    · cases done
      exact same_of rfl rfl
    · cases done
      have put : Same m (m.putSubscriber a { sub with notify := some b }) :=
        same_putSubscriber here rfl
      exact same_trans put (same_of rfl rfl)

theorem changeOne_same {config : EventConfig} {creation : Addr → Creation}
    {service : SubscriberService} (done : changeOne config creation service m a = some m') :
    Same m m' := by
  rw [changeOne, Option.bind_eq_bind, Option.bind_eq_some_iff] at done
  obtain ⟨sub, here, done⟩ := done
  split at done
  · exact createNotify_same here done
  · cases done
    exact same_of rfl rfl

theorem notifyConnect_same {config : EventConfig} {connects : HostAddr → UInt16 → Bool}
    (done : eventNotifyConnect config connects b m = some m') : Same m m' := by
  rw [eventNotifyConnect, Option.bind_eq_bind, Option.bind_eq_some_iff] at done
  obtain ⟨obj, here, done⟩ := done
  cases owner : obj.sub with
  | none =>
    rw [owner] at done
    cases done
    exact same_of rfl rfl
  | some a =>
    simp only [owner, Option.bind_eq_bind, Option.bind_eq_some_iff] at done
    obtain ⟨sub, owned, done⟩ := done
    split at done
    · cases done
      exact same_of rfl rfl
    · cases done
      exact same_of rfl rfl

theorem selectfds_same {config : EventConfig} {connects : Addr → HostAddr → UInt16 → Bool}
    {list : List Addr} {st st' : Events × FdSets}
    (done : list.foldlM (selectOne config connects) st = some st') : Same st.1 st'.1 := by
  induction list generalizing st with
  | nil =>
    cases done
    exact same_of rfl rfl
  | cons b list ih =>
    rw [List.foldlM_cons, Option.bind_eq_bind, Option.bind_eq_some_iff] at done
    obtain ⟨mid, first, rest⟩ := done
    refine same_trans ?_ (ih rest)
    simp only [selectOne, Option.bind_eq_bind, Option.bind_eq_some_iff] at first
    obtain ⟨obj, here, first⟩ := first
    split at first
    · cases first
      exact same_of rfl rfl
    · cases state : obj.state with
      | created =>
        simp only [state, Option.bind_eq_some_iff] at first
        obtain ⟨m₁, connected, obj₁, there, first⟩ := first
        cases first
        exact notifyConnect_same connected
      | _ =>
        simp only [state] at first
        cases first
        exact same_of rfl rfl

theorem prepare_same {config : EventConfig} {io : NotifyIo}
    (done : upnpEventPrepare config io b m = some m') : Same m m' := by
  rw [upnpEventPrepare, Option.bind_eq_bind, Option.bind_eq_some_iff] at done
  obtain ⟨obj, here, done⟩ := done
  cases owner : obj.sub with
  | none =>
    rw [owner] at done
    cases done
    exact same_of rfl rfl
  | some a =>
    simp only [owner, Option.bind_eq_bind, Option.bind_eq_some_iff] at done
    obtain ⟨sub, owned, done⟩ := done
    have kept : Same m (if io.varsAlloc then m else m.fail) := by
      split <;> exact same_of rfl rfl
    refine same_trans kept ?_
    split at done
    · cases done
      exact same_of rfl rfl
    · split at done
      · cases done
        exact same_of rfl rfl
      · cases done
        exact same_of rfl rfl

theorem send_same {io : NotifyIo} (done : upnpEventSend io b m = some m') : Same m m' := by
  rw [upnpEventSend, Option.bind_eq_bind, Option.bind_eq_some_iff] at done
  obtain ⟨obj, here, done⟩ := done
  split at done
  · cases done
    exact same_of rfl rfl
  · dsimp only at done
    split at done
    · cases owner : obj.sub with
      | none =>
        simp only [owner] at done
        cases done
        exact same_of rfl rfl
      | some a =>
        simp only [owner, Option.bind_eq_bind, Option.bind_eq_some_iff] at done
        obtain ⟨sub, owned, done⟩ := done
        cases done
        refine same_trans ?_ (same_putSubscriber owned ?_)
        · exact same_of rfl rfl
        · rfl
    · cases done
      exact same_of rfl rfl

theorem recv_same {io : NotifyIo} (done : upnpEventRecv io b m = some m') : Same m m' := by
  rw [upnpEventRecv, Option.bind_eq_bind, Option.bind_eq_some_iff] at done
  obtain ⟨obj, here, done⟩ := done
  cases received : io.recv with
  | failed =>
    rw [received] at done
    cases done
    exact same_of rfl rfl
  | again =>
    rw [received] at done
    cases done
    exact same_of rfl rfl
  | bytes n =>
    cases owner : obj.sub with
    | none =>
      simp only [received, owner] at done
      cases done
      exact same_of rfl rfl
    | some a =>
      simp only [received, owner, Option.bind_eq_bind, Option.bind_eq_some_iff] at done
      obtain ⟨sub, owned, done⟩ := done
      cases done
      refine same_trans ?_ (same_putSubscriber owned ?_)
      · exact same_of rfl rfl
      · rfl

theorem processOne_same {config : EventConfig} {isset : Int → Bool} {io : Addr → NotifyIo}
    (done : processOne config isset io m b = some m') : Same m m' := by
  rw [processOne, Option.bind_eq_bind, Option.bind_eq_some_iff] at done
  obtain ⟨obj, here, done⟩ := done
  split at done
  · rw [upnpEventProcessNotify, here, Option.bind_eq_bind, Option.bind_some] at done
    cases state : obj.state with
    | connecting =>
      simp only [state] at done
      split at done
      · cases done
        exact same_of rfl rfl
      · rw [Option.bind_eq_bind, Option.bind_eq_some_iff] at done
        obtain ⟨m₁, prepared, done⟩ := done
        rw [Option.bind_eq_some_iff] at done
        obtain ⟨obj₁, there, done⟩ := done
        refine same_trans (prepare_same prepared) ?_
        split at done
        · exact send_same done
        · cases done
          exact same_of rfl rfl
    | sending =>
      rw [state] at done
      exact send_same done
    | waitingForResponse =>
      rw [state] at done
      exact recv_same done
    | _ =>
      rw [state] at done
      cases done
      exact same_of rfl rfl
  · cases done
    exact same_of rfl rfl

end same

section tables
variable {subscribers subscribers' : Addr → Option ListedSubscriber} {list : List Addr} {a : Addr}
  {sub sub' : ListedSubscriber} {m m' : Events}

theorem tableOf_cons (here : subscribers a = some sub) :
    tableOf subscribers (a :: list) = seen sub :: tableOf subscribers list := by
  simp [tableOf, here]

theorem tableOf_update (absent : a ∉ list) (new : Option ListedSubscriber) :
    tableOf (Function.update subscribers a new) list = tableOf subscribers list := by
  unfold tableOf
  apply List.filterMap_congr
  intro c member
  have other : c ≠ a := by
    intro same
    exact absent (same ▸ member)
  rw [Function.update_of_ne other]

/-- Entries that are gone, and no others. -/
theorem tableOf_sublist {list' : List Addr} (shorter : list'.Sublist list)
    (fewer : ∀ a ∈ list', subscribers' a = none ∨ subscribers' a = subscribers a) :
    (tableOf subscribers' list').Sublist (tableOf subscribers list) := by
  induction shorter with
  | slnil => exact List.Sublist.refl _
  | @cons l₁ l₂ c _ ih =>
    have rest := ih fewer
    unfold tableOf at rest ⊢
    rw [List.filterMap_cons]
    split
    · exact rest
    · exact rest.cons _
  | @cons_cons l₁ l₂ c _ ih =>
    have rest := ih fun a member => fewer a (List.mem_cons_of_mem c member)
    unfold tableOf at rest ⊢
    rw [List.filterMap_cons, List.filterMap_cons]
    rcases fewer c List.mem_cons_self with gone | kept
    · simp only [gone, Option.map_none]
      split
      · exact rest
      · exact rest.cons _
    · rw [kept]
      split
      · exact rest
      · exact rest.cons_cons _

theorem freeSubscriber_sublist (m : Events) (a : Addr) :
    (table (m.freeSubscriber a)).Sublist (table m) := by
  apply tableOf_sublist
  · exact List.erase_sublist
  · intro c _
    by_cases own : c = a
    · exact .inl (by simp [Events.freeSubscriber, own])
    · exact .inr (by simp [Events.freeSubscriber, Function.update_of_ne own])

theorem cleanOne_sublist {b : Addr} (done : cleanOne m b = some m') :
    (table m').Sublist (table m) := by
  rw [cleanOne, Option.bind_eq_bind, Option.bind_eq_some_iff] at done
  obtain ⟨obj, here, done⟩ := done
  split at done
  · cases owner : obj.sub with
    | none =>
      rw [owner] at done
      cases done
      exact List.Sublist.refl _
    | some a =>
      simp only [owner, Option.bind_eq_bind, Option.bind_eq_some_iff] at done
      obtain ⟨sub, owned, done⟩ := done
      have idle : Same m (m.putSubscriber a { sub with notify := none }) :=
        same_putSubscriber owned rfl
      cases done
      rw [← same_table idle]
      split
      · exact freeSubscriber_sublist _ a
      · exact List.Sublist.refl _
  · cases done
    exact List.Sublist.refl _

theorem timeoutOne_sublist {curtime : Int} (done : timeoutOne curtime m a = some m') :
    (table m').Sublist (table m) := by
  rw [timeoutOne, Option.bind_eq_bind, Option.bind_eq_some_iff] at done
  obtain ⟨sub, here, done⟩ := done
  split at done
  · cases done
    exact freeSubscriber_sublist m a
  · cases done
    exact List.Sublist.refl _

theorem foldlM_sublist {each : Events → Addr → Option Events}
    (one : ∀ m a m', each m a = some m' → (table m').Sublist (table m)) {list : List Addr}
    (done : list.foldlM each m = some m') : (table m').Sublist (table m) := by
  induction list generalizing m with
  | nil =>
    cases done
    exact List.Sublist.refl _
  | cons a list ih =>
    rw [List.foldlM_cons, Option.bind_eq_bind, Option.bind_eq_some_iff] at done
    obtain ⟨mid, first, rest⟩ := done
    exact (ih rest).trans (one m a mid first)

theorem processfds_sublist {config : EventConfig} {isset : Int → Bool} {io : Addr → NotifyIo}
    {curtime : Int} (done : upnpeventsProcessfds config isset io curtime m = some m') :
    (table m').Sublist (table m) := by
  simp only [upnpeventsProcessfds, Option.bind_eq_bind, Option.bind_eq_some_iff] at done
  obtain ⟨m₁, processed, m₂, cleaned, timedOut⟩ := done
  have first := same_foldlM (fun _ _ _ => processOne_same) processed
  have second := foldlM_sublist (fun _ _ _ => cleanOne_sublist) cleaned
  have third := foldlM_sublist (fun _ _ _ => timeoutOne_sublist) timedOut
  rw [same_table first] at second
  exact third.trans second

/-- The search in the list is the search in the table, for a test of what a client knows. -/
theorem findSubscriber_table {p : ListedSubscriber → Bool} {q : Subscription → Bool}
    (test : ∀ sub, p sub = q (seen sub)) (nodup : list.Nodup)
    {found : Option (Addr × ListedSubscriber)} (search : findSubscriber p m list = some found) :
    (found = none → (tableOf m.subscribers list).find? q = none) ∧
      ∀ a sub, found = some (a, sub) → m.subscribers a = some sub ∧
        (tableOf m.subscribers list).find? q = some (seen sub) ∧
        (∀ sub', tableOf (Function.update m.subscribers a (some sub')) list =
          updateFirst q (fun _ => seen sub') (tableOf m.subscribers list)) ∧
        tableOf (Function.update m.subscribers a none) (list.erase a) =
          (tableOf m.subscribers list).eraseP q := by
  induction list with
  | nil =>
    cases search
    simp [tableOf]
  | cons c list ih =>
    obtain ⟨absent, rest⟩ := List.nodup_cons.mp nodup
    rw [findSubscriber, Option.bind_eq_bind, Option.bind_eq_some_iff] at search
    obtain ⟨own, here, search⟩ := search
    rw [tableOf_cons here]
    by_cases hit : p own = true
    · rw [if_pos hit] at search
      cases search
      have hit' : q (seen own) = true := by rw [← test, hit]
      refine ⟨by simp, ?_⟩
      intro a sub same
      cases same
      refine ⟨here, by simp [hit'], ?_, ?_⟩
      · intro sub'
        rw [tableOf_cons (Function.update_self ..), tableOf_update absent, updateFirst, if_pos hit']
      · rw [List.erase_cons_head, tableOf_update absent, List.eraseP_cons_of_pos hit']
    · rw [if_neg hit] at search
      have miss : q (seen own) = false := by
        rw [← test]
        simpa using hit
      obtain ⟨missing, known⟩ := ih rest search
      constructor
      · intro none
        simp [miss, missing none]
      · intro a sub same
        obtain ⟨there, first, updated, erased⟩ := known a sub same
        have other : c ≠ a := by
          rintro rfl
          rw [here] at there
          cases there
          have passes := List.find?_some first
          rw [miss] at passes
          cases passes
        refine ⟨there, by simp [miss, first], ?_, ?_⟩
        · intro sub'
          have kept : Function.update m.subscribers a (some sub') c = some own := by
            rw [Function.update_of_ne other, here]
          rw [tableOf_cons kept, updated, updateFirst, miss]
          rfl
        · have kept : Function.update m.subscribers a none c = some own := by
            rw [Function.update_of_ne other, here]
          rw [List.erase_cons_tail (by simpa using other), tableOf_cons kept, erased,
            List.eraseP_cons_of_neg (by simp [miss])]

end tables

section steps
variable (config : SubscriptionConfig) (r : Request) {m : Events}

theorem addSubscriber_table (linked : Linked m) (callback : List Char) :
    ∃ m' sid memory, upnpeventsAddSubscriber config.toEventConfig r.admission r.path callback
        (requestedTimeout config r) m = some (m', sid) ∧
      enrol config r (table m) memory callback =
        ({ status := 200, timeout := some (requestedTimeout config r), sid := sid }, table m') := by
  unfold upnpeventsAddSubscriber enrol
  cases newSubscriber config.toEventBuild r.path callback with
  | none => exact ⟨m, none, false, rfl, rfl⟩
  | some tmp =>
    cases got : m.calloc r.admission.calloc with
    | none => exact ⟨m.fail, none, false, rfl, rfl⟩
    | some a =>
      let sub : ListedSubscriber :=
        { tmp with
          notify := none, seq := 0, uuid := r.admission.uuid, lastSent := none
          timeout := if requestedTimeout config r = 0 then 0
            else r.admission.now + requestedTimeout config r }
      have here : (m.insertSubscriber a sub).subscribers a = some sub := by
        simp [Events.insertSubscriber, Events.putSubscriber]
      have absent : a ∉ m.subscriberlist := by
        intro listed
        obtain ⟨old, there, _⟩ := listed_subscriber linked listed
        rw [(calloc_free got).1] at there
        cases there
      obtain ⟨m', created⟩ : ∃ m', upnpEventCreateNotify config.toEventConfig r.admission.creation a
          (m.insertSubscriber a sub) = some m' := by
        rcases createNotify_cases config.toEventConfig r.admission.creation here with
          failed | ⟨b, obj, _, _, _, done⟩
        · exact ⟨_, failed⟩
        · exact ⟨_, done⟩
      refine ⟨m', some r.admission.uuid, true, ?_, ?_⟩
      · simp only [sub] at created ⊢
        simp [created]
      · have inserted : table (m.insertSubscriber a sub) = seen sub :: table m := by
          unfold table
          simp only [Events.insertSubscriber, Events.putSubscriber]
          rw [tableOf_cons (Function.update_self ..), tableOf_update absent]
        rw [same_table (createNotify_same here created), inserted]
        rfl

theorem renewSubscription_table (linked : Linked m) :
    ∃ m' sid, upnpeventsRenewSubscription config.toEventConfig r.admission.now
        (requestedSid config r) (requestedTimeout config r) m = some (m', sid) ∧
      renewed config r (table m) =
        ((match sid with
          | none => Reply.plain 412
          | some sid => { status := 200, timeout := some (requestedTimeout config r),
                          sid := some sid }), table m') := by
  let p (sub : ListedSubscriber) : Bool :=
    EventLists.hasSid (requestedSid config r) sub &&
      decide ¬ (config.upnpStrict ∧ sub.timeout ≠ 0 ∧ sub.timeout < r.admission.now)
  let q (s : Subscription) : Bool :=
    s.hasSid (requestedSid config r) && s.current config.upnpStrict r.admission.now
  obtain ⟨found, searched, _⟩ := findSubscriber_listed p linked fun _ inside => inside
  have test : ∀ sub, p sub = q (seen sub) := fun sub => rfl
  obtain ⟨missing, known⟩ := findSubscriber_table test linked.leftsNodup searched
  unfold upnpeventsRenewSubscription renewed
  simp only [Option.bind_eq_bind]
  rw [searched, Option.bind_some]
  cases found with
  | none =>
    refine ⟨m, none, rfl, ?_⟩
    have nothing : (table m).find? q = none := missing rfl
    simp only [q] at nothing
    simp only [nothing]
  | some pair =>
    obtain ⟨a, sub⟩ := pair
    obtain ⟨here, first, updated, _⟩ := known a sub rfl
    refine ⟨_, some sub.uuid, rfl, ?_⟩
    have hit : (table m).find? q = some (seen sub) := first
    have after := updated { sub with timeout := deadline r.admission.now (requestedTimeout config r) }
    -- only the first entry that passes is updated, and that is the one found
    have same : updateFirst q (fun s => { s with
          timeout := deadline r.admission.now (requestedTimeout config r) }) (table m) =
        updateFirst q (fun _ => seen { sub with
          timeout := deadline r.admission.now (requestedTimeout config r) }) (table m) :=
      updateFirst_found hit rfl
    simp only [q] at hit same
    simp only [hit, same]
    exact congrArg (Prod.mk _) after.symm

theorem removeSubscriber_table (linked : Linked m) :
    ∃ m' removed, upnpeventsRemoveSubscriber (some (requestedSid config r)) m = some (m', removed) ∧
      (if (table m).any fun s => s.hasSid (requestedSid config r) then
          (Reply.plain 200, (table m).eraseP fun s => s.hasSid (requestedSid config r))
        else (Reply.plain 412, table m)) =
        (Reply.plain (if removed < 0 then 412 else 200), table m') := by
  let q (s : Subscription) : Bool := s.hasSid (requestedSid config r)
  obtain ⟨found, searched, listed⟩ := findSubscriber_listed
    (EventLists.hasSid (requestedSid config r)) linked fun _ inside => inside
  have test : ∀ sub, EventLists.hasSid (requestedSid config r) sub = q (seen sub) := fun sub => rfl
  obtain ⟨missing, known⟩ := findSubscriber_table test linked.leftsNodup searched
  simp only [upnpeventsRemoveSubscriber, Option.bind_eq_bind]
  rw [searched, Option.bind_some]
  cases found with
  | none =>
    refine ⟨m, -1, rfl, ?_⟩
    have nothing : (table m).find? q = none := missing rfl
    have absent : (table m).any q = false := by
      rw [List.any_eq_false]
      exact List.find?_eq_none.mp nothing
    simp only [q] at absent
    simp [absent]
  | some pair =>
    obtain ⟨a, sub⟩ := pair
    obtain ⟨here, first, _, erased⟩ := known a sub rfl
    have hit : (table m).find? q = some (seen sub) := first
    have present : (table m).any q = true := by
      rw [List.any_eq_true]
      exact ⟨seen sub, List.mem_of_find?_eq_some hit, List.find?_some hit⟩
    have gone : (table m).eraseP q = tableOf (Function.update m.subscribers a none)
        (m.subscriberlist.erase a) := erased.symm
    simp only [q] at present gone
    cases notify : sub.notify with
    | none =>
      refine ⟨m.freeSubscriber a, 0, ?_, ?_⟩
      · simp [notify]
      · simp only [present, if_true, gone]
        rfl
    | some b =>
      obtain ⟨inside, there⟩ := listed a sub rfl
      obtain ⟨own, found, points⟩ := listed_subscriber linked inside
      rw [there] at found
      cases found
      obtain ⟨_, obj, busy, _⟩ := points b notify
      refine ⟨(m.putNotify b { obj with sub := none }).freeSubscriber a, 0, ?_, ?_⟩
      · simp [notify, busy]
      · simp only [present, if_true, gone]
        rfl

theorem subscribe_moves (linked : Linked m) :
    ∃ m' reply memory, processHTTPSubscribe config r m = some (m', reply) ∧
      subscribed config r (table m) memory = (reply, table m') := by
  unfold processHTTPSubscribe subscribed
  dsimp only
  split
  · exact ⟨m, _, false, rfl, rfl⟩
  · split
    · split
      · exact ⟨m, _, false, rfl, rfl⟩
      · split
        · exact ⟨m, _, false, rfl, rfl⟩
        · cases checkCallbackURL config.enableIpv6 r.client r.buf r.headers with
          | none => exact ⟨m, _, false, rfl, rfl⟩
          | some url =>
            obtain ⟨m', sid, memory, done, effect⟩ :=
              addSubscriber_table config r linked (slice r.buf url.1 url.2)
            exact ⟨m', _, memory, by simp [done], effect⟩
    · split
      · exact ⟨m, _, false, rfl, rfl⟩
      · obtain ⟨m', sid, done, effect⟩ := renewSubscription_table config r linked
        exact ⟨m', _, false, by simp [done], effect⟩

theorem unsubscribe_moves (linked : Linked m) :
    ∃ m' reply, processHTTPUnSubscribe config r m = some (m', reply) ∧
      unsubscribed config r (table m) = (reply, table m') := by
  unfold processHTTPUnSubscribe unsubscribed
  dsimp only
  split
  · exact ⟨m, _, rfl, rfl⟩
  · split
    · exact ⟨m, _, rfl, rfl⟩
    · obtain ⟨m', removed, done, effect⟩ := removeSubscriber_table config r linked
      exact ⟨m', _, by simp [done], effect⟩

theorem call_linked {config : EventConfig} {m' : Events} {c : Call} (linked : Linked m)
    (done : call config m c = some m') : Linked m' := by
  obtain ⟨m₁, result, actions⟩ := call_actions config c linked
  rw [result] at done
  cases done
  exact actions_linked (changed_linked linked c) actions

theorem subscribe_linked {m' : Events} {reply : Reply} (linked : Linked m)
    (done : processHTTPSubscribe config r m = some (m', reply)) : Linked m' := by
  unfold processHTTPSubscribe at done
  dsimp only at done
  split at done
  · cases done
    exact linked
  · split at done
    · split at done
      · cases done
        exact linked
      · split at done
        · cases done
          exact linked
        · split at done
          · cases done
            exact linked
          · rename_i off len _
            rw [Option.bind_eq_bind, Option.bind_eq_some_iff] at done
            obtain ⟨⟨m₁, sid⟩, added, done⟩ := done
            cases done
            have result : call config.toEventConfig m (.addSubscriber r.admission r.path
                (slice r.buf off len) (requestedTimeout config r)) = some m₁ := by
              simp [call, added]
            exact call_linked linked result
    · split at done
      · cases done
        exact linked
      · rw [Option.bind_eq_bind, Option.bind_eq_some_iff] at done
        obtain ⟨⟨m₁, sid⟩, again, done⟩ := done
        cases done
        have result : call config.toEventConfig m (.renewSubscription r.admission.now
            (requestedSid config r) (requestedTimeout config r)) = some m₁ := by
          simp [call, again]
        exact call_linked linked result

theorem unsubscribe_linked {m' : Events} {reply : Reply} (linked : Linked m)
    (done : processHTTPUnSubscribe config r m = some (m', reply)) : Linked m' := by
  unfold processHTTPUnSubscribe at done
  dsimp only at done
  split at done
  · cases done
    exact linked
  · split at done
    · cases done
      exact linked
    · rw [Option.bind_eq_bind, Option.bind_eq_some_iff] at done
      obtain ⟨⟨m₁, removed⟩, gone, done⟩ := done
      cases done
      have result : call config.toEventConfig m
          (.removeSubscriber (some (requestedSid config r))) = some m₁ := by
        simp [call, gone]
      exact call_linked linked result

/-- One operation in memory is one operation on the table. -/
theorem perform_moves (op : Op) (linked : Linked m) :
    ∃ m' reply, perform config m op = some (m', reply) ∧ Linked m' ∧
      Moves config (table m) op reply (table m') := by
  cases op with
  | subscribe r =>
    obtain ⟨m', reply, memory, done, effect⟩ := subscribe_moves config r linked
    refine ⟨m', some reply, by simp [perform, done], subscribe_linked config r linked done, ?_⟩
    have moves : Moves config (table m) (.subscribe r) _ _ := .subscribe r memory
    rw [effect] at moves
    exact moves
  | unsubscribe r =>
    obtain ⟨m', reply, done, effect⟩ := unsubscribe_moves config r linked
    refine ⟨m', some reply, by simp [perform, done], unsubscribe_linked config r linked done, ?_⟩
    have moves : Moves config (table m) (.unsubscribe r) _ _ := .unsubscribe r
    rw [effect] at moves
    exact moves
  | change service xml creation =>
    obtain ⟨m', done, actions⟩ :=
      call_actions config.toEventConfig (.change service xml creation) linked
    refine ⟨m', none, by simp [perform, done], call_linked linked done, ?_⟩
    have told : Same { m with vars := Function.update m.vars service xml } m' := by
      have one : ∀ m a m', changeOne config.toEventConfig creation service m a = some m' →
          Same m m' := fun _ _ _ => changeOne_same
      exact same_foldlM one done
    rw [same_table (same_trans (same_of rfl rfl) told)]
    exact .change
  | selectfds connects sets =>
    obtain ⟨m', done, actions⟩ :=
      call_actions config.toEventConfig (.selectfds connects sets) linked
    refine ⟨m', none, by simp [perform, done], call_linked linked done, ?_⟩
    obtain ⟨t, selected, rfl⟩ := Option.map_eq_some_iff.mp done
    rw [same_table (selectfds_same selected)]
    exact .selectfds
  | processfds isset io curtime =>
    obtain ⟨m', done, actions⟩ :=
      call_actions config.toEventConfig (.processfds isset io curtime) linked
    exact ⟨m', none, by simp [perform, done], call_linked linked done,
      .processfds (processfds_sublist done)⟩

theorem run_explained (ops : List Op) (linked : Linked m) :
    ∃ m' history, run config m ops = some (m', history) ∧ Linked m' ∧
      history.map Prod.fst = ops ∧ Explains config (table m) history (table m') := by
  induction ops generalizing m with
  | nil => exact ⟨m, [], rfl, linked, rfl, .nil _⟩
  | cons op ops ih =>
    obtain ⟨m₁, reply, first, linked₁, moves⟩ := perform_moves config op linked
    obtain ⟨m₂, history, rest, linked₂, same, explains⟩ := ih linked₁
    refine ⟨m₂, (op, reply) :: history, ?_, linked₂, by simp [same], .cons moves explains⟩
    simp [run, first, rest]

end steps

/-! ### What the clients were told -/

/-- A subscription that a request has asked for: by its path and its Callback header, which names
    the client, and answered with the id. -/
def Admitted (config : SubscriptionConfig) (s : Subscription) (r : Request) (reply : Reply) : Prop :=
  reply.status = 200 ∧ reply.sid = some s.uuid ∧
    subscriberService config.toEventBuild r.path = some s.service ∧
    ∃ off len, checkCallbackURL config.enableIpv6 r.client r.buf r.headers = some (off, len) ∧
      s.callback = slice r.buf off len ++ ['\x00']

/-- The reply tells the id and how long the subscription lasts from then on. -/
def Promised (s : Subscription) (r : Request) (reply : Reply) : Prop :=
  reply.status = 200 ∧ reply.sid = some s.uuid ∧
    ∃ timeout, reply.timeout = some timeout ∧ s.timeout = deadline r.admission.now timeout

structure Granted (config : SubscriptionConfig) (history : List (Op × Option Reply))
    (s : Subscription) : Prop where
  admitted : ∃ r reply, (Op.subscribe r, some reply) ∈ history ∧ Admitted config s r reply
  promised : ∃ r reply, (Op.subscribe r, some reply) ∈ history ∧ Promised s r reply

section granted
variable {config : SubscriptionConfig} {t t' : List Subscription} {s : Subscription}
  {history : List (Op × Option Reply)} {op : Op} {reply : Option Reply}

theorem granted_append (granted : Granted config history s) (more : List (Op × Option Reply)) :
    Granted config (history ++ more) s := by
  obtain ⟨⟨r, reply, inside, admitted⟩, r', reply', inside', promised⟩ := granted
  exact ⟨⟨r, reply, List.mem_append_left _ inside, admitted⟩,
    r', reply', List.mem_append_left _ inside', promised⟩

theorem subscribed_granted (r : Request) (memory : Bool)
    (all : ∀ s ∈ t, Granted config history s) :
    ∀ s ∈ (subscribed config r t memory).2,
      Granted config (history ++ [(.subscribe r, some (subscribed config r t memory).1)]) s := by
  have old : ∀ s ∈ t, ∀ more, Granted config (history ++ more) s :=
    fun s member more => granted_append (all s member) more
  unfold subscribed
  dsimp only
  split
  · exact fun s member => old s member _
  · split
    · split
      · exact fun s member => old s member _
      · split
        · exact fun s member => old s member _
        · cases url : checkCallbackURL config.enableIpv6 r.client r.buf r.headers with
          | none => exact fun s member => old s member _
          | some url_ =>
            obtain ⟨off, len⟩ := url_
            simp only [enrol]
            cases new : newSubscriber config.toEventBuild r.path (slice r.buf off len) with
            | none => exact fun s member => old s member _
            | some tmp =>
              cases memory with
              | false => exact fun s member => old s member _
              | true =>
                simp only [if_true]
                intro s member
                rcases List.mem_cons.mp member with rfl | member
                · have parts : subscriberService config.toEventBuild r.path = some tmp.service ∧
                      tmp.callback = slice r.buf off len ++ ['\x00'] := by
                    unfold newSubscriber at new
                    split at new
                    · cases new
                    · obtain ⟨service, named, rfl⟩ := Option.map_eq_some_iff.mp new
                      exact ⟨named, rfl⟩
                  constructor
                  · exact ⟨r, _, List.mem_append_right _ List.mem_cons_self, rfl, rfl, parts.1, off,
                      len, url, parts.2⟩
                  · exact ⟨r, _, List.mem_append_right _ List.mem_cons_self, rfl, rfl, _, rfl, rfl⟩
                · exact old s member _
    · split
      · exact fun s member => old s member _
      · simp only [renewed]
        split
        · exact fun s member => old s member _
        · rename_i first found
          intro s member
          dsimp only at member
          rw [updateFirst_found found rfl] at member
          rcases mem_updateFirst member with kept | ⟨_, _, _, rfl⟩
          · exact old s kept _
          · have known := all first (List.mem_of_find?_eq_some found)
            obtain ⟨r₁, reply₁, inside, status, sid, service, off, len, url, callback⟩ :=
              known.admitted
            constructor
            · exact ⟨r₁, reply₁, List.mem_append_left _ inside, status, sid, service, off, len, url,
                callback⟩
            · exact ⟨r, _, List.mem_append_right _ List.mem_cons_self, rfl, rfl, _, rfl, rfl⟩

theorem unsubscribed_granted (r : Request) (all : ∀ s ∈ t, Granted config history s) :
    ∀ s ∈ (unsubscribed config r t).2, Granted config history s := by
  unfold unsubscribed
  dsimp only
  split
  · exact all
  · split
    · exact all
    · split
      · exact fun s member => all s (List.mem_of_mem_eraseP member)
      · exact all

theorem moves_granted (moves : Moves config t op reply t')
    (all : ∀ s ∈ t, Granted config history s) :
    ∀ s ∈ t', Granted config (history ++ [(op, reply)]) s := by
  cases moves with
  | subscribe r memory => exact subscribed_granted r memory all
  | unsubscribe r => exact fun s member => granted_append (unsubscribed_granted r all s member) _
  | change => exact fun s member => granted_append (all s member) _
  | selectfds => exact fun s member => granted_append (all s member) _
  | processfds kept => exact fun s member => granted_append (all s (kept.subset member)) _

theorem explains_granted {before : List (Op × Option Reply)}
    (explains : Explains config t history t') (all : ∀ s ∈ t, Granted config before s) :
    ∀ s ∈ t', Granted config (before ++ history) s := by
  induction explains generalizing before with
  | nil t => exact fun s member => granted_append (all s member) []
  | @cons t₁ t₂ t₃ op reply history first rest ih =>
    have next := ih (moves_granted first all)
    simpa using next

end granted

end EventSubscriptions
