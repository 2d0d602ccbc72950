import MiniUPnPd.EventActions
import MiniUPnPd.Lib.Runs

/-!
The links between the two lists over whole runs. Each call is a chain of actions and uses no
memory without an object in it.
-/
namespace EventLists
open MutualLinks UpnpEvents

section operations
variable {config : EventConfig} {m : Events} {a b : Addr} {sub : ListedSubscriber} {obj : Notify}

theorem calloc_free {a : Option Addr} {b : Addr} (got : m.calloc a = some b) :
    m.subscribers b = none ∧ m.notifies b = none := by
  have both := (Option.filter_eq_some_iff.mp got).2
  simpa using both

/-- What a new notify changes, for a subscriber without one. -/
theorem createNotify_cases (config : EventConfig) (outcome : Creation)
    (here : m.subscribers a = some sub) :
    upnpEventCreateNotify config outcome a m = some m.fail ∨
      ∃ b obj, m.notifies b = none ∧ obj.sub = some a ∧ obj.state = .created ∧
        upnpEventCreateNotify config outcome a m = some (m.attach a sub b obj) := by
  rw [upnpEventCreateNotify]
  cases got : m.calloc outcome.calloc with
  | none => exact .inl rfl
  | some b =>
    simp only [here, Option.bind_eq_bind, Option.bind_some]
    split
    · exact .inl rfl
    · exact .inr ⟨b, _, (calloc_free got).2, rfl, rfl, rfl⟩

/-- The operation does some actions and leaves the list of notifies as it is. -/
def Serves (m : Events) (result : Option Events) : Prop :=
  ∃ m', result = some m' ∧ Actions m m' ∧ m'.notifylist = m.notifylist

theorem serves_none (m : Events) : Serves m (some m) := ⟨m, rfl, .refl, rfl⟩

theorem serves_one {m' : Events} (action : Action m m') (list : m'.notifylist = m.notifylist) :
    Serves m (some m') := ⟨m', rfl, .single action, list⟩

theorem notifyConnect_serves (config : EventConfig) (connects : HostAddr → UInt16 → Bool)
    (linked : Linked m)
    (listed : b ∈ m.notifylist) (here : m.notifies b = some obj) :
    Serves m (eventNotifyConnect config connects b m) := by
  obtain ⟨_, found, points⟩ := listed_notify linked listed
  rw [here] at found
  cases found
  cases owner : obj.sub with
  | none =>
    have action : Action m (m.putNotify b { obj with state := .error }) :=
      .move here rfl (by simp [owner])
    simpa [eventNotifyConnect, here, owner] using serves_one action rfl
  | some a =>
    obtain ⟨_, sub, owned, _⟩ := points a owner
    let target := upnpEventNotifyConnect config.enableIpv6 sub.callback
    cases works : connects target.addr target.port with
    | true =>
      have action : Action m (m.putNotify b
          { obj with state := .connecting, addrstr := target.addrstr, portstr := target.portstr,
                     path := target.path }) :=
        .move here rfl (fun _ _ _ _ _ => trivial)
      simpa [eventNotifyConnect, here, owner, owned, target, works] using serves_one action rfl
    | false =>
      have action : Action m (m.putNotify b
          { obj with state := .error, addrstr := target.addrstr, portstr := target.portstr,
                     path := target.path }).fail :=
        .moveFail here rfl
      simpa [eventNotifyConnect, here, owner, owned, target, works] using serves_one action rfl

theorem prepare_serves (io : NotifyIo) (linked : Linked m)
    (listed : b ∈ m.notifylist) (here : m.notifies b = some obj) :
    Serves m (upnpEventPrepare config io b m) := by
  obtain ⟨_, found, points⟩ := listed_notify linked listed
  rw [here] at found
  cases found
  cases owner : obj.sub with
  | none =>
    have action : Action m (m.putNotify b { obj with state := .error }) :=
      .move here rfl (by simp [owner])
    simpa [upnpEventPrepare, here, owner] using serves_one action rfl
  | some a =>
    obtain ⟨_, sub, owned, _⟩ := points a owner
    simp only [upnpEventPrepare, here, owner, owned, Option.bind_eq_bind, Option.bind_some]
    cases alloc : io.varsAlloc with
    | true =>
      simp only [if_true]
      split
      · exact serves_one (.moveFail here (by simp [owner])) rfl
      · split
        · refine serves_one (.move here (by simp [owner]) ?_) rfl
          intro a' sub' owner' owned' _
          rw [owner] at owner'
          cases owner'
          rw [owned] at owned'
          cases owned'
          rfl
        · exact serves_one (.moveFail here (by simp [owner])) rfl
    | false =>
      simp only [Bool.false_eq_true, if_false]
      split
      · exact serves_one (.moveFail here (by simp [owner])) rfl
      · split
        · exact serves_one (.moveFail here (by simp [owner])) rfl
        · exact serves_one (.moveFail here (by simp [owner])) rfl

theorem send_serves (io : NotifyIo) (linked : Linked m)
    (listed : b ∈ m.notifylist) (here : m.notifies b = some obj) (state : obj.state = .sending) :
    Serves m (upnpEventSend io b m) := by
  obtain ⟨_, found, points⟩ := listed_notify linked listed
  rw [here] at found
  cases found
  simp only [upnpEventSend, here, Option.bind_eq_bind, Option.bind_some]
  cases io.send.count (obj.tosend - obj.sent).toNat with
  | none => exact serves_one (.moveFail here rfl) rfl
  | some i =>
    by_cases all : ((obj.sent + i : Nat) : Int) = obj.tosend
    · simp only [all, if_true]
      cases owner : obj.sub with
      | none =>
        have action : Action m (m.putNotify b
            { obj with sent := obj.sent + i, state := .waitingForResponse }) :=
          .move here rfl (by simp [owner])
        simpa [owner] using serves_one action rfl
      | some a =>
        obtain ⟨_, sub, owned, _⟩ := points a owner
        have action : Action m ((m.putNotify b
            { obj with sent := obj.sent + i, state := .waitingForResponse }).putSubscriber a
            { sub with lastSent := obj.xml }) := by
          refine .moveBoth here rfl owner owned rfl rfl ?_
          simp [Notify.Carries, state]
        simpa [owner, owned] using serves_one action rfl
    · simp only [all, if_false]
      exact serves_one (.move here rfl (fun _ _ _ _ carried => carried)) rfl

theorem recv_serves (io : NotifyIo) (linked : Linked m) (listed : b ∈ m.notifylist)
    (here : m.notifies b = some obj) (state : obj.state = .waitingForResponse) :
    Serves m (upnpEventRecv io b m) := by
  obtain ⟨_, found, points⟩ := listed_notify linked listed
  rw [here] at found
  cases found
  cases result : io.recv with
  | failed =>
    have action : Action m (m.putNotify b { obj with state := .error }).fail := .moveFail here rfl
    simpa [upnpEventRecv, here, result] using serves_one action rfl
  | again => simpa [upnpEventRecv, here, result] using serves_none m
  | bytes n =>
    cases owner : obj.sub with
    | none =>
      have action : Action m (m.putNotify b { obj with state := .finished }) :=
        .move here rfl (by simp [owner])
      simpa [upnpEventRecv, here, result, owner] using serves_one action rfl
    | some a =>
      obtain ⟨_, sub, owned, _⟩ := points a owner
      have action : Action m ((m.putNotify b { obj with state := .finished }).putSubscriber a
          { sub with seq := sub.seq + 1 }) := by
        refine .moveBoth here rfl owner owned rfl rfl ?_
        simp [Notify.Carries, state]
      simpa [upnpEventRecv, here, result, owner, owned] using serves_one action rfl

theorem serves_bind {result : Option Events} {next : Events → Option Events} (linked : Linked m)
    (first : Serves m result)
    (then' : ∀ m', Linked m' → m'.notifylist = m.notifylist → Serves m' (next m')) :
    Serves m (result.bind next) := by
  obtain ⟨m₁, rfl, actions, list⟩ := first
  obtain ⟨m₂, done, more, same⟩ := then' m₁ (actions_linked linked actions) list
  exact ⟨m₂, done, actions.trans more, same.trans list⟩

theorem processNotify_serves (io : NotifyIo) (linked : Linked m) (listed : b ∈ m.notifylist) :
    Serves m (upnpEventProcessNotify config io b m) := by
  obtain ⟨obj, here, _⟩ := listed_notify linked listed
  simp only [upnpEventProcessNotify, here, Option.bind_eq_bind, Option.bind_some]
  cases state : obj.state with
  | connecting =>
    by_cases connected : io.soError = some 0
    · simp only [connected, ne_eq, not_true_eq_false, if_false]
      refine serves_bind linked (prepare_serves io linked listed here) ?_
      intro m₁ linked₁ list
      have listed₁ : b ∈ m₁.notifylist := list ▸ listed
      obtain ⟨obj₁, here₁, _⟩ := listed_notify linked₁ listed₁
      simp only [here₁, Option.bind_some]
      by_cases ready : obj₁.state = .sending
      · simp only [ready, if_true]
        exact send_serves io linked₁ listed₁ here₁ ready
      · simp only [ready, if_false]
        exact serves_none m₁
    · simp only [connected, ne_eq, not_false_eq_true, if_true]
      exact serves_one (.moveFail here rfl) rfl
  | sending => exact send_serves io linked listed here state
  | waitingForResponse => exact recv_serves io linked listed here state
  | finished =>
    refine serves_one (.move here rfl ?_) rfl
    simp [Notify.Carries, state]
  | created => exact serves_none m
  | error => exact serves_none m

end operations

section loops
variable {config : EventConfig} {m : Events}

/-- A loop over one of the lists, whose rounds take no other object from it. -/
theorem foldlM_actions {State : Type} (view : State → Events) (list : Events → List Addr)
    {each : State → Addr → Option State} (nodup : ∀ m, Linked m → (list m).Nodup)
    (round : ∀ s a, Linked (view s) → a ∈ list (view s) → ∃ t, each s a = some t ∧
      Actions (view s) (view t) ∧ ∀ a' ∈ list (view s), a' ≠ a → a' ∈ list (view t))
    {s : State} (linked : Linked (view s)) :
    ∃ t, (list (view s)).foldlM each s = some t ∧ Actions (view s) (view t) := by
  let rest (t : State) (items : List Addr) : Prop :=
    Actions (view s) (view t) ∧ items.Nodup ∧ ∀ a ∈ items, a ∈ list (view t)
  have start : rest s (list (view s)) := ⟨.refl, nodup _ linked, fun _ listed => listed⟩
  have kept : ∀ t a items, rest t (a :: items) → ∃ u, each t a = some u ∧ rest u items := by
    intro t a items left
    obtain ⟨actions, distinct, inside⟩ := left
    obtain ⟨other, distinct⟩ := List.nodup_cons.mp distinct
    obtain ⟨u, done, more, others⟩ :=
      round t a (actions_linked linked actions) (inside a List.mem_cons_self)
    refine ⟨u, done, actions.trans more, distinct, ?_⟩
    intro a' listed
    apply others a' (inside a' (List.mem_cons_of_mem a listed))
    intro same
    exact other (same ▸ listed)
  obtain ⟨t, done, left⟩ := Runs.foldlM_rest kept start
  exact ⟨t, done, left.1⟩

theorem foldlM_events (list : Events → List Addr) {each : Events → Addr → Option Events}
    (nodup : ∀ m, Linked m → (list m).Nodup)
    (round : ∀ m a, Linked m → a ∈ list m → ∃ m', each m a = some m' ∧ Actions m m' ∧
      ∀ a' ∈ list m, a' ≠ a → a' ∈ list m')
    (linked : Linked m) : ∃ m', (list m).foldlM each m = some m' ∧ Actions m m' :=
  foldlM_actions id list nodup round linked

theorem change_actions (creation : Addr → Creation) (service : SubscriberService)
    (linked : Linked m) :
    ∃ m', upnpEventVarChangeNotify config creation service m = some m' ∧ Actions m m' := by
  refine foldlM_events Events.subscriberlist (fun _ linked => linked.leftsNodup) ?_ linked
  intro m a linked listed
  obtain ⟨sub, here, _⟩ := listed_subscriber linked listed
  simp only [changeOne, here, Option.bind_eq_bind, Option.bind_some]
  split
  · rename_i idle
    rcases createNotify_cases config (creation a) here with failed | ⟨b, obj, free, back, new, done⟩
    · exact ⟨_, failed, .single .fail, fun _ listed _ => listed⟩
    · exact ⟨_, done, .single (.attach listed here idle.2 free back new), fun _ listed _ => listed⟩
  · exact ⟨m, rfl, .refl, fun _ listed _ => listed⟩

theorem selectfds_actions (config : EventConfig) (connects : Addr → HostAddr → UInt16 → Bool)
    (sets : FdSets)
    (linked : Linked m) :
    ∃ t, upnpeventsSelectfds config connects m sets = some t ∧ Actions m t.1 := by
  refine foldlM_actions Prod.fst Events.notifylist (s := (m, sets))
    (fun _ linked => linked.rightsNodup) ?_ linked
  intro s b linked listed
  obtain ⟨obj, here, _⟩ := listed_notify linked listed
  simp only [selectOne, here, Option.bind_eq_bind, Option.bind_some]
  have unchanged : ∀ sets : FdSets, ∃ t, some (s.1, sets) = some t ∧ Actions s.1 t.1 ∧
      ∀ b' ∈ s.1.notifylist, b' ≠ b → b' ∈ t.1.notifylist :=
    fun sets => ⟨_, rfl, .refl, fun _ listed _ => listed⟩
  split
  · exact unchanged _
  · cases state : obj.state with
    | created =>
      obtain ⟨m₁, done, actions, list⟩ :=
        notifyConnect_serves config (connects b) linked listed here
      obtain ⟨obj₁, here₁, _⟩ := listed_notify (actions_linked linked actions) (list ▸ listed)
      simp only [done, here₁, Option.bind_some]
      exact ⟨_, rfl, actions, fun _ listed _ => list ▸ listed⟩
    | connecting => exact unchanged _
    | sending => exact unchanged _
    | waitingForResponse => exact unchanged _
    | finished => exact unchanged _
    | error => exact unchanged _

theorem process_actions (config : EventConfig) (isset : Int → Bool) (io : Addr → NotifyIo)
    (linked : Linked m) :
    ∃ m', m.notifylist.foldlM (processOne config isset io) m = some m' ∧ Actions m m' := by
  refine foldlM_events Events.notifylist (fun _ linked => linked.rightsNodup) ?_ linked
  intro m b linked listed
  obtain ⟨obj, here, _⟩ := listed_notify linked listed
  simp only [processOne, here, Option.bind_eq_bind, Option.bind_some]
  split
  · obtain ⟨m', done, actions, list⟩ := processNotify_serves (io b) linked listed
    exact ⟨m', done, actions, fun _ listed _ => list ▸ listed⟩
  · exact ⟨m, rfl, .refl, fun _ listed _ => listed⟩

theorem clean_actions (linked : Linked m) :
    ∃ m', m.notifylist.foldlM cleanOne m = some m' ∧ Actions m m' := by
  refine foldlM_events Events.notifylist (fun _ linked => linked.rightsNodup) ?_ linked
  intro m b linked listed
  obtain ⟨obj, here, points⟩ := listed_notify linked listed
  have others : ∀ b' ∈ m.notifylist, b' ≠ b → b' ∈ m.notifylist.erase b :=
    fun _ listed other => (List.mem_erase_of_ne other).mpr listed
  simp only [cleanOne, here, Option.bind_eq_bind, Option.bind_some]
  by_cases over' : obj.state = .error ∨ obj.state = .finished
  · simp only [over', if_true]
    cases owner : obj.sub with
    | none => exact ⟨_, rfl, .single (.clean listed here owner), others⟩
    | some a =>
      obtain ⟨_, sub, owned, _⟩ := points a owner
      simp only [owned, Option.bind_some]
      by_cases error : obj.state = .error
      · simp only [error, if_true]
        exact ⟨_, rfl, .single (.cleanError listed here owner owned), others⟩
      · simp only [error, if_false]
        have finished := over'.resolve_left error
        exact ⟨_, rfl, .single (.cleanFinished listed here owner owned finished), others⟩
  · simp only [over', if_false]
    exact ⟨m, rfl, .refl, fun _ listed _ => listed⟩

theorem timeout_actions (curtime : Int) (linked : Linked m) :
    ∃ m', m.subscriberlist.foldlM (timeoutOne curtime) m = some m' ∧ Actions m m' := by
  refine foldlM_events Events.subscriberlist (fun _ linked => linked.leftsNodup) ?_ linked
  intro m a linked listed
  obtain ⟨sub, here, _⟩ := listed_subscriber linked listed
  simp only [timeoutOne, here, Option.bind_eq_bind, Option.bind_some]
  split
  · rename_i idle
    exact ⟨_, rfl, .single (.remove listed here idle.2.2),
      fun _ listed other => (List.mem_erase_of_ne other).mpr listed⟩
  · exact ⟨m, rfl, .refl, fun _ listed _ => listed⟩

theorem processfds_actions (isset : Int → Bool) (io : Addr → NotifyIo) (curtime : Int)
    (linked : Linked m) :
    ∃ m', upnpeventsProcessfds config isset io curtime m = some m' ∧ Actions m m' := by
  obtain ⟨m₁, done₁, actions₁⟩ := process_actions config isset io linked
  have linked₁ := actions_linked linked actions₁
  obtain ⟨m₂, done₂, actions₂⟩ := clean_actions linked₁
  obtain ⟨m₃, done₃, actions₃⟩ := timeout_actions curtime (actions_linked linked₁ actions₂)
  refine ⟨m₃, ?_, (actions₁.trans actions₂).trans actions₃⟩
  simp [upnpeventsProcessfds, done₁, done₂, done₃]

end loops

section calls
variable {config : EventConfig} {m : Events}

theorem findSubscriber_listed (p : ListedSubscriber → Bool) {list : List Addr} (linked : Linked m)
    (inside : ∀ a ∈ list, a ∈ m.subscriberlist) :
    ∃ found, findSubscriber p m list = some found ∧ ∀ a sub, found = some (a, sub) →
      a ∈ m.subscriberlist ∧ m.subscribers a = some sub := by
  induction list with
  | nil => exact ⟨none, rfl, by simp⟩
  | cons a rest ih =>
    have listed := inside a List.mem_cons_self
    obtain ⟨sub, here, _⟩ := listed_subscriber linked listed
    simp only [findSubscriber, here, Option.bind_eq_bind, Option.bind_some]
    by_cases passes : p sub
    · simp only [passes, if_true]
      refine ⟨_, rfl, ?_⟩
      intro a' sub' same
      cases same
      exact ⟨listed, here⟩
    · simp only [passes, Bool.false_eq_true, if_false]
      exact ih fun a' later => inside a' (List.mem_cons_of_mem a later)

/-- A subscriber is added with a first notify, if there is memory and a socket for it. -/
theorem addSubscriber_actions (config : EventConfig) (outcome : Admission) (eventurl : CString)
    (callback : List Char)
    (timeout : Int) (m : Events) :
    ∃ t, upnpeventsAddSubscriber config outcome eventurl callback timeout m = some t ∧
      Actions m t.1 := by
  rw [upnpeventsAddSubscriber]
  cases newSubscriber config.toEventBuild eventurl callback with
  | none => exact ⟨_, rfl, .refl⟩
  | some tmp =>
    cases got : m.calloc outcome.calloc with
    | none => exact ⟨_, rfl, .single .fail⟩
    | some a =>
      have freeSub := (calloc_free got).1
      let sub : ListedSubscriber :=
        { tmp with
          notify := none, seq := 0, uuid := outcome.uuid, lastSent := none
          timeout := if timeout = 0 then 0 else outcome.now + timeout }
      have here : (m.insertSubscriber a sub).subscribers a = some sub := Function.update_self ..
      let answer (result : Option Events) : Option (Events × Option (List Char)) :=
        result.bind fun m => some (m, some outcome.uuid)
      rcases createNotify_cases config outcome.creation here with
        failed | ⟨b, obj, free, back, new, done⟩
      · refine ⟨((m.insertSubscriber a sub).fail, some outcome.uuid), ?_, ?_⟩
        · exact congrArg answer failed
        · exact .single (.subscribeFail rfl freeSub)
      · refine ⟨((m.insertSubscriber a sub).attach a sub b obj, some outcome.uuid), ?_, ?_⟩
        · exact congrArg answer done
        · exact .single (.subscribe rfl freeSub free back new)

theorem renewSubscription_actions (config : EventConfig) (now : Int) (sid : List Char)
    (timeout : Int)
    (linked : Linked m) :
    ∃ t, upnpeventsRenewSubscription config now sid timeout m = some t ∧ Actions m t.1 := by
  obtain ⟨found, searched, listed⟩ := findSubscriber_listed
    (fun sub => hasSid sid sub &&
      decide ¬ (config.upnpStrict ∧ sub.timeout ≠ 0 ∧ sub.timeout < now))
    linked (fun _ inside => inside)
  simp only [upnpeventsRenewSubscription, searched, Option.bind_eq_bind, Option.bind_some]
  cases found with
  | none => exact ⟨_, rfl, .refl⟩
  | some pair => exact ⟨_, rfl, .single (.renew (listed _ _ rfl).2 rfl rfl rfl)⟩

theorem removeSubscriber_actions (sid : Option (List Char)) (linked : Linked m) :
    ∃ t, upnpeventsRemoveSubscriber sid m = some t ∧ Actions m t.1 := by
  cases sid with
  | none => exact ⟨_, rfl, .refl⟩
  | some sid =>
    obtain ⟨found, searched, listed⟩ :=
      findSubscriber_listed (hasSid sid) linked (fun _ inside => inside)
    simp only [upnpeventsRemoveSubscriber, searched, Option.bind_eq_bind, Option.bind_some]
    cases found with
    | none => exact ⟨_, rfl, .refl⟩
    | some pair =>
      obtain ⟨a, sub⟩ := pair
      obtain ⟨inside, here⟩ := listed a sub rfl
      cases notify : sub.notify with
      | none =>
        simp only [notify]
        exact ⟨_, rfl, .single (.remove inside here notify)⟩
      | some b =>
        obtain ⟨_, found, points⟩ := listed_subscriber linked inside
        rw [here] at found
        cases found
        obtain ⟨_, obj, busy, _⟩ := points b notify
        simp only [notify, busy, Option.bind_some]
        exact ⟨_, rfl, .single (.removeBusy inside here notify busy)⟩

/-- The property sets at the moment a call does its first action. -/
def Events.changed (m : Events) : Call → Events
  | .change service xml _ => { m with vars := Function.update m.vars service xml }
  | _ => m

theorem changed_linked (linked : Linked m) (c : Call) : Linked (m.changed c) := by
  cases c with
  | change service xml creation => exact linked
  | _ => exact linked

theorem call_actions (config : EventConfig) (c : Call) (linked : Linked m) :
    ∃ m', call config m c = some m' ∧ Actions (m.changed c) m' := by
  cases c with
  | addSubscriber outcome eventurl callback timeout =>
    obtain ⟨t, done, actions⟩ :=
      addSubscriber_actions config outcome eventurl callback timeout m
    exact ⟨t.1, by simp [call, done], actions⟩
  | renewSubscription now sid timeout =>
    obtain ⟨t, done, actions⟩ :=
      renewSubscription_actions config now sid timeout linked
    exact ⟨t.1, by simp [call, done], actions⟩
  | removeSubscriber sid =>
    obtain ⟨t, done, actions⟩ := removeSubscriber_actions sid linked
    exact ⟨t.1, by simp [call, done], actions⟩
  | change service xml creation =>
    exact change_actions creation service (changed_linked linked (.change service xml creation))
  | selectfds connects sets =>
    obtain ⟨t, done, actions⟩ := selectfds_actions config connects sets linked
    exact ⟨t.1, by simp [call, done], actions⟩
  | processfds isset io curtime => exact processfds_actions isset io curtime linked

/-- In every state of every run, no memory without an object has been used, and the objects of the
    lists are live and point at each other. -/
theorem lists_linked (config : EventConfig) (vars : SubscriberService → CString)
    (calls : List Call) :
    Runs.Always (step config) (fun s => ∃ m, s = some m ∧ Linked m)
      (some (Events.start vars)) calls := by
  refine Runs.always_of_step ?_ ⟨_, rfl, start_linked vars⟩ calls
  intro s c holds
  obtain ⟨m, rfl, linked⟩ := holds
  obtain ⟨m', done, actions⟩ := call_actions config c linked
  exact ⟨m', done, actions_linked (changed_linked linked c) actions⟩

end calls

end EventLists
