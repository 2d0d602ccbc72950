import MiniUPnPd.EventLinks

/-!
What the subscribers have been told. A subscriber without a notify was sent the property set of its
service, as long as no set changes while a message with another one is on its way.
-/
namespace EventLists
open UpnpEvents

/-- Without a failure, a subscriber that has no notify was sent the property set of its service. -/
def Informed (m : Events) : Prop :=
  m.failed = false → ∀ a ∈ m.subscriberlist, ∀ sub ∈ m.subscribers a,
    sub.notify = none → sub.lastSent = some (m.vars sub.service)

instance (m : Events) : Decidable (Informed m) :=
  inferInstanceAs (Decidable (m.failed = false → ∀ a ∈ m.subscriberlist,
    ∀ sub ∈ m.subscribers a, sub.notify = none → sub.lastSent = some (m.vars sub.service)))

/-- No subscriber of the service has a notify whose property set is settled already, unless it is
    the given one. -/
def Timely (m : Events) (service : SubscriberService) (xml : CString) : Prop :=
  ∀ a ∈ m.subscriberlist, ∀ sub ∈ m.subscribers a, sub.service = service →
    ∀ b ∈ sub.notify, ∀ obj ∈ m.notifies b, obj.Carries sub.lastSent xml

instance (obj : Notify) (lastSent : Option CString) (xml : CString) :
    Decidable (obj.Carries lastSent xml) :=
  match obj with
  | { state := .created, .. } | { state := .connecting, .. } => isTrue trivial
  | { state := .sending, xml := own, .. } => inferInstanceAs (Decidable (own = some xml))
  | { state := .waitingForResponse, .. } | { state := .finished, .. } =>
      inferInstanceAs (Decidable (lastSent = some xml))
  | { state := .error, .. } => isFalse id

instance (m : Events) (service : SubscriberService) (xml : CString) :
    Decidable (Timely m service xml) :=
  inferInstanceAs (Decidable (∀ a ∈ m.subscriberlist, ∀ sub ∈ m.subscribers a,
    sub.service = service → ∀ b ∈ sub.notify, ∀ obj ∈ m.notifies b, obj.Carries sub.lastSent xml))

/-- A change comes when no message with another property set is on its way. -/
def admits (s : Option Events) : Call → Prop
  | .change service xml _ => ∀ m ∈ s, Timely m service xml
  | _ => True

instance (s : Option Events) (c : Call) : Decidable (admits s c) :=
  match c with
  | .change service xml _ => inferInstanceAs (Decidable (∀ m ∈ s, Timely m service xml))
  | .addSubscriber .. | .renewSubscription .. | .removeSubscriber .. | .selectfds ..
  | .processfds .. => isTrue trivial

/-- The subscriber was sent the property set of its service, or its notify carries it. -/
def Told (m : Events) (sub : ListedSubscriber) : Prop :=
  match sub.notify with
  | none => sub.lastSent = some (m.vars sub.service)
  | some b => ∀ obj ∈ m.notifies b, obj.Carries sub.lastSent (m.vars sub.service)

def AllTold (m : Events) : Prop :=
  m.failed = false → ∀ a ∈ m.subscriberlist, ∀ sub ∈ m.subscribers a, Told m sub

/-- Every notify in memory is in the list. -/
def Listed (m : Events) : Prop := ∀ b obj, m.notifies b = some obj → b ∈ m.notifylist

section actions
variable {m m' : Events} {a a' b : Addr} {sub sub' : ListedSubscriber} {obj obj' : Notify}

theorem update_some {α : Type} {f : Addr → Option α} {x x' : α}
    (found : Function.update f a (some x) b = some x') : b = a ∧ x' = x ∨ b ≠ a ∧ f b = some x' := by
  by_cases same : b = a
  · subst same
    rw [Function.update_self] at found
    cases found
    exact .inl ⟨rfl, rfl⟩
  · rw [Function.update_of_ne same] at found
    exact .inr ⟨same, found⟩

theorem update_none {α : Type} {f : Addr → Option α} {x' : α}
    (found : Function.update f a none b = some x') : b ≠ a ∧ f b = some x' := by
  by_cases same : b = a
  · subst same
    rw [Function.update_self] at found
    cases found
  · rw [Function.update_of_ne same] at found
    exact ⟨same, found⟩

theorem created_carries (new : obj.state = .created) (lastSent : Option CString) (xml : CString) :
    obj.Carries lastSent xml := by
  simp [Notify.Carries, new]

theorem told_carries (told : Told m sub) (notify : sub.notify = some b)
    (here : m.notifies b = some obj) : obj.Carries sub.lastSent (m.vars sub.service) := by
  rw [Told, notify] at told
  exact told obj here

theorem told_none (told : Told m sub) (null : sub.notify = none) :
    sub.lastSent = some (m.vars sub.service) := by
  rw [Told, null] at told
  exact told

theorem told_of_carries (notify : sub.notify = some b)
    (carries : ∀ obj, m.notifies b = some obj → obj.Carries sub.lastSent (m.vars sub.service)) :
    Told m sub := by
  rw [Told, notify]
  exact carries

/-- What happens to the notifies of others does not matter to a subscriber. -/
theorem told_putNotify (told : Told m sub)
    (carries : sub.notify = some b → obj'.Carries sub.lastSent (m.vars sub.service)) :
    Told (m.putNotify b obj') sub := by
  cases notify : sub.notify with
  | none =>
    have sent := told_none told notify
    rw [Told, notify]
    exact sent
  | some b' =>
    apply told_of_carries notify
    intro obj found
    rcases update_some found with ⟨rfl, rfl⟩ | ⟨_, old⟩
    · exact carries notify
    · have carried := told_carries told notify old
      exact carried

theorem told_freeNotify (told : Told m sub) : Told (m.freeNotify b) sub := by
  cases notify : sub.notify with
  | none =>
    have sent := told_none told notify
    rw [Told, notify]
    exact sent
  | some b' =>
    apply told_of_carries notify
    intro obj found
    have carried := told_carries told notify (update_none found).2
    exact carried

/-- A new notify is to carry whatever set its subscriber has when it is prepared. -/
theorem told_attach (new : obj.state = .created)
    (found : (m.attach a sub b obj).subscribers a' = some sub') :
    a' = a ∧ Told (m.attach a sub b obj) sub' ∨
      a' ≠ a ∧ m.subscribers a' = some sub' ∧
        (Told m sub' → Told (m.attach a sub b obj) sub') := by
  rcases update_some found with ⟨same, rfl⟩ | ⟨other, old⟩
  · refine .inl ⟨same, told_of_carries rfl ?_⟩
    intro obj' made
    rcases update_some made with ⟨_, rfl⟩ | ⟨other, _⟩
    · exact created_carries new _ _
    · exact absurd rfl other
  · exact .inr ⟨other, old, fun told => told_putNotify told fun _ => created_carries new _ _⟩

theorem action_listed (listed : Listed m) (action : Action m m') : Listed m' := by
  intro b' obj' found
  cases action with
  | attach _ _ _ _ _ _ | subscribe _ _ _ _ _ =>
    rcases update_some found with ⟨rfl, _⟩ | ⟨_, old⟩
    · exact List.mem_cons_self
    · exact List.mem_cons_of_mem _ (listed b' obj' old)
  | move here _ _ | moveFail here _ | moveBoth here _ _ _ _ _ _ | removeBusy _ _ _ here =>
    rcases update_some found with ⟨rfl, _⟩ | ⟨_, old⟩
    · exact listed b' _ here
    · exact listed b' obj' old
  | clean _ _ _ | cleanFinished _ _ _ _ _ | cleanError _ _ _ _ =>
    obtain ⟨other, old⟩ := update_none found
    exact (List.mem_erase_of_ne other).mpr (listed b' obj' old)
  | fail | subscribeFail _ _ | renew _ _ _ _ | remove _ _ _ => exact listed b' obj' found

theorem points_back (linked : Linked m) (inside : a ∈ m.subscriberlist)
    (here : m.subscribers a = some sub) (notify : sub.notify = some b)
    (there : m.notifies b = some obj) : obj.sub = some a := by
  obtain ⟨_, found, points⟩ := listed_subscriber linked inside
  rw [here] at found
  cases found
  obtain ⟨_, _, same, owner⟩ := points b notify
  rw [there] at same
  cases same
  exact owner

theorem owner_points (linked : Linked m) (listed : Listed m) (here : m.notifies b = some obj)
    (owner : obj.sub = some a) (owned : m.subscribers a = some sub) :
    a ∈ m.subscriberlist ∧ sub.notify = some b := by
  obtain ⟨_, found, points⟩ := listed_notify linked (listed b obj here)
  rw [here] at found
  cases found
  obtain ⟨inside, _, same, notify⟩ := points a owner
  rw [owned] at same
  cases same
  exact ⟨inside, notify⟩

theorem action_told (linked : Linked m) (listed : Listed m) (told : AllTold m)
    (action : Action m m') : AllTold m' := by
  intro works a' inside sub' found
  cases action with
  | fail | subscribeFail _ _ | moveFail _ _ => cases works
  | attach _ here null free back new =>
    rcases told_attach new found with ⟨_, now⟩ | ⟨_, old, still⟩
    · exact now
    · exact still (told works a' inside sub' old)
  | subscribe null freeSub free back new =>
    rcases told_attach new found with ⟨_, now⟩ | ⟨other, old, still⟩
    · exact now
    · have before := (List.mem_cons.mp inside).resolve_left other
      have kept := (update_some old).resolve_left (fun same => other same.1)
      have was := told works a' before sub' kept.2
      exact still was
  | move here back carries =>
    have was := told works a' inside sub' found
    apply told_putNotify was
    intro notify
    have owner := points_back linked inside found notify here
    exact carries a' sub' owner found (told_carries was notify here)
  | moveBoth here back owner owned notify service carries =>
    obtain ⟨there, pointed⟩ := owner_points linked listed here owner owned
    rcases update_some found with ⟨_, rfl⟩ | ⟨other, old⟩
    · apply told_of_carries (notify.trans pointed)
      intro obj made
      rcases update_some made with ⟨_, rfl⟩ | ⟨away, _⟩
      · have carried := told_carries (told works _ there _ owned) pointed here
        rw [service]
        exact carries carried
      · exact absurd rfl away
    · have was := told works a' inside sub' old
      refine told_putNotify was ?_
      intro shared
      have owner' := points_back linked inside old shared here
      rw [owner] at owner'
      cases owner'
      exact absurd rfl other
  | renew here notify service lastSent =>
    rcases update_some found with ⟨rfl, rfl⟩ | ⟨_, old⟩
    · have was := told works a' inside _ here
      rw [Told, ← notify, ← service, ← lastSent] at was
      exact was
    · exact told works a' inside sub' old
  | remove _ _ _ =>
    exact told works a' (List.mem_of_mem_erase inside) sub' (update_none found).2
  | removeBusy _ here notify busy =>
    have was := told works a' (List.mem_of_mem_erase inside) sub' (update_none found).2
    refine told_putNotify was ?_
    intro shared
    have carried := told_carries was shared busy
    exact carried
  | clean _ _ _ => exact told_freeNotify (told works a' inside sub' found)
  | cleanFinished _ here owner owned state =>
    rcases update_some found with ⟨_, rfl⟩ | ⟨_, old⟩
    · obtain ⟨there, pointed⟩ := owner_points linked listed here owner owned
      have carried := told_carries (told works _ there _ owned) pointed here
      simp only [Notify.Carries, state] at carried
      exact carried
    · exact told_freeNotify (told works a' inside sub' old)
  | cleanError there here owner owned =>
    obtain ⟨other, old⟩ := update_none found
    have kept := (update_some old).resolve_left (fun same => other same.1)
    exact told_freeNotify (told works a' (List.mem_of_mem_erase inside) sub' kept.2)

end actions

structure Delivered (m : Events) : Prop where
  linked : Linked m
  listed : Listed m
  told : AllTold m

/-- A change that has yet to reach some of the subscribers. -/
structure Reaching (service : SubscriberService) (m : Events) (items : List Addr) : Prop where
  linked : Linked m
  listed : Listed m
  inside : ∀ a ∈ items, a ∈ m.subscriberlist
  told : m.failed = false → ∀ a ∈ m.subscriberlist, ∀ sub ∈ m.subscribers a,
    Told m sub ∨ sub.notify = none ∧ sub.service = service ∧ a ∈ items

section delivered
variable {config : EventConfig} {m m' : Events} {service : SubscriberService} {xml : CString}

theorem start_delivered (vars : SubscriberService → CString) : Delivered (Events.start vars) where
  linked := start_linked vars
  listed b obj found := by cases found
  told _ a inside := absurd inside List.not_mem_nil

theorem actions_delivered (delivered : Delivered m) (actions : Actions m m') : Delivered m' := by
  induction actions with
  | refl => exact delivered
  | tail _ action ih =>
    exact ⟨action_linked ih.linked action, action_listed ih.listed action,
      action_told ih.linked ih.listed ih.told action⟩

theorem informed_of_told (told : AllTold m) : Informed m := by
  intro works a inside sub found null
  exact told_none (told works a inside sub found) null

/-- A timely change leaves only the subscribers without a notify to be reached. -/
theorem changed_reaching (delivered : Delivered m) (timely : Timely m service xml) :
    Reaching service { m with vars := Function.update m.vars service xml } m.subscriberlist where
  linked := delivered.linked
  listed := delivered.listed
  inside _ inside := inside
  told := by
    intro works a inside sub found
    have was := delivered.told works a inside sub found
    by_cases same : sub.service = service
    · cases notify : sub.notify with
      | none => exact .inr ⟨rfl, same, inside⟩
      | some b =>
        refine .inl (told_of_carries notify ?_)
        intro obj here
        have carried := timely a inside sub found same b notify obj here
        subst same
        simpa using carried
    · left
      simp only [Told, Function.update_of_ne same]
      exact was

theorem changeOne_reaching (config : EventConfig) (creation : Addr → Creation) {a : Addr}
    {items : List Addr} (reaching : Reaching service m (a :: items)) :
    ∃ m', changeOne config creation service m a = some m' ∧ Reaching service m' items := by
  have first := reaching.inside a List.mem_cons_self
  have later := fun a' member => reaching.inside a' (List.mem_cons_of_mem a member)
  obtain ⟨sub, here, _⟩ := listed_subscriber reaching.linked first
  simp only [changeOne, here, Option.bind_eq_bind, Option.bind_some]
  split
  · rename_i idle
    rcases createNotify_cases config (creation a) here with failed | ⟨b, obj, free, back, new, done⟩
    · refine ⟨m.fail, failed, reaching.linked, reaching.listed, later, ?_⟩
      intro works
      cases works
    · have action : Action m (m.attach a sub b obj) := .attach first here idle.2 free back new
      refine ⟨_, done, action_linked reaching.linked action, action_listed reaching.listed action,
        later, ?_⟩
      intro works a' inside sub' found
      rcases told_attach new found with ⟨_, now⟩ | ⟨other, old, still⟩
      · exact .inl now
      · rcases reaching.told works a' inside sub' old with told | ⟨null, same, waits⟩
        · exact .inl (still told)
        · exact .inr ⟨null, same, (List.mem_cons.mp waits).resolve_left other⟩
  · rename_i busy
    refine ⟨m, rfl, reaching.linked, reaching.listed, later, ?_⟩
    intro works a' inside sub' found
    rcases reaching.told works a' inside sub' found with told | ⟨null, same, waits⟩
    · exact .inl told
    · rcases List.mem_cons.mp waits with rfl | waits
      · rw [Option.mem_def, here] at found
        cases found
        exact absurd ⟨same, null⟩ busy
      · exact .inr ⟨null, same, waits⟩

theorem change_delivered (config : EventConfig) (creation : Addr → Creation)
    (delivered : Delivered m) (timely : Timely m service xml) :
    ∃ m', call config m (.change service xml creation) = some m' ∧ Delivered m' := by
  have kept : ∀ m a items, Reaching service m (a :: items) →
      ∃ m', changeOne config creation service m a = some m' ∧ Reaching service m' items :=
    fun _ _ _ reaching => changeOne_reaching config creation reaching
  obtain ⟨m', done, reached⟩ := Runs.foldlM_rest kept (changed_reaching delivered timely)
  refine ⟨m', done, reached.linked, reached.listed, ?_⟩
  intro works a inside sub found
  rcases reached.told works a inside sub found with told | ⟨_, _, none⟩
  · exact told
  · exact absurd none List.not_mem_nil

theorem call_delivered (config : EventConfig) (c : Call) (delivered : Delivered m)
    (admitted : admits (some m) c) : ∃ m', call config m c = some m' ∧ Delivered m' := by
  cases c with
  | change service xml creation =>
    exact change_delivered config creation delivered (admitted m rfl)
  | _ =>
    obtain ⟨m', done, actions⟩ := call_actions config _ delivered.linked
    exact ⟨m', done, actions_delivered delivered actions⟩

end delivered

/-- As long as no set changes while a message with another one is on its way, a subscriber without
    a notify was sent the property set of its service, in every state of every run. -/
theorem subscribers_informed (config : EventConfig) (vars : SubscriberService → CString)
    (calls : List Call)
    (admitted : Runs.Admitted (step config) admits (some (Events.start vars)) calls) :
    Runs.Always (step config) (fun s => ∃ m, s = some m ∧ Informed m) (some (Events.start vars))
      calls := by
  let holds (s : Option Events) : Prop := ∃ m, s = some m ∧ Delivered m
  have kept : ∀ s c, holds s → admits s c → holds (step config s c) := by
    intro s c now timely
    obtain ⟨m, rfl, delivered⟩ := now
    exact call_delivered config c delivered timely
  refine Runs.always_imp ?_
    (Runs.always_of_admitted kept ⟨_, rfl, start_delivered vars⟩ admitted)
  intro s now
  obtain ⟨m, rfl, delivered⟩ := now
  exact ⟨m, rfl, informed_of_told delivered.told⟩

def plainConfig : EventConfig :=
  { enableIpv6 := false, enableL3fService := false, enable6fcService := false
    enableDpService := false, upnpStrict := false, upnpVersion10 := true }

def someSubscription : Call :=
  .addSubscriber
    { now := 0, calloc := some 1, uuid := "uuid:".toList
      creation := { calloc := some 2, socket := fun _ => 3, setNonBlocking := true } }
    "/evt/IPConn".toList "http://1.2.3.4/".toList 0

def allConnect : Call :=
  .selectfds (fun _ _ _ => true) { readset := [], writeset := [], maxFd := 0 }

def allProgress : Call :=
  .processfds (fun _ => true)
    (fun _ =>
      { soError := some 0, varsAlloc := true, unsetLength := 0, malloc := fun _ => true
        snprintf := true, send := .bytes 4096, recv := .bytes 1 }) 0

def nextChange : Call :=
  .change .wanIpc "new".toList
    fun _ => { calloc := some 2, socket := fun _ => 3, setNonBlocking := true }

theorem subscribers_informed_change :
    Runs.Always (step plainConfig) (fun s => ∃ m, s = some m ∧ Informed m)
      (some (Events.start fun _ => "old".toList))
      [someSubscription, allConnect, nextChange, allProgress, allProgress] :=
  subscribers_informed plainConfig (fun _ => "old".toList) _ (by decide)

/-- The change comes after the message is sent, and before the response to it. -/
theorem change_after_send_lost :
    ¬ Runs.Always (step plainConfig) (fun s => ∃ m, s = some m ∧ Informed m)
      (some (Events.start fun _ => "old".toList))
      [someSubscription, allConnect, allProgress, nextChange, allProgress] := by
  intro run
  obtain ⟨m, last, informed⟩ := Runs.always_last run
  have lost : ([someSubscription, allConnect, allProgress, nextChange, allProgress].foldl
      (step plainConfig) (some (Events.start fun _ => "old".toList))).all
      (fun m => decide (Informed m)) = false := by decide +kernel
  rw [last] at lost
  exact of_decide_eq_false lost informed

end EventLists
