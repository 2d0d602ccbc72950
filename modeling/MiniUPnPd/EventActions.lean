import Mathlib.Logic.Relation
import MiniUPnPd.EventLists

/-!
What a call can do to the two lists, one action at a time, and that each action keeps the links
between them mutual.
-/
namespace EventLists
open MutualLinks UpnpEvents

def Events.links (m : Events) : Links Addr Addr where
  lefts := m.subscriberlist
  rights := m.notifylist
  right := Option.map ListedSubscriber.notify ∘ m.subscribers
  left := Option.map Notify.sub ∘ m.notifies

/-- Both lists hold live objects only, whose pointers are null or go to an object of the other list
    that points back. -/
def Linked (m : Events) : Prop := Mutual m.links

theorem start_linked (vars : SubscriberService → CString) : Linked (Events.start vars) :=
  empty_mutual

section
variable {m : Events} {a b : Addr}

theorem listed_subscriber (linked : Linked m) (listed : a ∈ m.subscriberlist) :
    ∃ sub, m.subscribers a = some sub ∧ ∀ b, sub.notify = some b →
      b ∈ m.notifylist ∧ ∃ obj, m.notifies b = some obj ∧ obj.sub = some a := by
  obtain ⟨p, here, points⟩ := linked.lefts a listed
  obtain ⟨sub, found, rfl⟩ := Option.map_eq_some_iff.mp here
  refine ⟨sub, found, ?_⟩
  intro b pointer
  obtain ⟨other, back⟩ := points b pointer
  exact ⟨other, Option.map_eq_some_iff.mp back⟩

theorem listed_notify (linked : Linked m) (listed : b ∈ m.notifylist) :
    ∃ obj, m.notifies b = some obj ∧ ∀ a, obj.sub = some a →
      a ∈ m.subscriberlist ∧ ∃ sub, m.subscribers a = some sub ∧ sub.notify = some b := by
  obtain ⟨p, here, points⟩ := linked.rights b listed
  obtain ⟨obj, found, rfl⟩ := Option.map_eq_some_iff.mp here
  refine ⟨obj, found, ?_⟩
  intro a pointer
  obtain ⟨other, back⟩ := points a pointer
  exact ⟨other, Option.map_eq_some_iff.mp back⟩

end

/-- The notify carries a property set to a subscriber with the given last set: it has not been
    prepared yet, its message holds the set, or the set has been sent. -/
def Notify.Carries (obj : Notify) (lastSent : Option CString) (xml : CString) : Prop :=
  match obj.state with
  | .created | .connecting => True
  | .sending => obj.xml = some xml
  | .waitingForResponse | .finished => lastSent = some xml
  | .error => False

/-- A new notify of a subscriber. -/
def Events.attach (m : Events) (a : Addr) (sub : ListedSubscriber) (b : Addr) (obj : Notify) :
    Events :=
  (m.putSubscriber a { sub with notify := some b }).insertNotify b obj

inductive Action (m : Events) : Events → Prop where
  | fail : Action m m.fail
  | attach {a sub b obj} (listed : a ∈ m.subscriberlist) (here : m.subscribers a = some sub)
      (null : sub.notify = none) (free : m.notifies b = none) (back : obj.sub = some a)
      (new : obj.state = .created) : Action m (m.attach a sub b obj)
  | subscribe {a sub b obj} (null : sub.notify = none) (freeSub : m.subscribers a = none)
      (free : m.notifies b = none) (back : obj.sub = some a) (new : obj.state = .created) :
      Action m ((m.insertSubscriber a sub).attach a sub b obj)
  | subscribeFail {a sub} (null : sub.notify = none) (freeSub : m.subscribers a = none) :
      Action m (m.insertSubscriber a sub).fail
  | move {b obj obj'} (here : m.notifies b = some obj) (back : obj'.sub = obj.sub)
      (carries : ∀ a sub, obj.sub = some a → m.subscribers a = some sub →
        obj.Carries sub.lastSent (m.vars sub.service) →
        obj'.Carries sub.lastSent (m.vars sub.service)) :
      Action m (m.putNotify b obj')
  | moveFail {b obj obj'} (here : m.notifies b = some obj) (back : obj'.sub = obj.sub) :
      Action m (m.putNotify b obj').fail
  | moveBoth {b obj obj' a sub sub'} (here : m.notifies b = some obj) (back : obj'.sub = obj.sub)
      (owner : obj.sub = some a) (owned : m.subscribers a = some sub)
      (notify : sub'.notify = sub.notify) (service : sub'.service = sub.service)
      (carries : obj.Carries sub.lastSent (m.vars sub.service) →
        obj'.Carries sub'.lastSent (m.vars sub.service)) :
      Action m ((m.putNotify b obj').putSubscriber a sub')
  | renew {a sub sub'} (here : m.subscribers a = some sub) (notify : sub'.notify = sub.notify)
      (service : sub'.service = sub.service) (lastSent : sub'.lastSent = sub.lastSent) :
      Action m (m.putSubscriber a sub')
  | remove {a sub} (listed : a ∈ m.subscriberlist) (here : m.subscribers a = some sub)
      (null : sub.notify = none) : Action m (m.freeSubscriber a)
  | removeBusy {a sub b obj} (listed : a ∈ m.subscriberlist) (here : m.subscribers a = some sub)
      (notify : sub.notify = some b) (busy : m.notifies b = some obj) :
      Action m ((m.putNotify b { obj with sub := none }).freeSubscriber a)
  | clean {b obj} (listed : b ∈ m.notifylist) (here : m.notifies b = some obj)
      (alone : obj.sub = none) : Action m (m.freeNotify b)
  | cleanFinished {b obj a sub} (listed : b ∈ m.notifylist) (here : m.notifies b = some obj)
      (owner : obj.sub = some a) (owned : m.subscribers a = some sub)
      (state : obj.state = .finished) :
      Action m ((m.putSubscriber a { sub with notify := none }).freeNotify b)
  | cleanError {b obj a sub} (listed : b ∈ m.notifylist) (here : m.notifies b = some obj)
      (owner : obj.sub = some a) (owned : m.subscribers a = some sub) :
      Action m (((m.putSubscriber a { sub with notify := none }).freeSubscriber a).freeNotify b)

section links
variable {m m' : Events} {a b : Addr} {sub sub' : ListedSubscriber} {obj obj' : Notify}

theorem links_putSubscriber (here : m.subscribers a = some sub)
    (notify : sub'.notify = sub.notify) : (m.putSubscriber a sub').links = m.links := by
  have same : Option.map ListedSubscriber.notify ∘ (m.putSubscriber a sub').subscribers =
      m.links.right := by
    rw [Events.putSubscriber, Function.comp_update]
    apply Function.update_eq_self_iff.mpr
    simp [notify, here]
  exact congrArg (fun right => { m.links with right }) same

theorem links_putNotify (here : m.notifies b = some obj) (back : obj'.sub = obj.sub) :
    (m.putNotify b obj').links = m.links := by
  have same : Option.map Notify.sub ∘ (m.putNotify b obj').notifies = m.links.left := by
    rw [Events.putNotify, Function.comp_update]
    apply Function.update_eq_self_iff.mpr
    simp [back, here]
  exact congrArg (fun left => { m.links with left }) same

theorem links_insertSubscriber (null : sub.notify = none) :
    (m.insertSubscriber a sub).links = m.links.addLeft a := by
  simp [Events.links, Events.insertSubscriber, Events.putSubscriber, Links.addLeft,
    Function.comp_update, null]

theorem links_attach (back : obj.sub = some a) :
    (m.attach a sub b obj).links = m.links.addRight a b := by
  simp [Events.links, Events.attach, Events.insertNotify, Events.putNotify,
    Events.putSubscriber, Links.addRight, Function.comp_update, back]

theorem links_freeSubscriber : (m.freeSubscriber a).links = m.links.removeLeft a none := by
  simp [Events.links, Events.freeSubscriber, Links.removeLeft, Function.comp_update]

theorem links_freeNotify : (m.freeNotify b).links = m.links.removeRight b none := by
  simp [Events.links, Events.freeNotify, Links.removeRight, Function.comp_update]

theorem links_removeBusy :
    ((m.putNotify b { obj with sub := none }).freeSubscriber a).links =
      m.links.removeLeft a (some b) := by
  simp [Events.links, Events.freeSubscriber, Events.putNotify, Links.removeLeft,
    Function.comp_update]

theorem links_cleanFinished :
    ((m.putSubscriber a { sub with notify := none }).freeNotify b).links =
      m.links.removeRight b (some a) := by
  simp [Events.links, Events.freeNotify, Events.putSubscriber, Links.removeRight,
    Function.comp_update]

theorem links_cleanError :
    (((m.putSubscriber a { sub with notify := none }).freeSubscriber a).freeNotify b).links =
      (m.links.removeRight b (some a)).removeLeft a none := by
  simp [Events.links, Events.freeNotify, Events.freeSubscriber, Events.putSubscriber,
    Links.removeRight, Links.removeLeft, Function.comp_update]

theorem action_linked (linked : Linked m) (action : Action m m') : Linked m' := by
  cases action with
  | fail => exact linked
  | attach listed here null free back new =>
    rw [Linked, links_attach back]
    exact addRight_mutual linked listed (by simp [Events.links, here, null])
      (by simp [Events.links, free])
  | @subscribe a sub b obj null freeSub free back new =>
    have inserted : Mutual (m.insertSubscriber a sub).links := by
      rw [links_insertSubscriber null]
      exact addLeft_mutual linked (by simp [Events.links, freeSub])
    rw [Linked, links_attach back]
    exact addRight_mutual inserted List.mem_cons_self
      (by simp [Events.links, Events.insertSubscriber, Events.putSubscriber, null])
      (by simp [Events.links, Events.insertSubscriber, Events.putSubscriber, free])
  | @subscribeFail a sub null freeSub =>
    change Mutual (m.insertSubscriber a sub).links
    rw [links_insertSubscriber null]
    exact addLeft_mutual linked (by simp [Events.links, freeSub])
  | move here back carries =>
    rw [Linked, links_putNotify here back]
    exact linked
  | @moveFail b obj obj' here back =>
    change Mutual (m.putNotify b obj').links
    rw [links_putNotify here back]
    exact linked
  | @moveBoth b obj obj' a sub sub' here back owner owned notify service carries =>
    have kept : (m.putNotify b obj').subscribers a = some sub := owned
    rw [Linked, links_putSubscriber kept notify, links_putNotify here back]
    exact linked
  | renew here notify service lastSent =>
    rw [Linked, links_putSubscriber here notify]
    exact linked
  | remove listed here null =>
    rw [Linked, links_freeSubscriber]
    exact removeLeft_mutual linked listed (by simp [Events.links, here, null])
  | removeBusy listed here notify busy =>
    rw [Linked, links_removeBusy]
    exact removeLeft_mutual linked listed (by simp [Events.links, here, notify])
  | clean listed here alone =>
    rw [Linked, links_freeNotify]
    exact removeRight_mutual linked listed (by simp [Events.links, here, alone])
  | cleanFinished listed here owner owned state =>
    rw [Linked, links_cleanFinished]
    exact removeRight_mutual linked listed (by simp [Events.links, here, owner])
  | @cleanError b obj a sub listed here owner owned =>
    have pointed : m.links.left b = some (some a) := by simp [Events.links, here, owner]
    have cleaned : Mutual (m.links.removeRight b (some a)) :=
      removeRight_mutual linked listed pointed
    obtain ⟨p, there, points⟩ := linked.rights b listed
    rw [pointed] at there
    cases there
    have subscribed : a ∈ m.subscriberlist := (points a rfl).1
    rw [Linked, links_cleanError]
    exact removeLeft_mutual cleaned subscribed (by simp [Links.removeRight])

abbrev Actions : Events → Events → Prop := Relation.ReflTransGen Action

theorem actions_linked (linked : Linked m) (actions : Actions m m') : Linked m' := by
  induction actions with
  | refl => exact linked
  | tail _ action ih => exact action_linked ih action

end links

end EventLists
