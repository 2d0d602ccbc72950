import MiniUPnPd.Lib.Runs
import MiniUPnPd.UpnpHttpSpec

/-!
The HTTP connections in the main loop. Before `select` each connection goes into the set of
the event it waits for, by a comparison of state numbers. The comparison leaves out the
state in which the rest of a 100 Continue response has to be sent, and a connection in that
state is never served again.
-/
namespace MainLoop
open CText Runs UpnpHttp UpnpHttpSpec

inductive FdSet where
  | readset
  | writeset
  deriving DecidableEq

/-- The set that the loop puts the connection into. -/
def registration (c : Connection) : Option FdSet :=
  if 0 ≤ c.socket then
    if c.state.value ≤ HttpState.waitingForHttpContent.value then some .readset
    else if c.state = .sendingAndClosing then some .writeset
    else none
  else none

/-- The set of the event that a state waits for. -/
def awaited : HttpState → Option FdSet
  | .waitingForHttpRequest | .waitingForHttpContent => some .readset
  | .sendingContinue | .sendingAndClosing => some .writeset
  | .toDelete => none

/-- One turn of the loop: the connections, by their place in the list, that `select` reports,
    with what they meet, and the sockets of new connections. -/
structure Turn where
  env : HttpEnv
  ready : Nat → Option Event
  accepted : List Int

/-- Only a socket in one of the sets is reported. -/
def serve (turn : Turn) (i : Nat) (c : Connection) : Connection :=
  match registration c, turn.ready i with
  | some _, some event => (processUpnphttp turn.env event c).1
  | _, _ => c

def step (connections : List Connection) (turn : Turn) : List Connection :=
  ((turn.accepted.filterMap newUpnphttp).reverse ++ connections.mapIdx (serve turn)).filter
    fun c => c.state.value < HttpState.toDelete.value

def AllRegistered (connections : List Connection) : Prop :=
  ∀ c ∈ connections, 0 ≤ c.socket → c.state ≠ .toDelete → registration c = awaited c.state

/-- No connection that is served in this turn meets a full send buffer in the middle of a
    100 Continue response. -/
def Admits (connections : List Connection) (turn : Turn) : Prop :=
  ∀ i c, connections[i]? = some c → registration c ≠ none →
    ∀ event, turn.ready i = some event → ¬ ContinueWaits turn.env event c

theorem registered_iff {c : Connection} (socket : 0 ≤ c.socket) (live : c.state ≠ .toDelete) :
    registration c = awaited c.state ↔ c.state ≠ .sendingContinue := by
  unfold registration
  rw [if_pos socket]
  cases here : c.state with
  | waitingForHttpRequest => simp [awaited, HttpState.value]
  | waitingForHttpContent => simp [awaited, HttpState.value]
  | sendingContinue => simp [awaited, HttpState.value]
  | sendingAndClosing => simp [awaited, HttpState.value]
  | toDelete => exact absurd here live

section turns
variable {turn : Turn} {connections : List Connection}

theorem newUpnphttp_state {s : Int} {c : Connection} (new : newUpnphttp s = some c) :
    c.state = .waitingForHttpRequest ∧ c.reqBuf = [] := by
  unfold newUpnphttp at new
  split at new
  · simp at new
  · obtain rfl := Option.some.inj new
    exact ⟨rfl, rfl⟩

theorem mem_step {c : Connection} :
    c ∈ step connections turn ↔
      ((∃ s ∈ turn.accepted, newUpnphttp s = some c) ∨
        ∃ i old, connections[i]? = some old ∧ serve turn i old = c) ∧
      c.state ≠ .toDelete := by
  have live : c.state.value < HttpState.toDelete.value ↔ c.state ≠ .toDelete := by
    cases c.state <;> simp [HttpState.value]
  have served : c ∈ connections.mapIdx (serve turn) ↔
      ∃ i old, connections[i]? = some old ∧ serve turn i old = c := by
    simp only [List.mem_iff_getElem?, List.getElem?_mapIdx, Option.map_eq_some_iff]
  rw [step, List.mem_filter, List.mem_append, List.mem_reverse, List.mem_filterMap, served,
    decide_eq_true_eq, live]

theorem unread_step (unread : ∀ c ∈ connections, Unread c) :
    ∀ c ∈ step connections turn, Unread c := by
  intro c member
  rcases (mem_step.mp member).1 with ⟨s, _, new⟩ | ⟨i, old, there, rfl⟩
  · intro _
    rw [(newUpnphttp_state new).2]
    rfl
  · have before := unread old (List.mem_of_getElem? there)
    unfold serve
    split
    · exact process_unread _ _ before
    · exact before

/-- A turn after which all open connections are registered is one that is admitted. -/
theorem allRegistered_step_iff (unread : ∀ c ∈ connections, Unread c)
    (registered : AllRegistered connections) :
    AllRegistered (step connections turn) ↔ Admits connections turn := by
  constructor
  · intro after i c there open' event ready waiting
    have served : serve turn i c = (processUpnphttp turn.env event c).1 := by
      unfold serve
      cases set : registration c with
      | none => exact absurd set open'
      | some fds => rw [ready]
    have socket : 0 ≤ c.socket := by
      by_contra negative
      exact open' (if_neg negative)
    have other : c.state ≠ .sendingContinue := by simp [waiting.1]
    have state := (process_continue_iff (unread c (List.mem_of_getElem? there)) other).mpr waiting
    have live : (serve turn i c).state ≠ .toDelete := by simp [served, state]
    have member := mem_step.mpr ⟨.inr ⟨i, c, there, rfl⟩, live⟩
    have kept : 0 ≤ (serve turn i c).socket := by rw [served, process_socket waiting]; exact socket
    have must := (registered_iff kept live).mp (after _ member kept live)
    exact must (served ▸ state)
  · intro admitted c member socket live
    rw [registered_iff socket live]
    rcases (mem_step.mp member).1 with ⟨s, _, new⟩ | ⟨i, old, there, same⟩
    · simp [(newUpnphttp_state new).1]
    · have inside := List.mem_of_getElem? there
      unfold serve at same
      split at same
      · rename_i fds event set ready
        subst same
        have open' : registration old ≠ none := by simp [set]
        have oldSocket : 0 ≤ old.socket := by
          by_contra negative
          exact open' (if_neg negative)
        have other : old.state ≠ .sendingContinue := by
          intro here
          have oldLive : old.state ≠ .toDelete := by simp [here]
          exact (registered_iff oldSocket oldLive).mp (registered old inside oldSocket oldLive) here
        intro state
        exact admitted i old there open' event ready
          ((process_continue_iff (unread old inside) other).mp state)
      · subst same
        exact (registered_iff socket live).mp (registered old inside socket live)

end turns

/-- From the start of the loop: every open connection is registered for what it waits for in
    every turn of the run, exactly if all turns are admitted. -/
theorem open_connections_registered_iff (turns : List Turn) :
    Always step AllRegistered [] turns ↔ Admitted step Admits [] turns := by
  have kept : ∀ connections turn, (∀ c ∈ connections, Unread c) →
      ∀ c ∈ step connections turn, Unread c := fun _ _ unread => unread_step unread
  apply always_iff_admitted (fun connections => ∀ c ∈ connections, Unread c) kept
  · intro connections turn unread registered
    exact allRegistered_step_iff unread registered
  · simp
  · simp [AllRegistered]

/-- A POST whose body follows later meets a full send buffer. -/
def blockedTurns : List Turn :=
  let env : HttpEnv := { randomUrl := none, response := fun _ => [] }
  let post := "POST /ctl/IPConn HTTP/1.1\r\nExpect: 100-continue\r\nContent-Length: 10\r\n\r\n"
  [{ env, ready := fun _ => none, accepted := [5] },
   { env, ready := fun _ => some { recv := .data post.toList, sends := [.again] }
     accepted := [] }]

theorem blocked_continue_unregistered : ¬ Always step AllRegistered [] blockedTurns := by
  intro always
  have last := always_last always
  have state : (blockedTurns.foldl step []).map (fun c => (c.socket, c.state)) =
      [(5, .sendingContinue)] := by decide +kernel
  obtain ⟨c, only, pair⟩ := List.map_eq_singleton_iff.mp state
  obtain ⟨socket, here⟩ := Prod.mk.inj pair
  have open' : 0 ≤ c.socket := by omega
  have live : c.state ≠ .toDelete := by simp [here]
  have member : c ∈ blockedTurns.foldl step [] := by simp [only]
  exact (registered_iff open' live).mp (last c member open' live) here

end MainLoop
