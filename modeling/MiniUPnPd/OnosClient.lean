import MiniUPnPd.SdnRules

/-!
The client of the controller: the handlers of its connections, which the HTTP library calls with
one event after the other until one of them is done, and the operations that wait for this. Only a
response sets the status, and the variables start as if one with status 200 had come.
-/
namespace OnosClient
open CText SdnRedirect SdnPortmappings SdnRules

inductive Event where
  | MG_EV_CONNECT
  | MG_EV_HTTP_MSG (hm : HttpMessage)
  | MG_EV_ERROR
  | MG_EV_CLOSE
  | other

inductive Method where
  | GET
  | POST
  | DELETE
  deriving DecidableEq

structure HttpRequest where
  method : Method
  reqUrl : String
  withPayload : Bool
  deriving DecidableEq

/-- `struct conn_runtime_vars`, and the requests sent on the connection. -/
structure Connection extends ConnRuntimeVars where
  sent : List HttpRequest
  done : Bool

def Connection.start : Connection := { connRuntimeVars none with sent := [], done := false }

/-- The body of the handlers, which differ in the request they send. -/
def onHttpEvent (request : HttpRequest) (ev : Event) (data : Connection) : Connection :=
  match ev with
  | .MG_EV_CONNECT => { data with sent := data.sent ++ [request] }
  | .MG_EV_HTTP_MSG hm =>
      { data with responseCode := retrieveResponseStatus hm, response := hm.body, done := true }
  | .MG_EV_ERROR => { data with done := true }
  | .MG_EV_CLOSE => { data with done := true }
  | .other => data

abbrev Handler := Event → Connection → Connection

def onosAddIGDPortMapping : Handler :=
  onHttpEvent { method := .POST, reqUrl := "/portmapping", withPayload := true }

def onosGetExtIpAddr : Handler :=
  onHttpEvent { method := .GET, reqUrl := "/stats/extipaddr", withPayload := false }

def onosGetIGDRuntimeStatus : Handler :=
  onHttpEvent { method := .GET, reqUrl := "/stats/iface", withPayload := false }

def onosGetWanConnectionStatus : Handler :=
  onHttpEvent { method := .GET, reqUrl := "/stats/wanconnstatus", withPayload := false }

def onosGetIGDPortMappingByIndex : Handler :=
  onHttpEvent { method := .GET, reqUrl := "/portmapping/index", withPayload := true }

def onosGetIGDPortMapping : Handler :=
  onHttpEvent { method := .GET, reqUrl := "/portmapping", withPayload := true }

def onosGetIGDPortMappingRange : Handler :=
  onHttpEvent { method := .GET, reqUrl := "/portmapping/range", withPayload := true }

def onosDeleteIGDPortMapping : Handler :=
  onHttpEvent { method := .DELETE, reqUrl := "/portmapping", withPayload := true }

def onosDeleteIGDPortMappingRange : Handler :=
  onHttpEvent { method := .DELETE, reqUrl := "/portmapping/range", withPayload := true }

/-- The loop around `mg_mgr_poll`; `none` while it still waits. -/
def poll (handler : Handler) : List Event → Connection → Option Connection
  | [], _ => none
  | ev :: events, data =>
      let data := handler ev data
      if data.done then some data else poll handler events data

/-- The variables when a call returns. -/
def wait (handler : Handler) (events : List Event) : Option ConnRuntimeVars :=
  (poll handler events .start).map Connection.toConnRuntimeVars

/-- The events after which nothing more is waited for. -/
def Event.ends : Event → Bool
  | .MG_EV_HTTP_MSG _ | .MG_EV_ERROR | .MG_EV_CLOSE => true
  | .MG_EV_CONNECT | .other => false

def Event.answer : Event → Option HttpMessage
  | .MG_EV_HTTP_MSG hm => some hm
  | _ => none

/-- The message comes before any other event that ends the wait. -/
def Received (events : List Event) (hm : HttpMessage) : Prop :=
  ∃ before after, events = before ++ .MG_EV_HTTP_MSG hm :: after ∧ ∀ ev ∈ before, ev.ends = false

section waiting
variable (request : HttpRequest) (events : List Event)

theorem poll_answer (data : Connection) (fresh : data.toConnRuntimeVars = connRuntimeVars none)
    (waits : data.done = false) :
    (poll (onHttpEvent request) events data).map Connection.toConnRuntimeVars =
      (events.find? Event.ends).map fun ev => connRuntimeVars ev.answer := by
  induction events generalizing data with
  | nil => rfl
  | cons ev events ih =>
    cases ev with
    | MG_EV_CONNECT =>
      have sent := ih { data with sent := data.sent ++ [request] } fresh waits
      simpa [poll, onHttpEvent, waits, Event.ends] using sent
    | other =>
      have next := ih data fresh waits
      simpa [poll, onHttpEvent, waits, Event.ends] using next
    | MG_EV_HTTP_MSG hm => rfl
    | MG_EV_ERROR => simp [poll, onHttpEvent, Event.ends, Event.answer, fresh]
    | MG_EV_CLOSE => simp [poll, onHttpEvent, Event.ends, Event.answer, fresh]

/-- What a call has when it returns is the answer that came, or the start for none. -/
theorem wait_answer :
    wait (onHttpEvent request) events =
      (events.find? Event.ends).map fun ev => connRuntimeVars ev.answer :=
  poll_answer request events .start rfl rfl

theorem received_iff (hm : HttpMessage) :
    Received events hm ↔ events.find? Event.ends = some (.MG_EV_HTTP_MSG hm) := by
  rw [List.find?_eq_some_iff_append]
  constructor
  · intro received
    obtain ⟨before, after, split, quiet⟩ := received
    exact ⟨rfl, before, after, split, fun ev member => by simp [quiet ev member]⟩
  · intro found
    obtain ⟨_, before, after, split, quiet⟩ := found
    exact ⟨before, after, split, fun ev member => by simpa using quiet ev member⟩

end waiting

section status
variable {s : CString}

theorem ofDigitChars_lt (digits : ∀ c ∈ s, c.isDigit = true) :
    Nat.ofDigitChars 10 s 0 < 10 ^ s.length := by
  induction s using List.reverseRecOn with
  | nil => decide
  | append_singleton front last ih =>
    have before := ih fun c member => digits c (List.mem_append_left _ member)
    have digit := (digitChar_of_isDigit (digits last (by simp))).2
    have value : Nat.ofDigitChars 10 (front ++ [last]) 0 =
        10 * Nat.ofDigitChars 10 front 0 + (last.toNat - 48) := by
      rw [Nat.ofDigitChars_append, Nat.ofDigitChars_cons, Nat.ofDigitChars_nil]
      rfl
    rw [value, List.length_append, List.length_singleton, Nat.pow_succ]
    omega

theorem digitsValue_lt (s : CString) : digitsValue s < 10 ^ (s.takeWhile Char.isDigit).length := by
  apply ofDigitChars_lt
  intro c member
  exact List.mem_takeWhile_imp member

/-- At most three characters whose digits have a value of three digits are these digits. -/
theorem digitsValue_three (short : s.length ≤ 3) (large : 100 ≤ digitsValue s) :
    s = utoa (digitsValue s) := by
  have below := digitsValue_lt s
  have part := (List.takeWhile_prefix Char.isDigit (l := s)).length_le
  have three : (s.takeWhile Char.isDigit).length = 3 := by
    by_contra other
    have fewer : (s.takeWhile Char.isDigit).length ≤ 2 := by omega
    have power := Nat.pow_le_pow_right (n := 10) (by decide) fewer
    omega
  have whole : s.takeWhile Char.isDigit = s :=
    (List.takeWhile_prefix Char.isDigit).eq_of_length (by omega)
  have digits : ∀ c ∈ s, c.isDigit = true := by
    intro c member
    rw [← whole] at member
    exact List.mem_takeWhile_imp member
  have leading : s.head? = some '0' → s.length = 1 := by
    intro zero
    exfalso
    cases s with
    | nil => cases zero
    | cons c rest =>
      obtain rfl : c = '0' := by simpa using zero
      have rest_digits : ∀ c ∈ rest, c.isDigit = true :=
        fun c member => digits c (List.mem_cons_of_mem _ member)
      have small := ofDigitChars_lt rest_digits
      have same : digitsValue ('0' :: rest) = Nat.ofDigitChars 10 rest 0 := by
        rw [digitsValue, whole, Nat.ofDigitChars_cons]
        rfl
      have length : rest.length = 2 := by
        rw [whole] at three
        simpa using three
      rw [length] at small
      omega
  have nonempty : s ≠ [] := by
    rintro rfl
    simp at three
  have written := utoa_of_digits s nonempty digits leading
  rw [digitsValue, whole]
  exact written.symm

/-- Three characters that read as a number of three digits are this number. -/
theorem atoi_three {n : Nat} (short : s.length ≤ 3) (low : 100 ≤ n) (high : n < 1000) :
    atoi s = n ↔ s = utoa n := by
  constructor
  · intro read
    have dropped := (List.dropWhile_suffix isspace (l := s)).length_le
    have bound : ∀ t : CString, t.length ≤ 3 → digitsValue t < 1000 := by
      intro t small
      have below := digitsValue_lt t
      have part := (List.takeWhile_prefix Char.isDigit (l := t)).length_le
      have power := Nat.pow_le_pow_right (n := 10) (by decide) (Nat.le_trans part small)
      omega
    have value : ∀ v : Int, -1000 < v → v < 1000 → v.bmod (2 ^ 32) = n → v = n := by
      intro v lower upper wrapped
      rw [Int.bmod_eq_iff (by decide)] at wrapped
      omega
    unfold atoi strtol at read
    split at read
    · rename_i t minus
      rw [minus, List.length_cons] at dropped
      have small := bound t (by omega)
      have same := value _ (by omega) (by omega) read
      omega
    · rename_i t plus
      rw [plus, List.length_cons] at dropped
      have part := (List.takeWhile_prefix Char.isDigit (l := t)).length_le
      have fewer : (t.takeWhile Char.isDigit).length ≤ 2 := by omega
      have power := Nat.pow_le_pow_right (n := 10) (by decide) fewer
      have small := Nat.lt_of_lt_of_le (digitsValue_lt t) power
      have same := value _ (by omega) (by omega) read
      omega
    · have small := bound (s.dropWhile isspace) (by omega)
      have same := value _ (by omega) (by omega) read
      have number : digitsValue (s.dropWhile isspace) = n := by omega
      have written := digitsValue_three (s := s.dropWhile isspace) (by omega) (by omega)
      rw [number] at written
      have length : (utoa n).length = 3 := by
        have atMost := utoa_length (k := 3) (by decide) high
        by_contra other
        have fewer := (Nat.length_toDigits_le_iff (n := n) (b := 10) (k := 2) (by decide)
          (by decide)).mp (show (utoa n).length ≤ 2 by omega)
        omega
      have whole : s.dropWhile isspace = s := by
        apply (List.dropWhile_suffix isspace).eq_of_length
        rw [written] at dropped ⊢
        omega
      rw [← whole]
      exact written
  · rintro rfl
    have read := atoi_utoa (n := n) (by omega) [] (by simp)
    rwa [List.append_nil] at read

/-- The status is taken for 200 when its first three characters are. -/
theorem responseStatus_ok (hm : HttpMessage) :
    retrieveResponseStatus hm = .OK_200 ↔ hm.status.take 3 = "200".toList := by
  have three := atoi_three (s := hm.status.take 3) (n := 200)
    (by rw [List.length_take]; omega) (by decide) (by decide)
  have written : utoa 200 = "200".toList := by decide
  rw [written] at three
  rw [← three]
  unfold retrieveResponseStatus
  split <;> simp_all

end status

end OnosClient
