import Mathlib.Data.List.Count
import Mathlib.Tactic.Ring
import MiniUPnPd.Lib.Runs

/-!
The queue of datagrams that are sent later or again. An element waits for its time, for its
socket, or for the next attempt. The elements carry the number of the call that submitted
them and the queue a record of what became of each; no function reads either.
-/
namespace AsyncSendto
open Runs

structure Timeval where
  tvSec : Nat
  tvUsec : Nat
  deriving DecidableEq, Repr

def Timeval.micros (tv : Timeval) : Nat := tv.tvSec * 1000000 + tv.tvUsec

/-- What `upnp_gettimeofday` writes. -/
structure TimeOfDay extends Timeval where
  normal : tvUsec < 1000000

inductive SendState where
  | ESCHEDULED
  | EWAITREADY
  | ESENDNOW
  deriving DecidableEq, Repr

/-- The arguments of `sendto` or, with a source address, of `sendmsg`. -/
structure Datagram where
  sockfd : Int
  buf : List UInt8
  flags : Int
  destAddr : List UInt8
  srcAddr : Option (List UInt8)
  deriving DecidableEq

structure ScheduledSend where
  ts : Timeval
  state : SendState
  datagram : Datagram
  submission : Nat
  deriving DecidableEq

/-- What the kernel answers: a number of bytes, `EINTR`, `EAGAIN` or `EWOULDBLOCK`, or any
    other error. -/
inductive SendResult where
  | sent (n : Nat)
  | interrupted
  | again
  | failed
  deriving DecidableEq

/-- `due` is there for a datagram submitted with a delay, in microseconds. The clock of a
    hand-over is the last one that `get_sendto_fds` was given. -/
inductive Event where
  | accepted (submission : Nat) (due : Option Nat)
  | handed (submission clock : Nat)
  | dropped (submission : Nat)
  deriving DecidableEq

structure Sender where
  sendList : List ScheduledSend
  submissions : Nat
  clock : Nat
  record : List Event

def Sender.start : Sender := { sendList := [], submissions := 0, clock := 0, record := [] }

/-- The time plus the delay in milliseconds, with at most one carry. -/
def sendTime (tv : TimeOfDay) (delay : Nat) : Timeval :=
  let tvSec := tv.tvSec + delay / 1000
  let tvUsec := tv.tvUsec + delay % 1000 * 1000
  if tvUsec > 1000000 then { tvSec := tvSec + 1, tvUsec := tvUsec - 1000000 }
  else { tvSec, tvUsec }

def dueTime (tv : TimeOfDay) (delay : Nat) : Option Nat :=
  if delay = 0 then none else some (tv.micros + delay * 1000)

def Sender.note (s : Sender) (events : List Event) : Sender :=
  { s with record := s.record ++ events }

/-- The part after the immediate attempt. -/
def schedule (d : Datagram) (delay : Nat) (state : SendState) (tv : Option TimeOfDay)
    (allocated : Bool) (s : Sender) : Int × Sender :=
  match tv with
  | none => (-1, s)
  | some tv =>
    if allocated then
      let elt := { ts := sendTime tv delay, state, datagram := d, submission := s.submissions }
      (0, { s with sendList := elt :: s.sendList }.note
        [.accepted s.submissions (dueTime tv delay)])
    else (-1, s)

/-- `result` is what the immediate attempt of a call without delay meets. -/
def sendtoSchedule2 (d : Datagram) (delay : Nat) (result : SendResult) (tv : Option TimeOfDay)
    (allocated : Bool) (s : Sender) : Int × Sender :=
  let (n, s) :=
    if delay = 0 then
      match result with
      | .sent n => ((n : Int), s.note [.accepted s.submissions none, .handed s.submissions s.clock])
      | .again => schedule d delay .EWAITREADY tv allocated s
      | .interrupted => schedule d delay .ESENDNOW tv allocated s
      | .failed => (-1, s)
    else schedule d delay .ESCHEDULED tv allocated s
  (n, { s with submissions := s.submissions + 1 })

/-- `ts` is not later than `now`. -/
def reached (ts now : Timeval) : Bool :=
  ts.tvSec < now.tvSec ∨ (ts.tvSec = now.tvSec ∧ ts.tvUsec ≤ now.tvUsec)

structure FdScan where
  n : Nat
  writefds : List Int
  maxFd : Int

def register (now : Timeval) (scan : FdScan) (elt : ScheduledSend) : FdScan :=
  if elt.state = .EWAITREADY then
    { n := scan.n + 1
      writefds := elt.datagram.sockfd :: scan.writefds
      maxFd := max elt.datagram.sockfd scan.maxFd }
  else if reached elt.ts now then { scan with n := scan.n + 1 }
  else scan

def wake (now : Timeval) (elt : ScheduledSend) : ScheduledSend :=
  if elt.state = .EWAITREADY then elt
  else if reached elt.ts now then { elt with state := .ESENDNOW }
  else elt

/-- The two effects of one loop. -/
def getSendtoFds (writefds : List Int) (maxFd : Int) (now : TimeOfDay) (s : Sender) :
    FdScan × Sender :=
  (s.sendList.foldl (register now.toTimeval) { n := 0, writefds, maxFd },
    { s with sendList := s.sendList.map (wake now.toTimeval), clock := now.micros })

def tried (writefds : List Int) (elt : ScheduledSend) : Bool :=
  elt.state = .ESENDNOW ∨ (elt.state = .EWAITREADY ∧ elt.datagram.sockfd ∈ writefds)

/-- The loop of `try_sendto`: the result, the elements that stay and what became of the
    others. -/
def trySendtoLoop (writefds : List Int) (results : ScheduledSend → SendResult) (clock : Nat) :
    List ScheduledSend → Int × List ScheduledSend × List Event
  | [] => (0, [], [])
  | elt :: rest =>
      let (ret, kept, events) := trySendtoLoop writefds results clock rest
      if tried writefds elt then
        match results elt with
        | .interrupted => (ret, { elt with state := .ESENDNOW } :: kept, events)
        | .again => (ret, { elt with state := .EWAITREADY } :: kept, events)
        | .failed => (ret - 1, kept, .dropped elt.submission :: events)
        | .sent _ => (ret, kept, .handed elt.submission clock :: events)
      else (ret, elt :: kept, events)

def trySendto (writefds : List Int) (results : ScheduledSend → SendResult) (s : Sender) :
    Int × Sender :=
  let (ret, kept, events) := trySendtoLoop writefds results s.clock s.sendList
  (ret, { s with sendList := kept }.note events)

/-- A call of one of the three functions, with what it meets. -/
inductive Op where
  | sendtoSchedule2 (d : Datagram) (delay : Nat) (result : SendResult) (tv : Option TimeOfDay)
      (allocated : Bool)
  | getSendtoFds (writefds : List Int) (maxFd : Int) (now : TimeOfDay)
  | trySendto (writefds : List Int) (results : ScheduledSend → SendResult)

def step (s : Sender) : Op → Sender
  | .sendtoSchedule2 d delay result tv allocated =>
      (sendtoSchedule2 d delay result tv allocated s).2
  | .getSendtoFds writefds maxFd now => (getSendtoFds writefds maxFd now s).2
  | .trySendto writefds results => (trySendto writefds results s).2

/-- The clock does not go back. -/
def Advances (s : Sender) : Op → Prop
  | .getSendtoFds _ _ now => s.clock ≤ now.micros
  | _ => True

def isAccepted (i : Nat) : Event → Bool
  | .accepted j _ => i = j
  | _ => false

def isHanded (i : Nat) : Event → Bool
  | .handed j _ => i = j
  | _ => false

def isDropped (i : Nat) : Event → Bool
  | .dropped j => i = j
  | _ => false

def isDrop : Event → Bool
  | .dropped _ => true
  | _ => false

def handed (s : Sender) (i : Nat) : Nat := s.record.countP (isHanded i)

def dropped (s : Sender) (i : Nat) : Nat := s.record.countP (isDropped i)

def queued (s : Sender) (i : Nat) : Nat := s.sendList.countP fun elt => elt.submission = i

/-- Exactly one of the three, exactly once. -/
def InOnePlace (s : Sender) : Prop :=
  ∀ i due, .accepted i due ∈ s.record →
    (handed s i = 1 ∧ dropped s i = 0 ∧ queued s i = 0) ∨
      (handed s i = 0 ∧ dropped s i = 1 ∧ queued s i = 0) ∨
        (handed s i = 0 ∧ dropped s i = 0 ∧ queued s i = 1)

def NeverEarly (s : Sender) : Prop :=
  ∀ i due clock, .accepted i (some due) ∈ s.record → .handed i clock ∈ s.record → due ≤ clock

def accepted (s : Sender) (i : Nat) : Nat := s.record.countP (isAccepted i)

/-- An element that waits for its time has it in `ts`; any other one is due. -/
def Waits (s : Sender) (elt : ScheduledSend) : Prop :=
  ∀ due, .accepted elt.submission (some due) ∈ s.record →
    (elt.state = .ESCHEDULED ∧ due = elt.ts.micros ∧ elt.ts.tvUsec ≤ 1000000) ∨ due ≤ s.clock

structure Sound (s : Sender) : Prop where
  once : ∀ i, handed s i + dropped s i + queued s i = accepted s i
  single : ∀ i, accepted s i ≤ 1
  fresh : ∀ i, s.submissions ≤ i → accepted s i = 0
  waits : ∀ elt ∈ s.sendList, Waits s elt
  early : NeverEarly s

theorem sound_start : Sound Sender.start := by
  constructor <;> simp [Sender.start, handed, dropped, queued, accepted, NeverEarly]

section times
variable {tv : TimeOfDay} {delay : Nat} {now : TimeOfDay}

theorem sendTime_micros (tv : TimeOfDay) (delay : Nat) :
    (sendTime tv delay).micros = tv.micros + delay * 1000 := by
  have split := Nat.div_add_mod delay 1000
  unfold sendTime Timeval.micros
  dsimp only
  split
  · dsimp only
    omega
  · dsimp only
    omega

theorem sendTime_usec (tv : TimeOfDay) (delay : Nat) :
    (sendTime tv delay).tvUsec ≤ 1000000 := by
  have normal := tv.normal
  have rest := Nat.mod_lt delay (show 0 < 1000 by decide)
  unfold sendTime
  dsimp only
  split
  · dsimp only
    omega
  · dsimp only
    omega

/-- The comparison of the two fields is one of times, also where the microseconds of `ts`
    make up a whole second. -/
theorem reached_micros {ts now : Timeval} (usec : ts.tvUsec ≤ 1000000)
    (late : reached ts now = true) : ts.micros ≤ now.micros := by
  simp only [reached, decide_eq_true_eq] at late
  unfold Timeval.micros
  omega

end times

section schedules
variable {s : Sender} (sound : Sound s)

theorem accepted_of_mem {i : Nat} {due : Option Nat} (member : .accepted i due ∈ s.record) :
    0 < accepted s i :=
  List.countP_pos_iff.mpr ⟨_, member, by simp [isAccepted]⟩

include sound in
theorem fresh_queue : ∀ elt ∈ s.sendList, elt.submission < s.submissions := by
  intro elt member
  by_contra late
  have none := sound.fresh elt.submission (by omega)
  have there : 0 < queued s elt.submission := List.countP_pos_iff.mpr ⟨elt, member, by simp⟩
  have once := sound.once elt.submission
  omega

include sound in
theorem fresh_handed {i clock : Nat} (member : .handed i clock ∈ s.record) :
    i < s.submissions := by
  by_contra late
  have none := sound.fresh i (by omega)
  have there : 0 < handed s i := List.countP_pos_iff.mpr ⟨_, member, by simp [isHanded]⟩
  have once := sound.once i
  omega

include sound in
theorem fresh_accepted {i : Nat} {due : Option Nat} (member : .accepted i due ∈ s.record) :
    i < s.submissions := by
  by_contra late
  have none := sound.fresh i (by omega)
  have there := accepted_of_mem member
  omega

/-- What a call of `sendto_schedule2` can have done to the queue and the record. -/
def Scheduled (s s' : Sender) : Prop :=
  (s'.sendList = s.sendList ∧ s'.record = s.record) ∨
    (s'.sendList = s.sendList ∧ s'.record =
      s.record ++ [.accepted s.submissions none, .handed s.submissions s.clock]) ∨
    ∃ elt due, elt.submission = s.submissions ∧ s'.sendList = elt :: s.sendList ∧
      s'.record = s.record ++ [.accepted s.submissions due] ∧
      ∀ time ∈ due, elt.state = .ESCHEDULED ∧ time = elt.ts.micros ∧ elt.ts.tvUsec ≤ 1000000

theorem schedule_cases (d : Datagram) (delay : Nat) (state : SendState) (tv : Option TimeOfDay)
    (allocated : Bool) (s : Sender) (timed : delay ≠ 0 → state = .ESCHEDULED) :
    let s' := (schedule d delay state tv allocated s).2
    s'.submissions = s.submissions ∧ s'.clock = s.clock ∧ Scheduled s s' := by
  cases tv with
  | none => exact ⟨rfl, rfl, .inl ⟨rfl, rfl⟩⟩
  | some tv =>
    cases allocated with
    | false => exact ⟨rfl, rfl, .inl ⟨rfl, rfl⟩⟩
    | true =>
      refine ⟨rfl, rfl, .inr (.inr ⟨_, dueTime tv delay, rfl, rfl, rfl, ?_⟩)⟩
      intro time due
      unfold dueTime at due
      split at due
      · simp at due
      · rename_i delayed
        obtain rfl := Option.some.inj due
        exact ⟨timed delayed, (sendTime_micros tv delay).symm, sendTime_usec tv delay⟩

theorem sendtoSchedule2_cases (d : Datagram) (delay : Nat) (result : SendResult)
    (tv : Option TimeOfDay) (allocated : Bool) (s : Sender) :
    let s' := (sendtoSchedule2 d delay result tv allocated s).2
    s'.submissions = s.submissions + 1 ∧ s'.clock = s.clock ∧ Scheduled s s' := by
  by_cases atOnce : delay = 0
  · cases result with
    | sent n => simp [sendtoSchedule2, atOnce, Sender.note, Scheduled]
    | failed => simp [sendtoSchedule2, atOnce, Scheduled]
    | again =>
      have done := schedule_cases d delay .EWAITREADY tv allocated s
        (fun delayed => absurd atOnce delayed)
      simpa [sendtoSchedule2, atOnce, Scheduled] using done
    | interrupted =>
      have done := schedule_cases d delay .ESENDNOW tv allocated s
        (fun delayed => absurd atOnce delayed)
      simpa [sendtoSchedule2, atOnce, Scheduled] using done
  · have done := schedule_cases d delay .ESCHEDULED tv allocated s (fun _ => rfl)
    simpa [sendtoSchedule2, atOnce, Scheduled] using done

include sound in
theorem accepted_grown {s' : Sender} {due : Option Nat} {more : List Event}
    (others : ∀ i, more.countP (isAccepted i) = 0)
    (submissions : s'.submissions = s.submissions + 1)
    (record : s'.record = s.record ++ .accepted s.submissions due :: more) :
    (∀ i, accepted s' i ≤ 1) ∧ ∀ i, s'.submissions ≤ i → accepted s' i = 0 := by
  have fresh := sound.fresh s.submissions le_rfl
  simp only [accepted] at fresh
  constructor
  · intro i
    have before := sound.single i
    simp only [accepted] at before
    by_cases same : i = s.submissions
    · simp [accepted, record, isAccepted, same, fresh, others]
    · simpa [accepted, record, isAccepted, same, others] using before
  · intro i later
    have before := sound.fresh i (by omega)
    have other : i ≠ s.submissions := by omega
    simpa [accepted, record, isAccepted, other, others] using before

include sound in
theorem scheduled_sound {s' : Sender} (submissions : s'.submissions = s.submissions + 1)
    (clock : s'.clock = s.clock) (done : Scheduled s s') : Sound s' := by
  obtain ⟨list, record⟩ | ⟨list, record⟩ | ⟨elt, due, submission, list, record, timed⟩ := done
  · constructor
    · simpa only [handed, dropped, queued, accepted, list, record] using sound.once
    · simpa only [accepted, record] using sound.single
    · intro i later
      simpa only [accepted, record] using sound.fresh i (by omega)
    · simpa only [Waits, list, record, clock] using sound.waits
    · simpa only [NeverEarly, record] using sound.early
  · have grown := accepted_grown sound (fun _ => by rfl) submissions record
    constructor
    · intro i
      have before := sound.once i
      simp only [handed, dropped, queued, accepted] at before
      by_cases same : i = s.submissions
      · subst same
        simp [handed, dropped, queued, accepted, list, record, isHanded, isDropped, isAccepted]
        omega
      · simp [handed, dropped, queued, accepted, list, record, isHanded, isDropped, isAccepted, same]
        omega
    · exact grown.1
    · exact grown.2
    · intro elt member due there
      rw [list] at member
      simp only [record, List.mem_append, List.mem_cons, Event.accepted.injEq, reduceCtorEq,
        and_false, List.not_mem_nil, or_false] at there
      rw [clock]
      exact sound.waits elt member due there
    · intro i due time there given
      simp only [record, List.mem_append, List.mem_cons, Event.accepted.injEq, reduceCtorEq,
        and_false, List.not_mem_nil, or_false, Event.handed.injEq, false_or] at there given
      rcases given with given | ⟨rfl, rfl⟩
      · exact sound.early i due time there given
      · exact absurd (fresh_accepted sound there) (lt_irrefl _)
  · have grown := accepted_grown sound (fun _ => by rfl) submissions record
    constructor
    · intro i
      have before := sound.once i
      simp only [handed, dropped, queued, accepted] at before
      by_cases same : i = s.submissions
      · subst same
        simp [handed, dropped, queued, accepted, list, record, isHanded, isDropped, isAccepted,
          submission]
        omega
      · simp [handed, dropped, queued, accepted, list, record, isHanded, isDropped, isAccepted, same,
          submission, Ne.symm same]
        omega
    · exact grown.1
    · exact grown.2
    · intro waiting member time there
      simp only [list, List.mem_cons] at member
      simp only [record, List.mem_append, List.mem_singleton, Event.accepted.injEq] at there
      rw [clock]
      rcases member with rfl | member
      · rcases there with there | ⟨_, there⟩
        · rw [submission] at there
          exact absurd (fresh_accepted sound there) (lt_irrefl _)
        · exact .inl (timed time there.symm)
      · rcases there with there | ⟨same, _⟩
        · exact sound.waits waiting member time there
        · exact absurd (fresh_queue sound waiting member) (by omega)
    · intro i time at' there given
      simp only [record, List.mem_append, List.mem_singleton, Event.accepted.injEq, reduceCtorEq,
        or_false] at there given
      rcases there with there | ⟨rfl, _⟩
      · exact sound.early i time at' there given
      · exact absurd (fresh_handed sound given) (lt_irrefl _)

end schedules

section attempts
variable {s : Sender}

theorem wake_submission (now : Timeval) (elt : ScheduledSend) :
    (wake now elt).submission = elt.submission := by
  unfold wake
  split_ifs <;> rfl

theorem getSendtoFds_sound (sound : Sound s) (writefds : List Int) (maxFd : Int)
    {now : TimeOfDay} (advances : s.clock ≤ now.micros) :
    Sound (getSendtoFds writefds maxFd now s).2 := by
  have same : ∀ i, queued (getSendtoFds writefds maxFd now s).2 i = queued s i := by
    intro i
    simp only [queued, getSendtoFds, List.countP_map]
    exact List.countP_congr fun elt _ => by simp [wake_submission]
  refine ⟨?_, sound.single, sound.fresh, ?_, sound.early⟩
  · intro i
    rw [same]
    exact sound.once i
  · intro elt member due there
    obtain ⟨old, inside, rfl⟩ := List.mem_map.mp member
    rw [wake_submission] at there
    show _ ∨ due ≤ now.micros
    rcases sound.waits old inside due there with ⟨state, time, usec⟩ | late
    · by_cases late : reached old.ts now.toTimeval
      · right
        rw [time]
        exact reached_micros usec late
      · exact .inl (by simp [wake, state, late, time, usec])
    · exact .inr (late.trans advances)

section loop
variable (writefds : List Int) (results : ScheduledSend → SendResult) (clock : Nat)
  (list : List ScheduledSend)

/-- What the loop does with the first element, given what it does with the others. -/
theorem trySendtoLoop_cons (elt : ScheduledSend) {ret : Int} {kept : List ScheduledSend}
    {events : List Event} (tail : trySendtoLoop writefds results clock list = (ret, kept, events)) :
    let done := trySendtoLoop writefds results clock (elt :: list)
    done = (ret, elt :: kept, events) ∨
      tried writefds elt ∧
        ((∃ state, done = (ret, { elt with state } :: kept, events)) ∨
          done = (ret, kept, .handed elt.submission clock :: events) ∨
          done = (ret - 1, kept, .dropped elt.submission :: events)) := by
  by_cases attempted : tried writefds elt
  · right
    refine ⟨attempted, ?_⟩
    cases result : results elt with
    | sent n => simp [trySendtoLoop, tail, attempted, result]
    | interrupted => exact .inl ⟨.ESENDNOW, by simp [trySendtoLoop, tail, attempted, result]⟩
    | again => exact .inl ⟨.EWAITREADY, by simp [trySendtoLoop, tail, attempted, result]⟩
    | failed => simp [trySendtoLoop, tail, attempted, result]
  · left
    simp [trySendtoLoop, tail, attempted]

/-- Every element is kept, handed over or dropped. -/
theorem trySendtoLoop_counts (i : Nat) :
    let done := trySendtoLoop writefds results clock list
    done.2.2.countP (isHanded i) + done.2.2.countP (isDropped i) +
        (done.2.1.countP fun elt => elt.submission = i) =
      (list.countP fun elt => elt.submission = i) ∧ done.2.2.countP (isAccepted i) = 0 := by
  induction list with
  | nil => simp [trySendtoLoop]
  | cons elt rest ih =>
    rcases tail : trySendtoLoop writefds results clock rest with ⟨ret, kept, events⟩
    simp only [tail] at ih
    obtain ⟨total, none⟩ := ih
    obtain same | ⟨_, ⟨state, same⟩ | same | same⟩ := trySendtoLoop_cons _ _ _ _ elt tail
    · simp only [same, List.countP_cons, none, and_true]
      omega
    · simp only [same, List.countP_cons, none, and_true]
      omega
    · by_cases here : elt.submission = i
      · simp [same, isHanded, isDropped, isAccepted, none, here]
        omega
      · simp [same, isHanded, isDropped, isAccepted, none, here, Ne.symm here]
        omega
    · by_cases here : elt.submission = i
      · simp [same, isHanded, isDropped, isAccepted, none, here]
        omega
      · simp [same, isHanded, isDropped, isAccepted, none, here, Ne.symm here]
        omega

/-- The result counts the dropped ones. -/
theorem trySendtoLoop_result :
    let done := trySendtoLoop writefds results clock list
    done.1 = -(done.2.2.countP isDrop : Int) := by
  induction list with
  | nil => simp [trySendtoLoop]
  | cons elt rest ih =>
    rcases tail : trySendtoLoop writefds results clock rest with ⟨ret, kept, events⟩
    simp only [tail] at ih
    obtain same | ⟨_, ⟨state, same⟩ | same | same⟩ := trySendtoLoop_cons _ _ _ _ elt tail
    · simp [same, ih]
    · simp [same, ih]
    · simp [same, ih, isDrop]
    · simp only [same, ih, List.countP_cons, isDrop, ↓reduceIte]
      omega

/-- An element that stays keeps its state or was tried. -/
theorem trySendtoLoop_kept {elt : ScheduledSend}
    (member : elt ∈ (trySendtoLoop writefds results clock list).2.1) :
    elt ∈ list ∨ ∃ old ∈ list, old.submission = elt.submission ∧ tried writefds old := by
  induction list with
  | nil => simp [trySendtoLoop] at member
  | cons first rest ih =>
    rcases tail : trySendtoLoop writefds results clock rest with ⟨ret, kept, events⟩
    simp only [tail] at ih
    have later : elt ∈ kept → elt ∈ first :: rest ∨
        ∃ old ∈ first :: rest, old.submission = elt.submission ∧ tried writefds old := by
      intro inside
      rcases ih inside with same | ⟨old, there, submission, attempted⟩
      · exact .inl (List.mem_cons_of_mem _ same)
      · exact .inr ⟨old, List.mem_cons_of_mem _ there, submission, attempted⟩
    obtain same | ⟨attempted, ⟨state, same⟩ | same | same⟩ := trySendtoLoop_cons _ _ _ _ first tail
    · simp only [same, List.mem_cons] at member
      rcases member with rfl | inside
      · exact .inl List.mem_cons_self
      · exact later inside
    · simp only [same, List.mem_cons] at member
      rcases member with rfl | inside
      · exact .inr ⟨first, List.mem_cons_self, rfl, attempted⟩
      · exact later inside
    · simp only [same] at member
      exact later member
    · simp only [same] at member
      exact later member

theorem trySendtoLoop_handed {i time : Nat}
    (member : .handed i time ∈ (trySendtoLoop writefds results clock list).2.2) :
    time = clock ∧ ∃ old ∈ list, old.submission = i ∧ tried writefds old := by
  induction list with
  | nil => simp [trySendtoLoop] at member
  | cons first rest ih =>
    rcases tail : trySendtoLoop writefds results clock rest with ⟨ret, kept, events⟩
    simp only [tail] at ih
    have later : .handed i time ∈ events → time = clock ∧
        ∃ old ∈ first :: rest, old.submission = i ∧ tried writefds old := by
      intro inside
      obtain ⟨now, old, there, submission, attempted⟩ := ih inside
      exact ⟨now, old, List.mem_cons_of_mem _ there, submission, attempted⟩
    obtain same | ⟨attempted, ⟨state, same⟩ | same | same⟩ := trySendtoLoop_cons _ _ _ _ first tail
    · simp only [same] at member
      exact later member
    · simp only [same] at member
      exact later member
    · simp only [same, List.mem_cons, Event.handed.injEq] at member
      rcases member with ⟨rfl, rfl⟩ | inside
      · exact ⟨rfl, first, List.mem_cons_self, rfl, attempted⟩
      · exact later inside
    · simp only [same, List.mem_cons, reduceCtorEq, false_or] at member
      exact later member

end loop

theorem tried_state {writefds : List Int} {elt : ScheduledSend}
    (attempted : tried writefds elt = true) : elt.state ≠ .ESCHEDULED := by
  intro waiting
  simp [tried, waiting] at attempted

theorem trySendto_sound (sound : Sound s) (writefds : List Int)
    (results : ScheduledSend → SendResult) : Sound (trySendto writefds results s).2 := by
  have counts := trySendtoLoop_counts writefds results s.clock s.sendList
  have kept := @trySendtoLoop_kept writefds results s.clock s.sendList
  have handedOver := @trySendtoLoop_handed writefds results s.clock s.sendList
  unfold trySendto
  generalize trySendtoLoop writefds results s.clock s.sendList = done at counts kept handedOver
  obtain ⟨ret, left, events⟩ := done
  simp only at counts kept handedOver
  have due : ∀ old ∈ s.sendList, tried writefds old → ∀ time,
      .accepted old.submission (some time) ∈ s.record → time ≤ s.clock := by
    intro old inside attempted time there
    rcases sound.waits old inside time there with ⟨state, _⟩ | late
    · exact absurd state (tried_state attempted)
    · exact late
  have same : ∀ i due, .accepted i due ∈ s.record ++ events → .accepted i due ∈ s.record := by
    intro i due there
    rcases List.mem_append.mp there with there | there
    · exact there
    · have none := List.countP_eq_zero.mp (counts i).2 _ there
      simp [isAccepted] at none
  constructor
  · intro i
    have before := sound.once i
    have loop := counts i
    simp only [handed, dropped, queued, accepted, Sender.note, List.countP_append] at before ⊢
    omega
  · intro i
    have before := sound.single i
    have loop := (counts i).2
    simp only [accepted, Sender.note, List.countP_append] at before ⊢
    omega
  · intro i later
    have before := sound.fresh i later
    have loop := (counts i).2
    simp only [accepted, Sender.note, List.countP_append] at before ⊢
    omega
  · intro elt member time there
    have known := same _ _ there
    rcases kept member with inside | ⟨old, inside, submission, attempted⟩
    · exact sound.waits elt inside time known
    · rw [← submission] at known
      exact .inr (due old inside attempted time known)
  · intro i time clock there given
    have known := same _ _ there
    rcases List.mem_append.mp given with given | given
    · exact sound.early i time clock known given
    · obtain ⟨rfl, old, inside, rfl, attempted⟩ := handedOver given
      exact due old inside attempted time known

end attempts

theorem step_sound {s : Sender} (op : Op) (sound : Sound s) (advances : Advances s op) :
    Sound (step s op) := by
  cases op with
  | sendtoSchedule2 d delay result tv allocated =>
    obtain ⟨submissions, clock, done⟩ := sendtoSchedule2_cases d delay result tv allocated s
    exact scheduled_sound sound submissions clock done
  | getSendtoFds writefds maxFd now => exact getSendtoFds_sound sound writefds maxFd advances
  | trySendto writefds results => exact trySendto_sound sound writefds results

theorem sound_placed {s : Sender} (sound : Sound s) : InOnePlace s := by
  intro i due there
  have once := sound.once i
  have single := sound.single i
  have some := accepted_of_mem there
  omega

/-- Along every run whose clocks do not go back, each accepted datagram has been handed over
    once, has been dropped once, or is queued, and none was handed over before its time;
    every drop counts in the result of `try_sendto`. -/
theorem datagrams_accounted {ops : List Op} (advances : Admitted step Advances Sender.start ops) :
    Always step (fun s => InOnePlace s ∧ NeverEarly s) Sender.start ops ∧
      ∀ s writefds results,
        let (ret, s') := trySendto writefds results s
        ∃ events, s'.record = s.record ++ events ∧ ret = -(events.countP isDrop : Int) := by
  constructor
  · have sound := always_of_admitted (fun s op => step_sound op) sound_start advances
    exact always_imp (fun s now => ⟨sound_placed now, now.early⟩) sound
  · intro s writefds results
    exact ⟨_, rfl, trySendtoLoop_result writefds results s.clock s.sendList⟩

/-- A reply that is due after 250 ms, looked at too early, then when its time has come, and
    sent at the second attempt. -/
def delayedReply : List Op :=
  let d : Datagram := { sockfd := 4, buf := [1, 2, 3], flags := 0, destAddr := [], srcAddr := none }
  let at' (tvSec tvUsec : Nat) (normal : tvUsec < 1000000) : TimeOfDay := { tvSec, tvUsec, normal }
  [.sendtoSchedule2 d 250 .failed (some (at' 10 900000 (by decide))) true,
   .getSendtoFds [] (-1) (at' 11 100000 (by decide)),
   .trySendto [4] fun _ => .sent 3,
   .getSendtoFds [] (-1) (at' 11 150000 (by decide)),
   .trySendto [] fun _ => .again,
   .trySendto [4] fun _ => .sent 3]

theorem delayedReply_accounted :
    (delayedReply.foldl step Sender.start).record =
        [.accepted 0 (some 11150000), .handed 0 11150000] ∧
      Always step (fun s => InOnePlace s ∧ NeverEarly s) Sender.start delayedReply := by
  have advances : Admitted step Advances Sender.start delayedReply :=
    ⟨trivial, Nat.zero_le _, trivial, Nat.le_of_ble_eq_true rfl, trivial, trivial, trivial⟩
  exact ⟨by decide, (datagrams_accounted advances).1⟩

end AsyncSendto
