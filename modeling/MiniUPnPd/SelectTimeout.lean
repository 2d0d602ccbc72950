import MiniUPnPd.AsyncSendto
import MiniUPnPd.Netfilter.Iptpinhole
import MiniUPnPd.NetfilterNft.Nftpinhole
import MiniUPnPd.Pf.Obsdrdr
import MiniUPnPd.RuleCleaning

/-!
The timeout of `select` in the main loop. It starts as the time to the next announcement and is
lowered to the next expiry of a mapping, to that of a pinhole and to the first datagram that is
scheduled. The two expiries are subtracted as whole seconds, so the loop wakes up to a second
after them, and a datagram can leave a whole second in the microseconds, which `select` refuses.
-/
namespace SelectTimeout
open AsyncSendto

structure Timeout where
  tvSec : Int
  tvUsec : Int
  deriving DecidableEq

def Timeout.micros (t : Timeout) : Int := t.tvSec * 1000000 + t.tvUsec

/-- The option `notify_interval`, an int. -/
structure NotifyInterval where
  seconds : Nat
  positive : 0 < seconds
  fits : seconds < 2 ^ 31

/-- What a cleaning at this time leaves in `nextruletoclean_timestamp` or `next_pinhole_ts`: zero
    when nothing expires. -/
structure Expiry where
  time : Nat
  next : Nat
  fits : next < 2 ^ 32
  later : next = 0 ∨ time % 2 ^ 32 < next

/-- One turn of the loop: what was done with the queue since the last timeout, what the clock
    says, the expiry of the mappings as the turn finds it, and what the cleanings leave. That of
    the rules counts only if it is made. -/
structure Turn where
  ops : List Op
  clock : TimeOfDay
  nextruletocleanTimestamp : Nat
  fits : nextruletocleanTimestamp < 2 ^ 32
  rulesCleaned : Expiry
  pinholesCleaned : Expiry
  writefds : List Int
  maxFd : Int

/-- The timeout, and the time of the last announcement. -/
def notifyTimeout (notifyInterval : Nat) (lasttimeofday timeofday : TimeOfDay) :
    Timeout × TimeOfDay :=
  if timeofday.tvSec ≥ lasttimeofday.tvSec + notifyInterval then
    ({ tvSec := notifyInterval, tvUsec := 0 }, timeofday)
  else
    let tvSec : Int := lasttimeofday.tvSec + notifyInterval - timeofday.tvSec
    if timeofday.tvUsec > lasttimeofday.tvUsec then
      ({ tvSec := tvSec - 1, tvUsec := 1000000 + lasttimeofday.tvUsec - timeofday.tvUsec },
        lasttimeofday)
    else ({ tvSec, tvUsec := lasttimeofday.tvUsec - timeofday.tvUsec }, lasttimeofday)

def nextRule (turn : Turn) : Nat :=
  if turn.nextruletocleanTimestamp ≠ 0 ∧
      turn.clock.tvSec % 2 ^ 32 ≥ turn.nextruletocleanTimestamp then
    turn.rulesCleaned.next
  else turn.nextruletocleanTimestamp

/-- The timeout is compared as an unsigned int. -/
def ruleTimeout (timeofday : TimeOfDay) (next : Nat) (timeout : Timeout) : Timeout :=
  if next ≠ 0 ∧ timeout.tvSec % 2 ^ 32 ≥ (next : Int) - timeofday.tvSec then
    { tvSec := (next : Int) - timeofday.tvSec, tvUsec := 0 }
  else timeout

/-- The difference is compared as an int. -/
def pinholeTimeout (timeofday : TimeOfDay) (next : Nat) (timeout : Timeout) : Timeout :=
  if next ≠ 0 ∧ timeout.tvSec ≥ ((next : Int) - timeofday.tvSec).bmod (2 ^ 32) then
    { tvSec := (next : Int) - timeofday.tvSec, tvUsec := 0 }
  else timeout

def before (a b : Timeval) : Bool :=
  a.tvSec < b.tvSec ∨ (a.tvSec = b.tvSec ∧ a.tvUsec < b.tvUsec)

def soonest (next : Option Timeval) (elt : ScheduledSend) : Option Timeval :=
  match next with
  | none => some elt.ts
  | some ts => if before elt.ts ts then some elt.ts else some ts

/-- The number of elements, and the time that is written if there are any. -/
def getNextScheduledSend (s : Sender) : Nat × Option Timeval :=
  (s.sendList.length, s.sendList.foldl soonest none)

def untilSend (timeofday : TimeOfDay) (nextSend : Timeval) : Timeout :=
  let tvSec : Int := (nextSend.tvSec : Int) - timeofday.tvSec
  let tvUsec : Int := (nextSend.tvUsec : Int) - timeofday.tvUsec
  if tvUsec < 0 then { tvSec := tvSec - 1, tvUsec := tvUsec + 1000000 } else { tvSec, tvUsec }

def sendTimeout (turn : Turn) (s : Sender) (timeout : Timeout) : Timeout × Sender :=
  match (getNextScheduledSend s).2 with
  | none => (timeout, s)
  | some nextSend =>
      let (scan, s) := getSendtoFds turn.writefds turn.maxFd turn.clock s
      if reached nextSend turn.clock.toTimeval then
        (if scan.n > 0 then { tvSec := 0, tvUsec := 0 } else timeout, s)
      else
        let tmp := untilSend turn.clock nextSend
        if timeout.tvSec > tmp.tvSec ∨
            (timeout.tvSec = tmp.tvSec ∧ timeout.tvUsec > tmp.tvUsec) then (tmp, s)
        else (timeout, s)

structure Normal (t : Timeout) : Prop where
  seconds : 0 ≤ t.tvSec
  micros : 0 ≤ t.tvUsec ∧ t.tvUsec < 1000000

section expiries
variable {v : NotifyInterval} {last clock : TimeOfDay} {t : Timeout} {next : Nat}

theorem notifyTimeout_spec (v : NotifyInterval) (steady : last.tvSec ≤ clock.tvSec) :
    let out := notifyTimeout v.seconds last clock
    Normal out.1 ∧ out.1.tvSec < 2 ^ 31 ∧ 0 < out.1.micros ∧
      clock.micros + out.1.micros = ((out.2.micros + v.seconds * 1000000 : Nat) : Int) := by
  have positive := v.positive
  have fits := v.fits
  have normal := clock.normal
  have normal' := last.normal
  simp only [notifyTimeout]
  split
  · refine ⟨⟨?_, ?_⟩, ?_, ?_, ?_⟩ <;> simp only [Timeout.micros, Timeval.micros] <;> omega
  · split
    · refine ⟨⟨?_, ?_⟩, ?_, ?_, ?_⟩ <;> simp only [Timeout.micros, Timeval.micros] <;> omega
    · refine ⟨⟨?_, ?_⟩, ?_, ?_, ?_⟩ <;> simp only [Timeout.micros, Timeval.micros] <;> omega

/-- The expiry as a timeout: the clock is taken without its microseconds. -/
def untilExpiry (clock : TimeOfDay) (next : Nat) : Int := ((next : Int) - clock.tvSec) * 1000000

theorem ruleTimeout_zero (clock : TimeOfDay) (t : Timeout) : ruleTimeout clock 0 t = t := by
  simp [ruleTimeout]

theorem pinholeTimeout_zero (clock : TimeOfDay) (t : Timeout) : pinholeTimeout clock 0 t = t := by
  simp [pinholeTimeout]

theorem ruleTimeout_spec (normal : Normal t) (small : t.tvSec < 2 ^ 31)
    (ahead : clock.tvSec < next) :
    let t' := ruleTimeout clock next t
    Normal t' ∧ t'.tvSec < 2 ^ 31 ∧ t'.micros = min t.micros (untilExpiry clock next) := by
  obtain ⟨seconds, micros⟩ := normal
  have same : t.tvSec % 2 ^ 32 = t.tvSec := by omega
  simp only [ruleTimeout, same]
  split
  · refine ⟨⟨?_, ?_⟩, ?_, ?_⟩ <;> simp only [Timeout.micros, untilExpiry] <;> omega
  · refine ⟨⟨seconds, micros⟩, small, ?_⟩
    simp only [Timeout.micros, untilExpiry]
    omega

theorem pinholeTimeout_spec (normal : Normal t) (ahead : clock.tvSec < next)
    (near : next < clock.tvSec + 2 ^ 31) :
    let t' := pinholeTimeout clock next t
    Normal t' ∧ t'.micros = min t.micros (untilExpiry clock next) := by
  obtain ⟨seconds, micros⟩ := normal
  have same : ((next : Int) - clock.tvSec).bmod (2 ^ 32) = (next : Int) - clock.tvSec :=
    Int.bmod_eq_of_le (by omega) (by omega)
  simp only [pinholeTimeout, same]
  split
  · refine ⟨⟨?_, ?_⟩, ?_⟩ <;> simp only [Timeout.micros, untilExpiry] <;> omega
  · refine ⟨⟨seconds, micros⟩, ?_⟩
    simp only [Timeout.micros, untilExpiry]
    omega

/-- From 2^31 seconds on the difference is negative as an int, and the timeout is not lowered but
    raised to it. -/
theorem pinholeTimeout_far (normal : Normal t) (fits : next < 2 ^ 32)
    (far : clock.tvSec + 2 ^ 31 ≤ next) :
    let t' := pinholeTimeout clock next t
    Normal t' ∧ t'.micros = untilExpiry clock next := by
  have seconds := normal.seconds
  have negative : ((next : Int) - clock.tvSec).bmod (2 ^ 32) < 0 := by
    rw [Int.bmod_def]
    omega
  have taken : next ≠ 0 ∧ t.tvSec ≥ ((next : Int) - clock.tvSec).bmod (2 ^ 32) := by omega
  simp only [pinholeTimeout, if_pos taken]
  refine ⟨⟨?_, ?_⟩, ?_⟩ <;> simp only [Timeout.micros, untilExpiry] <;> omega

end expiries

section queue

/-- The queue never holds more than a whole second in the microseconds. -/
def Carried (s : Sender) : Prop := ∀ elt ∈ s.sendList, elt.ts.tvUsec ≤ 1000000

theorem schedule_carried (d : Datagram) (delay : Nat) (state : SendState) (tv : Option TimeOfDay)
    (allocated : Bool) {s : Sender} (carried : Carried s) :
    Carried (schedule d delay state tv allocated s).2 := by
  cases tv with
  | none => exact carried
  | some tv =>
    cases allocated with
    | false => exact carried
    | true =>
      intro elt member
      rcases List.mem_cons.mp member with rfl | inside
      · exact sendTime_usec tv delay
      · exact carried elt inside

theorem sendtoSchedule2_carried (d : Datagram) (delay : Nat) (result : SendResult)
    (tv : Option TimeOfDay) (allocated : Bool) {s : Sender} (carried : Carried s) :
    Carried (sendtoSchedule2 d delay result tv allocated s).2 := by
  by_cases atOnce : delay = 0
  · cases result with
    | sent n => simpa [sendtoSchedule2, atOnce, Carried, Sender.note] using carried
    | failed => simpa [sendtoSchedule2, atOnce, Carried] using carried
    | again =>
      have done := schedule_carried d delay .EWAITREADY tv allocated carried
      simpa [sendtoSchedule2, atOnce, Carried] using done
    | interrupted =>
      have done := schedule_carried d delay .ESENDNOW tv allocated carried
      simpa [sendtoSchedule2, atOnce, Carried] using done
  · have done := schedule_carried d delay .ESCHEDULED tv allocated carried
    simpa [sendtoSchedule2, atOnce, Carried] using done

theorem wake_ts (now : Timeval) (elt : ScheduledSend) : (wake now elt).ts = elt.ts := by
  unfold wake
  split_ifs <;> rfl

theorem getSendtoFds_carried (writefds : List Int) (maxFd : Int) (now : TimeOfDay) {s : Sender}
    (carried : Carried s) : Carried (getSendtoFds writefds maxFd now s).2 := by
  intro elt member
  obtain ⟨old, inside, rfl⟩ := List.mem_map.mp member
  rw [wake_ts]
  exact carried old inside

theorem trySendtoLoop_carried (writefds : List Int) (results : ScheduledSend → SendResult)
    (clock : Nat) {list : List ScheduledSend} (carried : ∀ elt ∈ list, elt.ts.tvUsec ≤ 1000000) :
    ∀ elt ∈ (trySendtoLoop writefds results clock list).2.1, elt.ts.tvUsec ≤ 1000000 := by
  induction list with
  | nil => simp [trySendtoLoop]
  | cons first rest ih =>
    simp only [List.mem_cons, forall_eq_or_imp] at carried
    rcases tail : trySendtoLoop writefds results clock rest with ⟨ret, kept, events⟩
    have left := ih carried.2
    simp only [tail] at left
    obtain same | ⟨_, ⟨state, same⟩ | same | same⟩ := trySendtoLoop_cons _ _ _ _ first tail
    · simpa only [same, List.mem_cons, forall_eq_or_imp] using ⟨carried.1, left⟩
    · simpa only [same, List.mem_cons, forall_eq_or_imp] using ⟨carried.1, left⟩
    · simpa only [same] using left
    · simpa only [same] using left

theorem step_carried {s : Sender} (op : Op) (carried : Carried s) :
    Carried (AsyncSendto.step s op) := by
  cases op with
  | sendtoSchedule2 d delay result tv allocated =>
    exact sendtoSchedule2_carried d delay result tv allocated carried
  | getSendtoFds writefds maxFd now => exact getSendtoFds_carried writefds maxFd now carried
  | trySendto writefds results => exact trySendtoLoop_carried writefds results s.clock carried

theorem ops_carried (ops : List Op) {s : Sender} (carried : Carried s) :
    Carried (ops.foldl AsyncSendto.step s) := by
  induction ops generalizing s with
  | nil => exact carried
  | cons op ops ih => exact ih (step_carried op carried)

/-- No time of the queue comes before this one. -/
def Least (queue : List Timeval) (ts : Timeval) : Prop :=
  ts ∈ queue ∧ ∀ other ∈ queue, before other ts = false

theorem soonest_least (list : List ScheduledSend) (seen : List Timeval) (ts : Timeval)
    (least : Least seen ts) :
    ∃ ts', list.foldl soonest (some ts) = some ts' ∧ Least (seen ++ list.map (·.ts)) ts' := by
  induction list generalizing seen ts with
  | nil => exact ⟨ts, rfl, by simpa using least⟩
  | cons elt list ih =>
    obtain ⟨member, first⟩ := least
    have next : ∃ ts', soonest (some ts) elt = some ts' ∧ Least (seen ++ [elt.ts]) ts' := by
      by_cases sooner : before elt.ts ts
      · refine ⟨elt.ts, by simp [soonest, sooner], by simp, ?_⟩
        intro other there
        rcases List.mem_append.mp there with there | there
        · have above := first other there
          simp only [before, decide_eq_true_eq, decide_eq_false_iff_not] at above sooner ⊢
          omega
        · simp only [List.mem_singleton] at there
          simp [there, before]
      · refine ⟨ts, by simp [soonest, sooner], by simp [member], ?_⟩
        intro other there
        rcases List.mem_append.mp there with there | there
        · exact first other there
        · simpa [List.mem_singleton.mp there] using sooner
    obtain ⟨ts', one, least'⟩ := next
    obtain ⟨last, all, done⟩ := ih (seen ++ [elt.ts]) ts' least'
    refine ⟨last, ?_, ?_⟩
    · rw [List.foldl_cons, one]
      exact all
    · simpa using done

theorem getNextScheduledSend_cases (s : Sender) :
    s.sendList = [] ∧ (getNextScheduledSend s).2 = none ∨
      ∃ ts, (getNextScheduledSend s).2 = some ts ∧ Least (s.sendList.map (·.ts)) ts := by
  unfold getNextScheduledSend
  cases s.sendList with
  | nil => exact .inl ⟨rfl, rfl⟩
  | cons elt list =>
    right
    have least : Least [elt.ts] elt.ts := by simp [Least, before]
    obtain ⟨ts, all, done⟩ := soonest_least list [elt.ts] elt.ts least
    exact ⟨ts, all, done⟩

theorem least_micros {queue : List Timeval} {ts other : Timeval} (usec : ts.tvUsec ≤ 1000000)
    (least : Least queue ts) (member : other ∈ queue) : ts.micros ≤ other.micros := by
  have above := least.2 other member
  simp only [before, decide_eq_false_iff_not] at above
  unfold Timeval.micros
  omega

/-- Of the earliest times, the one taken has the most microseconds. -/
theorem least_usec {queue : List Timeval} {ts other : Timeval} (least : Least queue ts)
    (usec : ts.tvUsec ≤ 1000000) (member : other ∈ queue) (full : other.tvUsec = 1000000)
    (also : other.micros ≤ ts.micros) : ts.tvUsec = 1000000 := by
  have above := least.2 other member
  simp only [before, decide_eq_false_iff_not] at above
  unfold Timeval.micros at also
  omega

theorem reached_iff {ts : Timeval} (usec : ts.tvUsec ≤ 1000000) (now : TimeOfDay) :
    reached ts now.toTimeval = true ↔ ts.micros ≤ now.micros := by
  have normal := now.normal
  constructor
  · exact reached_micros usec
  · intro late
    simp only [reached, decide_eq_true_eq]
    unfold Timeval.micros at late
    omega

/-- When the first time has come there is something to send. -/
theorem register_counts (now : Timeval) (list : List ScheduledSend) (scan : FdScan)
    (some : 0 < scan.n ∨ ∃ elt ∈ list, reached elt.ts now = true) :
    0 < (list.foldl (register now) scan).n := by
  induction list generalizing scan with
  | nil =>
    rcases some with counted | ⟨elt, member, _⟩
    · exact counted
    · cases member
  | cons elt list ih =>
    apply ih
    rcases some with counted | ⟨elt', member, late⟩
    · left
      unfold register
      split_ifs
      · exact Nat.succ_pos _
      · exact Nat.succ_pos _
      · exact counted
    · rcases List.mem_cons.mp member with rfl | inside
      · left
        unfold register
        split_ifs
        · exact Nat.succ_pos _
        · exact Nat.succ_pos _
      · exact .inr ⟨elt', inside, late⟩

end queue

section sends
variable {turn : Turn} {s : Sender} {t : Timeout} {ts : Timeval}

theorem sendTimeout_none (empty : (getNextScheduledSend s).2 = none) :
    (sendTimeout turn s t).1 = t := by
  simp only [sendTimeout, empty]

theorem sendTimeout_reached (next : (getNextScheduledSend s).2 = some ts)
    (member : ts ∈ s.sendList.map (·.ts)) (late : reached ts turn.clock.toTimeval = true) :
    (sendTimeout turn s t).1 = { tvSec := 0, tvUsec := 0 } := by
  obtain ⟨elt, inside, rfl⟩ := List.mem_map.mp member
  have counted := register_counts turn.clock.toTimeval s.sendList
    { n := 0, writefds := turn.writefds, maxFd := turn.maxFd } (.inr ⟨elt, inside, late⟩)
  simp only [sendTimeout, next, if_pos late]
  exact if_pos counted

/-- The difference is what it should be in microseconds, and normal unless a whole second is left
    in them. -/
theorem untilSend_spec (clock : TimeOfDay) (usec : ts.tvUsec ≤ 1000000)
    (waits : clock.micros < ts.micros) :
    let tmp := untilSend clock ts
    tmp.micros = (ts.micros : Int) - clock.micros ∧ 0 ≤ tmp.tvSec ∧ 0 ≤ tmp.tvUsec ∧
      (tmp.tvUsec < 1000000 ∨
        tmp.tvUsec = 1000000 ∧ clock.tvUsec = 0 ∧ ts.tvUsec = 1000000) ∧
      (clock.tvUsec = 0 → ts.tvUsec = 1000000 → tmp.tvUsec = 1000000) := by
  have normal := clock.normal
  simp only [Timeval.micros] at waits
  simp only [untilSend]
  split
  · refine ⟨?_, ?_, ?_, ?_, ?_⟩ <;> simp only [Timeout.micros, Timeval.micros] <;> omega
  · refine ⟨?_, ?_, ?_, ?_, ?_⟩ <;> simp only [Timeout.micros, Timeval.micros] <;> omega

/-- A negative timeout is not raised. -/
theorem sendTimeout_negative (next : (getNextScheduledSend s).2 = some ts)
    (usec : ts.tvUsec ≤ 1000000) (waits : turn.clock.micros < ts.micros) (negative : t.tvSec < 0) :
    (sendTimeout turn s t).1 = t := by
  obtain ⟨_, seconds, _⟩ := untilSend_spec turn.clock usec waits
  have missed : ¬ reached ts turn.clock.toTimeval = true := by
    rw [reached_iff usec]
    omega
  simp only [sendTimeout, next, if_neg missed]
  rw [if_neg (by omega)]

theorem sendTimeout_spec (next : (getNextScheduledSend s).2 = some ts)
    (usec : ts.tvUsec ≤ 1000000) (waits : turn.clock.micros < ts.micros) (normal : Normal t) :
    let t' := (sendTimeout turn s t).1
    (Normal t' ↔ ¬ (turn.clock.tvUsec = 0 ∧ ts.tvUsec = 1000000 ∧
        ts.micros ≤ turn.clock.micros + t.micros)) ∧
      turn.clock.micros + t'.micros = min (turn.clock.micros + t.micros) ts.micros := by
  obtain ⟨seconds, micros⟩ := normal
  obtain ⟨total, tmpSeconds, tmpMicros, shape, full⟩ := untilSend_spec turn.clock usec waits
  have missed : ¬ reached ts turn.clock.toTimeval = true := by
    rw [reached_iff usec]
    omega
  simp only [sendTimeout, next, if_neg missed]
  generalize untilSend turn.clock ts = tmp at total tmpSeconds tmpMicros shape full
  simp only [Timeout.micros] at total
  have sum : t.micros = t.tvSec * 1000000 + t.tvUsec := rfl
  have sum' : tmp.micros = tmp.tvSec * 1000000 + tmp.tvUsec := rfl
  split
  · dsimp only
    refine ⟨⟨?_, ?_⟩, by omega⟩
    · rintro ⟨_, small⟩
      omega
    · intro other
      refine ⟨tmpSeconds, tmpMicros, ?_⟩
      omega
  · dsimp only
    refine ⟨⟨?_, ?_⟩, by omega⟩
    · intro _
      omega
    · intro _
      exact ⟨seconds, micros⟩

end sends

section cleanings
open UpnpRedirect UpnpRedirectSpec

/-- A time that is written is later than the clock, both as unsigned int. -/
def Written (now : Nat) (next : Option Nat) : Prop :=
  ∀ time ∈ next, now % 2 ^ 32 < time ∧ time < 2 ^ 32

def Expiry.ofWritten {now : Nat} {next : Option Nat} (written : Written now next) : Expiry :=
  { time := now
    next := next.getD 0
    fits := by
      cases next with
      | none => decide
      | some time => exact (written time rfl).2
    later := by
      cases next with
      | none => exact .inl rfl
      | some time => exact .inr (written time rfl).1 }

/-- Nothing has been seen that expires, or only what expires after this time. -/
def Later (now minTs : Nat) : Prop := (minTs = 2 ^ 32 - 1 ∨ now < minTs) ∧ minTs ≤ 2 ^ 32 - 1

theorem later_min {now minTs ts : Nat} (later : Later now minTs) (alive : now < ts) :
    Later now (min ts minTs) := by
  unfold Later at *
  omega

theorem written_later {now minTs : Nat} (later : Later (now % 2 ^ 32) minTs) :
    Written now (if minTs = 2 ^ 32 - 1 then none else some minTs) := by
  intro time same
  split at same
  · cases same
  · rename_i seen
    cases same
    unfold Later at later
    omega

theorem iptCleaned (now : Nat) (fw : Iptpinhole.Firewall) :
    Written now (Iptpinhole.cleanPinholeList now fw).1.2 := by
  have loop : ∀ (now : Nat) (list : List Iptpinhole.PinholeT) (n minTs : Nat)
      (fw : Iptpinhole.Firewall), Later now minTs →
        Later now (Iptpinhole.cleanLoop now list n minTs fw).1.2 := by
    intro now list
    induction list with
    | nil =>
      intro n minTs fw later
      exact later
    | cons p rest ih =>
      intro n minTs fw later
      rw [Iptpinhole.cleanLoop]
      split
      · dsimp only
        split
        · exact ih _ _ _ later
        · exact later
      · exact ih _ _ _ (later_min later (by omega))
  exact written_later (loop (now % 2 ^ 32) fw.pinholeList 0 _ fw ⟨.inl rfl, le_rfl⟩)

theorem nftCleaned (now : Nat) (s : Nftpinhole.Pinholes) :
    Written now (Nftpinhole.cleanPinholeList now s).1.2 := by
  have loop : ∀ (now : Nat) (list : List NftnlrdrMisc.RuleT) (c : Nftpinhole.Cleaning)
      (s : Nftpinhole.Pinholes), Later now c.minTs →
        Later now (Nftpinhole.cleanLoop now list c s).1.minTs := by
    intro now list
    induction list with
    | nil =>
      intro c s later
      exact later
    | cons p rest ih =>
      intro c s later
      rw [Nftpinhole.cleanLoop]
      split
      · exact ih _ _ later
      · split
        · exact ih _ _ later
        · apply ih
          dsimp only
          split_ifs <;> exact later_min later (by omega)
  exact written_later (loop (now % 2 ^ 32) (Nftpinhole.labelled s)
    { minTs := Nftpinhole.UINT_MAX, minUid := Nftpinhole.INT_MAX, maxUid := -1, n := 0 } s
    ⟨.inl rfl, le_rfl⟩)

theorem pfCleaned (cfg : Obsdrdr.Config) (now : Nat) (s : Obsdrdr.State) :
    Written now (Obsdrdr.cleanPinholeList cfg now s).1.2 := by
  have loop : ∀ (now i : Nat) (c : Obsdrdr.Cleaning) (s : Obsdrdr.State), Later now c.minTs →
      Later now (Obsdrdr.cleanLoop cfg now i c s).1.minTs := by
    intro now i
    induction i with
    | zero =>
      intro c s later
      exact later
    | succ i ih =>
      intro c s later
      rw [Obsdrdr.cleanLoop]
      split
      · exact ih _ _ later
      · split
        · exact ih _ _ later
        · apply ih
          dsimp only
          split_ifs <;> exact later_min later (by omega)
  exact written_later (loop (now % 2 ^ 32) _
    { minTs := Obsdrdr.UINT_MAX, minUid := Obsdrdr.INT_MAX, maxUid := -1, n := 0 } s
    ⟨.inl rfl, le_rfl⟩)

theorem collected_later (now fuel i : Nat) (list : List RuleState) (d : Daemon)
    (later : d.nextruletocleanTimestamp = 0 ∨ now < d.nextruletocleanTimestamp) :
    let d' := (collectRuleStates now fuel i list d).2
    d'.nextruletocleanTimestamp = 0 ∨ now < d'.nextruletocleanTimestamp := by
  induction fuel generalizing i list d with
  | zero => exact later
  | succ fuel ih =>
    rw [collectRuleStates]
    split
    · exact later
    · apply ih
      simp only [cleanTimestamp]
      split <;> omega

theorem removeExpired_next (env : Env) (list : List RuleState) (d : Daemon) :
    (removeExpired env list d).nextruletocleanTimestamp = d.nextruletocleanTimestamp := by
  induction list generalizing d with
  | nil => rfl
  | cons state list ih =>
    simp only [removeExpired, List.foldl_cons]
    split
    · exact (ih _).trans (upnpDeleteRedir_exact env state.eport state.proto.toInt d).1
    · exact ih d

/-- A cleaning of the rules leaves what the loop relies on, also when libiptc fails. -/
def Expiry.ofRules (env : Env) (maxRulesNumberTarget : Int) (d : Daemon)
    (fits :
      (getUpnpRulesStateList env maxRulesNumberTarget d).2.nextruletocleanTimestamp < 2 ^ 32) :
    Expiry :=
  { time := env.clock.upnpTime
    next := (getUpnpRulesStateList env maxRulesNumberTarget d).2.nextruletocleanTimestamp
    fits
    later := by
      simp only [getUpnpRulesStateList, removeExpired_next]
      exact collected_later _ _ 0 [] _ (.inl rfl) }

end cleanings

end SelectTimeout
