import MiniUPnPd.Lib.ReadBack
import MiniUPnPd.UpnpRedirectSpec

/-!
What is left of the mappings in the lease file after a restart. A line is read in pieces of
at most 127 characters, and the text of a description is written as it is: what comes after
a newline or does not fit into the first piece is read as further lines.
-/
namespace LeaseReload
open CText Inet Iptcrdr LeaseFile ReadBack UpnpRedirect UpnpRedirectSpec

/-- A call of `lease_file_add`, with the clocks at that time. -/
structure Record where
  proto : Int
  eport : UInt16
  client : InAddr
  iport : UInt16
  desc : CString
  timestamp : Nat
  upnpTime : Nat
  unixTime : Nat

section
variable (remaining : Bool) (r : Record)

def Record.clock : Clock :=
  { upnpTime := r.upnpTime, unixTime := r.unixTime, leasefileUseRemainingTime := remaining }

def Record.stored : Nat := storedTimestamp (r.clock remaining) r.timestamp

/-- The line up to the description. -/
def Record.head : CString :=
  protoItoa r.proto ++ ':' :: utoa r.eport.toNat ++ ':' :: inetNtoa r.client ++
    ':' :: utoa r.iport.toNat ++ ':' :: utoa (r.stored remaining) ++ [':']

def Record.line : CString := r.head remaining ++ r.desc ++ ['\n']

/-- What the first call of `fgets` reads of the description. -/
def Record.firstPiece : CString := (fgets (127 - (r.head remaining).length) (r.desc ++ ['\n'])).1

/-- What it leaves to further calls. -/
def Record.leftover : CString := (fgets (127 - (r.head remaining).length) (r.desc ++ ['\n'])).2

def recordAll (records : List Record) : Option CString :=
  records.foldl
    (fun file r => leaseFileAdd (r.clock remaining) r.eport (inetNtoa r.client) r.iport r.proto
      r.desc r.timestamp file)
    none

theorem line_eq : r.line remaining =
    leaseLine r.eport (inetNtoa r.client) r.iport r.proto r.desc (r.stored remaining) := by
  simp [Record.line, Record.head, leaseLine]

theorem recordAll_content (records : List Record) :
    (recordAll remaining records).getD [] = records.flatMap (Record.line remaining) := by
  unfold recordAll
  have any : ∀ file : Option CString, (records.foldl
      (fun file r => leaseFileAdd (r.clock remaining) r.eport (inetNtoa r.client) r.iport r.proto
        r.desc r.timestamp file) file).getD [] =
      file.getD [] ++ records.flatMap (Record.line remaining) := by
    induction records with
    | nil => simp
    | cons r records ih =>
      intro file
      rw [List.foldl_cons, ih, leaseFileAdd, Option.getD_some, List.flatMap_cons, line_eq,
        List.append_assoc]
      rfl
  exact any none

end

/-- A call of `upnp_redirect`, with the protocol as a number. -/
structure Reloaded where
  rhost : Option CString
  proto : Int
  eport : UInt16
  iaddr : CString
  iport : UInt16
  desc : Option CString
  leaseduration : Nat
  deriving DecidableEq

def redirectCall : Call → Option Reloaded
  | .upnpRedirect rhost eport iaddr iport protocol desc leaseduration =>
      some { rhost, proto := protoAtoi protocol, eport, iaddr, iport, desc, leaseduration }
  | _ => none

def redirectCalls (d : Daemon) : List Reloaded := d.calls.filterMap redirectCall

/-- The lease that a line is reloaded with, if it has not run out. -/
def reloadLease (clock : Clock) (timestamp : Nat) : Option Nat :=
  if timestamp > 0 then
    if clock.leasefileUseRemainingTime then some timestamp
    else if timestamp ≤ clock.unixTime % 2 ^ 32 then none
    else some (((timestamp : Int) - clock.unixTime) % 2 ^ 32).toNat
  else some 0

def lineCall (clock : Clock) (line : CString) : Option Reloaded :=
  (parseLeaseLine line).bind fun l =>
    (reloadLease clock l.timestamp).map fun leaseduration =>
      { rhost := none, proto := protoAtoi l.proto, eport := l.eport, iaddr := l.iaddr
        iport := l.iport, desc := some l.desc, leaseduration }

section calls
variable {env : Env} {d : Daemon}

theorem redirectCalls_internal (rhost : Option CString) (eport : UInt16) (iaddr : CString)
    (iport : UInt16) (proto : Int) (desc : CString) (timestamp : Nat) :
    redirectCalls (upnpRedirectInternal env rhost eport iaddr iport proto desc timestamp d).2 =
      redirectCalls d := by
  rw [redirectCalls, upnpRedirectInternal_calls, List.filterMap_append]
  split
  · simp [redirectCalls, redirectCall]
  · simp [redirectCalls, redirectCall]

theorem redirectCalls_redirect (rhost : Option CString) (eport : UInt16) (iaddr : CString)
    (iport : UInt16) (protocol : CString) (desc : Option CString) (leaseduration : Nat) :
    redirectCalls (upnpRedirect env rhost eport iaddr iport protocol desc leaseduration d).2 =
      redirectCalls d ++
        [{ rhost, proto := protoAtoi protocol, eport, iaddr, iport, desc, leaseduration }] := by
  have asked : redirectCalls
      (d.record (.upnpRedirect rhost eport iaddr iport protocol desc leaseduration)) =
      redirectCalls d ++
        [{ rhost, proto := protoAtoi protocol, eport, iaddr, iport, desc, leaseduration }] := by
    simp [redirectCalls, redirectCall]
  unfold upnpRedirect
  dsimp only
  split
  · exact asked
  · split
    · have looked : ∀ (d : Daemon), redirectCalls (d.lookup eport (protoAtoi protocol)).2 =
          redirectCalls d := fun d => rfl
      split
      · rw [redirectCalls, renew_calls]
        exact asked
      · split
        · rw [looked, asked]
        · rw [redirectCalls_internal, looked, asked]
    · exact asked

theorem redirectCalls_mapping (l : Lease) (leaseduration timestamp : Nat) :
    redirectCalls (reloadMapping env l leaseduration timestamp d) =
      redirectCalls d ++
        [{ rhost := none, proto := protoAtoi l.proto, eport := l.eport, iaddr := l.iaddr
           iport := l.iport, desc := some l.desc, leaseduration }] := by
  rw [← @redirectCalls_redirect env]
  unfold reloadMapping redirectCalls
  dsimp only
  split
  · rw [fileAdd_calls]
  · rfl

theorem redirectCalls_line (line : CString) :
    redirectCalls (reloadLine env line d) =
      redirectCalls d ++ (lineCall env.clock line).toList := by
  unfold reloadLine lineCall reloadLease
  cases parseLeaseLine line with
  | none => simp
  | some l =>
    simp only [Option.bind_some]
    by_cases lasting : l.timestamp > 0
    · simp only [if_pos lasting]
      by_cases remaining : env.clock.leasefileUseRemainingTime = true
      · simp only [if_pos remaining, redirectCalls_mapping, Option.map_some, Option.toList_some]
      · simp only [if_neg remaining]
        by_cases expired : l.timestamp ≤ env.clock.unixTime % 2 ^ 32
        · simp only [if_pos expired, Option.map_none, Option.toList_none, List.append_nil]
        · simp only [if_neg expired, redirectCalls_mapping, Option.map_some, Option.toList_some]
    · simp only [if_neg lasting, redirectCalls_mapping, Option.map_some, Option.toList_some]

theorem redirectCalls_lines (lines : List CString) :
    redirectCalls (lines.foldl (fun d line => reloadLine env line d) d) =
      redirectCalls d ++ lines.filterMap (lineCall env.clock) := by
  induction lines generalizing d with
  | nil => simp
  | cons line lines ih =>
    rw [List.foldl_cons, ih, redirectCalls_line, List.append_assoc]
    cases called : lineCall env.clock line with
    | none => simp [called]
    | some call => simp [called]

end calls

section texts
variable {s t : CString}

/-- The characters that no trimming takes away. -/
def solid (s : CString) : Nat := s.countP fun c => !isspace c

theorem solid_append (s t : CString) : solid (s ++ t) = solid s + solid t := List.countP_append

theorem solid_cons (c : Char) (s : CString) (visible : isspace c = false) :
    solid (c :: s) = solid s + 1 := by
  simp [solid, visible]

theorem solid_zero_iff : solid s = 0 ↔ s.all isspace = true := by
  simp [solid, List.countP_eq_zero]

theorem solid_dropWhile (s : CString) : solid (s.dropWhile isspace) = solid s := by
  induction s with
  | nil => rfl
  | cons c s ih =>
    by_cases space : isspace c = true
    · rw [List.dropWhile_cons_of_pos space, ih]
      simp [solid, space]
    · rw [List.dropWhile_cons_of_neg space]

theorem solid_reverse (s : CString) : solid s.reverse = solid s := List.countP_reverse

theorem solid_trim (s : CString) : solid (trim s) = solid s := by
  rw [trim, List.rdropWhile, solid_reverse, solid_dropWhile, solid_reverse, solid_dropWhile]

theorem rdropWhile_append (s : CString) (blank : t.all isspace = true) :
    (s ++ t).rdropWhile isspace = s.rdropWhile isspace := by
  rw [List.rdropWhile, List.rdropWhile, List.reverse_append,
    List.dropWhile_append_of_pos (by simpa using blank)]

/-- White space at the end goes with the trimming. -/
theorem trim_append (s : CString) (blank : t.all isspace = true) : trim (s ++ t) = trim s := by
  unfold trim
  by_cases empty : s.all isspace = true
  · have left : s.dropWhile isspace = [] := by
      rw [List.dropWhile_eq_nil_iff]
      simpa using empty
    have both : (s ++ t).dropWhile isspace = [] := by
      rw [List.dropWhile_eq_nil_iff]
      simp only [List.all_eq_true] at empty blank
      intro c member
      rcases List.mem_append.mp member with first | second
      · exact empty c first
      · exact blank c second
    rw [left, both]
  · have kept : (s ++ t).dropWhile isspace = s.dropWhile isspace ++ t := by
      rw [List.dropWhile_append]
      have some : (s.dropWhile isspace).isEmpty = false := by
        simp only [List.isEmpty_eq_false_iff, ne_eq, List.dropWhile_eq_nil_iff]
        simpa using empty
      rw [some]
      rfl
    rw [kept, rdropWhile_append _ blank]

/-- Five colons do not go into the description. -/
theorem solid_parsed {l : Lease} (parsed : parseLeaseLine s = some l) : solid l.desc + 5 ≤ solid s := by
  have colon : isspace ':' = false := by decide
  have cut : ∀ {s t u : CString}, cutColon s = some (t, u) → solid u + 1 ≤ solid s := by
    intro s t u here
    rw [cutColon_some here, solid_append, solid_cons _ _ colon]
    omega
  unfold parseLeaseLine at parsed
  simp only [Option.bind_eq_bind, Option.bind_eq_some_iff] at parsed
  obtain ⟨⟨_, _⟩, first, ⟨_, _⟩, second, ⟨_, _⟩, third, ⟨_, _⟩, fourth, ⟨_, _⟩, fifth, same⟩ := parsed
  obtain rfl := Option.some.inj same
  have one := cut first
  have two := cut second
  have three := cut third
  have four := cut fourth
  have five := cut fifth
  dsimp only at two three four five
  simp only [solid_trim]
  omega

theorem strtoul_utoa {n : Nat} (small : n < 2 ^ 64) : strtoul (utoa n) = n := by
  have whole := strtoul_utoa_append small [] (by simp)
  rwa [List.append_nil] at whole

theorem atous_utoa (port : UInt16) : atous (utoa port.toNat) = port := by
  have small := port.toNat_lt
  have value := @atoi_utoa port.toNat (by omega) [] (by simp)
  rw [List.append_nil] at value
  rw [atous, value]
  apply UInt16.toNat_inj.mp
  simp only [UInt16.ofInt, UInt16.toNat_ofNat']
  omega

end texts

section records
variable (clock : Clock) (r : Record)

/-- The fields of a mapping that a request has made. -/
structure Recorded : Prop where
  timestamp : r.timestamp < 2 ^ 32
  desc : '\x00' ∉ r.desc

/-- In Unix time. -/
def Record.expiry : Nat := r.timestamp - r.upnpTime + r.unixTime

/-- The lease had not run out when it was recorded, and has not at this time. Where the file
    stores remaining times, it does not while the daemon is away. -/
def Unexpired : Prop :=
  r.timestamp = 0 ∨ r.upnpTime < r.timestamp ∧
    (clock.leasefileUseRemainingTime = true ∨ clock.unixTime < r.expiry)

/-- What remains of the lease. -/
def Record.leaseAt : Nat :=
  if r.timestamp = 0 then 0
  else if clock.leasefileUseRemainingTime then r.timestamp - r.upnpTime
  else r.expiry - clock.unixTime

def expected : Reloaded :=
  { rhost := none, proto := r.proto, eport := r.eport, iaddr := inetNtoa r.client, iport := r.iport
    desc := some (trim r.desc), leaseduration := r.leaseAt clock }

/-- The protocol has a name, only white space of the description is left for further calls
    of `fgets`, and no 32 bits of Unix time end between now and the expiry. -/
def Safe : Prop :=
  r.proto ∈ [IPPROTO_TCP, IPPROTO_UDP, IPPROTO_UDPLITE] ∧
  (r.leftover clock.leasefileUseRemainingTime).all isspace = true ∧
  (r.timestamp = 0 ∨ clock.leasefileUseRemainingTime = true ∨
    r.expiry / 2 ^ 32 = clock.unixTime / 2 ^ 32)

instance : Decidable (Safe clock r) := by
  unfold Safe
  infer_instance

def results : List Reloaded :=
  (fgetsLines 128 (r.line clock.leasefileUseRemainingTime)).filterMap (lineCall clock)

def weight (call : Reloaded) : Nat := solid (call.desc.getD [])

end records

section records
variable {clock : Clock} {r : Record} {remaining : Bool}

theorem protoAtoi_protoItoa_iff (proto : Int) :
    protoAtoi (protoItoa proto) = proto ↔
      proto ∈ [IPPROTO_TCP, IPPROTO_UDP, IPPROTO_UDPLITE] := by
  simp only [List.mem_cons, List.not_mem_nil, or_false]
  constructor
  · intro same
    unfold protoItoa at same
    split at same
    · rename_i udp
      exact .inr (.inl udp)
    · split at same
      · rename_i tcp
        exact .inl tcp
      · split at same
        · rename_i lite
          exact .inr (.inr lite)
        · exact .inl (same.symm.trans (by decide))
  · rintro (rfl | rfl | rfl)
    · decide
    · decide
    · decide

theorem stored_lt (recorded : Recorded r) : r.stored remaining < 2 ^ 32 := by
  have small := recorded.timestamp
  unfold Record.stored storedTimestamp
  dsimp only
  split
  · omega
  · exact small

/-- The lease survives exactly if the 32 bits of the file are those of the clock. -/
theorem reloadLease_iff (unexpired : Unexpired clock r) (recorded : Recorded r) :
    reloadLease clock (r.stored clock.leasefileUseRemainingTime) = some (r.leaseAt clock) ↔
      r.timestamp = 0 ∨ clock.leasefileUseRemainingTime = true ∨
        r.expiry / 2 ^ 32 = clock.unixTime / 2 ^ 32 := by
  have small := recorded.timestamp
  unfold Record.stored storedTimestamp Record.leaseAt reloadLease Record.clock
  by_cases permanent : r.timestamp = 0
  · simp [permanent]
  · have lasting := unexpired.resolve_left permanent
    simp only [ne_eq, permanent, not_false_eq_true, ↓reduceIte, false_or]
    cases kind : clock.leasefileUseRemainingTime with
    | true =>
      simp only [↓reduceIte, true_or, iff_true]
      have value : (((r.timestamp : Int) - r.upnpTime) % 2 ^ 32).toNat = r.timestamp - r.upnpTime := by
        omega
      rw [value, if_pos (by omega)]
    | false =>
      simp only [kind, Bool.false_eq_true, false_or] at lasting
      simp only [Bool.false_eq_true, ↓reduceIte, false_or]
      obtain ⟨ahead, later⟩ := lasting
      have value : (((r.timestamp : Int) - r.upnpTime + r.unixTime) % 2 ^ 32).toNat =
          r.expiry % 2 ^ 32 := by
        unfold Record.expiry
        omega
      rw [value]
      generalize r.expiry = expiry at later ⊢
      constructor
      · intro same
        split at same
        · split at same
          · simp at same
          · rename_i ahead'
            have lease := Option.some.inj same
            omega
        · have lease := Option.some.inj same
          omega
      · intro era
        rw [if_pos (by omega), if_neg (by omega)]
        congr 1
        omega

theorem inetNtoa_chars (a : InAddr) : ∀ c ∈ inetNtoa a, c.isDigit = true ∨ c = '.' := by
  intro c member
  simp only [inetNtoa, List.mem_append, List.mem_cons] at member
  rcases member with digit | rfl | digit | rfl | digit | rfl | digit
  · exact .inl (utoa_digits _ c digit)
  · exact .inr rfl
  · exact .inl (utoa_digits _ c digit)
  · exact .inr rfl
  · exact .inl (utoa_digits _ c digit)
  · exact .inr rfl
  · exact .inl (utoa_digits _ c digit)

theorem address_chars (a : InAddr) : ∀ c ∈ inetNtoa a, c ≠ ':' ∧ c ≠ '\n' ∧ c ≠ '\x00' := by
  intro c member
  rcases inetNtoa_chars a c member with digit | rfl
  · refine ⟨?_, ?_, ?_⟩
    · rintro rfl
      exact absurd digit (by decide)
    · rintro rfl
      exact absurd digit (by decide)
    · rintro rfl
      exact absurd digit (by decide)
  · decide

theorem head_chars (r : Record) : ∀ c ∈ r.head remaining, c ≠ '\n' ∧ c ≠ '\x00' := by
  intro c member
  simp only [Record.head, List.mem_append, List.mem_cons, List.not_mem_nil, or_false] at member
  rcases member with ((((proto | rfl | port) | rfl | host) | rfl | port) | rfl | time) | rfl
  · exact (protoItoa_chars _ c proto).2
  · decide
  · exact (utoa_chars _ c port).2
  · decide
  · exact (address_chars _ c host).2
  · decide
  · exact (utoa_chars _ c port).2
  · decide
  · exact (utoa_chars _ c time).2
  · decide

theorem head_length (recorded : Recorded r) : (r.head remaining).length ≤ 49 := by
  have protocol : (protoItoa r.proto).length ≤ 9 := by
    unfold protoItoa
    split
    · decide
    · split
      · decide
      · split
        · decide
        · decide
  have eport : (utoa r.eport.toNat).length ≤ 5 := by
    have small := r.eport.toNat_lt
    exact utoa_length (by decide) (by omega)
  have iport : (utoa r.iport.toNat).length ≤ 5 := by
    have small := r.iport.toNat_lt
    exact utoa_length (by decide) (by omega)
  have time : (utoa (r.stored remaining)).length ≤ 10 := by
    have small := @stored_lt r remaining recorded
    exact utoa_length (by decide) (by omega)
  have host := inetNtoa_length r.client
  simp only [Record.head, List.length_append, List.length_cons, List.length_nil]
  omega

theorem pieces_append (remaining : Bool) (r : Record) :
    r.firstPiece remaining ++ r.leftover remaining = r.desc ++ ['\n'] :=
  fgets_append _ _

theorem desc_plain (recorded : Recorded r) : '\x00' ∉ r.desc ++ ['\n'] := by
  intro member
  rcases List.mem_append.mp member with inside | newline
  · exact recorded.desc inside
  · exact absurd newline (by decide)

/-- The pieces that the line of a record is read in. -/
theorem record_lines (recorded : Recorded r) :
    fgetsLines 128 (r.line remaining) =
      (r.head remaining ++ r.firstPiece remaining) :: fgetsLines 128 (r.leftover remaining) := by
  have newline : '\n' ∉ r.head remaining := fun member => (head_chars r _ member).1 rfl
  have some : r.line remaining ≠ [] := by simp [Record.line]
  have read : fgets (128 - 2 + 1) (r.line remaining) =
      (r.head remaining ++ r.firstPiece remaining, r.leftover remaining) := by
    rw [Record.line, List.append_assoc]
    exact fgets_front newline (Nat.le_trans (head_length recorded) (by decide)) _
  rw [fgetsLines_cons 128 some, read]
  congr 1
  rw [List.takeWhile_eq_self_iff]
  intro c member
  have whole := pieces_append remaining r
  simp only [ne_eq, decide_not, Bool.not_eq_eq_eq_not, Bool.not_true, decide_eq_false_iff_not]
  rcases List.mem_append.mp member with first | second
  · exact (head_chars r c first).2
  · rintro rfl
    apply desc_plain recorded
    rw [← whole]
    exact List.mem_append_left _ second

theorem head_parsed (recorded : Recorded r) (piece : CString) :
    parseLeaseLine (r.head remaining ++ piece) =
      some { proto := protoItoa r.proto, eport := r.eport, iaddr := inetNtoa r.client
             iport := r.iport, timestamp := r.stored remaining, desc := trim piece } := by
  have small := @stored_lt r remaining recorded
  have protocol : ':' ∉ protoItoa r.proto := fun member => (protoItoa_chars _ _ member).1 rfl
  have number : ∀ n, ':' ∉ utoa n := fun n member => (utoa_chars n _ member).1 rfl
  have host : ':' ∉ inetNtoa r.client := fun member => (address_chars _ _ member).1 rfl
  have whole : r.head remaining ++ piece =
      protoItoa r.proto ++ ':' :: (utoa r.eport.toNat ++ ':' :: (inetNtoa r.client ++
        ':' :: (utoa r.iport.toNat ++ ':' :: (utoa (r.stored remaining) ++ ':' :: piece)))) := by
    simp [Record.head]
  rw [whole]
  unfold parseLeaseLine
  simp only [cutColon_append protocol, cutColon_append (number _), cutColon_append host,
    Option.bind_eq_bind, Option.bind_some, atous_utoa, strtoul_utoa (Nat.lt_trans small (by decide)),
    Nat.mod_eq_of_lt small]

theorem head_call (recorded : Recorded r) (piece : CString) :
    lineCall clock (r.head remaining ++ piece) =
      (reloadLease clock (r.stored remaining)).map fun leaseduration =>
        { rhost := none, proto := protoAtoi (protoItoa r.proto), eport := r.eport
          iaddr := inetNtoa r.client, iport := r.iport, desc := some (trim piece)
          leaseduration } := by
  rw [lineCall, head_parsed recorded]
  rfl

theorem lineCall_weight {line : CString} {call : Reloaded} (called : lineCall clock line = some call) :
    weight call + 5 ≤ solid line := by
  obtain ⟨l, parsed, lease⟩ := Option.bind_eq_some_iff.mp called
  obtain ⟨_, _, rfl⟩ := Option.map_eq_some_iff.mp lease
  exact solid_parsed parsed

/-- Each call takes five colons from the lines. -/
theorem lines_weight (lines : List CString) :
    ((lines.filterMap (lineCall clock)).map weight).sum + 5 * (lines.filterMap (lineCall clock)).length ≤
      solid lines.flatten := by
  induction lines with
  | nil => simp [solid]
  | cons line lines ih =>
    rw [List.flatten_cons, solid_append]
    cases called : lineCall clock line with
    | none =>
      rw [List.filterMap_cons_none called]
      omega
    | some call =>
      have heavy := lineCall_weight called
      rw [List.filterMap_cons_some called]
      simp only [List.map_cons, List.sum_cons, List.length_cons]
      omega

theorem solid_pieces (remaining : Bool) (r : Record) :
    solid (r.firstPiece remaining) + solid (r.leftover remaining) = solid r.desc := by
  have whole := congrArg solid (pieces_append remaining r)
  rw [solid_append, solid_append] at whole
  have newline : solid ['\n'] = 0 := by decide
  omega

theorem leftover_plain (recorded : Recorded r) : '\x00' ∉ r.leftover remaining := by
  intro member
  apply desc_plain recorded
  rw [← pieces_append remaining r]
  exact List.mem_append_right _ member

/-- The call for the first piece, if there is one, then those for what is left over. -/
theorem results_eq (recorded : Recorded r) :
    results clock r =
      (lineCall clock (r.head clock.leasefileUseRemainingTime ++
          r.firstPiece clock.leasefileUseRemainingTime)).toList ++
        (fgetsLines 128 (r.leftover clock.leasefileUseRemainingTime)).filterMap (lineCall clock) := by
  rw [results, record_lines recorded]
  cases called : lineCall clock (r.head clock.leasefileUseRemainingTime ++
      r.firstPiece clock.leasefileUseRemainingTime) with
  | none => rw [List.filterMap_cons_none called, Option.toList_none, List.nil_append]
  | some call => rw [List.filterMap_cons_some called, Option.toList_some, List.singleton_append]

theorem leftover_weight (recorded : Recorded r) :
    (((fgetsLines 128 (r.leftover remaining)).filterMap (lineCall clock)).map weight).sum +
      5 * ((fgetsLines 128 (r.leftover remaining)).filterMap (lineCall clock)).length ≤
      solid (r.leftover remaining) := by
  have heavy := @lines_weight clock (fgetsLines 128 (r.leftover remaining))
  rwa [flatten_fgetsLines 128 (leftover_plain recorded)] at heavy

theorem first_weight (recorded : Recorded r) :
    ((lineCall clock (r.head remaining ++ r.firstPiece remaining)).toList.map weight).sum ≤
      solid (r.firstPiece remaining) := by
  rw [head_call recorded]
  cases reloadLease clock (r.stored remaining) with
  | none => simp
  | some lease => simp [weight, solid_trim]

/-- All calls for a record together have no more than its description, and one of them
    alone has as much. -/
theorem results_weight (recorded : Recorded r) :
    ((results clock r).map weight).sum ≤ weight (expected clock r) ∧
      (((results clock r).map weight).sum = weight (expected clock r) →
        (fgetsLines 128 (r.leftover clock.leasefileUseRemainingTime)).filterMap (lineCall clock) =
          []) := by
  have first := @first_weight clock r clock.leasefileUseRemainingTime recorded
  have rest := @leftover_weight clock r clock.leasefileUseRemainingTime recorded
  have whole := solid_pieces clock.leasefileUseRemainingTime r
  have goal : weight (expected clock r) = solid r.desc := by
    simp only [weight, expected, Option.getD_some, solid_trim]
  rw [results_eq recorded, List.map_append, List.sum_append, goal]
  constructor
  · omega
  · intro equal
    apply List.eq_nil_of_length_eq_zero
    omega

/-- A record is read back as it was exactly if it is safe. -/
theorem results_iff (recorded : Recorded r) (unexpired : Unexpired clock r) :
    results clock r = [expected clock r] ↔ Safe clock r := by
  have whole := pieces_append clock.leasefileUseRemainingTime r
  have counts := solid_pieces clock.leasefileUseRemainingTime r
  have lease := reloadLease_iff unexpired recorded
  have first := @head_call clock r clock.leasefileUseRemainingTime recorded
    (r.firstPiece clock.leasefileUseRemainingTime)
  constructor
  · intro same
    have alone := (@results_weight clock r recorded).2 (by rw [same]; simp)
    rw [results_eq recorded, alone, List.append_nil, first] at same
    obtain ⟨duration, here, call⟩ : ∃ duration,
        reloadLease clock (r.stored clock.leasefileUseRemainingTime) = some duration ∧
          Reloaded.mk none (protoAtoi (protoItoa r.proto)) r.eport (inetNtoa r.client) r.iport
            (some (trim (r.firstPiece clock.leasefileUseRemainingTime))) duration =
            expected clock r := by
      cases here : reloadLease clock (r.stored clock.leasefileUseRemainingTime) with
      | none => simp [here] at same
      | some duration =>
        rw [here, Option.map_some, Option.toList_some, List.singleton_inj] at same
        exact ⟨duration, rfl, same⟩
    have proto : protoAtoi (protoItoa r.proto) = r.proto := congrArg Reloaded.proto call
    have desc := congrArg weight call
    have duration' : duration = r.leaseAt clock := congrArg Reloaded.leaseduration call
    simp only [weight, expected, Option.getD_some, solid_trim] at desc
    refine ⟨(protoAtoi_protoItoa_iff _).mp proto, ?_, lease.mp (duration' ▸ here)⟩
    apply solid_zero_iff.mp
    omega
  · rintro ⟨proto, blank, era⟩
    have nothing : (fgetsLines 128 (r.leftover clock.leasefileUseRemainingTime)).filterMap
        (lineCall clock) = [] := by
      have heavy := @leftover_weight clock r clock.leasefileUseRemainingTime recorded
      rw [solid_zero_iff.mpr blank] at heavy
      apply List.eq_nil_of_length_eq_zero
      omega
    have text : trim (r.firstPiece clock.leasefileUseRemainingTime) = trim r.desc := by
      rw [← trim_append _ blank, whole, trim_append r.desc (by decide)]
    rw [results_eq recorded, nothing, first, lease.mpr era, (protoAtoi_protoItoa_iff _).mpr proto, text]
    rfl

end records

section reload
variable {env : Env} {records : List Record}

theorem line_ended (remaining : Bool) (r : Record) : Ended (r.line remaining) :=
  ⟨r.head remaining ++ r.desc, rfl⟩

theorem content_lines (remaining : Bool) (records : List Record) :
    fgetsLines 128 (records.flatMap (Record.line remaining)) =
      records.flatMap fun r => fgetsLines 128 (r.line remaining) :=
  fgetsLines_flatMap 128 (line_ended remaining) records

/-- The calls that a restart makes are those for the lines of each record in turn. -/
theorem reload_calls (enabled : env.enableLeasefile = true) (d : Daemon)
    (file : d.leaseFile = recordAll env.clock.leasefileUseRemainingTime records) :
    redirectCalls (reloadFromLeaseFile env d.fresh).2 = records.flatMap (results env.clock) := by
  have content := recordAll_content env.clock.leasefileUseRemainingTime records
  have same : d.fresh.leaseFile = recordAll env.clock.leasefileUseRemainingTime records := file
  unfold reloadFromLeaseFile
  rw [if_pos enabled, same]
  cases written : recordAll env.clock.leasefileUseRemainingTime records with
  | none =>
    rw [written, Option.getD_none] at content
    cases records with
    | nil => rfl
    | cons r records => simp [List.flatMap_cons, Record.line] at content
  | some text =>
    rw [written, Option.getD_some] at content
    dsimp only
    rw [redirectCalls_lines, content, content_lines, List.filterMap_flatMap]
    rfl

/-- Every mapping comes back, once and in order, exactly if every record is safe. -/
theorem reloaded_iff (enabled : env.enableLeasefile = true) (d : Daemon)
    (recorded : ∀ r ∈ records, Recorded r) (unexpired : ∀ r ∈ records, Unexpired env.clock r)
    (file : d.leaseFile = recordAll env.clock.leasefileUseRemainingTime records) :
    redirectCalls (reloadFromLeaseFile env d.fresh).2 = records.map (expected env.clock) ↔
      ∀ r ∈ records, Safe env.clock r := by
  rw [reload_calls enabled d file, flatMap_eq_map_iff weight]
  · constructor
    · intro each r member
      exact (results_iff (recorded r member) (unexpired r member)).mp (each r member)
    · intro safe r member
      exact (results_iff (recorded r member) (unexpired r member)).mpr (safe r member)
  · intro r member
    exact (results_weight (recorded r member)).1
  · intro r member equal
    have alone := (results_weight (recorded r member)).2 equal
    rw [results_eq (recorded r member), alone, List.append_nil]
    cases lineCall env.clock _ <;> simp

end reload

/-- A build with the lease file, which stores Unix times. -/
def plainLeases (now unixNow : Nat) : Env :=
  { Env.plain now with
    enableLeasefile := true
    clock := { upnpTime := now, unixTime := unixNow, leasefileUseRemainingTime := false } }

/-- Made at time 1000, for an hour. -/
def hourRecord (desc : CString) : Record :=
  { proto := IPPROTO_TCP, eport := 8080, client := ofBytes 192 168 0 2, iport := 80, desc
    timestamp := 4600, upnpTime := 1000, unixTime := 1700000000 }

def kept : List Record := [hourRecord " web: a, b ".toList, { hourRecord [] with timestamp := 0 }]

/-- The daemon after a restart, with what it has recorded before. -/
def restarted (records : List Record) : Daemon := Daemon.start (recordAll false records)

theorem reloaded_kept :
    redirectCalls (reloadFromLeaseFile (plainLeases 50 1700001000) (restarted kept).fresh).2 =
        kept.map (expected (plainLeases 50 1700001000).clock) ↔
      ∀ r ∈ kept, Safe (plainLeases 50 1700001000).clock r := by
  apply reloaded_iff rfl (restarted kept)
  · intro r member
    simp only [kept, List.mem_cons, List.not_mem_nil, or_false] at member
    rcases member with rfl | rfl
    · exact ⟨by decide, by decide⟩
    · exact ⟨by decide, by decide⟩
  · intro r member
    simp only [kept, List.mem_cons, List.not_mem_nil, or_false] at member
    rcases member with rfl | rfl
    · exact .inr ⟨by decide, .inr (by decide)⟩
    · exact .inl rfl
  · rfl

/-- A description with a newline and a line of its own. -/
def injected : List Record := [hourRecord "web\nTCP:22:192.168.0.9:22:0:ssh".toList]

theorem injected_mapping_reloaded :
    (∀ r ∈ injected, Recorded r ∧ Unexpired (plainLeases 50 1700001000).clock r) ∧
      redirectCalls (reloadFromLeaseFile (plainLeases 50 1700001000) (restarted injected).fresh).2 ≠
        injected.map (expected (plainLeases 50 1700001000).clock) := by
  constructor
  · intro r member
    simp only [injected, List.mem_cons, List.not_mem_nil, or_false] at member
    subst member
    exact ⟨⟨by decide, by decide⟩, .inr ⟨by decide, .inr (by decide)⟩⟩
  · decide +kernel

end LeaseReload
