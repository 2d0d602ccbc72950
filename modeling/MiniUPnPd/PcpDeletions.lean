import MiniUPnPd.PcpChanges
import MiniUPnPd.PcpPinholes

/-!
The removal of mappings and pinholes by PCP. It looks for the first one of the client with the
protocol and the internal port, and goes no further than that.
-/
namespace PcpDeletions
open CText FirstMatch Inet Iptc Iptcrdr Iptpinhole Mappings PcpChanges PcpPinholes PcpRequests
  PcpServer UpnpRedirect UpnpRedirectSpec

section lists
variable {α : Type*}

/-- None of a table is asked for, or only one: none of the client is in front of it, and to remove
    it works. -/
def FirstAndOnly (client asked : α → Bool) (works : List α → α → Prop) (l : List α) : Prop :=
  (∀ a ∈ l, asked a = false) ∨ ∃ front a back, l = front ++ a :: back ∧ asked a = true ∧
    (∀ b ∈ front, client b = false) ∧ (∀ b ∈ back, asked b = false) ∧ works front a

theorem firstAndOnly_congr {client asked : α → Bool} {works works' : List α → α → Prop}
    {l : List α} (same : ∀ front a back, l = front ++ a :: back → (works front a ↔ works' front a)) :
    FirstAndOnly client asked works l ↔ FirstAndOnly client asked works' l := by
  unfold FirstAndOnly
  apply or_congr_right
  constructor
  · intro one
    obtain ⟨front, a, back, whole, wanted, unclaimed, rest, performed⟩ := one
    exact ⟨front, a, back, whole, wanted, unclaimed, rest, (same front a back whole).mp performed⟩
  · intro one
    obtain ⟨front, a, back, whole, wanted, unclaimed, rest, performed⟩ := one
    exact ⟨front, a, back, whole, wanted, unclaimed, rest, (same front a back whole).mpr performed⟩

/-- A search for the first of the client, that removes it if it is asked for. -/
structure Search (client asked : α → Bool) (key : α → α → Bool) (works : List α → α → Prop)
    (l l' : List α) : Prop where
  clients : ∀ a, asked a = true → client a = true
  self : ∀ a ∈ l, key a a = true
  absent : (∀ a ∈ l, client a = false) → l' = l
  removed : ∀ front a back, l = front ++ a :: back → (∀ b ∈ front, client b = false) →
    client a = true → asked a = true → works front a → l' = l.eraseP (key a)
  left : ∀ front a back, l = front ++ a :: back → (∀ b ∈ front, client b = false) →
    client a = true → ¬ (asked a = true ∧ works front a) → l' = l

theorem search_exact {client asked : α → Bool} {key : α → α → Bool} {works : List α → α → Prop}
    {l l' : List α} (search : Search client asked key works l l') :
    l' = l.filter (fun a => !asked a) ↔
      FirstAndOnly client asked (fun front a => works front a ∧ ∀ b ∈ front, key a b = false) l := by
  have others : ∀ front : List α, (∀ b ∈ front, client b = false) →
      ∀ b ∈ front, asked b = false := by
    intro front unclaimed b inside
    by_contra wanted
    have claimed := search.clients b (Bool.eq_true_of_not_eq_false wanted)
    rw [unclaimed b inside] at claimed
    cases claimed
  have nothing : l = l.filter (fun a => !asked a) ↔ ∀ a ∈ l, asked a = false := by
    rw [eq_comm, List.filter_eq_self]
    simp
  constructor
  · intro same
    cases first : l.find? client with
    | none =>
      left
      apply others
      simpa using first
    | some a =>
      obtain ⟨claimed, front, back, whole, before⟩ := List.find?_eq_some_iff_append.mp first
      have unclaimed : ∀ b ∈ front, client b = false := by simpa using before
      by_cases goes : asked a = true ∧ works front a
      · obtain ⟨wanted, performed⟩ := goes
        have hit : key a a = true := search.self a (by simp [whole])
        rw [search.removed front a back whole unclaimed claimed wanted performed, whole,
          eraseP_eq_filter_iff wanted hit (others front unclaimed)] at same
        exact .inr ⟨front, a, back, whole, wanted, unclaimed, same.2, performed, same.1⟩
      · rw [search.left front a back whole unclaimed claimed goes] at same
        exact .inl (nothing.mp same)
  · intro only
    rcases only with none | ⟨front, a, back, whole, wanted, unclaimed, rest, performed, apart⟩
    · have unasked : l' = l := by
        cases first : l.find? client with
        | none =>
          apply search.absent
          simpa using first
        | some a =>
          obtain ⟨claimed, front, back, whole, before⟩ := List.find?_eq_some_iff_append.mp first
          apply search.left front a back whole (by simpa using before) claimed
          intro goes
          have unwanted := none a (by simp [whole])
          rw [goes.1] at unwanted
          cases unwanted
      rw [unasked]
      exact nothing.mpr none
    · have claimed := search.clients a wanted
      have hit : key a a = true := search.self a (by simp [whole])
      rw [search.removed front a back whole unclaimed claimed wanted performed, whole,
        eraseP_eq_filter_iff wanted hit (others front unclaimed)]
      exact ⟨apart, rest⟩

end lists

section mappings
variable (info : PcpInfo) (nf : Netfilter)

def clientsRule (e : IptEntry) : Bool :=
  isClients info (readRule nf e).iaddr (readRule nf e).iport (readRule nf e).proto

/-- The rule of a mapping that the request asks to remove. -/
def askedRule (e : IptEntry) : Bool := clientsRule info nf e && (readRule nf e).desc = info.desc

/-- The calls of libiptc that a removal takes after the mappings in front of it have been read. -/
def callsRemove (front : List IptEntry) : Prop :=
  callsSucceed (2 * (front.length + 1) + 5) nf.iptcResults = true

end mappings

section search
variable {info : PcpInfo} {front back : List IptEntry} {e : IptEntry}

theorem byIndex_done {index : Nat} {nf : Netfilter} (here : (nf.chain .nat)[index]? = some e)
    (done : callsSucceed 2 nf.iptcResults = true) :
    getRedirectRuleByIndex index nf =
      (some (readRule nf e), nf.withResults (nf.iptcResults.drop 2)) := by
  have within : 0 ≤ (index : Int) := Int.natCast_nonneg index
  simp only [getRedirectRuleByIndex, iptcCalls_done done, within, and_self, ↓reduceIte,
    Int.toNat_natCast, chain_withResults, here, Option.map_some]
  rfl

theorem byIndex_failed {index : Nat} {nf : Netfilter}
    (failed : callsSucceed 2 nf.iptcResults = false) :
    (getRedirectRuleByIndex index nf).1 = none := by
  obtain ⟨results, calls⟩ := iptcCalls_failed failed
  simp [getRedirectRuleByIndex, calls]

theorem drop_at {index : Nat} {l : List IptEntry} {rest : List IptEntry}
    (whole : l.drop index = e :: rest) : l[index]? = some e ∧ l.drop (index + 1) = rest := by
  constructor
  · have first := congrArg List.head? whole
    rw [List.head?_drop] at first
    exact first
  · have others := congrArg List.tail whole
    rw [List.tail_drop] at others
    exact others

/-- One round of the search, at a rule that can be read. -/
theorem findMapping_read {index : Nat} {d : Daemon} (fuel : Nat)
    (here : (d.nf.chain .nat)[index]? = some e) (done : callsSucceed 2 d.nf.iptcResults = true) :
    findMapping info (fuel + 1) index d =
      let next := d.withNf (d.nf.withResults (d.nf.iptcResults.drop 2))
      if clientsRule info d.nf e then (some (readRule d.nf e), next)
      else findMapping info fuel (index + 1) next := by
  rw [findMapping, byIndex_done here done]
  rfl

theorem findMapping_unread {index : Nat} {d : Daemon} (fuel : Nat)
    (failed : callsSucceed 2 d.nf.iptcResults = false) :
    (findMapping info fuel index d).1 = none := by
  cases fuel with
  | zero => rfl
  | succ fuel =>
    have stopped := @byIndex_failed index d.nf failed
    unfold findMapping
    rcases seen : getRedirectRuleByIndex index d.nf with ⟨_ | rule, nf⟩
    · rfl
    · rw [seen] at stopped
      cases stopped

theorem calls_cons (f : IptEntry) (front : List IptEntry) :
    2 * ((f :: front).length + 1) = 2 + 2 * (front.length + 1) := by
  rw [List.length_cons]
  omega

/-- The search from an index that has this much of the table behind it. -/
theorem findMapping_reached {fuel index : Nat} {d : Daemon}
    (whole : (d.nf.chain .nat).drop index = front ++ e :: back)
    (unclaimed : ∀ f ∈ front, clientsRule info d.nf f = false)
    (claimed : clientsRule info d.nf e = true) (enough : front.length < fuel)
    (done : callsSucceed (2 * (front.length + 1)) d.nf.iptcResults = true) :
    findMapping info fuel index d = (some (readRule d.nf e),
      d.withNf (d.nf.withResults (d.nf.iptcResults.drop (2 * (front.length + 1))))) := by
  induction front generalizing fuel index d with
  | nil =>
    obtain ⟨fuel, rfl⟩ : ∃ n, fuel = n + 1 := ⟨fuel - 1, by omega⟩
    rw [findMapping_read fuel (drop_at whole).1 done]
    simp only [claimed, ↓reduceIte]
    rfl
  | cons f front ih =>
    obtain ⟨fuel, rfl⟩ : ∃ n, fuel = n + 1 := ⟨fuel - 1, by omega⟩
    obtain ⟨here, rest⟩ := drop_at whole
    have other : clientsRule info d.nf f = false := unclaimed f List.mem_cons_self
    have later : ∀ g ∈ front, clientsRule info d.nf g = false :=
      fun g inside => unclaimed g (List.mem_cons_of_mem f inside)
    rw [List.length_cons] at enough
    rw [calls_cons, callsSucceed_add, Bool.and_eq_true] at done
    have next := @ih fuel (index + 1) (d.withNf (d.nf.withResults (d.nf.iptcResults.drop 2)))
      rest later claimed (by omega) done.2
    rw [findMapping_read fuel here done.1]
    simp only [other, Bool.false_eq_true, ↓reduceIte]
    rw [next, calls_cons, ← List.drop_drop]
    rfl

theorem findMapping_failed {fuel index : Nat} {d : Daemon}
    (whole : (d.nf.chain .nat).drop index = front ++ e :: back)
    (unclaimed : ∀ f ∈ front, clientsRule info d.nf f = false)
    (failed : callsSucceed (2 * (front.length + 1)) d.nf.iptcResults = false) :
    (findMapping info fuel index d).1 = none := by
  induction front generalizing fuel index d with
  | nil => exact findMapping_unread fuel failed
  | cons f front ih =>
    rw [calls_cons, callsSucceed_add] at failed
    cases done : callsSucceed 2 d.nf.iptcResults with
    | false => exact findMapping_unread fuel done
    | true =>
      cases fuel with
      | zero => rfl
      | succ fuel =>
        obtain ⟨here, rest⟩ := drop_at whole
        have other : clientsRule info d.nf f = false := unclaimed f List.mem_cons_self
        have later : ∀ g ∈ front, clientsRule info d.nf g = false :=
          fun g inside => unclaimed g (List.mem_cons_of_mem f inside)
        rw [done, Bool.true_and] at failed
        rw [findMapping_read fuel here done]
        simp only [other, Bool.false_eq_true, ↓reduceIte]
        exact @ih fuel (index + 1) (d.withNf (d.nf.withResults (d.nf.iptcResults.drop 2)))
          rest later failed

end search

section removal
variable (env : PcpEnv) (info : PcpInfo) (d : Daemon)

theorem mappings_search (nat : info.isFw = false) :
    Search (clientsRule info d.nf) (askedRule info d.nf)
      (fun e => redirectMatches e.proto.toNat e.dpts.1) (fun front _ => callsRemove d.nf front)
      (d.nf.chain .nat) ((deletePCPMap env info d).2.nf.chain .nat) := by
  have same := @findMapping_same info ((d.nf.chain .nat).length + 1) 0 d
  constructor
  · intro e asked
    unfold askedRule at asked
    rw [Bool.and_eq_true] at asked
    exact asked.1
  · intro e _
    simp [redirectMatches]
  · intro unclaimed
    have hit := @findMapping_found info ((d.nf.chain .nat).length + 1) 0 d
    rw [deletePCPMap_nat nat]
    rcases seen : findMapping info ((d.nf.chain .nat).length + 1) 0 d with ⟨_ | rule, after⟩
    · rw [seen] at same
      exact same.1
    · rw [seen] at hit
      obtain ⟨listed, claimed⟩ := hit rfl
      obtain ⟨e, inside, rfl⟩ := List.mem_map.mp listed
      have other : clientsRule info d.nf e = true := claimed
      rw [unclaimed e inside] at other
      cases other
  · intro front e back whole unclaimed claimed asked calls
    unfold callsRemove at calls
    rw [callsSucceed_add, Bool.and_eq_true] at calls
    have enough : front.length < (d.nf.chain .nat).length + 1 := by
      rw [whole, List.length_append]
      omega
    have described : (readRule d.nf e).desc = info.desc := by
      unfold askedRule at asked
      rw [Bool.and_eq_true, decide_eq_true_eq] at asked
      exact asked.2
    have here : (d.nf.chain .nat).drop 0 = front ++ e :: back := whole
    rw [deletePCPMap_nat nat, findMapping_reached here unclaimed claimed enough calls.1]
    dsimp only
    rw [if_neg (not_not.mpr described)]
    obtain ⟨_, _, rules⟩ := upnpDeleteRedir_exact env.toEnv (readRule d.nf e).eport
      (readRule d.nf e).proto
      (d.withNf (d.nf.withResults (d.nf.iptcResults.drop (2 * (front.length + 1)))))
    exact rules.trans (if_pos calls.2)
  · intro front e back whole unclaimed claimed stays
    have enough : front.length < (d.nf.chain .nat).length + 1 := by
      rw [whole, List.length_append]
      omega
    have here : (d.nf.chain .nat).drop 0 = front ++ e :: back := whole
    rw [deletePCPMap_nat nat]
    cases reads : callsSucceed (2 * (front.length + 1)) d.nf.iptcResults with
    | false =>
      have stopped := @findMapping_failed info front back e ((d.nf.chain .nat).length + 1) 0 d
        here unclaimed reads
      rcases seen : findMapping info ((d.nf.chain .nat).length + 1) 0 d with ⟨_ | rule, after⟩
      · rw [seen] at same
        exact same.1
      · rw [seen] at stopped
        cases stopped
    | true =>
      rw [findMapping_reached here unclaimed claimed enough reads]
      dsimp only
      split
      · rfl
      · rename_i described
        have asked : askedRule info d.nf e = true := by
          unfold askedRule
          rw [claimed, Bool.true_and, decide_eq_true_eq]
          exact not_not.mp described
        have calls : ¬ callsSucceed 5 (d.nf.iptcResults.drop (2 * (front.length + 1))) = true := by
          intro removes
          apply stays
          refine ⟨asked, ?_⟩
          unfold callsRemove
          rw [callsSucceed_add, reads, removes]
          rfl
        obtain ⟨_, _, rules⟩ := upnpDeleteRedir_exact env.toEnv (readRule d.nf e).eport
          (readRule d.nf e).proto
          (d.withNf (d.nf.withResults (d.nf.iptcResults.drop (2 * (front.length + 1)))))
        exact rules.trans (if_neg calls)

end removal

section pinholes
variable (env : PinholeEnv) (info : PcpInfo) (fw : Firewall)

def pinholeInfo (p : PinholeT) : Pinhole :=
  { uid := p.uid, iaddr := env.inetNtop6 p.daddr, iport := p.dport, proto := p.proto.toNat
    desc := p.desc }

def clientsPinhole (p : PinholeT) : Bool :=
  isClients info (env.inetNtop6 p.daddr) p.dport p.proto.toNat

def askedPinhole (p : PinholeT) : Bool := clientsPinhole env info p && p.desc = info.desc

/-- The calls of libip6tc that a removal takes, fewer when the chain has no rule for the
    pinhole. -/
def callsForget (p : PinholeT) : Prop :=
  callsSucceed 2 fw.ip6tcResults = true ∧
    ((fw.chain.find? (ruleMatches p)).isSome = true → callsSucceed 4 fw.ip6tcResults = true)

theorem pinholes_listed :
    (withFirewall env fw).pinholes = fw.pinholeList.map (pinholeInfo env) := by
  have all : ∀ p ∈ fw.pinholeList,
      upnpGetPinholeInfo env p.uid fw = some (pinholeInfo env p) := by
    intro p inside
    rw [upnpGetPinholeInfo, getPinhole_of_mem inside]
    rfl
  unfold withFirewall
  dsimp only
  rw [← List.filterMap_eq_map]
  exact List.filterMap_congr all

theorem ip6tcCalls_exact (n : Nat) (results : List Bool) :
    (ip6tcCalls n results).1 = callsSucceed n results ∧
      (callsSucceed n results = true → (ip6tcCalls n results).2 = results.drop n) := by
  induction n generalizing results with
  | zero => exact ⟨rfl, fun _ => rfl⟩
  | succ n ih =>
    cases results with
    | nil => exact ⟨rfl, fun _ => rfl⟩
    | cons done rest =>
      cases done with
      | false => exact ⟨rfl, fun all => by simp [callsSucceed] at all⟩
      | true =>
        obtain ⟨first, others⟩ := ih rest
        have tail : callsSucceed (n + 1) (true :: rest) = callsSucceed n rest := by
          simp [callsSucceed]
        rw [tail]
        exact ⟨first, others⟩

variable {fw}

theorem deletePinhole_exact {p : PinholeT} (inside : p ∈ fw.pinholeList) :
    (callsForget fw p → (deletePinhole p.uid fw).2.pinholeList =
      fw.pinholeList.eraseP fun q => q.uid = p.uid) ∧
    (¬ callsForget fw p → (deletePinhole p.uid fw).2.pinholeList = fw.pinholeList) := by
  obtain ⟨first, rest⟩ := ip6tcCalls_exact 2 fw.ip6tcResults
  unfold callsForget deletePinhole
  rw [getPinhole_of_mem inside]
  dsimp only [Firewall.called]
  rw [first]
  cases opened : callsSucceed 2 fw.ip6tcResults with
  | false => exact ⟨fun calls => by simp at calls, fun _ => rfl⟩
  | true =>
    rw [rest opened, if_pos rfl, ← findFirst_isSome_iff]
    cases rule : findFirst (ruleMatches p) fw.chain with
    | none => exact ⟨fun _ => rfl, fun calls => by simp at calls⟩
    | some found =>
      have both : callsSucceed 4 fw.ip6tcResults = callsSucceed 2 (fw.ip6tcResults.drop 2) := by
        rw [show 4 = 2 + 2 from rfl, callsSucceed_add, opened, Bool.true_and]
      dsimp only
      rw [(ip6tcCalls_exact 2 (fw.ip6tcResults.drop 2)).1, both]
      cases calls : callsSucceed 2 (fw.ip6tcResults.drop 2) with
      | false => exact ⟨fun removes => by simp at removes, fun _ => rfl⟩
      | true => exact ⟨fun _ => rfl, fun stays => by simp at stays⟩

theorem pinholes_search :
    Search (clientsPinhole env info) (askedPinhole env info) (fun p q => q.uid = p.uid)
      (fun _ p => callsForget fw p) fw.pinholeList (firewallDeleted env info fw).pinholeList := by
  have find : ∀ front p back, fw.pinholeList = front ++ p :: back →
      (∀ q ∈ front, clientsPinhole env info q = false) → clientsPinhole env info p = true →
      (withFirewall env fw).pinholes.find? (fun q => isClients info q.iaddr q.iport q.proto) =
        some (pinholeInfo env p) := by
    intro front p back whole unclaimed claimed
    have first : fw.pinholeList.find? (clientsPinhole env info) = some p := by
      apply List.find?_eq_some_iff_append.mpr
      exact ⟨claimed, front, back, whole, by simpa using unclaimed⟩
    rw [pinholes_listed, List.find?_map]
    exact congrArg (Option.map (pinholeInfo env)) first
  constructor
  · intro p asked
    unfold askedPinhole at asked
    rw [Bool.and_eq_true] at asked
    exact asked.1
  · intro p _
    simp
  · intro unclaimed
    have none : fw.pinholeList.find? (clientsPinhole env info) = none := by
      simpa using unclaimed
    have missing : (withFirewall env fw).pinholes.find?
        (fun q => isClients info q.iaddr q.iport q.proto) = Option.none := by
      rw [pinholes_listed, List.find?_map]
      exact congrArg (Option.map (pinholeInfo env)) none
    unfold firewallDeleted
    rw [missing]
  · intro front p back whole unclaimed claimed asked calls
    have described : p.desc = info.desc := by
      unfold askedPinhole at asked
      rw [Bool.and_eq_true, decide_eq_true_eq] at asked
      exact asked.2
    have inside : p ∈ fw.pinholeList := by simp [whole]
    unfold firewallDeleted
    rw [find front p back whole unclaimed claimed]
    dsimp only [pinholeInfo]
    rw [if_neg (not_not.mpr described)]
    exact (deletePinhole_exact inside).1 calls
  · intro front p back whole unclaimed claimed stays
    have inside : p ∈ fw.pinholeList := by simp [whole]
    unfold firewallDeleted
    rw [find front p back whole unclaimed claimed]
    dsimp only [pinholeInfo]
    split
    · rfl
    · rename_i described
      have asked : askedPinhole env info p = true := by
        unfold askedPinhole
        rw [claimed, Bool.true_and, decide_eq_true_eq]
        exact not_not.mp described
      exact (deletePinhole_exact inside).2 fun calls => stays ⟨asked, calls⟩

end pinholes

section server
variable (env : PinholeEnv) (info : PcpInfo) (s : Server)

/-- The server after `DeletePCPMap`. -/
def deleted : Server :=
  { daemon := (deletePCPMap (withFirewall env s.firewall) info s.daemon).2
    firewall := if info.isFw then firewallDeleted env info s.firewall else s.firewall }

/-- The mappings or pinholes that are asked for are removed, and no others. -/
def Removed (s' : Server) : Prop :=
  s'.daemon.nf.chain .nat = (s.daemon.nf.chain .nat).filter
      (fun e => info.isFw || !askedRule info s.daemon.nf e) ∧
    s'.firewall.pinholeList = s.firewall.pinholeList.filter
      fun p => !info.isFw || !askedPinhole env info p

/-- At most one is asked for, it is the first one of the client, and of a mapping it is also the
    first rule under its key. No call fails that the removal takes. -/
def Reached : Prop :=
  if info.isFw then
    FirstAndOnly (clientsPinhole env info) (askedPinhole env info)
      (fun _ p => callsForget s.firewall p) s.firewall.pinholeList
  else
    FirstAndOnly (clientsRule info s.daemon.nf) (askedRule info s.daemon.nf)
      (fun front e => callsRemove s.daemon.nf front ∧
        ∀ f ∈ front, redirectMatches e.proto.toNat e.dpts.1 f = false) (s.daemon.nf.chain .nat)

theorem pcp_removal_iff : Removed env info s (deleted env info s) ↔ Reached env info s := by
  unfold Removed Reached deleted
  cases kind : info.isFw with
  | false =>
    have exact := search_exact (mappings_search (withFirewall env s.firewall) info s.daemon kind)
    simpa using exact
  | true =>
    have exact := search_exact (@pinholes_search env info s.firewall)
    have apart : ∀ (front : List PinholeT) (p : PinholeT) (back : List PinholeT),
        s.firewall.pinholeList = front ++ p :: back →
        ∀ q ∈ front, decide (q.uid = p.uid) = false := by
      intro front p back whole q inside
      have distinct := s.firewall.distinct
      rw [whole, List.map_append, List.map_cons] at distinct
      have other := List.disjoint_of_nodup_append distinct (List.mem_map_of_mem inside)
      apply decide_eq_false
      intro same
      rw [same] at other
      exact other List.mem_cons_self
    have works := @firstAndOnly_congr PinholeT (clientsPinhole env info) (askedPinhole env info)
      _ _ _ fun front p back whole =>
        and_iff_left (a := callsForget s.firewall p) (apart front p back whole)
    rw [works] at exact
    rw [deletePCPMap_fw kind]
    simpa using exact

end server

def lanHost : In6Addr := v4Mapped (ofBytes 192 168 0 2)

/-- A host has mapped two of its ports with one nonce. -/
def twoMapped : Server :=
  [(mapRequest 7 lanHost 80 80 3600, lanHost), (mapRequest 7 lanHost 81 81 3600, lanHost)].foldl
    (serve (plainPinholes 1000)) Server.start

/-- The host asks to remove all of its TCP mappings. -/
theorem second_mapping_left :
    ∃ info, acceptedMap (plainPinholes 2000).toPcpEnv (mapRequest 7 lanHost 0 0 0) lanHost =
        some info ∧ info.lifetime = 0 ∧
      ¬ Removed (plainPinholes 2000) info twoMapped
        (deleted (plainPinholes 2000) info twoMapped) := by
  have request : (acceptedMap (plainPinholes 2000).toPcpEnv (mapRequest 7 lanHost 0 0 0)
      lanHost).map (fun info => (info.lifetime, info.isFw,
        ((deleted (plainPinholes 2000) info twoMapped).daemon.nf.chain .nat).any
          (askedRule info twoMapped.daemon.nf))) = some (0, false, true) := by decide +kernel
  obtain ⟨info, accepted, values⟩ := Option.map_eq_some_iff.mp request
  obtain ⟨removal, rest⟩ := Prod.mk.inj values
  obtain ⟨kind, still⟩ := Prod.mk.inj rest
  refine ⟨info, accepted, removal, ?_⟩
  intro removed
  obtain ⟨e, inside, asked⟩ := List.any_eq_true.mp still
  rw [removed.1] at inside
  have unasked := (List.mem_filter.mp inside).2
  rw [kind, asked] at unasked
  cases unasked

end PcpDeletions
