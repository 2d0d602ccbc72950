import MiniUPnPd.PcpChanges

/-!
What a PCP packet does to the mappings and pinholes of other hosts than its sender, when
THIRD_PARTY is not allowed. Pinholes are told apart by their address, so those of others
stay as they are. Redirections are told apart by their key, and so are the descriptions
with the expiry times; two hosts have redirections under one key once a lookup has failed.
-/
namespace PcpThirdParty
open DaemonRules FirstStop Mappings CText Inet Iptc Iptcrdr IptcrdrSpec Iptpinhole NatPmp NetBytes
  PcpChanges PcpMappings PcpPinholes PcpRequests PcpServer RuleKeys UpnpRedirect UpnpRedirectSpec

section mappings
variable {host : CString} {nf nf' nf'' : Netfilter} {eport : UInt16} {proto : Int}

def ofOther (host : CString) (e : IptEntry) : Bool := inetNtoa e.target.minIp ≠ host

/-- The redirections to other hosts. -/
def othersRules (host : CString) (nf : Netfilter) : List IptEntry := (nf.chain .nat).filter (ofOther host)

def othersMappings (host : CString) (nf : Netfilter) : List RedirectRule :=
  (mappings nf).filter fun rule => rule.iaddr ≠ host

/-- Another host has a redirection under the key. -/
def Shared (host : CString) (eport : UInt16) (proto : Int) (nf : Netfilter) : Prop :=
  ∃ rule ∈ othersMappings host nf, rule.eport = eport ∧ rule.proto = proto

/-- The description and the expiry below the first ones under the key. -/
def descBelow (eport : UInt16) (proto : Int) (nf : Netfilter) : CString × Nat :=
  getRedirectDesc eport proto (delRedirectDesc eport proto nf)

/-- The others' redirections read as before. -/
def ReadAlike (host : CString) (nf nf' : Netfilter) : Prop :=
  ∀ e ∈ othersRules host nf, getRedirectDesc e.dpts.1 e.proto.toNat nf' =
    getRedirectDesc e.dpts.1 e.proto.toNat nf

theorem othersMappings_eq (host : CString) (nf : Netfilter) :
    othersMappings host nf = (othersRules host nf).map (readRule nf) := by
  unfold othersMappings othersRules mappings
  rw [List.filter_map]
  rfl

theorem readRule_eq_iff (e : IptEntry) :
    readRule nf' e = readRule nf e ↔
      getRedirectDesc e.dpts.1 e.proto.toNat nf' = getRedirectDesc e.dpts.1 e.proto.toNat nf := by
  constructor
  · intro same
    exact Prod.ext (congrArg RedirectRule.desc same) (congrArg RedirectRule.timestamp same)
  · intro same
    simp only [readRule, same]

theorem othersMappings_iff (rules : othersRules host nf' = othersRules host nf) :
    othersMappings host nf' = othersMappings host nf ↔ ReadAlike host nf nf' := by
  rw [othersMappings_eq, othersMappings_eq, rules, List.map_inj_left]
  constructor
  · intro same e member
    exact (readRule_eq_iff e).mp (same e member)
  · intro same e member
    exact (readRule_eq_iff e).mpr (same e member)

theorem shared_iff : Shared host eport proto nf ↔
    ∃ e ∈ othersRules host nf, redirectMatches proto eport e = true := by
  unfold Shared
  rw [othersMappings_eq]
  constructor
  · rintro ⟨rule, member, port, protocol⟩
    obtain ⟨e, inside, rfl⟩ := List.mem_map.mp member
    exact ⟨e, inside, (redirectMatches_iff e).mpr ⟨protocol.symm, port.symm⟩⟩
  · rintro ⟨e, inside, hit⟩
    obtain ⟨protocol, port⟩ := (redirectMatches_iff e).mp hit
    exact ⟨readRule nf e, List.mem_map_of_mem inside, port.symm, protocol.symm⟩

/-- Only what is described under the key can differ. -/
theorem readAlike_iff (only : KeyOnly eport proto nf nf') :
    ReadAlike host nf nf' ↔
      (Shared host eport proto nf →
        getRedirectDesc eport proto nf' = getRedirectDesc eport proto nf) := by
  rw [shared_iff]
  constructor
  · rintro alike ⟨e, inside, hit⟩
    obtain ⟨protocol, port⟩ := (redirectMatches_iff e).mp hit
    rw [protocol, port]
    exact alike e inside
  · intro same e inside
    cases hit : redirectMatches proto eport e with
    | true =>
      obtain ⟨protocol, port⟩ := (redirectMatches_iff e).mp hit
      rw [← protocol, ← port]
      exact same ⟨e, inside, hit⟩
    | false => exact (readRule_eq_iff e).mp (readRule_other only hit)

theorem readAlike_same (host : CString) (same : SameRules nf nf') : ReadAlike host nf nf' := by
  intro e _
  simp only [getRedirectDesc, same.2]

theorem othersRules_same (same : SameRules nf nf') : othersRules host nf' = othersRules host nf := by
  rw [othersRules, othersRules, same.1]

end mappings

section rounds
variable (env : PcpEnv) (info : PcpInfo)

/-- What is described under the key of a round that changes it. -/
def leftDesc (place : Daemon × UInt16) : CString × Nat :=
  let proto : Int := info.protocol.toNat
  let new := (info.desc, (env.clock.upnpTime + info.lifetime) % 2 ^ 32)
  match place.1.lookup place.2 proto with
  | (none, _) => new
  | (some _, d) =>
      let (r, d) := upnpDeleteRedir env.toEnv place.2 proto d
      if r = 0 ∧ Enters env.toEnv d then new else descBelow place.2 proto place.1.nf

/-- The round leaves its key alone, no other host is under it, or what is described there
    comes out the same. -/
def RoundSpares (place : Daemon × UInt16) : Prop :=
  Touches env info place → Shared info.mappedStr place.2 info.protocol.toNat place.1.nf →
    leftDesc env info place = getRedirectDesc place.2 info.protocol.toNat place.1.nf

end rounds

section rounds
variable {env : PcpEnv} {info : PcpInfo} {client : InAddr}

theorem redirectAt_others (host : info.mappedStr = inetNtoa client) (port : UInt16) (d : Daemon) :
    othersRules info.mappedStr (redirectAt env info port d).nf = othersRules info.mappedStr d.nf := by
  by_cases enters : Enters env.toEnv d
  · obtain ⟨nat, _⟩ := redirectAt_entered info port enters
    have own : ofOther info.mappedStr (natRule info.protocol.toNat port info.mappedStr info.intPort
        none) = false := by
      simp only [ofOther, natRule, host, inetAddr_inetNtoa, ne_eq, not_true_eq_false, decide_false]
    rw [tables_nat] at nat
    rw [othersRules, othersRules, nat, describe, List.filter_append]
    simp [own]
  · exact othersRules_same (redirectAt_refused info port enters)

theorem removed_others (env : PcpEnv) {host : CString} {port : UInt16} {proto : Int} {d : Daemon}
    {e : IptEntry}
    (first : (d.nf.chain .nat).find? (redirectMatches proto port) = some e)
    (own : ofOther host e = false) :
    othersRules host (upnpDeleteRedir env.toEnv port proto d).2.nf = othersRules host d.nf := by
  obtain ⟨_, _, nat⟩ := upnpDeleteRedir_exact env.toEnv port proto d
  rw [tables_nat] at nat
  rw [othersRules, othersRules, nat]
  split
  · exact FirstMatch.filter_eraseP first own
  · rfl

theorem removed_desc (env : PcpEnv) (port : UInt16) (proto : Int) {d : Daemon}
    (opened : callsSucceed 1 d.nf.iptcResults = true) :
    getRedirectDesc port proto (upnpDeleteRedir env.toEnv port proto d).2.nf =
      descBelow port proto d.nf := by
  obtain ⟨_, descs, _⟩ := upnpDeleteRedir_exact env.toEnv port proto d
  rw [tables_descs, if_pos opened] at descs
  simp only [descBelow, getRedirectDesc, delRedirectDesc, descs, descs_setDescs]

/-- A lookup that finds something finds the first redirection under the key. -/
theorem lookup_found {d after : Daemon} {port : UInt16} {proto : Int} {old : RedirectRule}
    (seen : d.lookup port proto = (some old, after)) :
    ∃ e, (after.nf.chain .nat).find? (redirectMatches proto port) = some e ∧
      old.iaddr = inetNtoa e.target.minIp := by
  have same := lookup_same d port proto
  rw [seen] at same
  have found : (getRedirectRule port proto d.nf).1 = some old := congrArg Prod.fst seen
  obtain ⟨e, first, rfl⟩ := getRedirectRule_some found
  exact ⟨e, by rw [same.1]; exact first, rfl⟩

theorem tryPort_others (host : info.mappedStr = inetNtoa client) (place : Daemon × UInt16) :
    othersRules info.mappedStr (tryPort env info place).2.nf =
      othersRules info.mappedStr place.1.nf := by
  have looked : othersRules info.mappedStr _ = othersRules info.mappedStr place.1.nf :=
    othersRules_same (lookup_same place.1 place.2 info.protocol.toNat)
  unfold tryPort
  split
  · rcases seen : place.1.lookup place.2 info.protocol.toNat with ⟨_ | old, after⟩
    · rw [seen] at looked
      exact (redirectAt_others host place.2 after).trans looked
    · rw [seen] at looked
      dsimp only at looked ⊢
      split
      · exact looked
      · rename_i own
        obtain ⟨e, first, address⟩ := lookup_found seen
        have hidden : ofOther info.mappedStr e = false := by
          unfold Others at own
          simp only [not_or, not_not] at own
          simp [ofOther, ← address, own.1]
        have removed := (removed_others env first hidden).trans looked
        split
        · exact (redirectAt_others host place.2 _).trans removed
        · exact removed
  · rfl

theorem redirectAt_desc (info : PcpInfo) (port : UInt16) {d : Daemon}
    (enters : Enters env.toEnv d) :
    getRedirectDesc port info.protocol.toNat (redirectAt env info port d).nf =
      (info.desc, (env.clock.upnpTime + info.lifetime) % 2 ^ 32) := by
  have described := redirectAt_entered info port enters
  exact getRedirectDesc_described none port info.mappedStr info.intPort _ _ _ described

theorem desc_same {nf nf' : Netfilter} {port : UInt16} {proto : Int} (same : SameRules nf nf') :
    getRedirectDesc port proto nf' = getRedirectDesc port proto nf ∧
      descBelow port proto nf' = descBelow port proto nf := by
  have descs := same.2
  simp only [descBelow, getRedirectDesc, delRedirectDesc, descs, descs_setDescs, and_self]

/-- What a round that changes its key leaves there. -/
theorem tryPort_desc {place : Daemon × UInt16} (touches : Touches env info place) :
    getRedirectDesc place.2 info.protocol.toNat (tryPort env info place).2.nf =
      leftDesc env info place := by
  obtain ⟨look, changes⟩ := touches
  have looked := lookup_same place.1 place.2 info.protocol.toNat
  unfold tryPort leftDesc
  rw [if_pos look]
  dsimp only
  rcases seen : place.1.lookup place.2 info.protocol.toNat with ⟨_ | old, after⟩
  · rw [seen] at changes
    exact redirectAt_desc info place.2 changes
  · rw [seen] at changes looked
    obtain ⟨own, opened⟩ := changes
    dsimp only at looked opened ⊢
    have below := removed_desc env place.2 info.protocol.toNat opened
    rw [(desc_same looked).2] at below
    rw [if_neg own]
    by_cases done : (upnpDeleteRedir env.toEnv place.2 info.protocol.toNat after).1 = 0
    · rw [if_pos done]
      by_cases enters : Enters env.toEnv
          (upnpDeleteRedir env.toEnv place.2 info.protocol.toNat after).2
      · rw [if_pos ⟨done, enters⟩]
        exact redirectAt_desc info place.2 enters
      · rw [if_neg (fun both => enters both.2), ← below]
        exact (desc_same (redirectAt_refused info place.2 enters)).1
    · rw [if_neg done, if_neg (fun both => done both.1)]
      exact below

/-- A round spares the others exactly if their redirections read as before. -/
theorem roundSpares_iff (place : Daemon × UInt16) :
    RoundSpares env info place ↔
      ReadAlike info.mappedStr place.1.nf (tryPort env info place).2.nf := by
  by_cases touches : Touches env info place
  · rw [readAlike_iff (tryPort_key place), tryPort_desc touches]
    simp only [RoundSpares, touches, true_imp_iff]
  · have alike := readAlike_same info.mappedStr (tryPort_untouched touches)
    simp only [RoundSpares, touches, false_imp_iff, alike]

/-- A search does not come back to a port within the number of ports. -/
theorem final_desc {n : Nat} {place : Daemon × UInt16} {port : UInt16} {proto : Int}
    (low : 0 ≤ proto) (high : proto < 65536)
    (away : proto = info.protocol.toNat → ∀ k < n, nextPort^[k] place.2 ≠ port) :
    getRedirectDesc port proto (final (goesOn env info) (move env info) n place).1.nf =
      getRedirectDesc port proto place.1.nf := by
  induction n generalizing place with
  | zero => rfl
  | succ n ih =>
    have one : getRedirectDesc port proto (move env info place).1.nf =
        getRedirectDesc port proto place.1.nf := by
      apply (tryPort_key place).descs port proto low high
      rintro ⟨here, same⟩
      exact away same 0 (by omega) here.symm
    unfold final
    split
    · rw [ih, one]
      intro same k small
      have next := away same (k + 1) (by omega)
      rwa [Function.iterate_succ_apply] at next
    · exact one

theorem final_others (host : info.mappedStr = inetNtoa client) (n : Nat) (place : Daemon × UInt16) :
    othersRules info.mappedStr (final (goesOn env info) (move env info) n place).1.nf =
      othersRules info.mappedStr place.1.nf :=
  @final_keeps _ (move env info) place (goesOn env info)
    (fun s => othersRules info.mappedStr s.1.nf = othersRules info.mappedStr place.1.nf) n rfl
    fun s _ same => (tryPort_others host s).trans same

/-- As each key is visited once, the search spares the others exactly if each round does. -/
theorem final_alike (host : info.mappedStr = inetNtoa client) (n : Nat) (small : n ≤ 65535)
    (place : Daemon × UInt16) (nonzero : place.2 ≠ 0) :
    ReadAlike info.mappedStr place.1.nf (final (goesOn env info) (move env info) n place).1.nf ↔
      ∀ s ∈ visited (goesOn env info) (move env info) n place, RoundSpares env info s := by
  induction n generalizing place with
  | zero =>
    have still := @readAlike_same place.1.nf place.1.nf info.mappedStr ⟨rfl, rfl⟩
    simp only [final, visited, List.not_mem_nil, false_imp_iff, implies_true, iff_true]
    exact still
  | succ n ih =>
    have rules := @tryPort_others env info client host place
    unfold final visited
    by_cases onward : goesOn env info place = true
    · have rest := ih (by omega) (move env info place) (nextPort_nonzero place.2)
      rw [if_pos onward, if_pos onward]
      simp only [List.mem_cons, forall_eq_or_imp]
      rw [← rest, roundSpares_iff]
      generalize ended : final (goesOn env info) (move env info) n (move env info place) = last
      have apart : ∀ k < n, nextPort^[k] (nextPort place.2) ≠ place.2 := by
        intro k less back
        have value := (nextPort_iterate nonzero (k + 1)).1
        rw [Function.iterate_succ_apply, back] at value
        have low := toNat_pos nonzero
        have high := place.2.toNat_lt
        omega
      constructor
      · intro alike
        have first : ReadAlike info.mappedStr place.1.nf (tryPort env info place).2.nf := by
          rw [readAlike_iff (tryPort_key place)]
          intro shared
          obtain ⟨e, inside, hit⟩ := shared_iff.mp shared
          obtain ⟨protocol, port⟩ := (redirectMatches_iff e).mp hit
          obtain ⟨low, high⟩ := isByte_toNat info.protocol
          -- the rounds to come do not get to this key
          have stays := @final_desc env info n (move env info place) place.2 _ low (by omega)
            fun _ => apart
          rw [ended] at stays
          have whole := alike e inside
          rw [← protocol, ← port] at whole
          exact stays.symm.trans whole
        refine ⟨first, ?_⟩
        intro e inside
        have before : e ∈ othersRules info.mappedStr place.1.nf := rules ▸ inside
        exact (alike e before).trans (first e before).symm
      · rintro ⟨first, later⟩ e inside
        have after : e ∈ othersRules info.mappedStr (move env info place).1.nf := by
          rw [move, rules]
          exact inside
        exact (later e after).trans (first e inside)
    · rw [if_neg onward, if_neg onward]
      simp only [List.mem_cons, List.not_mem_nil, or_false, forall_eq]
      exact (roundSpares_iff place).symm

/-- A request for a mapping spares the others exactly if each of its rounds does. -/
theorem created_spares_iff (host : info.mappedStr = inetNtoa client) (d : Daemon) :
    othersMappings info.mappedStr (createPCPMapNAT env info d).2.nf =
        othersMappings info.mappedStr d.nf ↔
      ∀ place ∈ rounds env info d, RoundSpares env info place := by
  rw [createPCPMapNAT_final]
  unfold rounds
  split
  · simp
  · rename_i nonzero
    rw [othersMappings_iff (final_others host 65535 (d, wantedPort info))]
    exact final_alike host 65535 (le_refl _) (d, wantedPort info) nonzero

end rounds

section removal
variable {env : PcpEnv} {info : PcpInfo} {client : InAddr}

/-- A removal at a key in this state takes no redirection of another host, and if another
    host has one there, it reads the same description below. -/
def RemovalSpares (host : CString) (eport : UInt16) (proto : Int) (nf : Netfilter) : Prop :=
  (callsSucceed 5 nf.iptcResults = true →
    ∀ e, (nf.chain .nat).find? (redirectMatches proto eport) = some e → ofOther host e = false) ∧
  (callsSucceed 1 nf.iptcResults = true → Shared host eport proto nf →
    descBelow eport proto nf = getRedirectDesc eport proto nf)

theorem removed_alike_iff {host : CString} {eport : UInt16} {proto : Int} {d : Daemon}
    (low : 0 ≤ proto) (high : proto < 65536) :
    ReadAlike host d.nf (upnpDeleteRedir env.toEnv eport proto d).2.nf ↔
      (callsSucceed 1 d.nf.iptcResults = true → Shared host eport proto d.nf →
        descBelow eport proto d.nf = getRedirectDesc eport proto d.nf) := by
  rw [readAlike_iff (keyOnly_removed low high env.toEnv d)]
  cases opened : callsSucceed 1 d.nf.iptcResults with
  | true => simp only [removed_desc env eport proto opened, true_imp_iff]
  | false =>
    have same := (@removed_refused env eport proto d opened).2
    simp only [(desc_same same).1, implies_true, Bool.false_eq_true, false_imp_iff]

theorem removed_spares_iff {host : CString} {eport : UInt16} {proto : Int} {d : Daemon}
    (low : 0 ≤ proto) (high : proto < 65536) :
    othersMappings host (upnpDeleteRedir env.toEnv eport proto d).2.nf = othersMappings host d.nf ↔
      RemovalSpares host eport proto d.nf := by
  by_cases own : callsSucceed 5 d.nf.iptcResults = true →
      ∀ e, (d.nf.chain .nat).find? (redirectMatches proto eport) = some e → ofOther host e = false
  · have rules : othersRules host (upnpDeleteRedir env.toEnv eport proto d).2.nf =
        othersRules host d.nf := by
      obtain ⟨_, _, nat⟩ := upnpDeleteRedir_exact env.toEnv eport proto d
      rw [tables_nat] at nat
      rw [othersRules, othersRules, nat]
      split
      · rename_i done
        cases first : (d.nf.chain .nat).find? (redirectMatches proto eport) with
        | none => rw [FirstMatch.eraseP_of_find?_none first]
        | some e => exact FirstMatch.filter_eraseP first (own done e first)
      · rfl
    rw [othersMappings_iff rules, removed_alike_iff low high]
    unfold RemovalSpares
    exact ⟨fun alike => ⟨own, alike⟩, fun both => both.2⟩
  · have apart : ¬ RemovalSpares host eport proto d.nf := fun spares => own spares.1
    simp only [apart, iff_false]
    intro same
    push Not at own
    obtain ⟨done, e, first, shown⟩ := own
    have passes : ofOther host e = true := by simpa using shown
    obtain ⟨_, _, nat⟩ := upnpDeleteRedir_exact env.toEnv eport proto d
    rw [tables_nat, if_pos done] at nat
    have fewer := FirstMatch.length_filter_eraseP first passes
    have lengths := congrArg List.length same
    rw [othersMappings_eq, othersMappings_eq, List.length_map, List.length_map, othersRules,
      othersRules, nat] at lengths
    omega

/-- The removal that the request asks for, if it finds its own mapping. -/
def DeletionSpares (info : PcpInfo) (d : Daemon) : Prop :=
  match findMapping info ((d.nf.chain .nat).length + 1) 0 d with
  | (none, _) => True
  | (some rule, d) => rule.desc = info.desc → RemovalSpares info.mappedStr rule.eport rule.proto d.nf

theorem deleted_spares_iff (nat : info.isFw = false) (d : Daemon) :
    othersMappings info.mappedStr (deletePCPMap env info d).2.nf =
        othersMappings info.mappedStr d.nf ↔ DeletionSpares info d := by
  have same := @findMapping_same info ((d.nf.chain .nat).length + 1) 0 d
  have hit := @findMapping_found info ((d.nf.chain .nat).length + 1) 0 d
  rw [deletePCPMap_nat nat]
  unfold DeletionSpares
  rcases seen : findMapping info ((d.nf.chain .nat).length + 1) 0 d with ⟨_ | found, after⟩
  · rw [seen] at same
    simp only [othersMappings, mappings_same same]
  · rw [seen] at same hit
    dsimp only at same hit ⊢
    have before : othersMappings info.mappedStr after.nf = othersMappings info.mappedStr d.nf := by
      simp only [othersMappings, mappings_same same]
    split
    · rename_i differs
      simp only [before, true_iff]
      exact fun matching => absurd matching differs
    · rename_i matching
      obtain ⟨listed, _⟩ := hit rfl
      obtain ⟨low, high, _⟩ := mapping_described listed
      simp only [not_not.mp matching, true_imp_iff]
      rw [← before]
      exact removed_spares_iff low high

end removal

section pinholes
variable {env : PinholeEnv} {info : PcpInfo} {fw fw' : Firewall}

def othersPinholes (host : In6Addr) (fw : Firewall) : List PinholeT :=
  fw.pinholeList.filter fun p => p.daddr ≠ host

/-- The rules of the IPv6 firewall to other hosts. -/
def othersChain (host : In6Addr) (fw : Firewall) : List Ip6tEntry :=
  fw.chain.filter fun e => e.dst ≠ host

def PinholesKept (host : In6Addr) (fw fw' : Firewall) : Prop :=
  othersPinholes host fw' = othersPinholes host fw ∧ othersChain host fw' = othersChain host fw

section calls
variable {host : In6Addr} {q : PinholeT}

theorem updatePinhole_kept (listed : q ∈ fw.pinholeList) (own : q.daddr = host) (timestamp : Nat) :
    PinholesKept host fw (updatePinhole q.uid timestamp fw).2 := by
  rw [PinholesKept, othersPinholes, othersPinholes, othersChain, othersChain,
    (updatePinhole_of_mem listed timestamp).2, updatePinhole_chain]
  refine ⟨?_, rfl⟩
  apply FirstMatch.filter_map_hidden
  intro p inside
  by_cases same : p.uid = q.uid
  · obtain rfl := List.inj_on_of_nodup_map fw.distinct inside listed same
    exact .inr (by simp [withTimestamp, own])
  · exact .inl (if_neg same)

theorem addPinhole_kept {inetPton6 : CString → Option In6Addr} {ifname remHost : Option CString}
    {remPort intPort : UInt16} {intClient desc : CString} {proto : UInt8} {timestamp : Nat} {r : Int}
    (address : inetPton6 intClient = some host)
    (added : addPinhole inetPton6 ifname remHost remPort intClient intPort proto desc timestamp fw =
      some (r, fw')) : PinholesKept host fw fw' := by
  constructor
  · rcases addPinhole_some added with ⟨_, head⟩ | ⟨_, _, head⟩
    · rw [othersPinholes, othersPinholes, head]
    · rw [othersPinholes, othersPinholes, head]
      simp [address]
  · rcases addPinhole_chain added with same | ⟨e, own, appended⟩
    · rw [othersChain, othersChain, same]
    · rw [othersChain, othersChain, appended, List.filter_append]
      simp [own, address]

theorem deletePinhole_kept (inside : q ∈ fw.pinholeList) (own : q.daddr = host) :
    PinholesKept host fw (deletePinhole q.uid fw).2 := by
  constructor
  · rcases deletePinhole_list inside with kept | erased
    · rw [othersPinholes, othersPinholes, kept]
    · rw [othersPinholes, othersPinholes, erased]
      have first : fw.pinholeList.find? (fun p => p.uid = q.uid) = some q := getPinhole_of_mem inside
      exact FirstMatch.filter_eraseP first (by simp [own])
  · rcases deletePinhole_chain inside with kept | ⟨e, first, erased⟩
    · rw [othersChain, othersChain, kept]
    · have hit := List.find?_some first
      simp only [ruleMatches, decide_eq_true_eq] at hit
      rw [othersChain, othersChain, erased]
      exact FirstMatch.filter_eraseP first (by simp [hit.2.2.1, own])

end calls

theorem firewallCreated_kept (address : env.inetPton6 info.mappedStr = some info.mappedIp)
    (after : firewallCreated env info fw = some fw') : PinholesKept info.mappedIp fw fw' := by
  unfold firewallCreated at after
  rw [find_renewed] at after
  cases found : renewed env info fw with
  | some q =>
    simp only [found, Option.map_some, Option.some.injEq] at after
    obtain ⟨listed, own, _⟩ := renewed_fields address found
    rw [← after, upnpUpdateInboundpinhole]
    exact updatePinhole_kept listed own _
  | none =>
    simp only [found, Option.map_none] at after
    obtain ⟨⟨r, next⟩, added, rfl⟩ := Option.map_eq_some_iff.mp after
    unfold upnpAddInboundpinhole at added
    rw [address, find_renewed, found] at added
    simp only [Option.map_none] at added
    obtain ⟨⟨uid, final⟩, listed, same⟩ := Option.map_eq_some_iff.mp added
    obtain ⟨_, rfl⟩ := Prod.mk.inj same
    exact addPinhole_kept address listed

theorem firewallDeleted_kept (addresses : ∀ a, env.inetPton6 (env.inetNtop6 a) = some a)
    (text : info.mappedStr = env.inetNtop6 info.mappedIp) :
    PinholesKept info.mappedIp fw (firewallDeleted env info fw) := by
  unfold firewallDeleted
  split
  · exact ⟨rfl, rfl⟩
  · rename_i seen found
    split
    · exact ⟨rfl, rfl⟩
    · have clients := List.find?_some found
      obtain ⟨q, inside, entry⟩ := List.mem_filterMap.mp (List.mem_of_find?_eq_some found)
      simp only [upnpGetPinholeInfo, getPinhole_of_mem inside, Option.map_some,
        Option.some.injEq] at entry
      have uid : seen.uid = q.uid := by rw [← entry]
      have own : q.daddr = info.mappedIp := by
        simp only [isClients, decide_eq_true_eq] at clients
        have iaddr : env.inetNtop6 q.daddr = env.inetNtop6 info.mappedIp := by
          rw [← text, ← clients.1, ← entry]
        have back := congrArg env.inetPton6 iaddr
        rw [addresses, addresses] at back
        exact Option.some.inj back
      rw [upnpDeleteInboundpinhole, uid]
      exact deletePinhole_kept inside own

end pinholes

section packets
variable {env : PinholeEnv} {req : List UInt8} {senderIp : In6Addr} {answer : Option (List UInt8)}
  {s s' : Server}

/-- The mappings and pinholes of other hosts are the same, in the same order. -/
def OthersKept (env : PinholeEnv) (senderIp : In6Addr) (s s' : Server) : Prop :=
  othersMappings (inetN46top env.toPcpEnv senderIp) s'.daemon.nf =
      othersMappings (inetN46top env.toPcpEnv senderIp) s.daemon.nf ∧
    PinholesKept senderIp s.firewall s'.firewall

/-- What an accepted request for the nat table meets there spares the others. -/
def OthersSpared (env : PinholeEnv) (req : List UInt8) (senderIp : In6Addr) (s : Server) : Prop :=
  ∀ info, acceptedMap env.toPcpEnv req senderIp = some info → info.isFw = false →
    (info.lifetime = 0 → DeletionSpares info s.daemon) ∧
    (info.lifetime ≠ 0 → ∀ place ∈ rounds (withFirewall env s.firewall) info s.daemon,
      RoundSpares (withFirewall env s.firewall) info place)

/-- Without THIRD_PARTY a packet leaves what other hosts have as it is, exactly if what it
    meets spares them. -/
theorem others_kept_iff (off : env.allowThirdParty = false)
    (addresses : ∀ a, env.inetPton6 (env.inetNtop6 a) = some a)
    (served : processPacket env req senderIp s = some (answer, s')) :
    OthersKept env senderIp s s' ↔ OthersSpared env req senderIp s := by
  obtain ⟨after, daemon⟩ := processPacket_parts served
  unfold OthersKept OthersSpared
  rw [daemon]
  generalize s'.firewall = fw at after ⊢
  cases accepted : acceptedMap env.toPcpEnv req senderIp with
  | none =>
    have refused : acceptedMap (withFirewall env s.firewall) req senderIp = none := accepted
    simp only [firewallAfter, accepted, Option.some.injEq] at after
    subst after
    simp [process_refused refused, PinholesKept]
  | some info =>
    have carried : acceptedMap (withFirewall env s.firewall) req senderIp = some info := accepted
    have known := accepted_fields accepted
    have sender : info.mappedIp = senderIp := known.sender (known.third off)
    have text : inetN46top env.toPcpEnv senderIp = info.mappedStr := by
      rw [known.mappedStr, sender]
    simp only [firewallAfter, accepted] at after
    simp only [Option.some.injEq, forall_eq', process_accepted carried, carryOut, text]
    rw [← sender]
    cases kind : info.isFw with
    | true =>
      simp only [kind, ↓reduceIte] at after
      simp only [Bool.true_eq_false, false_imp_iff, iff_true]
      by_cases removal : info.lifetime = 0
      · rw [if_pos removal] at after ⊢
        obtain rfl := Option.some.inj after
        rw [deletePCPMap_fw kind]
        have plain : info.mappedStr = env.inetNtop6 info.mappedIp := by
          have mapped : isV4Mapped info.mappedIp = false := by simpa [kind] using known.isFw
          rw [known.mappedStr, inetN46top, if_neg (by simp [mapped])]
        exact ⟨rfl, firewallDeleted_kept addresses plain⟩
      · rw [if_neg removal] at after ⊢
        rw [createPCPMap_fw kind]
        exact ⟨rfl, firewallCreated_kept (mappedStr_v6 known addresses kind) after⟩
    | false =>
      simp only [kind, Bool.false_eq_true, ↓reduceIte, Option.some.injEq] at after
      subst after
      have still : PinholesKept info.mappedIp s.firewall s.firewall := ⟨rfl, rfl⟩
      simp only [still, and_true, true_imp_iff]
      by_cases removal : info.lifetime = 0
      · simp only [removal, ↓reduceIte, true_imp_iff, ne_eq, not_true_eq_false, false_imp_iff, and_true]
        exact deleted_spares_iff kind s.daemon
      · simp only [removal, ↓reduceIte, false_imp_iff, ne_eq, not_false_eq_true, true_imp_iff, true_and]
        rw [createPCPMap_nat kind]
        exact created_spares_iff (mappedStr_v4 known kind) s.daemon

end packets

def secondHost : In6Addr := v4Mapped (ofBytes 192 168 0 2)

def thirdHost : In6Addr := v4Mapped (ofBytes 192 168 0 3)

/-- The server, with these libiptc outcomes to come, after a request of the third host. -/
def thirdMapped (results : List Bool) : Server :=
  serve (plainPinholes 1000)
    { Server.start with daemon := (Daemon.start none).withNf (Netfilter.empty.withResults results) }
    (mapRequest 7 thirdHost 80 8080 3600, thirdHost)

/-- A request of the second host for the same external port. -/
def secondServed : Option (Option (List UInt8) × Server) :=
  processPacket (plainPinholes 2000) (mapRequest 8 secondHost 80 8080 3600) secondHost
    (thirdMapped [])

theorem others_kept_second :
    ∃ answer s', secondServed = some (answer, s') ∧
      (OthersKept (plainPinholes 2000) secondHost (thirdMapped []) s' ↔
        OthersSpared (plainPinholes 2000) (mapRequest 8 secondHost 80 8080 3600) secondHost
          (thirdMapped [])) := by
  obtain ⟨⟨answer, s'⟩, served⟩ : ∃ outcome, secondServed = some outcome :=
    Option.isSome_iff_exists.mp (by decide +kernel)
  exact ⟨answer, s', served, others_kept_iff rfl plainPton6_plainNtop6 served⟩

/-- The ten calls for the third host succeed. The first call for the second host fails, its
    lookup, so that both have a redirection of the same port. -/
def bothMapped : Server :=
  serve (plainPinholes 2000) (thirdMapped (List.replicate 10 true ++ [false]))
    (mapRequest 8 secondHost 80 8080 3600, secondHost)

/-- The second host removes its mapping. -/
def secondRemoved : Option (Option (List UInt8) × Server) :=
  processPacket (plainPinholes 3000) (mapRequest 8 secondHost 80 8080 0) secondHost bothMapped

/-- The redirection that goes is the third host's. -/
theorem other_host_removed :
    (plainPinholes 3000).allowThirdParty = false ∧
      ∃ answer s', secondRemoved = some (answer, s') ∧
        ¬ OthersKept (plainPinholes 3000) secondHost bothMapped s' := by
  obtain ⟨⟨answer, s'⟩, served⟩ : ∃ outcome, secondRemoved = some outcome :=
    Option.isSome_iff_exists.mp (by decide +kernel)
  refine ⟨rfl, answer, s', served, ?_⟩
  rintro ⟨same, _⟩
  have before : (othersMappings (inetN46top (plainPinholes 3000).toPcpEnv secondHost)
      bothMapped.daemon.nf).map (·.iaddr) = ["192.168.0.3".toList] := by decide +kernel
  have after : secondRemoved.map (fun outcome =>
      (othersMappings (inetN46top (plainPinholes 3000).toPcpEnv secondHost)
        outcome.2.daemon.nf).map (·.iaddr)) = some [] := by decide +kernel
  rw [served, Option.map_some, same, before] at after
  simp at after

end PcpThirdParty
