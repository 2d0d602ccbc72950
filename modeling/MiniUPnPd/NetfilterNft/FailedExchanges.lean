import MiniUPnPd.Lib.FirstMatch
import MiniUPnPd.NetfilterNft.Nftnlrdr
import MiniUPnPd.NetfilterNft.NftnlrdrMiscSpec

/-!
The removal of a mapping in the nftables backend when netlink exchanges may fail. An exchange that
fails has no effect in the kernel; a dump that fails leaves the rules received so far in the cache,
which the daemon then goes on with.
-/
namespace FailedExchanges
open FirstMatch Inet NftnlrdrMisc NftnlrdrMiscSpec Nftnlrdr

inductive Outcome where
  | done
  | failed (received : Nat)
  deriving DecidableEq

/-- The exchanges of a removal, each of them made at most once. -/
inductive Exchange where
  | dumpRedirect
  | delRedirect
  | dumpFilter
  | delFilter
  | dumpPeer
  | delPeer
  | dumpPeerFilter
  | delPeerFilter

abbrev Outcomes := Exchange → Outcome

/-- With `rule_list_redirect_validate` and its like. A valid cache has all rules of the chain. -/
structure State where
  nft : Nft
  redirectValid : Bool
  filterValid : Bool
  peerValid : Bool

def State.start (nft : Nft) : State :=
  { nft, redirectValid := false, filterValid := false, peerValid := false }

/-- The rules that a cache has after a refresh. The kernel sends the oldest rules first. -/
def received (valid : Bool) (dump : Outcome) (c : NftChain) : List NftnlRule :=
  if valid then c.rules
  else
    match dump with
    | .done => c.rules
    | .failed n => c.rules.drop (c.rules.length - n)

def redirectsOf (rules : List NftnlRule) : List RuleT :=
  (rules.map (tableCb .RULE_NAT)).filter fun p => p.natType = some .NFT_NAT_DNAT

def peersOf (rules : List NftnlRule) : List RuleT :=
  (rules.map (tableCb .RULE_NAT)).filter fun p => p.natType = some .NFT_NAT_SNAT

def filtersOf (rules : List NftnlRule) : List RuleT :=
  (rules.map (tableCb .RULE_FILTER)).filter fun p => p.type = .RULE_FILTER

/-- A cache is valid from a dump that succeeds on. -/
def refreshNftCacheRedirect (dump : Outcome) (s : State) : List RuleT × State :=
  (redirectsOf (received s.redirectValid dump s.nft.prerouting),
    { s with redirectValid := s.redirectValid || dump = .done })

def refreshNftCachePeer (dump : Outcome) (s : State) : List RuleT × State :=
  (peersOf (received s.peerValid dump s.nft.postrouting),
    { s with peerValid := s.peerValid || dump = .done })

def refreshNftCacheFilter (dump : Outcome) (s : State) : List RuleT × State :=
  (filtersOf (received s.filterValid dump s.nft.forward),
    { s with filterValid := s.filterValid || dump = .done })

/-- The chain after a message to delete a rule. -/
def sendDelRule (del : Outcome) (handle : Nat) (c : NftChain) : NftChain :=
  if del = .done then c.delRule handle else c

/-- `nft_send_rule` makes the cache invalid whether or not the message has an effect. -/
def delRedirect (del : Outcome) (deleted : Option RuleT) (s : State) : State :=
  match deleted with
  | some p =>
      { s with
        nft := { s.nft with prerouting := sendDelRule del p.handle s.nft.prerouting }
        redirectValid := false }
  | none => s

def delPeer (del : Outcome) (deleted : Option RuleT) (s : State) : State :=
  match deleted with
  | some p =>
      { s with
        nft := { s.nft with postrouting := sendDelRule del p.handle s.nft.postrouting }
        peerValid := false }
  | none => s

/-- The forward rule that goes with a NAT rule for which a message has been sent. -/
def delFilterOf (dump del : Outcome) (deleted : Option RuleT) (s : State) : State :=
  match deleted with
  | none => s
  | some p =>
      if p.iaddr ≠ 0 ∧ p.iport ≠ 0 then
        let (filters, s) := refreshNftCacheFilter dump s
        match filters.find? (filterMatches p.iport p.iaddr) with
        | some f =>
            { s with
              nft := { s.nft with forward := sendDelRule del f.handle s.nft.forward }
              filterValid := false }
        | none => s
      else s

/-- No result of an exchange is looked at. -/
def deleteRedirectAndFilterRules (outcomes : Outcomes) (eport : UInt16) (proto : Int)
    (s : State) : Int × State :=
  let (redirects, s) := refreshNftCacheRedirect (outcomes .dumpRedirect) s
  let redirect := redirects.find? (natMatches .NFT_NAT_DNAT eport proto)
  let s := delRedirect (outcomes .delRedirect) redirect s
  let s := delFilterOf (outcomes .dumpFilter) (outcomes .delFilter) redirect s
  let (peers, s) := refreshNftCachePeer (outcomes .dumpPeer) s
  let peer := peers.find? (natMatches .NFT_NAT_SNAT eport proto)
  let s := delPeer (outcomes .delPeer) peer s
  (0, delFilterOf (outcomes .dumpPeerFilter) (outcomes .delPeerFilter) peer s)

section removal
variable (outcomes : Outcomes) (eport : UInt16) (proto : Int) (s : State)

/-- The DNAT rule that the removal finds in the cache. -/
def redirectFound : Option RuleT :=
  (redirectsOf (received s.redirectValid (outcomes .dumpRedirect) s.nft.prerouting)).find?
    (natMatches .NFT_NAT_DNAT eport proto)

def peerFound : Option RuleT :=
  (peersOf (received s.peerValid (outcomes .dumpPeer) s.nft.postrouting)).find?
    (natMatches .NFT_NAT_SNAT eport proto)

/-- A rule is found whose deletion succeeds. -/
def Meets : Prop :=
  (redirectFound outcomes eport proto s).isSome ∧ outcomes .delRedirect = .done ∨
    (peerFound outcomes eport proto s).isSome ∧ outcomes .delPeer = .done

def matching (type : NatType) (c : NftChain) : List NftnlRule :=
  c.rules.filter fun rule => natMatches type eport proto (tableCb .RULE_NAT rule)

/-- There are fewer DNAT rules or fewer peer rules under the key. -/
def Removed (s' : State) : Prop :=
  (matching eport proto .NFT_NAT_DNAT s'.nft.prerouting).length <
      (matching eport proto .NFT_NAT_DNAT s.nft.prerouting).length ∨
    (matching eport proto .NFT_NAT_SNAT s'.nft.postrouting).length <
      (matching eport proto .NFT_NAT_SNAT s.nft.postrouting).length

variable {outcomes eport proto s}

@[simp] theorem delFilterOf_prerouting (dump del : Outcome) (deleted : Option RuleT) (s : State) :
    (delFilterOf dump del deleted s).nft.prerouting = s.nft.prerouting := by
  unfold delFilterOf
  split
  · rfl
  · split
    · dsimp only [refreshNftCacheFilter]
      split <;> rfl
    · rfl

@[simp] theorem delFilterOf_postrouting (dump del : Outcome) (deleted : Option RuleT) (s : State) :
    (delFilterOf dump del deleted s).nft.postrouting = s.nft.postrouting ∧
      (delFilterOf dump del deleted s).peerValid = s.peerValid := by
  unfold delFilterOf
  split
  · exact ⟨rfl, rfl⟩
  · split
    · dsimp only [refreshNftCacheFilter]
      split <;> exact ⟨rfl, rfl⟩
    · exact ⟨rfl, rfl⟩

theorem delRedirect_chains (del : Outcome) (deleted : Option RuleT) (s : State) :
    (delRedirect del deleted s).nft.prerouting =
        ((deleted.map fun p => sendDelRule del p.handle s.nft.prerouting).getD s.nft.prerouting) ∧
      (delRedirect del deleted s).nft.postrouting = s.nft.postrouting ∧
      (delRedirect del deleted s).peerValid = s.peerValid := by
  cases deleted <;> exact ⟨rfl, rfl, rfl⟩

theorem delPeer_chains (del : Outcome) (deleted : Option RuleT) (s : State) :
    (delPeer del deleted s).nft.postrouting =
        ((deleted.map fun p => sendDelRule del p.handle s.nft.postrouting).getD
          s.nft.postrouting) ∧
      (delPeer del deleted s).nft.prerouting = s.nft.prerouting := by
  cases deleted <;> exact ⟨rfl, rfl⟩

/-- What a removal does to the two NAT chains. -/
theorem delete_chains :
    let after := (deleteRedirectAndFilterRules outcomes eport proto s).2.nft
    after.prerouting = ((redirectFound outcomes eport proto s).map fun p =>
        sendDelRule (outcomes .delRedirect) p.handle s.nft.prerouting).getD s.nft.prerouting ∧
      after.postrouting = ((peerFound outcomes eport proto s).map fun p =>
        sendDelRule (outcomes .delPeer) p.handle s.nft.postrouting).getD s.nft.postrouting := by
  obtain ⟨s₁, opened⟩ : ∃ s₁, s₁ =
    (refreshNftCacheRedirect (outcomes .dumpRedirect) s).2 := ⟨_, rfl⟩
  obtain ⟨s₂, redirected⟩ : ∃ s₂, s₂ = delFilterOf (outcomes .dumpFilter) (outcomes .delFilter)
    (redirectFound outcomes eport proto s) (delRedirect (outcomes .delRedirect)
      (redirectFound outcomes eport proto s) s₁) := ⟨_, rfl⟩
  obtain ⟨pre, post, valid⟩ := delRedirect_chains (outcomes .delRedirect)
    (redirectFound outcomes eport proto s) s₁
  have post₂ : s₂.nft.postrouting = s.nft.postrouting ∧ s₂.peerValid = s.peerValid := by
    rw [redirected, (delFilterOf_postrouting _ _ _ _).1, (delFilterOf_postrouting _ _ _ _).2,
      post, valid, opened]
    exact ⟨rfl, rfl⟩
  have pre₂ : s₂.nft.prerouting = ((redirectFound outcomes eport proto s).map fun p =>
      sendDelRule (outcomes .delRedirect) p.handle s.nft.prerouting).getD s.nft.prerouting := by
    rw [redirected, delFilterOf_prerouting, pre, opened]
    rfl
  have found : (refreshNftCachePeer (outcomes .dumpPeer) s₂).1.find?
      (natMatches .NFT_NAT_SNAT eport proto) = peerFound outcomes eport proto s := by
    rw [refreshNftCachePeer, post₂.1, post₂.2, peerFound]
  have after : (deleteRedirectAndFilterRules outcomes eport proto s).2 =
      delFilterOf (outcomes .dumpPeerFilter) (outcomes .delPeerFilter)
        (peerFound outcomes eport proto s) (delPeer (outcomes .delPeer)
          (peerFound outcomes eport proto s) (refreshNftCachePeer (outcomes .dumpPeer) s₂).2) := by
    rw [← found, redirected, opened]
    rfl
  obtain ⟨post', pre'⟩ := delPeer_chains (outcomes .delPeer) (peerFound outcomes eport proto s)
    (refreshNftCachePeer (outcomes .dumpPeer) s₂).2
  constructor
  · rw [after, delFilterOf_prerouting, pre', ← pre₂]
    rfl
  · rw [after, (delFilterOf_postrouting _ _ _ _).1, post', ← post₂.1]
    rfl

theorem received_sublist (valid : Bool) (dump : Outcome) (c : NftChain) :
    (received valid dump c).Sublist c.rules := by
  unfold received
  split
  · exact List.Sublist.refl _
  · split
    · exact List.Sublist.refl _
    · exact List.drop_sublist _ _

/-- To delete a matching rule makes one matching rule less. -/
theorem matching_deleted {type : NatType} {c : NftChain} {p : RuleT}
    (inside : p ∈ c.rules.map (tableCb .RULE_NAT)) (hit : natMatches type eport proto p = true) :
    (matching eport proto type c).length =
      (matching eport proto type (c.delRule p.handle)).length + 1 := by
  obtain ⟨rule, member, rfl⟩ := List.mem_map.mp inside
  rw [(tableCb_frame .RULE_NAT rule).1]
  have there : (c.rules.find? fun r => r.handle = rule.handle) = some rule := by
    have one : (c.rules.find? fun r => r.handle = rule.handle).isSome := by
      rw [List.find?_isSome]
      exact ⟨rule, member, by simp⟩
    obtain ⟨r, first⟩ := Option.isSome_iff_exists.mp one
    have same : r.handle = rule.handle := by simpa using List.find?_some first
    rw [first, List.inj_on_of_nodup_map c.distinct (List.mem_of_find?_eq_some first) member same]
  exact length_filter_eraseP (q := fun r => natMatches type eport proto (tableCb .RULE_NAT r))
    there hit

theorem redirectFound_rule {p : RuleT} (found : redirectFound outcomes eport proto s = some p) :
    p ∈ s.nft.prerouting.rules.map (tableCb .RULE_NAT) ∧
      natMatches .NFT_NAT_DNAT eport proto p = true := by
  have listed := (List.mem_filter.mp (List.mem_of_find?_eq_some found)).1
  exact ⟨((received_sublist _ _ _).map _).subset listed, List.find?_some found⟩

theorem peerFound_rule {p : RuleT} (found : peerFound outcomes eport proto s = some p) :
    p ∈ s.nft.postrouting.rules.map (tableCb .RULE_NAT) ∧
      natMatches .NFT_NAT_SNAT eport proto p = true := by
  have listed := (List.mem_filter.mp (List.mem_of_find?_eq_some found)).1
  exact ⟨((received_sublist _ _ _).map _).subset listed, List.find?_some found⟩

/-- A chain for which a message may have been sent has a matching rule less exactly if the
    message was sent and had an effect. -/
theorem chain_fewer_iff {type : NatType} {c : NftChain} {found : Option RuleT} {del : Outcome}
    (rule : ∀ p ∈ found, p ∈ c.rules.map (tableCb .RULE_NAT) ∧
      natMatches type eport proto p = true) :
    (matching eport proto type ((found.map fun p => sendDelRule del p.handle c).getD c)).length <
        (matching eport proto type c).length ↔ found.isSome ∧ del = .done := by
  cases found with
  | none => simp
  | some p =>
    obtain ⟨inside, hit⟩ := rule p rfl
    have fewer := matching_deleted inside hit
    simp only [Option.map_some, Option.getD_some, Option.isSome_some, true_and, sendDelRule]
    split
    · rename_i done
      exact iff_of_true (by omega) done
    · rename_i failed
      exact iff_of_false (lt_irrefl _) failed

theorem removed_iff :
    Removed eport proto s (deleteRedirectAndFilterRules outcomes eport proto s).2 ↔
      Meets outcomes eport proto s := by
  obtain ⟨pre, post⟩ := @delete_chains outcomes eport proto s
  unfold Removed Meets
  rw [pre, post, chain_fewer_iff fun p found => redirectFound_rule found,
    chain_fewer_iff fun p found => peerFound_rule found]

/-- The rules that are left in a chain for which a message may have been sent. -/
theorem chain_length {type : NatType} {c : NftChain} {found : Option RuleT} {del : Outcome}
    (rule : ∀ p ∈ found, p ∈ c.rules.map (tableCb .RULE_NAT) ∧
      natMatches type eport proto p = true) :
    let left := ((found.map fun p => sendDelRule del p.handle c).getD c).rules.length
    left ≤ c.rules.length ∧ (found.isSome ∧ del = .done → left < c.rules.length) := by
  cases found with
  | none => exact ⟨le_rfl, fun both => by simp at both⟩
  | some p =>
    obtain ⟨inside, _⟩ := rule p rfl
    obtain ⟨r, member, rfl⟩ := List.mem_map.mp inside
    have fewer : (c.delRule (tableCb .RULE_NAT r).handle).rules.length = c.rules.length - 1 := by
      rw [(tableCb_frame .RULE_NAT r).1]
      exact List.length_eraseP_of_mem member (by simp)
    have some : 0 < c.rules.length := List.length_pos_of_mem member
    simp only [Option.map_some, Option.getD_some, Option.isSome_some, true_and, sendDelRule]
    split
    · rw [fewer]
      exact ⟨Nat.sub_le _ _, fun _ => Nat.sub_lt some Nat.one_pos⟩
    · rename_i failed
      exact ⟨le_rfl, fun done => absurd done failed⟩

theorem delete_length :
    let after := (deleteRedirectAndFilterRules outcomes eport proto s).2.nft
    after.prerouting.rules.length ≤ s.nft.prerouting.rules.length ∧
      after.postrouting.rules.length ≤ s.nft.postrouting.rules.length ∧
      (Meets outcomes eport proto s → after.prerouting.rules.length +
        after.postrouting.rules.length <
          s.nft.prerouting.rules.length + s.nft.postrouting.rules.length) := by
  obtain ⟨pre, post⟩ := @delete_chains outcomes eport proto s
  obtain ⟨preLeft, preLess⟩ := @chain_length eport proto .NFT_NAT_DNAT s.nft.prerouting _
    (outcomes .delRedirect) fun p found => @redirectFound_rule outcomes eport proto s p found
  obtain ⟨postLeft, postLess⟩ := @chain_length eport proto .NFT_NAT_SNAT s.nft.postrouting _
    (outcomes .delPeer) fun p found => @peerFound_rule outcomes eport proto s p found
  dsimp only
  rw [pre, post]
  refine ⟨preLeft, postLeft, ?_⟩
  intro meets
  rcases meets with redirect | peer
  · have less := preLess redirect
    omega
  · have less := postLess peer
    omega

end removal

section refinement

theorem received_done (valid : Bool) (c : NftChain) : received valid .done c = c.rules := by
  cases valid <;> rfl

theorem delFilterOf_done (deleted : Option RuleT) (s : State) :
    (delFilterOf .done .done deleted s).nft = delForwardOf deleted s.nft := by
  cases deleted with
  | none => rfl
  | some p =>
    have all : (refreshNftCacheFilter .done s).1 = headFilter s.nft := by
      rw [refreshNftCacheFilter, received_done]
      rfl
    unfold delFilterOf delForwardOf delForward
    dsimp only
    split
    · rw [all]
      cases (headFilter s.nft).find? (filterMatches p.iport p.iaddr) <;> rfl
    · rfl

/-- Where all exchanges succeed, the removal is the one without failures. -/
theorem delete_refines (eport : UInt16) (proto : Int) (s : State) :
    (deleteRedirectAndFilterRules (fun _ => .done) eport proto s).1 =
        (Nftnlrdr.deleteRedirectAndFilterRules eport proto s.nft).1 ∧
      (deleteRedirectAndFilterRules (fun _ => .done) eport proto s).2.nft =
        (Nftnlrdr.deleteRedirectAndFilterRules eport proto s.nft).2 := by
  refine ⟨rfl, ?_⟩
  unfold deleteRedirectAndFilterRules Nftnlrdr.deleteRedirectAndFilterRules
  dsimp only
  rw [delFilterOf_done]
  have redirects : (refreshNftCacheRedirect .done s).1 = headRedirect s.nft := by
    rw [refreshNftCacheRedirect, received_done]
    rfl
  rw [redirects]
  generalize (headRedirect s.nft).find? (natMatches .NFT_NAT_DNAT eport proto) = redirect
  have peers : ∀ s : State, (refreshNftCachePeer .done s).1 = headPeer s.nft := by
    intro s
    rw [refreshNftCachePeer, received_done]
    rfl
  rw [peers, delFilterOf_done]
  have first : (delRedirect .done redirect (refreshNftCacheRedirect .done s).2).nft =
      match redirect with
      | some p => { s.nft with prerouting := s.nft.prerouting.delRule p.handle }
      | none => s.nft := by
    cases redirect <;> rfl
  have second : ∀ (found : Option RuleT) (t : State),
      (delPeer .done found (refreshNftCachePeer .done t).2).nft =
        match found with
        | some p => { t.nft with postrouting := t.nft.postrouting.delRule p.handle }
        | none => t.nft := by
    intro found t
    cases found <;> rfl
  rw [second, delFilterOf_done, first]
  all_goals rfl

end refinement

end FailedExchanges
