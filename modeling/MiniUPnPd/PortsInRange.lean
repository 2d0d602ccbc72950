import MiniUPnPd.Lib.GrowingArray
import MiniUPnPd.Netfilter.Iptcrdr
import MiniUPnPd.NetfilterNft.FailedExchanges
import MiniUPnPd.Pf.Obsdrdr

/-!
The external ports of the mappings in a range, which three backends collect in an array that is to
grow 128 elements at a time. Allocations succeed, and a `size_t` has 64 bits.
-/
namespace PortsInRange
open GrowingArray CText

/-- A port mapping as it is looked for. -/
structure PortMapping where
  eport : UInt16
  proto : Int

section ranges
variable (startport endport : UInt16) (proto : Int)

def InRange (eport : UInt16) : Prop := startport ≤ eport ∧ eport ≤ endport

instance (eport : UInt16) : Decidable (InRange startport endport eport) :=
  inferInstanceAs (Decidable (_ ∧ _))

def PortMapping.matches (m : PortMapping) : Bool :=
  m.proto = proto ∧ InRange startport endport m.eport

/-- The ports to return, in the order of the table. -/
def portsOf (mappings : List PortMapping) : List UInt16 :=
  (mappings.filter (PortMapping.matches startport endport proto)).map PortMapping.eport

end ranges

/-- The array, or NULL, and its count are of these ports, and no write has left the block. -/
def Exact (array : Option (Growing UInt16)) (ports : List UInt16) : Prop :=
  match array with
  | none => ports = []
  | some a => Holds a ports

/-- The loop of the three functions. -/
def collect {R : Type} (grow : Nat → Nat → Nat) (hit : R → Bool) (eport : R → UInt16)
    (rules : List R) : Growing UInt16 :=
  rules.foldl (fun a r => if hit r then push grow a (eport r) else a) (calloc 128)

section collect
variable {R : Type} {grow : Nat → Nat → Nat} {hit : R → Bool} {eport : R → UInt16}
  {rules : List R} {ports : List UInt16} {bound : Nat}

theorem collect_eq (grow : Nat → Nat → Nat) (hit : R → Bool) (eport : R → UInt16)
    (rules : List R) :
    collect grow hit eport rules =
      ((rules.filter hit).map eport).foldl (push grow) (calloc 128) := by
  rw [collect, List.foldl_map, List.foldl_filter]

theorem collect_holds_iff (grows : ∀ c, 128 ≤ c → c < bound → c < grow c c)
    (small : bound < 2 ^ 32) (short : ((rules.filter hit).map eport).length ≤ bound) :
    Holds (collect grow hit eport rules) ports ↔ ports = (rules.filter hit).map eport := by
  have filled := pushes_filled grows small (calloc_filled 128) (Nat.le_refl _) short
  rw [List.nil_append] at filled
  rw [collect_eq]
  exact holds_unique filled.toHolds

end collect

section nftables
open NftnlrdrMisc Nftnlrdr FailedExchanges

def nftMapping (p : RuleT) : PortMapping := { eport := p.eport, proto := p.proto.toNat }

def nftMappings (s : Nft) : List PortMapping := (headRedirect s).map nftMapping

section
variable (startport endport : UInt16) (proto : Int)

/-- `realloc` is called with the capacity as it is. -/
def nftGetPortmappingsInRange (dump : Outcome) (s : FailedExchanges.State) :
    Option (Growing UInt16) × FailedExchanges.State :=
  let (headRedirect, s) := refreshNftCacheRedirect dump s
  let hit (p : RuleT) : Bool := p.proto.toNat = proto ∧ InRange startport endport p.eport
  (some (collect fixed hit (fun p => p.eport) headRedirect), s)

/-- The rules that a failed dump leaves out. -/
def unreceived (valid : Bool) (dump : Outcome) (c : NftChain) : List NftnlRule :=
  if valid then []
  else
    match dump with
    | .done => []
    | .failed n => c.rules.take (c.rules.length - n)

def NftFits (dump : Outcome) (s : FailedExchanges.State) : Prop :=
  (∀ p ∈ redirectsOf (unreceived s.redirectValid dump s.nft.prerouting),
    (nftMapping p).matches startport endport proto = false) ∧
  (portsOf startport endport proto (nftMappings s.nft)).length ≤ 128

end

theorem unreceived_received (valid : Bool) (dump : Outcome) (c : NftChain) :
    unreceived valid dump c ++ received valid dump c = c.rules := by
  unfold unreceived received
  cases valid
  · cases dump with
    | done => rfl
    | failed n => exact List.take_append_drop _ _
  · rfl

theorem nft_exact_iff (startport endport : UInt16) (proto : Int) (dump : Outcome)
    (s : FailedExchanges.State) :
    Exact (nftGetPortmappingsInRange startport endport proto dump s).1
        (portsOf startport endport proto (nftMappings s.nft)) ↔
      NftFits startport endport proto dump s := by
  obtain ⟨missed, missing⟩ : ∃ missed, missed =
    redirectsOf (unreceived s.redirectValid dump s.nft.prerouting) := ⟨_, rfl⟩
  obtain ⟨read, reading⟩ : ∃ read, read =
    redirectsOf (received s.redirectValid dump s.nft.prerouting) := ⟨_, rfl⟩
  have whole : headRedirect s.nft = missed ++ read := by
    rw [missing, reading, redirectsOf, redirectsOf, ← List.filter_append, ← List.map_append,
      unreceived_received]
    rfl
  have ports : ∀ l : List RuleT, portsOf startport endport proto (l.map nftMapping) =
      (l.filter fun p => (nftMapping p).matches startport endport proto).map fun p => p.eport := by
    intro l
    rw [portsOf, List.filter_map, List.map_map]
    rfl
  have returned : (nftGetPortmappingsInRange startport endport proto dump s).1 =
      some (collect fixed (fun p => (nftMapping p).matches startport endport proto)
        (fun p => p.eport) read) := by
    rw [reading]
    rfl
  have noneMissed : (missed.filter fun p =>
      (nftMapping p).matches startport endport proto).map (fun p => p.eport) = [] ↔
        ∀ p ∈ missed, (nftMapping p).matches startport endport proto = false := by
    simp [List.filter_eq_nil_iff]
  unfold NftFits nftMappings
  rw [returned, whole, ports, ← missing, List.filter_append, List.map_append, ← noneMissed]
  dsimp only [Exact]
  rw [collect_eq, fixed_holds_iff (by decide), List.append_left_eq_self]
  constructor
  · intro both
    refine ⟨both.2, ?_⟩
    rw [both.2]
    exact both.1
  · intro both
    refine ⟨?_, both.1⟩
    have counted := both.2
    rwa [both.1] at counted

end nftables

section netfilter
open Iptc Iptcrdr

def iptMapping (e : IptEntry) : PortMapping := { eport := e.dpts.1, proto := e.proto.toNat }

def iptMappings (nf : Netfilter) : List PortMapping := (nf.chain .nat).map iptMapping

def iptGrow (capacity number : Nat) : Nat :=
  let capacity := (capacity + 128) % 2 ^ 32
  if capacity ≤ number then (number + 1) % 2 ^ 32 else capacity

section
variable (startport endport : UInt16) (proto : Int)

def iptGetPortmappingsInRange (nf : Netfilter) : Option (Growing UInt16) × Netfilter :=
  let (done, nf) := iptcCalls 2 nf
  let hit (e : IptEntry) : Bool := proto = e.proto.toNat ∧ InRange startport endport e.dpts.1
  (if done then some (collect iptGrow hit (fun e => e.dpts.1) (nf.chain .nat)) else none, nf)

def IptFits (nf : Netfilter) : Prop :=
  portsOf startport endport proto (iptMappings nf) = [] ∨
    (iptcCalls 2 nf).1 = true ∧
      (portsOf startport endport proto (iptMappings nf)).length < 2 ^ 32

end

theorem iptGrow_grows (c : Nat) (below : c < 2 ^ 32 - 1) : c < iptGrow c c := by
  unfold iptGrow
  dsimp only
  split <;> omega

theorem ipt_ports (startport endport : UInt16) (proto : Int) (nf : Netfilter) :
    portsOf startport endport proto (iptMappings nf) =
      ((nf.chain .nat).filter fun e =>
        proto = e.proto.toNat ∧ InRange startport endport e.dpts.1).map fun e => e.dpts.1 := by
  rw [portsOf, iptMappings, List.filter_map, List.map_map]
  congr 1
  apply List.filter_congr
  intro e _
  simp [PortMapping.matches, iptMapping, eq_comm]

/-- The ports are those that the model with lists returns. -/
theorem ipt_listed (startport endport : UInt16) (proto : Int) (nf : Netfilter) :
    (getPortmappingsInRange startport endport proto nf).1 =
      if (iptcCalls 2 nf).1 then some (portsOf startport endport proto (iptMappings nf))
      else none := by
  obtain ⟨done, results, calls⟩ := iptcCalls_cases 2 nf
  rw [getPortmappingsInRange, calls, ipt_ports]
  rfl

theorem ipt_exact_iff (startport endport : UInt16) (proto : Int) (nf : Netfilter) :
    Exact (iptGetPortmappingsInRange startport endport proto nf).1
        (portsOf startport endport proto (iptMappings nf)) ↔
      IptFits startport endport proto nf := by
  obtain ⟨done, results, calls⟩ := iptcCalls_cases 2 nf
  unfold IptFits iptGetPortmappingsInRange
  rw [calls]
  cases done with
  | false => simp [Exact]
  | true =>
    have chain : (nf.withResults results).chain .nat = nf.chain .nat := rfl
    dsimp only [Exact]
    rw [if_pos rfl, chain]
    dsimp only
    constructor
    · intro holds
      have number := holds.number
      have small := @pushes_number _ iptGrow (calloc 128)
        (portsOf startport endport proto (iptMappings nf)) (by decide)
      rw [collect_eq, ← ipt_ports] at number
      exact .inr ⟨rfl, by omega⟩
    · intro fits
      have short : (portsOf startport endport proto (iptMappings nf)).length ≤ 2 ^ 32 - 1 := by
        rcases fits with none | both
        · simp [none]
        · omega
      have grows : ∀ c, 128 ≤ c → c < 2 ^ 32 - 1 → c < iptGrow c c := by
        intro c _ below
        exact iptGrow_grows c below
      rw [ipt_ports] at short ⊢
      exact (collect_holds_iff grows (by decide) short).mpr rfl

end netfilter

section pf
open Obsdrdr

/-- A rule of the ruleset that is read, with what `add_redirect_rule2` was given for it where it
    is a redirection. -/
inductive PfEntry where
  | redirection (ifname rhost : Option CString) (eport : UInt16) (iaddr : CString)
      (iport : UInt16) (proto : Int) (desc : CString)
  | other (r : Rule)

def PfEntry.rule (cfg : Config) : PfEntry → Rule
  | .redirection ifname rhost eport iaddr iport proto desc =>
      redirectRule cfg ifname rhost eport iaddr iport proto desc
  | .other r => r

def PfEntry.isRedirection : PfEntry → Bool
  | .redirection .. => true
  | .other _ => false

/-- The kernel counts the rules with 32 bits. -/
structure Anchor (cfg : Config) where
  state : State
  entries : List PfEntry
  rules : state.rules (rulesetOf cfg .PF_RDR) = entries.map (PfEntry.rule cfg)
  counted : entries.length < 2 ^ 32

def pfMapping (r : Rule) : PortMapping := { eport := r.dst.port, proto := r.proto.toNat }

def Anchor.mappings {cfg : Config} (anchor : Anchor cfg) : List PortMapping :=
  (anchor.entries.filter PfEntry.isRedirection).map fun entry => pfMapping (entry.rule cfg)

def pfGrow (capacity _number : Nat) : Nat := (capacity + 128) % 2 ^ 32

section
variable (startport endport : UInt16) (proto : Int)

def pfHit (r : Rule) : Bool :=
  r.dst.port = r.dstPort1 ∧ r.proto.toNat = proto ∧ InRange startport endport r.dst.port

/-- `dev` and `read` are whether the device is open and `DIOCGETRULES` succeeds. -/
def pfGetPortmappingsInRange (cfg : Config) (dev read : Bool) (s : State) :
    Option (Growing UInt16) :=
  if dev && read then
    let rules := s.rules (rulesetOf cfg .PF_RDR)
    -- the count of the rules becomes an int
    let n := (rules.length : Int).bmod (2 ^ 32)
    some (collect pfGrow (pfHit startport endport proto) (fun r => r.dst.port)
      (rules.take n.toNat))
  else none

/-- The rules are read, and their count is one of an `int`. -/
def PfRead {cfg : Config} (dev read : Bool) (anchor : Anchor cfg) : Prop :=
  dev = true ∧ read = true ∧ anchor.entries.length < 2 ^ 31

def PfFits {cfg : Config} (dev read : Bool) (anchor : Anchor cfg) : Prop :=
  PfRead dev read anchor ∧
      (∀ r, .other r ∈ anchor.entries → pfHit startport endport proto r = false) ∨
    ¬ PfRead dev read anchor ∧ portsOf startport endport proto anchor.mappings = []

end

section
variable {cfg : Config} {startport endport : UInt16} {proto : Int}

theorem redirectRule_ports (cfg : Config) (ifname rhost : Option CString) (eport : UInt16)
    (iaddr : CString) (iport : UInt16) (p : Int) (desc : CString) :
    (redirectRule cfg ifname rhost eport iaddr iport p desc).dst.port =
      (redirectRule cfg ifname rhost eport iaddr iport p desc).dstPort1 := rfl

/-- The test of the second port holds for every redirection. -/
theorem mapping_hit (startport endport : UInt16) (proto : Int) {entry : PfEntry}
    (redirection : entry.isRedirection = true) :
    (pfMapping (entry.rule cfg)).matches startport endport proto =
      pfHit startport endport proto (entry.rule cfg) := by
  cases entry with
  | other r => cases redirection
  | redirection ifname rhost eport iaddr iport p desc =>
    have ports := redirectRule_ports cfg ifname rhost eport iaddr iport p desc
    rw [Bool.eq_iff_iff, PfEntry.rule, pfMapping, PortMapping.matches, pfHit, decide_eq_true_eq,
      decide_eq_true_eq]
    constructor
    · intro within
      exact ⟨ports, within⟩
    · intro both
      exact both.2

theorem anchor_ports (anchor : Anchor cfg) :
    portsOf startport endport proto anchor.mappings =
      ((anchor.entries.filter fun entry => pfHit startport endport proto (entry.rule cfg)).filter
        PfEntry.isRedirection).map fun entry => (entry.rule cfg).dst.port := by
  rw [portsOf, Anchor.mappings, List.filter_map, List.map_map, List.filter_filter,
    List.filter_filter]
  congr 1
  apply List.filter_congr
  intro entry _
  by_cases redirection : entry.isRedirection = true
  · simp only [redirection, Function.comp, Bool.and_true, Bool.true_and]
    exact mapping_hit startport endport proto redirection
  · simp [redirection]

theorem pf_listed (anchor : Anchor cfg) :
    (((anchor.state.rules (rulesetOf cfg .PF_RDR)).filter
        (pfHit startport endport proto)).map fun r => r.dst.port) =
      (anchor.entries.filter fun entry => pfHit startport endport proto (entry.rule cfg)).map
        fun entry => (entry.rule cfg).dst.port := by
  rw [anchor.rules, List.filter_map, List.map_map]
  rfl

/-- No mapping is left out, so the lists are the same when there is no port too many. -/
theorem pf_same_iff (anchor : Anchor cfg) :
    portsOf startport endport proto anchor.mappings =
        ((anchor.state.rules (rulesetOf cfg .PF_RDR)).filter
          (pfHit startport endport proto)).map (fun r => r.dst.port) ↔
      ∀ r, .other r ∈ anchor.entries → pfHit startport endport proto r = false := by
  rw [anchor_ports, pf_listed]
  obtain ⟨hits, eq⟩ : ∃ hits, hits = anchor.entries.filter fun entry =>
    pfHit startport endport proto (entry.rule cfg) := ⟨_, rfl⟩
  rw [← eq]
  constructor
  · intro same r member
    have length := congrArg List.length same
    rw [List.length_map, List.length_map, List.length_filter_eq_length_iff] at length
    by_contra hit
    rw [Bool.not_eq_false] at hit
    have here : .other r ∈ hits := by
      rw [eq, List.mem_filter]
      exact ⟨member, hit⟩
    exact absurd (length _ here) (by simp [PfEntry.isRedirection])
  · intro none
    rw [List.filter_eq_self.mpr]
    intro entry member
    rw [eq, List.mem_filter] at member
    cases entry with
    | redirection ifname rhost eport iaddr iport p desc => rfl
    | other r =>
      have missed := none r member.1
      rw [PfEntry.rule, missed] at member
      cases member.2

theorem pf_exact_iff (startport endport : UInt16) (proto : Int) (dev read : Bool)
    (anchor : Anchor cfg) :
    Exact (pfGetPortmappingsInRange startport endport proto cfg dev read anchor.state)
        (portsOf startport endport proto anchor.mappings) ↔
      PfFits startport endport proto dev read anchor := by
  have length : (anchor.state.rules (rulesetOf cfg .PF_RDR)).length = anchor.entries.length := by
    rw [anchor.rules, List.length_map]
  have counted := anchor.counted
  unfold PfFits pfGetPortmappingsInRange
  by_cases given : (dev && read) = true
  · rw [if_pos given]
    rw [Bool.and_eq_true] at given
    dsimp only [Exact]
    by_cases short : anchor.entries.length < 2 ^ 31
    · have n : ((anchor.state.rules (rulesetOf cfg .PF_RDR)).length : Int).bmod (2 ^ 32) =
          anchor.entries.length := by
        rw [length, Int.bmod_eq_iff (by decide)]
        omega
      have whole : PfRead dev read anchor := ⟨given.1, given.2, short⟩
      have grows : ∀ c, 128 ≤ c → c < 2 ^ 31 → c < pfGrow c c := by
        intro c _ below
        unfold pfGrow
        omega
      have few : ((((anchor.state.rules (rulesetOf cfg .PF_RDR)).filter
          (pfHit startport endport proto)).map fun r => r.dst.port)).length ≤ 2 ^ 31 := by
        rw [List.length_map]
        have fewer := List.length_filter_le (pfHit startport endport proto)
          (anchor.state.rules (rulesetOf cfg .PF_RDR))
        omega
      rw [n, Int.toNat_natCast, ← length, List.take_length,
        collect_holds_iff grows (by decide) few, pf_same_iff]
      simp [whole]
    · have n : ((anchor.state.rules (rulesetOf cfg .PF_RDR)).length : Int).bmod (2 ^ 32) =
          anchor.entries.length - 2 ^ 32 := by
        rw [length, Int.bmod_eq_iff (by decide)]
        omega
      have unread : ¬ PfRead dev read anchor := fun whole => short whole.2.2
      have none : (anchor.entries.length - 2 ^ 32 : Int).toNat = 0 := by
        omega
      rw [n, none, List.take_zero]
      have empty : Holds (collect pfGrow (pfHit startport endport proto) (fun r => r.dst.port) [])
          (portsOf startport endport proto anchor.mappings) ↔
            portsOf startport endport proto anchor.mappings = [] :=
        holds_unique (calloc_filled 128).toHolds
      rw [empty]
      simp [unread]
  · rw [if_neg given]
    have unread : ¬ PfRead dev read anchor := by
      intro whole
      exact given (by rw [whole.1, whole.2.1]; rfl)
    simp [Exact, unread]

end

/-- The rules of the daemon that are no redirections. -/
inductive OwnRule (cfg : Config) : Rule → Prop where
  | pass (ifname rhost : Option CString) (iaddr : CString) (iport : UInt16) (proto : Int)
      (desc : CString) : OwnRule cfg (passRule cfg ifname rhost iaddr iport proto desc)
  | nat (ifname rhost : Option CString) (eport : UInt16) (iaddr : CString) (iport : UInt16)
      (proto : Int) (desc extaddr : CString) :
      OwnRule cfg (natRule cfg ifname rhost eport iaddr iport proto desc extaddr)
  | pinhole (ifname remHost : Option CString) (remPort : UInt16) (intClient : CString)
      (intPort : UInt16) (proto : UInt8) (label : CString) :
      OwnRule cfg
        { Pfpinhole.pinholeRule ifname remHost remPort intClient intPort proto label with
          action := .PF_PASS }

section
variable {cfg : Config} {startport endport : UInt16} {proto : Int}

/-- They leave the second port out, and so are taken for mappings of port 0. -/
theorem ownRule_hit {r : Rule} (own : OwnRule cfg r)
    (hit : pfHit startport endport proto r = true) : startport = 0 ∧ r.dst.port = 0 := by
  have unset : r.dstPort1 = 0 := by
    cases own <;> rfl
  simp only [pfHit, InRange, unset, decide_eq_true_eq] at hit
  obtain ⟨port, _, low, _⟩ := hit
  rw [port] at low
  exact ⟨UInt16.le_zero_iff.mp low, port⟩

/-- From port 1 on the daemon's own rules are told apart. -/
theorem own_rules_fit {dev read : Bool} {anchor : Anchor cfg} (whole : PfRead dev read anchor)
    (own : ∀ r, .other r ∈ anchor.entries → OwnRule cfg r) (positive : startport ≠ 0) :
    PfFits startport endport proto dev read anchor := by
  left
  refine ⟨whole, ?_⟩
  intro r member
  by_contra hit
  rw [Bool.not_eq_false] at hit
  exact positive (ownRule_hit (own r member) hit).1

/-- The nat rule that port triggering adds is taken for a mapping of port 0. -/
theorem natRule_hit (ifname rhost : Option CString) (eport : UInt16) (iaddr : CString)
    (iport : UInt16) (desc extaddr : CString) :
    pfHit 0 endport IPPROTO_UDP
      (natRule cfg ifname rhost eport iaddr iport IPPROTO_UDP desc extaddr) = true := by
  have port : (remoteHost rhost).port = 0 := by
    unfold remoteHost
    split
    · rfl
    · rfl
    · split <;> rfl
  have low : (0 : UInt16) ≤ endport := UInt16.zero_le
  have proto : ((UInt8.ofInt IPPROTO_UDP).toNat : Int) = IPPROTO_UDP := by decide
  simp [pfHit, natRule, InRange, port, low, proto]

end

end pf

/-- When the three functions return the ports of the table, without a write outside. -/
theorem arrays_exact_iff (startport endport : UInt16) (proto : Int) :
    (∀ dump s, Exact (nftGetPortmappingsInRange startport endport proto dump s).1
        (portsOf startport endport proto (nftMappings s.nft)) ↔
      NftFits startport endport proto dump s) ∧
    (∀ nf, Exact (iptGetPortmappingsInRange startport endport proto nf).1
        (portsOf startport endport proto (iptMappings nf)) ↔
      IptFits startport endport proto nf) ∧
    (∀ cfg dev read, ∀ anchor : Anchor cfg,
      Exact (pfGetPortmappingsInRange startport endport proto cfg dev read anchor.state)
          (portsOf startport endport proto anchor.mappings) ↔
        PfFits startport endport proto dev read anchor) := by
  refine ⟨?_, ?_, ?_⟩
  · intro dump s
    exact nft_exact_iff startport endport proto dump s
  · intro nf
    exact ipt_exact_iff startport endport proto nf
  · intro cfg dev read anchor
    exact pf_exact_iff startport endport proto dev read anchor

/-- Redirections of the TCP ports below `n` to one host. -/
def redirected : Nat → Nftnlrdr.Nft
  | 0 => Nftnlrdr.Nft.empty
  | n + 1 =>
      (Nftnlrdr.addRedirectRule2 none none (UInt16.ofNat n) "10.0.0.2".toList 80 Iptcrdr.IPPROTO_TCP
        none 0 (redirected n)).2

/-- The 129th port is written behind the array. -/
theorem overrun_129 :
    ¬ Exact
      (nftGetPortmappingsInRange 0 65535 Iptcrdr.IPPROTO_TCP .done
        (FailedExchanges.State.start (redirected 129))).1
      (portsOf 0 65535 Iptcrdr.IPPROTO_TCP (nftMappings (redirected 129))) := by
  intro exact
  have fits := (nft_exact_iff 0 65535 Iptcrdr.IPPROTO_TCP .done
    (FailedExchanges.State.start (redirected 129))).mp exact
  have count :
      (portsOf 0 65535 Iptcrdr.IPPROTO_TCP (nftMappings (redirected 129))).length = 129 := by
    decide +kernel
  have few := fits.2
  have same : (FailedExchanges.State.start (redirected 129)).nft = redirected 129 := rfl
  rw [same, count] at few
  exact absurd few (by decide)

end PortsInRange
