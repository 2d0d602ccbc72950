import MiniUPnPd.UpnpSoap

/-!
The search of AddAnyPortMapping. The loop moves two bounds away from the requested port;
what it amounts to is one pass over the permitted ports in the order of their distance,
at each distance the port above before the port below, and never port 0.
-/
namespace PortSearch
open UpnpPermissions UpnpRedirect UpnpSoap WordBitmap

def atDistance (eport : UInt16) (k : Nat) : List UInt16 :=
  (if eport.toNat + k ≤ 65535 then [UInt16.ofNat (eport.toNat + k)] else []) ++
    (if k < eport.toNat then [UInt16.ofNat (eport.toNat - k)] else [])

def outward (eport : UInt16) : List UInt16 := (List.range' 1 65535).flatMap (atDistance eport)

/-- One port after the other until the redirection is made or fails for good. -/
def tryPorts (redirect : UInt16 → Daemon → Int × Daemon) : List UInt16 → Daemon → Int × Daemon
  | [], d => (1, d)
  | eport :: ports, d =>
      let (r, d) := redirect eport d
      if r = 0 ∨ r = -1 then (r, d) else tryPorts redirect ports d

section loop
variable {eport : UInt16} {t : Tried} {k : Nat}

theorem toNat_succ {port : UInt16} (small : port.toNat < 65535) :
    (port + 1).toNat = port.toNat + 1 := by
  have one : (1 : UInt16).toNat = 1 := rfl
  rw [UInt16.toNat_add, one]
  omega

theorem toNat_pred {port : UInt16} (positive : 0 < port.toNat) :
    (port - 1).toNat = port.toNat - 1 := by
  have one : (1 : UInt16).toNat = 1 := rfl
  have bound := port.toNat_lt
  rw [UInt16.toNat_sub, one]
  omega

theorem next_end (below : t.eportBelow.toNat ≤ 1) (above : t.eportAbove.toNat = 65535) :
    t.next = none := by
  have low : t.eportBelow ≤ 1 := UInt16.le_iff_toNat_le.mpr below
  have high : t.eportAbove = 65535 := UInt16.toNat_inj.mp above
  simp [Tried.next, low, high]

theorem next_up (above : t.eportAbove.toNat < 65535)
    (turn : t.eport = t.eportBelow ∨ t.eportBelow.toNat ≤ 1) :
    t.next = some { t with eport := t.eportAbove + 1, eportAbove := t.eportAbove + 1 } := by
  have high : t.eportAbove ≠ 65535 := by
    intro same
    rw [same] at above
    exact absurd above (by decide)
  have up : ¬ (t.eport > t.eportBelow ∧ t.eportBelow > 1) := by
    rintro ⟨higher, wide⟩
    rcases turn with same | small
    · rw [same] at higher
      exact UInt16.lt_irrefl _ higher
    · have wide' : 1 < t.eportBelow.toNat := UInt16.lt_iff_toNat_lt.mp wide
      omega
  simp [Tried.next, high, up]

theorem next_down (below : 1 < t.eportBelow.toNat)
    (turn : t.eportAbove.toNat = 65535 ∨ t.eportBelow.toNat < t.eport.toNat) :
    t.next = some { t with eport := t.eportBelow - 1, eportBelow := t.eportBelow - 1 } := by
  have low : ¬ t.eportBelow ≤ 1 := by
    intro small
    have small' : t.eportBelow.toNat ≤ 1 := UInt16.le_iff_toNat_le.mp small
    omega
  have down : t.eportAbove = 65535 ∨ (t.eport > t.eportBelow ∧ t.eportBelow > 1) := by
    rcases turn with top | higher
    · exact .inl (UInt16.toNat_inj.mp top)
    · exact .inr ⟨UInt16.lt_iff_toNat_lt.mpr higher, UInt16.lt_iff_toNat_lt.mpr below⟩
  simp only [Tried.next, low, false_and, ↓reduceIte, down]

/-- All ports up to distance `k` were tried, and it is the turn of the port above. -/
structure Balanced (eport : UInt16) (k : Nat) (t : Tried) : Prop where
  above : t.eportAbove.toNat = min (eport.toNat + k) 65535
  below : t.eportBelow.toNat = max (eport.toNat - k) (min eport.toNat 1)
  turn : t.eport = t.eportBelow ∨ t.eportBelow.toNat ≤ 1 ∨ t.eportAbove.toNat = 65535

/-- The ports that the loop goes through from `t` on, permitted or not. -/
inductive Path : Tried → List UInt16 → Prop where
  | ends {t : Tried} (last : t.next = none) : Path t []
  | goes {t t' : Tried} {ports : List UInt16} (next : t.next = some t') (rest : Path t' ports) :
      Path t (t'.eport :: ports)

def remaining (t : Tried) : Nat := (65535 - t.eportAbove.toNat) + (t.eportBelow.toNat - 1)

theorem next_remaining {t' : Tried} (next : t.next = some t') : remaining t' < remaining t := by
  unfold Tried.next at next
  split at next
  · simp at next
  · rename_i more
    split at next <;> rename_i side <;> obtain rfl := Option.some.inj next
    · have wide : ¬ t.eportBelow ≤ 1 := by
        intro low
        rcases side with top | below
        · exact more ⟨low, top⟩
        · exact UInt16.not_le.mpr below.2 low
      have below : 1 < t.eportBelow.toNat := UInt16.lt_iff_toNat_lt.mp (UInt16.not_le.mp wide)
      have pred : (t.eportBelow - 1).toNat = t.eportBelow.toNat - 1 := toNat_pred (by omega)
      simp only [remaining, pred]
      omega
    · have other : t.eportAbove.toNat ≠ 65535 := by
        intro top
        exact side (.inl (UInt16.toNat_inj.mp top))
      have bound := t.eportAbove.toNat_lt
      have succ : (t.eportAbove + 1).toNat = t.eportAbove.toNat + 1 := toNat_succ (by omega)
      simp only [remaining, succ]
      omega

theorem path_length {ports : List UInt16} (path : Path t ports) : ports.length ≤ remaining t := by
  induction path with
  | ends last => exact Nat.zero_le _
  | goes next rest ih =>
    have less := next_remaining next
    rw [List.length_cons]
    omega

theorem path_up {ports : List UInt16} (balanced : Balanced eport k t)
    (room : eport.toNat + (k + 1) ≤ 65535)
    (rest : ∀ t' : Tried, t'.eportAbove.toNat = eport.toNat + (k + 1) → t'.eport = t'.eportAbove →
      t'.eportBelow = t.eportBelow → Path t' ports) :
    Path t (UInt16.ofNat (eport.toNat + (k + 1)) :: ports) := by
  have above := balanced.above
  have succ : (t.eportAbove + 1).toNat = t.eportAbove.toNat + 1 := toNat_succ (by omega)
  have turn : t.eport = t.eportBelow ∨ t.eportBelow.toNat ≤ 1 := by
    rcases balanced.turn with same | small | top
    · exact .inl same
    · exact .inr small
    · omega
  have next := next_up (by omega) turn
  have port : t.eportAbove + 1 = UInt16.ofNat (eport.toNat + (k + 1)) := by
    apply UInt16.toNat_inj.mp
    rw [succ, UInt16.toNat_ofNat']
    omega
  rw [← port]
  apply Path.goes next
  apply rest
  · rw [succ]
    omega
  · rfl
  · rfl

theorem path_down {ports : List UInt16} (wide : k + 1 < eport.toNat)
    (below : t.eportBelow.toNat = eport.toNat - k)
    (turn : t.eportAbove.toNat = 65535 ∨ t.eportBelow.toNat < t.eport.toNat)
    (rest : ∀ t' : Tried, t'.eportAbove = t.eportAbove → t'.eport = t'.eportBelow →
      t'.eportBelow.toNat = eport.toNat - (k + 1) → Path t' ports) :
    Path t (UInt16.ofNat (eport.toNat - (k + 1)) :: ports) := by
  have bound := eport.toNat_lt
  have pred : (t.eportBelow - 1).toNat = t.eportBelow.toNat - 1 := toNat_pred (by omega)
  have next := next_down (by omega) turn
  have port : t.eportBelow - 1 = UInt16.ofNat (eport.toNat - (k + 1)) := by
    apply UInt16.toNat_inj.mp
    rw [pred, UInt16.toNat_ofNat']
    omega
  rw [← port]
  apply Path.goes next
  apply rest
  · rfl
  · rfl
  · rw [pred]
    omega

theorem balanced_start (eport : UInt16) :
    Balanced eport 0 { eport, eportBelow := eport, eportAbove := eport } := by
  have bound := eport.toNat_lt
  exact ⟨by dsimp only; omega, by dsimp only; omega, .inl rfl⟩

/-- One distance after the other. -/
theorem path_distances (n : Nat) (rounds : k + n = 65535) (balanced : Balanced eport k t) :
    Path t ((List.range' (k + 1) n).flatMap (atDistance eport)) := by
  have above := balanced.above
  have below := balanced.below
  induction n generalizing k t with
  | zero =>
    have bound := eport.toNat_lt
    exact .ends (next_end (by omega) (by omega))
  | succ n ih =>
    rw [List.range'_succ, List.flatMap_cons, atDistance, List.append_assoc]
    have bound := eport.toNat_lt
    by_cases up : eport.toNat + (k + 1) ≤ 65535
    · rw [if_pos up, List.singleton_append]
      apply path_up balanced up
      intro t' above' same below'
      by_cases down : k + 1 < eport.toNat
      · rw [if_pos down, List.singleton_append]
        have low := congrArg UInt16.toNat below'
        have high := congrArg UInt16.toNat same
        apply path_down down (by omega) (.inr (by omega))
        intro t'' above'' same' below''
        have top := (congrArg UInt16.toNat above'').trans above'
        have next : Balanced eport (k + 1) t'' :=
          ⟨top.trans (Nat.min_eq_left up).symm, by omega, .inl same'⟩
        exact ih (by omega) next next.above next.below
      · rw [if_neg down, List.nil_append]
        have low := congrArg UInt16.toNat below'
        have next : Balanced eport (k + 1) t' :=
          ⟨above'.trans (Nat.min_eq_left up).symm, by omega, .inr (.inl (by omega))⟩
        exact ih (by omega) next next.above next.below
    · rw [if_neg up, List.nil_append]
      by_cases down : k + 1 < eport.toNat
      · rw [if_pos down, List.singleton_append]
        apply path_down down (by omega) (.inl (by omega))
        intro t' above' same below'
        have full : 65535 ≤ eport.toNat + (k + 1) := Nat.le_of_lt (Nat.lt_of_not_le up)
        have top : t'.eportAbove.toNat = 65535 := by
          rw [above']
          omega
        have next : Balanced eport (k + 1) t' :=
          ⟨top.trans (Nat.min_eq_right full).symm, by omega, .inl same⟩
        exact ih (by omega) next next.above next.below
      · rw [if_neg down, List.nil_append]
        have next : Balanced eport (k + 1) t := ⟨by omega, by omega, .inr (.inl (by omega))⟩
        exact ih (by omega) next next.above next.below

theorem path_outward (eport : UInt16) :
    Path { eport, eportBelow := eport, eportAbove := eport } (outward eport) :=
  path_distances 65535 (by omega) (balanced_start eport)

theorem outward_length (eport : UInt16) : (outward eport).length < aroundFuel := by
  have length := path_length (path_outward eport)
  have bound := eport.toNat_lt
  simp only [remaining, aroundFuel] at length ⊢
  omega

variable {allowed : PortBitmap} {redirect : UInt16 → Daemon → Int × Daemon}

/-- The loop tries the permitted ports of its path. -/
theorem searchAround_path {ports : List UInt16} (path : Path t ports) {fuel : Nat}
    (enough : ports.length < fuel) (d : Daemon) :
    ((searchAround allowed redirect fuel t d).1.1, (searchAround allowed redirect fuel t d).2) =
      tryPorts redirect (ports.filter fun port => bit allowed port.toNat) d := by
  induction path generalizing fuel d with
  | ends last =>
    obtain ⟨fuel, rfl⟩ : ∃ f, fuel = f + 1 := ⟨fuel - 1, by omega⟩
    rw [searchAround, last]
    rfl
  | @goes t t' ports next rest ih =>
    rw [List.length_cons] at enough
    obtain ⟨fuel, rfl⟩ : ∃ f, fuel = f + 1 := ⟨fuel - 1, by omega⟩
    have enough' : ports.length < fuel := by omega
    rw [searchAround, next]
    dsimp only
    by_cases permitted : bit allowed t'.eport.toNat = true
    · simp only [List.filter_cons, permitted, ↓reduceIte, tryPorts]
      by_cases stop : (redirect t'.eport d).1 = 0 ∨ (redirect t'.eport d).1 = -1
      · simp only [stop, ↓reduceIte]
      · simp only [stop, ↓reduceIte]
        exact ih enough' _
    · simp only [List.filter_cons, permitted]
      exact ih enough' d

end loop

theorem redirectAny_tries (env : SoapEnv) {intIp : CString} {address : InAddr}
    (parsed : Inet.inetAton intIp = some address) (iport eport : UInt16)
    (redirect : UInt16 → Daemon → Int × Daemon) (d : Daemon) :
    ((redirectAny env intIp iport eport redirect d).1.1,
      (redirectAny env intIp iport eport redirect d).2) =
    tryPorts redirect (eport :: (outward eport).filter fun port =>
      checkUpnpRuleAgainstPermissions env.upnppermlist port address iport) d := by
  have search := @searchAround_path _ (getPermittedExtPorts env.upnppermlist address iport) redirect
    _ (path_outward eport) _ (outward_length eport)
  simp only [bit_getPermittedExtPorts] at search
  rw [redirectAny, parsed, Option.getD_some, tryPorts]
  dsimp only
  by_cases stop : (redirect eport d).1 = 0 ∨ (redirect eport d).1 = -1
  · have kept : ¬ ((redirect eport d).1 ≠ 0 ∧ (redirect eport d).1 ≠ -1) := by omega
    rw [if_neg kept, if_pos stop]
  · have goes : (redirect eport d).1 ≠ 0 ∧ (redirect eport d).1 ≠ -1 := by omega
    rw [if_pos goes, if_neg stop]
    exact search _

end PortSearch
