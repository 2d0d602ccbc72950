import MiniUPnPd.UpnpEvents

/-!
The URL of a subscription is read twice: by the check of the Callback header, which stops at
the closing bracket, and from the copy without the brackets when the subscriber is notified.
The copy has no closing bracket, and the second reader does not stop at its end.
-/
namespace CallbackUrls
open CText Inet UpnpHttp UpnpEvents
open PcpServer (In6Addr isV4Mapped v4Of v4Mapped)

section copy
variable {p : Char → Bool} {mem u more : List Char} {n i : Nat}

theorem copyWhile_within (inside : i + n ≤ mem.length) :
    copyWhile p mem n i = (slice mem i n).takeWhile p := by
  have enough : n ≤ (mem.drop i).length := by
    rw [List.length_drop]
    omega
  rw [copyWhile, slice, List.take_append_of_le_length enough]

theorem copyWhile_length : (copyWhile p mem n i).length ≤ n :=
  (List.takeWhile_prefix p).length_le.trans (List.length_take_le n _)

theorem copyWhile_text (text : mem.drop i = u ++ '\x00' :: more) :
    copyWhile p mem n i =
      ((u ++ '\x00' :: (more ++ List.replicate n '\x00')).takeWhile p).take n := by
  rw [copyWhile, text, List.take_takeWhile, List.append_assoc, List.cons_append]

/-- A text that ends the copy, or fills it, is all that is read. -/
theorem copyWhile_stops (text : mem.drop i = u ++ '\x00' :: more)
    (stop : (∃ c ∈ u, p c = false) ∨ n ≤ u.length) :
    copyWhile p mem n i = (u.takeWhile p).take n := by
  rw [copyWhile_text text, List.takeWhile_append]
  split
  · rename_i passed
    have whole : u.takeWhile p = u := (List.takeWhile_prefix p).eq_of_length passed
    have long : n ≤ u.length := by
      rcases stop with ⟨c, member, stops⟩ | long
      · rw [← whole] at member
        have passes := List.mem_takeWhile_imp member
        simp [stops] at passes
      · exact long
    rw [whole, List.take_append_of_le_length long]
  · rfl

/-- Without such a character the reading goes on after the end of the text. -/
theorem copyWhile_passes (text : mem.drop i = u ++ '\x00' :: more) (nul : p '\x00' = true)
    (none : ∀ c ∈ u, p c = true) (short : u.length < n) :
    u.length < (copyWhile p mem n i).length := by
  rw [copyWhile_text text, List.takeWhile_append_of_pos none, List.takeWhile_cons_of_pos nul]
  simp only [List.length_take, List.length_append, List.length_cons]
  omega

theorem takeWhile_both (P Q : Char → Prop) [DecidablePred P] [DecidablePred Q] (s : List Char) :
    (s.takeWhile fun c => decide (Q c)).takeWhile (fun c => decide (P c)) =
      s.takeWhile fun c => decide (P c ∧ Q c) := by
  rw [List.takeWhile_takeWhile]
  congr 1
  funext c
  simp

theorem seek_after {c : Char} {stop q : Nat} (inside : stop ≤ mem.length) (start : i ≤ q)
    (before : q ≤ stop) (passed : ∀ d ∈ slice mem i (q - i), d ≠ c) : seek c mem stop q = seek c mem stop i := by
  have first : slice mem i (stop - i) = slice mem i (q - i) ++ slice mem q (stop - q) := by
    have whole : stop - i = (q - i) + (stop - q) := by omega
    rw [slice, whole, List.take_add, List.drop_drop, slice, slice]
    congr 3
    omega
  have length : (slice mem i (q - i)).length = q - i := by
    rw [slice, List.length_take, List.length_drop]
    omega
  unfold seek
  rw [copyWhile_within (by omega), copyWhile_within (by omega), first,
    List.takeWhile_append_of_pos (by simpa using passed), List.length_append, length]
  omega

theorem charAt_end (s more : List Char) (c : Char) : charAt (s ++ c :: more) s.length = c := by
  simp [charAt]

theorem length_takeWhile_le {s : List Char} {c : Char} (stops : p c = false) :
    ((s ++ c :: more).takeWhile p).length ≤ s.length := by
  rw [List.takeWhile_append]
  split
  · rw [List.takeWhile_cons_of_neg (by simp [stops]), List.append_nil]
  · exact (List.takeWhile_prefix p).length_le

theorem seek_copied {c : Char} {stop : Nat} (inside : stop ≤ mem.length) (fits : i + n ≤ stop)
    (passes : ∀ d, p d = true → d ≠ c) :
    seek c mem stop (i + (copyWhile p mem n i).length) = seek c mem stop i := by
  have copied := @copyWhile_within p mem n i (by omega)
  have front : copyWhile p mem n i <+: mem.drop i := by
    rw [copied]
    exact (List.takeWhile_prefix p).trans (List.take_prefix n _)
  have short : (copyWhile p mem n i).length ≤ n := copyWhile_length
  apply seek_after inside
  · omega
  · omega
  · intro d member
    rw [Nat.add_sub_cancel_left, slice, ← List.prefix_iff_eq_take.mp front, copied] at member
    exact passes d (List.mem_takeWhile_imp member)

end copy

/-- What the two readers have in common: the characters of the host. -/
def hostChars (url : List Char) : List Char :=
  if url.head? = some '[' then url.tail.takeWhile (· ≠ ']')
  else url.takeWhile fun c => c ≠ '/' ∧ c ≠ ':'

section check
variable {enableIpv6 : Bool} {client : Client} {buf : List Char} {off len o n : Nat}

/-- The rest of a header from its first URL on, after the scheme. -/
def urlText (buf : List Char) (off len : Nat) : List Char :=
  (slice buf (off + 8) (len - 8)).takeWhile (· ≠ '>')

theorem slice_url (scheme : slice buf off 8 = "<http://".toList) (inside : off + len ≤ buf.length)
    (long : 8 ≤ len) :
    slice buf (off + 1) (seek '>' buf (off + len) (off + 8) - (off + 1)) =
      "http://".toList ++ urlText buf off len := by
  have rest : buf.drop (off + 1) = "http://".toList ++ buf.drop (off + 8) := by
    have parts := List.take_append_drop 8 (buf.drop off)
    rw [← slice, scheme, List.drop_drop] at parts
    rw [← List.drop_drop, ← parts]
    rfl
  have length : seek '>' buf (off + len) (off + 8) - (off + 1) =
      ("http://".toList).length + (urlText buf off len).length := by
    have scheme : ("http://".toList).length = 7 := rfl
    rw [seek, copyWhile_within (by omega), show off + len - (off + 8) = len - 8 by omega,
      urlText, scheme]
    omega
  have front : urlText buf off len <+: buf.drop (off + 8) :=
    (List.takeWhile_prefix _).trans (List.take_prefix _ _)
  rw [slice, rest, length, List.take_length_add_append, (List.prefix_iff_eq_take.mp front).symm]

theorem charAt_of_drop {s t : List Char} {i : Nat} {c : Char} (here : s.drop i = c :: t) :
    charAt s i = c := by
  have first := @List.getElem?_drop _ s i 0
  rw [here, Nat.add_zero] at first
  rw [charAt, List.getD_eq_getElem?_getD, ← first]
  rfl

theorem copyWhile_region (inside : off + len ≤ buf.length) {i : Nat} (before : i ≤ off + len)
    (p : Char → Bool) :
    copyWhile p buf (min 47 (off + len - i)) i =
      ((slice buf i (off + len - i)).takeWhile p).take 47 := by
  rw [copyWhile_within (by omega), List.take_takeWhile, slice, slice, List.take_take]

/-- The check reads the characters of the host, 47 of them at most, and no closing bracket. -/
theorem urlHost_eq (inside : off + len ≤ buf.length) (long : 10 ≤ len) :
    ∃ q, urlHost buf (off + len) (off + 8) =
        (decide ((urlText buf off len).head? = some '['),
          (hostChars (urlText buf off len)).take 47, q) ∧
      seek '>' buf (off + len) q = seek '>' buf (off + len) (off + 8) := by
  obtain ⟨c, t, here⟩ : ∃ c t, buf.drop (off + 8) = c :: t := by
    cases rest : buf.drop (off + 8) with
    | nil =>
      have short := congrArg List.length rest
      simp only [List.length_drop, List.length_nil] at short
      omega
    | cons c t => exact ⟨c, t, rfl⟩
  have first := charAt_of_drop here
  have whole : off + len - (off + 8) = len - 8 := by omega
  have region : slice buf (off + 8) (len - 8) = c :: slice buf (off + 9) (len - 9) := by
    have next : buf.drop (off + 9) = t := by
      rw [show off + 9 = off + 8 + 1 by omega, ← List.drop_drop, here]
      rfl
    rw [slice, here, show len - 8 = len - 9 + 1 by omega, List.take_succ_cons, slice, next]
  unfold urlHost
  by_cases bracket : c = '['
  · subst bracket
    have text : urlText buf off len =
        '[' :: (slice buf (off + 9) (len - 9)).takeWhile (· ≠ '>') := by
      rw [urlText, region, List.takeWhile_cons_of_pos (by decide)]
    have copied := copyWhile_region inside (show off + 9 ≤ off + len by omega)
      fun c => c ≠ ']' ∧ c ≠ '>'
    have skipped : seek '>' buf (off + len) (off + 9) = seek '>' buf (off + len) (off + 8) := by
      apply seek_after inside
      · omega
      · omega
      · rw [show off + 9 - (off + 8) = 1 by omega, slice, here]
        simp
    rw [if_pos first, text]
    refine ⟨_, Prod.ext (by simp) (Prod.ext ?_ rfl), ?_⟩
    · rw [show off + len - (off + 9) = len - 9 by omega] at copied
      simp only [hostChars, List.head?_cons, ↓reduceIte, List.tail_cons, takeWhile_both]
      rw [← copied, show len - 9 = off + len - (off + 9) by omega]
    · rw [← skipped]
      apply seek_copied inside
      · omega
      · intro d passed
        simp only [decide_eq_true_eq] at passed
        exact passed.2
  · have other : charAt buf (off + 8) ≠ '[' := by rwa [first]
    have plain : (urlText buf off len).head? ≠ some '[' := by
      rw [urlText, region]
      by_cases closes : c = '>'
      · rw [List.takeWhile_cons_of_neg (by simpa using closes)]
        simp
      · rw [List.takeWhile_cons_of_pos (by simpa using closes)]
        simpa using bracket
    have copied := copyWhile_region inside (show off + 8 ≤ off + len by omega)
      fun c => c ≠ '/' ∧ c ≠ ':' ∧ c ≠ '>'
    rw [if_neg other]
    refine ⟨_, Prod.ext (by simpa using plain) (Prod.ext ?_ rfl), ?_⟩
    · dsimp only
      rw [hostChars, if_neg plain, urlText, takeWhile_both, copied, whole]
      simp only [and_assoc]
    · apply seek_copied inside
      · omega
      · intro d passed
        simp only [decide_eq_true_eq] at passed
        exact passed.2.2

theorem seek_bounds {c : Char} {stop i : Nat} (before : i ≤ stop) :
    i ≤ seek c buf stop i ∧ seek c buf stop i ≤ stop := by
  have short := @copyWhile_length (· ≠ c) buf (stop - i) i
  unfold seek
  omega

theorem nextUrl_bounds {stop i q : Nat} (found : nextUrl buf stop i = some q) (before : i ≤ stop) :
    i ≤ q ∧ q ≤ stop := by
  unfold nextUrl at found
  dsimp only at found
  split at found
  · simp at found
  · split at found
    · simp at found
    · obtain ⟨closing, inside⟩ := @seek_bounds buf '>' stop i before
      obtain ⟨opening, within⟩ := @seek_bounds buf '<' stop _ inside
      have same := Option.some.inj found
      omega

theorem urlHost_bounds {stop i : Nat} (before : i < stop) :
    i ≤ (urlHost buf stop i).2.2 ∧ (urlHost buf stop i).2.2 ≤ stop := by
  unfold urlHost
  split
  · have short := @copyWhile_length (fun c => c ≠ ']' ∧ c ≠ '>') buf (min 47 (stop - (i + 1)))
      (i + 1)
    dsimp only
    omega
  · have short := @copyWhile_length (fun c => c ≠ '/' ∧ c ≠ ':' ∧ c ≠ '>') buf (min 47 (stop - i)) i
    dsimp only
    omega

/-- The URL that is accepted is on the address of the client. -/
theorem checkUrls_some {fuel : Nat} (inside : off + len ≤ buf.length)
    (accepted : checkUrls enableIpv6 client buf fuel off len = some (o, n)) :
    ∃ url, slice buf o n = "http://".toList ++ url ∧
      checkAddr enableIpv6 client (url.head? = some '[') ((hostChars url).take 47) = true := by
  induction fuel generalizing off len with
  | zero => simp [checkUrls] at accepted
  | succ fuel ih =>
    have next : ∀ i, off < i → i ≤ off + len →
        ((nextUrl buf (off + len) i).bind fun p =>
          checkUrls enableIpv6 client buf fuel p (len - (p - off))) = some (o, n) →
        ∃ url, slice buf o n = "http://".toList ++ url ∧
          checkAddr enableIpv6 client (url.head? = some '[') ((hostChars url).take 47) = true := by
      intro i later before again
      obtain ⟨q, found, rest⟩ := Option.bind_eq_some_iff.mp again
      have bounds := nextUrl_bounds found before
      exact ih (by omega) rest
    unfold checkUrls at accepted
    dsimp only at accepted
    split at accepted
    · simp at accepted
    · rename_i present
      split at accepted
      · exact next _ (by omega) (by omega) accepted
      · rename_i scheme
        rw [not_not] at scheme
        obtain ⟨q, host, closing⟩ := urlHost_eq inside (show 10 ≤ len by omega)
        have bounds := @urlHost_bounds buf (off + len) (off + 8) (by omega)
        rw [host] at accepted bounds
        dsimp only at accepted bounds
        split at accepted
        · rename_i valid
          obtain ⟨rfl, rfl⟩ := Prod.mk.inj (Option.some.inj accepted)
          refine ⟨urlText buf off len, ?_, valid⟩
          rw [closing, slice_url scheme inside (by omega)]
        · exact next _ (by omega) bounds.2 accepted

/-- More rounds than the header has characters are never needed. -/
theorem checkUrls_fuel {fuel fuel' : Nat} (enough : len ≤ fuel) (enough' : len ≤ fuel') :
    checkUrls enableIpv6 client buf fuel off len =
      checkUrls enableIpv6 client buf fuel' off len := by
  induction fuel generalizing off len fuel' with
  | zero =>
    cases fuel' with
    | zero => rfl
    | succ fuel' =>
      have empty : off = 0 ∨ len < 10 := by omega
      unfold checkUrls
      rw [if_pos empty]
  | succ fuel ih =>
    cases fuel' with
    | zero =>
      have empty : off = 0 ∨ len < 10 := by omega
      unfold checkUrls
      rw [if_pos empty]
    | succ fuel' =>
      by_cases empty : off = 0 ∨ len < 10
      · unfold checkUrls
        rw [if_pos empty, if_pos empty]
      · have next : ∀ i, off < i → i ≤ off + len →
            ((nextUrl buf (off + len) i).bind fun p =>
              checkUrls enableIpv6 client buf fuel p (len - (p - off))) =
            (nextUrl buf (off + len) i).bind fun p =>
              checkUrls enableIpv6 client buf fuel' p (len - (p - off)) := by
          intro i later before
          apply Option.bind_congr
          intro q found
          have bounds := nextUrl_bounds found before
          exact ih (by omega) (by omega)
        have bounds := @urlHost_bounds buf (off + len) (off + 8) (by omega)
        unfold checkUrls
        dsimp only
        rw [next (off + 1) (by omega) (by omega), next _ (by omega) bounds.2]

end check

section host
variable {enableIpv6 : Bool} {client : Client} {addrstr url u more : List Char}

theorem checkAddr_bracket (valid : checkAddr enableIpv6 client true addrstr = true) :
    enableIpv6 = true ∧ ∃ a, inetPton6 (untilNul addrstr) = some a ∧
      (HostAddr.v6 a).mapped = (client.address enableIpv6).mapped := by
  unfold checkAddr at valid
  rw [if_pos rfl] at valid
  split at valid
  · rename_i enabled
    refine ⟨enabled, ?_⟩
    split at valid
    · simp at valid
    · rename_i a read
      obtain ⟨ipv6, same⟩ := of_decide_eq_true valid
      refine ⟨a, read, ?_⟩
      rw [Client.address, if_pos ⟨enabled, ipv6⟩, same]
  · simp at valid

theorem v4Mapped_v4Of {a : In6Addr} (mapped : isV4Mapped a = true) : v4Mapped (v4Of a) = a := by
  apply BitVec.eq_of_toNat_eq
  have high := of_decide_eq_true mapped
  have bound := a.isLt
  simp only [v4Mapped, v4Of, BitVec.toNat_ofNat, BitVec.toNat_setWidth]
  omega

theorem checkAddr_plain (valid : checkAddr enableIpv6 client false addrstr = true) :
    ∃ a, inetPton (untilNul addrstr) = some a ∧
      (HostAddr.v4 a).mapped = (client.address enableIpv6).mapped := by
  unfold checkAddr at valid
  rw [if_neg (by decide)] at valid
  split at valid
  · simp at valid
  · rename_i a read
    refine ⟨a, read, ?_⟩
    unfold Client.address
    split at valid
    · rename_i ipv6
      obtain ⟨mapped, same⟩ := of_decide_eq_true valid
      rw [if_pos ipv6, same]
      exact v4Mapped_v4Of mapped
    · rename_i ipv4
      rw [if_neg ipv4, of_decide_eq_true valid]

theorem untilNul_takeWhile (p : Char → Bool) (s : List Char) :
    untilNul (s.takeWhile p) = (untilNul s).takeWhile p := by
  rw [untilNul, untilNul, List.takeWhile_takeWhile, List.takeWhile_takeWhile]
  congr 1
  funext c
  simp [and_comm]

theorem untilNul_end (s t : List Char) : untilNul (s ++ '\x00' :: t) = untilNul s := by
  unfold untilNul
  rw [List.takeWhile_append]
  split
  · rename_i whole
    rw [List.takeWhile_cons_of_neg (by decide), List.append_nil]
    exact ((List.takeWhile_prefix _).eq_of_length whole).symm
  · rfl

/-- Memory with a string in it starts with the characters of that string and a NUL. -/
theorem untilNul_memory (s t : List Char) :
    ∃ more, s ++ '\x00' :: t = untilNul s ++ '\x00' :: more ∧ '\x00' ∉ untilNul s := by
  have member : '\x00' ∈ s ++ '\x00' :: t := by simp
  obtain ⟨u, more, parts, absent⟩ := List.eq_append_cons_of_mem member
  have same : untilNul s = u := by
    rw [← untilNul_end s t, parts, untilNul_end, untilNul_text absent]
  rw [same]
  exact ⟨more, parts, absent⟩

theorem head_untilNul (url : List Char) :
    (untilNul url).head? = some '[' ↔ url.head? = some '[' := by
  cases url with
  | nil => rfl
  | cons c url =>
    by_cases nul : c = '\x00'
    · subst nul
      simp [untilNul]
    · rw [untilNul, List.takeWhile_cons_of_pos (by simpa using nul)]
      rfl

theorem hostChars_untilNul (url : List Char) :
    untilNul (hostChars url) = hostChars (untilNul url) := by
  by_cases bracket : url.head? = some '['
  · rw [hostChars, if_pos bracket, hostChars, if_pos ((head_untilNul url).mpr bracket),
      untilNul_takeWhile]
    cases url with
    | nil => rfl
    | cons c url =>
      obtain rfl : c = '[' := by simpa using bracket
      have shorter : untilNul ('[' :: url) = '[' :: untilNul url := rfl
      rw [shorter]
      rfl
  · have plain := mt (head_untilNul url).mp bracket
    rw [hostChars, if_neg bracket, hostChars, if_neg plain, untilNul_takeWhile]

theorem hostChars_text (url : List Char) :
    untilNul ((hostChars url).take 47) = (hostChars (untilNul url)).take 47 := by
  rw [← hostChars_untilNul, untilNul, ← List.take_takeWhile, untilNul]

/-- What ends the host for the second reader. In the build without IPv6, an address that
    fills the buffer for it ends there. -/
def Delimited (enableIpv6 : Bool) (callback : CString) : Prop :=
  let url := callback.drop 7
  if enableIpv6 = true ∧ url.head? = some '[' then ']' ∈ url
  else '/' ∈ url ∨ ':' ∈ url ∨ enableIpv6 = false ∧ 15 ≤ url.length

instance (callback : CString) : Decidable (Delimited enableIpv6 callback) := by
  unfold Delimited
  infer_instance

/-- The rest of the URL is read up to its end, if the host is. -/
theorem path_le_iff (s : CString) :
    (upnpEventNotifyConnect enableIpv6 (s ++ '\x00' :: more)).path ≤ s.length ↔
      (notifyHost enableIpv6 (s ++ '\x00' :: more)).2 ≤ s.length := by
  unfold upnpEventNotifyConnect
  dsimp only
  split
  · rename_i colon
    constructor
    · intro inside
      dsimp only [skip] at inside
      omega
    · intro inside
      generalize (notifyHost enableIpv6 (s ++ '\x00' :: more)).2 = i at *
      have before : i < s.length := by
        rcases Nat.lt_or_eq_of_le inside with less | equal
        · exact less
        · rw [equal, charAt_end] at colon
          exact absurd colon (by decide)
      have rest : (s ++ '\x00' :: more).drop (i + 1) = s.drop (i + 1) ++ '\x00' :: more :=
        List.drop_append_of_le_length before
      have ends := @length_takeWhile_le (fun c => c ≠ '\x00' ∧ c ≠ '/') more (s.drop (i + 1)) '\x00'
        (by decide)
      rw [List.length_drop] at ends
      dsimp only [skip]
      rw [rest]
      omega
  · rfl

theorem notify_addr (mem : List Char) : (upnpEventNotifyConnect enableIpv6 mem).addr =
    notifyAddr enableIpv6 (enableIpv6 ∧ charAt mem 7 = '[') (notifyHost enableIpv6 mem).1 := by
  unfold upnpEventNotifyConnect
  dsimp only
  split
  · rfl
  · rfl

theorem charAt_host {c : Char} (nul : c ≠ '\x00') :
    charAt ("http://".toList ++ u ++ '\x00' :: more) 7 = c ↔ u.head? = some c := by
  cases u with
  | nil =>
    constructor
    · intro same
      exact absurd same nul.symm
    · intro same
      simp at same
  | cons d u =>
    constructor
    · intro same
      exact congrArg some same
    · intro same
      exact Option.some.inj same

/-- The second reader, of an IPv4 address. -/
theorem plain_iff {a : InAddr} (plain : '\x00' ∉ u)
    (first : ¬ (enableIpv6 = true ∧ u.head? = some '['))
    (read : inetPton ((u.takeWhile fun c => c ≠ '/' ∧ c ≠ ':').take 47) = some a) :
    ((upnpEventNotifyConnect enableIpv6 ("http://".toList ++ u ++ '\x00' :: more)).path ≤
        ("http://".toList ++ u).length ↔ Delimited enableIpv6 ("http://".toList ++ u)) ∧
      (Delimited enableIpv6 ("http://".toList ++ u) →
        (upnpEventNotifyConnect enableIpv6 ("http://".toList ++ u ++ '\x00' :: more)).addr =
          .v4 a) := by
  have written := (inetPton_iff _ a).mp read
  have short := inetNtoa_length a
  have whole : (u.takeWhile fun c => c ≠ '/' ∧ c ≠ ':') = inetNtoa a := by
    rw [← written, List.length_take] at short
    rw [← written, List.take_of_length_le (by omega)]
  have other : ¬ (enableIpv6 = true ∧
      charAt ("http://".toList ++ u ++ '\x00' :: more) 7 = '[') := by
    rwa [charAt_host (by decide)]
  have host : notifyHost enableIpv6 ("http://".toList ++ u ++ '\x00' :: more) =
      (copyWhile (fun c => c ≠ '/' ∧ c ≠ ':') ("http://".toList ++ u ++ '\x00' :: more)
          (if enableIpv6 then 47 else 15) 7,
        7 + (copyWhile (fun c => c ≠ '/' ∧ c ≠ ':') ("http://".toList ++ u ++ '\x00' :: more)
          (if enableIpv6 then 47 else 15) 7).length) := by
    rw [notifyHost, if_neg other]
  have scheme : ("http://".toList ++ u).length = 7 + u.length := List.length_append
  have drop : ("http://".toList ++ u).drop 7 = u := rfl
  have size : 15 ≤ if enableIpv6 = true then 47 else 15 := by
    split
    · decide
    · decide
  rw [path_le_iff, notify_addr, host, scheme, decide_eq_false other]
  unfold Delimited
  rw [drop, if_neg first]
  dsimp only
  have start : ("http://".toList ++ u ++ '\x00' :: more).drop 7 = u ++ '\x00' :: more := rfl
  have unstopped : (∀ c ∈ u, decide (c ≠ '/' ∧ c ≠ ':') = true) → u.length ≤ 15 := by
    intro none
    rw [← List.takeWhile_eq_self_iff, whole] at none
    rw [← none]
    exact short
  by_cases stop : (∃ c ∈ u, decide (c ≠ '/' ∧ c ≠ ':') = false) ∨
      (if enableIpv6 = true then 47 else 15) ≤ u.length
  · have copied := copyWhile_stops start stop
    rw [whole, List.take_of_length_le (short.trans size)] at copied
    have inside : (inetNtoa a).length ≤ u.length := by
      rw [← whole]
      exact (List.takeWhile_prefix _).length_le
    have text : untilNul (inetNtoa a) = inetNtoa a := by
      apply untilNul_text
      rw [← whole]
      exact fun member => plain ((List.takeWhile_prefix _).subset member)
    rw [copied]
    refine ⟨iff_of_true (by omega) ?_, fun _ => ?_⟩
    · by_cases ends : ∃ c ∈ u, decide (c ≠ '/' ∧ c ≠ ':') = false
      · obtain ⟨c, member, stops⟩ := ends
        rcases Decidable.em (c = '/') with rfl | slash
        · exact .inl member
        · have colon : c = ':' := by simpa [slash] using stops
          exact .inr (.inl (colon ▸ member))
      · have full := stop.resolve_left ends
        simp only [not_exists, not_and, Bool.not_eq_false] at ends
        have few := unstopped ends
        cases enableIpv6 with
        | true =>
          rw [if_pos rfl] at full
          omega
        | false => exact .inr (.inr ⟨rfl, full⟩)
    · rw [notifyAddr, if_neg (by decide), text, (inetPton_iff _ a).mpr rfl, inetAton_inetNtoa]
      simp
  · rw [not_or, not_le] at stop
    obtain ⟨none, room⟩ := stop
    simp only [not_exists, not_and, Bool.not_eq_false] at none
    have past := copyWhile_passes start (by decide) none room
    have undelimited : ¬ ('/' ∈ u ∨ ':' ∈ u ∨ enableIpv6 = false ∧ 15 ≤ u.length) := by
      rintro (slash | colon | ⟨rfl, full⟩)
      · exact absurd (none _ slash) (by decide)
      · exact absurd (none _ colon) (by decide)
      · rw [if_neg (by decide)] at room
        omega
    exact ⟨iff_of_false (by omega) undelimited, fun delimited => absurd delimited undelimited⟩

/-- The second reader, of an IPv6 address. -/
theorem bracket_iff {a : In6Addr} {t : List Char} (plain : '\x00' ∉ t) (enabled : enableIpv6 = true)
    (read : inetPton6 ((t.takeWhile (· ≠ ']')).take 47) = some a) :
    ((upnpEventNotifyConnect enableIpv6 ("http://".toList ++ '[' :: t ++ '\x00' :: more)).path ≤
        ("http://".toList ++ '[' :: t).length ↔
          Delimited enableIpv6 ("http://".toList ++ '[' :: t)) ∧
      (Delimited enableIpv6 ("http://".toList ++ '[' :: t) →
        (upnpEventNotifyConnect enableIpv6 ("http://".toList ++ '[' :: t ++ '\x00' :: more)).addr =
          .v6 a) := by
  have bracket : enableIpv6 = true ∧
      charAt ("http://".toList ++ '[' :: t ++ '\x00' :: more) 7 = '[' := ⟨enabled, rfl⟩
  have start : ("http://".toList ++ '[' :: t ++ '\x00' :: more).drop 8 = t ++ '\x00' :: more := rfl
  have scheme : ("http://".toList ++ '[' :: t).length = 8 + t.length := by
    rw [List.length_append, List.length_cons]
    have seven : ("http://".toList).length = 7 := rfl
    omega
  obtain ⟨nonempty, short⟩ := inetPton6_length read
  have whole : (t.takeWhile (· ≠ ']')).take 47 = t.takeWhile (· ≠ ']') := by
    rw [List.length_take] at short
    rw [List.take_of_length_le (by omega)]
  rw [whole] at read nonempty short
  have delimited : Delimited enableIpv6 ("http://".toList ++ '[' :: t) ↔ ']' ∈ t := by
    have drop : ("http://".toList ++ '[' :: t).drop 7 = '[' :: t := rfl
    unfold Delimited
    rw [drop, if_pos ⟨enabled, rfl⟩]
    simp
  rw [path_le_iff, notify_addr, scheme, delimited, decide_eq_true bracket]
  unfold notifyHost
  rw [if_pos bracket]
  dsimp only
  by_cases closed : ']' ∈ t
  · have stop : ∃ c ∈ t, (fun c => decide (c ≠ ']')) c = false := ⟨']', closed, by decide⟩
    have copied := copyWhile_stops start (.inl stop : _ ∨ 46 ≤ t.length)
    rw [List.take_of_length_le (by omega)] at copied
    obtain ⟨w, rest, rfl, absent⟩ := List.eq_append_cons_of_mem closed
    have cut : (w ++ ']' :: rest).takeWhile (· ≠ ']') = w := by
      rw [takeWhile_ne_append absent]
      simp
    rw [cut] at copied read short nonempty
    have ends : charAt ("http://".toList ++ '[' :: (w ++ ']' :: rest) ++ '\x00' :: more)
        (8 + w.length) = ']' := by
      have shape : "http://".toList ++ '[' :: (w ++ ']' :: rest) ++ '\x00' :: more =
          ("http://[".toList ++ w) ++ ']' :: (rest ++ '\x00' :: more) := by
        simp
      have size : 8 + w.length = ("http://[".toList ++ w).length := by
        rw [List.length_append]
        rfl
      rw [shape, size, charAt_end]
    have text : untilNul ('[' :: w ++ [']']) = '[' :: w ++ [']'] := by
      apply untilNul_text
      intro member
      simp at member plain
      exact plain.1 member
    rw [copied, if_pos ends, if_pos (show w.length < 46 by omega)]
    refine ⟨iff_of_true ?_ closed, fun _ => ?_⟩
    · rw [List.length_append, List.length_cons]
      omega
    · have inner : slice ('[' :: w ++ [']']) 1 (('[' :: w ++ [']']).length - 2) = w := by
        simp [slice]
      have long : 2 < ('[' :: w ++ [']']).length := by
        simp only [List.length_append, List.length_cons, List.length_nil]
        omega
      rw [notifyAddr, if_pos rfl, text, if_pos long, inner, read]
      rfl
  · have none : ∀ c ∈ t, decide (c ≠ ']') = true := by
      intro c member
      exact decide_eq_true fun same => closed (same ▸ member)
    rw [List.takeWhile_eq_self_iff.mpr none] at short
    have past := copyWhile_passes start (by decide) none (show t.length < 46 by omega)
    refine ⟨iff_of_false ?_ closed, fun delimited => absurd delimited closed⟩
    split
    · omega
    · omega

end host

section header
variable {buf : List Char}

/-- The value of the header ends with a closing bracket, or it has one character. -/
def InRequest (buf : List Char) (h : HttpHeaders) : Prop :=
  h.reqCallbackLen ≤ 1 ∨ h.reqCallbackOff + h.reqCallbackLen ≤ buf.length

theorem lastBracket_within (i n : Nat) :
    lastBracket buf i n = 0 ∨ i + lastBracket buf i n < buf.length := by
  induction n with
  | zero => exact .inl rfl
  | succ n ih =>
    unfold lastBracket
    split
    · rename_i bracket
      right
      by_contra beyond
      rw [charAt, List.getD_eq_getElem?_getD, List.getElem?_eq_none (by omega)] at bracket
      exact absurd bracket (by decide)
    · exact ih

theorem parseLine_inRequest {h : HttpHeaders} (before : InRequest buf h) (line : Nat) :
    InRequest buf (parseLine buf h line) := by
  unfold parseLine
  cases colonOf buf line with
  | none => exact before
  | some colon =>
    dsimp only
    split
    · exact before
    · split
      · exact before
      · split
        · exact before
        · split
          · split
            · exact before
            · exact before
          · split
            · rcases @lastBracket_within buf (skip (fun c => c ≠ '<' ∧ c ≠ '\r') buf colon)
                (skip (· ≠ '\r') buf (skip (fun c => c ≠ '<' ∧ c ≠ '\r') buf colon) -
                  skip (fun c => c ≠ '<' ∧ c ≠ '\r') buf colon) with empty | within
              · left
                simp only [callbackValue, empty]
                omega
              · right
                simp only [callbackValue]
                omega
            · exact before

theorem parsed_inRequest (contentoff : Nat) :
    InRequest buf (parseHttpHeaders buf contentoff .none) := by
  unfold parseHttpHeaders
  have start : InRequest buf .none := .inl (by decide)
  generalize HttpHeaders.none = h at *
  induction lineStarts buf contentoff contentoff 0 generalizing h with
  | nil => exact start
  | cons line lines ih => exact ih _ (parseLine_inRequest start line)

end header

section dial
variable {build : EventBuild} {client : Client} {buf : List Char} {off len contentoff : Nat}
  {eventurl : CString} {sub : Subscriber}

theorem checkCallbackURL_some
    (accepted : checkCallbackURL build.enableIpv6 client buf
      (parseHttpHeaders buf contentoff .none) = some (off, len)) :
    ∃ url, slice buf off len = "http://".toList ++ url ∧
      checkAddr build.enableIpv6 client (url.head? = some '[') ((hostChars url).take 47) =
        true := by
  rcases @parsed_inRequest buf contentoff with tiny | inside
  · unfold checkCallbackURL at accepted
    generalize (parseHttpHeaders buf contentoff .none).reqCallbackLen = n at *
    cases n with
    | zero => simp [checkUrls] at accepted
    | succ n =>
      unfold checkUrls at accepted
      rw [if_pos (by omega)] at accepted
      simp at accepted
  · exact checkUrls_some inside accepted

theorem newSubscriber_callback {callback : List Char}
    (stored : newSubscriber build eventurl callback = some sub) :
    sub.callback = callback ++ ['\x00'] := by
  unfold newSubscriber at stored
  split at stored
  · simp at stored
  · obtain ⟨service, _, rfl⟩ := Option.map_eq_some_iff.mp stored
    rfl

/-- The notification is read from the stored URL alone, and goes to the client, exactly if
    something ends the host. Whatever follows the URL in memory. -/
theorem dialled_iff
    (accepted : checkCallbackURL build.enableIpv6 client buf
      (parseHttpHeaders buf contentoff .none) = some (off, len))
    (stored : newSubscriber build eventurl (slice buf off len) = some sub) (heap : List Char) :
    ((upnpEventNotifyConnect build.enableIpv6 (sub.callback ++ heap)).path ≤
          (untilNul sub.callback).length ∧
        (upnpEventNotifyConnect build.enableIpv6 (sub.callback ++ heap)).addr.mapped =
          (client.address build.enableIpv6).mapped) ↔
      Delimited build.enableIpv6 (untilNul sub.callback) := by
  obtain ⟨url, text, valid⟩ := checkCallbackURL_some accepted
  have callback := newSubscriber_callback stored
  rw [text] at callback
  obtain ⟨more, memory, plain⟩ := untilNul_memory url heap
  have string : untilNul sub.callback = "http://".toList ++ untilNul url := by
    rw [callback, untilNul_end]
    rfl
  have whole : sub.callback ++ heap = "http://".toList ++ untilNul url ++ '\x00' :: more := by
    rw [callback, List.append_assoc, List.append_assoc, List.singleton_append, memory,
      List.append_assoc]
  have host := hostChars_text url
  rw [string, whole]
  by_cases bracket : url.head? = some '['
  · rw [decide_eq_true bracket] at valid
    obtain ⟨enabled, a, read, same⟩ := checkAddr_bracket valid
    obtain ⟨t, inside⟩ : ∃ t, untilNul url = '[' :: t := by
      have first := (head_untilNul url).mpr bracket
      cases shape : untilNul url with
      | nil => simp [shape] at first
      | cons c t =>
        rw [shape] at first
        exact ⟨t, by rw [Option.some.inj first]⟩
    rw [host, inside] at read
    rw [inside] at plain ⊢
    obtain ⟨within, reached⟩ := @bracket_iff _ more a t
      (fun member => plain (List.mem_cons_of_mem _ member)) enabled read
    constructor
    · rintro ⟨path, -⟩
      exact within.mp path
    · intro delimited
      refine ⟨within.mpr delimited, ?_⟩
      rw [reached delimited, same]
  · rw [decide_eq_false bracket] at valid
    obtain ⟨a, read, same⟩ := checkAddr_plain valid
    have first := mt (head_untilNul url).mp bracket
    rw [host, hostChars, if_neg first] at read
    obtain ⟨within, reached⟩ := @plain_iff build.enableIpv6 (untilNul url) more a plain
      (fun both => first both.2) read
    constructor
    · rintro ⟨path, -⟩
      exact within.mp path
    · intro delimited
      refine ⟨within.mpr delimited, ?_⟩
      rw [reached delimited, same]

end dial

def subscribeRequest (callback : String) : List Char :=
  ("SUBSCRIBE /evt/IPConn HTTP/1.1\r\nCallback: " ++ callback ++ "\r\n\r\n").toList

/-- A build with IPv6. -/
def dualBuild : EventBuild :=
  { enableIpv6 := true, enableL3fService := false, enable6fcService := true
    enableDpService := false }

def lanClient : Client :=
  { ipv6 := false, clientaddr := ofBytes 192 168 0 2, clientaddrV6 := 0 }

def subscribed (callback : String) : Subscriber :=
  { service := .wanIpc, callback := callback.toList ++ ['\x00'] }

theorem dialled_path :
    ((upnpEventNotifyConnect true
          ((subscribed "http://192.168.0.2:5000/evt").callback ++ "old data".toList)).path ≤
          (untilNul (subscribed "http://192.168.0.2:5000/evt").callback).length ∧
        (upnpEventNotifyConnect true
          ((subscribed "http://192.168.0.2:5000/evt").callback ++ "old data".toList)).addr.mapped =
          (lanClient.address true).mapped) ↔
      Delimited true (untilNul (subscribed "http://192.168.0.2:5000/evt").callback) := by
  refine @dialled_iff dualBuild lanClient
    (subscribeRequest "<http://10.0.0.9/a> <http://192.168.0.2:5000/evt>") 63 27
    (subscribeRequest "<http://10.0.0.9/a> <http://192.168.0.2:5000/evt>").length
    "/evt/IPConn".toList (subscribed "http://192.168.0.2:5000/evt") ?_ ?_ "old data".toList
  · decide
  · decide

/-- A URL without a port and a path. -/
theorem bare_url_overrun :
    checkCallbackURL true lanClient (subscribeRequest "<http://192.168.0.2>")
        (parseHttpHeaders (subscribeRequest "<http://192.168.0.2>")
          (subscribeRequest "<http://192.168.0.2>").length .none) = some (43, 18) ∧
      newSubscriber dualBuild "/evt/IPConn".toList
        (slice (subscribeRequest "<http://192.168.0.2>") 43 18) =
        some (subscribed "http://192.168.0.2") ∧
      ¬ (upnpEventNotifyConnect true
        ((subscribed "http://192.168.0.2").callback ++ "old data".toList)).path ≤
        (untilNul (subscribed "http://192.168.0.2").callback).length := by
  refine ⟨?_, ?_, ?_⟩
  · decide
  · decide
  · decide

end CallbackUrls
