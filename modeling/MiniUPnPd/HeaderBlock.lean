import MiniUPnPd.UpnpHttp

/-!
What `ParseHttpHeaders` reads of a buffer that goes on after the empty line. Each of its scans
stops at a carriage return of the header block at the latest, but for one: a Content-Length
line without a digit lets `atoi` skip the line end and read on.
-/
namespace HeaderBlock
open CText UpnpHttp

/-- The text ends with the end of a line and the empty line after it. -/
def Block (pre : List Char) : Prop := ∃ w, pre = w ++ "\r\n\r\n".toList

section scans
variable {pre : List Char} {i : Nat}

theorem Block.long (block : Block pre) : 4 ≤ pre.length := by
  obtain ⟨w, rfl⟩ := block
  simp

/-- From an index before the last line end, the rest of the block is a text and that line end. -/
theorem Block.rest (block : Block pre) (inside : i + 2 ≤ pre.length) :
    ∃ w, pre.drop i = w ++ ['\r', '\n'] ∧ i + w.length + 2 = pre.length := by
  obtain ⟨v, rfl⟩ := block
  refine ⟨(v ++ ['\r', '\n']).drop i, ?_, ?_⟩
  · have shape : v ++ "\r\n\r\n".toList = (v ++ ['\r', '\n']) ++ ['\r', '\n'] := by simp
    rw [shape] at inside ⊢
    rw [List.drop_append_of_le_length (by simpa using inside)]
  · simp only [List.length_append, List.length_drop, List.length_cons, List.length_nil] at inside ⊢
    have four : ("\r\n\r\n".toList).length = 4 := rfl
    omega

theorem drop_append (inside : i + 2 ≤ pre.length) (x : List Char) :
    (pre ++ x).drop i = pre.drop i ++ x :=
  List.drop_append_of_le_length (by omega)

theorem skip_append (block : Block pre) (inside : i + 2 ≤ pre.length) (p : Char → Bool)
    (stops : p '\r' = false) (x : List Char) :
    skip p (pre ++ x) i = skip p pre i ∧ skip p pre i + 2 ≤ pre.length := by
  obtain ⟨w, rest, length⟩ := block.rest inside
  have short := (List.takeWhile_prefix p (l := w)).length_le
  unfold skip
  rw [drop_append inside, rest, List.append_assoc, List.cons_append, takeWhile_append_stop stops,
    takeWhile_append_stop stops]
  omega

theorem charAt_append (inside : i < pre.length) (x : List Char) :
    charAt (pre ++ x) i = charAt pre i := by
  rw [charAt, charAt, List.getD_eq_getElem?_getD, List.getD_eq_getElem?_getD,
    List.getElem?_append_left inside]

theorem slice_append {n : Nat} (inside : i + n ≤ pre.length) (x : List Char) :
    slice (pre ++ x) i n = slice pre i n := by
  rw [slice, slice, List.drop_append_of_le_length (by omega), List.take_append_of_le_length]
  rw [List.length_drop]
  omega

/-- No name reaches over the end of a line. -/
theorem startsWith_append (block : Block pre) (inside : i + 2 ≤ pre.length) {name : CString}
    (plain : '\r' ∉ name.map tolower) (x : List Char) :
    startsWith (pre ++ x) i name = startsWith pre i name := by
  obtain ⟨w, rest, length⟩ := block.rest inside
  by_cases short : name.length ≤ w.length
  · rw [startsWith, startsWith, slice_append (by omega)]
  · have past : ∀ y, strcaseeq ((w ++ '\r' :: y).take name.length) name = false := by
      intro y
      rw [strcaseeq, decide_eq_false_iff_not]
      intro same
      apply plain
      rw [← same, List.mem_map]
      refine ⟨'\r', ?_, by decide⟩
      rw [List.take_append, List.mem_append]
      right
      have more : name.length - w.length = name.length - w.length - 1 + 1 := by omega
      rw [more, List.take_succ_cons]
      exact List.mem_cons_self
    rw [startsWith, startsWith, slice, slice, drop_append inside, rest, List.append_assoc,
      List.cons_append, past, past]

theorem crlfAt_append (w x : List Char) :
    crlfAt (w ++ '\r' :: '\n' :: x) = crlfAt (w ++ ['\r', '\n']) ∧
      crlfAt (w ++ ['\r', '\n']) ≤ w.length := by
  induction w with
  | nil => exact ⟨rfl, Nat.le_refl 0⟩
  | cons c w ih =>
    have same : "\r\n".toList.isPrefixOf (c :: (w ++ '\r' :: '\n' :: x)) =
        "\r\n".toList.isPrefixOf (c :: (w ++ ['\r', '\n'])) := by
      cases w with
      | nil => rfl
      | cons d w => simp [List.isPrefixOf]
    rw [List.cons_append, List.cons_append, crlfAt, crlfAt, same, List.length_cons, ih.1]
    split
    · omega
    · have bound := ih.2
      omega

/-- The next line starts before the empty line, at it, or after the block. -/
theorem nextLine_append (block : Block pre) (inside : i + 2 ≤ pre.length) (x : List Char) :
    nextLine (pre ++ x) i = nextLine pre i ∧
      (nextLine pre i + 2 ≤ pre.length ∨ nextLine pre i = pre.length) := by
  obtain ⟨w, rest, length⟩ := block.rest inside
  have here := crlfAt_append w x
  unfold nextLine
  rw [drop_append inside, rest, List.append_assoc, List.cons_append, List.cons_append,
    List.nil_append, here.1]
  refine ⟨rfl, ?_⟩
  obtain ⟨v, rfl⟩ := block
  have four : ("\r\n\r\n".toList).length = 4 := rfl
  rw [List.length_append, four] at inside length ⊢
  by_cases before : i ≤ v.length
  · have shape : w = v.drop i ++ ['\r', '\n'] := by
      rw [List.drop_append_of_le_length before] at rest
      have ends : v.drop i ++ "\r\n\r\n".toList = (v.drop i ++ ['\r', '\n']) ++ ['\r', '\n'] := by
        simp
      rw [ends] at rest
      exact (List.append_cancel_right rest).symm
    have bound := (crlfAt_append (v.drop i) ['\r', '\n']).2
    have same := (crlfAt_append (v.drop i) ['\r', '\n']).1
    rw [List.length_drop] at bound
    rw [shape, List.append_assoc, List.cons_append, List.cons_append, List.nil_append, same]
    omega
  · have last : i = v.length + 1 ∨ i = v.length + 2 := by omega
    right
    rcases last with rfl | rfl
    · have one : w = ['\n'] := by
        rw [List.drop_length_add_append] at rest
        exact (List.append_cancel_right (rest : ['\n'] ++ ['\r', '\n'] = w ++ ['\r', '\n'])).symm
      rw [one]
      rfl
    · have none : w = [] := List.eq_nil_of_length_eq_zero (by omega)
      rw [none]
      rfl

theorem takeWhile_crlf {p : Char → Bool} (stops : p '\r' = false) (s : List Char) :
    (s.takeWhile p).length ≤ crlfAt s := by
  induction s with
  | nil => exact Nat.le_refl 0
  | cons c s ih =>
    unfold crlfAt
    split
    · rename_i ends
      have first : c = '\r' := by
        cases s with
        | nil => simp [List.isPrefixOf] at ends
        | cons d s =>
          simp [List.isPrefixOf] at ends
          exact ends.1.symm
      rw [first, List.takeWhile_cons_of_neg (by simp [stops])]
      exact Nat.le_refl 0
    · by_cases passes : p c = true
      · rw [List.takeWhile_cons_of_pos passes, List.length_cons]
        omega
      · rw [List.takeWhile_cons_of_neg passes]
        exact Nat.zero_le _

theorem crlfAt_drop {s : List Char} {k : Nat} (before : k ≤ crlfAt s) :
    k + crlfAt (s.drop k) = crlfAt s := by
  induction k generalizing s with
  | zero => simp
  | succ k ih =>
    cases s with
    | nil => simp [crlfAt] at before
    | cons c s =>
      unfold crlfAt at before
      split at before
      · omega
      · rename_i other
        have rest := @ih s (by omega)
        rw [List.drop_succ_cons, crlfAt, if_neg other]
        omega

/-- A scan that stops at a carriage return does not leave its line. -/
theorem skip_line (p : Char → Bool) (stops : p '\r' = false) {j : Nat} (after : i ≤ j)
    (before : j + 2 ≤ nextLine pre i) : skip p pre j + 2 ≤ nextLine pre i := by
  have short := takeWhile_crlf stops (pre.drop j)
  have line := @crlfAt_drop (pre.drop i) (j - i) (by unfold nextLine at before; omega)
  rw [List.drop_drop, show i + (j - i) = j by omega] at line
  unfold skip nextLine
  omega

theorem colonOf_append (block : Block pre) (inside : i + 2 ≤ pre.length) (x : List Char) :
    colonOf (pre ++ x) i = colonOf pre i := by
  have scan := skip_append block inside (fun c => c ≠ ':' ∧ c ≠ '\r' ∧ c ≠ '\n') (by decide) x
  unfold colonOf
  dsimp only
  rw [scan.1, charAt_append (by omega)]

theorem colonOf_some (block : Block pre) (inside : i + 2 ≤ pre.length) {colon : Nat}
    (found : colonOf pre i = some colon) :
    i ≤ colon ∧ colon + 2 ≤ pre.length ∧ charAt pre colon = ':' := by
  have scan := skip_append block inside (fun c => c ≠ ':' ∧ c ≠ '\r' ∧ c ≠ '\n') (by decide) []
  unfold colonOf at found
  dsimp only at found
  split at found
  · rename_i here
    obtain rfl := Option.some.inj found
    exact ⟨Nat.le_add_right _ _, scan.2, here⟩
  · simp at found

theorem colonOf_line {colon : Nat} (found : colonOf pre i = some colon) :
    colon + 2 ≤ nextLine pre i := by
  unfold colonOf at found
  dsimp only at found
  split at found
  · obtain rfl := Option.some.inj found
    apply skip_line _ (by decide) (Nat.le_refl i)
    unfold nextLine
    omega
  · simp at found

theorem soapActionValue_append (block : Block pre) (inside : i + 2 ≤ pre.length) (x : List Char) :
    soapActionValue (pre ++ x) i = soapActionValue pre i ∧
      (soapActionValue pre i).1 + (soapActionValue pre i).2.toNat ≤ pre.length := by
  have start := skip_append block inside (fun c => c = ':' ∨ c = ' ' ∨ c = '\t') (by decide) x
  have text := skip_append block start.2 isText (by decide) x
  unfold soapActionValue valueStart
  dsimp only
  rw [start.1, text.1, charAt_append (by omega), charAt_append (by omega)]
  refine ⟨rfl, ?_⟩
  split
  · dsimp only
    omega
  · dsimp only
    omega

theorem lastBracket_append {n : Nat} (inside : i + n < pre.length) (x : List Char) :
    lastBracket (pre ++ x) i n = lastBracket pre i n := by
  induction n with
  | zero => rfl
  | succ n ih => rw [lastBracket, lastBracket, charAt_append inside, ih (by omega)]

theorem callbackValue_append (block : Block pre) (inside : i + 2 ≤ pre.length) (x : List Char) :
    callbackValue (pre ++ x) i = callbackValue pre i := by
  have start := skip_append block inside (fun c => c ≠ '<' ∧ c ≠ '\r') (by decide) x
  have text := skip_append block start.2 (· ≠ '\r') (by decide) x
  have forward : skip (fun c => c ≠ '<' ∧ c ≠ '\r') pre i ≤
      skip (· ≠ '\r') pre (skip (fun c => c ≠ '<' ∧ c ≠ '\r') pre i) := Nat.le_add_right _ _
  unfold callbackValue
  dsimp only
  rw [start.1, text.1, lastBracket_append (by omega)]

/-- The number is read from the block, or past it. -/
theorem contentLength_append (block : Block pre) (inside : i + 2 ≤ pre.length) (x : List Char) :
    contentLength (pre ++ x) i =
      if (pre.drop (lengthStart pre i)).all isspace then (atoi x).toNat else contentLength pre i := by
  have start := skip_append block inside
    (fun c => c.isDigit = false ∧ c ≠ '\r' ∧ c ≠ '\n') (by decide) x
  unfold contentLength lengthStart
  rw [start.1, drop_append start.2]
  split
  · rename_i blank
    rw [atoi_blank_append blank]
  · rename_i visible
    obtain ⟨w, rest, length⟩ := block.rest start.2
    rw [rest] at visible ⊢
    have shown : (w ++ ['\r']).all isspace = false := by
      cases blank : (w ++ ['\r']).all isspace with
      | false => rfl
      | true =>
        have ends : w ++ ['\r', '\n'] = w ++ ['\r'] ++ ['\n'] := by simp
        rw [ends, List.all_append, blank] at visible
        exact absurd rfl visible
    have whole := @atoi_stop '\n' (by decide) (by decide) (w ++ ['\r']) (fun _ => shown) []
    have longer := @atoi_stop '\n' (by decide) (by decide) (w ++ ['\r']) (fun _ => shown) x
    rw [List.append_assoc, List.cons_append, List.nil_append] at whole longer
    rw [List.append_assoc, List.cons_append, List.cons_append, List.nil_append, longer, whole]

end scans

section headers
variable {pre : List Char} {i : Nat}

/-- The line is a Content-Length line with only white space after it in the block. -/
def readsOn (pre : List Char) (line : Nat) : Bool :=
  match colonOf pre line with
  | none => false
  | some colon =>
      startsWith pre line "Content-Length:".toList ∧
        (pre.drop (lengthStart pre colon)).all isspace

/-- The header block has such a line. -/
def ReadsBody (pre : List Char) : Prop :=
  (lineStarts pre pre.length pre.length 0).any (readsOn pre) = true

instance : Decidable (ReadsBody pre) := by
  unfold ReadsBody
  infer_instance

theorem parseLine_append (block : Block pre) (inside : i + 2 ≤ pre.length) (h : HttpHeaders)
    (x : List Char) :
    parseLine (pre ++ x) h i =
      if readsOn pre i then { parseLine pre h i with reqContentlen := (atoi x).toNat }
      else parseLine pre h i := by
  unfold parseLine readsOn
  rw [colonOf_append block inside]
  cases found : colonOf pre i with
  | none => rfl
  | some colon =>
    obtain ⟨after, within, here⟩ := colonOf_some block inside found
    have value := skip_append block within (fun c => c = ':' ∨ c = ' ' ∨ c = '\t') (by decide) x
    dsimp only
    rw [startsWith_append block inside (by decide), startsWith_append block inside (by decide),
      startsWith_append block inside (by decide), startsWith_append block inside (by decide),
      startsWith_append block inside (by decide), contentLength_append block within,
      (soapActionValue_append block within x).1, callbackValue_append block within]
    have expected : startsWith (pre ++ x) (valueStart (pre ++ x) colon) "100-continue".toList =
        startsWith pre (valueStart pre colon) "100-continue".toList := by
      unfold valueStart
      rw [value.1, startsWith_append block value.2 (by decide)]
    have host : valueStart (pre ++ x) colon = valueStart pre colon := value.1
    have word : skip isWord (pre ++ x) (valueStart pre colon) =
        skip isWord pre (valueStart pre colon) :=
      (skip_append block value.2 isWord (by decide) x).1
    rw [expected, host, word]
    by_cases length : startsWith pre i "Content-Length:".toList = true
    · rw [if_pos length, if_pos length]
      by_cases blank : (pre.drop (lengthStart pre colon)).all isspace = true
      · rw [if_pos blank, if_pos (decide_eq_true ⟨length, blank⟩)]
      · rw [if_neg blank, if_neg (by simp [blank])]
    · have other : ¬ decide (startsWith pre i "Content-Length:".toList = true ∧
          (pre.drop (lengthStart pre colon)).all isspace = true) = true :=
        fun both => length (of_decide_eq_true both).1
      rw [if_neg length, if_neg other, if_neg length]

/-- What the header fields refer to lies in the block. -/
structure InBlock (pre : List Char) (h : HttpHeaders) : Prop where
  host : h.reqHostOff + h.reqHostLen ≤ pre.length
  soapAction : h.reqSoapActionOff + h.reqSoapActionLen.toNat ≤ pre.length

theorem parseLine_inBlock (block : Block pre) (inside : i + 2 ≤ pre.length) {h : HttpHeaders}
    (before : InBlock pre h) : InBlock pre (parseLine pre h i) := by
  unfold parseLine
  cases found : colonOf pre i with
  | none => exact before
  | some colon =>
    obtain ⟨after, within, here⟩ := colonOf_some block inside found
    dsimp only
    split
    · exact ⟨before.host, before.soapAction⟩
    · split
      · have value := skip_append block within (fun c => c = ':' ∨ c = ' ' ∨ c = '\t') (by decide) []
        have word := skip_append block value.2 isWord (by decide) []
        refine ⟨?_, before.soapAction⟩
        dsimp only [valueStart]
        omega
      · split
        · have value := (soapActionValue_append block within []).2
          exact ⟨before.host, value⟩
        · split
          · split
            · exact ⟨before.host, before.soapAction⟩
            · exact before
          · split
            · exact ⟨before.host, before.soapAction⟩
            · exact before

theorem charAt_mem {start : Nat} (later : start ≤ i) (inside : i < pre.length) :
    charAt pre i ∈ pre.drop start := by
  have bound : i - start < (pre.drop start).length := by
    rw [List.length_drop]
    omega
  have same : (pre.drop start)[i - start] = charAt pre i := by
    have index : start + (i - start) = i := by omega
    rw [List.getElem_drop, charAt, List.getD_eq_getElem?_getD, List.getElem?_eq_getElem inside,
      Option.getD_some]
    congr 1
  exact same ▸ List.getElem_mem bound

/-- After white space alone no line has a colon. -/
theorem colonOf_blank (block : Block pre) (inside : i + 2 ≤ pre.length) {start : Nat}
    (blank : (pre.drop start).all isspace = true) (later : start ≤ i) : colonOf pre i = none := by
  cases found : colonOf pre i with
  | none => rfl
  | some colon =>
    obtain ⟨after, within, here⟩ := colonOf_some block inside found
    have member := charAt_mem (Nat.le_trans later after) (show colon < pre.length by omega)
    rw [here] at member
    have space := List.all_eq_true.mp blank _ member
    exact absurd space (by decide)

theorem lineStarts_append (block : Block pre) (x : List Char) (fuel : Nat)
    (start : i + 2 ≤ pre.length ∨ i = pre.length) :
    lineStarts (pre ++ x) pre.length fuel i = lineStarts pre pre.length fuel i := by
  induction fuel generalizing i with
  | zero => rfl
  | succ fuel ih =>
    unfold lineStarts
    split
    · have next := nextLine_append block (show i + 2 ≤ pre.length by omega) x
      rw [next.1, ih next.2]
    · rfl

theorem parse_blank (block : Block pre) {start : Nat}
    (blank : (pre.drop start).all isspace = true) (later : start ≤ i) (x : List Char) (fuel : Nat)
    (line : i + 2 ≤ pre.length ∨ i = pre.length) (h : HttpHeaders) :
    (lineStarts pre pre.length fuel i).foldl (parseLine (pre ++ x)) h = h := by
  induction fuel generalizing i h with
  | zero => rfl
  | succ fuel ih =>
    unfold lineStarts
    split
    · have inside : i + 2 ≤ pre.length := by omega
      have next := nextLine_append block inside x
      have forward : start ≤ nextLine pre i := by
        unfold nextLine
        omega
      have ignored : parseLine (pre ++ x) h i = h := by
        unfold parseLine
        rw [colonOf_append block inside, colonOf_blank block inside blank later]
      rw [List.foldl_cons, ignored]
      exact ih forward next.2 h
    · rfl

/-- The line that reads on is the last one with a name. -/
theorem parse_lines (block : Block pre) (x : List Char) (fuel : Nat)
    (start : i + 2 ≤ pre.length ∨ i = pre.length) (h : HttpHeaders) :
    (lineStarts pre pre.length fuel i).foldl (parseLine (pre ++ x)) h =
      if (lineStarts pre pre.length fuel i).any (readsOn pre) then
        { (lineStarts pre pre.length fuel i).foldl (parseLine pre) h with
          reqContentlen := (atoi x).toNat }
      else (lineStarts pre pre.length fuel i).foldl (parseLine pre) h := by
  induction fuel generalizing i h with
  | zero => rfl
  | succ fuel ih =>
    unfold lineStarts
    split
    · have inside : i + 2 ≤ pre.length := by omega
      have next := nextLine_append block inside x
      rw [List.foldl_cons, List.foldl_cons, List.any_cons, parseLine_append block inside]
      by_cases reads : readsOn pre i = true
      · have last := reads
        unfold readsOn at last
        cases found : colonOf pre i with
        | none => simp [found] at last
        | some colon =>
          simp only [found, Bool.decide_and, Bool.decide_eq_true, Bool.and_eq_true] at last
          obtain ⟨after, within, here⟩ := colonOf_some block inside found
          have line := skip_line (fun c => c.isDigit = false ∧ c ≠ '\r' ∧ c ≠ '\n') (by decide)
            after (colonOf_line found)
          have forward : lengthStart pre colon ≤ nextLine pre i := by
            unfold lengthStart
            omega
          have rest := parse_blank block last.2 forward x fuel next.2
          have rest' := parse_blank block last.2 forward [] fuel next.2
          rw [List.append_nil] at rest'
          rw [if_pos reads, rest, rest', reads]
          simp
      · rw [if_neg reads, ih next.2]
        simp [reads]
    · rfl

theorem parse_inBlock (block : Block pre) (fuel : Nat)
    (start : i + 2 ≤ pre.length ∨ i = pre.length) {h : HttpHeaders} (before : InBlock pre h) :
    InBlock pre ((lineStarts pre pre.length fuel i).foldl (parseLine pre) h) := by
  induction fuel generalizing i h with
  | zero => exact before
  | succ fuel ih =>
    unfold lineStarts
    split
    · have inside : i + 2 ≤ pre.length := by omega
      have next := nextLine_append block inside []
      exact ih next.2 (parseLine_inBlock block inside before)
    · exact before

/-- What follows the block changes at most the length of the content. -/
theorem parseHttpHeaders_append (block : Block pre) (x : List Char) (h : HttpHeaders) :
    parseHttpHeaders (pre ++ x) pre.length h =
      if ReadsBody pre then
        { parseHttpHeaders pre pre.length h with reqContentlen := (atoi x).toNat }
      else parseHttpHeaders pre pre.length h := by
  have long := block.long
  have start : 0 + 2 ≤ pre.length ∨ 0 = pre.length := by omega
  unfold parseHttpHeaders
  rw [lineStarts_append block x _ start, parse_lines block x _ start]
  rfl

theorem parsed_inBlock (block : Block pre) :
    InBlock pre (parseHttpHeaders pre pre.length .none) := by
  have long := block.long
  exact parse_inBlock block _ (show 0 + 2 ≤ pre.length ∨ 0 = pre.length by omega)
    ⟨Nat.zero_le _, Nat.zero_le _⟩

end headers

section search
variable {b y : List Char} {e : Nat}

theorem findendheaders_some (found : findendheaders b = some e) :
    e + 4 ≤ b.length ∧ Block (b.take (e + 4)) := by
  induction b generalizing e with
  | nil => simp [findendheaders] at found
  | cons c b ih =>
    unfold findendheaders at found
    split at found
    · rename_i ends
      obtain rfl := Option.some.inj found
      have front := List.isPrefixOf_iff_prefix.mp ends
      have four : ("\r\n\r\n".toList).length = 4 := rfl
      refine ⟨four ▸ front.length_le, [], ?_⟩
      have same := List.prefix_iff_eq_take.mp front
      rw [four] at same
      exact same.symm
    · obtain ⟨e', later, rfl⟩ := Option.map_eq_some_iff.mp found
      obtain ⟨inside, w, block⟩ := ih later
      refine ⟨Nat.succ_le_succ inside, c :: w, ?_⟩
      rw [show e' + 1 + 4 = e' + 4 + 1 by omega, List.take_succ_cons, block, List.cons_append]

/-- The end of the headers that is found first is found again in more text. -/
theorem findendheaders_append (found : findendheaders b = some e) (y : List Char) :
    findendheaders (b ++ y) = some e := by
  induction b generalizing e with
  | nil => simp [findendheaders] at found
  | cons c b ih =>
    unfold findendheaders at found
    rw [List.cons_append, findendheaders]
    split at found
    · rename_i ends
      have front := List.isPrefixOf_iff_prefix.mp ends
      have longer : "\r\n\r\n".toList.isPrefixOf (c :: (b ++ y)) = true :=
        List.isPrefixOf_iff_prefix.mpr (front.trans (List.prefix_append (c :: b) y))
      rw [if_pos longer]
      exact found
    · rename_i other
      obtain ⟨e', later, rfl⟩ := Option.map_eq_some_iff.mp found
      obtain ⟨inside, -⟩ := findendheaders_some later
      have elsewhere : ¬ "\r\n\r\n".toList.isPrefixOf (c :: (b ++ y)) = true := by
        intro ends
        apply other
        have front := List.isPrefixOf_iff_prefix.mp ends
        apply List.isPrefixOf_iff_prefix.mpr
        apply List.prefix_of_prefix_length_le front (List.prefix_append (c :: b) y)
        have four : ("\r\n\r\n".toList).length = 4 := rfl
        rw [four, List.length_cons]
        omega
      rw [if_neg elsewhere, ih later]
      rfl

/-- It is found as soon as it has been received. -/
theorem findendheaders_prefix (found : findendheaders (b ++ y) = some e)
    (received : e + 4 ≤ b.length) : findendheaders b = some e := by
  induction b generalizing e with
  | nil => simp at received
  | cons c b ih =>
    have four : ("\r\n\r\n".toList).length = 4 := rfl
    have same : "\r\n\r\n".toList.isPrefixOf (c :: (b ++ y)) =
        "\r\n\r\n".toList.isPrefixOf (c :: b) := by
      have long : 4 ≤ (c :: b).length := by omega
      apply Bool.eq_iff_iff.mpr
      rw [List.isPrefixOf_iff_prefix, List.isPrefixOf_iff_prefix]
      constructor
      · intro front
        exact List.prefix_of_prefix_length_le front (List.prefix_append (c :: b) y) (four ▸ long)
      · intro front
        exact front.trans (List.prefix_append (c :: b) y)
    rw [List.cons_append] at found
    unfold findendheaders at found ⊢
    rw [same] at found
    split at found
    · rename_i ends
      rw [if_pos ends]
      exact found
    · rename_i other
      obtain ⟨e', later, rfl⟩ := Option.map_eq_some_iff.mp found
      rw [if_neg other, ih later (by simpa using received)]
      rfl

end search

end HeaderBlock
