import MiniUPnPd.LeaseFile

/-!
How a line of the lease file is taken to pieces: in place, in the cells that hold the string
`fgets` has stored and its terminating NUL.
-/
namespace LeaseParsing
open CText Iptcrdr LeaseFile

inductive Stop
  | outside
  | unrecognized
  deriving DecidableEq

section cells

def readAt (mem : List Char) (i : Nat) : Except Stop Char :=
  match mem[i]? with
  | some c => .ok c
  | none => .error .outside

def writeNul (mem : List Char) (i : Nat) : Except Stop (List Char) :=
  if i < mem.length then .ok (mem.set i '\x00') else .error .outside

/-- Reads one cell after the other, and counts those before the first that stops it. -/
def advance (stop : Char → Bool) : List Char → Except Stop Nat
  | [] => .error .outside
  | c :: cells => if stop c then .ok 0 else (advance stop cells).map (· + 1)

/-- Overwrites the next colon, and returns where the text after it starts. -/
def cutAt (mem : List Char) (i : Nat) : Except Stop (List Char × Nat) := do
  let n ← advance (fun c => c = ':' || c = '\x00') (mem.drop i)
  let c ← readAt mem (i + n)
  if c = ':' then
    let mem ← writeNul mem (i + n)
    .ok (mem, i + n + 1)
  else .error .unrecognized

def stringAt (mem : List Char) (i : Nat) : Except Stop CString := do
  let n ← advance (· = '\x00') (mem.drop i)
  .ok ((mem.drop i).take n)

/-- The loop over the white space at the end, with `p` at so many cells after `desc`. -/
def trimEnd (mem : List Char) (desc : Nat) : Nat → Except Stop (List Char)
  | 0 => do
      let _ ← readAt mem desc
      .ok mem
  | n + 1 => do
      let c ← readAt mem (desc + n + 1)
      if isspace c then
        let mem ← writeNul mem (desc + n + 1)
        trimEnd mem desc n
      else .ok mem

def trimDescription (mem : List Char) (desc : Nat) : Except Stop (List Char × Nat) := do
  let skipped ← advance (fun c => !isspace c) (mem.drop desc)
  let desc := desc + skipped
  -- the loop that looks for the end tests the cell after `p`
  let left ← advance (· = '\x00') (mem.drop (desc + 1))
  let mem ← trimEnd mem desc left
  .ok (mem, desc)

end cells

def parseLine (line : CString) : Except Stop Lease := do
  let proto := 0
  let (mem, p) ← cutAt (line ++ ['\x00']) proto
  let (mem, iaddr) ← cutAt mem p
  let eport ← stringAt mem p
  let (mem, p) ← cutAt mem iaddr
  let iport ← stringAt mem p
  let (mem, p) ← cutAt mem p
  let (mem, desc) ← cutAt mem p
  let timestamp ← stringAt mem p
  let (mem, desc) ← trimDescription mem desc
  let proto ← stringAt mem proto
  let iaddr ← stringAt mem iaddr
  let desc ← stringAt mem desc
  .ok { proto, eport := atous eport, iaddr, iport := atous iport
        timestamp := strtoul timestamp % 2 ^ 32, desc }

section cells
variable {front text rest : CString}

theorem readAt_append (front : CString) (c : Char) (rest : CString) :
    readAt (front ++ c :: rest) front.length = .ok c := by
  simp [readAt]

theorem writeNul_append (front : CString) (c : Char) (rest : CString) :
    writeNul (front ++ c :: rest) front.length = .ok (front ++ '\x00' :: rest) := by
  simp [writeNul]

theorem advance_stops {stop : Char → Bool} {c : Char} (passes : ∀ d ∈ text, stop d = false)
    (stops : stop c = true) (rest : CString) :
    advance stop (text ++ c :: rest) = .ok text.length := by
  induction text with
  | nil => simp [advance, stops]
  | cons d text ih =>
    have first := passes d List.mem_cons_self
    have tail := ih (fun e member => passes e (List.mem_cons_of_mem d member))
    rw [List.cons_append, advance, if_neg (by simp [first]), tail]
    rfl

theorem stringAt_append (plain : '\x00' ∉ text) (front rest : CString) :
    stringAt (front ++ (text ++ '\x00' :: rest)) front.length = .ok text := by
  have passes : ∀ d ∈ text, decide (d = '\x00') = false := by
    intro d member
    exact decide_eq_false fun nul => plain (nul ▸ member)
  have found := advance_stops passes (decide_eq_true rfl) rest
  unfold stringAt
  rw [List.drop_left, found]
  simp [bind, Except.bind]

theorem passes_text (plain : '\x00' ∉ text) (absent : ':' ∉ text) :
    ∀ d ∈ text, (decide (d = ':') || decide (d = '\x00')) = false := by
  intro d member
  have other : d ≠ ':' := fun colon => absent (colon ▸ member)
  have visible : d ≠ '\x00' := fun nul => plain (nul ▸ member)
  simp [other, visible]

theorem cutAt_colon (plain : '\x00' ∉ text) (absent : ':' ∉ text) (front rest : CString) :
    cutAt (front ++ (text ++ ':' :: rest)) front.length =
      .ok ((front ++ text ++ ['\x00']) ++ rest, (front ++ text ++ ['\x00']).length) := by
  have found := advance_stops (passes_text plain absent) (c := ':') (by decide) rest
  have read := readAt_append (front ++ text) ':' rest
  have written := writeNul_append (front ++ text) ':' rest
  rw [List.length_append, List.append_assoc] at read written
  unfold cutAt
  rw [List.drop_left, found]
  simp only [bind, Except.bind, read, written, if_true]
  simp [Nat.add_assoc]

theorem cutAt_none (plain : '\x00' ∉ text) (absent : ':' ∉ text) (front : CString) :
    cutAt (front ++ (text ++ ['\x00'])) front.length = .error .unrecognized := by
  have found := advance_stops (passes_text plain absent) (c := '\x00') (by decide) []
  have read := readAt_append (front ++ text) '\x00' []
  rw [List.length_append, List.append_assoc] at read
  unfold cutAt
  rw [List.drop_left, found]
  simp only [bind, Except.bind, read]
  rfl

/-- Cutting in place is cutting the text. -/
theorem cutAt_eq (plain : '\x00' ∉ text) (front : CString) :
    cutAt (front ++ (text ++ ['\x00'])) front.length =
      match cutColon text with
      | none => .error .unrecognized
      | some (a, b) =>
          .ok ((front ++ a ++ ['\x00']) ++ (b ++ ['\x00']), (front ++ a ++ ['\x00']).length) := by
  cases cut : cutColon text with
  | none => exact cutAt_none plain (cutColon_none cut) front
  | some parts =>
    obtain ⟨a, b⟩ := parts
    have absent := cutColon_absent cut
    obtain rfl := cutColon_some cut
    have first : '\x00' ∉ a := fun member => plain (List.mem_append_left _ member)
    rw [List.append_assoc, List.cons_append]
    exact cutAt_colon first absent front _

/-- What is trimmed at the end is overwritten. -/
theorem trimEnd_append (c : Char) (text front rest : CString) :
    ∃ n, trimEnd (front ++ (c :: text ++ rest)) front.length text.length =
      .ok (front ++ (c :: text.rdropWhile isspace ++ (List.replicate n '\x00' ++ rest))) := by
  induction text using List.reverseRecOn generalizing rest with
  | nil =>
    refine ⟨0, ?_⟩
    have read := readAt_append front c rest
    simp [trimEnd, read, bind, Except.bind]
  | append_singleton text d ih =>
    have shape : front ++ (c :: (text ++ [d]) ++ rest) = (front ++ c :: text) ++ d :: rest := by simp
    have place : front.length + text.length + 1 = (front ++ c :: text).length := by
      simp
      omega
    have read := readAt_append (front ++ c :: text) d rest
    have written := writeNul_append (front ++ c :: text) d rest
    rw [List.length_append, List.length_singleton, trimEnd, shape, place]
    simp only [bind, Except.bind, read, written]
    by_cases space : isspace d = true
    · obtain ⟨n, trimmed⟩ := ih ('\x00' :: rest)
      refine ⟨n + 1, ?_⟩
      rw [if_pos space, List.rdropWhile_concat_pos _ _ _ space, List.append_assoc, trimmed,
        List.replicate_succ']
      simp
    · refine ⟨0, ?_⟩
      rw [if_neg space, List.rdropWhile_concat_neg _ _ _ space]
      simp

end cells

section texts
variable {text : CString}

theorem trim_nil_iff : trim text = [] ↔ ∀ c ∈ text, isspace c = true := by
  unfold trim
  rw [List.rdropWhile_eq_nil_iff]
  constructor
  · intro blank
    rw [← List.dropWhile_eq_nil_iff]
    cases left : text.dropWhile isspace with
    | nil => rfl
    | cons c rest =>
      have stop := List.head?_dropWhile_not isspace text
      have space := blank c (by simp [left])
      rw [left] at stop
      simp [space] at stop
  · intro blank
    rw [List.dropWhile_eq_nil_iff.mpr blank]
    intro c member
    cases member

theorem rdropWhile_visible {c : Char} (visible : isspace c = false) (t : CString) :
    (c :: t).rdropWhile isspace = c :: t.rdropWhile isspace := by
  induction t using List.reverseRecOn with
  | nil => simp [List.rdropWhile, visible]
  | append_singleton t d ih =>
    rw [← List.cons_append]
    by_cases space : isspace d = true
    · rw [List.rdropWhile_concat_pos _ _ _ space, List.rdropWhile_concat_pos _ _ _ space, ih]
    · rw [List.rdropWhile_concat_neg _ _ _ space, List.rdropWhile_concat_neg _ _ _ space,
        List.cons_append]

theorem trim_subset (text : CString) : trim text ⊆ text := fun _ member =>
  (List.dropWhile_suffix isspace).subset ((List.rdropWhile_prefix isspace _).subset member)

theorem trim_shape (solid : trim text ≠ []) :
    ∃ blank c t, text = blank ++ c :: t ∧ (∀ d ∈ blank, isspace d = true) ∧ isspace c = false ∧
      trim text = c :: t.rdropWhile isspace := by
  have parts := @List.takeWhile_append_dropWhile _ isspace text
  cases left : text.dropWhile isspace with
  | nil =>
    rw [trim, left] at solid
    exact absurd rfl solid
  | cons c t =>
    have visible : isspace c = false := by
      have stop := List.head?_dropWhile_not isspace text
      rw [left] at stop
      simpa using stop
    rw [left] at parts
    refine ⟨text.takeWhile isspace, c, t, parts.symm, ?_, visible, ?_⟩
    · intro d member
      exact List.mem_takeWhile_imp member
    · rw [trim, left, rdropWhile_visible visible]

/-- The search for the end starts behind the NUL. -/
theorem trimDescription_blank (blank : trim text = []) (front : CString) :
    trimDescription (front ++ (text ++ ['\x00'])) front.length = .error .outside := by
  have passes : ∀ d ∈ text, (!isspace d) = false := by
    intro d member
    simp [trim_nil_iff.mp blank d member]
  have found := advance_stops passes (c := '\x00') (by decide) []
  have past : (front ++ (text ++ ['\x00'])).drop (front.length + text.length + 1) = [] := by
    simp [Nat.add_assoc]
  unfold trimDescription
  rw [List.drop_left, found]
  simp only [bind, Except.bind, past, advance]

theorem trimDescription_solid (plain : '\x00' ∉ text) (solid : trim text ≠ []) (front : CString) :
    ∃ blank rest, trimDescription (front ++ (text ++ ['\x00'])) front.length =
      .ok ((front ++ blank) ++ (trim text ++ '\x00' :: rest), (front ++ blank).length) := by
  obtain ⟨blank, c, t, rfl, spaces, visible, trimmed⟩ := trim_shape solid
  have passes : ∀ d ∈ blank, (!isspace d) = false := by
    intro d member
    simp [spaces d member]
  have found := advance_stops passes (c := c) (by simp [visible]) (t ++ ['\x00'])
  have ends : ∀ d ∈ t, decide (d = '\x00') = false := by
    intro d member
    apply decide_eq_false
    rintro rfl
    exact plain (List.mem_append_right _ (List.mem_cons_of_mem _ member))
  have counted := advance_stops ends (decide_eq_true rfl) []
  have shape : front ++ (blank ++ c :: (t ++ ['\x00'])) =
      (front ++ blank) ++ (c :: t ++ ['\x00']) := by simp
  have past : ((front ++ blank) ++ (c :: t ++ ['\x00'])).drop ((front ++ blank).length + 1) =
      t ++ ['\x00'] := by
    rw [← List.drop_drop, List.drop_left]
    rfl
  obtain ⟨n, trimming⟩ := trimEnd_append c t (front ++ blank) ['\x00']
  refine ⟨blank, List.replicate n '\x00', ?_⟩
  unfold trimDescription
  rw [List.drop_left, List.append_assoc, List.cons_append, found]
  simp only [bind, Except.bind]
  rw [← List.length_append, shape, past, counted]
  simp only [trimming, trimmed]
  rw [← List.replicate_succ', List.replicate_succ]

/-- The text after so many colons. -/
def afterColons : Nat → CString → Option CString
  | 0, s => some s
  | n + 1, s => (cutColon s).bind fun parts => afterColons n parts.2

theorem parseLeaseLine_desc {line : CString} {l : Lease} (parsed : parseLeaseLine line = some l) :
    ∃ text, afterColons 5 line = some text ∧ l.desc = trim text := by
  unfold parseLeaseLine at parsed
  simp only [Option.bind_eq_bind, Option.bind_eq_some_iff] at parsed
  obtain ⟨_, first, _, second, _, third, _, fourth, ⟨_, text⟩, fifth, same⟩ := parsed
  obtain rfl := Option.some.inj same
  refine ⟨text, ?_, rfl⟩
  simp only [afterColons, first, second, third, fourth, fifth, Option.bind_some]

theorem parseLeaseLine_none {line : CString} (failed : parseLeaseLine line = none) :
    afterColons 5 line = none := by
  cases found : afterColons 5 line with
  | none => rfl
  | some text =>
    simp only [afterColons, Option.bind_eq_some_iff] at found
    obtain ⟨_, first, _, second, _, third, _, fourth, _, fifth, _⟩ := found
    simp [parseLeaseLine, first, second, third, fourth, fifth] at failed

theorem fgetsLines_plain (size : Nat) (content : CString) :
    ∀ line ∈ fgetsLines size content, '\x00' ∉ line := by
  fun_induction fgetsLines size content with
  | case1 =>
    intro line member
    cases member
  | case2 c s read ih =>
    intro line member nul
    rcases List.mem_cons.mp member with rfl | later
    · simpa using List.mem_takeWhile_imp nul
    · exact ih line later nul

end texts

section lines
variable {line : CString}

theorem cutColon_plain {text a b : CString} (cut : cutColon text = some (a, b))
    (plain : '\x00' ∉ text) : '\x00' ∉ a ∧ '\x00' ∉ b := by
  rw [cutColon_some cut] at plain
  simpa using plain

theorem atous_cut {text a b : CString} (cut : cutColon text = some (a, b)) :
    atous text = atous a := by
  rw [cutColon_some cut, atous, atous, atoi_stop (by decide) (by decide) (fun space => by cases space)]

/-- A text that has been cut off is still there after later cuts. -/
theorem stringAt_cut {mem front a : CString} (plain : '\x00' ∉ a)
    (kept : front ++ a ++ ['\x00'] <+: mem) : stringAt mem front.length = .ok a := by
  obtain ⟨rest, rfl⟩ := kept
  have read := stringAt_append plain front rest
  simpa using read

/-- In bounds, the parser in place reads the fields of the line. -/
theorem parseLine_eq (plain : '\x00' ∉ line) :
    parseLine line =
      match parseLeaseLine line with
      | none => .error .unrecognized
      | some lease => if lease.desc = [] then .error .outside else .ok lease := by
  unfold parseLine parseLeaseLine
  rw [← List.nil_append (line ++ ['\x00'])]
  simp only [bind, Except.bind, Option.bind]
  rw [show (0 : Nat) = ([] : CString).length from rfl, cutAt_eq plain]
  cases first : cutColon line with
  | none => rfl
  | some parts =>
    obtain ⟨proto, s⟩ := parts
    obtain ⟨protoPlain, plain⟩ := cutColon_plain first plain
    dsimp only
    generalize start : [] ++ proto ++ ['\x00'] = one
    rw [cutAt_eq plain]
    cases second : cutColon s with
    | none => rfl
    | some parts =>
      obtain ⟨eport, s⟩ := parts
      obtain ⟨eportPlain, plain⟩ := cutColon_plain second plain
      dsimp only
      rw [stringAt_cut eportPlain (List.prefix_append _ _)]
      generalize host : one ++ eport ++ ['\x00'] = two
      dsimp only
      rw [cutAt_eq plain]
      cases third : cutColon s with
      | none => rfl
      | some parts =>
        obtain ⟨iaddr, s⟩ := parts
        obtain ⟨iaddrPlain, plain⟩ := cutColon_plain third plain
        dsimp only
        generalize port : two ++ iaddr ++ ['\x00'] = three
        rw [stringAt_append plain]
        dsimp only
        rw [cutAt_eq plain]
        cases fourth : cutColon s with
        | none => rfl
        | some parts =>
          obtain ⟨iport, t⟩ := parts
          obtain ⟨_, plain⟩ := cutColon_plain fourth plain
          dsimp only
          generalize lease : three ++ iport ++ ['\x00'] = four
          rw [cutAt_eq plain]
          cases fifth : cutColon t with
          | none => rfl
          | some parts =>
            obtain ⟨timestamp, text⟩ := parts
            obtain ⟨timestampPlain, plain⟩ := cutColon_plain fifth plain
            dsimp only
            rw [stringAt_cut timestampPlain (List.prefix_append _ _)]
            generalize fields : four ++ timestamp ++ ['\x00'] = five
            dsimp only
            by_cases blank : trim text = []
            · rw [trimDescription_blank blank, if_pos blank]
            · obtain ⟨spaces, rest, trimmed⟩ := trimDescription_solid plain blank five
              have kept : '\x00' ∉ trim text := fun nul => plain (trim_subset text nul)
              rw [trimmed, if_neg blank]
              dsimp only
              rw [stringAt_append kept, atous_cut fourth]
              subst fields lease port host start
              rw [stringAt_cut protoPlain (by simp), stringAt_cut iaddrPlain (by simp)]

/-- A line of the file is read in bounds unless it has five colons and a blank rest. -/
theorem line_inside_iff (content : CString) (member : line ∈ fgetsLines 128 content) :
    parseLine line ≠ .error .outside ↔
      ∀ text, afterColons 5 line = some text → ∃ c ∈ text, isspace c = false := by
  rw [parseLine_eq (fgetsLines_plain 128 content line member)]
  cases parsed : parseLeaseLine line with
  | none => simp [parseLeaseLine_none parsed]
  | some lease =>
    obtain ⟨text, found, desc⟩ := parseLeaseLine_desc parsed
    dsimp only
    rw [found, desc]
    by_cases blank : trim text = []
    · rw [if_pos blank]
      simpa using trim_nil_iff.mp blank
    · rw [if_neg blank]
      rw [trim_nil_iff] at blank
      simpa using blank

theorem named_inside : parseLine "TCP:80:10.0.0.2:80:0:web\n".toList ≠ .error .outside :=
  (line_inside_iff "TCP:80:10.0.0.2:80:0:web\n".toList (by
    rw [fgetsLines_cons 128 (by decide)]
    exact List.mem_cons_self)).mpr (by
      intro text found
      obtain rfl : "web\n".toList = text := Option.some.inj found
      exact ⟨'w', by decide, by decide⟩)

/-- A line that `lease_file_add` writes for a mapping without description. -/
theorem empty_description_outside :
    ∃ line ∈ fgetsLines 128 ((leaseFileAdd ⟨0, 0, false⟩ 80 "10.0.0.2".toList 80 IPPROTO_TCP [] 0
      none).getD []), parseLine line = .error .outside := by
  refine ⟨"TCP:80:10.0.0.2:80:0:\n".toList, ?_, by decide⟩
  rw [fgetsLines_cons 128 (by decide)]
  exact List.mem_cons_self

end lines

end LeaseParsing
