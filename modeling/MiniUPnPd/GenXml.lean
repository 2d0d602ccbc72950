import MiniUPnPd.UpnpDescGen

/-!
The XML of a description, written from a table by a loop with a stack of 16 places for the elements
that are still open. An element whose name begins with a slash has a text, and is left out if there
is none; the others have the first index and the number of their children packed in a word.
-/
namespace GenXml
open CText OutputBuffer UpnpDescGen

/-- A word of the table: the address of a string, or a number. -/
inductive Data where
  | string (s : CString)
  | word (k : Nat)

structure XMLElt where
  eltname : Option CString
  data : Data

/-- The build options and the variables. -/
structure GenEnv where
  realloc : Int → Bool
  /-- `random_url`, with RANDOMIZE_URLS. -/
  randomUrl : Option CString
  igdV2 : Bool
  forceIgdDescV1 : Bool
  upnpConfigid : UInt32

/-- The four types in a build for the second version of the device. -/
def versionTwoTypes : List CString :=
  ["urn:schemas-upnp-org:device:InternetGatewayDevice:2".toList,
   "urn:schemas-upnp-org:device:WANDevice:2".toList,
   "urn:schemas-upnp-org:device:WANConnectionDevice:2".toList,
   "urn:schemas-upnp-org:service:WANIPConnection:2".toList]

/-- `c > ' '` for a `char`, which is signed. -/
def aboveSpace (c : Char) : Bool := (c.toNat : Int).bmod 256 > 32

/-- `str[*len - 1] = c` -/
def setLast (b : StrBuf) (c : Char) : StrBuf := b.store [c] 1 (asInt (b.len - 1))

structure Level where
  i : Nat
  j : Nat
  eltname : CString

/-- The current element, the stack with its top first, and the string. -/
structure GenState where
  i : Nat
  pile : List Level
  str : StrBuf

section functions
variable (env : GenEnv)

/-- The version is changed in four of the texts. -/
def inVersionOne (data : CString) : Bool :=
  env.igdV2 && env.forceIgdDescV1 && data.head? == some 'u' && versionTwoTypes.contains data

def genData (data : CString) (b : StrBuf) : StrBuf :=
  let b :=
    match env.randomUrl with
    | none => b
    | some url =>
      if data.head? = some '/' then strcatStr env.realloc (strcatChar env.realloc b '/') url else b
  let b := strcatStr env.realloc b data
  if inVersionOne env data then setLast b '1' else b

def genLeaf (eltname data : CString) (b : StrBuf) : StrBuf :=
  if data = [] then b
  else
    let b := strcatChar env.realloc b '<'
    let b := strcatStr env.realloc b (eltname.drop 1)
    let b := strcatChar env.realloc b '>'
    let b := genData env data b
    let b := strcatChar env.realloc b '<'
    let b := strcatStr env.realloc b eltname
    strcatChar env.realloc b '>'

def genStart (eltname : CString) (b : StrBuf) : StrBuf :=
  let b := strcatChar env.realloc b '<'
  let b := strcatStr env.realloc b eltname
  let b :=
    if "root ".toList.isPrefixOf eltname then
      let b := strcatStr env.realloc b " configId=".toList
      strcatStr env.realloc b ('"' :: (utoa env.upnpConfigid.toNat ++ ['"']))
    else b
  strcatChar env.realloc b '>'

def genEnd (eltname : CString) (b : StrBuf) : StrBuf :=
  let b := strcatChar env.realloc b '<'
  let b := strcatChar env.realloc b '/'
  let b := (eltname.takeWhile aboveSpace).foldl (strcatChar env.realloc) b
  strcatChar env.realloc b '>'

/-- The inner loop: the next element, or the string when none is open any more. -/
def unwind : List Level → StrBuf → GenState ⊕ StrBuf
  | [], b => .inr b
  | level :: pile, b =>
      let i := (level.i + 1) % 65536
      if i = level.j then unwind pile (genEnd env level.eltname b)
      else .inl { i, pile := { level with i } :: pile, str := b }

/-- One round of the outer loop. There is no result if it reads behind the table, takes a number
    for a string or an address for a number. -/
def genStep (p : List XMLElt) (st : GenState) : Option (GenState ⊕ StrBuf) :=
  match p[st.i]? with
  | none => none
  | some { eltname := none, .. } => some (.inr st.str)
  | some { eltname := some eltname, data } =>
    if eltname.head? = some '/' then
      match data with
      | .string data => some (unwind env st.pile (genLeaf env eltname data st.str))
      | .word 0 => some (unwind env st.pile st.str)
      | .word _ => none
    else
      match data with
      | .string _ => none
      | .word k =>
        let i := k % 65536
        let j := (i + k / 65536) % 65536
        let pile := if st.pile.length < 16 then { i, j, eltname } :: st.pile else st.pile
        some (.inl { i, pile, str := genStart env eltname st.str })

def genLoop (p : List XMLElt) : (fuel : Nat) → GenState → Option StrBuf
  | 0, _ => none
  | fuel + 1, st =>
    match genStep env p st with
    | none => none
    | some (.inr str) => some str
    | some (.inl st) => genLoop p fuel st

/-- With enough rounds the function returns this string. -/
def Returns (p : List XMLElt) (b str : StrBuf) : Prop :=
  ∃ fuel, ∀ more, genLoop env p (fuel + more) { i := 0, pile := [], str := b } = some str

end functions

/-- Elements that follow each other in the table, with the children of each. A text that is not
    there is empty. -/
inductive Forest where
  | nil
  | leaf (name text : CString) (rest : Forest)
  | node (name : CString) (children rest : Forest)

namespace Forest

/-- How many elements are open at most. -/
def depth : Forest → Nat
  | nil => 0
  | leaf _ _ rest => rest.depth
  | node _ children rest => max (children.depth + 1) rest.depth

/-- The entries from `i` to before `j` are these elements. -/
def Encodes (p : List XMLElt) : Forest → (i j : Nat) → Prop
  | nil, i, j => i = j
  | leaf name text rest, i, j =>
      i < j ∧ (∃ data, p[i]? = some { eltname := some ('/' :: name), data } ∧
        (data = .string text ∨ data = .word 0 ∧ text = [])) ∧ rest.Encodes p (i + 1) j
  | node name children rest, i, j =>
      i < j ∧ name.head? ≠ some '/' ∧ children ≠ nil ∧
        (∃ k, p[i]? = some { eltname := some name, data := .word k } ∧
          children.Encodes p (k % 65536) (k % 65536 + k / 65536)) ∧
        rest.Encodes p (i + 1) j

end Forest

/-- The table is that of one element with all that is in it, at most 16 inside each other. -/
structure EncodesTree (p : List XMLElt) (tree : Forest) : Prop where
  short : p.length < 65536
  encodes : tree.Encodes p 0 1
  depth : tree.depth ≤ 16

/-- An entry with a text or none, or with children that come behind it and in the table. -/
inductive Entry (p : List XMLElt) (i : Nat) : XMLElt → Prop where
  | text (name s : CString) : Entry p i { eltname := some ('/' :: name), data := .string s }
  | empty (name : CString) : Entry p i { eltname := some ('/' :: name), data := .word 0 }
  | children (name : CString) (k : Nat) (noLeaf : name.head? ≠ some '/') (behind : i < k % 65536)
      (one : 0 < k / 65536) (inside : k % 65536 + k / 65536 ≤ p.length) :
      Entry p i { eltname := some name, data := .word k }

/-- In a table of such entries every range is a forest. -/
theorem entries_encode {p : List XMLElt} (entries : ∀ i elt, p[i]? = some elt → Entry p i elt)
    {i j : Nat} (range : i ≤ j) (inside : j ≤ p.length) :
    ∃ forest : Forest, forest.Encodes p i j ∧ (i < j → forest ≠ .nil) := by
  induction left : p.length - i using Nat.strongRecOn generalizing i j with
  | ind left ih =>
    by_cases done : i = j
    · exact ⟨.nil, done, fun before => absurd done (by omega)⟩
    · obtain ⟨rest, others, _⟩ :=
        @ih (p.length - (i + 1)) (by omega) (i + 1) j (by omega) inside rfl
      have here : p[i]? = some p[i] := List.getElem?_eq_getElem (by omega)
      generalize p[i] = elt at here
      cases entries i elt here with
      | text name s =>
        exact ⟨.leaf name s rest, ⟨by omega, ⟨_, here, Or.inl rfl⟩, others⟩, fun _ => by simp⟩
      | empty name =>
        exact ⟨.leaf name [] rest, ⟨by omega, ⟨_, here, Or.inr ⟨rfl, rfl⟩⟩, others⟩,
          fun _ => by simp⟩
      | children name k noLeaf behind one within =>
        obtain ⟨children, inner, filled⟩ :=
          @ih (p.length - k % 65536) (by omega) (k % 65536) (k % 65536 + k / 65536) (by omega)
            within rfl
        exact ⟨.node name children rest,
          ⟨by omega, noLeaf, filled (by omega), ⟨k, here, inner⟩, others⟩, fun _ => by simp⟩

/-- The same with a function that calls itself for the children. -/
def emit (env : GenEnv) : Forest → StrBuf → StrBuf
  | .nil, b => b
  | .leaf name text rest, b => emit env rest (genLeaf env ('/' :: name) text b)
  | .node name children rest, b =>
      emit env rest (genEnd env name (emit env children (genStart env name b)))

section loop
variable {env : GenEnv} {p : List XMLElt} {i j : Nat} {forest rest : Forest} {b : StrBuf}

theorem encodes_range (encodes : forest.Encodes p i j) (filled : forest ≠ .nil) :
    i < j ∧ j ≤ p.length := by
  induction forest generalizing i with
  | nil => exact absurd rfl filled
  | leaf name text rest ih =>
    obtain ⟨before, ⟨data, here, _⟩, others⟩ := encodes
    obtain ⟨inside, _⟩ := List.getElem?_eq_some_iff.mp here
    cases rest with
    | nil =>
      obtain rfl := others
      exact ⟨before, inside⟩
    | leaf _ _ _ => exact ⟨before, (ih others (by simp)).2⟩
    | node _ _ _ => exact ⟨before, (ih others (by simp)).2⟩
  | node name children rest _ ih =>
    obtain ⟨before, _, _, ⟨k, here, _⟩, others⟩ := encodes
    obtain ⟨inside, _⟩ := List.getElem?_eq_some_iff.mp here
    cases rest with
    | nil =>
      obtain rfl := others
      exact ⟨before, inside⟩
    | leaf _ _ _ => exact ⟨before, (ih others (by simp)).2⟩
    | node _ _ _ => exact ⟨before, (ih others (by simp)).2⟩

theorem genStep_leaf {name text : CString} {data : Data} {pile : List Level}
    (here : p[i]? = some { eltname := some ('/' :: name), data })
    (value : data = .string text ∨ data = .word 0 ∧ text = []) :
    genStep env p { i, pile, str := b } =
      some (unwind env pile (genLeaf env ('/' :: name) text b)) := by
  unfold genStep
  dsimp only
  rw [here]
  rcases value with rfl | ⟨rfl, rfl⟩
  · rfl
  · rfl

theorem genStep_node {name : CString} {k : Nat} {pile : List Level}
    (here : p[i]? = some { eltname := some name, data := .word k }) (noLeaf : name.head? ≠ some '/')
    (small : k % 65536 + k / 65536 < 65536) (room : pile.length < 16) :
    genStep env p { i, pile, str := b } =
      some (.inl { i := k % 65536
                   pile := { i := k % 65536, j := k % 65536 + k / 65536, eltname := name } :: pile
                   str := genStart env name b }) := by
  unfold genStep
  dsimp only
  rw [here]
  dsimp only
  rw [if_neg noLeaf, if_pos room, Nat.mod_eq_of_lt small]

theorem unwind_last {name : CString} {pile : List Level} (last : i + 1 = j) (small : j < 65536) :
    unwind env ({ i, j, eltname := name } :: pile) b = unwind env pile (genEnd env name b) := by
  have next : (i + 1) % 65536 = j := by omega
  exact if_pos next

theorem unwind_next {name : CString} {pile : List Level} (before : i + 1 < j) (small : j < 65536) :
    unwind env ({ i, j, eltname := name } :: pile) b =
      .inl { i := i + 1, pile := { i := i + 1, j, eltname := name } :: pile, str := b } := by
  have next : (i + 1) % 65536 = i + 1 := Nat.mod_eq_of_lt (by omega)
  have other : ¬ (i + 1) % 65536 = j := by omega
  rw [unwind]
  dsimp only
  rw [if_neg other, next]

/-- How the loop goes on with what a round has left. -/
def continueWith (env : GenEnv) (p : List XMLElt) (fuel : Nat) : GenState ⊕ StrBuf → Option StrBuf
  | .inr str => some str
  | .inl st => genLoop env p fuel st

theorem genLoop_round {st : GenState} {next : GenState ⊕ StrBuf}
    (round : genStep env p st = some next) (fuel : Nat) :
    genLoop env p (fuel + 1) st = continueWith env p fuel next := by
  rw [genLoop, round]
  cases next with
  | inl st => rfl
  | inr str => rfl

/-- Children on top of the stack are written and closed, and what is below is as before. -/
def Done (env : GenEnv) (p : List XMLElt) (forest : Forest) (i j : Nat) : Prop :=
  ∀ (name : CString) (pile : List Level) (b : StrBuf), pile.length + 1 + forest.depth ≤ 16 →
    ∃ n, ∀ fuel,
      genLoop env p (n + fuel) { i, pile := { i, j, eltname := name } :: pile, str := b } =
        continueWith env p fuel (unwind env pile (genEnd env name (emit env forest b)))

/-- Behind an element the parent goes on with those that remain. -/
theorem unwind_rest (small : j < 65536) (encodes : rest.Encodes p (i + 1) j)
    (done : rest ≠ .nil → Done env p rest (i + 1) j) (name : CString) (pile : List Level)
    (b : StrBuf) (room : pile.length + 1 + rest.depth ≤ 16) :
    ∃ n, ∀ fuel,
      continueWith env p (n + fuel) (unwind env ({ i, j, eltname := name } :: pile) b) =
        continueWith env p fuel (unwind env pile (genEnd env name (emit env rest b))) := by
  by_cases none : rest = .nil
  · subst none
    refine ⟨0, ?_⟩
    intro fuel
    rw [Nat.zero_add, unwind_last encodes small]
    rfl
  · have range := encodes_range encodes none
    obtain ⟨n, run⟩ := done none name pile b room
    refine ⟨n, ?_⟩
    intro fuel
    rw [unwind_next range.1 small]
    exact run fuel

/-- The invariant of the loop, by induction on the elements that are still to be written at the
    level of the top of the stack. -/
theorem genLoop_forest (short : p.length < 65536) (encodes : forest.Encodes p i j)
    (filled : forest ≠ .nil) : Done env p forest i j := by
  induction forest generalizing i j with
  | nil => exact absurd rfl filled
  | leaf name text rest ih =>
    intro parent pile b room
    have range := encodes_range encodes filled
    obtain ⟨_, ⟨data, here, value⟩, others⟩ := encodes
    obtain ⟨n, run⟩ := unwind_rest (by omega) others (ih others) parent pile
      (genLeaf env ('/' :: name) text b) room
    refine ⟨n + 1, ?_⟩
    intro fuel
    have fuels : n + 1 + fuel = n + fuel + 1 := by omega
    rw [fuels, genLoop_round (genStep_leaf here value), run]
    rfl
  | node name children rest ihChildren ih =>
    intro parent pile b room
    have range := encodes_range encodes filled
    obtain ⟨_, noLeaf, some', ⟨k, here, inner⟩, others⟩ := encodes
    have within := encodes_range inner some'
    simp only [Forest.depth] at room
    obtain ⟨n, run⟩ := ihChildren inner some' name ({ i, j, eltname := parent } :: pile)
      (genStart env name b) (by rw [List.length_cons]; omega)
    obtain ⟨m, run'⟩ := unwind_rest (by omega) others (ih others) parent pile
      (genEnd env name (emit env children (genStart env name b))) (by omega)
    refine ⟨n + m + 1, ?_⟩
    intro fuel
    have fuels : n + m + 1 + fuel = n + (m + fuel) + 1 := by omega
    have round := @genStep_node env p i b name k ({ i, j, eltname := parent } :: pile) here noLeaf
      (by omega) (by rw [List.length_cons]; omega)
    rw [fuels, genLoop_round round]
    exact (run (m + fuel)).trans (run' fuel)

/-- The loop returns, and has done to the string what the recursive function does. -/
theorem genXML_returns {tree : Forest} (encoded : EncodesTree p tree) (b : StrBuf) :
    Returns env p b (emit env tree b) := by
  obtain ⟨short, encodes, depth⟩ := encoded
  cases tree with
  | nil => exact absurd (show 0 = 1 from encodes) (by decide)
  | leaf name text rest =>
    obtain ⟨_, ⟨data, here, value⟩, others⟩ := encodes
    have none : rest = .nil := by
      by_contra some'
      exact absurd (encodes_range others some').1 (by decide)
    subst none
    refine ⟨1, ?_⟩
    intro more
    rw [Nat.add_comm, genLoop_round (genStep_leaf here value)]
    rfl
  | node name children rest =>
    obtain ⟨_, noLeaf, filled, ⟨k, here, inner⟩, others⟩ := encodes
    have none : rest = .nil := by
      by_contra some'
      exact absurd (encodes_range others some').1 (by decide)
    subst none
    have within := encodes_range inner filled
    simp only [Forest.depth] at depth
    obtain ⟨n, run⟩ := @genLoop_forest env p _ _ children short inner filled name []
      (genStart env name b) (by rw [List.length_nil]; omega)
    refine ⟨n + 1, ?_⟩
    intro more
    have fuels : n + 1 + more = n + more + 1 := by omega
    rw [fuels, genLoop_round (genStep_node here noLeaf (by omega) (by decide)), continueWith, run]
    rfl

end loop

section texts
variable (env : GenEnv)

/-- A text as it is written: with the random part of a path, and with the version changed. -/
def dataText (data : CString) : CString :=
  (match env.randomUrl with
    | none => []
    | some url => if data.head? = some '/' then '/' :: url else []) ++
  if inVersionOne env data then data.dropLast ++ ['1'] else data

def dataSizes (data : CString) : List Nat :=
  (match env.randomUrl with
    | none => []
    | some url => if data.head? = some '/' then [1, url.length] else []) ++ [data.length]

def configText (name : CString) : CString :=
  if "root ".toList.isPrefixOf name then
    " configId=".toList ++ '"' :: (utoa env.upnpConfigid.toNat ++ ['"'])
  else []

def configSizes (name : CString) : List Nat :=
  if "root ".toList.isPrefixOf name then [10, (utoa env.upnpConfigid.toNat).length + 2] else []

/-- The serialiser, with what the end tags of an element with a text and of one with children take
    of the name. -/
def serialise (leafEnd nodeEnd : CString → CString) : Forest → CString
  | .nil => []
  | .leaf name text rest =>
      (if text = [] then []
        else '<' :: name ++ '>' :: dataText env text ++ '<' :: '/' :: leafEnd name ++ ['>']) ++
        serialise leafEnd nodeEnd rest
  | .node name children rest =>
      '<' :: name ++ configText env name ++ '>' :: serialise leafEnd nodeEnd children ++
        '<' :: '/' :: nodeEnd name ++ '>' :: serialise leafEnd nodeEnd rest

def untilSpace (name : CString) : CString := name.takeWhile (· ≠ ' ')

/-- The start tag, the text or the children, and the end tag up to the first space. -/
def plainText : Forest → CString := serialise env untilSpace untilSpace

/-- What the loop writes. -/
def writtenText : Forest → CString := serialise env (fun name => name) (·.takeWhile aboveSpace)

/-- The pieces in which the loop writes it. -/
def pieces : Forest → List Nat
  | .nil => []
  | .leaf name text rest =>
      (if text = [] then []
        else [1, name.length, 1] ++ dataSizes env text ++ [1, name.length + 1, 1]) ++ pieces rest
  | .node name children rest =>
      [1, name.length] ++ configSizes env name ++ [1] ++ pieces children ++
        [1, 1] ++ List.replicate (name.takeWhile aboveSpace).length 1 ++ [1] ++ pieces rest

end texts

section appending
variable {env : GenEnv} (succeeds : ∀ size, env.realloc size = true)

theorem setLast_holds {b : StrBuf} {text : CString} (holds : Holds b text) (filled : text ≠ [])
    (c : Char) : Holds (setLast b c) (text.dropLast ++ [c]) := by
  have len := holds.len
  have room := holds.room
  have int := holds.int
  have positive : 0 < text.length := List.length_pos_iff.mpr filled
  have place : asInt (b.len - 1) = text.dropLast.length := by
    rw [asInt_of_small (by omega) (by omega), List.length_dropLast]
    omega
  have shorter : text.dropLast.length = text.length - 1 := List.length_dropLast
  constructor
  · show b.len = ((text.dropLast ++ [c]).length : Nat)
    rw [List.length_append, List.length_singleton]
    omega
  · exact room
  · exact int
  · intro j inside
    have before : ∀ (j : Nat) (h : j < text.dropLast.length), b.cells j = text.dropLast[j] := by
      intro j h
      rw [List.getElem_dropLast]
      exact holds.cells j (by omega)
    simp only [setLast, StrBuf.store, place]
    exact put_cells before [] j inside
  · intro w member
    rcases List.mem_append.mp member with earlier | last
    · exact holds.inside w earlier
    · rw [List.mem_singleton] at last
      subst last
      constructor
      · show 0 ≤ asInt (b.len - 1)
        omega
      · show asInt (b.len - 1) + (1 : Nat) ≤ b.tmplen.toNat
        omega

/-- The last character of a text that has just been appended is exchanged. -/
theorem setLast_appends {f : StrBuf → StrBuf} {s : CString} {sizes : List Nat}
    (appends : Appends f s sizes) (filled : s ≠ []) (c : Char) :
    Appends (fun b => setLast (f b) c) (s.dropLast ++ [c]) sizes := by
  have before : ∀ b, (∀ w ∈ (setLast (f b) c).writes, w.Inside) → ∀ w ∈ (f b).writes, w.Inside :=
    fun b inside => (@store_recorded (f b) [c] 1 _ inside).1
  have positive : 0 < s.length := List.length_pos_iff.mpr filled
  constructor
  · rw [appends.sum, List.length_append, List.length_dropLast, List.length_singleton]
    omega
  · intro b text holds roomy
    obtain ⟨here, block⟩ := appends.kept holds roomy
    have last := setLast_holds here (by simp [filled]) c
    rw [List.dropLast_append_of_ne_nil filled, List.append_assoc] at last
    exact ⟨last, block⟩
  · intro b inside
    exact appends.recorded b (before b inside)
  · intro b text holds inside small
    exact appends.needed holds (before b inside) small

include succeeds

theorem genData_appends (data : CString) (filled : data ≠ []) :
    Appends (genData env data) (dataText env data) (dataSizes env data) := by
  have copied : Appends (fun b => if inVersionOne env data then
      setLast (strcatStr env.realloc b data) '1' else strcatStr env.realloc b data)
      (if inVersionOne env data then data.dropLast ++ ['1'] else data) [data.length] := by
    have whole := strcatStr_appends succeeds data
    by_cases changed : inVersionOne env data = true
    · simp only [changed, ↓reduceIte]
      exact setLast_appends whole filled '1'
    · simp only [changed, Bool.false_eq_true, ↓reduceIte]
      exact whole
  cases random : env.randomUrl with
  | none =>
    have same : genData env data = fun b => if inVersionOne env data then
        setLast (strcatStr env.realloc b data) '1' else strcatStr env.realloc b data := by
      funext b
      simp only [genData, random]
    rw [same, dataText, dataSizes, random]
    exact copied
  | some url =>
    by_cases path : data.head? = some '/'
    · have same : genData env data = fun b => if inVersionOne env data then
          setLast (strcatStr env.realloc
            (strcatStr env.realloc (strcatChar env.realloc b '/') url) data) '1'
          else strcatStr env.realloc
            (strcatStr env.realloc (strcatChar env.realloc b '/') url) data := by
        funext b
        simp only [genData, random, path, ↓reduceIte]
      rw [same, dataText, dataSizes, random]
      simp only [path, ↓reduceIte]
      have front := appends_comp (strcatChar_appends succeeds '/') (strcatStr_appends succeeds url)
      exact appends_comp front copied
    · have same : genData env data = fun b => if inVersionOne env data then
          setLast (strcatStr env.realloc b data) '1' else strcatStr env.realloc b data := by
        funext b
        simp only [genData, random, path, ↓reduceIte]
      rw [same, dataText, dataSizes, random]
      simp only [path, ↓reduceIte]
      exact copied

theorem genLeaf_appends (name text : CString) (filled : text ≠ []) :
    Appends (genLeaf env ('/' :: name) text)
      ('<' :: name ++ '>' :: dataText env text ++ '<' :: '/' :: name ++ ['>'])
      ([1, name.length, 1] ++ dataSizes env text ++ [1, name.length + 1, 1]) := by
  have char := strcatChar_appends succeeds
  have str := strcatStr_appends succeeds
  have front := appends_comp (appends_comp (char '<') (str name)) (char '>')
  have middle := appends_comp front (genData_appends succeeds text filled)
  have whole := appends_comp (appends_comp (appends_comp middle (char '<')) (str ('/' :: name)))
    (char '>')
  have same : genLeaf env ('/' :: name) text = fun b =>
      strcatChar env.realloc (strcatStr env.realloc
      (strcatChar env.realloc (genData env text (strcatChar env.realloc (strcatStr env.realloc
        (strcatChar env.realloc b '<') name) '>')) '<') ('/' :: name)) '>' := by
    funext b
    simp only [genLeaf, filled, ↓reduceIte, List.drop_one, List.tail_cons]
  rw [same]
  simpa using whole

theorem genStart_appends (name : CString) :
    Appends (genStart env name) ('<' :: name ++ configText env name ++ ['>'])
      ([1, name.length] ++ configSizes env name ++ [1]) := by
  have char := strcatChar_appends succeeds
  have str := strcatStr_appends succeeds
  have front := appends_comp (char '<') (str name)
  by_cases root : "root ".toList.isPrefixOf name = true
  · have config := appends_comp (str " configId=".toList)
      (str ('"' :: (utoa env.upnpConfigid.toNat ++ ['"'])))
    have whole := appends_comp (appends_comp front config) (char '>')
    have same : genStart env name = fun b => strcatChar env.realloc (strcatStr env.realloc
        (strcatStr env.realloc (strcatStr env.realloc (strcatChar env.realloc b '<') name)
          " configId=".toList) ('"' :: (utoa env.upnpConfigid.toNat ++ ['"']))) '>' := by
      funext b
      simp only [genStart, root, ↓reduceIte]
    have sizes : configSizes env name =
        [" configId=".toList.length, ('"' :: (utoa env.upnpConfigid.toNat ++ ['"'])).length] := by
      rw [configSizes, if_pos root, List.length_cons, List.length_append, List.length_singleton]
      rfl
    rw [same, configText, if_pos root, sizes]
    exact whole
  · have whole := appends_comp front (char '>')
    have same : genStart env name = fun b => strcatChar env.realloc
        (strcatStr env.realloc (strcatChar env.realloc b '<') name) '>' := by
      funext b
      simp only [genStart, root, Bool.false_eq_true, ↓reduceIte]
    rw [same, configText, if_neg root, configSizes, if_neg root, List.append_nil, List.append_nil]
    exact whole

theorem genEnd_appends (name : CString) :
    Appends (genEnd env name) ('<' :: '/' :: name.takeWhile aboveSpace ++ ['>'])
      ([1, 1] ++ List.replicate (name.takeWhile aboveSpace).length 1 ++ [1]) := by
  have char := strcatChar_appends succeeds
  have front := appends_comp (char '<') (char '/')
  have named := appends_comp front (chars_appends succeeds (name.takeWhile aboveSpace))
  have whole := appends_comp named (char '>')
  exact whole

/-- The recursive function appends the text that the loop writes, in its pieces. -/
theorem emit_appends (forest : Forest) :
    Appends (emit env forest) (writtenText env forest) (pieces env forest) := by
  induction forest with
  | nil => exact appends_id
  | leaf name text rest ih =>
    by_cases none : text = []
    · have same : emit env (.leaf name text rest) = emit env rest := by
        funext b
        rw [emit, genLeaf, if_pos none]
      rw [same, writtenText, serialise, pieces, if_pos none, if_pos none]
      exact ih
    · have whole := appends_comp (genLeaf_appends succeeds name text none) ih
      have same : emit env (.leaf name text rest) =
          fun b => emit env rest (genLeaf env ('/' :: name) text b) := by
        funext b
        rw [emit]
      rw [same, writtenText, serialise, pieces, if_neg none, if_neg none]
      exact whole
  | node name children rest ihChildren ih =>
    have inner := appends_comp (genStart_appends succeeds name) ihChildren
    have whole := appends_comp (appends_comp inner (genEnd_appends succeeds name)) ih
    have same : emit env (.node name children rest) = fun b =>
        emit env rest (genEnd env name (emit env children (genStart env name b))) := by
      funext b
      rw [emit]
    rw [same, writtenText, serialise, pieces]
    simpa [writtenText, List.append_assoc] using whole

end appending

section equality
variable {env : GenEnv}

/-- The end tags are cut where the claimed ones are: no name of an element with a text has a
    space, and in the others nothing in front of the first space is as low as a space. -/
def CutAtSpaces : Forest → Prop
  | .nil => True
  | .leaf name text rest => (text ≠ [] → ' ' ∉ name) ∧ CutAtSpaces rest
  | .node name children rest =>
      (∀ c ∈ untilSpace name, aboveSpace c = true) ∧ CutAtSpaces children ∧ CutAtSpaces rest

theorem leafEnd_cut {name after after' : CString} :
    name ++ '>' :: after = untilSpace name ++ '>' :: after' ↔ ' ' ∉ name ∧ after = after' := by
  induction name with
  | nil => simp [untilSpace]
  | cons c name ih =>
    by_cases space : c = ' '
    · subst space
      simp [untilSpace]
    · have kept : untilSpace (c :: name) = c :: untilSpace name := by simp [untilSpace, space]
      rw [kept, List.cons_append, List.cons_append, List.cons.injEq, ih, List.mem_cons]
      simp [Ne.symm space]

theorem nodeEnd_cut {name after after' : CString} :
    name.takeWhile aboveSpace ++ '>' :: after = untilSpace name ++ '>' :: after' ↔
      (∀ c ∈ untilSpace name, aboveSpace c = true) ∧ after = after' := by
  induction name with
  | nil => simp [untilSpace]
  | cons c name ih =>
    by_cases space : c = ' '
    · simp [untilSpace, space, show aboveSpace ' ' = false from by decide]
    · have kept : untilSpace (c :: name) = c :: untilSpace name := by simp [untilSpace, space]
      rw [kept]
      by_cases above : aboveSpace c = true
      · rw [List.takeWhile_cons_of_pos above, List.cons_append, List.cons_append,
          List.cons.injEq, ih, List.forall_mem_cons]
        simp [above]
      · -- a character that ends the loop is not the one that comes behind the name
        have other : '>' ≠ c := by
          intro same
          exact above (same ▸ by decide)
        rw [List.takeWhile_cons_of_neg above, List.forall_mem_cons]
        simp [above, other]

/-- The first tag that is cut elsewhere makes the texts different. -/
theorem written_cancel (forest : Forest) (after after' : CString) :
    writtenText env forest ++ after = plainText env forest ++ after' ↔
      CutAtSpaces forest ∧ after = after' := by
  induction forest generalizing after after' with
  | nil => simp [writtenText, plainText, serialise, CutAtSpaces]
  | leaf name text rest ih =>
    simp only [writtenText, plainText] at ih
    rw [writtenText, plainText, serialise, serialise, CutAtSpaces]
    by_cases none : text = []
    · simp only [none, ↓reduceIte, List.nil_append, ne_eq, not_true_eq_false, false_implies,
        true_and]
      exact ih after after'
    · simp only [none, ↓reduceIte, List.append_assoc, List.cons_append, List.append_cancel_left_eq,
        List.cons.injEq, true_and, List.nil_append, leafEnd_cut, ih, ne_eq, not_false_eq_true,
        forall_const, and_assoc]
  | node name children rest ihChildren ih =>
    simp only [writtenText, plainText] at ihChildren ih
    rw [writtenText, plainText, serialise, serialise, CutAtSpaces]
    simp only [List.append_assoc, List.cons_append, List.append_cancel_left_eq, List.cons.injEq,
      true_and, ihChildren, nodeEnd_cut, ih]
    tauto

theorem written_eq_iff (forest : Forest) :
    writtenText env forest = plainText env forest ↔ CutAtSpaces forest := by
  have cancel := @written_cancel env forest [] []
  simpa using cancel

theorem holds_unique {b : StrBuf} {s t : CString} (first : Holds b s) (second : Holds b t) :
    s = t := by
  have len := first.len
  have len' := second.len
  apply List.ext_getElem (by omega)
  intro j inside inside'
  rw [← first.cells j inside, second.cells j inside']

theorem config_sum (name : CString) :
    (configSizes env name).sum = (configText env name).length := by
  unfold configSizes configText
  split
  · simp
    omega
  · rfl

theorem returns_unique {p : List XMLElt} {b str str' : StrBuf} (first : Returns env p b str)
    (second : Returns env p b str') : str = str' := by
  obtain ⟨fuel, run⟩ := first
  obtain ⟨fuel', run'⟩ := second
  have here := run fuel'
  rw [Nat.add_comm, run' fuel] at here
  exact (Option.some.inj here).symm

variable (succeeds : ∀ size, env.realloc size = true)

include succeeds

/-- Every piece is in the plain text as well: an end tag repeats what is in the start tag. -/
theorem piece_le (forest : Forest) :
    ∀ size ∈ pieces env forest, size ≤ (plainText env forest).length := by
  induction forest with
  | nil => simp [pieces]
  | leaf name text rest ih =>
    intro size member
    rw [plainText] at ih
    rw [plainText, serialise, List.length_append]
    rw [pieces, List.mem_append] at member
    by_cases none : text = []
    · simp only [none, ↓reduceIte, List.not_mem_nil, false_or] at member
      exact Nat.le_trans (ih size member) (Nat.le_add_left _ _)
    · have sum := (genData_appends succeeds text none).sum
      simp only [none, ↓reduceIte, List.length_append, List.length_cons, List.length_nil]
      rcases member with here | there
      · simp only [none, ↓reduceIte, List.mem_append, List.mem_cons, List.not_mem_nil, or_false]
          at here
        rcases here with (front | middle) | last
        · omega
        · have part : size ≤ (dataSizes env text).sum := List.le_sum_of_mem middle
          omega
        · omega
      · have part := ih size there
        omega
  | node name children rest ihChildren ih =>
    intro size member
    have sum := @config_sum env name
    rw [plainText] at ihChildren ih
    rw [plainText, serialise]
    simp only [List.length_append, List.length_cons, List.append_assoc]
    simp only [pieces, List.mem_append, List.mem_cons, List.not_mem_nil, or_false,
      List.append_assoc, List.mem_replicate] at member
    rcases member with front | config | one | inner | two | ⟨_, one⟩ | last | others
    · omega
    · have part : size ≤ (configSizes env name).sum := List.le_sum_of_mem config
      omega
    · omega
    · have part := ihChildren size inner
      omega
    · omega
    · omega
    · omega
    · have part := ih size others
      omega

theorem emit_holds_iff {b : StrBuf} {text : CString} (start : Holds b text) (tree : Forest) :
    Holds (emit env tree b) (text ++ plainText env tree) ↔
      CutAtSpaces tree ∧ Roomy b.len b.tmplen (pieces env tree) := by
  have appends := emit_appends succeeds tree
  constructor
  · intro plain
    have roomy := appends.needed start plain.inside (by
      intro size member
      have part := piece_le succeeds tree size member
      have len := plain.len
      have room := plain.room
      have int := plain.int
      rw [List.length_append] at len
      omega)
    have written := (appends.kept start roomy).1
    have same := List.append_cancel_left (holds_unique written plain)
    exact ⟨(written_eq_iff tree).mp same, roomy⟩
  · intro both
    rw [← (written_eq_iff tree).mpr both.1]
    exact (appends.kept start both.2).1

end equality

/-- The loop ends, and the string has the text of the recursive serialiser behind what was in it,
    exactly if the names are cut at their spaces, and the block never has to reach 2^31 bytes. -/
theorem genXML_plain_iff (env : GenEnv) (succeeds : ∀ size, env.realloc size = true)
    (p : List XMLElt) (tree : Forest) (encoded : EncodesTree p tree) (b : StrBuf) (text : CString)
    (start : Holds b text) :
    (∃ str, Returns env p b str ∧ Holds str (text ++ plainText env tree)) ↔
      CutAtSpaces tree ∧ Roomy b.len b.tmplen (pieces env tree) := by
  have returns := @genXML_returns env p tree encoded b
  rw [← emit_holds_iff succeeds start tree]
  constructor
  · intro some'
    obtain ⟨str, run, plain⟩ := some'
    rwa [returns_unique run returns] at plain
  · intro plain
    exact ⟨_, returns, plain⟩

/-- A build without options. -/
def plainBuild : GenEnv :=
  { realloc := fun _ => true
    randomUrl := none
    igdV2 := false
    forceIgdDescV1 := false
    upnpConfigid := 1337 }

/-- The first entries of the device description, without the device. -/
def versionTable : List XMLElt :=
  [{ eltname := some "root xmlns=\"urn:schemas-upnp-org:device-1-0\"".toList, data := .word 65537 },
   { eltname := some "specVersion".toList, data := .word 131074 },
   { eltname := some "/major".toList, data := .string "1".toList },
   { eltname := some "/minor".toList, data := .string "0".toList }]

def versionTree : Forest :=
  .node "root xmlns=\"urn:schemas-upnp-org:device-1-0\"".toList
    (.node "specVersion".toList
      (.leaf "major".toList "1".toList (.leaf "minor".toList "0".toList .nil)) .nil) .nil

theorem versionTree_encoded : EncodesTree versionTable versionTree where
  short := by decide
  encodes := by
    refine ⟨by decide, by decide, by simp, ⟨65537, rfl, ?_⟩, rfl⟩
    refine ⟨by decide, by decide, by simp, ⟨131074, rfl, ?_⟩, rfl⟩
    refine ⟨by decide, ⟨_, rfl, Or.inl rfl⟩, ?_⟩
    exact ⟨by decide, ⟨_, rfl, Or.inl rfl⟩, rfl⟩
  depth := by decide

theorem genXML_plain_version :
    ∃ str, Returns plainBuild versionTable (emptyBuf 2048) str ∧
      Holds str (plainText plainBuild versionTree) := by
  have cut : CutAtSpaces versionTree := by
    refine ⟨List.all_eq_true.mp (by decide),
      ⟨List.all_eq_true.mp (by decide), ?_⟩, trivial⟩
    exact ⟨⟨fun _ => by decide, fun _ => by decide, trivial⟩, trivial⟩
  have roomy : Roomy 0 2048 (pieces plainBuild versionTree) := by decide
  exact (genXML_plain_iff plainBuild (fun _ => rfl) versionTable versionTree versionTree_encoded
    (emptyBuf 2048) [] (emptyBuf_holds (by decide) (by decide))).mpr ⟨cut, roomy⟩

def spacedTable : List XMLElt :=
  [{ eltname := some "/b a".toList, data := .string "1".toList }]

def spacedTree : Forest := .leaf "b a".toList "1".toList .nil

theorem spacedTree_encoded : EncodesTree spacedTable spacedTree where
  short := by decide
  encodes := ⟨by decide, ⟨_, rfl, Or.inl rfl⟩, rfl⟩
  depth := by decide

/-- The end tag of an element with a text is not cut. -/
theorem spaced_leaf_differs :
    plainText plainBuild spacedTree = "<b a>1</b>".toList ∧
      writtenText plainBuild spacedTree = "<b a>1</b a>".toList ∧
      ¬ ∃ str, Returns plainBuild spacedTable (emptyBuf 2048) str ∧
        Holds str (plainText plainBuild spacedTree) := by
  refine ⟨by decide, by decide, ?_⟩
  intro some'
  obtain ⟨str, run, plain⟩ := some'
  have same := returns_unique run (genXML_returns spacedTree_encoded (emptyBuf 2048))
  rw [same] at plain
  have start := emptyBuf_holds (show 0 < 2048 by decide) (by decide)
  have cut := ((emit_holds_iff (fun _ => rfl) start spacedTree).mp plain).1
  exact absurd (cut.1 (by decide)) (by decide)

end GenXml
