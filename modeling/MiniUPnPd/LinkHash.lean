import Mathlib.Logic.Function.Basic
import MiniUPnPd.Lib.LinkedCells
import MiniUPnPd.Lib.OpenAddressing
import MiniUPnPd.Lib.Runs

/-!
JSON objects. Their fields are in a hash table with open addressing whose entries are linked in the
order in which they were added. A deleted entry leaves a mark that is passed by a search, and a
table that has become full is copied into one of twice its size. Memory may run out. What is freed
is not modelled.
-/
namespace LinkHash
open Function (update)
open LinkedCells OpenAddressing
variable {K V : Type*}

section source

structure LhEntry (K V : Type*) where
  k : Slot K
  kIsConstant : Bool
  v : Option V
  next : Option Nat
  prev : Option Nat

structure LhTable (K V : Type*) where
  size : Nat
  count : Nat
  head : Option Nat
  tail : Option Nat
  table : Nat → LhEntry K V

def LhTable.slots (t : LhTable K V) (n : Nat) : Slot K := (t.table n).k

def INT_MAX : Nat := 2 ^ 31 - 1

/-- `calloc` succeeds for some sizes. -/
def lhTableNew (alloc : Nat → Bool) (size : Nat) : Option (LhTable K V) :=
  if alloc size then
    some
      { size, count := 0, head := none, tail := none
        table := fun _ =>
          { k := .empty, kIsConstant := false, v := none, next := none, prev := none } }
  else none

/-- The entry is linked behind the last one, which is written to if there is a first one. -/
def linkLast (n : Nat) (t : LhTable K V) : Option (LhTable K V) :=
  match t.head, t.tail with
  | none, _ =>
    some
      { t with
        head := some n
        tail := some n
        table := update t.table n { t.table n with next := none, prev := none } }
  | some _, none => none
  | some _, some last =>
    let table := update t.table last { t.table last with next := some n }
    some
      { t with
        tail := some n
        table := update table n { table n with next := none, prev := some last } }

/-- The end of `lh_table_insert_w_hash`, which does not come to one without a free slot. -/
def insertFree (k : K) (v : Option V) (h : Nat) (constant : Bool) (t : LhTable K V) :
    Option (LhTable K V) :=
  (place t.slots t.size t.size (h % t.size)).bind fun n =>
    linkLast n
      { t with
        count := t.count + 1
        table := update t.table n { t.table n with k := .key k, kIsConstant := constant, v } }

/-- The loop of `lh_table_resize` over the entries. -/
def copyEntries (insert : K → Option V → Bool → LhTable K V → Option (Int × LhTable K V))
    (table : Nat → LhEntry K V) :
    (fuel : Nat) → Option Nat → LhTable K V → Option (Int × LhTable K V)
  | _, none, newT => some (0, newT)
  | 0, some _, _ => none
  | fuel + 1, some n, newT =>
    match (table n).k with
    | .key k =>
      (insert k (table n).v (table n).kIsConstant newT).bind fun inserted =>
        if inserted.1 ≠ 0 then some (-1, inserted.2)
        else copyEntries insert table fuel (table n).next inserted.2
    | _ => none

def lhTableResize (insert : K → Option V → Bool → LhTable K V → Option (Int × LhTable K V))
    (alloc : Nat → Bool) (newSize : Nat) (t : LhTable K V) : Option (Int × LhTable K V) :=
  match lhTableNew alloc newSize with
  | none => some (-1, t)
  | some newT =>
    (copyEntries insert t.table t.size t.head newT).map fun copied =>
      if copied.1 ≠ 0 then (-1, t)
      else
        (0, { t with
              table := copied.2.table
              size := newSize
              head := copied.2.head
              tail := copied.2.tail })

/-- `LH_LOAD_FACTOR` is 0.66. The depth is that of the calls inside of each other. -/
def lhTableInsertWHash (hash : K → Nat) (alloc : Nat → Bool) :
    (depth : Nat) → K → Option V → (h : Nat) → (constant : Bool) → LhTable K V →
      Option (Int × LhTable K V)
  | 0, _, _, _, _, _ => none
  | depth + 1, k, v, h, constant, t =>
    if 66 * t.size ≤ 100 * t.count then
      let newSize := if t.size > INT_MAX / 2 then INT_MAX else t.size * 2
      if t.size = INT_MAX then some (-1, t)
      else
        let insert (k : K) (v : Option V) (constant : Bool) :=
          lhTableInsertWHash hash alloc depth k v (hash k) constant
        (lhTableResize insert alloc newSize t).bind fun resized =>
          if resized.1 ≠ 0 then some (-1, resized.2)
          else (insertFree k v h constant resized.2).map fun t => (0, t)
    else (insertFree k v h constant t).map fun t => (0, t)

def lhTableLookupEntryWHash [DecidableEq K] (k : K) (h : Nat) (t : LhTable K V) : Option Nat :=
  seek t.slots t.size k t.size (h % t.size)

/-- The entry is taken out of the list, if no null pointer is followed. -/
def unlink (n : Nat) (t : LhTable K V) : Option (LhTable K V) :=
  if t.tail = some n ∧ t.head = some n then some { t with head := none, tail := none }
  else if t.head = some n then
    match (t.table n).next with
    | none => none
    | some second =>
      let table := update t.table second { t.table second with prev := none }
      some { t with table, head := (table n).next }
  else if t.tail = some n then
    match (t.table n).prev with
    | none => none
    | some before =>
      let table := update t.table before { t.table before with next := none }
      some { t with table, tail := (table n).prev }
  else
    match (t.table n).prev, (t.table n).next with
    | some before, some behind =>
      let table := update t.table before { t.table before with next := (t.table n).next }
      some
        { t with table := update table behind { table behind with prev := (table n).prev } }
    | _, _ => none

def lhTableDeleteEntry (n : Nat) (t : LhTable K V) : Option (Int × LhTable K V) :=
  match (t.table n).k with
  | .key _ =>
    (unlink n
      { t with
        count := t.count - 1
        table := update t.table n { t.table n with v := none, k := .freed } }).map fun t =>
          (0, { t with table := update t.table n { t.table n with next := none, prev := none } })
  | _ => some (-1, t)

def lhTableDelete [DecidableEq K] (hash : K → Nat) (k : K) (t : LhTable K V) :
    Option (Int × LhTable K V) :=
  match lhTableLookupEntryWHash k (hash k) t with
  | none => some (-1, t)
  | some n => lhTableDeleteEntry n t

def jsonObjectNewObject (alloc : Nat → Bool) : Option (LhTable K V) := lhTableNew alloc 16

/-- `dup` tells whether the key can be copied. The value is not the object itself. -/
def jsonObjectObjectAddEx [DecidableEq K] (hash : K → Nat) (alloc : Nat → Bool) (dup : Bool)
    (key : K) (val : Option V) (keyIsNew keyIsConstant : Bool) (t : LhTable K V) :
    Option (Int × LhTable K V) :=
  match if keyIsNew then none else lhTableLookupEntryWHash key (hash key) t with
  | none =>
    if keyIsConstant ∨ dup then lhTableInsertWHash hash alloc 2 key val (hash key) keyIsConstant t
    else some (-1, t)
  | some n => some (0, { t with table := update t.table n { t.table n with v := val } })

def jsonObjectObjectGetEx [DecidableEq K] (hash : K → Nat) (key : K) (t : LhTable K V) :
    Option (Option V) :=
  (lhTableLookupEntryWHash key (hash key) t).map fun n => (t.table n).v

def jsonObjectObjectDel [DecidableEq K] (hash : K → Nat) (key : K) (t : LhTable K V) :
    Option (LhTable K V) :=
  (lhTableDelete hash key t).map Prod.snd

/-- The fields as `json_object_object_foreach` gives them. -/
def jsonObjectObjectForeach (t : LhTable K V) : Option (List (Slot K × Option V)) :=
  (walk (fun n => (t.table n).next) t.size t.head).map
    (List.map fun n => ((t.table n).k, (t.table n).v))

end source

section tables
variable {hash : K → Nat} {t : LhTable K V} {nodes : List (Nat × K × Option V)}
  {x : Nat × K × Option V} {n h : Nat} {k : K} {v : Option V} {constant : Bool}

def LhTable.prev (t : LhTable K V) (n : Nat) : Option Nat := (t.table n).prev

def LhTable.next (t : LhTable K V) (n : Nat) : Option Nat := (t.table n).next

def places (nodes : List (Nat × K × Option V)) : List Nat := nodes.map Prod.fst

def fields (nodes : List (Nat × K × Option V)) : List (K × Option V) := nodes.map Prod.snd

/-- The slot is that of the field, and a search for the key comes to it. -/
structure Stored (hash : K → Nat) (t : LhTable K V) (x : Nat × K × Option V) : Prop where
  inside : x.1 < t.size
  key : t.slots x.1 = .key x.2.1
  value : (t.table x.1).v = x.2.2
  reached : Reached t.slots t.size (hash x.2.1) x.1

/-- The table has these fields in this order, each at its place. -/
structure Filled (hash : K → Nat) (t : LhTable K V) (nodes : List (Nat × K × Option V)) :
    Prop where
  positive : 0 < t.size
  small : t.size ≤ INT_MAX
  count : t.count = nodes.length
  few : 100 * t.count < 66 * t.size + 100
  head : t.head = (places nodes).head?
  tail : t.tail = (places nodes).getLast?
  linked : Path t.prev t.next none (places nodes) none
  distinct : (places nodes).Nodup
  keys : ((fields nodes).map Prod.fst).Nodup
  stored : ∀ x ∈ nodes, Stored hash t x
  listed : ∀ n < t.size, (t.slots n).isKey = true → n ∈ places nodes

theorem filled_new {alloc : Nat → Bool} {size : Nat} (positive : 0 < size) (small : size ≤ INT_MAX)
    (created : lhTableNew alloc size = some t) : Filled hash t [] ∧ t.size = size := by
  unfold lhTableNew at created
  split at created
  · obtain rfl := Option.some.inj created
    refine ⟨?_, rfl⟩
    exact
      { positive := positive
        small := small
        count := rfl
        few := by dsimp only; omega
        head := rfl
        tail := rfl
        linked := trivial
        distinct := List.nodup_nil
        keys := List.nodup_nil
        stored := fun _ member => nomatch member
        listed := fun _ _ key => nomatch key }
  · cases created

/-- There are fewer fields than slots before the table is full. -/
theorem free_slot (filled : Filled hash t nodes) (room : t.count < t.size) :
    ∃ n < t.size, (t.slots n).isKey = false := by
  by_contra full
  push Not at full
  have all : List.range t.size ⊆ places nodes := by
    intro n member
    have inside := List.mem_range.mp member
    exact filled.listed n inside (by simpa using full n inside)
  have bound := List.nodup_range.length_le_of_subset all
  have count := filled.count
  rw [List.length_range, places, List.length_map] at bound
  omega

theorem place_absent (filled : Filled hash t nodes) (free : (t.slots n).isKey = false) :
    n ∉ places nodes := by
  intro member
  obtain ⟨x, inside, rfl⟩ := List.mem_map.mp member
  rw [(filled.stored x inside).key] at free
  cases free

/-- What the table is after an entry has been linked behind the last one. -/
structure LinkedLast (n : Nat) (t t' : LhTable K V) : Prop where
  size : t'.size = t.size
  count : t'.count = t.count
  head : t'.head = t.head.or (some n)
  tail : t'.tail = some n
  slots : ∀ i, t'.slots i = t.slots i
  value : ∀ i, (t'.table i).v = (t.table i).v
  prev : ∀ i, t'.prev i = if i = n then t.tail else t.prev i
  next : ∀ i, t'.next i = if i = n then none else if t.tail = some i then some n else t.next i

theorem linkLast_exact (both : t.head = none ↔ t.tail = none) (other : t.tail ≠ some n) :
    ∃ t', linkLast n t = some t' ∧ LinkedLast n t t' := by
  unfold linkLast
  cases first : t.head with
  | none =>
    have none := both.mp first
    refine ⟨_, rfl, ⟨rfl, rfl, by rw [first]; rfl, rfl, ?_, ?_, ?_, ?_⟩⟩
    · intro i
      simp only [LhTable.slots, Function.update_apply]
      split <;> simp [*]
    · intro i
      simp only [Function.update_apply]
      split <;> simp [*]
    · intro i
      simp only [LhTable.prev, Function.update_apply, none]
      split <;> simp [*]
    · intro i
      simp only [LhTable.next, Function.update_apply, none]
      split <;> simp [*]
  | some f =>
    cases final : t.tail with
    | none =>
      rw [both.mpr final] at first
      cases first
    | some last =>
      have apart : last ≠ n := by
        rintro rfl
        exact other final
      refine ⟨_, rfl, ⟨rfl, rfl, by rw [first]; rfl, rfl, ?_, ?_, ?_, ?_⟩⟩
      · intro i
        simp only [LhTable.slots, Function.update_apply]
        split
        · simp [*, apart.symm]
        · split <;> simp [*]
      · intro i
        simp only [Function.update_apply]
        split
        · simp [*, apart.symm]
        · split <;> simp [*]
      · intro i
        simp only [LhTable.prev, Function.update_apply]
        split
        · simp [*]
        · split <;> simp [*]
      · intro i
        simp only [LhTable.next, Function.update_apply]
        split
        · simp [*]
        · split
          · simp [*]
          · rename_i far
            simp [*, Ne.symm far]

theorem places_append (nodes : List (Nat × K × Option V)) (x : Nat × K × Option V) :
    places (nodes ++ [x]) = places nodes ++ [x.1] := List.map_append

/-- The links after the last place when another one is put behind it. -/
theorem linked_last {t' : LhTable K V} (filled : Filled hash t nodes) (absent : n ∉ places nodes)
    (prev : ∀ i, t'.prev i = if i = n then t.tail else t.prev i)
    (next : ∀ i, t'.next i = if i = n then none else if t.tail = some i then some n else t.next i) :
    Path t'.prev t'.next none (places nodes ++ [n]) none := by
  have apart : ∀ i ∈ places nodes, i ≠ n := by
    rintro i member rfl
    exact absent member
  rw [path_append]
  constructor
  · apply path_end filled.linked filled.distinct
    · intro i member
      rw [prev, if_neg (apart i member)]
    · intro i member other
      rw [← filled.tail] at other
      rw [next, if_neg (apart i member), if_neg other]
    · intro i same
      rw [← filled.tail] at same
      rw [next, if_neg (apart i (List.mem_of_getLast? (filled.tail ▸ same))), if_pos same]
      rfl
  · refine ⟨?_, ?_, trivial⟩
    · rw [prev, if_pos rfl, filled.tail, Option.or_none]
    · rw [next, if_pos rfl]
      rfl

/-- A field with a new key is put at the end, as long as the table is not full. -/
theorem insertFree_filled (filled : Filled hash t nodes) (room : 100 * t.count < 66 * t.size)
    (new : k ∉ (fields nodes).map Prod.fst) (v : Option V) (constant : Bool) :
    ∃ n t', insertFree k v (hash k) constant t = some t' ∧ t'.size = t.size ∧
      Filled hash t' (nodes ++ [(n, k, v)]) := by
  obtain ⟨n, found, inside, free, reached⟩ :=
    place_some (hash k) (free_slot filled (by omega))
  have absent := place_absent filled free
  let stored : LhTable K V :=
    { t with
      count := t.count + 1
      table := update t.table n { t.table n with k := .key k, kIsConstant := constant, v } }
  have both : stored.head = none ↔ stored.tail = none := by
    have first : stored.head = (places nodes).head? := filled.head
    have last : stored.tail = (places nodes).getLast? := filled.tail
    rw [first, last, List.head?_eq_none_iff, List.getLast?_eq_none_iff]
  have other : stored.tail ≠ some n := by
    intro same
    have last : stored.tail = (places nodes).getLast? := filled.tail
    exact absent (List.mem_of_getLast? (last ▸ same))
  obtain ⟨t', linked, exact'⟩ := linkLast_exact both other
  have slots : ∀ i, t'.slots i = if i = n then .key k else t.slots i := by
    intro i
    rw [exact'.slots]
    simp only [LhTable.slots, stored, Function.update_apply]
    split <;> rfl
  have values : ∀ i, (t'.table i).v = if i = n then v else (t.table i).v := by
    intro i
    rw [exact'.value]
    simp only [stored, Function.update_apply]
    split <;> rfl
  have links : ∀ i, stored.prev i = t.prev i ∧ stored.next i = t.next i := by
    intro i
    simp only [LhTable.prev, LhTable.next, stored, Function.update_apply]
    split <;> simp [*]
  have filling : ∀ i, t'.slots i = .empty → t.slots i = .empty := by
    intro i empty
    rw [slots] at empty
    split at empty
    · cases empty
    · exact empty
  have size : t'.size = t.size := exact'.size
  have apart : ∀ y ∈ nodes, y.1 ≠ n := by
    rintro y member rfl
    exact absent (List.mem_map_of_mem member)
  refine ⟨n, t', ?_, size, ?_⟩
  · rw [insertFree, found]
    exact linked
  · exact
      { positive := size ▸ filled.positive
        small := size ▸ filled.small
        count := by
          rw [exact'.count, List.length_append, ← filled.count]
          rfl
        few := by
          rw [exact'.count, size]
          dsimp only [stored]
          omega
        head := by
          rw [exact'.head, places_append, List.head?_append, ← filled.head]
          rfl
        tail := by
          rw [exact'.tail, places_append, List.getLast?_concat]
        linked := by
          rw [places_append]
          apply linked_last filled absent
          · intro i
            rw [exact'.prev, (links i).1]
          · intro i
            rw [exact'.next, (links i).2]
        distinct := by
          rw [places_append]
          exact filled.distinct.append (List.nodup_singleton n) (List.disjoint_singleton.mpr absent)
        keys := by
          rw [fields, List.map_append, List.map_append]
          exact filled.keys.append (List.nodup_singleton k) (List.disjoint_singleton.mpr new)
        stored := by
          intro x member
          rcases List.mem_append.mp member with old | last
          · have before := filled.stored x old
            exact
              { inside := size ▸ before.inside
                key := by rw [slots, if_neg (apart x old), before.key]
                value := by rw [values, if_neg (apart x old), before.value]
                reached := size ▸ before.reached.mono filling }
          · obtain rfl := List.mem_singleton.mp last
            exact
              { inside := size ▸ inside
                key := by rw [slots, if_pos rfl]
                value := by rw [values, if_pos rfl]
                reached := size ▸ reached.mono filling }
        listed := by
          intro i bound key
          rw [places_append]
          rw [slots] at key
          split at key
          · rename_i same
            exact List.mem_append_right _ (List.mem_singleton.mpr same)
          · exact List.mem_append_left _ (filled.listed i (size ▸ bound) key) }

end tables

section growth
variable {hash : K → Nat} (alloc : Nat → Bool) {t newT : LhTable K V}
  {nodes rest : List (Nat × K × Option V)} {k : K}
  {insert : K → Option V → Bool → LhTable K V → Option (Int × LhTable K V)}

/-- A table that is not full is filled without growing. -/
def Fills (hash : K → Nat)
    (insert : K → Option V → Bool → LhTable K V → Option (Int × LhTable K V)) : Prop :=
  ∀ k v constant t, 100 * t.count < 66 * t.size →
    insert k v constant t = (insertFree k v (hash k) constant t).map fun t => (0, t)

theorem fields_append (l m : List (Nat × K × Option V)) : fields (l ++ m) = fields l ++ fields m :=
  List.map_append

/-- The entries are copied one after the other, along their links. -/
theorem copyEntries_filled (fills : Fills hash insert) (filled : Filled hash newT nodes)
    {p : Option Nat} (linked : Path t.prev t.next p (places rest) none)
    (stored : ∀ x ∈ rest, Stored hash t x)
    (keys : ((fields (nodes ++ rest)).map Prod.fst).Nodup)
    (room : 100 * (nodes ++ rest).length < 66 * newT.size + 100) {fuel : Nat}
    (enough : rest.length ≤ fuel) :
    ∃ newT' nodes', copyEntries insert t.table fuel (places rest).head? newT = some (0, newT') ∧
      newT'.size = newT.size ∧ Filled hash newT' nodes' ∧
      fields nodes' = fields (nodes ++ rest) := by
  induction rest generalizing nodes newT p fuel with
  | nil =>
    refine ⟨newT, nodes, ?_, rfl, filled, by rw [List.append_nil]⟩
    cases fuel <;> rfl
  | cons x rest ih =>
    obtain ⟨n, k, v⟩ := x
    obtain ⟨_, behind, further⟩ := linked
    obtain ⟨here, others⟩ := List.forall_mem_cons.mp stored
    have count := filled.count
    simp only [List.length_append, List.length_cons] at room enough
    have new : k ∉ (fields nodes).map Prod.fst := by
      intro member
      rw [fields_append, List.map_append, List.nodup_append] at keys
      exact keys.2.2 k member k List.mem_cons_self rfl
    obtain ⟨n', newT₁, inserted, size, filled₁⟩ :=
      insertFree_filled filled (by omega) new v (t.table n).kIsConstant
    have moved : fields (nodes ++ [(n', k, v)] ++ rest) = fields (nodes ++ (n, k, v) :: rest) := by
      simp only [fields, List.map_append, List.map_cons, List.append_assoc, List.singleton_append]
    cases fuel with
    | zero => omega
    | succ fuel =>
      obtain ⟨newT', nodes', copied, size', filled', same⟩ :=
        ih filled₁ further others (by rw [moved]; exact keys)
          (by rw [size]; simp only [List.length_append, List.length_singleton]; omega)
          (show rest.length ≤ fuel by omega)
      refine ⟨newT', nodes', ?_, size'.trans size, filled', same.trans moved⟩
      have key : (t.table n).k = .key k := here.key
      have value : (t.table n).v = v := here.value
      rw [Option.or_none] at behind
      have next : (t.table n).next = (places rest).head? := behind
      have call := fills k v (t.table n).kIsConstant newT (by omega)
      rw [inserted] at call
      rw [places, List.map_cons, List.head?_cons, copyEntries, key]
      dsimp only
      rw [value, call, next]
      exact copied

theorem lhTableResize_filled (fills : Fills hash insert) (filled : Filled hash t nodes)
    {newSize : Nat} (small : newSize ≤ INT_MAX) (room : 100 * t.count < 66 * newSize) :
    lhTableResize insert alloc newSize t = some (-1, t) ∨
      ∃ t' nodes', lhTableResize insert alloc newSize t = some (0, t') ∧ t'.size = newSize ∧
        Filled hash t' nodes' ∧ fields nodes' = fields nodes := by
  unfold lhTableResize
  cases created : (lhTableNew alloc newSize : Option (LhTable K V)) with
  | none => exact .inl rfl
  | some newT =>
    right
    obtain ⟨empty, size⟩ : Filled hash newT [] ∧ newT.size = newSize :=
      filled_new (by omega) small created
    have count := filled.count
    have enough : nodes.length ≤ t.size := by
      have few := filled.few
      have positive := filled.positive
      omega
    obtain ⟨t', nodes', copied, size', filled', same⟩ := copyEntries_filled fills empty
      filled.linked filled.stored filled.keys (by rw [size, List.nil_append]; omega) enough
    rw [List.nil_append] at same
    have counts : t.count = t'.count := by
      have lengths := congrArg List.length same
      rw [fields, fields, List.length_map, List.length_map] at lengths
      rw [filled.count, filled'.count, lengths]
    refine ⟨t', nodes', ?_, size'.trans size, filled', same⟩
    dsimp only
    rw [filled.head, copied]
    dsimp only [Option.map_some]
    rw [if_neg (by decide), counts, ← size, ← size']

theorem fills_notFull (hash : K → Nat) (depth : Nat) :
    Fills hash (fun (k : K) (v : Option V) constant =>
      lhTableInsertWHash hash alloc (depth + 1) k v (hash k) constant) := by
  intro k v constant t room
  dsimp only
  rw [lhTableInsertWHash, if_neg (by omega)]

/-- A new key is put at the end, or nothing is changed because memory has run out. -/
theorem lhTableInsertWHash_filled (filled : Filled hash t nodes)
    (new : k ∉ (fields nodes).map Prod.fst) (v : Option V) (constant : Bool) (depth : Nat) :
    lhTableInsertWHash hash alloc (depth + 2) k v (hash k) constant t = some (-1, t) ∨
      ∃ t' nodes', lhTableInsertWHash hash alloc (depth + 2) k v (hash k) constant t =
          some (0, t') ∧ Filled hash t' nodes' ∧ fields nodes' = fields nodes ++ [(k, v)] := by
  have few := filled.few
  have positive := filled.positive
  have small := filled.small
  rw [lhTableInsertWHash]
  by_cases full : 66 * t.size ≤ 100 * t.count
  · rw [if_pos full]
    by_cases largest : t.size = INT_MAX
    · left
      dsimp only
      rw [if_pos largest]
    · dsimp only
      rw [if_neg largest]
      generalize grown : (if t.size > INT_MAX / 2 then INT_MAX else t.size * 2) = newSize
      have bounds : newSize ≤ INT_MAX ∧ 100 * t.count < 66 * newSize := by
        have one : t.size = 1 ∨ 2 ≤ t.size := by omega
        unfold INT_MAX at *
        split at grown
        · omega
        · rcases one with one | more <;> omega
      rcases lhTableResize_filled alloc (fills_notFull alloc hash depth) filled bounds.1
        bounds.2 with failed | ⟨t₁, nodes₁, resized, size, filled₁, same⟩
      · left
        rw [failed]
        rfl
      · right
        have count : t₁.count = t.count := by
          have lengths := congrArg List.length same
          rw [fields, fields, List.length_map, List.length_map] at lengths
          rw [filled.count, filled₁.count, lengths]
        obtain ⟨n, t', inserted, _, filled'⟩ := insertFree_filled filled₁
          (by rw [size, count]; exact bounds.2) (by rw [same]; exact new) v constant
        refine ⟨t', _, ?_, filled', ?_⟩
        · rw [resized]
          dsimp only [Option.bind_some]
          rw [if_neg (by decide), inserted]
          rfl
        · rw [fields_append, same]
          rfl
  · right
    obtain ⟨n, t', inserted, _, filled'⟩ := insertFree_filled filled (by omega) new v constant
    refine ⟨t', _, ?_, filled', fields_append _ _⟩
    rw [if_neg full, inserted]
    rfl

end growth

section removal
variable {t t' : LhTable K V} {l m : List Nat} {n : Nat}

/-- What the table is after the entry between `l` and `m` has been taken out of the list. -/
structure Unlinked (l m : List Nat) (t t' : LhTable K V) : Prop where
  size : t'.size = t.size
  count : t'.count = t.count
  head : t'.head = (l ++ m).head?
  tail : t'.tail = (l ++ m).getLast?
  slots : ∀ i, t'.slots i = t.slots i
  value : ∀ i, (t'.table i).v = (t.table i).v
  prev : ∀ i, t'.prev i = if m.head? = some i then l.getLast? else t.prev i
  next : ∀ i, t'.next i = if l.getLast? = some i then m.head? else t.next i

theorem head_other (absent : n ∉ l) (filled : l ≠ []) (m : List Nat) :
    (l ++ n :: m).head? = (l ++ m).head? ∧ (l ++ n :: m).head? ≠ some n := by
  cases l with
  | nil => exact absurd rfl filled
  | cons a l =>
    refine ⟨rfl, ?_⟩
    intro same
    obtain rfl : a = n := Option.some.inj same
    exact absent List.mem_cons_self

theorem last_other (absent : n ∉ m) (filled : m ≠ []) (l : List Nat) :
    (l ++ n :: m).getLast? = (l ++ m).getLast? ∧ (l ++ n :: m).getLast? ≠ some n := by
  cases m with
  | nil => exact absurd rfl filled
  | cons c m =>
    have whole : (l ++ n :: c :: m).getLast? = (c :: m).getLast? := by
      simp [List.getLast?_append, List.getLast?_cons]
    refine ⟨?_, ?_⟩
    · rw [whole]
      simp [List.getLast?_append, List.getLast?_cons]
    · intro same
      rw [whole] at same
      exact absent (List.mem_of_getLast? same)

theorem unlink_exact (linked : Path t.prev t.next none (l ++ n :: m) none)
    (distinct : (l ++ n :: m).Nodup) (head : t.head = (l ++ n :: m).head?)
    (tail : t.tail = (l ++ n :: m).getLast?) :
    ∃ t', unlink n t = some t' ∧ Unlinked l m t t' := by
  obtain ⟨_, before, behind, _⟩ := path_append.mp linked
  rw [Option.or_none] at before behind
  have prev : (t.table n).prev = l.getLast? := before
  have next : (t.table n).next = m.head? := behind
  obtain ⟨_, inner, others⟩ := List.nodup_append.mp distinct
  have absent : n ∉ m := (List.nodup_cons.mp inner).1
  have absent' : n ∉ l := fun member => others n member n List.mem_cons_self rfl
  cases final : l.getLast? with
  | none =>
    obtain rfl := List.getLast?_eq_none_iff.mp final
    have first : t.head = some n := head
    cases begin : m.head? with
    | none =>
      obtain rfl := List.head?_eq_none_iff.mp begin
      have last : t.tail = some n := tail
      refine ⟨{ t with head := none, tail := none }, ?_,
        ⟨rfl, rfl, rfl, rfl, fun _ => rfl, fun _ => rfl, fun _ => ?_, fun _ => ?_⟩⟩
      · rw [unlink, if_pos ⟨last, first⟩]
      · simp [LhTable.prev]
      · simp [LhTable.next]
    | some c =>
      have filled : m ≠ [] := by
        rintro rfl
        cases begin
      obtain ⟨same, other⟩ := last_other absent filled []
      rw [← tail] at same other
      have apart : n ≠ c := by
        rintro rfl
        exact absent (List.mem_of_head? begin)
      refine ⟨{ t with
          head := some c
          table := Function.update t.table c { t.table c with prev := none } }, ?_,
        ⟨rfl, rfl, begin.symm, same, fun i => ?_, fun i => ?_, fun i => ?_, fun i => ?_⟩⟩
      · rw [unlink, if_neg (fun both => other both.1), if_pos first, next, begin]
        dsimp only
        rw [Function.update_of_ne apart, next, begin]
      · simp only [LhTable.slots, Function.update_apply]
        split <;> simp [*]
      · simp only [Function.update_apply]
        split <;> simp [*]
      · rw [begin]
        by_cases here : i = c
        · simp [LhTable.prev, here]
        · simp [LhTable.prev, here, Ne.symm here]
      · simp only [LhTable.next, Function.update_apply]
        split <;> simp [*]
  | some b =>
    have filled : l ≠ [] := by
      rintro rfl
      cases final
    have apart : n ≠ b := by
      rintro rfl
      exact absent' (List.mem_of_getLast? final)
    obtain ⟨same, other⟩ := head_other absent' filled m
    rw [← head] at same other
    cases begin : m.head? with
    | none =>
      obtain rfl := List.head?_eq_none_iff.mp begin
      rw [List.getLast?_concat] at tail
      refine ⟨{ t with
          tail := some b
          table := Function.update t.table b { t.table b with next := none } }, ?_,
        ⟨rfl, rfl, same, ?_, fun i => ?_, fun i => ?_, fun i => ?_, fun i => ?_⟩⟩
      · rw [unlink, if_neg (fun both => other both.2), if_neg other, if_pos tail, prev, final]
        dsimp only
        rw [Function.update_of_ne apart, prev, final]
      · rw [List.append_nil, final]
      · simp only [LhTable.slots, Function.update_apply]
        split <;> simp [*]
      · simp only [Function.update_apply]
        split <;> simp [*]
      · simp only [LhTable.prev, Function.update_apply]
        split <;> simp [*]
      · rw [final]
        by_cases here : i = b
        · simp [LhTable.next, here]
        · simp [LhTable.next, here, Ne.symm here]
    | some c =>
      have filled' : m ≠ [] := by
        rintro rfl
        cases begin
      have apart' : n ≠ c := by
        rintro rfl
        exact absent (List.mem_of_head? begin)
      have between : b ≠ c := by
        rintro rfl
        exact others b (List.mem_of_getLast? final) b
          (List.mem_cons_of_mem n (List.mem_of_head? begin)) rfl
      obtain ⟨same', other'⟩ := last_other absent filled' l
      rw [← tail] at same' other'
      refine ⟨{ t with
          table := Function.update
            (Function.update t.table b { t.table b with next := some c }) c
            { t.table c with prev := some b } }, ?_,
        ⟨rfl, rfl, same, same', fun i => ?_, fun i => ?_, fun i => ?_, fun i => ?_⟩⟩
      · rw [unlink, if_neg (fun both => other both.2), if_neg other, if_neg other', prev, next,
          final, begin]
        dsimp only
        rw [Function.update_of_ne between.symm, Function.update_of_ne apart, prev, final]
      · simp only [LhTable.slots, Function.update_apply]
        split
        · simp [*]
        · split <;> simp [*]
      · simp only [Function.update_apply]
        split
        · simp [*]
        · split <;> simp [*]
      · rw [begin, final]
        by_cases here : i = c
        · simp [LhTable.prev, here]
        · by_cases there : i = b
          · simp [LhTable.prev, there, between, between.symm]
          · simp [LhTable.prev, here, there, Ne.symm here]
      · rw [begin, final]
        by_cases here : i = b
        · simp [LhTable.next, here, between]
        · by_cases there : i = c
          · simp [LhTable.next, there, between]
          · simp [LhTable.next, here, there, Ne.symm here]

/-- The neighbours of an entry that is taken out are linked to each other. -/
theorem linked_out (linked : Path t.prev t.next none (l ++ n :: m) none)
    (distinct : (l ++ n :: m).Nodup) (out : Unlinked l m t t') :
    Path t'.prev t'.next none (l ++ m) none := by
  obtain ⟨front, _, _, back⟩ := path_append.mp linked
  obtain ⟨distinctFront, inner, others⟩ := List.nodup_append.mp distinct
  have apart : ∀ i ∈ l, ∀ j ∈ m, i ≠ j := fun i left j right =>
    others i left j (List.mem_cons_of_mem n right)
  rw [path_append]
  constructor
  · apply path_end front distinctFront
    · intro i member
      rw [out.prev, if_neg]
      intro same
      exact apart i member i (List.mem_of_head? same) rfl
    · intro i _ other
      rw [out.next, if_neg other]
    · intro i same
      rw [out.next, if_pos same, Option.or_none]
  · apply path_start back (List.nodup_cons.mp inner).2
    · intro i member
      rw [out.next, if_neg]
      intro same
      exact apart i (List.mem_of_getLast? same) i member rfl
    · intro i _ other
      rw [out.prev, if_neg other]
    · intro i same
      rw [out.prev, if_pos same, Option.or_none]

end removal

section fieldwise
variable {hash : K → Nat} {t : LhTable K V} {nodes : List (Nat × K × Option V)}
  {x : Nat × K × Option V} {k : K}

theorem keys_map (nodes : List (Nat × K × Option V)) :
    (fields nodes).map Prod.fst = nodes.map fun x => x.2.1 := by
  rw [fields, List.map_map]
  rfl

theorem node_of_key (filled : Filled hash t nodes) {y : Nat × K × Option V} (left : x ∈ nodes)
    (right : y ∈ nodes) (same : x.2.1 = y.2.1) : x = y := by
  have keys := filled.keys
  rw [keys_map] at keys
  exact List.inj_on_of_nodup_map keys left right same

theorem lookup_found [DecidableEq K] (filled : Filled hash t nodes) (member : x ∈ nodes) :
    lhTableLookupEntryWHash x.2.1 (hash x.2.1) t = some x.1 := by
  have stored := filled.stored x member
  apply seek_found stored.key stored.reached
  intro j inside key
  obtain ⟨y, listed, rfl⟩ := List.mem_map.mp (filled.listed j inside (by rw [key]; rfl))
  have same : Slot.key y.2.1 = .key x.2.1 := (filled.stored y listed).key.symm.trans key
  rw [node_of_key filled listed member (Slot.key.inj same)]

theorem lookup_absent [DecidableEq K] (filled : Filled hash t nodes)
    (absent : k ∉ (fields nodes).map Prod.fst) :
    lhTableLookupEntryWHash k (hash k) t = none := by
  apply seek_none filled.positive (hash k) _ t.size 0
  intro j inside key
  obtain ⟨y, listed, rfl⟩ := List.mem_map.mp (filled.listed j inside (by rw [key]; rfl))
  have same : Slot.key y.2.1 = .key k := (filled.stored y listed).key.symm.trans key
  apply absent
  rw [keys_map]
  exact List.mem_map.mpr ⟨y, listed, Slot.key.inj same⟩

theorem place_of_key (filled : Filled hash t nodes) {y : Nat × K × Option V} (left : x ∈ nodes)
    (right : y ∈ nodes) (same : x.1 = y.1) : x = y := by
  have first := (filled.stored x left).key
  have second := (filled.stored y right).key
  rw [same] at first
  exact node_of_key filled left right (Slot.key.inj (first.symm.trans second))

/-- The value of a field is replaced in its place. -/
theorem replaced_filled [DecidableEq K] (filled : Filled hash t nodes) (member : x ∈ nodes)
    (v : Option V) :
    Filled hash { t with table := update t.table x.1 { t.table x.1 with v } }
      (nodes.map fun y => if y.2.1 = x.2.1 then (y.1, y.2.1, v) else y) := by
  generalize replaced : (fun y : Nat × K × Option V =>
    if y.2.1 = x.2.1 then (y.1, y.2.1, v) else y) = f
  have kept : ∀ y, (f y).1 = y.1 ∧ (f y).2.1 = y.2.1 := by
    intro y
    rw [← replaced]
    dsimp only
    split <;> exact ⟨rfl, rfl⟩
  have places' : places (nodes.map f) = places nodes := by
    rw [places, List.map_map]
    exact List.map_congr_left fun y _ => (kept y).1
  have keys : (fields (nodes.map f)).map Prod.fst = (fields nodes).map Prod.fst := by
    rw [keys_map, keys_map, List.map_map]
    exact List.map_congr_left fun y _ => (kept y).2
  generalize changed : ({ t with table := update t.table x.1 { t.table x.1 with v } } :
    LhTable K V) = t'
  have entries : ∀ i, t'.slots i = t.slots i ∧ t'.prev i = t.prev i ∧ t'.next i = t.next i ∧
      (t'.table i).v = if i = x.1 then v else (t.table i).v := by
    intro i
    rw [← changed]
    simp only [LhTable.slots, LhTable.prev, LhTable.next, Function.update_apply]
    split <;> simp [*]
  have slots : t'.slots = t.slots := funext fun i => (entries i).1
  have others : t'.size = t.size ∧ t'.count = t.count ∧ t'.head = t.head ∧ t'.tail = t.tail := by
    rw [← changed]
    exact ⟨rfl, rfl, rfl, rfl⟩
  obtain ⟨size, count, head, tail⟩ := others
  exact
    { positive := size ▸ filled.positive
      small := size ▸ filled.small
      count := by rw [count, filled.count, List.length_map]
      few := by rw [count, size]; exact filled.few
      head := by rw [head, places', filled.head]
      tail := by rw [tail, places', filled.tail]
      linked := by
        rw [places']
        exact path_congr (fun i _ => ⟨(entries i).2.1, (entries i).2.2.1⟩) filled.linked
      distinct := by rw [places']; exact filled.distinct
      keys := by rw [keys]; exact filled.keys
      stored := by
        intro y' inside
        obtain ⟨y, listed, rfl⟩ := List.mem_map.mp inside
        have before := filled.stored y listed
        exact
          { inside := by rw [(kept y).1, size]; exact before.inside
            key := by rw [(kept y).1, (kept y).2, slots]; exact before.key
            value := by
              rw [(kept y).1, (entries y.1).2.2.2, ← replaced]
              by_cases same : y.2.1 = x.2.1
              · obtain rfl := node_of_key filled listed member same
                dsimp only
                rw [if_pos rfl, if_pos rfl]
              · have other : y.1 ≠ x.1 := fun place =>
                  same (by rw [place_of_key filled listed member place])
                dsimp only
                rw [if_neg other, if_neg same, before.value]
            reached := by rw [(kept y).1, (kept y).2, slots, size]; exact before.reached }
      listed := by
        intro i bound key
        rw [places']
        rw [slots] at key
        exact filled.listed i (size ▸ bound) key }

/-- A field is taken out, and its slot is marked as freed. -/
theorem deleted_filled [DecidableEq K] (filled : Filled hash t nodes) (member : x ∈ nodes) :
    ∃ t' nodes', lhTableDeleteEntry x.1 t = some (0, t') ∧ Filled hash t' nodes' ∧
      fields nodes' = (fields nodes).filter fun e => e.1 ≠ x.2.1 := by
  obtain ⟨front, back, rfl⟩ := List.append_of_mem member
  have stored := filled.stored x member
  have split : places (front ++ x :: back) = places front ++ x.1 :: places back := by
    rw [places, List.map_append, List.map_cons]
    rfl
  have joined : places (front ++ back) = places front ++ places back := List.map_append
  have distinct := filled.distinct
  have linked := filled.linked
  have head := filled.head
  have tail := filled.tail
  have keys := filled.keys
  rw [split] at distinct linked head tail
  let freed : LhTable K V :=
    { t with
      count := t.count - 1
      table := update t.table x.1 { t.table x.1 with v := none, k := .freed } }
  have links : freed.prev = t.prev ∧ freed.next = t.next := by
    constructor
    · funext i
      simp only [LhTable.prev, freed, Function.update_apply]
      split <;> simp [*]
    · funext i
      simp only [LhTable.next, freed, Function.update_apply]
      split <;> simp [*]
  have linked' : Path freed.prev freed.next none (places front ++ x.1 :: places back) none := by
    rw [links.1, links.2]
    exact linked
  obtain ⟨t₁, unlinked, out⟩ := unlink_exact linked' distinct head tail
  have path := linked_out linked' distinct out
  generalize cleared : (
    { t₁ with
      table := update t₁.table x.1 { t₁.table x.1 with next := none, prev := none } } :
      LhTable K V) = t'
  have same : t'.size = t.size ∧ t'.count = t.count - 1 ∧
      t'.head = (places front ++ places back).head? ∧
      t'.tail = (places front ++ places back).getLast? := by
    rw [← cleared]
    exact ⟨out.size, out.count, out.head, out.tail⟩
  obtain ⟨size, count, head', tail'⟩ := same
  have slots : ∀ i, t'.slots i = if i = x.1 then .freed else t.slots i := by
    intro i
    have before : t'.slots i = freed.slots i := by
      rw [← out.slots, ← cleared]
      simp only [LhTable.slots, Function.update_apply]
      split <;> simp [*]
    rw [before]
    simp only [LhTable.slots, freed, Function.update_apply]
    split <;> rfl
  have values : ∀ i, i ≠ x.1 → (t'.table i).v = (t.table i).v := by
    intro i other
    rw [← cleared]
    dsimp only
    rw [Function.update_of_ne other, out.value]
    simp only [freed, Function.update_of_ne other]
  have other : ∀ i ∈ places front ++ places back, i ≠ x.1 := by
    rintro i inside rfl
    obtain ⟨_, inner, others⟩ := List.nodup_append.mp distinct
    rcases List.mem_append.mp inside with left | right
    · exact others x.1 left x.1 List.mem_cons_self rfl
    · exact (List.nodup_cons.mp inner).1 right
  have linked'' : Path t'.prev t'.next none (places front ++ places back) none := by
    apply path_congr _ path
    intro i inside
    rw [← cleared]
    simp only [LhTable.prev, LhTable.next, Function.update_of_ne (other i inside), and_self]
  have parts : (fields (front ++ x :: back)).map Prod.fst =
      (fields front).map Prod.fst ++ x.2.1 :: (fields back).map Prod.fst := by
    rw [fields, List.map_append, List.map_append, List.map_cons, List.map_cons]
    rfl
  rw [parts] at keys
  have kept : (fields (front ++ x :: back)).filter (fun e => e.1 ≠ x.2.1) =
      fields (front ++ back) := by
    obtain ⟨_, inner, others⟩ := List.nodup_append.mp keys
    have left : ∀ e ∈ fields front, decide (e.1 ≠ x.2.1) = true := fun e inside =>
      decide_eq_true (others e.1 (List.mem_map_of_mem inside) x.2.1 List.mem_cons_self)
    have right : ∀ e ∈ fields back, decide (e.1 ≠ x.2.1) = true := by
      intro e inside
      apply decide_eq_true
      intro same
      apply (List.nodup_cons.mp inner).1
      rw [← same]
      exact List.mem_map_of_mem inside
    have whole : fields (front ++ x :: back) = fields front ++ x.2 :: fields back := by
      rw [fields, List.map_append, List.map_cons]
      rfl
    rw [whole, List.filter_append, List.filter_cons_of_neg (by simp), List.filter_eq_self.mpr left,
      List.filter_eq_self.mpr right, fields_append]
  have number := filled.count
  rw [List.length_append, List.length_cons] at number
  refine ⟨t', front ++ back, ?_, ?_, kept.symm⟩
  · have key : (t.table x.1).k = .key x.2.1 := stored.key
    rw [lhTableDeleteEntry, key]
    dsimp only
    rw [unlinked, ← cleared]
    rfl
  · exact
      { positive := size ▸ filled.positive
        small := size ▸ filled.small
        count := by rw [count, List.length_append]; omega
        few := by
          have few := filled.few
          rw [count, size]
          omega
        head := by rw [head', joined]
        tail := by rw [tail', joined]
        linked := by rw [joined]; exact linked''
        distinct := by
          rw [joined]
          exact distinct.sublist (List.Sublist.append_left (List.sublist_cons_self _ _) _)
        keys := by
          rw [fields_append, List.map_append]
          exact keys.sublist (List.Sublist.append_left (List.sublist_cons_self _ _) _)
        stored := by
          intro y inside
          have apart : y.1 ≠ x.1 := by
            apply other
            rw [← joined]
            exact List.mem_map_of_mem inside
          have listed : y ∈ front ++ x :: back := by
            rcases List.mem_append.mp inside with left | right
            · exact List.mem_append_left _ left
            · exact List.mem_append_right _ (List.mem_cons_of_mem x right)
          have before := filled.stored y listed
          exact
            { inside := size ▸ before.inside
              key := by rw [slots, if_neg apart, before.key]
              value := by rw [values y.1 apart, before.value]
              reached := by
                rw [size]
                apply before.reached.mono
                intro i empty
                rw [slots] at empty
                split at empty
                · cases empty
                · exact empty }
        listed := by
          intro i bound key
          rw [slots] at key
          split at key
          · cases key
          · rename_i apart
            have before := filled.listed i (size ▸ bound) key
            rw [split, List.mem_append, List.mem_cons] at before
            rw [joined, List.mem_append]
            tauto }

end fieldwise

section objects
variable {hash : K → Nat} {t : LhTable K V} {l : List (K × Option V)} {k : K}

/-- What a JSON object is: its fields in the order in which their keys were added. -/
def put [DecidableEq K] (k : K) (v : Option V) (l : List (K × Option V)) : List (K × Option V) :=
  if k ∈ l.map Prod.fst then l.map fun e => if e.1 = k then (k, v) else e else l ++ [(k, v)]

def valueOf [DecidableEq K] (k : K) (l : List (K × Option V)) : Option (Option V) :=
  (l.find? fun e => e.1 = k).map Prod.snd

/-- The table holds the object. -/
def Holds (hash : K → Nat) (l : List (K × Option V)) (t : LhTable K V) : Prop :=
  ∃ nodes, Filled hash t nodes ∧ fields nodes = l

theorem mem_fields {nodes : List (Nat × K × Option V)} (present : k ∈ (fields nodes).map Prod.fst) :
    ∃ x ∈ nodes, x.2.1 = k := by
  rw [keys_map] at present
  exact List.mem_map.mp present

theorem get_holds [DecidableEq K] (holds : Holds hash l t) (k : K) :
    jsonObjectObjectGetEx hash k t = valueOf k l := by
  obtain ⟨nodes, filled, rfl⟩ := holds
  unfold jsonObjectObjectGetEx valueOf
  by_cases present : k ∈ (fields nodes).map Prod.fst
  · obtain ⟨x, member, rfl⟩ := mem_fields present
    rw [lookup_found filled member]
    cases found : (fields nodes).find? fun e => e.1 = x.2.1 with
    | none =>
      have missing := List.find?_eq_none.mp found x.2 (List.mem_map_of_mem member)
      exact absurd (decide_eq_true rfl) missing
    | some e =>
      obtain ⟨y, listed, rfl⟩ := List.mem_map.mp (List.mem_of_find?_eq_some found)
      have hit := List.find?_some found
      have same : y.2.1 = x.2.1 := of_decide_eq_true hit
      obtain rfl := node_of_key filled listed member same
      rw [Option.map_some, Option.map_some, (filled.stored y member).value]
  · have missing : (fields nodes).find? (fun e => e.1 = k) = none := by
      rw [List.find?_eq_none]
      intro e member same
      exact present (of_decide_eq_true same ▸ List.mem_map_of_mem member)
    rw [lookup_absent filled present, missing]
    rfl

theorem length_holds (holds : Holds hash l t) : t.count = l.length := by
  obtain ⟨nodes, filled, rfl⟩ := holds
  rw [filled.count, fields, List.length_map]

theorem foreach_holds (holds : Holds hash l t) :
    jsonObjectObjectForeach t = some (l.map fun e => (.key e.1, e.2)) := by
  obtain ⟨nodes, filled, rfl⟩ := holds
  have enough : (places nodes).length ≤ t.size := by
    have few := filled.few
    have positive := filled.positive
    have count := filled.count
    rw [places, List.length_map]
    omega
  have walked : walk (fun n => (t.table n).next) t.size t.head = some (places nodes) := by
    rw [filled.head]
    exact walk_path filled.linked enough
  rw [jsonObjectObjectForeach, walked, Option.map_some, places, fields, List.map_map, List.map_map]
  apply congrArg some
  apply List.map_congr_left
  intro x member
  have stored := filled.stored x member
  have key : (t.table x.1).k = .key x.2.1 := stored.key
  simp only [Function.comp_apply, key, stored.value]

theorem del_holds [DecidableEq K] (holds : Holds hash l t) (k : K) :
    ∃ t', jsonObjectObjectDel hash k t = some t' ∧ Holds hash (l.filter fun e => e.1 ≠ k) t' := by
  obtain ⟨nodes, filled, rfl⟩ := holds
  unfold jsonObjectObjectDel lhTableDelete
  by_cases present : k ∈ (fields nodes).map Prod.fst
  · obtain ⟨x, member, rfl⟩ := mem_fields present
    obtain ⟨t', nodes', deleted, filled', same⟩ := deleted_filled filled member
    refine ⟨t', ?_, nodes', filled', same⟩
    rw [lookup_found filled member]
    dsimp only
    rw [deleted]
    rfl
  · refine ⟨t, ?_, nodes, filled, ?_⟩
    · rw [lookup_absent filled present]
      rfl
    · symm
      rw [List.filter_eq_self]
      intro e member
      apply decide_eq_true
      rintro rfl
      exact present (List.mem_map_of_mem member)

/-- A field is added or its value replaced, or memory has run out and nothing is changed. -/
theorem add_holds [DecidableEq K] (holds : Holds hash l t) (alloc : Nat → Bool) (dup : Bool)
    (k : K) (v : Option V) {keyIsNew : Bool} (honest : keyIsNew = true → k ∉ l.map Prod.fst)
    (keyIsConstant : Bool) :
    ∃ r t', jsonObjectObjectAddEx hash alloc dup k v keyIsNew keyIsConstant t = some (r, t') ∧
      (r = 0 ∧ Holds hash (put k v l) t' ∨ r = -1 ∧ t' = t ∧ k ∉ l.map Prod.fst) := by
  obtain ⟨nodes, filled, rfl⟩ := holds
  unfold jsonObjectObjectAddEx
  by_cases present : k ∈ (fields nodes).map Prod.fst
  · obtain ⟨x, member, rfl⟩ := mem_fields present
    have old : keyIsNew = false := Bool.eq_false_iff.mpr fun new => honest new present
    rw [old, if_neg (by decide), lookup_found filled member]
    refine ⟨0, _, rfl, .inl ⟨rfl, _, replaced_filled filled member v, ?_⟩⟩
    rw [put, if_pos present, fields, fields, List.map_map, List.map_map]
    apply List.map_congr_left
    intro y _
    simp only [Function.comp_apply]
    split
    · rename_i same
      rw [same]
    · rfl
  · have found :
        (if keyIsNew = true then none else lhTableLookupEntryWHash k (hash k) t) = none := by
      split
      · rfl
      · exact lookup_absent filled present
    rw [found]
    dsimp only
    by_cases copied : keyIsConstant = true ∨ dup = true
    · rw [if_pos copied]
      rcases lhTableInsertWHash_filled alloc filled present v keyIsConstant 0 with
        failed | ⟨t', nodes', inserted, filled', same⟩
      · exact ⟨-1, t, failed, .inr ⟨rfl, rfl, present⟩⟩
      · refine ⟨0, t', inserted, .inl ⟨rfl, nodes', filled', ?_⟩⟩
        rw [put, if_neg present, same]
    · rw [if_neg copied]
      exact ⟨-1, t, rfl, .inr ⟨rfl, rfl, present⟩⟩

/-- What a program does with an object. -/
inductive Op (K V : Type*)
  | add (alloc : Nat → Bool) (dup : Bool) (key : K) (val : Option V)
      (keyIsNew keyIsConstant : Bool)
  | del (key : K)

/-- The object in memory and what it should be. A failed addition changes neither. -/
structure State (K V : Type*) where
  table : Option (LhTable K V)
  object : List (K × Option V)

def step [DecidableEq K] (hash : K → Nat) (s : State K V) : Op K V → State K V
  | .add alloc dup key val keyIsNew keyIsConstant =>
    match s.table.bind (jsonObjectObjectAddEx hash alloc dup key val keyIsNew keyIsConstant) with
    | none => { s with table := none }
    | some (r, t) => { table := some t, object := if r = 0 then put key val s.object else s.object }
  | .del key =>
    { table := s.table.bind (jsonObjectObjectDel hash key)
      object := s.object.filter fun e => e.1 ≠ key }

/-- A key that is said to be new is new. -/
def Honest (s : State K V) : Op K V → Prop
  | .add _ _ key _ keyIsNew _ => keyIsNew = true → key ∉ s.object.map Prod.fst
  | .del _ => True

/-- The table answers as the object does. -/
structure Answers [DecidableEq K] (hash : K → Nat) (s : State K V) (t : LhTable K V) : Prop where
  get : ∀ k, jsonObjectObjectGetEx hash k t = valueOf k s.object
  length : t.count = s.object.length
  foreach : jsonObjectObjectForeach t = some (s.object.map fun e => (.key e.1, e.2))

theorem step_holds [DecidableEq K] (s : State K V) (op : Op K V)
    (holds : ∃ t, s.table = some t ∧ Holds hash s.object t) (honest : Honest s op) :
    ∃ t, (step hash s op).table = some t ∧ Holds hash (step hash s op).object t := by
  obtain ⟨t, same, holds⟩ := holds
  cases op with
  | add alloc dup key val keyIsNew keyIsConstant =>
    obtain ⟨r, t', added, outcome⟩ := add_holds holds alloc dup key val honest keyIsConstant
    simp only [step, same, Option.bind_some, added]
    refine ⟨t', rfl, ?_⟩
    rcases outcome with ⟨rfl, holds'⟩ | ⟨rfl, rfl, _⟩
    · rw [if_pos rfl]
      exact holds'
    · rw [if_neg (by decide)]
      exact holds
  | del key =>
    obtain ⟨t', deleted, holds'⟩ := del_holds holds key
    exact ⟨t', by simp only [step, same, Option.bind_some, deleted], holds'⟩

def emptyObject : LhTable String Nat :=
  { size := 16, count := 0, head := none, tail := none
    table := fun _ => { k := .empty, kIsConstant := false, v := none, next := none, prev := none } }

/-- Two keys with one place, of which the first is deleted and added again. -/
def collidingOps : List (Op String Nat) :=
  let add (key : String) (val : Nat) : Op String Nat :=
    .add (fun _ => true) true key (some val) false false
  [add "iport" 80, add "eport" 8080, .del "iport", add "eport" 81, add "iport" 82]

end objects

end LinkHash
