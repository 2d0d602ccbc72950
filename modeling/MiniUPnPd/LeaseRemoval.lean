import MiniUPnPd.LeaseFile
import MiniUPnPd.Lib.ReadBack

/-!
The removal of a mapping from the lease file. A line is read in pieces of at most 510 characters,
and each piece goes or stays by itself, by whether it begins with the protocol and the port. The
port has no end there, so the lines of longer ports that begin alike go too.
-/
namespace LeaseRemoval
open CText Iptcrdr LeaseFile ReadBack

/-- The arguments of a call that wrote a line, with the timestamp that it wrote. -/
structure Written where
  eport : UInt16
  iaddr : CString
  iport : UInt16
  proto : Int
  desc : CString
  timestamp : Nat
  iaddrPlain : '\x00' ∉ iaddr
  descPlain : '\x00' ∉ desc

def Written.line (w : Written) : CString :=
  leaseLine w.eport w.iaddr w.iport w.proto w.desc w.timestamp

/-- How `fgets` reads the line of a mapping. -/
def Written.pieces (w : Written) : List CString := fgetsLines 511 w.line

/-- What the lines of a mapping are known by. -/
def tag (eport : UInt16) (proto : Int) : CString := protoItoa proto ++ ':' :: utoa eport.toNat

def Of (eport : UInt16) (proto : Int) (w : Written) : Prop := w.eport = eport ∧ w.proto = proto

instance (eport : UInt16) (proto : Int) : DecidablePred (Of eport proto) := fun w =>
  inferInstanceAs (Decidable (w.eport = eport ∧ w.proto = proto))

/-- All pieces of the lines of the mapping begin with its tag, and no piece of another line does. -/
def Apart (eport : UInt16) (proto : Int) (lines : List Written) : Prop :=
  ∀ w ∈ lines, ∀ piece ∈ w.pieces, tag eport proto <+: piece ↔ Of eport proto w

section pieces
variable {n : Nat} {s p : CString}

/-- A piece that `fgets` reads at once, whatever comes after it. -/
def Piece (n : Nat) (p : CString) : Prop :=
  (∃ t, p = t ++ ['\n'] ∧ '\n' ∉ t ∧ p.length ≤ n) ∨ ('\n' ∉ p ∧ p.length = n)

theorem fgets_piece (piece : Piece n p) (s : CString) : fgets n (p ++ s) = (p, s) := by
  rcases piece with ⟨t, rfl, plain, fits⟩ | ⟨plain, full⟩
  · rw [List.length_append, List.length_singleton] at fits
    rw [List.append_assoc, fgets_front plain (by omega)]
    obtain ⟨m, room⟩ : ∃ m, n - t.length = m + 1 := ⟨n - t.length - 1, by omega⟩
    rw [room, List.singleton_append, fgets, if_pos rfl]
  · rw [fgets_front plain (by omega), full, Nat.sub_self, fgets]
    simp

/-- What is read of a text that ends with a newline is a piece. -/
theorem piece_fgets (ended : Ended s) (positive : 0 < n) : Piece n (fgets n s).1 := by
  induction n generalizing s with
  | zero => simp at positive
  | succ n ih =>
    cases s with
    | nil =>
      obtain ⟨t, whole⟩ := ended
      simp at whole
    | cons c s =>
      rw [fgets]
      by_cases newline : c = '\n'
      · rw [if_pos newline, newline]
        exact .inl ⟨[], rfl, List.not_mem_nil, by simp⟩
      · rw [if_neg newline]
        cases n with
        | zero =>
          right
          simp [fgets, Ne.symm newline]
        | succ n =>
          rcases ih (ended_tail ended newline) (Nat.succ_pos n) with
            ⟨t, whole, plain, fits⟩ | ⟨plain, full⟩
          · left
            refine ⟨c :: t, ?_, ?_, ?_⟩
            · rw [List.cons_append, ← whole]
            · simp [plain, Ne.symm newline]
            · rw [List.length_cons]
              omega
          · right
            constructor
            · simp [plain, Ne.symm newline]
            · rw [List.length_cons, full]

theorem fgetsLines_pieces (plain : '\x00' ∉ s) (ended : s = [] ∨ Ended s) :
    ∀ p ∈ fgetsLines 511 s, Piece 510 p := by
  induction length : s.length using Nat.strongRecOn generalizing s with
  | ind m ih =>
    rcases ended with rfl | ended
    · rw [fgetsLines]
      simp
    · have some : s ≠ [] := by
        rintro rfl
        obtain ⟨t, whole⟩ := ended
        simp at whole
      have whole := fgets_append 510 s
      have first : (fgets 510 s).1.takeWhile (· ≠ '\x00') = (fgets 510 s).1 := by
        rw [List.takeWhile_eq_self_iff]
        intro c member
        rw [decide_eq_true_eq]
        rintro rfl
        apply plain
        rw [← whole]
        exact List.mem_append_left _ member
      have later : '\x00' ∉ (fgets 510 s).2 := by
        intro member
        apply plain
        rw [← whole]
        exact List.mem_append_right _ member
      have rest := ih _ (length ▸ fgets_shorter 511 some) later (fgets_left 510 ended) rfl
      have read : Piece 510 (fgets 510 s).1 := piece_fgets ended (by decide)
      rw [← first] at read
      rw [fgetsLines_cons 511 some]
      intro p member
      rcases List.mem_cons.mp member with rfl | inside
      · exact read
      · exact rest p inside

/-- Pieces are read back as they are. -/
theorem fgetsLines_flatten {pieces : List CString} (each : ∀ p ∈ pieces, Piece 510 p)
    (plain : ∀ p ∈ pieces, '\x00' ∉ p) : fgetsLines 511 pieces.flatten = pieces := by
  induction pieces with
  | nil =>
    rw [List.flatten_nil, fgetsLines]
  | cons p pieces ih =>
    have piece := each p List.mem_cons_self
    have some : p ≠ [] := by
      rintro rfl
      rcases piece with ⟨t, whole, _⟩ | ⟨_, full⟩
      · simp at whole
      · simp at full
    have rest := ih (fun q inside => each q (List.mem_cons_of_mem p inside))
      (fun q inside => plain q (List.mem_cons_of_mem p inside))
    have first : p.takeWhile (· ≠ '\x00') = p := by
      rw [List.takeWhile_eq_self_iff]
      intro c member
      rw [decide_eq_true_eq]
      rintro rfl
      exact plain p List.mem_cons_self member
    have read : fgets (511 - 2 + 1) (p ++ pieces.flatten) = (p, pieces.flatten) :=
      fgets_piece piece pieces.flatten
    rw [List.flatten_cons, fgetsLines_cons 511 (List.append_ne_nil_of_left_ne_nil some _), read,
      rest, first]

end pieces

theorem line_ended (w : Written) : Ended w.line :=
  ⟨protoItoa w.proto ++ ':' :: utoa w.eport.toNat ++ ':' :: w.iaddr ++ ':' :: utoa w.iport.toNat ++
    ':' :: utoa w.timestamp ++ ':' :: w.desc, rfl⟩

theorem line_plain (w : Written) : '\x00' ∉ w.line := by
  have number : ∀ n, '\x00' ∉ utoa n := fun n member => (utoa_chars n _ member).2.2 rfl
  have protocol : '\x00' ∉ protoItoa w.proto := fun member => (protoItoa_chars _ _ member).2.2 rfl
  simp [Written.line, leaseLine, number, protocol, w.iaddrPlain, w.descPlain]

theorem flatten_pieces (w : Written) : w.pieces.flatten = w.line :=
  flatten_fgetsLines 511 (line_plain w)

theorem content_pieces (lines : List Written) :
    fgetsLines 511 (lines.flatMap Written.line) = lines.flatMap Written.pieces :=
  fgetsLines_flatMap 511 line_ended lines

theorem flatMap_pieces (lines : List Written) :
    (lines.flatMap Written.pieces).flatten = lines.flatMap Written.line := by
  induction lines with
  | nil => rfl
  | cons w lines ih =>
    rw [List.flatMap_cons, List.flatMap_cons, List.flatten_append, flatten_pieces, ih]

/-- A piece of a line is read back as it is. -/
theorem pieces_whole (lines : List Written) :
    ∀ p ∈ lines.flatMap Written.pieces, Piece 510 p ∧ '\x00' ∉ p := by
  intro p member
  obtain ⟨w, _, inside⟩ := List.mem_flatMap.mp member
  refine ⟨fgetsLines_pieces (line_plain w) (.inr (line_ended w)) p inside, ?_⟩
  intro zero
  apply line_plain w
  rw [← flatten_pieces w]
  exact List.mem_flatten.mpr ⟨p, inside, zero⟩

/-- A removal leaves exactly the lines of the other mappings if and only if all pieces of the lines
    of this one begin with its tag and no piece of another line does. -/
theorem lines_removed_iff (eport : UInt16) (proto : Int) (lines : List Written) :
    leaseFileRemove eport proto (some (lines.flatMap Written.line)) =
        some ((lines.filter fun w => ¬ Of eport proto w).flatMap Written.line) ↔
      Apart eport proto lines := by
  let stays : CString → Bool := fun piece => !(tag eport proto).isPrefixOf piece
  have removed : leaseFileRemove eport proto (some (lines.flatMap Written.line)) =
      some ((lines.flatMap Written.pieces).filter stays).flatten := by
    simp only [leaseFileRemove, Option.map_some, content_pieces]
    rfl
  have kept : (lines.filter fun w => ¬ Of eport proto w).flatMap Written.line =
      ((lines.filter fun w => ¬ Of eport proto w).flatMap Written.pieces).flatten :=
    (flatMap_pieces _).symm
  rw [removed, kept, Option.some.injEq]
  -- the pieces that are left are read back as they are, so the texts agree only if the pieces do
  have pieces : ((lines.flatMap Written.pieces).filter stays).flatten =
      ((lines.filter fun w => ¬ Of eport proto w).flatMap Written.pieces).flatten ↔
      (lines.flatMap Written.pieces).filter stays =
        (lines.filter fun w => ¬ Of eport proto w).flatMap Written.pieces := by
    constructor
    · intro same
      have read := congrArg (fgetsLines 511) same
      rw [fgetsLines_flatten, fgetsLines_flatten] at read
      · exact read
      · exact fun p member => (pieces_whole _ p member).1
      · exact fun p member => (pieces_whole _ p member).2
      · exact fun p member => (pieces_whole lines p (List.mem_of_mem_filter member)).1
      · exact fun p member => (pieces_whole lines p (List.mem_of_mem_filter member)).2
    · intro same
      rw [same]
  rw [pieces, filter_flatMap_eq_iff]
  unfold Apart
  apply forall₂_congr
  intro w _
  apply forall₂_congr
  intro piece _
  rw [← List.isPrefixOf_iff_prefix]
  by_cases own : Of eport proto w
  · simp [stays, own]
  · cases begins : (tag eport proto).isPrefixOf piece with
    | true => simp [stays, own, begins]
    | false => simp [stays, own, begins]

/-- The lines of two ports, one of them the beginning of the other. -/
def webLines : List Written :=
  let line : UInt16 → Written := fun eport =>
    { eport, iaddr := "10.0.0.2".toList, iport := eport, proto := IPPROTO_TCP, desc := "web".toList
      timestamp := 0, iaddrPlain := by decide, descPlain := by decide }
  [line 80, line 8080]

theorem longer_port_removed :
    leaseFileRemove 80 IPPROTO_TCP (some (webLines.flatMap Written.line)) ≠
      some ((webLines.filter fun w => ¬ Of 80 IPPROTO_TCP w).flatMap Written.line) := by
  decide +kernel

end LeaseRemoval
