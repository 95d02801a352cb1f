import CustomsClaims.Json.Reader
import CustomsClaims.Proofs.Json.Text

/-!
# Layouts of a JSON text

The two forms in which a tree is written differ only in white space: what stands before each element
and member and before a closing bracket (`Layout.line`), and what stands after a colon
(`Layout.gap`). `Tree.laidOut` writes a tree in any layout; `Tree.compact` and `Tree.indented` are two
cases of it (`Tree.compact_eq`, `Tree.indented_eq`), so that what is proved about reading a laid out
text holds of both.
-/

namespace CustomsClaims.Json

/-- Where the white space of a JSON text stands. -/
structure Layout where
  /-- Before an element, a member or a closing bracket, inside that many brackets. -/
  line : Nat → Bytes
  /-- After a colon. -/
  gap : Bytes
  line_blank : ∀ depth, ∀ b ∈ line depth, isBlank b
  gap_blank : ∀ b ∈ gap, isBlank b

namespace Layout

/-- No white space. -/
def compact : Layout := ⟨fun _ => [], [], by simp, by simp⟩

/-- A line for each element and member. -/
def indented : Layout where
  line := Tree.newLine
  gap := [0x20]
  line_blank depth b hb := by
    rcases List.mem_cons.1 hb with rfl | hb
    · decide
    · rw [List.eq_of_mem_replicate hb]
      decide
  gap_blank := List.forall_mem_singleton.2 (by decide)

end Layout

namespace Tree

mutual

/-- The JSON text in a layout, inside `depth` brackets. -/
def laidOut (l : Layout) (depth : Nat) : Tree → Bytes
  | .number t => Utf8.encode t
  | .text s => writeText s
  | .list [] => [0x5B, 0x5D]
  | .list (t :: ts) =>
    0x5B :: l.line (depth + 1) ++ t.laidOut l (depth + 1) ++ laidOutElements l depth ts
  | .object [] => [0x7B, 0x7D]
  | .object ((k, t) :: ms) =>
    0x7B :: l.line (depth + 1) ++ writeText k ++ 0x3A :: l.gap ++ t.laidOut l (depth + 1) ++
      laidOutMembers l depth ms

/-- The further elements of a list inside `depth` brackets, and its bracket. -/
def laidOutElements (l : Layout) (depth : Nat) : List Tree → Bytes
  | [] => l.line depth ++ [0x5D]
  | t :: ts => 0x2C :: l.line (depth + 1) ++ t.laidOut l (depth + 1) ++ laidOutElements l depth ts

/-- The further members of an object inside `depth` brackets, and its bracket. -/
def laidOutMembers (l : Layout) (depth : Nat) : List (String × Tree) → Bytes
  | [] => l.line depth ++ [0x7D]
  | (k, t) :: ms =>
    0x2C :: l.line (depth + 1) ++ writeText k ++ 0x3A :: l.gap ++ t.laidOut l (depth + 1) ++
      laidOutMembers l depth ms

end

/-! ## The two layouts in use -/

mutual

theorem compact_eq (depth : Nat) : (t : Tree) → t.compact = t.laidOut .compact depth
  | .number t => by rw [compact, laidOut]
  | .text s => by rw [compact, laidOut]
  | .list [] => by rw [compact, laidOut]
  | .list (t :: ts) => by
    rw [compact, laidOut, compact_eq (depth + 1) t, compactElements_eq depth ts]
    simp [Layout.compact]
  | .object [] => by rw [compact, laidOut]
  | .object ((k, t) :: ms) => by
    rw [compact, laidOut, compact_eq (depth + 1) t, compactMembers_eq depth ms]
    simp [Layout.compact]

theorem compactElements_eq (depth : Nat) :
    (ts : List Tree) → compactElements ts = laidOutElements .compact depth ts
  | [] => rfl
  | t :: ts => by
    rw [compactElements, laidOutElements, compact_eq (depth + 1) t, compactElements_eq depth ts]
    simp [Layout.compact]

theorem compactMembers_eq (depth : Nat) :
    (ms : List (String × Tree)) → compactMembers ms = laidOutMembers .compact depth ms
  | [] => rfl
  | (k, t) :: ms => by
    rw [compactMembers, laidOutMembers, compact_eq (depth + 1) t, compactMembers_eq depth ms]
    simp [Layout.compact]

end

mutual

theorem indented_eq (depth : Nat) : (t : Tree) → t.indented depth = t.laidOut .indented depth
  | .number t => by rw [indented, laidOut]
  | .text s => by rw [indented, laidOut]
  | .list [] => by rw [indented, laidOut]
  | .list (t :: ts) => by
    rw [indented, laidOut, indented_eq (depth + 1) t, indentedElements_eq depth ts]
    rfl
  | .object [] => by rw [indented, laidOut]
  | .object ((k, t) :: ms) => by
    rw [indented, laidOut, indented_eq (depth + 1) t, indentedMembers_eq depth ms]
    simp [Layout.indented]

theorem indentedElements_eq (depth : Nat) :
    (ts : List Tree) → indentedElements depth ts = laidOutElements .indented depth ts
  | [] => rfl
  | t :: ts => by
    rw [indentedElements, laidOutElements, indented_eq (depth + 1) t, indentedElements_eq depth ts]
    rfl

theorem indentedMembers_eq (depth : Nat) :
    (ms : List (String × Tree)) → indentedMembers depth ms = laidOutMembers .indented depth ms
  | [] => rfl
  | (k, t) :: ms => by
    rw [indentedMembers, laidOutMembers, indented_eq (depth + 1) t, indentedMembers_eq depth ms]
    simp [Layout.indented]

end

/-! ## A laid out text is UTF-8 -/

theorem isText_writeText (s : String) : Utf8.IsText (writeText s) :=
  (stringText_writeText s).isText

theorem isText_blanks {w : Bytes} (h : ∀ b ∈ w, isBlank b) : Utf8.IsText w := by
  refine .ascii fun b hb => ?_
  have hblank := h b hb
  simp only [isBlank, Bool.or_eq_true, decide_eq_true_eq] at hblank
  rcases hblank with ((rfl | rfl) | rfl) | rfl <;> decide

mutual

theorem isText_laidOut (l : Layout) (depth : Nat) : (t : Tree) → Utf8.IsText (t.laidOut l depth)
  | .number t => by rw [laidOut]; exact .encode t
  | .text s => by rw [laidOut]; exact isText_writeText s
  | .list [] => by rw [laidOut]; exact .cons (by decide) (.cons (by decide) .nil)
  | .list (t :: ts) => by
    rw [laidOut]
    exact ((Utf8.IsText.cons (by decide) (isText_blanks (l.line_blank _))).append
      (isText_laidOut l _ t)).append (isText_laidOutElements l depth ts)
  | .object [] => by rw [laidOut]; exact .cons (by decide) (.cons (by decide) .nil)
  | .object ((k, t) :: ms) => by
    rw [laidOut]
    exact ((((Utf8.IsText.cons (by decide) (isText_blanks (l.line_blank _))).append
      (isText_writeText k)).append (.cons (by decide) (isText_blanks l.gap_blank))).append
      (isText_laidOut l _ t)).append (isText_laidOutMembers l depth ms)

theorem isText_laidOutElements (l : Layout) (depth : Nat) :
    (ts : List Tree) → Utf8.IsText (laidOutElements l depth ts)
  | [] => by
    rw [laidOutElements]
    exact (isText_blanks (l.line_blank _)).append (.cons (by decide) .nil)
  | t :: ts => by
    rw [laidOutElements]
    exact ((Utf8.IsText.cons (by decide) (isText_blanks (l.line_blank _))).append
      (isText_laidOut l _ t)).append (isText_laidOutElements l depth ts)

theorem isText_laidOutMembers (l : Layout) (depth : Nat) :
    (ms : List (String × Tree)) → Utf8.IsText (laidOutMembers l depth ms)
  | [] => by
    rw [laidOutMembers]
    exact (isText_blanks (l.line_blank _)).append (.cons (by decide) .nil)
  | (k, t) :: ms => by
    rw [laidOutMembers]
    exact ((((Utf8.IsText.cons (by decide) (isText_blanks (l.line_blank _))).append
      (isText_writeText k)).append (.cons (by decide) (isText_blanks l.gap_blank))).append
      (isText_laidOut l _ t)).append (isText_laidOutMembers l depth ms)

end

end Tree
end CustomsClaims.Json
