import CustomsClaims.Text.Blank
import CustomsClaims.Text.Upper
import Mathlib.Data.List.Basic
import Mathlib.Data.Nat.Bitwise

/-!
# What upper-casing does to a character

The tables give no form that they change again, and no blank (`Upper.ofChar_form`,
`Upper.isBlank_form`), so upper-casing settles a text the first time (`upperCase_idem`) and a trimmed
text stays trimmed (`Trimmed.upperCase`). That the forms stay clear of the code points that change is
one fact about two finite sets; each is taken as a number with a bit per member (`bits`), since going
through the pairs takes a hundred times as long.
-/

namespace CustomsClaims

/-! ## Sets of numbers as bits -/

/-- The number with the bits `ns`. -/
def bits (ns : List Nat) : Nat :=
  ns.foldr (fun n m => 1 <<< n ||| m) 0

@[simp] theorem testBit_bits {ns : List Nat} {n : Nat} : (bits ns).testBit n ↔ n ∈ ns := by
  induction ns with
  | nil => simp [bits]
  | cons m ns ih =>
    show (1 <<< m ||| bits ns).testBit n ↔ _
    rw [Nat.testBit_or, Bool.or_eq_true, ih, Nat.one_shiftLeft, Nat.testBit_two_pow,
      decide_eq_true_eq, List.mem_cons, eq_comm]

theorem disjoint_of_bits {ms ns : List Nat} (h : bits ms &&& bits ns = 0) {n : Nat} (hm : n ∈ ms) :
    n ∉ ns := by
  intro hn
  have hbit : (bits ms &&& bits ns).testBit n = true := by
    rw [Nat.testBit_and, testBit_bits.2 hm, testBit_bits.2 hn, Bool.and_self]
  rw [h, Nat.zero_testBit] at hbit
  cases hbit

namespace Upper

/-! ## The code points of the tables -/

/-- The code points that the run covers. -/
def Run.members (r : Run) : List Nat :=
  (List.range ((r.last - r.first) / r.stride + 1)).map (r.first + · * r.stride)

theorem Run.mem_members {r : Run} {n : Nat} (h : r.covers n) : n ∈ r.members := by
  obtain ⟨⟨hfirst, hlast⟩, hstride⟩ :
      (r.first ≤ n ∧ n ≤ r.last) ∧ (n - r.first) % r.stride = 0 := by
    simpa [Run.covers] using h
  refine List.mem_map.2 ⟨(n - r.first) / r.stride, ?_, ?_⟩
  · rw [List.mem_range, Nat.lt_succ_iff]
    exact Nat.div_le_div_right (by omega)
  · show r.first + (n - r.first) / r.stride * r.stride = n
    rw [Nat.div_mul_cancel (Nat.dvd_of_mod_eq_zero hstride)]
    omega

/-- The runs, with the small letters of ASCII as a run of their own. -/
def allRuns : List Run :=
  ⟨0x61, 0x7A, 1, -32⟩ :: runs

/-- The code points that upper-casing changes. -/
def changed : List Nat :=
  allRuns.flatMap Run.members ++ expansions.map Prod.fst

/-- The code points that it gives. -/
def forms : List Nat :=
  allRuns.flatMap (fun r => r.members.map fun (n : Nat) => (n + r.offset).toNat) ++
    expansions.flatMap Prod.snd

theorem forms_settled {n : Nat} : n ∈ forms → n ∉ changed :=
  disjoint_of_bits (by decide +kernel)

theorem forms_good :
    ∀ n ∈ forms, (Char.ofNat n).toNat = n ∧ isBlank (Char.ofNat n) = false := by
  decide +kernel

theorem expansions_ne_nil : ∀ e ∈ expansions, e.2 ≠ [] := by decide

/-! ## One character -/

theorem mem_changed_of_covers {r : Run} {n : Nat} (hr : r ∈ allRuns) (h : r.covers n) :
    n ∈ changed :=
  List.mem_append_left _ (List.mem_flatMap.2 ⟨r, hr, Run.mem_members h⟩)

theorem mem_forms_of_covers {r : Run} {n : Nat} (hr : r ∈ allRuns) (h : r.covers n) :
    (n + r.offset).toNat ∈ forms := by
  apply List.mem_append_left
  exact List.mem_flatMap.2 ⟨r, hr, List.mem_map.2 ⟨n, Run.mem_members h, rfl⟩⟩

/-- The small letters of ASCII are a run. -/
theorem covers_small {n : Nat} (h : 0x61 ≤ n ∧ n ≤ 0x7A) :
    (⟨0x61, 0x7A, 1, -32⟩ : Run).covers n := by
  simp [Run.covers, h, Nat.mod_one]

theorem ofChar_of_not_changed {c : Char} (h : c.toNat ∉ changed) : ofChar c = [c] := by
  unfold ofChar
  dsimp only
  split
  case isTrue =>
    split
    case isTrue hsmall =>
      exact absurd (mem_changed_of_covers List.mem_cons_self (covers_small hsmall)) h
    case isFalse => rfl
  case isFalse =>
    split
    case h_1 r hr =>
      have hmem : r ∈ allRuns := List.mem_cons_of_mem _ (List.mem_of_find?_eq_some hr)
      have hcovers := List.find?_some hr
      exact absurd (mem_changed_of_covers hmem hcovers) h
    case h_2 =>
      split
      case h_1 ns hns =>
        obtain ⟨before, after, hsplit, -⟩ := List.lookup_eq_some_iff.1 hns
        refine absurd (List.mem_append_right _ (List.mem_map.2 ⟨(c.toNat, ns), ?_, rfl⟩)) h
        simp [hsplit]
      case h_2 => rfl

/-- A character stays as it is, or has forms of the tables. -/
theorem ofChar_cases (c : Char) :
    ofChar c = [c] ∨ ∃ ns, ns ≠ [] ∧ (∀ n ∈ ns, n ∈ forms) ∧ ofChar c = ns.map Char.ofNat := by
  unfold ofChar
  dsimp only
  split
  case isTrue =>
    split
    case isTrue hsmall =>
      have hform := mem_forms_of_covers List.mem_cons_self (covers_small hsmall)
      have hn : ((c.toNat : Int) + -32).toNat = c.toNat - 0x20 := by omega
      refine .inr ⟨[c.toNat - 0x20], by simp, ?_, rfl⟩
      simpa [hn] using hform
    case isFalse => exact .inl rfl
  case isFalse =>
    split
    case h_1 r hr =>
      have hmem : r ∈ allRuns := List.mem_cons_of_mem _ (List.mem_of_find?_eq_some hr)
      refine .inr ⟨[(c.toNat + r.offset).toNat], by simp, ?_, rfl⟩
      have hcovers := List.find?_some hr
      simpa using mem_forms_of_covers hmem hcovers
    case h_2 =>
      split
      case h_1 ns hns =>
        obtain ⟨before, after, hsplit, -⟩ := List.lookup_eq_some_iff.1 hns
        have hmem : (c.toNat, ns) ∈ expansions := by simp [hsplit]
        refine .inr ⟨ns, expansions_ne_nil _ hmem, ?_, rfl⟩
        intro n hn
        exact List.mem_append_right _ (List.mem_flatMap.2 ⟨_, hmem, hn⟩)
      case h_2 => exact .inl rfl

theorem ofChar_ne_nil (c : Char) : ofChar c ≠ [] := by
  rcases ofChar_cases c with h | ⟨ns, hne, -, h⟩
  · simp [h]
  · simp [h, hne]

/-- **A form is settled**: upper-casing leaves it as it is. -/
theorem ofChar_form {c u : Char} (h : u ∈ ofChar c) : ofChar u = [u] := by
  rcases ofChar_cases c with hc | ⟨ns, -, hns, hc⟩
  · rw [hc, List.mem_singleton] at h
    rw [h, hc]
  · rw [hc] at h
    obtain ⟨n, hn, rfl⟩ := List.mem_map.1 h
    have hform := hns n hn
    apply ofChar_of_not_changed
    rw [(forms_good n hform).1]
    exact forms_settled hform

/-- No form is blank, unless the character was. -/
theorem isBlank_form {c u : Char} (hc : isBlank c = false) (h : u ∈ ofChar c) :
    isBlank u = false := by
  rcases ofChar_cases c with heq | ⟨ns, -, hns, heq⟩
  · rw [heq, List.mem_singleton] at h
    rw [h, hc]
  · rw [heq] at h
    obtain ⟨n, hn, rfl⟩ := List.mem_map.1 h
    exact (forms_good n (hns n hn)).2

end Upper

/-! ## Texts -/

/-- Settled characters stay as they are. -/
theorem upperCase_of_settled {cs : List Char} (h : ∀ c ∈ cs, Upper.ofChar c = [c]) :
    upperCase cs = cs := by
  rw [upperCase, List.flatMap_congr h]
  exact List.flatMap_singleton' cs

theorem settled_of_mem_upperCase {cs : List Char} {u : Char} (h : u ∈ upperCase cs) :
    Upper.ofChar u = [u] := by
  obtain ⟨c, -, hu⟩ := List.mem_flatMap.1 h
  exact Upper.ofChar_form hu

theorem upperCase_idem (cs : List Char) : upperCase (upperCase cs) = upperCase cs := by
  apply upperCase_of_settled
  intro u hu
  exact settled_of_mem_upperCase hu

/-- A text whose first and last characters are not blank. -/
structure Trimmed (cs : List Char) : Prop where
  head : ∀ c ∈ cs.head?, isBlank c = false
  last : ∀ c ∈ cs.getLast?, isBlank c = false

theorem trimStart_head (cs : List Char) : ∀ c ∈ (trimStart cs).head?, isBlank c = false := by
  intro c hc
  have hstop := List.head?_dropWhile_not isBlank cs
  rw [Option.mem_def, trimStart] at hc
  simpa [hc] using hstop

theorem trimEnd_eq (cs : List Char) : trimEnd cs = (trimStart cs.reverse).reverse := rfl

theorem trim_trimmed (cs : List Char) : Trimmed (trim cs) := by
  constructor
  · -- The end goes without the start: what is left starts the text it was cut from.
    intro c hc
    apply trimStart_head cs
    obtain ⟨rest, hrest⟩ : trim cs <+: trimStart cs := by
      rw [trim, trimEnd_eq, ← List.reverse_suffix, List.reverse_reverse]
      exact List.dropWhile_suffix _
    rw [← hrest, Option.mem_def, List.head?_append, hc]
    rfl
  · intro c hc
    rw [trim, trimEnd_eq, List.getLast?_reverse] at hc
    exact trimStart_head _ c hc

theorem Trimmed.trimStart_eq {cs : List Char} (h : ∀ c ∈ cs.head?, isBlank c = false) :
    trimStart cs = cs := by
  cases cs with
  | nil => rfl
  | cons c cs => exact List.dropWhile_cons_of_neg (by simp [h c rfl])

theorem Trimmed.trim_eq {cs : List Char} (h : Trimmed cs) : trim cs = cs := by
  rw [trim, Trimmed.trimStart_eq h.head, trimEnd_eq, Trimmed.trimStart_eq, List.reverse_reverse]
  rw [List.head?_reverse]
  exact h.last

/-- A text without blanks is trimmed. -/
theorem Trimmed.of_forall {cs : List Char} (h : ∀ c ∈ cs, isBlank c = false) : Trimmed cs :=
  ⟨fun c hc => h c (List.mem_of_mem_head? hc), fun c hc => h c (List.mem_of_getLast? hc)⟩

/-- Texts with their blanks at the same places are trimmed together. -/
theorem Trimmed.congr {cs ds : List Char} (h : cs.map isBlank = ds.map isBlank) (hds : Trimmed ds) :
    Trimmed cs := by
  constructor
  · intro c hc
    have hhead := congrArg List.head? h
    rw [List.head?_map, List.head?_map, hc] at hhead
    obtain ⟨d, hd, heq⟩ := Option.map_eq_some_iff.1 hhead.symm
    rw [← heq, hds.head d hd]
  · intro c hc
    have hlast := congrArg List.getLast? h
    rw [List.getLast?_map, List.getLast?_map, hc] at hlast
    obtain ⟨d, hd, heq⟩ := Option.map_eq_some_iff.1 hlast.symm
    rw [← heq, hds.last d hd]

theorem Trimmed.upperCase {cs : List Char} (h : Trimmed cs) : Trimmed (upperCase cs) := by
  constructor
  · intro u hu
    cases cs with
    | nil => cases hu
    | cons c cs =>
      rw [CustomsClaims.upperCase, List.flatMap_cons,
        List.head?_append_of_ne_nil _ (Upper.ofChar_ne_nil c)] at hu
      exact Upper.isBlank_form (h.head c rfl) (List.mem_of_mem_head? hu)
  · intro u hu
    cases hcs : cs.getLast? with
    | none =>
      rw [List.getLast?_eq_none_iff.1 hcs] at hu
      cases hu
    | some c =>
      obtain ⟨front, rfl⟩ := List.getLast?_eq_some_iff.1 hcs
      rw [CustomsClaims.upperCase, List.flatMap_append, List.flatMap_singleton,
        List.getLast?_append_of_ne_nil _ (Upper.ofChar_ne_nil c)] at hu
      exact Upper.isBlank_form (h.last c hcs) (List.mem_of_getLast? hu)

end CustomsClaims
