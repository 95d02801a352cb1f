import CustomsClaims.Proofs.Json.Reading

/-!
# JSON texts

The grammar of JSON, as predicates on bytes that do not mention any reader; strings have theirs
beside their reader (`StringText`). A number has a whole part without leading zeros and possibly a
fraction and an exponent (`NumberText`). Values nest without bound, with white space wherever JSON
allows it (`Spelled`). `ObjectText ms text` gives the members of an object text: their names, and
the texts of their values. All of it is UTF-8 (`Spelled.isText`).
-/

namespace CustomsClaims.Json

/-- Is all of it white space? -/
def Blanks (w : Bytes) : Prop := ∀ b ∈ w, isBlank b

/-! ## Numbers -/

/-- One digit or more. -/
structure DigitsText (ds : Bytes) : Prop where
  ne_nil : ds ≠ []
  digits : ∀ b ∈ ds, isDigit b

/-- The digits before the point: zero, or digits of which the first is not zero. -/
structure WholeText (ds : Bytes) : Prop extends DigitsText ds where
  lead : ds.head? = some 0x30 → ds = [0x30]

/-- A point and digits, or nothing. -/
inductive FractionText : Bytes → Prop
  | none : FractionText []
  | some {ds : Bytes} (h : DigitsText ds) : FractionText (0x2E :: ds)

/-- A mark, a sign at most and digits, or nothing. -/
inductive ExponentText : Bytes → Prop
  | none : ExponentText []
  | some {mark : UInt8} {sign ds : Bytes} (hmark : mark = 0x65 ∨ mark = 0x45)
      (hsign : sign = [] ∨ sign = [0x2B] ∨ sign = [0x2D]) (h : DigitsText ds) :
      ExponentText (mark :: (sign ++ ds))

/-- How a number may be spelled. -/
inductive NumberText : Bytes → Prop
  | mk {whole fraction exponent : Bytes} (negative : Bool) (hw : WholeText whole)
      (hf : FractionText fraction) (hx : ExponentText exponent) :
      NumberText ((if negative then [0x2D] else []) ++ (whole ++ (fraction ++ exponent)))

/-- The number that digits spell, after the digits of `n`. -/
def digitsValue (n : Nat) (ds : Bytes) : Nat :=
  ds.foldl (fun n b => n * 10 + digitValue b) n

/-- How a whole number is spelled without fraction and exponent; zero has no sign. -/
inductive IntegerText : Int → Bytes → Prop
  | natural {ds : Bytes} (h : WholeText ds) : IntegerText (digitsValue 0 ds) ds
  | negative {ds : Bytes} (h : WholeText ds) (h0 : digitsValue 0 ds ≠ 0) :
      IntegerText (-(digitsValue 0 ds : Int)) (0x2D :: ds)

/-! ## Values -/

/-- A value that is no list and no object. -/
inductive ScalarText : Bytes → Prop
  | null : ScalarText (Utf8.encode "null")
  | true : ScalarText (Utf8.encode "true")
  | false : ScalarText (Utf8.encode "false")
  | number {t : Bytes} (h : NumberText t) : ScalarText t
  | text {s : String} {t : Bytes} (h : StringText s t) : ScalarText t

/-- The name of a member and its colon. -/
inductive KeyText : String → Bytes → Prop
  | mk {name : String} {w t w' : Bytes} (hw : Blanks w) (h : StringText name t) (hw' : Blanks w') :
      KeyText name (w ++ (t ++ (w' ++ [0x3A])))

/-- The parts of a JSON text: a value, the elements of a list up to its closing bracket, or the
members of an object up to its closing bracket, with their names and the texts of their values. -/
inductive Part where
  | value
  | elements
  | members (ms : List (String × Bytes))

/-- How the parts of a JSON text may be spelled. -/
inductive Spelled : Part → Bytes → Prop
  | scalar {t : Bytes} (h : ScalarText t) : Spelled .value t
  | emptyList {w : Bytes} (hw : Blanks w) : Spelled .value (0x5B :: (w ++ [0x5D]))
  | list {t : Bytes} (h : Spelled .elements t) : Spelled .value (0x5B :: t)
  | emptyObject {w : Bytes} (hw : Blanks w) : Spelled .value (0x7B :: (w ++ [0x7D]))
  | object {ms : List (String × Bytes)} {t : Bytes} (h : Spelled (.members ms) t) :
      Spelled .value (0x7B :: t)
  | lastElement {w t w' : Bytes} (hw : Blanks w) (h : Spelled .value t) (hw' : Blanks w') :
      Spelled .elements (w ++ (t ++ (w' ++ [0x5D])))
  | element {w t w' u : Bytes} (hw : Blanks w) (h : Spelled .value t) (hw' : Blanks w')
      (hs : Spelled .elements u) : Spelled .elements (w ++ (t ++ (w' ++ 0x2C :: u)))
  | lastMember {name : String} {key w t w' : Bytes} (hkey : KeyText name key) (hw : Blanks w)
      (h : Spelled .value t) (hw' : Blanks w') :
      Spelled (.members [(name, t)]) (key ++ (w ++ (t ++ (w' ++ [0x7D]))))
  | member {name : String} {key w t w' u : Bytes} {ms : List (String × Bytes)}
      (hkey : KeyText name key) (hw : Blanks w) (h : Spelled .value t) (hw' : Blanks w')
      (hs : Spelled (.members ms) u) :
      Spelled (.members ((name, t) :: ms)) (key ++ (w ++ (t ++ (w' ++ 0x2C :: u))))

/-- How an object with the members `ms` may be spelled as a whole text. -/
inductive ObjectText : List (String × Bytes) → Bytes → Prop
  | empty {w w' w'' : Bytes} (hw : Blanks w) (hw' : Blanks w') (hw'' : Blanks w'') :
      ObjectText [] (w ++ 0x7B :: (w' ++ 0x7D :: w''))
  | members {ms : List (String × Bytes)} {w t w' : Bytes} (hw : Blanks w)
      (h : Spelled (.members ms) t) (hw' : Blanks w') : ObjectText ms (w ++ 0x7B :: (t ++ w'))

/-! ## JSON texts are UTF-8 -/

section

open Utf8 (IsText)

theorem Blanks.isText {w : Bytes} (h : Blanks w) : IsText w :=
  Tree.isText_blanks h

theorem DigitsText.isText {ds : Bytes} (h : DigitsText ds) : IsText ds := by
  refine .ascii fun b hb => ?_
  have hdigit := h.digits b hb
  simp only [isDigit, Bool.and_eq_true, decide_eq_true_eq, UInt8.le_iff_toNat_le] at hdigit
  exact UInt8.lt_iff_toNat_lt.2 (Nat.lt_of_le_of_lt hdigit.2 (by decide))

theorem FractionText.isText {t : Bytes} (h : FractionText t) : IsText t := by
  cases h with
  | none => exact .nil
  | some h => exact h.isText.cons (by decide)

theorem ExponentText.isText {t : Bytes} (h : ExponentText t) : IsText t := by
  cases h with
  | none => exact .nil
  | @some _ sign _ hmark hsign h =>
    have hsign : IsText sign := by
      rcases hsign with rfl | rfl | rfl
      · exact .nil
      · exact IsText.nil.cons (by decide)
      · exact IsText.nil.cons (by decide)
    exact (hsign.append h.isText).cons (by rcases hmark with rfl | rfl <;> decide)

theorem NumberText.isText {t : Bytes} (h : NumberText t) : IsText t := by
  obtain ⟨negative, hw, hf, hx⟩ := h
  have hsign : IsText (if negative then [0x2D] else []) := by
    cases negative with
    | false => exact .nil
    | true => exact IsText.nil.cons (by decide)
  exact hsign.append (hw.isText.append (hf.isText.append hx.isText))

theorem ScalarText.isText {t : Bytes} (h : ScalarText t) : IsText t := by
  cases h with
  | null => exact .encode _
  | true => exact .encode _
  | false => exact .encode _
  | number h => exact h.isText
  | text h => exact h.isText

theorem KeyText.isText {name : String} {key : Bytes} (h : KeyText name key) : IsText key := by
  obtain ⟨hw, h, hw'⟩ := h
  exact hw.isText.append (h.isText.append (hw'.isText.append (IsText.nil.cons (by decide))))

/-- **Every JSON text is UTF-8.** -/
theorem Spelled.isText {p : Part} {t : Bytes} (h : Spelled p t) : IsText t := by
  have hbyte (b : UInt8) (hb : b < 0x80) : IsText [b] := IsText.nil.cons hb
  induction h with
  | scalar h => exact h.isText
  | emptyList hw => exact (hw.isText.append (hbyte 0x5D (by decide))).cons (by decide)
  | list _ ih => exact ih.cons (by decide)
  | emptyObject hw => exact (hw.isText.append (hbyte 0x7D (by decide))).cons (by decide)
  | object _ ih => exact ih.cons (by decide)
  | lastElement hw _ hw' ih =>
    exact hw.isText.append (ih.append (hw'.isText.append (hbyte 0x5D (by decide))))
  | element hw _ hw' _ ih ihs =>
    exact hw.isText.append (ih.append (hw'.isText.append (ihs.cons (by decide))))
  | lastMember hkey hw _ hw' ih =>
    exact hkey.isText.append
      (hw.isText.append (ih.append (hw'.isText.append (hbyte 0x7D (by decide)))))
  | member hkey hw _ hw' _ ih ihs =>
    exact hkey.isText.append
      (hw.isText.append (ih.append (hw'.isText.append (ihs.cons (by decide)))))

end

end CustomsClaims.Json
