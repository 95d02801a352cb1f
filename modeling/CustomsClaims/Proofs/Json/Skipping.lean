import CustomsClaims.Proofs.Json.Literals

/-!
# Values of any nesting are passed over

`Passes n s s'`: in `n` turns the passing over a value goes from `s` to `s'`, whatever fuel is left.
Each kind of turn is a lemma, and the turns are put together along the grammar: a value is passed
over to what follows it, and the content of a bracket from either of its two entries, behind the
bracket or behind a comma (`Bracket.Encloses`). Every two turns take a byte, so that the fuel of
`skipValue` lasts (`Spelled.skip`).
-/

namespace CustomsClaims.Json

/-- A turn, the open brackets and the bytes ahead. -/
abbrev Stand := Turn × List Bracket × Bytes

/-- In `n` turns the passing over a value goes from `s` to `s'`. -/
def Passes (n : Nat) (s s' : Stand) : Prop :=
  ∀ fuel, skipFrom (fuel + n) s.1 s.2.1 s.2.2 = skipFrom fuel s'.1 s'.2.1 s'.2.2

theorem Passes.trans {n m : Nat} {s s' s'' : Stand} (h : Passes n s s') (h' : Passes m s' s'') :
    Passes (n + m) s s'' := by
  intro fuel
  have hfuel : fuel + (n + m) = fuel + m + n := by omega
  rw [hfuel, h, h']

/-! ## Turns -/

theorem closing_visible (k : Bracket) : isBlank k.closing = false ∧ k.closing ≠ 0x2C := by
  cases k <;> decide

section
variable {w : Bytes} (hw : Blanks w) (ks : List Bracket) (r : Bytes)
include hw

theorem passes_openList : Passes 1 (.value, ks, w ++ 0x5B :: r) (.first, .list :: ks, r) := by
  intro fuel
  simp only [skipFrom, skipBlanks_before hw (b := 0x5B) (by decide)]
  rfl

theorem passes_openObject :
    Passes 1 (.value, ks, w ++ 0x7B :: r) (.first, .object :: ks, r) := by
  intro fuel
  simp only [skipFrom, skipBlanks_before hw (b := 0x7B) (by decide)]
  rfl

theorem passes_scalar {t : Bytes} (h : ScalarText t) (hr : Delimited r) :
    Passes 1 (.value, ks, w ++ (t ++ r)) (.next, ks, r) := by
  intro fuel
  obtain ⟨b, u, rfl, ⟨hblank, hlist, -, hobject⟩, hskip⟩ := h.skip
  simp only [List.cons_append, skipFrom, skipBlanks_before hw hblank, if_neg hlist,
    if_neg hobject, hskip r hr]
  rfl

theorem passes_closeEmpty (k : Bracket) :
    Passes 1 (.first, k :: ks, w ++ k.closing :: r) (.next, ks, r) := by
  intro fuel
  simp only [skipFrom, skipBlanks_before hw (closing_visible k).1, if_true]

theorem passes_close (k : Bracket) :
    Passes 1 (.next, k :: ks, w ++ k.closing :: r) (.next, ks, r) := by
  intro fuel
  obtain ⟨hblank, hcomma⟩ := closing_visible k
  simp only [skipFrom, skipBlanks_before hw hblank, if_neg hcomma, if_true]

/-- Behind a comma, what a bracket asks before a value comes next. -/
theorem passes_comma (k : Bracket) {r' : Bytes} (h : k.skipKey r = .ok r') :
    Passes 1 (.next, k :: ks, w ++ 0x2C :: r) (.value, k :: ks, r') := by
  intro fuel
  simp only [skipFrom, skipBlanks_before hw (b := 0x2C) (by decide), if_true, h]
  rfl

end

/-- Behind its bracket too, unless that is closed there. -/
theorem passes_first (k : Bracket) (ks : List Bracket) {w r r' : Bytes} {b : UInt8}
    (hw : Blanks w) (hb : isBlank b = false) (hclose : b ≠ k.closing)
    (h : k.skipKey (b :: r) = .ok r') :
    Passes 1 (.first, k :: ks, w ++ b :: r) (.value, k :: ks, r') := by
  intro fuel
  simp only [skipFrom, skipBlanks_before hw hb, if_neg hclose, h]
  rfl

/-! ## Keys -/

theorem KeyText.skip {name : String} {key : Bytes} (h : KeyText name key) :
    ∃ w t, Blanks w ∧ key = w ++ 0x22 :: t ∧
      ∀ r, skipKey (0x22 :: (t ++ r)) = .ok r ∧ skipKey (key ++ r) = .ok r := by
  obtain ⟨hw, ⟨h⟩, hw'⟩ := h
  rename_i w w' t
  have hskip (w : Bytes) (hw : Blanks w) (r : Bytes) :
      skipKey (w ++ 0x22 :: (t ++ 0x22 :: (w' ++ 0x3A :: r))) = .ok r := by
    simp only [skipKey, skipBlanks_before hw (b := 0x22) (by decide), if_true, h.skip, bind,
      Except.bind, readColon_blanks hw']
  refine ⟨w, t ++ 0x22 :: (w' ++ [0x3A]), hw, by simp, fun r => ⟨?_, ?_⟩⟩
  · simpa using hskip [] (by simp [Blanks]) r
  · simpa using hskip w hw r

/-! ## The content of brackets -/

/-- The passing over the value `t` stops behind it. -/
def PassedOver (t : Bytes) : Prop :=
  ∀ w ks r, Blanks w → Delimited r →
    ∃ n ≤ 2 * t.length, Passes n (.value, ks, w ++ (t ++ r)) (.next, ks, r)

/-- `p` is what a bracket may have before the value `t`, behind the bracket itself or a comma. -/
def Bracket.Admits (k : Bracket) (p t : Bytes) : Prop :=
  ∀ ks r,
    (∃ w, Blanks w ∧ Passes 1 (.first, k :: ks, p ++ (t ++ r)) (.value, k :: ks, w ++ (t ++ r))) ∧
    ∀ v, Blanks v → ∃ w, Blanks w ∧
      Passes 1 (.next, k :: ks, v ++ 0x2C :: (p ++ (t ++ r))) (.value, k :: ks, w ++ (t ++ r))

/-- `t` is what a bracket may have up to its closing one, behind the bracket itself or a comma. -/
def Bracket.Encloses (k : Bracket) (t : Bytes) : Prop :=
  ∀ ks r,
    (∃ n ≤ 2 * t.length, Passes n (.first, k :: ks, t ++ r) (.next, ks, r)) ∧
    ∀ v, Blanks v →
      ∃ n ≤ 2 * t.length, Passes n (.next, k :: ks, v ++ 0x2C :: (t ++ r)) (.next, ks, r)

theorem blanks_nil : Blanks [] := by
  intro b hb
  cases hb

theorem admits_element {w t : Bytes} (hw : Blanks w) (h : StartsValue t) :
    Bracket.list.Admits w t := by
  intro ks r
  constructor
  · obtain ⟨b, u, rfl, hb, hclose⟩ := h
    exact ⟨[], blanks_nil, passes_first .list ks hw hb hclose rfl⟩
  · intro v hv
    exact ⟨w, hw, passes_comma hv ks _ .list rfl⟩

theorem admits_member {name : String} {key w t : Bytes} (hkey : KeyText name key)
    (hw : Blanks w) : Bracket.object.Admits (key ++ w) t := by
  obtain ⟨v', u, hv', hsplit, hskip⟩ := hkey.skip
  intro ks r
  constructor
  · refine ⟨w, hw, ?_⟩
    have hfirst := passes_first .object ks (b := 0x22) hv' (by decide) (by decide)
      (hskip (w ++ (t ++ r))).1
    rw [hsplit]
    simpa using hfirst
  · intro v hv
    refine ⟨w, hw, ?_⟩
    rw [List.append_assoc]
    exact passes_comma hv ks _ .object (hskip (w ++ (t ++ r))).2

section
variable {k : Bracket} {p t w : Bytes}

theorem delimited_close (hw : Blanks w) (k : Bracket) (r : Bytes) :
    Delimited (w ++ k.closing :: r) := by
  apply Delimited.blanks hw
  apply Delimited.cons
  cases k <;> decide

theorem delimited_comma (hw : Blanks w) (r : Bytes) : Delimited (w ++ 0x2C :: r) :=
  Delimited.blanks hw (.cons (by decide) r)

/-- The last value in a bracket. -/
theorem encloses_last (hp : k.Admits p t) (h : PassedOver t) (hw : Blanks w) :
    k.Encloses (p ++ (t ++ (w ++ [k.closing]))) := by
  intro ks r
  have hrest : p ++ (t ++ (w ++ [k.closing])) ++ r = p ++ (t ++ (w ++ k.closing :: r)) := by simp
  obtain ⟨⟨v, hv, hfirst⟩, hnext⟩ := hp ks (w ++ k.closing :: r)
  have hclose := passes_close hw ks r k
  rw [hrest]
  constructor
  · obtain ⟨n, hn, hvalue⟩ := h v (k :: ks) _ hv (delimited_close hw k r)
    exact ⟨1 + n + 1, by simp; omega, (hfirst.trans hvalue).trans hclose⟩
  · intro v' hv'
    obtain ⟨v, hv, hcomma⟩ := hnext v' hv'
    obtain ⟨n, hn, hvalue⟩ := h v (k :: ks) _ hv (delimited_close hw k r)
    exact ⟨1 + n + 1, by simp; omega, (hcomma.trans hvalue).trans hclose⟩

/-- A value in a bracket, and what follows its comma. -/
theorem encloses_more {u : Bytes} (hp : k.Admits p t) (h : PassedOver t) (hw : Blanks w)
    (hs : k.Encloses u) : k.Encloses (p ++ (t ++ (w ++ 0x2C :: u))) := by
  intro ks r
  have hrest : p ++ (t ++ (w ++ 0x2C :: u)) ++ r = p ++ (t ++ (w ++ 0x2C :: (u ++ r))) := by simp
  obtain ⟨⟨v, hv, hfirst⟩, hnext⟩ := hp ks (w ++ 0x2C :: (u ++ r))
  obtain ⟨m, hm, hmore⟩ := (hs ks r).2 w hw
  rw [hrest]
  constructor
  · obtain ⟨n, hn, hvalue⟩ := h v (k :: ks) _ hv (delimited_comma hw (u ++ r))
    exact ⟨1 + n + m, by simp; omega, (hfirst.trans hvalue).trans hmore⟩
  · intro v' hv'
    obtain ⟨v, hv, hcomma⟩ := hnext v' hv'
    obtain ⟨n, hn, hvalue⟩ := h v (k :: ks) _ hv (delimited_comma hw (u ++ r))
    exact ⟨1 + n + m, by simp; omega, (hcomma.trans hvalue).trans hmore⟩

end

/-! ## Values -/

theorem ScalarText.starts {t : Bytes} (h : ScalarText t) : StartsValue t := by
  obtain ⟨b, u, rfl, ⟨hblank, -, hclose, -⟩, -⟩ := h.skip
  exact ⟨b, u, rfl, hblank, hclose⟩

theorem Spelled.starts {t : Bytes} (h : Spelled .value t) : StartsValue t := by
  cases h with
  | scalar h => exact h.starts
  | emptyList _ => exact ⟨0x5B, _, rfl, by decide, by decide⟩
  | list _ => exact ⟨0x5B, _, rfl, by decide, by decide⟩
  | emptyObject _ => exact ⟨0x7B, _, rfl, by decide, by decide⟩
  | object _ => exact ⟨0x7B, _, rfl, by decide, by decide⟩

/-- What the passing over does with a part of a text. -/
def Part.Passed : Part → Bytes → Prop
  | .value, t => PassedOver t
  | .elements, t => Bracket.list.Encloses t
  | .members _, t => Bracket.object.Encloses t

/-- **Each part of a text is passed over**, in at most two turns for each of its bytes. -/
theorem Spelled.passed {p : Part} {t : Bytes} (h : Spelled p t) : p.Passed t := by
  induction h with
  | scalar h =>
    intro w ks r hw hr
    obtain ⟨b, u, rfl, -⟩ := h.skip
    exact ⟨1, by simp; omega, passes_scalar hw ks r h hr⟩
  | @emptyList w' hw' =>
    intro w ks r hw _
    have hrest : w' ++ [0x5D] ++ r = w' ++ 0x5D :: r := by simp
    rw [List.cons_append, hrest]
    exact ⟨1 + 1, by rw [List.length_cons]; omega,
      (passes_openList hw ks _).trans (passes_closeEmpty hw' ks r .list)⟩
  | list _ ih =>
    intro w ks r hw _
    obtain ⟨n, hn, hfirst⟩ := (ih ks r).1
    exact ⟨1 + n, by simp; omega, (passes_openList hw ks _).trans hfirst⟩
  | @emptyObject w' hw' =>
    intro w ks r hw _
    have hrest : w' ++ [0x7D] ++ r = w' ++ 0x7D :: r := by simp
    rw [List.cons_append, hrest]
    exact ⟨1 + 1, by rw [List.length_cons]; omega,
      (passes_openObject hw ks _).trans (passes_closeEmpty hw' ks r .object)⟩
  | object _ ih =>
    intro w ks r hw _
    obtain ⟨n, hn, hfirst⟩ := (ih ks r).1
    exact ⟨1 + n, by simp; omega, (passes_openObject hw ks _).trans hfirst⟩
  | lastElement hw h hw' ih =>
    exact encloses_last (k := .list) (admits_element hw h.starts) ih hw'
  | element hw h hw' _ ih ihs =>
    exact encloses_more (k := .list) (admits_element hw h.starts) ih hw' ihs
  | lastMember hkey hw _ hw' ih =>
    have hlast := encloses_last (k := .object) (admits_member hkey hw) ih hw'
    rwa [List.append_assoc] at hlast
  | member hkey hw _ hw' _ ih ihs =>
    have hmore := encloses_more (k := .object) (admits_member hkey hw) ih hw' ihs
    rwa [List.append_assoc] at hmore

/-- **Any value is passed over**, whatever its nesting. -/
theorem Spelled.skip {t : Bytes} (h : Spelled .value t) {w r : Bytes} (hw : Blanks w)
    (hr : Delimited r) : skipValue (w ++ (t ++ r)) = .ok r := by
  obtain ⟨n, hn, hpasses⟩ := h.passed w [] r hw hr
  obtain ⟨m, hm⟩ : ∃ m, 2 * (w ++ (t ++ r)).length + 2 = m + 1 + n :=
    ⟨2 * (w ++ (t ++ r)).length + 1 - n, by simp; omega⟩
  rw [skipValue, hm, hpasses]
  rfl

end CustomsClaims.Json
