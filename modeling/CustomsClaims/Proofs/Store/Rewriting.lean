import CustomsClaims.Proofs.Amount.Short
import CustomsClaims.Proofs.Store.Readable
import CustomsClaims.Proofs.Store.Reading
import CustomsClaims.Proofs.Store.Success

/-!
# Rewriting a claim file

A claim file is rewritten when its claims are read and written again. Amounts that are whole cents,
of at most fifteen digits, are read as they were written, but for the sign of a zero
(`Amount.InCents.readBack?`), which the first reading drops (`Amount.plain`). A file of such claims
lists them with the same values however often it is rewritten, and holds the same bytes from the
second writing on, and from the first unless a zero had a sign (`FileStore.rewritten_unchanged`).
-/

namespace CustomsClaims

/-! ## Amounts and claims in cents -/

namespace Amount

variable {a a' : Amount}

@[simp] theorem plain_plain (a : Amount) : a.plain.plain = a.plain := by
  simp [plain]

theorem value_plain (a : Amount) : a.plain.value = a.value :=
  value_eq_iff.2 a.plain_plain

theorem plain_of_value_ne (h : a.value ≠ 0) : a.plain = a := by
  have h0 : a.coefficient ≠ 0 := fun h0 => h (value_eq_zero.2 h0)
  rw [plain, decide_eq_true h0, Bool.and_true]

theorem plain_of_value (h : a.value = 0) : a.plain = zero := by
  have hzero : zero.value = 0 := value_eq_zero.2 rfl
  have hplain : a.plain = zero.plain := value_eq_iff.1 (h.trans hzero.symm)
  exact hplain

/-- A zero is written with its sign. -/
theorem jsonText_of_value (h : a.value = 0) :
    a.jsonText = if a.negative then "-0.0" else "0.0" := by
  rw [jsonText, nearestBinary_zero (value_eq_zero.1 h)]
  cases a.negative <;> decide

/-- No zero is read with a sign. -/
theorem plain_of_readBack? (h : a.readBack? = some a') : a'.plain = a' := by
  rw [readBack?_eq] at h
  obtain ⟨b, -, h⟩ := Option.bind_eq_some_iff.1 h
  obtain ⟨hsign, -, -⟩ := ofDigits?_spec h
  obtain ⟨negative, c, places, _, _, _⟩ := a'
  dsimp only at hsign
  simp only [plain, mk.injEq, and_true]
  rw [hsign, Bool.and_assoc, Bool.and_self]

/-- Is the amount a whole number of cents with at most fifteen digits? -/
def InCents (a : Amount) : Prop :=
  ∃ c : Int, |c| < 10 ^ 15 ∧ a.value = c / 100

theorem inCents_of_zero (h : a.coefficient = 0) : a.InCents :=
  ⟨0, by norm_num, by rw [value_eq_zero.2 h]; norm_num⟩

theorem InCents.plain (h : a.InCents) : a.plain.InCents := by
  obtain ⟨c, hc, hvalue⟩ := h
  exact ⟨c, hc, a.value_plain.trans hvalue⟩

/-- The amounts of the sample claims are whole cents. -/
theorem inCents_cents {n : Nat} (h : n < 10 ^ 15) : (Sample.cents n).InCents := by
  have hroom : n < coefficientLimit ∧ 2 ≤ maxPlaces := ⟨h.trans (by decide), by decide⟩
  obtain ⟨a, ha⟩ : ∃ a, ofParts? false n 2 = some a := ⟨_, dif_pos hroom⟩
  obtain ⟨hsign, hmagnitude⟩ := ofParts?_spec ha
  have hvalue : a.value = a.magnitude := by
    rw [value, hsign]
    rfl
  rw [Sample.cents, ha]
  refine ⟨n, ?_, ?_⟩
  · rw [Nat.abs_cast]
    exact_mod_cast h
  · rw [Option.getD_some, hvalue, hmagnitude]
    norm_num

/-- Cents need at most two places, and no more digits than there are cents. -/
theorem InCents.parts (h : a.InCents) : a.Short ∧ a.places ≤ 2 ∧ a.coefficient < 10 ^ 15 := by
  obtain ⟨c, hc, hvalue⟩ := h
  obtain ⟨n, hn⟩ : ∃ n, c.natAbs = n := ⟨_, rfl⟩
  have hlt : n < 10 ^ 15 := by
    rw [Int.abs_eq_natAbs, hn] at hc
    exact_mod_cast hc
  have hmagnitude : a.magnitude = n / 100 := by
    rw [← abs_value, hvalue, abs_div, abs_of_pos (by norm_num : (0 : ℚ) < 100), ← hn, Nat.cast_natAbs]
    push_cast
    rfl
  have hparts : a.coefficient * 100 = n * 10 ^ a.places := by
    have hpos : (0 : ℚ) < 10 ^ a.places := by positivity
    rw [magnitude, div_eq_div_iff hpos.ne' (by norm_num)] at hmagnitude
    exact_mod_cast hmagnitude
  have hplaces : a.places ≤ 2 := by
    by_contra hmany
    obtain ⟨k, hk⟩ := Nat.exists_eq_add_of_lt (not_le.1 hmany)
    have hlowest := a.lowest.resolve_left (by omega)
    have hpow : 10 ^ a.places = 10 ^ k * 1000 := by
      rw [hk, ← Nat.pow_add 10 k 3]
      congr 1
      omega
    rw [hpow, ← Nat.mul_assoc] at hparts
    omega
  have hcoefficient : a.coefficient * 100 ≤ n * 100 := by
    rw [hparts]
    exact Nat.mul_le_mul_left n (Nat.pow_le_pow_right (by decide) hplaces)
  refine ⟨⟨n, -2, hlt, ?_⟩, hplaces, by omega⟩
  rw [hmagnitude]
  norm_num [div_eq_mul_inv]

/-- **Cents are read as they were written.** -/
theorem InCents.readBack? (h : a.InCents) : a.readBack? = some a.plain := by
  obtain ⟨hshort, hplaces, hlt⟩ := h.parts
  have hscales (h0 : a.coefficient ≠ 0) : a.ScalesExactly := by
    refine ⟨by omega, fun hdvd => ?_⟩
    have hle := Nat.le_of_dvd (Nat.pos_of_ne_zero h0) hdvd
    omega
  have hslips : ¬a.Slips := by
    rintro ⟨-, hslips⟩
    unfold Binary.Slips at hslips
    omega
  obtain ⟨a', ha', hvalue⟩ := hshort.readBack?_of_not_slips hscales hslips
  rw [ha', ← plain_of_readBack? ha', value_eq_iff.1 hvalue]

end Amount

namespace Claim

variable {c : Claim}

/-- Are both amounts whole numbers of cents? -/
def InCents (c : Claim) : Prop :=
  c.dutiesPaid.InCents ∧ c.drawbackClaimed.InCents

theorem InCents.plain (h : c.InCents) : c.plain.InCents :=
  ⟨h.1.plain, h.2.plain⟩

theorem plain_plain (c : Claim) : c.plain.plain = c.plain := by
  simp [plain]

theorem InCents.readBack? (h : c.InCents) : c.readBack? = some c.plain := by
  rw [Claim.readBack?, h.1.readBack?, h.2.readBack?]
  rfl

end Claim

theorem ClaimList.mapM_of_inCents {cs : List Claim} (h : ∀ c ∈ cs, c.InCents) :
    cs.mapM Claim.readBack? = some (cs.map Claim.plain) := by
  induction cs with
  | nil => rfl
  | cons c cs ih =>
    rw [Json.mapM_cons_eq, (h c (List.mem_cons_self ..)).readBack?,
      ih fun x hx => h x (List.mem_cons_of_mem c hx)]
    rfl

/-! ## Reading and writing over and over -/

namespace FileStore

/-- Reads the claims and writes them again. -/
def rewrite (s : FileStore) : Work Unit := do
  s.save (← s.load)

variable {s : FileStore} {d : Disk} {cs ys : List Claim}

/-- What a file with these claims gives, without any change to the disk. -/
theorem Stands.reply_load {attempt : Except IoError Unit} (h : s.Stands (content cs) attempt d)
    (hcs : cs.mapM Claim.readBack? = some ys) : reply s.load d = ⟨.ok ys, [], d⟩ := by
  have hread : s.read? d = .ok ys := read?_eq_ok.2 (lists_of_content h.holds hcs)
  simp only [reply, run_load h.exists?, hread]

/-- **A file is rewritten** with the claims that it gives. -/
theorem Stands.reply_rewrite (h : s.Stands (content cs) (.ok ()) d)
    (hcs : cs.mapM Claim.readBack? = some ys) : (reply s.rewrite d).answer = .ok () ∧
      s.Stands (content ys) (.ok ()) (reply s.rewrite d).state := by
  obtain ⟨d', hsave, hd'⟩ := h.save ys
  obtain ⟨hanswer, hstate⟩ := reply_of_steps (w := s.rewrite) (steps_then (h.lists hcs).load hsave)
  rw [hstate]
  exact ⟨hanswer, hd'⟩

/-- The disk when the file was rewritten `n` times. -/
def rewritten (s : FileStore) (n : Nat) (d : Disk) : Disk :=
  (fun d => (reply s.rewrite d).state)^[n] d

/-- Claims that read back alike are written alike from the second time on. -/
theorem Stands.rewritten (h : s.Stands (content cs) (.ok ()) d)
    (hcs : cs.mapM Claim.readBack? = some ys) (hys : ys.mapM Claim.readBack? = some ys) (n : Nat) :
    (if n = 0 then cs else ys).mapM Claim.readBack? = some ys ∧
      s.Stands (content (if n = 0 then cs else ys)) (.ok ()) (s.rewritten n d) := by
  induction n with
  | zero => exact ⟨hcs, h⟩
  | succ n ih =>
    obtain ⟨hread, hstands⟩ := ih
    rw [FileStore.rewritten, Function.iterate_succ_apply', if_neg n.succ_ne_zero]
    exact ⟨hys, (hstands.reply_rewrite hread).2⟩

/-- **Claims in cents survive their file.** Once written, they are listed with the same values
however often the file is rewritten, and no rewriting fails. All files from the second on are the
same, and the first is too unless an amount is a zero with a sign: such a zero is written as -0.0 and
listed without its sign, and from then on it is written as 0.0. -/
theorem rewritten_unchanged (hcs : ∀ c ∈ cs, c.InCents)
    (hsave : (reply (s.save cs) d).answer = .ok ()) :
    let listed := cs.map Claim.plain
    (∀ n, let d' := s.rewritten n (reply (s.save cs) d).state
      reply s.load d' = ⟨.ok listed, [], d'⟩ ∧ (reply s.rewrite d').answer = .ok () ∧
        d'.readBytes s.path = .ok (content (if n = 0 then cs else listed))) ∧
    listed.map Claim.plain = cs.map Claim.plain ∧ ((∀ c ∈ cs, c.plain = c) → listed = cs) ∧
    ∀ a : Amount, a.plain.value = a.value ∧ (a.value ≠ 0 → a.plain = a) ∧
      (a.value = 0 → a.plain = .zero ∧ a.jsonText = if a.negative then "-0.0" else "0.0") := by
  intro listed
  have hplain : listed.map Claim.plain = listed := by
    rw [List.map_map]
    exact List.map_congr_left fun c _ => c.plain_plain
  have hcents : ∀ c ∈ listed, c.InCents := by
    intro c hc
    obtain ⟨x, hx, rfl⟩ := List.mem_map.1 hc
    exact (hcs x hx).plain
  have hagain : listed.mapM Claim.readBack? = some listed := by
    rw [ClaimList.mapM_of_inCents hcents, hplain]
  refine ⟨fun n => ?_, hplain, fun hsign => ?_, fun a => ?_⟩
  · have hfirst := stands_of_save (steps_of_reply (s.strict_save cs) hsave)
    obtain ⟨hread, hstands⟩ := hfirst.rewritten (ClaimList.mapM_of_inCents hcs) hagain n
    exact ⟨hstands.reply_load hread, (hstands.reply_rewrite hread).1, hstands.holds⟩
  · exact (List.map_congr_left hsign).trans (List.map_id cs)
  · exact ⟨a.value_plain, Amount.plain_of_value_ne,
      fun h => ⟨Amount.plain_of_value h, Amount.jsonText_of_value h⟩⟩

/-- Two claims, one of which asks for a zero with a sign, after three rewritings. -/
theorem rewritten_unchanged_two :
    let s : FileStore := ⟨Path.ofText "claims.json"⟩
    let c : Claim :=
      { Sample.furniture with drawbackClaimed := ⟨true, 0, 0, by decide, by decide, .inl rfl⟩ }
    let c' : Claim := { Sample.furniture with drawbackClaimed := .zero }
    let first := (reply (s.save [Sample.laptops, c]) ⟨[], []⟩).state
    (reply s.load (s.rewritten 3 first)).answer = .ok [Sample.laptops, c'] ∧
      (s.rewritten 3 first).readBytes s.path = .ok (content [Sample.laptops, c']) := by
  intro s c c' first
  have hlaptops : Sample.laptops.InCents :=
    ⟨Amount.inCents_cents (by decide), Amount.inCents_cents (by decide)⟩
  have hc : c.InCents := ⟨Amount.inCents_cents (by decide), Amount.inCents_of_zero rfl⟩
  have hcs : ∀ x ∈ [Sample.laptops, c], x.InCents := by
    rw [List.forall_mem_cons, List.forall_mem_singleton]
    exact ⟨hlaptops, hc⟩
  obtain ⟨hrewritten, -⟩ := rewritten_unchanged (s := s) (d := ⟨[], []⟩) hcs (by decide +kernel)
  have hlisted : [Sample.laptops, c].map Claim.plain = [Sample.laptops, c'] := by decide
  obtain ⟨hload, -, hfile⟩ := hrewritten 3
  rw [hlisted] at hload hfile
  exact ⟨congrArg Reply.answer hload, hfile⟩

/-- A zero with a sign, which the text -0.1e-28 stands for, is written as -0.0, and after a
rewriting as 0.0. -/
theorem rewriting_drops_sign :
    let s : FileStore := ⟨Path.ofText "claims.json"⟩
    let a : Amount := ⟨true, 0, 0, by decide, by decide, .inl rfl⟩
    let c : Claim := { Sample.furniture with drawbackClaimed := a }
    let first := (reply (s.save [c]) ⟨[], []⟩).state
    Amount.ofText? "-0.1e-28" = some a ∧ c.InCents ∧ (reply (s.save [c]) ⟨[], []⟩).answer = .ok () ∧
      (s.rewritten 1 first).readBytes s.path ≠ first.readBytes s.path := by
  intro s a c first
  have hsave : (reply (s.save [c]) ⟨[], []⟩).answer = .ok () := by decide +kernel
  have hcents : c.InCents := ⟨Amount.inCents_cents (by decide), Amount.inCents_of_zero rfl⟩
  have hread : [c].mapM Claim.readBack? = some [c.plain] :=
    ClaimList.mapM_of_inCents (List.forall_mem_singleton.2 hcents)
  have hfirst := stands_of_save (steps_of_reply (s.strict_save [c]) hsave)
  have hfile : (s.rewritten 1 first).readBytes s.path = .ok (content [c.plain]) := by
    rw [FileStore.rewritten, Function.iterate_one]
    exact (hfirst.reply_rewrite hread).2.holds
  refine ⟨by decide +kernel, hcents, hsave, ?_⟩
  rw [hfile, hfirst.holds]
  decide +kernel

end FileStore
end CustomsClaims
