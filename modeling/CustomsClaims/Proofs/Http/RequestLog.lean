import CustomsClaims.Http.RequestLog

/-!
# What the request log does with requests

The log reads the body of a request that may change something before anybody else does. A body that it
cannot read in full (`Request.CutShort`) ends the request there, whoever is inside
(`withRequestLog_cutShort`); every other request is passed on as it was sent (`withRequestLog_whole`).
-/

namespace CustomsClaims.Http

theorem Body.read_eq_ok {b : Body} {limit : Nat} {bytes : Bytes} :
    b.read limit = .ok bytes ↔
      ¬ (limit < b.bytes.length ∨ b.breaks ≠ none) ∧ bytes = b.bytes := by
  unfold Body.read
  cases b.breaks with
  | none => by_cases h : limit < b.bytes.length <;> simp [h, eq_comm]
  | some cause => by_cases h : limit < b.bytes.length <;> simp [h]

/-! ## Bodies that cannot be read in full -/

/-- The body is read for the log and has too many bytes or breaks off. -/
def Request.CutShort (r : Request) (limit : Nat) : Prop :=
  r.method ∈ ["POST", "PUT", "PATCH"] ∧ (limit < r.body.bytes.length ∨ r.body.breaks ≠ none)

instance (r : Request) (limit : Nat) : Decidable (r.CutShort limit) :=
  inferInstanceAs (Decidable (_ ∧ _))

namespace Request

variable {r : Request} {limit : Nat}

theorem CutShort.read_error (h : r.CutShort limit) : ∃ f, r.body.read limit = .error f := by
  cases hread : r.body.read limit with
  | ok bytes => exact absurd h.2 (Body.read_eq_ok.1 hread).1
  | error f => exact ⟨f, rfl⟩

theorem CutShort.method_ne (h : r.CutShort limit) : r.method ≠ "OPTIONS" := by
  have hall : ∀ m ∈ ["POST", "PUT", "PATCH"], m ≠ "OPTIONS" := by decide
  exact hall r.method h.1

theorem not_cutShort_of_get (h : r.method = "GET") : ¬ r.CutShort limit := by
  rintro ⟨hmethod, -⟩
  rw [h] at hmethod
  revert hmethod
  decide

theorem read_body (h : ¬ r.CutShort limit) (hmethod : r.method ∈ ["POST", "PUT", "PATCH"]) :
    r.body.read limit = .ok r.body.bytes :=
  Body.read_eq_ok.2 ⟨fun hb => h ⟨hmethod, hb⟩, rfl⟩

/-- What was read of a body is all of it. -/
theorem whole_body {bytes : Bytes} (h : r.body.read limit = .ok bytes) :
    { r with body := .whole bytes } = r := by
  obtain ⟨hb, rfl⟩ := Body.read_eq_ok.1 h
  have hbreaks : r.body.breaks = none := Decidable.not_not.1 fun hne => hb (.inr hne)
  rw [Body.whole, ← hbreaks]

end Request

/-! ## The log -/

theorem mayChange_iff {method : String} : mayChange method ↔ method ∈ ["POST", "PUT", "PATCH"] :=
  decide_eq_true_iff

/-- What is logged about a body that has been read. -/
def bodyEvents (r : Request) (maxLogSize : Nat) : List Event :=
  if mayChange r.method then [bodySizeEvent r.body.bytes, bodyEvent r.body.bytes maxLogSize] else []

section
variable {σ : Type} {r : Request} {s : σ} {maxLogSize limit : Nat}

/-- **A body that is cut short** is refused, whoever is inside. -/
theorem withRequestLog_cutShort (h : r.CutShort limit) {f : BodyFault}
    (hread : r.body.read limit = .error f) (inner : Serving σ) :
    withRequestLog maxLogSize limit inner r s =
      .between (openingEvents r maxLogSize)
        ⟨(refusedBody limit).response, [rejectedEvent f limit], s⟩ := by
  simp only [withRequestLog, mayChange_iff.2 h.1, if_true, hread]

/-- **Any other request** comes to whoever is inside as it was sent. -/
theorem withRequestLog_whole (h : ¬ r.CutShort limit) (inner : Serving σ) :
    withRequestLog maxLogSize limit inner r s =
      .between (openingEvents r maxLogSize ++ bodyEvents r maxLogSize) (inner r s) := by
  by_cases hmethod : mayChange r.method
  · have hread := Request.read_body h (mayChange_iff.1 hmethod)
    simp only [withRequestLog, bodyEvents, hmethod, if_true, hread, Request.whole_body hread]
  · simp only [withRequestLog, bodyEvents, hmethod]
    rfl

/-- What the inner layer keeps, the log keeps. -/
theorem withRequestLog_state {inner : Serving σ} (h : (inner r s).state = s) :
    (withRequestLog maxLogSize limit inner r s).state = s := by
  by_cases hcut : r.CutShort limit
  · obtain ⟨f, hread⟩ := hcut.read_error
    rw [withRequestLog_cutShort hcut hread]
    rfl
  · rw [withRequestLog_whole hcut]
    exact h

end
end CustomsClaims.Http
