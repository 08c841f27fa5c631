import Keypad.Proofs.Expression.Operand
import Keypad.Proofs.Session.Line

/-!
# Finishing a calculation twice

A finished calculation can be finished again without any change (`exists_finalize_finalize`). For a
blank expression and for one with an error this is seen at once, since they are left as they are.
After a value the expression line holds its plain text, and this is a complete calculation by
itself: it is a single token, because the only sign in it stands in front (`ofText_plain`), it is
read as the value that was written, and without an operator nothing is rounded
(`calculate_plain`). So the second time the value is the same, whatever the configuration. -/

namespace Keypad

/-! ## A plain text is a calculation -/

/-- The plain text of a finite double has the value that is read back from it, under every
configuration. -/
theorem Config.calculate_plain (config : Config) {x : Double} (hx : x.isFinite) :
    config.calculate (.text x.plain) = .ok ⟨x.plain, .ok x.plainValue⟩ := by
  obtain ⟨l, htext, hvalue, hfinite⟩ := Literal.exists_of_parse? (Double.parse?_plain hx)
  have hall : ∀ l' ∈ (⟨l, []⟩ : Chain Literal).operands, l'.value.isFinite := by
    intro l' hl'
    obtain rfl : l' = l := by simpa [Chain.operands] using hl'
    rw [hvalue]
    exact hfinite
  have htokens : Token.ofText x.plain = ((⟨l, []⟩ : Chain Literal).map Literal.text).tokens := by
    rw [Double.ofText_plain hx, ← htext]
    rfl
  -- The chain has one operand, so that there is nothing to compute.
  have hrun := Chain.run_of_tokens config htokens hall
  rw [calculate, hrun, ← hvalue]
  rfl

/-! ## Finishing again -/

namespace Session

/-- A calculation that has been finished is finished again without any change of the display. Both
times it ends in the same way, and a value is followed by a value that is numerically the same. -/
theorem exists_finalize_finalize (config : Config) (s : Session) :
    ∃ t first second, finalize config s = .ok (t, first) ∧ finalize config t = .ok (t, second) ∧
      second.outcome = first.outcome ∧ second.message? = first.message? ∧
      ∀ x ∈ first.value?, ∃ y ∈ second.value?, x.isFinite ∧ y.isFinite ∧ y.toRat = x.toRat := by
  obtain ⟨t, verdict, hcalculate, hfinalize, hcases⟩ := exists_finalize_eq config s
  obtain ⟨x, hx, rfl, rfl⟩ | ⟨rfl, rfl⟩ | ⟨kind, rfl, rfl⟩ := hcases
  · -- The expression line holds the value, which is written again as it stands there.
    obtain ⟨hfinite, hvalue⟩ := Double.isFinite_plainValue hx
    obtain ⟨hplain, hdisplay⟩ := Double.plain_plainValue hx
    have hagain : finalize config ⟨x.plain, x.display, false⟩ =
        .ok (⟨x.plain, x.display, false⟩, ⟨x.plain, .ok x.plainValue⟩) := by
      unfold finalize
      rw [config.calculate_plain hx, ← hplain, ← hdisplay]
    refine ⟨_, _, _, hfinalize, hagain, rfl, rfl, fun y hy => ?_⟩
    cases hy
    exact ⟨x.plainValue, rfl, hx, hfinite, hvalue⟩
  · -- Nothing is left on either line.
    exact ⟨_, _, _, hfinalize, rfl, rfl, rfl, nofun⟩
  · -- The expression is left for correction and fails once more.
    have hagain : finalize config ⟨s.expression, config.messages.text kind, false⟩ =
        .ok (⟨s.expression, config.messages.text kind, false⟩,
          ⟨s.expression, .error kind (some (config.messages.text kind))⟩) := by
      unfold finalize
      rw [hcalculate]
      rfl
    exact ⟨_, _, _, hfinalize, hagain, rfl, rfl, nofun⟩

end Session

end Keypad
