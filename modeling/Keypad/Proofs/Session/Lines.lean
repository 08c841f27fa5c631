import Keypad.Proofs.Double.Alike
import Keypad.Proofs.Session.Run

/-!
# The two lines after a calculation

When a calculation is finished with a value, the result line shows the value, and the expression
line has the text of it that can be typed on. The two lines are the same unless the result line has an
exponent or the value is a whole number that the other text only stands for, because the shortest
decimal that reads back as it is another number (`exists_finalize_lines`). This does not happen
below `2^54`, but it happens soon after (`finalize_eightAbove`). -/

namespace Keypad.Session

open Numeral (Denotes)

/-- The texts of a finite double on the two lines are the same exactly if there is no exponent and,
where the double is integral, the one on the expression line denotes it exactly, which it does below
`2^54`. Finishing a calculation never fails, and with a value it leaves the two texts of this value.
-/
theorem exists_finalize_lines (config : Config) (s : Session) {x : Double} (hx : x.isFinite) :
    (x.plain = x.display ↔ 'e' ∉ x.display.toList ∧
        (x.isIntegral → ∃ negative, Denotes x.plain.toList negative x.toRat)) ∧
      ('e' ∉ x.display.toList → (x.isIntegral → |x.toRat| < 2 ^ 54) → x.plain = x.display) ∧
      ∃ t result, finalize config s = .ok (t, result) ∧
        (result.value? = some x → t = ⟨x.plain, x.display, false⟩) := by
  refine ⟨Double.plain_eq_display_iff hx, Double.plain_eq_display_of_lt hx, ?_⟩
  obtain ⟨t, verdict, -, hfinalize, hcases⟩ := exists_finalize_eq config s
  refine ⟨t, _, hfinalize, fun hvalue => ?_⟩
  rcases hcases with ⟨y, -, rfl, rfl⟩ | ⟨rfl, -⟩ | ⟨kind, rfl, -⟩
  · obtain rfl : y = x := Option.some.inj hvalue
    rfl
  · cases hvalue
  · cases hvalue

/-- The greatest whole number below `2^53` is the same on both lines. -/
theorem exists_finalize_below :
    (Double.ofInt 9007199254740991).isFinite ∧
      ∃ t result, finalize {} ⟨"9007199254740991", "0", false⟩ = .ok (t, result) ∧
        t.expression = t.result := by
  obtain ⟨hfinite, hvalue⟩ := Double.toRat_ofInt (n := 9007199254740991) (by norm_num)
  have hletter : 'e' ∉ (Double.ofInt 9007199254740991).display.toList := by decide +kernel
  have hsize : |(Double.ofInt 9007199254740991).toRat| < 2 ^ 54 := by
    rw [hvalue]
    norm_num
  have hresult : (finalize {} ⟨"9007199254740991", "0", false⟩).map (·.2.value?) =
      .ok (some (Double.ofInt 9007199254740991)) := by decide +kernel
  obtain ⟨-, hsame, t, result, hfinalize, hlines⟩ :=
    exists_finalize_lines {} ⟨"9007199254740991", "0", false⟩ hfinite
  rw [hfinalize] at hresult
  refine ⟨hfinite, t, result, hfinalize, ?_⟩
  rw [hlines (Except.ok.inj hresult)]
  exact hsame hletter fun _ => hsize

/-- Eight above `2^54` the lines are different: the result line has all digits, and the expression
line a multiple of ten that reads back as the same double. -/
theorem finalize_eightAbove :
    (¬ ∀ x : Double, x.isFinite → 'e' ∉ x.display.toList → x.plain = x.display) ∧
      finalize {} ⟨"18014398509481992", "0", false⟩ =
        .ok (⟨"18014398509481990", "18014398509481992", false⟩,
          ⟨"18014398509481992", .ok (Double.ofInt 18014398509481992)⟩) := by
  constructor
  · intro hall
    have hsame := hall (Double.ofInt 18014398509481992) (by decide +kernel) (by decide +kernel)
    exact absurd hsame (by decide +kernel)
  · decide +kernel

end Keypad.Session
