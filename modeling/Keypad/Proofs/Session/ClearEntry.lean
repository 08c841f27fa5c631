import Keypad.Proofs.Expression.Rejoin
import Keypad.Proofs.Session.Run

/-!
# Removing the last token

The key that removes the last token writes the other tokens one behind the other, and on the next
press this text is cut into tokens again. Since joined tokens are cut into the same tokens, the key
removes one token after the other and never touches the ones in front, whatever the expression was
(`ofText_cleared`), and an expression with `n` tokens is empty after `n` presses, not before
(`iterate_cleared_eq_empty_iff`). For the same reason an expression and its joined tokens have the
same value or error. `joined_tokens_stable` puts this together. -/

namespace Keypad.Session

/-! ## The expression that is left -/

/-- The expression without its last token; one without tokens stays as it is. -/
def cleared (text : String) : String :=
  if Token.ofText text = [] then text else withoutToken text

/-- The tokens that are left are all but the last one. -/
theorem ofText_cleared (text : String) :
    Token.ofText (cleared text) = (Token.ofText text).dropLast := by
  unfold cleared
  split_ifs with hnil
  · rw [hnil]
    rfl
  · rw [withoutToken, List.dropLast_eq_take, Token.ofText_join_take]

/-- What is left, with the last token behind it, is the expression without its blank characters. -/
theorem cleared_append {text token : String} (h : (Token.ofText text).getLast? = some token) :
    (cleared text).toList ++ token.toList = text.toList.filter (!Text.isBlank ·) := by
  obtain ⟨front, hfront⟩ := List.getLast?_eq_some_iff.1 h
  have hne : Token.ofText text ≠ [] := by simp [hfront]
  rw [cleared, if_neg hne, withoutToken, String.toList_join, ← Token.flatMap_ofText, hfront,
    List.dropLast_concat, List.flatMap_append, List.flatMap_singleton]

/-- What is left consists of its tokens, without blank characters. -/
theorem join_ofText_cleared {text : String}
    (h : Token.ofText text ≠ [] ∨ String.join (Token.ofText text) = text) :
    String.join (Token.ofText (cleared text)) = cleared text := by
  rw [ofText_cleared, cleared]
  split_ifs with hnil
  · rw [hnil, List.dropLast_nil, ← hnil]
    exact h.resolve_left fun hne => hne hnil
  · rw [withoutToken]

/-! ## Several presses -/

/-- After `n` presses the last `n` tokens are gone. -/
theorem ofText_iterate_cleared (text : String) (n : ℕ) :
    Token.ofText (cleared^[n] text) =
      (Token.ofText text).take ((Token.ofText text).length - n) := by
  induction n with
  | zero => rw [Function.iterate_zero_apply, Nat.sub_zero, List.take_length]
  | succ n ih =>
    rw [Function.iterate_succ_apply', ofText_cleared, ih, List.dropLast_eq_take, List.take_take,
      List.length_take]
    congr 1
    omega

/-- From the first press on the expression consists of its tokens. -/
theorem join_ofText_iterate_cleared {text : String} (h : Token.ofText text ≠ []) (n : ℕ) :
    String.join (Token.ofText (cleared^[n + 1] text)) = cleared^[n + 1] text := by
  induction n with
  | zero => exact join_ofText_cleared (.inl h)
  | succ n ih =>
    rw [Function.iterate_succ_apply']
    exact join_ofText_cleared (.inr ih)

/-- An expression with tokens is empty after as many presses as it has tokens, and not before. -/
theorem iterate_cleared_eq_empty_iff {text : String} (h : Token.ofText text ≠ []) (n : ℕ) :
    cleared^[n] text = "" ↔ (Token.ofText text).length ≤ n := by
  have htokens := ofText_iterate_cleared text n
  have hlength : 0 < (Token.ofText text).length := List.length_pos_iff.2 h
  constructor
  · intro hempty
    have hnil : Token.ofText "" = [] := rfl
    rw [hempty, hnil, eq_comm, List.take_eq_nil_iff] at htokens
    obtain hzero | hnone := htokens
    · omega
    · exact absurd hnone h
  · intro hle
    -- A line without tokens could still hold blanks, but not after the first press.
    obtain ⟨m, rfl⟩ : ∃ m, n = m + 1 := ⟨n - 1, by omega⟩
    rw [Nat.sub_eq_zero_of_le hle, List.take_zero] at htokens
    rw [← join_ofText_iterate_cleared h m, htokens, String.join_nil]

/-! ## The key -/

/-- The key leaves the expression without its last token. A blank expression leaves the whole
display as it is. -/
theorem exists_press_clearEntry_eq (config : Config) (s : Session) :
    ∃ r, press config s .clearEntry = .ok r ∧ r.session.expression = cleared s.expression ∧
      (Token.ofText s.expression = [] → r.session = s) := by
  rw [press, clearEntry, cleared]
  split_ifs with hnil
  · exact ⟨{ session := s }, rfl, rfl, fun _ => rfl⟩
  · obtain ⟨r, hr, hexpression⟩ := exists_map_previewed_eq config _
    exact ⟨r, hr, hexpression, fun h => absurd h hnil⟩

/-- Pressing the key `n` times leaves the expression without its last `n` tokens. -/
theorem exists_pressAll_clearEntry_eq (config : Config) (s : Session) (n : ℕ) :
    ∃ responses t, pressAll config s (List.replicate n .clearEntry) = .ok responses ∧
      (displays s responses).getLast? = some t ∧ t.expression = cleared^[n] s.expression := by
  induction n generalizing s with
  | zero => exact ⟨[], s, rfl, rfl, rfl⟩
  | succ n ih =>
    obtain ⟨r, hr, hexpression, -⟩ := exists_press_clearEntry_eq config s
    obtain ⟨responses, t, hresponses, hlast, ht⟩ := ih r.session
    refine ⟨r :: responses, t, ?_, hlast, ?_⟩
    · rw [List.replicate_succ, pressAll_cons hr hresponses]
    · rw [ht, hexpression, Function.iterate_succ_apply]

/-- The first tokens of an expression, joined, are cut into the same tokens, and all of them have
the value or error of the expression. From every display, the key that removes the last token
removes just this and keeps the tokens in front. After `n` presses the last `n` tokens are gone, and
an expression that is not blank is empty as soon as there are as many presses as tokens. -/
theorem joined_tokens_stable (config : Config) (text : String) (k : ℕ) (s : Session) (n : ℕ) :
    Token.ofText (String.join ((Token.ofText text).take k)) = (Token.ofText text).take k ∧
    (∃ verdict, config.calculate (.text text) = .ok ⟨text, verdict⟩ ∧
      config.calculate (.text (String.join (Token.ofText text))) =
        .ok ⟨String.join (Token.ofText text), verdict⟩) ∧
    (∃ r, press config s .clearEntry = .ok r ∧
      Token.ofText r.session.expression = (Token.ofText s.expression).dropLast ∧
      (∀ token, (Token.ofText s.expression).getLast? = some token →
        r.session.expression.toList ++ token.toList =
          s.expression.toList.filter (!Text.isBlank ·)) ∧
      ((Input.text s.expression).IsBlank → r.session = s)) ∧
    ∃ responses t, pressAll config s (List.replicate n .clearEntry) = .ok responses ∧
      (displays s responses).getLast? = some t ∧
      Token.ofText t.expression =
        (Token.ofText s.expression).take ((Token.ofText s.expression).length - n) ∧
      (¬ (Input.text s.expression).IsBlank →
        (t.expression = "" ↔ (Token.ofText s.expression).length ≤ n)) := by
  refine ⟨Token.ofText_join_take text k, ?_, ?_, ?_⟩
  · obtain ⟨result, hresult, hends⟩ := config.exists_calculate_ends text
    have hrejoin : Token.ofText (String.join (Token.ofText text)) = Token.ofText text := by
      have htake := Token.ofText_join_take text (Token.ofText text).length
      rwa [List.take_length] at htake
    refine ⟨result.verdict, ?_, ?_⟩
    · rw [hresult, ← hends.expression_eq]
    · rw [Config.calculate_congr hrejoin, hresult]
      rfl
  · obtain ⟨r, hr, hexpression, hblank⟩ := exists_press_clearEntry_eq config s
    refine ⟨r, hr, ?_, fun token htoken => ?_, fun h => hblank (Token.ofText_eq_nil_iff.2 h)⟩
    · rw [hexpression, ofText_cleared]
    · rw [hexpression, cleared_append htoken]
  · obtain ⟨responses, t, hresponses, hlast, ht⟩ := exists_pressAll_clearEntry_eq config s n
    refine ⟨responses, t, hresponses, hlast, ?_, fun h => ?_⟩
    · rw [ht, ofText_iterate_cleared]
    · rw [ht, iterate_cleared_eq_empty_iff (mt Token.ofText_eq_nil_iff.1 h)]

end Keypad.Session
