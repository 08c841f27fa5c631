import Keypad.Proofs.Expression.Token

/-!
# Tokens joined and cut again

Cutting a text into tokens can be undone and done again: the first tokens of an expression, written
one behind the other, are cut into the same tokens (`ofText_join_take`). An operator symbol is a
sign or an operator because of what stands in front of it, never because of what follows, so that
nothing changes when the text ends earlier; and joined tokens hold no blank characters that cutting
could remove. -/

namespace Keypad.Token

/-- The characters of the first tokens are cut into these tokens, and so are those of a run that has
begun with the first tokens behind it. -/
theorem tokens_flatten_take (cs : List Char) (k : ℕ) :
    atOperand ((atOperand cs).take k).flatten = (atOperand cs).take k ∧
      inOperand ((inOperand cs).1 ++ ((inOperand cs).2.take k).flatten) =
        ((inOperand cs).1, (inOperand cs).2.take k) := by
  induction cs generalizing k with
  | nil => simp [atOperand, inOperand]
  | cons c cs ih =>
    -- Inside a run a symbol ends the run and is a token of its own.
    have hcut : ∀ (_ : Operator.isSymbol c) (k : ℕ),
        inOperand (([c] :: atOperand cs).take k).flatten = ([], ([c] :: atOperand cs).take k) := by
      intro hc k
      cases k with
      | zero => rfl
      | succ k =>
        rw [List.take_succ_cons, List.flatten_cons, List.singleton_append, inOperand, if_pos hc,
          (ih k).1]
    constructor
    · cases k with
      | zero => rfl
      | succ k =>
        rw [atOperand]
        split_ifs with hc
        · rw [List.take_succ_cons, List.flatten_cons, List.singleton_append, atOperand, if_pos hc,
            (ih k).1]
        · -- The first token is a run, or a sign with the run behind it.
          rw [List.take_succ_cons, List.flatten_cons, List.cons_append, atOperand, if_neg hc,
            (ih k).2]
    · rw [inOperand]
      split_ifs with hc
      · exact hcut hc k
      · rw [List.cons_append, inOperand, if_neg hc, (ih k).2]

/-- The first tokens of an expression, joined, are cut into the same tokens. -/
theorem ofText_join_take (s : String) (k : ℕ) :
    ofText (String.join ((ofText s).take k)) = (ofText s).take k := by
  have hchars : (String.join ((ofText s).take k)).toList =
      ((atOperand (s.toList.filter (!Text.isBlank ·))).take k).flatten := by
    rw [String.toList_join, ofText, ← List.map_take, flatMap_map_ofList]
  -- The joined characters come from those that are not blank, so none of them is removed.
  have hfilter : ((atOperand (s.toList.filter (!Text.isBlank ·))).take k).flatten.filter
      (!Text.isBlank ·) = ((atOperand (s.toList.filter (!Text.isBlank ·))).take k).flatten := by
    rw [List.filter_eq_self]
    intro c hc
    obtain ⟨token, htoken, hmem⟩ := List.mem_flatten.1 hc
    have hflat := List.mem_flatten_of_mem (List.mem_of_mem_take htoken) hmem
    rw [(flatten_tokens _).1] at hflat
    exact (List.mem_filter.1 hflat).2
  rw [ofText, hchars, hfilter, (tokens_flatten_take _ k).1, List.map_take, ← ofText]

end Keypad.Token
