import Keypad.Token
import Mathlib.Data.List.Chain

/-!
# The shape of tokens

What cutting an expression into tokens guarantees whatever the expression is. No character is lost
(`flatMap_ofText`). A token is not empty, and behind its first character there is no operator symbol
(`isToken_of_mem_ofText`). Of two neighbours one is the symbol of an operator (`isChain_ofText`),
because only a symbol ends a run of other characters.

Each fact is proved for both modes of the cutter at once, by induction on the characters. -/

namespace Keypad

/-- A character stands for an operator exactly when it is the symbol of one. -/
theorem Operator.isSymbol_iff {c : Char} : isSymbol c ↔ ∃ o : Operator, c = o.symbol := by
  rw [isSymbol, Option.isSome_iff_exists]
  simp only [ofChar?_eq_some_iff]

/-- A digit is no operator symbol. -/
theorem Operator.isSymbol_of_isDigit {c : Char} (h : c.isDigit) : isSymbol c = false := by
  by_contra hsymbol
  obtain ⟨o, rfl⟩ := isSymbol_iff.1 (Bool.not_eq_false _ ▸ hsymbol)
  cases o <;> exact absurd h (by decide)

/-- A digit is not blank. -/
theorem Text.isBlank_of_isDigit {c : Char} (h : c.isDigit) : isBlank c = false := by
  obtain ⟨hlow, hhigh⟩ := Char.isDigit_iff_toNat.1 h
  have hzero : '0'.toNat = 48 := rfl
  have hnine : '9'.toNat = 57 := rfl
  simp only [isBlank, isSpace, Bool.or_eq_false_iff, Bool.and_eq_false_iff,
    decide_eq_false_iff_not, beq_eq_false_iff_ne]
  omega

/-- An operator symbol is not blank. -/
theorem Text.isBlank_of_isSymbol {c : Char} (h : Operator.isSymbol c) : isBlank c = false := by
  obtain ⟨o, rfl⟩ := Operator.isSymbol_iff.1 h
  cases o <;> decide

/-- The text of an operator has one character. -/
theorem Operator.toList_text (o : Operator) : o.text.toList = [o.symbol] := by
  cases o <;> rfl

namespace Token

/-- The token is the symbol of an operator. -/
def IsOperator (token : String) : Prop := ∃ o : Operator, token = o.text

/-- A character that is a token is the symbol of an operator. -/
theorem isOperator_ofList {c : Char} (h : Operator.isSymbol c) :
    IsOperator (String.ofList [c]) := by
  obtain ⟨o, rfl⟩ := Operator.isSymbol_iff.1 h
  exact ⟨o, by rw [← Operator.toList_text, String.ofList_toList]⟩

/-! ## No character is lost -/

/-- The tokens hold the characters in order. -/
theorem flatten_tokens (cs : List Char) :
    (atOperand cs).flatten = cs ∧ (inOperand cs).1 ++ (inOperand cs).2.flatten = cs := by
  induction cs with
  | nil => exact ⟨rfl, rfl⟩
  | cons c cs ih =>
    rw [atOperand, inOperand]
    constructor
    · split_ifs with hc
      · rw [List.flatten_cons, ih.1, List.singleton_append]
      · rw [List.flatten_cons, List.cons_append, ih.2]
    · split_ifs with hc
      · rw [List.nil_append, List.flatten_cons, ih.1, List.singleton_append]
      · rw [List.cons_append, ih.2]

/-- The characters of texts that were put together from characters. -/
theorem flatMap_map_ofList (tokens : List (List Char)) :
    (tokens.map String.ofList).flatMap String.toList = tokens.flatten := by
  have h : (String.toList ∘ String.ofList) = id := funext fun cs => String.toList_ofList
  rw [List.flatMap_def, List.map_map, h, List.map_id]

/-- The tokens of an expression are its characters without the blank ones. -/
theorem flatMap_ofText (s : String) :
    (ofText s).flatMap String.toList = s.toList.filter (!Text.isBlank ·) := by
  rw [ofText, flatMap_map_ofList, (flatten_tokens _).1]

/-! ## One token -/

/-- A first character, and behind it no operator symbol. -/
def IsToken (cs : List Char) : Prop := cs ≠ [] ∧ ∀ c ∈ cs.tail, Operator.isSymbol c = false

/-- Every token begins with one character, behind which there is no operator symbol. -/
theorem isToken_tokens (cs : List Char) :
    (∀ t ∈ atOperand cs, IsToken t) ∧
      (∀ c ∈ (inOperand cs).1, Operator.isSymbol c = false) ∧
      ∀ t ∈ (inOperand cs).2, IsToken t := by
  induction cs with
  | nil => simp [atOperand, inOperand]
  | cons c cs ih =>
    obtain ⟨hat, hrun, hin⟩ := ih
    rw [atOperand, inOperand]
    have hsymbol : IsToken [c] := ⟨List.cons_ne_nil _ _, by simp⟩
    refine ⟨?_, ?_⟩
    · split_ifs with hc
      · exact List.forall_mem_cons.2 ⟨hsymbol, hat⟩
      · exact List.forall_mem_cons.2 ⟨⟨List.cons_ne_nil _ _, hrun⟩, hin⟩
    · split_ifs with hc
      · exact ⟨by simp, List.forall_mem_cons.2 ⟨hsymbol, hat⟩⟩
      · exact ⟨List.forall_mem_cons.2 ⟨by simpa using hc, hrun⟩, hin⟩

/-- A token of an expression begins with one character, behind which there is no operator symbol. -/
theorem isToken_of_mem_ofText {s token : String} (h : token ∈ ofText s) : IsToken token.toList := by
  obtain ⟨t, ht, rfl⟩ := List.mem_map.1 h
  rw [String.toList_ofList]
  exact (isToken_tokens _).1 t ht

/-- Characters that stand for no operator belong to the operand that has begun. -/
theorem inOperand_append {run : List Char} (hrun : ∀ c ∈ run, Operator.isSymbol c = false)
    (cs : List Char) :
    inOperand (run ++ cs) = (run ++ (inOperand cs).1, (inOperand cs).2) := by
  induction run with
  | nil => rfl
  | cons c run ih =>
    obtain ⟨hc, hrest⟩ := List.forall_mem_cons.1 hrun
    have hnot : ¬ Operator.isSymbol c := by simp [hc]
    rw [List.cons_append, inOperand, if_neg hnot, ih hrest]
    rfl

/-- A first character that is no operator, or is a sign, and a run behind it are one token, when the
text ends there or goes on with an operator. -/
theorem atOperand_cons_append {c : Char} {run cs : List Char}
    (hc : Operator.isSymbol c = false ∨ c = '-')
    (hrun : ∀ d ∈ run, Operator.isSymbol d = false) (hcs : ∀ d ∈ cs.head?, Operator.isSymbol d) :
    atOperand (c :: (run ++ cs)) = (c :: run) :: (inOperand cs).2 := by
  have hbegins : ¬ (Operator.isSymbol c && c != '-') := by
    obtain h | h := hc
    · simp [h]
    · simp [h]
  have hends : (inOperand cs).1 = [] := by
    cases cs with
    | nil => rfl
    | cons d ds => rw [inOperand, if_pos (hcs d rfl)]
  rw [atOperand, if_neg hbegins, inOperand_append hrun, hends, List.append_nil]

/-! ## Two tokens -/

/-- Of two tokens at least one is the symbol of an operator. -/
def Separated (a b : String) : Prop := IsOperator a ∨ IsOperator b

/-- Of two neighbours one is the symbol of an operator. Behind a run the next token, if there is
one, is such a symbol. -/
theorem isChain_tokens (cs : List Char) :
    ((atOperand cs).map String.ofList).IsChain Separated ∧
      (∀ token ∈ ((inOperand cs).2.map String.ofList).head?, IsOperator token) ∧
      ((inOperand cs).2.map String.ofList).IsChain Separated := by
  induction cs with
  | nil => simp [atOperand, inOperand]
  | cons c cs ih =>
    obtain ⟨hat, hhead, hin⟩ := ih
    rw [atOperand, inOperand]
    -- Anything may stand behind a symbol.
    have hbehind : ∀ hc : Operator.isSymbol c,
        (([c] :: atOperand cs).map String.ofList).IsChain Separated := fun hc =>
      List.isChain_cons.2 ⟨fun _ _ => .inl (isOperator_ofList hc), hat⟩
    refine ⟨?_, ?_⟩
    · split_ifs with hc
      · exact hbehind (by simp_all)
      · exact List.isChain_cons.2 ⟨fun token htoken => .inr (hhead token htoken), hin⟩
    · split_ifs with hc
      · exact ⟨by simpa using isOperator_ofList hc, hbehind hc⟩
      · exact ⟨hhead, hin⟩

/-- Of two neighbouring tokens of an expression one is the symbol of an operator. -/
theorem isChain_ofText (s : String) : (ofText s).IsChain Separated := (isChain_tokens _).1

end Token

end Keypad
