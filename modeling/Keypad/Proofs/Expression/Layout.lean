import Keypad.Proofs.Expression.Token

/-!
# Tokens from runs of characters

A description of tokens that does not go from character to character. An expression consists of runs
of operator symbols and of other characters in turn, which are its `Layout`. Every symbol is a token
and so is every operand, except that the last `-` in front of an operand may be its sign. Whether it
is one depends on the run of symbols alone (`endsInSign`): from left to right each `-` is paired
with the symbol behind it, whatever this is, and a `-` that is left over at the end is the sign.
Behind an operand the first symbol of the run is the operator that follows it and takes no part.

The layout of an expression is found from right to left (`Layout.ofChars`), and there is no other
one (`Layout.ofChars_chars`). Cutting an expression gives the tokens of its layout
(`Layout.atOperand_chars`), because the two modes of the cutter are what the pairing leaves behind:
a `-` where an operand may begin opens a token, and if a symbol follows, this closes it. -/

namespace Keypad

open Token

/-- The runs of an expression. -/
structure Layout where
  /-- The operands in order, each behind the run of symbols in front of it. -/
  operands : List (List Char × List Char)
  /-- The symbols behind the last operand. -/
  rest : List Char

namespace Layout

/-- The runs are as long as possible: symbols and other characters are apart, no operand is empty,
and there is a symbol between any two of them. -/
structure IsProper (l : Layout) : Prop where
  /-- In front of an operand there are symbols. -/
  symbols : ∀ run ∈ l.operands, ∀ c ∈ run.1, Operator.isSymbol c
  /-- An operand has characters, and none of them is a symbol. -/
  operand : ∀ run ∈ l.operands, run.2 ≠ [] ∧ ∀ c ∈ run.2, Operator.isSymbol c = false
  /-- Behind another operand there is a symbol. -/
  between : ∀ run ∈ l.operands.tail, run.1 ≠ []
  /-- Behind the last operand there are symbols. -/
  rest : ∀ c ∈ l.rest, Operator.isSymbol c

/-- The characters of a layout. -/
def chars (l : Layout) : List Char := (l.operands.flatMap fun run => run.1 ++ run.2) ++ l.rest

/-! ## The tokens of a layout -/

/-- When from left to right each `-` of a run is paired with the symbol behind it, one is left over
at the end. -/
def endsInSign : List Char → Bool
  | [] => false
  | [c] => c == '-'
  | c :: d :: run => if c = '-' then endsInSign run else endsInSign (d :: run)

/-- The tokens of an operand and of the symbols in front of it. The last one may be its sign. -/
def operandTokens (signed : Bool) (run operand : List Char) : List (List Char) :=
  if signed then run.dropLast.map ([·]) ++ ['-' :: operand] else run.map ([·]) ++ [operand]

/-- The tokens of a layout. Behind an operand the first symbol is its operator. -/
def tokens (l : Layout) : List (List Char) :=
  match l.operands with
  | [] => l.rest.map ([·])
  | first :: others =>
    operandTokens (endsInSign first.1) first.1 first.2 ++
      (others.flatMap fun run => operandTokens (endsInSign run.1.tail) run.1 run.2) ++
      l.rest.map ([·])

/-! ## The layout of an expression -/

/-- The layout with one more character in front. -/
def push (c : Char) (l : Layout) : Layout :=
  if Operator.isSymbol c then
    match l.operands with
    | [] => ⟨[], c :: l.rest⟩
    | (run, operand) :: others => ⟨(c :: run, operand) :: others, l.rest⟩
  else
    match l.operands with
    | ([], operand) :: others => ⟨([], c :: operand) :: others, l.rest⟩
    | others => ⟨([], [c]) :: others, l.rest⟩

/-- The layout of an expression. -/
def ofChars (cs : List Char) : Layout := cs.foldr push ⟨[], []⟩

/-- A character in front of a layout is the first of its characters. -/
theorem chars_push (c : Char) (l : Layout) : (push c l).chars = c :: l.chars := by
  obtain ⟨operands, rest⟩ := l
  unfold push
  split_ifs with hc
  · match operands with
    | [] => rfl
    | (run, operand) :: others => rfl
  · match operands with
    | [] => rfl
    | ([], operand) :: others => rfl
    | (d :: run, operand) :: others => rfl

/-- A character in front of a proper layout joins the first run or begins a new one. -/
theorem isProper_push (c : Char) {l : Layout} (h : l.IsProper) : (push c l).IsProper := by
  obtain ⟨operands, rest⟩ := l
  obtain ⟨hsymbols, hoperand, hbetween, hrest⟩ := h
  unfold push
  -- Anything but a symbol joins the first operand, unless a run of symbols stands in between.
  split_ifs with hc
  · match operands with
    | [] => exact ⟨nofun, nofun, nofun, List.forall_mem_cons.2 ⟨hc, hrest⟩⟩
    | (run, operand) :: others =>
      obtain ⟨hrun, hothers⟩ := List.forall_mem_cons.1 hsymbols
      exact ⟨List.forall_mem_cons.2 ⟨List.forall_mem_cons.2 ⟨hc, hrun⟩, hothers⟩,
        by simpa using hoperand, hbetween, hrest⟩
  · rw [Bool.not_eq_true] at hc
    match operands with
    | [] =>
      exact ⟨by simp, by simp [hc], nofun, hrest⟩
    | ([], operand) :: others =>
      show IsProper ⟨([], c :: operand) :: others, rest⟩
      obtain ⟨hfirst, hothers⟩ := List.forall_mem_cons.1 hoperand
      exact ⟨List.forall_mem_cons.2 ⟨nofun, (List.forall_mem_cons.1 hsymbols).2⟩,
        List.forall_mem_cons.2
          ⟨⟨List.cons_ne_nil _ _, List.forall_mem_cons.2 ⟨hc, hfirst.2⟩⟩, hothers⟩,
        hbetween, hrest⟩
    | (d :: run, operand) :: others =>
      exact ⟨List.forall_mem_cons.2 ⟨nofun, hsymbols⟩,
        List.forall_mem_cons.2 ⟨⟨List.cons_ne_nil _ _, by simpa using hc⟩, hoperand⟩,
        List.forall_mem_cons.2 ⟨List.cons_ne_nil _ _, hbetween⟩, hrest⟩

/-- The layout of an expression has its characters and is proper. -/
theorem ofChars_spec (cs : List Char) : (ofChars cs).chars = cs ∧ (ofChars cs).IsProper := by
  induction cs with
  | nil => exact ⟨rfl, nofun, nofun, nofun, nofun⟩
  | cons c cs ih =>
    rw [ofChars, List.foldr_cons, ← ofChars]
    exact ⟨by rw [chars_push, ih.1], isProper_push c ih.2⟩

/-! ## There is no other layout -/

/-- Without the first operand and the symbols in front of it, a layout stays proper. -/
theorem IsProper.tail {run : List Char × List Char} {others : List (List Char × List Char)}
    {rest : List Char} (h : IsProper ⟨run :: others, rest⟩) : IsProper ⟨others, rest⟩ :=
  ⟨(List.forall_mem_cons.1 h.symbols).2, (List.forall_mem_cons.1 h.operand).2,
    fun _ hmem => h.between _ (List.mem_of_mem_tail hmem), h.rest⟩

/-- Symbols in front of symbols at the end. -/
theorem foldr_push_rest {run : List Char} (hrun : ∀ c ∈ run, Operator.isSymbol c)
    (rest : List Char) : run.foldr push ⟨[], rest⟩ = ⟨[], run ++ rest⟩ := by
  induction run with
  | nil => rfl
  | cons c run ih =>
    obtain ⟨hc, hrest⟩ := List.forall_mem_cons.1 hrun
    rw [List.foldr_cons, ih hrest, push, if_pos hc]
    rfl

/-- Symbols in front of an operand. -/
theorem foldr_push_symbols {run : List Char} (hrun : ∀ c ∈ run, Operator.isSymbol c)
    (first operand : List Char) (others : List (List Char × List Char)) (rest : List Char) :
    run.foldr push ⟨(first, operand) :: others, rest⟩ =
      ⟨(run ++ first, operand) :: others, rest⟩ := by
  induction run with
  | nil => rfl
  | cons c run ih =>
    obtain ⟨hc, hrest⟩ := List.forall_mem_cons.1 hrun
    rw [List.foldr_cons, ih hrest, push, if_pos hc]
    rfl

/-- An operand in front of symbols. -/
theorem foldr_push_operand {operand : List Char} (hne : operand ≠ [])
    (hfree : ∀ c ∈ operand, Operator.isSymbol c = false) {others : List (List Char × List Char)}
    (hothers : ∀ run ∈ others, run.1 ≠ []) (rest : List Char) :
    operand.foldr push ⟨others, rest⟩ = ⟨([], operand) :: others, rest⟩ := by
  induction operand with
  | nil => exact absurd rfl hne
  | cons c operand ih =>
    obtain ⟨hc, hrest⟩ := List.forall_mem_cons.1 hfree
    have hnot : ¬ Operator.isSymbol c := by simp [hc]
    cases operand with
    | nil =>
      rw [List.foldr_cons, List.foldr_nil, push, if_neg hnot]
      match others, hothers with
      | [], _ => rfl
      | ([], _) :: _, hothers => exact absurd rfl (hothers _ List.mem_cons_self)
      | (_ :: _, _) :: _, _ => rfl
    | cons d operand =>
      rw [List.foldr_cons, ih (List.cons_ne_nil _ _) hrest, push, if_neg hnot]

/-- The characters in front of the second operand, and those from there on. -/
theorem chars_cons (run operand : List Char) (others : List (List Char × List Char))
    (rest : List Char) :
    chars ⟨(run, operand) :: others, rest⟩ = run ++ (operand ++ chars ⟨others, rest⟩) := by
  simp only [chars, List.flatMap_cons, List.append_assoc]

/-- A proper layout is the only one of its characters. -/
theorem ofChars_chars {l : Layout} (h : l.IsProper) : ofChars l.chars = l := by
  obtain ⟨operands, rest⟩ := l
  induction operands with
  | nil => exact (foldr_push_rest h.rest []).trans (by rw [List.append_nil])
  | cons first others ih =>
    obtain ⟨run, operand⟩ := first
    have hrun : ∀ c ∈ run, Operator.isSymbol c := h.symbols _ List.mem_cons_self
    have hothers : ∀ run ∈ others, run.1 ≠ [] := h.between
    obtain ⟨hne, hfree⟩ : operand ≠ [] ∧ _ := h.operand _ List.mem_cons_self
    rw [ofChars, chars_cons, List.foldr_append, List.foldr_append, ← ofChars, ih h.tail,
      foldr_push_operand hne hfree hothers, foldr_push_symbols hrun, List.append_nil]

/-! ## The tokens are those of the layout -/

/-- A symbol in front of a run that decides about the sign is a token. -/
theorem operandTokens_cons {signed : Bool} {run : List Char} (h : signed = true → run ≠ [])
    (c : Char) (operand : List Char) :
    operandTokens signed (c :: run) operand = [c] :: operandTokens signed run operand := by
  cases signed with
  | false => rfl
  | true =>
    obtain ⟨d, run, rfl⟩ := List.exists_cons_of_ne_nil (h rfl)
    rfl

/-- Only a run of symbols ends in a sign. -/
theorem ne_nil_of_endsInSign {run : List Char} (h : endsInSign run = true) : run ≠ [] := by
  rintro rfl
  exact absurd h (by decide)

/-- Symbols alone are tokens one by one in both modes. -/
theorem tokens_symbols {run : List Char} (hrun : ∀ c ∈ run, Operator.isSymbol c) :
    atOperand run = run.map ([·]) ∧ inOperand run = ([], run.map ([·])) := by
  induction run with
  | nil => exact ⟨rfl, rfl⟩
  | cons c run ih =>
    obtain ⟨hc, hrest⟩ := List.forall_mem_cons.1 hrun
    obtain ⟨hat, hin⟩ := ih hrest
    rw [atOperand, inOperand, hat, hin, if_pos hc]
    exact ⟨ite_self _, rfl⟩

/-- An operand that begins is collected to its end. -/
theorem atOperand_operand {operand : List Char} (hne : operand ≠ [])
    (hfree : ∀ c ∈ operand, Operator.isSymbol c = false) {cs : List Char}
    (hcs : (inOperand cs).1 = []) : atOperand (operand ++ cs) = operand :: (inOperand cs).2 := by
  obtain ⟨c, operand, rfl⟩ := List.exists_cons_of_ne_nil hne
  obtain ⟨hc, hrest⟩ := List.forall_mem_cons.1 hfree
  have hnot : ¬ (Operator.isSymbol c && c != '-') := by simp [hc]
  rw [List.cons_append, atOperand, if_neg hnot, inOperand_append hrest, hcs, List.append_nil]

/-- The tokens of a run of symbols where an operand may begin, and of the operand behind it. The
induction goes along the pairing: a `-` and the symbol behind it leave the cutter where an operand
may begin, as any other symbol does. -/
theorem atOperand_run {run operand : List Char} (hrun : ∀ c ∈ run, Operator.isSymbol c)
    (hne : operand ≠ []) (hfree : ∀ c ∈ operand, Operator.isSymbol c = false) {cs : List Char}
    (hcs : (inOperand cs).1 = []) :
    atOperand (run ++ (operand ++ cs)) =
      operandTokens (endsInSign run) run operand ++ (inOperand cs).2 := by
  have hoperand := atOperand_operand hne hfree hcs
  induction run using endsInSign.induct with
  | case1 => exact hoperand
  | case2 c =>
    have hc := hrun c List.mem_cons_self
    by_cases hsign : c = '-'
    · subst hsign
      rw [List.singleton_append, atOperand, if_neg (by decide), inOperand_append hfree, hcs,
        List.append_nil]
      rfl
    · have hbegins : Operator.isSymbol c && c != '-' := by simp [hc, hsign]
      have hends : endsInSign [c] = false := by simp [endsInSign, hsign]
      rw [List.singleton_append, atOperand, if_pos hbegins, hoperand, hends]
      rfl
  | case3 d run ih =>
    obtain ⟨hd, hrest⟩ := List.forall_mem_cons.1 (List.forall_mem_cons.1 hrun).2
    have hends : endsInSign ('-' :: d :: run) = endsInSign run := by simp [endsInSign]
    rw [hends, operandTokens_cons (fun _ => List.cons_ne_nil _ _),
      operandTokens_cons ne_nil_of_endsInSign, List.cons_append, List.cons_append, atOperand,
      if_neg (by decide), inOperand, if_pos hd, ih hrest]
    rfl
  | case4 c d run hsign ih =>
    obtain ⟨hc, hrest⟩ := List.forall_mem_cons.1 hrun
    have hbegins : Operator.isSymbol c && c != '-' := by simp [hc, hsign]
    have hends : endsInSign (c :: d :: run) = endsInSign (d :: run) := by simp [endsInSign, hsign]
    rw [hends, operandTokens_cons (fun _ => List.cons_ne_nil _ _), List.cons_append, atOperand,
      if_pos hbegins, ih hrest]
    rfl

/-- Behind an operand the first symbol ends it, and from the second on an operand may begin. -/
theorem inOperand_chars {others : List (List Char × List Char)} {rest : List Char}
    (h : IsProper ⟨others, rest⟩) (hothers : ∀ run ∈ others, run.1 ≠ []) :
    inOperand (chars ⟨others, rest⟩) =
      ([], (others.flatMap fun run => operandTokens (endsInSign run.1.tail) run.1 run.2) ++
        rest.map ([·])) := by
  induction others with
  | nil => exact (tokens_symbols h.rest).2
  | cons first others ih =>
    obtain ⟨run, operand⟩ := first
    obtain ⟨hfirst, hlater⟩ := List.forall_mem_cons.1 hothers
    obtain ⟨c, run, rfl⟩ := List.exists_cons_of_ne_nil hfirst
    obtain ⟨hc, hrun⟩ := List.forall_mem_cons.1 (h.symbols _ List.mem_cons_self)
    obtain ⟨hne, hfree⟩ := h.operand _ List.mem_cons_self
    have htail := ih h.tail hlater
    rw [chars_cons, List.cons_append, inOperand, if_pos hc,
      atOperand_run hrun hne hfree (by rw [htail]), htail, List.flatMap_cons, List.tail_cons,
      operandTokens_cons ne_nil_of_endsInSign, List.cons_append, List.cons_append,
      List.append_assoc]

/-- Cutting the characters of a proper layout gives its tokens. -/
theorem atOperand_chars {l : Layout} (h : l.IsProper) : atOperand l.chars = l.tokens := by
  obtain ⟨operands, rest⟩ := l
  cases operands with
  | nil => exact (tokens_symbols h.rest).1
  | cons first others =>
    obtain ⟨run, operand⟩ := first
    obtain ⟨hne, hfree⟩ := h.operand _ List.mem_cons_self
    have htail := inOperand_chars h.tail h.between
    rw [chars_cons, atOperand_run (h.symbols _ List.mem_cons_self) hne hfree (by rw [htail]), htail]
    exact (List.append_assoc _ _ _).symm

end Layout

namespace Token

/-- A text of more than one character is no operator. -/
theorem not_isOperator_ofList {c : Char} {cs : List Char} (h : cs ≠ []) :
    ¬ IsOperator (String.ofList (c :: cs)) := by
  rintro ⟨o, ho⟩
  have hchars := congrArg String.toList ho
  rw [String.toList_ofList, Operator.toList_text] at hchars
  exact h (List.cons.inj hchars).2

/-- In front of a signed operand there is nothing or an operator. -/
theorem eq_nil_or_getLast?_of_ofText_eq {s : String} {before after : List String}
    {operand : List Char} (hne : operand ≠ [])
    (h : ofText s = before ++ String.ofList ('-' :: operand) :: after) :
    before = [] ∨ ∃ o : Operator, before.getLast? = some o.text := by
  obtain rfl | ⟨before, token, rfl⟩ := before.eq_nil_or_concat
  · exact .inl rfl
  · have hchain := isChain_ofText s
    rw [h, List.concat_eq_append, List.append_assoc, List.singleton_append] at hchain
    obtain ⟨o, rfl⟩ := (List.isChain_cons_cons.1 hchain.right_of_append).1.resolve_right
      (not_isOperator_ofList hne)
    exact .inr ⟨o, by rw [List.concat_eq_append, List.getLast?_concat]⟩

/-- The tokens of an expression are those of its layout, the only way to write it without blank
characters as runs of symbols and of other characters in turn. So no character is lost, no token is
empty, of two neighbours one is an operator, and a signed operand stands at the beginning or behind
an operator. -/
theorem exists_layout_ofText (s : String) :
    ∃ l : Layout, l.IsProper ∧ l.chars = s.toList.filter (!Text.isBlank ·) ∧
      (∀ l' : Layout, l'.IsProper → l'.chars = s.toList.filter (!Text.isBlank ·) → l' = l) ∧
      ofText s = l.tokens.map String.ofList ∧
      (ofText s).flatMap String.toList = s.toList.filter (!Text.isBlank ·) ∧
      (∀ token ∈ ofText s, token ≠ "") ∧
      (ofText s).IsChain Separated ∧
      ∀ (before after : List String) (operand : List Char), operand ≠ [] →
        ofText s = before ++ String.ofList ('-' :: operand) :: after →
        before = [] ∨ ∃ o : Operator, before.getLast? = some o.text := by
  obtain ⟨hchars, hproper⟩ := Layout.ofChars_spec (s.toList.filter (!Text.isBlank ·))
  refine ⟨_, hproper, hchars, ?_, ?_, flatMap_ofText s, ?_, isChain_ofText s, ?_⟩
  · intro l' hproper' hchars'
    rw [← hchars', Layout.ofChars_chars hproper']
  · rw [ofText, ← Layout.atOperand_chars hproper, hchars]
  · rintro token htoken rfl
    exact (isToken_of_mem_ofText htoken).1 rfl
  · intro before after operand hne h
    exact eq_nil_or_getLast?_of_ofText_eq hne h

end Token

end Keypad
