import Keypad.Proofs.Double.Plain
import Keypad.Proofs.Session.Run

/-!
# The expression line of a keypad

Keys that are pressed one after the other keep the expression line in shape: digits, points and
operator symbols, no two symbols next to each other, no two points in one operand, and no zero in
front of a first digit (`IsLine`). The shape survives cutting off the end (`IsLine.of_front`), and
a key puts one character at the end only where it fits (`IsLine.concat`). Finishing a calculation
starts a new line with a plain number (`IsPlain.isLine`), which has the shape whatever its size.

So each key preserves the shape (`exists_press_isLine`), and every sequence of keys leads from an
empty line only to lines of this shape (`exists_pressAll_isLine`). -/

namespace Keypad

open Session

/-- What the keys of a keypad can do: a digit key enters a single digit, and nothing sets a line
directly. -/
def Action.IsKey : Action → Prop
  | .digit text => ∃ c : Char, c.isDigit ∧ text = String.singleton c
  | .assign .. => False
  | _ => True

/-- The shape of an expression line. -/
structure IsLine (cs : List Char) : Prop where
  /-- The line consists of digits, points and operator symbols. -/
  chars : ∀ c ∈ cs, c.isDigit ∨ c = '.' ∨ Operator.isSymbol c
  /-- No two operator symbols are neighbours. -/
  operators : cs.IsChain fun a b => ¬ (Operator.isSymbol a ∧ Operator.isSymbol b)
  /-- A part without operator symbols has at most one point. -/
  points : ∀ run, run <:+: cs → (∀ c ∈ run, Operator.isSymbol c = false) → run.count '.' ≤ 1
  /-- The line does not begin with a zero and a digit. -/
  leading : ∀ d : Char, d.isDigit → ¬ ['0', d] <+: cs

namespace IsLine

variable {cs : List Char}

/-- There are no blank characters in a line. -/
theorem filter_isBlank (h : IsLine cs) : cs.filter (!Text.isBlank ·) = cs := by
  rw [List.filter_eq_self]
  intro c hc
  rw [Bool.not_eq_true']
  obtain hdigit | rfl | hsymbol := h.chars c hc
  · exact Text.isBlank_of_isDigit hdigit
  · decide
  · exact Text.isBlank_of_isSymbol hsymbol

/-! ## Cutting off the end and adding to it -/

/-- An empty line has the shape. -/
theorem nil : IsLine [] where
  chars := by simp
  operators := List.isChain_nil
  points := by simp
  leading := by simp

/-- The front of a line has the shape. -/
theorem of_front {ds : List Char} (h : IsLine ds) (hbegins : cs <+: ds) : IsLine cs where
  chars := fun c hc => h.chars c (hbegins.subset hc)
  operators := List.IsChain.prefix h.operators hbegins
  points := fun run hrun => h.points run (hrun.trans hbegins.isInfix)
  leading := fun d hd hzero => h.leading d hd (hzero.trans hbegins)

/-- What is added without an operator symbol belongs to the last operand. -/
theorem lastOperand_append {run : List Char} (hfree : ∀ c ∈ run, Operator.isSymbol c = false) :
    lastOperand (cs ++ run) = lastOperand cs ++ run := by
  unfold lastOperand
  rw [List.reverse_append, List.takeWhile_append_of_pos, List.reverse_append, List.reverse_reverse]
  intro c hc
  rw [hfree c (List.mem_reverse.1 hc), Bool.not_false]

/-- Behind an operator symbol the last operand has not begun. -/
theorem lastOperand_concat {c : Char} (hc : Operator.isSymbol c) :
    lastOperand (cs ++ [c]) = [] := by
  unfold lastOperand
  rw [List.reverse_concat, List.takeWhile_cons_of_neg (by simp [hc]), List.reverse_nil]

/-- A character can be added to a line: an operator symbol where none stands, a point to an operand
without one, a digit unless the line is a zero. -/
theorem concat {c : Char} (h : IsLine cs) (hc : c.isDigit ∨ c = '.' ∨ Operator.isSymbol c)
    (hoperator : Operator.isSymbol c → endsInOperator cs = false)
    (hpoint : c = '.' → '.' ∉ lastOperand cs) (hzero : c.isDigit → cs ≠ ['0']) :
    IsLine (cs ++ [c]) where
  chars := List.forall_mem_append.2 ⟨h.chars, by simpa using hc⟩
  operators := by
    refine List.isChain_append.2 ⟨h.operators, List.isChain_singleton _, ?_⟩
    rintro a ha b hb ⟨hsymbol, hsymbol'⟩
    obtain rfl : c = b := by simpa using hb
    -- The pair would be an operator at the end of the line and one behind it.
    have hend := hoperator hsymbol'
    rw [endsInOperator, Option.mem_def.1 ha, Option.any_some, hsymbol] at hend
    cases hend
  points := by
    intro run hrun hfree
    obtain hsuffix | hwithin := List.infix_concat_iff.1 hrun
    · obtain rfl | ⟨front, rfl, hfront⟩ := List.suffix_concat_iff.1 hsuffix
      · exact Nat.zero_le 1
      · have hfree' := (List.forall_mem_append.1 hfree).1
        rw [List.count_append, List.count_singleton]
        split_ifs with hc
        · -- The part in front of the point belongs to the last operand, which has no point.
          have hmem : '.' ∉ front := by
            intro hmem
            obtain ⟨before, rfl⟩ := hfront
            have hnot := hpoint (beq_iff_eq.1 hc)
            rw [lastOperand_append hfree'] at hnot
            exact hnot (List.mem_append_right _ hmem)
          rw [List.count_eq_zero.2 hmem]
        · exact h.points front hfront.isInfix hfree'
    · exact h.points run hwithin hfree
  leading := by
    intro d hd hbegins
    obtain heq | hbegins := List.prefix_concat_iff.1 hbegins
    · have hconcat : ['0'] ++ [d] = cs ++ [c] := heq
      obtain ⟨rfl, hdc⟩ := List.append_inj' hconcat rfl
      cases hdc
      exact hzero hd rfl
    · exact h.leading d hd hbegins

/-- A character at the end of a line stands where it fits. -/
theorem of_concat {c : Char} (h : IsLine (cs ++ [c])) :
    (Operator.isSymbol c → endsInOperator cs = false) ∧ (c = '.' → '.' ∉ lastOperand cs) ∧
      (c.isDigit → cs ≠ ['0']) := by
  refine ⟨fun hc => ?_, ?_, ?_⟩
  · rw [endsInOperator, Option.any_eq_false]
    intro a ha
    rw [Bool.eq_false_iff]
    intro hsymbol
    exact (List.isChain_append.1 h.operators).2.2 a ha c rfl ⟨hsymbol, hc⟩
  · rintro rfl hmem
    -- With the point at the end the last operand would have two.
    have hfree : ∀ d ∈ lastOperand cs ++ ['.'], Operator.isSymbol d = false := by
      refine List.forall_mem_append.2 ⟨fun d hd => ?_, List.forall_mem_singleton.2 (by decide)⟩
      simpa using List.mem_takeWhile_imp (List.mem_reverse.1 hd)
    have hoperand : lastOperand cs <:+ cs := by
      rw [← List.reverse_prefix, lastOperand, List.reverse_reverse]
      exact List.takeWhile_prefix _
    have hends : lastOperand cs ++ ['.'] <:+ cs ++ ['.'] :=
      (List.suffix_append_inj_of_length_eq rfl).2 ⟨hoperand, rfl⟩
    have hcount := h.points _ hends.isInfix hfree
    have hone := List.one_le_count_iff.2 hmem
    rw [List.count_append, List.count_singleton_self] at hcount
    omega
  · rintro hc rfl
    exact h.leading c hc (List.prefix_refl _)

/-- A digit can be added to a line that is no single zero. -/
theorem concat_digit (h : IsLine cs) {c : Char} (hc : c.isDigit) (hzero : cs ≠ ['0']) :
    IsLine (cs ++ [c]) := by
  have hsymbol : ¬ Operator.isSymbol c := by simp [Operator.isSymbol_of_isDigit hc]
  have hpoint : c ≠ '.' := by
    rintro rfl
    exact absurd hc (by decide)
  exact h.concat (.inl hc) (fun h => absurd h hsymbol) (fun h => absurd h hpoint) (fun _ => hzero)

/-- A point can be added to a line whose last operand has none. -/
theorem concat_point (h : IsLine cs) (hpoint : '.' ∉ lastOperand cs) : IsLine (cs ++ ['.']) := by
  have hsymbol : ¬ Operator.isSymbol '.' := by decide
  have hdigit : ¬ Char.isDigit '.' := by decide
  exact h.concat (.inr (.inl rfl)) (fun h => absurd h hsymbol) (fun _ => hpoint)
    (fun h => absurd h hdigit)

/-- An operator symbol can be added to a line that does not end in one. -/
theorem concat_symbol (h : IsLine cs) (o : Operator) (hend : endsInOperator cs = false) :
    IsLine (cs ++ [o.symbol]) := by
  have hsymbol : Operator.isSymbol o.symbol := Operator.isSymbol_iff.2 ⟨o, rfl⟩
  have hpoint : o.symbol ≠ '.' := by cases o <;> decide
  have hdigit : ¬ o.symbol.isDigit := by cases o <;> decide
  exact h.concat (.inr (.inr hsymbol)) (fun _ => hend) (fun h => absurd h hpoint)
    (fun h => absurd h hdigit)

/-- Digits can be added to a line as long as it does not begin with a zero and a digit. -/
theorem append_digits {ds : List Char} (h : IsLine cs) (hds : ∀ c ∈ ds, c.isDigit)
    (hleading : ∀ d : Char, d.isDigit → ¬ ['0', d] <+: cs ++ ds) : IsLine (cs ++ ds) := by
  induction ds generalizing cs with
  | nil =>
    rw [List.append_nil]
    exact h
  | cons d ds ih =>
    obtain ⟨hd, hrest⟩ := List.forall_mem_cons.1 hds
    rw [List.append_cons] at hleading ⊢
    refine ih (h.concat_digit hd ?_) hrest hleading
    rintro rfl
    exact hleading d hd (List.prefix_append _ _)

/-- Where an operand begins, a mantissa can be added as long as the line does not begin with a zero
and a digit. -/
theorem append_mantissa {m : List Char} (h : IsLine cs) (hbegins : lastOperand cs = [])
    (hm : Numeral.IsMantissa m)
    (hleading : ∀ d : Char, d.isDigit → ¬ ['0', d] <+: cs ++ m) : IsLine (cs ++ m) := by
  have hpointed : ∀ ds fs : List Char, (∀ c ∈ ds, c.isDigit) → (∀ c ∈ fs, c.isDigit) →
      (∀ d : Char, d.isDigit → ¬ ['0', d] <+: cs ++ (ds ++ '.' :: fs)) →
      IsLine (cs ++ (ds ++ '.' :: fs)) := by
    intro ds fs hds hfs hleading
    have hnopoint : '.' ∉ lastOperand (cs ++ ds) := by
      rw [lastOperand_append fun c hc => Operator.isSymbol_of_isDigit (hds c hc), hbegins]
      exact fun hmem => absurd (hds '.' hmem) (by decide)
    have hwhole : IsLine (cs ++ ds) := by
      refine h.append_digits hds fun d hd hzero => hleading d hd (hzero.trans ?_)
      rw [← List.append_assoc]
      exact List.prefix_append _ _
    have hall := (hwhole.concat_point hnopoint).append_digits hfs
    simp only [List.append_assoc, List.singleton_append] at hall
    exact hall hleading
  cases hm with
  | whole hds => exact h.append_digits hds.2 hleading
  | pointed hds hfs => exact hpointed _ _ hds.2 hfs hleading
  | fraction hfs => exact hpointed [] _ nofun hfs.2 hleading

/-- A line without an operator at its end has the shape and does not end in an operator. -/
theorem withoutOperator (h : IsLine cs) :
    IsLine (withoutOperator cs) ∧ endsInOperator (Session.withoutOperator cs) = false := by
  unfold Session.withoutOperator
  split_ifs with hend
  · have hbegins := List.dropLast_prefix cs
    refine ⟨h.of_front hbegins, ?_⟩
    rw [endsInOperator, Option.any_eq_true] at hend
    obtain ⟨c, hlast, hsymbol⟩ := hend
    obtain ⟨front, rfl⟩ := List.getLast?_eq_some_iff.1 hlast
    -- In front of the operator that was removed there is no other one.
    rw [List.dropLast_concat]
    exact h.of_concat.1 hsymbol
  · exact ⟨h, by simpa using hend⟩

end IsLine

/-- A sign, if there is one, is a line, and an operand begins behind it. -/
theorem isLine_signChars (negative : Bool) :
    IsLine (Double.signChars negative) ∧ lastOperand (Double.signChars negative) = [] := by
  cases negative with
  | false => exact ⟨.nil, rfl⟩
  | true => exact ⟨IsLine.nil.concat_symbol .subtract rfl, rfl⟩

/-- A plain magnitude with or without a sign is a line. -/
theorem IsPlain.isLine {m : List Char} (h : IsPlain m) (negative : Bool) :
    IsLine (Double.signChars negative ++ m) := by
  obtain ⟨hsign, hbegins⟩ := isLine_signChars negative
  refine hsign.append_mantissa hbegins h.isMantissa fun d hd hzero => ?_
  cases negative with
  | false => exact h.not_begins_zero hd hzero
  | true => exact absurd (List.cons_prefix_cons.1 hzero).1 (by decide)

/-! ## Keys -/

namespace Session

variable {config : Config} {s : Session} {text : String}

/-- A digit key keeps the shape, since a single zero begins a new expression. -/
theorem isLine_withDigit (h : IsLine text.toList) {c : Char} (hc : c.isDigit) {fresh : Bool}
    (hfresh : text = "0" → fresh) :
    IsLine (withDigit fresh text (String.singleton c)).toList := by
  unfold withDigit
  split_ifs with hnew
  · rw [String.toList_singleton]
    exact IsLine.nil.concat_digit hc nofun
  · rw [String.toList_append, String.toList_singleton]
    exact h.concat_digit hc fun hzero => hnew (hfresh (String.toList_injective hzero))

/-- An operator key keeps the shape, since it takes the place of an operator. -/
theorem isLine_withOperator (h : IsLine text.toList) (o : Operator) :
    IsLine (withOperator text o).toList := by
  obtain ⟨hline, hend⟩ := h.withoutOperator
  rw [withOperator, String.toList_ofList]
  exact hline.concat_symbol o hend

/-- The point key keeps the shape, since it does nothing to an operand with a point. -/
theorem isLine_withPoint (h : IsLine text.toList) : IsLine (withPoint text).toList := by
  unfold withPoint
  split_ifs with hpoint
  · exact h
  · rw [String.toList_append]
    exact h.concat_point (by simpa using hpoint)

/-- An expression without its last token consists of the first of its characters that are not
blank. -/
theorem withoutToken_prefix_filter (text : String) :
    (withoutToken text).toList <+: text.toList.filter (!Text.isBlank ·) := by
  obtain ⟨last, hlast⟩ := List.dropLast_prefix (Token.ofText text)
  rw [withoutToken, String.toList_join, ← Token.flatMap_ofText]
  conv_rhs => rw [← hlast, List.flatMap_append]
  exact List.prefix_append _ _

/-- Removing the last token keeps the shape. -/
theorem isLine_withoutToken (h : IsLine text.toList) : IsLine (withoutToken text).toList := by
  refine h.of_front ?_
  rw [← h.filter_isBlank]
  exact withoutToken_prefix_filter text

/-- Removing the last character keeps the shape. -/
theorem isLine_withoutLast (h : IsLine text.toList) : IsLine (withoutLast text).toList := by
  rw [withoutLast, String.toList_ofList]
  have hbegins := List.dropLast_prefix text.toList
  exact h.of_front hbegins

/-- Each key has a response and keeps the shape of the expression line. -/
theorem exists_press_isLine {action : Action} (h : IsLine s.expression.toList)
    (hkey : action.IsKey) :
    ∃ r, press config s action = .ok r ∧ IsLine r.session.expression.toList := by
  -- A preview leaves the expression alone, so only what the key itself writes has to be looked at.
  cases action with
  | digit text =>
    obtain ⟨c, hc, rfl⟩ := hkey
    obtain ⟨r, hr, hexpression⟩ := exists_map_previewed_eq config _
    refine ⟨r, hr, ?_⟩
    rw [hexpression]
    exact isLine_withDigit h hc fun hzero => by simp [hzero]
  | operator symbol =>
    rw [press]
    cases Operator.ofText? symbol with
    | none => exact ⟨_, rfl, h⟩
    | some o =>
      refine ⟨_, rfl, ?_⟩
      have hempty : IsLine "".toList := IsLine.nil
      dsimp only
      unfold operator
      split_ifs
      · exact isLine_withOperator hempty o
      · exact isLine_withOperator h o
  | decimal => exact ⟨_, rfl, isLine_withPoint h⟩
  | clearEntry =>
    rw [press, clearEntry]
    split_ifs
    · exact ⟨_, rfl, h⟩
    · obtain ⟨r, hr, hexpression⟩ := exists_map_previewed_eq config _
      refine ⟨r, hr, ?_⟩
      rw [hexpression]
      exact isLine_withoutToken h
  | allClear => exact ⟨_, rfl, IsLine.nil⟩
  | backspace =>
    rw [press, backspace]
    split_ifs
    · exact ⟨_, rfl, h⟩
    · exact ⟨_, rfl, IsLine.nil⟩
    · obtain ⟨r, hr, hexpression⟩ := exists_map_previewed_eq config _
      refine ⟨r, hr, ?_⟩
      rw [hexpression]
      exact isLine_withoutLast h
  | preview =>
    obtain ⟨t, result, ht, hpreview⟩ := exists_preview_eq config s
    refine ⟨{ session := t, returned := result }, by rw [press, ht]; rfl, ?_⟩
    obtain rfl | ⟨x, -, rfl⟩ := hpreview
    · exact h
    · exact h
  | finalize =>
    obtain ⟨t, verdict, -, ht, hfinalize⟩ := exists_finalize_eq config s
    refine ⟨{ session := t, returned := some ⟨s.expression, verdict⟩ }, by rw [press, ht]; rfl, ?_⟩
    obtain ⟨x, hx, -, rfl⟩ | ⟨-, rfl⟩ | ⟨kind, -, rfl⟩ := hfinalize
    · -- The value begins a new line.
      obtain ⟨negative, m, hplain, hm⟩ := Double.exists_plain_eq hx
      rw [hplain]
      exact hm.isLine negative
    · exact IsLine.nil
    · exact h
  | assign expression result isPreview => exact absurd hkey id

/-- Every sequence of keys on an empty display has its responses, and the expression line always has
the shape of a line. -/
theorem exists_pressAll_isLine (config : Config) (actions : List Action)
    (h : ∀ action ∈ actions, action.IsKey) :
    ∃ responses, pressAll config {} actions = .ok responses ∧
      responses.length = actions.length ∧
      ∀ t ∈ displays {} responses, IsLine t.expression.toList :=
  exists_pressAll_eq (P := fun s => IsLine s.expression.toList)
    (fun _ _ hs hkey => exists_press_isLine hs hkey) IsLine.nil h

/-- Five divided by eight tenths, with an operator and a point too many, and then a correction. -/
theorem exists_pressAll_isLine_five_divide :
    (∀ action ∈ [.digit "5", .operator "+", .operator "÷", .decimal, .decimal, .digit "8",
        .finalize, .backspace], Action.IsKey action) ∧
      ∃ responses, pressAll {} {} [.digit "5", .operator "+", .operator "÷", .decimal, .decimal,
          .digit "8", .finalize, .backspace] = .ok responses ∧
        responses.length = 8 ∧ ∀ t ∈ displays {} responses, IsLine t.expression.toList := by
  have hkeys : ∀ action ∈ [.digit "5", .operator "+", .operator "÷", .decimal, .decimal,
      .digit "8", .finalize, .backspace], Action.IsKey action := by
    have hfive : Action.IsKey (.digit "5") := ⟨'5', rfl, rfl⟩
    have height : Action.IsKey (.digit "8") := ⟨'8', rfl, rfl⟩
    simp only [List.forall_mem_cons]
    exact ⟨hfive, trivial, trivial, trivial, trivial, height, trivial, trivial, nofun⟩
  exact ⟨hkeys, exists_pressAll_isLine {} _ hkeys⟩

end Session

end Keypad
