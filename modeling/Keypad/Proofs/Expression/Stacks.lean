import Keypad.Proofs.Expression.Balance
import Keypad.Proofs.Expression.Rearranged
import Keypad.Proofs.Expression.Waiting
import Mathlib.Logic.Relation

/-!
# How high the stacks grow

A calculation has two stacks, the waiting operators while tokens are put in postfix order and the
operands while the result is evaluated. Both are followed step by step here: `Pass.Advances` takes
a single operator from the stack or a single token, and `Evaluation.Advances` evaluates a single
item. What the steps lead to is the result of `Postfix.ofTokens` (`Pass.exists_reaches_last`) and
the outcome of `Evaluation.run` (`Evaluation.Reaches.outcome_eq`), so every point of a run is
reached.

Any tokens leave the waiting operators levelled at every point, so at most two wait
(`Pass.Reaches.levelled`). The height of the operand stack depends on the items alone: it is the
excess of numbers over operators among those evaluated (`Evaluation.Reaches.exists_evaluated`).
These are what a pass had put out at some point (`Pass.Reaches.exists_output_eq`), and the excess of
that is the excess of the tokens read and the number of waiting operators
(`Pass.Reaches.exists_read`). Separated tokens have an excess of one at most. So there are never
more than three operands, whatever the expression is (`Evaluation.length_operands_le`).
-/

namespace Keypad

namespace Postfix.Pass

/-- One step of a pass, from a point with the tokens not read yet to the next point. -/
inductive Advances (strict : Bool) : Pass × List String → Pass × List String → Prop
  /-- A number is put out. -/
  | number {p token tokens} (x : Double) : TokenKind.ofToken token = .number x →
      Advances strict (p, token :: tokens) ({ p with output := p.output ++ [.number x] }, tokens)
  /-- An operator that the next one waits for is put out. -/
  | apply {output top waiting dropped token tokens} (o : Operator) :
      TokenKind.ofToken token = .operator o → o.yieldsTo top →
      Advances strict (⟨output, top :: waiting, dropped⟩, token :: tokens)
        (⟨output ++ [.operator top], waiting, dropped⟩, token :: tokens)
  /-- An operator that waits for none begins to wait itself. -/
  | wait {p token tokens} (o : Operator) : TokenKind.ofToken token = .operator o →
      (∀ top ∈ p.waiting.head?, o.yieldsTo top = false) →
      Advances strict (p, token :: tokens) ({ p with waiting := o :: p.waiting }, tokens)
  /-- A token without a meaning is left out, unless it is refused. -/
  | leaveOut {p token tokens} : strict = false → TokenKind.ofToken token = .unrecognised →
      Advances strict (p, token :: tokens) ({ p with dropped := p.dropped ++ [token] }, tokens)
  /-- When the tokens end, the operators that still wait are put out. -/
  | drain {output top waiting dropped} :
      Advances strict (⟨output, top :: waiting, dropped⟩, [])
        (⟨output ++ [.operator top], waiting, dropped⟩, [])

/-- A pass comes from one point to another. -/
abbrev Reaches (strict : Bool) : Pass × List String → Pass × List String → Prop :=
  Relation.ReflTransGen (Advances strict)

variable {strict : Bool} {s t : Pass × List String}

/-! ## Every run is followed -/

/-- At the end, the waiting operators are put out one after the other. -/
theorem reaches_drain (output : List Item) (waiting : List Operator) (dropped : List String) :
    Reaches strict (⟨output, waiting, dropped⟩, [])
      (⟨output ++ waiting.map .operator, [], dropped⟩, []) := by
  induction waiting generalizing output with
  | nil =>
    rw [List.map_nil, List.append_nil]
  | cons top waiting ih =>
    have hrest := ih (output ++ [.operator top])
    rw [List.append_assoc] at hrest
    exact .head .drain hrest

/-- An operator puts out those that it waits for one after the other, and then waits itself. -/
theorem reaches_operator {token : String} {o : Operator} (h : TokenKind.ofToken token = .operator o)
    (output : List Item) (waiting : List Operator) (dropped tokens : List String) :
    Reaches strict (⟨output, waiting, dropped⟩, token :: tokens)
      (⟨output ++ (waiting.takeWhile o.yieldsTo).map .operator, o :: waiting.dropWhile o.yieldsTo,
        dropped⟩, tokens) := by
  -- The stack is taken off from its top, one step for each operator that the new one waits for.
  induction waiting generalizing output with
  | nil =>
    rw [List.takeWhile_nil, List.map_nil, List.append_nil]
    exact .single (.wait o h nofun)
  | cons top waiting ih =>
    cases hyields : o.yieldsTo top with
    | true =>
      have hrest := ih (output ++ [.operator top])
      rw [List.append_assoc] at hrest
      rw [List.takeWhile_cons_of_pos hyields, List.dropWhile_cons_of_pos hyields]
      exact .head (.apply o h hyields) hrest
    | false =>
      have hnot : ¬ o.yieldsTo top := by simp [hyields]
      rw [List.takeWhile_cons_of_neg hnot, List.dropWhile_cons_of_neg hnot, List.map_nil,
        List.append_nil]
      refine .single (.wait o h fun other hother => ?_)
      cases hother
      exact hyields

/-- A token is taken in steps. -/
theorem reaches_take {p q : Pass} {token : String} (h : p.take strict token = .ok q)
    (tokens : List String) : Reaches strict (p, token :: tokens) (q, tokens) := by
  rw [take] at h
  cases hkind : TokenKind.ofToken token with
  | number x =>
    rw [hkind] at h
    cases h
    exact .single (.number x hkind)
  | operator o =>
    rw [hkind] at h
    cases h
    exact reaches_operator hkind p.output p.waiting p.dropped tokens
  | unrecognised =>
    rw [hkind] at h
    dsimp only at h
    split_ifs at h with hstrict
    cases h
    exact .single (.leaveOut (by simpa using hstrict) hkind)

/-- A pass that refuses none of the first tokens takes them in steps. -/
theorem reaches_run {p q : Pass} {tokens : List String} (h : run strict p tokens = (q, none))
    (after : List String) : Reaches strict (p, tokens ++ after) (q, after) := by
  induction tokens generalizing p with
  | nil =>
    cases h
    exact .refl
  | cons token tokens ih =>
    rw [run] at h
    split at h
    · next next htake => exact (reaches_take htake (tokens ++ after)).trans (ih h)
    · cases h

/-- When no token is refused, the steps lead to the postfix order of the tokens and add those left
out to the list. -/
theorem reaches_order (strict : Bool) {tokens : List String}
    (h : strict → ∀ token ∈ tokens, ¬ isUnrecognised token) (dropped : List String) :
    Reaches strict (⟨[], [], dropped⟩, tokens)
      (⟨(order [] tokens).1, [], dropped ++ tokens.filter isUnrecognised⟩, []) := by
  obtain ⟨q, hrun, hitems, hdropped⟩ := exists_run_eq strict h ⟨[], [], dropped⟩
  have htaken := reaches_run hrun []
  rw [List.append_nil] at htaken
  dsimp only at hitems hdropped
  rw [List.nil_append] at hitems
  rw [← hitems, ← hdropped]
  exact htaken.trans (reaches_drain q.output q.waiting q.dropped)

/-- No step leads on from a token that is refused. -/
theorem not_advances_of_isUnrecognised {p : Pass} {token : String} {tokens : List String}
    (h : isUnrecognised token) (u : Pass × List String) :
    ¬ Advances true (p, token :: tokens) u := by
  have hkind : TokenKind.ofToken token = .unrecognised := by simpa [isUnrecognised] using h
  intro hstep
  cases hstep with
  | number x hother => cases hkind.symm.trans hother
  | apply o hother hyields => cases hkind.symm.trans hother
  | wait o hother htop => cases hkind.symm.trans hother
  | leaveOut hlenient hother => cases hlenient

/-- Every pass comes to a point from which there is no further step. If tokens remain there, the
first of them is refused; if not, the tokens are in postfix order. -/
theorem exists_reaches_last (strict : Bool) (tokens : List String) :
    ∃ t, Reaches strict (⟨[], [], []⟩, tokens) t ∧ (∀ u, ¬ Advances strict t u) ∧
      ofTokens strict tokens =
        match t.2 with
        | [] => .ok (t.1.output, t.1.dropped)
        | token :: _ => .error (.malformedToken token) := by
  cases hrefused : (if strict then tokens.find? isUnrecognised else none) with
  | none =>
    have hknown : strict → ∀ token ∈ tokens, ¬ isUnrecognised token := by
      intro hstrict
      rw [if_pos hstrict] at hrefused
      exact List.find?_eq_none.1 hrefused
    refine ⟨_, reaches_order strict hknown [], nofun, ?_⟩
    rw [ofTokens, hrefused, List.nil_append, ← order_snd []]
  | some token =>
    have hfind := hrefused
    split_ifs at hfind with hstrict
    obtain ⟨htoken, before, after, rfl, hbefore⟩ := List.find?_eq_some_iff_append.1 hfind
    -- The tokens in front of the one that is refused are all taken.
    obtain ⟨q, hrun, -⟩ := exists_run_eq strict (fun _ => by simpa using hbefore) ⟨[], [], []⟩
    refine ⟨_, reaches_run hrun (token :: after), ?_, ?_⟩
    · rw [hstrict]
      exact not_advances_of_isUnrecognised htoken
    · rw [ofTokens, hrefused]

/-! ## The waiting operators -/

/-- A step keeps the waiting operators levelled. -/
theorem Advances.levelled (h : Advances strict s t) (hlevelled : Operator.Levelled s.1.waiting) :
    Operator.Levelled t.1.waiting := by
  cases h with
  | number x hkind => exact hlevelled
  | apply o hkind hyields => exact hlevelled.of_cons
  | @wait p token tokens o hkind htop =>
    -- The operator puts nothing out, so it stands on top of everything that waits.
    have hall : p.waiting.dropWhile o.yieldsTo = p.waiting := by
      cases hwaiting : p.waiting with
      | nil => rfl
      | cons top waiting =>
        rw [hwaiting] at htop
        exact List.dropWhile_cons_of_neg (by simp [htop top rfl])
    have hcons := Operator.levelled_cons_dropWhile hlevelled o
    rwa [hall] at hcons
  | leaveOut hlenient hkind => exact hlevelled
  | drain => exact hlevelled.of_cons

/-- A pass keeps the waiting operators levelled. -/
theorem Reaches.levelled (h : Reaches strict s t) (hlevelled : Operator.Levelled s.1.waiting) :
    Operator.Levelled t.1.waiting := by
  induction h with
  | refl => exact hlevelled
  | tail _ hstep ih => exact hstep.levelled ih

/-! ## What has been put out -/

/-- A step reads at most one token. The excess of what has been put out grows by the excess of the
token and by the number of operators that wait from now on. -/
theorem Advances.exists_read (h : Advances strict s t) :
    ∃ read, s.2 = read ++ t.2 ∧
      Item.balance t.1.output - t.1.waiting.length =
        Item.balance s.1.output - s.1.waiting.length + Token.balance read := by
  cases h with
  | @number p token tokens x hkind =>
    refine ⟨[token], rfl, ?_⟩
    simp only [Item.balance_concat, Item.gain, Token.balance_singleton, hkind, TokenKind.gain]
    ring
  | apply o hkind hyields =>
    refine ⟨[], rfl, ?_⟩
    simp only [Item.balance_concat, Item.gain, Token.balance_nil, List.length_cons]
    push_cast
    ring
  | @wait p token tokens o hkind htop =>
    refine ⟨[token], rfl, ?_⟩
    simp only [Token.balance_singleton, hkind, TokenKind.gain, List.length_cons]
    push_cast
    ring
  | @leaveOut p token tokens hlenient hkind =>
    refine ⟨[token], rfl, ?_⟩
    simp only [Token.balance_singleton, hkind, TokenKind.gain]
    ring
  | drain =>
    refine ⟨[], rfl, ?_⟩
    simp only [Item.balance_concat, Item.gain, Token.balance_nil, List.length_cons]
    push_cast
    ring

/-- What a pass that has put out nothing puts out has the excess of the tokens read, and one number
more for every operator that waits. -/
theorem Reaches.exists_read (h : Reaches strict s t) (houtput : s.1.output = [])
    (hwaiting : s.1.waiting = []) :
    ∃ read, s.2 = read ++ t.2 ∧
      Item.balance t.1.output = Token.balance read + t.1.waiting.length := by
  induction h with
  | refl =>
    refine ⟨[], rfl, ?_⟩
    rw [houtput, hwaiting]
    rfl
  | tail _ hstep ih =>
    obtain ⟨before, hbefore, hbalance⟩ := ih
    obtain ⟨read, hread, hgrows⟩ := hstep.exists_read
    refine ⟨before ++ read, ?_, ?_⟩
    · rw [hbefore, hread, List.append_assoc]
    · rw [Token.balance_append]
      omega

/-- A step puts out one item at most. -/
theorem Advances.output_cases (h : Advances strict s t) :
    t.1.output = s.1.output ∨ ∃ item, t.1.output = s.1.output ++ [item] := by
  cases h with
  | number x hkind => exact .inr ⟨_, rfl⟩
  | apply o hkind hyields => exact .inr ⟨_, rfl⟩
  | wait o hkind htop => exact .inl rfl
  | leaveOut hlenient hkind => exact .inl rfl
  | drain => exact .inr ⟨_, rfl⟩

/-- A pass that has put out nothing comes by every beginning of what it puts out. -/
theorem Reaches.exists_output_eq (h : Reaches strict s t) (houtput : s.1.output = [])
    {items : List Item} (hitems : items <+: t.1.output) :
    ∃ u, Reaches strict s u ∧ u.1.output = items := by
  -- The last step puts out one item at most, so a shorter beginning has been put out before it.
  induction h with
  | refl =>
    rw [houtput, List.prefix_nil] at hitems
    exact ⟨s, .refl, houtput.trans hitems.symm⟩
  | @tail m t hm hstep ih =>
    obtain hsame | ⟨item, hconcat⟩ := hstep.output_cases
    · exact ih (hsame ▸ hitems)
    · rw [hconcat, List.prefix_concat_iff] at hitems
      obtain rfl | hbefore := hitems
      · exact ⟨t, hm.tail hstep, hconcat⟩
      · exact ih hbefore

end Postfix.Pass

namespace Evaluation

open Postfix

/-! ## The operands -/

/-- One step of an evaluation, from the operands at a point and the items that follow to the next
point. Where no step is possible the evaluation ends or stops. Within a step the stack is never
higher than at one of its two ends, since an operator takes its operands away first. -/
inductive Advances (precision : ℤ) : List Double × List Item → List Double × List Item → Prop
  /-- A number becomes an operand. -/
  | number {operands items} (x : Double) :
      Advances precision (operands, .number x :: items) (x :: operands, items)
  /-- The result of an operator takes the place of the last two operands. -/
  | operation {operands items} (o : Operator) (left right : Double) {result : Double} :
      reduce precision o left right = .ok result →
      Advances precision (right :: left :: operands, .operator o :: items)
        (result :: operands, items)

/-- An evaluation comes from one point to another. -/
abbrev Reaches (precision : ℤ) : List Double × List Item → List Double × List Item → Prop :=
  Relation.ReflTransGen (Advances precision)

variable {precision : ℤ} {s t : List Double × List Item}

/-- A step leaves the outcome as it is. -/
theorem Advances.outcome_eq (h : Advances precision s t) :
    (run precision s.1 s.2).outcome = (run precision t.1 t.2).outcome := by
  cases h with
  | number x => simp only [run]
  | operation o left right hresult => simp only [run, hresult]

/-- The outcome of an evaluation is decided at every point that it comes to. -/
theorem Reaches.outcome_eq (h : Reaches precision s t) :
    (run precision s.1 s.2).outcome = (run precision t.1 t.2).outcome := by
  induction h with
  | refl => rfl
  | tail _ hstep ih => exact ih.trans hstep.outcome_eq

/-- A step evaluates one item, and as many operands are on the stack as it adds. -/
theorem Advances.exists_evaluated (h : Advances precision s t) :
    ∃ item, s.2 = item :: t.2 ∧ (t.1.length : ℤ) = s.1.length + item.gain := by
  cases h with
  | number x => exact ⟨_, rfl, by simp [Item.gain]⟩
  | operation o left right hresult =>
    refine ⟨_, rfl, ?_⟩
    simp only [List.length_cons, Item.gain]
    push_cast
    ring

/-- The number of operands depends on the items alone: it grows by the excess of those that have
been evaluated. -/
theorem Reaches.exists_evaluated (h : Reaches precision s t) :
    ∃ items, s.2 = items ++ t.2 ∧ (t.1.length : ℤ) = s.1.length + Item.balance items := by
  induction h with
  | refl => exact ⟨[], rfl, (add_zero _).symm⟩
  | tail _ hstep ih =>
    obtain ⟨items, hitems, hlength⟩ := ih
    obtain ⟨item, hitem, hgain⟩ := hstep.exists_evaluated
    refine ⟨items ++ [item], ?_, ?_⟩
    · rw [hitems, hitem, List.append_assoc, List.singleton_append]
    · rw [Item.balance_concat]
      omega

/-- Every evaluation comes to a point from which there is no further step. -/
theorem exists_reaches_last (precision : ℤ) (operands : List Double) (items : List Item) :
    ∃ t, Reaches precision (operands, items) t ∧ ∀ u, ¬ Advances precision t u := by
  -- Every step takes an item away, so the steps end with the items at the latest.
  induction items generalizing operands with
  | nil => exact ⟨_, .refl, nofun⟩
  | cons item items ih =>
    by_cases hstep : ∃ u, Advances precision (operands, item :: items) u
    · obtain ⟨⟨next, rest⟩, hstep⟩ := hstep
      obtain ⟨other, hrest, -⟩ := hstep.exists_evaluated
      cases hrest
      obtain ⟨t, ht, hlast⟩ := ih next
      exact ⟨t, ht.head hstep, hlast⟩
    · exact ⟨_, .refl, not_exists.1 hstep⟩

/-- An operation has a result or fails, but not for want of a single value. -/
theorem reduce_ne_leftover {o : Operator} {left right : Double} {count : ℕ} :
    reduce precision o left right ≠ .error (.fault (.leftover count)) := by
  unfold reduce
  split
  · simp
  · split_ifs
    · split <;> simp
    · simp

/-- An evaluation that ends with operands left over comes to the end of its items with them. -/
theorem exists_reaches_of_leftover {operands : List Double} {items : List Item} {count : ℕ}
    (h : (run precision operands items).outcome = .error (.fault (.leftover count))) :
    ∃ left, Reaches precision (operands, items) (left, []) ∧ left.length = count ∧ count ≠ 1 := by
  -- Operands are left over only where the items end; every other case stops or takes a step.
  fun_induction run precision operands items with
  | case1 x => cases h
  | case2 operands hone =>
    cases h
    refine ⟨operands, .refl, rfl, fun hlength => ?_⟩
    obtain ⟨x, hx⟩ := List.length_eq_one_iff.1 hlength
    exact hone x hx
  | case3 operands x items ih =>
    obtain ⟨left, hleft, hcount⟩ := ih h
    exact ⟨left, .head (.number x) hleft, hcount⟩
  | case4 right left operands o items stop hresult =>
    exact absurd (hresult.trans (congrArg _ (Except.error.inj h))) reduce_ne_leftover
  | case5 right left operands o items result hresult steps outcome hrun ih =>
    rw [hrun] at ih
    obtain ⟨left', hleft, hcount⟩ := ih h
    exact ⟨left', .head (.operation o left right hresult) hleft, hcount⟩
  | case6 => cases h
  | case7 => cases h

/-! ## Both stacks together -/

/-- While separated tokens are evaluated in postfix order, there are never more than three operands,
and at the end there is not more than one. -/
theorem length_operands_le {tokens : List String} (hseparated : tokens.IsChain Token.Separated)
    (h : Reaches precision ([], (order [] tokens).1) t) :
    t.1.length ≤ 3 ∧ (t.2 = [] → t.1.length ≤ 1) := by
  obtain ⟨items, hitems, hlength⟩ := h.exists_evaluated
  simp only [List.length_nil, Nat.cast_zero, zero_add] at hitems hlength
  constructor
  · -- The items have been put out at some point, when at most two operators waited.
    have hpass := @Pass.reaches_order false tokens nofun []
    obtain ⟨⟨p, rest⟩, hpoint, houtput⟩ := hpass.exists_output_eq rfl ⟨t.2, hitems.symm⟩
    obtain ⟨read, hread, hbalance⟩ := hpoint.exists_read rfl rfl
    have htwo := (hpoint.levelled List.Pairwise.nil).length_le
    rw [show tokens = read ++ rest from hread] at hseparated
    have hone := (Token.balance_le (List.IsChain.left_of_append hseparated)).1
    rw [houtput] at hbalance
    dsimp only at htwo hbalance
    omega
  · -- At the end all items have been evaluated, so that no operator waits any more.
    intro hend
    have hone := (Token.balance_le hseparated).1
    have hbalance := balance_order [] tokens
    rw [hitems, hend, List.append_nil, List.length_nil] at hbalance
    omega

/-- At every point of a pass the waiting operators are levelled, so that at most two wait; where the
steps end, either a token is refused or the tokens are in postfix order. At every point of the
evaluation of an expression there are at most three operands, and at its end at most one; where the
steps end, the outcome is decided. So if an evaluation does not end with a single value left over,
then with none. -/
theorem stacks_bounded :
    (∀ (strict : Bool) (tokens : List String),
      (∀ dropped t, Pass.Reaches strict (⟨[], [], dropped⟩, tokens) t →
        Operator.Levelled t.1.waiting ∧ t.1.waiting.length ≤ 2) ∧
      ∃ t, Pass.Reaches strict (⟨[], [], []⟩, tokens) t ∧ (∀ u, ¬ Pass.Advances strict t u) ∧
        ofTokens strict tokens =
          match t.2 with
          | [] => .ok (t.1.output, t.1.dropped)
          | token :: _ => .error (.malformedToken token)) ∧
    ∀ (precision : ℤ) (s : String),
      (∀ t, Reaches precision ([], (order [] (Token.ofText s)).1) t →
        t.1.length ≤ 3 ∧ (t.2 = [] → t.1.length ≤ 1)) ∧
      (∃ t, Reaches precision ([], (order [] (Token.ofText s)).1) t ∧
        (∀ u, ¬ Advances precision t u) ∧
        (ofItems precision (order [] (Token.ofText s)).1).outcome =
          (run precision t.1 t.2).outcome) ∧
      ∀ count, (ofItems precision (order [] (Token.ofText s)).1).outcome =
        .error (.fault (.leftover count)) → count = 0 := by
  refine ⟨fun strict tokens => ⟨fun dropped t ht => ?_, Pass.exists_reaches_last strict tokens⟩,
    fun precision s =>
      ⟨fun t => length_operands_le (Token.isChain_ofText s), ?_, fun count h => ?_⟩⟩
  · have hlevelled := ht.levelled List.Pairwise.nil
    exact ⟨hlevelled, hlevelled.length_le⟩
  · obtain ⟨t, ht, hlast⟩ := exists_reaches_last precision [] (order [] (Token.ofText s)).1
    exact ⟨t, ht, hlast, ht.outcome_eq⟩
  · obtain ⟨left, hleft, rfl, hone⟩ := exists_reaches_of_leftover h
    have hle := (length_operands_le (Token.isChain_ofText s) hleft).2 rfl
    dsimp only at hle
    omega

/-- Both stacks become as high as they can for a sum that ends in a product. -/
theorem stacks_bounded_oneAddTwoTimesThree :
    (∃ t, Pass.Reaches false (⟨[], [], []⟩, Token.ofText "1+2×3") t ∧
      t.1.waiting = [.multiply, .add] ∧ Operator.Levelled t.1.waiting) ∧
    ∃ t, Reaches 9 ([], (order [] (Token.ofText "1+2×3")).1) t ∧
      t.1 = [Double.ofInt 3, Double.ofInt 2, Double.ofInt 1] ∧ t.1.length ≤ 3 := by
  have htokens : Token.ofText "1+2×3" = ["1", "+", "2", "×", "3"] := by decide
  have hone : TokenKind.ofToken "1" = .number (Double.ofInt 1) := by decide +kernel
  have htwo : TokenKind.ofToken "2" = .number (Double.ofInt 2) := by decide +kernel
  have hadd : TokenKind.ofToken "+" = .operator .add := Operator.add.ofToken_text
  have htimes : TokenKind.ofToken "×" = .operator .multiply := Operator.multiply.ofToken_text
  have hitems : (order [] (Token.ofText "1+2×3")).1 =
      [.number (Double.ofInt 1), .number (Double.ofInt 2), .number (Double.ofInt 3),
        .operator .multiply, .operator .add] := by
    decide +kernel
  obtain ⟨hpass, hevaluation⟩ := stacks_bounded
  constructor
  · have hreaches : Pass.Reaches false (⟨[], [], []⟩, Token.ofText "1+2×3")
        (⟨[.number (Double.ofInt 1), .number (Double.ofInt 2)], [.multiply, .add], []⟩, ["3"]) := by
      rw [htokens]
      refine .head (.number _ hone) (.head (.wait _ hadd nofun) (.head (.number _ htwo)
        (.single (.wait _ htimes fun top htop => ?_))))
      cases htop
      rfl
    exact ⟨_, hreaches, rfl, ((hpass false _).1 _ _ hreaches).1⟩
  · have hreaches : Reaches 9 ([], (order [] (Token.ofText "1+2×3")).1)
        ([Double.ofInt 3, Double.ofInt 2, Double.ofInt 1],
          [.operator .multiply, .operator .add]) := by
      rw [hitems]
      exact .head (.number _) (.head (.number _) (.single (.number _)))
    exact ⟨_, hreaches, rfl, ((hevaluation 9 _).1 _ hreaches).1⟩

end Evaluation

end Keypad
