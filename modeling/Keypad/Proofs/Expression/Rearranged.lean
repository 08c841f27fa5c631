import Keypad.Postfix
import Mathlib.Data.List.TakeWhile

/-!
# Postfix order loses nothing

Whatever the tokens are, their postfix order has the items that they mean, each as often as before;
the numbers keep their order, and no operator gets in front of a number that it stood behind
(`Item.IsRearranged`). What is left out are the tokens without a meaning, in their order.

The proof follows one pass over the tokens, which keeps what has been put out, what waits and what
has been left out so far (`Pass`). Every item is followed by the place where it was read. A step
keeps each of the places either among those put out or among those that wait, and puts out a number
behind nothing that was read after it (`Pass.Carries.take`); hence so does the pass
(`Pass.Carries.run`), and at its end nothing waits any more (`Pass.Carries.isRearranged`). The pass
gives the postfix order of `Postfix.ofTokens` (`exists_collect_eq`), and it adds the tokens left out
to a list that may hold others already. -/

namespace Keypad

namespace Item

/-- The item that a token means, if it has a meaning. -/
def ofToken? (token : String) : Option Item :=
  match TokenKind.ofToken token with
  | .number x => some (.number x)
  | .operator o => some (.operator o)
  | .unrecognised => none

/-- The item is a number. -/
def isNumber : Item → Bool
  | .number _ => true
  | _ => false

/-- Of two items with the places where they were read, the second is not a number that was read
before the first. -/
def InOrder (a b : Item × ℕ) : Prop := b.1.isNumber → a.2 < b.2

/-- Items are put in another order, in which operators may have moved behind numbers but not in
front of them. -/
structure IsRearranged (before after : List Item) : Prop where
  /-- No item is lost or gained. -/
  perm : after.Perm before
  /-- The numbers keep their order. -/
  numbers : after.filter isNumber = before.filter isNumber
  /-- Each item can be told the place where it stood before, so that everything in front of a number
  stood in front of it before. An operator that stood behind a number is therefore behind it. -/
  placed : ∃ placed : List (Item × ℕ), placed.map Prod.fst = after ∧ placed.Perm before.zipIdx ∧
    placed.Pairwise InOrder

/-- Places increase along a list. -/
theorem pairwise_zipIdx (items : List Item) (k : ℕ) :
    (items.zipIdx k).Pairwise fun a b => a.2 < b.2 := by
  induction items generalizing k with
  | nil => exact .nil
  | cons item items ih =>
    exact List.pairwise_cons.2 ⟨fun b hb => List.le_snd_of_mem_zipIdx hb, ih (k + 1)⟩

/-- The order of the places decides: numbers that are in order stand as they did before. -/
theorem isRearranged_of_placed {before : List Item} {placed : List (Item × ℕ)}
    (hperm : placed.Perm before.zipIdx) (horder : placed.Pairwise InOrder) :
    IsRearranged before (placed.map Prod.fst) := by
  have hfst : before.zipIdx.map Prod.fst = before := List.zipIdx_map_fst 0 before
  refine ⟨?_, ?_, placed, rfl, hperm, horder⟩
  · have hmap := hperm.map Prod.fst
    rwa [hfst] at hmap
  · -- Both lists of numbers increase in their places, and so they are one list.
    have hleft : (placed.filter (isNumber ∘ Prod.fst)).Pairwise fun a b => a.2 < b.2 := by
      refine (horder.filter _).imp_of_mem fun _ hb hab => hab ?_
      exact (List.mem_filter.1 hb).2
    have hright : (before.zipIdx.filter (isNumber ∘ Prod.fst)).Pairwise fun a b => a.2 < b.2 :=
      (pairwise_zipIdx before 0).filter _
    have heq := List.Perm.eq_of_pairwise (fun a b _ _ hab hba => absurd hba (lt_asymm hab))
      hleft hright (hperm.filter _)
    rw [List.filter_map, heq, ← List.filter_map, hfst]

end Item

namespace Postfix

/-! ## One pass over the tokens -/

/-- How far tokens have been put in postfix order. -/
structure Pass where
  /-- The items that have been put out. -/
  output : List Item
  /-- The operators that wait, the last one first. -/
  waiting : List Operator
  /-- The tokens that have been left out. -/
  dropped : List String

namespace Pass

/-- Takes one token. Only a token without a meaning is refused, and only when `strict` holds. -/
def take (strict : Bool) (p : Pass) (token : String) : Except Fault Pass :=
  match TokenKind.ofToken token with
  | .number x => .ok { p with output := p.output ++ [.number x] }
  | .operator o =>
    .ok { p with
      output := p.output ++ (p.waiting.takeWhile o.yieldsTo).map .operator
      waiting := o :: p.waiting.dropWhile o.yieldsTo }
  | .unrecognised =>
    if strict then .error (.malformedToken token)
    else .ok { p with dropped := p.dropped ++ [token] }

/-- Takes the tokens one after the other, up to the first one that is refused. -/
def run (strict : Bool) : Pass → List String → Pass × Option Fault
  | p, [] => (p, none)
  | p, token :: tokens =>
    match p.take strict token with
    | .ok q => run strict q tokens
    | .error fault => (p, some fault)

/-- What has been put out when the tokens end. -/
def items (p : Pass) : List Item := p.output ++ p.waiting.map .operator

/-! ## What a pass carries -/

/-- An operator as an item, with the place where it was read. -/
def itemAt (w : Operator × ℕ) : Item × ℕ := (.operator w.1, w.2)

/-- Operators may be put behind anything. -/
theorem pairwise_append_itemAt {placed : List (Item × ℕ)} (h : placed.Pairwise Item.InOrder)
    (waiting : List (Operator × ℕ)) : (placed ++ waiting.map itemAt).Pairwise Item.InOrder := by
  have hoperator : ∀ (a : Item × ℕ) (w : Operator × ℕ), Item.InOrder a (itemAt w) := nofun
  refine List.pairwise_append.2 ⟨h, List.pairwise_map.2 ?_, fun a _ b hb => ?_⟩
  · exact List.pairwise_of_forall fun v w => hoperator (itemAt v) w
  · obtain ⟨w, -, rfl⟩ := List.mem_map.1 hb
    exact hoperator a w

/-- The items `before` have been read: each of them, with its place, has been put out or waits, and
no number has been put out behind something that was read after it. -/
def Carries (p : Pass) (before : List Item) : Prop :=
  ∃ (placed : List (Item × ℕ)) (waiting : List (Operator × ℕ)),
    placed.map Prod.fst = p.output ∧ waiting.map Prod.fst = p.waiting ∧
      (placed ++ waiting.map itemAt).Perm before.zipIdx ∧ placed.Pairwise Item.InOrder

/-- A step carries on with the item that the token means. -/
theorem Carries.take {strict : Bool} {p q : Pass} {before : List Item} {token : String}
    (h : p.Carries before) (htake : p.take strict token = .ok q) :
    q.Carries (before ++ (Item.ofToken? token).toList) := by
  obtain ⟨placed, waiting, houtput, hwaiting, hperm, horder⟩ := h
  have hnext : ∀ item : Item,
      (before ++ [item]).zipIdx = before.zipIdx ++ [(item, before.length)] := fun item => by
    rw [List.zipIdx_append, Nat.zero_add]
    rfl
  rw [Pass.take] at htake
  unfold Item.ofToken?
  cases hkind : TokenKind.ofToken token with
  | number x =>
    rw [hkind] at htake
    cases htake
    refine ⟨placed ++ [(.number x, before.length)], waiting, ?_, hwaiting, ?_, ?_⟩
    · rw [List.map_append, houtput]
      rfl
    · rw [Option.toList_some, hnext, List.append_assoc]
      refine .trans ?_ (hperm.append_right _)
      rw [List.append_assoc]
      exact .append_left _ List.perm_append_comm
    · -- What was put out was read earlier.
      refine List.pairwise_append.2 ⟨horder, List.pairwise_singleton .., fun a ha b hb _ => ?_⟩
      have hlt := List.snd_lt_of_mem_zipIdx (hperm.subset (List.mem_append_left _ ha))
      rw [List.mem_singleton.1 hb]
      exact hlt
  | operator o =>
    rw [hkind] at htake
    cases htake
    -- The operators that are put out take their places with them.
    refine ⟨placed ++ (waiting.takeWhile (o.yieldsTo ∘ Prod.fst)).map itemAt,
      (o, before.length) :: waiting.dropWhile (o.yieldsTo ∘ Prod.fst), ?_, ?_, ?_,
      pairwise_append_itemAt horder _⟩
    · rw [List.map_append, houtput, ← hwaiting, List.takeWhile_map, List.map_map, List.map_map]
      rfl
    · rw [List.map_cons, ← hwaiting, List.dropWhile_map]
    · rw [← List.takeWhile_append_dropWhile (p := o.yieldsTo ∘ Prod.fst) (l := waiting),
        List.map_append, ← List.append_assoc] at hperm
      rw [Option.toList_some, hnext, List.map_cons]
      refine .trans ?_ (hperm.append_right _)
      exact List.perm_middle.trans (List.perm_append_singleton _ _).symm
  | unrecognised =>
    rw [hkind] at htake
    dsimp only at htake
    split_ifs at htake
    cases htake
    rw [Option.toList_none, List.append_nil]
    exact ⟨placed, waiting, houtput, hwaiting, hperm, horder⟩

/-- A pass that refuses nothing carries on with the items that the tokens mean. -/
theorem Carries.run {strict : Bool} {p q : Pass} {before : List Item} {tokens : List String}
    (h : p.Carries before) (hrun : Pass.run strict p tokens = (q, none)) :
    q.Carries (before ++ tokens.filterMap Item.ofToken?) := by
  induction tokens generalizing p before with
  | nil =>
    cases hrun
    rwa [List.filterMap_nil, List.append_nil]
  | cons token tokens ih =>
    rw [Pass.run] at hrun
    split at hrun
    · next next htake =>
      have hrest := ih (h.take htake) hrun
      have hcons : (token :: tokens).filterMap Item.ofToken? =
          (Item.ofToken? token).toList ++ tokens.filterMap Item.ofToken? := by
        rw [List.filterMap_cons]
        cases Item.ofToken? token <;> rfl
      rwa [List.append_assoc, ← hcons] at hrest
    · cases hrun

/-- At the end, the items that have been read are rearranged. -/
theorem Carries.isRearranged {p : Pass} {before : List Item} (h : p.Carries before) :
    Item.IsRearranged before p.items := by
  obtain ⟨placed, waiting, houtput, hwaiting, hperm, horder⟩ := h
  have hitems : p.items = (placed ++ waiting.map itemAt).map Prod.fst := by
    rw [items, ← houtput, ← hwaiting, List.map_append, List.map_map, List.map_map]
    rfl
  rw [hitems]
  exact Item.isRearranged_of_placed hperm (pairwise_append_itemAt horder waiting)

/-! ## The pass gives the postfix order -/

/-- A pass that refuses no token completes the postfix order and leaves out the tokens without a
meaning. -/
theorem exists_run_eq (strict : Bool) {tokens : List String}
    (h : strict → ∀ token ∈ tokens, ¬ isUnrecognised token) (p : Pass) :
    ∃ q, run strict p tokens = (q, none) ∧
      q.items = p.output ++ (order p.waiting tokens).1 ∧
      q.dropped = p.dropped ++ tokens.filter isUnrecognised := by
  induction tokens generalizing p with
  | nil => exact ⟨p, rfl, rfl, (List.append_nil _).symm⟩
  | cons token tokens ih =>
    have hrest := ih fun hstrict t ht => h hstrict t (List.mem_cons_of_mem _ ht)
    rw [run, take, order]
    cases hkind : TokenKind.ofToken token with
    | number x =>
      obtain ⟨q, hrun, hitems, hdropped⟩ := hrest { p with output := p.output ++ [.number x] }
      have hknown : ¬ isUnrecognised token := by simp [isUnrecognised, hkind]
      refine ⟨q, hrun, ?_, ?_⟩
      · rw [hitems, List.append_assoc, List.singleton_append]
      · rw [hdropped, List.filter_cons_of_neg hknown]
    | operator o =>
      obtain ⟨q, hrun, hitems, hdropped⟩ := hrest
        { p with
          output := p.output ++ (p.waiting.takeWhile o.yieldsTo).map .operator
          waiting := o :: p.waiting.dropWhile o.yieldsTo }
      have hknown : ¬ isUnrecognised token := by simp [isUnrecognised, hkind]
      refine ⟨q, hrun, ?_, ?_⟩
      · rw [hitems, List.append_assoc]
      · rw [hdropped, List.filter_cons_of_neg hknown]
    | unrecognised =>
      have hunknown : isUnrecognised token := by simp [isUnrecognised, hkind]
      have hlenient : strict = false := by
        by_contra hstrict
        exact h (by simpa using hstrict) token (List.mem_cons_self ..) hunknown
      obtain ⟨q, hrun, hitems, hdropped⟩ := hrest { p with dropped := p.dropped ++ [token] }
      subst hlenient
      refine ⟨q, hrun, hitems, ?_⟩
      rw [hdropped, List.filter_cons_of_pos hunknown, List.append_assoc, List.singleton_append]

/-- A pass goes on from where it has come to. -/
theorem run_append {strict : Bool} {p q : Pass} {before : List String}
    (h : run strict p before = (q, none)) (after : List String) :
    run strict p (before ++ after) = run strict q after := by
  induction before generalizing p with
  | nil =>
    cases h
    rfl
  | cons token before ih =>
    rw [run] at h
    rw [List.cons_append, run]
    cases htake : p.take strict token with
    | ok next =>
      rw [htake] at h
      exact ih h
    | error fault =>
      rw [htake] at h
      cases h

/-- A pass that refuses tokens stops at the first one without a meaning and has left none out. -/
theorem exists_run_strict_eq {before : List String} {token : String} (after : List String)
    (hbefore : ∀ t ∈ before, ¬ isUnrecognised t) (htoken : isUnrecognised token) (p : Pass) :
    ∃ q, run true p (before ++ token :: after) = (q, some (.malformedToken token)) ∧
      q.dropped = p.dropped := by
  obtain ⟨q, hrun, -, hdropped⟩ := exists_run_eq true (fun _ => hbefore) p
  have hkind : TokenKind.ofToken token = .unrecognised := by simpa [isUnrecognised] using htoken
  refine ⟨q, ?_, ?_⟩
  · rw [run_append hrun, run, take, hkind]
    rfl
  · rw [hdropped, List.filter_eq_nil_iff.2 hbefore, List.append_nil]

end Pass

/-- The tokens left out are those without a meaning. -/
theorem order_snd (waiting : List Operator) (tokens : List String) :
    (order waiting tokens).2 = tokens.filter isUnrecognised := by
  induction tokens generalizing waiting with
  | nil => rfl
  | cons token tokens ih =>
    rw [order]
    cases htoken : TokenKind.ofToken token with
    | number x =>
      have hknown : ¬ isUnrecognised token := by simp [isUnrecognised, htoken]
      rw [List.filter_cons_of_neg hknown, ← ih waiting]
    | operator o =>
      have hknown : ¬ isUnrecognised token := by simp [isUnrecognised, htoken]
      rw [List.filter_cons_of_neg hknown, ← ih (o :: waiting.dropWhile o.yieldsTo)]
    | unrecognised =>
      have hunknown : isUnrecognised token := by simp [isUnrecognised, htoken]
      rw [List.filter_cons_of_pos hunknown, ← ih waiting]

/-- Tokens are put in postfix order in one pass, and those left out are added to a list that may
hold others. The list comes back also when a token is refused. -/
def collect (strict : Bool) (dropped tokens : List String) :
    Except Fault (List Item) × List String :=
  match Pass.run strict ⟨[], [], dropped⟩ tokens with
  | (p, none) => (.ok p.items, p.dropped)
  | (p, some fault) => (.error fault, p.dropped)

/-- When no token is refused, the pass and the postfix order have the same items. -/
theorem exists_collect_eq (strict : Bool) (tokens : List String)
    (h : strict → ∀ token ∈ tokens, ¬ isUnrecognised token) (dropped : List String) :
    collect strict dropped tokens =
        (.ok (order [] tokens).1, dropped ++ tokens.filter isUnrecognised) ∧
      ofTokens strict tokens = .ok ((order [] tokens).1, tokens.filter isUnrecognised) ∧
      Item.IsRearranged (tokens.filterMap Item.ofToken?) (order [] tokens).1 := by
  obtain ⟨q, hrun, hitems, hdropped⟩ := Pass.exists_run_eq strict h ⟨[], [], dropped⟩
  rw [List.nil_append] at hitems
  have hstart : Pass.Carries ⟨[], [], dropped⟩ [] := ⟨[], [], rfl, rfl, .nil, .nil⟩
  have hend := hstart.run hrun
  rw [List.nil_append] at hend
  refine ⟨?_, ?_, hitems ▸ hend.isRearranged⟩
  · rw [collect, hrun]
    dsimp only
    rw [hitems, hdropped]
  · have hnone : (if strict then tokens.find? isUnrecognised else none) = none := by
      split_ifs with hstrict
      · exact List.find?_eq_none.2 (h hstrict)
      · rfl
    rw [ofTokens, hnone, ← order_snd []]

/-- Where tokens need not have a meaning, those without one are added in their order to the list of
tokens left out, and the items of the others are rearranged. Where every token must have a meaning,
the items are the same if they all do; otherwise the first one without a meaning is refused, and the
list stays as it was. -/
theorem isRearranged_collect (dropped tokens : List String) :
    ∃ items, collect false dropped tokens =
        (.ok items, dropped ++ tokens.filter isUnrecognised) ∧
      ofTokens false tokens = .ok (items, tokens.filter isUnrecognised) ∧
      Item.IsRearranged (tokens.filterMap Item.ofToken?) items ∧
      ((∀ token ∈ tokens, ¬ isUnrecognised token) →
        collect true dropped tokens = (.ok items, dropped) ∧
          ofTokens true tokens = .ok (items, [])) ∧
      ∀ before token after, tokens = before ++ token :: after →
        (∀ t ∈ before, ¬ isUnrecognised t) → isUnrecognised token →
        collect true dropped tokens = (.error (.malformedToken token), dropped) ∧
          ofTokens true tokens = .error (.malformedToken token) := by
  obtain ⟨hcollect, hofTokens, hrearranged⟩ :=
    exists_collect_eq false tokens nofun dropped
  refine ⟨_, hcollect, hofTokens, hrearranged, fun hknown => ?_, ?_⟩
  · have hnone : tokens.filter isUnrecognised = [] := List.filter_eq_nil_iff.2 hknown
    obtain ⟨hstrict, hofStrict, -⟩ := exists_collect_eq true tokens (fun _ => hknown) dropped
    rw [hnone, List.append_nil] at hstrict
    rw [hnone] at hofStrict
    exact ⟨hstrict, hofStrict⟩
  · rintro before token after rfl hbefore htoken
    obtain ⟨q, hrun, hdropped⟩ :=
      Pass.exists_run_strict_eq after hbefore htoken ⟨[], [], dropped⟩
    have hfirst : (before ++ token :: after).find? isUnrecognised = some token := by
      rw [List.find?_append, List.find?_eq_none.2 hbefore, List.find?_cons_of_pos htoken]
      rfl
    constructor
    · rw [collect, hrun]
      dsimp only
      rw [hdropped]
    · rw [ofTokens, if_pos rfl, hfirst]

end Postfix

end Keypad
