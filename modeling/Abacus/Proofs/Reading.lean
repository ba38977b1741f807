import Abacus.Program.Grammar
import Mathlib.Tactic.Common

/-!
# Readers step by step

What each reader does with the tokens in front of it, said once, so that no other module has to open
their definitions.

1. `Reader.extend` stops before anything but an operator of its tier, fails with its operand, or
   goes on behind that operand.  What one round keeps, the whole loop keeps (`extend_invariant`).
2. `Reader.factor` has one equation for every way in which it can end.
3. After a whole expression no operator is left to be read (`sum_endsAt`).
-/

namespace Abacus

/-! ## Operator tokens -/

theorem Op.ofSymbol?_eq_some_iff {symbol : String} {op : Op} :
    ofSymbol? symbol = some op ↔ symbol = op.symbol := by
  constructor
  · intro h
    unfold ofSymbol? at h
    split at h <;> simp only [Option.some.injEq, reduceCtorEq] at h <;> subst h <;> rfl
  · rintro rfl
    exact ofSymbol?_symbol op

/-- A token is the operator that its text names, on the tier of that operator and on no other. -/
theorem Token.operator?_eq_some_iff {t : Token} {tier : Tier} {op : Op} :
    t.operator? tier = some op ↔ t.IsOperator op ∧ op.tier = tier := by
  unfold Token.operator? Token.IsOperator
  by_cases hkind : t.kind = .operator
  · rw [if_pos hkind, Option.filter_eq_some_iff, Op.ofSymbol?_eq_some_iff]
    simp [hkind]
  · simp [hkind]

/-- Only tokens of one kind are operators. -/
theorem Token.operator?_eq_none {t : Token} (hkind : t.kind ≠ .operator) (tier : Tier) :
    t.operator? tier = none := by
  unfold Token.operator?
  rw [if_neg hkind]

/-- An operator of one tier is none of another. -/
theorem Token.operator?_eq_none_of_ne {t : Token} {tier other : Tier} {op : Op}
    (hop : t.operator? tier = some op) (hne : other ≠ tier) : t.operator? other = none := by
  rw [Option.eq_none_iff_forall_ne_some]
  intro op' hop'
  obtain ⟨⟨hkind, hsymbol⟩, htier⟩ := Token.operator?_eq_some_iff.mp hop
  obtain ⟨⟨_, hsymbol'⟩, htier'⟩ := Token.operator?_eq_some_iff.mp hop'
  have hsame : some op = some op' := by
    rw [← Op.ofSymbol?_symbol op, ← Op.ofSymbol?_symbol op', ← hsymbol, ← hsymbol']
  obtain rfl := Option.some.inj hsame
  exact hne (htier'.symm.trans htier)

/-- No operator of the tier comes next, so an expression of that tier ends here. -/
def Tier.EndsAt (tier : Tier) (rest : List Token) : Prop :=
  ∀ t after, rest = t :: after → t.operator? tier = none

theorem Tier.endsAt_nil (tier : Tier) : tier.EndsAt [] := by
  intro t after h
  exact absurd h (by simp)

theorem Tier.endsAt_cons {tier : Tier} {t : Token} {after : List Token} :
    tier.EndsAt (t :: after) ↔ t.operator? tier = none := by
  constructor
  · intro h
    exact h t after rfl
  · intro h t' after' heq
    obtain ⟨rfl, rfl⟩ := List.cons.inj heq
    exact h

namespace Reader

/-! ## Operators and their operands -/

section Extend

variable {operand : Reader} {tier : Tier} {tokens after : List Token} {left : Reading tokens}
  {t : Token} {op : Op}

theorem extend_of_endsAt (hends : tier.EndsAt left.rest) :
    extend operand tier left = .ok left := by
  rw [extend]
  split
  · rfl
  · next t after hrest =>
    rw [hends t after hrest]

theorem extend_of_error {e : ParseError} (hrest : left.rest = t :: after)
    (hop : t.operator? tier = some op) (hright : operand after = .error e) :
    extend operand tier left = .error e := by
  rw [extend]
  split
  · next hnil => exact absurd (hrest.symm.trans hnil) (by simp)
  · next t' after' hrest' =>
    obtain ⟨rfl, rfl⟩ := List.cons.inj (hrest.symm.trans hrest')
    rw [hop]
    simp only
    rw [hright]

theorem extend_of_ok {right : Reading after} (hrest : left.rest = t :: after)
    (hop : t.operator? tier = some op) (hright : operand after = .ok right) :
    extend operand tier left = extend operand tier (left.join op hrest right) := by
  rw [extend]
  split
  · next hnil => exact absurd (hrest.symm.trans hnil) (by simp)
  · next t' after' hrest' =>
    obtain ⟨rfl, rfl⟩ := List.cons.inj (hrest.symm.trans hrest')
    rw [hop]
    simp only
    rw [hright]

/-- The ways in which the loop can go on from a reading, for any property of the reading that it
begins with and the result that it ends in. -/
theorem extend_induction {P : Reading tokens → Except ParseError (Reading tokens) → Prop}
    (hstop : ∀ left : Reading tokens, tier.EndsAt left.rest → P left (.ok left))
    (hfail : ∀ (left : Reading tokens) (t : Token) (after : List Token) (op : Op) (e : ParseError),
      left.rest = t :: after → t.operator? tier = some op → operand after = .error e →
      P left (.error e))
    (hjoin : ∀ (left : Reading tokens) (t : Token) (after : List Token) (op : Op)
      (hrest : left.rest = t :: after) (right : Reading after)
      (result : Except ParseError (Reading tokens)), t.operator? tier = some op →
      operand after = .ok right → P (left.join op hrest right) result → P left result)
    (left : Reading tokens) : P left (extend operand tier left) := by
  induction left using extend.induct operand tier with
  | case1 left hrest =>
    have hends : tier.EndsAt left.rest := by
      rw [hrest]
      exact tier.endsAt_nil
    rw [extend_of_endsAt hends]
    exact hstop left hends
  | case2 left t after hrest hop =>
    have hends : tier.EndsAt left.rest := by
      rw [hrest]
      exact Tier.endsAt_cons.mpr hop
    rw [extend_of_endsAt hends]
    exact hstop left hends
  | case3 left t after hrest op hop e hright =>
    rw [extend_of_error hrest hop hright]
    exact hfail left t after op e hrest hop hright
  | case4 left t after hrest op hop right hright ih =>
    rw [extend_of_ok hrest hop hright]
    exact hjoin left t after op hrest right _ hop hright ih

/-- What holds of the reading that the loop begins with, and is kept when an operand is joined to
it, holds of the reading that the loop ends with.  It ends where no operator of the tier follows. -/
theorem extend_invariant {P : Reading tokens → Prop}
    (hjoin : ∀ (left : Reading tokens) (t : Token) (after : List Token) (op : Op)
      (hrest : left.rest = t :: after) (right : Reading after), t.operator? tier = some op →
      operand after = .ok right → P left → P (left.join op hrest right))
    {r : Reading tokens} (hleft : P left) (h : extend operand tier left = .ok r) :
    P r ∧ tier.EndsAt r.rest := by
  have hloop : P left → ∀ r, extend operand tier left = .ok r → P r ∧ tier.EndsAt r.rest := by
    refine extend_induction (P := fun left result =>
      P left → ∀ r, result = .ok r → P r ∧ tier.EndsAt r.rest) ?_ ?_ ?_ left
    · intro left hends hleft r hr
      obtain rfl := Except.ok.inj hr
      exact ⟨hleft, hends⟩
    · intro left t after op e _ _ _ _ r hr
      exact absurd hr (by simp)
    · intro left t after op hrest right result hop hright ih hleft
      exact ih (hjoin left t after op hrest right hop hright hleft)
  exact hloop hleft r h

end Extend

theorem chain_of_error {operand : Reader} {tier : Tier} {tokens : List Token} {e : ParseError}
    (h : operand tokens = .error e) : chain operand tier tokens = .error e := by
  unfold chain
  rw [h]

theorem chain_of_ok {operand : Reader} {tier : Tier} {tokens : List Token}
    {first : Reading tokens} (h : operand tokens = .ok first) :
    chain operand tier tokens = extend operand tier first := by
  unfold chain
  rw [h]

/-- The invariant of the loop, for a chain: it holds after the first operand and is kept when
another one is joined. -/
theorem chain_invariant {operand : Reader} {tier : Tier} {tokens : List Token}
    {P : Reading tokens → Prop} (hfirst : ∀ first, operand tokens = .ok first → P first)
    (hjoin : ∀ (left : Reading tokens) (t : Token) (after : List Token) (op : Op)
      (hrest : left.rest = t :: after) (right : Reading after), t.operator? tier = some op →
      operand after = .ok right → P left → P (left.join op hrest right))
    {r : Reading tokens} (h : chain operand tier tokens = .ok r) :
    P r ∧ tier.EndsAt r.rest := by
  cases hoperand : operand tokens with
  | error e =>
    rw [chain_of_error hoperand] at h
    exact absurd h (by simp)
  | ok first =>
    rw [chain_of_ok hoperand] at h
    exact extend_invariant hjoin (hfirst first hoperand) h

/-- After a whole expression no operator comes next: none of the looser tier because the outer loop
has ended, and none of the tighter one because the loop of the last operand had. -/
theorem sum_endsAt {factor : Reader} {tokens : List Token} {r : Reading tokens}
    (h : sum factor tokens = .ok r) (tier : Tier) : tier.EndsAt r.rest := by
  have hproduct : ∀ {tokens : List Token} {r : Reading tokens},
      chain factor .product tokens = .ok r → Tier.product.EndsAt r.rest := by
    intro tokens r hr
    have hinv := chain_invariant (P := fun _ => True) (fun _ _ => trivial)
      (fun _ _ _ _ _ _ _ _ _ => trivial) hr
    exact hinv.2
  have hboth : Tier.product.EndsAt r.rest ∧ Tier.sum.EndsAt r.rest := by
    refine chain_invariant (P := fun r => Tier.product.EndsAt r.rest) ?_ ?_ h
    · intro first hfirst
      exact hproduct hfirst
    · intro left t after op hrest right _ hright _
      -- a joined reading ends where its right operand does
      show Tier.product.EndsAt right.rest
      exact hproduct hright
  cases tier with
  | sum => exact hboth.2
  | product => exact hboth.1

/-! ## Factors -/

section Factor

variable {stop t closing : Token} {room : Nat} {rest after : List Token} {inner : Reading rest}

theorem factor_identifier (hkind : t.kind = .identifier) :
    factor stop room (t :: rest) = .ok (.leaf (.name t.lexeme) t rest) := by
  rw [factor.eq_def]
  simp only [hkind]

theorem factor_number {x : Float} (hkind : t.kind = .number)
    (hvalue : Numeral.read? t.lexeme = some x) :
    factor stop room (t :: rest) = .ok (.leaf (.number x) t rest) := by
  rw [factor.eq_def]
  simp only [hkind, hvalue]

theorem factor_invalidNumber (hkind : t.kind = .number) (hvalue : Numeral.read? t.lexeme = none) :
    factor stop room (t :: rest) = .error (.invalidNumber t) := by
  rw [factor.eq_def]
  simp only [hkind, hvalue]

theorem factor_unexpected (hname : t.kind ≠ .identifier) (hnumber : t.kind ≠ .number)
    (hopen : t.kind ≠ .openParen) : factor stop room (t :: rest) = .error (.unexpected t) := by
  rw [factor.eq_def]
  -- the three conditions rule out every other branch
  simp only

theorem factor_nestingTooDeep (hkind : t.kind = .openParen) :
    factor stop 0 (t :: rest) = .error (.nestingTooDeep t maxNesting) := by
  rw [factor.eq_def]
  simp only [hkind]

theorem factor_group_error {e : ParseError} (hkind : t.kind = .openParen)
    (hinner : sum (factor stop room) rest = .error e) :
    factor stop (room + 1) (t :: rest) = .error e := by
  rw [factor.eq_def]
  simp only [hkind, hinner]

theorem factor_group_unclosed (hkind : t.kind = .openParen)
    (hinner : sum (factor stop room) rest = .ok inner) (hrest : inner.rest = []) :
    factor stop (room + 1) (t :: rest) = .error (.expected .closeParen stop) := by
  rw [factor.eq_def]
  simp only [hkind, hinner]
  split
  · rfl
  · next hcons => exact absurd (hrest.symm.trans hcons) (by simp)

theorem factor_group_misclosed (hkind : t.kind = .openParen)
    (hinner : sum (factor stop room) rest = .ok inner) (hrest : inner.rest = closing :: after)
    (hclosing : closing.kind ≠ .closeParen) :
    factor stop (room + 1) (t :: rest) = .error (.expected .closeParen closing) := by
  rw [factor.eq_def]
  simp only [hkind, hinner]
  split
  · next hnil => exact absurd (hrest.symm.trans hnil) (by simp)
  · next hcons =>
    obtain ⟨rfl, rfl⟩ := List.cons.inj (hrest.symm.trans hcons)
    rw [if_neg hclosing]

theorem factor_group (hkind : t.kind = .openParen)
    (hinner : sum (factor stop room) rest = .ok inner) (hrest : inner.rest = closing :: after)
    (hclosing : closing.kind = .closeParen) :
    factor stop (room + 1) (t :: rest) = .ok (inner.group t hrest) := by
  rw [factor.eq_def]
  simp only [hkind, hinner]
  split
  · next hnil => exact absurd (hrest.symm.trans hnil) (by simp)
  · next hcons =>
    obtain ⟨rfl, rfl⟩ := List.cons.inj (hrest.symm.trans hcons)
    rw [if_pos hclosing]

/-- A factor that was read is a name, a number, or a grouping that was closed. -/
theorem factor_eq_ok {tokens : List Token} {r : Reading tokens}
    (h : factor stop room tokens = .ok r) :
    (∃ t, tokens = t :: r.rest ∧ t.kind = .identifier ∧ r.tree = .name t.lexeme) ∨
      (∃ t x, tokens = t :: r.rest ∧ t.kind = .number ∧ Numeral.read? t.lexeme = some x ∧
        r.tree = .number x) ∨
      ∃ room' opening inside closing, ∃ inner : Reading inside,
        room = room' + 1 ∧ tokens = opening :: inside ∧ opening.kind = .openParen ∧
          sum (factor stop room') inside = .ok inner ∧ inner.rest = closing :: r.rest ∧
          closing.kind = .closeParen ∧ r.tree = inner.tree := by
  rcases tokens with _ | ⟨t, rest⟩
  · rw [factor_nil] at h
    exact absurd h (by simp)
  by_cases hname : t.kind = .identifier
  · rw [factor_identifier hname] at h
    obtain rfl := Except.ok.inj h
    exact .inl ⟨t, rfl, hname, rfl⟩
  by_cases hnumber : t.kind = .number
  · cases hvalue : Numeral.read? t.lexeme with
    | none =>
      rw [factor_invalidNumber hnumber hvalue] at h
      exact absurd h (by simp)
    | some x =>
      rw [factor_number hnumber hvalue] at h
      obtain rfl := Except.ok.inj h
      exact .inr (.inl ⟨t, x, rfl, hnumber, hvalue, rfl⟩)
  by_cases hopen : t.kind = .openParen
  swap
  · rw [factor_unexpected hname hnumber hopen] at h
    exact absurd h (by simp)
  -- only an opening parenthesis is left, and it needs room, an inner expression and a partner
  rcases room with _ | room
  · rw [factor_nestingTooDeep hopen] at h
    exact absurd h (by simp)
  cases hinner : sum (factor stop room) rest with
  | error e =>
    rw [factor_group_error hopen hinner] at h
    exact absurd h (by simp)
  | ok inner =>
    cases hrest : inner.rest with
    | nil =>
      rw [factor_group_unclosed hopen hinner hrest] at h
      exact absurd h (by simp)
    | cons closing after =>
      by_cases hclosing : closing.kind = .closeParen
      · rw [factor_group hopen hinner hrest hclosing] at h
        obtain rfl := Except.ok.inj h
        exact .inr (.inr ⟨room, t, rest, closing, inner, rfl, rfl, hopen, hinner, hrest, hclosing,
          rfl⟩)
      · rw [factor_group_misclosed hopen hinner hrest hclosing] at h
        exact absurd h (by simp)

end Factor

end Reader

end Abacus
