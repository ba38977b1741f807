import Abacus.Proofs.Reading

/-!
# Readers and the grammar

The readers read exactly what the grammar derives.

1. Soundness: what a reader takes off the front of the tokens is derived (`factor_sound`,
   `statement_sound`).
2. Completeness: a reader that stands before derived tokens takes all of them and builds their tree
   (`Derives.accepts`).  The loop of a tier runs *through* every expression of the tier, whatever
   follows; it stops there when no operator follows.  One token is enough to tell, so no derivation
   is ever left for another one.
3. Both carry over to rows of statements (`readStatements_eq_ok_iff`), because no statement begins
   with an operator.
-/

namespace Abacus

/-! ## The rules of a tier -/

section Tier

variable {room : Nat} {tier : Tier} {tokens before after : List Token} {t : Token} {op : Op}
  {e l r : Expr}

/-- An operand alone is an expression of its tier. -/
theorem Derives.ofOperand (h : Derives room tier.level.tighter tokens e) :
    Derives room tier.level tokens e := by
  cases tier with
  | sum => exact .ofProduct h
  | product => exact .ofFactor h

/-- An expression of a tier goes on with an operator of that tier and one more operand. -/
theorem Derives.join (hleft : Derives room tier.level before l) (hop : t.operator? tier = some op)
    (hright : Derives room tier.level.tighter after r) :
    Derives room tier.level (before ++ t :: after) (.binary op l r) := by
  obtain ⟨hoperator, htier⟩ := Token.operator?_eq_some_iff.mp hop
  cases tier with
  | sum => exact .sum hleft hoperator htier hright
  | product => exact .product hleft hoperator htier hright

end Tier

namespace Reader

/-! ## Soundness -/

/-- Whatever the reader reads is derived at the level from the tokens that it takes off the front. -/
def Sound (reader : Reader) (room : Nat) (level : Level) : Prop :=
  ∀ (tokens : List Token) (r : Reading tokens), reader tokens = .ok r →
    ∃ front, tokens = front ++ r.rest ∧ Derives room level front r.tree

theorem chain_sound {operand : Reader} {room : Nat} {tier : Tier}
    (hoperand : operand.Sound room tier.level.tighter) :
    (chain operand tier).Sound room tier.level := by
  intro tokens r h
  refine (chain_invariant (P := fun r => ∃ front, tokens = front ++ r.rest ∧
    Derives room tier.level front r.tree) ?_ ?_ h).1
  · intro first hfirst
    obtain ⟨front, htokens, hderives⟩ := hoperand tokens first hfirst
    exact ⟨front, htokens, hderives.ofOperand⟩
  · intro left t after op hrest right hop hright hleft
    obtain ⟨front, htokens, hderives⟩ := hleft
    obtain ⟨next, hafter, hnext⟩ := hoperand after right hright
    refine ⟨front ++ t :: next, ?_, hderives.join hop hnext⟩
    calc tokens = front ++ t :: after := by rw [htokens, hrest]
      _ = front ++ t :: (next ++ right.rest) := congrArg (front ++ t :: ·) hafter
      _ = front ++ t :: next ++ right.rest := by simp

theorem sum_sound {factor : Reader} {room : Nat} (h : factor.Sound room .factor) :
    (sum factor).Sound room .sum := by
  have hproduct : (chain factor .product).Sound room Tier.product.level := chain_sound h
  have hsum : (chain (chain factor .product) .sum).Sound room Tier.sum.level :=
    chain_sound hproduct
  exact hsum

/-- By induction on the room: a grouping spends one level of it, and what stands inside was read
with the rest. -/
theorem factor_sound (stop : Token) (room : Nat) : (factor stop room).Sound room .factor := by
  induction room using Nat.strongRecOn with
  | ind room ih =>
    intro tokens r h
    rcases factor_eq_ok h with ⟨t, htokens, hkind, htree⟩ | ⟨t, x, htokens, hkind, hvalue, htree⟩ |
      ⟨room, opening, inside, closing, inner, rfl, htokens, hopen, hinner, hrest, hclosing, htree⟩
    · refine ⟨[t], htokens, ?_⟩
      rw [htree]
      exact .name hkind
    · refine ⟨[t], htokens, ?_⟩
      rw [htree]
      exact .number hkind hvalue
    · have hsum := sum_sound (ih room (Nat.lt_succ_self room))
      obtain ⟨front, hinside, hderives⟩ := hsum inside inner hinner
      refine ⟨opening :: front ++ [closing], ?_, ?_⟩
      · calc tokens = opening :: inside := htokens
          _ = opening :: (front ++ closing :: r.rest) := by rw [← hrest, ← hinside]
          _ = opening :: front ++ [closing] ++ r.rest := by simp
      · rw [htree]
        exact .group hopen hclosing hderives

theorem statement_sound (stop : Token) : (statement stop).Sound maxNesting .sum :=
  sum_sound (factor_sound stop maxNesting)

/-! ## Completeness -/

/-- The reader reads `e` and leaves `rest`. -/
def Gives (reader : Reader) (tokens : List Token) (e : Expr) (rest : List Token) : Prop :=
  ∃ r : Reading tokens, reader tokens = .ok r ∧ r.tree = e ∧ r.rest = rest

/-- The loop of the tier comes to the point where it has read `e` and `rest` is left. -/
def Passes (operand : Reader) (tier : Tier) (tokens : List Token) (e : Expr)
    (rest : List Token) : Prop :=
  ∃ r : Reading tokens, chain operand tier tokens = extend operand tier r ∧ r.tree = e ∧
    r.rest = rest

section Passes

variable {operand : Reader} {tier : Tier} {tokens after rest : List Token} {t : Token} {op : Op}
  {e e' : Expr}

/-- The loop begins behind its first operand. -/
theorem Gives.passes (h : operand.Gives tokens e rest) : operand.Passes tier tokens e rest := by
  obtain ⟨first, hfirst, htree, hrest⟩ := h
  exact ⟨first, chain_of_ok hfirst, htree, hrest⟩

/-- One round of the loop. -/
theorem Passes.join (h : operand.Passes tier tokens e (t :: after))
    (hop : t.operator? tier = some op) (hright : operand.Gives after e' rest) :
    operand.Passes tier tokens (.binary op e e') rest := by
  obtain ⟨left, hloop, rfl, hrest⟩ := h
  obtain ⟨right, hoperand, rfl, rfl⟩ := hright
  refine ⟨left.join op hrest right, ?_, rfl, rfl⟩
  rw [hloop]
  exact extend_of_ok hrest hop hoperand

/-- The loop stops where no operator of its tier follows. -/
theorem Passes.gives (h : operand.Passes tier tokens e rest) (hends : tier.EndsAt rest) :
    (chain operand tier).Gives tokens e rest := by
  obtain ⟨r, hloop, htree, rfl⟩ := h
  refine ⟨r, ?_, htree, rfl⟩
  rw [hloop]
  exact extend_of_endsAt hends

end Passes

/-- How the readers deal with tokens that are derived at a level with the tree `e` when `rest`
follows them.  A factor ends by itself; a loop is only passed through. -/
def Accepts (stop : Token) (room : Nat) (level : Level) (tokens : List Token) (e : Expr)
    (rest : List Token) : Prop :=
  match level with
  | .factor => (factor stop room).Gives (tokens ++ rest) e rest
  | .product => (factor stop room).Passes .product (tokens ++ rest) e rest
  | .sum => Tier.product.EndsAt rest →
    (chain (factor stop room) .product).Passes .sum (tokens ++ rest) e rest

theorem Accepts.gives {stop : Token} {room : Nat} {tokens rest : List Token} {e : Expr}
    (h : Accepts stop room .sum tokens e rest) (hends : ∀ tier : Tier, tier.EndsAt rest) :
    (sum (factor stop room)).Gives (tokens ++ rest) e rest := by
  have hpasses : (chain (factor stop room) .product).Passes .sum (tokens ++ rest) e rest :=
    h (hends .product)
  exact hpasses.gives (hends .sum)

end Reader

/-- By induction on the derivation, for whatever follows it.  An operator rule is one more round of
the loop that its left operand has already been through. -/
theorem Derives.accepts {room : Nat} {level : Level} {tokens : List Token} {e : Expr}
    (h : Derives room level tokens e) (stop : Token) (rest : List Token) :
    Reader.Accepts stop room level tokens e rest := by
  induction h generalizing rest with
  | name hkind => exact ⟨_, Reader.factor_identifier hkind, rfl, rfl⟩
  | number hkind hvalue => exact ⟨_, Reader.factor_number hkind hvalue, rfl, rfl⟩
  | @group room opening closing inner e hopen hclosing _ ih =>
    -- the closing parenthesis is no operator, so the expression inside ends before it
    have hends : ∀ tier : Tier, tier.EndsAt (closing :: rest) := by
      intro tier
      exact Tier.endsAt_cons.mpr (Token.operator?_eq_none (by simp [hclosing]) tier)
    have hlist : opening :: inner ++ [closing] ++ rest = opening :: (inner ++ closing :: rest) := by
      simp
    obtain ⟨r, hsum, htree, hrest⟩ := (ih (closing :: rest)).gives hends
    show (Reader.factor stop (room + 1)).Gives _ _ _
    rw [hlist]
    exact ⟨_, Reader.factor_group hopen hsum hrest hclosing, htree, rfl⟩
  | ofFactor _ ih => exact (ih rest).passes
  | @product room before after t op l r _ hoperator htier _ ihl ihr =>
    have hop : t.operator? .product = some op := Token.operator?_eq_some_iff.mpr ⟨hoperator, htier⟩
    have hleft : (Reader.factor stop room).Passes .product _ l (t :: (after ++ rest)) :=
      ihl (t :: (after ++ rest))
    show (Reader.factor stop room).Passes .product _ _ _
    simpa using hleft.join hop (ihr rest)
  | ofProduct _ ih =>
    intro hends
    exact (Reader.Passes.gives (ih rest) hends).passes
  | @sum room before after t op l r _ hoperator htier _ ihl ihr =>
    intro hends
    have hop : t.operator? .sum = some op := Token.operator?_eq_some_iff.mpr ⟨hoperator, htier⟩
    -- an operator of the looser tier ends the operand before it
    have hbefore : Tier.product.EndsAt (t :: (after ++ rest)) :=
      Tier.endsAt_cons.mpr (Token.operator?_eq_none_of_ne hop (by decide))
    have hleft := ihl (t :: (after ++ rest)) hbefore
    have hright := Reader.Passes.gives (ihr rest) hends
    simpa using hleft.join hop hright

/-! ## Statements -/

/-- No expression begins with an operator. -/
theorem Derives.head_kind {room : Nat} {level : Level} {tokens : List Token} {e : Expr}
    (h : Derives room level tokens e) : ∃ t after, tokens = t :: after ∧ t.kind ≠ .operator := by
  induction h with
  | name hkind => exact ⟨_, _, rfl, by simp [hkind]⟩
  | number hkind _ => exact ⟨_, _, rfl, by simp [hkind]⟩
  | group hopen _ _ _ => exact ⟨_, _, rfl, by simp [hopen]⟩
  | ofFactor _ ih => exact ih
  | ofProduct _ ih => exact ih
  | product _ _ _ _ ihl _ =>
    obtain ⟨t, after, rfl, hkind⟩ := ihl
    exact ⟨t, _, rfl, hkind⟩
  | sum _ _ _ _ ihl _ =>
    obtain ⟨t, after, rfl, hkind⟩ := ihl
    exact ⟨t, _, rfl, hkind⟩

/-- The kinds of token that some rule of the grammar uses. -/
def Token.Kind.inGrammar : List Token.Kind :=
  [.identifier, .number, .openParen, .closeParen, .operator]

/-- No other kind of token stands in an expression. -/
theorem Derives.kind_mem {room : Nat} {level : Level} {tokens : List Token} {e : Expr}
    (h : Derives room level tokens e) : ∀ t ∈ tokens, t.kind ∈ Token.Kind.inGrammar := by
  induction h with
  | name hkind => simp [hkind, Token.Kind.inGrammar]
  | number hkind _ => simp [hkind, Token.Kind.inGrammar]
  | group hopens hcloses _ ih =>
    rw [List.cons_append]
    refine List.forall_mem_cons.mpr ⟨by simp [hopens, Token.Kind.inGrammar], ?_⟩
    exact List.forall_mem_append.mpr ⟨ih, by simp [hcloses, Token.Kind.inGrammar]⟩
  | ofFactor _ ih => exact ih
  | ofProduct _ ih => exact ih
  | product _ hop _ _ ihl ihr =>
    refine List.forall_mem_append.mpr ⟨ihl, List.forall_mem_cons.mpr ⟨?_, ihr⟩⟩
    simp [hop.1, Token.Kind.inGrammar]
  | sum _ hop _ _ ihl ihr =>
    refine List.forall_mem_append.mpr ⟨ihl, List.forall_mem_cons.mpr ⟨?_, ihr⟩⟩
    simp [hop.1, Token.Kind.inGrammar]

theorem Derives.isEnd_eq_false {room : Nat} {level : Level} {tokens : List Token} {e : Expr}
    (h : Derives room level tokens e) : ∀ t ∈ tokens, t.isEnd = false := by
  intro t ht
  rw [Bool.eq_false_iff]
  intro hend
  have hkind := h.kind_mem t ht
  rw [of_decide_eq_true hend] at hkind
  exact absurd hkind (by decide)

/-- Every expression ends where a row of statements begins. -/
theorem IsProgram.endsAt {tokens : List Token} {program : Program} (h : IsProgram tokens program)
    (tier : Tier) : tier.EndsAt tokens := by
  cases h with
  | nil => exact tier.endsAt_nil
  | cons hstatement _ =>
    obtain ⟨t, after, rfl, hkind⟩ := hstatement.head_kind
    exact Tier.endsAt_cons.mpr (Token.operator?_eq_none hkind tier)

namespace Program

variable {stop : Token} {body : Program} {records : List StatementRecord} {soFar : StatementRecord}

theorem readStatements_of_error {tokens : List Token} {e : ParseError} (hne : tokens ≠ [])
    (h : Reader.statement stop tokens = .error e) :
    (readStatements stop body records soFar tokens).result = .error e := by
  rcases tokens with _ | ⟨t, rest⟩
  · exact absurd rfl hne
  · rw [readStatements, h]

theorem readStatements_of_ok {tokens : List Token} {r : Reading tokens}
    (h : Reader.statement stop tokens = .ok r) :
    readStatements stop body records soFar tokens =
      readStatements stop (r.tree :: body)
        (⟨soFar.index + 1, soFar.cursor + r.used⟩ :: records)
        ⟨soFar.index + 1, soFar.cursor + r.used⟩ r.rest := by
  rcases tokens with _ | ⟨t, rest⟩
  · exact absurd r.length_rest_lt (by simp)
  · rw [readStatements, h]

theorem readStatements_nil :
    readStatements stop body records soFar [] = ⟨records.reverse, .ok body.reverse⟩ := by
  rw [readStatements]

/-- The statements that are read are those of the grammar, behind the ones read before. -/
theorem readStatements_sound {tokens : List Token} {all : Program}
    (h : (readStatements stop body records soFar tokens).result = .ok all) :
    ∃ program, all = body.reverse ++ program ∧ IsProgram tokens program := by
  induction body, records, soFar, tokens using readStatements.induct stop with
  | case1 body records soFar =>
    rw [readStatements_nil] at h
    obtain rfl := Except.ok.inj h
    exact ⟨[], by simp, .nil⟩
  | case2 body records soFar t rest e hread =>
    rw [readStatements_of_error (by simp) hread] at h
    exact absurd h (by simp)
  | case3 body records soFar t rest r hread record ih =>
    rw [readStatements_of_ok hread] at h
    obtain ⟨program, hall, hprogram⟩ := ih h
    obtain ⟨front, htokens, hderives⟩ := Reader.statement_sound stop (t :: rest) r hread
    refine ⟨r.tree :: program, ?_, ?_⟩
    · rw [hall]
      simp
    · have hcons := IsProgram.cons hderives hprogram
      rwa [← htokens] at hcons

/-- Every row of statements is read, statement by statement. -/
theorem readStatements_complete {tokens : List Token} {program : Program}
    (h : IsProgram tokens program) :
    (readStatements stop body records soFar tokens).result = .ok (body.reverse ++ program) := by
  induction h generalizing body records soFar with
  | nil =>
    rw [readStatements_nil]
    simp
  | cons hstatement hothers ih =>
    obtain ⟨r, hread, htree, hrest⟩ := (hstatement.accepts stop _).gives hothers.endsAt
    rw [readStatements_of_ok hread, hrest, ih, htree]
    simp

theorem readStatements_eq_ok_iff {tokens : List Token} {program : Program} :
    (readStatements stop [] [] ⟨0, 0⟩ tokens).result = .ok program ↔ IsProgram tokens program := by
  constructor
  · intro h
    obtain ⟨program', rfl, hprogram⟩ := readStatements_sound h
    exact hprogram
  · intro h
    exact readStatements_complete h

end Program

end Abacus
