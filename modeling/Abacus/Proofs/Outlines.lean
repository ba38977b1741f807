import Abacus.Proofs.Dumps
import Abacus.Proofs.Writing

/-!
# Outlines of programs

The outline of a program that was read from a source shows all of it, as long as no name is written
like a number.

1. A number that digits stand for is written in digits that stand for it, or as `inf` if it is
   infinite (`Numeral.StandsFor.write_cases`).  So a leaf can be told from its text
   (`Expr.IsLeaf.unique`), and it ends where digits and letters do.
2. `Outlined depth text e` says that `text` is an outline of `e`, without a word on how it is
   written.  The outline of a tree is one (`Expr.outlined_outlineAt`).
3. An outline can be told from what follows it, line by line and operand by operand
   (`Expr.Outlined.append_inj`).  So the statements of a program can be told from their outlines
   (`Program.outlines_inj`).
-/

namespace Abacus

/-! ## Leaves -/

/-- A number that digits stand for is infinite, or it is written in digits that stand for it. -/
theorem Numeral.StandsFor.write_cases {ds : List Char} {x : Float} (h : StandsFor ds x) :
    (Decimal.Style.plain.write x = "inf" ∧ x = Binary64.ofNumber false Binary64.infinity) ∨
      StandsFor (Decimal.Style.plain.write x).toList x := by
  obtain ⟨hne, hdigits, hread⟩ := id h
  rw [read?_of_digits hne hdigits] at hread
  have hle := Decimal.nearest_le_infinity ⟨valueOf ds, (0 : Nat)⟩
  have hnumber := Binary64.number_ofNumber hle
  have hsign := Binary64.isNegative_ofNumber hle
  rw [Option.some.inj hread] at hnumber hsign
  by_cases hinfinite : Binary64.number x = Binary64.infinity
  · left
    constructor
    · unfold Decimal.Style.write
      simp [hinfinite, hsign]
    · rw [← Option.some.inj hread, ← hnumber, hinfinite]
  · -- what is written is what the source of the number would be
    right
    have hstands := Expr.standsFor_digits h
    rwa [Expr.digits, if_neg hinfinite] at hstands

namespace Expr

/-- The text of a leaf that a source can have: `inf` or digits for a number, and letters for a name,
which must not be taken for the number. -/
def IsLeaf (text : List Char) : Expr → Prop
  | .number x =>
    (text = "inf".toList ∧ x = Binary64.ofNumber false Binary64.infinity) ∨ Numeral.StandsFor text x
  | .name word => text = word.toList ∧ word ≠ "" ∧ word.toList.all Text.isCased ∧ word ≠ "inf"
  | _ => False

/-- Whether a character belongs to a word: digits and letters do. -/
def isWord (c : Char) : Bool := c.isDigit || Text.isCased c

theorem isCased_inf : "inf".toList.all Text.isCased = true := by decide +kernel

theorem not_standsFor_of_isCased {text : List Char} {x : Float}
    (h : ∀ c ∈ text, Text.isCased c = true) : ¬ Numeral.StandsFor text x := by
  rintro ⟨hne, hdigits, _⟩
  obtain ⟨c, rest, rfl⟩ := List.exists_cons_of_ne_nil hne
  have hletter := Role.of?_of_isCased (h c (by simp))
  rw [Role.of?_of_isDigit (hdigits c (by simp))] at hletter
  exact absurd hletter (by simp)

section IsLeaf

variable {text : List Char} {e e' : Expr}

theorem IsLeaf.isWord (h : IsLeaf text e) : ∀ c ∈ text, isWord c = true := by
  intro c hc
  cases e with
  | number x =>
    rcases h with ⟨rfl, _⟩ | ⟨_, hdigits, _⟩
    · simp [Expr.isWord, List.all_eq_true.mp isCased_inf c hc]
    · simp [Expr.isWord, hdigits c hc]
  | name word =>
    rcases h with ⟨rfl, _, hcased, _⟩
    simp [Expr.isWord, List.all_eq_true.mp hcased c hc]
  | null => exact h.elim
  | binary op l r => exact h.elim

theorem IsLeaf.ne_nil (h : IsLeaf text e) : text ≠ [] := by
  cases e with
  | number x =>
    rcases h with ⟨rfl, _⟩ | ⟨hne, _, _⟩
    · simp
    · exact hne
  | name word =>
    rcases h with ⟨rfl, hne, _⟩
    simpa using hne
  | null => exact h.elim
  | binary op l r => exact h.elim

theorem IsLeaf.number_ne_name {x : Float} {word : String} (h : IsLeaf text (.number x)) :
    ¬ IsLeaf text (.name word) := by
  rintro ⟨hword, _, hcased, hinf⟩
  rcases h with ⟨htext, _⟩ | hstands
  · exact hinf (String.toList_inj.mp (hword.symm.trans htext))
  · rw [hword] at hstands
    exact not_standsFor_of_isCased (List.all_eq_true.mp hcased) hstands

/-- No two numbers have the same text. -/
theorem IsLeaf.number_unique {x y : Float} (h : IsLeaf text (.number x))
    (h' : IsLeaf text (.number y)) : x = y := by
  have hinf : ∀ z, ¬ Numeral.StandsFor "inf".toList z := fun _ =>
    not_standsFor_of_isCased (List.all_eq_true.mp isCased_inf)
  rcases h with ⟨rfl, hx⟩ | hstands
  · rcases h' with ⟨_, hy⟩ | hstands'
    · exact hx.trans hy.symm
    · exact absurd hstands' (hinf y)
  · rcases h' with ⟨rfl, _⟩ | hstands'
    · exact absurd hstands (hinf x)
    · exact Option.some.inj (hstands.2.2.symm.trans hstands'.2.2)

/-- A leaf can be told from its text. -/
theorem IsLeaf.unique (h : IsLeaf text e) (h' : IsLeaf text e') : e = e' := by
  cases e with
  | number x =>
    cases e' with
    | number y => rw [h.number_unique h']
    | name word => exact absurd h' h.number_ne_name
    | null => exact h'.elim
    | binary op l r => exact h'.elim
  | name word =>
    cases e' with
    | number y => exact absurd h h'.number_ne_name
    | name word' => rw [String.toList_inj.mp (h.1.symm.trans h'.1)]
    | null => exact h'.elim
    | binary op l r => exact h'.elim
  | null => exact h.elim
  | binary op l r => exact h.elim

end IsLeaf

/-! ## Trees -/

/-- The text is an outline of the tree, `depth` tabs in. -/
inductive Outlined : (depth : Nat) → List Char → Expr → Prop
  | leaf {depth : Nat} {text : List Char} {e : Expr} (isLeaf : IsLeaf text e) :
    Outlined depth (List.replicate depth '\t' ++ text) e
  | binary {depth : Nat} {op : Op} {left right : List Char} {l r : Expr}
    (ofLeft : Outlined (depth + 1) left l) (ofRight : Outlined (depth + 1) right r) :
    Outlined depth (List.replicate depth '\t' ++ (op.symbol.toList ++ '(' :: '\n' ::
      (left ++ ',' :: '\n' :: (right ++ [')'])))) (.binary op l r)

/-- Whether a tree can be told from its outline: it can be written in a source, and no name in it is
written like a number. -/
def IsPlain (e : Expr) : Prop := e.HasWritableParts ∧ "inf" ∉ e.names

theorem outlined_outlineAt {e : Expr} (h : e.IsPlain) (depth : Nat) :
    Outlined depth (e.outlineAt depth).toList e := by
  induction e generalizing depth with
  | number x =>
    rcases exists_standsFor h.1 with ⟨ds, hstands⟩
    have hleaf : IsLeaf (Decimal.Style.plain.write x).toList (.number x) := by
      rcases hstands.write_cases with ⟨hwrite, hx⟩ | hwrite
      · exact .inl ⟨congrArg String.toList hwrite, hx⟩
      · exact .inr hwrite
    have houtlined : Outlined depth _ _ := .leaf hleaf
    rwa [outlineAt, String.toList_append, String.toList_ofList]
  | name word =>
    rcases h with ⟨⟨hne, hcased, _⟩, hinf⟩
    have hleaf : IsLeaf word.toList (.name word) :=
      ⟨rfl, hne, hcased, fun heq => hinf (by simp [names, heq])⟩
    have houtlined : Outlined depth _ _ := .leaf hleaf
    rwa [outlineAt, String.toList_append, String.toList_ofList]
  | null => exact h.1.elim
  | binary op l r ihl ihr =>
    rcases h with ⟨⟨hl, hr⟩, hinf⟩
    rw [names, List.mem_append, not_or] at hinf
    have houtlined : Outlined depth _ (.binary op l r) :=
      .binary (ihl ⟨hl, hinf.1⟩ (depth + 1)) (ihr ⟨hr, hinf.2⟩ (depth + 1))
    rw [outlineAt]
    simpa using houtlined

/-- No word goes on at the beginning of the text. -/
def EndsWord (rest : List Char) : Prop := ∀ c ∈ rest.head?, isWord c = false

theorem endsWord_cons {c : Char} (h : isWord c = false) (rest : List Char) :
    EndsWord (c :: rest) := by
  intro d hd
  obtain rfl : c = d := by simpa using hd
  exact h

theorem isWord_eq_false_of_operator {c : Char} (h : Role.of? c = some (.mark .operator)) :
    isWord c = false := by
  rw [Bool.eq_false_iff]
  intro hword
  rcases Bool.or_eq_true_iff.mp hword with hdigit | hcased
  · exact absurd (h.symm.trans (Role.of?_of_isDigit hdigit)) (by simp)
  · exact absurd (h.symm.trans (Role.of?_of_isCased hcased)) (by simp)

section Outlined

variable {depth : Nat} {text text' rest rest' : List Char} {e e' : Expr} {op op' : Op}

theorem symbol_append_inj (h : op.symbol.toList ++ rest = op'.symbol.toList ++ rest') :
    op = op' ∧ rest = rest' := by
  obtain ⟨c, hsymbol, _⟩ := op.exists_symbol_eq
  obtain ⟨c', hsymbol', _⟩ := op'.exists_symbol_eq
  rw [hsymbol, hsymbol', String.toList_ofList, String.toList_ofList] at h
  rcases List.cons.inj h with ⟨rfl, hrest⟩
  have hop : some op = some op' := by
    rw [← Op.ofSymbol?_symbol op, ← Op.ofSymbol?_symbol op', hsymbol, hsymbol']
  exact ⟨Option.some.inj hop, hrest⟩

/-- A leaf never begins like an operator. -/
theorem IsLeaf.append_ne_symbol (h : IsLeaf text e) : text ++ rest ≠ op.symbol.toList ++ rest' := by
  intro heq
  obtain ⟨c, chars, rfl⟩ := List.exists_cons_of_ne_nil h.ne_nil
  obtain ⟨d, hsymbol, hoperator⟩ := op.exists_symbol_eq
  rw [hsymbol, String.toList_ofList] at heq
  obtain rfl : c = d := (List.cons.inj heq).1
  have hword := h.isWord c (by simp)
  rw [isWord_eq_false_of_operator hoperator] at hword
  exact absurd hword (by simp)

/-- By induction on the first outline.  Both begin with the same tabs; a leaf ends with its word,
and the operands of an operator end where their own outlines do. -/
theorem Outlined.append_inj (h : Outlined depth text e) (h' : Outlined depth text' e')
    (hrest : EndsWord rest) (hrest' : EndsWord rest') (heq : text ++ rest = text' ++ rest') :
    e = e' ∧ rest = rest' := by
  induction h generalizing text' e' rest rest' with
  | leaf isLeaf =>
    cases h' with
    | leaf isLeaf' =>
      -- both words end where no digit and no letter follows
      rw [List.append_assoc, List.append_assoc] at heq
      rcases Text.append_inj_of_class isLeaf.isWord isLeaf'.isWord hrest hrest'
        (List.append_cancel_left heq) with ⟨rfl, htail⟩
      exact ⟨isLeaf.unique isLeaf', htail⟩
    | binary _ _ =>
      simp only [List.append_assoc] at heq
      exact absurd (List.append_cancel_left heq) isLeaf.append_ne_symbol
  | binary _ _ ihl ihr =>
    cases h' with
    | leaf isLeaf' =>
      simp only [List.append_assoc] at heq
      exact absurd (List.append_cancel_left heq).symm isLeaf'.append_ne_symbol
    | binary ofLeft' ofRight' =>
      simp only [List.append_assoc, List.cons_append, List.nil_append] at heq
      rcases symbol_append_inj (List.append_cancel_left heq) with ⟨rfl, hoperands⟩
      simp only [List.cons.injEq, true_and] at hoperands
      -- a comma ends the left operand, and a parenthesis the right one
      have hcomma := endsWord_cons (show isWord ',' = false by decide +kernel)
      have hclose := endsWord_cons (show isWord ')' = false by decide +kernel)
      rcases ihl ofLeft' (hcomma _) (hcomma _) hoperands with ⟨rfl, hright⟩
      simp only [List.cons.injEq, true_and] at hright
      rcases ihr ofRight' (hclose _) (hclose _) hright with ⟨rfl, htail⟩
      exact ⟨rfl, (List.cons.inj htail).2⟩

theorem Outlined.ne_nil (h : Outlined depth text e) : text ≠ [] := by
  cases h with
  | leaf isLeaf => simp [isLeaf.ne_nil]
  | binary _ _ => simp

end Outlined

end Expr

/-! ## Programs -/

namespace Program

variable {program program' : Program}

theorem newline_cons_outlines (h : program ≠ []) :
    '\n' :: ("\n".intercalate (program.map Expr.outline)).toList =
      program.flatMap fun e => '\n' :: e.outline.toList := by
  induction program with
  | nil => exact absurd rfl h
  | cons e others ih =>
    cases others with
    | nil => simp
    | cons next others =>
      have hothers := ih (by simp)
      rw [List.flatMap_cons, ← hothers]
      simp [String.toList_intercalate]

/-- By induction on the first program: every outline ends at the newline before the next one. -/
theorem flatMap_outline_inj (h : ∀ e ∈ program, e.IsPlain) (h' : ∀ e ∈ program', e.IsPlain)
    (heq : (program.flatMap fun e => '\n' :: e.outline.toList) =
      program'.flatMap fun e => '\n' :: e.outline.toList) : program = program' := by
  have hends : ∀ p : Program, Expr.EndsWord (p.flatMap fun e => '\n' :: e.outline.toList) := by
    intro p
    cases p with
    | nil => simp [Expr.EndsWord]
    | cons e p => exact Expr.endsWord_cons (by decide +kernel) _
  induction program generalizing program' with
  | nil =>
    cases program' with
    | nil => rfl
    | cons e' others' => exact absurd heq (by simp)
  | cons e others ih =>
    cases program' with
    | nil => exact absurd heq (by simp)
    | cons e' others' =>
      simp only [List.flatMap_cons, List.cons_append, List.cons.injEq, true_and,
        Expr.outline_eq_outlineAt e, Expr.outline_eq_outlineAt e'] at heq
      rcases (Expr.outlined_outlineAt (h e (by simp)) 0).append_inj
        (Expr.outlined_outlineAt (h' e' (by simp)) 0) (hends others) (hends others') heq with
        ⟨rfl, htail⟩
      rw [ih (fun e he => h e (by simp [he])) (fun e he => h' e (by simp [he])) htail]

/-- The statements of a program can be told from their outlines on lines of their own. -/
theorem outlines_inj (h : ∀ e ∈ program, e.IsPlain) (h' : ∀ e ∈ program', e.IsPlain)
    (heq : "\n".intercalate (program.map Expr.outline) =
      "\n".intercalate (program'.map Expr.outline)) : program = program' := by
  have hempty : ∀ p : Program, (∀ e ∈ p, e.IsPlain) →
      "\n".intercalate (p.map Expr.outline) = "" → p = [] := by
    intro p hp htext
    by_contra hne
    have hlines := newline_cons_outlines hne
    obtain ⟨e, others, rfl⟩ := List.exists_cons_of_ne_nil hne
    rw [htext, List.flatMap_cons, List.cons_append] at hlines
    have houtline := (List.append_eq_nil_iff.mp (List.cons.inj hlines).2.symm).1
    rw [Expr.outline_eq_outlineAt] at houtline
    exact (Expr.outlined_outlineAt (hp e (by simp)) 0).ne_nil houtline
  by_cases hne : program = []
  · subst hne
    exact (hempty program' h' heq.symm).symm
  by_cases hne' : program' = []
  · subst hne'
    exact hempty program h heq
  refine flatMap_outline_inj h h' ?_
  rw [← newline_cons_outlines hne, ← newline_cons_outlines hne', heq]

end Program

namespace Run

variable {source source' : String} {tokens tokens' : List Token} {parsed parsed' : Program}

/-- The trees of a source are plain if none of its names is written like a number. -/
theorem isPlain_of_program (htokens : (Token.tokenize source).result = .ok tokens)
    (h : (program source).result = .ok parsed)
    (hnames : ∀ t ∈ tokens, t.kind = .identifier → t.lexeme ≠ "inf") :
    ∀ e ∈ parsed, e.IsPlain := by
  rcases program_eq_ok_iff.mp h with ⟨hchars, hprogram⟩
  rw [Token.tokenize_of_inAlphabet hchars] at htokens
  rw [← Except.ok.inj htokens] at hnames
  intro e he
  refine ⟨(hprogram.isWritable (Token.fits_of_mem_ofSource hchars) e he).1, ?_⟩
  intro hinf
  have hmem : "inf" ∈ Program.names parsed := List.mem_flatMap.mpr ⟨e, he, hinf⟩
  rw [hprogram.names_eq, Token.identifiers] at hmem
  rcases List.mem_map.mp hmem with ⟨t, ht, hlexeme⟩
  rcases List.mem_filter.mp ht with ⟨hsource, hkind⟩
  exact hnames t (List.mem_append_left _ hsource) (by simpa using hkind) hlexeme

theorem text_tree_of_ok (h : (program source).result = .ok parsed) :
    (text .tree source).result = .ok ("\n".intercalate (parsed.map Expr.outline)) := by
  unfold text
  rw [Traced.result_bind, h]
  rfl

/-- The trees that are shown of two sources are the same text exactly if the sources have the same
program, unless one of them has a name that is written like a number. -/
theorem text_tree_eq_iff (htokens : (Token.tokenize source).result = .ok tokens)
    (htokens' : (Token.tokenize source').result = .ok tokens')
    (h : (program source).result = .ok parsed) (h' : (program source').result = .ok parsed')
    (hnames : ∀ t ∈ tokens, t.kind = .identifier → t.lexeme ≠ "inf")
    (hnames' : ∀ t ∈ tokens', t.kind = .identifier → t.lexeme ≠ "inf") :
    ∃ shown shown', (text .tree source).result = .ok shown ∧
      (text .tree source').result = .ok shown' ∧ (shown = shown' ↔ parsed = parsed') := by
  refine ⟨_, _, text_tree_of_ok h, text_tree_of_ok h', ?_⟩
  constructor
  · intro hshown
    exact Program.outlines_inj (isPlain_of_program htokens h hnames)
      (isPlain_of_program htokens' h' hnames') hshown
  · rintro rfl
    rfl

theorem program_of_isProgram {inside : List Token} {stop : Token}
    (htokens : (Token.tokenize source).result = .ok (inside ++ [stop]))
    (h : IsProgram inside parsed) : (program source).result = .ok parsed := by
  have hlexed := Token.tokenize_eq_ok_iff.mp htokens
  rw [(List.append_inj' hlexed.tokens_eq rfl).1] at h
  exact program_eq_ok_iff.mpr ⟨hlexed.inAlphabet, h⟩

/-- Parentheses and leading zeros are not shown, but an operator is: without it there are two
statements. -/
theorem text_tree_of_grouping :
    ∃ shown shown' shown'', (text .tree "a-1").result = .ok shown ∧
      (text .tree "(a)-01").result = .ok shown' ∧ (text .tree "a 1").result = .ok shown'' ∧
      shown = shown' ∧ shown ≠ shown'' := by
  have htokens : (Token.tokenize "a-1").result =
      .ok ([⟨.identifier, "a", ⟨1, 1⟩⟩, ⟨.operator, "-", ⟨1, 2⟩⟩, ⟨.number, "1", ⟨1, 3⟩⟩] ++
        [.endOfFile ⟨1, 4⟩]) :=
    Token.tokenize_of_isRecognized (by decide +kernel)
  have htokens' : (Token.tokenize "(a)-01").result =
      .ok ([⟨.openParen, "(", ⟨1, 1⟩⟩, ⟨.identifier, "a", ⟨1, 2⟩⟩, ⟨.closeParen, ")", ⟨1, 3⟩⟩,
        ⟨.operator, "-", ⟨1, 4⟩⟩, ⟨.number, "01", ⟨1, 5⟩⟩] ++ [.endOfFile ⟨1, 7⟩]) :=
    Token.tokenize_of_isRecognized (by decide +kernel)
  have htokens'' : (Token.tokenize "a 1").result =
      .ok ([⟨.identifier, "a", ⟨1, 1⟩⟩, ⟨.number, "1", ⟨1, 3⟩⟩] ++ [.endOfFile ⟨1, 4⟩]) :=
    Token.tokenize_of_isRecognized (by decide +kernel)
  have hread : Numeral.read? "1" = some 1 := by decide +kernel
  have hread' : Numeral.read? "01" = some 1 := by decide +kernel
  have hname : Derives maxNesting .factor [⟨.identifier, "a", ⟨1, 1⟩⟩] (.name "a") := .name rfl
  have hgroup : Derives maxNesting .factor
      [⟨.openParen, "(", ⟨1, 1⟩⟩, ⟨.identifier, "a", ⟨1, 2⟩⟩, ⟨.closeParen, ")", ⟨1, 3⟩⟩]
      (.name "a") :=
    .group rfl rfl (.ofProduct (.ofFactor (.name rfl)))
  have hone : Derives maxNesting .factor [⟨.number, "1", ⟨1, 3⟩⟩] (.number 1) :=
    .number rfl hread
  have hone' : Derives maxNesting .factor [⟨.number, "01", ⟨1, 5⟩⟩] (.number 1) :=
    .number rfl hread'
  have h : (program "a-1").result = .ok [.binary .minus (.name "a") (.number 1)] :=
    program_of_isProgram htokens
      (.cons (.sum (.ofProduct (.ofFactor hname)) ⟨rfl, rfl⟩ rfl (.ofFactor hone)) .nil)
  have h' : (program "(a)-01").result = .ok [.binary .minus (.name "a") (.number 1)] :=
    program_of_isProgram htokens'
      (.cons (.sum (.ofProduct (.ofFactor hgroup)) ⟨rfl, rfl⟩ rfl (.ofFactor hone')) .nil)
  have h'' : (program "a 1").result = .ok [.name "a", .number 1] :=
    program_of_isProgram htokens''
      (.cons (.ofProduct (.ofFactor hname)) (.cons (.ofProduct (.ofFactor hone)) .nil))
  rcases text_tree_eq_iff htokens htokens' h h' (by simp [Token.endOfFile])
    (by simp [Token.endOfFile]) with ⟨shown, shown', htext, htext', hsame⟩
  rcases text_tree_eq_iff htokens htokens'' h h'' (by simp [Token.endOfFile])
    (by simp [Token.endOfFile]) with ⟨other, shown'', hother, htext'', hdiffer⟩
  obtain rfl : shown = other := Except.ok.inj (htext.symm.trans hother)
  refine ⟨shown, shown', shown'', htext, htext', htext'', hsame.mpr rfl, ?_⟩
  intro heq
  exact absurd (hdiffer.mp heq) (by simp)

end Run

end Abacus
