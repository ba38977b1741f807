import Abacus.Proofs.Layout
import Abacus.Proofs.Numbers
import Abacus.Proofs.Outcome

/-!
# Sources written from trees

The trees that sources have are exactly the trees that can be written, and a tree that can be
written comes back from the source that it is written as.

1. A tree that is derived needs no more parentheses than stand in its tokens: extra parentheses
   only spend room (`Derives.nesting_le`).
2. The parts of a derived tree are the texts of its tokens, so they can be written
   (`Derives.hasWritableParts`).
3. `Renders room level text e` says that `text` is read as `e` wherever it stands.  It holds of
   numbers and names, and it is kept by operators and by parentheses, which are the only ways in
   which a tree is written (`renders_sourceAt`).
-/

namespace Abacus

/-! ## How much nesting a tree needs -/

namespace Expr

variable {op : Op} {level : Level} {l r : Expr}

/-- How deep the parentheses inside an operator are nested. -/
def nestingInside (op : Op) (l r : Expr) : Nat :=
  max (l.nesting op.level) (r.nesting op.level.tighter)

theorem nesting_of_isLoose (h : isLoose level op = true) :
    (binary op l r).nesting level = nestingInside op l r + 1 :=
  if_pos h

theorem nesting_of_not_isLoose (h : isLoose level op = false) :
    (binary op l r).nesting level = nestingInside op l r :=
  if_neg (by simp [h])

/-- A level asks for one pair of parentheses around an operator, or for none. -/
theorem nesting_bounds (level : Level) (op : Op) (l r : Expr) :
    nestingInside op l r ≤ (binary op l r).nesting level ∧
      (binary op l r).nesting level ≤ nestingInside op l r + 1 := by
  cases h : isLoose level op with
  | true =>
    rw [nesting_of_isLoose h]
    omega
  | false =>
    rw [nesting_of_not_isLoose h]
    omega

/-- One pair of parentheses is enough to go from any level to any other. -/
theorem nesting_le_succ (e : Expr) (level level' : Level) :
    e.nesting level ≤ e.nesting level' + 1 := by
  cases e with
  | number x => exact Nat.zero_le _
  | name text => exact Nat.zero_le _
  | null => exact Nat.zero_le _
  | binary op l r =>
    have hmost := (nesting_bounds level op l r).2
    have hleast := (nesting_bounds level' op l r).1
    omega

/-- A looser level never asks for more parentheses. -/
theorem nesting_mono (e : Expr) {level level' : Level} (hrank : level.rank ≤ level'.rank) :
    e.nesting level ≤ e.nesting level' := by
  cases e with
  | number x => exact Nat.le_refl _
  | name text => exact Nat.le_refl _
  | null => exact Nat.le_refl _
  | binary op l r =>
    cases h : isLoose level op with
    | true =>
      -- what is too loose for one level is too loose for every tighter one
      have h' : isLoose level' op = true := by
        simp only [isLoose, decide_eq_true_eq] at h ⊢
        omega
      rw [nesting_of_isLoose h, nesting_of_isLoose h']
    | false =>
      rw [nesting_of_not_isLoose h]
      exact (nesting_bounds level' op l r).1

/-- At its own level an operator stands without parentheses. -/
theorem nesting_le_of_operands {room : Nat} (hlevel : op.level = level)
    (hl : l.nesting level ≤ room) (hr : r.nesting level.tighter ≤ room) :
    (binary op l r).nesting level ≤ room := by
  subst hlevel
  have htight : isLoose op.level op = false := by simp [isLoose]
  rw [nesting_of_not_isLoose htight]
  exact Nat.max_le.mpr ⟨hl, hr⟩

end Expr

section Derives

variable {room : Nat} {level : Level} {tokens : List Token} {e : Expr}

/-- By induction on the derivation.  A grouping is the only rule that leads from a looser level to a
tighter one, and there it adds the one level of nesting that the tree may need. -/
theorem Derives.nesting_le (h : Derives room level tokens e) : e.nesting level ≤ room := by
  induction h with
  | name _ => exact Nat.zero_le _
  | number _ _ => exact Nat.zero_le _
  | @group room _ _ _ e _ _ _ ih =>
    have hone := e.nesting_le_succ .factor .sum
    omega
  | @ofFactor _ _ e _ ih => exact Nat.le_trans (e.nesting_mono (by decide)) ih
  | @ofProduct _ _ e _ ih => exact Nat.le_trans (e.nesting_mono (by decide)) ih
  | product _ _ htier _ ihl ihr =>
    exact Expr.nesting_le_of_operands (congrArg Tier.level htier) ihl ihr
  | sum _ _ htier _ ihl ihr =>
    exact Expr.nesting_le_of_operands (congrArg Tier.level htier) ihl ihr

/-- The leaves of a tree are the texts of tokens, which fit their kinds. -/
theorem Derives.hasWritableParts (h : Derives room level tokens e) (hfits : ∀ t ∈ tokens, t.Fits) :
    e.HasWritableParts := by
  induction h with
  | @name _ t hkind =>
    -- an identifier fits exactly if a name can be written
    have ht := hfits t (by simp)
    simp only [Token.Fits, hkind] at ht
    exact ht
  | @number _ t x hkind hvalue =>
    have ht := hfits t (by simp)
    simp only [Token.Fits, hkind] at ht
    exact ⟨t.lexeme, ht.1, ht.2, hvalue⟩
  | group _ _ _ ih =>
    apply ih
    intro t ht
    exact hfits t (by simp [ht])
  | ofFactor _ ih => exact ih hfits
  | ofProduct _ ih => exact ih hfits
  | product _ _ _ _ ihl ihr =>
    constructor
    · exact ihl fun t ht => hfits t (by simp [ht])
    · exact ihr fun t ht => hfits t (by simp [ht])
  | sum _ _ _ _ ihl ihr =>
    constructor
    · exact ihl fun t ht => hfits t (by simp [ht])
    · exact ihr fun t ht => hfits t (by simp [ht])

end Derives

theorem IsProgram.isWritable {tokens : List Token} {program : Program}
    (h : IsProgram tokens program) (hfits : ∀ t ∈ tokens, t.Fits) :
    ∀ e ∈ program, e.IsWritable := by
  induction h with
  | nil => simp
  | cons hstatement _ ih =>
    intro e he
    rcases List.mem_cons.mp he with rfl | hothers
    · constructor
      · exact hstatement.hasWritableParts fun t ht => hfits t (by simp [ht])
      · exact hstatement.nesting_le
    · exact ih (fun t ht => hfits t (by simp [ht])) e hothers

/-! ## Texts around blanks and marks -/

namespace Token

theorem ofText_append_space (p : Position) (a b : List Char) :
    ofText p (a ++ ' ' :: b) = ofText p a ++ ofText ((p.after a).next ' ') b := by
  have hblank : IsBlank ' ' := .inl rfl
  rw [ofText_append ((standsAlone_of_blank hblank).separate_right a b),
    ofText_cons_of_blank hblank]

/-- A mark is a token by itself, whatever follows it. -/
theorem ofText_cons_of_mark {c : Char} {kind : Kind} (h : Role.of? c = some (.mark kind))
    (p : Position) (text : List Char) :
    ofText p (c :: text) = ⟨kind, String.ofList [c], p⟩ :: ofText (p.next c) text := by
  have hfits : Fits ⟨kind, String.ofList [c], p⟩ := by
    rcases Role.of?_eq_some h with ⟨heq, _⟩ | ⟨heq, _⟩ | ⟨heq, _⟩ | ⟨kind', heq, hmark⟩
    · exact absurd heq (by simp)
    · exact absurd heq (by simp)
    · exact absurd heq (by simp)
    · rw [Role.mark.inj heq]
      exact hmark p
  have hend : isEnd ⟨kind, String.ofList [c], p⟩ = false := by
    have hkind : kind ≠ .endOfFile := by
      rintro rfl
      exact Role.mark_ne_endOfFile h
    simpa [isEnd] using hkind
  have hsingle := hfits.ofText_lexeme hend
  rw [String.toList_ofList] at hsingle
  -- cut behind the mark: it joins nothing
  have hcut := ofText_append (p := p) ((standsAlone_of_mark h).separate_left text)
  rw [hsingle] at hcut
  exact hcut

end Token

theorem Op.exists_symbol_eq (op : Op) :
    ∃ c, op.symbol = String.ofList [c] ∧ Role.of? c = some (.mark .operator) := by
  cases op with
  | plus => exact ⟨'+', rfl, rfl⟩
  | minus => exact ⟨'-', rfl, rfl⟩
  | times => exact ⟨'*', rfl, rfl⟩
  | divide => exact ⟨'/', rfl, rfl⟩
  | modulo => exact ⟨'%', rfl, rfl⟩

/-! ## Texts that are read as trees -/

/-- An expression of a tighter level is one of a looser level. -/
theorem Derives.loosen {room : Nat} {level level' : Level} {tokens : List Token} {e : Expr}
    (h : Derives room level tokens e) (hrank : level'.rank ≤ level.rank) :
    Derives room level' tokens e := by
  cases level with
  | sum =>
    cases level' with
    | sum => exact h
    | product => exact absurd hrank (by decide)
    | factor => exact absurd hrank (by decide)
  | product =>
    cases level' with
    | sum => exact .ofProduct h
    | product => exact h
    | factor => exact absurd hrank (by decide)
  | factor =>
    cases level' with
    | sum => exact .ofProduct (.ofFactor h)
    | product => exact .ofFactor h
    | factor => exact h

/-- The text is an expression of the level, wherever it stands. -/
structure Renders (room : Nat) (level : Level) (text : List Char) (e : Expr) : Prop where
  inAlphabet : ∀ c ∈ text, InAlphabet c
  derives : ∀ p, Derives room level (Token.ofText p text) e

namespace Renders

variable {room : Nat} {level level' : Level} {text left right : List Char} {op : Op}
  {e l r : Expr}

theorem loosen (h : Renders room level text e) (hrank : level'.rank ≤ level.rank) :
    Renders room level' text e :=
  ⟨h.inAlphabet, fun p => (h.derives p).loosen hrank⟩

theorem inAlphabet_of_mark {c : Char} {kind : Token.Kind} (h : Role.of? c = some (.mark kind)) :
    InAlphabet c := by
  rw [← isRecognized_iff, isRecognized, h]
  rfl

/-- The text of one token is read as that token alone. -/
theorem of_token (kind : Token.Kind) {lexeme : String} (hend : kind ≠ .endOfFile)
    (hfits : ∀ p, Token.Fits ⟨kind, lexeme, p⟩)
    (hleaf : ∀ p, Derives room .factor [⟨kind, lexeme, p⟩] e) :
    Renders room .factor lexeme.toList e := by
  have hinside : ∀ p, Token.isEnd ⟨kind, lexeme, p⟩ = false := by
    intro p
    simpa [Token.isEnd] using hend
  constructor
  · intro c hc
    rw [← isRecognized_iff, isRecognized, (hfits .start).of?_eq_role (hinside .start) hc]
    rfl
  · intro p
    have hsingle := (hfits p).ofText_lexeme (hinside p)
    rw [hsingle]
    exact hleaf p

theorem of_number {x : Float} (h : (Expr.number x).HasWritableParts) :
    Renders room .factor (Expr.digits x).toList (.number x) := by
  rcases Expr.exists_standsFor h with ⟨ds, hstands⟩
  -- the digits that are written need not be those, but they are read as the same number
  rcases Expr.standsFor_digits hstands with ⟨hne', hdigits', hread'⟩
  rw [String.ofList_toList] at hread'
  refine of_token .number (by simp) ?_ ?_
  · intro p
    exact ⟨by simpa using hne', List.all_eq_true.mpr hdigits'⟩
  · intro p
    exact .number rfl hread'

theorem of_name {name : String} (h : (Expr.name name).HasWritableParts) :
    Renders room .factor name.toList (.name name) :=
  of_token .identifier (by simp) (fun _ => h) (fun _ => .name rfl)

/-- An operator between two texts, with a space on each side. -/
theorem join (hleft : Renders room op.level left l)
    (hright : Renders room op.level.tighter right r) :
    Renders room op.level (left ++ ' ' :: (op.symbol.toList ++ ' ' :: right)) (.binary op l r) := by
  rcases op.exists_symbol_eq with ⟨c, hsymbol, hmark⟩
  have hspace : InAlphabet ' ' := .inr (.inl (.inl rfl))
  rw [hsymbol, String.toList_ofList]
  constructor
  · intro d hd
    simp only [List.cons_append, List.nil_append, List.mem_append, List.mem_cons] at hd
    rcases hd with hd | rfl | rfl | rfl | hd
    · exact hleft.inAlphabet d hd
    · exact hspace
    · exact inAlphabet_of_mark hmark
    · exact hspace
    · exact hright.inAlphabet d hd
  · intro p
    rw [Token.ofText_append_space, List.cons_append, List.nil_append,
      Token.ofText_cons_of_mark hmark, Token.ofText_cons_of_blank (.inl rfl)]
    refine (hleft.derives p).join (Token.operator?_eq_some_iff.mpr ⟨⟨rfl, ?_⟩, rfl⟩)
      (hright.derives _)
    exact hsymbol.symm

/-- Parentheses spend one level of room and make a factor of anything. -/
theorem group (h : Renders room .sum text e) :
    Renders (room + 1) .factor ('(' :: (text ++ [')'])) e := by
  have hopen : Role.of? '(' = some (.mark .openParen) := rfl
  have hclose : Role.of? ')' = some (.mark .closeParen) := rfl
  constructor
  · intro c hc
    simp only [List.mem_cons, List.mem_append, List.not_mem_nil, or_false] at hc
    rcases hc with rfl | hc | rfl
    · exact inAlphabet_of_mark hopen
    · exact h.inAlphabet c hc
    · exact inAlphabet_of_mark hclose
  · intro p
    rw [Token.ofText_cons_of_mark hopen,
      Token.ofText_append ((Token.standsAlone_of_mark hclose).separate_right text []),
      Token.ofText_cons_of_mark hclose]
    exact .group rfl rfl (h.derives _)

end Renders

/-! ## Trees as sources -/

namespace Expr

/-- An operator as a source, without parentheses around it. -/
def sourceInside (op : Op) (l r : Expr) : List Char :=
  (l.sourceAt op.level).toList ++
    ' ' :: (op.symbol.toList ++ ' ' :: (r.sourceAt op.level.tighter).toList)

theorem toList_sourceAt_binary (level : Level) (op : Op) (l r : Expr) :
    ((binary op l r).sourceAt level).toList =
      if isLoose level op then '(' :: (sourceInside op l r ++ [')']) else sourceInside op l r := by
  rw [sourceAt]
  cases isLoose level op with
  | true => simp [sourceInside]
  | false => simp [sourceInside]

/-- By induction on the tree: where an operator is too loose for its place, one level of the nesting
goes to the parentheses around it, and the rest is left for what stands inside. -/
theorem renders_sourceAt {e : Expr} (hparts : e.HasWritableParts) {room : Nat} {level : Level}
    (hroom : e.nesting level ≤ room) : Renders room level (e.sourceAt level).toList e := by
  have hfactor : level.rank ≤ Level.factor.rank := by cases level <;> decide
  induction e generalizing room level with
  | number x => exact (Renders.of_number hparts).loosen hfactor
  | name text => exact (Renders.of_name hparts).loosen hfactor
  | null => exact absurd hparts (by simp [HasWritableParts])
  | binary op l r ihl ihr =>
    have hinside : ∀ {room : Nat}, nestingInside op l r ≤ room →
        Renders room op.level (sourceInside op l r) (.binary op l r) := by
      intro room hle
      rcases Nat.max_le.mp hle with ⟨hl, hr⟩
      exact (ihl hparts.1 hl (by cases op.level <;> decide)).join
        (ihr hparts.2 hr (by cases op.level.tighter <;> decide))
    rw [toList_sourceAt_binary]
    cases h : isLoose level op with
    | true =>
      -- the parentheses spend one level of room, so there is one
      rw [nesting_of_isLoose h] at hroom
      rcases room with _ | room
      · exact absurd hroom (by simp)
      · have hopen := (hinside (Nat.le_of_succ_le_succ hroom)).loosen
          (show Level.sum.rank ≤ op.level.rank from Nat.zero_le _)
        exact hopen.group.loosen hfactor
    | false =>
      -- no parentheses: the level of the operator is tight enough
      rw [nesting_of_not_isLoose h] at hroom
      have hrank : level.rank ≤ op.level.rank := by
        simp only [isLoose, decide_eq_false_iff_not] at h
        omega
      exact (hinside hroom).loosen hrank

end Expr

namespace Program

theorem source_nil : source [] = "" := rfl

theorem source_singleton (e : Expr) : source [e] = e.sourceAt .sum := by
  rw [← String.toList_inj]
  simp [source]

theorem toList_source_cons (e next : Expr) (others : Program) :
    (source (e :: next :: others)).toList =
      (e.sourceAt .sum).toList ++ ' ' :: (source (next :: others)).toList := by
  unfold source
  simp [String.toList_intercalate]

/-- By induction on the program: a space stands behind every statement but the last. -/
theorem isProgram_source {program : Program} (h : ∀ e ∈ program, e.IsWritable) :
    (∀ c ∈ program.source.toList, InAlphabet c) ∧
      ∀ p, IsProgram (Token.ofText p program.source.toList) program := by
  induction program with
  | nil => exact ⟨by simp [source_nil], fun _ => .nil⟩
  | cons e others ih =>
    have he : e.IsWritable := h e (by simp)
    have hrenders := Expr.renders_sourceAt he.1 he.2
    cases others with
    | nil =>
      rw [source_singleton]
      refine ⟨hrenders.inAlphabet, ?_⟩
      intro p
      have hsingle := IsProgram.cons (hrenders.derives p) .nil
      rw [List.append_nil] at hsingle
      exact hsingle
    | cons next others =>
      rcases ih (fun e he => h e (List.mem_cons_of_mem _ he)) with ⟨halphabet, hothers⟩
      rw [toList_source_cons]
      constructor
      · intro c hc
        simp only [List.mem_append, List.mem_cons] at hc
        rcases hc with hc | rfl | hc
        · exact hrenders.inAlphabet c hc
        · exact .inr (.inl (.inl rfl))
        · exact halphabet c hc
      · intro p
        rw [Token.ofText_append_space]
        exact .cons (hrenders.derives p) (hothers _)

end Program

/-! ## Reading back -/

theorem Token.fits_of_mem_ofSource {source : String} (hchars : ∀ c ∈ source.toList, InAlphabet c) :
    ∀ t ∈ Token.ofSource source, t.Fits := by
  rcases exists_lexed hchars .start with ⟨tokens, hlexed⟩
  have hfits := hlexed.fits
  rw [hlexed.tokens_eq] at hfits
  intro t ht
  exact hfits t (List.mem_append_left _ ht)

namespace Run

/-- Giving errors another form changes no result. -/
theorem mapError_eq_ok_iff {ε δ α : Type} {x : Except ε α} {f : ε → δ} {a : α} :
    x.mapError f = .ok a ↔ x = .ok a := by
  cases x with
  | ok b => simp [Except.mapError]
  | error e => simp [Except.mapError]

/-- What a source is read as: nothing, if it has a foreign character, and else the program that its
tokens are. -/
theorem program_eq_ok_iff {source : String} {parsed : Program} :
    (program source).result = .ok parsed ↔
      (∀ c ∈ source.toList, InAlphabet c) ∧ IsProgram (Token.ofSource source) parsed := by
  rw [result_program]
  rcases inAlphabet_or_isFirstFault source with hchars | ⟨error, hfault⟩
  · rw [Token.tokenize_of_inAlphabet hchars]
    simp only [mapError_eq_ok_iff, ofTokens_ofSource_iff]
    exact (and_iff_right hchars).symm
  · rw [Token.tokenize_of_isFirstFault hfault]
    rcases exists_isFirstFault_iff.mp ⟨error, hfault⟩ with ⟨c, hmem, hc⟩
    constructor
    · intro h
      exact absurd h (by simp)
    · rintro ⟨hchars, _⟩
      exact absurd (hchars c hmem) hc

/-- A source that is a single number. -/
theorem program_of_number {source : String} {x : Float} (hread : Numeral.read? source = some x)
    (hchars : source.toList.all (fun c => decide (InAlphabet c)) = true)
    (htokens : Token.ofSource source = [⟨.number, source, .start⟩]) :
    (program source).result = .ok [.number x] := by
  have hstatement : Derives maxNesting .sum [⟨.number, source, .start⟩] (.number x) :=
    .ofProduct (.ofFactor (.number rfl hread))
  refine program_eq_ok_iff.mpr ⟨by simpa using hchars, ?_⟩
  rw [htokens]
  exact IsProgram.cons hstatement .nil

/-- The programs of sources are exactly the rows of trees that can be written: no source leads to
another tree, and every such row is the program of the source that it is written as. -/
theorem program_source_of_isWritable (parsed : Program) :
    (∀ source, (program source).result = .ok parsed → ∀ e ∈ parsed, e.IsWritable) ∧
      ((∀ e ∈ parsed, e.IsWritable) → (program parsed.source).result = .ok parsed) := by
  constructor
  · intro source h
    rcases program_eq_ok_iff.mp h with ⟨hchars, hprogram⟩
    exact hprogram.isWritable (Token.fits_of_mem_ofSource hchars)
  · -- what is written begins at the start of a source like anywhere else
    intro h
    rcases Program.isProgram_source h with ⟨hchars, hprogram⟩
    exact program_eq_ok_iff.mpr ⟨hchars, hprogram .start⟩

/-- A right operand of the same tier and a left operand of a looser one keep their parentheses. -/
theorem program_source_of_two_statements :
    ∃ parsed : Program,
      parsed = [.binary .minus (.name "a") (.binary .minus (.name "b") (.number 2)),
        .binary .times (.binary .plus (.name "c") (.name "d")) (.name "e")] ∧
      (∀ e ∈ parsed, e.IsWritable) ∧ parsed.source = "a - (b - 2) (c + d) * e" ∧
      (program "a - (b - 2) (c + d) * e").result = .ok parsed := by
  refine ⟨_, rfl, ?_⟩
  have hname : ∀ name ∈ ["a", "b", "c", "d", "e"],
      name ≠ "" ∧ name.toList.all Text.isCased ∧ name ≠ "let" := by
    decide +kernel
  have hnumber : (Expr.number 2).HasWritableParts :=
    ⟨"2", by decide, by decide, by decide +kernel⟩
  have hwritable : ∀ e ∈ [Expr.binary .minus (.name "a") (.binary .minus (.name "b") (.number 2)),
      .binary .times (.binary .plus (.name "c") (.name "d")) (.name "e")], e.IsWritable := by
    intro e he
    simp only [List.mem_cons, List.not_mem_nil, or_false] at he
    rcases he with rfl | rfl
    · exact ⟨⟨hname "a" (by simp), hname "b" (by simp), hnumber⟩, by decide⟩
    · exact ⟨⟨⟨hname "c" (by simp), hname "d" (by simp)⟩, hname "e" (by simp)⟩, by decide⟩
  have hsource : Program.source
      [.binary .minus (.name "a") (.binary .minus (.name "b") (.number 2)),
        .binary .times (.binary .plus (.name "c") (.name "d")) (.name "e")] =
      "a - (b - 2) (c + d) * e" := by
    decide +kernel
  refine ⟨hwritable, hsource, ?_⟩
  rw [← hsource]
  exact (program_source_of_isWritable _).2 hwritable

end Run

end Abacus
