import Abacus.Proofs.Layout
import Abacus.Proofs.Viability

/-!
# Tokens without their places

Where its tokens stand makes no difference to a program.

1. The grammar derives the same trees from tokens with the same contents (`Derives.of_contents`,
   `IsProgram.of_contents`).
2. A token with the same content takes a scan to the same place or fails it with the same fault
   (`Scan.take_of_content`), so two scans over tokens with the same contents fail at the same token
   (`Scan.run_of_forall₂`).
3. A text has tokens with the same contents wherever it begins, and each of them stands behind the
   same front of the text (`Token.Lexed.relocate`).
-/

namespace Abacus

/-! ## Contents -/

/-- What a token is, apart from its place. -/
def Token.content (t : Token) : Token.Kind × String := (t.kind, t.lexeme)

section Content

variable {t u : Token}

theorem Token.kind_of_content (h : u.content = t.content) : u.kind = t.kind :=
  congrArg Prod.fst h

theorem Token.lexeme_of_content (h : u.content = t.content) : u.lexeme = t.lexeme :=
  congrArg Prod.snd h

theorem Token.isEnd_of_content (h : u.content = t.content) : u.isEnd = t.isEnd := by
  unfold isEnd
  rw [kind_of_content h]

theorem Token.describe_of_content (h : u.content = t.content) : u.describe = t.describe := by
  unfold describe
  rw [isEnd_of_content h, kind_of_content h, lexeme_of_content h]

theorem Token.isOperator_of_content {op : Op} (h : u.content = t.content)
    (ht : t.IsOperator op) : u.IsOperator op := by
  constructor
  · rw [kind_of_content h]
    exact ht.1
  · rw [lexeme_of_content h]
    exact ht.2

end Content

/-! ## Derivations -/

/-- By induction on the derivation: the tokens are cut where it cuts them. -/
theorem Derives.of_contents {room : Nat} {level : Level} {tokens tokens' : List Token} {e : Expr}
    (h : Derives room level tokens e)
    (hsame : tokens'.map Token.content = tokens.map Token.content) :
    Derives room level tokens' e := by
  induction h generalizing tokens' with
  | name hkind =>
    rcases List.map_eq_singleton_iff.mp hsame with ⟨u, rfl, hu⟩
    rw [← Token.lexeme_of_content hu]
    exact .name ((Token.kind_of_content hu).trans hkind)
  | number hkind hvalue =>
    rcases List.map_eq_singleton_iff.mp hsame with ⟨u, rfl, hu⟩
    rw [← Token.lexeme_of_content hu] at hvalue
    exact .number ((Token.kind_of_content hu).trans hkind) hvalue
  | group hopen hclosing _ ih =>
    rw [List.cons_append, List.map_cons, List.map_append, List.map_singleton] at hsame
    rcases List.map_eq_cons_iff.mp hsame with ⟨opening, rest, rfl, hopening, hrest⟩
    rcases List.map_eq_append_iff.mp hrest with ⟨inner, last, rfl, hinner, hlast⟩
    rcases List.map_eq_singleton_iff.mp hlast with ⟨closing, rfl, hclose⟩
    rw [← List.cons_append]
    exact .group ((Token.kind_of_content hopening).trans hopen)
      ((Token.kind_of_content hclose).trans hclosing) (ih hinner)
  | ofFactor _ ih => exact .ofFactor (ih hsame)
  | ofProduct _ ih => exact .ofProduct (ih hsame)
  | product _ hoperator htier _ ihl ihr =>
    rw [List.map_append, List.map_cons] at hsame
    rcases List.map_eq_append_iff.mp hsame with ⟨before, rest, rfl, hbefore, hrest⟩
    rcases List.map_eq_cons_iff.mp hrest with ⟨u, after, rfl, hu, hafter⟩
    exact .product (ihl hbefore) (Token.isOperator_of_content hu hoperator) htier (ihr hafter)
  | sum _ hoperator htier _ ihl ihr =>
    rw [List.map_append, List.map_cons] at hsame
    rcases List.map_eq_append_iff.mp hsame with ⟨before, rest, rfl, hbefore, hrest⟩
    rcases List.map_eq_cons_iff.mp hrest with ⟨u, after, rfl, hu, hafter⟩
    exact .sum (ihl hbefore) (Token.isOperator_of_content hu hoperator) htier (ihr hafter)

theorem IsProgram.of_contents {tokens tokens' : List Token} {program : Program}
    (h : IsProgram tokens program)
    (hsame : tokens'.map Token.content = tokens.map Token.content) : IsProgram tokens' program := by
  induction h generalizing tokens' with
  | nil =>
    rw [List.map_nil, List.map_eq_nil_iff] at hsame
    rw [hsame]
    exact .nil
  | cons hstatement _ ih =>
    rw [List.map_append] at hsame
    rcases List.map_eq_append_iff.mp hsame with ⟨first, others, rfl, hfirst, hothers⟩
    exact .cons (hstatement.of_contents hfirst) (ih hothers)

/-! ## Faults -/

namespace ParseError

/-- The same fault at another token. -/
def atToken (e : ParseError) (t : Token) : ParseError :=
  match e with
  | .expected kind _ => .expected kind t
  | .unexpected _ => .unexpected t
  | .invalidNumber _ => .invalidNumber t
  | .nestingTooDeep _ limit => .nestingTooDeep t limit

@[simp] theorem token_atToken (e : ParseError) (t : Token) : (e.atToken t).token = t := by
  cases e <;> rfl

theorem kind_atToken (e : ParseError) (t : Token) :
    (Failure.parse (e.atToken t)).kind = (Failure.parse e).kind := by
  cases e <;> rfl

/-- A message shows of a token nothing but its content. -/
theorem message_atToken {e : ParseError} {t : Token} (h : t.content = e.token.content) :
    (e.atToken t).message = e.message := by
  cases e with
  | expected kind found =>
    show s!"Expected {kind.name}, but encountered {t.describe}" = _
    rw [Token.describe_of_content h]
    rfl
  | unexpected found =>
    show s!"Unexpected token {t.describe}" = _
    rw [Token.describe_of_content h]
    rfl
  | invalidNumber token =>
    show s!"Invalid numeric literal '{t.lexeme}'" = _
    rw [Token.lexeme_of_content h]
    rfl
  | nestingTooDeep token limit => rfl

end ParseError

namespace Scan

variable {t u : Token}

theorem takeOperand_of_content (h : u.content = t.content) (depth : Nat) :
    takeOperand depth u = (takeOperand depth t).mapError fun e => e.atToken u := by
  unfold takeOperand
  rw [Token.kind_of_content h, Token.lexeme_of_content h]
  cases t.kind with
  | number =>
    cases Numeral.read? t.lexeme with
    | none => rfl
    | some x => rfl
  | openParen =>
    by_cases hdepth : 256 ≤ depth
    · simp [hdepth, Except.mapError, ParseError.atToken]
    · simp [hdepth, Except.mapError]
  | _ => rfl

theorem takeStart_of_content (h : u.content = t.content) (depth : Nat) :
    takeStart depth u = (takeStart depth t).mapError fun e => e.atToken u := by
  unfold takeStart
  rw [Token.isEnd_of_content h, takeOperand_of_content h]
  cases t.isEnd with
  | true => rfl
  | false => rfl

theorem takeAfter_of_content (h : u.content = t.content) (depth : Nat) :
    takeAfter depth u = (takeAfter depth t).mapError fun e => e.atToken u := by
  have hoperator : isOperator u = isOperator t := by
    unfold isOperator
    rw [Token.kind_of_content h, Token.lexeme_of_content h]
  unfold takeAfter
  rw [hoperator, Token.kind_of_content h, takeStart_of_content h]
  cases isOperator t with
  | true => rfl
  | false =>
    by_cases hdepth : depth = 0
    · simp [hdepth]
    · by_cases hclose : t.kind = .closeParen
      · simp [hdepth, hclose, Except.mapError]
      · simp [hdepth, hclose, Except.mapError, ParseError.atToken]

/-- One step: tokens with the same content do the same to a scan, and a fault is found at either. -/
theorem take_of_content (h : u.content = t.content) (s : Scan) :
    s.take u = (s.take t).mapError fun e => e.atToken u := by
  rcases s with ⟨mode, depth⟩
  cases mode with
  | start => exact takeStart_of_content h depth
  | operand => exact takeOperand_of_content h depth
  | after => exact takeAfter_of_content h depth

/-- By induction on the tokens, up to their end of file: two scans over tokens with the same
contents go through the same modes, so the second one fails at the token that corresponds to the one
at which the first one fails. -/
theorem run_of_forall₂ {R : Token → Token → Prop} (hR : ∀ t u, R t u → u.content = t.content)
    {stop stop' : Token} {s : Scan} {tokens tokens' : List Token} {e : ParseError}
    (hsame : List.Forall₂ R tokens tokens') (hend : ∃ t ∈ tokens, t.isEnd = true)
    (h : run stop s tokens = .error e) :
    ∃ u, R e.token u ∧ run stop' s tokens' = .error (e.atToken u) := by
  induction hsame generalizing s with
  | nil => exact absurd hend (by simp)
  | @cons t u rest rest' hfirst _ ih =>
    have htake := take_of_content (hR t u hfirst) s
    cases hstep : s.take t with
    | error e' =>
      rw [run_cons_error hstep] at h
      rcases Except.error.inj h with rfl
      rw [hstep] at htake
      refine ⟨u, ?_, run_cons_error htake⟩
      rw [token_of_take hstep]
      exact hfirst
    | ok next =>
      cases next with
      | accept =>
        rw [run, hstep] at h
        exact absurd h (by simp)
      | more s' =>
        -- the scan has gone on, so this token was no end of file
        rw [run_cons_more hstep] at h
        rw [hstep] at htake
        rcases hend with ⟨stop, hmem, hstop⟩
        have hrest : ∃ t ∈ rest, t.isEnd = true := by
          rcases List.mem_cons.mp hmem with rfl | hmem
          · exact absurd hstep (take_of_isEnd hstop s s')
          · exact ⟨stop, hmem, hstop⟩
        rcases ih hrest h with ⟨v, hv, hrun⟩
        exact ⟨v, hv, (run_cons_more htake).trans hrun⟩

end Scan

theorem Program.ofTokens_of_forall₂ {R : Token → Token → Prop}
    (hR : ∀ t u, R t u → u.content = t.content) {tokens tokens' : List Token} {e : ParseError}
    (hsame : List.Forall₂ R tokens tokens') (hend : ∃ t ∈ tokens, t.isEnd = true)
    (h : (ofTokens tokens).result = .error e) :
    ∃ u, R e.token u ∧ (ofTokens tokens').result = .error (e.atToken u) := by
  rcases Scan.run_of_forall₂ hR hsame hend (ofTokens_eq_error_iff.mp h) with ⟨u, hu, hrun⟩
  exact ⟨u, hu, ofTokens_eq_error_iff.mpr hrun⟩

/-! ## Texts in two places -/

namespace Token

/-- Two tokens are the same piece of a text, which begins at `p` for the one and at `q` for the
other. -/
structure SamePiece (p q : Position) (text : List Char) (t u : Token) : Prop where
  content : u.content = t.content
  exists_front : ∃ front back, text = front ++ Layout.written t ++ back ∧
    (t.isEnd = true → back = []) ∧ t.pos = p.after front ∧ u.pos = q.after front

/-- A piece stays one when something is put before the text. -/
theorem SamePiece.of_append {p q : Position} {before text : List Char} {t u : Token}
    (h : SamePiece (p.after before) (q.after before) text t u) :
    SamePiece p q (before ++ text) t u := by
  rcases h.exists_front with ⟨front, back, htext, hback, ht, hu⟩
  refine ⟨h.content, before ++ front, back, ?_, hback, ?_, ?_⟩
  · rw [htext]
    simp
  · rw [Position.after_append, ht]
  · rw [Position.after_append, hu]

/-- By induction on the row of blanks and tokens: a text is lexed from every place, piece by
piece. -/
theorem Lexed.relocate {p : Position} {text : List Char} {tokens : List Token}
    (h : Lexed p text tokens) (q : Position) :
    ∃ tokens', Lexed q text tokens' ∧ List.Forall₂ (SamePiece p q text) tokens tokens' := by
  induction h generalizing q with
  | nil =>
    refine ⟨_, .nil, List.Forall₂.cons ⟨rfl, [], [], rfl, ?_, rfl, rfl⟩ .nil⟩
    intro _
    rfl
  | @blank p c rest tokens isBlank _ ih =>
    rcases ih (q.next c) with ⟨tokens', hlexed, hpieces⟩
    refine ⟨tokens', .blank isBlank hlexed, hpieces.imp ?_⟩
    intro t u hpiece
    have hmoved : SamePiece p q ([c] ++ rest) t u := SamePiece.of_append hpiece
    exact hmoved
  | @token first rest tokens fits inside separate _ ih =>
    have hafter : ∀ moved : Position, moved.after first.lexeme.toList =
        stop ⟨first.kind, first.lexeme, moved⟩ := by
      intro moved
      exact Fits.after_lexeme (t := ⟨first.kind, first.lexeme, moved⟩) fits inside
    rcases ih (stop ⟨first.kind, first.lexeme, q⟩) with ⟨tokens', hlexed, hpieces⟩
    refine ⟨⟨first.kind, first.lexeme, q⟩ :: tokens', ?_, List.Forall₂.cons ?_ (hpieces.imp ?_)⟩
    · exact Lexed.token (t := ⟨first.kind, first.lexeme, q⟩) fits inside separate hlexed
    · have hwritten : Layout.written first = first.lexeme.toList := by
        simp [Layout.written, inside]
      refine ⟨rfl, [], rest, by rw [hwritten]; rfl, ?_, rfl, rfl⟩
      intro hend
      rw [inside] at hend
      exact absurd hend (by simp)
    · intro t u hpiece
      refine SamePiece.of_append ?_
      rw [hafter q, fits.after_lexeme inside]
      exact hpiece

/-- The tokens of a text and its end of file, from two places. -/
theorem forall₂_samePiece {text : List Char} (h : ∀ c ∈ text, InAlphabet c) (p q : Position) :
    List.Forall₂ (SamePiece p q text) (ofText p text ++ [endOfFile (p.after text)])
      (ofText q text ++ [endOfFile (q.after text)]) := by
  rcases exists_lexed h p with ⟨tokens, htokens⟩
  rcases htokens.relocate q with ⟨tokens', htokens', hpieces⟩
  rw [htokens.tokens_eq, htokens'.tokens_eq] at hpieces
  exact hpieces

section Forall₂

variable {R : Token → Token → Prop} (hR : ∀ t u, R t u → u.content = t.content)

include hR

theorem contents_of_forall₂ {tokens tokens' : List Token} (h : List.Forall₂ R tokens tokens') :
    tokens'.map content = tokens.map content := by
  induction h with
  | nil => rfl
  | cons hfirst _ ih => rw [List.map_cons, List.map_cons, hR _ _ hfirst, ih]

/-- The tokens before the last ones correspond too. -/
theorem contents_of_forall₂_concat {inside inside' : List Token} {stop stop' : Token}
    (h : List.Forall₂ R (inside ++ [stop]) (inside' ++ [stop'])) :
    inside'.map content = inside.map content := by
  have hwhole := contents_of_forall₂ hR h
  rw [List.map_append, List.map_append] at hwhole
  exact (List.append_inj' hwhole rfl).1

end Forall₂

theorem contents_ofText {text : List Char} (h : ∀ c ∈ text, InAlphabet c) (p q : Position) :
    (ofText q text).map content = (ofText p text).map content :=
  contents_of_forall₂_concat (fun _ _ hpiece => hpiece.content) (forall₂_samePiece h p q)

end Token

end Abacus
