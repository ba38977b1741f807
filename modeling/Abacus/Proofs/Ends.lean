import Abacus.Proofs.Contents
import Abacus.Proofs.Cuts
import Abacus.Proofs.Segments

/-!
# Ends of files

A buffer is read up to its end of file, and one that has none is read as if it had one.

1. Nothing but the tokens before an end of file and the end of file itself counts
   (`Program.ofTokens_of_isEnd`).
2. Two scans over the same tokens with different ends behind them do the same, until one of them
   fails at its end and the other one at its own (`Scan.run_of_stops`).  So a buffer without an end
   of file is read as the one with it is, up to the place of the end (`Program.ofTokens_concat`).
3. The supplied end stands directly behind the last token, and the end of a source behind all of its
   characters.  Between the two there are the blanks that the source ends in
   (`Token.Lexed.exists_trailing`), and every blank leads to a later place (`Position.after_eq_self`).
-/

namespace Abacus

/-! ## Later places -/

namespace Position

theorem le_after (p : Position) (text : List Char) : p ≤ p.after text := by
  induction text generalizing p with
  | nil => exact le_refl p
  | cons c text ih => exact le_trans (le_next p c) (ih (p.next c))

/-- A text leads to the place where it begins only if it is empty. -/
theorem after_eq_self {p : Position} {text : List Char} : p.after text = p ↔ text = [] := by
  constructor
  · intro h
    cases text with
    | nil => rfl
    | cons c text =>
      have hlater := le_after (p.next c) text
      rw [← after_cons, h] at hlater
      exact absurd hlater (not_next_le p c)
  · rintro rfl
    rfl

end Position

namespace Token

/-! ## Behind the last token -/

/-- The place directly behind some tokens, which is `p` if there are none. -/
def stopOf (p : Position) (tokens : List Token) : Position :=
  (tokens.getLast?.map stop).getD p

theorem stopOf_cons (p : Position) (t : Token) (tokens : List Token) :
    stopOf p (t :: tokens) = stopOf t.stop tokens := by
  cases tokens with
  | nil => rfl
  | cons u tokens =>
    unfold stopOf
    rw [List.getLast?_cons_cons, List.getLast?_eq_some_getLast (List.cons_ne_nil u tokens)]
    rfl

theorem stopOf_of_ne_nil {tokens : List Token} (h : tokens ≠ []) (p q : Position) :
    stopOf p tokens = stopOf q tokens := by
  cases tokens with
  | nil => exact absurd rfl h
  | cons t tokens => rw [stopOf_cons, stopOf_cons]

section Lexed

variable {p : Position} {text : List Char} {tokens : List Token}

theorem Lexed.ne_nil (h : Lexed p text tokens) : tokens ≠ [] := by
  rw [h.tokens_eq]
  simp

/-- By induction on the row of blanks and tokens: the text is cut behind its last token, and what
follows is blank.  Only a text without tokens is cut at its beginning, so that a blank in front of
the others belongs to what follows the cut exactly if there is no token. -/
theorem Lexed.exists_trailing (h : Lexed p text tokens) :
    ∃ front back, text = front ++ back ∧ (∀ c ∈ back, IsBlank c) ∧
      (∀ c ∈ front.getLast?, ¬ IsBlank c) ∧ (front = [] ↔ tokens.dropLast = []) ∧
      p.after front = stopOf p tokens.dropLast := by
  induction h with
  | nil => exact ⟨[], [], rfl, by simp, by simp, by simp, rfl⟩
  | @blank p c rest tokens isBlank _ ih =>
    rcases ih with ⟨front, back, hrest, hback, hlast, hempty, hstop⟩
    by_cases hnone : tokens.dropLast = []
    · have hfront : front = [] := hempty.mpr hnone
      refine ⟨[], c :: rest, rfl, ?_, by simp, by simp [hnone], by rw [hnone]; rfl⟩
      intro x hx
      rcases List.mem_cons.mp hx with rfl | hx
      · exact isBlank
      · rw [hrest, hfront, List.nil_append] at hx
        exact hback x hx
    · have hfront : front ≠ [] := fun hnil => hnone (hempty.mp hnil)
      refine ⟨c :: front, back, by rw [hrest]; rfl, hback, ?_, by simp [hnone], ?_⟩
      · rw [List.getLast?_cons_of_ne_nil hfront]
        exact hlast
      · rw [Position.after_cons, hstop]
        exact stopOf_of_ne_nil hnone _ _
  | @token t rest tokens fits inside _ others ih =>
    rcases ih with ⟨front, back, hrest, hback, hlast, _, hstop⟩
    have hlexeme := fits.toList_ne_nil inside
    have hinside : (t :: tokens).dropLast = t :: tokens.dropLast :=
      List.dropLast_cons_of_ne_nil others.ne_nil
    refine ⟨t.lexeme.toList ++ front, back, by rw [hrest, List.append_assoc], hback, ?_, ?_, ?_⟩
    · intro c hc
      by_cases hfront : front = []
      · -- the text is cut behind this token, whose characters are not blank
        rw [hfront, List.append_nil] at hc
        exact fits.not_isBlank inside (List.mem_of_getLast? hc)
      · rw [List.getLast?_append_of_ne_nil _ hfront] at hc
        exact hlast c hc
    · rw [hinside]
      simp [hlexeme]
    · rw [hinside, stopOf_cons, Position.after_append, fits.after_lexeme inside, hstop]

/-- A text ends behind its last token exactly if it does not end in a blank. -/
theorem Lexed.stopOf_eq_iff (h : Lexed p text tokens) :
    stopOf p tokens.dropLast = p.after text ↔ ∀ c ∈ text.getLast?, ¬ IsBlank c := by
  rcases h.exists_trailing with ⟨front, back, rfl, hback, hlast, _, hstop⟩
  rw [Position.after_append, ← hstop, eq_comm, Position.after_eq_self]
  constructor
  · rintro rfl
    rw [List.append_nil]
    exact hlast
  · intro hnot
    by_contra hne
    have hmem := List.getLast?_eq_some_getLast hne
    refine hnot (back.getLast hne) ?_ (hback _ (List.getLast_mem hne))
    rw [List.getLast?_append_of_ne_nil _ hne]
    exact hmem

end Lexed

end Token

/-! ## Two ends behind the same tokens -/

/-- A scan that fails does so at one of its tokens, and then the end does not matter, or it fails at
its end, and then any end with the same content fails it in the same way. -/
theorem Scan.run_of_stops {stop stop' : Token} (hsame : stop'.content = stop.content) {s : Scan}
    {tokens : List Token} {e : ParseError} (h : run stop s tokens = .error e) :
    (e.token ∈ tokens ∧ run stop' s tokens = .error e) ∨
      (e.token = stop ∧ run stop' s tokens = .error (e.atToken stop')) := by
  rcases exists_reaches_of_error h with ⟨front, rest, s', rfl, hreaches, hfails⟩
  have htoken := token_of_take hfails
  rw [hreaches.run_append]
  cases rest with
  | nil =>
    have htake := take_of_content hsame s'
    rw [List.headD_nil] at hfails htoken
    rw [hfails] at htake
    exact .inr ⟨htoken, run_nil_error htake⟩
  | cons t rest =>
    rw [List.headD_cons] at hfails htoken
    refine .inl ⟨?_, run_cons_error hfails⟩
    rw [htoken]
    simp

namespace Program

variable {tokens : List Token}

/-- A buffer is read up to its first end of file. -/
theorem ofTokens_of_isEnd {stop : Token} (htokens : ∀ t ∈ tokens, t.isEnd = false)
    (hstop : stop.isEnd = true) (after : List Token) :
    ofTokens (tokens ++ stop :: after) = readStatements stop [] [] ⟨0, 0⟩ tokens := by
  have hend : endToken (tokens ++ stop :: after) = stop := by
    rw [endToken_append htokens (List.cons_ne_nil stop after), endToken,
      List.find?_cons_of_pos hstop, Option.getD_some]
  have hbefore : (tokens ++ stop :: after).takeWhile (fun t => !t.isEnd) = tokens := by
    rw [takeWhile_isEnd_append htokens, List.takeWhile_cons_of_neg (by simp [hstop]),
      List.append_nil]
  unfold ofTokens
  rw [hend, hbefore]

/-- A buffer without an end of file is read as the one with an end behind it, except that a fault at
the end is found directly behind the last token and not in the place of that end. -/
theorem ofTokens_concat (htokens : ∀ t ∈ tokens, t.isEnd = false) (p : Position) :
    (∃ body, (ofTokens tokens).result = .ok body ∧
      (ofTokens (tokens ++ [.endOfFile p])).result = .ok body) ∨
    (∃ e, e.token.isEnd = false ∧ (ofTokens tokens).result = .error e ∧
      (ofTokens (tokens ++ [.endOfFile p])).result = .error e) ∨
    ∃ e last, tokens.getLast? = some last ∧ e.token = .endOfFile last.stop ∧
      (ofTokens tokens).result = .error e ∧
      (ofTokens (tokens ++ [.endOfFile p])).result = .error (e.atToken (.endOfFile p)) := by
  have hbefore : tokens.takeWhile (fun t => !t.isEnd) = tokens := by
    have htake := takeWhile_isEnd_append htokens []
    rwa [List.takeWhile_nil, List.append_nil] at htake
  cases hresult : (ofTokens tokens).result with
  | ok body =>
    left
    refine ⟨body, rfl, ?_⟩
    unfold ofTokens at hresult
    rw [hbefore, readStatements_eq_ok_iff] at hresult
    rw [ofTokens_of_isEnd htokens rfl []]
    exact readStatements_eq_ok_iff.mpr hresult
  | error e =>
    right
    -- with an end of file behind the tokens, the scan stops there
    have hrun : ∀ e', (ofTokens (tokens ++ [.endOfFile p])).result = .error e' ↔
        Scan.run (.endOfFile p) ⟨.start, 0⟩ tokens = .error e' := by
      intro e'
      have hfind : tokens.find? Token.isEnd = none := by
        apply List.find?_eq_none.mpr
        intro t ht
        simp [htokens t ht]
      rw [ofTokens_eq_error_iff, Scan.run_eq_run_before_end, takeWhile_isEnd_append htokens,
        List.find?_append, hfind]
      simp [Token.endOfFile, Token.isEnd]
    have hcontent : (Token.endOfFile p).content = (suppliedEnd tokens).content := rfl
    rcases Scan.run_of_stops hcontent (ofTokens_eq_error_iff.mp hresult) with
      ⟨hmem, hsame⟩ | ⟨htoken, hend⟩
    · left
      exact ⟨e, htokens _ hmem, rfl, (hrun e).mpr hsame⟩
    · right
      cases hlast : tokens.getLast? with
      | none =>
        -- without tokens there is nothing to fail
        rw [List.getLast?_eq_none_iff.mp hlast] at hresult
        exact absurd hresult (by simp [ofTokens, readStatements_nil])
      | some last =>
        refine ⟨e, last, rfl, ?_, rfl, (hrun _).mpr hend⟩
        rw [htoken, suppliedEnd, hlast]
        rfl

/-- What an end of file does.  Tokens behind the first one of a buffer do not matter.  A source is
read as its tokens without their end of file are: both come to the same program or to the same
fault, unless the fault is the end itself.  Then it is the same fault of two ends, of which the one
stands directly behind the last token and the other at the end of the source, and these are the same
place exactly if the source does not end in a blank. -/
theorem ofTokens_up_to_end :
    (∀ (a b : List Token) (stop : Token), (∀ t ∈ a, t.isEnd = false) → stop.isEnd = true →
      ofTokens (a ++ [stop] ++ b) = ofTokens (a ++ [stop])) ∧
    ∀ (source : String) (tokens : List Token) (stop : Token),
      (Token.tokenize source).result = .ok (tokens ++ [stop]) →
      (∃ body, (ofTokens tokens).result = .ok body ∧ (Run.program source).result = .ok body) ∨
      (∃ e, e.token.isEnd = false ∧ (ofTokens tokens).result = .error e ∧
        (Run.program source).result = .error (.parse e)) ∨
      ∃ e last, tokens.getLast? = some last ∧ e.token = .endOfFile last.stop ∧
        (ofTokens tokens).result = .error e ∧
        (Run.program source).result =
          .error (.parse (e.atToken (.endOfFile (.ofOffset source.toList source.length)))) ∧
        (last.stop = .ofOffset source.toList source.length ↔
          ∀ c ∈ source.toList.getLast?, ¬ IsBlank c) := by
  constructor
  · intro a b stop ha hstop
    rw [List.append_assoc, List.singleton_append, ofTokens_of_isEnd ha hstop b,
      ofTokens_of_isEnd ha hstop []]
  · intro source tokens stop hsource
    have hlexed := Token.tokenize_eq_ok_iff.mp hsource
    have hparts := List.append_inj' hlexed.tokens_eq rfl
    have hplace : Position.ofOffset source.toList source.length =
        Position.start.after source.toList := by
      rw [Position.ofOffset_eq_after, ← String.length_toList, List.take_length]
    have hinside : ∀ t ∈ tokens, t.isEnd = false := by
      intro t ht
      rw [hparts.1] at ht
      exact Token.isEnd_eq_false_of_mem ht
    rw [Run.result_program, hsource, hplace, (List.cons.inj hparts.2).1]
    rcases ofTokens_concat hinside (Position.start.after source.toList) with
      ⟨body, hbare, hended⟩ | ⟨e, hend, hbare, hended⟩ | ⟨e, last, hlast, htoken, hbare, hended⟩
    · left
      exact ⟨body, hbare, by simp only [hended, Except.mapError]⟩
    · right
      left
      exact ⟨e, hend, hbare, by simp only [hended, Except.mapError]⟩
    · right
      right
      refine ⟨e, last, hlast, htoken, hbare, by simp only [hended, Except.mapError], ?_⟩
      have hstop : Token.stopOf .start tokens = last.stop := by
        rw [Token.stopOf, hlast]
        rfl
      have hiff := hlexed.stopOf_eq_iff
      rw [List.dropLast_concat, hstop] at hiff
      exact hiff

/-- An operand is missing at the end of `(a+` and of that source with a space behind it, in different
places.  What stands behind an end of file, whatever its text and place, is not missed. -/
theorem ofTokens_up_to_missing_operand :
    let tokens : List Token :=
      [⟨.openParen, "(", ⟨1, 1⟩⟩, ⟨.identifier, "a", ⟨1, 2⟩⟩, ⟨.operator, "+", ⟨1, 3⟩⟩]
    let stop : Token := ⟨.endOfFile, "", ⟨7, 7⟩⟩
    (Token.tokenize "(a+ ").result = .ok (tokens ++ [.endOfFile ⟨1, 5⟩]) ∧
      (ofTokens tokens).result = .error (.unexpected (.endOfFile ⟨1, 4⟩)) ∧
      (Run.program "(a+ ").result = .error (.parse (.unexpected (.endOfFile ⟨1, 5⟩))) ∧
      ofTokens (tokens ++ [stop] ++ [⟨.identifier, "b", ⟨1, 4⟩⟩, ⟨.closeParen, ")", ⟨1, 5⟩⟩]) =
        ofTokens (tokens ++ [stop]) := by
  intro tokens stop
  have hsource : (Token.tokenize "(a+ ").result = .ok (tokens ++ [.endOfFile ⟨1, 5⟩]) :=
    Token.tokenize_of_isRecognized (by decide +kernel)
  have hbare : (ofTokens tokens).result = .error (.unexpected (.endOfFile ⟨1, 4⟩)) :=
    ofTokens_eq_error_iff.mpr rfl
  refine ⟨hsource, hbare, ?_, ofTokens_up_to_end.1 tokens _ stop (by decide) rfl⟩
  rcases ofTokens_up_to_end.2 "(a+ " tokens (.endOfFile ⟨1, 5⟩) hsource with
    ⟨body, hbody, _⟩ | ⟨e, hend, herror, _⟩ | ⟨e, last, _, _, herror, hprogram, _⟩
  · exact absurd (hbare.symm.trans hbody) (by simp)
  · obtain rfl := Except.error.inj (hbare.symm.trans herror)
    exact absurd hend (by decide)
  · obtain rfl := Except.error.inj (hbare.symm.trans herror)
    exact hprogram

end Program

end Abacus
