import Abacus.Failure
import Abacus.Proofs.Recognition

/-!
# Viable prefixes

A program that cannot be read is refused at the first token that no continuation can repair.

1. A scan that fails has gone through some tokens before (`Scan.Reaches`) and fails at the next one,
   which is the token that the error names (`exists_reaches_of_error`, `token_of_take`).
2. Wherever a scan stands, it can be brought to its end: with an operand, if one has to come, and a
   closing parenthesis for every grouping that is open (`Scan.completion`).  No grouping is opened
   for that, so the limit on their number does not matter.
3. What a scan does with a token does not depend on the tokens behind it.
-/

namespace Abacus

namespace Scan

/-! ## Going through tokens -/

/-- The tokens take one scan to another, and none of them accepts or fails. -/
inductive Reaches : Scan → List Token → Scan → Prop
  | nil {s : Scan} : Reaches s [] s
  | cons {s s' s'' : Scan} {t : Token} {rest : List Token} (step : s.take t = .ok (.more s'))
    (others : Reaches s' rest s'') : Reaches s (t :: rest) s''

section Reaches

variable {stop : Token} {s s' : Scan} {front tokens : List Token} {e : ParseError}

theorem Reaches.run_append (h : Reaches s front s') (rest : List Token) :
    run stop s (front ++ rest) = run stop s' rest := by
  induction h with
  | nil => rfl
  | cons step _ ih => exact (run_cons_more step).trans ih

theorem Reaches.isEnd_eq_false (h : Reaches s front s') : ∀ t ∈ front, t.isEnd = false := by
  induction h with
  | nil => simp
  | @cons s s' _ t rest step _ ih =>
    intro u hu
    rcases List.mem_cons.mp hu with rfl | hrest
    · rw [Bool.eq_false_iff]
      intro hend
      exact take_of_isEnd hend s s' step
    · exact ih u hrest

/-- By induction on the tokens: the scan goes on until one of them fails, or `stop` does. -/
theorem exists_reaches_of_error (h : run stop s tokens = .error e) :
    ∃ front rest s', tokens = front ++ rest ∧ Reaches s front s' ∧
      s'.take (rest.headD stop) = .error e := by
  induction tokens generalizing s with
  | nil =>
    refine ⟨[], [], s, rfl, .nil, ?_⟩
    cases htake : s.take stop with
    | ok next =>
      rw [run, htake] at h
      exact absurd h (by simp)
    | error e' =>
      rw [run_nil_error htake] at h
      rw [List.headD_nil, htake, Except.error.inj h]
  | cons t tokens ih =>
    cases htake : s.take t with
    | error e' =>
      rw [run_cons_error htake] at h
      refine ⟨[], t :: tokens, s, rfl, .nil, ?_⟩
      rw [List.headD_cons, htake, Except.error.inj h]
    | ok next =>
      cases next with
      | accept =>
        rw [run, htake] at h
        exact absurd h (by simp)
      | more s' =>
        rw [run_cons_more htake] at h
        obtain ⟨front, rest, s'', rfl, hreaches, hfails⟩ := ih h
        exact ⟨t :: front, rest, s'', rfl, .cons htake hreaches, hfails⟩

end Reaches

/-! ## The token of an error -/

section Token

variable {t : Token} {depth : Nat} {e : ParseError}

theorem token_of_takeOperand (h : takeOperand depth t = .error e) : e.token = t := by
  unfold takeOperand at h
  split at h
  · exact absurd h (by simp)
  · split at h
    · exact absurd h (by simp)
    · rw [← Except.error.inj h]
      rfl
  · split at h
    · rw [← Except.error.inj h]
      rfl
    · exact absurd h (by simp)
  · rw [← Except.error.inj h]
    rfl

theorem token_of_takeStart (h : takeStart depth t = .error e) : e.token = t := by
  unfold takeStart at h
  split at h
  · exact absurd h (by simp)
  · exact token_of_takeOperand h

/-- A token that fails a scan is the one that the error names. -/
theorem token_of_take {s : Scan} (h : s.take t = .error e) : e.token = t := by
  rcases s with ⟨mode, depth⟩
  cases mode with
  | start => exact token_of_takeStart h
  | operand => exact token_of_takeOperand h
  | after =>
    rw [take_after] at h
    unfold takeAfter at h
    split at h
    · exact absurd h (by simp)
    split at h
    · exact token_of_takeStart h
    split at h
    · exact absurd h (by simp)
    · rw [← Except.error.inj h]
      rfl

end Token

/-! ## Completions -/

/-- A closing parenthesis for every one of `depth` open groupings. -/
def closings (depth : Nat) : List Token := List.replicate depth ⟨.closeParen, ")", .start⟩

/-- Tokens that bring a scan to its end. -/
def completion : Scan → List Token
  | ⟨.start, _⟩ => []
  | ⟨.operand, depth⟩ => ⟨.identifier, "x", .start⟩ :: closings depth
  | ⟨.after, depth⟩ => closings depth

section Completion

variable {stop : Token}

/-- By induction on the open groupings: each parenthesis closes the innermost one. -/
theorem run_closings (hstop : stop.isEnd = true) (depth : Nat) :
    run stop ⟨.after, depth⟩ (closings depth) = .ok () := by
  induction depth with
  | zero =>
    show run stop ⟨.after, 0⟩ [] = .ok ()
    rw [run, take_after, takeAfter_of_isEnd hstop]
    rfl
  | succ depth ih =>
    have hcloses : take ⟨.after, depth + 1⟩ ⟨.closeParen, ")", .start⟩ =
        .ok (.more ⟨.after, depth⟩) := by
      rw [take_after, takeAfter_succ (fun _ => Token.operator?_eq_none (by simp) _)]
      rfl
    exact (run_cons_more hcloses).trans ih

theorem run_completion (hstop : stop.isEnd = true) (s : Scan) :
    run stop s s.completion = .ok () := by
  rcases s with ⟨mode, depth⟩
  cases mode with
  | start =>
    show run stop ⟨.start, depth⟩ [] = .ok ()
    rw [run, take_start, takeStart, if_pos hstop]
  | operand =>
    have hname : take ⟨.operand, depth⟩ ⟨.identifier, "x", .start⟩ =
        .ok (.more ⟨.after, depth⟩) := rfl
    exact (run_cons_more hname).trans (run_closings hstop depth)
  | after => exact run_closings hstop depth

end Completion

end Scan

namespace Program

variable {tokens : List Token} {e : ParseError}

/-- The readers end as the scan does, for every buffer. -/
theorem ofTokens_ends_as_run (tokens : List Token) :
    (∃ program, (ofTokens tokens).result = .ok program ∧
      Scan.run (suppliedEnd tokens) ⟨.start, 0⟩ tokens = .ok ()) ∨
    ∃ e, (ofTokens tokens).result = .error e ∧
      Scan.run (suppliedEnd tokens) ⟨.start, 0⟩ tokens = .error e := by
  have hbefore : ∀ t ∈ tokens.takeWhile (fun t => !t.isEnd), t.isEnd = false := by
    intro t ht
    simpa using List.all_eq_true.mp List.all_takeWhile t ht
  have hrun : (ofTokens tokens).result.map (fun _ => ()) =
      Scan.run (endToken tokens) ⟨.start, 0⟩ (tokens.takeWhile fun t => !t.isEnd) :=
    readStatements_eq_run (isEnd_endToken tokens) hbefore
  rw [Scan.run_eq_run_before_end]
  cases hresult : (ofTokens tokens).result with
  | ok program =>
    rw [hresult] at hrun
    exact .inl ⟨program, rfl, hrun.symm⟩
  | error e =>
    rw [hresult] at hrun
    exact .inr ⟨e, rfl, hrun.symm⟩

theorem ofTokens_eq_error_iff :
    (ofTokens tokens).result = .error e ↔
      Scan.run (suppliedEnd tokens) ⟨.start, 0⟩ tokens = .error e := by
  rcases ofTokens_ends_as_run tokens with ⟨program, hresult, hrun⟩ | ⟨e', hresult, hrun⟩
  · rw [hresult, hrun]
    simp
  · rw [hresult, hrun]
    simp

theorem exists_ofTokens_eq_ok_iff :
    (∃ program, (ofTokens tokens).result = .ok program) ↔
      Scan.run (suppliedEnd tokens) ⟨.start, 0⟩ tokens = .ok () := by
  rcases ofTokens_ends_as_run tokens with ⟨program, hresult, hrun⟩ | ⟨e', hresult, hrun⟩
  · rw [hresult, hrun]
    simp
  · rw [hresult, hrun]
    simp

/-- Tokens that are refused have a place `k`, not behind their first end of file, where the token
that the error names stands.  What stands before it can be completed to a program, but not with this
token next: whatever follows, the same error is found. -/
theorem error_at_first_unviable_token (h : (ofTokens tokens).result = .error e) :
    ∃ k ≤ tokens.findIdx Token.isEnd, e.token = tokens[k]?.getD (suppliedEnd tokens) ∧
      (∃ after program, (ofTokens (tokens.take k ++ after)).result = .ok program) ∧
      ∀ after, (ofTokens (tokens.take k ++ [e.token] ++ after)).result = .error e := by
  obtain ⟨front, rest, s, htokens, hreaches, hfails⟩ :=
    Scan.exists_reaches_of_error (ofTokens_eq_error_iff.mp h)
  have hfront : tokens.take front.length = front := by
    rw [htokens]
    exact List.take_left
  have htoken : e.token = rest.headD (suppliedEnd tokens) := Scan.token_of_take hfails
  refine ⟨front.length, ?_, ?_, ?_, ?_⟩
  · -- the tokens gone through are no end of file
    calc front.length = front.findIdx Token.isEnd :=
          (List.findIdx_eq_length_of_false hreaches.isEnd_eq_false).symm
      _ ≤ (front ++ rest).findIdx Token.isEnd := (List.prefix_append front rest).findIdx_le
      _ = tokens.findIdx Token.isEnd := by rw [htokens]
  · rw [htoken, htokens, List.getElem?_append_right (Nat.le_refl _)]
    cases rest with
    | nil => simp
    | cons t rest => simp
  · rw [hfront]
    refine ⟨s.completion, exists_ofTokens_eq_ok_iff.mpr ?_⟩
    rw [hreaches.run_append]
    exact Scan.run_completion rfl s
  · intro after
    rw [hfront, List.append_assoc, ofTokens_eq_error_iff, hreaches.run_append]
    rw [htoken]
    exact Scan.run_cons_error hfails

/-- In `( x + ) y` the fault lies at the parenthesis: `( x +` can be completed. -/
theorem error_at_missing_operand :
    let opening : Token := ⟨.openParen, "(", ⟨1, 1⟩⟩
    let x : Token := ⟨.identifier, "x", ⟨1, 3⟩⟩
    let plus : Token := ⟨.operator, "+", ⟨1, 5⟩⟩
    let closing : Token := ⟨.closeParen, ")", ⟨1, 7⟩⟩
    let tokens := [opening, x, plus, closing, ⟨.identifier, "y", ⟨1, 9⟩⟩]
    (ofTokens tokens).result = .error (.unexpected closing) ∧
      ∃ k ≤ tokens.findIdx Token.isEnd, closing = tokens[k]?.getD (suppliedEnd tokens) ∧
        (∃ after program, (ofTokens (tokens.take k ++ after)).result = .ok program) ∧
        ∀ after, (ofTokens (tokens.take k ++ [closing] ++ after)).result =
          .error (.unexpected closing) := by
  intro opening x plus closing tokens
  have h : (ofTokens tokens).result = .error (.unexpected closing) :=
    ofTokens_eq_error_iff.mpr rfl
  exact ⟨h, error_at_first_unviable_token h⟩

end Program

end Abacus
