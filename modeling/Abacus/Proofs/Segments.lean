import Abacus.Proofs.Viability
import Mathlib.Data.List.Forall2
import Mathlib.Data.List.TakeWhile

/-!
# Buffers statement by statement

The records of a reading cut its buffer into statements, whether the reading succeeds or not.

1. A reading takes the tokens of one statement after the other off the front, until the rest is
   empty or begins with no statement (`readStatements_parted`).
2. There is one record for each of these statements, and its cursor stands behind the statement
   (`recordsAfter`, `cursorsAfter`).  So the cursors grow, and the tokens between two of them are a
   statement (`isChain_cursorsAfter`, `forall₂_extract_cursorsAfter`).
3. Alone, each statement is read as it was read in the buffer, and the rest fails as the buffer does
   (`exists_parted`).  Neither the tokens before nor those behind a cut matter.
-/

namespace Abacus.Program

/-! ## The records of statements -/

/-- The records of some statements, given by their tokens, when `soFar` counts what has been read
before them. -/
def recordsAfter (soFar : StatementRecord) : List (List Token) → List StatementRecord
  | [] => []
  | statement :: others =>
    let record := ⟨soFar.index + 1, soFar.cursor + statement.length⟩
    record :: recordsAfter record others

/-- The places behind some statements, given by their tokens, the first of which begins at
`cursor`. -/
def cursorsAfter (cursor : Nat) : List (List Token) → List Nat
  | [] => []
  | statement :: others =>
    (cursor + statement.length) :: cursorsAfter (cursor + statement.length) others

section Records

variable {cursor : Nat} {statements : List (List Token)}

/-- The statements are counted one by one. -/
theorem map_index_recordsAfter (soFar : StatementRecord) (statements : List (List Token)) :
    (recordsAfter soFar statements).map StatementRecord.index =
      List.range' (soFar.index + 1) (recordsAfter soFar statements).length := by
  induction statements generalizing soFar with
  | nil => rfl
  | cons statement others ih =>
    rw [recordsAfter, List.map_cons, ih, List.length_cons, List.range'_succ]

theorem map_cursor_recordsAfter (soFar : StatementRecord) (statements : List (List Token)) :
    (recordsAfter soFar statements).map StatementRecord.cursor =
      cursorsAfter soFar.cursor statements := by
  induction statements generalizing soFar with
  | nil => rfl
  | cons statement others ih => rw [recordsAfter, List.map_cons, ih, cursorsAfter]

/-- Every statement has a token, so the cursors grow. -/
theorem isChain_cursorsAfter (h : ∀ statement ∈ statements, statement ≠ []) :
    (cursor :: cursorsAfter cursor statements).IsChain (· < ·) := by
  induction statements generalizing cursor with
  | nil => exact .singleton _
  | cons statement others ih =>
    have hlength := List.length_pos_iff.mpr (h statement (by simp))
    rw [cursorsAfter, List.isChain_cons_cons]
    constructor
    · omega
    · apply ih
      intro other hother
      exact h other (List.mem_cons_of_mem _ hother)

/-- The last cursor stands behind all of the statements. -/
theorem getLastD_cursorsAfter (cursor : Nat) (statements : List (List Token)) :
    (cursorsAfter cursor statements).getLastD cursor = cursor + statements.flatten.length := by
  induction statements generalizing cursor with
  | nil => rfl
  | cons statement others ih =>
    rw [cursorsAfter, List.getLastD_cons, ih, List.flatten_cons, List.length_append, Nat.add_assoc]

/-- The tokens between two neighbouring cursors are those of a statement, so what holds of the
statements holds of them. -/
theorem forall₂_extract_cursorsAfter {R : List Token → Expr → Prop} {program : Program}
    (h : List.Forall₂ R statements program) (before rest : List Token) :
    List.Forall₂ (fun cut e => R ((before ++ (statements.flatten ++ rest)).extract cut.1 cut.2) e)
      ((before.length :: cursorsAfter before.length statements).zip
        (cursorsAfter before.length statements)) program := by
  induction h generalizing before with
  | nil => exact .nil
  | @cons statement e others program hfirst _ ih =>
    have hlist : before ++ ((statement :: others).flatten ++ rest) =
        before ++ statement ++ (others.flatten ++ rest) := by
      simp
    have hothers := ih (before ++ statement)
    rw [List.length_append] at hothers
    rw [cursorsAfter, List.zip_cons_cons, hlist]
    constructor
    · rw [List.extract_eq_take_drop]
      simpa using hfirst
    · exact hothers

end Records

/-! ## The run -/

/-- By induction on the run: every round reads the tokens of one statement off the front, until no
token is left or the rest cannot be read. -/
theorem readStatements_parted (stop : Token) (body : Program) (records : List StatementRecord)
    (soFar : StatementRecord) (tokens : List Token) :
    ∃ statements program rest, tokens = statements.flatten ++ rest ∧
      List.Forall₂ (Derives maxNesting .sum) statements program ∧
      (readStatements stop body records soFar tokens).trace =
        records.reverse ++ recordsAfter soFar statements ∧
      (rest = [] ∧ (readStatements stop body records soFar tokens).result =
          .ok (body.reverse ++ program) ∨
        rest ≠ [] ∧ ∃ e, Reader.statement stop rest = .error e ∧
          (readStatements stop body records soFar tokens).result = .error e) := by
  induction body, records, soFar, tokens using readStatements.induct stop with
  | case1 body records soFar =>
    refine ⟨[], [], [], rfl, .nil, ?_, .inl ⟨rfl, ?_⟩⟩
    · simp [readStatements_nil, recordsAfter]
    · simp [readStatements_nil]
  | case2 body records soFar t rest e hread =>
    refine ⟨[], [], t :: rest, rfl, .nil, ?_, .inr ⟨by simp, e, hread, ?_⟩⟩
    · rw [readStatements, hread]
      simp [recordsAfter]
    · exact readStatements_of_error (by simp) hread
  | case3 body records soFar t rest r hread record ih =>
    rcases Reader.statement_sound stop (t :: rest) r hread with ⟨front, htokens, hderives⟩
    rcases ih with ⟨statements, program, left, hleft, hall, htrace, hending⟩
    -- the cursor moves over the tokens of this statement
    have hused : r.used = front.length := by
      have hlength := r.used_add_length
      have hsplit := congrArg List.length htokens
      rw [List.length_append] at hsplit
      omega
    have hrecord : record = ⟨soFar.index + 1, soFar.cursor + front.length⟩ := by
      rw [← hused]
    rw [readStatements_of_ok hread]
    refine ⟨front :: statements, r.tree :: program, left, ?_, .cons hderives hall, ?_, ?_⟩
    · rw [List.flatten_cons, List.append_assoc, ← hleft]
      exact htokens
    · rw [htrace, hrecord, recordsAfter]
      simp
    · simpa using hending

/-! ## Buffers -/

section Buffer

variable {tokens front rest : List Token} {e : ParseError}

theorem takeWhile_isEnd_append (hfront : ∀ t ∈ front, t.isEnd = false) (rest : List Token) :
    (front ++ rest).takeWhile (fun t => !t.isEnd) =
      front ++ rest.takeWhile fun t => !t.isEnd := by
  apply List.takeWhile_append_of_pos
  intro t ht
  rw [hfront t ht]
  rfl

/-- The tokens of a single statement are a program of that statement. -/
theorem ofTokens_of_derives {tree : Expr} (h : Derives maxNesting .sum tokens tree) :
    (ofTokens tokens).result = .ok [tree] := by
  have hprogram : IsProgram (tokens ++ []) [tree] := .cons h .nil
  have htake := takeWhile_isEnd_append h.isEnd_eq_false []
  rw [List.takeWhile_nil, List.append_nil] at htake
  rw [List.append_nil] at hprogram
  unfold ofTokens
  rw [htake]
  exact readStatements_eq_ok_iff.mpr hprogram

/-- Tokens in front of others do not move their end. -/
theorem endToken_append (hfront : ∀ t ∈ front, t.isEnd = false) (hrest : rest ≠ []) :
    endToken (front ++ rest) = endToken rest := by
  have hnone : front.find? Token.isEnd = none := by
    apply List.find?_eq_none.mpr
    intro t ht
    simp [hfront t ht]
  unfold endToken suppliedEnd
  rw [List.find?_append, hnone, Option.none_or, List.getLast?_append_of_ne_nil front hrest]

/-- A rest that begins with no statement fails in the same way without the tokens before it. -/
theorem ofTokens_of_statement_error (hfront : ∀ t ∈ front, t.isEnd = false)
    (hne : rest.takeWhile (fun t => !t.isEnd) ≠ [])
    (h : Reader.statement (endToken (front ++ rest)) (rest.takeWhile fun t => !t.isEnd) =
      .error e) : (ofTokens rest).result = .error e := by
  have hrest : rest ≠ [] := by
    rintro rfl
    exact hne rfl
  rw [endToken_append hfront hrest] at h
  exact readStatements_of_error hne h

/-- The first end of file stands behind tokens that are none. -/
theorem findIdx_isEnd_append (hfront : ∀ t ∈ front, t.isEnd = false) (rest : List Token) :
    (front ++ rest).findIdx Token.isEnd = front.length + rest.findIdx Token.isEnd := by
  rw [List.findIdx_append, List.findIdx_eq_length_of_false hfront, if_neg (Nat.lt_irrefl _),
    Nat.add_comm]

theorem findIdx_isEnd_of_takeWhile_nil (h : rest.takeWhile (fun t => !t.isEnd) = []) :
    rest.findIdx Token.isEnd = 0 := by
  rw [List.takeWhile_eq_take_findIdx_not, List.take_eq_nil_iff] at h
  simp only [Bool.not_not] at h
  rcases h with hzero | rfl
  · exact hzero
  · rfl

end Buffer

/-- The buffer is cut into the tokens of statements and a rest.  Each statement is one on its own,
and the rest is where the program ends, or it fails as the buffer does. -/
structure Parted (tokens : List Token) (statements : List (List Token)) (program : Program)
    (rest : List Token) : Prop where
  tokens_eq : tokens = statements.flatten ++ rest
  inside : ∀ t ∈ statements.flatten, t.isEnd = false
  nonempty : ∀ statement ∈ statements, statement ≠ []
  alone : List.Forall₂ (fun statement e => (ofTokens statement).result = .ok [e]) statements program
  trace : (ofTokens tokens).trace = recordsAfter ⟨0, 0⟩ statements
  ending : rest.findIdx Token.isEnd = 0 ∧ (ofTokens tokens).result = .ok program ∨
    ∃ e, (ofTokens tokens).result = .error e ∧ (ofTokens rest).result = .error e

theorem exists_parted (tokens : List Token) :
    ∃ statements program rest, Parted tokens statements program rest := by
  rcases readStatements_parted (endToken tokens) [] [] ⟨0, 0⟩ (tokens.takeWhile fun t => !t.isEnd)
    with ⟨statements, program, left, hleft, hall, htrace, hending⟩
  have heach : ∀ statement ∈ statements, statement ≠ [] ∧ ∀ t ∈ statement, t.isEnd = false := by
    refine ((List.forall₂_and_left (R := Derives maxNesting .sum) _ _).mp (hall.imp ?_)).1
    intro statement e h
    exact ⟨⟨h.tokens_ne_nil, h.isEnd_eq_false⟩, h⟩
  have hinside : ∀ t ∈ statements.flatten, t.isEnd = false := by
    intro t ht
    rcases List.mem_flatten.mp ht with ⟨statement, hstatement, hmem⟩
    exact (heach statement hstatement).2 t hmem
  -- everything from the first unread token on, with what stands behind the end of file
  have htokens : tokens = statements.flatten ++ (left ++ tokens.dropWhile fun t => !t.isEnd) := by
    rw [← List.append_assoc, ← hleft]
    exact List.takeWhile_append_dropWhile.symm
  generalize left ++ tokens.dropWhile (fun t => !t.isEnd) = rest at htokens
  have hrest : rest.takeWhile (fun t => !t.isEnd) = left := by
    have hboth : statements.flatten ++ rest.takeWhile (fun t => !t.isEnd) =
        statements.flatten ++ left := by
      rw [← hleft, htokens]
      exact (takeWhile_isEnd_append hinside rest).symm
    exact List.append_cancel_left hboth
  refine ⟨statements, program, rest, htokens, hinside, ?_, ?_, htrace, ?_⟩
  · intro statement hstatement
    exact (heach statement hstatement).1
  · exact hall.imp fun _ _ => ofTokens_of_derives
  · rcases hending with ⟨rfl, hresult⟩ | ⟨hne, e, hread, hresult⟩
    · exact .inl ⟨findIdx_isEnd_of_takeWhile_nil hrest, hresult⟩
    · rw [← hrest] at hne hread
      rw [htokens] at hread
      exact .inr ⟨e, hresult, ofTokens_of_statement_error hinside hne hread⟩

/-- The records of a reading number the statements of a buffer, and their cursors cut it: they grow
and stay before the first end of file, and the tokens between two neighbouring cursors are a single
statement on their own.  If the buffer is a program, these are its statements and nothing is left
behind the last cursor; if not, what is left behind it fails with the error of the buffer. -/
theorem statements_between_cursors (tokens : List Token) :
    let records := (ofTokens tokens).trace
    let cursors := records.map StatementRecord.cursor
    let last := cursors.getLastD 0
    records.map StatementRecord.index = List.range' 1 records.length ∧
      (0 :: cursors).IsChain (· < ·) ∧ last ≤ tokens.findIdx Token.isEnd ∧
      ∃ statements : Program,
        List.Forall₂ (fun cut e => (ofTokens (tokens.extract cut.1 cut.2)).result = .ok [e])
          ((0 :: cursors).zip cursors) statements ∧
        (∀ body, (ofTokens tokens).result = .ok body →
          last = tokens.findIdx Token.isEnd ∧ body = statements) ∧
        ∀ e, (ofTokens tokens).result = .error e →
          (ofTokens (tokens.drop last)).result = .error e := by
  intro records cursors last
  rcases exists_parted tokens with ⟨statements, program, rest, hparted⟩
  have hcursors : cursors = cursorsAfter 0 statements := by
    change (ofTokens tokens).trace.map _ = _
    rw [hparted.trace, map_cursor_recordsAfter]
  have hlast : last = statements.flatten.length := by
    change cursors.getLastD 0 = _
    rw [hcursors, getLastD_cursorsAfter, Nat.zero_add]
  have hend : tokens.findIdx Token.isEnd = last + rest.findIdx Token.isEnd := by
    rw [hparted.tokens_eq, hlast]
    exact findIdx_isEnd_append hparted.inside rest
  refine ⟨?_, ?_, ?_, program, ?_, ?_, ?_⟩
  · change (ofTokens tokens).trace.map _ = List.range' 1 (ofTokens tokens).trace.length
    rw [hparted.trace]
    exact map_index_recordsAfter ⟨0, 0⟩ statements
  · rw [hcursors]
    exact isChain_cursorsAfter hparted.nonempty
  · omega
  · rw [hcursors, hparted.tokens_eq]
    exact forall₂_extract_cursorsAfter hparted.alone [] rest
  · intro body hbody
    rcases hparted.ending with ⟨hzero, hprogram⟩ | ⟨e, herror, _⟩
    · rw [hprogram] at hbody
      exact ⟨by omega, (Except.ok.inj hbody).symm⟩
    · exact absurd (herror.symm.trans hbody) (by simp)
  · intro e he
    have hdrop : tokens.drop last = rest := by
      rw [hparted.tokens_eq, hlast]
      exact List.drop_left
    rcases hparted.ending with ⟨_, hprogram⟩ | ⟨e', herror, hrest⟩
    · exact absurd (hprogram.symm.trans he) (by simp)
    · rw [hdrop, hrest]
      exact herror.symm.trans he

/-- `a + b x` is two statements.  With `( c` behind it the buffer fails as `( c` does, which no
parenthesis closes. -/
theorem statements_before_open_group :
    let sum : List Token :=
      [⟨.identifier, "a", ⟨1, 1⟩⟩, ⟨.operator, "+", ⟨1, 3⟩⟩, ⟨.identifier, "b", ⟨1, 5⟩⟩]
    let x : Token := ⟨.identifier, "x", ⟨1, 7⟩⟩
    let group : List Token :=
      [⟨.openParen, "(", ⟨1, 9⟩⟩, ⟨.identifier, "c", ⟨1, 11⟩⟩, .endOfFile ⟨1, 12⟩]
    let fault : ParseError := .expected .closeParen (.endOfFile ⟨1, 12⟩)
    ((ofTokens (sum ++ [x] ++ group)).trace = [⟨1, 3⟩, ⟨2, 4⟩] ∧
      (ofTokens (sum ++ [x] ++ group)).result = .error fault ∧
      (ofTokens group).result = .error fault) ∧
    ∃ first second, (ofTokens sum).result = .ok [first] ∧ (ofTokens [x]).result = .ok [second] ∧
      (ofTokens (sum ++ [x])).result = .ok [first, second] := by
  intro sum x group fault
  constructor
  · have htrace : (ofTokens (sum ++ [x] ++ group)).trace = [⟨1, 3⟩, ⟨2, 4⟩] := by decide +kernel
    have hfault : (ofTokens (sum ++ [x] ++ group)).result = .error fault :=
      ofTokens_eq_error_iff.mpr rfl
    rcases statements_between_cursors (sum ++ [x] ++ group) with ⟨_, _, _, _, _, _, hrest⟩
    rw [htrace] at hrest
    exact ⟨htrace, hfault, hrest fault hfault⟩
  · have htrace : (ofTokens (sum ++ [x])).trace = [⟨1, 3⟩, ⟨2, 4⟩] := by decide +kernel
    have hgood : ∃ body, (ofTokens (sum ++ [x])).result = .ok body :=
      exists_ofTokens_eq_ok_iff.mpr rfl
    rcases hgood with ⟨body, hgood⟩
    rcases statements_between_cursors (sum ++ [x]) with ⟨_, _, _, statements, hslices, hbody, _⟩
    rw [htrace] at hslices
    rcases hslices with _ | ⟨hfirst, _ | ⟨hsecond, _ | _⟩⟩
    rw [(hbody body hgood).2] at hgood
    exact ⟨_, _, hfirst, hsecond, hgood⟩

end Abacus.Program
