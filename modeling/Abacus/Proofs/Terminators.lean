import Abacus.Proofs.Characters
import Abacus.Proofs.Cuts

/-!
# What ends a line of a session

A line loses every newline and every carriage return at its end, not just the one that ends it.

1. What a session runs (`Session.strip`) lacks all carriage returns at the end of the text.  The
   rule, which takes away the terminator alone, be it a newline or a carriage return and a newline,
   leaves all of them but one (`Session.chomp`, `Session.exists_returns`).
2. A carriage return is not in the alphabet, so one that is left is reported, unless there is another
   foreign character before it (`Session.answer_of_isFirstFault`).
3. The answer to a source in the alphabet has no carriage return (`Session.shown_answer`), so it is
   never such a report.  So it can be told from the line whether the rule is kept
   (`Session.answer_strip_eq_iff`, `Session.run_line_answers_chomp_iff`).
-/

namespace Abacus

theorem Run.text_of_isFirstFault {source : String} {e : LexError} (h : IsFirstFault source e)
    (emit : Emit) : (text emit source).result = .error (.lex e) := by
  have hvalue := value_eq_lex_iff.mpr h
  cases emit with
  | value => exact text_value_eq_error_iff.mpr hvalue
  | tokens => exact text_tokens_eq_error_iff.mpr ⟨e, rfl, Token.tokenize_eq_error_iff.mpr h⟩
  | tree =>
    exact text_tree_eq_error_iff.mpr (program_eq_error_iff.mpr ⟨hvalue, .inl ⟨e, rfl⟩⟩)

namespace Session

/-- What is left of a line without its terminator, which is the newline that stands behind the text
and a carriage return before that. -/
def chomp (text : String) : String :=
  if text.toList.getLast? = some '\r' then String.ofList text.toList.dropLast else text

theorem not_isShown_return : ¬ IsShown '\r' := not_or.mpr ⟨not_inAlphabet_return, by decide⟩

theorem answer_of_isFirstFault {source : String} {e : LexError} (h : IsFirstFault source e)
    (emit : Emit) : answer emit source = (Failure.lex e).display := by
  rw [answer, Run.text_of_isFirstFault h]

/-- The report of a foreign character holds it, so no source in the alphabet has such an answer,
unless the character may be shown for another reason. -/
theorem answer_ne_display {source : String} (hchars : ∀ c ∈ source.toList, InAlphabet c)
    {e : LexError} (h : ¬ IsShown e.char) (emit : Emit) :
    answer emit source ≠ (Failure.lex e).display := by
  intro heq
  have hmessage : (Failure.lex e).message =
      "Unrecognized character '" ++ String.singleton e.char ++ "'" := rfl
  refine h (shown_answer hchars emit e.char ?_)
  rw [heq, Failure.display_lex, hmessage]
  simp

section Line

variable {text : String}

/-- A text is what a session runs of it and some carriage returns, of which the rule leaves all but
one. -/
theorem exists_returns (h : '\n' ∉ text.toList) :
    ∃ n, text.toList = (strip text).toList ++ List.replicate n '\r' ∧
      (chomp text).toList = (strip text).toList ++ List.replicate (n - 1) '\r' := by
  rcases strip_eq_iff.mp (Eq.refl (strip text)) with ⟨back, htext, hback, hlast⟩
  have hreturns : back = List.replicate back.length '\r' := by
    refine List.eq_replicate_iff.mpr ⟨rfl, ?_⟩
    intro c hc
    rcases hback c hc with rfl | hreturn
    · exact absurd (by rw [htext]; exact List.mem_append_right _ hc) h
    · exact hreturn
  rw [hreturns] at htext
  refine ⟨back.length, htext, ?_⟩
  unfold chomp
  cases hn : back.length with
  | zero =>
    -- there is no return to take away
    have hsame : text.toList = (strip text).toList := by
      rw [htext, hn]
      simp
    have hnot : text.toList.getLast? ≠ some '\r' := by
      rw [hsame]
      intro hreturn
      exact hlast _ hreturn (.inr rfl)
    rw [if_neg hnot, hsame]
    simp
  | succ n =>
    rw [hn, List.replicate_succ', ← List.append_assoc] at htext
    have hreturn : text.toList.getLast? = some '\r' := by
      rw [htext]
      simp
    rw [if_pos hreturn, htext, List.dropLast_concat, String.toList_ofList]
    rfl

/-- Either the rule leaves what a session runs, or there are carriage returns left behind that. -/
theorem chomp_cases (h : '\n' ∉ text.toList) :
    (chomp text).toList.getLast? ≠ some '\r' ∧ chomp text = strip text ∨
      (chomp text).toList.getLast? = some '\r' ∧
        ∃ back, chomp text = strip text ++ String.ofList ('\r' :: back) := by
  rcases exists_returns h with ⟨n, -, hchomp⟩
  cases hn : n - 1 with
  | zero =>
    rw [hn, List.replicate_zero, List.append_nil] at hchomp
    refine .inl ⟨?_, String.toList_inj.mp hchomp⟩
    rcases strip_eq_iff.mp (Eq.refl (strip text)) with ⟨_, _, _, hlast⟩
    rw [hchomp]
    intro hreturn
    exact hlast _ hreturn (.inr rfl)
  | succ k =>
    rw [hn] at hchomp
    refine .inr ⟨?_, List.replicate k '\r', ?_⟩
    · rw [hchomp, List.replicate_succ', ← List.append_assoc, List.getLast?_concat]
    · rw [← String.toList_inj, hchomp, String.toList_append, String.toList_ofList]
      rfl

/-- The returns that the rule leaves make no difference to the answer exactly if there are none, or
if another foreign character stands before them. -/
theorem answer_strip_eq_iff (emit : Emit) (h : '\n' ∉ text.toList) :
    answer emit (strip text) = answer emit (chomp text) ↔
      (chomp text).toList.getLast? ≠ some '\r' ∨ ∃ c ∈ (strip text).toList, ¬ InAlphabet c := by
  rcases chomp_cases h with ⟨hlast, hsame⟩ | ⟨hlast, back, hchomp⟩
  · rw [hsame] at hlast ⊢
    simp [hlast]
  by_cases hchars : ∀ c ∈ (strip text).toList, InAlphabet c
  · -- the return is the first foreign character, so the rule asks for a report of it
    have hfault : IsFirstFault (chomp text) ⟨'\r', Position.start.after (strip text).toList⟩ := by
      refine ⟨_, _, back, ?_, hchars, not_inAlphabet_return, rfl⟩
      rw [hchomp, String.toList_append, String.toList_ofList]
    rw [answer_of_isFirstFault hfault]
    constructor
    · intro heq
      exact absurd heq (answer_ne_display hchars (e := ⟨_, _⟩) not_isShown_return emit)
    · rintro (hnot | ⟨c, hc, hforeign⟩)
      · exact absurd hlast hnot
      · exact absurd (hchars c hc) hforeign
  · -- what is reported stands before all returns
    have hforeign : ∃ c ∈ (strip text).toList, ¬ InAlphabet c := by simpa using hchars
    rcases exists_isFirstFault_iff.mpr hforeign with ⟨e, hfault⟩
    have hchompfault := hfault.append (String.ofList ('\r' :: back))
    rw [← hchomp] at hchompfault
    rw [answer_of_isFirstFault hfault, answer_of_isFirstFault hchompfault]
    simp [hforeign]

/-- A session that leaves at once writes less than one that answers. -/
theorem opening_ne (text : String) : "\nRepl v0.1\n> " ≠ "\nRepl v0.1\n> " ++ text ++ "\n> " := by
  intro heq
  have hlength := congrArg String.length heq
  have hclosing : "\n> ".length = 3 := rfl
  rw [String.length_append, String.length_append] at hlength
  omega

/-- A session over a single line. -/
theorem run_line (hline : '\n' ∉ text.toList) (hexit : ¬ "exit".toList <:+: (strip text).toList)
    (emit : Emit) :
    run emit (Text.toBytes (text ++ "\n")) =
      ⟨if strip text = "" then "\nRepl v0.1\n> "
        else "\nRepl v0.1\n> " ++ answer emit (strip text) ++ "\n> ",
        (Text.toBytes (text ++ "\n")).length, true⟩ := by
  have hscript : script [text] = text ++ "\n" := by
    rw [script_cons, script_nil, String.append_empty]
  have hcut : IsCut (Text.toBytes (text ++ "\n")) [Text.toBytes text ++ [10]] := by
    have hall : ∀ line ∈ [text], '\n' ∉ line.toList := by simpa using hline
    rw [← hscript]
    exact isCut_script hall
  have hreads : Reads (Text.toBytes text ++ [10]) (strip text) := by
    refine ⟨text ++ "\n", ?_, (strip_eq_iff.mp rfl).newline⟩
    rw [Text.toBytes_append, Text.toBytes_newline]
  by_cases hempty : strip text = ""
  · have htext : IsText (Text.toBytes text ++ [10]) := isText_iff.mpr ⟨_, hreads⟩
    rw [if_pos hempty, run_of_isCut hcut, resume_cons_of_ends (.inr ⟨_, hreads, .inl hempty⟩),
      decide_eq_true htext, Text.toBytes_append, Text.toBytes_newline]
    simp only [start, Nat.zero_add, Bool.and_true]
    rfl
  · have hgoes : ¬ Stops (strip text) := not_or.mpr ⟨hempty, hexit⟩
    rw [if_neg hempty, run_of_all_read hcut (.cons hreads .nil) (by simpa using hgoes)]
    rw [transcript_singleton]

/-- A session answers a line without any of the returns at its end, and leaves if nothing else is in
it.  This comes to the answer to the line without its terminator alone exactly if that leaves no
return at the end, or if another foreign character stands before the returns. -/
theorem run_line_answers_chomp_iff (emit : Emit) (hline : '\n' ∉ text.toList) (hne : chomp text ≠ "")
    (hexit : ¬ "exit".toList <:+: (chomp text).toList) :
    run emit (Text.toBytes (text ++ "\n")) =
      ⟨if strip text = "" then "\nRepl v0.1\n> "
        else "\nRepl v0.1\n> " ++ answer emit (strip text) ++ "\n> ",
        (Text.toBytes (text ++ "\n")).length, true⟩ ∧
    ((run emit (Text.toBytes (text ++ "\n"))).output =
        "\nRepl v0.1\n> " ++ answer emit (chomp text) ++ "\n> " ↔
      (chomp text).toList.getLast? ≠ some '\r' ∨ ∃ c ∈ (strip text).toList, ¬ InAlphabet c) := by
  have hprefix : (strip text).toList <+: (chomp text).toList := by
    rcases exists_returns hline with ⟨n, -, hchomp⟩
    exact ⟨_, hchomp.symm⟩
  have hrun := run_line hline (fun h => hexit (h.trans hprefix.isInfix)) emit
  refine ⟨hrun, ?_⟩
  rw [hrun]
  by_cases hempty : strip text = ""
  · -- nothing is answered although the rule leaves something to answer
    rcases chomp_cases hline with ⟨_, hsame⟩ | ⟨hlast, _⟩
    · exact absurd (hsame.trans hempty) hne
    · simp [hempty, hlast, opening_ne]
  · simp only [if_neg hempty, String.append_left_inj, String.append_right_inj]
    exact answer_strip_eq_iff emit hline

theorem answer_of_one : answer .value "1" = "1" := by
  have hvalue : (Run.value "1").result = .ok (.number 1) :=
    Run.value_of_number (by decide +kernel) (by decide +kernel) rfl
  have htext : (Value.number 1).text = "1" := by decide +kernel
  rw [answer, Run.text_of_value hvalue]
  exact htext

/-- A single return belongs to the terminator. -/
theorem run_line_answers_chomp_of_one_return :
    '\n' ∉ "1\r".toList ∧ chomp "1\r" = "1" ∧ ¬ "exit".toList <:+: (chomp "1\r").toList ∧
      answer .value (chomp "1\r") = "1" ∧
      (run .value (Text.toBytes ("1\r" ++ "\n"))).output =
        "\nRepl v0.1\n> " ++ answer .value (chomp "1\r") ++ "\n> " := by
  have hchomp : chomp "1\r" = "1" := by decide +kernel
  have hexit : ¬ "exit".toList <:+: (chomp "1\r").toList := by decide +kernel
  refine ⟨by simp, hchomp, hexit, ?_, ?_⟩
  · rw [hchomp, answer_of_one]
  · refine (run_line_answers_chomp_iff .value (by simp) ?_ hexit).2.mpr (.inl ?_)
    · simp [hchomp]
    · simp [hchomp]

/-- A second return does not, but it is taken away as well and not reported. -/
theorem run_line_ignores_second_return :
    '\n' ∉ "1\r\r".toList ∧ chomp "1\r\r" = "1\r" ∧ ¬ "exit".toList <:+: "1\r".toList ∧
      answer .value "1\r" = "[line 1, column 2] Error: Unrecognized character '\r'" ∧
      (run .value (Text.toBytes ("1\r\r" ++ "\n"))).output = "\nRepl v0.1\n> 1\n> " ∧
      (run .value (Text.toBytes ("1\r\r" ++ "\n"))).output ≠
        "\nRepl v0.1\n> " ++ answer .value (chomp "1\r\r") ++ "\n> " := by
  have hchomp : chomp "1\r\r" = "1\r" := by decide +kernel
  have hstrip : strip "1\r\r" = "1" := by decide +kernel
  have hfault : IsFirstFault "1\r" ⟨'\r', ⟨1, 2⟩⟩ := by
    refine ⟨['1'], '\r', [], by simp, ?_, not_inAlphabet_return, rfl⟩
    simp [InAlphabet]
  have hreport : answer .value "1\r" = "[line 1, column 2] Error: Unrecognized character '\r'" := by
    rw [answer_of_isFirstFault hfault]
    decide +kernel
  have hrun : (run .value (Text.toBytes ("1\r\r" ++ "\n"))).output = "\nRepl v0.1\n> 1\n> " := by
    rw [run_line (by simp) (by rw [hstrip]; decide), hstrip, answer_of_one]
    decide
  refine ⟨by simp, hchomp, by decide, hreport, hrun, ?_⟩
  rw [hrun, hchomp, hreport]
  decide

end Line

end Session

end Abacus
