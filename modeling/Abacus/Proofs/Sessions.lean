import Abacus.Session
import Mathlib.Data.List.DropRight
import Mathlib.Data.List.Forall2
import Mathlib.Data.List.SplitBy

/-!
# Sessions line by line

A session keeps nothing from one line to the next, and it ends at the first line that asks for it.

1. The lines of an input are the only way to cut it behind its newlines (`lines_eq_iff`).
2. Which source a line holds and which lines end a session is said without a word on how the session
   finds out (`Reads`, `Stops`, `Ends`).  A session answers every other line and goes on
   (`step_of_reads`), so it answers all lines before the first one that ends it
   (`resume_append_of_reads`).
3. A step does not depend on what is already written and read (`step_prepend`), so neither does what
   a session does from some line on (`resume_prepend`).
4. The answer to a line is the text that the run of its source comes to, or else what is displayed of
   its failure (`transcript`).
-/

namespace Abacus.Session

/-! ## Lines -/

/-- The input is cut into lines, each of them up to its newline.  Only the last line may go without
one. -/
structure IsCut (input : List UInt8) (cut : List (List UInt8)) : Prop where
  flatten : cut.flatten = input
  ne_nil : ∀ line ∈ cut, line ≠ []
  newline : ∀ line ∈ cut, ∀ byte ∈ line.dropLast, byte ≠ 10
  ended : ∀ line ∈ cut.dropLast, line.getLast? = some 10

/-- A chain whose links only ask something of their left ends asks it of all but the last one. -/
theorem isChain_left_iff {α : Type} {P : α → Prop} {l : List α} :
    l.IsChain (fun x _ => P x) ↔ ∀ x ∈ l.dropLast, P x := by
  induction l with
  | nil => simp
  | cons x l ih =>
    cases l with
    | nil => simp
    | cons y l => simp [List.isChain_cons_cons, ih]

/-- A line breaks off from the next one exactly if it ends in a newline. -/
theorem isChain_lines_iff {cut : List (List UInt8)} (hne : ∀ line ∈ cut, line ≠ []) :
    (cut.IsChain fun a b => ∃ ha hb,
        (fun byte _ => byte != 10) (a.getLast ha) (b.head hb) = false) ↔
      ∀ line ∈ cut.dropLast, line.getLast? = some 10 := by
  rw [← isChain_left_iff]
  refine List.IsChain.iff_of_mem_imp ?_
  intro a b ha hb
  constructor
  · rintro ⟨hne, _, hlast⟩
    rw [List.getLast?_eq_some_getLast hne]
    simpa using hlast
  · intro hlast
    rw [List.getLast?_eq_some_getLast (hne a ha)] at hlast
    exact ⟨hne a ha, hne b hb, by simpa using hlast⟩

/-- The lines of an input are the only way to cut it. -/
theorem lines_eq_iff {input : List UInt8} {cut : List (List UInt8)} :
    lines input = cut ↔ IsCut input cut := by
  have hinside : ∀ line : List UInt8,
      (line.IsChain fun byte _ => (byte != 10) = true) ↔ ∀ byte ∈ line.dropLast, byte ≠ 10 := by
    intro line
    rw [isChain_left_iff]
    simp
  unfold lines
  rw [List.splitBy_eq_iff]
  constructor
  · rintro ⟨hflatten, hnil, hlines, hchain⟩
    have hne : ∀ line ∈ cut, line ≠ [] := by
      rintro line hline rfl
      exact hnil hline
    exact ⟨hflatten.symm, hne, fun line hline => (hinside line).mp (hlines line hline),
      (isChain_lines_iff hne).mp hchain⟩
  · intro h
    refine ⟨h.flatten.symm, fun hnil => h.ne_nil [] hnil rfl, ?_, ?_⟩
    · intro line hline
      exact (hinside line).mpr (h.newline line hline)
    · exact (isChain_lines_iff h.ne_nil).mpr h.ended

theorem isCut_lines (input : List UInt8) : IsCut input (lines input) := lines_eq_iff.mp rfl

/-- Bytes may be cut behind a newline. -/
theorem lines_append {a : List UInt8} (h : a = [] ∨ a.getLast? = some 10) (b : List UInt8) :
    lines (a ++ b) = lines a ++ lines b := by
  refine List.splitBy_append ?_
  intro x hx y _
  rcases h with rfl | hlast
  · exact absurd hx (by simp)
  · obtain rfl : 10 = x := Option.some.inj (hlast.symm.trans hx)
    rfl

/-- What lies before the end of a line is cut as the whole is. -/
theorem IsCut.front {input line : List UInt8} {before after : List (List UInt8)}
    (h : IsCut input (before ++ line :: after)) :
    IsCut (before.flatten ++ line) (before ++ [line]) := by
  have hmem : ∀ other ∈ before ++ [line], other ∈ before ++ line :: after := by
    intro other hother
    rcases List.mem_append.mp hother with hbefore | hline
    · exact List.mem_append_left _ hbefore
    · rw [List.mem_singleton.mp hline]
      simp
  refine ⟨by simp, fun other hother => h.ne_nil other (hmem other hother),
    fun other hother => h.newline other (hmem other hother), ?_⟩
  intro other hother
  rw [List.dropLast_concat] at hother
  refine h.ended other ?_
  rw [List.dropLast_append_of_ne_nil (by simp)]
  exact List.mem_append_left _ hother

/-! ## What a line holds -/

/-- The source is the text without the newlines and carriage returns at its end. -/
def IsStripped (text source : String) : Prop :=
  ∃ back, text.toList = source.toList ++ back ∧ (∀ c ∈ back, c = '\n' ∨ c = '\r') ∧
    ∀ c ∈ source.toList.getLast?, ¬ (c = '\n' ∨ c = '\r')

/-- The line is text, and the source is what it holds but the terminators at its end. -/
def Reads (line : List UInt8) (source : String) : Prop :=
  ∃ text, line = Text.toBytes text ∧ IsStripped text source

/-- The line is text: the bytes of some string. -/
def IsText (line : List UInt8) : Prop := ∃ text, line = Text.toBytes text

/-- The source is a wish to leave: it is empty, or `exit` stands somewhere in it. -/
def Stops (source : String) : Prop := source = "" ∨ "exit".toList <:+: source.toList

/-- The line ends a session. -/
def Ends (line : List UInt8) : Prop := ¬ IsText line ∨ ∃ source, Reads line source ∧ Stops source

instance (line : List UInt8) : Decidable (IsText line) :=
  decidable_of_iff ((Text.ofBytes? line).isSome = true) <| by
    simp [Option.isSome_iff_exists, Text.ofBytes?_eq_some_iff, IsText]

theorem isTerminator_iff {c : Char} : isTerminator c = true ↔ c = '\n' ∨ c = '\r' := by
  simp [isTerminator]

theorem strip_eq_iff {text source : String} : strip text = source ↔ IsStripped text source := by
  have hstrip : strip text = String.ofList (text.toList.rdropWhile isTerminator) := rfl
  rw [hstrip]
  constructor
  · rintro rfl
    refine ⟨text.toList.rtakeWhile isTerminator, ?_, ?_, ?_⟩
    · rw [String.toList_ofList, List.rdropWhile_append_rtakeWhile]
    · intro c hc
      exact isTerminator_iff.mp (List.mem_rtakeWhile_imp hc)
    · intro c hc
      rw [String.toList_ofList] at hc
      have hne : text.toList.rdropWhile isTerminator ≠ [] := by
        intro hnil
        rw [hnil] at hc
        exact absurd hc (by simp)
      rw [List.getLast?_eq_some_getLast hne] at hc
      rw [← isTerminator_iff, ← Option.some.inj hc]
      exact List.rdropWhile_last_not isTerminator _ hne
  · rintro ⟨back, htext, hback, hlast⟩
    have hreverse : ∀ c ∈ back.reverse, isTerminator c = true := by
      intro c hc
      exact isTerminator_iff.mpr (hback c (List.mem_reverse.mp hc))
    have hself : source.toList.rdropWhile isTerminator = source.toList := by
      refine List.rdropWhile_eq_self_iff.mpr ?_
      intro hne
      rw [isTerminator_iff]
      exact hlast _ (List.getLast?_eq_some_getLast hne)
    have hdrop : text.toList.rdropWhile isTerminator = source.toList.rdropWhile isTerminator := by
      unfold List.rdropWhile
      rw [htext, List.reverse_append, List.dropWhile_append_of_pos hreverse]
    rw [hdrop, hself, String.ofList_toList]

theorem IsStripped.newline {text source : String} (h : IsStripped text source) :
    IsStripped (text ++ "\n") source := by
  rcases h with ⟨back, htext, hback, hlast⟩
  refine ⟨back ++ ['\n'], by simp [htext], ?_, hlast⟩
  intro c hc
  rcases List.mem_append.mp hc with hc | hc
  · exact hback c hc
  · exact .inl (List.mem_singleton.mp hc)

theorem occurs_iff {word text : List Char} : occurs word text = true ↔ word <:+: text := by
  induction text with
  | nil => simp [occurs]
  | cons c text ih =>
    rw [occurs, Bool.or_eq_true, List.isPrefixOf_iff_prefix, ih, List.infix_cons_iff]

theorem isLast_iff {source : String} : isLast source = true ↔ Stops source := by
  unfold isLast Stops
  rw [Bool.or_eq_true, occurs_iff, decide_eq_true_iff]

theorem isText_iff {line : List UInt8} : IsText line ↔ ∃ source, Reads line source := by
  constructor
  · rintro ⟨text, rfl⟩
    exact ⟨strip text, text, rfl, strip_eq_iff.mp rfl⟩
  · rintro ⟨source, text, hline, _⟩
    exact ⟨text, hline⟩

/-- A line that does not end a session holds a source that does not. -/
theorem exists_read {line : List UInt8} (h : ¬ Ends line) :
    ∃ source, Reads line source ∧ ¬ Stops source := by
  have htext : IsText line := by
    by_contra hnot
    exact h (.inl hnot)
  rcases isText_iff.mp htext with ⟨source, hsource⟩
  refine ⟨source, hsource, ?_⟩
  intro hstops
  exact h (.inr ⟨source, hsource, hstops⟩)

/-! ## Steps -/

section Steps

variable {emit : Emit} {session : Session} {line : List UInt8} {rest : List (List UInt8)}
  {source : String}

theorem reply_of_reads (h : Reads line source) :
    reply emit line = if isLast source then .leave else .answer (answer emit source) := by
  rcases h with ⟨text, hline, hsource⟩
  unfold reply
  rw [Text.ofBytes?_eq_some_iff.mpr hline, ← strip_eq_iff.mpr hsource]
  rfl

theorem reply_of_not_isText (h : ¬ IsText line) : reply emit line = .notText := by
  have hnone : Text.ofBytes? line = none := by
    refine Option.eq_none_iff_forall_ne_some.mpr ?_
    intro text htext
    exact h ⟨text, Text.ofBytes?_eq_some_iff.mp htext⟩
  unfold reply
  rw [hnone]

/-- A line that does not end the session is answered, and the session waits for the next one. -/
theorem step_of_reads (h : Reads line source) (hgoes : ¬ Stops source) :
    step emit session line =
      .more ⟨session.output ++ (answer emit source ++ "\n" ++ prompt),
        session.consumed + line.length, session.isText⟩ := by
  have hreply : reply emit line = .answer (answer emit source) := by
    rw [reply_of_reads h, if_neg (isLast_iff.not.mpr hgoes)]
  unfold step
  simp only [hreply, String.append_assoc]

/-- A line that ends the session is read, and nothing is written about it. -/
theorem step_of_ends (h : Ends line) :
    step emit session line =
      .ended ⟨session.output, session.consumed + line.length,
        session.isText && decide (IsText line)⟩ := by
  unfold step
  rcases h with hnot | ⟨source, hreads, hstops⟩
  · simp only [reply_of_not_isText hnot, hnot, decide_false, Bool.and_false]
  · have hreply : reply emit line = .leave := by
      rw [reply_of_reads hreads, if_pos (isLast_iff.mpr hstops)]
    have htext : IsText line := isText_iff.mpr ⟨source, hreads⟩
    simp only [hreply, htext, decide_true, Bool.and_true]

/-- A session with more written and more read before it. -/
def behind (front : String) (n : Nat) (session : Session) : Session :=
  ⟨front ++ session.output, n + session.consumed, session.isText⟩

/-- The same for a session that a line has left. -/
def Next.behind (front : String) (n : Nat) : Next → Next
  | .more session => .more (session.behind front n)
  | .ended session => .ended (session.behind front n)

/-- What is already written and read makes no difference to what a line does. -/
theorem step_prepend (emit : Emit) (front : String) (n : Nat) (session : Session)
    (line : List UInt8) :
    step emit (session.behind front n) line = (step emit session line).behind front n := by
  unfold step
  cases reply emit line with
  | answer text => simp only [Next.behind, behind, String.append_assoc, Nat.add_assoc]
  | leave => simp only [Next.behind, behind, Nat.add_assoc]
  | notText => simp only [Next.behind, behind, Nat.add_assoc]

theorem resume_cons_of_reads (h : Reads line source) (hgoes : ¬ Stops source) :
    resume emit session (line :: rest) =
      resume emit ⟨session.output ++ (answer emit source ++ "\n" ++ prompt),
        session.consumed + line.length, session.isText⟩ rest := by
  rw [resume, step_of_reads h hgoes]

theorem resume_cons_of_ends (h : Ends line) :
    resume emit session (line :: rest) =
      ⟨session.output, session.consumed + line.length, session.isText && decide (IsText line)⟩ := by
  rw [resume, step_of_ends h]

end Steps

/-! ## Runs -/

/-- What a session writes behind its first prompt about lines that do not end it. -/
def replies (emit : Emit) (sources : List String) : String :=
  String.join (sources.map fun source => answer emit source ++ "\n" ++ prompt)

/-- What a session writes when it answers the given sources and then ends: for each of them the text
that its run comes to, or what is displayed of its failure. -/
def transcript (emit : Emit) (sources : List String) : String :=
  "\nRepl v0.1\n" ++
    String.join (sources.map fun source =>
      "> " ++
        (match (Run.text emit source).result with
          | .ok text => text
          | .error failure => failure.display) ++ "\n") ++
    "> "

section Runs

variable {emit : Emit} {session : Session} {cut : List (List UInt8)} {sources : List String}

/-- The prompt behind every answer is the one before the next source. -/
theorem prompt_append_replies :
    prompt ++ replies emit sources =
      String.join (sources.map fun source => "> " ++ answer emit source ++ "\n") ++ "> " := by
  induction sources with
  | nil => rfl
  | cons source sources ih =>
    have hcons : replies emit (source :: sources) =
        answer emit source ++ "\n" ++ (prompt ++ replies emit sources) := by
      rw [replies, List.map_cons, String.join_cons, ← replies, String.append_assoc]
    rw [hcons, ih, List.map_cons, String.join_cons]
    simp only [prompt, String.append_assoc]

/-- The answers of a transcript are the ones that a session gives. -/
theorem transcript_eq_answers :
    transcript emit sources =
      "\nRepl v0.1\n" ++
        String.join (sources.map fun source => "> " ++ answer emit source ++ "\n") ++ "> " := rfl

theorem transcript_singleton (source : String) :
    transcript emit [source] = "\nRepl v0.1\n> " ++ answer emit source ++ "\n> " := by
  have hopening : "\nRepl v0.1\n> " = "\nRepl v0.1\n" ++ "> " := rfl
  have hclosing : "\n> " = "\n" ++ "> " := rfl
  rw [transcript_eq_answers, hopening, hclosing, List.map_singleton, String.join_cons,
    String.join_nil]
  simp only [String.append_assoc, String.append_empty]

theorem transcript_eq : transcript emit sources = banner ++ prompt ++ replies emit sources := by
  rw [String.append_assoc, prompt_append_replies, transcript_eq_answers, String.append_assoc]
  rfl

/-- By induction on the lines: if none of them ends the session, they are answered in turn. -/
theorem resume_append_of_reads (h : List.Forall₂ Reads cut sources)
    (hgoes : ∀ source ∈ sources, ¬ Stops source) (rest : List (List UInt8)) :
    resume emit session (cut ++ rest) =
      resume emit ⟨session.output ++ replies emit sources, session.consumed + cut.flatten.length,
        session.isText⟩ rest := by
  induction h generalizing session with
  | nil => simp [replies]
  | @cons line source cut sources hreads _ ih =>
    rw [List.cons_append, resume_cons_of_reads hreads (hgoes source (by simp)),
      ih fun other hother => hgoes other (List.mem_cons_of_mem source hother)]
    simp only [replies, List.map_cons, String.join_cons, String.append_assoc, List.flatten_cons,
      List.length_append, Nat.add_assoc]

/-- Lines that do not end a session hold sources that do not. -/
theorem exists_reads (h : ∀ line ∈ cut, ¬ Ends line) :
    ∃ sources, List.Forall₂ Reads cut sources ∧ ∀ source ∈ sources, ¬ Stops source := by
  induction cut with
  | nil => exact ⟨[], .nil, by simp⟩
  | cons line cut ih =>
    rcases exists_read (h line (by simp)) with ⟨source, hsource, hgoes⟩
    rcases ih fun other hother => h other (List.mem_cons_of_mem line hother) with
      ⟨sources, hreads, hothers⟩
    refine ⟨source :: sources, .cons hsource hreads, ?_⟩
    intro other hother
    rcases List.mem_cons.mp hother with rfl | hother
    · exact hgoes
    · exact hothers other hother

/-- Lines behind one that ends the session make no difference to it. -/
theorem resume_append_of_ends (h : ∃ line ∈ cut, Ends line) (rest : List (List UInt8)) :
    resume emit session (cut ++ rest) = resume emit session cut := by
  induction cut generalizing session with
  | nil => exact absurd h (by simp)
  | cons line cut ih =>
    rw [List.cons_append]
    by_cases hends : Ends line
    · -- the session is over here, whatever is left
      rw [resume_cons_of_ends hends, resume_cons_of_ends hends]
    · have hcut : ∃ line ∈ cut, Ends line := by
        rcases h with ⟨other, hmem, hother⟩
        rcases List.mem_cons.mp hmem with rfl | hmem
        · exact absurd hother hends
        · exact ⟨other, hmem, hother⟩
      rcases exists_read hends with ⟨source, hsource, hgoes⟩
      rw [resume_cons_of_reads hsource hgoes, resume_cons_of_reads hsource hgoes, ih hcut]

/-- What is already written and read makes no difference to what is still to come. -/
theorem resume_prepend (emit : Emit) (front : String) (n : Nat) (session : Session)
    (cut : List (List UInt8)) :
    resume emit (session.behind front n) cut = (resume emit session cut).behind front n := by
  induction cut generalizing session with
  | nil => rfl
  | cons line cut ih =>
    rw [resume, resume, step_prepend]
    cases step emit session line with
    | more next => exact ih next
    | ended last => rfl

variable {input : List UInt8}

theorem run_of_isCut (h : IsCut input cut) : run emit input = resume emit start cut := by
  unfold run
  rw [lines_eq_iff.mpr h]

/-- A session over lines of which the first ones do not end it. -/
theorem run_of_reads {before rest : List (List UInt8)} (h : IsCut input (before ++ rest))
    (hreads : List.Forall₂ Reads before sources) (hgoes : ∀ source ∈ sources, ¬ Stops source) :
    run emit input = resume emit ⟨transcript emit sources, before.flatten.length, true⟩ rest := by
  rw [run_of_isCut h, resume_append_of_reads hreads hgoes, transcript_eq]
  simp only [start, Nat.zero_add]

/-- If no line ends the session, it answers them all and reads the whole input. -/
theorem run_of_all_read (h : IsCut input cut) (hreads : List.Forall₂ Reads cut sources)
    (hgoes : ∀ source ∈ sources, ¬ Stops source) :
    run emit input = ⟨transcript emit sources, input.length, true⟩ := by
  have hwhole : IsCut input (cut ++ []) := by
    rw [List.append_nil]
    exact h
  rw [run_of_reads hwhole hreads hgoes, h.flatten]
  rfl

/-- A session that has come so far goes on with further bytes as a new one begins with them. -/
theorem resume_lines (emit : Emit) (front : String) (n : Nat) (rest : List UInt8) :
    ∃ tail, (run emit rest).output = "\nRepl v0.1\n> " ++ tail ∧
      resume emit ⟨front, n, true⟩ (lines rest) =
        ⟨front ++ tail, n + (run emit rest).consumed, (run emit rest).isText⟩ := by
  -- both are what a session with nothing behind it comes to, with something behind it
  have hstart : start = behind (banner ++ prompt) 0 ⟨"", 0, true⟩ := by
    simp only [start, behind, String.append_empty, Nat.add_zero]
  have hgo : (⟨front, n, true⟩ : Session) = behind front n ⟨"", 0, true⟩ := by
    simp only [behind, String.append_empty, Nat.add_zero]
  rw [run, hstart, hgo, resume_prepend, resume_prepend]
  refine ⟨(resume emit ⟨"", 0, true⟩ (lines rest)).output, rfl, ?_⟩
  simp only [behind, Nat.zero_add]

/-- A session over two inputs, of which the first one is made of whole lines. -/
theorem run_append (hinput : input = [] ∨ input.getLast? = some 10) (rest : List UInt8) :
    ((∀ line ∈ lines input, ¬ Ends line) → ∃ tail,
      (run emit rest).output = "\nRepl v0.1\n> " ++ tail ∧
      run emit (input ++ rest) = ⟨(run emit input).output ++ tail,
        input.length + (run emit rest).consumed, (run emit rest).isText⟩) ∧
    ((∃ line ∈ lines input, Ends line) → run emit (input ++ rest) = run emit input) := by
  have hcut := isCut_lines input
  -- the two meet behind a newline, so no line is made of both
  have hcut' : IsCut (input ++ rest) (lines input ++ lines rest) := by
    rw [← lines_append hinput rest]
    exact isCut_lines (input ++ rest)
  constructor
  · intro hgo
    rcases exists_reads hgo with ⟨sources, hreads, hgoes⟩
    rcases resume_lines emit (transcript emit sources) input.length rest with
      ⟨tail, hrest, htail⟩
    refine ⟨tail, hrest, ?_⟩
    rw [run_of_reads hcut' hreads hgoes, hcut.flatten, htail, run_of_all_read hcut hreads hgoes]
  · intro hends
    rw [run_of_isCut hcut', resume_append_of_ends hends, ← run_of_isCut hcut]

/-- The bytes behind a line that ends the session make no difference. -/
theorem run_append_of_first {before after : List (List UInt8)} {line : List UInt8}
    (h : IsCut input (before ++ line :: after)) (hlast : line.getLast? = some 10)
    (hends : Ends line) (rest : List UInt8) :
    run emit (before.flatten ++ line ++ rest) = run emit input := by
  have hlines := lines_eq_iff.mpr h.front
  have hnewline : (before.flatten ++ line).getLast? = some 10 := by
    rw [List.getLast?_append_of_ne_nil _ (h.ne_nil line (by simp)), hlast]
  have hexists : ∃ other ∈ lines (before.flatten ++ line), Ends other := by
    rw [hlines]
    exact ⟨line, by simp, hends⟩
  have hsame : ∀ more,
      run emit (before.flatten ++ line ++ more) = run emit (before.flatten ++ line) := by
    intro more
    exact (run_append (.inr hnewline) more).2 hexists
  -- the input is itself one of the ways to go on behind the line
  have hinput : input = before.flatten ++ line ++ after.flatten := by
    rw [← h.flatten]
    simp
  rw [hsame rest, hinput, hsame after.flatten]

/-- What a session does, for every input.  There is one way to cut the input into lines.  If none of
them ends the session, all are answered, each as a source of its own, and all bytes are read.
Otherwise the lines before the first one that does are answered, the bytes up to its end are read,
the session fails exactly if that line is not text, and the bytes behind it make no difference.  So
a session over whole lines and further bytes is the one over the lines, and if that has not ended,
it is followed by the one over the bytes. -/
theorem run_answers_line_by_line (emit : Emit) (input : List UInt8) :
    ∃ cut, (∀ cut', IsCut input cut' ↔ cut' = cut) ∧
      ((∀ line ∈ cut, ¬ Ends line) → ∃ sources, List.Forall₂ Reads cut sources ∧
        run emit input = ⟨transcript emit sources, input.length, true⟩) ∧
      (∀ before line after, cut = before ++ line :: after → (∀ other ∈ before, ¬ Ends other) →
        Ends line →
        (∃ sources, List.Forall₂ Reads before sources ∧ run emit input =
          ⟨transcript emit sources, (before.flatten ++ line).length, decide (IsText line)⟩) ∧
        (line.getLast? = some 10 → ∀ rest,
          run emit (before.flatten ++ line ++ rest) = run emit input)) ∧
      (input = [] ∨ input.getLast? = some 10 → ∀ rest,
        ((∀ line ∈ cut, ¬ Ends line) → ∃ tail,
          (run emit rest).output = "\nRepl v0.1\n> " ++ tail ∧
          run emit (input ++ rest) = ⟨(run emit input).output ++ tail,
            input.length + (run emit rest).consumed, (run emit rest).isText⟩) ∧
        ((∃ line ∈ cut, Ends line) → run emit (input ++ rest) = run emit input)) := by
  have hcut := isCut_lines input
  refine ⟨lines input, ?_, ?_, ?_, ?_⟩
  · intro cut'
    rw [← lines_eq_iff]
    exact eq_comm
  · intro hgo
    rcases exists_reads hgo with ⟨sources, hreads, hgoes⟩
    exact ⟨sources, hreads, run_of_all_read hcut hreads hgoes⟩
  · intro before line after hlines hgo hends
    rcases exists_reads hgo with ⟨sources, hreads, hgoes⟩
    rw [hlines] at hcut
    constructor
    · refine ⟨sources, hreads, ?_⟩
      rw [run_of_reads hcut hreads hgoes, resume_cons_of_ends hends]
      simp
    · intro hlast rest
      exact run_append_of_first hcut hlast hends rest
  · intro hinput rest
    exact run_append hinput rest

end Runs

end Abacus.Session
