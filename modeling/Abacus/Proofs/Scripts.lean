import Abacus.Folder
import Abacus.Proofs.Contents
import Abacus.Proofs.Sessions
import Abacus.Proofs.Writing

/-!
# Lines in a session and in a file

A session runs every line as a source of its own, a file is a single source.  Where every line has a
value the two agree.

1. Lines run one below the other are one program after the other (`Run.program_newline`): no line
   that stands alone goes on with the one before it.  So a source with more statements behind it is
   forgotten (`Run.value_newline`), and a file has the value of its last line that is not blank
   (`Run.value_script_append`).
2. A line with a value has no letters (`Run.isCased_eq_false_of_value`), so it neither ends a
   session (`Session.not_stops_of_value`) nor loses a character to it
   (`Session.isStripped_of_value`).
-/

namespace Abacus

/-! ## Programs below each other -/

theorem IsProgram.append {a b : List Token} {p q : Program} (hp : IsProgram a p)
    (hq : IsProgram b q) : IsProgram (a ++ b) (p ++ q) := by
  induction hp with
  | nil => exact hq
  | cons hstatement _ ih =>
    rw [List.append_assoc]
    exact .cons hstatement ih

/-- Some lines as one text, each with a newline behind it. -/
def script (lines : List String) : String := String.join (lines.map fun line => line ++ "\n")

theorem script_nil : script [] = "" := rfl

theorem script_cons (line : String) (lines : List String) :
    script (line :: lines) = line ++ "\n" ++ script lines := by
  unfold script
  rw [List.map_cons, String.join_cons]

theorem script_append (a b : List String) : script (a ++ b) = script a ++ script b := by
  induction a with
  | nil => simp [script_nil]
  | cons line a ih =>
    rw [List.cons_append, script_cons, script_cons, ih]
    simp only [String.append_assoc]

namespace Run

variable {a b source : String} {p q : Program} {u v : Value}

/-- Two sources with a newline between them are read one after the other. -/
theorem program_newline (hp : (program a).result = .ok p) (hq : (program b).result = .ok q) :
    (program (a ++ "\n" ++ b)).result = .ok (p ++ q) := by
  rcases program_eq_ok_iff.mp hp with ⟨ha, hpa⟩
  rcases program_eq_ok_iff.mp hq with ⟨hb, hqb⟩
  have hnewline : IsBlank '\n' := .inr (.inr rfl)
  have htext : (a ++ "\n" ++ b).toList = a.toList ++ '\n' :: b.toList := by
    simp [String.toList_append]
  -- the newline joins neither side, so the tokens of `b` follow those of `a`, only further down
  have htokens : Token.ofSource (a ++ "\n" ++ b) = Token.ofSource a ++
      Token.ofText ((Position.start.after a.toList).next '\n') b.toList := by
    show Token.ofText .start (a ++ "\n" ++ b).toList = Token.ofText .start a.toList ++ _
    rw [htext, Token.ofText_append ((Token.standsAlone_of_blank hnewline).separate_right _ _),
      Token.ofText_cons_of_blank hnewline]
  refine program_eq_ok_iff.mpr ⟨?_, ?_⟩
  · intro c hc
    rw [htext] at hc
    rcases List.mem_append.mp hc with hc | hc
    · exact ha c hc
    · rcases List.mem_cons.mp hc with rfl | hc
      · exact .inr (.inl hnewline)
      · exact hb c hc
  · rw [htokens]
    exact hpa.append (hqb.of_contents (Token.contents_ofText hb .start _))

/-- Blank sources are those without a statement. -/
theorem eq_nil_iff_of_program (h : (program source).result = .ok p) :
    p = [] ↔ ∀ c ∈ source.toList, IsBlank c := by
  rcases program_eq_ok_iff.mp h with ⟨hchars, hprogram⟩
  rw [hprogram.eq_nil_iff, Token.ofSource_eq_nil_iff hchars]

theorem program_of_isBlank (h : ∀ c ∈ source.toList, IsBlank c) :
    (program source).result = .ok [] := by
  have hchars : ∀ c ∈ source.toList, InAlphabet c := fun c hc => .inr (.inl (h c hc))
  refine program_eq_ok_iff.mpr ⟨hchars, ?_⟩
  rw [(Token.ofSource_eq_nil_iff hchars).mpr h]
  exact .nil

/-! ## Values below each other -/

/-- A source has a value exactly if its program has no names; it is that of the last statement. -/
theorem value_eq_ok_iff :
    (value source).result = .ok v ↔ ∃ p : Program, (program source).result = .ok p ∧
      p.names = [] ∧ (p.getLast?.map Expr.eval).getD (.ok .null) = .ok v := by
  rw [result_value]
  cases hprogram : (program source).result with
  | error failure => simp
  | ok p =>
    simp only [mapError_eq_ok_iff, Except.ok.injEq, exists_eq_left']
    unfold Program.evaluate
    cases hnames : p.names with
    | nil => simp [Program.evaluateFrom_of_names_nil hnames]
    | cons name others => simp [Program.evaluateFrom_of_names_cons hnames]

/-- A source is forgotten when a statement is run behind it. -/
theorem value_newline (ha : (value a).result = .ok u) (hb : (value b).result = .ok v)
    (hstatement : ∃ c ∈ b.toList, ¬ IsBlank c) : (value (a ++ "\n" ++ b)).result = .ok v := by
  rcases value_eq_ok_iff.mp ha with ⟨p, hp, hpnames, _⟩
  rcases value_eq_ok_iff.mp hb with ⟨q, hq, hqnames, hlast⟩
  refine value_eq_ok_iff.mpr ⟨p ++ q, program_newline hp hq, ?_, ?_⟩
  · unfold Program.names at hpnames hqnames ⊢
    rw [List.flatMap_append, hpnames, hqnames, List.append_nil]
  · have hne : q ≠ [] := by
      intro hnil
      rcases hstatement with ⟨c, hc, hnot⟩
      exact hnot ((eq_nil_iff_of_program hq).mp hnil c hc)
    rw [List.getLast?_append_of_ne_nil p hne]
    exact hlast

/-- Blanks behind a source make no difference. -/
theorem value_newline_of_isBlank (ha : (value a).result = .ok v)
    (hblank : ∀ c ∈ b.toList, IsBlank c) : (value (a ++ "\n" ++ b)).result = .ok v := by
  rcases value_eq_ok_iff.mp ha with ⟨p, hp, hrest⟩
  have hwhole := program_newline hp (program_of_isBlank hblank)
  rw [List.append_nil] at hwhole
  exact value_eq_ok_iff.mpr ⟨p, hwhole, hrest⟩

/-- By induction on the lines: all of them are forgotten in favour of what is run behind them. -/
theorem value_script_append {lines : List String}
    (hlines : ∀ line ∈ lines, ∃ u, (value line).result = .ok u) (hb : (value b).result = .ok v)
    (hstatement : ∃ c ∈ b.toList, ¬ IsBlank c) : (value (script lines ++ b)).result = .ok v := by
  induction lines with
  | nil => simpa [script_nil] using hb
  | cons line lines ih =>
    rcases hlines line (by simp) with ⟨u, hline⟩
    have hrest := ih fun other hother => hlines other (List.mem_cons_of_mem line hother)
    rw [script_cons, String.append_assoc]
    refine value_newline hline hrest ?_
    rcases hstatement with ⟨c, hc, hnot⟩
    exact ⟨c, by rw [String.toList_append]; exact List.mem_append_right _ hc, hnot⟩

end Run

theorem isBlank_script {lines : List String} (h : ∀ line ∈ lines, ∀ c ∈ line.toList, IsBlank c) :
    ∀ c ∈ (script lines).toList, IsBlank c := by
  induction lines with
  | nil => simp [script_nil]
  | cons line lines ih =>
    intro c hc
    rw [script_cons, String.toList_append, String.toList_append] at hc
    rcases List.mem_append.mp hc with hc | hc
    · rcases List.mem_append.mp hc with hc | hc
      · exact h line (by simp) c hc
      · exact .inr (.inr (by simpa using hc))
    · exact ih (fun other hother => h other (List.mem_cons_of_mem line hother)) c hc

/-! ## Letters -/

/-- Every character of a text that is not blank is part of a token. -/
theorem Token.Lexed.exists_token_of_mem {p : Position} {text : List Char} {tokens : List Token}
    (h : Lexed p text tokens) {c : Char} (hc : c ∈ text) (hnot : ¬ IsBlank c) :
    ∃ t ∈ tokens, t.Fits ∧ t.isEnd = false ∧ c ∈ t.lexeme.toList := by
  induction h with
  | nil => exact absurd hc (by simp)
  | blank isBlank _ ih =>
    rcases List.mem_cons.mp hc with rfl | hrest
    · exact absurd isBlank hnot
    · exact ih hrest
  | @token t rest tokens fits inside _ _ ih =>
    rcases List.mem_append.mp hc with hlexeme | hrest
    · exact ⟨t, by simp, fits, inside, hlexeme⟩
    · rcases ih hrest with ⟨u, hu, hparts⟩
      exact ⟨u, List.mem_cons_of_mem t hu, hparts⟩

theorem Token.Kind.eq_of_role_eq_letter {kind : Token.Kind} (h : kind.role = .letter) :
    kind = .identifier ∨ kind = .letKeyword := by
  cases kind <;> simp_all [role]

theorem IsProgram.kind_mem {tokens : List Token} {p : Program} (h : IsProgram tokens p) :
    ∀ t ∈ tokens, t.kind ∈ Token.Kind.inGrammar := by
  induction h with
  | nil => simp
  | cons hstatement _ ih => exact List.forall_mem_append.mpr ⟨hstatement.kind_mem, ih⟩

/-- A program without names has no words at all. -/
theorem IsProgram.kind_role_ne_letter {tokens : List Token} {p : Program} (h : IsProgram tokens p)
    (hnames : p.names = []) : ∀ t ∈ tokens, t.kind.role ≠ .letter := by
  intro t ht hrole
  rcases Token.Kind.eq_of_role_eq_letter hrole with hname | hlet
  · have hmem : t.lexeme ∈ Token.identifiers tokens :=
      List.mem_map_of_mem (List.mem_filter.mpr ⟨ht, by simp [hname]⟩)
    rw [← h.names_eq, hnames] at hmem
    exact absurd hmem (by simp)
  · -- no rule of the grammar uses the keyword
    have hkind := h.kind_mem t ht
    rw [hlet] at hkind
    exact absurd hkind (by decide)

namespace Run

/-- A source with a value has no letters. -/
theorem isCased_eq_false_of_value {source : String} {v : Value}
    (h : (value source).result = .ok v) : ∀ c ∈ source.toList, Text.isCased c = false := by
  intro c hc
  rw [Bool.eq_false_iff]
  intro hcased
  rcases value_eq_ok_iff.mp h with ⟨p, hp, hnames, _⟩
  rcases program_eq_ok_iff.mp hp with ⟨hchars, hprogram⟩
  have hrole := Role.of?_of_isCased hcased
  have hnot : ¬ IsBlank c := by
    intro hblank
    rw [Role.of?_eq_blank_iff.mpr hblank] at hrole
    exact absurd hrole (by simp)
  -- the letter is part of a token, and a program without names has no token with letters
  rcases Token.exists_lexed hchars .start with ⟨tokens, htokens⟩
  rcases htokens.exists_token_of_mem hc hnot with ⟨t, ht, hfits, hinside, hlexeme⟩
  have hmem : t ∈ Token.ofSource source := by
    rw [htokens.tokens_eq] at ht
    rcases List.mem_append.mp ht with ht | ht
    · exact ht
    · rw [List.mem_singleton.mp ht] at hinside
      exact absurd hinside (by simp [Token.isEnd, Token.endOfFile])
  rw [hfits.of?_eq_role hinside hlexeme] at hrole
  exact hprogram.kind_role_ne_letter hnames t hmem (Option.some.inj hrole)

theorem text_of_value {source : String} {v : Value} (h : (value source).result = .ok v) :
    (text .value source).result = .ok v.text := by
  unfold text
  rw [Traced.result_bind, h]
  rfl

end Run

/-! ## In a session -/

namespace Session

variable {line : String} {v : Value}

/-- A line with a value does not end a session, unless it is empty. -/
theorem not_stops_of_value (hne : line ≠ "") (h : (Run.value line).result = .ok v) :
    ¬ Stops line := by
  rintro (hempty | ⟨front, back, hexit⟩)
  · exact hne hempty
  · have hletter : Text.isCased 'e' = true := by decide +kernel
    have hmem : 'e' ∈ line.toList := by
      rw [← hexit]
      simp
    rw [Run.isCased_eq_false_of_value h 'e' hmem] at hletter
    exact absurd hletter (by simp)

/-- A line with a value loses its newline and nothing else: it does not end in a carriage return,
which no source holds. -/
theorem isStripped_of_value (hline : '\n' ∉ line.toList) (h : (Run.value line).result = .ok v) :
    IsStripped (line ++ "\n") line := by
  rcases Run.value_eq_ok_iff.mp h with ⟨p, hp, _⟩
  have hchars := (Run.program_eq_ok_iff.mp hp).1
  have hself : IsStripped line line := by
    refine ⟨[], by simp, by simp, ?_⟩
    intro c hc
    have hmem : c ∈ line.toList := List.mem_of_getLast? hc
    rintro (rfl | rfl)
    · exact hline hmem
    · exact not_inAlphabet_return (hchars _ hmem)
  exact hself.newline

theorem toBytes_script (lines : List String) :
    Text.toBytes (script lines) = (lines.map fun line => Text.toBytes line ++ [10]).flatten := by
  induction lines with
  | nil => decide +kernel
  | cons line lines ih =>
    rw [script_cons, Text.toBytes_append, Text.toBytes_append, ih, Text.toBytes_newline,
      List.map_cons, List.flatten_cons]

/-- Lines without newlines in them are the lines of the text that they make. -/
theorem isCut_script {lines : List String} (h : ∀ line ∈ lines, '\n' ∉ line.toList) :
    IsCut (Text.toBytes (script lines)) (lines.map fun line => Text.toBytes line ++ [10]) := by
  have hmem : ∀ bytes ∈ lines.map fun line => Text.toBytes line ++ [10],
      ∃ line ∈ lines, bytes = Text.toBytes line ++ [10] := by
    intro bytes hbytes
    rcases List.mem_map.mp hbytes with ⟨line, hline, rfl⟩
    exact ⟨line, hline, rfl⟩
  refine ⟨(toBytes_script lines).symm, ?_, ?_, ?_⟩
  · intro bytes hbytes
    rcases hmem bytes hbytes with ⟨line, _, rfl⟩
    simp
  · intro bytes hbytes byte hbyte
    rcases hmem bytes hbytes with ⟨line, hline, rfl⟩
    rw [List.dropLast_concat] at hbyte
    exact Text.ne_newline_of_mem_toBytes (h line hline) hbyte
  · intro bytes hbytes
    rcases hmem bytes (List.mem_of_mem_dropLast hbytes) with ⟨line, _, rfl⟩
    simp

/-- The answers to lines with values are these values. -/
theorem transcript_of_values {lines : List String} {values : List Value}
    (h : List.Forall₂ (fun line v => (Run.value line).result = .ok v) lines values) :
    transcript .value lines = "\nRepl v0.1\n" ++
      String.join (values.map fun v => "> " ++ v.text ++ "\n") ++ "> " := by
  have hmap : (lines.map fun line => "> " ++ answer .value line ++ "\n") =
      values.map fun v => "> " ++ v.text ++ "\n" := by
    induction h with
    | nil => rfl
    | cons hline _ ih =>
      rw [List.map_cons, List.map_cons, ih, answer, Run.text_of_value hline]
  rw [transcript_eq_answers, hmap]

end Session

/-! ## In a file -/

theorem Entry.run_of_find {here : Entry} {path source : String} {v : Value}
    (hfind : here.find path = .ok (.file (Text.toBytes source)))
    (h : (Run.value source).result = .ok v) : here.run .value path = .ok v.text := by
  have hread : here.read path = .ok source := by
    unfold read
    rw [hfind]
    simp only [Text.ofBytes?_eq_some_iff.mpr rfl]
  rw [run, hread, Run.file]
  simp only [Run.text_of_value h]

section Agreement

variable {lines : List String} {values : List Value}

theorem exists_value_of_forall₂
    (h : List.Forall₂ (fun line v => (Run.value line).result = .ok v) lines values) :
    ∀ line ∈ lines, ∃ v, (Run.value line).result = .ok v := by
  intro line hline
  rcases List.getElem_of_mem hline with ⟨i, hi, rfl⟩
  exact ⟨_, h.get hi (h.length_eq ▸ hi)⟩

/-- A session over lines that all have values shows these values. -/
theorem Session.run_script (hlines : ∀ line ∈ lines, line ≠ "" ∧ '\n' ∉ line.toList)
    (hvalues : List.Forall₂ (fun line v => (Run.value line).result = .ok v) lines values) :
    run .value (Text.toBytes (script lines)) =
      ⟨"\nRepl v0.1\n" ++ String.join (values.map fun v => "> " ++ v.text ++ "\n") ++ "> ",
        (Text.toBytes (script lines)).length, true⟩ := by
  have hgood := exists_value_of_forall₂ hvalues
  have hreads : List.Forall₂ Reads (lines.map fun line => Text.toBytes line ++ [10]) lines := by
    rw [List.forall₂_map_left_iff]
    refine List.forall₂_same.mpr ?_
    intro line hline
    rcases hgood line hline with ⟨v, hv⟩
    refine ⟨line ++ "\n", ?_, isStripped_of_value (hlines line hline).2 hv⟩
    rw [Text.toBytes_append, Text.toBytes_newline]
  have hgoes : ∀ line ∈ lines, ¬ Stops line := by
    intro line hline
    rcases hgood line hline with ⟨v, hv⟩
    exact not_stops_of_value (hlines line hline).1 hv
  have hcut := isCut_script fun line hline => (hlines line hline).2
  rw [run_of_all_read hcut hreads hgoes, transcript_of_values hvalues]

/-- A text of lines has the value of its last line that is not blank. -/
theorem Run.value_script {before after : List String} {line : String} {v : Value}
    (hbefore : ∀ other ∈ before, ∃ u, (value other).result = .ok u)
    (hline : (value line).result = .ok v) (hstatement : ∃ c ∈ line.toList, ¬ IsBlank c)
    (hafter : ∀ other ∈ after, ∀ c ∈ other.toList, IsBlank c) :
    (value (script (before ++ line :: after))).result = .ok v := by
  rw [script_append, script_cons]
  refine value_script_append hbefore (value_newline_of_isBlank hline (isBlank_script hafter)) ?_
  rcases hstatement with ⟨c, hc, hnot⟩
  refine ⟨c, ?_, hnot⟩
  rw [String.toList_append, String.toList_append]
  exact List.mem_append_left _ (List.mem_append_left _ hc)

theorem Run.value_of_number {source : String} {x : Float} (hread : Numeral.read? source = some x)
    (hchars : source.toList.all (fun c => decide (InAlphabet c)) = true)
    (htokens : Token.ofSource source = [⟨.number, source, .start⟩]) :
    (value source).result = .ok (.number x) :=
  value_eq_ok_iff.mpr ⟨[.number x], program_of_number hread hchars htokens, rfl, rfl⟩

/-- Lines that all have values come to the same in a session and in a file.  The session shows the
value of each of them and reads them all.  The file has the value of its last line with a character
other than a space or a tab, and null if there is no such line. -/
theorem Session.run_script_agrees_with_file
    (hlines : ∀ line ∈ lines, line ≠ "" ∧ '\n' ∉ line.toList)
    (hvalues : List.Forall₂ (fun line v => (Run.value line).result = .ok v) lines values) :
    run .value (Text.toBytes (script lines)) =
      ⟨"\nRepl v0.1\n" ++ String.join (values.map fun v => "> " ++ v.text ++ "\n") ++ "> ",
        (Text.toBytes (script lines)).length, true⟩ ∧
    ∀ (here : Entry) (path : String),
      here.find path = .ok (.file (Text.toBytes (script lines))) →
      (∀ before line after v, lines = before ++ line :: after → (Run.value line).result = .ok v →
        (∃ c ∈ line.toList, c ≠ ' ' ∧ c ≠ '\t') →
        (∀ other ∈ after, ∀ c ∈ other.toList, c = ' ' ∨ c = '\t') →
        here.run .value path = .ok v.text) ∧
      ((∀ line ∈ lines, ∀ c ∈ line.toList, c = ' ' ∨ c = '\t') →
        here.run .value path = .ok "null") := by
  have hgood := exists_value_of_forall₂ hvalues
  have hblank : ∀ c : Char, c = ' ' ∨ c = '\t' → IsBlank c := by
    rintro c (hspace | htab)
    · exact .inl hspace
    · exact .inr (.inl htab)
  refine ⟨run_script hlines hvalues, ?_⟩
  intro here path hfind
  constructor
  · rintro before line after v rfl hline ⟨c, hc, hspace, htab⟩ hafter
    refine Entry.run_of_find hfind (Run.value_script ?_ hline ⟨c, hc, ?_⟩ ?_)
    · intro other hother
      exact hgood other (List.mem_append_left _ hother)
    · rintro (rfl | rfl | rfl)
      · exact hspace rfl
      · exact htab rfl
      · exact (hlines line (by simp)).2 hc
    · intro other hother c hc
      exact hblank c (hafter other hother c hc)
  · intro hall
    refine Entry.run_of_find hfind (Run.value_eq_ok_iff.mpr ⟨[], ?_, rfl, rfl⟩)
    refine Run.program_of_isBlank (isBlank_script ?_)
    intro line hline c hc
    exact hblank c (hall line hline c hc)

/-- A file whose last line is blank has the value of the line before. -/
theorem Session.run_script_agrees_with_file_of_three_lines :
    ∃ values : List Value, (∀ line ∈ ["7", "8", "\t "], line ≠ "" ∧ '\n' ∉ line.toList) ∧
      List.Forall₂ (fun line v => (Run.value line).result = .ok v) ["7", "8", "\t "] values ∧
      (run .value (Text.toBytes (script ["7", "8", "\t "]))).output =
        "\nRepl v0.1\n> 7\n> 8\n> null\n> " ∧
      (Entry.folder [("sums", .file (Text.toBytes (script ["7", "8", "\t "])))]).run .value "sums" =
        .ok "8" := by
  have hlines : ∀ line ∈ ["7", "8", "\t "], line ≠ "" ∧ '\n' ∉ line.toList := by decide +kernel
  have h7 : (Run.value "7").result = .ok (.number 7) :=
    Run.value_of_number (by decide +kernel) (by decide +kernel) rfl
  have h8 : (Run.value "8").result = .ok (.number 8) :=
    Run.value_of_number (by decide +kernel) (by decide +kernel) rfl
  have hnull : (Run.value "\t ").result = .ok .null :=
    Run.value_eq_ok_iff.mpr ⟨[], Run.program_of_isBlank (by simp [IsBlank]), rfl, rfl⟩
  have hvalues : List.Forall₂ (fun line v => (Run.value line).result = .ok v) ["7", "8", "\t "]
      [.number 7, .number 8, .null] := .cons h7 (.cons h8 (.cons hnull .nil))
  have hfind : ∀ bytes, (Entry.folder [("sums", .file bytes)]).find "sums" = .ok (.file bytes) :=
    fun _ => rfl
  have htext : (Value.number 7).text = "7" ∧ (Value.number 8).text = "8" := by decide +kernel
  rcases run_script_agrees_with_file hlines hvalues with ⟨hsession, hfile⟩
  refine ⟨_, hlines, hvalues, ?_, ?_⟩
  · rw [hsession]
    simp only [List.map_cons, List.map_nil, htext]
    decide +kernel
  · have hrun := (hfile _ "sums" (hfind _)).1 ["7"] "8" ["\t "] _ rfl h8 (by simp) (by simp)
    rwa [htext.2] at hrun

end Agreement

end Abacus
