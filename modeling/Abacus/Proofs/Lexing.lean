import Abacus.Token.Lexing
import Mathlib.Data.List.SplitBy
import Mathlib.Data.List.TakeWhile

/-!
# Characters and runs

1. The alphabet, listed: a character is recognized exactly if it is one of the marks, a blank, a
   digit or a cased letter (`isRecognized_iff`).
2. Either all characters of a source are recognized, or one of them is the first that is not
   (`inAlphabet_or_isFirstFault`).
3. Which tokens a row of recognized characters holds can be said of all of them at once: neighbours
   that join make a run, and every run but a blank one is a token (`Token.ofGlyphs`).  None of them
   is an end of file, and only blank sources have none at all (`Token.ofGlyphs_eq_nil_iff`).
-/

namespace Abacus

/-! ## The alphabet -/

/-- Spaces, tabs and newlines. -/
def IsBlank (c : Char) : Prop := c = ' ' ∨ c = '\t' ∨ c = '\n'

/-- The characters that a source may hold. -/
def InAlphabet (c : Char) : Prop :=
  c ∈ "()+-*/%=".toList ∨ IsBlank c ∨ c.isDigit = true ∨ Text.isCased c = true

instance (c : Char) : Decidable (IsBlank c) := inferInstanceAs (Decidable (_ ∨ _))

instance (c : Char) : Decidable (InAlphabet c) := inferInstanceAs (Decidable (_ ∨ _))

theorem Role.of?_eq_blank_iff {c : Char} : Role.of? c = some .blank ↔ IsBlank c := by
  unfold Role.of? IsBlank
  split
  all_goals simp_all
  split <;> simp_all

theorem isRecognized_iff {c : Char} : isRecognized c = true ↔ InAlphabet c := by
  unfold isRecognized InAlphabet IsBlank Role.of?
  split
  case h_12 =>
    by_cases hdigit : c.isDigit = true
    · simp [hdigit]
    by_cases hcased : Text.isCased c = true
    · simp [hcased, hdigit]
    · simp_all
  all_goals simp

/-- A character outside the alphabet plays no part. -/
theorem Role.of?_eq_none_iff {c : Char} : Role.of? c = none ↔ ¬ InAlphabet c := by
  rw [← isRecognized_iff, isRecognized, Option.isSome_iff_ne_none, not_not]

/-- A carriage return is no blank, so a line with one is refused. -/
theorem not_inAlphabet_return : ¬ InAlphabet '\r' := by decide +kernel

/-- No character is an end of file. -/
theorem Role.mark_ne_endOfFile {c : Char} : Role.of? c ≠ some (.mark .endOfFile) := by
  unfold Role.of?
  split
  case h_12 =>
    split
    · simp
    · split <;> simp
  all_goals simp

/-! ## Sources -/

/-- The error names the first character outside the alphabet, in its place. -/
def IsFirstFault (source : String) (error : LexError) : Prop :=
  ∃ before c after, source.toList = before ++ c :: after ∧ (∀ x ∈ before, InAlphabet x) ∧
    ¬ InAlphabet c ∧ error = ⟨c, Position.start.after before⟩

/-- Either all characters are recognized, or one of them is the first that is not. -/
theorem inAlphabet_or_isFirstFault (source : String) :
    (∀ c ∈ source.toList, InAlphabet c) ∨ ∃ error, IsFirstFault source error := by
  have hsplit := List.takeWhile_append_dropWhile (p := fun c => decide (InAlphabet c))
    (l := source.toList)
  have hbefore : ∀ x ∈ source.toList.takeWhile (fun c => decide (InAlphabet c)), InAlphabet x := by
    intro x hx
    simpa using List.mem_takeWhile_imp hx
  have hnot := List.head?_dropWhile_not (fun c => decide (InAlphabet c)) source.toList
  cases hdrop : source.toList.dropWhile (fun c => decide (InAlphabet c)) with
  | nil =>
    left
    rwa [← hsplit, hdrop, List.append_nil]
  | cons c after =>
    right
    rw [hdrop] at hsplit hnot
    exact ⟨_, _, c, after, hsplit.symm, hbefore, by simpa using hnot, rfl⟩

theorem exists_isFirstFault_iff {source : String} :
    (∃ error, IsFirstFault source error) ↔ ∃ c ∈ source.toList, ¬ InAlphabet c := by
  constructor
  · rintro ⟨error, before, c, after, hsource, _, hc, _⟩
    refine ⟨c, ?_, hc⟩
    rw [hsource]
    simp
  · rintro ⟨c, hmem, hc⟩
    rcases inAlphabet_or_isFirstFault source with hall | hfault
    · exact absurd (hall c hmem) hc
    · exact hfault

/-! ## Places -/

/-- A character in its place. -/
structure Glyph where
  char : Char
  pos : Position
deriving Repr, DecidableEq

namespace Glyph

/-- The characters of a text that begins at `p`, in their places. -/
def place (p : Position) : List Char → List Glyph
  | [] => []
  | c :: text => ⟨c, p⟩ :: place (p.next c) text

@[simp] theorem place_nil (p : Position) : place p [] = [] := rfl

@[simp] theorem place_cons (p : Position) (c : Char) (text : List Char) :
    place p (c :: text) = ⟨c, p⟩ :: place (p.next c) text := rfl

theorem place_append (p : Position) (a b : List Char) :
    place p (a ++ b) = place p a ++ place (p.after a) b := by
  induction a generalizing p with
  | nil => rfl
  | cons c a ih => simp [ih, Position.after]

@[simp] theorem map_char_place (p : Position) (text : List Char) :
    (place p text).map Glyph.char = text := by
  induction text generalizing p with
  | nil => rfl
  | cons c text ih => simp [ih]

theorem char_mem_of_mem_place {p : Position} {text : List Char} {g : Glyph}
    (h : g ∈ place p text) : g.char ∈ text := by
  have hchar := List.mem_map_of_mem (f := Glyph.char) h
  rwa [map_char_place] at hchar

theorem isRecognized_of_mem_place {p : Position} {text : List Char} {g : Glyph}
    (htext : ∀ c ∈ text, InAlphabet c) (h : g ∈ place p text) : isRecognized g.char = true :=
  isRecognized_iff.mpr (htext g.char (char_mem_of_mem_place h))

end Glyph

/-! ## Runs -/

namespace Token

/-- The longest pieces of `glyphs` in which neighbours join. -/
def runs (glyphs : List Glyph) : List (List Glyph) :=
  glyphs.splitBy fun a b => Role.joins (Role.of? a.char) (Role.of? b.char)

/-- The token that a run is; blanks are none. -/
def ofRun? (run : List Glyph) : Option Token :=
  match run with
  | [] => none
  | first :: _ =>
    let lexeme := String.ofList (run.map Glyph.char)
    match Role.of? first.char with
    | some .digit => some ⟨.number, lexeme, first.pos⟩
    | some .letter => some ⟨wordKind lexeme, lexeme, first.pos⟩
    | some (.mark kind) => some ⟨kind, lexeme, first.pos⟩
    | some .blank | none => none

/-- The tokens in a row of recognized characters. -/
def ofGlyphs (glyphs : List Glyph) : List Token := (runs glyphs).filterMap ofRun?

/-- The tokens of a source, without the end of file. -/
def ofSource (source : String) : List Token := ofGlyphs (Glyph.place .start source.toList)

theorem isEnd_eq_false_of_mem {glyphs : List Glyph} {t : Token} (h : t ∈ ofGlyphs glyphs) :
    t.isEnd = false := by
  rcases List.mem_filterMap.mp h with ⟨run, _, hrun⟩
  rcases run with _ | ⟨first, rest⟩
  · simp [ofRun?] at hrun
  unfold ofRun? at hrun
  simp only at hrun
  split at hrun
  · rcases hrun with ⟨rfl⟩
    rfl
  · rcases hrun with ⟨rfl⟩
    unfold wordKind isEnd
    split <;> rfl
  · next kind hrole =>
    rcases hrun with ⟨rfl⟩
    have hkind : kind ≠ .endOfFile := by
      rintro rfl
      exact Role.mark_ne_endOfFile hrole
    simpa [isEnd] using hkind
  · simp at hrun
  · simp at hrun

theorem flatten_runs (glyphs : List Glyph) : (runs glyphs).flatten = glyphs :=
  List.flatten_splitBy _ glyphs

/-- A blank never joins the character after it. -/
theorem eq_nil_of_blank_run {glyphs rest : List Glyph} {first : Glyph}
    (hrun : first :: rest ∈ runs glyphs) (hblank : IsBlank first.char) : rest = [] := by
  rcases rest with _ | ⟨second, rest⟩
  · rfl
  have hchain := List.isChain_of_mem_splitBy hrun
  have hjoins := (List.isChain_cons_cons.mp hchain).1
  rw [Role.of?_eq_blank_iff.mpr hblank] at hjoins
  exact absurd hjoins (by simp [Role.joins])

/-- A run of recognized characters is no token exactly if it begins with a blank. -/
theorem ofRun?_eq_none_iff {first : Glyph} {rest : List Glyph}
    (hrec : isRecognized first.char = true) :
    ofRun? (first :: rest) = none ↔ IsBlank first.char := by
  rw [← Role.of?_eq_blank_iff]
  unfold isRecognized at hrec
  unfold ofRun?
  cases hrole : Role.of? first.char with
  | none =>
    rw [hrole] at hrec
    exact absurd hrec (by simp)
  | some role => cases role <;> simp [hrole]

/-- Characters that are all recognized make no token exactly if they are all blank. -/
theorem ofGlyphs_eq_nil_iff {glyphs : List Glyph}
    (hrec : ∀ g ∈ glyphs, isRecognized g.char = true) :
    ofGlyphs glyphs = [] ↔ ∀ g ∈ glyphs, IsBlank g.char := by
  unfold ofGlyphs
  rw [List.filterMap_eq_nil_iff]
  have hmem : ∀ run ∈ runs glyphs, ∀ g ∈ run, g ∈ glyphs := by
    intro run hrun g hg
    rw [← flatten_runs glyphs]
    exact List.mem_flatten_of_mem hrun hg
  constructor
  · intro hnone g hg
    rw [← flatten_runs glyphs] at hg
    rcases List.mem_flatten.mp hg with ⟨run, hrun, hgrun⟩
    rcases run with _ | ⟨first, rest⟩
    · exact absurd hgrun (by simp)
    -- the run is no token, so it begins with a blank and holds nothing else
    have hblank : IsBlank first.char :=
      (ofRun?_eq_none_iff (hrec first (hmem _ hrun first (by simp)))).mp (hnone _ hrun)
    have hrest : rest = [] := eq_nil_of_blank_run hrun hblank
    rw [hrest, List.mem_singleton] at hgrun
    rw [hgrun]
    exact hblank
  · intro hblank run hrun
    rcases run with _ | ⟨first, rest⟩
    · rfl
    have hfirst : first ∈ glyphs := hmem _ hrun first (by simp)
    exact (ofRun?_eq_none_iff (hrec first hfirst)).mpr (hblank first hfirst)

theorem not_isEnd_of_mem_ofSource {source : String} {t : Token} (h : t ∈ ofSource source) :
    (!t.isEnd) = true := by
  rw [isEnd_eq_false_of_mem h]
  rfl

/-- The end of file behind the tokens of a source is the first one. -/
theorem takeWhile_ofSource (source : String) (p : Position) :
    (ofSource source ++ [endOfFile p]).takeWhile (fun t => !t.isEnd) = ofSource source := by
  rw [List.takeWhile_append_of_pos fun _ => not_isEnd_of_mem_ofSource]
  simp [endOfFile, isEnd]

/-- It is the only one. -/
theorem filter_ofSource (source : String) (p : Position) :
    (ofSource source ++ [endOfFile p]).filter (fun t => !t.isEnd) = ofSource source := by
  rw [List.filter_append, List.filter_eq_self.mpr fun _ => not_isEnd_of_mem_ofSource]
  simp [endOfFile, isEnd]

/-- It is no identifier. -/
theorem find?_identifier_ofSource (source : String) (p : Position) :
    (ofSource source ++ [endOfFile p]).find? (fun t => t.kind = .identifier) =
      (ofSource source).find? (fun t => t.kind = .identifier) := by
  rw [List.find?_append]
  simp [endOfFile]

/-- A source without foreign characters has no token exactly if it is blank. -/
theorem ofSource_eq_nil_iff {source : String} (h : ∀ c ∈ source.toList, InAlphabet c) :
    ofSource source = [] ↔ ∀ c ∈ source.toList, IsBlank c := by
  unfold ofSource
  have hrec : ∀ g ∈ Glyph.place .start source.toList, isRecognized g.char = true := by
    intro g hg
    exact Glyph.isRecognized_of_mem_place h hg
  rw [ofGlyphs_eq_nil_iff hrec]
  constructor
  · intro hblank c hc
    rw [← Glyph.map_char_place .start source.toList] at hc
    rcases List.mem_map.mp hc with ⟨g, hg, rfl⟩
    exact hblank g hg
  · intro hblank g hg
    exact hblank g.char (Glyph.char_mem_of_mem_place hg)

end Token

end Abacus
