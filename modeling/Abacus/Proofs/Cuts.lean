import Abacus.Proofs.Diagnostics

/-!
# Sources cut in two

What becomes of a source can be told from its parts.

1. A text that begins elsewhere has its characters and tokens in shifted places
   (`Position.after_eq_shift`, `Token.Lexed.shift`).  The end of file of the part before it says all
   that is needed for the shift.
2. So the tokens of a source are those of its two parts, if the cut goes through no token, and its
   fault is that of the first part or else that of the second one (`IsFirstFault.append`,
   `IsFirstFault.prepend`).
3. A cut before the first foreign character leaves the tokens that are on record when the source
   fails (`Token.tokenize_eq_of_fault`).
-/

namespace Abacus

/-! ## Shifted places -/

namespace Position

/-- Lines and columns of a place in a text count from one. -/
def InText (p : Position) : Prop := 1 ≤ p.line ∧ 1 ≤ p.column

theorem start_inText : start.InText := by
  constructor
  · exact Nat.le_refl 1
  · exact Nat.le_refl 1

theorem InText.next {p : Position} (h : p.InText) (c : Char) : (p.next c).InText := by
  unfold Position.next
  split
  · exact ⟨Nat.le_add_left 1 p.line, Nat.le_refl 1⟩
  · exact ⟨h.1, Nat.le_add_left 1 p.column⟩

theorem shift_start (origin : Position) : origin.shift start = origin := rfl

/-- A step in a text is the same step where the text begins elsewhere: a newline leads to the first
column of the next line, and anything else one column further on the same line. -/
theorem next_shift {p : Position} (h : p.InText) (origin : Position) (c : Char) :
    (origin.shift p).next c = origin.shift (p.next c) := by
  rcases p with ⟨line, column⟩
  rcases h with ⟨hline, hcolumn⟩
  simp only at hline hcolumn
  by_cases hnewline : c = '\n'
  · by_cases hfirst : line = 1
    · simp [next, shift, hnewline, hfirst]
    · simp only [next, shift, hnewline, hfirst, if_true, if_false]
      rw [if_neg (by omega)]
      simp only [mk.injEq, and_true]
      omega
  · by_cases hfirst : line = 1
    · simp only [next, shift, hnewline, hfirst, if_true, if_false, mk.injEq, true_and]
      omega
    · simp [next, shift, hnewline, hfirst]

theorem after_shift {p : Position} (h : p.InText) (origin : Position) (text : List Char) :
    (origin.shift p).after text = origin.shift (p.after text) := by
  induction text generalizing p with
  | nil => rfl
  | cons c text ih => rw [after_cons, after_cons, next_shift h, ih (h.next c)]

/-- The place behind a text is found from the one behind the same text at the very beginning. -/
theorem after_eq_shift (origin : Position) (text : List Char) :
    origin.after text = origin.shift (start.after text) := by
  have hshift := after_shift start_inText origin text
  rw [shift_start] at hshift
  exact hshift

end Position

namespace Token

/-- Where a token of a text is found when that text begins at `origin`. -/
def shift (origin : Position) (t : Token) : Token := { t with pos := origin.shift t.pos }

theorem stop_inText {t : Token} (h : t.pos.InText) : t.stop.InText := by
  rcases h with ⟨hline, hcolumn⟩
  constructor
  · exact hline
  · exact Nat.le_trans hcolumn (Nat.le_add_right _ _)

theorem stop_shift {t : Token} (h : t.pos.InText) (origin : Position) :
    (t.shift origin).stop = origin.shift t.stop := by
  have hcolumn := h.2
  unfold shift stop Position.shift
  by_cases hfirst : t.pos.line = 1
  · simp only [hfirst, if_true, Position.mk.injEq, true_and]
    omega
  · simp only [hfirst, if_false]

/-- By induction on the row of blanks and tokens: the places of a text move with its beginning, and
nothing else depends on them. -/
theorem Lexed.shift {p : Position} {text : List Char} {tokens : List Token}
    (h : Lexed p text tokens) (hp : p.InText) (origin : Position) :
    Lexed (origin.shift p) text (tokens.map (Token.shift origin)) := by
  induction h with
  | nil => exact .nil
  | blank isBlank _ ih =>
    have hrest := ih (hp.next _)
    rw [← Position.next_shift hp] at hrest
    exact .blank isBlank hrest
  | @token t rest tokens fits inside separate _ ih =>
    have hrest := ih (stop_inText hp)
    rw [← stop_shift hp] at hrest
    have hfits : (t.shift origin).Fits := fits
    exact Lexed.token hfits inside separate hrest

end Token

/-! ## Faults of the parts -/

section Fault

variable {a b : String} {e : LexError}

/-- Nothing behind a fault matters. -/
theorem IsFirstFault.append (h : IsFirstFault a e) (b : String) : IsFirstFault (a ++ b) e := by
  rcases h with ⟨before, c, after, hsource, hbefore, hc, he⟩
  refine ⟨before, c, after ++ b.toList, ?_, hbefore, hc, he⟩
  rw [String.toList_append, hsource, List.append_assoc, List.cons_append]

/-- A fault moves with the text before it, if that text has none. -/
theorem IsFirstFault.prepend (h : IsFirstFault b e) (ha : ∀ c ∈ a.toList, InAlphabet c) :
    IsFirstFault (a ++ b) ⟨e.char, (Position.start.after a.toList).shift e.pos⟩ := by
  rcases h with ⟨before, c, after, hsource, hbefore, hc, rfl⟩
  refine ⟨a.toList ++ before, c, after, ?_, ?_, hc, ?_⟩
  · rw [String.toList_append, hsource, List.append_assoc]
  · exact List.forall_mem_append.mpr ⟨ha, hbefore⟩
  · rw [Position.after_append, ← Position.after_eq_shift]

end Fault

namespace Token

/-! ## Tokens of the parts -/

section Parts

variable {a b : String} {ta tb : List Token} {p : Position}

/-- A source that has tokens has recognized characters only, and its end of file stands behind them
all. -/
theorem eq_of_tokenize (h : (tokenize a).result = .ok (ta ++ [endOfFile p])) :
    (∀ c ∈ a.toList, InAlphabet c) ∧ ta = ofText .start a.toList ∧
      p = Position.start.after a.toList := by
  have hlexed := tokenize_eq_ok_iff.mp h
  have hparts := List.append_inj' hlexed.tokens_eq rfl
  refine ⟨hlexed.inAlphabet, hparts.1, ?_⟩
  exact congrArg Token.pos (List.cons.inj hparts.2).1

/-- The tokens of two parts that no token joins. -/
theorem tokenize_append (ha : (tokenize a).result = .ok (ta ++ [endOfFile p]))
    (hb : (tokenize b).result = .ok tb) (hseparate : Separate a.toList b.toList) :
    (tokenize (a ++ b)).result = .ok (ta ++ tb.map (shift p)) := by
  rcases eq_of_tokenize ha with ⟨hchars, rfl, rfl⟩
  have hlexed := tokenize_eq_ok_iff.mp hb
  have hmoved := hlexed.shift Position.start_inText (Position.start.after a.toList)
  rw [Position.shift_start] at hmoved
  have hall : ∀ c ∈ (a ++ b).toList, InAlphabet c := by
    rw [String.toList_append]
    exact List.forall_mem_append.mpr ⟨hchars, hlexed.inAlphabet⟩
  have hsource : ofSource (a ++ b) =
      ofText .start a.toList ++ ofText (Position.start.after a.toList) b.toList := by
    change ofText .start (a ++ b).toList = _
    rw [String.toList_append, ofText_append hseparate]
  rw [tokenize_of_inAlphabet hall, hsource, hmoved.tokens_eq, String.toList_append,
    Position.after_append, List.append_assoc]

end Parts

/-- What becomes of `a ++ b` follows from what becomes of `a` and of `b`.  A fault of `a` stays where
it is.  If `a` has tokens, the place of its end of file shifts those of `b`: its fault, or its
tokens, which stand behind those of `a` unless the cut goes through a number or a word. -/
theorem tokenize_by_parts (a b : String) :
    (∀ e, (tokenize a).result = .error e → (tokenize (a ++ b)).result = .error e) ∧
    ∀ ta p, (tokenize a).result = .ok (ta ++ [endOfFile p]) →
      (∀ e, (tokenize b).result = .error e →
        (tokenize (a ++ b)).result = .error ⟨e.char, p.shift e.pos⟩) ∧
      ∀ tb, (tokenize b).result = .ok tb →
        (∀ x ∈ a.toList.getLast?, ∀ y ∈ b.toList.head?,
          ¬ (x.isDigit = true ∧ y.isDigit = true) ∧
            ¬ (Text.isCased x = true ∧ Text.isCased y = true)) →
        (tokenize (a ++ b)).result = .ok (ta ++ tb.map (shift p)) := by
  constructor
  · intro e he
    exact tokenize_of_isFirstFault ((tokenize_eq_error_iff.mp he).append b)
  · intro ta p ha
    constructor
    · intro e he
      rcases eq_of_tokenize ha with ⟨hchars, _, rfl⟩
      exact tokenize_of_isFirstFault ((tokenize_eq_error_iff.mp he).prepend hchars)
    · intro tb hb hneighbours
      exact tokenize_append ha hb (separate_of_not_both hneighbours)

/-- Behind `x` and `2` on two lines, what stands on the first line of the other part moves to the
right and down, and what stands on its later lines only down. -/
theorem tokenize_by_parts_of_two_lines :
    (tokenize ("x\n2" ++ "+\n3")).result =
        .ok [⟨.identifier, "x", ⟨1, 1⟩⟩, ⟨.number, "2", ⟨2, 1⟩⟩, ⟨.operator, "+", ⟨2, 2⟩⟩,
          ⟨.number, "3", ⟨3, 1⟩⟩, endOfFile ⟨3, 2⟩] ∧
      (tokenize ("x\n2" ++ "* #")).result = .error ⟨'#', ⟨2, 4⟩⟩ ∧
      (tokenize ("1 #" ++ "2 $")).result = .error ⟨'#', ⟨1, 3⟩⟩ := by
  have ha : (tokenize "x\n2").result =
      .ok ([⟨.identifier, "x", ⟨1, 1⟩⟩, ⟨.number, "2", ⟨2, 1⟩⟩] ++ [endOfFile ⟨2, 2⟩]) :=
    tokenize_of_isRecognized (by decide +kernel)
  have hb : (tokenize "+\n3").result =
      .ok [⟨.operator, "+", ⟨1, 1⟩⟩, ⟨.number, "3", ⟨2, 1⟩⟩, endOfFile ⟨2, 2⟩] :=
    tokenize_of_isRecognized (by decide +kernel)
  have hneighbours : ∀ x ∈ "x\n2".toList.getLast?, ∀ y ∈ "+\n3".toList.head?,
      ¬ (x.isDigit = true ∧ y.isDigit = true) ∧
        ¬ (Text.isCased x = true ∧ Text.isCased y = true) := by
    intro x _ y hy
    have hplus : '+' = y := Option.some.inj hy
    rw [← hplus]
    exact ⟨fun h => absurd h.2 (by decide), fun h => absurd h.2 (by decide)⟩
  refine ⟨((tokenize_by_parts _ _).2 _ _ ha).2 _ hb hneighbours, ?_, ?_⟩
  · have hfault : IsFirstFault "* #" ⟨'#', ⟨1, 3⟩⟩ :=
      ⟨['*', ' '], '#', [], rfl, by simp [InAlphabet, IsBlank], by decide +kernel, rfl⟩
    exact ((tokenize_by_parts _ _).2 _ _ ha).1 _ (tokenize_of_isFirstFault hfault)
  · have hfault : IsFirstFault "1 #" ⟨'#', ⟨1, 3⟩⟩ :=
      ⟨['1', ' '], '#', [], rfl, by simp [InAlphabet, IsBlank], by decide +kernel, rfl⟩
    exact (tokenize_by_parts _ _).1 _ (tokenize_of_isFirstFault hfault)

/-! ## Records -/

/-- A source has tokens exactly if all of its characters are recognized.  It then records each of
them, and at last how many there are with the end of file.  Any other source fails at its first
foreign character, in the place of that character, and on record are exactly the tokens of the text
before it. -/
theorem tokenize_up_to_fault (source : String) :
    ((∃ tokens, (tokenize source).result = .ok tokens) ↔ ∀ c ∈ source.toList, InAlphabet c) ∧
    (∀ (a : String) (c : Char) (b : List Char), source.toList = a.toList ++ c :: b →
      (∀ x ∈ a.toList, InAlphabet x) → ¬ InAlphabet c →
      (tokenize source).result = .error ⟨c, .ofOffset source.toList a.length⟩ ∧
      ∃ tokens, (tokenize a).result = .ok tokens ∧
        (tokenize source).trace = (tokens.filter fun t => !t.isEnd).map .lexed) ∧
    ∀ tokens, (tokenize source).result = .ok tokens →
      (tokenize source).trace =
        (tokens.filter fun t => !t.isEnd).map .lexed ++ [.tokenized tokens.length] := by
  refine ⟨?_, ?_, ?_⟩
  · constructor
    · rintro ⟨tokens, htokens⟩
      exact (tokenize_eq_ok_iff.mp htokens).inAlphabet
    · intro hchars
      exact ⟨_, tokenize_of_inAlphabet hchars⟩
  · intro a c b hsource ha hc
    rw [tokenize_eq_of_fault hsource ha hc, hsource, ← String.length_toList,
      Position.ofOffset_append, String.ofList_toList]
    refine ⟨rfl, _, tokenize_of_inAlphabet ha, ?_⟩
    rw [filter_ofSource]
  · intro tokens htokens
    have hchars := (tokenize_eq_ok_iff.mp htokens).inAlphabet
    rw [tokenize_eq_of_inAlphabet hchars] at htokens ⊢
    rw [← Except.ok.inj htokens, filter_ofSource, List.length_append, List.length_singleton]

/-- A foreign character that ends a number: the number is on record, and what follows is not. -/
theorem tokenize_up_to_interrupted_number :
    (tokenize "a\n12#3").result = .error ⟨'#', ⟨2, 3⟩⟩ ∧
      (tokenize "a\n12#3").trace =
        [.lexed ⟨.identifier, "a", ⟨1, 1⟩⟩, .lexed ⟨.number, "12", ⟨2, 1⟩⟩] ∧
      (tokenize "a\n12").trace =
        [.lexed ⟨.identifier, "a", ⟨1, 1⟩⟩, .lexed ⟨.number, "12", ⟨2, 1⟩⟩, .tokenized 3] := by
  have hgood : (tokenize "a\n12").result =
      .ok [⟨.identifier, "a", ⟨1, 1⟩⟩, ⟨.number, "12", ⟨2, 1⟩⟩, endOfFile ⟨2, 3⟩] :=
    tokenize_of_isRecognized (by decide +kernel)
  rcases tokenize_up_to_fault "a\n12" with ⟨hchars, _, hrecords⟩
  rcases tokenize_up_to_fault "a\n12#3" with ⟨_, hfault, _⟩
  rcases hfault "a\n12" '#' ['3'] rfl (hchars.mp ⟨_, hgood⟩) (by decide) with
    ⟨herror, tokens, htokens, htrace⟩
  refine ⟨herror, ?_, hrecords _ hgood⟩
  rw [htrace, Except.ok.inj (htokens.symm.trans hgood)]
  rfl

end Token

end Abacus
