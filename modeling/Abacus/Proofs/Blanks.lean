import Abacus.Proofs.Contents
import Abacus.Proofs.Diagnostics
import Abacus.Proofs.Writing

/-!
# Blanks between tokens

Blanks may be put between any two tokens: the source has the same tree and the same value, or the
same failure at the same piece of the text.

1. The blanks `w` behind `a` move every offset from the end of `a` on by their length (`moved`).
2. The tokens of `a ++ b` and of `a ++ w ++ b` correspond one to one, each standing at the moved
   offset (`Token.forall₂_shifted`); so does the first foreign character
   (`isFirstFault_shifted`).
3. So both sources are read as the same program, or refused with failures that differ in nothing
   but their place (`Run.program_of_blanks`).
-/

namespace Abacus

/-- Where the offset `k` comes to stand when the blanks `w` are put behind `a`. -/
def moved (a w : List Char) (k : Nat) : Nat := if k < a.length then k else k + w.length

/-- The failures of `a ++ b` and of `a ++ w ++ b` are the same: of one kind, with one message, and
about one piece of the text. -/
structure Failure.Shifted (a w b : List Char) (failure failure' : Failure) : Prop where
  kind : failure'.kind = failure.kind
  message : failure'.message = failure.message
  points : failure.IsPlaced →
    ∃ k, failure.PointsAt (a ++ b) k ∧ failure'.PointsAt (a ++ w ++ b) (moved a w k)

section Moved

variable {a w b : List Char}

theorem moved_of_lt {k : Nat} (h : k < a.length) : moved a w k = k := if_pos h

/-- Whatever stands in `b` is moved by all of `w`. -/
theorem moved_length_append (a w front : List Char) :
    moved a w (a ++ front).length = (a ++ w ++ front).length := by
  have hlast : ¬ (a ++ front).length < a.length := by simp
  rw [moved, if_neg hlast]
  simp only [List.length_append]
  omega

/-! ## Foreign characters -/

/-- The blanks are no fault, so the first fault stays the first one. -/
theorem isFirstFault_shifted (hblank : ∀ c ∈ w, IsBlank c) {source source' : String}
    (hsource : source.toList = a ++ b) (hsource' : source'.toList = a ++ w ++ b) {error : LexError}
    (h : IsFirstFault source error) :
    ∃ error', IsFirstFault source' error' ∧
      Failure.Shifted a w b (.lex error) (.lex error') := by
  rcases h with ⟨before, c, after, htext, hbefore, hc, rfl⟩
  rw [hsource] at htext
  -- the fault stands behind `front'` in the wider text
  suffices hfront : ∃ front' after', a ++ w ++ b = front' ++ c :: after' ∧
      (∀ x ∈ front', InAlphabet x) ∧ moved a w before.length = front'.length by
    rcases hfront with ⟨front', after', htext', hfront', hmoved⟩
    refine ⟨_, ⟨front', c, after', hsource'.trans htext', hfront', hc, rfl⟩, rfl, rfl, ?_⟩
    intro _
    refine ⟨before.length, Failure.pointsAt_lex htext, ?_⟩
    rw [hmoved]
    exact Failure.pointsAt_lex htext'
  rcases List.append_eq_append_iff.mp htext with ⟨middle, rfl, hb⟩ | ⟨middle, ha, hafter⟩
  · -- the fault is in `b`
    refine ⟨a ++ w ++ middle, after, ?_, ?_, moved_length_append a w middle⟩
    · rw [hb]
      simp
    · intro x hx
      simp only [List.mem_append] at hx
      rcases hx with (hx | hx) | hx
      · exact hbefore x (by simp [hx])
      · exact .inr (.inl (hblank x hx))
      · exact hbefore x (by simp [hx])
  · cases middle with
    | nil =>
      -- the fault is the first character of `b`
      have ha' : a = before := by simpa using ha
      have hb : b = c :: after := by simpa using hafter.symm
      refine ⟨a ++ w, after, by rw [hb], ?_, ?_⟩
      · intro x hx
        rcases List.mem_append.mp hx with hx | hx
        · exact hbefore x (ha' ▸ hx)
        · exact .inr (.inl (hblank x hx))
      · rw [← ha']
        simpa using moved_length_append a w []
    | cons c' middle =>
      -- the fault is in `a`
      rcases List.cons.inj hafter with ⟨rfl, rfl⟩
      refine ⟨before, middle ++ (w ++ b), by rw [ha]; simp, hbefore, moved_of_lt ?_⟩
      rw [ha]
      simp

end Moved

/-! ## Tokens -/

namespace Token

variable {a w b : List Char}

/-- The same token of `a ++ b` and of `a ++ w ++ b`. -/
structure Shifted (a w b : List Char) (t u : Token) : Prop where
  content : u.content = t.content
  stands : ∃ k ≤ (a ++ b).length, t.StandsAt (a ++ b) k ∧ t.pos = .ofOffset (a ++ b) k ∧
    moved a w k ≤ (a ++ w ++ b).length ∧ u.StandsAt (a ++ w ++ b) (moved a w k) ∧
    u.pos = .ofOffset (a ++ w ++ b) (moved a w k)

theorem written_of_content {t u : Token} (h : u.content = t.content) :
    Layout.written u = Layout.written t := by
  unfold Layout.written
  rw [isEnd_of_content h, lexeme_of_content h]

/-- Two tokens with the same content correspond if each stands behind its front of the text. -/
theorem shifted_of_fronts {t u : Token} {front front' back back' : List Char}
    (hcontent : u.content = t.content) (hback : t.isEnd = true → back = [])
    (hback' : t.isEnd = true → back' = [])
    (htext : a ++ b = front ++ Layout.written t ++ back) (hpos : t.pos = Position.start.after front)
    (htext' : a ++ w ++ b = front' ++ Layout.written t ++ back')
    (hpos' : u.pos = Position.start.after front')
    (hmoved : moved a w front.length = front'.length) : Shifted a w b t u := by
  rw [← written_of_content hcontent] at htext'
  rw [← isEnd_of_content hcontent] at hback'
  refine ⟨hcontent, front.length, ?_, ?_, ?_, ?_, ?_, ?_⟩
  · rw [htext]
    simp
  · rw [htext]
    exact standsAt_length hback
  · rw [hpos, htext, List.append_assoc, Position.ofOffset_append]
  · rw [hmoved, htext']
    simp
  · rw [hmoved, htext']
    exact standsAt_length hback'
  · rw [hpos', hmoved, htext', List.append_assoc, Position.ofOffset_append]

/-- A token of `a` stays where it is. -/
theorem shifted_of_mem (ha : ∀ c ∈ a, InAlphabet c) {t : Token} (ht : t ∈ ofText .start a) :
    Shifted a w b t t := by
  rcases exists_lexed ha .start with ⟨tokens, htokens⟩
  have hmem : t ∈ tokens := by
    rw [htokens.tokens_eq]
    exact List.mem_append_left _ ht
  have hend : t.isEnd = false := isEnd_eq_false_of_mem ht
  have hwritten : Layout.written t = t.lexeme.toList := by simp [Layout.written, hend]
  rcases htokens.exists_front t hmem with ⟨front, back, htext, hpos, _⟩
  have hlexeme := List.length_pos_iff.mpr ((htokens.fits t hmem).toList_ne_nil hend)
  have hlt : front.length < a.length := by
    rw [htext, hwritten]
    simp only [List.length_append]
    omega
  have hvacuous : ∀ rest : List Char, t.isEnd = true → rest = [] := by
    intro rest htrue
    rw [hend] at htrue
    exact absurd htrue (by simp)
  have hnarrow : a ++ b = front ++ Layout.written t ++ (back ++ b) := by
    nth_rewrite 1 [htext]
    simp
  have hwide : a ++ w ++ b = front ++ Layout.written t ++ (back ++ (w ++ b)) := by
    nth_rewrite 1 [htext]
    simp
  exact shifted_of_fronts rfl (hvacuous _) (hvacuous _) hnarrow hpos hwide hpos (moved_of_lt hlt)

/-- A token of `b`, or the end of file, is moved by the blanks. -/
theorem shifted_of_samePiece {t u : Token}
    (h : SamePiece (Position.start.after a) (Position.start.after (a ++ w)) b t u) :
    Shifted a w b t u := by
  rcases h.exists_front with ⟨front, back, hb, hback, hpos, hpos'⟩
  rw [← Position.after_append] at hpos hpos'
  refine shifted_of_fronts h.content hback hback ?_ hpos ?_ hpos' (moved_length_append a w front)
  · rw [hb]
    simp
  · rw [hb]
    simp

theorem ofText_blanks_append (hblank : ∀ c ∈ w, IsBlank c) (p : Position) (text : List Char) :
    ofText p (w ++ text) = ofText (p.after w) text := by
  induction w generalizing p with
  | nil => rfl
  | cons c w ih =>
    have hrest : ∀ x ∈ w, IsBlank x := fun x hx => hblank x (List.mem_cons_of_mem c hx)
    rw [List.cons_append, ofText_cons_of_blank (hblank c (by simp)), ih hrest, Position.after_cons]

/-- Blanks separate whatever they stand between. -/
theorem separate_blanks_append (hblank : ∀ c ∈ w, IsBlank c) (h : Separate a b) :
    Separate a (w ++ b) := by
  cases w with
  | nil => exact h
  | cons c w => exact (standsAlone_of_blank (hblank c (by simp))).separate_right a (w ++ b)

/-- The tokens of `a ++ b` and of `a ++ w ++ b`, one to one. -/
theorem forall₂_shifted (hblank : ∀ c ∈ w, IsBlank c) (hseparate : Separate a b)
    (hchars : ∀ c ∈ a ++ b, InAlphabet c) :
    List.Forall₂ (Shifted a w b)
      (ofText .start (a ++ b) ++ [endOfFile (Position.start.after (a ++ b))])
      (ofText .start (a ++ w ++ b) ++ [endOfFile (Position.start.after (a ++ w ++ b))]) := by
  have ha : ∀ c ∈ a, InAlphabet c := fun c hc => hchars c (List.mem_append_left b hc)
  have hb : ∀ c ∈ b, InAlphabet c := fun c hc => hchars c (List.mem_append_right a hc)
  have hwide : ofText .start (a ++ w ++ b) =
      ofText .start a ++ ofText (Position.start.after (a ++ w)) b := by
    rw [List.append_assoc, ofText_append (separate_blanks_append hblank hseparate),
      ofText_blanks_append hblank, Position.after_append]
  rw [ofText_append hseparate, hwide, List.append_assoc, List.append_assoc,
    Position.after_append _ a b, Position.after_append _ (a ++ w) b]
  refine List.rel_append ?_ ?_
  · exact List.forall₂_same.mpr fun t ht => shifted_of_mem ha ht
  · refine (forall₂_samePiece hb _ _).imp ?_
    intro t u hpiece
    exact shifted_of_samePiece hpiece

end Token

/-! ## Runs -/

namespace Run

variable {source source' : String} {emit : Emit} {a w b : List Char}

/-- A source whose program is refused is refused in every mode that gets so far. -/
theorem text_of_program_error {failure : Failure} (hemit : emit = .value ∨ emit = .tree)
    (h : (program source).result = .error failure) :
    (text emit source).result = .error failure := by
  rcases hemit with rfl | rfl
  · exact text_value_eq_error_iff.mpr (program_eq_error_iff.mp h).1
  · exact text_tree_eq_error_iff.mpr h

/-- Sources with one program come to one text, in every mode that does not show the tokens. -/
theorem text_eq_of_program {parsed : Program} (hemit : emit = .value ∨ emit = .tree)
    (h : (program source).result = .ok parsed) (h' : (program source').result = .ok parsed) :
    (text emit source').result = (text emit source).result := by
  rcases hemit with rfl | rfl
  · unfold text
    rw [Traced.result_bind, Traced.result_bind, result_value, result_value, h, h']
  · unfold text
    rw [Traced.result_bind, Traced.result_bind, h, h']

/-- With blanks between two tokens a source has the same program, or the same failure. -/
theorem program_of_blanks (hblank : ∀ c ∈ w, IsBlank c) (hseparate : Token.Separate a b)
    (hsource : source.toList = a ++ b) (hsource' : source'.toList = a ++ w ++ b) :
    (∃ parsed, (program source).result = .ok parsed ∧ (program source').result = .ok parsed) ∨
      ∃ failure failure', (program source).result = .error failure ∧
        (program source').result = .error failure' ∧ failure.Shifted a w b failure' := by
  rcases inAlphabet_or_isFirstFault source with hchars | ⟨error, hfault⟩
  swap
  · -- a foreign character stops both
    right
    rcases isFirstFault_shifted hblank hsource hsource' hfault with ⟨error', hfault', hshifted⟩
    refine ⟨_, _, ?_, ?_, hshifted⟩
    · rw [result_program, Token.tokenize_of_isFirstFault hfault]
    · rw [result_program, Token.tokenize_of_isFirstFault hfault']
  have hnarrow : ∀ c ∈ a ++ b, InAlphabet c := by
    rw [← hsource]
    exact hchars
  have hchars' : ∀ c ∈ source'.toList, InAlphabet c := by
    intro c hc
    rw [hsource'] at hc
    simp only [List.mem_append] at hc
    rcases hc with (hc | hc) | hc
    · exact hnarrow c (List.mem_append_left b hc)
    · exact .inr (.inl (hblank c hc))
    · exact hnarrow c (List.mem_append_right a hc)
  have htokens := Token.tokenize_of_inAlphabet hchars
  have htokens' := Token.tokenize_of_inAlphabet hchars'
  have hsame := Token.forall₂_shifted hblank hseparate hnarrow
  rw [← hsource, ← hsource'] at hsame
  cases hread : (Program.ofTokens (Token.ofSource source ++
      [.endOfFile (Position.start.after source.toList)])).result with
  | ok parsed =>
    -- the tokens have the same contents, so the grammar derives the same program
    left
    have hprogram := ofTokens_ofSource_iff.mp hread
    have hcontents := Token.contents_of_forall₂_concat (fun _ _ h => h.content) hsame
    exact ⟨parsed, program_eq_ok_iff.mpr ⟨hchars, hprogram⟩,
      program_eq_ok_iff.mpr ⟨hchars', hprogram.of_contents hcontents⟩⟩
  | error e =>
    -- both are refused at corresponding tokens
    right
    have hend : ∃ t ∈ Token.ofSource source ++
        [.endOfFile (Position.start.after source.toList)], t.isEnd = true :=
      ⟨.endOfFile _, List.mem_append_right _ (List.mem_singleton_self _), rfl⟩
    rcases Program.ofTokens_of_forall₂ (fun _ _ h => h.content) hsame hend hread with
      ⟨u, hu, hread'⟩
    refine ⟨.parse e, .parse (e.atToken u), program_eq_parse_iff.mpr ⟨_, htokens, hread⟩,
      program_eq_parse_iff.mpr ⟨_, htokens', hread'⟩, e.kind_atToken u,
      ParseError.message_atToken hu.content, ?_⟩
    intro _
    rcases hu.stands with ⟨k, hle, hstands, hpos, hle', hstands', hpos'⟩
    refine ⟨k, ⟨hle, hstands, congrArg some hpos⟩, ⟨hle', ?_, ?_⟩⟩
    · show (e.atToken u).token.StandsAt _ _
      rw [ParseError.token_atToken]
      exact hstands'
    · show some (e.atToken u).token.pos = _
      rw [ParseError.token_atToken, hpos']

/-- With blanks between two tokens a source comes to the same text, or it fails in the same way. -/
theorem text_of_blanks (hemit : emit = .value ∨ emit = .tree) (hblank : ∀ c ∈ w, IsBlank c)
    (hseparate : Token.Separate a b) (hsource : source.toList = a ++ b)
    (hsource' : source'.toList = a ++ w ++ b) :
    (∃ shown, (text emit source).result = .ok shown ∧ (text emit source').result = .ok shown) ∨
      ∃ failure failure', (text emit source).result = .error failure ∧
        (text emit source').result = .error failure' ∧ failure.Shifted a w b failure' := by
  rcases program_of_blanks hblank hseparate hsource hsource' with
    ⟨parsed, hparsed, hparsed'⟩ | ⟨failure, failure', hfails, hfails', hshifted⟩
  · rw [text_eq_of_program hemit hparsed hparsed']
    cases htext : (text emit source).result with
    | ok shown => exact .inl ⟨shown, rfl, rfl⟩
    | error failure =>
      refine .inr ⟨failure, failure, rfl, rfl, rfl, rfl, ?_⟩
      -- a program that was read fails in the last stage, which has no places
      intro hplaced
      have hprogram := program_eq_error_iff.mpr ⟨value_eq_error_of_text htext, hplaced⟩
      rw [hparsed] at hprogram
      exact absurd hprogram (by simp)
  · exact .inr ⟨failure, failure', text_of_program_error hemit hfails,
      text_of_program_error hemit hfails', hshifted⟩

/-- Spaces, tabs and newlines may be put between any two tokens of a source, before the first one
and behind the last one.  If nothing is torn apart by it, the source comes to the same text as
before, be it its value or its tree.  If it fails it fails in the same way: with a failure of the
same kind and the same message, about the same character or token of the text, whose offset has
moved with the text behind the blanks. -/
theorem text_of_inserted_blanks {a w b : String} (hemit : emit = .value ∨ emit = .tree)
    (hblank : ∀ c ∈ w.toList, IsBlank c)
    (hcut : ∀ x ∈ a.toList.getLast?, ∀ y ∈ b.toList.head?,
      ¬ (x.isDigit = true ∧ y.isDigit = true) ∧ ¬ (Text.isCased x = true ∧ Text.isCased y = true)) :
    (∀ shown, (text emit (a ++ w ++ b)).result = .ok shown ↔
      (text emit (a ++ b)).result = .ok shown) ∧
    ((∃ failure, (text emit (a ++ w ++ b)).result = .error failure) ↔
      ∃ failure, (text emit (a ++ b)).result = .error failure) ∧
    ∀ failure failure', (text emit (a ++ b)).result = .error failure →
      (text emit (a ++ w ++ b)).result = .error failure' →
      failure'.kind = failure.kind ∧ failure'.message = failure.message ∧
      (failure.IsPlaced → ∃ k, failure.PointsAt (a ++ b).toList k ∧
        failure'.PointsAt (a ++ w ++ b).toList
          (if k < a.length then k else k + w.length)) := by
  have hsource : (a ++ b).toList = a.toList ++ b.toList := String.toList_append
  have hsource' : (a ++ w ++ b).toList = a.toList ++ w.toList ++ b.toList := by
    simp [String.toList_append]
  rcases text_of_blanks hemit hblank (Token.separate_of_not_both hcut) hsource hsource' with
    ⟨shown, hshown, hshown'⟩ | ⟨failure, failure', hfails, hfails', hshifted⟩
  · rw [hshown, hshown']
    simp
  · rw [hfails, hfails']
    refine ⟨by simp, by simp, ?_⟩
    intro first second hfirst hsecond
    rcases Except.error.inj hfirst with rfl
    rcases Except.error.inj hsecond with rfl
    refine ⟨hshifted.kind, hshifted.message, ?_⟩
    intro hplaced
    rw [hsource, hsource', ← String.length_toList, ← String.length_toList]
    exact hshifted.points hplaced

/-- A newline and a tab behind the first operand of `(x + )`: the fault is still the parenthesis
that stands where an operand should, now on the second line. -/
theorem text_of_inserted_newline :
    (∀ c ∈ "\n\t".toList, IsBlank c) ∧
    ∃ failure failure', (text .value ("(x" ++ " + )")).result = .error failure ∧
      (text .value ("(x" ++ "\n\t" ++ " + )")).result = .error failure' ∧ failure.IsPlaced ∧
      failure'.kind = failure.kind ∧ failure'.message = failure.message ∧
      ∃ k, failure.PointsAt ("(x" ++ " + )").toList k ∧
        failure'.PointsAt ("(x" ++ "\n\t" ++ " + )").toList
          (if k < "(x".length then k else k + "\n\t".length) := by
  have hblank : ∀ c ∈ "\n\t".toList, IsBlank c := by simp [IsBlank]
  have hcut : ∀ x ∈ "(x".toList.getLast?, ∀ y ∈ " + )".toList.head?,
      ¬ (x.isDigit = true ∧ y.isDigit = true) ∧
        ¬ (Text.isCased x = true ∧ Text.isCased y = true) := by
    have hspace : ' '.isDigit = false ∧ Text.isCased ' ' = false := by decide +kernel
    simp [hspace]
  have hemit : Emit.value = .value ∨ Emit.value = .tree := .inl rfl
  rcases text_of_inserted_blanks hemit hblank hcut with ⟨_, hfails, hsame⟩
  have htokens : (Token.tokenize ("(x" ++ " + )")).result =
      .ok [⟨.openParen, "(", ⟨1, 1⟩⟩, ⟨.identifier, "x", ⟨1, 2⟩⟩, ⟨.operator, "+", ⟨1, 4⟩⟩,
        ⟨.closeParen, ")", ⟨1, 6⟩⟩, .endOfFile ⟨1, 7⟩] :=
    Token.tokenize_of_isRecognized (by decide +kernel)
  have hprogram : (program ("(x" ++ " + )")).result =
      .error (.parse (.unexpected ⟨.closeParen, ")", ⟨1, 6⟩⟩)) :=
    program_eq_parse_iff.mpr ⟨_, htokens, Program.ofTokens_eq_error_iff.mpr rfl⟩
  have htext : (text .value ("(x" ++ " + )")).result =
      .error (.parse (.unexpected ⟨.closeParen, ")", ⟨1, 6⟩⟩)) :=
    text_of_program_error (.inl rfl) hprogram
  have hplaced : Failure.IsPlaced (.parse (.unexpected ⟨.closeParen, ")", ⟨1, 6⟩⟩)) :=
    .inr ⟨_, rfl⟩
  rcases hfails.mpr ⟨_, htext⟩ with ⟨failure', htext'⟩
  rcases hsame _ failure' htext htext' with ⟨hkind, hmessage, hpoints⟩
  exact ⟨hblank, _, failure', htext, htext', hplaced, hkind, hmessage, hpoints hplaced⟩

end Run

end Abacus
