import Abacus.Proofs.Lexemes
import Mathlib.Data.List.TakeWhile

/-!
# Scanning sources

A scan goes over a source as `Token.Lexed` reads it, one blank or one token at a time.

1. One step goes over a blank or over a token, which it adds and records, or it fails at a character
   outside the alphabet (`Lexer.scan_of_isBlank`, `Lexer.scan_of_fits`,
   `Lexer.scan_of_not_inAlphabet`).
2. So over a text that is lexed the steps add and record the tokens of that text, whatever stands
   behind it, and then they come to what stands there (`Lexer.run_of_lexed`).
3. A source whose characters are all recognized has tokens, with an end of file behind them; any
   other source fails at the first character that is not, after it has recorded the tokens before
   it (`Token.tokenize_eq_of_inAlphabet`, `Token.tokenize_eq_of_fault`).
-/

namespace Abacus

namespace Token

/-! ## Neighbours -/

section Separate

variable {a b c : List Char}

/-- What the whole of a text does not join, its end does not join. -/
theorem Separate.of_append (h : Separate (a ++ b) c) : Separate b c := by
  intro x hx y hy
  refine h x ?_ y hy
  rw [List.getLast?_append, Option.mem_def.mp hx]
  rfl

/-- What stands further behind a text only matters if nothing stands between. -/
theorem Separate.append (h : Separate a b) (hwhole : Separate (a ++ b) c) :
    Separate a (b ++ c) := by
  cases b with
  | nil =>
    rw [List.append_nil] at hwhole
    exact hwhole
  | cons y b => exact h

/-- A character outside the alphabet joins nothing. -/
theorem separate_of_not_inAlphabet {y : Char} (hy : ¬ InAlphabet y) (text rest : List Char) :
    Separate text (y :: rest) := by
  intro x _ z hz
  obtain rfl : y = z := by simpa using hz
  rw [Role.of?_eq_none_iff.mpr hy]
  cases Role.of? x with
  | none => rfl
  | some role => cases role <;> rfl

/-- Behind digits or letters that do not join the rest comes no further one of them. -/
theorem Separate.head_eq_false {like : Char → Bool} {role : Role} (h : Separate a b)
    (hne : a ≠ []) (hrole : ∀ {x}, Role.of? x = some role ↔ like x = true)
    (hjoins : Role.joins (some role) (some role) = true) (ha : ∀ x ∈ a, like x = true) :
    ∀ y ∈ b.head?, like y = false := by
  intro y hy
  rw [Bool.eq_false_iff]
  intro hlike
  have hlast := h (a.getLast hne) (List.getLast?_eq_some_getLast hne) y hy
  rw [hrole.mpr hlike, hrole.mpr (ha _ (List.getLast_mem hne)), hjoins] at hlast
  exact absurd hlast (by simp)

end Separate

end Token

namespace Lexer

/-! ## Steps -/

section Scan

variable {s : Lexer} {c : Char} {after more rest : List Char}

theorem scan_of_isBlank (h : IsBlank c) : s.scan c after = .ok (s.skip c after) := by
  rw [scan, Role.of?_eq_blank_iff.mpr h]

theorem scan_of_not_inAlphabet (h : ¬ InAlphabet c) : s.scan c after = .error ⟨c, s.pos⟩ := by
  rw [scan, Role.of?_eq_none_iff.mpr h]

/-- A run ends where the characters that are like its first one end. -/
theorem addRun_append {kind : String → Token.Kind} {like : Char → Bool}
    (hmore : ∀ x ∈ more, like x = true) (hrest : ∀ x ∈ rest.head?, like x = false) :
    s.addRun kind like c (more ++ rest) =
      s.add (kind (String.ofList (c :: more))) (c :: more) rest := by
  have hstop : rest.takeWhile like = [] ∧ rest.dropWhile like = rest := by
    cases rest with
    | nil => exact ⟨rfl, rfl⟩
    | cons x rest =>
      have hx : ¬ like x = true := by simp [hrest x rfl]
      exact ⟨List.takeWhile_cons_of_neg hx, List.dropWhile_cons_of_neg hx⟩
  unfold addRun
  rw [List.takeWhile_append_of_pos hmore, List.dropWhile_append_of_pos hmore, hstop.1, hstop.2,
    List.append_nil]

/-- The text of a token is gone over in one step, if it does not join what stands behind it. -/
theorem scan_of_fits {t : Token} (hfits : t.Fits) (hinside : t.isEnd = false) (hpos : s.pos = t.pos)
    (hlexeme : t.lexeme.toList = c :: more) (hseparate : Token.Separate (c :: more) rest) :
    s.scan c (more ++ rest) = .ok ⟨rest, t.stop, t :: s.tokens, .lexed t :: s.records⟩ := by
  have hrole : Role.of? c = some t.kind.role := hfits.of?_eq_role hinside (by simp [hlexeme])
  have htext : String.ofList (c :: more) = t.lexeme := by rw [← hlexeme, String.ofList_toList]
  have hadd : s.add t.kind (c :: more) rest =
      ⟨rest, t.stop, t :: s.tokens, .lexed t :: s.records⟩ := by
    unfold add
    rw [htext, hpos, ← hlexeme, hfits.after_lexeme hinside]
  unfold scan
  rw [hrole, ← hadd]
  rcases hfits.cases hinside with
    ⟨hkind, _, hdigits⟩ | ⟨hletter, hword, _, hcased⟩ | ⟨mark, hmark, hsingle, _⟩
  · -- the digits go on as far as the text of the token
    rw [hlexeme] at hdigits
    have hstop := hseparate.head_eq_false (by simp) Role.of?_eq_digit_iff rfl hdigits
    simp only [hkind, Token.Kind.role]
    rw [addRun_append (fun x hx => hdigits x (List.mem_cons_of_mem c hx)) hstop]
  · -- so do the letters, and the kind comes from the whole word
    rw [hlexeme] at hcased
    have hstop := hseparate.head_eq_false (by simp) Role.of?_eq_letter_iff rfl hcased
    simp only [hletter]
    rw [addRun_append (fun x hx => hcased x (List.mem_cons_of_mem c hx)) hstop, htext, hword]
  · obtain ⟨rfl, rfl⟩ : c = mark ∧ more = [] := by simpa [hlexeme] using hsingle
    simp only [hmark, List.nil_append]

end Scan

/-! ## Runs -/

section Run

variable {s s' : Lexer} {c : Char} {after : List Char} {fault : LexError}

theorem run_of_end (h : s.rest = []) :
    s.run = ⟨s.records.reverse, .ok (Token.endOfFile s.pos :: s.tokens).reverse⟩ := by
  rw [run]
  split
  · rfl
  · next hrest =>
    rw [h] at hrest
    exact absurd hrest (by simp)

/-- While a character is left, the run goes on with one scan. -/
theorem run_of_cons (h : s.rest = c :: after) :
    s.run =
      match s.scan c after with
      | .error fault => ⟨s.records.reverse, .error fault⟩
      | .ok s' => s'.run := by
  rw [run]
  split
  · next hnil =>
    rw [h] at hnil
    exact absurd hnil (by simp)
  · next hcons =>
    obtain ⟨rfl, rfl⟩ := List.cons.inj (h.symm.trans hcons)
    split
    · next hfault => rw [hfault]
    · next hok => rw [hok]

theorem run_of_scan (hrest : s.rest = c :: after) (h : s.scan c after = .ok s') :
    s.run = s'.run := by
  rw [run_of_cons hrest, h]

theorem run_of_fault (hrest : s.rest = c :: after) (h : s.scan c after = .error fault) :
    s.run = ⟨s.records.reverse, .error fault⟩ := by
  rw [run_of_cons hrest, h]

/-- By induction on the row of blanks and tokens: each of them is one step. -/
theorem run_of_lexed {p : Position} {text rest : List Char} {tokens : List Token}
    (h : Token.Lexed p text tokens) (hseparate : Token.Separate text rest) (found : List Token)
    (records : List LexRecord) :
    run ⟨text ++ rest, p, found, records⟩ =
      run ⟨rest, p.after text, (Token.ofText p text).reverse ++ found,
        ((Token.ofText p text).map .lexed).reverse ++ records⟩ := by
  induction h generalizing found records with
  | nil => rfl
  | @blank p c text tokens isBlank _ ih =>
    have hothers : Token.Separate text rest :=
      Token.Separate.of_append (a := [c]) hseparate
    rw [run_of_scan rfl (scan_of_isBlank isBlank), Token.ofText_cons_of_blank isBlank]
    exact ih hothers found records
  | @token t text tokens fits inside separate _ ih =>
    obtain ⟨c, more, hlexeme⟩ := List.exists_cons_of_ne_nil (fits.toList_ne_nil inside)
    -- nothing joins the token, be it in the text or behind it
    have halone : Token.Separate (c :: more) (text ++ rest) := by
      rw [← hlexeme]
      exact separate.append hseparate
    have hstep : scan ⟨t.lexeme.toList ++ text ++ rest, t.pos, found, records⟩ c
        (more ++ (text ++ rest)) = .ok ⟨text ++ rest, t.stop, t :: found, .lexed t :: records⟩ :=
      scan_of_fits fits inside rfl hlexeme halone
    rw [run_of_scan (by rw [hlexeme, List.append_assoc, List.cons_append]) hstep,
      ih hseparate.of_append, Token.ofText_append separate, fits.ofText_lexeme inside,
      Position.after_append, fits.after_lexeme inside]
    simp only [List.singleton_append, List.map_cons, List.reverse_cons, List.append_assoc]

end Run

end Lexer

namespace Token

/-! ## Sources -/

section Sources

variable {source : String} {tokens : List Token} {records : List LexRecord} {error : LexError}

theorem tokenize_of_run_ok (h : (Lexer.ofSource source).run = ⟨records, .ok tokens⟩) :
    tokenize source = ⟨records ++ [.tokenized tokens.length], .ok tokens⟩ := by
  unfold tokenize
  rw [Traced.bind_of_ok (congrArg Traced.result h), h]
  rfl

theorem tokenize_of_run_error (h : (Lexer.ofSource source).run = ⟨records, .error error⟩) :
    tokenize source = ⟨records, .error error⟩ := by
  unfold tokenize
  rw [Traced.bind_of_error (congrArg Traced.result h), h]

/-- A source without foreign characters: every token is recorded, and then how many there are. -/
theorem tokenize_eq_of_inAlphabet (h : ∀ c ∈ source.toList, InAlphabet c) :
    tokenize source =
      ⟨(ofSource source).map .lexed ++ [.tokenized ((ofSource source).length + 1)],
        .ok (ofSource source ++ [endOfFile (Position.start.after source.toList)])⟩ := by
  obtain ⟨tokens, hlexed⟩ := exists_lexed h .start
  have hseparate : Separate source.toList [] := by simp [Separate]
  have hrun := Lexer.run_of_lexed hlexed hseparate [] []
  rw [List.append_nil, Lexer.run_of_end (s := ⟨[], _, _, _⟩) rfl] at hrun
  rw [tokenize_of_run_ok hrun]
  simp [ofSource, ofText]

theorem tokenize_of_inAlphabet (h : ∀ c ∈ source.toList, InAlphabet c) :
    (tokenize source).result =
      .ok (ofSource source ++ [endOfFile (Position.start.after source.toList)]) := by
  rw [tokenize_eq_of_inAlphabet h]

/-- The same for a source whose characters have been looked through. -/
theorem tokenize_of_isRecognized (h : source.toList.all isRecognized = true) :
    (tokenize source).result =
      .ok (ofSource source ++ [endOfFile (Position.start.after source.toList)]) := by
  refine tokenize_of_inAlphabet ?_
  intro c hc
  exact isRecognized_iff.mp (List.all_eq_true.mp h c hc)

/-- A source with a foreign character: the tokens before the first one are recorded. -/
theorem tokenize_eq_of_fault {before after : List Char} {c : Char}
    (hsource : source.toList = before ++ c :: after) (hbefore : ∀ x ∈ before, InAlphabet x)
    (hc : ¬ InAlphabet c) :
    tokenize source =
      ⟨(ofSource (String.ofList before)).map .lexed, .error ⟨c, Position.start.after before⟩⟩ := by
  obtain ⟨tokens, hlexed⟩ := exists_lexed hbefore .start
  have hrun := Lexer.run_of_lexed hlexed (separate_of_not_inAlphabet hc before after) [] []
  rw [← hsource, Lexer.run_of_fault (s := ⟨c :: after, _, _, _⟩) rfl
    (Lexer.scan_of_not_inAlphabet hc)] at hrun
  rw [tokenize_of_run_error hrun]
  simp [ofSource, ofText]

theorem tokenize_of_isFirstFault (h : IsFirstFault source error) :
    (tokenize source).result = .error error := by
  rcases h with ⟨before, c, after, hsource, hbefore, hc, rfl⟩
  rw [tokenize_eq_of_fault hsource hbefore hc]

/-- A source fails exactly at the first character outside the alphabet. -/
theorem tokenize_eq_error_iff :
    (tokenize source).result = .error error ↔ IsFirstFault source error := by
  constructor
  · intro h
    rcases inAlphabet_or_isFirstFault source with hall | ⟨error', hfault⟩
    · rw [tokenize_of_inAlphabet hall] at h
      exact absurd h (by simp)
    · rw [tokenize_of_isFirstFault hfault] at h
      rw [← Except.error.inj h]
      exact hfault
  · intro h
    exact tokenize_of_isFirstFault h

/-- A source has exactly the tokens that it is lexed as. -/
theorem tokenize_eq_ok_iff :
    (tokenize source).result = .ok tokens ↔ Lexed .start source.toList tokens := by
  constructor
  · intro h
    rcases inAlphabet_or_isFirstFault source with hall | ⟨error, hfault⟩
    · obtain ⟨tokens', hlexed⟩ := exists_lexed hall .start
      rw [tokenize_of_inAlphabet hall] at h
      obtain rfl : tokens' = tokens := hlexed.tokens_eq.trans (Except.ok.inj h)
      exact hlexed
    · rw [tokenize_of_isFirstFault hfault] at h
      exact absurd h (by simp)
  · intro h
    rw [tokenize_of_inAlphabet h.inAlphabet, h.tokens_eq]
    rfl

end Sources

end Token

end Abacus
