import Abacus.Proofs.Lexing
import Abacus.Proofs.Reading
import Abacus.Token.Layout

/-!
# Sources token by token

A source is a row of blanks and of tokens, and which row it is can be said without a word on runs:
`Lexed p text tokens` reads a text from its place `p` on, one blank or one token at a time.

1. All characters of a token play the part that its kind asks for (`Token.Fits.of?_eq_role`), so
   the text of a token is read as that token (`Token.Fits.ofText_lexeme`).
2. A text may be cut wherever its neighbours do not join (`Token.ofText_append`).
3. A text is lexed as the tokens in it and as nothing else (`Token.Lexed.tokens_eq`), and every text
   of the alphabet is lexed (`Token.exists_lexed`).
-/

namespace Abacus

/-! ## Roles of characters -/

/-- All cased letters stand behind the digits and the marks. -/
theorem Text.le_toNat_of_isCased {c : Char} (h : isCased c = true) : 65 ≤ c.toNat := by
  have hranges : ∀ range ∈ casedRanges, 65 ≤ range.1 := by decide +kernel
  obtain ⟨range, hmem, hrange⟩ := List.any_eq_true.mp h
  have hfirst := hranges range hmem
  simp only [Bool.and_eq_true, decide_eq_true_eq] at hrange
  omega

namespace Role

theorem of?_of_isDigit {c : Char} (h : c.isDigit = true) : of? c = some .digit := by
  unfold of?
  split
  case h_12 => rw [if_pos h]
  all_goals exact absurd h (by decide)

theorem of?_of_isCased {c : Char} (h : Text.isCased c = true) : of? c = some .letter := by
  have hle := Text.le_toNat_of_isCased h
  have hdigit : ¬ c.isDigit = true := by
    intro hd
    simp only [Char.isDigit, Bool.and_eq_true, decide_eq_true_eq] at hd
    have hlast : c.toNat ≤ 57 := hd.2
    omega
  unfold of?
  split
  case h_12 => rw [if_neg hdigit, if_pos h]
  all_goals exact absurd hle (by decide)

/-- What a character is that plays a part. -/
theorem of?_eq_some {c : Char} {role : Role} (h : of? c = some role) :
    (role = .blank ∧ IsBlank c) ∨ (role = .digit ∧ c.isDigit = true) ∨
      (role = .letter ∧ Text.isCased c = true) ∨
      ∃ kind, role = .mark kind ∧ ∀ p, Token.Fits ⟨kind, String.ofList [c], p⟩ := by
  by_cases hblank : IsBlank c
  · rw [of?_eq_blank_iff.mpr hblank] at h
    exact .inl ⟨(Option.some.inj h).symm, hblank⟩
  right
  by_cases hdigit : c.isDigit = true
  · rw [of?_of_isDigit hdigit] at h
    exact .inl ⟨(Option.some.inj h).symm, hdigit⟩
  right
  by_cases hcased : Text.isCased c = true
  · rw [of?_of_isCased hcased] at h
    exact .inl ⟨(Option.some.inj h).symm, hcased⟩
  right
  -- only the marks are left
  unfold of? at h
  split at h
  case h_12 =>
    rw [if_neg hdigit, if_neg hcased] at h
    exact absurd h (by simp)
  case h_1 => exact absurd (.inl rfl) hblank
  case h_2 => exact absurd (.inr (.inl rfl)) hblank
  case h_3 => exact absurd (.inr (.inr rfl)) hblank
  all_goals exact ⟨_, (Option.some.inj h).symm, fun _ => rfl⟩

theorem of?_eq_digit_iff {c : Char} : of? c = some .digit ↔ c.isDigit = true := by
  refine ⟨?_, of?_of_isDigit⟩
  intro h
  rcases of?_eq_some h with ⟨heq, _⟩ | ⟨_, hdigit⟩ | ⟨heq, _⟩ | ⟨kind, heq, _⟩
  · exact absurd heq (by simp)
  · exact hdigit
  · exact absurd heq (by simp)
  · exact absurd heq (by simp)

theorem of?_eq_letter_iff {c : Char} : of? c = some .letter ↔ Text.isCased c = true := by
  refine ⟨?_, of?_of_isCased⟩
  intro h
  rcases of?_eq_some h with ⟨heq, _⟩ | ⟨heq, _⟩ | ⟨_, hcased⟩ | ⟨kind, heq, _⟩
  · exact absurd heq (by simp)
  · exact absurd heq (by simp)
  · exact hcased
  · exact absurd heq (by simp)

/-- Only equals join. -/
theorem eq_of_joins {a b : Option Role} (h : joins a b = true) : a = b := by
  unfold joins at h
  split at h
  · rfl
  · rfl
  · exact absurd h (by simp)

end Role

/-! ## Places -/

namespace Position

@[simp] theorem after_nil (p : Position) : p.after [] = p := rfl

@[simp] theorem after_cons (p : Position) (c : Char) (text : List Char) :
    p.after (c :: text) = (p.next c).after text := rfl

theorem after_append (p : Position) (a b : List Char) : p.after (a ++ b) = (p.after a).after b :=
  List.foldl_append

/-- A text without newlines leads to the right. -/
theorem after_of_no_newline {text : List Char} (h : ∀ c ∈ text, c ≠ '\n') (p : Position) :
    p.after text = ⟨p.line, p.column + text.length⟩ := by
  induction text generalizing p with
  | nil => rfl
  | cons c text ih =>
    have hc : c ≠ '\n' := h c (by simp)
    have htext : ∀ c ∈ text, c ≠ '\n' := fun c hc => h c (List.mem_cons_of_mem _ hc)
    rw [after_cons, ih htext, next, if_neg hc, List.length_cons, Nat.add_assoc, Nat.add_comm 1]

end Position

namespace Token

/-! ## Tokens that fit -/

/-- The part that the characters of a token of this kind play. -/
def Kind.role : Kind → Role
  | .number => .digit
  | .identifier => .letter
  | .letKeyword => .letter
  | kind => .mark kind

theorem Kind.joins_role (a b : Kind) : Role.joins (some a.role) (some b.role) = a.merges b := by
  cases a <;> cases b <;> rfl

section Fits

variable {t : Token}

/-- What a token is that fits: digits, a word of letters, or a single mark. -/
theorem Fits.cases (h : t.Fits) (hend : t.isEnd = false) :
    (t.kind = .number ∧ t.lexeme.toList ≠ [] ∧ ∀ c ∈ t.lexeme.toList, c.isDigit = true) ∨
      (t.kind.role = .letter ∧ wordKind t.lexeme = t.kind ∧ t.lexeme.toList ≠ [] ∧
        ∀ c ∈ t.lexeme.toList, Text.isCased c = true) ∨
      ∃ c, t.kind.role = .mark t.kind ∧ t.lexeme.toList = [c] ∧
        Role.of? c = some (.mark t.kind) := by
  rcases t with ⟨kind, lexeme, pos⟩
  cases kind with
  | number =>
    obtain ⟨hne, hdigits⟩ : lexeme ≠ "" ∧ lexeme.toList.all Char.isDigit := h
    exact .inl ⟨rfl, by simpa using hne, List.all_eq_true.mp hdigits⟩
  | identifier =>
    obtain ⟨hne, hcased, hlet⟩ : lexeme ≠ "" ∧ lexeme.toList.all Text.isCased ∧ lexeme ≠ "let" := h
    exact .inr (.inl ⟨rfl, if_neg hlet, by simpa using hne, List.all_eq_true.mp hcased⟩)
  | letKeyword =>
    obtain rfl : lexeme = "let" := h
    have hcased : "let".toList.all Text.isCased = true := by decide +kernel
    exact .inr (.inl ⟨rfl, rfl, by simp, List.all_eq_true.mp hcased⟩)
  | equals =>
    obtain rfl : lexeme = "=" := h
    exact .inr (.inr ⟨'=', rfl, by simp, rfl⟩)
  | openParen =>
    obtain rfl : lexeme = "(" := h
    exact .inr (.inr ⟨'(', rfl, by simp, rfl⟩)
  | closeParen =>
    obtain rfl : lexeme = ")" := h
    exact .inr (.inr ⟨')', rfl, by simp, rfl⟩)
  | operator =>
    obtain ⟨op, hop⟩ := Option.isSome_iff_exists.mp h
    obtain rfl : lexeme = op.symbol := Op.ofSymbol?_eq_some_iff.mp hop
    right
    right
    cases op with
    | plus => exact ⟨'+', rfl, by simp [Op.symbol], rfl⟩
    | minus => exact ⟨'-', rfl, by simp [Op.symbol], rfl⟩
    | times => exact ⟨'*', rfl, by simp [Op.symbol], rfl⟩
    | divide => exact ⟨'/', rfl, by simp [Op.symbol], rfl⟩
    | modulo => exact ⟨'%', rfl, by simp [Op.symbol], rfl⟩
  | endOfFile => exact absurd hend (by simp [isEnd])

/-- Every character of a token plays the part that the kind of the token asks for. -/
theorem Fits.of?_eq_role (h : t.Fits) (hend : t.isEnd = false) {c : Char}
    (hc : c ∈ t.lexeme.toList) : Role.of? c = some t.kind.role := by
  rcases h.cases hend with
    ⟨hkind, _, hdigits⟩ | ⟨hrole, _, _, hcased⟩ | ⟨mark, hrole, hlexeme, hmark⟩
  · rw [hkind]
    exact Role.of?_of_isDigit (hdigits c hc)
  · rw [hrole]
    exact Role.of?_of_isCased (hcased c hc)
  · rw [hlexeme, List.mem_singleton] at hc
    rw [hc, hrole, hmark]

theorem Fits.toList_ne_nil (h : t.Fits) (hend : t.isEnd = false) : t.lexeme.toList ≠ [] := by
  rcases h.cases hend with ⟨_, hne, _⟩ | ⟨_, _, hne, _⟩ | ⟨mark, _, hlexeme, _⟩
  · exact hne
  · exact hne
  · rw [hlexeme]
    simp

/-- No part of a token is blank. -/
theorem Fits.not_isBlank (h : t.Fits) (hend : t.isEnd = false) {c : Char}
    (hc : c ∈ t.lexeme.toList) : ¬ IsBlank c := by
  intro hblank
  have hrole := h.of?_eq_role hend hc
  rw [Role.of?_eq_blank_iff.mpr hblank] at hrole
  rcases t with ⟨kind, lexeme, pos⟩
  cases kind <;> exact absurd hrole (by simp [Kind.role])

/-- The place behind the text of a token is where the token stops. -/
theorem Fits.after_lexeme (h : t.Fits) (hend : t.isEnd = false) :
    t.pos.after t.lexeme.toList = t.stop := by
  have hline : ∀ c ∈ t.lexeme.toList, c ≠ '\n' := by
    rintro c hc rfl
    exact h.not_isBlank hend hc (.inr (.inr rfl))
  rw [Position.after_of_no_newline hline, String.length_toList]
  rfl

end Fits

theorem fits_number {run : List Char} (hne : run ≠ []) (h : ∀ c ∈ run, c.isDigit = true)
    (p : Position) : Fits ⟨.number, String.ofList run, p⟩ := by
  constructor
  · simpa using hne
  · simpa using h

theorem wordKind_ne_endOfFile {word : String} : wordKind word ≠ .endOfFile := by
  unfold wordKind
  split <;> simp

theorem fits_word {run : List Char} (hne : run ≠ []) (h : ∀ c ∈ run, Text.isCased c = true)
    (p : Position) : Fits ⟨wordKind (String.ofList run), String.ofList run, p⟩ := by
  by_cases hlet : String.ofList run = "let"
  · rw [wordKind, if_pos hlet]
    exact hlet
  · rw [wordKind, if_neg hlet]
    exact ⟨by simpa using hne, by simpa using h, hlet⟩

/-! ## Texts and their tokens -/

/-- The tokens of a text that begins at `p`. -/
def ofText (p : Position) (text : List Char) : List Token := ofGlyphs (Glyph.place p text)

/-- The end of `a` does not join the beginning of `b`. -/
def Separate (a b : List Char) : Prop :=
  ∀ x ∈ a.getLast?, ∀ y ∈ b.head?, Role.joins (Role.of? x) (Role.of? y) = false

/-- Neighbours that are not both digits and not both letters do not join. -/
theorem separate_of_not_both {a b : List Char}
    (h : ∀ x ∈ a.getLast?, ∀ y ∈ b.head?, ¬ (x.isDigit = true ∧ y.isDigit = true) ∧
      ¬ (Text.isCased x = true ∧ Text.isCased y = true)) : Separate a b := by
  intro x hx y hy
  rcases h x hx y hy with ⟨hdigits, hletters⟩
  rw [Bool.eq_false_iff]
  intro hjoins
  unfold Role.joins at hjoins
  split at hjoins
  · next hx' hy' => exact hdigits ⟨Role.of?_eq_digit_iff.mp hx', Role.of?_eq_digit_iff.mp hy'⟩
  · next hx' hy' => exact hletters ⟨Role.of?_eq_letter_iff.mp hx', Role.of?_eq_letter_iff.mp hy'⟩
  · exact absurd hjoins (by simp)

theorem ofText_append {p : Position} {a b : List Char} (h : Separate a b) :
    ofText p (a ++ b) = ofText p a ++ ofText (p.after a) b := by
  have hsplit : runs (Glyph.place p a ++ Glyph.place (p.after a) b) =
      runs (Glyph.place p a) ++ runs (Glyph.place (p.after a) b) := by
    refine List.splitBy_append ?_
    intro x hx y hy
    refine h x.char ?_ y.char ?_
    · have hlast := Option.mem_map_of_mem Glyph.char hx
      rwa [← List.getLast?_map, Glyph.map_char_place] at hlast
    · have hhead := Option.mem_map_of_mem Glyph.char hy
      rwa [← List.head?_map, Glyph.map_char_place] at hhead
  unfold ofText ofGlyphs
  rw [Glyph.place_append, hsplit, List.filterMap_append]

theorem ofText_of_blank {p : Position} {text : List Char} (h : ∀ c ∈ text, IsBlank c) :
    ofText p text = [] := by
  have hrec : ∀ g ∈ Glyph.place p text, isRecognized g.char = true := by
    intro g hg
    exact isRecognized_iff.mpr (.inr (.inl (h g.char (Glyph.char_mem_of_mem_place hg))))
  refine (ofGlyphs_eq_nil_iff hrec).mpr ?_
  intro g hg
  exact h g.char (Glyph.char_mem_of_mem_place hg)

/-- The character joins neither the one before it nor the one after it. -/
def StandsAlone (c : Char) : Prop :=
  ∀ role, Role.joins (Role.of? c) role = false ∧ Role.joins role (Role.of? c) = false

theorem standsAlone_of_blank {c : Char} (h : IsBlank c) : StandsAlone c := by
  intro role
  rw [Role.of?_eq_blank_iff.mpr h]
  cases role with
  | none => exact ⟨rfl, rfl⟩
  | some role => cases role <;> exact ⟨rfl, rfl⟩

theorem standsAlone_of_mark {c : Char} {kind : Kind} (h : Role.of? c = some (.mark kind)) :
    StandsAlone c := by
  intro role
  rw [h]
  cases role with
  | none => exact ⟨rfl, rfl⟩
  | some role => cases role <;> exact ⟨rfl, rfl⟩

theorem StandsAlone.separate_left {c : Char} (h : StandsAlone c) (text : List Char) :
    Separate [c] text := by
  intro x hx y _
  obtain rfl : c = x := by simpa using hx
  exact (h _).1

theorem StandsAlone.separate_right {c : Char} (h : StandsAlone c) (text rest : List Char) :
    Separate text (c :: rest) := by
  intro x _ y hy
  obtain rfl : c = y := by simpa using hy
  exact (h _).2

theorem ofText_cons_of_blank {c : Char} (h : IsBlank c) (p : Position) (text : List Char) :
    ofText p (c :: text) = ofText (p.next c) text := by
  have hnone : ofText p [c] = [] := ofText_of_blank (by simpa using h)
  have hcut : ofText p ([c] ++ text) = ofText p [c] ++ ofText (p.after [c]) text :=
    ofText_append ((standsAlone_of_blank h).separate_left text)
  rw [hnone] at hcut
  exact hcut

/-- The characters of a token are a single run. -/
theorem Fits.runs_place {t : Token} (h : t.Fits) (hend : t.isEnd = false) (p : Position) :
    runs (Glyph.place p t.lexeme.toList) = [Glyph.place p t.lexeme.toList] := by
  have hrole : ∀ g ∈ Glyph.place p t.lexeme.toList, Role.of? g.char = some t.kind.role := by
    intro g hg
    exact h.of?_eq_role hend (Glyph.char_mem_of_mem_place hg)
  refine List.splitBy_of_isChain ?_ ?_
  · intro hnil
    have hchars := Glyph.map_char_place p t.lexeme.toList
    rw [hnil] at hchars
    exact h.toList_ne_nil hend hchars.symm
  rcases h.cases hend with ⟨hkind, _, _⟩ | ⟨hletter, _, _, _⟩ | ⟨mark, _, hlexeme, _⟩
  · refine (List.pairwise_of_forall_mem_list ?_).isChain
    intro a ha b hb
    rw [hrole a ha, hrole b hb, hkind]
    rfl
  · refine (List.pairwise_of_forall_mem_list ?_).isChain
    intro a ha b hb
    rw [hrole a ha, hrole b hb, hletter]
    rfl
  · rw [hlexeme]
    simp

/-- The run of a token is that token. -/
theorem Fits.ofRun?_place {t : Token} (h : t.Fits) (hend : t.isEnd = false) :
    ofRun? (Glyph.place t.pos t.lexeme.toList) = some t := by
  cases hlexeme : t.lexeme.toList with
  | nil => exact absurd hlexeme (h.toList_ne_nil hend)
  | cons c rest =>
    have hrole : Role.of? c = some t.kind.role := h.of?_eq_role hend (by simp [hlexeme])
    have htext : String.ofList (c :: rest) = t.lexeme := by rw [← hlexeme, String.ofList_toList]
    rw [Glyph.place_cons, ofRun?]
    simp only [List.map_cons, Glyph.map_char_place, htext, hrole]
    rcases h.cases hend with ⟨hkind, _, _⟩ | ⟨hletter, hword, _, _⟩ | ⟨mark, hmark, _, _⟩
    · simp only [hkind, Kind.role]
      rw [← hkind]
    · simp only [hletter, hword]
    · simp only [hmark]

/-- The text of a token is read as that token. -/
theorem Fits.ofText_lexeme {t : Token} (h : t.Fits) (hend : t.isEnd = false) :
    ofText t.pos t.lexeme.toList = [t] := by
  unfold ofText ofGlyphs
  rw [h.runs_place hend, List.filterMap_cons_some (h.ofRun?_place hend), List.filterMap_nil]

/-! ## Token by token -/

/-- The text is a row of blanks and tokens, of which the first begins at the place. -/
inductive Lexed : Position → List Char → List Token → Prop
  | nil {p : Position} : Lexed p [] [endOfFile p]
  | blank {p : Position} {c : Char} {rest : List Char} {tokens : List Token} (isBlank : IsBlank c)
    (others : Lexed (p.next c) rest tokens) : Lexed p (c :: rest) tokens
  | token {t : Token} {rest : List Char} {tokens : List Token} (fits : t.Fits)
    (inside : t.isEnd = false) (separate : Separate t.lexeme.toList rest)
    (others : Lexed t.stop rest tokens) : Lexed t.pos (t.lexeme.toList ++ rest) (t :: tokens)

section Lexed

variable {p : Position} {text : List Char} {tokens : List Token}

theorem Lexed.inAlphabet (h : Lexed p text tokens) : ∀ c ∈ text, InAlphabet c := by
  induction h with
  | nil => simp
  | blank isBlank _ ih =>
    intro c hc
    rcases List.mem_cons.mp hc with rfl | hrest
    · exact .inr (.inl isBlank)
    · exact ih c hrest
  | @token t rest tokens fits inside _ _ ih =>
    intro c hc
    rcases List.mem_append.mp hc with hlexeme | hrest
    · refine isRecognized_iff.mp ?_
      unfold isRecognized
      rw [fits.of?_eq_role inside hlexeme]
      rfl
    · exact ih c hrest

/-- By induction on the row: a blank adds no token, and the text of a token adds that token. -/
theorem Lexed.tokens_eq (h : Lexed p text tokens) :
    tokens = ofText p text ++ [endOfFile (p.after text)] := by
  induction h with
  | nil => rfl
  | blank isBlank _ ih =>
    rw [ih, ofText_cons_of_blank isBlank, Position.after_cons]
  | @token t rest tokens fits inside separate _ ih =>
    rw [ofText_append separate, fits.ofText_lexeme inside, Position.after_append,
      fits.after_lexeme inside, ih]
    rfl

/-! ## Every text of the alphabet is lexed -/

/-- A longest run of characters that play one part is separate from what follows. -/
theorem separate_takeWhile {q : Char → Bool} {role : Role}
    (hq : ∀ {c}, Role.of? c = some role ↔ q c = true) (text : List Char) :
    Separate (text.takeWhile q) (text.dropWhile q) := by
  intro x hx y hy
  have hx' : Role.of? x = some role := hq.mpr (List.mem_takeWhile_imp (List.mem_of_getLast? hx))
  have hy' : q y = false := by
    have hnot := List.head?_dropWhile_not q text
    rw [Option.mem_def.mp hy] at hnot
    exact hnot
  rw [Bool.eq_false_iff]
  intro hjoins
  have hsame : Role.of? y = some role := (Role.eq_of_joins hjoins).symm.trans hx'
  rw [hq.mp hsame] at hy'
  exact absurd hy' (by simp)

/-- A text that begins with the run of a token is lexed if what follows that run is. -/
theorem exists_lexed_of_run {run rest : List Char} {kind : Kind}
    (hfits : Fits ⟨kind, String.ofList run, p⟩) (hkind : kind ≠ .endOfFile)
    (hseparate : Separate run rest) (hrest : ∀ p, ∃ tokens, Lexed p rest tokens) :
    ∃ tokens, Lexed p (run ++ rest) tokens := by
  obtain ⟨tokens, htokens⟩ := hrest (stop ⟨kind, String.ofList run, p⟩)
  have hlexed := Lexed.token hfits (by simpa [isEnd] using hkind)
    (by rwa [String.toList_ofList]) htokens
  rw [String.toList_ofList] at hlexed
  exact ⟨_, hlexed⟩

/-- By induction on the length of the text: its first character is a blank or a mark, or it begins a
run of digits or of letters. -/
theorem exists_lexed (h : ∀ c ∈ text, InAlphabet c) (p : Position) :
    ∃ tokens, Lexed p text tokens := by
  induction hlength : text.length using Nat.strongRecOn generalizing text p with
  | ind n ih =>
    subst hlength
    rcases text with _ | ⟨c, rest⟩
    · exact ⟨_, .nil⟩
    have htail : ∀ p, ∃ tokens, Lexed p rest tokens := by
      intro p
      exact ih rest.length (by simp) (fun x hx => h x (List.mem_cons_of_mem c hx)) p rfl
    have hshorter : ∀ q : Char → Bool, q c = true → ∀ p,
        ∃ tokens, Lexed p ((c :: rest).dropWhile q) tokens := by
      intro q hc p
      rw [List.dropWhile_cons_of_pos hc]
      refine ih _ ?_ ?_ p rfl
      · have hle := List.length_dropWhile_le q rest
        rw [List.length_cons]
        omega
      · intro x hx
        exact h x (List.mem_cons_of_mem c (List.dropWhile_subset q hx))
    have hfirst : ∀ q : Char → Bool, q c = true → (c :: rest).takeWhile q ≠ [] := by
      intro q hc
      rw [List.takeWhile_cons_of_pos hc]
      simp
    have hrec := isRecognized_iff.mpr (h c (by simp))
    obtain ⟨role, hrole⟩ := Option.isSome_iff_exists.mp hrec
    rcases Role.of?_eq_some hrole with ⟨_, hblank⟩ | ⟨_, hdigit⟩ | ⟨_, hcased⟩ |
      ⟨kind, rfl, hfits⟩
    · obtain ⟨tokens, htokens⟩ := htail (p.next c)
      exact ⟨tokens, .blank hblank htokens⟩
    · rw [← List.takeWhile_append_dropWhile (p := Char.isDigit) (l := c :: rest)]
      have hfits := fits_number (hfirst _ hdigit) (fun x hx => List.mem_takeWhile_imp hx) p
      exact exists_lexed_of_run hfits (by simp) (separate_takeWhile Role.of?_eq_digit_iff _)
        (hshorter _ hdigit)
    · rw [← List.takeWhile_append_dropWhile (p := Text.isCased) (l := c :: rest)]
      have hfits := fits_word (hfirst _ hcased) (fun x hx => List.mem_takeWhile_imp hx) p
      exact exists_lexed_of_run hfits wordKind_ne_endOfFile
        (separate_takeWhile Role.of?_eq_letter_iff _) (hshorter _ hcased)
    · have hkind : kind ≠ .endOfFile := by
        rintro rfl
        exact Role.mark_ne_endOfFile hrole
      have hseparate := (standsAlone_of_mark hrole).separate_left rest
      exact exists_lexed_of_run (hfits p) hkind hseparate htail

end Lexed

end Token

end Abacus
