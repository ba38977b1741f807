import Abacus.Proofs.Scanning
import Mathlib.Data.List.DropRight

/-!
# Tokens in their places

The text that has every token of a source in its place is that source, up to blanks that cannot be
seen, and it is read as the same tokens.

1. Every blank of a source widens the gap before the next token, unless a newline comes between
   (`Lexed.writeFrom_eq`).
2. Every token has the place of its first character: its line counts the newlines before, its
   column the characters behind the last of them (`Lexed.exists_front`, `Position.start_after`).
3. Tokens with texts and places that a source could give them are lexed from the text that has them
   in their places (`lexed_writeFrom`), and the tokens of a source are such tokens
   (`Lexed.wellPlaced`).
-/

namespace Abacus

/-! ## The order of places -/

namespace Position

/-- One place is another one or stands before it. -/
instance : LE Position :=
  ⟨fun p q => p.line < q.line ∨ p.line = q.line ∧ p.column ≤ q.column⟩

variable {p q r : Position}

theorem le_iff : p ≤ q ↔ p.line < q.line ∨ p.line = q.line ∧ p.column ≤ q.column := Iff.rfl

theorem eq_of_line_column (hline : p.line = q.line) (hcolumn : p.column = q.column) : p = q := by
  rcases p with ⟨line, column⟩
  rcases q with ⟨line', column'⟩
  exact congr (congrArg mk hline) hcolumn

theorem le_refl (p : Position) : p ≤ p := .inr ⟨rfl, Nat.le_refl _⟩

theorem le_trans (hpq : p ≤ q) (hqr : q ≤ r) : p ≤ r := by
  rw [le_iff] at *
  omega

theorem le_next (p : Position) (c : Char) : p ≤ p.next c := by
  by_cases hc : c = '\n'
  · simp [le_iff, next, hc]
  · simp [le_iff, next, hc]

/-- Every character leads to a later place. -/
theorem not_next_le (p : Position) (c : Char) : ¬ p.next c ≤ p := by
  by_cases hc : c = '\n'
  · simp [le_iff, next, hc]
  · simp [le_iff, next, hc]

/-- The place behind a text: newlines before it give the line, characters behind the last newline
give the column. -/
theorem start_after (text : List Char) :
    start.after text =
      ⟨1 + text.count '\n', 1 + (text.rtakeWhile fun c => c ≠ '\n').length⟩ := by
  induction text using List.reverseRecOn with
  | nil => rfl
  | append_singleton text c ih =>
    rw [after_append, ih, after_cons, after_nil, next, List.rtakeWhile_concat]
    by_cases hc : c = '\n'
    · simp [hc, Nat.add_assoc]
    · simp [hc, Nat.add_assoc]

end Position

namespace Layout

/-! ## Gaps -/

section Gap

variable {p q : Position}

@[simp] theorem gap_self (p : Position) : gap p p = [] := by
  simp [gap]

/-- A space or tab leads one to the right, and a newline behind it makes up for that. -/
theorem gap_of_next_space {c : Char} (hc : c = ' ' ∨ c = '\t') (h : p.next c ≤ q) :
    gap p q = if p.line = q.line then ' ' :: gap (p.next c) q else gap (p.next c) q := by
  have hnext : p.next c = ⟨p.line, p.column + 1⟩ := by
    rcases hc with rfl | rfl
    · rfl
    · rfl
  rw [hnext] at h ⊢
  rw [Position.le_iff] at h
  unfold gap
  simp only at h ⊢
  by_cases hline : p.line = q.line
  · have hcolumn : q.column - p.column = q.column - (p.column + 1) + 1 := by omega
    rw [if_pos hline, if_pos hline, if_pos hline, hcolumn, List.replicate_succ]
  · rw [if_neg hline, if_neg hline, if_neg hline]

/-- A newline leads to the beginning of the next line. -/
theorem gap_of_next_newline (h : p.next '\n' ≤ q) : gap p q = '\n' :: gap (p.next '\n') q := by
  have hnext : p.next '\n' = ⟨p.line + 1, 1⟩ := rfl
  rw [hnext] at h ⊢
  rw [Position.le_iff] at h
  unfold gap
  simp only at h ⊢
  have hline : ¬ p.line = q.line := by omega
  have hlines : q.line - p.line = q.line - (p.line + 1) + 1 := by omega
  rw [if_neg hline, hlines, List.replicate_succ]
  by_cases hnextline : p.line + 1 = q.line
  · simp [hnextline]
  · rw [if_neg hnextline, List.cons_append]

/-- The way to a later line begins with a newline. -/
theorem head?_gap_append (h : p ≤ q) (hline : p.line ≠ q.line) (rest : List Char) :
    (gap p q ++ rest).head? = some '\n' := by
  rw [Position.le_iff] at h
  obtain ⟨n, hn⟩ : ∃ n, q.line - p.line = n + 1 := ⟨q.line - p.line - 1, by omega⟩
  rw [gap, if_neg hline, hn, List.replicate_succ]
  rfl

theorem isBlank_of_mem_gap {c : Char} (h : c ∈ gap p q) : IsBlank c := by
  unfold gap at h
  split at h
  · exact .inl (List.eq_of_mem_replicate h)
  · rcases List.mem_append.mp h with hline | hcolumn
    · exact .inr (.inr (List.eq_of_mem_replicate hline))
    · exact .inl (List.eq_of_mem_replicate hcolumn)

theorem after_newlines (p : Position) (n : Nat) :
    p.after (List.replicate (n + 1) '\n') = ⟨p.line + (n + 1), 1⟩ := by
  induction n generalizing p with
  | zero => rfl
  | succ n ih =>
    rw [List.replicate_succ, Position.after_cons, ih]
    simp [Position.next]
    omega

/-- A gap leads from one place to the other. -/
theorem after_gap (h : p ≤ q) (hq : 1 ≤ q.column) : p.after (gap p q) = q := by
  have hspaces : ∀ n, ∀ c ∈ List.replicate n ' ', c ≠ '\n' := by
    intro n c hc
    rw [List.eq_of_mem_replicate hc]
    decide
  rw [Position.le_iff] at h
  unfold gap
  by_cases hline : p.line = q.line
  · rw [if_pos hline, Position.after_of_no_newline (hspaces _), List.length_replicate]
    have hcolumn : p.column + (q.column - p.column) = q.column := by omega
    rw [hline, hcolumn]
  · obtain ⟨n, hn⟩ : ∃ n, q.line - p.line = n + 1 := ⟨q.line - p.line - 1, by omega⟩
    rw [if_neg hline, Position.after_append, hn, after_newlines,
      Position.after_of_no_newline (hspaces _), List.length_replicate]
    have hlines : p.line + (n + 1) = q.line := by omega
    have hcolumn : 1 + (q.column - 1) = q.column := by omega
    simp only
    rw [hlines, hcolumn]

/-- Only between different places is there anything to write. -/
theorem eq_of_gap_eq_nil (h : p ≤ q) (hq : 1 ≤ q.column) (hgap : gap p q = []) : p = q := by
  have hafter := after_gap h hq
  rwa [hgap] at hafter

end Gap

/-! ## Normal texts -/

/-- Characters other than spaces and tabs stay. -/
theorem normalize_append {a : List Char} (h : ∀ c ∈ a, ¬ (c = ' ' ∨ c = '\t')) (b : List Char) :
    normalize (a ++ b) = a ++ normalize b := by
  induction a with
  | nil => rfl
  | cons c a ih =>
    have hc : ¬ (c = ' ' ∨ c = '\t') := h c (by simp)
    have hrest : ∀ x ∈ a, ¬ (x = ' ' ∨ x = '\t') := fun x hx => h x (List.mem_cons_of_mem c hx)
    rw [List.cons_append, normalize, if_neg hc, ih hrest, List.cons_append]

theorem normalize_newline (rest : List Char) : normalize ('\n' :: rest) = '\n' :: normalize rest :=
  normalize_append (a := ['\n']) (by simp) rest

/-- A space or tab stays as a space, unless a newline follows. -/
theorem normalize_space {c : Char} (hc : c = ' ' ∨ c = '\t') (rest : List Char) :
    normalize (c :: rest) =
      if (normalize rest).head? = some '\n' then normalize rest else ' ' :: normalize rest := by
  rw [normalize, if_pos hc]
  split
  · next rest' h =>
    rw [h]
    rfl
  · next h =>
    rw [if_neg]
    intro hhead
    rcases List.head?_eq_some_iff.mp hhead with ⟨rest', hrest'⟩
    exact h rest' hrest'

end Layout

namespace Token

/-! ## The text of the tokens of a source -/

theorem Fits.not_space {t : Token} (h : t.Fits) (hend : t.isEnd = false) {c : Char}
    (hc : c ∈ t.lexeme.toList) : ¬ (c = ' ' ∨ c = '\t') := by
  rintro (rfl | rfl)
  · exact h.not_isBlank hend hc (.inl rfl)
  · exact h.not_isBlank hend hc (.inr (.inl rfl))

section Lexed

variable {p : Position} {text : List Char} {tokens : List Token}

/-- There is a first token, which is not before the place where the text begins. -/
theorem Lexed.head_le (h : Lexed p text tokens) :
    ∃ first others, tokens = first :: others ∧ p ≤ first.pos := by
  induction h with
  | nil => exact ⟨_, _, rfl, Position.le_refl _⟩
  | @blank p c rest tokens _ _ ih =>
    rcases ih with ⟨first, others, htokens, hle⟩
    exact ⟨first, others, htokens, Position.le_trans (p.le_next c) hle⟩
  | token => exact ⟨_, _, rfl, Position.le_refl _⟩

/-- What a text begins with if its first token stands at its beginning: with that token, or it is
empty. -/
theorem Lexed.head_text {first : Token} {others : List Token} (h : Lexed p text (first :: others))
    (hpos : first.pos = p) :
    (first = endOfFile p ∧ text = []) ∨
      (first.Fits ∧ first.isEnd = false ∧ ∃ rest, text = first.lexeme.toList ++ rest) := by
  cases h with
  | nil => exact .inl ⟨rfl, rfl⟩
  | @blank _ c _ _ _ others =>
    rcases others.head_le with ⟨_, _, heq, hle⟩
    rcases List.cons.inj heq with ⟨rfl, _⟩
    rw [hpos] at hle
    exact absurd hle (p.not_next_le c)
  | token fits inside _ _ => exact .inr ⟨fits, inside, _, rfl⟩

/-- A normal text begins with a newline only if its first token is on a later line. -/
theorem Lexed.head?_normalize_ne (h : Lexed p text tokens) {first : Token}
    (hfirst : first ∈ tokens.head?) (hline : p.line = first.pos.line) :
    (Layout.normalize text).head? ≠ some '\n' := by
  induction h with
  | nil => simp [Layout.normalize]
  | @blank p c rest tokens isBlank others ih =>
    rcases others.head_le with ⟨_, _, rfl, hle⟩
    obtain rfl := Option.some.inj hfirst
    have hspace : ∀ hc : c = ' ' ∨ c = '\t', p.next c = ⟨p.line, p.column + 1⟩ →
        (Layout.normalize (c :: rest)).head? ≠ some '\n' := by
      intro hc hnext
      have hrest := ih hfirst (by rw [hnext]; exact hline)
      rw [Layout.normalize_space hc, if_neg hrest]
      simp
    rcases isBlank with rfl | rfl | rfl
    · exact hspace (.inl rfl) rfl
    · exact hspace (.inr rfl) rfl
    · -- the first token is on a later line
      rcases Position.le_iff.mp hle with hlater | ⟨hnext, _⟩
      · have hlater' : p.line + 1 < _ := hlater
        omega
      · have hnext' : p.line + 1 = _ := hnext
        omega
  | @token t rest tokens fits inside _ _ _ =>
    cases hlexeme : t.lexeme.toList with
    | nil => exact absurd hlexeme (fits.toList_ne_nil inside)
    | cons c chars =>
      have hc : c ∈ t.lexeme.toList := by simp [hlexeme]
      rw [List.cons_append, Layout.normalize, if_neg (fits.not_space inside hc)]
      intro hnewline
      exact fits.not_isBlank inside hc (.inr (.inr (Option.some.inj hnewline)))

/-- By induction on the row: blanks are gaps, and a token stands where the gap before it ends. -/
theorem Lexed.writeFrom_eq (h : Lexed p text tokens) :
    Layout.writeFrom p tokens = Layout.normalize text := by
  induction h with
  | nil => simp [Layout.writeFrom, endOfFile, Layout.written, isEnd, Layout.normalize]
  | @blank p c rest tokens isBlank others ih =>
    rcases others.head_le with ⟨first, others', rfl, hle⟩
    have hspace : ∀ hc : c = ' ' ∨ c = '\t', (p.next c).line = p.line →
        Layout.writeFrom p (first :: others') = Layout.normalize (c :: rest) := by
      intro hc hnext
      rw [Layout.normalize_space hc, ← ih, Layout.writeFrom, Layout.gap_of_next_space hc hle]
      by_cases hline : p.line = first.pos.line
      · have hhead := others.head?_normalize_ne rfl (hnext.trans hline)
        rw [← ih, Layout.writeFrom] at hhead
        rw [if_pos hline, Layout.writeFrom, if_neg hhead]
        simp
      · -- a newline comes before the next token, so nothing is written for this blank
        have hhead := Layout.head?_gap_append hle (by rwa [hnext])
        rw [if_neg hline, Layout.writeFrom, List.append_assoc, if_pos (hhead _)]
    rcases isBlank with rfl | rfl | rfl
    · exact hspace (.inl rfl) rfl
    · exact hspace (.inr rfl) rfl
    · rw [Layout.normalize_newline, ← ih, Layout.writeFrom, Layout.gap_of_next_newline hle]
      rfl
  | @token t rest tokens fits inside _ _ ih =>
    have hkept : ∀ c ∈ t.lexeme.toList, ¬ (c = ' ' ∨ c = '\t') := by
      intro c hc
      exact fits.not_space inside hc
    rw [Layout.normalize_append hkept, Layout.writeFrom, Layout.gap_self, Layout.written, inside,
      ih]
    rfl

/-! ## The places of the tokens of a source -/

/-- Every token stands behind a front of the text, and the end of the file behind all of it. -/
theorem Lexed.exists_front (h : Lexed p text tokens) :
    ∀ t ∈ tokens, ∃ front back, text = front ++ Layout.written t ++ back ∧
      t.pos = p.after front ∧ (t.isEnd = true → back = []) := by
  induction h with
  | nil =>
    intro t ht
    obtain rfl := List.mem_singleton.mp ht
    exact ⟨[], [], rfl, rfl, fun _ => rfl⟩
  | @blank p c rest tokens _ _ ih =>
    intro t ht
    rcases ih t ht with ⟨front, back, htext, hpos, hback⟩
    exact ⟨c :: front, back, by rw [htext]; rfl, hpos, hback⟩
  | @token first rest tokens fits inside _ _ ih =>
    intro t ht
    rcases List.mem_cons.mp ht with rfl | hothers
    · have hwritten : Layout.written t = t.lexeme.toList := by simp [Layout.written, inside]
      refine ⟨[], rest, by rw [hwritten]; rfl, rfl, ?_⟩
      intro hend
      rw [inside] at hend
      exact absurd hend (by simp)
    · rcases ih t hothers with ⟨front, back, htext, hpos, hback⟩
      refine ⟨first.lexeme.toList ++ front, back, by rw [htext]; simp, ?_, hback⟩
      rw [Position.after_append, fits.after_lexeme inside, hpos]

theorem Lexed.ends (h : Lexed p text tokens) :
    ∃ inside stop, tokens = inside ++ [stop] ∧ stop.isEnd = true ∧
      ∀ t ∈ inside, t.isEnd = false :=
  ⟨ofText p text, _, h.tokens_eq, rfl, fun _ ht => isEnd_eq_false_of_mem ht⟩

theorem Lexed.fits (h : Lexed p text tokens) : ∀ t ∈ tokens, t.Fits := by
  induction h with
  | nil =>
    intro t ht
    obtain rfl := List.mem_singleton.mp ht
    rfl
  | blank _ _ ih => exact ih
  | token fits _ _ _ ih =>
    intro t ht
    rcases List.mem_cons.mp ht with rfl | hothers
    · exact fits
    · exact ih t hothers

/-- Two tokens with nothing between them would have been one if they could be. -/
theorem Lexed.merges_eq_false {t next : Token} {others : List Token} (fits : t.Fits)
    (inside : t.isEnd = false) (hseparate : Separate t.lexeme.toList text)
    (h : Lexed t.stop text (next :: others)) (hpos : next.pos = t.stop) :
    t.kind.merges next.kind = false := by
  rcases h.head_text hpos with ⟨rfl, _⟩ | ⟨hfits, hinside, rest, rfl⟩
  · rcases t with ⟨kind, lexeme, pos⟩
    cases kind <;> rfl
  · obtain ⟨y, ys, hy⟩ := List.exists_cons_of_ne_nil (hfits.toList_ne_nil hinside)
    have hlast := List.getLast?_eq_some_getLast (fits.toList_ne_nil inside)
    have hjoins := hseparate _ hlast y (by simp [hy])
    rw [fits.of?_eq_role inside (List.mem_of_getLast? hlast),
      hfits.of?_eq_role hinside (by simp [hy]), Kind.joins_role] at hjoins
    exact hjoins

/-- By induction on the row: each token is before the next one, and stops behind its beginning. -/
theorem Lexed.isChain (h : Lexed p text tokens) :
    tokens.IsChain fun t u => t.Precedes u ∧ t.pos.column < t.stop.column := by
  induction h with
  | nil => simp
  | blank _ _ ih => exact ih
  | @token t rest tokens fits inside separate others ih =>
    rcases others.head_le with ⟨next, others', rfl, hle⟩
    refine List.isChain_cons_cons.mpr ⟨⟨?_, ?_⟩, ih⟩
    · rcases Position.le_iff.mp hle with hline | ⟨hline, hcolumn⟩
      · exact .inl hline
      · refine .inr ⟨hline, hcolumn, ?_⟩
        intro habuts
        have hpos : next.pos = t.stop := Position.eq_of_line_column hline.symm habuts.symm
        exact others.merges_eq_false fits inside separate hpos
    · have hpos : 0 < t.lexeme.toList.length :=
        List.length_pos_iff.mpr (fits.toList_ne_nil inside)
      rw [String.length_toList] at hpos
      show t.pos.column < t.pos.column + t.lexeme.length
      omega

theorem Lexed.wellPlaced (h : Lexed .start text tokens) : WellPlaced tokens where
  ends := h.ends
  fits := h.fits
  placed := by
    intro t ht
    rcases h.exists_front t ht with ⟨front, _, _, hpos, _⟩
    rw [hpos, Position.start_after]
    simp
  ordered := by
    have hchain : tokens.IsChain Precedes := h.isChain.imp fun _ _ hboth => hboth.1
    intro before t u after htokens
    exact List.isChain_iff_forall_rel_of_append_cons_cons.mp hchain htokens

end Lexed

/-! ## Tokens that are well placed -/

section WellPlaced

variable {p q : Position} {text : List Char} {tokens : List Token}

theorem Lexed.of_blanks {blanks : List Char} (hblanks : ∀ c ∈ blanks, IsBlank c)
    (h : Lexed (p.after blanks) text tokens) : Lexed p (blanks ++ text) tokens := by
  induction blanks generalizing p with
  | nil => exact h
  | cons c blanks ih =>
    exact .blank (hblanks c (by simp)) (ih (fun x hx => hblanks x (List.mem_cons_of_mem c hx)) h)

/-- A gap may stand before a text. -/
theorem Lexed.of_gap (hle : p ≤ q) (hq : 1 ≤ q.column) (h : Lexed q text tokens) :
    Lexed p (Layout.gap p q ++ text) tokens := by
  refine .of_blanks (fun _ hc => Layout.isBlank_of_mem_gap hc) ?_
  rw [Layout.after_gap hle hq]
  exact h

theorem Precedes.stop_le {t u : Token} (h : t.Precedes u) : t.stop ≤ u.pos := by
  rcases h with hline | ⟨hline, hcolumn, _⟩
  · exact .inl hline
  · exact .inr ⟨hline, hcolumn⟩

/-- The text of a token is separate from the text written behind it, because a blank comes between
or the two tokens do not merge. -/
theorem separate_writeFrom {t next : Token} {others : List Token} (hfits : t.Fits)
    (hinside : t.isEnd = false) (hnext : next.Fits) (hcolumn : 1 ≤ next.pos.column)
    (hlast : next.isEnd = true → others = []) (hprecedes : t.Precedes next) :
    Separate t.lexeme.toList (Layout.writeFrom t.stop (next :: others)) := by
  rw [Layout.writeFrom]
  cases hgap : Layout.gap t.stop next.pos with
  | cons c blanks =>
    have hblank : IsBlank c := Layout.isBlank_of_mem_gap (by rw [hgap]; simp)
    exact (standsAlone_of_blank hblank).separate_right _ _
  | nil =>
    have hpos : t.stop = next.pos := Layout.eq_of_gap_eq_nil hprecedes.stop_le hcolumn hgap
    intro x hx y hy
    cases hend : next.isEnd with
    | true =>
      -- nothing is written for an end of file, and nothing comes after it
      rw [hlast hend] at hy
      simp [Layout.written, Layout.writeFrom, hend] at hy
    | false =>
      obtain ⟨c, chars, hlexeme⟩ := List.exists_cons_of_ne_nil (hnext.toList_ne_nil hend)
      have hy' : y = c := by simpa [Layout.written, hend, hlexeme, eq_comm] using hy
      have hmerges : t.kind.merges next.kind = false := by
        rcases hprecedes with hline | ⟨_, _, habuts⟩
        · have hsame : t.stop.line = next.pos.line := congrArg Position.line hpos
          exact absurd hsame (Nat.ne_of_lt hline)
        · exact habuts (congrArg Position.column hpos)
      rw [hfits.of?_eq_role hinside (List.mem_of_getLast? hx), hy',
        hnext.of?_eq_role hend (by simp [hlexeme]), Kind.joins_role, hmerges]

theorem eq_endOfFile {t : Token} (hend : t.isEnd = true) (hfits : t.Fits) :
    t = endOfFile t.pos := by
  rcases t with ⟨kind, lexeme, pos⟩
  obtain rfl : kind = .endOfFile := by simpa [isEnd] using hend
  obtain rfl : lexeme = Kind.endOfFile.name := hfits
  rfl

/-- By induction on the tokens, from any place that is not behind the first of them. -/
theorem lexed_writeFrom {inside : List Token} {stop : Token} (hstop : stop.isEnd = true)
    (hinside : ∀ t ∈ inside, t.isEnd = false) (hfits : ∀ t ∈ inside ++ [stop], t.Fits)
    (hcolumn : ∀ t ∈ inside ++ [stop], 1 ≤ t.pos.column)
    (hchain : (inside ++ [stop]).IsChain Precedes)
    (hfirst : ∀ t ∈ (inside ++ [stop]).head?, p ≤ t.pos) :
    Lexed p (Layout.writeFrom p (inside ++ [stop])) (inside ++ [stop]) := by
  induction inside generalizing p with
  | nil =>
    have hlast : stop = endOfFile stop.pos := eq_endOfFile hstop (hfits stop (by simp))
    have hnil : Lexed stop.pos [] [stop] := by
      rw [hlast]
      exact .nil
    have hwritten : Layout.writeFrom p [stop] = Layout.gap p stop.pos ++ [] := by
      simp [Layout.writeFrom, Layout.written, hstop]
    rw [List.nil_append, hwritten]
    exact .of_gap (hfirst stop (by simp)) (hcolumn stop (by simp)) hnil
  | cons t inside ih =>
    have ht : t.isEnd = false := hinside t (by simp)
    have htfits : t.Fits := hfits t (by simp)
    have hwritten : Layout.written t = t.lexeme.toList := by simp [Layout.written, ht]
    obtain ⟨next, others, hrest⟩ : ∃ next others, inside ++ [stop] = next :: others :=
      List.exists_cons_of_ne_nil (by simp)
    rw [List.cons_append, hrest, List.isChain_cons_cons] at hchain
    have hnext : next ∈ t :: inside ++ [stop] := by simp [hrest]
    have hlast : next.isEnd = true → others = [] := by
      intro hend
      cases inside with
      | nil => simpa using (List.cons.inj hrest).2.symm
      | cons u inside =>
        rcases List.cons.inj hrest with ⟨rfl, _⟩
        rw [hinside u (by simp)] at hend
        exact absurd hend (by simp)
    have hseparate := separate_writeFrom htfits ht (hfits next hnext) (hcolumn next hnext) hlast
      hchain.1
    have hothers :
        Lexed t.stop (Layout.writeFrom t.stop (inside ++ [stop])) (inside ++ [stop]) := by
      refine ih (fun u hu => hinside u (by simp [hu])) (fun u hu => hfits u (by simp [hu]))
        (fun u hu => hcolumn u (by simp [hu])) ?_ ?_
      · rw [hrest]
        exact hchain.2
      · intro u hu
        rw [hrest] at hu
        obtain rfl := Option.some.inj hu
        exact hchain.1.stop_le
    rw [← hrest] at hseparate
    rw [List.cons_append, Layout.writeFrom, hwritten, List.append_assoc]
    exact .of_gap (hfirst t (by simp)) (hcolumn t (by simp)) (.token htfits ht hseparate hothers)

theorem WellPlaced.lexed (h : WellPlaced tokens) :
    Lexed .start (Layout.writeFrom .start tokens) tokens := by
  rcases h.ends with ⟨inside, stop, rfl, hstop, hinside⟩
  refine lexed_writeFrom hstop hinside h.fits (fun t ht => (h.placed t ht).2) ?_ ?_
  · refine List.isChain_iff_forall_rel_of_append_cons_cons.mpr ?_
    intro t u before after htokens
    exact h.ordered before t u after htokens
  · intro t ht
    have hplaced := h.placed t (List.mem_of_head? ht)
    rw [Position.le_iff]
    show 1 < t.pos.line ∨ 1 = t.pos.line ∧ 1 ≤ t.pos.column
    omega

end WellPlaced

end Token

namespace Layout

/-! ## Sources and layouts -/

/-- What is known of the tokens of a source.  The last one is the only end of file; they follow each
other without overlapping; written in their places they make up the source, up to blanks that
cannot be seen; and each of them stands where its text does, on the line after so many newlines and
in the column after so many characters of that line. -/
theorem write_eq_normalize {source : String} {tokens : List Token}
    (h : (Token.tokenize source).result = .ok tokens) :
    (∃ inside stop, tokens = inside ++ [stop] ∧ stop.isEnd = true ∧
      ∀ t ∈ inside, t.isEnd = false) ∧
    (tokens.IsChain fun t u => t.pos.line < u.pos.line ∨
      t.pos.line = u.pos.line ∧ t.pos.column < u.pos.column ∧ t.stop.column ≤ u.pos.column) ∧
    write tokens = String.ofList (normalize source.toList) ∧
    ∀ t ∈ tokens, ∃ front back, source.toList = front ++ written t ++ back ∧
      (t.isEnd = true → back = []) ∧ t.pos.line = 1 + front.count '\n' ∧
      t.pos.column = 1 + (front.rtakeWhile fun c => c ≠ '\n').length := by
  have hlexed := Token.tokenize_eq_ok_iff.mp h
  refine ⟨hlexed.ends, ?_, ?_, ?_⟩
  · refine hlexed.isChain.imp ?_
    rintro t u ⟨hline | ⟨hline, hstop, _⟩, hwide⟩
    · exact .inl hline
    · exact .inr ⟨hline, by omega, hstop⟩
  · exact congrArg String.ofList hlexed.writeFrom_eq
  · intro t ht
    rcases hlexed.exists_front t ht with ⟨front, back, htext, hpos, hback⟩
    rw [Position.start_after] at hpos
    exact ⟨front, back, htext, hback, congrArg Position.line hpos, congrArg Position.column hpos⟩

/-- Blanks before a newline are not written, and a tab is written as a space. -/
theorem write_of_two_lines :
    (Token.tokenize "1 \t\n\tab3").result =
        .ok [⟨.number, "1", ⟨1, 1⟩⟩, ⟨.identifier, "ab", ⟨2, 2⟩⟩, ⟨.number, "3", ⟨2, 4⟩⟩,
          .endOfFile ⟨2, 5⟩] ∧
      write [⟨.number, "1", ⟨1, 1⟩⟩, ⟨.identifier, "ab", ⟨2, 2⟩⟩, ⟨.number, "3", ⟨2, 4⟩⟩,
        .endOfFile ⟨2, 5⟩] = "1\n ab3" := by
  have h : (Token.tokenize "1 \t\n\tab3").result =
      .ok [⟨.number, "1", ⟨1, 1⟩⟩, ⟨.identifier, "ab", ⟨2, 2⟩⟩, ⟨.number, "3", ⟨2, 4⟩⟩,
        .endOfFile ⟨2, 5⟩] :=
    Token.tokenize_of_isRecognized (by decide +kernel)
  exact ⟨h, (write_eq_normalize h).2.2.1⟩

/-- Tokens that are well placed are read back from the text that has them in their places, and no
source has other tokens. -/
theorem tokenize_write_of_wellPlaced (tokens : List Token) :
    (Token.WellPlaced tokens → (Token.tokenize (write tokens)).result = .ok tokens) ∧
      ∀ source, (Token.tokenize source).result = .ok tokens → Token.WellPlaced tokens := by
  constructor
  · intro h
    refine Token.tokenize_eq_ok_iff.mpr ?_
    rw [write, String.toList_ofList]
    exact h.lexed
  · intro source h
    exact (Token.tokenize_eq_ok_iff.mp h).wellPlaced

/-- A keyword between two numbers, with nothing between them, and an end of file further down. -/
theorem tokenize_write_of_abutting :
    Token.WellPlaced [⟨.number, "12", ⟨1, 2⟩⟩, ⟨.letKeyword, "let", ⟨1, 4⟩⟩, ⟨.number, "3", ⟨1, 7⟩⟩,
        .endOfFile ⟨3, 2⟩] ∧
      (Token.tokenize (write [⟨.number, "12", ⟨1, 2⟩⟩, ⟨.letKeyword, "let", ⟨1, 4⟩⟩,
        ⟨.number, "3", ⟨1, 7⟩⟩, .endOfFile ⟨3, 2⟩])).result =
        .ok [⟨.number, "12", ⟨1, 2⟩⟩, ⟨.letKeyword, "let", ⟨1, 4⟩⟩, ⟨.number, "3", ⟨1, 7⟩⟩,
          .endOfFile ⟨3, 2⟩] := by
  have hplaced := (tokenize_write_of_wellPlaced _).2 "\t12let3 \n\n "
    (Token.tokenize_of_isRecognized (by decide +kernel))
  exact ⟨hplaced, (tokenize_write_of_wellPlaced _).1 hplaced⟩

end Layout

end Abacus
