import Abacus.Proofs.Layout
import Abacus.Proofs.Outcome

/-!
# Dumps of tokens

The dump of the tokens of a source shows all of them: which text it is, up to blanks that cannot be
seen, can be told from the dump.

1. A run of characters of one class ends where the class does, so it can be told from what follows
   it (`Text.append_inj_of_class`).  So can the digits of a number, up to the mark behind them
   (`Text.toDigits_append_inj`).
2. No two characters are escaped alike, and no escaped character is the beginning of another one, so
   a quoted text can be told from what follows it (`Text.Escaped.append_inj`,
   `Text.quote_append_inj`).
3. So a token can be told from its dump, which is a single line (`Token.dump_inj`,
   `Token.newline_notMem_dump`).
4. Tokens determine the normal text that has them in their places, and a normal text determines its
   tokens (`Layout.normalize_eq_iff`).
-/

namespace Abacus

namespace Text

/-! ## Runs of one class -/

/-- A run of characters of the class `q` that is followed by nothing of that class can be told from
what follows it. -/
theorem append_inj_of_class {q : Char → Bool} {a b rest rest' : List Char}
    (ha : ∀ c ∈ a, q c = true) (hb : ∀ c ∈ b, q c = true)
    (hrest : ∀ c ∈ rest.head?, q c = false) (hrest' : ∀ c ∈ rest'.head?, q c = false)
    (h : a ++ rest = b ++ rest') : a = b ∧ rest = rest' := by
  have hstop : ∀ {r : List Char}, (∀ c ∈ r.head?, q c = false) → r.takeWhile q = [] := by
    intro r hr
    cases r with
    | nil => rfl
    | cons c r => exact List.takeWhile_cons_of_neg (by simp [hr c (by simp)])
  have htake := congrArg (List.takeWhile q) h
  rw [List.takeWhile_append_of_pos ha, List.takeWhile_append_of_pos hb, hstop hrest,
    hstop hrest', List.append_nil, List.append_nil] at htake
  subst htake
  exact ⟨rfl, List.append_cancel_left h⟩

/-- What stands before the first `mark` can be told from what follows. -/
theorem append_cons_inj {mark : Char} {a b rest rest' : List Char} (ha : mark ∉ a) (hb : mark ∉ b)
    (h : a ++ mark :: rest = b ++ mark :: rest') : a = b ∧ rest = rest' := by
  have hother : ∀ {l : List Char}, mark ∉ l → ∀ c ∈ l, (c != mark) = true := by
    intro l hl c hc
    have hne : c ≠ mark := fun heq => hl (heq ▸ hc)
    simpa using hne
  rcases append_inj_of_class (hother ha) (hother hb) (by simp) (by simp) h with ⟨rfl, htail⟩
  exact ⟨rfl, (List.cons.inj htail).2⟩

/-! ## Digits -/

theorem exists_digitChar_of_mem {base n : Nat} (hbase : 1 < base) {c : Char}
    (h : c ∈ Nat.toDigits base n) : ∃ k < base, c = Nat.digitChar k := by
  induction n using Nat.strongRecOn with
  | ind n ih =>
    rw [Nat.toDigits_eq_if hbase] at h
    split at h
    · next hlt => exact ⟨n, hlt, List.mem_singleton.mp h⟩
    · next hge =>
      rcases List.mem_append.mp h with hfront | hlast
      · exact ih (n / base) (Nat.div_lt_self (by omega) hbase) hfront
      · exact ⟨n % base, Nat.mod_lt _ (by omega), List.mem_singleton.mp hlast⟩

theorem digitChar_inj : ∀ m < 16, ∀ n < 16, Nat.digitChar m = Nat.digitChar n → m = n := by
  decide

/-- By induction on the number: the last digits agree, and so do the numbers without them. -/
theorem toDigits_inj {base m n : Nat} (hbase : 1 < base) (hlimit : base ≤ 16)
    (h : Nat.toDigits base m = Nat.toDigits base n) : m = n := by
  have hlong : ∀ (k : Nat) (c d : Char), [c] ≠ Nat.toDigits base k ++ [d] := by
    intro k c d heq
    exact absurd (congrArg List.length heq) (by simp)
  induction m using Nat.strongRecOn generalizing n with
  | ind m ih =>
    rw [Nat.toDigits_eq_if hbase, Nat.toDigits_eq_if (n := n) hbase] at h
    by_cases hm : m < base
    · by_cases hn : n < base
      · rw [if_pos hm, if_pos hn] at h
        exact digitChar_inj m (by omega) n (by omega) (List.cons.inj h).1
      · -- one digit against several
        rw [if_pos hm, if_neg hn] at h
        exact absurd h (hlong _ _ _)
    · by_cases hn : n < base
      · rw [if_neg hm, if_pos hn] at h
        exact absurd h.symm (hlong _ _ _)
      · rw [if_neg hm, if_neg hn] at h
        rcases List.append_inj' h rfl with ⟨hfront, hlast⟩
        have hdiv := ih (m / base) (Nat.div_lt_self (by omega) hbase) hfront
        have hm' : m % base < base := Nat.mod_lt _ (by omega)
        have hn' : n % base < base := Nat.mod_lt _ (by omega)
        have hmod := digitChar_inj _ (by omega) _ (by omega) (List.cons.inj hlast).1
        rw [← Nat.div_add_mod m base, ← Nat.div_add_mod n base, hdiv, hmod]

/-- No digit is one of the marks that may follow. -/
theorem notMem_toDigits {base n : Nat} (hbase : 1 < base) (hlimit : base ≤ 16) {mark : Char}
    (hmark : ∀ k < 16, Nat.digitChar k ≠ mark) : mark ∉ Nat.toDigits base n := by
  intro hmem
  rcases exists_digitChar_of_mem hbase hmem with ⟨k, hk, heq⟩
  exact hmark k (by omega) heq.symm

/-- A number can be told from its digits, up to a mark that is no digit. -/
theorem toDigits_append_inj {base m n : Nat} (hbase : 1 < base) (hlimit : base ≤ 16) {mark : Char}
    (hmark : ∀ k < 16, Nat.digitChar k ≠ mark) {rest rest' : List Char}
    (h : Nat.toDigits base m ++ mark :: rest = Nat.toDigits base n ++ mark :: rest') :
    m = n ∧ rest = rest' := by
  have hnone : ∀ k, mark ∉ Nat.toDigits base k := fun _ => notMem_toDigits hbase hlimit hmark
  rcases append_cons_inj (hnone m) (hnone n) h with ⟨hdigits, htail⟩
  exact ⟨toDigits_inj hbase hlimit hdigits, htail⟩

/-! ## Quoted text -/

/-- The characters that have a short name, and the letter that it is made of. -/
def shortNames : List (Char × Char) :=
  [('"', '"'), ('\\', '\\'), ('\t', 't'), ('\n', 'n'), ('\r', 'r'), ('\x00', '0')]

/-- The three ways in which a character is escaped. -/
inductive Escaped : Char → List Char → Prop
  | itself {c : Char} (noEscape : c ≠ '\\') (noQuote : c ≠ '"') (noNewline : c ≠ '\n') :
    Escaped c [c]
  | short {c letter : Char} (named : (c, letter) ∈ shortNames) : Escaped c ['\\', letter]
  | code {c : Char} : Escaped c (codePoint c)

theorem escaped_escape (c : Char) : Escaped c (escape c) := by
  unfold escape
  split
  case h_7 hquote hescape _ hnewline _ _ =>
    split
    · exact .itself hescape hquote hnewline
    · exact .code
  all_goals exact .short (by simp [shortNames])

theorem codePoint_append (c : Char) (rest : List Char) :
    codePoint c ++ rest =
      '\\' :: 'u' :: '\x7b' :: (Nat.toDigits 16 c.toNat ++ '\x7d' :: rest) := by
  delta codePoint
  simp

section Escaped

variable {a b c : Char} {s s' rest rest' : List Char}

/-- An escaped character can be told from what follows it. -/
theorem Escaped.append_inj (ha : Escaped a s) (hb : Escaped b s') (h : s ++ rest = s' ++ rest') :
    a = b ∧ rest = rest' := by
  have hnames : ∀ p ∈ shortNames, p.2 ≠ 'u' ∧ ∀ q ∈ shortNames, p.2 = q.2 → p.1 = q.1 := by
    decide
  cases ha with
  | itself noEscape _ _ =>
    -- only escaped characters begin with a backslash
    cases hb with
    | itself _ _ _ => exact List.cons.inj h
    | short _ => exact absurd (List.cons.inj h).1 noEscape
    | code =>
      rw [codePoint_append] at h
      exact absurd (List.cons.inj h).1 noEscape
  | @short letter named =>
    cases hb with
    | itself noEscape _ _ => exact absurd (List.cons.inj h).1.symm noEscape
    | @short letter' named' =>
      rcases List.cons.inj (List.cons.inj h).2 with ⟨hletter, htail⟩
      exact ⟨(hnames _ named).2 _ named' hletter, htail⟩
    | code =>
      -- no short name is made of the letter that a code point begins with
      rw [codePoint_append] at h
      exact absurd (List.cons.inj (List.cons.inj h).2).1 (hnames _ named).1
  | code =>
    rw [codePoint_append] at h
    cases hb with
    | itself noEscape _ _ => exact absurd (List.cons.inj h).1.symm noEscape
    | short named' => exact absurd (List.cons.inj (List.cons.inj h).2).1.symm (hnames _ named').1
    | code =>
      rw [codePoint_append] at h
      -- the digits end at the closing brace
      have hdigits := (List.cons.inj (List.cons.inj (List.cons.inj h).2).2).2
      rcases toDigits_append_inj (by decide) (by decide) (by decide) hdigits with ⟨hnat, htail⟩
      exact ⟨Char.toNat_inj.mp hnat, htail⟩

/-- The closing quote is no beginning of an escaped character. -/
theorem Escaped.append_ne_quote (h : Escaped c s) : s ++ rest ≠ '"' :: rest' := by
  intro heq
  cases h with
  | itself _ noQuote _ => exact noQuote (List.cons.inj heq).1
  | short _ => exact absurd (List.cons.inj heq).1 (by decide)
  | code =>
    rw [codePoint_append] at heq
    exact absurd (List.cons.inj heq).1 (by decide)

theorem Escaped.newline_notMem (h : Escaped c s) : '\n' ∉ s := by
  cases h with
  | itself _ _ noNewline => simpa using noNewline.symm
  | @short letter named =>
    have hletters : ∀ p ∈ shortNames, p.2 ≠ '\n' := by decide
    simpa using (hletters _ named).symm
  | code =>
    have hdigits : '\n' ∉ Nat.toDigits 16 c.toNat :=
      notMem_toDigits (by decide) (by decide) (by decide)
    rw [← List.append_nil (codePoint c), codePoint_append]
    simp [hdigits]

end Escaped

/-- By induction on the first text: its characters are those of the second one, up to the closing
quote. -/
theorem flatMap_escape_append_inj {a b rest rest' : List Char}
    (h : a.flatMap escape ++ '"' :: rest = b.flatMap escape ++ '"' :: rest') :
    a = b ∧ rest = rest' := by
  induction a generalizing b with
  | nil =>
    cases b with
    | nil => exact ⟨rfl, (List.cons.inj h).2⟩
    | cons d b =>
      rw [List.flatMap_cons, List.append_assoc] at h
      exact absurd h.symm (escaped_escape d).append_ne_quote
  | cons c a ih =>
    rw [List.flatMap_cons, List.append_assoc] at h
    cases b with
    | nil => exact absurd h (escaped_escape c).append_ne_quote
    | cons d b =>
      rw [List.flatMap_cons, List.append_assoc] at h
      rcases (escaped_escape c).append_inj (escaped_escape d) h with ⟨rfl, htail⟩
      rcases ih htail with ⟨rfl, hrest⟩
      exact ⟨rfl, hrest⟩

/-- A quoted text can be told from what follows it. -/
theorem quote_append_inj {a b : String} {rest rest' : List Char}
    (h : (quote a).toList ++ rest = (quote b).toList ++ rest') : a = b ∧ rest = rest' := by
  simp only [quote, String.toList_ofList, List.cons_append, List.append_assoc, List.cons.injEq,
    true_and, List.nil_append] at h
  rcases flatMap_escape_append_inj h with ⟨hchars, hrest⟩
  exact ⟨String.toList_inj.mp hchars, hrest⟩

theorem newline_notMem_quote (text : String) : '\n' ∉ (quote text).toList := by
  have hchars : '\n' ∉ text.toList.flatMap escape := by
    intro hmem
    rcases List.mem_flatMap.mp hmem with ⟨c, _, hc⟩
    exact (escaped_escape c).newline_notMem hc
  simp [quote, hchars]

end Text

/-! ## Tokens -/

namespace Token

theorem Kind.name_inj {a b : Kind} (h : a.name = b.name) : a = b := by
  cases a <;> cases b <;> simp_all [name]

theorem Kind.notMem_name (kind : Kind) : ',' ∉ kind.name.toList ∧ '\n' ∉ kind.name.toList := by
  cases kind <;> decide

/-- The parts of a dump, one after the other. -/
theorem toList_dump (t : Token) :
    t.dump.toList =
      "Token \x7b type: ".toList ++ (t.kind.name.toList ++ ',' :: (" lexeme: ".toList ++
        ((Text.quote t.lexeme).toList ++ (", line: ".toList ++
          (Nat.toDigits 10 t.pos.line ++ ',' :: (" column: ".toList ++
            (Nat.toDigits 10 t.pos.column ++ ' ' :: ['\x7d']))))))) := by
  delta dump
  simp [toString, Nat.repr_eq_ofList_toDigits]

/-- A token can be told from its dump, part by part. -/
theorem dump_inj {t u : Token} (h : t.dump = u.dump) : t = u := by
  have hlist := congrArg String.toList h
  rw [toList_dump, toList_dump] at hlist
  -- the kind ends at the first comma, the text at its closing quote, the line at the next comma,
  -- and the column at a space
  have hkind := Text.append_cons_inj t.kind.notMem_name.1 u.kind.notMem_name.1
    (List.append_cancel_left hlist)
  have hlexeme := Text.quote_append_inj (List.append_cancel_left hkind.2)
  have hline := Text.toDigits_append_inj (by decide) (by decide) (by decide)
    (List.append_cancel_left hlexeme.2)
  have hcolumn := Text.toDigits_append_inj (by decide) (by decide) (by decide)
    (List.append_cancel_left hline.2)
  rcases t with ⟨kind, lexeme, line, column⟩
  rcases u with ⟨kind', lexeme', line', column'⟩
  obtain rfl := Kind.name_inj (String.toList_inj.mp hkind.1)
  obtain rfl : lexeme = lexeme' := hlexeme.1
  obtain rfl : line = line' := hline.1
  obtain rfl : column = column' := hcolumn.1
  rfl

theorem newline_notMem_dump (t : Token) : '\n' ∉ t.dump.toList := by
  have hdigits : ∀ n, '\n' ∉ Nat.toDigits 10 n :=
    fun _ => Text.notMem_toDigits (by decide) (by decide) (by decide)
  rw [toList_dump]
  simp [t.kind.notMem_name.2, Text.newline_notMem_quote, hdigits]

/-- Tokens can be told from their dumps on lines of their own. -/
theorem dumps_inj {tokens tokens' : List Token} (hne : tokens ≠ []) (hne' : tokens' ≠ [])
    (h : "\n".intercalate (tokens.map dump) = "\n".intercalate (tokens'.map dump)) :
    tokens = tokens' := by
  have hsplit : ∀ {l : List Token}, l ≠ [] →
      List.splitOn '\n' ("\n".intercalate (l.map dump)).toList =
        (l.map dump).map String.toList := by
    intro l hl
    rw [String.toList_intercalate]
    refine List.splitOn_intercalate '\n' ?_ (by simpa using hl)
    simp only [List.map_map, List.mem_map, Function.comp_apply]
    rintro line ⟨t, _, rfl⟩
    exact newline_notMem_dump t
  have hlines := hsplit hne
  rw [h, hsplit hne', List.map_map, List.map_map] at hlines
  refine (List.map_injective_iff.mpr ?_ hlines).symm
  intro t u htu
  exact dump_inj (String.toList_inj.mp htu)

end Token

/-! ## Normal texts -/

/-- Two sources have the same normal text exactly if they have the same tokens. -/
theorem Layout.normalize_eq_iff {source source' : String} {tokens tokens' : List Token}
    (h : (Token.tokenize source).result = .ok tokens)
    (h' : (Token.tokenize source').result = .ok tokens') :
    normalize source.toList = normalize source'.toList ↔ tokens = tokens' := by
  have hlexed := Token.tokenize_eq_ok_iff.mp h
  have hlexed' := Token.tokenize_eq_ok_iff.mp h'
  rw [← hlexed.writeFrom_eq, ← hlexed'.writeFrom_eq]
  constructor
  · -- the normal text has the tokens of both sources
    intro hwrite
    have hsame := hlexed'.wellPlaced.lexed
    rw [← hwrite] at hsame
    rw [hlexed.wellPlaced.lexed.tokens_eq, hsame.tokens_eq, hwrite]
  · rintro rfl
    rfl

namespace Run

theorem text_tokens_of_ok {source : String} {tokens : List Token}
    (h : (Token.tokenize source).result = .ok tokens) :
    (text .tokens source).result = .ok ("\n".intercalate (tokens.map Token.dump)) := by
  unfold text Run.tokens
  rw [Traced.result_bind, Traced.result_embed, h]
  rfl

/-- The tokens that are shown of two sources are the same text exactly if the sources are the same
up to blanks that cannot be seen. -/
theorem text_tokens_eq_iff {source source' : String} {tokens tokens' : List Token}
    (h : (Token.tokenize source).result = .ok tokens)
    (h' : (Token.tokenize source').result = .ok tokens') :
    ∃ shown shown', (text .tokens source).result = .ok shown ∧
      (text .tokens source').result = .ok shown' ∧
      (shown = shown' ↔ Layout.normalize source.toList = Layout.normalize source'.toList) := by
  refine ⟨_, _, text_tokens_of_ok h, text_tokens_of_ok h', ?_⟩
  have hne : ∀ {source : String} {tokens : List Token},
      (Token.tokenize source).result = .ok tokens → tokens ≠ [] := by
    intro source tokens h
    rcases (Token.tokenize_eq_ok_iff.mp h).ends with ⟨inside, stop, rfl, _⟩
    simp
  rw [Layout.normalize_eq_iff h h']
  constructor
  · intro hshown
    exact Token.dumps_inj (hne h) (hne h') hshown
  · rintro rfl
    rfl

/-- A tab for a space and blanks before a newline are not shown, but a further space before the end
of the file is. -/
theorem text_tokens_of_blanks :
    ∃ shown shown' shown'', (text .tokens "a\t\n\t1").result = .ok shown ∧
      (text .tokens "a\n 1").result = .ok shown' ∧ (text .tokens "a\n 1 ").result = .ok shown'' ∧
      shown = shown' ∧ shown' ≠ shown'' := by
  have h : (Token.tokenize "a\t\n\t1").result =
      .ok [⟨.identifier, "a", ⟨1, 1⟩⟩, ⟨.number, "1", ⟨2, 2⟩⟩, .endOfFile ⟨2, 3⟩] :=
    Token.tokenize_of_isRecognized (by decide +kernel)
  have h' : (Token.tokenize "a\n 1").result =
      .ok [⟨.identifier, "a", ⟨1, 1⟩⟩, ⟨.number, "1", ⟨2, 2⟩⟩, .endOfFile ⟨2, 3⟩] :=
    Token.tokenize_of_isRecognized (by decide +kernel)
  have h'' : (Token.tokenize "a\n 1 ").result =
      .ok [⟨.identifier, "a", ⟨1, 1⟩⟩, ⟨.number, "1", ⟨2, 2⟩⟩, .endOfFile ⟨2, 4⟩] :=
    Token.tokenize_of_isRecognized (by decide +kernel)
  rcases text_tokens_eq_iff h h' with ⟨shown, shown', htext, htext', hsame⟩
  rcases text_tokens_eq_iff h' h'' with ⟨other, shown'', hother, htext'', hdiffer⟩
  obtain rfl : shown' = other := Except.ok.inj (htext'.symm.trans hother)
  refine ⟨shown, shown', shown'', htext, htext', htext'', hsame.mpr (by decide), ?_⟩
  intro heq
  exact absurd (hdiffer.mp heq) (by decide)

end Run

end Abacus
