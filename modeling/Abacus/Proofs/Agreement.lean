import Abacus.Proofs.Segments
import Abacus.Proofs.Writing

/-!
# Programs that agree

Two programs agree if they have the same shape with equal numbers in it, and numbers are compared as
doubles are: what is not a number equals nothing.

1. Agreement goes both ways and from one program to the next, because the equality of doubles does
   (`Expr.agrees_symm`, `Expr.agrees_trans`, `Program.beq_symm`, `Program.beq_trans`).
2. A program agrees with itself exactly if all of its numbers are numbers (`Expr.agrees_self_iff`,
   `Program.beq_self_iff`).
3. Digits always stand for a number (`Numeral.StandsFor.isNaN_eq_false`), and a source has no other
   way to write one.  So the programs of sources agree with themselves.
-/

namespace Abacus

namespace Expr

/-- The numbers in an expression, from left to right. -/
def numbers : Expr → List Float
  | .number x => [x]
  | .binary _ l r => l.numbers ++ r.numbers
  | _ => []

/-- Whether every number in an expression is one. -/
def IsNumeric (e : Expr) : Prop := ∀ x ∈ e.numbers, x.isNaN = false

theorem isNumeric_binary {op : Op} {l r : Expr} :
    (binary op l r).IsNumeric ↔ l.IsNumeric ∧ r.IsNumeric :=
  List.forall_mem_append

/-! ## Trees -/

/-- Two operators agree if they are the same and their operands agree. -/
theorem agrees_binary {p q : Op} {l r l' r' : Expr} :
    (binary p l r).agrees (binary q l' r') = true ↔
      p = q ∧ l.agrees l' = true ∧ r.agrees r' = true := by
  simp [agrees, and_assoc]

theorem agrees_symm {a b : Expr} (h : a.agrees b = true) : b.agrees a = true := by
  induction a generalizing b with
  | number x =>
    cases b with
    | number y => exact BEq.symm h
    | _ => exact absurd h (by simp [agrees])
  | name text =>
    cases b with
    | name text' => exact BEq.symm h
    | _ => exact absurd h (by simp [agrees])
  | null =>
    cases b with
    | null => rfl
    | _ => exact absurd h (by simp [agrees])
  | binary op l r ihl ihr =>
    cases b with
    | binary op' l' r' =>
      rcases agrees_binary.mp h with ⟨hop, hl, hr⟩
      exact agrees_binary.mpr ⟨hop.symm, ihl hl, ihr hr⟩
    | _ => exact absurd h (by simp [agrees])

theorem agrees_trans {a b c : Expr} (hab : a.agrees b = true) (hbc : b.agrees c = true) :
    a.agrees c = true := by
  induction a generalizing b c with
  | number x =>
    cases b with
    | number y =>
      cases c with
      | number z => exact BEq.trans hab hbc
      | _ => exact absurd hbc (by simp [agrees])
    | _ => exact absurd hab (by simp [agrees])
  | name text =>
    cases b with
    | name text' =>
      cases c with
      | name text'' => exact BEq.trans hab hbc
      | _ => exact absurd hbc (by simp [agrees])
    | _ => exact absurd hab (by simp [agrees])
  | null =>
    cases b with
    | null => exact hbc
    | _ => exact absurd hab (by simp [agrees])
  | binary op l r ihl ihr =>
    cases b with
    | binary op' l' r' =>
      cases c with
      | binary op'' l'' r'' =>
        rcases agrees_binary.mp hab with ⟨hop, hl, hr⟩
        rcases agrees_binary.mp hbc with ⟨hop', hl', hr'⟩
        exact agrees_binary.mpr ⟨hop.trans hop', ihl hl hl', ihr hr hr'⟩
      | _ => exact absurd hbc (by simp [agrees])
    | _ => exact absurd hab (by simp [agrees])

instance : PartialEquivBEq Expr := ⟨agrees_symm, agrees_trans⟩

/-- By induction on the tree: only the numbers can keep a tree from agreeing with itself. -/
theorem agrees_self_iff (e : Expr) : e.agrees e = true ↔ e.IsNumeric := by
  induction e with
  | number x => simp [agrees, IsNumeric, numbers]
  | name text => simp [agrees, IsNumeric, numbers]
  | null => simp [agrees, IsNumeric, numbers]
  | binary op l r ihl ihr => rw [agrees_binary, isNumeric_binary, ihl, ihr, and_iff_right rfl]

end Expr

/-! ## Programs -/

namespace Program

variable {p q r : Program}

/-- Programs agree statement by statement. -/
theorem beq_iff_forall₂ :
    (p == q) = true ↔ List.Forall₂ (fun a b : Expr => (a == b) = true) p q := by
  induction p generalizing q with
  | nil =>
    cases q with
    | nil => simp
    | cons b q => simp
  | cons a p ih =>
    cases q with
    | nil => simp
    | cons b q => rw [List.cons_beq_cons, Bool.and_eq_true, List.forall₂_cons, ih]

theorem beq_symm (h : (p == q) = true) : (q == p) = true := by
  rw [beq_iff_forall₂] at *
  exact h.flip.imp fun _ _ => BEq.symm

theorem beq_trans (hpq : (p == q) = true) (hqr : (q == r) = true) : (p == r) = true := by
  rw [beq_iff_forall₂] at *
  induction hpq generalizing r with
  | nil => exact hqr
  | cons hfirst _ ih =>
    cases hqr with
    | cons hfirst' hothers => exact .cons (BEq.trans hfirst hfirst') (ih hothers)

theorem beq_self_iff : (p == p) = true ↔ ∀ e ∈ p, e.IsNumeric := by
  rw [beq_iff_forall₂, List.forall₂_same]
  exact forall₂_congr fun e _ => e.agrees_self_iff

end Program

/-! ## Sources -/

/-- A double up to infinity is a number. -/
theorem Binary64.isNaN_ofNumber {n : Nat} (h : n ≤ infinity) :
    (ofNumber false n).isNaN = false := by
  rw [Float.isNaN_eq_decide_eq_nan, decide_eq_false_iff_not]
  intro hnan
  have hnumber := number_ofNumber h
  have hlarge : infinity < number Float.nan := by decide +kernel
  rw [hnan] at hnumber
  omega

theorem Numeral.StandsFor.isNaN_eq_false {ds : List Char} {x : Float} (h : StandsFor ds x) :
    x.isNaN = false := by
  rcases h with ⟨hne, hdigits, hread⟩
  rw [read?_of_digits hne hdigits] at hread
  rw [← Option.some.inj hread]
  exact Binary64.isNaN_ofNumber (Decimal.nearest_le_infinity _)

theorem Expr.HasWritableParts.isNumeric {e : Expr} (h : e.HasWritableParts) : e.IsNumeric := by
  induction e with
  | number x =>
    rcases exists_standsFor h with ⟨ds, hstands⟩
    simpa [IsNumeric, numbers] using hstands.isNaN_eq_false
  | name text => simp [IsNumeric, numbers]
  | null => simp [IsNumeric, numbers]
  | binary op l r ihl ihr => exact isNumeric_binary.mpr ⟨ihl h.1, ihr h.2⟩

theorem Run.isNumeric_of_program {source : String} {p : Program}
    (h : (program source).result = .ok p) : ∀ e ∈ p, e.IsNumeric := by
  rcases program_eq_ok_iff.mp h with ⟨hchars, hprogram⟩
  intro e he
  exact (hprogram.isWritable (Token.fits_of_mem_ofSource hchars) e he).1.isNumeric

/-- Agreement of programs goes both ways and from one program to the next, and a program agrees with
itself exactly if it has no number, at any depth, that is none.  The program of a source has none,
so a source that is read twice comes to programs that agree. -/
theorem Program.agreement_of_programs :
    (∀ p q : Program, (p == q) = true → (q == p) = true) ∧
    (∀ p q r : Program, (p == q) = true → (q == r) = true → (p == r) = true) ∧
    (∀ p : Program, (p == p) = true ↔ ∀ e ∈ p, ∀ x ∈ e.numbers, x.isNaN = false) ∧
    ∀ (source : String) (p q : Program), (Run.program source).result = .ok p →
      (Run.program source).result = .ok q →
      (∀ e ∈ p, ∀ x ∈ e.numbers, x.isNaN = false) ∧ (p == q) = true := by
  refine ⟨fun _ _ => beq_symm, fun _ _ _ => beq_trans, fun _ => beq_self_iff, ?_⟩
  intro source p q hp hq
  obtain rfl : p = q := Except.ok.inj (hp.symm.trans hq)
  have hnumeric := Run.isNumeric_of_program hp
  exact ⟨hnumeric, beq_self_iff.mpr hnumeric⟩

/-- The two zeros agree, and what is not a number does not agree with itself.  A number token can
stand for that, but no source has such a token. -/
theorem Program.agreement_of_zeros :
    let zeros : Program := [.binary .plus (.number 0) (.number (-0))]
    let others : Program := [.binary .plus (.number (-0)) (.number 0)]
    (zeros == others) = true ∧ (others == zeros) = true ∧ (zeros == zeros) = true ∧
      (∃ p, (ofTokens [⟨.number, "nan", .start⟩]).result = .ok p ∧ (p == p) = false) ∧
      ∃ p, (Run.program "0").result = .ok p ∧ (p == p) = true := by
  intro zeros others
  rcases agreement_of_programs with ⟨hsymm, htrans, hself, hsource⟩
  have hzeros : (zeros == others) = true := by decide +kernel
  have hothers := hsymm zeros others hzeros
  have hread : Numeral.read? "nan" = some Binary64.notANumber := by decide +kernel
  have hnan : (ofTokens [⟨.number, "nan", .start⟩]).result = .ok [.number Binary64.notANumber] :=
    ofTokens_of_derives (.ofProduct (.ofFactor (.number rfl hread)))
  have hzero : (Run.program "0").result = .ok [.number 0] :=
    Run.program_of_number (by decide +kernel) (by decide +kernel) rfl
  refine ⟨hzeros, hothers, htrans _ _ _ hzeros hothers, ⟨_, hnan, ?_⟩, _, hzero, ?_⟩
  · rw [Bool.eq_false_iff, ne_eq, hself]
    intro hall
    have hnumber := hall (.number Binary64.notANumber) (List.mem_singleton_self _)
      Binary64.notANumber (List.mem_singleton_self _)
    exact absurd hnumber (by decide +kernel)
  · exact (hsource "0" _ _ hzero hzero).2

end Abacus
