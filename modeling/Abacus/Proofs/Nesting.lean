import Abacus.Proofs.Moves

/-!
# Bounds of the descent

Whatever the tokens are, the descent keeps to its limits.

1. `State.Sound` is kept by every move, so it holds in every state of a run (`sound_run`).
2. A call that ends well hands its expression to the calls that waited when it began, so it leaves
   the count as it was (`Succeeds.depth_eq`).
3. A descent that gives up beyond `maxNesting + 1` active expressions never does so
   (`runWithin_eq_run`).
4. All of this together, for any tokens, is `bounded_descent`.
-/

namespace Abacus.Descent

/-! ## All states of a run -/

/-- What holds in every state of a run. -/
structure State.Sound (tokens : List Token) (s : State) : Prop where
  placed : s.Placed
  balanced : (∀ result, s.control ≠ .done result) → s.Balanced tokens
  depth_le : s.depth ≤ maxNesting
  cursor_le : s.cursor ≤ tokens.findIdx Token.isEnd
  /-- Each round has gone over a token, or has still to. -/
  rounds_le_reach : s.rounds ≤ s.reach
  rounds_le : s.rounds ≤ tokens.findIdx Token.isEnd

section Sound

variable {tokens : List Token} {s s' : State}

theorem sound_start (tokens : List Token) : start.Sound tokens where
  placed := ⟨rfl, rfl⟩
  balanced := fun _ => rfl
  depth_le := Nat.zero_le _
  cursor_le := Nat.zero_le _
  rounds_le_reach := Nat.le_refl 0
  rounds_le := Nat.zero_le _

/-- What is running after a move was running before it. -/
theorem Move.running (h : Move tokens s s') (hrunning : ∀ result, s'.control ≠ .done result) :
    ∀ result, s.control ≠ .done result := by
  intro result hdone
  cases h with
  | stay _ _ => exact hrunning result hdone
  | finish before result _ _ _ => exact hrunning result rfl
  -- all other moves begin in a state in which something is still to be done
  | _ => simp_all

theorem State.Sound.move (h : s.Sound tokens) (hmove : Move tokens s s') : s'.Sound tokens where
  placed := h.placed.move hmove
  balanced := fun hrunning =>
    hmove.balanced h.placed (h.balanced (hmove.running hrunning)) hrunning
  depth_le := by
    rcases hmove.depth_le with hle | hle
    · exact hle.trans h.depth_le
    · exact hle
  cursor_le := by
    rcases hmove.cursor_eq with hcursor | ⟨hend, hcursor⟩
    · exact hcursor ▸ h.cursor_le
    · rw [hcursor]
      exact cursor_lt_findIdx h.cursor_le hend
  rounds_le_reach := by
    have hrounds := h.rounds_le_reach
    have hreach := hmove.reach_le
    rcases hmove.rounds_eq with heq | ⟨_, hbefore, hafter, heq⟩ <;> omega
  rounds_le := by
    rcases hmove.rounds_eq with heq | ⟨hend, hbefore, _, heq⟩
    · exact heq ▸ h.rounds_le
    · have hrounds := h.rounds_le_reach
      have hlt := cursor_lt_findIdx h.cursor_le hend
      omega

theorem sound_run (tokens : List Token) (n : Nat) : (run tokens n).Sound tokens := by
  induction n with
  | zero => exact sound_start tokens
  | succ n ih => exact ih.move (move_step tokens _)

theorem State.Sound.active_le (h : s.Sound tokens) : s.active ≤ maxNesting + 1 :=
  h.placed.active_le.trans (Nat.succ_le_succ h.depth_le)

/-- Behind two opening parentheses three expressions are active. -/
example : (run (List.replicate 2 ⟨.openParen, "(", ⟨1, 1⟩⟩) 11).active = 3 := by decide

end Sound

/-- The limit on active expressions is never met, so giving up beyond it changes nothing. -/
theorem runWithin_eq_run (tokens : List Token) (n : Nat) :
    runWithin (maxNesting + 1) tokens n = some (run tokens n) := by
  induction n with
  | zero => rfl
  | succ n ih =>
    have hactive := (sound_run tokens n).active_le
    rw [runWithin, ih, Option.bind_some, stepWithin, if_neg]
    · rfl
    · rintro ⟨_, hlt⟩
      omega

/-! ## Calls that end well -/

section Calls

variable {tokens : List Token} {s s' : State} {call : Call}

theorem Reaches.sound (h : Reaches tokens start s) : s.Sound tokens := by
  obtain ⟨n, rfl⟩ := h
  exact sound_run tokens n

/-- When a primary is called, the count is the number of groupings that wait for it, and of those
that the tokens before the cursor have opened and not closed. -/
theorem State.Sound.counted (h : s.Sound tokens) (hcontrol : s.control = .enter call) :
    s.depth = s.groups ∧ s.Balanced tokens := by
  constructor
  · exact (h.placed.of_enter hcontrol).groups_eq.symm
  · apply h.balanced
    intro result hdone
    exact absurd (hcontrol.symm.trans hdone) (by simp)

theorem Succeeds.reaches (h : Succeeds tokens s s') : Reaches tokens s s' := by
  obtain ⟨n, hafter, _⟩ := h
  exact ⟨n, hafter⟩

/-- The same calls wait before and after a call that ends well, so the same groupings are open. -/
theorem Succeeds.depth_eq (h : Succeeds tokens s s') (hs : s.Sound tokens) (hs' : s'.Sound tokens)
    (hcontrol : s.control = .enter call) : s'.depth = s.depth := by
  obtain ⟨n, _, ⟨hstack, e, hleave⟩, _⟩ := h
  obtain ⟨call', hcallers⟩ := hs'.placed.of_leave hleave
  have hafter := hcallers.groups_eq
  rw [hstack] at hafter
  exact hafter.symm.trans (hs.placed.of_enter hcontrol).groups_eq

/-- A call reaches behind the next token from its beginning on. -/
theorem Succeeds.cursor_lt (h : Succeeds tokens s s') (hcontrol : s.control = .enter call) :
    s.cursor < s'.cursor := by
  obtain ⟨n, rfl, ⟨_, e, hleave⟩, _⟩ := h
  have hreach := reach_le_after tokens s n
  rw [reach_of_enter hcontrol, reach_of_leave hleave] at hreach
  exact hreach

end Calls

/-- Whatever the tokens are, every state of the descent keeps to the limits.  At most `maxNesting`
groupings are counted and at most `maxNesting + 1` expressions are active, the cursor never goes over
the first end of file, and the loop over the statements has had no more rounds than there are tokens.
When a primary is called, the count is that of the groupings which are open; and a call that ends
well leaves the count as it was and the cursor behind at least one more token.  The descent comes to
the end that the readers come to, and so does one that gives up rather than have more than
`maxNesting + 1` expressions active. -/
theorem bounded_descent (tokens : List Token) :
    (∀ s, Reaches tokens start s →
      s.depth ≤ maxNesting ∧ s.active ≤ maxNesting + 1 ∧
      s.cursor ≤ tokens.findIdx Token.isEnd ∧ s.rounds ≤ tokens.length ∧
      (s.control = .enter .primary →
        s.depth = s.groups ∧
        openings (tokens.take s.cursor) = closings (tokens.take s.cursor) + s.depth) ∧
      ∀ call s', s.control = .enter call → Succeeds tokens s s' →
        s'.depth = s.depth ∧ s.cursor < s'.cursor ∧
        s'.cursor ≤ tokens.findIdx Token.isEnd) ∧
    ∃ n, (run tokens n).ending? = some (Program.ofTokens tokens) ∧
      (runWithin (maxNesting + 1) tokens n).bind State.ending? =
        some (Program.ofTokens tokens) := by
  constructor
  · intro s hreaches
    have hsound := hreaches.sound
    refine ⟨hsound.depth_le, hsound.active_le, hsound.cursor_le,
      hsound.rounds_le.trans List.findIdx_le_length, hsound.counted, ?_⟩
    intro call s' hcontrol hsucceeds
    have hsound' := (hreaches.trans hsucceeds.reaches).sound
    exact ⟨hsucceeds.depth_eq hsound hsound' hcontrol, hsucceeds.cursor_lt hcontrol,
      hsound'.cursor_le⟩
  · obtain ⟨n, hending⟩ := exists_ending tokens
    refine ⟨n, hending, ?_⟩
    rw [runWithin_eq_run, Option.bind_some, hending]

/-- In `(a)` the primary that opens the grouping is called after five steps, and thirteen steps later
it has gone over all three tokens. -/
theorem bounded_descent_of_group :
    let tokens : List Token :=
      [⟨.openParen, "(", ⟨1, 1⟩⟩, ⟨.identifier, "a", ⟨1, 2⟩⟩, ⟨.closeParen, ")", ⟨1, 3⟩⟩]
    (Reaches tokens start (run tokens 5) ∧ (run tokens 5).control = .enter .primary ∧
      Succeeds tokens (run tokens 5) (run tokens 18)) ∧
    (run tokens 18).depth = (run tokens 5).depth ∧
    (run tokens 5).cursor < (run tokens 18).cursor ∧
    (run tokens 18).cursor ≤ tokens.findIdx Token.isEnd := by
  intro tokens
  have hreaches : Reaches tokens start (run tokens 5) := ⟨5, rfl⟩
  have hcontrol : (run tokens 5).control = .enter .primary := by cbv
  have hstack : (run tokens 18).stack = (run tokens 5).stack := by cbv
  have hleave : (run tokens 18).control = .leave (.name "a") := by cbv
  -- until then the grouping waits on top of the calls that waited before
  have hlonger : ∀ m < 13, m = 0 ∨
      (run tokens 5).stack.length < ((run tokens 5).after tokens m).stack.length := by decide
  have hsucceeds : Succeeds tokens (run tokens 5) (run tokens 18) := by
    refine ⟨13, State.after_add tokens start 5 13, ⟨hstack, _, hleave⟩, ?_⟩
    rintro m hm ⟨hsame, e, hearlier⟩
    rcases hlonger m hm with rfl | hlt
    · exact absurd (hcontrol.symm.trans hearlier) (by simp)
    · rw [hsame] at hlt
      exact Nat.lt_irrefl _ hlt
  exact ⟨⟨hreaches, hcontrol, hsucceeds⟩,
    ((bounded_descent tokens).1 (run tokens 5) hreaches).2.2.2.2.2 .primary _ hcontrol hsucceeds⟩

end Abacus.Descent
