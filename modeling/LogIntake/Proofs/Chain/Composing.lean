import LogIntake.Proofs.Chain.Passing

/-!
Two rows of stages, one behind the other. As long as no stage breaks, it makes no difference whether each
entry goes through both rows before the next one comes, or all entries go through the front row and then
what left it goes through the back row: the same entries leave, and every stage ends in the same state.
-/
namespace LogIntake

def Passages.behind {σ : Type} (journal : List String) (out : Option Entry) (p : Passages σ) :
    Passages σ :=
  { p with journal := journal ++ p.journal, left := out.toList ++ p.left }

namespace Chain

/-- No stage broke, and what the whole row made of the entries is what the back made of what left the
front. Each part wrote the same lines in the same order. -/
structure Composes {σ : Type} (whole front back : Passages σ) : Prop where
  whole_unbroken : whole.failure = none
  front_unbroken : front.failure = none
  back_unbroken : back.failure = none
  stages : whole.stages = front.stages ++ back.stages
  left : whole.left = back.left
  journal : whole.journal.Perm (front.journal ++ back.journal)
  of_front : front.journal.Sublist whole.journal
  of_back : back.journal.Sublist whole.journal

namespace Composes

variable {σ : Type} {whole front back : Passages σ}

/-- The front kept the entry that came first, so the back did not see it. -/
theorem kept (h : Composes whole front back) (journal : List String) :
    Composes (whole.behind journal none) (front.behind journal none) back where
  whole_unbroken := h.whole_unbroken
  front_unbroken := h.front_unbroken
  back_unbroken := h.back_unbroken
  stages := h.stages
  left := h.left
  journal := by
    simp only [Passages.behind, List.append_assoc]
    exact h.journal.append_left journal
  of_front := h.of_front.append_left journal
  of_back := List.sublist_append_of_sublist_right h.of_back

/-- The entry that came first went on to the back. -/
theorem onward (h : Composes whole front back) (journal more : List String) (e : Entry)
    (out : Option Entry) :
    Composes (whole.behind (journal ++ more) out) (front.behind journal (some e))
      (back.behind more out) where
  whole_unbroken := h.whole_unbroken
  front_unbroken := h.front_unbroken
  back_unbroken := h.back_unbroken
  stages := h.stages
  left := congrArg (out.toList ++ ·) h.left
  journal := by
    have swapped : (more ++ front.journal).Perm (front.journal ++ more) := List.perm_append_comm
    simp only [Passages.behind, List.append_assoc]
    refine List.Perm.append_left journal ((h.journal.append_left more).trans ?_)
    simpa only [List.append_assoc] using swapped.append_right back.journal
  of_front := by
    simp only [Passages.behind, List.append_assoc]
    exact (List.sublist_append_of_sublist_right h.of_front).append_left journal
  of_back := by
    simp only [Passages.behind, List.append_assoc]
    exact List.sublist_append_of_sublist_right (h.of_back.append_left more)

end Composes

structure BothBreak {σ : Type} (whole front back : Passages σ) : Prop where
  whole_broken : whole.failure ≠ none
  part_broken : front.failure ≠ none ∨ back.failure ≠ none

variable {σ : Type} [Operator σ]

theorem passAll_cons_of_ok {e : Entry} {stages between : List (Stage σ)} {journal : List String}
    {out : Option Entry} (first : pass e stages = ⟨between, journal, .ok out⟩) (rest : List Entry) :
    passAll (e :: rest) stages = (passAll rest between).behind journal out := by
  simp only [passAll, first, Passages.behind]

theorem failure_passAll_cons_of_error {e : Entry} {stages last : List (Stage σ)}
    {journal : List String} {cause : Failure}
    (first : pass e stages = ⟨last, journal, .error cause⟩) (rest : List Entry) :
    (passAll (e :: rest) stages).failure ≠ none := by
  simp only [passAll, first, ne_eq, reduceCtorEq, not_false_eq_true]

theorem composes_or_bothBreak (entries : List Entry) (front back : List (Stage σ)) :
    Composes (passAll entries (front ++ back)) (passAll entries front)
        (passAll (passAll entries front).left back) ∨
      BothBreak (passAll entries (front ++ back)) (passAll entries front)
        (passAll (passAll entries front).left back) := by
  induction entries generalizing front back with
  | nil => exact .inl ⟨rfl, rfl, rfl, rfl, rfl, .refl _, .refl _, .refl _⟩
  | cons e rest ih =>
    cases inFront : pass e front with
    | mk front' journal outcome =>
      cases outcome with
      | error cause =>
        have whole : pass e (front ++ back) = ⟨front' ++ back, journal, .error cause⟩ := by
          simp only [pass_append, inFront]
        exact .inr ⟨failure_passAll_cons_of_error whole rest,
          .inl (failure_passAll_cons_of_error inFront rest)⟩
      | ok out =>
        cases out with
        | none =>
          have whole : pass e (front ++ back) = ⟨front' ++ back, journal, .ok none⟩ := by
            simp only [pass_append, inFront]
          rw [passAll_cons_of_ok whole, passAll_cons_of_ok inFront]
          exact (ih front' back).imp (·.kept journal) fun h => ⟨h.whole_broken, h.part_broken⟩
        | some e' =>
          cases inBack : pass e' back with
          | mk back' more outcome =>
            have whole : pass e (front ++ back) = ⟨front' ++ back', journal ++ more, outcome⟩ := by
              simp only [pass_append, inFront, inBack]
            -- the back sees this entry first, and then what the front lets through of the others
            have front_left : (passAll (e :: rest) front).left = e' :: (passAll rest front').left := by
              rw [passAll_cons_of_ok inFront]
              rfl
            rw [front_left]
            cases outcome with
            | error cause =>
              exact .inr ⟨failure_passAll_cons_of_error whole rest,
                .inr (failure_passAll_cons_of_error inBack _)⟩
            | ok out =>
              rw [passAll_cons_of_ok whole, passAll_cons_of_ok inFront, passAll_cons_of_ok inBack]
              exact (ih front' back').imp (·.onward journal more e' out) fun h =>
                ⟨h.whole_broken, h.part_broken⟩

/-- Entry by entry through both rows, or all entries through the front row and then what left it through
the back row: either a stage breaks both ways, or none does, and then the same entries leave in the same
order, all stages end in the same states, and each row writes the same lines in the same order. -/
theorem passAll_through_two_rows (entries : List Entry) (front back : List (Stage σ)) :
    let whole := passAll entries (front ++ back)
    let first := passAll entries front
    let second := passAll first.left back
    (whole.failure = none ↔ first.failure = none ∧ second.failure = none) ∧
    (whole.failure = none →
      whole.left = second.left ∧ whole.stages = first.stages ++ second.stages ∧
      whole.journal.Perm (first.journal ++ second.journal) ∧
      first.journal.Sublist whole.journal ∧ second.journal.Sublist whole.journal) := by
  obtain h | ⟨broken, part⟩ := composes_or_bothBreak entries front back
  · exact ⟨iff_of_true h.whole_unbroken ⟨h.front_unbroken, h.back_unbroken⟩,
      fun _ => ⟨h.left, h.stages, h.journal, h.of_front, h.of_back⟩⟩
  · have neither : ¬ ((passAll entries front).failure = none ∧
        (passAll (passAll entries front).left back).failure = none) :=
      fun ⟨first, second⟩ => part.elim (· first) (· second)
    exact ⟨iff_of_false broken neither, fun unbroken => absurd unbroken broken⟩

end Chain

/-- An operator that counts the entries that it sees, keeps every second one, and refuses errors. -/
structure Sieve where
  seen : Nat

namespace Sieve

instance : Operator Sieve where
  process e s :=
    { operator := ⟨s.seen + 1⟩
      journal := [Text.Numeral.text s.seen]
      outcome :=
        if e.severity = .error then .error (.invalidEntry ⟨"an error", []⟩)
        else if s.seen % 2 = 1 then .ok none
        else .ok (some { e with severityText := some (Text.Numeral.text s.seen) }) }

def stage (seen : Nat) : Stage Sieve := ⟨"sieve", "sieve", .intermediate, ⟨seen⟩⟩

def entries : List Entry := [{}, {}, { severity := .error }, {}, {}, {}]

theorem sieves_through_two_rows :
    (Chain.passAll entries ([stage 0] ++ [stage 1, stage 0])).failure = none ∧
    (Chain.passAll entries ([stage 0] ++ [stage 1, stage 0])).left =
      (Chain.passAll (Chain.passAll entries [stage 0]).left [stage 1, stage 0]).left ∧
    (Chain.passAll entries [stage 0]).stages = [stage 6] ∧
    (Chain.passAll entries ([stage 0] ++ [stage 1, stage 0])).stages =
      [stage 6] ++ [stage 3, stage 1] := by
  have unbroken : (Chain.passAll entries ([stage 0] ++ [stage 1, stage 0])).failure = none := rfl
  obtain ⟨-, composes⟩ := Chain.passAll_through_two_rows entries [stage 0] [stage 1, stage 0]
  obtain ⟨left, stages, -⟩ := composes unbroken
  exact ⟨unbroken, left, rfl, stages⟩

end Sieve

end LogIntake
