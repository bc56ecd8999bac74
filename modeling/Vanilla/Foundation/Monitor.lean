import Mathlib.Init

/-! # A monitor of a log

A party on the other side of a link is a state that each event moves on. A log is
clean when every event was legal for the state that the events before it have
brought about.
-/

namespace Vanilla

variable {Party Event : Type} (after : Party → Event → Party) (Legal : Party → Event → Prop)
  (start : Party)

def partyAfter (log : List Event) : Party := log.foldl after start

def Clean (log : List Event) : Prop :=
  ∀ early event later, log = early ++ event :: later → Legal (partyAfter after start early) event

variable {after Legal start} {log : List Event} {event : Event}

theorem partyAfter_snoc :
    partyAfter after start (log ++ [event]) = after (partyAfter after start log) event := by
  rw [partyAfter, List.foldl_append]
  rfl

theorem clean_nil : Clean after Legal start [] := by
  intro early event later split
  cases early <;> cases split

theorem Clean.of_append {rest : List Event} (clean : Clean after Legal start (log ++ rest)) :
    Clean after Legal start log := by
  intro early other later split
  apply clean early other (later ++ rest)
  rw [split, List.append_assoc, List.cons_append]

theorem clean_cons : Clean after Legal start (event :: log) ↔
    Legal start event ∧ Clean after Legal (after start event) log := by
  constructor
  · intro clean
    refine ⟨clean [] event log rfl, fun early other later split => ?_⟩
    exact clean (event :: early) other later (congrArg (List.cons event) split)
  · rintro ⟨legal, clean⟩ early other later split
    cases early with
    | nil =>
        cases split
        exact legal
    | cons first early =>
        cases split
        exact clean early other later rfl

/-- A log is checked event by event. -/
instance decidableClean [∀ party event, Decidable (Legal party event)] :
    ∀ (log : List Event) (start : Party), Decidable (Clean after Legal start log)
  | [], _ => .isTrue clean_nil
  | _ :: log, _ =>
      have := decidableClean log
      decidable_of_iff _ clean_cons.symm

/-- What is logged last is judged by the state that all the others lead to. -/
theorem Clean.snoc (clean : Clean after Legal start log)
    (legal : Legal (partyAfter after start log) event) :
    Clean after Legal start (log ++ [event]) := by
  intro early other later split
  rcases List.eq_nil_or_concat later with rfl | ⟨rest, last, rfl⟩
  · obtain ⟨rfl, same⟩ := List.append_inj' split rfl
    cases same
    exact legal
  · have longer : log ++ [event] = (early ++ other :: rest) ++ [last] := by
      rw [split, List.concat_eq_append, List.append_assoc, List.cons_append]
    exact clean early other rest (List.append_inj' longer rfl).1

end Vanilla
