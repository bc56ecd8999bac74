import Mathlib.Data.List.Basic
import Mathlib.Logic.Function.Basic

namespace Vanilla

/-! Recovering groups from a flat sequence in one pass: each header opens a
group, the members up to the next header belong to it. Headers and members are
numbered in order; a group is its size and the number of its first member. -/

inductive Mark where
  | header
  | member
  | other
deriving DecidableEq

structure Grouping where
  headers : Nat
  members : Nat
  size : Nat → Nat
  first : Nat → Nat

namespace Grouping

/-- One element; a member before every header has no group. -/
def add (grouping : Grouping) : Mark → Option Grouping
  | .header => some { grouping with
      headers := grouping.headers + 1
      size := Function.update grouping.size grouping.headers 0 }
  | .member =>
      if grouping.headers = 0 then none
      else
        let last := grouping.headers - 1
        some { grouping with
          members := grouping.members + 1
          size := Function.update grouping.size last (grouping.size last + 1)
          first := if grouping.size last = 0 then
              Function.update grouping.first last grouping.members
            else grouping.first }
  | .other => some grouping

/-- The members before the next header. -/
def groupSize : List Mark → Nat
  | [] => 0
  | .header :: _ => 0
  | .member :: rest => groupSize rest + 1
  | .other :: rest => groupSize rest

theorem groupSize_snoc (mark : Mark) :
    ∀ marks : List Mark, groupSize (marks ++ [mark]) =
      if .header ∈ marks then groupSize marks
      else groupSize marks + if mark = .member then 1 else 0
  | [] => by cases mark <;> rfl
  | .header :: rest => by simp [groupSize]
  | .member :: rest => by
      simp only [List.cons_append, groupSize, groupSize_snoc mark rest, List.mem_cons,
        reduceCtorEq, false_or]
      split <;> omega
  | .other :: rest => by
      simp only [List.cons_append, groupSize, groupSize_snoc mark rest, List.mem_cons,
        reduceCtorEq, false_or]

/-- Without a header every member is in the group. -/
theorem groupSize_of_not_mem : ∀ {marks : List Mark}, .header ∉ marks →
    groupSize marks = marks.count .member
  | [], _ => rfl
  | .header :: rest, closed => absurd List.mem_cons_self closed
  | .member :: rest, closed => by
      rw [groupSize, groupSize_of_not_mem (List.not_mem_of_not_mem_cons closed),
        List.count_cons_self]
  | .other :: rest, closed => by
      rw [groupSize, groupSize_of_not_mem (List.not_mem_of_not_mem_cons closed),
        List.count_cons_of_ne (by decide)]

/-- The groups of the elements so far. -/
structure Groups (marks : List Mark) (grouping : Grouping) : Prop where
  headers : grouping.headers = marks.count .header
  members : grouping.members = marks.count .member
  size : ∀ before after, marks = before ++ .header :: after →
    grouping.size (before.count .header) = groupSize after
  first : ∀ before after, marks = before ++ .header :: after → 0 < groupSize after →
    grouping.first (before.count .header) = before.count .member

theorem Groups.empty (size first : Nat → Nat) : Groups [] ⟨0, 0, size, first⟩ where
  headers := rfl
  members := rfl
  size := fun before after split => absurd split.symm (by simp)
  first := fun before after split => absurd split.symm (by simp)

/-- Where an element can stand after one more at the end. -/
theorem split_snoc {Element : Type} {elements before after : List Element}
    {last chosen : Element} (split : elements ++ [last] = before ++ chosen :: after) :
    (after = [] ∧ before = elements ∧ last = chosen) ∨
      ∃ shorter, after = shorter ++ [last] ∧ elements = before ++ chosen :: shorter := by
  rcases List.eq_nil_or_concat after with rfl | ⟨shorter, final, rfl⟩
  · have parts := List.append_inj' split rfl
    exact .inl ⟨rfl, parts.1.symm, List.singleton_inj.mp parts.2⟩
  · rw [List.concat_eq_append, ← List.cons_append, ← List.append_assoc] at split
    have parts := List.append_inj' split rfl
    have same : last = final := List.singleton_inj.mp parts.2
    exact .inr ⟨shorter, by rw [List.concat_eq_append, same], parts.1⟩

/-- Any other element than the last one stands before it. -/
theorem split_snoc_of_ne {Element : Type} {elements before after : List Element}
    {last chosen : Element} (split : elements ++ [last] = before ++ chosen :: after)
    (different : last ≠ chosen) :
    ∃ shorter, after = shorter ++ [last] ∧ elements = before ++ chosen :: shorter :=
  (split_snoc split).resolve_left fun atEnd => different atEnd.2.2

theorem count_header_lt {marks before after : List Mark}
    (split : marks = before ++ .header :: after) :
    before.count .header + after.count .header + 1 = marks.count .header := by
  rw [split, List.count_append, List.count_cons_self, Nat.add_assoc]

theorem Groups.add {marks : List Mark} {grouping next : Grouping} {mark : Mark}
    (groups : Groups marks grouping) (added : grouping.add mark = some next) :
    Groups (marks ++ [mark]) next := by
  cases mark with
  | header =>
      cases Option.some.inj added
      have older : ∀ before after, marks = before ++ .header :: after →
          before.count .header ≠ grouping.headers := by
        intro before after split same
        have count := count_header_lt split
        rw [← groups.headers] at count
        omega
      refine ⟨by simp [groups.headers], by simp [groups.members], ?_, ?_⟩
      · intro before after split
        cases split_snoc split with
        | inl last =>
            rw [last.1, last.2.1, ← groups.headers, groupSize]
            exact Function.update_self ..
        | inr early =>
            rcases early with ⟨shorter, rfl, old⟩
            change Function.update grouping.size grouping.headers 0 _ = _
            rw [Function.update_of_ne (older before shorter old), groups.size _ _ old,
              groupSize_snoc]
            simp
      · intro before after split positive
        cases split_snoc split with
        | inl last =>
            rw [last.1] at positive
            exact absurd positive (Nat.lt_irrefl 0)
        | inr early =>
            rcases early with ⟨shorter, rfl, old⟩
            apply groups.first before shorter old
            rw [groupSize_snoc] at positive
            simpa using positive
  | member =>
      by_cases none_ : grouping.headers = 0
      · rw [Grouping.add, if_pos none_] at added
        cases added
      · rw [Grouping.add, if_neg none_] at added
        cases Option.some.inj added
        refine ⟨by simp [groups.headers], by simp [groups.members], ?_, ?_⟩
        · intro before after split
          rcases split_snoc_of_ne split (by decide) with ⟨shorter, rfl, old⟩
          have count := count_header_lt old
          rw [← groups.headers] at count
          rw [groupSize_snoc]
          by_cases closed : .header ∈ shorter
          · have later := List.count_pos_iff.mpr closed
            rw [if_pos closed, ← groups.size before shorter old]
            exact Function.update_of_ne (by omega) ..
          · have none_later := List.count_eq_zero.mpr closed
            have last : before.count .header = grouping.headers - 1 := by omega
            rw [if_neg closed, if_pos rfl, ← groups.size before shorter old, last]
            exact Function.update_self ..
        · intro before after split positive
          rcases split_snoc_of_ne split (by decide) with ⟨shorter, rfl, old⟩
          have count := count_header_lt old
          rw [← groups.headers] at count
          rw [groupSize_snoc] at positive
          change (if grouping.size (grouping.headers - 1) = 0 then
              Function.update grouping.first (grouping.headers - 1) grouping.members
            else grouping.first) (before.count .header) = _
          by_cases closed : .header ∈ shorter
          · have later := List.count_pos_iff.mpr closed
            have other : before.count .header ≠ grouping.headers - 1 := by omega
            rw [if_pos closed] at positive
            have kept := groups.first before shorter old positive
            by_cases fresh : grouping.size (grouping.headers - 1) = 0
            · rw [if_pos fresh, Function.update_of_ne other]
              exact kept
            · rw [if_neg fresh]
              exact kept
          · have none_later := List.count_eq_zero.mpr closed
            have last : before.count .header = grouping.headers - 1 := by omega
            have size := groups.size before shorter old
            rw [last] at size
            rw [last]
            by_cases fresh : grouping.size (grouping.headers - 1) = 0
            · have noMember := groupSize_of_not_mem closed
              rw [if_pos fresh, Function.update_self, groups.members, old,
                List.count_append, List.count_cons_of_ne (by decide), ← noMember, ← size,
                fresh, Nat.add_zero]
            · rw [if_neg fresh, ← last]
              exact groups.first before shorter old (by omega)
  | other =>
      cases Option.some.inj added
      refine ⟨by simp [groups.headers], by simp [groups.members], ?_, ?_⟩
      · intro before after split
        rcases split_snoc_of_ne split (by decide) with ⟨shorter, rfl, old⟩
        rw [groups.size before shorter old, groupSize_snoc]
        simp
      · intro before after split positive
        rcases split_snoc_of_ne split (by decide) with ⟨shorter, rfl, old⟩
        apply groups.first before shorter old
        rw [groupSize_snoc] at positive
        simpa using positive

end Grouping

end Vanilla
