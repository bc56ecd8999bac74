import Mathlib.Logic.Function.Basic

namespace Vanilla

/-! A write-back cache of a single line over a backing store. What the pair
stores is the backing contents overlaid with the line where it is dirty. -/

structure WriteBack (Key Value : Type) where
  backing : Key → Value
  tag : Key
  line : Value
  dirty : Bool

namespace WriteBack

variable {Key Value : Type} [DecidableEq Key]

def logical (cache : WriteBack Key Value) : Key → Value :=
  if cache.dirty then Function.update cache.backing cache.tag cache.line
  else cache.backing

/-- A clean line is a copy of the key it is tagged with. Nothing is cached
under `blank`, the tag of a line that was never filled. -/
def Coherent (blank : Key) (cache : WriteBack Key Value) : Prop :=
  cache.dirty = false → cache.tag ≠ blank → cache.line = cache.backing cache.tag

def writtenBack (cache : WriteBack Key Value) : WriteBack Key Value :=
  { cache with
    backing := Function.update cache.backing cache.tag cache.line
    dirty := false }

def filled (cache : WriteBack Key Value) (key : Key) : WriteBack Key Value :=
  { cache with tag := key, line := cache.backing key }

def stored (cache : WriteBack Key Value) (value : Value) : WriteBack Key Value :=
  { cache with line := value, dirty := true }

variable {cache : WriteBack Key Value} {blank : Key}

theorem logical_of_clean (clean : cache.dirty = false) : cache.logical = cache.backing := by
  simp [logical, clean]

theorem logical_of_dirty (dirty : cache.dirty = true) :
    cache.logical = Function.update cache.backing cache.tag cache.line := by
  simp [logical, dirty]

omit [DecidableEq Key] in
theorem Coherent.of_dirty (dirty : cache.dirty = true) : cache.Coherent blank := by
  intro clean
  rw [dirty] at clean
  cases clean

theorem line_eq_logical (coherent : cache.Coherent blank) (used : cache.tag ≠ blank) :
    cache.line = cache.logical cache.tag := by
  cases dirty : cache.dirty with
  | true => simp [logical_of_dirty dirty]
  | false => rw [logical_of_clean dirty, coherent dirty used]

theorem logical_writtenBack (cache : WriteBack Key Value) (dirty : cache.dirty = true) :
    cache.writtenBack.logical = cache.logical := by
  rw [logical_of_dirty dirty]
  exact logical_of_clean rfl

theorem coherent_writtenBack (cache : WriteBack Key Value) : cache.writtenBack.Coherent blank := by
  intro _ _
  simp [writtenBack]

theorem logical_filled (cache : WriteBack Key Value) (clean : cache.dirty = false) (key : Key) :
    (cache.filled key).logical = cache.logical := by
  rw [logical_of_clean clean]
  exact logical_of_clean clean

omit [DecidableEq Key] in
theorem coherent_filled (cache : WriteBack Key Value) (key : Key) :
    (cache.filled key).Coherent blank :=
  fun _ _ => rfl

theorem logical_stored (cache : WriteBack Key Value) (value : Value) :
    (cache.stored value).logical = Function.update cache.logical cache.tag value := by
  rw [logical_of_dirty rfl]
  cases dirty : cache.dirty with
  | true => simp [stored, logical_of_dirty dirty]
  | false => simp [stored, logical_of_clean dirty]

/-- While the logical contents stay as they are, a dirty line is still in the
cache or has reached the backing store. -/
theorem dirty_kept (cache after : WriteBack Key Value) (same : after.logical = cache.logical)
    (dirty : cache.dirty = true) :
    (after.dirty = true ∧ after.tag = cache.tag ∧ after.line = cache.line) ∨
      after.backing cache.tag = cache.line := by
  have value : after.logical cache.tag = cache.line := by
    rw [same, logical_of_dirty dirty, Function.update_self]
  cases late : after.dirty with
  | false =>
      rw [logical_of_clean late] at value
      exact .inr value
  | true =>
      rw [logical_of_dirty late] at value
      by_cases tag : after.tag = cache.tag
      · rw [tag, Function.update_self] at value
        exact .inl ⟨rfl, tag, value⟩
      · rw [Function.update_of_ne (Ne.symm tag)] at value
        exact .inr value

end WriteBack

end Vanilla
