/-!
# Loops that end

A loop does one thing round after round, as long as a condition holds (`LoopEnds`). It has ended
when the condition fails (`not_again`), and what each of its rounds keeps then still holds
(`keeps`). A loop that does the same to other names of its values goes through the same rounds
(`map`).
-/

namespace RepoOrbit

/-- Doing `next` as long as `again` holds ends after a number of rounds, and has led from one
value to another. -/
inductive LoopEnds {α : Type} (again : α → Prop) (next : α → α) : Nat → α → α → Prop
  | stop {x : α} : ¬ again x → LoopEnds again next 0 x x
  | round {n : Nat} {x y : α} : again x → LoopEnds again next n (next x) y → LoopEnds again next (n + 1) x y

namespace LoopEnds

variable {α β : Type} {again : α → Prop} {next : α → α} {n : Nat} {x y : α}

theorem not_again (h : LoopEnds again next n x y) : ¬ again y := by
  induction h with
  | stop hstop => exact hstop
  | round _ _ ih => exact ih

/-- What every round keeps holds when the loop has ended. -/
theorem keeps (inv : α → Prop) (hround : ∀ z, again z → inv z → inv (next z)) (h : LoopEnds again next n x y)
    (hx : inv x) : inv y := by
  induction h with
  | stop => exact hx
  | round hagain _ ih => exact ih (hround _ hagain hx)

theorem map {again' : β → Prop} {next' : β → β} (f : α → β) (hagain : ∀ z, again' (f z) ↔ again z)
    (hnext : ∀ z, next' (f z) = f (next z)) (h : LoopEnds again next n x y) :
    LoopEnds again' next' n (f x) (f y) := by
  induction h with
  | stop hstop => exact .stop (mt (hagain _).mp hstop)
  | round hx _ ih =>
    refine .round ((hagain _).mpr hx) ?_
    rw [hnext]
    exact ih

end LoopEnds

end RepoOrbit
