import Mathlib

/-!
# Requests in flight

A party issues requests under identities, and an answer may or may not settle one. From the events of
its history, the latest one first, follows which identity is open, and so what may still go out.
-/

namespace WorkStack.Effect

structure Requesting (ε ι : Type) where
  /-- The identity under which an event issues a request. -/
  issues : ε → Option ι
  /-- Whether an event settles the request of an identity. -/
  settles : ε → ι → Bool

namespace Requesting

variable {ε ι : Type} (P : Requesting ε ι)

/-- The identity that a history leaves open. -/
def openAfter : List ε → Option ι
  | [] => none
  | event :: earlier => (P.issues event).or ((openAfter earlier).filter fun identity ↦ !P.settles event identity)

/-- Every event is one that the identity open before it allows. -/
def Orderly (Allows : ι → ε → Prop) : List ε → Prop
  | [] => True
  | event :: earlier => (∀ identity ∈ P.openAfter earlier, Allows identity event) ∧ Orderly Allows earlier

variable {P} {Allows : ι → ε → Prop} {history : List ε}

theorem Orderly.at (h : P.Orderly Allows history) {later earlier : List ε} {event : ε} {identity : ι}
    (hhistory : history = later ++ event :: earlier) (hopen : P.openAfter earlier = some identity) :
    Allows identity event := by
  induction later generalizing history with
  | nil =>
      subst hhistory
      exact h.1 identity hopen
  | cons last later ih =>
      subst hhistory
      exact ih h.2 rfl

theorem openAfter_issue {event : ε} {identity : ι} (h : P.issues event = some identity) (earlier : List ε) :
    P.openAfter (event :: earlier) = some identity := by
  rw [openAfter, h, Option.some_or]

/-- An event that issues nothing leaves open at most what was open, and not what it settles. -/
theorem openAfter_other {event : ε} {identity : ι} {earlier : List ε} (hissues : P.issues event = none)
    (h : P.openAfter (event :: earlier) = some identity) :
    P.openAfter earlier = some identity ∧ P.settles event identity = false := by
  rw [openAfter, hissues, Option.none_or, Option.filter_eq_some_iff] at h
  exact ⟨h.1, by simpa using h.2⟩

end Requesting

end WorkStack.Effect
