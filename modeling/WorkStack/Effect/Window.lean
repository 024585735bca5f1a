import Mathlib

/-!
# Bounded windows

A window numbers the records of a sequence from one on and keeps the last ones up to a bound. What it
keeps is contiguous: the numbers run without a gap up to the latest one, whatever was dropped before.
-/

namespace WorkStack.Effect

structure Window (α : Type) where
  latest : ℕ
  retained : List α

namespace Window

variable {α : Type} {bound : ℕ} {w : Window α}

/-- Append a record and drop the oldest one beyond the bound. -/
def push (bound : ℕ) (w : Window α) (record : α) : Window α where
  latest := w.latest + 1
  retained := (w.retained ++ [record]).drop (w.retained.length + 1 - bound)

def pushAll (bound : ℕ) (w : Window α) (records : List α) : Window α := records.foldl (push bound) w

theorem pushAll_append (records more : List α) :
    w.pushAll bound (records ++ more) = (w.pushAll bound records).pushAll bound more :=
  List.foldl_append

@[simp] theorem pushAll_latest (records : List α) :
    (w.pushAll bound records).latest = w.latest + records.length := by
  induction records generalizing w with
  | nil => rfl
  | cons record records ih =>
      change ((w.push bound record).pushAll bound records).latest = _
      rw [ih]
      simp only [push, List.length_cons]
      omega

theorem mem_push {record other : α} (h : other ∈ (w.push bound record).retained) :
    other ∈ w.retained ∨ other = record := by
  have hmem := List.mem_of_mem_drop h
  simpa using hmem

theorem mem_pushAll {records : List α} {other : α} (h : other ∈ (w.pushAll bound records).retained) :
    other ∈ w.retained ∨ other ∈ records := by
  induction records generalizing w with
  | nil => exact Or.inl h
  | cons record records ih =>
      rcases ih h with hpushed | hlater
      · rcases mem_push hpushed with hold | rfl
        · exact Or.inl hold
        · exact Or.inr (List.mem_cons_self ..)
      · exact Or.inr (List.mem_cons_of_mem _ hlater)

/-- The numbers of what is kept run up to the latest one. -/
structure Contiguous (bound : ℕ) (number : α → ℕ) (w : Window α) : Prop where
  length : w.retained.length = min w.latest bound
  numbers : w.retained.map number = List.range' (w.latest + 1 - w.retained.length) w.retained.length

variable {number : α → ℕ}

/-- A record that carries the next number keeps a window contiguous. -/
theorem Contiguous.push (h : w.Contiguous bound number) {record : α} (hnumber : number record = w.latest + 1) :
    (w.push bound record).Contiguous bound number := by
  have hlength := h.length
  have hkept : (w.push bound record).retained.length = min (w.latest + 1) bound := by
    simp only [Window.push, List.length_drop, List.length_append, List.length_singleton]
    omega
  refine ⟨hkept, ?_⟩
  have hjoined : (w.retained ++ [record]).map number =
      List.range' (w.latest + 1 - w.retained.length) (w.retained.length + 1) := by
    rw [List.map_append, h.numbers, List.map_singleton, hnumber, List.range'_concat]
    congr 2
    omega
  rw [hkept]
  simp only [Window.push, List.map_drop, hjoined, List.drop_range']
  congr 1
  · omega
  · omega

theorem Contiguous.pushAll (h : w.Contiguous bound number) {records : List α}
    (hnumbers : records.map number = List.range' (w.latest + 1) records.length) :
    (w.pushAll bound records).Contiguous bound number := by
  induction records generalizing w with
  | nil => exact h
  | cons record records ih =>
      rw [List.map_cons, List.length_cons, List.range'_succ, List.cons.injEq] at hnumbers
      exact ih (h.push hnumbers.1) hnumbers.2

theorem Contiguous.le_latest (h : w.Contiguous bound number) {record : α} (hmem : record ∈ w.retained) :
    number record ≤ w.latest := by
  have hnumber : number record ∈ w.retained.map number := List.mem_map_of_mem hmem
  have hlength := h.length
  rw [h.numbers, List.mem_range'_1] at hnumber
  omega

theorem Contiguous.pairwise (h : w.Contiguous bound number) : (w.retained.map number).Pairwise (· < ·) := by
  rw [h.numbers]
  exact List.pairwise_lt_range'

end Window

end WorkStack.Effect
