import Mathlib

/-!
# Walking through pages

A list is shown in pages. A page holds up to a limit of its items and, where there are more, a cursor made from
its last one, which the next page is asked for with. Where the cursor of every item leads to the item after it,
a walk that starts without a cursor shows the whole list and ends.
-/

namespace WorkStack.Effect.Paging

variable {α β κ ε : Type}

/-- The page of a list from a position on. -/
def window (cursor : α → κ) (limit : ℕ) (items : List α) (start : ℕ) : List α × Option κ :=
  ((items.drop start).take limit,
    if items.length ≤ start + limit then none else items[start + limit - 1]?.map cursor)

/-- An item that occurs once is found where it is. -/
theorem idxOf?_of_getElem? [BEq α] [LawfulBEq α] {items : List α} (hdistinct : items.Nodup) {i : ℕ} {a : α}
    (h : items[i]? = some a) : items.idxOf? a = some i := by
  obtain ⟨hi, rfl⟩ := List.getElem?_eq_some_iff.mp h
  rw [List.idxOf?_eq_some_iff]
  refine ⟨hi, rfl, ?_⟩
  intro j hj hsame
  have hij := (List.Nodup.getElem_inj_iff hdistinct).mp hsame
  omega

/-- The pages that are shown one after the other, from a cursor on to the page without one. -/
inductive Walk (page : Option κ → Except ε (List β × Option κ)) : Option κ → List (List β) → Prop where
  | last {cursor : Option κ} {items : List β} (shown : page cursor = .ok (items, none)) : Walk page cursor [items]
  | next {cursor : Option κ} {items : List β} {next : κ} {pages : List (List β)}
      (shown : page cursor = .ok (items, some next)) (rest : Walk page (some next) pages) :
      Walk page cursor (items :: pages)

variable {page : Option κ → Except ε (List β × Option κ)}

/-- There is one walk from a cursor. -/
theorem Walk.unique {cursor : Option κ} {pages pages' : List (List β)} (h : Walk page cursor pages)
    (h' : Walk page cursor pages') : pages = pages' := by
  induction h generalizing pages' with
  | last shown =>
      cases h' with
      | last shown' =>
          rw [shown] at shown'
          cases shown'
          rfl
      | next shown' rest' =>
          rw [shown] at shown'
          cases shown'
  | next shown rest ih =>
      cases h' with
      | last shown' =>
          rw [shown] at shown'
          cases shown'
      | next shown' rest' =>
          rw [shown] at shown'
          cases shown'
          rw [ih rest']

variable {cursor : α → κ} {image : α → β} {limit : ℕ} {items : List α}

/-- A page and the rest of the list are what is left from its position on. -/
theorem take_append_drop_window (start : ℕ) :
    (items.drop start).take limit ++ items.drop (start + limit) = items.drop start := by
  rw [← List.drop_drop, List.take_append_drop]

theorem getLast?_shown {start : ℕ} (hlimit : 1 ≤ limit) (h : ¬items.length ≤ start + limit) :
    ((items.drop start).take limit).getLast? = items[start + limit - 1]? := by
  rw [List.getLast?_eq_getElem?, List.length_take, List.length_drop, List.getElem?_take, List.getElem?_drop,
    if_pos (by omega), show start + (min limit (items.length - start) - 1) = start + limit - 1 by omega]

/-- A walk shows what is left of the list from its position on, once and in order. -/
theorem walk_from (hlimit : 1 ≤ limit)
    (hlater : ∀ (i : ℕ) (a : α), items[i]? = some a →
      page (some (cursor a)) = .ok ((window cursor limit items (i + 1)).map (List.map image) id))
    {here : Option κ} {start : ℕ}
    (hpage : page here = .ok ((window cursor limit items start).map (List.map image) id)) :
    ∃ pages, Walk page here pages ∧ pages.flatten = (items.drop start).map image := by
  induction h : items.length - start using Nat.strongRecOn generalizing here start with
  | ind left ih =>
    by_cases hlast : items.length ≤ start + limit
    · refine ⟨[((items.drop start).take limit).map image], Walk.last ?_, ?_⟩
      · rw [hpage, window, if_pos hlast]
        rfl
      · have hall : (items.drop start).take limit = items.drop start :=
          List.take_of_length_le (by rw [List.length_drop]; omega)
        rw [hall, List.flatten_cons, List.flatten_nil, List.append_nil]
    · have hbound : start + limit - 1 < items.length := by omega
      have hitem : items[start + limit - 1]? = some items[start + limit - 1] := List.getElem?_eq_getElem hbound
      have hnext := hlater _ _ hitem
      rw [show start + limit - 1 + 1 = start + limit by omega] at hnext
      obtain ⟨pages, hwalk, hpages⟩ := ih (items.length - (start + limit)) (by omega) hnext rfl
      refine ⟨((items.drop start).take limit).map image :: pages, Walk.next ?_ hwalk, ?_⟩
      · rw [hpage, window, if_neg hlast, hitem]
        rfl
      · rw [List.flatten_cons, hpages, ← List.map_append, take_append_drop_window]

/-- A page begins every walk from its cursor. -/
theorem Walk.eq_cons {here : Option κ} {shown : List β} {next : Option κ} (hpage : page here = .ok (shown, next))
    {pages : List (List β)} (hwalk : Walk page here pages) : ∃ rest, pages = shown :: rest := by
  cases hwalk with
  | last hshown =>
      rw [hpage] at hshown
      cases hshown
      exact ⟨[], rfl⟩
  | next hshown _ =>
      rw [hpage] at hshown
      cases hshown
      exact ⟨_, rfl⟩

/-- The pages behind the first one of a walk show what is left behind it. -/
theorem Walk.rest_eq (hlimit : 1 ≤ limit)
    (hlater : ∀ (i : ℕ) (a : α), items[i]? = some a →
      page (some (cursor a)) = .ok ((window cursor limit items (i + 1)).map (List.map image) id))
    {here : Option κ} {start : ℕ}
    (hpage : page here = .ok ((window cursor limit items start).map (List.map image) id)) {first : List β}
    {rest : List (List β)} (hwalk : Walk page here (first :: rest)) :
    rest.flatten = (items.drop (start + limit)).map image := by
  obtain ⟨pages, hpages, hflatten⟩ := walk_from hlimit hlater hpage
  obtain rfl := hwalk.unique hpages
  have hfirst : first = ((items.drop start).take limit).map image := by
    cases hwalk with
    | last shown | next shown =>
        rw [hpage] at shown
        exact (congrArg Prod.fst (Except.ok.inj shown)).symm
  have hsplit : (items.drop start).map image =
      ((items.drop start).take limit).map image ++ (items.drop (start + limit)).map image := by
    rw [← List.map_append, take_append_drop_window]
  rw [List.flatten_cons, hfirst, hsplit] at hflatten
  exact List.append_cancel_left hflatten

/-- A walk without a cursor shows the list. -/
theorem walk_all (hlimit : 1 ≤ limit)
    (hfirst : page none = .ok ((window cursor limit items 0).map (List.map image) id))
    (hlater : ∀ (i : ℕ) (a : α), items[i]? = some a →
      page (some (cursor a)) = .ok ((window cursor limit items (i + 1)).map (List.map image) id)) :
    ∃ pages, Walk page none pages ∧ pages.flatten = items.map image := by
  obtain ⟨pages, hwalk, hpages⟩ := walk_from hlimit hlater hfirst
  exact ⟨pages, hwalk, by rw [hpages, List.drop_zero]⟩

end WorkStack.Effect.Paging
