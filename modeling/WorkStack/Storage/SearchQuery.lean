import WorkStack.Storage.SearchRows

/-!
# Searching the projection and the snapshot

A search is answered by a statement over the rows of the projection where it is admitted, and by a loop over the
rows of the snapshot otherwise. The statement ranks a document whose id has the query in it but does not select it.
-/

open WorkStack.Effect.Ranking WorkStack.Effect.Refusing WorkStack.Python WorkStack.Python.Decoding WorkStack.Text.Like

namespace WorkStack.Storage

structure SearchHit where
  rank : ℕ
  kind : Kind
  itemId : String
  title : String
  subtitle : String
  targetKind : Target
  targetId : Json

/-- `needle in text` -/
def Contains (needle text : String) : Prop := needle.toList <:+: text.toList

instance (needle text : String) : Decidable (Contains needle text) := inferInstanceAs (Decidable (_ <:+: _))

/-- `text.startswith(needle)` -/
def StartsWith (needle text : String) : Prop := needle.toList <+: text.toList

instance (needle text : String) : Decidable (StartsWith needle text) := inferInstanceAs (Decidable (_ <+: _))

section Released

variable (S : Casing)

/-- `{str(task["id"]): task for task in value["tasks"]}` -/
def tasksById (value : Fields) : Checked (Dict String Fields) := do
  let tasks ← collection value "tasks"
  let items ← tasks.mapM fun task ↦ do
    let task ← record task
    let id ← field task "id"
    pure (S.str id, task)
  pure (items.foldl (fun tasks item ↦ Dict.set item.1 item.2 tasks) [])

/-- The row of a Task with its planning status, and any other row as it is. -/
def releasedRow (tasks : Dict String Fields) (planning : Fields) (document : Document) : Checked Document :=
  match document.kind with
  | .task =>
      match Dict.get tasks document.itemId with
      | some task => do
          let status ← field planning document.itemId
          pure { document with subtitle := S.str status ++ taskSuffix S task }
      | none => .error .fault
  | _ => .ok document

/-- `_released_search_rows` -/
def releasedSearchRows (value : Fields) : Checked (List Document × List Term) := do
  let (documents, terms) ← searchRows S value
  let tasks ← tasksById S value
  let planning ← field value "planning_status"
  let planning ← record planning
  let released ← documents.mapM (releasedRow S tasks planning)
  pure (released, terms)

end Released

/-! ## The canonical search -/

/-- `searchable.get((kind, item_id), [])` -/
def searchableOf (terms : List Term) (document : Document) : List String :=
  (terms.filter fun term ↦ term.name = document.name).map Term.foldedValue

/-- `_search_rank` -/
def searchRank (needle foldedId foldedTitle : String) (values : List String) : Option ℕ :=
  if needle = foldedId then some 0
  else if StartsWith needle foldedTitle then some 1
  else if Contains needle foldedTitle ∨ Contains needle foldedId then some 2
  else if ∃ value ∈ values, Contains needle value then some 3
  else none

/-- A document with its rank. -/
abbrev Candidate := ℕ × Document

/-- The documents that have the query in them. -/
def candidatesOf (documents : List Document) (terms : List Term) (folded : String) : List Candidate :=
  documents.filterMap fun document ↦
    (searchRank folded document.foldedId document.foldedTitle (searchableOf terms document)).map fun rank ↦
      (rank, document)

/-- What candidates are sorted by. No two documents of a kind have the same id, so the other entries of the
tuples are never compared. -/
def candidateKey (candidate : Candidate) : ℕ ×ₗ (ℕ ×ₗ (String ×ₗ String)) :=
  toLex (candidate.2.kind.order, toLex (candidate.1, toLex (candidate.2.foldedTitle, candidate.2.itemId)))

def hitOf (candidate : Candidate) : SearchHit where
  rank := candidate.1
  kind := candidate.2.kind
  itemId := candidate.2.itemId
  title := candidate.2.title
  subtitle := candidate.2.subtitle
  targetKind := candidate.2.targetKind
  targetId := candidate.2.targetId

/-- `_canonical_search` -/
def canonicalSearch (S : Casing) (value : Fields) (folded : String) (limit : ℕ) : Checked (List SearchHit) := do
  let (documents, terms) ← releasedSearchRows S value
  pure (((inOrder candidateKey (candidatesOf documents terms folded)).take limit).map hitOf)

/-! ## The search of the projection -/

/-- The text of a target id, `None` as it is. -/
def targetText (S : Casing) : Json → Json
  | .null => .null
  | value => .str (S.str value)

/-- A hit with the rank left open. -/
def shapeOf (S : Casing) (document : Document) : SearchHit where
  rank := 0
  kind := document.kind
  itemId := document.itemId
  title := document.title
  subtitle := document.subtitle
  targetKind := document.targetKind
  targetId := targetText S document.targetId

/-- `_search_shapes` -/
def searchShapes (S : Casing) (value : Fields) : Checked (Dict Name SearchHit) := do
  let (documents, _) ← releasedSearchRows S value
  pure (documents.foldl (fun shapes document ↦ Dict.set document.name (shapeOf S document) shapes) [])

/-- `_ranked_hit` -/
def rankedHit (rank : ℕ) (shape : SearchHit) : SearchHit := { shape with rank := rank }

/-- `f"%{escaped}%"` -/
def likePattern (folded : String) : List Char := '%' :: (escaped folded.toList ++ ['%'])

/-- `f"{escaped}%"` -/
def likeStart (folded : String) : List Char := escaped folded.toList ++ ['%']

/-- The `WHERE` clause of the statement. -/
def selects (terms : List Term) (folded : String) (document : Document) : Bool :=
  document.foldedId == folded || like '\\' (likePattern folded) document.foldedTitle.toList ||
    terms.any fun term ↦
      decide (term.name = document.name) && like '\\' (likePattern folded) term.foldedValue.toList

/-- The `CASE` of the statement. -/
def caseRank (folded : String) (document : Document) : ℕ :=
  if document.foldedId = folded then 0
  else if like '\\' (likeStart folded) document.foldedTitle.toList then 1
  else if like '\\' (likePattern folded) document.foldedTitle.toList ||
      like '\\' (likePattern folded) document.foldedId.toList then 2
  else 3

/-- The rows of the statement: the selected documents with their ranks, in the order of `ORDER BY`. -/
def selectRows (documents : List Document) (terms : List Term) (folded : String) (limit : ℕ) : List (ℕ × Name) :=
  let selected := (documents.filter (selects terms folded)).map fun document ↦ (caseRank folded document, document)
  ((inOrder candidateKey selected).take limit).map fun row ↦ (row.1, row.2.name)

/-- `_projection_search`, which ends in a `KeyError` for a row that has no shape. -/
def projectionSearch (documents : List Document) (terms : List Term) (folded : String) (limit : ℕ)
    (shapes : Dict Name SearchHit) : Option (List SearchHit) :=
  (selectRows documents terms folded limit).mapM fun row ↦ (Dict.get shapes row.2).map (rankedHit row.1)

end WorkStack.Storage
