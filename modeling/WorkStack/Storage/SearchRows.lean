import Mathlib
import WorkStack.Effect.Ranking
import WorkStack.Effect.Refusing
import WorkStack.Python.Decoding
import WorkStack.Python.Interpreter
import WorkStack.Text.Like

/-!
# The search rows of a snapshot

The documents and terms that a search looks at: one document for each Task, objective, note, Capture and activity
event, and the terms of each document in its order. The rows are written to the projection, and the canonical
search makes them again from the snapshot.
-/

open WorkStack.Effect.Ranking WorkStack.Effect.Refusing WorkStack.Python WorkStack.Python.Decoding WorkStack.Text.Like

namespace WorkStack.Storage

/-- An interpreter with what it does to the cases of letters. -/
structure Casing extends Interpreter where
  /-- `str.casefold` -/
  casefold : String → String
  /-- `str.title` -/
  title : String → String
  casefold_lower : ∀ text, Lower (casefold text).toList

inductive ProjectionError where
  /-- `PROJECTION_DISPLAY_ID_DUPLICATE` -/
  | displayIdDuplicate
  /-- `PROJECTION_SEARCH_ID_DUPLICATE` -/
  | searchIdDuplicate
  /-- A key that is not there or a value of another kind, where the interpreter raises. -/
  | fault
  deriving DecidableEq, Repr

abbrev Checked (α : Type) := Except ProjectionError α

inductive Kind where
  | task
  | objective
  | note
  | capture
  | activity
  deriving DecidableEq, Repr

namespace Kind

def name : Kind → String
  | task => "task"
  | objective => "objective"
  | note => "note"
  | capture => "capture"
  | activity => "activity"

/-- The place of a kind among the hits. -/
def order : Kind → ℕ
  | task => 0
  | objective => 1
  | note => 2
  | capture => 3
  | activity => 4

theorem order_injective : Function.Injective order := by
  intro a b h
  cases a <;> cases b <;> simp [order] at h ⊢

end Kind

/-- What a hit points to. -/
inductive Target where
  | task
  | objective
  | capture
  | workspace
  deriving DecidableEq, Repr

/-! ## Reading a snapshot -/

def record (value : Json) : Checked Fields := asObject .fault value

/-- `fields[name]` -/
def field (fields : Fields) (name : String) : Checked Json :=
  match Dict.get fields name with
  | some value => .ok value
  | none => .error .fault

/-- `fields.get(name, default)` -/
def fieldOr (fields : Fields) (name : String) (default : Json) : Json := (Dict.get fields name).getD default

/-- The items of an iteration over a value. -/
def iterate : Json → Checked (List Json)
  | .arr items => .ok items
  | .str text => .ok (text.toList.map fun c ↦ .str (String.singleton c))
  | .obj fields => .ok ((Dict.keys fields).map .str)
  | _ => .error .fault

/-- `len(value)` -/
def size : Json → Checked ℕ
  | .arr items => .ok items.length
  | .str text => .ok text.length
  | .obj fields => .ok fields.length
  | _ => .error .fault

/-- `value[name]`, as the items of an iteration. -/
def collection (value : Fields) (name : String) : Checked (List Json) := do
  let items ← field value name
  iterate items

/-- `first or second` -/
def orElse (first second : Json) : Json := if truthy first then first else second

section Values

variable (S : Casing)

/-- `map(str, items)` -/
def strs (items : Json) : Checked (List String) := do
  let items ← iterate items
  pure (items.map S.str)

/-- `str(fields.get(name, ""))` -/
def textOr (fields : Fields) (name : String) : String := S.str (fieldOr fields name (.str ""))

/-- `[str(item.get(name, "")) for item in items]` -/
def textsAt (items : Json) (name : String) : Checked (List String) := do
  let items ← iterate items
  items.mapM fun item ↦ do
    let item ← record item
    pure (textOr S item name)

structure SearchValue where
  kind : Kind
  itemId : String
  title : String
  subtitle : String
  targetKind : Target
  targetId : Json
  searchable : List String

/-- `f" · due {task['due']}" if task.get("due") else ""` -/
def dueSuffix (task : Fields) : String :=
  let due := fieldOr task "due" .null
  if truthy due then " · due " ++ S.str due else ""

/-- The priority and due date that end the subtitle of a Task. -/
def taskSuffix (task : Fields) : String :=
  " · " ++ S.str (fieldOr task "priority" (.str "P2")) ++ dueSuffix S task

/-- `_task_search_values` -/
def taskSearchValue (task : Json) : Checked SearchValue := do
  let task ← record task
  let tags ← strs S (fieldOr task "tags" (.arr []))
  let objectiveIds ← strs S (fieldOr task "objective_ids" (.arr []))
  let notes ← textsAt S (fieldOr task "notes" (.arr [])) "text"
  let subtasks ← textsAt S (fieldOr task "subtasks" (.arr [])) "title"
  let id ← field task "id"
  let title ← field task "title"
  pure {
    kind := .task
    itemId := S.str id
    title := S.str title
    subtitle := S.str (fieldOr task "status" (.str "open")) ++ taskSuffix S task
    targetKind := .task
    targetId := .str (S.str id)
    searchable := textOr S task "detail" :: (tags ++ objectiveIds ++ notes ++ subtasks) }

/-- `_objective_search_values` -/
def objectiveSearchValue (objective : Json) : Checked SearchValue := do
  let objective ← record objective
  let keyResults := fieldOr objective "key_results" (.arr [])
  let texts ← textsAt S keyResults "text"
  let targets ← textsAt S keyResults "target"
  let id ← field objective "id"
  let title ← field objective "objective"
  pure {
    kind := .objective
    itemId := S.str id
    title := S.str title
    subtitle := S.str (fieldOr objective "quarter" (.str "No quarter")) ++ " · " ++
      S.str (fieldOr objective "status" (.str "active"))
    targetKind := .objective
    targetId := .str (S.str id)
    searchable := texts ++ targets }

/-- `_note_search_values` -/
def noteSearchValue (note : Json) : Checked SearchValue := do
  let note ← record note
  let text := textOr S note "text"
  let id ← field note "id"
  let links := fieldOr note "links" (.arr [])
  let count ← size links
  let linked ← strs S links
  let start := String.ofList (text.toList.take 100)
  pure {
    kind := .note
    itemId := S.str id
    title := if start = "" then S.str id else start
    subtitle := "Graph note · " ++ toString count ++ " links"
    targetKind := .workspace
    targetId := .null
    searchable := text :: linked }

/-- `_capture_search_values` -/
def captureSearchValue (capture : Json) : Checked SearchValue := do
  let capture ← record capture
  let source ← record (fieldOr capture "source" (.obj []))
  let normalized ← record (fieldOr capture "normalized" (.obj []))
  let actions ← textsAt S (fieldOr normalized "action_items" (.arr [])) "title"
  let id ← field capture "id"
  pure {
    kind := .capture
    itemId := S.str id
    title := S.str (fieldOr source "display_title" (.str (S.str id)))
    subtitle := S.str (fieldOr source "provider" (.str "manual")) ++ " · " ++
      S.str (fieldOr capture "status" (.str "inbox"))
    targetKind := .capture
    targetId := .str (S.str id)
    searchable := textOr S normalized "summary" :: textOr S normalized "context" :: actions }

def isText : Json → Bool
  | .str _ => true
  | _ => false

/-- `event_type.replace(".", " ").strip().title() or "Activity"` -/
def eventTitle (eventType : String) : String :=
  let title := S.title (S.strip (String.ofList (replaceChar '.' [' '] eventType.toList)))
  if title = "" then "Activity" else title

/-- `_activity_search_values` -/
def activitySearchValue (event : Json) : Checked SearchValue := do
  let event ← record event
  let details := match fieldOr event "details" (.obj []) with
    | .obj details => details
    | _ => []
  let taskId := fieldOr event "task_id" .null
  let captureId := fieldOr event "capture_id" .null
  let eventType := textOr S event "type"
  pure {
    kind := .activity
    itemId := textOr S event "id"
    title := eventTitle S eventType
    subtitle := textOr S event "created_at"
    targetKind := if isText taskId then .task else if isText captureId then .capture else .workspace
    targetId := orElse taskId captureId
    searchable := [eventType, textOr S details "provider", textOr S details "state"] }

/-- `_search_values` -/
def searchValues (value : Fields) : Checked (List SearchValue) := do
  let tasks ← collection value "tasks"
  let tasks ← tasks.mapM (taskSearchValue S)
  let objectives ← collection value "objectives"
  let objectives ← objectives.mapM (objectiveSearchValue S)
  let notes ← collection value "notes"
  let notes ← notes.mapM (noteSearchValue S)
  let captures ← collection value "captures"
  let captures ← captures.mapM (captureSearchValue S)
  let activity ← collection value "activity"
  let activity ← activity.mapM (activitySearchValue S)
  pure (tasks ++ objectives ++ notes ++ captures ++ activity)

/-! ## Documents and terms -/

/-- A row of `search_document`. -/
structure Document where
  kind : Kind
  itemId : String
  title : String
  subtitle : String
  targetKind : Target
  targetId : Json
  foldedTitle : String
  foldedId : String

/-- A row of `search_term`. -/
structure Term where
  kind : Kind
  itemId : String
  ordinal : ℕ
  foldedValue : String

/-- What tells the documents of a snapshot apart. -/
abbrev Name := Kind × String

def SearchValue.name (value : SearchValue) : Name := (value.kind, value.itemId)

def Document.name (document : Document) : Name := (document.kind, document.itemId)

def Term.name (term : Term) : Name := (term.kind, term.itemId)

def documentOf (value : SearchValue) : Document where
  kind := value.kind
  itemId := value.itemId
  title := value.title
  subtitle := value.subtitle
  targetKind := value.targetKind
  targetId := value.targetId
  foldedTitle := S.casefold value.title
  foldedId := S.casefold value.itemId

def termsOf (value : SearchValue) : List Term :=
  value.searchable.mapIdx fun ordinal text ↦ {
    kind := value.kind
    itemId := value.itemId
    ordinal := ordinal
    foldedValue := S.casefold text }

/-- The loop of `_search_rows`, with the names seen so far. -/
def collect (seen : List Name) : List SearchValue → Checked (List Document × List Term)
  | [] => .ok ([], [])
  | value :: values =>
      if value.name ∈ seen then .error .searchIdDuplicate
      else do
        let (documents, terms) ← collect (value.name :: seen) values
        pure (documentOf S value :: documents, termsOf S value ++ terms)

def documentKey (document : Document) : String ×ₗ String := toLex (document.kind.name, document.itemId)

def termKey (term : Term) : String ×ₗ (String ×ₗ ℕ) := toLex (term.kind.name, toLex (term.itemId, term.ordinal))

/-- `_search_rows` -/
def searchRows (value : Fields) : Checked (List Document × List Term) := do
  let values ← searchValues S value
  let (documents, terms) ← collect S [] values
  pure (inOrder documentKey documents, inOrder termKey terms)

end Values

/-- Rows in which every document has its own name and no folded text has an upper case letter of ASCII. -/
structure WellFolded (documents : List Document) (terms : List Term) : Prop where
  nodup : (documents.map Document.name).Nodup
  title_lower : ∀ document ∈ documents, Lower document.foldedTitle.toList
  id_lower : ∀ document ∈ documents, Lower document.foldedId.toList
  value_lower : ∀ term ∈ terms, Lower term.foldedValue.toList

section Rows

variable {S : Casing}

/-- The loop makes the rows of every value, and no two values have one name. -/
theorem collect_eq_ok {seen : List Name} {values : List SearchValue} {documents : List Document} {terms : List Term}
    (h : collect S seen values = .ok (documents, terms)) :
    documents = values.map (documentOf S) ∧ terms = values.flatMap (termsOf S) ∧
      (values.map SearchValue.name).Nodup ∧ ∀ value ∈ values, value.name ∉ seen := by
  induction values generalizing seen documents terms with
  | nil =>
      cases h
      simp
  | cons value values ih =>
      rw [collect, ite_eq_ok] at h
      obtain ⟨hnew, h⟩ := h
      obtain ⟨⟨documents', terms'⟩, hrest, h⟩ := bind_eq_ok.mp h
      cases h
      obtain ⟨hdocuments, hterms, hnodup, hseen⟩ := ih hrest
      refine ⟨?_, ?_, ?_, ?_⟩
      · rw [List.map_cons, hdocuments]
      · rw [List.flatMap_cons, hterms]
      · rw [List.map_cons, List.nodup_cons]
        refine ⟨?_, hnodup⟩
        intro hmem
        obtain ⟨other, hother, hname⟩ := List.mem_map.mp hmem
        exact hseen other hother (by simp [hname])
      · intro other hother
        rcases List.mem_cons.mp hother with rfl | hother
        · exact hnew
        · exact fun hmem ↦ hseen other hother (List.mem_cons_of_mem _ hmem)

theorem lower_of_mem_termsOf {value : SearchValue} {term : Term} (h : term ∈ termsOf S value) :
    Lower term.foldedValue.toList := by
  obtain ⟨ordinal, hordinal, rfl⟩ := List.mem_mapIdx.mp h
  exact S.casefold_lower _

theorem searchRows_wellFolded {value : Fields} {documents : List Document} {terms : List Term}
    (h : searchRows S value = .ok (documents, terms)) : WellFolded documents terms := by
  obtain ⟨values, -, h⟩ := bind_eq_ok.mp h
  obtain ⟨⟨documents', terms'⟩, hcollect, h⟩ := bind_eq_ok.mp h
  cases h
  obtain ⟨hdocuments, hterms, hnodup, -⟩ := collect_eq_ok hcollect
  have hnames : (documents'.map Document.name) = values.map SearchValue.name := by
    rw [hdocuments, List.map_map]
    rfl
  have hlower : ∀ document ∈ documents', Lower document.foldedTitle.toList ∧ Lower document.foldedId.toList := by
    rw [hdocuments, List.forall_mem_map]
    exact fun other _ ↦ ⟨S.casefold_lower _, S.casefold_lower _⟩
  constructor
  · rw [((perm_inOrder documentKey documents').map Document.name).nodup_iff, hnames]
    exact hnodup
  · intro document hmem
    exact (hlower document (mem_inOrder.mp hmem)).1
  · intro document hmem
    exact (hlower document (mem_inOrder.mp hmem)).2
  · intro term hmem
    rw [mem_inOrder, hterms, List.mem_flatMap] at hmem
    obtain ⟨other, -, hother⟩ := hmem
    exact lower_of_mem_termsOf hother

end Rows

end WorkStack.Storage
