import WorkStack.Checkpoints.Facts
import WorkStack.Views.WorkspaceTasks

/-!
# The summary of a checkpoint in the client

The client reads the entry of a checkpoint for itself. A value is what was parsed, or `none` where a field is missing.
Its summary recovers what the summary of the service recovers, and it leaves out as many values, which it reports by
their labels instead of counting them.
-/

open WorkStack.Python WorkStack.Python.Decoding

namespace WorkStack.Views.Resume

/-! ## Values -/

/-- `textValue` -/
def textValue : Option Json → Option String
  | some (.str value) => if trim value ≠ "" then some value else none
  | _ => none

/-- `textList` -/
def textList (value : Option Json) : List String :=
  match textValue value with
  | some single => [single]
  | none =>
      match value with
      | some (.arr items) => items.filterMap fun item ↦ textValue (some item)
      | _ => []

/-- `CheckpointExtra` -/
structure Extra where
  label : String
  value : String
  deriving DecidableEq, Repr

/-- `KNOWN_FIELDS` -/
def knownFields : List String := ["task_id", "task", "done", "next", "blockers"]

/-- `carriesNothing` -/
def carriesNothing : Option Json → Bool
  | none => true
  | some .null => true
  | some (.str value) => trim value == ""
  | _ => false

/-- The index that a key names, if it is one of an array. -/
def arrayIndex? (key : String) : Option ℕ := key.toNat?.filter fun index ↦ toString index = key ∧ index < 2 ^ 32 - 1

/-- `Object.entries`: the indices in their order, and then the other keys in the order in which they were written. -/
def objectEntries (source : Fields) : Fields :=
  (source.filter fun field ↦ (arrayIndex? field.1).isSome).insertionSort
      (fun left right ↦ (arrayIndex? left.1).getD 0 ≤ (arrayIndex? right.1).getD 0) ++
    source.filter fun field ↦ !(arrayIndex? field.1).isSome

section Display

-- `JSON.stringify`, of a value that was parsed
variable (stringify : Json → String)

/-- `displayText` -/
def displayText : Json → String
  | .str value => if trim value = "" then stringify (.str value) else value
  | value => stringify value

/-- `factFieldExtras` -/
def factFieldExtras (field : String) (value : Json) : List Extra :=
  if carriesNothing (some value) then []
  else
    match value with
    | .str _ => []
    | .arr items => items.zipIdx.filterMap fun (item, index) ↦
        if (textValue (some item)).isSome then none
        else some ⟨field ++ "[" ++ toString index ++ "]", displayText stringify item⟩
    | value => [⟨field, displayText stringify value⟩]

/-- What `collectExtras` reports of one field. -/
def fieldExtras (field : String × Json) : List Extra :=
  if !knownFields.contains field.1 then [⟨field.1, displayText stringify field.2⟩]
  else if field.1 = "task_id" ∨ field.1 = "task" then
    if !carriesNothing (some field.2) && (textValue (some field.2)).isNone then
      [⟨field.1, displayText stringify field.2⟩]
    else []
  else factFieldExtras stringify field.1 field.2

/-- `collectExtras` -/
def collectExtras (source : Fields) : List Extra := (objectEntries source).flatMap (fieldExtras stringify)

/-- `listExtras` -/
def listExtras (items : List Json) : List Extra :=
  items.zipIdx.map fun (item, index) ↦ ⟨"[" ++ toString index ++ "]", displayText stringify item⟩

/-! ## The summary -/

/-- `CheckpointEntrySummary` -/
structure EntrySummary where
  taskId : Option String
  taskTitle : Option String
  done : List String
  next : List String
  blockers : List String
  readable : Bool
  fallback : Option String
  extras : List Extra
  deriving DecidableEq, Repr

/-- `NO_ENTRY_CONTENT` -/
def noEntryContent : String := "No entry content available"

/-- `NO_READABLE_SUMMARY` -/
def noReadableSummary : String := "No readable summary for this entry"

/-- `unreadable` -/
def unreadable (fallback : String) (extras : List Extra) : EntrySummary :=
  ⟨none, none, [], [], [], false, some fallback, extras⟩

/-- `onlyExtras` -/
def onlyExtras (extras : List Extra) : EntrySummary :=
  unreadable (if extras.length = 0 then noEntryContent else noReadableSummary) extras

/-- `summarizeCheckpointEntry` -/
def summarizeCheckpointEntry : Option Json → EntrySummary
  | none => unreadable noEntryContent []
  | some .null => unreadable noEntryContent []
  | some (.str entry) => unreadable ((textValue (some (.str entry))).getD noEntryContent) []
  | some (.arr items) => onlyExtras (listExtras stringify items)
  | some (.obj source) =>
      let summary : EntrySummary :=
        { taskId := textValue (Dict.get source "task_id")
          taskTitle := textValue (Dict.get source "task")
          done := textList (Dict.get source "done")
          next := textList (Dict.get source "next")
          blockers := textList (Dict.get source "blockers")
          readable := true
          fallback := none
          extras := collectExtras stringify source }
      if summary.taskId.isSome || summary.taskTitle.isSome || 0 < summary.done.length || 0 < summary.next.length ||
          0 < summary.blockers.length then summary
      else onlyExtras summary.extras
  | some entry => unreadable (displayText stringify entry) []

end Display

/-! ## The two readings of a value -/

/-- The characters that are trimmed are those that the service strips. -/
theorem isTrimmed_eq (c : Char) : isTrimmed c = Checkpoints.isJsBlank c := by
  have hcode (d : Char) (n : ℕ) (hd : d.toNat = n) : c = d ↔ c.toNat = n := by
    rw [← hd]
    exact Char.toNat_inj.symm
  rw [Bool.eq_iff_iff]
  simp only [isTrimmed, Checkpoints.isJsBlank, List.cons_append, List.nil_append, List.contains_eq_mem, List.mem_cons,
    List.not_mem_nil, or_false, Bool.or_eq_true, Bool.and_eq_true, decide_eq_true_eq,
    hcode '\t' 0x09 rfl, hcode (Char.ofNat 0x0b) 0x0b rfl, hcode (Char.ofNat 0x0c) 0x0c rfl,
    hcode (Char.ofNat 0xfeff) 0xfeff rfl, hcode ' ' 0x20 rfl, hcode (Char.ofNat 0xa0) 0xa0 rfl,
    hcode (Char.ofNat 0x1680) 0x1680 rfl, hcode (Char.ofNat 0x202f) 0x202f rfl, hcode (Char.ofNat 0x205f) 0x205f rfl,
    hcode (Char.ofNat 0x3000) 0x3000 rfl, hcode '\n' 0x0a rfl, hcode '\r' 0x0d rfl,
    hcode (Char.ofNat 0x2028) 0x2028 rfl, hcode (Char.ofNat 0x2029) 0x2029 rfl]
  omega

theorem trim_eq_empty_iff (value : String) : trim value = "" ↔ Checkpoints.isBlank value = true := by
  have hsame : isTrimmed = Checkpoints.isJsBlank := funext isTrimmed_eq
  rw [trim, Checkpoints.isBlank, hsame, beq_iff_eq]

theorem textValue_some (value : Json) : textValue (some value) = Checkpoints.textValue value := by
  cases value with
  | str value =>
      rw [textValue, Checkpoints.textValue, ite_not]
      by_cases h : trim value = ""
      · rw [if_pos h, if_pos ((trim_eq_empty_iff value).mp h)]
      · rw [if_neg h, if_neg (mt (trim_eq_empty_iff value).mpr h)]
  | _ => rfl

/-- A field that is missing reads as one that is null. -/
theorem textValue_get (source : Fields) (key : String) :
    textValue (Dict.get source key) = Checkpoints.textValue (item source key) := by
  rw [item]
  cases Dict.get source key with
  | none => rfl
  | some value => exact textValue_some value

theorem textList_some (value : Json) : textList (some value) = Checkpoints.textList value := by
  cases value with
  | arr items =>
      have hsame : (fun item ↦ textValue (some item)) = Checkpoints.textValue := funext textValue_some
      change items.filterMap (fun item ↦ textValue (some item)) = items.filterMap Checkpoints.textValue
      rw [hsame]
  | str value =>
      cases hvalue : Checkpoints.textValue (.str value) with
      | none => simp [textList, Checkpoints.textList, textValue_some, hvalue]
      | some single => simp [textList, Checkpoints.textList, textValue_some, hvalue]
  | _ => rfl

theorem textList_get (source : Fields) (key : String) :
    textList (Dict.get source key) = Checkpoints.textList (item source key) := by
  rw [item]
  cases Dict.get source key with
  | none => rfl
  | some value => exact textList_some value

theorem carriesNothing_some (value : Json) : carriesNothing (some value) = Checkpoints.carriesNothing value := by
  cases value with
  | str value =>
      rw [carriesNothing, Checkpoints.carriesNothing, Bool.eq_iff_iff, beq_iff_eq]
      exact trim_eq_empty_iff value
  | _ => rfl

/-! ## Extras -/

variable {stringify : Json → String}

theorem length_factFieldExtras (field : String) (value : Json) :
    (factFieldExtras stringify field value).length = Checkpoints.factFieldExtras value := by
  cases value with
  | str value =>
      unfold factFieldExtras
      split <;> rfl
  | arr items =>
      have hextra : (fun pair : Json × ℕ ↦ (if (textValue (some pair.1)).isSome then none
          else some (⟨field ++ "[" ++ toString pair.2 ++ "]", displayText stringify pair.1⟩ : Extra)).isSome) =
            (fun item ↦ (Checkpoints.textValue item).isNone) ∘ Prod.fst := by
        funext pair
        rw [textValue_some, Function.comp_apply]
        cases Checkpoints.textValue pair.1 <;> rfl
      change (items.zipIdx.filterMap fun pair ↦ if (textValue (some pair.1)).isSome then none
        else some (⟨field ++ "[" ++ toString pair.2 ++ "]", displayText stringify pair.1⟩ : Extra)).length =
          items.countP fun item ↦ (Checkpoints.textValue item).isNone
      rw [List.length_filterMap_eq_countP, hextra, ← List.countP_map, List.zipIdx_map_fst]
  | _ => rfl

theorem length_fieldExtras (field : String × Json) :
    (fieldExtras stringify field).length = Checkpoints.fieldExtras field := by
  rw [fieldExtras, Checkpoints.fieldExtras, carriesNothing_some, textValue_some]
  have hknown : knownFields = Checkpoints.knownEntryFields := rfl
  have htask : (["task_id", "task"].contains field.1 = true) ↔ (field.1 = "task_id" ∨ field.1 = "task") := by simp
  rw [hknown]
  split
  · rfl
  · simp only [htask]
    split
    · split <;> rfl
    · exact length_factFieldExtras field.1 field.2

theorem objectEntries_perm (source : Fields) : (objectEntries source).Perm source := by
  have hindices := List.perm_insertionSort (fun left right : String × Json ↦
    (arrayIndex? left.1).getD 0 ≤ (arrayIndex? right.1).getD 0) (source.filter fun field ↦ (arrayIndex? field.1).isSome)
  rw [objectEntries]
  exact (hindices.append_right _).trans (List.filter_append_perm _ source)

theorem length_collectExtras (source : Fields) :
    (collectExtras stringify source).length = Checkpoints.extrasCount source := by
  have hsame : (fun field ↦ (fieldExtras stringify field).length) = Checkpoints.fieldExtras := funext length_fieldExtras
  rw [collectExtras, List.length_flatMap, hsame, Checkpoints.extrasCount]
  exact ((objectEntries_perm source).map Checkpoints.fieldExtras).sum_eq

/-- The parts of a summary that both sides have. -/
structure SameSummary (summary : EntrySummary) (known : Checkpoints.Summary) : Prop where
  taskId : summary.taskId = known.taskId
  taskTitle : summary.taskTitle = known.taskTitle
  done : summary.done = known.done
  next : summary.next = known.next
  blockers : summary.blockers = known.blockers
  readable : summary.readable = known.readable
  extras : summary.extras.length = known.extras

theorem sameSummary_unreadable (fallback : String) (extras : List Extra) :
    SameSummary (unreadable fallback extras) { readable := false, extras := extras.length } :=
  ⟨rfl, rfl, rfl, rfl, rfl, rfl, rfl⟩

/-- The two summaries recover the same and leave out as much. -/
theorem summarize_agree (stringify : Json → String) (entry : Option Json) :
    SameSummary (summarizeCheckpointEntry stringify entry) (Checkpoints.summarizeEntry (entry.getD .null)) := by
  match entry with
  | some (.obj source) =>
      have hextras := @length_collectExtras stringify source
      have hfilled (items : List String) : decide (0 < items.length) = !items.isEmpty := by cases items <;> rfl
      let known : Checkpoints.Summary :=
        ⟨true, Checkpoints.textValue (item source "task_id"), Checkpoints.textValue (item source "task"),
          Checkpoints.textList (item source "done"), Checkpoints.textList (item source "next"),
          Checkpoints.textList (item source "blockers"), Checkpoints.extrasCount source⟩
      have hknown : Checkpoints.summarizeEntry (.obj source) =
          if known.isRecovered then known else { readable := false, extras := known.extras } := rfl
      have hsummary : summarizeCheckpointEntry stringify (some (.obj source)) =
          if known.isRecovered then ⟨known.taskId, known.taskTitle, known.done, known.next, known.blockers, true, none,
            collectExtras stringify source⟩
          else onlyExtras (collectExtras stringify source) := by
        simp only [summarizeCheckpointEntry, textValue_get, textList_get, hfilled]
        rfl
      rw [hsummary, Option.getD_some, hknown]
      split
      · exact ⟨rfl, rfl, rfl, rfl, rfl, rfl, hextras⟩
      · change SameSummary _ { readable := false, extras := Checkpoints.extrasCount source }
        rw [← hextras]
        exact sameSummary_unreadable _ _
  | some (.arr items) =>
      have hextras : (listExtras stringify items).length = items.length := by simp [listExtras]
      rw [summarizeCheckpointEntry, onlyExtras, Option.getD_some, Checkpoints.summarizeEntry, ← hextras]
      exact sameSummary_unreadable _ _
  | none | some .null => exact sameSummary_unreadable _ _
  | some (.str _) | some (.bool _) | some (.int _) | some (.float _) => exact sameSummary_unreadable _ _

end WorkStack.Views.Resume
