import WorkStack.Agent.BriefValues

/-!
# Reading a brief

Every untrusted text of a brief is read inside its own fence, and the lines outside of all fences do not depend on
the untrusted texts, exactly when each group of unfenced values closes the fences that its later lines open.
-/

open WorkStack.Effect WorkStack.Effect.Refusing WorkStack.Python WorkStack.Python.Decoding WorkStack.Text.Fences

namespace WorkStack.Agent

/-! ## The untrusted texts -/

/-- The texts that stand in fences. -/
def fencedTexts (blocks : List Block) : List (List Char) :=
  blocks.filterMap fun block ↦
    match block with
    | .plain _ => none
    | .fenced text => some text

/-- The items of a worklog field, one on a line. -/
def joinedItems (values : Json) : List String :=
  if itemsOf values = [] then [] else ["\n".intercalate ((itemsOf values).map shown)]

def entryTexts (entry : Fields) : List String :=
  shown (item entry "date") ::
    (joinedItems (item entry "done") ++ joinedItems (item entry "next") ++ joinedItems (item entry "blockers"))

def sourceTexts (source : Fields) : List String :=
  [shown (item source "display_title"), shown (item source "resource_type")]

def taskTexts (task : Fields) : List String :=
  shown (item task "title") :: if shown (item task "detail") = "" then [] else [shown (item task "detail")]

/-- The texts of a context that a person or a provider wrote. -/
def untrustedTexts (data : Json) : List String :=
  let data := fieldsOf data
  taskTexts (fieldsOf (item data "task")) ++
    (itemsOf (item data "recent_worklog")).flatMap (fun entry ↦ entryTexts (fieldsOf entry)) ++
    match viewOf data with
    | .core => []
    | .planning => (itemsOf (item data "sources")).flatMap fun source ↦ sourceTexts (fieldsOf source)

theorem fencedTexts_append (blocks others : List Block) :
    fencedTexts (blocks ++ others) = fencedTexts blocks ++ fencedTexts others := List.filterMap_append

theorem fieldsOf_mapping {value : Json} {label : String} {fields : Fields} (h : mapping value label = .ok fields) :
    fieldsOf value = fields := by
  rw [asObject_eq_ok.mp h]
  rfl

theorem itemsOf_asList {value : Json} {error : BriefError} {items : List Json} (h : asList error value = .ok items) :
    itemsOf value = items := by
  rw [asList_eq_ok.mp h]
  rfl

variable {blocks : List Block}

theorem fencedTexts_taskLines {task : Fields} {uid : String} (h : taskLines task uid = .ok blocks) :
    fencedTexts blocks = (taskTexts task).map String.toList := by
  obtain ⟨title, htitle, h⟩ := bind_eq_ok.mp h
  obtain ⟨detail, hdetail, h⟩ := bind_eq_ok.mp h
  obtain ⟨due, -, h⟩ := bind_eq_ok.mp h
  obtain ⟨id, -, h⟩ := bind_eq_ok.mp h
  obtain ⟨taskUid, -, h⟩ := bind_eq_ok.mp h
  obtain ⟨revision, -, h⟩ := bind_eq_ok.mp h
  obtain ⟨status, -, h⟩ := bind_eq_ok.mp h
  obtain ⟨priority, -, h⟩ := bind_eq_ok.mp h
  cases h
  rw [taskTexts, shown_of_text htitle, shown_of_text hdetail]
  by_cases hempty : detail = ""
  · rw [if_pos hempty, if_pos hempty]
    rfl
  · rw [if_neg hempty, if_neg hempty]
    rfl

theorem fencedTexts_worklogField {label : String} {values : Json} (h : worklogField label values = .ok blocks) :
    fencedTexts blocks = (joinedItems values).map String.toList := by
  obtain ⟨texts, htexts, h⟩ := bind_eq_ok.mp h
  have hshown := shown_of_stringList htexts
  obtain ⟨items, hitems, -⟩ := bind_eq_ok.mp htexts
  have hempty : texts = [] ↔ itemsOf values = [] := by
    rw [← hshown, List.map_eq_nil_iff]
  cases h
  rw [joinedItems, hshown]
  by_cases hnone : texts = []
  · rw [if_pos hnone, if_pos (hempty.mp hnone)]
    rfl
  · rw [if_neg hnone, if_neg (mt hempty.mpr hnone)]
    rfl

theorem fencedTexts_worklogEntry {entry : Json} (h : worklogEntry entry = .ok blocks) :
    fencedTexts blocks = (entryTexts (fieldsOf entry)).map String.toList := by
  obtain ⟨record, hrecord, h⟩ := bind_eq_ok.mp h
  obtain ⟨date, hdate, h⟩ := bind_eq_ok.mp h
  obtain ⟨done, hdone, h⟩ := bind_eq_ok.mp h
  obtain ⟨next, hnext, h⟩ := bind_eq_ok.mp h
  obtain ⟨blockers, hblockers, h⟩ := bind_eq_ok.mp h
  cases h
  rw [fieldsOf_mapping hrecord, entryTexts, shown_of_text hdate, List.map_cons, List.map_append, List.map_append,
    fencedTexts_append, fencedTexts_append, fencedTexts_append, fencedTexts_worklogField hdone,
    fencedTexts_worklogField hnext, fencedTexts_worklogField hblockers]
  rfl

theorem fencedTexts_sourceLines {source : Json} (h : sourceLines source = .ok blocks) :
    fencedTexts blocks = (sourceTexts (fieldsOf source)).map String.toList := by
  obtain ⟨record, hrecord, h⟩ := bind_eq_ok.mp h
  obtain ⟨identifier, -, h⟩ := bind_eq_ok.mp h
  obtain ⟨reasons, -, h⟩ := bind_eq_ok.mp h
  obtain ⟨title, htitle, h⟩ := bind_eq_ok.mp h
  obtain ⟨provider, -, h⟩ := bind_eq_ok.mp h
  obtain ⟨resource, hresource, h⟩ := bind_eq_ok.mp h
  obtain ⟨status, -, h⟩ := bind_eq_ok.mp h
  obtain ⟨evidence, hevidence, h⟩ := bind_eq_ok.mp h
  have hnone : fencedTexts evidence = [] := by
    unfold evidenceLines at hevidence
    split at hevidence
    · cases hevidence
      rfl
    · obtain ⟨fields, -, h⟩ := bind_eq_ok.mp hevidence
      obtain ⟨scope, -, h⟩ := bind_eq_ok.mp h
      obtain ⟨confidence, -, h⟩ := bind_eq_ok.mp h
      obtain ⟨count, -, h⟩ := bind_eq_ok.mp h
      obtain ⟨truncated, -, h⟩ := bind_eq_ok.mp h
      cases h
      rfl
  cases h
  rw [fieldsOf_mapping hrecord, sourceTexts, shown_of_text htitle, shown_of_text hresource, fencedTexts_append,
    fencedTexts_append, hnone]
  rfl

/-- Records that are rendered one by one show their texts in order. -/
theorem fencedTexts_flatten {texts : Fields → List String} {render : Json → Checked (List Block)} {items : List Json}
    {rendered : List (List Block)} (h : items.mapM render = .ok rendered)
    (hrender : ∀ item blocks, render item = .ok blocks → fencedTexts blocks = (texts
    (fieldsOf item)).map String.toList) :
    fencedTexts rendered.flatten = (items.flatMap fun item ↦ texts (fieldsOf item)).map String.toList := by
  have hitems := mapM_eq_ok.mp h
  clear h
  induction hitems with
  | nil => rfl
  | cons hitem _ ih =>
      rw [List.flatten_cons, fencedTexts_append, hrender _ _ hitem, ih, List.flatMap_cons, List.map_append]

theorem fencedTexts_worklogLines {entries : Json} {omitted : List String}
    (h : worklogLines entries omitted = .ok blocks) :
    fencedTexts blocks = ((itemsOf entries).flatMap fun entry ↦ entryTexts (fieldsOf entry)).map String.toList := by
  obtain ⟨items, hitems, h⟩ := bind_eq_ok.mp h
  obtain ⟨rendered, hrendered, h⟩ := bind_eq_ok.mp h
  cases h
  have hnone : fencedTexts (if items = [] then [line emptyWorklog, line ""] else []) = [] := by split <;> rfl
  have hend : fencedTexts (if worklogOverflow ∈ omitted then [line worklogOverflowCopy, line ""] else []) = [] := by
    split <;> rfl
  rw [fencedTexts_append, fencedTexts_append, fencedTexts_append, hnone, hend, itemsOf_asList hitems,
    fencedTexts_flatten hrendered fun _ _ ↦ fencedTexts_worklogEntry, List.append_nil, List.append_nil]
  rfl

theorem fencedTexts_planningSourcesLines {sources : Json} {omitted : List String}
    (h : planningSourcesLines sources omitted = .ok blocks) :
    fencedTexts blocks = ((itemsOf sources).flatMap fun source ↦ sourceTexts (fieldsOf source)).map String.toList := by
  obtain ⟨items, hitems, h⟩ := bind_eq_ok.mp h
  obtain ⟨rendered, hrendered, h⟩ := bind_eq_ok.mp h
  cases h
  have hnone : fencedTexts (if items = [] then [line emptyCatalog, line ""] else []) = [] := by split <;> rfl
  have hend : fencedTexts (if sourcesOverflow ∈ omitted then [line sourcesOverflowCopy, line ""] else []) = [] := by
    split <;> rfl
  rw [fencedTexts_append, fencedTexts_append, fencedTexts_append, hnone, hend, itemsOf_asList hitems,
    fencedTexts_flatten hrendered fun _ _ ↦ fencedTexts_sourceLines, List.append_nil, List.append_nil]
  rfl

/-- The texts in fences are the untrusted texts of the context, in order. -/
theorem fencedTexts_contextBlocks {data : Json} (h : contextBlocks data = .ok blocks) :
    fencedTexts blocks = (untrustedTexts data).map String.toList := by
  obtain ⟨fields, hfields, h⟩ := bind_eq_ok.mp h
  obtain ⟨uid, -, h⟩ := bind_eq_ok.mp h
  obtain ⟨omitted, -, h⟩ := bind_eq_ok.mp h
  obtain ⟨task, htask, h⟩ := bind_eq_ok.mp h
  obtain ⟨taskBlocks, htaskBlocks, h⟩ := bind_eq_ok.mp h
  obtain ⟨worklog, hworklog, h⟩ := bind_eq_ok.mp h
  obtain ⟨sources, hsources, h⟩ := bind_eq_ok.mp h
  cases h
  have hlede : fencedTexts (lede (viewOf fields)) = [] := rfl
  have hremaining : fencedTexts (remainingOmitted omitted) = [] := by
    unfold remainingOmitted
    dsimp only
    split <;> rfl
  unfold untrustedTexts
  dsimp only
  rw [fencedTexts_append, fencedTexts_append, fencedTexts_append, fencedTexts_append, hlede, hremaining,
    fencedTexts_taskLines htaskBlocks, fencedTexts_worklogLines hworklog, fieldsOf_mapping hfields,
    fieldsOf_mapping htask, List.nil_append, List.append_nil, List.map_append, List.map_append]
  unfold sourcesLines at hsources
  cases hview : viewOf fields with
  | core =>
      rw [hview] at hsources
      cases hsources
      rfl
  | planning =>
      rw [hview] at hsources
      rw [fencedTexts_planningSourcesLines hsources]

/-! ## The rendered text -/

section Rendered

variable {isBreak : Char → Bool} {data : Json} {text : List Char}

theorem renderContextBrief_eq_ok (h : renderContextBrief data = .ok text) : ∃ blocks, contextBlocks data = .ok blocks ∧
    text = (document blocks).rdropWhile isSpace ++ ['\n'] := by
  obtain ⟨whole, hwhole, h⟩ := bind_eq_ok.mp h
  obtain ⟨blocks, hblocks, hformat⟩ := bind_eq_ok.mp hwhole
  cases hformat
  refine ⟨blocks, hblocks, ?_⟩
  split at h
  · cases h
  · cases h
    rfl

theorem renderContextBrief_of_blocks (h : contextBlocks data = .ok blocks)
    (hsize : (Json.utf8 ((document blocks).rdropWhile isSpace ++ ['\n'])).length ≤ briefMaxBytes) :
    renderContextBrief data = .ok ((document blocks).rdropWhile isSpace ++ ['\n']) := by
  have hformat : formatContextBrief data = .ok ((document blocks).rdropWhile isSpace ++ ['\n']) :=
    bind_eq_ok.mpr ⟨blocks, h, rfl⟩
  refine bind_eq_ok.mpr ⟨_, hformat, ?_⟩
  rw [if_neg (by omega)]
  rfl

/-- The lines of a rendered context are those of its blocks, up to the last text. -/
theorem exists_rendered (hreader : IsReader isBreak) (hblocks : contextBlocks data = .ok blocks)
    (h : renderContextBrief data = .ok text) : ∃ front last, blocks = front ++ [.plain last, .plain []] ∧
      lines isBreak text = linesOf isBreak (front ++ [.plain (last.rdropWhile isSpace), .plain []]) := by
  obtain ⟨blocks', hblocks', htext⟩ := renderContextBrief_eq_ok h
  cases hblocks.symm.trans hblocks'
  obtain ⟨front, last, hsplit, hlast⟩ := contextBlocks_endsInText hblocks
  refine ⟨front, last, hsplit, ?_⟩
  rw [htext, hsplit, document_stripped front hlast, lines_document hreader.feed (by simp)]

/-- The untrusted texts of a rendered context are contained in their fences exactly when each group of unfenced
values closes what it opens. -/
theorem contained_rendered (hreader : IsReader isBreak) (hblocks : contextBlocks data = .ok blocks)
    (h : renderContextBrief data = .ok text) :
    Contained isBreak blocks text ↔ ∀ group ∈ unfencedGroups data, ClosesWhatItOpens isBreak group := by
  obtain ⟨front, last, hsplit, hlines⟩ := exists_rendered hreader hblocks h
  rw [← leavesNoFenceOpen_contextBlocks hreader hblocks]
  apply contained_iff hreader.feed hreader.tick
  intro before content after hbefore
  obtain ⟨rest, hfront, -⟩ := split_before_end (by simp [Block.skeleton]) (hsplit.symm.trans hbefore)
  refine ⟨linesOf isBreak (rest ++ [.plain (last.rdropWhile isSpace), .plain []]), ?_⟩
  rw [hlines, hfront, List.append_assoc, List.cons_append, linesOf_append]
  rfl

/-- The lines of the brief outside of all fences. -/
def outsideLines (isBreak : Char → Bool) (text : List Char) : List Line := outside (read none (lines isBreak text))

/-- Contexts that differ only in untrusted texts show the same lines outside of all fences. -/
theorem outsideLines_eq (hreader : IsReader isBreak) (h : renderContextBrief data = .ok text)
    (hclosed : ∀ group ∈ unfencedGroups data, ClosesWhatItOpens isBreak group) {other : Json} {text' : List Char}
    (hsame : DifferInTexts data other) (hother : renderContextBrief other = .ok text') :
    outsideLines isBreak text' = outsideLines isBreak text := by
  obtain ⟨blocks, hblocks, -⟩ := renderContextBrief_eq_ok h
  obtain ⟨blocks', hblocks', -⟩ := renderContextBrief_eq_ok hother
  obtain ⟨front, last, hsplit, hlines⟩ := exists_rendered hreader hblocks h
  obtain ⟨front', last', hsplit', hlines'⟩ := exists_rendered hreader hblocks' hother
  have hskeleton := contextBlocks_skeleton hsame hblocks hblocks'
  have hopen := (leavesNoFenceOpen_contextBlocks hreader hblocks).mpr hclosed
  rw [leavesNoFenceOpen_iff_closedFrom] at hopen
  have hopen' := (closedFrom_congr hskeleton).mp hopen
  rw [SameSkeleton, hsplit, hsplit', List.map_append, List.map_append] at hskeleton
  obtain ⟨hfront, hlast⟩ := List.append_inj' hskeleton rfl
  have hlast' : last' = last := by simpa [Block.skeleton, eq_comm] using hlast
  have hstripped : SameSkeleton (front ++ [.plain (last.rdropWhile isSpace), .plain []])
      (front' ++ [.plain (last'.rdropWhile isSpace), .plain []]) := by
    rw [hlast']
    exact SameSkeleton.append hfront rfl
  have hbegins {items : List Block} {stripped : List Char} (hitems : ClosedFrom isBreak none (items ++
      [.plain last, .plain []])) :
      BeginsOutside isBreak (items ++ [.plain stripped, .plain []]) := by
    rw [← leavesNoFenceOpen_iff hreader.feed hreader.tick, leavesNoFenceOpen_iff_closedFrom, closedFrom_append]
    exact ⟨(closedFrom_append.mp hitems).1, trivial⟩
  rw [hsplit] at hopen
  rw [hsplit', hlast'] at hopen'
  unfold outsideLines
  rw [hlines, hlines', ((hbegins hopen).plain hreader.feed hreader.tick).2,
    ((hbegins hopen').plain hreader.feed hreader.tick).2, plainLines_congr hstripped]

/-- What a reader of the brief is promised: every untrusted text is in a fence of its own that is closed right after
it, and nothing outside of the fences depends on these texts. -/
structure FencesHold (isBreak : Char → Bool) (data : Json) (text : List Char) : Prop where
  contained : ∃ blocks, contextBlocks data = .ok blocks ∧ fencedTexts blocks = (untrustedTexts data).map String.toList ∧
    Contained isBreak blocks text
  outside_eq : ∀ other text', DifferInTexts data other → renderContextBrief other = .ok text' →
    outsideLines isBreak text' = outsideLines isBreak text

/-- The fences of a brief hold exactly when each group of unfenced values between two fenced texts closes the fences
that its later lines open. -/
theorem fencesHold_iff (hreader : IsReader isBreak) (h : renderContextBrief data = .ok text) :
    FencesHold isBreak data text ↔ ∀ group ∈ unfencedGroups data, ClosesWhatItOpens isBreak group := by
  constructor
  · intro hhold
    obtain ⟨blocks, hblocks, -, hcontained⟩ := hhold.contained
    exact (contained_rendered hreader hblocks h).mp hcontained
  · intro hclosed
    obtain ⟨blocks, hblocks, -⟩ := renderContextBrief_eq_ok h
    constructor
    · exact ⟨blocks, hblocks, fencedTexts_contextBlocks hblocks, (contained_rendered hreader hblocks h).mpr hclosed⟩
    · intro other text' hsame hother
      exact outsideLines_eq hreader h hclosed hsame hother

end Rendered

/-! ## A context with one Task -/

def omittedCategories : List String := ["attachments", "captures", "objectives", "relationships", "work_sessions"]

def sampleContext (priority : String) : Json :=
  .obj [
    ("workspace_uid", .str "0f8e1b52-6c3d-4a97-8b21-5d9c7e4f3a10"),
    ("omitted", .arr (omittedCategories.map .str)),
    ("recent_worklog", .arr []),
    ("task", .obj [
      ("id", .str "T-0001"), ("uid", .str "7c2d9a64-1e5b-4f38-a0c6-92b8d4e7f153"), ("revision", .int 0),
      ("status", .str "open"), ("priority", .str priority), ("due", .null), ("title", .str "Draft"),
      ("detail", .str "")])]

def feedReader (c : Char) : Bool := c == '\n'

theorem isReader_feedReader : IsReader feedReader where
  feed := rfl
  printable := by
    intro c hlow _
    rw [feedReader, beq_eq_false_iff_ne]
    rintro rfl
    exact absurd hlow (by decide)

/-- The blocks of the sample around its priority. -/
def sampleBlocks (priority : String) : List Block :=
  lede .core ++ [
    line "## Saved Task", line "", line "- ID: T-0001", line "- UID: 7c2d9a64-1e5b-4f38-a0c6-92b8d4e7f153",
    line "- Workspace UID: 0f8e1b52-6c3d-4a97-8b21-5d9c7e4f3a10", line "- Revision: 0", line "- Status: open", line ("- Priority: " ++ priority), line "- Due: none", line "- Title:",
    fence "Draft", line "", line "### Definition of done", line "", line "(empty)", line ""] ++
    [line "## Recent worklog", line "", line worklogIntro, line "", line emptyWorklog, line ""] ++ coreSourcesLines ++
    remainingOmitted omittedCategories

theorem contextBlocks_sample (priority : String) :
    contextBlocks (sampleContext priority) = .ok (sampleBlocks priority) := by
  rfl

theorem fenced_draft : fenced "Draft".toList = "```\nDraft\n```".toList := by
  rw [fenced, fenceLine, width_eq_three (by decide)]
  decide

def sampleText (priority : String) : List Char := (document (sampleBlocks priority)).rdropWhile isSpace ++ ['\n']

theorem renderContextBrief_sample {priority : String} (h : (Json.utf8 (sampleText priority)).length ≤ briefMaxBytes) :
    renderContextBrief (sampleContext priority) = .ok (sampleText priority) :=
  renderContextBrief_of_blocks (contextBlocks_sample priority) h

theorem sampleText_small : ∀ priority ∈ ["P1", "P1\n```"], (Json.utf8 (sampleText priority)).length ≤ briefMaxBytes := by
  simp only [sampleText, sampleBlocks, document, List.map_append, List.map_cons, List.map_nil, fence, Block.text,
    fenced_draft]
  decide +kernel

theorem sampleContext_fencesHold : ∃ text, renderContextBrief (sampleContext "P1") = .ok text ∧
    FencesHold feedReader (sampleContext "P1") text := by
  have hrender := renderContextBrief_sample (sampleText_small "P1" (by simp))
  exact ⟨_, hrender, (fencesHold_iff isReader_feedReader hrender).mpr (by decide)⟩

/-- A priority with a second line of backticks opens a fence around the title of the Task. -/
theorem priority_opens_fence : ∃ text, renderContextBrief (sampleContext "P1\n```") = .ok text ∧
    IsReader feedReader ∧ ¬FencesHold feedReader (sampleContext "P1\n```") text := by
  have hrender := renderContextBrief_sample (sampleText_small "P1\n```" (by simp))
  refine ⟨_, hrender, isReader_feedReader, ?_⟩
  intro hhold
  obtain ⟨blocks, hblocks, -, hcontained⟩ := hhold.contained
  have hclosed := (contained_rendered isReader_feedReader hblocks hrender).mp hcontained
  exact absurd hclosed (by decide)

end WorkStack.Agent
