import WorkStack.Agent.ContextBrief
import WorkStack.Effect.Chains

/-!
# The fences of a brief

A brief ends in a text that is stripped and an empty line, so its fences are those of the blocks it is made of.
Contexts that differ only in untrusted texts have the same lines but for what stands in the fences.
-/

open WorkStack.Effect WorkStack.Effect.Refusing WorkStack.Python WorkStack.Python.Decoding WorkStack.Text.Fences

namespace WorkStack.Agent

/-! ## The end of a brief -/

/-- A text that begins with a character that is no blank. -/
def BeginsInText (text : List Char) : Prop := (text.head?.any fun c ↦ !isSpace c) = true

instance (text : List Char) : Decidable (BeginsInText text) := inferInstanceAs (Decidable (_ = true))

/-- Blocks that end in such a text and an empty line. -/
def EndsInText (blocks : List Block) : Prop :=
  ∃ front text, blocks = front ++ [.plain text, .plain []] ∧ BeginsInText text

theorem EndsInText.append {blocks : List Block} (h : EndsInText blocks) (others : List Block) :
    EndsInText (others ++ blocks) := by
  obtain ⟨front, text, rfl, htext⟩ := h
  exact ⟨others ++ front, text, by rw [List.append_assoc], htext⟩

theorem endsInText_pair {text : String} (h : BeginsInText text.toList) : EndsInText [line text, line ""] :=
  ⟨[], text.toList, rfl, h⟩

theorem BeginsInText.append {start : String} (h : BeginsInText start.toList) (rest : String) :
    BeginsInText (start ++ rest).toList := by
  unfold BeginsInText at h ⊢
  rw [String.toList_append, List.head?_append]
  cases hhead : start.toList.head? with
  | none =>
      rw [hhead] at h
      cases h
  | some c => rwa [hhead] at h

theorem endsInText_flatten {parts : List (List Block)} (h : ∀ part ∈ parts, EndsInText part) (hne : parts ≠ []) :
    EndsInText parts.flatten := by
  have hparts : parts = parts.dropLast ++ [parts.getLast hne] := (List.dropLast_append_getLast hne).symm
  rw [hparts, List.flatten_append, List.flatten_singleton]
  exact (h _ (List.getLast_mem hne)).append _

theorem rdropWhile_ne_nil {text : List Char} (h : BeginsInText text) : text.rdropWhile isSpace ≠ [] := by
  intro hnil
  rw [List.rdropWhile_eq_nil_iff] at hnil
  cases text with
  | nil => cases h
  | cons c rest =>
      have hspace := hnil c (List.mem_cons_self ..)
      simp [BeginsInText, hspace] at h

/-- Where a text ends in a line with a character in it, nothing is taken from the lines before. -/
theorem rdropWhile_append {start text : List Char} (h : text.rdropWhile isSpace ≠ []) :
    (start ++ text).rdropWhile isSpace = start ++ text.rdropWhile isSpace := by
  unfold List.rdropWhile at h ⊢
  rw [List.reverse_append, List.dropWhile_append, if_neg (by simpa using h), List.reverse_append, List.reverse_reverse]

/-- The brief of some blocks is the document of the same blocks with their last text stripped. -/
theorem document_stripped (front : List Block) {text : List Char} (h : BeginsInText text) :
    (document (front ++ [.plain text, .plain []])).rdropWhile isSpace ++ ['\n'] =
      document (front ++ [.plain (text.rdropWhile isSpace), .plain []]) := by
  have hpair (other : List Char) : document [.plain other, .plain []] = other ++ ['\n'] := by
    rw [document_cons _ (by simp)]
    simp [document, Block.text]
  have hfeed : (text ++ ['\n']).rdropWhile isSpace = text.rdropWhile isSpace :=
    List.rdropWhile_concat_pos isSpace text '\n' (by decide)
  have hne : (text ++ ['\n']).rdropWhile isSpace ≠ [] := by
    rw [hfeed]
    exact rdropWhile_ne_nil h
  cases front with
  | nil => rw [List.nil_append, List.nil_append, hpair, hpair, hfeed]
  | cons block front =>
      have hstart (other : List Char) : document (block :: front) ++ '\n' :: other =
          (document (block :: front) ++ ['\n']) ++ other := by simp
      rw [document_append (by simp) (by simp), document_append (by simp) (by simp), hpair, hpair, hstart,
        rdropWhile_append hne, hfeed]
      simp

theorem sourceLines_endsInText {source : Json} {blocks : List Block} (h : sourceLines source = .ok blocks) :
    EndsInText blocks := by
  obtain ⟨record, -, h⟩ := bind_eq_ok.mp h
  obtain ⟨identifier, -, h⟩ := bind_eq_ok.mp h
  obtain ⟨reasons, -, h⟩ := bind_eq_ok.mp h
  obtain ⟨title, -, h⟩ := bind_eq_ok.mp h
  obtain ⟨provider, -, h⟩ := bind_eq_ok.mp h
  obtain ⟨resource, -, h⟩ := bind_eq_ok.mp h
  obtain ⟨status, -, h⟩ := bind_eq_ok.mp h
  obtain ⟨evidence, hevidence, h⟩ := bind_eq_ok.mp h
  cases h
  unfold evidenceLines at hevidence
  split at hevidence
  · cases hevidence
    exact (endsInText_pair (BeginsInText.append (by decide) _)).append [_, _, _, _, _, _, _, _]
  · obtain ⟨fields, -, h⟩ := bind_eq_ok.mp hevidence
    obtain ⟨scope, -, h⟩ := bind_eq_ok.mp h
    obtain ⟨confidence, -, h⟩ := bind_eq_ok.mp h
    obtain ⟨count, -, h⟩ := bind_eq_ok.mp h
    obtain ⟨truncated, -, h⟩ := bind_eq_ok.mp h
    cases h
    exact (endsInText_pair (BeginsInText.append (by decide) _)).append [_, _, _, _, _, _, _, _, _, _, _, _, _]

theorem sourcesLines_endsInText {data : Fields} {omitted : List String} {blocks : List Block}
    (h : sourcesLines data omitted = .ok blocks) : EndsInText blocks := by
  unfold sourcesLines at h
  split at h
  · cases h
    exact (endsInText_pair (by decide)).append [_, _]
  · obtain ⟨sources, -, h⟩ := bind_eq_ok.mp h
    obtain ⟨rendered, hrendered, h⟩ := bind_eq_ok.mp h
    cases h
    have hparts := mapM_eq_ok.mp hrendered
    by_cases hoverflow : sourcesOverflow ∈ omitted
    · rw [if_pos hoverflow]
      exact (endsInText_pair (by decide)).append _
    · rw [if_neg hoverflow, List.append_nil]
      cases sources with
      | nil =>
          cases hparts
          rw [if_pos rfl, List.flatten_nil, List.append_nil]
          exact (endsInText_pair (by decide)).append _
      | cons source sources =>
          have hne : rendered ≠ [] := by
            rintro rfl
            cases hparts
          apply EndsInText.append
          apply endsInText_flatten _ hne
          intro part hpart
          obtain ⟨source', -, hsource⟩ := exists_of_forall₂_right hparts hpart
          exact sourceLines_endsInText hsource

theorem contextBlocks_endsInText {data : Json} {blocks : List Block} (h : contextBlocks data = .ok blocks) :
    EndsInText blocks := by
  obtain ⟨fields, -, h⟩ := bind_eq_ok.mp h
  obtain ⟨workspaceUid, -, h⟩ := bind_eq_ok.mp h
  obtain ⟨omitted, -, h⟩ := bind_eq_ok.mp h
  obtain ⟨taskFields, -, h⟩ := bind_eq_ok.mp h
  obtain ⟨task, -, h⟩ := bind_eq_ok.mp h
  obtain ⟨worklog, -, h⟩ := bind_eq_ok.mp h
  obtain ⟨sources, hsources, h⟩ := bind_eq_ok.mp h
  cases h
  unfold remainingOmitted
  dsimp only
  split
  · rw [List.append_nil]
    exact (sourcesLines_endsInText hsources).append _
  · apply EndsInText.append
    rw [String.append_assoc]
    exact endsInText_pair (BeginsInText.append (by decide) _)

/-! ## Inputs that differ in untrusted texts -/

/-- Two records that agree in all fields but these. -/
def AgreeBut (names : List String) (fields others : Fields) : Prop :=
  ∀ name ∉ names, Dict.get fields name = Dict.get others name

theorem AgreeBut.item {names : List String} {fields others : Fields} (h : AgreeBut names fields others) {name : String}
    (hname : name ∉ names) : item fields name = item others name := by
  unfold Decoding.item
  rw [h name hname]

/-- Tasks that differ in the texts of their titles and details, where both details are empty or none is. -/
def SameTask (task other : Fields) : Prop :=
  AgreeBut ["title", "detail"] task other ∧ (item task "detail" = .str "" ↔ item other "detail" = .str "")

/-- Entries that differ in their dates and items, where the same lists are empty. -/
def SameEntry (entry other : Json) : Prop :=
  ∃ fields others, entry = .obj fields ∧ other = .obj others ∧
    AgreeBut ["date", "done", "next", "blockers"] fields others ∧
    ∀ name ∈ ["done", "next", "blockers"], item fields name = .arr [] ↔ item others name = .arr []

/-- Sources that differ in their titles and the types of their resources. -/
def SameSource (source other : Json) : Prop :=
  ∃ fields others, source = .obj fields ∧ other = .obj others ∧
    AgreeBut ["display_title", "resource_type"] fields others

/-- Contexts that differ only in untrusted texts. -/
structure DifferInTexts (data other : Json) : Prop where
  exists_fields : ∃ fields others, data = .obj fields ∧ other = .obj others ∧
    AgreeBut ["task", "recent_worklog", "sources"] fields others ∧
    (∃ task task', item fields "task" = .obj task ∧ item others "task" = .obj task' ∧ SameTask task task') ∧
    (∃ entries entries', item fields "recent_worklog" = .arr entries ∧ item others "recent_worklog" = .arr entries' ∧
      List.Forall₂ SameEntry entries entries') ∧
    (Dict.get fields "sources" = Dict.get others "sources" ∨
      ∃ sources sources', Dict.get fields "sources" = some (.arr sources) ∧
        Dict.get others "sources" = some (.arr sources') ∧ List.Forall₂ SameSource sources sources')

/-- Blocks that differ in the texts in their fences. -/
def SameSkeleton (blocks others : List Block) : Prop := blocks.map Block.skeleton = others.map Block.skeleton

theorem SameSkeleton.append {blocks others front frontOther : List Block} (hfront : SameSkeleton front frontOther)
    (h : SameSkeleton blocks others) : SameSkeleton (front ++ blocks) (frontOther ++ others) := by
  unfold SameSkeleton at *
  rw [List.map_append, List.map_append, hfront, h]

theorem sameSkeleton_flatten {parts others : List (List Block)} (h : List.Forall₂ SameSkeleton parts others) :
    SameSkeleton parts.flatten others.flatten := by
  induction h with
  | nil => rfl
  | cons hpart _ ih => exact hpart.append ih

/-- Lists that are rendered one by one, from related inputs. -/
theorem sameSkeleton_mapM {Related : Json → Json → Prop} {render : Json → Checked (List Block)}
    {items others : List Json} {rendered renderedOthers : List (List Block)} (hitems : List.Forall₂ Related items others)
    (h : items.mapM render = .ok rendered) (hothers : others.mapM render = .ok renderedOthers)
    (hrender : ∀ item other blocks others, Related item other → render item = .ok blocks →
      render other = .ok others → SameSkeleton blocks others) :
    SameSkeleton rendered.flatten renderedOthers.flatten := by
  rw [mapM_eq_ok] at h hothers
  apply sameSkeleton_flatten
  induction hitems generalizing rendered renderedOthers with
  | nil =>
      cases h
      cases hothers
      exact .nil
  | cons hrelated _ ih =>
      cases h with
      | cons hitem hrest =>
          cases hothers with
          | cons hother hothers => exact .cons (hrender _ _ _ _ hrelated hitem hother) (ih hrest hothers)

theorem text_eq_ok {value : Json} {label result : String} : text value label = .ok result ↔ value = .str result :=
  asText_eq_ok

variable {blocks others : List Block}

theorem taskLines_skeleton {task other : Fields} {workspaceUid : String} (hsame : SameTask task other)
    (h : taskLines task workspaceUid = .ok blocks) (hother : taskLines other workspaceUid = .ok others) :
    SameSkeleton blocks others := by
  obtain ⟨hagree, hempty⟩ := hsame
  obtain ⟨title, -, h⟩ := bind_eq_ok.mp h
  obtain ⟨detail, hdetail, h⟩ := bind_eq_ok.mp h
  obtain ⟨title', -, hother⟩ := bind_eq_ok.mp hother
  obtain ⟨detail', hdetail', hother⟩ := bind_eq_ok.mp hother
  rw [text_eq_ok] at hdetail hdetail'
  rw [hdetail, hdetail', Json.str.injEq, Json.str.injEq] at hempty
  have hfields : ∀ name ∈ ["due", "id", "uid", "revision", "status", "priority"], item other name = item task name := by
    intro name hname
    apply (hagree.item _).symm
    rintro hmem
    simp only [List.mem_cons, List.not_mem_nil, or_false] at hname hmem
    rcases hname with rfl | rfl | rfl | rfl | rfl | rfl <;> simp at hmem
  simp only [List.forall_mem_cons] at hfields
  obtain ⟨hdue, hid, huid, hrevision, hstatus, hpriority, -⟩ := hfields
  rw [hdue, hid, huid, hrevision, hstatus, hpriority] at hother
  obtain ⟨due, -, h, hother⟩ := bind_both_eq_ok h hother
  obtain ⟨id, -, h, hother⟩ := bind_both_eq_ok h hother
  obtain ⟨uid, -, h, hother⟩ := bind_both_eq_ok h hother
  obtain ⟨revision, -, h, hother⟩ := bind_both_eq_ok h hother
  obtain ⟨status, -, h, hother⟩ := bind_both_eq_ok h hother
  obtain ⟨priority, -, h, hother⟩ := bind_both_eq_ok h hother
  cases h
  cases hother
  by_cases hnone : detail = ""
  · simp [SameSkeleton, Block.skeleton, fence, if_pos hnone, if_pos (hempty.mp hnone)]
  · simp [SameSkeleton, Block.skeleton, fence, if_neg hnone, if_neg (mt hempty.mpr hnone)]

/-- Lists of texts are empty together where their values are. -/
theorem stringList_eq_nil {values : Json} {label : String} {items : List String}
    (h : stringList values label = .ok items) : items = [] ↔ values = .arr [] := by
  obtain ⟨list, hlist, h⟩ := bind_eq_ok.mp h
  rw [asList_eq_ok] at hlist
  have hitems := mapM_eq_ok.mp h
  rw [hlist, Json.arr.injEq]
  constructor
  · rintro rfl
    exact List.forall₂_nil_right_iff.mp hitems
  · rintro rfl
    exact List.forall₂_nil_left_iff.mp hitems

theorem worklogField_skeleton {label : String} {values others : Json} {blocks blocksOther : List Block}
    (hempty : values = .arr [] ↔ others = .arr []) (h : worklogField label values = .ok blocks)
    (hother : worklogField label others = .ok blocksOther) : SameSkeleton blocks blocksOther := by
  obtain ⟨items, hitems, h⟩ := bind_eq_ok.mp h
  obtain ⟨items', hitems', hother⟩ := bind_eq_ok.mp hother
  rw [← stringList_eq_nil hitems, ← stringList_eq_nil hitems'] at hempty
  cases h
  cases hother
  by_cases hnone : items = []
  · simp [SameSkeleton, Block.skeleton, if_pos hnone, if_pos (hempty.mp hnone)]
  · simp [SameSkeleton, Block.skeleton, fence, if_neg hnone, if_neg (mt hempty.mpr hnone)]

theorem worklogEntry_skeleton {entry other : Json} (hsame : SameEntry entry other)
    (h : worklogEntry entry = .ok blocks) (hother : worklogEntry other = .ok others) : SameSkeleton blocks others := by
  obtain ⟨fields, fields', rfl, rfl, -, hempty⟩ := hsame
  simp only [List.forall_mem_cons] at hempty
  obtain ⟨hdone, hnext, hblockers, -⟩ := hempty
  obtain ⟨record, hrecord, h⟩ := bind_eq_ok.mp h
  obtain ⟨record', hrecord', hother⟩ := bind_eq_ok.mp hother
  cases hrecord
  cases hrecord'
  obtain ⟨date, -, h⟩ := bind_eq_ok.mp h
  obtain ⟨done, hdoneBlocks, h⟩ := bind_eq_ok.mp h
  obtain ⟨next, hnextBlocks, h⟩ := bind_eq_ok.mp h
  obtain ⟨blockers, hblockersBlocks, h⟩ := bind_eq_ok.mp h
  obtain ⟨date', -, hother⟩ := bind_eq_ok.mp hother
  obtain ⟨done', hdoneBlocks', hother⟩ := bind_eq_ok.mp hother
  obtain ⟨next', hnextBlocks', hother⟩ := bind_eq_ok.mp hother
  obtain ⟨blockers', hblockersBlocks', hother⟩ := bind_eq_ok.mp hother
  cases h
  cases hother
  apply SameSkeleton.append _ (worklogField_skeleton hblockers hblockersBlocks hblockersBlocks')
  apply SameSkeleton.append _ (worklogField_skeleton hnext hnextBlocks hnextBlocks')
  exact SameSkeleton.append rfl (worklogField_skeleton hdone hdoneBlocks hdoneBlocks')

theorem worklogLines_skeleton {entries others : List Json} {omitted : List String} {blocks blocksOther : List Block}
    (hsame : List.Forall₂ SameEntry entries others) (h : worklogLines (.arr entries) omitted = .ok blocks)
    (hother : worklogLines (.arr others) omitted = .ok blocksOther) : SameSkeleton blocks blocksOther := by
  obtain ⟨items, hitems, h⟩ := bind_eq_ok.mp h
  obtain ⟨items', hitems', hother⟩ := bind_eq_ok.mp hother
  cases hitems
  cases hitems'
  obtain ⟨rendered, hrendered, h⟩ := bind_eq_ok.mp h
  obtain ⟨rendered', hrendered', hother⟩ := bind_eq_ok.mp hother
  cases h
  cases hother
  have hempty : entries = [] ↔ others = [] := by
    rw [← List.length_eq_zero_iff, ← List.length_eq_zero_iff, hsame.length_eq]
  have hflatten := sameSkeleton_mapM hsame hrendered hrendered' fun _ _ _ _ ↦ worklogEntry_skeleton
  apply SameSkeleton.append _ rfl
  apply SameSkeleton.append _ hflatten
  apply SameSkeleton.append rfl
  rw [SameSkeleton, if_congr hempty rfl rfl]

theorem evidenceLines_congr {source other : Fields} (h : Dict.get source "evidence" = Dict.get other "evidence") :
    evidenceLines source = evidenceLines other := by
  unfold evidenceLines
  rw [h]

theorem sourceLines_skeleton {source other : Json} (hsame : SameSource source other)
    (h : sourceLines source = .ok blocks) (hother : sourceLines other = .ok others) : SameSkeleton blocks others := by
  obtain ⟨fields, fields', rfl, rfl, hagree⟩ := hsame
  obtain ⟨record, hrecord, h⟩ := bind_eq_ok.mp h
  obtain ⟨record', hrecord', hother⟩ := bind_eq_ok.mp hother
  cases hrecord
  cases hrecord'
  rw [← hagree.item (show "id" ∉ _ by decide), ← hagree.item (show "link_reasons" ∉ _ by decide),
    ← hagree.item (show "provider" ∉ _ by decide), ← hagree.item (show "status" ∉ _ by decide),
    ← evidenceLines_congr (hagree "evidence" (by decide))] at hother
  obtain ⟨identifier, -, h, hother⟩ := bind_both_eq_ok h hother
  obtain ⟨reasons, -, h, hother⟩ := bind_both_eq_ok h hother
  obtain ⟨title, -, h⟩ := bind_eq_ok.mp h
  obtain ⟨title', -, hother⟩ := bind_eq_ok.mp hother
  obtain ⟨provider, -, h, hother⟩ := bind_both_eq_ok h hother
  obtain ⟨resource, -, h⟩ := bind_eq_ok.mp h
  obtain ⟨resource', -, hother⟩ := bind_eq_ok.mp hother
  obtain ⟨status, -, h, hother⟩ := bind_both_eq_ok h hother
  obtain ⟨evidence, -, h, hother⟩ := bind_both_eq_ok h hother
  cases h
  cases hother
  simp [SameSkeleton, Block.skeleton, fence]

theorem planningSourcesLines_skeleton {sources others : List Json} {omitted : List String}
    {blocks blocksOther : List Block} (hsame : List.Forall₂ SameSource sources others)
    (h : planningSourcesLines (.arr sources) omitted = .ok blocks)
    (hother : planningSourcesLines (.arr others) omitted = .ok blocksOther) : SameSkeleton blocks blocksOther := by
  obtain ⟨items, hitems, h⟩ := bind_eq_ok.mp h
  obtain ⟨items', hitems', hother⟩ := bind_eq_ok.mp hother
  cases hitems
  cases hitems'
  obtain ⟨rendered, hrendered, h⟩ := bind_eq_ok.mp h
  obtain ⟨rendered', hrendered', hother⟩ := bind_eq_ok.mp hother
  cases h
  cases hother
  have hempty : sources = [] ↔ others = [] := by
    rw [← List.length_eq_zero_iff, ← List.length_eq_zero_iff, hsame.length_eq]
  have hflatten := sameSkeleton_mapM hsame hrendered hrendered' fun _ _ _ _ ↦ sourceLines_skeleton
  apply SameSkeleton.append _ rfl
  apply SameSkeleton.append _ hflatten
  apply SameSkeleton.append rfl
  rw [SameSkeleton, if_congr hempty rfl rfl]

/-- Contexts that differ only in untrusted texts have the same lines but for the texts in the fences. -/
theorem contextBlocks_skeleton {data other : Json} (hsame : DifferInTexts data other)
    (h : contextBlocks data = .ok blocks) (hother : contextBlocks other = .ok others) : SameSkeleton blocks others := by
  obtain ⟨fields, fields', rfl, rfl, hagree, ⟨task, task', htask, htask', hsameTask⟩,
    ⟨entries, entries', hentries, hentries', hsameEntries⟩, hsources⟩ := hsame.exists_fields
  obtain ⟨record, hrecord, h⟩ := bind_eq_ok.mp h
  obtain ⟨record', hrecord', hother⟩ := bind_eq_ok.mp hother
  cases hrecord
  cases hrecord'
  have hview : viewOf fields' = viewOf fields := by
    have hpresent : (Dict.get fields' "sources").isSome = (Dict.get fields "sources").isSome := by
      rcases hsources with hsources | ⟨sources, sources', hget, hget', -⟩
      · rw [hsources]
      · rw [hget, hget']
        rfl
    rw [viewOf, viewOf, hpresent, hagree.item (show "view" ∉ _ by decide)]
  rw [← hagree.item (show "workspace_uid" ∉ _ by decide), ← hagree.item (show "omitted" ∉ _ by decide), htask', hentries',
    hview] at hother
  rw [htask, hentries] at h
  obtain ⟨workspaceUid, -, h, hother⟩ := bind_both_eq_ok h hother
  obtain ⟨omitted, -, h, hother⟩ := bind_both_eq_ok h hother
  obtain ⟨found, hfound, h⟩ := bind_eq_ok.mp h
  obtain ⟨found', hfound', hother⟩ := bind_eq_ok.mp hother
  cases hfound
  cases hfound'
  obtain ⟨taskBlocks, htaskBlocks, h⟩ := bind_eq_ok.mp h
  obtain ⟨worklog, hworklog, h⟩ := bind_eq_ok.mp h
  obtain ⟨rendered, hrendered, h⟩ := bind_eq_ok.mp h
  obtain ⟨taskBlocks', htaskBlocks', hother⟩ := bind_eq_ok.mp hother
  obtain ⟨worklog', hworklog', hother⟩ := bind_eq_ok.mp hother
  obtain ⟨rendered', hrendered', hother⟩ := bind_eq_ok.mp hother
  cases h
  cases hother
  have hrest : SameSkeleton rendered rendered' := by
    unfold sourcesLines at hrendered hrendered'
    rw [hview] at hrendered'
    cases hcases : viewOf fields with
    | core =>
        rw [hcases] at hrendered hrendered'
        cases hrendered
        cases hrendered'
        rfl
    | planning =>
        rw [hcases] at hrendered hrendered'
        rcases hsources with hsources | ⟨sources, sources', hget, hget', hsameSources⟩
        · have hitem : item fields' "sources" = item fields "sources" := by
            unfold Decoding.item
            rw [hsources]
          rw [hitem] at hrendered'
          cases hrendered.symm.trans hrendered'
          rfl
        · have hitem : item fields "sources" = .arr sources := by simp [Decoding.item, hget]
          have hitem' : item fields' "sources" = .arr sources' := by simp [Decoding.item, hget']
          rw [hitem] at hrendered
          rw [hitem'] at hrendered'
          exact planningSourcesLines_skeleton hsameSources hrendered hrendered'
  apply SameSkeleton.append _ rfl
  apply SameSkeleton.append _ hrest
  apply SameSkeleton.append _ (worklogLines_skeleton hsameEntries hworklog hworklog')
  exact SameSkeleton.append rfl (taskLines_skeleton hsameTask htaskBlocks htaskBlocks')

end WorkStack.Agent
