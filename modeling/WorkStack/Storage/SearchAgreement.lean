import WorkStack.Storage.SearchQuery

/-!
# One answer to a search

The search of the projection and the canonical search show the same hits exactly when no document that is shown
was found by a part of its id alone, and every target id that is shown is a text or absent.
-/

open WorkStack.Effect.Ranking WorkStack.Effect.Refusing WorkStack.Python WorkStack.Python.Decoding WorkStack.Text.Like

namespace WorkStack.Storage

/-- Whether a document has the query in its title or its terms, or as its whole id. -/
def Selectable (terms : List Term) (folded : String) (document : Document) : Prop :=
  folded = document.foldedId ∨ Contains folded document.foldedTitle ∨
    ∃ value ∈ searchableOf terms document, Contains folded value

instance (terms : List Term) (folded : String) (document : Document) : Decidable (Selectable terms folded document) :=
  inferInstanceAs (Decidable (_ ∨ _))

/-- Whether a target id is told by its text. -/
def IsTextOrNull (value : Json) : Prop := value = .null ∨ ∃ text, value = .str text

section Statement

variable {documents : List Document} {terms : List Term} {folded : String} {document : Document}

theorem likePattern_iff (hfolded : Lower folded.toList) {text : String} (htext : Lower text.toList) :
    like '\\' (likePattern folded) text.toList = true ↔ Contains folded text := like_infix hfolded htext

theorem likeStart_iff (hfolded : Lower folded.toList) {text : String} (htext : Lower text.toList) :
    like '\\' (likeStart folded) text.toList = true ↔ StartsWith folded text := like_prefix hfolded htext

/-- The `WHERE` clause selects the selectable documents. -/
theorem selects_iff (hrows : WellFolded documents terms) (hfolded : Lower folded.toList) (hmem : document ∈ documents) :
    selects terms folded document = true ↔ Selectable terms folded document := by
  have hterms : (terms.any fun term ↦
      decide (term.name = document.name) && like '\\' (likePattern folded) term.foldedValue.toList) = true ↔
      ∃ value ∈ searchableOf terms document, Contains folded value := by
    rw [List.any_eq_true]
    constructor
    · rintro ⟨term, hterm, hfound⟩
      rw [Bool.and_eq_true, decide_eq_true_eq, likePattern_iff hfolded (hrows.value_lower term hterm)] at hfound
      exact ⟨term.foldedValue, List.mem_map_of_mem (List.mem_filter.mpr ⟨hterm, decide_eq_true hfound.1⟩), hfound.2⟩
    · rintro ⟨value, hvalue, hfound⟩
      obtain ⟨term, hterm, rfl⟩ := List.mem_map.mp hvalue
      obtain ⟨hterm, hname⟩ := List.mem_filter.mp hterm
      refine ⟨term, hterm, ?_⟩
      rw [Bool.and_eq_true, likePattern_iff hfolded (hrows.value_lower term hterm)]
      exact ⟨hname, hfound⟩
  rw [selects, Bool.or_eq_true, Bool.or_eq_true, hterms, likePattern_iff hfolded (hrows.title_lower _ hmem), beq_iff_eq,
    or_assoc, Selectable, eq_comm]

/-- The `CASE` ranks a selected document as the canonical search does. -/
theorem searchRank_of_selects (hrows : WellFolded documents terms) (hfolded : Lower folded.toList)
    (hmem : document ∈ documents) (h : selects terms folded document = true) :
    searchRank folded document.foldedId document.foldedTitle (searchableOf terms document) =
      some (caseRank folded document) := by
  rw [selects_iff hrows hfolded hmem] at h
  simp only [caseRank, Bool.or_eq_true, likePattern_iff hfolded (hrows.title_lower _ hmem),
    likePattern_iff hfolded (hrows.id_lower _ hmem), likeStart_iff hfolded (hrows.title_lower _ hmem), searchRank,
    @eq_comm _ folded]
  by_cases hid : document.foldedId = folded
  · rw [if_pos hid, if_pos hid]
  by_cases hstart : StartsWith folded document.foldedTitle
  · rw [if_neg hid, if_pos hstart, if_neg hid, if_pos hstart]
  by_cases hpart : Contains folded document.foldedTitle ∨ Contains folded document.foldedId
  · rw [if_neg hid, if_neg hstart, if_pos hpart, if_neg hid, if_neg hstart, if_pos hpart]
  · have hvalue : ∃ value ∈ searchableOf terms document, Contains folded value := by
      rcases h with h | h | h
      · exact absurd h.symm hid
      · exact absurd (.inl h) hpart
      · exact h
    rw [if_neg hid, if_neg hstart, if_neg hpart, if_pos hvalue, if_neg hid, if_neg hstart, if_neg hpart]

/-- The selected documents with their ranks are those of the candidates that are selected. -/
theorem map_caseRank (h : ∀ document ∈ documents, selects terms folded document = true →
      searchRank folded document.foldedId document.foldedTitle (searchableOf terms document) =
        some (caseRank folded document)) :
    ((documents.filter (selects terms folded)).map fun document ↦ (caseRank folded document, document)) =
      (candidatesOf documents terms folded).filter fun candidate ↦ selects terms folded candidate.2 := by
  induction documents with
  | nil => rfl
  | cons document documents ih =>
      obtain ⟨hfirst, hrest⟩ := List.forall_mem_cons.mp h
      unfold candidatesOf at ih ⊢
      by_cases hselects : selects terms folded document = true
      · rw [List.filter_cons_of_pos hselects, List.map_cons, ih hrest, List.filterMap_cons, hfirst hselects]
        simp [hselects]
      · rw [List.filter_cons_of_neg hselects, ih hrest, List.filterMap_cons]
        cases searchRank folded document.foldedId document.foldedTitle (searchableOf terms document) with
        | none => rfl
        | some rank => simp [hselects]

theorem mem_candidatesOf {candidate : Candidate} (h : candidate ∈ candidatesOf documents terms folded) :
    candidate.2 ∈ documents := by
  obtain ⟨document, hdocument, hrank⟩ := List.mem_filterMap.mp h
  obtain ⟨rank, -, rfl⟩ := Option.map_eq_some_iff.mp hrank
  exact hdocument

theorem nodup_candidates (h : (documents.map Document.name).Nodup) :
    ((candidatesOf documents terms folded).map fun candidate ↦ candidate.2.name).Nodup := by
  have hsub : ((candidatesOf documents terms folded).map Prod.snd).Sublist documents := by
    unfold candidatesOf
    rw [List.map_filterMap]
    induction documents with
    | nil => exact List.Sublist.slnil
    | cons document documents ih =>
        rw [List.map_cons, List.nodup_cons] at h
        rw [List.filterMap_cons]
        cases searchRank folded document.foldedId document.foldedTitle (searchableOf terms document) with
        | none => exact (ih h.2).cons _
        | some rank => exact (ih h.2).cons_cons _
  have hnames := hsub.map Document.name
  rw [List.map_map] at hnames
  exact hnames.nodup h

theorem candidateKey_injOn {a b : Candidate} (h : candidateKey a = candidateKey b) : a.2.name = b.2.name := by
  simp only [candidateKey, toLex_inj, Prod.mk.injEq] at h
  exact Prod.ext (Kind.order_injective h.1) h.2.2.2

theorem nodup_candidateKeys (h : (documents.map Document.name).Nodup) :
    ((candidatesOf documents terms folded).map candidateKey).Nodup := by
  have hnames : (candidatesOf documents terms folded).Pairwise fun a b ↦ a.2.name ≠ b.2.name :=
    List.pairwise_map.mp (nodup_candidates h)
  exact List.pairwise_map.mpr (hnames.imp fun hne heq ↦ hne (candidateKey_injOn heq))

end Statement

/-! ## Rows with their released subtitles -/

section Released

variable {S : Casing}

/-- A document without its subtitle, which no search looks at. -/
def blank (document : Document) : Document := { document with subtitle := "" }

theorem releasedRow_blank {tasks : Dict String Fields} {planning : Fields} {document released : Document}
    (h : releasedRow S tasks planning document = .ok released) : blank released = blank document := by
  unfold releasedRow at h
  split at h
  · split at h
    · obtain ⟨status, -, h⟩ := bind_eq_ok.mp h
      cases h
      rfl
    · cases h
  · cases h
    rfl

theorem map_blank_of_released {tasks : Dict String Fields} {planning : Fields} {documents released : List Document}
    (h : List.Forall₂ (fun document row ↦ releasedRow S tasks planning document = .ok row) documents released) :
    released.map blank = documents.map blank := by
  induction h with
  | nil => rfl
  | cons hrow _ ih => rw [List.map_cons, List.map_cons, releasedRow_blank hrow, ih]

/-- The released rows are the rows of the projection but for the subtitles. -/
theorem releasedSearchRows_eq_ok {value : Fields} {released : List Document} {terms : List Term}
    (h : releasedSearchRows S value = .ok (released, terms)) :
    ∃ documents, searchRows S value = .ok (documents, terms) ∧ released.map blank = documents.map blank := by
  obtain ⟨⟨documents, terms'⟩, hrows, h⟩ := bind_eq_ok.mp h
  obtain ⟨tasks, -, h⟩ := bind_eq_ok.mp h
  obtain ⟨planning, -, h⟩ := bind_eq_ok.mp h
  obtain ⟨statuses, -, h⟩ := bind_eq_ok.mp h
  obtain ⟨released', hreleased, h⟩ := bind_eq_ok.mp h
  cases h
  exact ⟨documents, hrows, map_blank_of_released (mapM_eq_ok.mp hreleased)⟩

theorem map_eq_of_blank {α : Type} {f : Document → α} (hf : ∀ document, f (blank document) = f document)
    {documents others : List Document} (h : documents.map blank = others.map blank) : documents.map f = others.map f :=
  have hmap (items : List Document) : (items.map blank).map f = items.map f := by
    rw [List.map_map]
    exact List.map_congr_left fun document _ ↦ hf document
  calc documents.map f = (documents.map blank).map f := (hmap documents).symm
    _ = (others.map blank).map f := by rw [h]
    _ = others.map f := hmap others

theorem forall_of_blank {p : Document → Prop} (hp : ∀ document, p (blank document) ↔ p document)
    {documents others : List Document} (h : documents.map blank = others.map blank) (hall : ∀ document ∈ others, p document) :
    ∀ document ∈ documents, p document := by
  intro document hmem
  have hblank : blank document ∈ others.map blank := h ▸ List.mem_map_of_mem hmem
  obtain ⟨other, hother, hsame⟩ := List.mem_map.mp hblank
  rw [← hp, ← hsame, hp]
  exact hall other hother

theorem wellFolded_released {documents released : List Document} {terms : List Term} (h : WellFolded documents terms)
    (hblank : released.map blank = documents.map blank) : WellFolded released terms where
  nodup := by
    rw [map_eq_of_blank (fun _ ↦ rfl) hblank]
    exact h.nodup
  title_lower := forall_of_blank (fun _ ↦ Iff.rfl) hblank h.title_lower
  id_lower := forall_of_blank (fun _ ↦ Iff.rfl) hblank h.id_lower
  value_lower := h.value_lower

/-- The statement gives the same rows for rows without subtitles. -/
theorem selectRows_blank (documents : List Document) (terms : List Term) (folded : String) (limit : ℕ) :
    selectRows (documents.map blank) terms folded limit = selectRows documents terms folded limit := by
  have hselected : ((documents.map blank).filter (selects terms folded)).map (fun document ↦
        (caseRank folded document, document)) =
      ((documents.filter (selects terms folded)).map fun document ↦ (caseRank folded document, document)).map
        fun row ↦ (row.1, blank row.2) := by
    rw [List.filter_map, List.map_map, List.map_map]
    rfl
  have hordered (rows : List Candidate) : inOrder candidateKey (rows.map fun row ↦ (row.1, blank row.2)) =
      (inOrder candidateKey rows).map fun row ↦ (row.1, blank row.2) := by
    let below (a b : Candidate) : Prop := candidateKey a ≤ candidateKey b
    exact (List.map_insertionSort below below (fun row ↦ (row.1, blank row.2)) rows fun _ _ _ _ ↦ Iff.rfl).symm
  unfold selectRows
  dsimp only
  rw [hselected, hordered, ← List.map_take, List.map_map]
  rfl

theorem selectRows_released {documents released : List Document} (hblank : released.map blank = documents.map blank)
    (terms : List Term) (folded : String) (limit : ℕ) :
    selectRows documents terms folded limit = selectRows released terms folded limit :=
  calc selectRows documents terms folded limit = selectRows (documents.map blank) terms folded limit :=
      (selectRows_blank documents terms folded limit).symm
    _ = selectRows (released.map blank) terms folded limit := by rw [hblank]
    _ = selectRows released terms folded limit := selectRows_blank released terms folded limit

/-! ## The hits of the projection -/

/-- A dictionary of items with different names holds each of them. -/
theorem get_shapes {documents : List Document} (h : (documents.map Document.name).Nodup) {document : Document}
    (hmem : document ∈ documents) :
    Dict.get (documents.foldl (fun shapes document ↦ Dict.set document.name (shapeOf S document) shapes) [])
      document.name = some (shapeOf S document) := by
  induction documents using List.reverseRecOn with
  | nil => cases hmem
  | append_singleton documents last ih =>
      rw [List.map_append, List.nodup_append] at h
      rw [List.foldl_append, List.foldl_cons, List.foldl_nil]
      rcases List.mem_append.mp hmem with hmem | hmem
      · have hne : last.name ≠ document.name := by
          intro heq
          exact h.2.2 document.name (List.mem_map_of_mem hmem) last.name (by simp) heq.symm
        rw [Dict.get_set_of_ne _ hne]
        exact ih h.1 hmem
      · rw [List.mem_singleton.mp hmem, Dict.get_set_self]

theorem mapM_map_eq_some {α β γ : Type} {row : α → β} {f : β → Option γ} {g : α → γ} {items : List α}
    (h : ∀ a ∈ items, f (row a) = some (g a)) : (items.map row).mapM f = some (items.map g) := by
  induction items with
  | nil => rfl
  | cons a items ih =>
      obtain ⟨ha, hitems⟩ := List.forall_mem_cons.mp h
      rw [List.map_cons, List.mapM_cons, ha, ih hitems]
      rfl

/-- The hit of the projection for a candidate. -/
def projectedHit (S : Casing) (candidate : Candidate) : SearchHit := rankedHit candidate.1 (shapeOf S candidate.2)

/-- The projection shows the first of the candidates that its statement selects. -/
theorem projectionSearch_eq {released : List Document} {terms : List Term} (hrows : WellFolded released terms)
    {folded : String} (hfolded : Lower folded.toList) (limit : ℕ) :
    projectionSearch released terms folded limit
        (released.foldl (fun shapes document ↦ Dict.set document.name (shapeOf S document) shapes) []) =
      some ((((inOrder candidateKey (candidatesOf released terms folded)).filter fun candidate ↦
        selects terms folded candidate.2).take limit).map (projectedHit S)) := by
  have hselected := map_caseRank fun document hmem ↦ searchRank_of_selects hrows hfolded hmem
  unfold projectionSearch selectRows
  dsimp only
  rw [hselected, inOrder_filter (nodup_candidateKeys hrows.nodup)]
  apply mapM_map_eq_some
  intro candidate hmem
  have hcandidate := mem_inOrder.mp (List.mem_filter.mp (List.mem_of_mem_take hmem)).1
  rw [get_shapes hrows.nodup (mem_candidatesOf hcandidate)]
  rfl

theorem targetText_eq_iff {value : Json} : targetText S value = value ↔ IsTextOrNull value := by
  cases value <;> simp [targetText, IsTextOrNull, Interpreter.str]

theorem projectedHit_eq_iff {candidate : Candidate} :
    projectedHit S candidate = hitOf candidate ↔ IsTextOrNull candidate.2.targetId := by
  rw [← targetText_eq_iff (S := S)]
  simp [projectedHit, rankedHit, shapeOf, hitOf]

/-! ## One answer -/

/-- The text that a search looks for. -/
def foldedQuery (S : Casing) (query : String) : String := S.casefold (S.strip query)

/-- Whether a candidate is shown: fewer than the limit come before it. -/
def Shown (candidates : List Candidate) (limit : ℕ) (candidate : Candidate) : Prop :=
  candidate ∈ candidates ∧
    (candidates.filter fun other ↦ decide (candidateKey other < candidateKey candidate)).length < limit

theorem shown_iff {documents : List Document} {terms : List Term} {folded : String}
    (h : (documents.map Document.name).Nodup) {limit : ℕ} {candidate : Candidate} :
    candidate ∈ (inOrder candidateKey (candidatesOf documents terms folded)).take limit ↔
      Shown (candidatesOf documents terms folded) limit candidate := by
  rw [mem_take_iff (pairwise_inOrder (nodup_candidateKeys h)), mem_inOrder, Shown]
  refine and_congr_right fun _ ↦ ?_
  rw [((perm_inOrder candidateKey _).filter _).length_eq]

/-- The search of the projection gives the canonical answer exactly when every document that is shown has the query
in its title or its terms or as its whole id, and a target id that is a text or absent. -/
theorem search_agrees_iff {value : Fields} {documents released : List Document} {terms : List Term}
    {shapes : Dict Name SearchHit} (hrows : searchRows S value = .ok (documents, terms))
    (hreleased : releasedSearchRows S value = .ok (released, terms)) (hshapes : searchShapes S value = .ok shapes)
    (query : String) (limit : ℕ) :
    (∃ hits, canonicalSearch S value (foldedQuery S query) limit = .ok hits ∧
        projectionSearch documents terms (foldedQuery S query) limit shapes = some hits) ↔
      ∀ candidate, Shown (candidatesOf released terms (foldedQuery S query)) limit candidate →
        Selectable terms (foldedQuery S query) candidate.2 ∧ IsTextOrNull candidate.2.targetId := by
  have hfolded : Lower (foldedQuery S query).toList := S.casefold_lower _
  obtain ⟨documents', hrows', hblank⟩ := releasedSearchRows_eq_ok hreleased
  cases hrows.symm.trans hrows'
  have hwell := wellFolded_released (searchRows_wellFolded hrows) hblank
  have hcanonical : canonicalSearch S value (foldedQuery S query) limit =
      .ok (((inOrder candidateKey (candidatesOf released terms (foldedQuery S query))).take limit).map hitOf) := by
    unfold canonicalSearch
    rw [hreleased]
    rfl
  have hdictionary : shapes =
      released.foldl (fun shapes document ↦ Dict.set document.name (shapeOf S document) shapes) [] := by
    unfold searchShapes at hshapes
    rw [hreleased] at hshapes
    cases hshapes
    rfl
  have hprojection : projectionSearch documents terms (foldedQuery S query) limit shapes =
      some ((((inOrder candidateKey (candidatesOf released terms (foldedQuery S query))).filter fun candidate ↦
        selects terms (foldedQuery S query) candidate.2).take limit).map (projectedHit S)) := by
    rw [hdictionary, ← projectionSearch_eq hwell hfolded]
    unfold projectionSearch
    rw [selectRows_released hblank]
  have hnames : ((inOrder candidateKey (candidatesOf released terms (foldedQuery S query))).map fun candidate ↦
      candidate.2.name).Nodup :=
    (((perm_inOrder candidateKey _).map _).nodup_iff).mpr (nodup_candidates hwell.nodup)
  have hshow : ∀ a ∈ inOrder candidateKey (candidatesOf released terms (foldedQuery S query)),
      ∀ b ∈ inOrder candidateKey (candidatesOf released terms (foldedQuery S query)),
        projectedHit S a = hitOf b → a.2.name = b.2.name := by
    intro a _ b _ heq
    exact Prod.ext (congrArg SearchHit.kind heq) (congrArg SearchHit.itemId heq)
  have htake := take_map_eq_iff (p := fun candidate ↦ selects terms (foldedQuery S query) candidate.2) hnames hshow limit
  rw [hcanonical, hprojection]
  calc (∃ hits, Except.ok (((inOrder candidateKey (candidatesOf released terms (foldedQuery S query))).take limit).map
          hitOf) = (.ok hits : Checked _) ∧ _ = some hits)
      ↔ (((inOrder candidateKey (candidatesOf released terms (foldedQuery S query))).filter fun candidate ↦
          selects terms (foldedQuery S query) candidate.2).take limit).map (projectedHit S) =
        ((inOrder candidateKey (candidatesOf released terms (foldedQuery S query))).take limit).map hitOf := by simp
    _ ↔ _ := htake
    _ ↔ _ := by
      refine forall_congr' fun candidate ↦ ?_
      rw [shown_iff hwell.nodup]
      refine forall_congr' fun hshown ↦ ?_
      rw [selects_iff hwell hfolded (mem_candidatesOf hshown.1), projectedHit_eq_iff]

end Released

/-! ## A snapshot with one Task -/

theorem toLower_toLower (c : Char) : c.toLower.toLower = c.toLower := by
  by_cases h : 65 ≤ c.toNat ∧ c.toNat ≤ 90
  · have hc : c = Char.ofNat (65 + (c.toNat - 65)) := by
      rw [show 65 + (c.toNat - 65) = c.toNat by omega, Char.ofNat_toNat]
    have hn : c.toNat - 65 < 26 := by omega
    rw [hc]
    revert hn
    generalize c.toNat - 65 = n
    revert n
    decide
  · have hsame : c.toLower = c := by
      unfold Char.toLower
      rw [dif_neg]
      exact fun hupper ↦ h ⟨UInt32.le_iff_toNat_le.mp hupper.1, UInt32.le_iff_toNat_le.mp hupper.2⟩
    rw [hsame, hsame]

/-- `str.title` of ASCII text, behind a character that is a letter or none. -/
def asciiTitle : Bool → List Char → List Char
  | _, [] => []
  | behindLetter, c :: text =>
      (if behindLetter then c.toLower else c.toUpper) :: asciiTitle (c.isAlpha) text

def asciiCasing : Casing where
  toInterpreter := asciiInterpreter
  casefold text := String.ofList (text.toList.map Char.toLower)
  title text := String.ofList (asciiTitle false text.toList)
  casefold_lower text := by
    rw [String.toList_ofList, Lower, List.forall_mem_map]
    exact fun c _ ↦ toLower_toLower c

def sampleTask : Fields := [("id", .str "T-0001"), ("title", .str "Draft")]

def sampleSnapshot : Fields := [
  ("tasks", .arr [.obj sampleTask]), ("objectives", .arr []), ("notes", .arr []), ("captures", .arr []),
  ("activity", .arr []), ("planning_status", .obj [("T-0001", .str "open")])]

def sampleValue : SearchValue where
  kind := .task
  itemId := "T-0001"
  title := "Draft"
  subtitle := "open" ++ taskSuffix asciiCasing sampleTask
  targetKind := .task
  targetId := .str "T-0001"
  searchable := [""]

def sampleDocument : Document := documentOf asciiCasing sampleValue

def sampleTerms : List Term := termsOf asciiCasing sampleValue

theorem sample_searchRows : searchRows asciiCasing sampleSnapshot = .ok ([sampleDocument], sampleTerms) := by
  rfl

theorem sample_released : releasedSearchRows asciiCasing sampleSnapshot = .ok ([sampleDocument], sampleTerms) := by
  rfl

theorem sample_shapes :
    searchShapes asciiCasing sampleSnapshot = .ok [(sampleDocument.name, shapeOf asciiCasing sampleDocument)] := by
  rfl

theorem sampleTitle_agrees : ∃ hits,
    canonicalSearch asciiCasing sampleSnapshot (foldedQuery asciiCasing "Draft") 50 = .ok hits ∧
      projectionSearch [sampleDocument] sampleTerms (foldedQuery asciiCasing "Draft") 50
        [(sampleDocument.name, shapeOf asciiCasing sampleDocument)] = some hits := by
  apply (search_agrees_iff sample_searchRows sample_released sample_shapes "Draft" 50).mpr
  intro candidate hshown
  have hdocument : candidate.2 = sampleDocument := List.mem_singleton.mp (mem_candidatesOf hshown.1)
  rw [hdocument]
  exact ⟨by decide, .inr ⟨"T-0001", rfl⟩⟩

/-- A part of an id is found in the snapshot and not in the projection. -/
theorem partOfId_differs : ∃ documents terms shapes hits, searchRows asciiCasing sampleSnapshot = .ok (documents, terms) ∧
    searchShapes asciiCasing sampleSnapshot = .ok shapes ∧
    canonicalSearch asciiCasing sampleSnapshot (foldedQuery asciiCasing "T-00") 50 = .ok hits ∧
      projectionSearch documents terms (foldedQuery asciiCasing "T-00") 50 shapes ≠ some hits := by
  let shown : List Candidate :=
    (inOrder candidateKey (candidatesOf [sampleDocument] sampleTerms (foldedQuery asciiCasing "T-00"))).take 50
  have hfound : shown.length = 1 := by decide
  have hcanonical : canonicalSearch asciiCasing sampleSnapshot (foldedQuery asciiCasing "T-00") 50 =
      .ok (shown.map hitOf) := by
    unfold canonicalSearch
    rw [sample_released]
    rfl
  refine ⟨_, _, _, _, sample_searchRows, sample_shapes, hcanonical, ?_⟩
  intro hsame
  have hnone : (selectRows [sampleDocument] sampleTerms (foldedQuery asciiCasing "T-00") 50).length = 0 := by
    decide
  unfold projectionSearch at hsame
  rw [List.length_eq_zero_iff.mp hnone] at hsame
  have hlength := congrArg List.length (Option.some.inj hsame)
  rw [List.length_map, hfound] at hlength
  cases hlength

end WorkStack.Storage
