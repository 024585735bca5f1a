import WorkStack.Python.FlatTexts
import WorkStack.Reports.DailyReport
import WorkStack.Text.Escaping

/-!
# The lines of the daily report

An inert text begins with no marker of Markdown and breaks no line, so the headings and the list items of a
report are the ones that the renderer wrote, and the texts of a day decide nothing about the structure of its
report.
-/

open WorkStack.Effect.Refusing WorkStack.Python WorkStack.Python.Decoding WorkStack.Text.Escaping

namespace WorkStack.Reports.Daily

/-! ## Inert text -/

/-- The punctuation of ASCII. -/
def isAsciiPunctuation (c : Char) : Bool :=
  let n := c.toNat
  (33 ≤ n && n ≤ 47) || (58 ≤ n && n ≤ 64) || (91 ≤ n && n ≤ 96) || (123 ≤ n && n ≤ 126)

/-- A text with each of its line breaks as a space. -/
def withSpaces : List Char → List Char
  | '\r' :: '\n' :: rest => ' ' :: withSpaces rest
  | c :: rest => (if c = '\n' ∨ c = '\r' then ' ' else c) :: withSpaces rest
  | [] => []

theorem mem_htmlNames {c : Char} {name : List Char} (h : (c, name) ∈ htmlNames) :
    (c = '&' ∧ name = "&amp;".toList) ∨ (c = '<' ∧ name = "&lt;".toList) ∨ (c = '>' ∧ name = "&gt;".toList) := by
  simpa [htmlNames] using h

/-- The escapes of `inert_text`. -/
def htmlTable : Table where
  names := htmlNames
  marked := isPunct
  sign := '&'
  name_eq c name h := by
    rcases mem_htmlNames h with ⟨-, rfl⟩ | ⟨-, rfl⟩ | ⟨-, rfl⟩
    · exact ⟨"amp;".toList, rfl, by decide⟩
    · exact ⟨"lt;".toList, rfl, by decide⟩
    · exact ⟨"gt;".toList, rfl, by decide⟩
  sign_named := by decide
  marked_named c h := by
    have hall : ∀ d ∈ "!\"#$%'()*+,-./:;=?@[\\]^_`\x7b|\x7d~".toList, d ∉ htmlNames.map Prod.fst :=
      forall_of_all (by decide)
    exact hall c (by simpa [isPunct] using h)
  marked_backslash := by decide
  backslash_not_mem c name h := by
    rcases mem_htmlNames h with ⟨-, rfl⟩ | ⟨-, rfl⟩ | ⟨-, rfl⟩ <;> decide
  eq_of_isPrefix c name c' name' h h' hstart := by
    rcases mem_htmlNames h with ⟨rfl, rfl⟩ | ⟨rfl, rfl⟩ | ⟨rfl, rfl⟩ <;>
      rcases mem_htmlNames h' with ⟨rfl, rfl⟩ | ⟨rfl, rfl⟩ | ⟨rfl, rfl⟩ <;> revert hstart <;> decide

theorem inertChar_eq (c : Char) : inertChar c = htmlTable.escapeChar (if c = '\n' then ' ' else c) := by
  unfold inertChar
  split
  · decide
  · rfl

theorem map_unified (text : List Char) :
    (unified text).map (fun c ↦ if c = '\n' then ' ' else c) = withSpaces text := by
  induction text using withSpaces.induct with
  | case1 rest ih =>
      rw [unified, replaceCrLf, withSpaces, ← ih, unified]
      rfl
  | case2 c rest hne ih =>
      have hsplit : replaceCrLf (c :: rest) = c :: replaceCrLf rest := by rw [replaceCrLf]; exact hne
      have hspaces : withSpaces (c :: rest) = (if c = '\n' ∨ c = '\r' then ' ' else c) :: withSpaces rest := by
        rw [withSpaces]; exact hne
      rw [unified, hsplit, hspaces, ← ih, unified, List.map_cons, List.map_cons]
      congr 1
      by_cases hr : c = '\r' <;> by_cases hn : c = '\n' <;> simp [hr, hn]
  | case3 => rfl

/-- An inert text is the escaped text without line breaks. -/
theorem inertText_eq (value : String) : inertText value = htmlTable.escape (withSpaces value.toList) := by
  rw [← map_unified, Table.escape, List.flatMap_map, inertText]
  exact congrArg (fun f ↦ List.flatMap f _) (funext inertChar_eq)

theorem not_mem_withSpaces (text : List Char) : '\n' ∉ withSpaces text ∧ '\r' ∉ withSpaces text := by
  induction text using withSpaces.induct with
  | case1 rest ih => simpa [withSpaces] using ih
  | case2 c rest hne ih =>
      rw [withSpaces]
      · by_cases hn : c = '\n' <;> by_cases hr : c = '\r' <;> simp_all [eq_comm]
      · exact hne
  | case3 => simp [withSpaces]

/-- How a character comes to stand in an inert text. -/
theorem placed_of_inertText {value : String} {front back : Line} {c : Char} (h : inertText value = front ++ c :: back) :
    (∃ name ∈ htmlNames.map Prod.snd, ∃ left right, name = left ++ c :: right ∧ left <:+ front ∧ right <+: back) ∨
      (c = '\\' ∧ Even (run front) ∧ ∃ d rest, back = d :: rest ∧ isPunct d = true) ∨
      (isPunct c = true ∧ Odd (run front)) ∨
      (isPunct c = false ∧ c ∉ htmlNames.map Prod.fst ∧ c ∈ withSpaces value.toList) := by
  rw [inertText_eq] at h
  rcases Table.placed_of_escape h with ⟨d, name, hname, hplace⟩ | hescape | hmarked | ⟨hmarked, hnamed, hmem⟩
  · exact .inl ⟨name, List.mem_map_of_mem hname, hplace⟩
  · exact .inr (.inl hescape)
  · exact .inr (.inr (.inl hmarked))
  · exact .inr (.inr (.inr ⟨hmarked, hnamed, hmem⟩))

theorem not_mem_inertText {value : String} {c : Char} (hname : ∀ name ∈ htmlNames.map Prod.snd, c ∉ name)
    (hpunct : isPunct c = false) (hplain : c ∈ htmlNames.map Prod.fst ∨ c ∉ withSpaces value.toList) :
    c ∉ inertText value := by
  intro hmem
  obtain ⟨front, back, h⟩ := List.append_of_mem hmem
  rcases placed_of_inertText h with ⟨name, hmem, left, right, hsplit, -⟩ | ⟨rfl, -⟩ | ⟨hmarked, -⟩ | ⟨-, hnamed, htext⟩
  · exact hname name hmem (by simp [hsplit])
  · exact absurd hpunct (by decide)
  · rw [hpunct] at hmarked
    cases hmarked
  · rcases hplain with hplain | hplain
    · exact hnamed hplain
    · exact hplain htext

theorem isPunct_iff {c : Char} : isAsciiPunctuation c = true ↔ isPunct c = true ∨ c ∈ htmlNames.map Prod.fst := by
  constructor
  · intro h
    have hlt : c.toNat < 127 := by
      simp only [isAsciiPunctuation, Bool.or_eq_true, Bool.and_eq_true, decide_eq_true_eq] at h
      omega
    have hall : ∀ n < 127, isAsciiPunctuation (Char.ofNat n) = true →
        isPunct (Char.ofNat n) = true ∨ Char.ofNat n ∈ htmlNames.map Prod.fst := by decide
    simpa [Char.ofNat_toNat] using hall c.toNat hlt (by simpa [Char.ofNat_toNat] using h)
  · rintro (h | h)
    · have hall : ∀ d ∈ "!\"#$%'()*+,-./:;=?@[\\]^_`\x7b|\x7d~".toList, isAsciiPunctuation d = true :=
        forall_of_all (by decide)
      exact hall c (by simpa [isPunct] using h)
    · have hall : ∀ d ∈ htmlNames.map Prod.fst, isAsciiPunctuation d = true := forall_of_all (by decide)
      exact hall c h

/-- What makes a line of a report literal: it breaks no line, holds no tag, and each mark of punctuation is an
entity's, an escape, or escaped. -/
structure IsInert (text : Line) : Prop where
  noLineFeed : '\n' ∉ text
  noReturn : '\r' ∉ text
  noOpening : '<' ∉ text
  noClosing : '>' ∉ text
  entity : ∀ front back, text = front ++ '&' :: back → ∃ name ∈ htmlNames.map Prod.snd, name <+: '&' :: back
  escaped : ∀ front c back, text = front ++ c :: back → isAsciiPunctuation c = true → c ≠ '&' →
    Odd (run front) ∨ (c = ';' ∧ ∃ name ∈ htmlNames.map Prod.snd, name <:+ front ++ [c]) ∨
      (c = '\\' ∧ Even (run front) ∧ ∃ d rest, back = d :: rest ∧ isAsciiPunctuation d = true)

/-- A mark of punctuation in a name is the one it begins with or the one it ends with. -/
theorem punctuation_of_name {name left right : Line} {c : Char} (hname : name ∈ htmlNames.map Prod.snd)
    (h : name = left ++ c :: right) (hc : isAsciiPunctuation c = true) :
    (c = '&' ∧ left = []) ∨ (c = ';' ∧ right = []) := by
  have hall : ∀ name ∈ htmlNames.map Prod.snd, ∀ n < name.length, isAsciiPunctuation (name.getD n 'a') = true →
      (name.getD n 'a' = '&' ∧ n = 0) ∨ (name.getD n 'a' = ';' ∧ n + 1 = name.length) := by decide
  have hget : name.getD left.length 'a' = c := by simp [h]
  have hlength : name.length = left.length + (right.length + 1) := by simp [h]
  have hplace := hall name hname left.length (by omega)
  rw [hget] at hplace
  rcases hplace hc with ⟨hc, hleft⟩ | ⟨hc, hright⟩
  · exact .inl ⟨hc, List.length_eq_zero_iff.mp hleft⟩
  · exact .inr ⟨hc, List.length_eq_zero_iff.mp (by omega)⟩

theorem isInert_inertText (value : String) : IsInert (inertText value) where
  noLineFeed := not_mem_inertText (by decide) (by decide) (.inr (not_mem_withSpaces _).1)
  noReturn := not_mem_inertText (by decide) (by decide) (.inr (not_mem_withSpaces _).2)
  noOpening := not_mem_inertText (by decide) (by decide) (.inl (by decide))
  noClosing := not_mem_inertText (by decide) (by decide) (.inl (by decide))
  entity front back h := by
    rw [inertText_eq] at h
    obtain ⟨d, name, hname, hstart⟩ := Table.name_of_sign h
    exact ⟨name, List.mem_map_of_mem hname, hstart⟩
  escaped front c back h hc hne := by
    rcases placed_of_inertText h with ⟨name, hname, left, right, hsplit, hleft, -⟩ | ⟨hc', heven, d, rest, hback, hd⟩ |
      ⟨-, hodd⟩ | ⟨hmarked, hnamed, -⟩
    · rcases punctuation_of_name hname hsplit hc with ⟨hamp, -⟩ | ⟨hsemi, hright⟩
      · exact absurd hamp hne
      · obtain ⟨before, hbefore⟩ := hleft
        refine .inr (.inl ⟨hsemi, name, hname, before, ?_⟩)
        rw [hsplit, hright, ← hbefore, List.append_assoc]
    · exact .inr (.inr ⟨hc', heven, d, rest, hback, isPunct_iff.mpr (.inl hd)⟩)
    · exact .inl hodd
    · rcases isPunct_iff.mp hc with h' | h'
      · rw [hmarked] at h'
        cases h'
      · exact absurd h' hnamed

/-- A reader takes an inert text for the value with its line breaks as spaces. -/
theorem unescape_inertText (value : String) : htmlTable.unescape (inertText value) = withSpaces value.toList := by
  rw [inertText_eq, Table.unescape_escape]

/-! ## The marks of lines -/

/-- What a line is to a reader of Markdown, as far as its first characters say. -/
inductive Mark where
  | heading (level : ℕ)
  | item
  | text
  deriving DecidableEq, Repr

def lineMark (line : Line) : Mark :=
  if line.head? = some '#' then .heading (line.takeWhile (· == '#')).length
  else if "- ".toList <+: line then .item
  else .text

/-- Whether a line starts with `#` or `- `. -/
def isMarked (line : Line) : Bool := lineMark line ≠ .text

theorem lineMark_cons {c : Char} (hash : c ≠ '#') (dash : c ≠ '-') (rest : Line) : lineMark (c :: rest) = .text := by
  have hstart : ¬"- ".toList <+: c :: rest := fun h ↦ dash (List.cons_prefix_cons.mp h).1.symm
  rw [lineMark, if_neg (by simpa using hash), if_neg hstart]

/-- A line without blanks and hashes has no mark. -/
theorem lineMark_of_not_mem {line : Line} (hash : '#' ∉ line) (blank : ' ' ∉ line) : lineMark line = .text := by
  have hhead : line.head? ≠ some '#' := fun h ↦ hash (List.mem_of_mem_head? h)
  have hstart : ¬"- ".toList <+: line := fun h ↦ blank (h.subset (by decide))
  rw [lineMark, if_neg hhead, if_neg hstart]

theorem lineMark_inertText (value : String) : lineMark (inertText value) = .text := by
  cases h : inertText value with
  | nil => decide
  | cons c rest =>
      have hinert : IsInert (c :: rest) := h ▸ isInert_inertText value
      have hfirst : ∀ d, d ∈ ['#', '-'] → c ≠ d := by
        rintro d hd rfl
        have hall : ∀ d ∈ ['#', '-'], isAsciiPunctuation d = true ∧ d ≠ '&' ∧ d ≠ ';' ∧ d ≠ '\\' :=
          forall_of_all (by decide)
        obtain ⟨hc, hamp, hsemi, hback⟩ := hall c hd
        rcases hinert.escaped [] c rest rfl hc hamp with hodd | ⟨hc', -⟩ | ⟨hc', -⟩
        · exact absurd hodd (by decide)
        · exact hsemi hc'
        · exact hback hc'
      exact lineMark_cons (hfirst '#' (by decide)) (hfirst '-' (by decide)) rest

theorem lineMark_checkInLine (checkIn : CheckIn) : lineMark (checkInLine checkIn) = .text := by
  cases checkIn with
  | recorded value => exact lineMark_inertText value
  | omitted => decide
  | unusable => decide
  | notRecorded => decide

theorem lineMark_itemLine (item : String) : lineMark (itemLine item) = .item := by
  have hstart : "- ".toList <+: itemLine item := List.prefix_append _ _
  have hhead : (itemLine item).head? ≠ some '#' := by simp [itemLine]
  rw [lineMark, if_neg hhead, if_pos hstart]

/-- A line of hashes, a blank and a text is a heading. -/
theorem lineMark_heading {hashes : Line} (hne : hashes ≠ []) (hall : ∀ c ∈ hashes, c = '#') (rest : Line) :
    lineMark (hashes ++ ' ' :: rest) = .heading hashes.length := by
  have hhead : (hashes ++ ' ' :: rest).head? = some '#' := by
    cases hashes with
    | nil => exact absurd rfl hne
    | cons c hashes => simp [hall c (List.mem_cons_self ..)]
  have htake : (hashes ++ ' ' :: rest).takeWhile (· == '#') = hashes := by
    rw [List.takeWhile_append_of_pos (by simpa using hall), List.takeWhile_cons, if_neg (by decide), List.append_nil]
  rw [lineMark, if_pos hhead, htake]

theorem lineMark_titleLine (date : String) : lineMark (titleLine date) = .heading 1 :=
  @lineMark_heading ['#'] (by simp) (by simp) ("Daily review ".toList ++ date.toList)

theorem lineMark_headingLine (entry : Entry) : lineMark (headingLine entry) = .heading 3 :=
  @lineMark_heading ['#', '#', '#'] (by simp) (by simp) (entryHeading entry.taskId entry.task)

/-! ## The lines of an entry -/

/-- The lines of a report that start with `#` or `- ` and that an entry's list of items is written as. -/
def itemMarks : Items → List Line
  | ⟨.recorded, items⟩ => items.map itemLine
  | ⟨.listed, items⟩ => items.map itemLine
  | _ => []

/-- The ones that an entry is written as. -/
def entryMarked (entry : Entry) : List Line :=
  if entry.recorded then
    headingLine entry :: (itemMarks entry.done ++ itemMarks entry.next ++ itemMarks entry.blockers)
  else ["### Entry omitted".toList]

/-- The lines that start with `#` or `- ` and that the renderer writes itself. -/
def markedLines (date : String) (facts : DayFacts) : List Line :=
  titleLine date :: "## Check-in".toList :: "## Day record".toList :: facts.entries.flatMap entryMarked

/-- What the number of lines of a list of items and their marks depend on. -/
def itemsShape (items : Items) : ItemStatus × ℕ := (items.status, items.items.length)

/-- What the number of lines of an entry and their marks depend on: which of its fields are present, and how many
items its lists have. -/
structure EntryShape where
  recorded : Bool
  hasSession : Bool
  hasDuration : Bool
  done : ItemStatus × ℕ
  next : ItemStatus × ℕ
  blockers : ItemStatus × ℕ
  deriving DecidableEq, Repr

def Entry.shape (entry : Entry) : EntryShape :=
  ⟨entry.recorded, entry.sessionId.isSome, entry.durationSeconds.isSome, itemsShape entry.done,
    itemsShape entry.next, itemsShape entry.blockers⟩

def DayFacts.shape (facts : DayFacts) : List EntryShape := facts.entries.map Entry.shape

/-- The marks of the lines of a list of items. -/
def fieldMarks : ItemStatus × ℕ → List Mark
  | (.recorded, n) => if n = 0 then [] else .text :: List.replicate n .item ++ [.text]
  | (.listed, n) => .text :: .text :: List.replicate n .item ++ [.text]
  | _ => [.text, .text]

def bodyMarks (shape : EntryShape) : List Mark :=
  let body := fieldMarks shape.done ++ fieldMarks shape.next ++ fieldMarks shape.blockers
  if body = [] then [.text, .text] else body

/-- The marks of the lines of an entry. -/
def entryMarks (shape : EntryShape) : List Mark :=
  if shape.recorded then
    .heading 3 :: .text :: (if shape.hasSession || shape.hasDuration then [.text, .text] else []) ++ bodyMarks shape
  else [.heading 3, .text, .text]

/-- The marks of the lines of a report. -/
def reportMarks (shapes : List EntryShape) : List Mark :=
  [.heading 1, .text, .text, .text, .text, .heading 2, .text, .text, .text, .heading 2, .text] ++
    if shapes = [] then [.text, .text] else shapes.flatMap fun shape ↦ entryMarks shape ++ [.text]

section Fields

variable {label : String} (hlabel : ∃ c rest, label.toList = c :: rest ∧ c ≠ '#' ∧ c ≠ '-')
include hlabel

theorem lineMark_label (rest : Line) : lineMark (label.toList ++ rest) = .text := by
  obtain ⟨c, tail, htext, hash, dash⟩ := hlabel
  rw [htext]
  exact lineMark_cons hash dash (tail ++ rest)

theorem map_fieldLines (items : Items) : (fieldLines label items).map lineMark = fieldMarks (itemsShape items) := by
  have hitems (texts : List String) : (texts.map itemLine).map lineMark = List.replicate texts.length .item := by
    rw [List.map_map]
    exact List.map_eq_replicate_iff.mpr fun item _ ↦ lineMark_itemLine item
  have hlabel' : lineMark label.toList = .text := by simpa using lineMark_label hlabel []
  have hnotice : lineMark listNotice = .text := by decide
  have hempty : lineMark [] = .text := by decide
  obtain ⟨status, texts⟩ := items
  cases status with
  | omitted => simp [fieldLines, fieldMarks, itemsShape, lineMark_label hlabel, hempty]
  | unusable => simp [fieldLines, fieldMarks, itemsShape, lineMark_label hlabel, hempty]
  | listed => simp [fieldLines, fieldMarks, itemsShape, hlabel', hnotice, hitems, hempty]
  | recorded =>
      by_cases htexts : texts = []
      · simp [fieldLines, fieldMarks, itemsShape, htexts]
      · simp [fieldLines, fieldMarks, itemsShape, htexts, hlabel', hitems, hempty]

theorem filter_fieldLines (items : Items) : (fieldLines label items).filter isMarked = itemMarks items := by
  have hitems (texts : List String) : (texts.map itemLine).filter isMarked = texts.map itemLine := by
    rw [List.filter_eq_self]
    intro line hline
    obtain ⟨item, -, rfl⟩ := List.mem_map.mp hline
    simp [isMarked, lineMark_itemLine]
  have hlabel' : isMarked label.toList = false := by simpa [isMarked] using lineMark_label hlabel []
  have hlong (rest : Line) : isMarked (label.toList ++ rest) = false := by
    simpa [isMarked] using lineMark_label hlabel rest
  have hnotice : isMarked listNotice = false := by decide
  have hempty : isMarked [] = false := by decide
  obtain ⟨status, texts⟩ := items
  cases status with
  | omitted => simp [fieldLines, itemMarks, hlong, hempty]
  | unusable => simp [fieldLines, itemMarks, hlong, hempty]
  | listed => simp [fieldLines, itemMarks, hlabel', hnotice, hitems, hempty]
  | recorded =>
      by_cases htexts : texts = []
      · simp [fieldLines, itemMarks, htexts]
      · simp [fieldLines, itemMarks, htexts, hlabel', hitems, hempty]

end Fields

theorem lineMark_duration (seconds : ℤ) : lineMark ((toString seconds).toList ++ ['s']) = .text := by
  have hchars : ∀ c ∈ (toString seconds).toList ++ ['s'], c.isDigit = true ∨ c = '-' ∨ c = 's' := by
    intro c hc
    rcases List.mem_append.mp hc with hc | hc
    · exact (Json.isDigit_of_mem_toString hc).imp_right .inl
    · exact .inr (.inr (List.mem_singleton.mp hc))
  apply lineMark_of_not_mem
  · exact fun h ↦ absurd (hchars _ h) (by decide)
  · exact fun h ↦ absurd (hchars _ h) (by decide)

theorem lineMark_extraLine (entry : Entry) : lineMark (extraLine entry) = .text := by
  cases hsession : entry.sessionId with
  | some id =>
      have hsplit : ∃ rest, extraLine entry = 's' :: rest := by
        cases hduration : entry.durationSeconds <;>
          simp [extraLine, extras, hsession, hduration, Json.joined, List.intercalate]
      obtain ⟨rest, hrest⟩ := hsplit
      rw [hrest]
      exact lineMark_cons (by decide) (by decide) rest
  | none =>
      cases hduration : entry.durationSeconds with
      | none => simp [extraLine, extras, hsession, hduration, Json.joined, List.intercalate, lineMark]
      | some seconds =>
          have hsplit : extraLine entry = (toString seconds).toList ++ ['s'] := by
            simp [extraLine, extras, hsession, hduration, Json.joined, List.intercalate]
          rw [hsplit]
          exact lineMark_duration seconds

theorem extras_eq_nil {entry : Entry} :
    extras entry = [] ↔ (entry.sessionId.isSome || entry.durationSeconds.isSome) = false := by
  cases hsession : entry.sessionId <;> cases hduration : entry.durationSeconds <;> simp [extras, hsession, hduration]

/-- The renderer's own labels. -/
theorem label_done : ∃ c rest, "Done".toList = c :: rest ∧ c ≠ '#' ∧ c ≠ '-' := ⟨'D', "one".toList, by decide⟩

theorem label_next : ∃ c rest, "Next".toList = c :: rest ∧ c ≠ '#' ∧ c ≠ '-' := ⟨'N', "ext".toList, by decide⟩

theorem label_blockers : ∃ c rest, "Blockers".toList = c :: rest ∧ c ≠ '#' ∧ c ≠ '-' :=
  ⟨'B', "lockers".toList, by decide⟩

theorem map_bodyLines (entry : Entry) : (bodyLines entry).map lineMark = bodyMarks entry.shape := by
  have hbody : (fieldLines "Done" entry.done ++ fieldLines "Next" entry.next ++
      fieldLines "Blockers" entry.blockers).map lineMark =
      fieldMarks entry.shape.done ++ fieldMarks entry.shape.next ++ fieldMarks entry.shape.blockers := by
    rw [List.map_append, List.map_append, map_fieldLines label_done, map_fieldLines label_next,
      map_fieldLines label_blockers, Entry.shape]
  have hempty := congrArg (· = []) hbody
  simp only [List.map_eq_nil_iff] at hempty
  unfold bodyLines bodyMarks
  dsimp only
  split
  · rename_i h
    rw [if_pos (hempty ▸ h)]
    decide
  · rename_i h
    rw [if_neg (hempty ▸ h), hbody]

theorem filter_bodyLines (entry : Entry) : (bodyLines entry).filter isMarked =
    itemMarks entry.done ++ itemMarks entry.next ++ itemMarks entry.blockers := by
  have hbody : (fieldLines "Done" entry.done ++ fieldLines "Next" entry.next ++
      fieldLines "Blockers" entry.blockers).filter isMarked =
      itemMarks entry.done ++ itemMarks entry.next ++ itemMarks entry.blockers := by
    rw [List.filter_append, List.filter_append, filter_fieldLines label_done, filter_fieldLines label_next,
      filter_fieldLines label_blockers]
  unfold bodyLines
  dsimp only
  split
  · rename_i h
    rw [← hbody, h]
    decide
  · exact hbody

theorem map_entryLines (entry : Entry) : (entryLines entry).map lineMark = entryMarks entry.shape := by
  unfold entryLines entryMarks
  split
  · rename_i h
    have hextra : (extraLines entry).map lineMark =
        if entry.shape.hasSession || entry.shape.hasDuration then [.text, .text] else [] := by
      unfold extraLines
      split
      · rename_i hnone
        have hshape := extras_eq_nil.mp hnone
        simp [Entry.shape, hshape]
      · rename_i hsome
        have hshape : (entry.sessionId.isSome || entry.durationSeconds.isSome) = true :=
          Bool.eq_true_of_not_eq_false fun hnone ↦ hsome (extras_eq_nil.mpr hnone)
        have hempty : lineMark [] = .text := by decide
        simp [Entry.shape, hshape, lineMark_extraLine, hempty]
    have hempty : lineMark [] = .text := by decide
    rw [if_pos (show entry.shape.recorded = true from h), List.cons_append, List.map_cons, List.cons_append,
      List.map_cons, List.map_append, hextra, map_bodyLines, lineMark_headingLine, hempty]
    rfl
  · rename_i h
    rw [if_neg (show ¬entry.shape.recorded = true from h)]
    decide

theorem filter_entryLines (entry : Entry) : (entryLines entry).filter isMarked = entryMarked entry := by
  unfold entryLines entryMarked
  split
  · have hextra : (extraLines entry).filter isMarked = [] := by
      have hempty : isMarked [] = false := by decide
      have hline : isMarked (extraLine entry) = false := by simp [isMarked, lineMark_extraLine]
      unfold extraLines
      split
      · rfl
      · simp [hline, hempty]
    have hheading : isMarked (headingLine entry) = true := by simp [isMarked, lineMark_headingLine]
    have hempty : isMarked [] = false := by decide
    simp [hheading, hempty, hextra, filter_bodyLines]
  · decide

/-! ## Line feeds -/

theorem no_feed_inertText (value : String) : '\n' ∉ inertText value := (isInert_inertText value).noLineFeed

theorem no_feed_checkInLine (checkIn : CheckIn) : '\n' ∉ checkInLine checkIn := by
  cases checkIn with
  | recorded value => exact no_feed_inertText value
  | omitted => decide
  | unusable => decide
  | notRecorded => decide

theorem no_feed_fieldLines {label : String} (hlabel : '\n' ∉ label.toList) (items : Items) :
    ∀ line ∈ fieldLines label items, '\n' ∉ line := by
  have hitems (texts : List String) : ∀ line ∈ texts.map itemLine ++ [[]], '\n' ∉ line := by
    rw [List.forall_mem_append]
    constructor
    · intro line hline
      obtain ⟨item, -, rfl⟩ := List.mem_map.mp hline
      exact List.not_mem_append (by decide) (no_feed_inertText item)
    · simp
  have hnotice : '\n' ∉ listNotice := by decide
  obtain ⟨status, texts⟩ := items
  cases status with
  | omitted => simp [fieldLines, hlabel]
  | unusable => simp [fieldLines, hlabel]
  | listed =>
      exact List.forall_mem_cons.mpr ⟨hlabel, List.forall_mem_cons.mpr ⟨hnotice, hitems texts⟩⟩
  | recorded =>
      simp only [fieldLines]
      split
      · simp
      · exact List.forall_mem_cons.mpr ⟨hlabel, hitems texts⟩

theorem no_feed_extraLine (entry : Entry) : '\n' ∉ extraLine entry := by
  have hduration (seconds : ℤ) : '\n' ∉ seconds.repr.toList := fun h ↦
    absurd (Json.isDigit_of_mem_toString h) (by decide)
  cases hsession : entry.sessionId with
  | none =>
      cases hseconds : entry.durationSeconds <;>
        simp [extraLine, extras, hsession, hseconds, Json.joined, List.intercalate, hduration]
  | some id =>
      cases hseconds : entry.durationSeconds <;>
        simp [extraLine, extras, hsession, hseconds, Json.joined, List.intercalate, hduration, no_feed_inertText]

theorem no_feed_taskIdentity (taskId : Option String) :
    '\n' ∉ match taskId with
      | some id => inertText id
      | none => "Task omitted".toList := by
  cases taskId with
  | none => decide
  | some id => exact no_feed_inertText id

theorem no_feed_headingLine (entry : Entry) : '\n' ∉ headingLine entry := by
  have hidentity := no_feed_taskIdentity entry.taskId
  apply List.not_mem_append (by decide)
  unfold entryHeading
  dsimp only
  split
  · exact List.not_mem_append hidentity (by decide)
  · exact List.not_mem_append (List.not_mem_append hidentity (by decide)) (no_feed_inertText _)

theorem no_feed_bodyLines (entry : Entry) : ∀ line ∈ bodyLines entry, '\n' ∉ line := by
  unfold bodyLines
  dsimp only
  split
  · exact List.forall_mem_cons.mpr ⟨by decide, by simp⟩
  · rw [List.forall_mem_append]
    constructor
    · exact List.forall_mem_append.mpr
        ⟨no_feed_fieldLines (by decide) entry.done, no_feed_fieldLines (by decide) entry.next⟩
    · exact no_feed_fieldLines (by decide) entry.blockers

theorem no_feed_entryLines (entry : Entry) : ∀ line ∈ entryLines entry, '\n' ∉ line := by
  have hempty : '\n' ∉ ([] : Line) := List.not_mem_nil
  have hextra : ∀ line ∈ extraLines entry, '\n' ∉ line := by
    unfold extraLines
    split
    · simp
    · simp [no_feed_extraLine]
  unfold entryLines
  split
  · exact List.forall_mem_append.mpr ⟨List.forall_mem_cons.mpr ⟨no_feed_headingLine entry,
      List.forall_mem_cons.mpr ⟨hempty, hextra⟩⟩, no_feed_bodyLines entry⟩
  · exact List.forall_mem_cons.mpr ⟨by decide, List.forall_mem_cons.mpr ⟨hempty, List.forall_mem_cons.mpr
      ⟨by decide, by simp⟩⟩⟩

theorem no_feed_reportLines {date : String} (hdate : '\n' ∉ date.toList) (generatedAt : String) (facts : DayFacts) :
    ∀ line ∈ reportLines date generatedAt facts, '\n' ∉ line := by
  have hempty : '\n' ∉ ([] : Line) := List.not_mem_nil
  rw [reportLines, List.forall_mem_append]
  constructor
  · simp only [List.forall_mem_cons]
    exact ⟨List.not_mem_append (by decide) hdate, hempty, List.not_mem_append (by decide) hdate,
      List.not_mem_append (by decide) (no_feed_inertText generatedAt), hempty, by decide, hempty,
      no_feed_checkInLine facts.checkIn, hempty, by decide, hempty, List.forall_mem_nil _⟩
  · split
    · exact List.forall_mem_cons.mpr ⟨by decide, by simp⟩
    · intro line hline
      obtain ⟨entry, -, hentry⟩ := List.mem_flatMap.mp hline
      rcases List.mem_append.mp hentry with hentry | hentry
      · exact no_feed_entryLines entry line hentry
      · rw [List.mem_singleton.mp hentry]
        exact hempty

/-- The lines of a report, split at line feeds, are the ones that were rendered. -/
theorem splitOn_renderMarkdown {date : String} (hdate : '\n' ∉ date.toList) (generatedAt : String) (facts : DayFacts) :
    (renderMarkdown date generatedAt facts).toList.splitOn '\n' = reportLines date generatedAt facts := by
  rw [renderMarkdown, String.toList_ofList, Json.joined]
  exact List.splitOn_intercalate _ (no_feed_reportLines hdate generatedAt facts)
    (List.append_ne_nil_of_left_ne_nil (List.cons_ne_nil _ _) _)

/-! ## The lines of a report -/

theorem lineMark_period (rest : Line) : lineMark ("Period: ".toList ++ rest) = .text :=
  lineMark_cons (c := 'P') (by decide) (by decide) ("eriod: ".toList ++ rest)

theorem lineMark_stamp (rest : Line) : lineMark ("Generated at: ".toList ++ rest) = .text :=
  lineMark_cons (c := 'G') (by decide) (by decide) ("enerated at: ".toList ++ rest)

theorem not_isMarked {line : Line} (h : lineMark line = .text) : isMarked line = false := by simp [isMarked, h]

theorem map_reportLines (date generatedAt : String) (facts : DayFacts) :
    (reportLines date generatedAt facts).map lineMark = reportMarks facts.shape := by
  have hempty : lineMark [] = .text := by decide
  have hcheckIn : lineMark "## Check-in".toList = .heading 2 := by decide
  have hrecord : lineMark "## Day record".toList = .heading 2 := by decide
  have hnone : lineMark "No records.".toList = .text := by decide
  have hentries : (facts.entries.flatMap fun entry ↦ entryLines entry ++ [[]]).map lineMark =
      facts.shape.flatMap fun shape ↦ entryMarks shape ++ [.text] := by
    rw [DayFacts.shape, List.map_flatMap, List.flatMap_map]
    refine congrArg (fun f ↦ List.flatMap f facts.entries) (funext fun entry ↦ ?_)
    rw [List.map_append, map_entryLines, List.map_singleton, hempty]
  rw [reportLines, reportMarks, List.map_append]
  congr 1
  · simp only [List.map_cons, List.map_nil, lineMark_titleLine, lineMark_period, lineMark_stamp, hcheckIn, hrecord,
      hempty, lineMark_checkInLine]
  · by_cases hshape : facts.entries = []
    · rw [if_pos hshape, if_pos (by rw [DayFacts.shape, hshape, List.map_nil]), List.map_cons, List.map_singleton,
        hnone, hempty]
    · rw [if_neg hshape, if_neg (by simpa [DayFacts.shape] using hshape), hentries]

theorem filter_reportLines (date generatedAt : String) (facts : DayFacts) :
    (reportLines date generatedAt facts).filter isMarked = markedLines date facts := by
  have hempty : isMarked [] = false := by decide
  have hperiod (rest : Line) : isMarked ("Period: ".toList ++ rest) = false := not_isMarked (lineMark_period rest)
  have hstamp (rest : Line) : isMarked ("Generated at: ".toList ++ rest) = false := not_isMarked (lineMark_stamp rest)
  have htitle : isMarked (titleLine date) = true := by simp [isMarked, lineMark_titleLine]
  have hcheckIn : isMarked (checkInLine facts.checkIn) = false := not_isMarked (lineMark_checkInLine _)
  have hcheckIns : isMarked "## Check-in".toList = true := by decide
  have hrecord : isMarked "## Day record".toList = true := by decide
  have hnone : isMarked "No records.".toList = false := by decide
  have hentries : (facts.entries.flatMap fun entry ↦ entryLines entry ++ [[]]).filter isMarked =
      facts.entries.flatMap entryMarked := by
    rw [List.filter_flatMap]
    refine congrArg (fun f ↦ List.flatMap f facts.entries) (funext fun entry ↦ ?_)
    simp [filter_entryLines, hempty]
  have htail : (if facts.entries = [] then ["No records.".toList, []]
      else facts.entries.flatMap fun entry ↦ entryLines entry ++ [[]]).filter isMarked =
      facts.entries.flatMap entryMarked := by
    split
    · rename_i h
      rw [h]
      simp only [List.filter_cons, hnone, hempty]
      rfl
    · exact hentries
  rw [reportLines, List.filter_append, htail]
  simp only [List.filter_cons, htitle, hempty, hperiod, hstamp, hcheckIn, hcheckIns, hrecord]
  rfl

/-- The lines of a text that start with `#` or `- `. -/
def markerLines (text : String) : List Line :=
  (text.toList.splitOn '\n').filter fun line ↦ "#".toList.isPrefixOf line || "- ".toList.isPrefixOf line

/-- The marks of the lines of a text. -/
def lineStructure (text : String) : List Mark := (text.toList.splitOn '\n').map lineMark

theorem isMarked_eq (line : Line) : isMarked line = ("#".toList.isPrefixOf line || "- ".toList.isPrefixOf line) := by
  have hash : line.head? = some '#' ↔ "#".toList.isPrefixOf line = true := by
    cases line with
    | nil => decide
    | cons c rest => simpa using eq_comm
  unfold isMarked lineMark
  split
  · rename_i h
    rw [hash.mp h, Bool.true_or]
    rfl
  · rename_i h
    have hnot : "#".toList.isPrefixOf line = false := Bool.eq_false_iff.mpr (mt hash.mpr h)
    rw [hnot, Bool.false_or, Bool.eq_iff_iff, List.isPrefixOf_iff_prefix]
    split <;> simp_all

/-- The facts of a projection for a day. -/
def factsOf (projection : Json) (date : String) : Checked DayFacts := do
  let fields ← asObject (malformed "projection") projection
  let day ← asObject (malformed "day") (Decoding.item fields "day")
  dayFacts day date

section Previews

variable {I : Interpreter} {dumps : Json → Option Bytes}

theorem requireDate_eq_ok {value date : String} (h : requireDate I value = .ok date) :
    date = value ∧ '\n' ∉ value.toList := by
  unfold requireDate at h
  dsimp only at h
  split at h
  · split at h
    · cases h
    · rename_i year month day _
      split at h
      · rename_i htext
        refine ⟨(Except.ok.inj h).symm, ?_⟩
        rw [← htext]
        intro hmem
        have hdigits {width n : ℕ} : '\n' ∉ zeroPadded width n := fun hc ↦
          absurd (isDigit_of_mem_zeroPadded hc) (by decide)
        simp only [Moment.dateText, List.mem_append, List.mem_cons, hdigits] at hmem
        simp at hmem
      · cases h
  · cases h

theorem requireInstant_eq_ok {value stamp : String} (h : requireInstant I value = .ok stamp) : stamp = value := by
  unfold requireInstant at h
  dsimp only at h
  generalize (if value.toList.getLast? = some 'Z' then _ else _ : List Char) = candidate at h
  split at h
  · exact (Except.ok.inj h).symm
  · cases h

/-- An accepted preview is the rendered report of the facts of its projection. -/
theorem of_previewDailyReport {projection : Json} {date template generatedAt : String} {preview : Preview}
    (h : previewDailyReport I dumps projection date template generatedAt = .ok preview) :
    ∃ facts, factsOf projection date = .ok facts ∧ '\n' ∉ date.toList ∧
      preview.markdown = renderMarkdown date generatedAt facts ∧ preview.markdown.length ≤ maxMarkdownChars := by
  obtain ⟨-, -, h⟩ := bind_eq_ok.mp h
  obtain ⟨periodDate, hdate, h⟩ := bind_eq_ok.mp h
  obtain ⟨stamp, hstamp, h⟩ := bind_eq_ok.mp h
  obtain ⟨⟨fields, day⟩, hday, h⟩ := bind_eq_ok.mp h
  obtain ⟨facts, hfacts, h⟩ := bind_eq_ok.mp h
  obtain ⟨_, hlength, h⟩ := bind_eq_ok.mp h
  rw [Decoding.check_eq_ok, decide_eq_true_eq] at hlength
  obtain ⟨fields', hfields, hday⟩ := bind_eq_ok.mp hday
  obtain ⟨_, -, hday⟩ := bind_eq_ok.mp hday
  obtain ⟨_, -, hday⟩ := bind_eq_ok.mp hday
  obtain ⟨day', hobject, hday⟩ := bind_eq_ok.mp hday
  obtain ⟨_, -, hday⟩ := bind_eq_ok.mp hday
  obtain ⟨-, hsame⟩ := Prod.mk.inj (pure_eq_ok.mp hday)
  obtain ⟨hperiod, hfeed⟩ := requireDate_eq_ok hdate
  rw [hperiod] at hfacts hlength h
  rw [requireInstant_eq_ok hstamp] at hlength h
  rw [← hsame] at hfacts
  have hread : factsOf projection date = .ok facts :=
    bind_eq_ok.mpr ⟨fields', hfields, bind_eq_ok.mpr ⟨day', hobject, hfacts⟩⟩
  rw [← pure_eq_ok.mp h]
  exact ⟨facts, hread, hfeed, rfl, hlength⟩

/-- Where every step of the preview succeeds, so does the preview. -/
theorem exists_preview {I : Interpreter} {dumps : Json → Option Bytes} {projection : Json} {date generatedAt : String}
    {fields day : Fields} {facts : DayFacts} (hdate : requireDate I date = .ok date)
    (hstamp : requireInstant I generatedAt = .ok generatedAt)
    (hday : requireDay dumps projection date = .ok (fields, day)) (hfacts : dayFacts day date = .ok facts)
    (hlength : (Json.joined ['\n'] (reportLines date generatedAt facts)).length ≤ maxMarkdownChars) :
    ∃ preview, previewDailyReport I dumps projection date templateDailyV1 generatedAt = .ok preview := by
  have hmarkdown : (renderMarkdown date generatedAt facts).length ≤ maxMarkdownChars := by
    rwa [renderMarkdown, String.length_ofList]
  refine ⟨_, bind_eq_ok.mpr ⟨(), rfl, bind_eq_ok.mpr ⟨date, hdate, bind_eq_ok.mpr ⟨generatedAt, hstamp,
    bind_eq_ok.mpr ⟨(fields, day), hday, bind_eq_ok.mpr ⟨facts, hfacts, bind_eq_ok.mpr ⟨(), ?_, rfl⟩⟩⟩⟩⟩⟩⟩
  exact Decoding.check_eq_ok.mpr (decide_eq_true hmarkdown)

end Previews

/-- The texts of a day stay literal in its report: made inert they hold no line break, no tag and no punctuation that
could be taken for a mark, and are read back as they were; so the lines of a report that start with `#` or `- ` are
the ones the renderer wrote, and reports of the same shape have the same marks on their lines. -/
theorem texts_stay_literal :
    (∀ value, IsInert (inertText value) ∧ htmlTable.unescape (inertText value) = withSpaces value.toList) ∧
      (∀ I dumps projection date template generatedAt preview,
        previewDailyReport I dumps projection date template generatedAt = .ok preview →
          ∃ facts, factsOf projection date = .ok facts ∧ markerLines preview.markdown = markedLines date facts) ∧
      ∀ I dumps projection date template generatedAt preview dumps' projection' date' template' generatedAt' preview'
        facts facts',
        previewDailyReport I dumps projection date template generatedAt = .ok preview →
          previewDailyReport I dumps' projection' date' template' generatedAt' = .ok preview' →
          factsOf projection date = .ok facts → factsOf projection' date' = .ok facts' →
          facts.shape = facts'.shape → lineStructure preview.markdown = lineStructure preview'.markdown := by
  have hstructure {I dumps projection date template generatedAt} {preview : Preview} {facts : DayFacts}
      (h : previewDailyReport I dumps projection date template generatedAt = .ok preview)
      (hfacts : factsOf projection date = .ok facts) : lineStructure preview.markdown = reportMarks facts.shape := by
    obtain ⟨facts', hread, hfeed, hmarkdown, -⟩ := of_previewDailyReport h
    obtain rfl : facts' = facts := Except.ok.inj (hread.symm.trans hfacts)
    rw [lineStructure, hmarkdown, splitOn_renderMarkdown hfeed, map_reportLines]
  refine ⟨fun value ↦ ⟨isInert_inertText value, unescape_inertText value⟩, ?_, ?_⟩
  · intro I dumps projection date template generatedAt preview h
    obtain ⟨facts, hread, hfeed, hmarkdown, -⟩ := of_previewDailyReport h
    refine ⟨facts, hread, ?_⟩
    rw [markerLines, hmarkdown, splitOn_renderMarkdown hfeed, ← filter_reportLines date generatedAt]
    exact List.filter_congr fun line _ ↦ (isMarked_eq line).symm
  · intro I dumps projection date template generatedAt preview dumps' projection' date' template' generatedAt' preview'
      facts facts' h h' hfacts hfacts' hshape
    rw [hstructure h hfacts, hstructure h' hfacts', hshape]

/-- A day whose texts look like marks of Markdown. -/
def sampleDay (checkIn task item : String) : Fields := [
  ("date", .str "2026-09-21"), ("start_time", .str checkIn),
  ("entries", .arr [.obj [("task", .str task), ("done", .arr [.str item])]])]

def sampleProjection (checkIn task item : String) : Json := .obj [("day", .obj (sampleDay checkIn task item))]

def sampleFacts (checkIn task item : String) : DayFacts := ⟨.recorded checkIn, [⟨true, none, some task,
  ⟨.recorded, [item]⟩, ⟨.omitted, []⟩, ⟨.omitted, []⟩, none, none, ⟨"2026-09-21", 0, none, []⟩⟩], []⟩

def samplePreview (projection : Json) : Checked Preview :=
  previewDailyReport asciiInterpreter (fun _ ↦ some []) projection "2026-09-21" "daily-v1" "2026-09-21T09:00:00Z"

theorem exists_samplePreview {checkIn task item : String}
    (hfacts : dayFacts (sampleDay checkIn task item) "2026-09-21" = .ok (sampleFacts checkIn task item))
    (hlength : (Json.joined ['\n'] (reportLines "2026-09-21" "2026-09-21T09:00:00Z"
      (sampleFacts checkIn task item))).length ≤ maxMarkdownChars) :
    ∃ preview, samplePreview (sampleProjection checkIn task item) = .ok preview :=
  @exists_preview _ _ _ _ _ [("day", .obj (sampleDay checkIn task item))] (sampleDay checkIn task item) _
    rfl rfl rfl hfacts hlength

set_option maxRecDepth 4000 in
theorem texts_stay_literal_in_sample :
    ∃ preview preview', samplePreview (sampleProjection "# 9" "- a" "<b>") = .ok preview ∧
      samplePreview (sampleProjection "" "b\n# c" "\\") = .ok preview' ∧
      markerLines preview.markdown = ["# Daily review 2026-09-21".toList, "## Check-in".toList,
        "## Day record".toList, "### Task omitted — \\- a".toList, "- &lt;b&gt;".toList] ∧
      lineStructure preview.markdown = lineStructure preview'.markdown := by
  have hfacts : dayFacts (sampleDay "# 9" "- a" "<b>") "2026-09-21" = .ok (sampleFacts "# 9" "- a" "<b>") := rfl
  have hfacts' : dayFacts (sampleDay "" "b\n# c" "\\") "2026-09-21" = .ok (sampleFacts "" "b\n# c" "\\") := rfl
  obtain ⟨preview, h⟩ := exists_samplePreview hfacts (by decide)
  obtain ⟨preview', h'⟩ := exists_samplePreview hfacts' (by decide)
  refine ⟨preview, preview', h, h', ?_, texts_stay_literal.2.2 _ _ _ _ _ _ _ _ _ _ _ _ _ _ _ h h' hfacts hfacts' rfl⟩
  obtain ⟨facts, hread, hmarkers⟩ := texts_stay_literal.2.1 _ _ _ _ _ _ _ h
  rw [hmarkers, ← Except.ok.inj (hfacts.symm.trans hread)]
  decide

/-- The semicolon that closes an entity, like the backslash that escapes, has no backslash before it. -/
theorem entity_semicolon_has_no_backslash :
    ¬∀ value front c back, inertText value = front ++ c :: back → isAsciiPunctuation c = true →
      c ∉ ['&', '<', '>'] → Odd (run front) := by
  intro h
  have hodd := h "&" "&amp".toList ';' [] (by decide) (by decide) (by decide)
  exact absurd hodd (by decide)

end WorkStack.Reports.Daily
