import Mathlib

/-!
# Fenced texts

A document is read line by line. Outside of a fence, a line that begins with at least three backticks opens one;
inside, a line of at least as many backticks and nothing else closes it. A text whose fence is longer than
every run of backticks in it stays inside its fence, whatever characters end a line besides the line feed.
-/

namespace WorkStack.Text.Fences

abbrev Line := List Char

/-- What a line is to a reader. -/
inductive Mark where
  | outside
  | opens
  | inside
  | closes
  deriving DecidableEq, Repr

/-! ## Reading -/

/-- The backticks a line begins with. -/
def ticks (line : Line) : ℕ := (line.takeWhile (· == '`')).length

/-- Whether a line closes a fence of so many backticks. -/
def closesFence (n : ℕ) (line : Line) : Bool := line.all (· == '`') && decide (n ≤ line.length)

/-- A line is read with the fence it is in, if any. -/
def step : Option ℕ → Line → Option ℕ × Mark
  | none, line => if 3 ≤ ticks line then (some (ticks line), .opens) else (none, .outside)
  | some n, line => if closesFence n line then (none, .closes) else (some n, .inside)

/-- The fence that a reader is in after some lines. -/
def fenceAfter : Option ℕ → List Line → Option ℕ
  | fence, [] => fence
  | fence, line :: lines => fenceAfter (step fence line).1 lines

/-- The lines with their marks. -/
def read : Option ℕ → List Line → List (Line × Mark)
  | _, [] => []
  | fence, line :: lines => (line, (step fence line).2) :: read (step fence line).1 lines

/-- The lines outside of all fences. -/
def outside (marked : List (Line × Mark)) : List Line :=
  (marked.filter fun line ↦ line.2 == .outside).map Prod.fst

section Reading

variable (fence : Option ℕ) (lines rest : List Line)

theorem fenceAfter_append : fenceAfter fence (lines ++ rest) = fenceAfter (fenceAfter fence lines) rest := by
  induction lines generalizing fence with
  | nil => rfl
  | cons line lines ih => exact ih _

theorem read_append : read fence (lines ++ rest) = read fence lines ++ read (fenceAfter fence lines) rest := by
  induction lines generalizing fence with
  | nil => rfl
  | cons line lines ih => simp only [List.cons_append, read, fenceAfter, ih]

@[simp] theorem length_read : (read fence lines).length = lines.length := by
  induction lines generalizing fence with
  | nil => rfl
  | cons line lines ih => rw [read, List.length_cons, ih, List.length_cons]

theorem outside_append (marked others : List (Line × Mark)) :
    outside (marked ++ others) = outside marked ++ outside others := by
  simp [outside]

end Reading

/-! ## A fence that is wide enough -/

/-- Whether a text holds a run of so many backticks. -/
def HasRun (n : ℕ) (text : List Char) : Prop := List.replicate n '`' <:+: text

instance (n : ℕ) (text : List Char) : Decidable (HasRun n text) := inferInstanceAs (Decidable (_ <:+: _))

theorem HasRun.le_length {n : ℕ} {text : List Char} (h : HasRun n text) : n ≤ text.length := by
  simpa using h.length_le

/-- The first width from this one on that the text has no run of. -/
def widen (text : List Char) (n : ℕ) : ℕ :=
  if HasRun n text then widen text (n + 1) else n
termination_by text.length + 1 - n
decreasing_by
  have hlength := HasRun.le_length ‹_›
  omega

def width (text : List Char) : ℕ := widen text 3

theorem widen_spec (text : List Char) (n : ℕ) : n ≤ widen text n ∧ ¬HasRun (widen text n) text := by
  induction n using widen.induct text with
  | case1 n h ih =>
      rw [widen, if_pos h]
      exact ⟨by omega, ih.2⟩
  | case2 n h =>
      rw [widen, if_neg h]
      exact ⟨le_rfl, h⟩

theorem three_le_width (text : List Char) : 3 ≤ width text := (widen_spec text 3).1

theorem width_eq_three {text : List Char} (h : '`' ∉ text) : width text = 3 := by
  have hrun : ¬HasRun 3 text := fun hrun ↦ h (hrun.subset (List.mem_cons_self ..))
  rw [width, widen, if_neg hrun]

/-- The line that opens and closes the fence of a text. -/
def fenceLine (text : List Char) : Line := List.replicate (width text) '`'

/-- A text in its fence. -/
def fenced (text : List Char) : List Char := fenceLine text ++ '\n' :: (text ++ '\n' :: fenceLine text)

section Lines

/-- The lines of a text, for a reader to whom these characters end a line. -/
def lines (isBreak : Char → Bool) (text : List Char) : List Line := text.splitOnP isBreak

variable {isBreak : Char → Bool}

theorem lines_append (hfeed : isBreak '\n' = true) (text rest : List Char) :
    lines isBreak (text ++ '\n' :: rest) = lines isBreak text ++ lines isBreak rest :=
  List.splitOnP_append_cons text rest hfeed

theorem lines_fenceLine (htick : isBreak '`' = false) (text : List Char) :
    lines isBreak (fenceLine text) = [fenceLine text] := by
  apply List.splitOnP_eq_singleton
  intro c hc
  rw [List.eq_of_mem_replicate hc, htick]

/-- The first line of a text begins it, and the other lines are parts of it. -/
theorem exists_lines (isBreak : Char → Bool) (text : List Char) : ∃ first others, lines isBreak text = first :: others ∧ first <+: text ∧
    ∀ line ∈ others, line <:+: text := by
  induction text with
  | nil => exact ⟨[], [], rfl, List.nil_prefix, fun _ h ↦ absurd h List.not_mem_nil⟩
  | cons c rest ih =>
      obtain ⟨first, others, hlines, hfirst, hothers⟩ := ih
      unfold lines at hlines ⊢
      rw [List.splitOnP_cons_eq_if_modifyHead, hlines]
      have hwider : ∀ line, line <:+: rest → line <:+: c :: rest := fun line h ↦ h.trans (List.suffix_cons c rest).isInfix
      split
      · refine ⟨[], first :: others, rfl, List.nil_prefix, ?_⟩
        intro line hline
        rcases List.mem_cons.mp hline with rfl | hline
        · exact hwider _ hfirst.isInfix
        · exact hwider _ (hothers line hline)
      · exact ⟨c :: first, others, rfl, List.cons_prefix_cons.mpr ⟨rfl, hfirst⟩, fun line hline ↦
          hwider line (hothers line hline)⟩

theorem infix_of_mem_lines {text : List Char} {line : Line} (h : line ∈ lines isBreak text) : line <:+: text := by
  obtain ⟨first, others, hlines, hfirst, hothers⟩ := exists_lines isBreak text
  rw [hlines] at h
  rcases List.mem_cons.mp h with rfl | h
  · exact hfirst.isInfix
  · exact hothers line h

/-- No line of a text closes its fence. -/
theorem closesFence_of_mem_lines {text : List Char} {line : Line} (h : line ∈ lines isBreak text) :
    closesFence (width text) line = false := by
  by_contra hcloses
  rw [Bool.not_eq_false, closesFence, Bool.and_eq_true, List.all_eq_true, decide_eq_true_eq] at hcloses
  obtain ⟨hall, hlong⟩ := hcloses
  have hline : line = List.replicate line.length '`' :=
    List.eq_replicate_iff.mpr ⟨rfl, fun c hc ↦ beq_iff_eq.mp (hall c hc)⟩
  have hstart : List.replicate (width text) '`' <+: line := by
    rw [hline]
    exact ⟨List.replicate (line.length - width text) '`', by
      rw [List.replicate_append_replicate, Nat.add_sub_cancel' hlong]⟩
  exact (widen_spec text 3).2 (hstart.isInfix.trans (infix_of_mem_lines h))

/-! ## Reading a fenced text -/

theorem ticks_fenceLine (text : List Char) : ticks (fenceLine text) = width text := by
  rw [ticks, fenceLine, List.takeWhile_replicate]
  simp

theorem closesFence_fenceLine (text : List Char) : closesFence (width text) (fenceLine text) = true := by
  simp [closesFence, fenceLine]

/-- A reader who is inside the fence of a text stays there for lines that do not close it. -/
theorem read_inside {n : ℕ} {others : List Line} (h : ∀ line ∈ others, closesFence n line = false) :
    read (some n) others = others.map (fun line ↦ (line, .inside)) ∧ fenceAfter (some n) others = some n := by
  induction others with
  | nil => exact ⟨rfl, rfl⟩
  | cons line others ih =>
      obtain ⟨hline, hothers⟩ := List.forall_mem_cons.mp h
      obtain ⟨hread, hafter⟩ := ih hothers
      have hstep : step (some n) line = (some n, .inside) := by simp [step, hline]
      constructor
      · rw [read, hstep, hread, List.map_cons]
      · rw [fenceAfter, hstep, hafter]

/-- The lines of a text in its fence, as they are read outside of all fences. -/
def markedFence (isBreak : Char → Bool) (text : List Char) : List (Line × Mark) :=
  (fenceLine text, .opens) :: ((lines isBreak text).map fun line ↦ (line, .inside)) ++ [(fenceLine text, .closes)]

theorem lines_fenced (hfeed : isBreak '\n' = true) (htick : isBreak '`' = false) (text : List Char) :
    lines isBreak (fenced text) = fenceLine text :: (lines isBreak text ++ [fenceLine text]) := by
  rw [fenced, lines_append hfeed, lines_append hfeed, lines_fenceLine htick, List.singleton_append]

theorem step_fenceLine (text : List Char) : step none (fenceLine text) = (some (width text), .opens) := by
  rw [step, ticks_fenceLine, if_pos (three_le_width text)]

/-- Outside of all fences, a fenced text is read as one fence that is closed right after the text. -/
theorem read_fenced (hfeed : isBreak '\n' = true) (htick : isBreak '`' = false) (text : List Char) :
    read none (lines isBreak (fenced text)) = markedFence isBreak text ∧
      fenceAfter none (lines isBreak (fenced text)) = none := by
  have hopen : ∀ line ∈ lines isBreak text, closesFence (width text) line = false :=
    fun line hline ↦ closesFence_of_mem_lines hline
  obtain ⟨hread, hafter⟩ := read_inside hopen
  have hclose : step (some (width text)) (fenceLine text) = (none, .closes) := by
    simp [step, closesFence_fenceLine]
  rw [lines_fenced hfeed htick]
  constructor
  · rw [read, step_fenceLine, read_append, hread, hafter, read, hclose]
    rfl
  · rw [fenceAfter, step_fenceLine, fenceAfter_append, hafter, fenceAfter, hclose]
    rfl

theorem outside_markedFence (text : List Char) : outside (markedFence isBreak text) = [] := by
  simp [outside, markedFence, List.filter_map, Function.comp_def]

end Lines

/-! ## Documents of blocks -/

/-- A part of a document: a text as it stands, or one in its fence. -/
inductive Block where
  | plain (text : List Char)
  | fenced (text : List Char)
  deriving DecidableEq, Repr

namespace Block

def text : Block → List Char
  | plain text => text
  | fenced text => Fences.fenced text

/-- A block without the text in its fence. -/
def skeleton : Block → Option (List Char)
  | plain text => some text
  | fenced _ => none

end Block

/-- The blocks, each of them on lines of its own. -/
def document (blocks : List Block) : List Char := ['\n'].intercalate (blocks.map Block.text)

section Documents

variable (isBreak : Char → Bool)

/-- The lines of some blocks. -/
def linesOf (blocks : List Block) : List Line := blocks.flatMap fun block ↦ lines isBreak block.text

/-- The lines of the blocks that are not fenced. -/
def plainLines (blocks : List Block) : List Line :=
  (blocks.filterMap Block.skeleton).flatMap (lines isBreak)

/-- Every fenced text of the document is read inside of one fence, which is its own and is closed right after it. -/
def Contained (blocks : List Block) (text : List Char) : Prop :=
  ∀ before content after, blocks = before ++ .fenced content :: after →
    ∃ marked others, read none (lines isBreak text) = marked ++ markedFence isBreak content ++ others ∧
      marked.length = (linesOf isBreak before).length

/-- What stands before a fenced text opens no fence that it does not close. -/
def LeavesNoFenceOpen (blocks : List Block) : Prop :=
  ∀ before content after, blocks = before ++ .fenced content :: after →
    fenceAfter none (plainLines isBreak before) = none

variable {isBreak}

theorem linesOf_append (blocks others : List Block) :
    linesOf isBreak (blocks ++ others) = linesOf isBreak blocks ++ linesOf isBreak others := List.flatMap_append

theorem plainLines_append (blocks others : List Block) :
    plainLines isBreak (blocks ++ others) = plainLines isBreak blocks ++ plainLines isBreak others := by
  rw [plainLines, List.filterMap_append, List.flatMap_append]
  rfl

theorem document_cons (block : Block) {others : List Block} (hne : others ≠ []) :
    document (block :: others) = block.text ++ '\n' :: document others := by
  cases others with
  | nil => exact absurd rfl hne
  | cons next others => simp [document, List.intercalate]

variable {blocks others : List Block}

theorem document_append (hblocks : blocks ≠ []) (hothers : others ≠ []) :
    document (blocks ++ others) = document blocks ++ '\n' :: document others := by
  induction blocks with
  | nil => exact absurd rfl hblocks
  | cons block blocks ih =>
      cases blocks with
      | nil =>
          rw [List.singleton_append, document_cons block hothers]
          simp [document, List.intercalate]
      | cons next rest =>
          rw [List.cons_append, document_cons block (by simp), ih (by simp), document_cons block (by simp)]
          simp

theorem lines_document (hfeed : isBreak '\n' = true) {blocks : List Block} (hne : blocks ≠ []) :
    lines isBreak (document blocks) = linesOf isBreak blocks := by
  induction blocks with
  | nil => exact absurd rfl hne
  | cons block blocks ih =>
      cases blocks with
      | nil => simp [document, linesOf]
      | cons next others =>
          have hrest : lines isBreak (document (next :: others)) = linesOf isBreak (next :: others) := ih (by simp)
          rw [document_cons block (by simp), lines_append hfeed, hrest]
          rfl

/-- A document in which every fenced text begins outside of all fences. -/
def BeginsOutside (isBreak : Char → Bool) (blocks : List Block) : Prop :=
  ∀ before content after, blocks = before ++ .fenced content :: after →
    fenceAfter none (linesOf isBreak before) = none

theorem BeginsOutside.of_append (h : BeginsOutside isBreak (blocks ++ others)) :
    BeginsOutside isBreak blocks := by
  intro before content after hsplit
  apply h before content (after ++ others)
  rw [hsplit, List.append_assoc, List.cons_append]

theorem linesOf_singleton (block : Block) : linesOf isBreak [block] = lines isBreak block.text := by
  simp [linesOf]

theorem plainLines_plain (text : List Char) : plainLines isBreak [.plain text] = lines isBreak text := by
  simp [plainLines, Block.skeleton]

theorem plainLines_fenced (text : List Char) : plainLines isBreak [.fenced text] = [] := rfl

/-- Where every fenced text begins outside, the fences make no difference to what is outside. -/
theorem BeginsOutside.plain (hfeed : isBreak '\n' = true) (htick : isBreak '`' = false) {blocks : List Block}
    (h : BeginsOutside isBreak blocks) :
    fenceAfter none (linesOf isBreak blocks) = fenceAfter none (plainLines isBreak blocks) ∧
      outside (read none (linesOf isBreak blocks)) = outside (read none (plainLines isBreak blocks)) := by
  induction blocks using List.reverseRecOn with
  | nil => exact ⟨rfl, rfl⟩
  | append_singleton blocks block ih =>
      obtain ⟨hafter, houtside⟩ := ih h.of_append
      rw [linesOf_append, plainLines_append, linesOf_singleton, fenceAfter_append, fenceAfter_append, read_append,
        read_append, outside_append, outside_append, hafter, houtside]
      cases block with
      | plain text => rw [plainLines_plain, Block.text]; exact ⟨rfl, rfl⟩
      | fenced text =>
          have hnone : fenceAfter none (plainLines isBreak blocks) = none := by
            rw [← hafter]
            exact h blocks text [] rfl
          obtain ⟨hread, hclosed⟩ := read_fenced hfeed htick text
          rw [plainLines_fenced, Block.text, hnone, hread, hclosed, outside_markedFence]
          exact ⟨rfl, rfl⟩

theorem leavesNoFenceOpen_iff (hfeed : isBreak '\n' = true) (htick : isBreak '`' = false) {blocks : List Block} :
    LeavesNoFenceOpen isBreak blocks ↔ BeginsOutside isBreak blocks := by
  constructor
  · intro h before
    induction hlength : before.length using Nat.strongRecOn generalizing before with
    | ind length ih =>
        intro content after hsplit
        have hbefore : BeginsOutside isBreak before := by
          intro earlier content' after' hearlier
          apply ih earlier.length _ earlier rfl content' (after' ++ .fenced content :: after)
          · rw [hsplit, hearlier, List.append_assoc, List.cons_append]
          · rw [← hlength, hearlier]
            simp
        rw [(hbefore.plain hfeed htick).1]
        exact h before content after hsplit
  · intro h before content after hsplit
    have hbefore : BeginsOutside isBreak before := (hsplit ▸ h).of_append
    rw [← (hbefore.plain hfeed htick).1]
    exact h before content after hsplit

/-- The texts of a document are contained in their fences exactly when what stands between them leaves no fence
open. -/
theorem contained_iff (hfeed : isBreak '\n' = true) (htick : isBreak '`' = false) {blocks : List Block} {text : List Char}
    (hlines : ∀ before content after, blocks = before ++ .fenced content :: after →
      ∃ others, lines isBreak text = linesOf isBreak before ++ (lines isBreak (fenced content) ++ others)) :
    Contained isBreak blocks text ↔ LeavesNoFenceOpen isBreak blocks := by
  rw [leavesNoFenceOpen_iff hfeed htick]
  constructor
  · intro h before content after hsplit
    obtain ⟨marked, others, hread, hlength⟩ := h before content after hsplit
    obtain ⟨others', hothers⟩ := hlines before content after hsplit
    rw [hothers, read_append, List.append_assoc] at hread
    have hmarks := (List.append_inj hread (by rw [length_read, hlength])).2
    rw [lines_fenced hfeed htick, List.cons_append, read, markedFence, List.cons_append, List.cons_append] at hmarks
    have hopens := congrArg Prod.snd (List.head_eq_of_cons_eq hmarks)
    cases hstate : fenceAfter none (linesOf isBreak before) with
    | none => rfl
    | some n =>
        rw [hstate] at hopens
        simp only [step] at hopens
        split at hopens
        · cases hopens
        · cases hopens
  · intro h before content after hsplit
    obtain ⟨others, hothers⟩ := hlines before content after hsplit
    obtain ⟨hread, hclosed⟩ := read_fenced hfeed htick content
    refine ⟨read none (linesOf isBreak before), read none others, ?_, by rw [length_read]⟩
    rw [hothers, read_append, h before content after hsplit, read_append, hread, hclosed, List.append_assoc]

/-- A fenced text stands before the plain blocks that a document ends in. -/
theorem split_before_end {front ending before after : List Block} {content : List Char}
    (hplain : ∀ block ∈ ending, block.skeleton.isSome) (h : front ++ ending = before ++ .fenced content :: after) :
    ∃ rest, front = before ++ .fenced content :: rest ∧ after = rest ++ ending := by
  rcases List.append_eq_append_iff.mp h with ⟨middle, -, hending⟩ | ⟨middle, hfront, hafter⟩
  · have hmem : Block.fenced content ∈ ending := by simp [hending]
    cases hplain _ hmem
  · cases middle with
    | nil =>
        have hmem : Block.fenced content ∈ ending := by
          rw [List.nil_append] at hafter
          simp [← hafter]
        cases hplain _ hmem
    | cons block rest =>
        obtain ⟨hblock, hrest⟩ := List.cons.inj hafter
        exact ⟨rest, hblock ▸ hfront, hrest⟩

/-- What stands before a fenced text leaves no fence open, for a reader who begins in this one. -/
def ClosedFrom (isBreak : Char → Bool) : Option ℕ → List Block → Prop
  | _, [] => True
  | fence, .plain text :: blocks => ClosedFrom isBreak (fenceAfter fence (lines isBreak text)) blocks
  | fence, .fenced _ :: blocks => fence = none ∧ ClosedFrom isBreak fence blocks

theorem closedFrom_iff {fence : Option ℕ} {blocks : List Block} :
    ClosedFrom isBreak fence blocks ↔ ∀ before content after, blocks = before ++ .fenced content :: after →
      fenceAfter fence (plainLines isBreak before) = none := by
  induction blocks generalizing fence with
  | nil => simp [ClosedFrom]
  | cons block blocks ih =>
      cases block with
      | plain text =>
          rw [ClosedFrom, ih]
          constructor
          · intro h before content after hsplit
            cases before with
            | nil => cases hsplit
            | cons first before =>
                obtain ⟨hfirst, hrest⟩ := List.cons.inj hsplit
                rw [← hfirst, ← List.singleton_append, plainLines_append, plainLines_plain, fenceAfter_append]
                exact h before content after hrest
          · intro h before content after hsplit
            have hall := h (.plain text :: before) content after (by rw [hsplit, List.cons_append])
            rwa [← List.singleton_append, plainLines_append, plainLines_plain, fenceAfter_append] at hall
      | fenced text =>
          rw [ClosedFrom, ih]
          constructor
          · intro ⟨hnone, h⟩ before content after hsplit
            cases before with
            | nil => exact hnone
            | cons first before =>
                obtain ⟨hfirst, hrest⟩ := List.cons.inj hsplit
                rw [← hfirst]
                exact h before content after hrest
          · intro h
            refine ⟨h [] text blocks rfl, ?_⟩
            intro before content after hsplit
            exact h (.fenced text :: before) content after (by rw [hsplit, List.cons_append])

theorem leavesNoFenceOpen_iff_closedFrom {blocks : List Block} :
    LeavesNoFenceOpen isBreak blocks ↔ ClosedFrom isBreak none blocks := closedFrom_iff.symm

theorem closedFrom_append {fence : Option ℕ} :
    ClosedFrom isBreak fence (blocks ++ others) ↔
      ClosedFrom isBreak fence blocks ∧ ClosedFrom isBreak (fenceAfter fence (plainLines isBreak blocks)) others := by
  induction blocks generalizing fence with
  | nil =>
      simp only [List.nil_append, ClosedFrom, true_and]
      rfl
  | cons block blocks ih =>
      cases block with
      | plain text =>
          rw [List.cons_append, ClosedFrom, ClosedFrom, ih, ← List.singleton_append, plainLines_append, plainLines_plain,
            fenceAfter_append]
      | fenced text =>
          rw [List.cons_append, ClosedFrom, ClosedFrom, ih, and_assoc]
          rfl

/-! ## Lines with a label -/

/-- A text that begins a line without ending one or opening a fence. -/
structure IsLabel (isBreak : Char → Bool) (label : List Char) : Prop where
  noBreak : ∀ c ∈ label, isBreak c = false
  head : ∃ c rest, label = c :: rest ∧ c ≠ '`'

variable {label : List Char}

theorem lines_label (h : ∀ c ∈ label, isBreak c = false) (text : List Char) :
    ∃ first, lines isBreak (label ++ text) = (label ++ first) :: (lines isBreak text).tail := by
  induction label with
  | nil =>
      obtain ⟨first, others, hlines, -, -⟩ := exists_lines isBreak text
      exact ⟨first, by rw [List.nil_append, hlines, List.nil_append, List.tail_cons]⟩
  | cons c label ih =>
      obtain ⟨hc, hlabel⟩ := List.forall_mem_cons.mp h
      obtain ⟨first, hlines⟩ := ih hlabel
      refine ⟨first, ?_⟩
      unfold lines at hlines ⊢
      rw [List.cons_append, List.splitOnP_cons_eq_if_modifyHead, if_neg (by simp [hc]), hlines]
      rfl

/-- A line that does not begin with a backtick neither opens nor closes a fence. -/
theorem step_other {c : Char} (hc : c ≠ '`') (rest : List Char) (fence : Option ℕ) :
    (step fence (c :: rest)).1 = fence := by
  cases fence with
  | none => simp [step, ticks, hc]
  | some n => simp [step, closesFence, hc]

/-- Of a text behind a label only the lines after its first one are read for fences. -/
theorem fenceAfter_label (h : IsLabel isBreak label) (text : List Char) (fence : Option ℕ) :
    fenceAfter fence (lines isBreak (label ++ text)) = fenceAfter fence (lines isBreak text).tail := by
  obtain ⟨c, rest, hlabel, hc⟩ := h.head
  obtain ⟨first, hlines⟩ := lines_label h.noBreak text
  rw [hlines, fenceAfter, hlabel, List.cons_append, step_other hc]

theorem step_pos {fence : Option ℕ} (h : ∀ n ∈ fence, 0 < n) (line : Line) : ∀ n ∈ (step fence line).1, 0 < n := by
  cases fence with
  | none =>
      by_cases hticks : 3 ≤ ticks line
      · rw [step, if_pos hticks]
        intro n hn
        rw [← Option.some.inj hn]
        omega
      · rw [step, if_neg hticks]
        exact h
  | some m =>
      by_cases hcloses : closesFence m line = true
      · rw [step, if_pos hcloses]
        intro n hn
        cases hn
      · rw [step, if_neg hcloses]
        exact h

/-- The fence a reader is in has backticks. -/
theorem fenceAfter_pos {fence : Option ℕ} (h : ∀ n ∈ fence, 0 < n) (read : List Line) :
    ∀ n ∈ fenceAfter fence read, 0 < n := by
  induction read generalizing fence with
  | nil => exact h
  | cons line read ih => exact ih (step_pos h line)

theorem fenceAfter_empty {fence : Option ℕ} (h : ∀ n ∈ fence, 0 < n) :
    fenceAfter fence (lines isBreak []) = fence := by
  have hlines : lines isBreak [] = [[]] := rfl
  rw [hlines]
  cases fence with
  | none => rfl
  | some n =>
      have hpos := h n rfl
      simp [fenceAfter, step, closesFence, show ¬n = 0 by omega]

theorem closedFrom_congr {fence : Option ℕ} (h : blocks.map Block.skeleton = others.map Block.skeleton) :
    ClosedFrom isBreak fence blocks ↔ ClosedFrom isBreak fence others := by
  induction blocks generalizing fence others with
  | nil =>
      rw [List.map_nil, eq_comm, List.map_eq_nil_iff] at h
      rw [h]
  | cons block blocks ih =>
      cases others with
      | nil => simp at h
      | cons other others =>
          obtain ⟨hblock, hrest⟩ := List.cons.inj h
          cases block with
          | plain text =>
              cases other with
              | plain text' =>
                  rw [ClosedFrom, ClosedFrom, Option.some.inj hblock]
                  exact ih hrest
              | fenced text' => cases hblock
          | fenced text =>
              cases other with
              | plain text' => cases hblock
              | fenced text' =>
                  rw [ClosedFrom, ClosedFrom]
                  exact and_congr_right fun _ ↦ ih hrest

theorem plainLines_congr (h : blocks.map Block.skeleton = others.map Block.skeleton) :
    plainLines isBreak blocks = plainLines isBreak others := by
  have hfilter (items : List Block) : items.filterMap Block.skeleton = (items.map Block.skeleton).filterMap id := by
    rw [List.filterMap_map]
    rfl
  rw [plainLines, plainLines, hfilter, hfilter, h]

/-! ## What plain blocks do to a fence -/

/-- The lines of a text behind its first one. -/
def laterLines (isBreak : Char → Bool) (text : List Char) : List Line := (lines isBreak text).tail

/-- Plain blocks that move a reader from fence to fence as the later lines of these values do. -/
structure Passes (isBreak : Char → Bool) (blocks : List Block) (values : List (List Char)) : Prop where
  plain : ∀ block ∈ blocks, block.skeleton.isSome
  after : ∀ fence : Option ℕ, (∀ n ∈ fence, 0 < n) →
    fenceAfter fence (plainLines isBreak blocks) = fenceAfter fence (values.flatMap (laterLines isBreak))

theorem Passes.append {values more : List (List Char)} (h : Passes isBreak blocks values)
    (hothers : Passes isBreak others more) : Passes isBreak (blocks ++ others) (values ++ more) where
  plain := List.forall_mem_append.mpr ⟨h.plain, hothers.plain⟩
  after := by
    intro fence hpos
    rw [plainLines_append, List.flatMap_append, fenceAfter_append, fenceAfter_append, h.after fence hpos]
    exact hothers.after _ (fenceAfter_pos hpos _)

theorem passes_nil : Passes isBreak [] [] := ⟨by simp, fun _ _ ↦ rfl⟩

theorem passes_empty : Passes isBreak [.plain []] [] where
  plain := by simp [Block.skeleton]
  after := by
    intro fence hpos
    rw [plainLines_plain, fenceAfter_empty hpos]
    rfl

theorem passes_value (h : IsLabel isBreak label) (value : List Char) :
    Passes isBreak [.plain (label ++ value)] [value] where
  plain := by simp [Block.skeleton]
  after := by
    intro fence _
    rw [plainLines_plain, fenceAfter_label h, List.flatMap_singleton]
    rfl

theorem passes_label (h : IsLabel isBreak label) : Passes isBreak [.plain label] [] where
  plain := by simp [Block.skeleton]
  after := by
    intro fence hpos
    have hvalue := (passes_value h []).after fence hpos
    rwa [List.append_nil] at hvalue

theorem Passes.closedFrom {blocks : List Block} {values : List (List Char)} (h : Passes isBreak blocks values)
    (fence : Option ℕ) : ClosedFrom isBreak fence blocks := by
  rw [closedFrom_iff]
  intro before content after hsplit
  have hmem := h.plain (.fenced content) (by simp [hsplit])
  cases hmem

/-- Behind plain blocks a fenced text begins outside exactly when the values of the blocks close what they open. -/
theorem closedFrom_passes {blocks rest : List Block} {values : List (List Char)} (h : Passes isBreak blocks values)
    {fence : Option ℕ} (hpos : ∀ n ∈ fence, 0 < n) :
    ClosedFrom isBreak fence (blocks ++ rest) ↔
      ClosedFrom isBreak (fenceAfter fence (values.flatMap (laterLines isBreak))) rest := by
  rw [closedFrom_append, ← h.after fence hpos]
  exact and_iff_right (h.closedFrom fence)

theorem closedFrom_fenced {fence : Option ℕ} {text : List Char} {rest : List Block} :
    ClosedFrom isBreak fence (.fenced text :: rest) ↔ fence = none ∧ ClosedFrom isBreak none rest := by
  rw [ClosedFrom]
  constructor
  · rintro ⟨rfl, h⟩
    exact ⟨rfl, h⟩
  · rintro ⟨rfl, h⟩
    exact ⟨rfl, h⟩

end Documents

end WorkStack.Text.Fences
