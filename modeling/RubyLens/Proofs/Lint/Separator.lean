import RubyLens.Server.Linting
import RubyLens.Proofs.Text.Wire
import RubyLens.Proofs.Text.Replacement

/-!
Taking the corrected text out of what the linter prints. It is looked for character by character,
but what is found follows the lines: a line that is no separator is passed over as a whole
(`behindSeparator_report`), whatever there is in it, and nothing behind the first separator line is
looked at. What is behind that line is then trimmed, so a text comes out as it was put in exactly if
no white space stands in front of it; a document in which the linter changes nothing loses what
does.

Main statement: `correct_printed`.
-/

namespace RubyLens.Text

/-- Lines as a text, in which each has its line feed. -/
def unlines (ls : List Text) : Text := ls.flatMap (· ++ ['\n'])

theorem unlines_cons (l : Text) (ls : List Text) : unlines (l :: ls) = l ++ '\n' :: unlines ls := by
  rw [unlines, List.flatMap_cons, List.append_assoc]
  rfl

/-- Every text is lines with their line feeds, and a last line without. -/
theorem exists_unlines (t : Text) :
    ∃ ls last, t = unlines ls ++ last ∧ (∀ l ∈ ls, '\n' ∉ l) ∧ '\n' ∉ last := by
  induction t with
  | nil => exact ⟨[], [], rfl, by simp, by simp⟩
  | cons c t ih =>
    obtain ⟨ls, last, rfl, hls, hlast⟩ := ih
    by_cases hc : c = '\n'
    · -- a line feed in front ends an empty line; any other character goes into the line behind it
      subst hc
      exact ⟨[] :: ls, last, by rw [unlines_cons]; rfl, by simpa using hls, hlast⟩
    · cases ls with
      | nil => exact ⟨[], c :: last, rfl, by simp, by simp [Ne.symm hc, hlast]⟩
      | cons l ls =>
        rw [List.forall_mem_cons] at hls
        refine ⟨(c :: l) :: ls, last, by rw [unlines_cons, unlines_cons]; rfl, ?_, hlast⟩
        exact List.forall_mem_cons.2 ⟨by simp [Ne.symm hc, hls.1], hls.2⟩

theorem lines_unlines {ls : List Text} {last : Text} (hls : ∀ l ∈ ls, '\n' ∉ l)
    (hlast : '\n' ∉ last) : lines (unlines ls ++ last) = ls ++ [last] := by
  induction ls with
  | nil => exact lines_of_notMem hlast
  | cons l ls ih =>
    rw [List.forall_mem_cons] at hls
    rw [unlines_cons, List.append_assoc, List.cons_append, lines_append_newline,
      lines_of_notMem hls.1, ih hls.2]
    rfl

theorem firstLine_of_notMem {l : Text} (h : '\n' ∉ l) : firstLine l = l := by
  simpa [firstLine] using firstLine_append h []

/-- White space stands in front. -/
def startsBlank (t : Text) : Bool := t.head?.any isBlank

theorem trimStart_eq_self_iff {t : Text} : trimStart t = t ↔ startsBlank t = false := by
  cases t with
  | nil => exact iff_of_true rfl rfl
  | cons c t =>
    rw [trimStart, List.dropWhile_eq_self_iff]
    simp [startsBlank]

end RubyLens.Text

namespace RubyLens.Lint

open Text (unlines firstLine lines trimStart startsBlank)

/-! ### Looking for the separator -/

/-- A line of a report. -/
structure IsReportLine (line : Text) : Prop where
  notMem : '\n' ∉ line
  ne_separator : line ≠ separator

theorem newline_notMem_separator : '\n' ∉ separator := by decide

/-- Where the first line is no separator, the search goes on behind the first character. -/
theorem behindSeparator_cons {start : Bool} {c : Char} {t : Text}
    (h : start = true → firstLine (c :: t) ≠ separator) :
    behindSeparator start (c :: t) = behindSeparator (c == '\n') t := by
  rw [behindSeparator, if_neg]
  simpa using h

theorem behindSeparator_separator {t : Text} (h : firstLine t = []) :
    behindSeparator true (separator ++ t) = some t := by
  have hline : firstLine (separator ++ t) = separator := by
    rw [Text.firstLine_append newline_notMem_separator, h, List.append_nil]
  unfold behindSeparator
  rw [hline, if_pos (by simp), List.drop_left]

section Line

variable {start : Bool} {line : Text} (h : '\n' ∉ line) (hne : start = true → line ≠ separator)

include h hne

/-- A line that is no separator is passed over. Only at its start it could be taken for one. -/
theorem behindSeparator_line (t : Text) :
    behindSeparator start (line ++ '\n' :: t) = behindSeparator true t := by
  induction line generalizing start with
  | nil => exact behindSeparator_cons hne
  | cons c line ih =>
    have hfirst : firstLine (c :: (line ++ '\n' :: t)) = c :: line := by
      rw [← List.cons_append, Text.firstLine_append h]
      exact List.append_nil _
    rw [List.mem_cons, not_or] at h
    -- behind the first character no line starts, so what the rest of the line spells is all the same
    rw [List.cons_append, behindSeparator_cons (hfirst ▸ hne), beq_false_of_ne (Ne.symm h.1)]
    exact ih h.2 fun hstart => absurd hstart Bool.false_ne_true

theorem behindSeparator_lastLine : behindSeparator start line = none := by
  induction line generalizing start with
  | nil =>
    rw [behindSeparator, if_neg]
    simpa [firstLine] using hne
  | cons c line ih =>
    rw [behindSeparator_cons (by rwa [Text.firstLine_of_notMem h])]
    rw [List.mem_cons, not_or] at h
    rw [beq_false_of_ne (Ne.symm h.1)]
    exact ih h.2 fun hstart => absurd hstart Bool.false_ne_true

end Line

theorem behindSeparator_report {report : List Text} (h : ∀ line ∈ report, IsReportLine line)
    (t : Text) : behindSeparator true (unlines report ++ t) = behindSeparator true t := by
  induction report with
  | nil => rfl
  | cons line report ih =>
    rw [List.forall_mem_cons] at h
    rw [Text.unlines_cons, List.append_assoc, List.cons_append,
      behindSeparator_line h.1.notMem fun _ => h.1.ne_separator, ih h.2]

/-- **Where there is no separator line.** -/
theorem behindSeparator_eq_none_iff (t : Text) :
    behindSeparator true t = none ↔ separator ∉ lines t := by
  obtain ⟨ls, last, rfl, hls, hlast⟩ := Text.exists_unlines t
  rw [Text.lines_unlines hls hlast]
  induction ls with
  | nil =>
    by_cases hsep : last = separator
    · have hfound := behindSeparator_separator (t := []) rfl
      rw [List.append_nil] at hfound
      simp [unlines, hsep, hfound]
    · have hnone : behindSeparator true last = none := behindSeparator_lastLine hlast fun _ => hsep
      simp [unlines, hnone, Ne.symm hsep]
  | cons l ls ih =>
    rw [List.forall_mem_cons] at hls
    rw [Text.unlines_cons, List.append_assoc, List.cons_append, List.cons_append, List.mem_cons,
      not_or]
    by_cases hsep : l = separator
    · rw [hsep, behindSeparator_separator rfl]
      simp
    · rw [behindSeparator_line hls.1 fun _ => hsep, ih hls.2]
      simp [Ne.symm hsep]

/-- What the linter prints: the lines of its report, the separator line and a text. -/
def printed (report : List Text) (code : Text) : Text :=
  unlines report ++ separator ++ '\n' :: code

theorem correctedText?_printed {report : List Text} (h : ∀ line ∈ report, IsReportLine line)
    (code : Text) : correctedText? (printed report code) = some (trimStart code) := by
  rw [correctedText?, printed, List.append_assoc, behindSeparator_report h,
    behindSeparator_separator rfl, Option.map_some]
  rfl

end RubyLens.Lint

namespace RubyLens.Server

open Lint (IsReportLine correctedText? printed)
open Text (trimStart startsBlank)

variable {L : Type} [DecidableEq L] [Locator L]

/-! ### Correcting an open document -/

/-- A document is open, and where it is corrected, the linter ends with a report and a text. -/
def Prints (env : Environment) (report : List Text) (code : Text) (uri : Uri)
    (cop : Option String) (turn : Turn L) (doc : Document) : Prop :=
  ∃ url runner, uri.locator? = some url ∧ runner? env turn.state = some runner ∧
    turn.state.documents.get? url = some doc ∧
    runner.output (env.tool.attempt env.files (runner.invocation env.files
      (Lint.fixArgs (Locator.documentPath url) cop) doc.source.text)) = .ok (printed report code)

theorem Prints.correct_eq {env : Environment} {report : List Text} {code : Text} {uri : Uri}
    {cop : Option String} {turn : Turn L} {doc : Document}
    (hprints : Prints env report code uri cop turn doc)
    (h : ∀ line ∈ report, IsReportLine line) (range : Option Range) :
    (correct env uri cop range turn).2 =
      some (doc, Edit.between turn.state.encoding doc.source.text (trimStart code)
        (env.compare doc.source.text (trimStart code)) range) := by
  obtain ⟨url, runner, hurl, hrunner, hopen, houtput⟩ := hprints
  have hfix : (runner.fix env.files env.tool doc.source.text (Locator.documentPath url) cop).2 =
      .ok (trimStart code) := by
    rw [Lint.Runner.fix, houtput]
    simp only [Except.bind, Lint.correctedText?_printed h]
  simp only [correct, hurl, hrunner, hopen, hfix]
  rfl

/-! ### Main statement -/

/-- **The corrected text.** Behind a report without a separator line and a separator line, any text
is found, even one with separator lines in it, but without the white space in front: as it is, it is
found exactly if there is none. Nothing is found exactly where no line is the separator. These are
the texts that open documents are compared with; so a document that the linter prints as it is is
left alone if no white space stands in front of it, and if there is some, it is edited away. -/
theorem correct_printed {report : List Text} (h : ∀ line ∈ report, IsReportLine line)
    (code : Text) :
    correctedText? (printed report code) = some (trimStart code) ∧
    (correctedText? (printed report code) = some code ↔ startsBlank code = false) ∧
    (∀ output, correctedText? output = none ↔ Lint.separator ∉ Text.lines output) ∧
    ∀ (env : Environment) (uri : Uri) (cop : Option String) (range : Option Range) (turn : Turn L)
      (doc : Document), Prints env report code uri cop turn doc →
      ∃ edits, (correct env uri cop range turn).2 = some (doc, edits) ∧
        edits = Edit.between turn.state.encoding doc.source.text (trimStart code)
          (env.compare doc.source.text (trimStart code)) range ∧
        (code = doc.source.text → startsBlank code = false → edits = []) ∧
        (code = doc.source.text → startsBlank code = true → range = none →
          Change.oldText (env.compare code (trimStart code)) = code →
          Change.newText (env.compare code (trimStart code)) = trimStart code → edits ≠ []) := by
  have hfound := Lint.correctedText?_printed h code
  refine ⟨hfound, ?_, fun output => ?_, ?_⟩
  · rw [hfound, Option.some.injEq, Text.trimStart_eq_self_iff]
  · rw [correctedText?, Option.map_eq_none_iff, Lint.behindSeparator_eq_none_iff]
  · intro env uri cop range turn doc hprints
    refine ⟨_, hprints.correct_eq h range, rfl, ?_, ?_⟩
    · rintro rfl hblank
      rw [Text.trimStart_eq_self_iff.2 hblank]
      exact if_pos rfl
    · rintro rfl hblank rfl hold hnew hnone
      have hsame := (Edit.between_eq_nil_iff _ hold hnew).1 hnone
      exact absurd hblank (by simp [Text.trimStart_eq_self_iff.1 hsame.symm])

/-- Surroundings in which the linter has nothing to correct. -/
def Environment.content : Environment where
  parser _ := none
  compare _ _ := [.delete '\n', .delete ' ', .keep 'x']
  files := ⟨[], [([".rubocop.yml"], some [])]⟩
  surroundings := none
  currentDir := "/"
  tool call := .finished true true
    ((printed [['.'], []] call.input).map fun c => UInt8.ofNat c.toNat) []
  reply _ := none

/-- A text with an empty line and an indentation in front, in a buffer. -/
def indented : Document := ⟨Source.parse (fun _ => none) ['\n', ' ', 'x'], none⟩

def bufferName : Uri := ⟨"untitled:a", by decide⟩

def buffer : Url := ⟨"untitled", "", "", none, none, .bare "a", none, none⟩

/-- The buffer is open. -/
def Turn.indented : Turn :=
  .begin { (.start : State) with documents := ⟨[(buffer, Server.indented)]⟩ }

set_option maxRecDepth 4000 in
/-- An indented document that has no faults loses its indentation. -/
theorem correct_printed_indented :
    correctedText? (printed [['.'], []] ['\n', ' ', 'x']) ≠ some ['\n', ' ', 'x'] ∧
    (correct .content bufferName none none .indented).2 =
      some (indented, [⟨⟨⟨0, 0⟩, ⟨1, 1⟩⟩, []⟩]) ∧
    (correct .content bufferName none none .indented).2 ≠ some (indented, []) := by
  have hreport : ∀ line ∈ ([['.'], []] : List Text), IsReportLine line := by
    intro line hline
    simp only [List.mem_cons, List.not_mem_nil, or_false] at hline
    rcases hline with rfl | rfl <;> exact ⟨by decide, by decide⟩
  have hprints :
      Prints .content [['.'], []] ['\n', ' ', 'x'] bufferName none .indented indented := by
    refine ⟨buffer, ⟨"/", defaultTimeoutMs⟩, ?_, ?_, ?_, ?_⟩ <;> rfl
  obtain ⟨-, hsame, -, hcorrect⟩ := correct_printed (L := Url) hreport ['\n', ' ', 'x']
  obtain ⟨edits, hedits, hbetween, -, hedited⟩ :=
    hcorrect _ bufferName none none .indented _ hprints
  refine ⟨fun hkept => absurd (hsame.1 hkept) (by decide), ?_, fun hnone => ?_⟩
  · rw [hedits, hbetween]
    rfl
  · rw [hedits] at hnone
    exact hedited rfl rfl rfl rfl rfl (Prod.mk.inj (Option.some.inj hnone)).2

end RubyLens.Server
