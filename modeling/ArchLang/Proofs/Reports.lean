import ArchLang.Proofs.Labels
import ArchLang.Report
import Mathlib.Data.List.Forall2
import Mathlib.Data.Nat.PSub

/-!
# Reports stay inside the source

A report points into the text by an offset and a length, and whoever prints it cuts that part out.
The spans it is made from may be anything, also spans of another text that is longer.  So a label is
cut down to the text first.  The cut moves the end of the label into a range, which has to be in
order, and subtracts the start from it, which has to be the smaller of the two.

* `clamp?`, `ReportLabel.checked?` — the cut with both conditions checked.
* `Label.CutTo size l r` — `r` is the part of the label `l` that lies in a text of `size` bytes.
* `Diagnostic.ShownBy text d r` — the report `r` says what the diagnostic `d` says about `text`.
* **`reports_inside`** — every rejection is reported diagnostic by diagnostic and inside the text,
  and where the front end rejected that text, there is something to report and nothing is cut off.

The labels of the front end lie on the text it read (`fits_of_declarationsOf`), so cutting them down
changes nothing.
-/

namespace ArchLang

/-! ## One label -/

/-- A number moved into the range from `lo` to `hi`, if this range is in order. -/
def clamp? (lo hi n : ℕ) : Option ℕ :=
  if lo ≤ hi then some (if n < lo then lo else if hi < n then hi else n) else none

lemma clamp?_of_le {lo hi : ℕ} (h : lo ≤ hi) (n : ℕ) :
    clamp? lo hi n = some (max lo (min n hi)) := by
  rw [clamp?, if_pos h, Option.some.injEq]
  split_ifs <;> omega

namespace ReportLabel

/-- A label cut down to a source of `size` bytes, if its steps can all be taken. -/
def checked? (size : ℕ) (l : Label) : Option ReportLabel :=
  let start := min l.span.start size
  (clamp? start size l.span.stop).bind fun stop =>
    (stop.psub start).map fun length => ⟨start, length, l.message, l.isPrimary⟩

/-- All of a label. -/
def whole (l : Label) : ReportLabel := ⟨l.span.start, l.span.length, l.message, l.isPrimary⟩

/-- Neither step fails. -/
lemma checked?_eq (size : ℕ) (l : Label) : checked? size l = some (ofLabel size l) := by
  have hrange : min l.span.start size ≤ size := Nat.min_le_right _ _
  rw [checked?, clamp?_of_le hrange, Option.bind_some, Nat.psub_eq_sub (Nat.le_max_left _ _)]
  rfl

lemma ofLabel_of_le {size : ℕ} {l : Label} (h : l.span.stop ≤ size) : ofLabel size l = whole l := by
  have hstart := Nat.min_eq_left (l.span.start_le_stop.trans h)
  rw [ofLabel, hstart, Nat.min_eq_left h, Nat.max_eq_right l.span.start_le_stop]
  rfl

end ReportLabel

/-- The report shows the label as far as it lies in a source of `size` bytes. -/
structure Label.CutTo (size : ℕ) (l : Label) (r : ReportLabel) : Prop where
  message : r.message = l.message
  isPrimary : r.isPrimary = l.isPrimary
  /-- the steps of the cut can be taken -/
  checked : ReportLabel.checked? size l = some r
  offset : r.offset = min l.span.start size
  stop : r.offset + r.length = min l.span.stop size
  inside : r.offset + r.length ≤ size
  /-- nothing is cut off a label that lies in the source -/
  kept : l.span.stop ≤ size → r = .whole l

lemma cutTo_ofLabel (size : ℕ) (l : Label) : l.CutTo size (.ofLabel size l) where
  message := rfl
  isPrimary := rfl
  checked := ReportLabel.checked?_eq size l
  offset := rfl
  stop := by
    have horder := l.span.start_le_stop
    simp only [ReportLabel.ofLabel]
    omega
  inside := ReportLabel.offset_add_length_le size l
  kept := ReportLabel.ofLabel_of_le

/-! ## One diagnostic -/

/-- The report says what the diagnostic says, about a source. -/
structure Diagnostic.ShownBy (text : String) (d : Diagnostic) (r : Report) : Prop where
  message : r.message = d.message
  code : r.code = d.code.map DiagnosticCode.name
  severity : r.severity = d.severity
  help : r.help = d.help
  source : r.source = some text
  labels : List.Forall₂ (Label.CutTo text.utf8ByteSize) d.labels r.labels

lemma shownBy_ofDiagnostic (source : String) (d : Diagnostic) :
    d.ShownBy source (.ofDiagnostic source d) where
  message := rfl
  code := rfl
  severity := rfl
  help := rfl
  source := rfl
  labels := List.forall₂_map_right_iff.2 (List.forall₂_same.2 fun l _ => cutTo_ofLabel _ l)

/-- The labels that lie in the source are shown as a whole. -/
lemma Diagnostic.ShownBy.labels_eq {source : String} {d : Diagnostic} {r : Report}
    (h : d.ShownBy source r) (hinside : ∀ l ∈ d.labels, l.span.stop ≤ source.utf8ByteSize) :
    r.labels = d.labels.map .whole := by
  have hkept := (List.forall₂_and_left _ _).2 ⟨hinside, h.labels⟩
  have hmapped : List.Forall₂ (· = ·) (d.labels.map .whole) r.labels :=
    List.forall₂_map_left_iff.2 (hkept.imp fun _ _ h => (h.2.kept h.1).symm)
  rw [List.forall₂_eq_eq_eq] at hmapped
  exact hmapped.symm

/-! ## Whole errors -/

lemma shownBy_reports (error : Rejection) (source : String) :
    List.Forall₂ (Diagnostic.ShownBy source) error.diagnostics
      (CompileError.rejected error source).reports :=
  List.forall₂_map_right_iff.2 (List.forall₂_same.2 fun d _ => shownBy_ofDiagnostic source d)

/-- A source is not refused for nothing. -/
lemma diagnostics_ne_nil {source : String} {e : Rejection} (h : declarationsOf source = .error e) :
    e.diagnostics ≠ [] := by
  unfold declarationsOf at h
  cases htokens : tokensOf source with
  | error e' =>
      rw [htokens] at h
      cases h
      exact (tokensOf_eq_error_iff.1 htokens).2
  | ok ts =>
      rw [htokens] at h
      unfold declarationsOfTokens at h
      cases hread : Grammar.declarations ts with
      | done found rest => simp only [hread] at h; cases h
      | failed f =>
          simp only [hread] at h
          cases h
          exact List.cons_ne_nil _ _

/-- A source that is not compiled is one that is not read. -/
lemma exists_of_compile_eq_error {c : Configuration} {source : String} {e : CompileError}
    (h : c.compile source = .error e) :
    ∃ error, e = .rejected error source ∧ declarationsOf source = .error error := by
  unfold Configuration.compile Model.ofSource at h
  cases hread : declarationsOf source with
  | ok ds => rw [hread] at h; cases h
  | error error =>
      rw [hread] at h
      cases h
      exact ⟨error, rfl, rfl⟩

/-- **Reports stay inside the source.**  A rejection has one report for each diagnostic, in order,
and its labels are cut down to the source, wherever they pointed.  If it comes from compiling that
source, there is a report, and the labels are as the diagnostics have them. -/
theorem reports_inside :
    (∀ error source, List.Forall₂ (Diagnostic.ShownBy source) error.diagnostics
      (CompileError.rejected error source).reports) ∧
    ∀ (c : Configuration) source e, c.compile source = .error e →
      ∃ error, e = .rejected error source ∧ e.reports ≠ [] ∧
        List.Forall₂ (fun d r => d.ShownBy source r ∧ r.labels = d.labels.map .whole)
          error.diagnostics e.reports := by
  refine ⟨shownBy_reports, fun c source e h => ?_⟩
  obtain ⟨error, rfl, hread⟩ := exists_of_compile_eq_error h
  have hinside : ∀ d ∈ error.diagnostics, ∀ l ∈ d.labels, l.span.stop ≤ source.utf8ByteSize := by
    intro d hd l hl
    rw [← byteLength_toList]
    exact (fits_of_declarationsOf hread d hd l hl).stop_le
  refine ⟨error, rfl, ?_, ?_⟩
  · exact fun hnone => diagnostics_ne_nil hread (List.map_eq_nil_iff.1 hnone)
  · have hshown := (List.forall₂_and_left _ _).2 ⟨hinside, shownBy_reports error source⟩
    exact hshown.imp fun _ _ h => ⟨h.2, h.2.labels_eq h.1⟩

/-- Two diagnostics with labels partly and wholly behind a text of six bytes. -/
def strayed : Rejection :=
  ⟨[(Diagnostic.error "long").addLabel (.between 2 9) "from here",
    ((Diagnostic.warning "far").addSecondary (.between 8 11) "there").setHelp "look"]⟩

theorem reports_inside_strayed :
    List.Forall₂ (Diagnostic.ShownBy "domain") strayed.diagnostics
        (CompileError.rejected strayed "domain").reports ∧
      (CompileError.rejected strayed "domain").reports.map (fun r => (r.help, r.labels)) =
        [(none, [⟨2, 4, "from here", true⟩]), (some "look", [⟨6, 0, "there", false⟩])] ∧
      ∃ e, Configuration.compile {} "domain" = .error e ∧ (∃ error, e = .rejected error "domain" ∧
        e.reports ≠ [] ∧ List.Forall₂ (fun d r => d.ShownBy "domain" r ∧
          r.labels = d.labels.map .whole) error.diagnostics e.reports) := by
  refine ⟨reports_inside.1 strayed "domain", by decide, ?_⟩
  cases h : Configuration.compile {} "domain" with
  | error e => exact ⟨e, rfl, reports_inside.2 _ _ e h⟩
  | ok m =>
      have hrefused : (Configuration.compile {} "domain").isOk = false := by decide +kernel
      rw [h] at hrefused
      cases hrefused

end ArchLang
