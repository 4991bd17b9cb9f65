import ArchLang.Configuration
import ArchLang.Proofs.EdgeNames
import ArchLang.Proofs.Lexemes
import Mathlib.Algebra.GroupWithZero.Nat
import Mathlib.Data.List.TakeWhile
import Mathlib.Tactic.Common

/-!
# The lines of a flow listing

A listing is meant to be read line by line: a header for each flow, one line for each edge, an empty
line between two flows.  The texts that go into a line are written as they are, so it takes more
than one line to show a text with a line feed.  Most texts cannot have one.  Names at the ends of
edges are plain words, the words for the kinds and the identifiers of scenarios are made here, and
lower-casing a name puts no line feed into it.  What is left are the names of use cases and the
labels of edges, which may come from string literals with escapes.

* `Flow.lines`, `Model.flowLines` — the lines that are meant.
* `lineFeeds text` — the number of line feeds; `Flow.breaks` counts those of the name of the use
  case and of all labels.
* `lineFeeds_terminated`, `splitOn_terminated` — lines that are written one after another, each with
  a line feed behind it, are read again exactly if none of them holds a line feed.
* `noLineFeed_of_plain` — a plain word of a source holds none.
* **`flowListing_lines`** — the listing of a source writes its lines; how many line feeds it has,
  and when its lines are read again.
* **`flowListing_not_always_lines`** — a use case whose name has a line feed.
-/

namespace ArchLang

open ArchLang.Grammar

/-! ## The lines that are meant -/

/-- The line of an edge, without its end. -/
def Edge.text (e : Edge) : String := "  [" ++ e.kind.name ++ "] " ++ e.display

/-- The lines of a flow: a header and a line for each edge, or one that says that there are none. -/
def Flow.lines (f : Flow) : List String :=
  (f.useCase ++ " / " ++ f.scenarioId) ::
    if f.edges = [] then ["  (no edges)"] else f.edges.map Edge.text

/-- The lines of all flows, with an empty line between any two. -/
def Model.flowLines (m : Model) : List String := [""].intercalate (m.flows.map Flow.lines)

/-- The number of line feeds in a text. -/
def lineFeeds (text : String) : ℕ := text.toList.count '\n'

/-- The number of line feeds in the texts that a flow takes from string literals. -/
def Flow.breaks (f : Flow) : ℕ :=
  lineFeeds f.useCase + (f.edges.map fun e => lineFeeds e.label).sum

@[simp] lemma lineFeeds_append (s t : String) : lineFeeds (s ++ t) = lineFeeds s + lineFeeds t := by
  rw [lineFeeds, String.toList_append, List.count_append]
  rfl

lemma lineFeeds_eq_zero {text : String} : lineFeeds text = 0 ↔ '\n' ∉ text.toList :=
  List.count_eq_zero

/-! ## Lines one after another -/

section Terminated

/-- A split has one piece more than there are places to split at. -/
lemma length_splitOn {α : Type} [DecidableEq α] (a : α) (xs : List α) :
    (xs.splitOn a).length = xs.count a + 1 := by
  induction xs with
  | nil => rfl
  | cons x xs ih =>
      rw [List.splitOn_eq_splitOnP] at ih ⊢
      rw [List.splitOnP_cons_eq_if_modifyHead, List.count_cons]
      split
      · rw [List.length_cons, ih]
      · rw [List.length_modifyHead, ih]

lemma lineFeeds_terminated (lines : List String) :
    lineFeeds (String.join (lines.map (· ++ "\n"))) = lines.length + (lines.map lineFeeds).sum := by
  induction lines with
  | nil => rfl
  | cons line lines ih =>
      rw [List.map_cons, String.join_cons, lineFeeds_append, lineFeeds_append, ih, List.map_cons,
        List.sum_cons, List.length_cons]
      have hend : lineFeeds "\n" = 1 := rfl
      omega

lemma splitOn_of_lineFeeds {lines : List String} (h : ∀ line ∈ lines, lineFeeds line = 0) :
    (String.join (lines.map (· ++ "\n"))).toList.splitOn '\n'
      = lines.map String.toList ++ [[]] := by
  induction lines with
  | nil => rfl
  | cons line lines ih =>
      rw [List.forall_mem_cons] at h
      have htext : (String.join ((line :: lines).map (· ++ "\n"))).toList
          = line.toList ++ '\n' :: (String.join (lines.map (· ++ "\n"))).toList := by
        simp [String.join_cons]
      rw [htext, List.splitOn_append_cons_self, List.splitOn_eq_singleton (lineFeeds_eq_zero.1 h.1),
        ih h.2]
      rfl

/-- Lines are read again exactly if none of them holds a line feed. -/
lemma splitOn_terminated {lines : List String} :
    (String.join (lines.map (· ++ "\n"))).toList.splitOn '\n' = lines.map String.toList ++ [[]] ↔
      (lines.map lineFeeds).sum = 0 := by
  constructor
  · intro h
    have hlength := length_splitOn '\n' (String.join (lines.map (· ++ "\n"))).toList
    have hcount := lineFeeds_terminated lines
    rw [h, List.length_append, List.length_map, List.length_singleton] at hlength
    rw [lineFeeds] at hcount
    omega
  · intro h
    rw [List.sum_eq_zero_iff_forall_eq_nat, List.forall_mem_map] at h
    exact splitOn_of_lineFeeds h

end Terminated

/-! ## What a listing writes -/

lemma listing_eq (f : Flow) : f.listing = String.join (f.lines.map (· ++ "\n")) := by
  rw [Flow.listing, Flow.lines, Flow.edgeLines, List.map_cons]
  split
  · rfl
  · rw [List.map_map]
    rfl

lemma flowListing_eq (m : Model) : m.flowListing = String.join (m.flowLines.map (· ++ "\n")) := by
  rw [Model.flowListing, Model.flowLines]
  induction m.flows with
  | nil => rfl
  | cons f fs ih =>
      cases fs with
      | nil => simp [listing_eq]
      | cons g fs =>
          simp only [List.map_cons] at ih ⊢
          rw [String.intercalate_cons_cons, ih, List.intercalate_cons_cons, listing_eq]
          simp [String.join_append, String.append_assoc]

lemma length_lines (f : Flow) : f.lines.length = 1 + max 1 f.edges.length := by
  rw [Flow.lines, List.length_cons]
  cases hedges : f.edges with
  | nil => rfl
  | cons e es =>
      rw [if_neg (List.cons_ne_nil e es), List.length_map, List.length_cons]
      omega

/-- What is counted over lists with a separator between any two. -/
lemma sum_map_intercalate {α : Type} (g : α → ℕ) (a : α) (ls : List (List α)) :
    (([a].intercalate ls).map g).sum
      = (ls.map fun l => (l.map g).sum).sum + (ls.length - 1) * g a := by
  induction ls with
  | nil => simp
  | cons l ls ih =>
      cases ls with
      | nil => simp
      | cons l' ls =>
          rw [List.intercalate_cons_cons, List.map_append, List.sum_append, ih]
          simp only [List.map_append, List.sum_append, List.map_cons, List.map_nil, List.sum_cons,
            List.sum_nil, List.length_cons, Nat.add_sub_cancel, Nat.succ_mul]
          omega

lemma length_flowLines (m : Model) : m.flowLines.length
    = (m.flows.map fun f => 1 + max 1 f.edges.length).sum + (m.flows.length - 1) := by
  have hsum := sum_map_intercalate (fun _ => 1) "" (m.flows.map Flow.lines)
  simpa [Model.flowLines, List.map_map, Function.comp_def, length_lines] using hsum

/-! ## Texts without line feeds -/

lemma lineFeeds_kind (k : EdgeKind) : lineFeeds k.name = 0 := by
  cases k <;> rfl

lemma lineFeeds_scenarioId (n : ℕ) : lineFeeds (scenarioId n) = 0 := by
  have hprefix : lineFeeds "scenario_" = 0 := by decide
  have hnumber : lineFeeds (toString n) = 0 := by
    rw [lineFeeds_eq_zero, Nat.toString_eq_repr, Nat.toList_repr]
    intro hmem
    exact absurd (Nat.isDigit_of_mem_toDigits (by decide) (Nat.le_refl 10) hmem) (by decide)
  rw [scenarioId, lineFeeds_append, hprefix, hnumber]

lemma ofNat_ne_newline {n : ℕ} (h : 11 ≤ n) : Char.ofNat n ≠ '\n' := by
  intro heq
  by_cases hn : n.isValidChar
  · rw [Char.ofNat, dif_pos hn] at heq
    have hten : n = 10 := congrArg Char.toNat heq
    omega
  · rw [Char.ofNat, dif_neg hn] at heq
    exact absurd heq (by decide)

/-- No character becomes a line feed in lower case. -/
lemma lowercaseChar_ne_newline {c : Char} (hc : c ≠ '\n') : lowercaseChar c ≠ '\n' := by
  have hruns : lowercaseRuns.all (fun r => 11 ≤ r.target) = true := by decide
  unfold lowercaseChar
  split
  next r hr =>
      have hr := of_decide_eq_true (List.all_eq_true.1 hruns r (List.mem_of_find?_eq_some hr))
      exact ofNat_ne_newline (Nat.le_add_right_of_le hr)
  next => exact hc

lemma newline_notMem_lowercaseFrom {before cs : List Char} (h : '\n' ∉ cs) :
    '\n' ∉ lowercaseFrom before cs := by
  induction cs generalizing before with
  | nil => exact List.not_mem_nil
  | cons c cs ih =>
      rw [List.mem_cons, not_or] at h
      rw [lowercaseFrom, List.mem_append, not_or]
      refine ⟨?_, ih h.2⟩
      split
      · decide
      split
      · split <;> decide
      · rw [List.mem_singleton]
        exact (lowercaseChar_ne_newline (Ne.symm h.1)).symm

lemma lineFeeds_channelOf {domain : String} (h : lineFeeds domain = 0) :
    lineFeeds (channelOf domain) = 0 := by
  have hqueue : lineFeeds "_queue" = 0 := by decide
  rw [channelOf, lineFeeds_append, hqueue, Nat.add_zero, lineFeeds_eq_zero, String.toList_ofList]
  intro hmem
  obtain ⟨c, hc, heq⟩ := List.mem_map.1 hmem
  rw [lowercase, String.toList_ofList] at hc
  split at heq
  · exact absurd heq (by decide)
  · exact newline_notMem_lowercaseFrom (lineFeeds_eq_zero.1 h) (heq ▸ hc)

lemma lineFeeds_endpoint {p : Endpoint} (h : ∀ name ∈ p.names, lineFeeds name = 0) :
    lineFeeds p.display = 0 := by
  cases p with
  | actor name => exact h name List.mem_cons_self
  | domain name => exact h name List.mem_cons_self
  | channel owner => exact lineFeeds_channelOf (h owner List.mem_cons_self)
  | external => rfl

/-! ## Plain words -/

/-- The characters of words, numbers and percentages. -/
def isPlainChar (c : Char) : Bool := isNameChar c || c ∈ ['-', '.', '%']

lemma isPlainChar_of_isNameChar {c : Char} (h : isNameChar c = true) : isPlainChar c = true := by
  rw [isPlainChar, h, Bool.true_or]

lemma isNameChar_of_isDigit {c : Char} (h : c.isDigit = true) : isNameChar c = true := by
  rw [isNameChar, Char.isAlphanum, h, Bool.or_true, Bool.true_or]

lemma isNameChar_of_isNameStart {c : Char} (h : isNameStart c = true) : isNameChar c = true := by
  rw [isNameStart] at h
  rw [isNameChar, Char.isAlphanum, Bool.or_right_comm, h, Bool.true_or]

lemma isPlainChar_of_isDigit {c : Char} (h : c.isDigit = true) : isPlainChar c = true :=
  isPlainChar_of_isNameChar (isNameChar_of_isDigit h)

lemma plain_scanSegments (cs : List Char) : ∀ c ∈ (scanSegments cs).1, isPlainChar c = true := by
  fun_induction scanSegments cs with
  | case1 c cs hc word tail ih =>
      refine List.forall_mem_cons.2 ⟨rfl, List.forall_mem_cons.2
        ⟨isPlainChar_of_isNameChar hc, List.forall_mem_append.2 ⟨fun d hd => ?_, ih⟩⟩⟩
      exact isPlainChar_of_isNameChar (List.mem_takeWhile_imp hd)
  | case2 => exact List.forall_mem_nil _
  | case3 => exact List.forall_mem_nil _

lemma plain_scanWordTail (cs : List Char) : ∀ c ∈ (scanWordTail cs).1, isPlainChar c = true := by
  refine List.forall_mem_append.2 ⟨fun c hc => ?_, plain_scanSegments _⟩
  exact isPlainChar_of_isNameChar (List.mem_takeWhile_imp hc)

lemma plain_takeWhile_isDigit (cs : List Char) :
    ∀ c ∈ cs.takeWhile Char.isDigit, isPlainChar c = true := fun _ hc =>
  isPlainChar_of_isDigit (List.mem_takeWhile_imp hc)

lemma plain_scanFraction (cs : List Char) : ∀ c ∈ (scanFraction cs).1, isPlainChar c = true := by
  unfold scanFraction
  split
  · split
    next hc =>
        exact List.forall_mem_cons.2 ⟨rfl, List.forall_mem_cons.2
          ⟨isPlainChar_of_isDigit hc, plain_takeWhile_isDigit _⟩⟩
    next => exact nofun
  · exact nofun

lemma plain_numberScan {digits cs lexeme rest : List Char} {t : Token}
    (h : numberScan digits cs = .token t lexeme rest)
    (hdigits : ∀ c ∈ digits, isPlainChar c = true) : ∀ c ∈ lexeme, isPlainChar c = true := by
  unfold numberScan at h
  split at h
  · cases h
    exact List.forall_mem_append.2 ⟨hdigits, List.forall_mem_singleton.2 rfl⟩
  · cases h
    exact hdigits

/-- The characters of a token that is a plain word in a line. -/
lemma plain_of_scan {c : Char} {cs lexeme rest : List Char} {t : Token}
    (h : scan c cs = .token t lexeme rest) {text : String}
    (hword : wordOf t = some (.plain text)) : ∀ d ∈ lexeme, isPlainChar d = true := by
  cases scan_eq_token_iff.1 h with
  | word cs hname =>
      exact List.forall_mem_cons.2
        ⟨isPlainChar_of_isNameChar (isNameChar_of_isNameStart hname), plain_scanWordTail cs⟩
  | number hdigit hscan =>
      refine plain_numberScan hscan (List.forall_mem_append.2 ⟨?_, plain_scanFraction _⟩)
      exact List.forall_mem_cons.2 ⟨isPlainChar_of_isDigit hdigit, plain_takeWhile_isDigit _⟩
  | comment | literal | arrow | newline | blank | mark => cases hword

/-- A plain word is spelled as it stands. -/
lemma eq_toList_of_plain {t : Token} {cs : List Char} (h : Spelled t cs) {text : String}
    (hword : wordOf t = some (.plain text)) : cs = text.toList := by
  cases h <;> cases hword <;> simp

lemma Lexed.plain {offset : ℕ} {cs : List Char} {ts : List (Located Token)}
    (h : Lexed offset cs ts) {text : String} (hword : HasPlainWord ts text) :
    ∀ c ∈ text.toList, isPlainChar c = true := by
  obtain ⟨t, ht, hword⟩ := hword
  induction h with
  | nil => cases ht
  | cons hscan _ ih =>
      rcases List.mem_cons.1 ht with rfl | ht
      · rw [← eq_toList_of_plain (spelled_of_scan hscan) hword]
        exact plain_of_scan hscan hword
      · exact ih ht

/-- No plain word of a source holds a line feed. -/
lemma lineFeeds_of_plain {source : String} {ts : List (Located Token)}
    (h : tokensOf source = .ok ts) {text : String} (hword : HasPlainWord ts text) :
    lineFeeds text = 0 := by
  rw [lineFeeds_eq_zero]
  intro hmem
  exact absurd ((tokensOf_eq_ok_iff.1 h).plain hword _ hmem) (by decide)

/-! ## The listing of a source -/

lemma lineFeeds_text {e : Edge} (h : ∀ name ∈ e.names, lineFeeds name = 0) :
    lineFeeds e.text = lineFeeds e.label := by
  obtain ⟨hsource, htarget⟩ := List.forall_mem_append.1 h
  have hends : lineFeeds (e.source.display ++ " -> " ++ e.target.display) = 0 := by
    rw [lineFeeds_append, lineFeeds_append, lineFeeds_endpoint hsource, lineFeeds_endpoint htarget]
    rfl
  have hdisplay : lineFeeds e.display = lineFeeds e.label := by
    unfold Edge.display
    dsimp only
    split
    next hempty => rw [hends, hempty]; rfl
    next =>
        rw [lineFeeds_append, lineFeeds_append, hends, Nat.zero_add]
        exact Nat.zero_add _
  rw [Edge.text, lineFeeds_append, lineFeeds_append, lineFeeds_append, lineFeeds_kind, hdisplay]
  exact Nat.zero_add _

/-- Only the name of the use case and the labels can put line feeds into the lines of a flow. -/
lemma lineFeeds_lines {f : Flow} (hid : lineFeeds f.scenarioId = 0)
    (hnames : ∀ e ∈ f.edges, ∀ name ∈ e.names, lineFeeds name = 0) :
    (f.lines.map lineFeeds).sum = f.breaks := by
  have hslash : lineFeeds " / " = 0 := by decide
  have hnone : lineFeeds "  (no edges)" = 0 := by decide
  rw [Flow.lines, List.map_cons, List.sum_cons, lineFeeds_append, lineFeeds_append, hid, hslash,
    Flow.breaks]
  congr 1
  cases hedges : f.edges with
  | nil => simp [hnone]
  | cons e es =>
      rw [if_neg (List.cons_ne_nil e es), ← hedges, List.map_map]
      exact congrArg List.sum (List.map_congr_left fun e he => lineFeeds_text (hnames e he))

/-- The endpoints and the identifiers of a source hold no line feed, so its lines have those of its
string literals. -/
lemma lineFeeds_flowLines {policies : Policies} {source : String} {m : Model}
    (h : Model.ofSource policies source = .ok m) :
    (m.flowLines.map lineFeeds).sum = (m.flows.map Flow.breaks).sum := by
  obtain ⟨ts, ds, htokens, -, rfl⟩ := ofSource_eq_ok.1 h
  have hempty : lineFeeds "" = 0 := rfl
  rw [Model.flowLines, sum_map_intercalate, hempty, Nat.mul_zero, Nat.add_zero, List.map_map]
  refine congrArg List.sum (List.map_congr_left fun f hf =>
    lineFeeds_lines ?_ fun e he name hn => ?_)
  · obtain ⟨n, hn⟩ := exists_number_of_mem_flows hf
    rw [hn, lineFeeds_scenarioId]
  · exact lineFeeds_of_plain htokens (exists_word_of_mem_edges htokens h hf he hn)

/-- **What a listing writes.**  The listing of a source writes the lines of its flows one after
another.  It has one line feed for each of them and those of names of use cases and labels besides;
without the latter, and only then, it is read as these lines and nothing else. -/
theorem flowListing_lines {c : Configuration} {source : String} {m : Model}
    (h : c.compile source = .ok m) :
    c.render .flows m = String.join (m.flowLines.map (· ++ "\n")) ∧
    lineFeeds (c.render .flows m) =
      (m.flows.map fun f => 1 + max 1 f.edges.length).sum + (m.flows.length - 1)
        + (m.flows.map Flow.breaks).sum ∧
    ((c.render .flows m).toList.splitOn '\n' = m.flowLines.map String.toList ++ [[]] ↔
      ∀ f ∈ m.flows, f.breaks = 0) := by
  have hsource : Model.ofSource c.toPolicies source = .ok m := by
    rw [Configuration.compile] at h
    cases hread : Model.ofSource c.toPolicies source with
    | ok m' => rw [hread] at h; cases h; rfl
    | error e => rw [hread] at h; cases h
  have hrender : c.render .flows m = String.join (m.flowLines.map (· ++ "\n")) := flowListing_eq m
  refine ⟨hrender, ?_, ?_⟩
  · rw [hrender, lineFeeds_terminated, length_flowLines, lineFeeds_flowLines hsource]
  · rw [hrender, splitOn_terminated, lineFeeds_flowLines hsource,
      List.sum_eq_zero_iff_forall_eq_nat, List.forall_mem_map]

/-- A source with a flow of three edges and one without any. -/
def checkoutSource : String :=
  "use_case Checkout \x7b\n  when Customer places order\n  Orders asks Payments to charge\n" ++
    "  Payments returns receipt\n  when \"Night\"\n\x7d\n"

/-- Its listing is read as its lines. -/
theorem flowListing_lines_checkout :
    ∃ m, Configuration.compile {} checkoutSource = .ok m ∧
      m.flowLines = ["Checkout / scenario_1", "  [trigger] Customer -> Orders: places order",
        "  [sync] Orders -> Payments: to charge", "  [return] Payments -> Orders: receipt", "",
        "Checkout / scenario_4", "  (no edges)"] ∧
      ((Configuration.render {} .flows m).toList.splitOn '\n'
        = m.flowLines.map String.toList ++ [[]]) := by
  cases h : Configuration.compile {} checkoutSource with
  | error e =>
      have haccepted : (Configuration.compile {} checkoutSource).isOk = true := by decide +kernel
      rw [h] at haccepted
      cases haccepted
  | ok m =>
      have hfound : (Configuration.compile {} checkoutSource).toOption.map
          (fun m => (m.flowLines, m.flows.map Flow.breaks)) =
          some (["Checkout / scenario_1", "  [trigger] Customer -> Orders: places order",
            "  [sync] Orders -> Payments: to charge", "  [return] Payments -> Orders: receipt", "",
            "Checkout / scenario_4", "  (no edges)"], [0, 0]) := by decide +kernel
      rw [h, Except.toOption, Option.map_some, Option.some.injEq, Prod.mk.injEq] at hfound
      refine ⟨m, rfl, hfound.1, (flowListing_lines h).2.2.2 fun f hf => ?_⟩
      have hbreaks : f.breaks ∈ m.flows.map Flow.breaks := List.mem_map_of_mem hf
      rw [hfound.2] at hbreaks
      simpa using hbreaks

/-- A source with an escape in the name of a use case. -/
def brokenNameSource : String := "use_case \"Check\\nout\" \x7b when Customer pays \x7d"

/-- The name takes two lines. -/
theorem flowListing_not_always_lines :
    ¬ ∀ (c : Configuration) (source : String) (m : Model), c.compile source = .ok m →
      (c.render .flows m).toList.splitOn '\n' = m.flowLines.map String.toList ++ [[]] ∧
      lineFeeds (c.render .flows m) =
        (m.flows.map fun f => 1 + max 1 f.edges.length).sum + (m.flows.length - 1) := by
  intro h
  have hcounts : (Configuration.compile {} brokenNameSource).toOption.map
      (fun m => (lineFeeds (Configuration.render {} .flows m),
        (m.flows.map fun f => 1 + max 1 f.edges.length).sum + (m.flows.length - 1))) =
      some (3, 2) := by decide +kernel
  cases hm : Configuration.compile {} brokenNameSource with
  | error e => rw [hm] at hcounts; cases hcounts
  | ok m =>
      rw [hm, Except.toOption, Option.map_some, Option.some.injEq, Prod.mk.injEq] at hcounts
      have hsame := (h {} brokenNameSource m hm).2
      omega

end ArchLang
