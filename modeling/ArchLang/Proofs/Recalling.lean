import ArchLang.Proofs.Failing

/-!
# What a failure remembers

A failure behind the point of no return remembers the tokens at which its construct began, and a
rejected line those at which the line began.  A diagnostic is made from them, so one has to know
that they are tokens of the text: this file says that what a failure remembers are some last tokens
of all those that were there to be read.

* `Failure.Recalls whole` — where a failure remembers a place, some last tokens of `whole` begin
  there.  `reject` is told what to remember, so there the tokens that it is told have to be such.
* **`start_suffix_of_failed`** — the case of a whole program.
-/

namespace ArchLang

open ArchLang.Parser ArchLang.Grammar

/-- Where the failure remembers a place, some last tokens of `whole` begin there. -/
def Failure.Recalls (whole : Tokens) (e : Failure) : Prop :=
  ∀ start, e.start? = some start → start <:+ whole

variable (whole : Tokens)

/-- The innermost place counts, and the tokens at hand if there is none. -/
instance : Lasting whole (Failure.Recalls whole) where
  opened _ := nofun
  labelled _ h := h
  committed := by
    intro e s hs h start hstart
    cases hinner : e.start? with
    | some inner =>
        simp only [hinner, Option.some_or, Option.some.injEq] at hstart
        exact h start (hinner.trans (congrArg some hstart))
    | none =>
        simp only [hinner, Option.none_or, Option.some.injEq] at hstart
        exact hstart ▸ hs
  moved _ _ h := h
  rejected := by
    rintro start s what - hstart _ ⟨⟩
    exact hstart

instance {α : Type} (start : Tokens) (what : Expected) (span : Span) (form : Option α)
    [hstart : Fact (start <:+ whole)] :
    Fails whole (Failure.Recalls whole) (classified start what span form) := by
  refine ⟨fun {s e} _ he start' hstart' => ?_⟩
  cases form with
  | some form => cases he
  | none =>
      cases he
      cases hstart'
      exact hstart.out

instance (start : Span) : Fails whole (Failure.Recalls whole) (triggerBody start) := by
  have : Fails whole (Failure.Recalls whole) (here >>= fun first => words >>= fun line =>
      classified first .triggerForm (start.union (spanOf line)) (triggerOf (line.map (·.value)))) :=
    fails_here_bind whole _ fun _ => inferInstance
  unfold triggerBody
  infer_instance

instance : Fails whole (Failure.Recalls whole) trigger := by unfold trigger; infer_instance

instance : Fails whole (Failure.Recalls whole) action :=
  fails_here_bind whole _ fun _ => inferInstance

instance : Fails whole (Failure.Recalls whole) scenario := by unfold scenario; infer_instance

/-- What the failure of a whole program remembers are last tokens of the program. -/
theorem start_suffix_of_failed {s start : Tokens} {f : Failure} (h : declarations s = .failed f)
    (hstart : f.start? = some start) : start <:+ s :=
  (holds_of_failed h : f.Recalls s) start hstart

end ArchLang
