import ArchLang.Assembly.Flows
import Mathlib.Data.List.Basic
import Mathlib.Data.List.Induction
import Mathlib.Order.Bounds.Basic
import Mathlib.Tactic.Common

/-!
# Which call an answer belongs to

`edgesFrom` sends an answer without a target to the caller on top of a stack.  This file says where
such an answer goes without a stack, by matching calls and answers like brackets.

* `Answers actions i j` — the answer at position `i` belongs to the call at position `j`: the last
  call before it such that the actions between the two hold as many such answers as calls.
* `Stray actions i` — the answer at position `i` belongs to no call.
* `AnswerGoesTo s i` — where the answer at position `i` of a scenario goes: to the domain that made
  its call; the first stray answer goes to the actor of the trigger, if there is one; any other
  leaves the system.
* **`answers_match_calls`** — the edges of a flow follow `AnswerGoesTo`, no call is answered twice,
  and nothing but calls and answers without a target has a say in it.

The stack is tied to positions by `openCalls n actions`: the calls behind which calls outnumber
answers by `n`.  The last of them is the `n`-th caller of the stack (`callersLeft_getElem?`), and an
action more shifts `n` by at most one (`openCalls_append_call` and its neighbours).

`forall_edgesFrom` is the induction over a run for all statements that need less than positions:
what holds of every caller that may wait.
-/

namespace ArchLang

variable {π : Type}

/-! ## Calls and answers by position -/

/-- The domain that makes a call, if the action is one. -/
def callerOf? : Action π → Option String
  | .asks domain .. => some domain
  | _ => none

/-- Whether an action is a call. -/
def isCall (a : Action π) : Bool := (callerOf? a).isSome

/-- Whether an action is an answer without a target. -/
def isAnswer : Action π → Bool
  | .returns _ none _ => true
  | _ => false

/-- The domain that makes the call at a position, if there is one. -/
def callerAt? (actions : List (Action π)) (j : ℕ) : Option String := actions[j]?.bind callerOf?

/-- An answer without a target stands at this position. -/
def AnswerAt (actions : List (Action π)) (i : ℕ) : Prop := ∃ a, actions[i]? = some a ∧ isAnswer a

/-- As many answers without a target as calls. -/
def Balanced (actions : List (Action π)) : Prop := actions.countP isAnswer = actions.countP isCall

/-- The actions strictly between two positions. -/
def between (actions : List (Action π)) (j i : ℕ) : List (Action π) := (actions.take i).drop (j + 1)

/-- The answer at position `i` belongs to the call at position `j`: the last one before it with
balanced actions between. -/
def Answers (actions : List (Action π)) (i j : ℕ) : Prop :=
  AnswerAt actions i ∧
    IsGreatest {j | j < i ∧ (callerAt? actions j).isSome ∧ Balanced (between actions j i)} j

/-- The answer at position `i` belongs to no call. -/
def Stray (actions : List (Action π)) (i : ℕ) : Prop :=
  AnswerAt actions i ∧ ∀ j, ¬ Answers actions i j

/-- Where the answer without a target at position `i` goes. -/
inductive AnswerGoesTo (s : Scenario) (i : ℕ) : Endpoint → Prop where
  /-- to the domain that made the call it belongs to -/
  | caller {j : ℕ} {domain : String} : Answers s.actions i j →
      callerAt? s.actions j = some domain → AnswerGoesTo s i (.domain domain)
  /-- to the actor that started the scenario, if it is the first stray one -/
  | actor {actor verb phrase : String} : s.trigger = .external actor verb phrase →
      Stray s.actions i → (∀ i' < i, ¬ Stray s.actions i') → AnswerGoesTo s i (.actor actor)
  /-- out of the system, if no actor started the scenario or an earlier answer was stray -/
  | outside : Stray s.actions i →
      (∀ actor verb phrase, s.trigger = .external actor verb phrase →
        ∃ i' < i, Stray s.actions i') → AnswerGoesTo s i .external

/-! ## Open calls

A call is open at depth `n` when `n` calls behind it still wait to be answered before it. -/

/-- The positions of calls behind which calls outnumber answers by `n`. -/
def openCalls (n : ℕ) (actions : List (Action π)) : Set ℕ :=
  {j | (callerAt? actions j).isSome ∧
    (actions.drop (j + 1)).countP isAnswer + n = (actions.drop (j + 1)).countP isCall}

lemma lt_length_of_callerAt? {actions : List (Action π)} {j : ℕ}
    (h : (callerAt? actions j).isSome) : j < actions.length := by
  by_contra hj
  rw [callerAt?, List.getElem?_eq_none (by omega)] at h
  exact absurd h (by simp)

lemma callerAt?_take (actions : List (Action π)) (i j : ℕ) :
    callerAt? (actions.take i) j = if j < i then callerAt? actions j else none := by
  rw [callerAt?, List.getElem?_take]
  split <;> rfl

/-- The call that an answer belongs to is the last open one of depth zero before it. -/
lemma answers_iff {actions : List (Action π)} {i j : ℕ} :
    Answers actions i j ↔ AnswerAt actions i ∧ IsGreatest (openCalls 0 (actions.take i)) j := by
  have hset : {j | j < i ∧ (callerAt? actions j).isSome ∧ Balanced (between actions j i)}
      = openCalls 0 (actions.take i) := by
    ext j
    simp only [openCalls, Set.mem_ofPred_eq, callerAt?_take, Balanced, between, Nat.add_zero]
    by_cases hj : j < i <;> simp [hj]
  rw [Answers, hset]

lemma callerAt?_append_singleton (actions : List (Action π)) (a : Action π) (j : ℕ) :
    callerAt? (actions ++ [a]) j
      = if j = actions.length then callerOf? a else callerAt? actions j := by
  rcases Nat.lt_trichotomy j actions.length with hj | rfl | hj
  · rw [if_neg (by omega), callerAt?, callerAt?, List.getElem?_append_left hj]
  · rw [if_pos rfl, callerAt?, List.getElem?_concat_length, Option.bind_some]
  · rw [if_neg (by omega), callerAt?, callerAt?, List.getElem?_eq_none (by simp; omega),
      List.getElem?_eq_none (by omega)]

/-- One action more: it is open itself at depth zero if it is a call, and it shifts the depth of the
calls before it. -/
lemma mem_openCalls_append_singleton {n : ℕ} {actions : List (Action π)} {a : Action π} {j : ℕ} :
    j ∈ openCalls n (actions ++ [a]) ↔
      (j = actions.length ∧ isCall a = true ∧ n = 0) ∨
      ((callerAt? actions j).isSome ∧
        (actions.drop (j + 1)).countP isAnswer + (isAnswer a).toNat + n
          = (actions.drop (j + 1)).countP isCall + (isCall a).toNat) := by
  simp only [openCalls, Set.mem_ofPred_eq, callerAt?_append_singleton]
  by_cases hj : j = actions.length
  · subst hj
    have hout : callerAt? actions actions.length = none := by
      rw [callerAt?, List.getElem?_eq_none (Nat.le_refl _), Option.bind_none]
    rw [if_pos rfl, hout, List.drop_eq_nil_of_le (by simp)]
    simp only [List.countP_nil, Nat.zero_add, true_and, Option.isSome_none, Bool.false_eq_true,
      false_and, or_false]
    rfl
  · rw [if_neg hj]
    simp only [hj, false_and, false_or]
    refine and_congr_right fun hsome => ?_
    have hlt := lt_length_of_callerAt? hsome
    rw [List.drop_append_of_le_length (by omega), List.countP_append, List.countP_append,
      List.countP_singleton, List.countP_singleton]
    cases isAnswer a <;> cases isCall a <;> simp

variable {actions : List (Action π)} {a : Action π}

lemma openCalls_append_other (hcall : isCall a = false) (hanswer : isAnswer a = false) (n : ℕ) :
    openCalls n (actions ++ [a]) = openCalls n actions := by
  ext j
  rw [mem_openCalls_append_singleton, hcall, hanswer]
  simp [openCalls]

/-- An answer takes the call at depth zero away. -/
lemma openCalls_append_answer (hcall : isCall a = false) (hanswer : isAnswer a = true) (n : ℕ) :
    openCalls n (actions ++ [a]) = openCalls (n + 1) actions := by
  ext j
  rw [mem_openCalls_append_singleton, hcall, hanswer]
  simp only [openCalls, Set.mem_ofPred_eq, Bool.toNat_true, Bool.toNat_false]
  constructor
  · rintro (⟨_, h, _⟩ | ⟨hsome, h⟩)
    · exact absurd h (by simp)
    · exact ⟨hsome, by omega⟩
  · rintro ⟨hsome, h⟩
    exact Or.inr ⟨hsome, by omega⟩

/-- A call pushes the others one deeper. -/
lemma openCalls_append_call (hcall : isCall a = true) (hanswer : isAnswer a = false) (n : ℕ) :
    openCalls (n + 1) (actions ++ [a]) = openCalls n actions := by
  ext j
  rw [mem_openCalls_append_singleton, hcall, hanswer]
  simp only [openCalls, Set.mem_ofPred_eq, Bool.toNat_true, Bool.toNat_false]
  constructor
  · rintro (⟨_, _, h⟩ | ⟨hsome, h⟩)
    · exact absurd h (by omega)
    · exact ⟨hsome, by omega⟩
  · rintro ⟨hsome, h⟩
    exact Or.inr ⟨hsome, by omega⟩

/-- It is the last open call itself. -/
lemma isGreatest_openCalls_append_call (hcall : isCall a = true) :
    IsGreatest (openCalls 0 (actions ++ [a])) actions.length := by
  refine ⟨mem_openCalls_append_singleton.2 (Or.inl ⟨rfl, hcall, rfl⟩), fun j hj => ?_⟩
  have hlt := lt_length_of_callerAt? hj.1
  rw [List.length_append, List.length_singleton] at hlt
  omega

/-! ## Along a run -/

section Run

variable {P : Endpoint → Prop} {callers : List Endpoint}

lemma domain_mem_visitedBy (a : Action π) : a.domain ∈ visitedBy a := by
  cases a <;> exact List.mem_cons_self

/-- Whoever makes a call acts. -/
lemma caller_mem_visitedBy {domain : String} (h : callerOf? a = some domain) :
    domain ∈ visitedBy a := by
  cases a with
  | asks => cases h; exact List.mem_cons_self
  | internal | notifies | returns => exact absurd h nofun

/-- Whoever waits behind an action has waited before it, or makes a call by it. -/
lemma forall_callersAfter (hcallers : ∀ c ∈ callers, P c)
    (ha : ∀ domain, callerOf? a = some domain → P (.domain domain)) :
    ∀ c ∈ callersAfter callers a, P c := by
  fun_cases callersAfter callers a with
  | case1 domain => exact List.forall_mem_cons.2 ⟨ha domain rfl, hcallers⟩
  | case2 => exact fun c hc => hcallers c (List.mem_of_mem_tail hc)
  | case3 => exact hcallers

/-- The last caller is one of those that wait; without any there is only the outside. -/
lemma headD_external (hcallers : ∀ c ∈ callers, P c) :
    callers.headD .external = .external ∨ P (callers.headD .external) := by
  cases callers with
  | nil => exact .inl rfl
  | cons c callers => exact .inr (hcallers c List.mem_cons_self)

/-- **Along a run.**  What holds of the callers in the beginning and of every domain that makes a
call holds of whoever waits at any time, so an edge may be judged as if all callers had it. -/
theorem forall_edgesFrom {Q : Edge → Prop} {actions : List (Action String)}
    (hcallers : ∀ c ∈ callers, P c)
    (hcalls : ∀ a ∈ actions, ∀ domain, callerOf? a = some domain → P (.domain domain))
    (hedges : ∀ a ∈ actions, ∀ waiting : List Endpoint, (∀ c ∈ waiting, P c) →
      ∀ e, edgeOf? waiting a = some e → Q e) :
    ∀ e ∈ edgesFrom callers actions, Q e := by
  induction actions generalizing callers with
  | nil => exact nofun
  | cons a actions ih =>
      obtain ⟨ha, hrest⟩ := List.forall_mem_cons.1 hcalls
      obtain ⟨hedge, hedges⟩ := List.forall_mem_cons.1 hedges
      intro e he
      rw [edgesFrom, List.mem_append, Option.mem_toList] at he
      rcases he with he | he
      · exact hedge callers hcallers e he
      · exact ih (forall_callersAfter hcallers ha) hrest hedges e he

end Run

/-! ## The stack -/

lemma callersLeft_append_singleton (callers : List Endpoint) (actions : List (Action π))
    (a : Action π) :
    callersLeft callers (actions ++ [a]) = callersAfter (callersLeft callers actions) a := by
  rw [callersLeft, callersLeft, List.foldl_append]
  rfl

/-- Calls and answers without a target are the only actions that touch the stack. -/
lemma callersAfter_other (hcall : isCall a = false) (hanswer : isAnswer a = false)
    (callers : List Endpoint) : callersAfter callers a = callers := by
  cases a with
  | asks => exact absurd hcall (by simp [isCall, callerOf?])
  | returns domain target phrase =>
      cases target with
      | none => exact absurd hanswer (by simp [isAnswer])
      | some t => rfl
  | internal => rfl
  | notifies => rfl

lemma isAnswer_of_callerOf? {domain : String} (hcaller : callerOf? a = some domain) :
    isAnswer a = false := by
  cases a with
  | asks => rfl
  | _ => exact absurd hcaller (by simp [callerOf?])

lemma isCall_of_isAnswer (hanswer : isAnswer a = true) : isCall a = false := by
  cases a with
  | returns => rfl
  | _ => exact absurd hanswer (by simp [isAnswer])

lemma callersAfter_answer (hanswer : isAnswer a = true) (callers : List Endpoint) :
    callersAfter callers a = callers.tail := by
  cases a with
  | returns domain target phrase =>
      cases target with
      | none => rfl
      | some t => exact absurd hanswer (by simp [isAnswer])
  | _ => exact absurd hanswer (by simp [isAnswer])

lemma callersAfter_call {domain : String} (hcall : callerOf? a = some domain)
    (callers : List Endpoint) : callersAfter callers a = .domain domain :: callers := by
  cases a with
  | asks d t c p =>
      obtain rfl := Option.some.inj hcall
      rfl
  | _ => exact absurd hcall (by simp [callerOf?])

/-- **The stack by positions.**  The `n`-th caller that waits made the last open call of depth `n`,
and where the stack ends there is no such call. -/
theorem callersLeft_getElem? (actions : List (Action π)) (n : ℕ) :
    (openCalls n actions = ∅ ∧ (callersLeft [] actions)[n]? = none) ∨
      ∃ j domain, IsGreatest (openCalls n actions) j ∧ callerAt? actions j = some domain ∧
        (callersLeft [] actions)[n]? = some (.domain domain) := by
  -- the induction appends an action, since the stack is read off the last actions first
  induction actions using List.reverseRecOn generalizing n with
  | nil =>
      refine Or.inl ⟨?_, rfl⟩
      exact Set.eq_empty_iff_forall_notMem.2 fun j hj => absurd hj.1 (by simp [callerAt?])
  | append_singleton actions a ih =>
      have carry : ∀ m, openCalls n (actions ++ [a]) = openCalls m actions →
          (callersLeft [] (actions ++ [a]))[n]? = (callersLeft [] actions)[m]? →
          (openCalls n (actions ++ [a]) = ∅ ∧ (callersLeft [] (actions ++ [a]))[n]? = none) ∨
            ∃ j domain, IsGreatest (openCalls n (actions ++ [a])) j ∧
              callerAt? (actions ++ [a]) j = some domain ∧
              (callersLeft [] (actions ++ [a]))[n]? = some (.domain domain) := by
        intro m hset hget
        rw [hset, hget]
        rcases ih m with h | ⟨j, domain, hj, hcaller, h⟩
        · exact Or.inl h
        · refine Or.inr ⟨j, domain, hj, ?_, h⟩
          have hlt := lt_length_of_callerAt? hj.1.1
          rw [callerAt?_append_singleton, if_neg (by omega), hcaller]
      rw [callersLeft_append_singleton] at carry ⊢
      cases hcaller : callerOf? a with
      | some domain =>
          have hcall : isCall a = true := by rw [isCall, hcaller, Option.isSome_some]
          have hanswer : isAnswer a = false := isAnswer_of_callerOf? hcaller
          rw [callersAfter_call hcaller] at carry ⊢
          cases n with
          | zero =>
              refine Or.inr
                ⟨actions.length, domain, isGreatest_openCalls_append_call hcall, ?_, rfl⟩
              rw [callerAt?_append_singleton, if_pos rfl, hcaller]
          | succ n => exact carry n (openCalls_append_call hcall hanswer n) rfl
      | none =>
          have hcall : isCall a = false := by rw [isCall, hcaller, Option.isSome_none]
          cases hanswer : isAnswer a with
          | true =>
              rw [callersAfter_answer hanswer] at carry ⊢
              exact carry (n + 1) (openCalls_append_answer hcall hanswer n) List.getElem?_tail
          | false =>
              rw [callersAfter_other hcall hanswer] at carry ⊢
              exact carry n (openCalls_append_other hcall hanswer n) rfl

lemma callersLeft_eq_nil_iff {actions : List (Action π)} :
    callersLeft [] actions = [] ↔ ∀ j, ¬ IsGreatest (openCalls 0 actions) j := by
  rcases callersLeft_getElem? actions 0 with ⟨hempty, hnone⟩ | ⟨j, domain, hj, _, hsome⟩
  · refine ⟨fun _ j hj => ?_, fun _ => ?_⟩
    · exact Set.notMem_empty j (hempty ▸ hj.1)
    · exact List.eq_nil_of_length_eq_zero (Nat.le_zero.1 (List.getElem?_eq_none_iff.1 hnone))
  · refine ⟨fun h => ?_, fun h => absurd hj (h j)⟩
    rw [h] at hsome
    exact absurd hsome (by simp)

/-! ## Stray answers

Whoever waits before the first action stands below all callers of the scenario.  The first stray
answer takes it away, so it matters only whether there was one. -/

lemma answerAt_take {actions : List (Action π)} {i k : ℕ} (h : i < k) :
    AnswerAt (actions.take k) i ↔ AnswerAt actions i := by
  simp only [AnswerAt, List.getElem?_take, if_pos h]

/-- What an answer belongs to is settled by the actions up to it. -/
lemma stray_take {actions : List (Action π)} {i k : ℕ} (h : i < k) :
    Stray (actions.take k) i ↔ Stray actions i := by
  simp only [Stray, answers_iff, answerAt_take h, List.take_take, Nat.min_eq_left (Nat.le_of_lt h)]

lemma lt_length_of_stray {actions : List (Action π)} {i : ℕ} (h : Stray actions i) :
    i < actions.length := by
  obtain ⟨a, ha, _⟩ := h.1
  exact (List.getElem?_eq_some_iff.1 ha).1

/-- An answer is stray exactly if no caller of the scenario waits before it. -/
lemma stray_iff {actions : List (Action π)} {i : ℕ} (h : AnswerAt actions i) :
    Stray actions i ↔ callersLeft [] (actions.take i) = [] := by
  simp only [Stray, answers_iff, h, true_and, callersLeft_eq_nil_iff]

lemma stray_append_singleton {actions : List (Action π)} {a : Action π} {i : ℕ} :
    Stray (actions ++ [a]) i ↔ Stray actions i ∨
      (i = actions.length ∧ isAnswer a = true ∧ callersLeft [] actions = []) := by
  rcases Nat.lt_trichotomy i actions.length with hi | rfl | hi
  · have htake : Stray ((actions ++ [a]).take actions.length) i ↔ Stray (actions ++ [a]) i :=
      stray_take hi
    rw [List.take_left] at htake
    rw [← htake]
    simp [Nat.ne_of_lt hi]
  · have hout : ¬ Stray actions actions.length := fun h => Nat.lt_irrefl _ (lt_length_of_stray h)
    have hanswer : AnswerAt (actions ++ [a]) actions.length ↔ isAnswer a = true := by
      rw [AnswerAt, List.getElem?_concat_length]
      simp
    simp only [hout, false_or, true_and]
    refine ⟨fun h => ⟨hanswer.1 h.1, ?_⟩, fun ⟨ha, h⟩ => (stray_iff (hanswer.2 ha)).2 ?_⟩
    · have hnil := (stray_iff h.1).1 h
      rwa [List.take_left] at hnil
    · rwa [List.take_left]
  · have hleft : ¬ Stray (actions ++ [a]) i := fun h => by
      have := lt_length_of_stray h
      rw [List.length_append, List.length_singleton] at this
      omega
    have hright : ¬ Stray actions i := fun h => by
      have := lt_length_of_stray h
      omega
    simp [hleft, hright, Nat.ne_of_gt hi]

/-- Whoever waits before the first action still waits below all callers of the scenario, until the
first stray answer. -/
theorem callersLeft_eq_or {callers : List Endpoint} (hlen : callers.length ≤ 1)
    (actions : List (Action π)) :
    ((∃ i, Stray actions i) ∧ callersLeft callers actions = callersLeft [] actions) ∨
      ((∀ i, ¬ Stray actions i) ∧
        callersLeft callers actions = callersLeft [] actions ++ callers) := by
  induction actions using List.reverseRecOn with
  | nil =>
      refine Or.inr ⟨fun i h => ?_, rfl⟩
      exact absurd (lt_length_of_stray h) (by simp)
  | append_singleton actions a ih =>
      rw [callersLeft_append_singleton, callersLeft_append_singleton]
      simp only [stray_append_singleton]
      cases hcaller : callerOf? a with
      | some domain =>
          have hanswer : isAnswer a = false := isAnswer_of_callerOf? hcaller
          simp only [callersAfter_call hcaller, hanswer, Bool.false_eq_true, false_and, and_false,
            or_false]
          rcases ih with ⟨h, heq⟩ | ⟨h, heq⟩
          · exact Or.inl ⟨h, by rw [heq]⟩
          · exact Or.inr ⟨h, by rw [heq, List.cons_append]⟩
      | none =>
          have hcall : isCall a = false := by rw [isCall, hcaller, Option.isSome_none]
          cases hanswer : isAnswer a with
          | false =>
              simp only [callersAfter_other hcall hanswer, Bool.false_eq_true, false_and, and_false,
                or_false]
              exact ih
          | true =>
              simp only [callersAfter_answer hanswer, true_and]
              cases hstack : callersLeft [] actions with
              | nil =>
                  -- nobody of the scenario waits: this answer is stray
                  refine Or.inl ⟨⟨actions.length, Or.inr ⟨rfl, rfl⟩⟩, ?_⟩
                  rcases ih with ⟨_, heq⟩ | ⟨_, heq⟩
                  · rw [heq, hstack]
                  · rw [heq, hstack, List.nil_append, List.tail_nil]
                    exact List.eq_nil_of_length_eq_zero (by rw [List.length_tail]; omega)
              | cons e rest =>
                  simp only [reduceCtorEq, and_false, or_false]
                  rcases ih with ⟨h, heq⟩ | ⟨h, heq⟩
                  · exact Or.inl ⟨h, by rw [heq, hstack]⟩
                  · exact Or.inr ⟨h, by rw [heq, hstack, List.cons_append, List.tail_cons,
                      List.tail_cons]⟩

lemma length_callersOf_le (t : Trigger π) : (callersOf t).length ≤ 1 := by
  cases t <;> simp [callersOf]

/-- **The top of the stack.**  An answer without a target goes where matching sends it. -/
theorem answerGoesTo_headD {s : Scenario} {i : ℕ} (h : AnswerAt s.actions i) :
    AnswerGoesTo s i
      ((callersLeft (callersOf s.trigger) (s.actions.take i)).headD .external) := by
  have hbottom := callersLeft_eq_or (length_callersOf_le s.trigger) (s.actions.take i)
  rcases callersLeft_getElem? (s.actions.take i) 0 with ⟨hempty, hnone⟩ |
    ⟨j, domain, hj, hcaller, hsome⟩
  · have hnil : callersLeft [] (s.actions.take i) = [] :=
      List.eq_nil_of_length_eq_zero (Nat.le_zero.1 (List.getElem?_eq_none_iff.1 hnone))
    have hstray : Stray s.actions i := (stray_iff h).2 hnil
    rcases hbottom with ⟨⟨i', hi'⟩, heq⟩ | ⟨hfirst, heq⟩
    · have hlt : i' < i := by
        have := lt_length_of_stray hi'
        rw [List.length_take] at this
        omega
      rw [heq, hnil]
      exact .outside hstray fun _ _ _ _ => ⟨i', hlt, (stray_take hlt).1 hi'⟩
    · rw [heq, hnil, List.nil_append]
      cases ht : s.trigger with
      | external actor verb phrase =>
          exact .actor ht hstray fun i' hlt hi' => hfirst i' ((stray_take hlt).2 hi')
      | event e => exact .outside hstray fun _ _ _ he => absurd (ht.symm.trans he) (by simp)
      | listens domain e =>
          exact .outside hstray fun _ _ _ he => absurd (ht.symm.trans he) (by simp)
  · have hlt : j < i := by
      have := lt_length_of_callerAt? hj.1.1
      rw [List.length_take] at this
      omega
    rw [callerAt?_take, if_pos hlt] at hcaller
    have hhead : (callersLeft (callersOf s.trigger) (s.actions.take i)).head?
        = some (.domain domain) := by
      rcases hbottom with ⟨_, heq⟩ | ⟨_, heq⟩
      · rw [heq, List.head?_eq_getElem?, hsome]
      · rw [heq, List.head?_append, List.head?_eq_getElem?, hsome, Option.some_or]
    rw [List.headD_eq_head?_getD, hhead]
    exact .caller (answers_iff.2 ⟨h, hj⟩) hcaller

/-! ## The edges of a scenario -/

/-- Whether an action has an edge; internal work has none. -/
def hasEdge : Action π → Bool
  | .internal .. => false
  | _ => true

/-- The place of an action's edge in the flow of a scenario: behind the edge of the trigger and the
edges of the actions before it. -/
def edgeIndex (s : Scenario) (i : ℕ) : ℕ :=
  (triggerEdges s.actions s.trigger).length + (s.actions.take i).countP hasEdge

lemma edgesFrom_append (callers : List Endpoint) (xs ys : List (Action String)) :
    edgesFrom callers (xs ++ ys)
      = edgesFrom callers xs ++ edgesFrom (callersLeft callers xs) ys := by
  induction xs generalizing callers with
  | nil => rfl
  | cons x xs ih =>
      rw [List.cons_append, edgesFrom, ih, edgesFrom, List.append_assoc]
      rfl

lemma length_edgesFrom (callers : List Endpoint) (xs : List (Action String)) :
    (edgesFrom callers xs).length = xs.countP hasEdge := by
  induction xs generalizing callers with
  | nil => rfl
  | cons x xs ih =>
      rw [edgesFrom, List.length_append, ih, List.countP_cons]
      cases x with
      | internal => simp [edgeOf?, hasEdge]
      | asks => simp [edgeOf?, hasEdge, Nat.add_comm]
      | notifies => simp [edgeOf?, hasEdge, Nat.add_comm]
      | returns domain target phrase =>
          cases target <;> simp [edgeOf?, hasEdge, Nat.add_comm]

/-- The edge of an action stands at its place, and the stack before the action makes it. -/
lemma getElem?_edges_ofScenario (owners : Ownership) (useCase : String) {s : Scenario} {i : ℕ}
    {a : Action String} {e : Edge} (ha : s.actions[i]? = some a)
    (he : edgeOf? (callersLeft (callersOf s.trigger) (s.actions.take i)) a = some e) :
    (Flow.ofScenario owners useCase s).edges[edgeIndex s i]? = some e := by
  obtain ⟨hi, ha⟩ := List.getElem?_eq_some_iff.1 ha
  have hsplit : s.actions = s.actions.take i ++ a :: s.actions.drop (i + 1) := by
    rw [← ha, List.getElem_cons_drop, List.take_append_drop]
  have hedges : (Flow.ofScenario owners useCase s).edges
      = triggerEdges s.actions s.trigger ++ (edgesFrom (callersOf s.trigger) (s.actions.take i)
        ++ e :: edgesFrom (callersAfter (callersLeft (callersOf s.trigger) (s.actions.take i)) a)
          (s.actions.drop (i + 1))) := by
    refine congrArg (triggerEdges s.actions s.trigger ++ ·) ?_
    calc edgesFrom (callersOf s.trigger) s.actions
        = edgesFrom (callersOf s.trigger) (s.actions.take i ++ a :: s.actions.drop (i + 1)) :=
          congrArg _ hsplit
      _ = _ := by
          rw [edgesFrom_append, edgesFrom, he]
          rfl
  rw [hedges, edgeIndex, List.getElem?_append_right (Nat.le_add_right _ _), Nat.add_sub_cancel_left,
    List.getElem?_append_right (by rw [length_edgesFrom]), length_edgesFrom, Nat.sub_self]
  rfl

/-- The edge of an answer without a target goes to the top of the stack. -/
lemma edge_of_answer (owners : Ownership) (useCase : String) {s : Scenario} {i : ℕ}
    {domain phrase : String} (ha : s.actions[i]? = some (.returns domain none phrase)) :
    (Flow.ofScenario owners useCase s).edges[edgeIndex s i]?
      = some ⟨.domain domain,
          (callersLeft (callersOf s.trigger) (s.actions.take i)).headD .external, phrase, .reply⟩ :=
  getElem?_edges_ofScenario owners useCase ha rfl

lemma exists_returns_of_answerAt {actions : List (Action π)} {i : ℕ} (h : AnswerAt actions i) :
    ∃ domain phrase, actions[i]? = some (.returns domain none phrase) := by
  obtain ⟨a, ha, hanswer⟩ := h
  cases a with
  | returns domain target phrase =>
      cases target with
      | none => exact ⟨domain, phrase, ha⟩
      | some t => exact absurd hanswer (by simp [isAnswer])
  | _ => exact absurd hanswer (by simp [isAnswer])

/-! ## No call is answered twice -/

/-- Calls that outnumber answers leave callers behind. -/
lemma countP_isCall_le (actions : List (Action π)) :
    actions.countP isCall ≤ actions.countP isAnswer + (callersLeft [] actions).length := by
  induction actions using List.reverseRecOn with
  | nil => simp
  | append_singleton actions a ih =>
      rw [callersLeft_append_singleton, List.countP_append, List.countP_append,
        List.countP_singleton, List.countP_singleton]
      cases a with
      | internal => simpa [isCall, isAnswer, callerOf?, callersAfter] using ih
      | notifies => simpa [isCall, isAnswer, callerOf?, callersAfter] using ih
      | asks =>
          simp only [isCall, isAnswer, callerOf?, callersAfter, Option.isSome_some, if_true,
            List.length_cons]
          omega
      | returns domain target phrase =>
          cases target with
          | some t => simpa [isCall, isAnswer, callerOf?, callersAfter] using ih
          | none =>
              simp only [isCall, isAnswer, callerOf?, callersAfter, Option.isSome_none, if_true,
                Bool.false_eq_true, if_false, List.length_tail]
              omega

/-- So some call is still open. -/
lemma exists_isGreatest_openCalls {actions : List (Action π)}
    (h : actions.countP isAnswer < actions.countP isCall) :
    ∃ k, IsGreatest (openCalls 0 actions) k := by
  by_contra hnone
  have hnil : callersLeft [] actions = [] :=
    callersLeft_eq_nil_iff.2 fun k hk => hnone ⟨k, hk⟩
  have := countP_isCall_le actions
  rw [hnil, List.length_nil] at this
  omega

lemma take_eq_append_between {actions : List (Action π)} {i i' : ℕ} {a : Action π}
    (ha : actions[i]? = some a) (hlt : i < i') :
    actions.take i' = actions.take i ++ a :: between actions i i' := by
  have hget : (actions.take i')[i]? = some a := by rw [List.getElem?_take, if_pos hlt, ha]
  obtain ⟨hi, hget⟩ := List.getElem?_eq_some_iff.1 hget
  have htake : actions.take i = (actions.take i').take i := by
    rw [List.take_take, Nat.min_eq_left (Nat.le_of_lt hlt)]
  rw [htake, between, ← hget, List.getElem_cons_drop, List.take_append_drop]

/-- The actions up to a later position go on with the action in between and those behind it. -/
lemma between_eq_append {actions : List (Action π)} {i i' j : ℕ} {a : Action π}
    (ha : actions[i]? = some a) (hji : j < i) (hlt : i < i') :
    between actions j i' = between actions j i ++ a :: between actions i i' := by
  have hi : i < actions.length := (List.getElem?_eq_some_iff.1 ha).1
  have hle : j + 1 ≤ (actions.take i).length := by
    rw [List.length_take]
    omega
  rw [between, take_eq_append_between ha hlt, List.drop_append_of_le_length hle]
  rfl

lemma callerAt?_between (actions : List (Action π)) (i i' k : ℕ) :
    callerAt? (between actions i i') k
      = if i + 1 + k < i' then callerAt? actions (i + 1 + k) else none := by
  rw [callerAt?, between, List.getElem?_drop, ← callerAt?_take]
  rfl

/-- Of two answers to one call the later one would leave out a call of its own. -/
lemma not_answers_of_lt {actions : List (Action π)} {i i' j : ℕ} (hlt : i < i')
    (h : Answers actions i j) : ¬ Answers actions i' j := by
  intro h'
  obtain ⟨⟨a, ha, hanswer⟩, ⟨hji, _, hbal⟩, _⟩ := h
  obtain ⟨_, ⟨_, _, hbal'⟩, hlast⟩ := h'
  -- behind the first answer calls outnumber answers, so one of these calls is open
  have hmore : (between actions i i').countP isAnswer < (between actions i i').countP isCall := by
    rw [Balanced, between_eq_append ha hji hlt, List.countP_append, List.countP_append,
      List.countP_cons_of_pos hanswer,
      List.countP_cons_of_neg (by simp [isCall_of_isAnswer hanswer])] at hbal'
    rw [Balanced] at hbal
    omega
  obtain ⟨k, ⟨hk, hkbal⟩, _⟩ := exists_isGreatest_openCalls hmore
  rw [callerAt?_between] at hk
  have hki : i + 1 + k < i' := by
    by_contra hge
    rw [if_neg hge] at hk
    exact absurd hk (by simp)
  rw [if_pos hki] at hk
  have hkbal' : Balanced (between actions (i + 1 + k) i') := by
    rw [between, List.drop_drop] at hkbal
    exact hkbal
  -- and it stands behind the one that was to be the last
  have := hlast ⟨hki, hk, hkbal'⟩
  omega

/-! ## What has no say -/

/-- Whether an action is a call or an answer without a target. -/
def touchesStack (a : Action π) : Bool := isCall a || isAnswer a

/-- All other actions may be left out. -/
lemma callersLeft_filter (callers : List Endpoint) (actions : List (Action π)) :
    callersLeft callers (actions.filter touchesStack) = callersLeft callers actions := by
  induction actions using List.reverseRecOn with
  | nil => rfl
  | append_singleton actions a ih =>
      rw [List.filter_append, callersLeft_append_singleton]
      cases h : touchesStack a with
      | true =>
          rw [List.filter_cons_of_pos h, List.filter_nil, callersLeft_append_singleton, ih]
      | false =>
          obtain ⟨hcall, hanswer⟩ := Bool.or_eq_false_iff.1 h
          rw [List.filter_cons_of_neg (by simp [h]), List.filter_nil, List.append_nil, ih,
            callersAfter_other hcall hanswer]

/-! ## The law -/

/-- **Answers match calls.**  The edge of an answer without a target goes where matching sends it.
No two answers belong to one call.  And where an answer goes depends on the trigger and on the calls
and answers before it alone: answers with a target, notifications and internal work may stand
anywhere. -/
theorem answers_match_calls (owners : Ownership) (useCase : String) (s : Scenario) :
    (∀ i domain phrase, s.actions[i]? = some (.returns domain none phrase) →
      ∃ target, AnswerGoesTo s i target ∧
        (Flow.ofScenario owners useCase s).edges[edgeIndex s i]?
          = some ⟨.domain domain, target, phrase, .reply⟩) ∧
    (∀ i i' j, Answers s.actions i j → Answers s.actions i' j → i = i') ∧
    (∀ (s' : Scenario) (i i' : ℕ), s'.trigger = s.trigger →
      AnswerAt s.actions i → AnswerAt s'.actions i' →
      (s'.actions.take i').filter touchesStack = (s.actions.take i).filter touchesStack →
      ((Flow.ofScenario owners useCase s').edges[edgeIndex s' i']?).map Edge.target
        = ((Flow.ofScenario owners useCase s).edges[edgeIndex s i]?).map Edge.target) := by
  refine ⟨fun i domain phrase ha => ?_, fun i i' j h h' => ?_, fun s' i i' ht h h' hfilter => ?_⟩
  · exact ⟨_, answerGoesTo_headD ⟨_, ha, rfl⟩, edge_of_answer owners useCase ha⟩
  · rcases Nat.lt_trichotomy i i' with hlt | heq | hlt
    · exact absurd h' (not_answers_of_lt hlt h)
    · exact heq
    · exact absurd h (not_answers_of_lt hlt h')
  · obtain ⟨domain, phrase, ha⟩ := exists_returns_of_answerAt h
    obtain ⟨domain', phrase', ha'⟩ := exists_returns_of_answerAt h'
    rw [edge_of_answer owners useCase ha, edge_of_answer owners useCase ha', ht,
      ← callersLeft_filter, hfilter, callersLeft_filter]
    rfl

/-- An order: a nested call, work and news in between, and one answer too many. -/
def placedOrder : Scenario where
  id := "scenario_1"
  trigger := .external "Customer" "places" "order"
  steps := [
    ⟨"action_2", .asks "Shop" "Billing" (some "to") "charge"⟩,
    ⟨"action_3", .internal "Billing" "checks" none "card"⟩,
    ⟨"action_4", .notifies "Billing" "Charged"⟩,
    ⟨"action_5", .returns "Billing" none "receipt"⟩,
    ⟨"action_6", .returns "Shop" none "confirmation"⟩,
    ⟨"action_7", .returns "Shop" none "advertisement"⟩]

theorem answers_match_calls_placedOrder :
    placedOrder.actions[4]? = some (.returns "Shop" none "confirmation") ∧
      AnswerGoesTo placedOrder 4 (.actor "Customer") ∧
      (Flow.ofScenario .empty "Checkout" placedOrder).edges[edgeIndex placedOrder 4]?
        = some ⟨.domain "Shop", .actor "Customer", "confirmation", .reply⟩ := by
  obtain ⟨target, hgoes, hedge⟩ :=
    (answers_match_calls .empty "Checkout" placedOrder).1 4 "Shop" "confirmation" rfl
  have hactor : (Flow.ofScenario .empty "Checkout" placedOrder).edges[edgeIndex placedOrder 4]?
      = some ⟨.domain "Shop", .actor "Customer", "confirmation", .reply⟩ := by decide
  obtain rfl : target = .actor "Customer" := by
    rw [hactor] at hedge
    injection hedge with hedge
    injection hedge with _ htarget
    exact htarget.symm
  exact ⟨rfl, hgoes, hactor⟩

end ArchLang
