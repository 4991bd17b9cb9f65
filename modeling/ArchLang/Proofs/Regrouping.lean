import ArchLang.Proofs.FirstSeen
import ArchLang.Proofs.Identifiers
import ArchLang.Proofs.Unplacing
import Mathlib.Data.List.Basic
import Mathlib.Data.List.Induction
import Mathlib.Data.List.Sort
import Mathlib.Tactic.Common

/-!
# Only the order within a kind matters

A program may declare its entities in any order and in blocks or one by one.  What is assembled from
it depends on six sequences only, one for each kind of entity: the declarations of that kind in
source order, with blocks taken apart.

* `Declaration.kind`, `Declaration.singles` — what a declaration declares, and the single
  declarations that a block stands for; `flattened` takes all blocks of a program apart in place.
* `ofKind` — one of the six sequences.  `regrouped` puts all actors first, then domains, services,
  exposures, architectures and use cases; it is a stable sort.
* `FromKind` — a list of parts is taken from the declarations of one kind.  Each list of entities is
  (`flatMap_ofKind`), and so is the counter that gives identifiers: it runs through the use cases
  and through nothing else.
* `Entities.push` — one declaration more, in a single pass with one counter.
  **`foldl_push`** says that the pass ends with the six lists of the program.
* **`ofDeclarations_regrouped`** — regrouping changes no model, and programs with the same six
  sequences have the same model.
-/

namespace ArchLang

/-! ## Kinds and blocks -/

/-- The kinds of entities that declarations declare. -/
inductive DeclarationKind where
  | actor
  | domain
  | service
  | exposure
  | arch
  | useCase
  deriving DecidableEq, Repr

/-- Where the declarations of a kind stand in a program that is ordered by kinds. -/
def DeclarationKind.rank : DeclarationKind → ℕ
  | actor => 0
  | domain => 1
  | service => 2
  | exposure => 3
  | arch => 4
  | useCase => 5

namespace Declaration

/-- What a declaration declares. -/
def kind : Declaration → DeclarationKind
  | actor _ | actors _ => .actor
  | domain _ | domains _ => .domain
  | service _ | services _ => .service
  | exposure _ => .exposure
  | arch _ => .arch
  | useCase _ => .useCase

/-- The single declarations that a declaration stands for. -/
def singles : Declaration → List Declaration
  | actors ds => ds.map actor
  | domains ds => ds.map domain
  | services ds => ds.map service
  | d => [d]

/-- What came out of a block is no block. -/
lemma singles_of_mem_singles {d e : Declaration} (h : e ∈ d.singles) : e.singles = [e] := by
  cases d with
  | actors ds | domains ds | services ds =>
      obtain ⟨_, _, rfl⟩ := List.mem_map.1 h
      rfl
  | actor | domain | service | exposure | arch | useCase =>
      rw [List.mem_singleton.1 h]
      rfl

end Declaration

/-- A program with its blocks taken apart in place. -/
def flattened (ds : List Declaration) : List Declaration := ds.flatMap Declaration.singles

/-- The declarations of one kind, in source order and without blocks. -/
def ofKind (kind : DeclarationKind) (ds : List Declaration) : List Declaration :=
  (flattened ds).filter fun d => d.kind = kind

/-- A program without blocks whose kinds follow one another, each in source order. -/
def regrouped (ds : List Declaration) : List Declaration :=
  (flattened ds).mergeSort fun d e => d.kind.rank ≤ e.kind.rank

/-- Taking blocks apart leaves none. -/
lemma flattened_of_subset {ds es : List Declaration} (h : ∀ e ∈ es, e ∈ flattened ds) :
    flattened es = es := by
  have hsingles : ∀ e ∈ es, e.singles = [e] := by
    intro e he
    obtain ⟨d, _, hd⟩ := List.mem_flatMap.1 (h e he)
    exact d.singles_of_mem_singles hd
  rw [flattened, List.flatMap_congr hsingles, List.flatMap_singleton']

/-! ## Stable sorting -/

/-- A sort by rank leaves elements of one key in their order. -/
lemma filter_mergeSort {α κ : Type} [DecidableEq κ] (key : α → κ) (rank : κ → ℕ) (k : κ)
    (xs : List α) :
    ((xs.mergeSort fun x y => rank (key x) ≤ rank (key y)).filter fun x => key x = k)
      = xs.filter fun x => key x = k := by
  set sorted := xs.mergeSort fun x y => rank (key x) ≤ rank (key y)
  have hperm : sorted.Perm xs := List.mergeSort_perm ..
  -- elements of one key are sorted as they stand, so a stable sort keeps them as a subsequence
  have hequal : (xs.filter fun x => key x = k).Pairwise fun x y =>
      decide (rank (key x) ≤ rank (key y)) := by
    rw [List.pairwise_filter]
    refine List.pairwise_of_forall ?_
    intro x y hx hy
    simp only [decide_eq_true_eq] at hx hy ⊢
    rw [hx, hy]
  have hsub : (xs.filter fun x => key x = k).Sublist sorted := by
    refine List.sublist_mergeSort ?_ ?_ hequal List.filter_sublist
    · intro x y z
      simp only [decide_eq_true_eq]
      exact Nat.le_trans
    · intro x y
      simp only [Bool.or_eq_true, decide_eq_true_eq]
      exact Nat.le_total ..
  have hfilter := hsub.filter fun x => key x = k
  rw [List.filter_filter] at hfilter
  simp only [Bool.and_self] at hfilter
  exact (hfilter.eq_of_length (hperm.filter _).length_eq.symm).symm

/-- Regrouping keeps the six sequences. -/
lemma ofKind_regrouped (kind : DeclarationKind) (ds : List Declaration) :
    ofKind kind (regrouped ds) = ofKind kind ds := by
  have hflat : flattened (regrouped ds) = regrouped ds :=
    flattened_of_subset fun _ he => (List.mergeSort_perm ..).mem_iff.1 he
  rw [ofKind, hflat]
  exact filter_mergeSort Declaration.kind DeclarationKind.rank kind _

/-! ## What is read from one kind -/

section Parts

variable {α : Type}

/-- The parts are taken from declarations of one kind, and from a block as from what it stands
for. -/
structure FromKind (kind : DeclarationKind) (parts : Declaration → List α) : Prop where
  elsewhere : ∀ {d : Declaration}, d.kind ≠ kind → parts d = []
  block : ∀ d : Declaration, d.singles.flatMap parts = parts d

/-- Such parts can be taken from the sequence of their kind. -/
lemma flatMap_ofKind {kind : DeclarationKind} {parts : Declaration → List α}
    (h : FromKind kind parts) (ds : List Declaration) :
    (ofKind kind ds).flatMap parts = ds.flatMap parts := by
  have hparts : ∀ d : Declaration, (if d.kind = kind then parts d else []) = parts d := by
    intro d
    split
    · rfl
    · next hkind => exact (h.elsewhere hkind).symm
  rw [ofKind, flatMap_filter]
  simp only [decide_eq_true_eq, hparts]
  rw [flattened, List.flatMap_assoc]
  exact List.flatMap_congr fun d _ => h.block d

end Parts

lemma fromKind_actorDecls : FromKind .actor Declaration.actorDecls where
  elsewhere {d} h := by cases d <;> simp_all [Declaration.kind, Declaration.actorDecls]
  block d := by cases d <;> simp [Declaration.singles, Declaration.actorDecls, List.flatMap_map]

lemma fromKind_domainDecls : FromKind .domain Declaration.domainDecls where
  elsewhere {d} h := by cases d <;> simp_all [Declaration.kind, Declaration.domainDecls]
  block d := by cases d <;> simp [Declaration.singles, Declaration.domainDecls, List.flatMap_map]

lemma fromKind_serviceDecls : FromKind .service Declaration.serviceDecls where
  elsewhere {d} h := by cases d <;> simp_all [Declaration.kind, Declaration.serviceDecls]
  block d := by cases d <;> simp [Declaration.singles, Declaration.serviceDecls, List.flatMap_map]

lemma fromKind_exposureDecls : FromKind .exposure Declaration.exposureDecls where
  elsewhere {d} h := by cases d <;> simp_all [Declaration.kind, Declaration.exposureDecls]
  block d := by cases d <;> simp [Declaration.singles, Declaration.exposureDecls, List.flatMap_map]

lemma fromKind_archDecls : FromKind .arch Declaration.archDecls where
  elsewhere {d} h := by cases d <;> simp_all [Declaration.kind, Declaration.archDecls]
  block d := by cases d <;> simp [Declaration.singles, Declaration.archDecls, List.flatMap_map]

lemma fromKind_useCaseDecls : FromKind .useCase Declaration.useCaseDecls where
  elsewhere {d} h := by cases d <;> simp_all [Declaration.kind, Declaration.useCaseDecls]
  block d := by cases d <;> simp [Declaration.singles, Declaration.useCaseDecls, List.flatMap_map]

/-- The entities of a program are read from its six sequences, identifiers included. -/
lemma entities_congr {ds ds' : List Declaration} (h : ∀ kind, ofKind kind ds = ofKind kind ds') :
    Entities.ofDeclarations ds = Entities.ofDeclarations ds' := by
  have hparts : ∀ {α : Type} {kind : DeclarationKind} {parts : Declaration → List α},
      FromKind kind parts → ds.flatMap parts = ds'.flatMap parts := by
    intro α kind parts hfrom
    rw [← flatMap_ofKind hfrom, h kind, flatMap_ofKind hfrom]
  simp only [Entities.ofDeclarations, hparts fromKind_actorDecls, hparts fromKind_domainDecls,
    hparts fromKind_serviceDecls, hparts fromKind_exposureDecls, hparts fromKind_archDecls,
    hparts fromKind_useCaseDecls]

/-! ## One pass, one counter -/

/-- What has been read and the next number, after one declaration more.  Only a use case draws
numbers. -/
def Entities.push : Entities × ℕ → Declaration → Entities × ℕ
  | (found, n), .actor d => ({ found with actors := found.actors ++ [.ofDecl d] }, n)
  | (found, n), .actors ds => ({ found with actors := found.actors ++ ds.map .ofDecl }, n)
  | (found, n), .domain d => ({ found with domains := found.domains ++ [.ofDecl d] }, n)
  | (found, n), .domains ds => ({ found with domains := found.domains ++ ds.map .ofDecl }, n)
  | (found, n), .service d => ({ found with services := found.services ++ [.ofDecl d] }, n)
  | (found, n), .services ds => ({ found with services := found.services ++ ds.map .ofDecl }, n)
  | (found, n), .exposure d => ({ found with exposures := found.exposures ++ [.ofDecl d] }, n)
  | (found, n), .arch d => ({ found with architectures := found.architectures ++ [.ofDecl d] }, n)
  | (found, n), .useCase d =>
    ({ found with useCases := found.useCases ++ [.numbered n d] }, n + d.draws)

/-- How many numbers the use cases of a program draw. -/
def drawsOf (ds : List Declaration) : ℕ :=
  (ds.flatMap Declaration.useCaseDecls).foldr (fun u n => u.draws + n) 0

lemma drawsOf_append_useCase (ds : List Declaration) (u : UseCaseDecl) :
    drawsOf (ds ++ [.useCase u]) = drawsOf ds + u.draws := by
  have hsum : ∀ us : List UseCaseDecl, (us ++ [u]).foldr (fun v n => v.draws + n) 0
      = us.foldr (fun v n => v.draws + n) 0 + u.draws := by
    intro us
    induction us with
    | nil => simp
    | cons v us ih => simp only [List.cons_append, List.foldr_cons, ih, Nat.add_assoc]
  rw [drawsOf, List.flatMap_append]
  exact hsum _

/-- A declaration more adds to the list of its kind, and a use case goes on with the counter. -/
lemma push_ofDeclarations (ds : List Declaration) (d : Declaration) :
    Entities.push (.ofDeclarations ds, drawsOf ds + 1) d
      = (.ofDeclarations (ds ++ [d]), drawsOf (ds ++ [d]) + 1) := by
  cases d with
  | useCase u =>
      have hnext : drawsOf ds + 1 + u.draws = drawsOf (ds ++ [.useCase u]) + 1 := by
        rw [drawsOf_append_useCase]
        omega
      rw [Entities.push, hnext]
      simp [Entities.ofDeclarations, useCasesFrom_append, useCasesFrom, drawsOf,
        Declaration.actorDecls, Declaration.domainDecls, Declaration.serviceDecls,
        Declaration.exposureDecls, Declaration.archDecls, Declaration.useCaseDecls]
  | actor | actors | domain | domains | service | services | exposure | arch =>
      -- nothing but the list of its kind changes, and no number is drawn
      simp [Entities.push, Entities.ofDeclarations, drawsOf, Declaration.actorDecls,
        Declaration.domainDecls, Declaration.serviceDecls, Declaration.exposureDecls,
        Declaration.archDecls, Declaration.useCaseDecls]

/-- **One pass is enough.**  Reading a program declaration by declaration, with one counter for all
identifiers, ends with the six lists of the program. -/
theorem foldl_push (ds : List Declaration) :
    ds.foldl Entities.push (⟨[], [], [], [], [], []⟩, 1)
      = (Entities.ofDeclarations ds, drawsOf ds + 1) := by
  induction ds using List.reverseRecOn with
  | nil => rfl
  | append_singleton ds d ih =>
      rw [List.foldl_append, ih, List.foldl_cons, List.foldl_nil, push_ofDeclarations]

/-! ## Programs -/

/-- Places do not matter for the six sequences. -/
lemma ofKind_unplaced (kind : DeclarationKind) (ds : List Declaration) :
    ofKind kind (unplaced ds) = unplaced (ofKind kind ds) := by
  have hsingles : ∀ d : Declaration, (unplaced d).singles = unplaced d.singles := by
    intro d
    cases d with
    | actors ds | domains ds | services ds =>
        change (ds.map unplaced).map _ = (ds.map _).map unplaced
        rw [List.map_map, List.map_map]
        rfl
    | actor | domain | service | exposure | arch | useCase => rfl
  have hkind : ∀ d : Declaration, (unplaced d).kind = d.kind := by
    intro d
    cases d <;> rfl
  rw [ofKind, flattened, flatMap_parts_unplaced _ hsingles]
  change ((flattened ds).map unplaced).filter _ = ((flattened ds).filter _).map unplaced
  rw [List.filter_map]
  simp only [Function.comp_def, hkind]

/-- **Only the order within a kind matters.**  The program with its blocks taken apart and its kinds
one behind the other has the same model; and so have any two programs whose six sequences are the
same up to places, identifiers included. -/
theorem ofDeclarations_regrouped (policies : Policies) :
    (∀ ds : List Declaration,
      Model.ofDeclarations policies (regrouped ds) = Model.ofDeclarations policies ds) ∧
    ∀ ds ds' : List Declaration,
      (∀ kind, unplaced (ofKind kind ds) = unplaced (ofKind kind ds')) →
        Model.ofDeclarations policies ds = Model.ofDeclarations policies ds' := by
  have hsame : ∀ {ds ds' : List Declaration}, (∀ kind, ofKind kind ds = ofKind kind ds') →
      Model.ofDeclarations policies ds = Model.ofDeclarations policies ds' := by
    intro ds ds' h
    rw [Model.ofDeclarations, entities_congr h, Model.ofDeclarations]
  constructor
  · intro ds
    exact hsame fun kind => ofKind_regrouped kind ds
  · intro ds ds' h
    have hkinds : ∀ kind, ofKind kind (unplaced ds) = ofKind kind (unplaced ds') := by
      intro kind
      rw [ofKind_unplaced, h, ofKind_unplaced]
    rw [← ofDeclarations_unplaced, hsame hkinds, ofDeclarations_unplaced]

/-- A text behind so many bytes. -/
def textAt (start : ℕ) (value : String) : Text := ⟨value, .between start (start + value.length)⟩

/-- A use case, then a block of actors, then a domain. -/
def deskFromUseCase : List Declaration :=
  [.useCase ⟨textAt 9 "Visit",
      [⟨⟨.listens "Desk" "Opened", .between 17 43⟩, [⟨.notifies "Desk" "Ready", .between 44 65⟩]⟩]⟩,
    .actors [⟨textAt 77 "user", textAt 82 "Guest"⟩, ⟨textAt 88 "system", textAt 95 "Clock"⟩],
    .domain ⟨textAt 110 "Desk", [textAt 117 "Bell"]⟩]

/-- One actor, the domain, the other actor, and the use case at the end. -/
def deskFromActor : List Declaration :=
  [.actor ⟨textAt 6 "user", textAt 11 "Guest"⟩,
    .domain ⟨textAt 24 "Desk", [textAt 31 "Bell"]⟩,
    .actor ⟨textAt 44 "system", textAt 51 "Clock"⟩,
    .useCase ⟨textAt 66 "Visit",
      [⟨⟨.listens "Desk" "Opened", .between 74 100⟩,
        [⟨.notifies "Desk" "Ready", .between 101 122⟩]⟩]⟩]

theorem ofDeclarations_regrouped_desk :
    (∀ kind, unplaced (ofKind kind deskFromUseCase) = unplaced (ofKind kind deskFromActor)) ∧
      Model.ofDeclarations {} deskFromUseCase = Model.ofDeclarations {} deskFromActor := by
  have hsame : ∀ kind,
      unplaced (ofKind kind deskFromUseCase) = unplaced (ofKind kind deskFromActor) := by
    intro kind
    cases kind <;> rfl
  exact ⟨hsame, (ofDeclarations_regrouped {}).2 deskFromUseCase deskFromActor hsame⟩

end ArchLang
