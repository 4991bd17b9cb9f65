import ArchLang.Command.FileStore
import ArchLang.Proofs.FirstSeen
import Mathlib.Data.List.Basic
import Mathlib.Tactic.Common

/-!
# What writing one file changes

A path is followed by asking which files and which directories there are, so a file with another
content leaves every path as it was (`locate_put_of_isFile`).  A new file is one more name: the path
that led to nothing now leads to it, and it does so through the same directories, because none of
them is the new file (`walk_put_of_vacant`).

* `get?_put`, `readText_put_of_ne` — other files keep their content.
* `readText_put` — a file that was written can be read back.
* `holds_eq_answers` — an attempt to read a path tells whether something is there.
-/

namespace ArchLang

namespace FileStore

variable {s : FileStore} {path : Path} {content : String}

/-! ## Files and directories after a file was put -/

lemma get?_put (q : Path) :
    (s.put path content).files.get? q =
      if path = q then some content.toUTF8 else s.files.get? q := by
  simp only [put, OrderedMap.get?_insertWith]
  cases s.files.get? q <;> rfl

lemma keys_put_of_isFile (h : s.isFile path = true) :
    (s.put path content).files.keys = s.files.keys := by
  simp only [put, OrderedMap.keys_insertWith]
  exact if_pos (by simpa [isFile] using h)

lemma mem_keys_put (q : Path) :
    q ∈ (s.put path content).files.keys ↔ q ∈ s.files.keys ∨ q = path := by
  simp only [put, OrderedMap.keys_insertWith]
  split
  · next h =>
    constructor
    · exact Or.inl
    · rintro (hq | rfl) <;> assumption
  · simp

lemma isFile_put (q : Path) :
    (s.put path content).isFile q = true ↔ s.isFile q = true ∨ q = path := by
  simp only [isFile, List.contains_iff_mem, mem_keys_put]

/-- A directory stays one. -/
lemma isDirectory_put {q : Path} (h : s.isDirectory q = true) :
    (s.put path content).isDirectory q = true := by
  simp only [isDirectory, Bool.or_eq_true, List.any_eq_true, mem_keys_put] at h ⊢
  refine h.imp_right ?_
  rintro ⟨file, hfile, hq⟩
  exact ⟨file, Or.inl hfile, hq⟩

/-! ## Following a path -/

/-- A name that can be looked up at all. -/
def Sought (name : String) : Prop :=
  ¬(name = "" ∨ name = "." ∨ name = "..") ∧ name.utf8ByteSize ≤ nameLimit

/-- One name on the way leads nowhere else, up, or into a directory. -/
lemma enter_eq_ok_iff {dir d : Path} {name : String} :
    s.enter dir name = .ok d ↔
      ((name = "" ∨ name = ".") ∧ d = dir) ∨ (name = ".." ∧ d = dir.dropLast) ∨
      (Sought name ∧ d = dir ++ [name] ∧ s.isFile d = false ∧ s.isDirectory d = true) := by
  simp only [enter, Sought]
  split_ifs <;> grind

lemma arrive_eq_file_iff {dir : Path} {name : String} :
    s.arrive dir name = .ok (.file path) ↔
      Sought name ∧ path = dir ++ [name] ∧ s.isFile path = true := by
  simp only [arrive, Sought]
  split_ifs <;> grind

lemma arrive_eq_vacant_iff {dir : Path} {name : String} :
    s.arrive dir name = .ok (.vacant path) ↔
      Sought name ∧ path = dir ++ [name] ∧ s.isFile path = false ∧ s.isDirectory path = false := by
  simp only [arrive, Sought]
  split_ifs <;> grind

lemma walk_cons_eq_ok_iff {dir : Path} {name next : String} {names : List String} {place : Place} :
    s.walk dir (name :: next :: names) = .ok place ↔
      ∃ d, s.enter dir name = .ok d ∧ s.walk d (next :: names) = .ok place := by
  simp only [walk]
  cases s.enter dir name <;> simp [Except.bind]

/-- A path that leads to a file leads to one that is there. -/
lemma isFile_of_walk {dir : Path} {names : List String}
    (h : s.walk dir names = .ok (.file path)) : s.isFile path = true := by
  induction names generalizing dir with
  | nil => simp [walk] at h
  | cons name names ih =>
      cases names with
      | nil => exact (arrive_eq_file_iff.1 h).2.2
      | cons =>
          obtain ⟨d, -, h⟩ := walk_cons_eq_ok_iff.1 h
          exact ih h

section Keys

variable {t : FileStore}

/-- Only the paths of the files are asked for. -/
lemma isFile_eq_of_keys_eq (hkeys : t.files.keys = s.files.keys) (q : Path) :
    t.isFile q = s.isFile q := by
  simp only [isFile, hkeys]

lemma isDirectory_eq_of_keys_eq (hkeys : t.files.keys = s.files.keys)
    (hdir : t.workingDirectory = s.workingDirectory) (q : Path) :
    t.isDirectory q = s.isDirectory q := by
  simp only [isDirectory, hkeys, hdir]

lemma enter_eq_of_keys_eq (hkeys : t.files.keys = s.files.keys)
    (hdir : t.workingDirectory = s.workingDirectory) (dir : Path) (name : String) :
    t.enter dir name = s.enter dir name := by
  simp only [enter, isFile_eq_of_keys_eq hkeys, isDirectory_eq_of_keys_eq hkeys hdir]

lemma walk_eq_of_keys_eq (hkeys : t.files.keys = s.files.keys)
    (hdir : t.workingDirectory = s.workingDirectory) (dir : Path) (names : List String) :
    t.walk dir names = s.walk dir names := by
  induction names generalizing dir with
  | nil => rfl
  | cons name names ih =>
      cases names with
      | nil =>
          simp only [walk, arrive, isFile_eq_of_keys_eq hkeys, isDirectory_eq_of_keys_eq hkeys hdir]
      | cons => simp only [walk, enter_eq_of_keys_eq hkeys hdir, ih]

end Keys

lemma walk_put_of_isFile (h : s.isFile path = true) (dir : Path) (names : List String) :
    (s.put path content).walk dir names = s.walk dir names :=
  walk_eq_of_keys_eq (keys_put_of_isFile h) rfl dir names

lemma locate_put_of_isFile (h : s.isFile path = true) (text : String) :
    (s.put path content).locate text = s.locate text := by
  simp only [locate, walk_put_of_isFile h]
  rfl

lemma writable_put_of_isFile (h : s.isFile path = true) (text : String) :
    (s.put path content).writable text = s.writable text := by
  have henter : (s.put path content).enter = s.enter := by
    ext1 dir
    ext1 name
    exact enter_eq_of_keys_eq (keys_put_of_isFile h) rfl dir name
  simp only [writable, walk_put_of_isFile h, henter]
  rfl

lemma enter_put_of_vacant (hpath : s.isDirectory path = false) {dir d : Path} {name : String}
    (h : s.enter dir name = .ok d) : (s.put path content).enter dir name = .ok d := by
  rw [enter_eq_ok_iff] at h ⊢
  refine h.imp_right (Or.imp_right ?_)
  rintro ⟨hname, hd, hfile, hdirectory⟩
  have hne : d ≠ path := by
    rintro rfl
    simp [hdirectory] at hpath
  have hfile' : (s.put path content).isFile d = false := by
    rw [← Bool.not_eq_true, isFile_put]
    simp [hfile, hne]
  exact ⟨hname, hd, hfile', isDirectory_put hdirectory⟩

lemma arrive_put_of_vacant {dir : Path} {name : String}
    (h : s.arrive dir name = .ok (.vacant path)) :
    (s.put path content).arrive dir name = .ok (.file path) := by
  obtain ⟨hname, hpath, -⟩ := arrive_eq_vacant_iff.1 h
  exact arrive_eq_file_iff.2 ⟨hname, hpath, (isFile_put path).2 (Or.inr rfl)⟩

/-- Nothing lies below a path that leads to nothing. -/
lemma isDirectory_of_walk {dir : Path} {names : List String}
    (h : s.walk dir names = .ok (.vacant path)) : s.isDirectory path = false := by
  induction names generalizing dir with
  | nil => simp [walk] at h
  | cons name names ih =>
      cases names with
      | nil => exact (arrive_eq_vacant_iff.1 h).2.2.2
      | cons =>
          obtain ⟨d, -, h⟩ := walk_cons_eq_ok_iff.1 h
          exact ih h

/-- A new file is found where there was nothing, through the same directories. -/
lemma walk_put_of_vacant {dir : Path} {names : List String}
    (h : s.walk dir names = .ok (.vacant path)) :
    (s.put path content).walk dir names = .ok (.file path) := by
  have hpath := isDirectory_of_walk h
  induction names generalizing dir with
  | nil => simp [walk] at h
  | cons name names ih =>
      cases names with
      | nil => exact arrive_put_of_vacant h
      | cons =>
          obtain ⟨d, hd, h⟩ := walk_cons_eq_ok_iff.1 h
          exact walk_cons_eq_ok_iff.2 ⟨d, enter_put_of_vacant hpath hd, ih h⟩

/-! ## Reading after a file was put -/

lemma locate_eq_ok_iff {text : String} {place : Place} :
    s.locate text = .ok place ↔ ∃ names, namesOf text = .ok names ∧
      s.walk (startOf s.workingDirectory text.toList) names = .ok place := by
  simp only [locate]
  cases namesOf text <;> simp [bind, Except.bind]

/-- Other files are read as before. -/
lemma readText_put_of_ne (h : s.isFile path = true) {text : String}
    (hne : s.locate text ≠ .ok (.file path)) :
    (s.put path content).readText text = s.readText text := by
  simp only [readText, locate_put_of_isFile h]
  cases hplace : s.locate text with
  | error => rfl
  | ok place =>
      cases place with
      | file q =>
          have hq : path ≠ q := by
            rintro rfl
            exact hne hplace
          simp only [bind, Except.bind, contentAt, get?_put, if_neg hq]
      | directory | vacant => rfl

lemma holds_put_of_isFile (h : s.isFile path = true) (text : String) :
    (s.put path content).holds text = s.holds text := by
  simp only [holds, locate_put_of_isFile h]

/-- Where a file can be written, there is a file or nothing. -/
lemma exists_walk_of_writable {text : String} (h : s.writable text = .ok path) :
    ∃ names, namesOf text = .ok names ∧
      (s.walk (startOf s.workingDirectory text.toList) names = .ok (.file path) ∨
        s.walk (startOf s.workingDirectory text.toList) names = .ok (.vacant path)) := by
  simp only [writable, bind, Except.bind, pure, Except.pure] at h
  cases hnames : namesOf text with
  | error => simp [hnames] at h
  | ok names =>
      simp only [hnames] at h
      refine ⟨names, rfl, ?_⟩
      split at h
      · split at h <;> simp at h
      · cases hplace : s.walk (startOf s.workingDirectory text.toList) names with
        | error => simp [hplace] at h
        | ok place => cases place <;> simp_all

lemma locate_put_of_writable {text : String} (h : s.writable text = .ok path) :
    (s.put path content).locate text = .ok (.file path) := by
  obtain ⟨names, hnames, hfile | hvacant⟩ := exists_walk_of_writable h
  · refine locate_eq_ok_iff.2 ⟨names, hnames, ?_⟩
    exact (walk_put_of_isFile (isFile_of_walk hfile) ..).trans hfile
  · exact locate_eq_ok_iff.2 ⟨names, hnames, walk_put_of_vacant hvacant⟩

lemma decode_toUTF8 (text : String) : decode text.toUTF8 = .ok text := by
  simp only [decode, String.fromUTF8?, String.toUTF8_eq_toByteArray, dif_pos text.isValidUTF8]
  rfl

/-- What was written can be read back. -/
lemma readText_put {text : String} (h : s.writable text = .ok path) :
    (s.put path content).readText text = .ok content := by
  simp only [readText, locate_put_of_writable h, bind, Except.bind, contentAt, get?_put, if_true,
    decode_toUTF8]

/-! ## Whether something is there -/

/-- Whether what came of reading a path shows that something is there. -/
def answers : Except FileFault String → Bool
  | .ok _ => true
  | .error .isDirectory => true
  | .error .notText => true
  | .error _ => false

lemma answers_of_walk {dir : Path} {names : List String} {fault : FileFault}
    (h : s.walk dir names = .error fault) : answers (.error fault) = false := by
  induction names generalizing dir with
  | nil => simp [walk] at h
  | cons name names ih =>
      cases names with
      | nil =>
          simp only [walk, arrive] at h
          split_ifs at h
          cases h
          rfl
      | cons next names =>
          simp only [walk] at h
          cases hd : s.enter dir name with
          | ok d => exact ih (by simpa [hd, Except.bind] using h)
          | error fault' =>
              obtain rfl : fault' = fault := by simpa [hd, Except.bind] using h
              simp only [enter] at hd
              split_ifs at hd <;> cases hd <;> rfl

/-- Only a place can be a directory or hold no text. -/
lemma answers_of_locate {text : String} {fault : FileFault} (h : s.locate text = .error fault) :
    answers (.error fault) = false := by
  simp only [locate] at h
  cases hnames : namesOf text with
  | ok names =>
      rw [hnames] at h
      exact answers_of_walk h
  | error fault' =>
      obtain rfl : fault' = fault := by simpa [hnames, bind, Except.bind] using h
      simp only [namesOf] at hnames
      split_ifs at hnames <;> cases hnames <;> rfl

lemma exists_content (h : s.isFile path = true) : ∃ bytes, s.files.get? path = some bytes := by
  obtain ⟨entry, hentry, rfl⟩ : ∃ entry ∈ s.files.entries, entry.1 = path := by
    simpa [isFile, OrderedMap.keys] using h
  rw [← Option.isSome_iff_exists, OrderedMap.get?, Option.isSome_map, List.find?_isSome]
  exact ⟨entry, hentry, by simp⟩

lemma holds_eq_answers (text : String) : s.holds text = answers (s.readText text) := by
  simp only [holds, readText]
  cases hplace : s.locate text with
  | error fault => exact (answers_of_locate hplace).symm
  | ok place =>
      cases place with
      | directory | vacant => rfl
      | file q =>
          obtain ⟨names, -, hwalk⟩ := locate_eq_ok_iff.1 hplace
          obtain ⟨bytes, hbytes⟩ := exists_content (isFile_of_walk hwalk)
          simp only [bind, Except.bind, contentAt, hbytes, decode]
          cases String.fromUTF8? bytes <;> rfl

end FileStore

end ArchLang
