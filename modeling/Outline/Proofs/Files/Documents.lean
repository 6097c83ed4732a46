import Mathlib.Data.List.Sort
import Mathlib.Data.String.Basic
import Mathlib.Order.Basic
import Outline.Files.Documents
import Outline.Files.Tree
import Outline.Proofs.Except
import Outline.Proofs.Text.Blank

/-!
# Documents that are found

Directories, patterns and paths are read as plain paths, each of which is found once. **The
documents are found in increasing order, and each of them leads to a file**
(`documentsFound_findDocuments`). Two of them lead to the same file only if they start from
different places, or if one has a double dot, which a plain path keeps (`found_twice`).

* `PlainPath.Plain`: a path in plain form;
* `FileTree.WellNamed`: a tree whose names are steps of paths;
* `Disk.destination`: where the steps of a path lead;
* `DocumentsFound`: what is found for patterns.
-/

namespace Outline

/-! ## Steps of paths -/

/-- A step that leads somewhere: neither empty nor a single dot, and without slashes. -/
structure IsStep (s : String) : Prop where
  ne_empty : s ≠ ""
  ne_same : s ≠ "."
  noSlash : '/' ∉ s.toList

/-- A name in a directory: a step other than the one to the directory above. -/
structure IsName (s : String) : Prop extends IsStep s where
  ne_up : s ≠ ".."

theorem isName_iff {s : String} : IsName s ↔ s ≠ "" ∧ s ≠ "." ∧ '/' ∉ s.toList ∧ s ≠ ".." :=
  ⟨fun h => ⟨h.ne_empty, h.ne_same, h.noSlash, h.ne_up⟩,
    fun ⟨hempty, hsame, hslash, hup⟩ => ⟨⟨hempty, hsame, hslash⟩, hup⟩⟩

instance (s : String) : Decidable (IsName s) := decidable_of_iff _ isName_iff.symm

namespace PlainPath

variable {p q : PlainPath}

/-- **A plain path**: it starts with nothing but slashes, and each of its steps leads somewhere. -/
structure Plain (p : PlainPath) : Prop where
  root : ∃ n, p.root = String.ofList (List.replicate n '/')
  steps : ∀ s ∈ p.steps, IsStep s

theorem rootSlashes_eq (cs : List Char) : ∃ n, rootSlashes cs = List.replicate n '/' := by
  unfold rootSlashes
  split
  · exact ⟨1, rfl⟩
  · exact ⟨2, rfl⟩
  · exact ⟨1, rfl⟩
  · exact ⟨0, rfl⟩

theorem isStep_of_mem_pathSteps {cs piece : List Char} (h : piece ∈ pathSteps cs)
    (hidle : isIdleStep piece = false) : IsStep (String.ofList piece) := by
  rw [isIdleStep, Bool.or_eq_false_iff, List.isEmpty_eq_false_iff, beq_eq_false_iff_ne] at hidle
  refine ⟨fun heq => hidle.1 ?_, fun heq => hidle.2 ?_, fun hslash => ?_⟩
  · simpa using congrArg String.toList heq
  · simpa [sameStep] using congrArg String.toList heq
  · rw [String.toList_ofList] at hslash
    exact absurd (mem_of_mem_cut h _ hslash).2 (by decide)

theorem plain_read (path : String) : (read path).Plain where
  root := (rootSlashes_eq path.toList).imp fun _ => congrArg String.ofList
  steps s hs := by
    obtain ⟨piece, hpiece, rfl⟩ := List.mem_map.1 hs
    obtain ⟨hmem, hidle⟩ := List.mem_filter.1 hpiece
    exact isStep_of_mem_pathSteps hmem (by simpa using hidle)

theorem Plain.below (h : p.Plain) {name : String} (hname : IsStep name) : (p.below name).Plain where
  root := h.root
  steps := List.forall_mem_append.2 ⟨h.steps, List.forall_mem_singleton.2 hname⟩

theorem Plain.root_not_mem (h : p.Plain) (hq : q.Plain) (hroot : q.root ≠ "") :
    q.root ∉ p.steps := by
  intro hmem
  obtain ⟨n, hn⟩ := hq.root
  refine (h.steps _ hmem).noSlash ?_
  rw [hn, String.toList_ofList, List.mem_replicate]
  refine ⟨?_, rfl⟩
  rintro rfl
  exact hroot hn

/-- **Plain paths are told apart by the steps that they are compared by.** -/
theorem Plain.eq_of_key (hp : p.Plain) (hq : q.Plain) (h : p.key = q.key) : p = q := by
  obtain ⟨r, ps⟩ := p
  obtain ⟨r', qs⟩ := q
  unfold key at h
  dsimp only at h
  by_cases hr : r = "" <;> by_cases hr' : r' = ""
  · simp_all
  · rw [if_pos (by simpa using hr), if_neg (by simpa using hr')] at h
    exact absurd (h ▸ List.mem_cons_self) (hp.root_not_mem hq hr')
  · rw [if_neg (by simpa using hr), if_pos (by simpa using hr')] at h
    exact absurd (h ▸ List.mem_cons_self) (hq.root_not_mem hp hr)
  · rw [if_neg (by simpa using hr), if_neg (by simpa using hr')] at h
    obtain ⟨rfl, rfl⟩ := List.cons.inj h
    rfl

end PlainPath

open PlainPath

/-! ## Paths in order -/

section

variable {α : Type} [BEq α] [LawfulBEq α]

theorem mem_withoutRepeats {a : α} {l : List α} : a ∈ withoutRepeats l ↔ a ∈ l := by
  induction l with
  | nil => rfl
  | cons b l ih =>
    rw [withoutRepeats]
    split
    · rename_i hb
      rw [ih, List.mem_cons, iff_or_self]
      rintro rfl
      simpa using hb
    · rw [List.mem_cons, List.mem_cons, ih]

theorem nodup_withoutRepeats (l : List α) : (withoutRepeats l).Nodup := by
  induction l with
  | nil => exact .nil
  | cons b l ih =>
    rw [withoutRepeats]
    split
    · exact ih
    · rename_i hb
      exact List.nodup_cons.2 ⟨by rw [mem_withoutRepeats]; simpa using hb, ih⟩

end

variable {paths : List PlainPath}

theorem mem_sortedPaths {p : PlainPath} : p ∈ sortedPaths paths ↔ p ∈ paths := by
  rw [sortedPaths, List.mem_mergeSort, mem_withoutRepeats]

theorem le_iff {p q : PlainPath} : p.le q = true ↔ p.key ≤ q.key := by
  rw [PlainPath.le, Bool.not_eq_true', decide_eq_false_iff_not, not_lt]

/-- **Sorted paths are in increasing order.** -/
theorem increasing_sortedPaths (h : ∀ p ∈ paths, p.Plain) :
    (sortedPaths paths).Pairwise fun p q => p.key < q.key := by
  have hsorted : (sortedPaths paths).Pairwise fun p q => p.le q = true := by
    refine List.pairwise_mergeSort (fun p q r hpq hqr => ?_) (fun p q => ?_) _
    · exact le_iff.2 ((le_iff.1 hpq).trans (le_iff.1 hqr))
    · rw [Bool.or_eq_true, le_iff, le_iff]
      exact le_total _ _
  have hnodup : (sortedPaths paths).Nodup :=
    (List.mergeSort_perm _ _).nodup_iff.2 (nodup_withoutRepeats paths)
  refine (hsorted.and hnodup).imp_of_mem fun {p q} hp hq hpq => ?_
  refine lt_of_le_of_ne (le_iff.1 hpq.1) fun hkey => hpq.2 ?_
  exact (h p (mem_sortedPaths.1 hp)).eq_of_key (h q (mem_sortedPaths.1 hq)) hkey

/-- Paths that are in order lose their repeats only. -/
theorem sortedPaths_eq (h : (withoutRepeats paths).Pairwise fun p q => p.key < q.key) :
    sortedPaths paths = withoutRepeats paths :=
  List.mergeSort_of_pairwise (h.imp fun hlt => le_iff.2 hlt.le)

/-! ## Trees of files -/

/-- **A tree whose directories have proper names for their members.** -/
inductive FileTree.WellNamed : FileTree → Prop
  | file {bytes : List Nat} : WellNamed (.file bytes)
  | directory {members : List (String × FileTree)} (names : ∀ m ∈ members, IsName m.1)
      (below : ∀ m ∈ members, WellNamed m.2) : WellNamed (.directory members)

theorem FileTree.WellNamed.names {t : FileTree} (h : t.WellNamed) :
    ∀ name ∈ t.names, IsName name := by
  cases h with
  | file => exact List.forall_mem_nil _
  | directory names _ => exact List.forall_mem_map.2 names

theorem FileTree.WellNamed.at? {t t' : FileTree} {names : List String} (h : t.WellNamed)
    (hat : t.at? names = some t') : t'.WellNamed := by
  induction names generalizing t with
  | nil => exact Option.some.inj hat ▸ h
  | cons name names ih =>
    rw [FileTree.at?] at hat
    split at hat
    · rename_i m hm
      cases h with
      | file => cases hm
      | directory _ below =>
        obtain ⟨front, back, rfl, -⟩ := List.lookup_eq_some_iff.1 hm
        exact ih (below (name, m) (List.mem_append_right front List.mem_cons_self)) hat
    · cases hat

namespace Disk

variable {d : Disk} {p : PlainPath} {place : List String}

theorem look_eq_ok {path : String} {t : FileTree} : d.look path = .ok t ↔
    ∃ place, d.find path = .ok place ∧ d.root.at? place = some t := by
  rw [look, bind_eq_ok]
  refine exists_congr fun place => and_congr_right fun _ => ?_
  cases d.root.at? place with
  | none => exact iff_of_false nofun nofun
  | some t' => exact Except.ok.injEq t' t ▸ (Option.some_inj (a := t') (b := t)).symm

theorem isName_of_mem_names (h : d.root.WellNamed) (path : String) :
    ∀ name ∈ (d.reader.names path).run, IsName name := by
  cases hlook : d.look path with
  | error e =>
    have hnone : (d.reader.names path).run = [] := by simp [reader, hlook, Id.run]
    exact hnone ▸ List.forall_mem_nil _
  | ok t =>
    have hsome : (d.reader.names path).run = t.names := by simp [reader, hlook, Id.run]
    obtain ⟨place, -, hat⟩ := look_eq_ok.1 hlook
    exact hsome ▸ (h.at? hat).names

/-- What a path leads to is a file. -/
theorem isFile_iff {path : String} : (d.reader.isFile path).run = true ↔
    ∃ place bytes, d.find path = .ok place ∧ d.root.at? place = some (.file bytes) := by
  have hkind : (d.reader.isFile path).run = true ↔ ∃ bytes, d.look path = .ok (.file bytes) := by
    rw [FileReader.isFile, Id.run_bind, Id.run_pure, decide_eq_true_iff]
    cases hlook : d.look path with
    | error e => simp [reader, hlook, Id.run]
    | ok t => cases t <;> simp [reader, hlook, FileTree.kind, Id.run]
  rw [hkind]
  simp only [look_eq_ok]
  exact exists_comm

end Disk

/-! ## Where paths lead -/

namespace Disk

variable {d : Disk} {p : PlainPath} {place place' : List String}

/-- One step on the way from the root. -/
def goOn (place : List String) (step : String) : List String :=
  if step = ".." then place.dropLast else place ++ [step]

/-- **Where the steps of a path lead**, from the working directory or from the root. -/
def destination (d : Disk) (p : PlainPath) : List String :=
  p.steps.foldl goOn (if p.root = "" then d.workingDirectory else [])

/-- Without double dots, a path leads down all of its steps. -/
theorem foldl_goOn {steps : List String} (h : ".." ∉ steps) (place : List String) :
    steps.foldl goOn place = place ++ steps := by
  induction steps generalizing place with
  | nil => exact (List.append_nil place).symm
  | cons s steps ih =>
    obtain ⟨hs, hsteps⟩ := List.ne_and_not_mem_of_not_mem_cons h
    rw [List.foldl_cons, ih hsteps, goOn, if_neg hs.symm, List.append_assoc, List.singleton_append]

theorem step_eq_ok {s : String} (hs : IsStep s) (h : d.step place s = .ok place') :
    place' = goOn place s := by
  unfold step at h
  split at h
  · cases h
  · cases h
  · rw [if_neg (by simp [hs.ne_empty, hs.ne_same])] at h
    unfold goOn
    split at h
    · rename_i hup
      rw [if_pos (by simpa using hup), Except.ok.inj h]
    · rename_i hup
      rw [if_neg (by simpa using hup)]
      split at h
      · exact (Except.ok.inj h).symm
      · cases h

theorem foldlM_step_eq_ok {steps : List String} (hsteps : ∀ s ∈ steps, IsStep s)
    (h : steps.foldlM d.step place = .ok place') : place' = steps.foldl goOn place := by
  induction steps generalizing place with
  | nil => exact (Except.ok.inj h).symm
  | cons s steps ih =>
    obtain ⟨hs, hsteps⟩ := List.forall_mem_cons.1 hsteps
    rw [List.foldlM_cons] at h
    obtain ⟨middle, hmiddle, h⟩ := bind_eq_ok.1 h
    rw [List.foldl_cons, ← step_eq_ok hs hmiddle]
    exact ih hsteps h

/-- Empty steps stay where they are. -/
theorem foldlM_step_empty {n : Nat} (h : (List.replicate n "").foldlM d.step place = .ok place') :
    place' = place := by
  induction n generalizing place with
  | zero => exact (Except.ok.inj h).symm
  | succ n ih =>
    rw [List.replicate_succ, List.foldlM_cons] at h
    obtain ⟨middle, hmiddle, h⟩ := bind_eq_ok.1 h
    rw [ih h]
    unfold step at hmiddle
    split at hmiddle
    · cases hmiddle
    · cases hmiddle
    · exact (Except.ok.inj hmiddle).symm

end Disk

namespace PlainPath

variable {p : PlainPath}

theorem toList_text (hsome : p.steps ≠ []) :
    p.text.toList = p.root.toList ++ ['/'].intercalate (p.steps.map String.toList) := by
  rw [text, if_neg (by simp [hsome]), String.toList_append, String.toList_intercalate]
  rfl

theorem cut_slashes (n : Nat) (cs : List Char) : cut (· == '/') (List.replicate n '/' ++ cs) =
    List.replicate n [] ++ cut (· == '/') cs := by
  induction n with
  | zero => rfl
  | succ n ih => exact congrArg ([] :: ·) ih

/-- The steps of the text of a path: empty ones for the slashes at its front, and its own. -/
theorem Plain.pathSteps_text (h : p.Plain) (hsome : p.steps ≠ []) :
    ∃ n, (pathSteps p.text.toList).map String.ofList = List.replicate n "" ++ p.steps := by
  have hsteps : cut (· == '/') (['/'].intercalate (p.steps.map String.toList)) =
      p.steps.map String.toList := by
    refine cut_intercalate (by simpa using hsome) (List.forall_mem_map.2 fun s hs c hc => ?_) rfl
    rw [beq_eq_false_iff_ne]
    rintro rfl
    exact (h.steps s hs).noSlash hc
  obtain ⟨n, hn⟩ := h.root
  refine ⟨n, ?_⟩
  rw [toList_text hsome, hn, String.toList_ofList, pathSteps, cutOn, cut_slashes, hsteps]
  simp [List.map_map, Function.comp_def]

/-- The text of a path begins with a slash if its steps start from the root. -/
theorem Plain.head?_text (h : p.Plain) (hsome : p.steps ≠ []) :
    p.text.toList.head? = some '/' ↔ p.root ≠ "" := by
  obtain ⟨n, hn⟩ := h.root
  rw [toList_text hsome, hn, String.toList_ofList]
  cases n with
  | succ n => exact iff_of_true rfl fun heq => by simpa using congrArg String.toList heq
  | zero =>
    obtain ⟨s, steps, hsteps⟩ := List.exists_cons_of_ne_nil hsome
    have hs := h.steps s (hsteps ▸ List.mem_cons_self)
    obtain ⟨c, cs, hcs⟩ : ∃ c cs, s.toList = c :: cs :=
      List.exists_cons_of_ne_nil (by simpa using hs.ne_empty)
    refine iff_of_false (fun hhead => hs.noSlash ?_) (not_not.2 rfl)
    -- the first character is that of the first step
    have hc : c = '/' := by
      rw [hsteps, List.map_cons, hcs] at hhead
      cases hmore : steps.map String.toList <;> simpa [hmore] using hhead
    rw [hcs, hc]
    exact List.mem_cons_self

end PlainPath

/-- **A path that leads somewhere leads where its steps do.** -/
theorem Disk.eq_destination {d : Disk} {p : PlainPath} {place : List String} (h : p.Plain)
    (hsome : p.steps ≠ []) (hfind : d.find p.text = .ok place) : place = d.destination p := by
  unfold find at hfind
  dsimp only at hfind
  split at hfind
  · cases hfind
  obtain ⟨n, hsteps⟩ := h.pathSteps_text hsome
  rw [hsteps, List.foldlM_append] at hfind
  obtain ⟨start, hstart, hfind⟩ := bind_eq_ok.1 hfind
  rw [foldlM_step_eq_ok h.steps hfind, foldlM_step_empty hstart, destination]
  congr 1
  simp only [beq_iff_eq, h.head?_text hsome, ne_eq, ite_not]

/-- Without double dots, paths that start from the same place lead apart. -/
theorem eq_of_destination {d : Disk} {p q : PlainPath} (hroot : p.root = q.root)
    (hp : ".." ∉ p.steps) (hq : ".." ∉ q.steps) (h : d.destination p = d.destination q) :
    p = q := by
  rw [Disk.destination, Disk.destination, hroot, Disk.foldl_goOn hp, Disk.foldl_goOn hq,
    List.append_right_inj] at h
  obtain ⟨root, steps⟩ := p
  cases hroot
  cases h
  rfl

/-! ## Paths that are found -/

variable {d : Disk}

theorem plain_filesToDepth (h : d.root.WellNamed) : ∀ (depth : Nat) {p : PlainPath}, p.Plain →
    ∀ q ∈ (filesToDepth d.reader depth p).run, q.Plain
  | 0, _, _ => List.forall_mem_nil _
  | depth + 1, p, hp => by
    intro q hq
    simp only [filesToDepth, Id.run_bind, Id.run_pure, List.idRun_mapM, List.mem_flatten,
      List.mem_map] at hq
    obtain ⟨_, ⟨name, hname, rfl⟩, hq⟩ := hq
    have hbelow := hp.below (Disk.isName_of_mem_names h _ name hname).toIsStep
    split at hq
    · rw [Id.run_bind, Id.run_pure] at hq
      rcases List.mem_cons.1 hq with rfl | hq
      · exact hbelow
      · exact plain_filesToDepth h depth hbelow q hq
    · exact List.mem_singleton.1 hq ▸ hbelow

theorem plain_pathsFor (h : d.root.WellNamed) {pattern : String}
    (hpaths : (pathsFor d.reader pattern).run = some paths) : ∀ p ∈ paths, p.Plain := by
  rw [pathsFor, Id.run_bind] at hpaths
  split at hpaths
  · rw [Id.run_bind, Id.run_pure, Option.some_inj] at hpaths
    exact hpaths ▸ plain_filesToDepth h _ (plain_read pattern)
  split at hpaths
  · rw [Id.run_bind, Id.run_pure, Option.some_inj] at hpaths
    exact hpaths ▸ List.forall_mem_map.2 fun path _ => plain_read path
  rw [Id.run_bind] at hpaths
  split at hpaths
  · rw [Id.run_pure, Option.some_inj] at hpaths
    exact hpaths ▸ List.forall_mem_singleton.2 (plain_read pattern)
  · cases hpaths

theorem idRun_filterAuxM {α : Type} (f : α → Id Bool) (l acc : List α) :
    (l.filterAuxM f acc).run = (l.filter fun a => (f a).run).reverse ++ acc := by
  induction l generalizing acc with
  | nil => rfl
  | cons a l ih =>
    rw [List.filterAuxM, Id.run_bind, ih, List.filter_cons]
    cases (f a).run <;> simp

theorem idRun_filterM {α : Type} (f : α → Id Bool) (l : List α) :
    (l.filterM f).run = l.filter fun a => (f a).run := by
  rw [List.filterM, Id.run_bind, idRun_filterAuxM]
  simp

theorem isDocument_iff {p : PlainPath} : (isDocument d.reader p).run = true ↔
    isDocumentPath p = true ∧ (d.reader.isFile p.text).run = true := by
  unfold isDocument
  split
  · simp [*]
  · simp [*]

/-- **The documents for some patterns** are those among the paths for each of them. -/
theorem mem_documentsFor {patterns : List String}
    (h : (documentsFor d.reader patterns).run = .ok paths) {p : PlainPath} :
    p ∈ paths ↔ ∃ pattern ∈ patterns, ∃ found, (pathsFor d.reader pattern).run = some found ∧
      p ∈ found ∧ (isDocument d.reader p).run = true := by
  induction patterns generalizing paths with
  | nil =>
    cases h
    simp
  | cons pattern patterns ih =>
    rw [documentsFor, Id.run_bind] at h
    split at h
    · cases h
    rename_i found hfound
    rw [Id.run_bind, Id.run_bind] at h
    split at h
    · rename_i rest hrest
      cases h
      rw [List.mem_append, ih hrest, idRun_filterM, List.mem_filter]
      simp [hfound]
    · cases h

/-! ## Documents -/

/-- A path without steps has no extension. -/
theorem steps_ne_nil {p : PlainPath} (h : lower p.extension ∈ [".md", ".mdx"]) : p.steps ≠ [] := by
  obtain ⟨root, steps⟩ := p
  rintro rfl
  exact absurd (show lower (PlainPath.extension ⟨"", []⟩) ∈ [".md", ".mdx"] from h) (by decide)

/-- **The documents that are found for patterns**: those among the paths for each pattern that lead
to a file and have the extension of a document, in any case. They are in increasing order, each of
them once, and lead where their steps do. Different ones lead to the same file only if they start
from different places or one has a double dot. -/
structure DocumentsFound (d : Disk) (patterns : List String) (found : List PlainPath) : Prop where
  mem_iff : ∀ p, p ∈ found ↔ ∃ pattern ∈ patterns, ∃ paths,
    (pathsFor d.reader pattern).run = some paths ∧ p ∈ paths ∧
      lower p.extension ∈ [".md", ".mdx"] ∧
        ∃ place bytes, d.find p.text = .ok place ∧ d.root.at? place = some (.file bytes)
  increasing : found.Pairwise fun p q => p.key < q.key
  leads : ∀ p ∈ found, d.find p.text = .ok (d.destination p)
  apart : ∀ p ∈ found, ∀ q ∈ found, p ≠ q → d.find p.text = d.find q.text →
    p.root ≠ q.root ∨ ".." ∈ p.steps ∨ ".." ∈ q.steps

section

variable {patterns : List String} {found : List PlainPath}

theorem findDocuments_eq_ok : (findDocuments d.reader patterns).run = .ok found ↔
    ∃ paths, (documentsFor d.reader patterns).run = .ok paths ∧ found = sortedPaths paths := by
  rw [findDocuments, Id.run_bind, Id.run_pure]
  cases (documentsFor d.reader patterns).run with
  | error missing => exact iff_of_false nofun nofun
  | ok paths =>
    constructor
    · rintro ⟨⟩
      exact ⟨paths, rfl, rfl⟩
    · rintro ⟨_, ⟨⟩, rfl⟩
      rfl

/-- A path that a pattern stands for is found if it leads to a file and has the extension of a
document. -/
theorem mem_of_findDocuments (h : (findDocuments d.reader patterns).run = .ok found)
    (p : PlainPath) : p ∈ found ↔ ∃ pattern ∈ patterns, ∃ paths,
      (pathsFor d.reader pattern).run = some paths ∧ p ∈ paths ∧
        lower p.extension ∈ [".md", ".mdx"] ∧
          ∃ place bytes, d.find p.text = .ok place ∧ d.root.at? place = some (.file bytes) := by
  obtain ⟨paths, hpaths, rfl⟩ := findDocuments_eq_ok.1 h
  simp only [mem_sortedPaths, mem_documentsFor hpaths, isDocument_iff, Disk.isFile_iff,
    isDocumentPath, documentExtensions, List.contains_iff_mem]

variable (hnames : d.root.WellNamed) (h : (findDocuments d.reader patterns).run = .ok found)

include hnames h

theorem plain_of_findDocuments : ∀ p ∈ found, p.Plain := by
  intro p hp
  obtain ⟨pattern, -, paths, hpaths, hp, -⟩ := (mem_of_findDocuments h p).1 hp
  exact plain_pathsFor hnames hpaths p hp

theorem increasing_of_findDocuments : found.Pairwise fun p q => p.key < q.key := by
  have hplain := plain_of_findDocuments hnames h
  obtain ⟨paths, -, rfl⟩ := findDocuments_eq_ok.1 h
  exact increasing_sortedPaths fun p hp => hplain p (mem_sortedPaths.2 hp)

theorem find_of_findDocuments : ∀ p ∈ found, d.find p.text = .ok (d.destination p) := by
  intro p hp
  obtain ⟨-, -, -, -, -, hextension, place, -, hfind, -⟩ := (mem_of_findDocuments h p).1 hp
  have hplain := plain_of_findDocuments hnames h p hp
  rw [hfind, Disk.eq_destination hplain (steps_ne_nil hextension) hfind]

end

/-- **The documents for patterns are found in order, and each leads to a file.** -/
theorem documentsFound_findDocuments {patterns : List String} {found : List PlainPath}
    (hnames : d.root.WellNamed) (h : (findDocuments d.reader patterns).run = .ok found) :
    DocumentsFound d patterns found := by
  have hleads := find_of_findDocuments hnames h
  refine ⟨mem_of_findDocuments h, increasing_of_findDocuments hnames h, hleads, ?_⟩
  intro p hp q hq hne hsame
  rw [hleads p hp, hleads q hq, Except.ok.injEq] at hsame
  by_contra hnot
  rw [not_or, not_or, ne_eq, not_not] at hnot
  obtain ⟨hroot, hup, hup'⟩ := hnot
  exact hne (eq_of_destination hroot hup hup' hsame)

/-- A disk with a document in each of two directories; paths start in the first of them. -/
def notesDisk : Disk :=
  ⟨.directory [("home", .directory [("a.md", .file []),
    ("docs", .directory [("B.MDX", .file []), ("c.txt", .file [])])])], ["home"]⟩

theorem wellNamed_notesDisk : notesDisk.root.WellNamed := by
  have hdocs : (FileTree.directory [("B.MDX", .file []), ("c.txt", .file [])]).WellNamed :=
    .directory (by decide) (List.forall_mem_cons.2 ⟨.file, List.forall_mem_singleton.2 .file⟩)
  have hhome : (FileTree.directory [("a.md", .file []),
      ("docs", .directory [("B.MDX", .file []), ("c.txt", .file [])])]).WellNamed :=
    .directory (by decide) (List.forall_mem_cons.2 ⟨.file, List.forall_mem_singleton.2 hdocs⟩)
  exact .directory (by decide) (List.forall_mem_singleton.2 hhome)

/-- The patterns name one document three times, and another one twice. -/
def notesPatterns : List String := ["/home/a.md", "a.md", "docs/../a.md", "docs", "./docs//B.MDX"]

theorem documentsFound_notesDisk : notesDisk.root.WellNamed ∧ ∃ found,
    (findDocuments notesDisk.reader notesPatterns).run = .ok found ∧
      found.map PlainPath.text = ["/home/a.md", "a.md", "docs/../a.md", "docs/B.MDX"] ∧
        DocumentsFound notesDisk notesPatterns found := by
  have hpaths : (documentsFor notesDisk.reader notesPatterns).run =
      .ok [⟨"/", ["home", "a.md"]⟩, ⟨"", ["a.md"]⟩, ⟨"", ["docs", "..", "a.md"]⟩,
        ⟨"", ["docs", "B.MDX"]⟩, ⟨"", ["docs", "B.MDX"]⟩] := rfl
  have hfound := findDocuments_eq_ok.2 ⟨_, hpaths, (sortedPaths_eq (by decide)).symm⟩
  exact ⟨wellNamed_notesDisk, _, hfound, by decide,
    documentsFound_findDocuments wellNamed_notesDisk hfound⟩

/-- **A document that is named in two ways is found twice**: what a double dot takes away is not
taken out of a path. -/
theorem found_twice :
    (findDocuments notesDisk.reader ["a.md", "docs/../a.md"]).run =
        .ok [⟨"", ["a.md"]⟩, ⟨"", ["docs", "..", "a.md"]⟩] ∧
      notesDisk.find "a.md" = .ok ["home", "a.md"] ∧
      notesDisk.find "docs/../a.md" = .ok ["home", "a.md"] := by
  have hpaths : (documentsFor notesDisk.reader ["a.md", "docs/../a.md"]).run =
      .ok [⟨"", ["a.md"]⟩, ⟨"", ["docs", "..", "a.md"]⟩] := rfl
  have hsorted : sortedPaths [⟨"", ["a.md"]⟩, ⟨"", ["docs", "..", "a.md"]⟩] =
      [⟨"", ["a.md"]⟩, ⟨"", ["docs", "..", "a.md"]⟩] := sortedPaths_eq (by decide)
  exact ⟨findDocuments_eq_ok.2 ⟨_, hpaths, hsorted.symm⟩, rfl, rfl⟩

end Outline
