import Outline.Proofs.Expr.Fault
import Outline.Proofs.Heading.Matcher

/-!
# Questions in a row

A matcher that is asked again and again **answers as a new one would**; what it remembers are the
patterns it was asked about, each once and in the order of their first use, with what became of
them; and a malformed pattern is noticed exactly at its first use (`transparent_replies`).

* `Inquiry`, `Matcher.put`, `Matcher.replies`: questions about headings of any documents, in a row;
* `Matcher.Remembers`: what a matcher remembers of patterns;
* `Matcher.find_of_remembers`: what one more pattern changes;
* `Transparent`: what is seen of the memory.
-/

namespace Outline

/-- A question about a heading of the document with the given path, or about the part of the
document before its first heading. -/
structure Inquiry where
  target : Option Heading
  spec : HeadingSpec
  path : String

/-- The anchored pattern that a question is about, if there is one. -/
def Inquiry.pattern? (i : Inquiry) : Option String :=
  match i.target, i.spec with
  | some _, .pattern text => some (anchored text)
  | _, _ => none

/-- The anchored patterns that questions in a row are about. -/
def patternsAsked (inquiries : List Inquiry) : List String := inquiries.filterMap Inquiry.pattern?

namespace Matcher

/-- The reply to a question. What has no heading satisfies no specification. -/
def put (m : Matcher) (i : Inquiry) : Reply :=
  match i.target with
  | some h => m.ask i.path ⟨i.spec, h⟩
  | none => ⟨.ok false, m, []⟩

/-- The replies to questions in a row. -/
def replies : (m : Matcher) → List Inquiry → List Reply
  | _, [] => []
  | m, i :: is => m.put i :: replies (m.put i).matcher is

/-- The matcher behind questions in a row. -/
def after (m : Matcher) (inquiries : List Inquiry) : Matcher :=
  inquiries.foldl (fun m i => (m.put i).matcher) m

/-- What is remembered of a pattern: what it compiles to, or that it is malformed. A pattern whose
use is a fault is not remembered. -/
def remembered? (pattern : String) : Option (String × Option Regex.Pattern) :=
  match Regex.compile pattern with
  | .ok p => some (pattern, some p)
  | .error (.malformed _ _) => some (pattern, none)
  | .error _ => none

/-- What is noticed about a pattern: that it is malformed. -/
def notice? (pattern : String) : Option String :=
  match Regex.compile pattern with
  | .error (.malformed what place) => some (malformedNotice pattern (.malformed what place))
  | _ => none

/-- **A matcher remembers patterns**, each once and in the order of their first use. -/
def Remembers (m : Matcher) (patterns : List String) : Prop :=
  m.cache = patterns.eraseDups.filterMap remembered?

variable {m : Matcher} {patterns : List String} {pattern : String}

theorem remembers_empty : Remembers {} [] := rfl

/-! ## One pattern -/

/-- Of the patterns in a row, one more is the last one or was there before. -/
theorem eraseDups_concat (patterns : List String) (pattern : String) :
    (patterns ++ [pattern]).eraseDups =
      if pattern ∈ patterns then patterns.eraseDups else patterns.eraseDups ++ [pattern] := by
  rw [List.eraseDups_append]
  by_cases h : pattern ∈ patterns <;> simp [List.removeAll, h, List.eraseDups_cons]

theorem remembered?_fst {entry : String × Option Regex.Pattern}
    (h : remembered? pattern = some entry) : entry.1 = pattern := by
  unfold remembered? at h
  split at h <;> cases h <;> rfl

/-- What is found among patterns in a row. -/
theorem lookup_remembered (patterns : List String) (pattern : String) :
    (patterns.filterMap remembered?).lookup pattern =
      if pattern ∈ patterns then (remembered? pattern).map (·.2) else none := by
  induction patterns with
  | nil => rfl
  | cons first patterns ih =>
    by_cases heq : pattern = first
    · subst heq
      rw [List.filterMap_cons, if_pos List.mem_cons_self]
      cases hentry : remembered? pattern with
      | none =>
        dsimp only
        rw [ih, hentry]
        exact ite_self none
      | some entry =>
        obtain ⟨key, compiled⟩ := entry
        obtain rfl : key = pattern := remembered?_fst hentry
        exact List.lookup_cons_self
    · rw [List.filterMap_cons]
      have hmem : pattern ∈ first :: patterns ↔ pattern ∈ patterns := by simp [heq]
      simp only [hmem, ← ih]
      cases hentry : remembered? first with
      | none => rfl
      | some entry =>
        obtain ⟨key, compiled⟩ := entry
        obtain rfl : key = first := remembered?_fst hentry
        rw [List.lookup_cons, beq_false_of_ne heq]

/-- A pattern that is not found is used, and remembered and noticed as it has to be. -/
theorem find_of_lookup_eq_none (h : m.cache.lookup pattern = none) :
    m.find pattern = (usablePattern pattern, ⟨m.cache ++ (remembered? pattern).toList⟩,
      (notice? pattern).toList) := by
  unfold Matcher.find usablePattern remembered? notice?
  rw [h]
  cases hcompile : Regex.compile pattern with
  | ok p => rfl
  | error e => cases e <;> simp [Regex.Error.fault?]

theorem usablePattern_of_remembered? {entry : String × Option Regex.Pattern}
    (h : remembered? pattern = some entry) : usablePattern pattern = .ok entry.2 := by
  unfold remembered? at h
  unfold usablePattern
  split at h <;> rename_i hcompile
  · cases h
    rw [hcompile]
  · cases h
    rw [hcompile]
    rfl
  · cases h

theorem notice?_of_remembered? (h : remembered? pattern = none) : notice? pattern = none := by
  unfold remembered? at h
  unfold notice?
  split at h
  · cases h
  · cases h
  · rename_i e hmalformed hcompile
    rw [hcompile]
    cases e with
    | malformed what place => exact absurd rfl (hmalformed what place)
    | _ => rfl

/-- **What one more pattern changes**: the result is that of its use, and it is remembered and
noticed unless it was used before. -/
theorem find_of_remembers (h : m.Remembers patterns) (pattern : String) :
    (m.find pattern).1 = usablePattern pattern ∧
      (m.find pattern).2.1.Remembers (patterns ++ [pattern]) ∧
      (m.find pattern).2.2 = if pattern ∈ patterns then [] else (notice? pattern).toList := by
  have hlookup := lookup_remembered patterns.eraseDups pattern
  rw [← h] at hlookup
  simp only [List.mem_eraseDups] at hlookup
  unfold Remembers at h ⊢
  rw [eraseDups_concat]
  by_cases hmem : pattern ∈ patterns
  · rw [if_pos hmem] at hlookup ⊢
    rw [if_pos hmem, ← h]
    cases hentry : remembered? pattern with
    | some entry =>
      rw [hentry] at hlookup
      unfold Matcher.find
      rw [hlookup]
      exact ⟨(usablePattern_of_remembered? hentry).symm, rfl, rfl⟩
    | none =>
      rw [hentry] at hlookup
      rw [find_of_lookup_eq_none hlookup, hentry, notice?_of_remembered? hentry]
      exact ⟨rfl, List.append_nil _, rfl⟩
  · rw [if_neg hmem] at hlookup ⊢
    rw [if_neg hmem, find_of_lookup_eq_none hlookup, List.filterMap_append, ← h]
    refine ⟨rfl, ?_, rfl⟩
    cases hentry : remembered? pattern <;> simp [hentry]

/-! ## Questions in a row -/

/-- What is noticed at a question behind others: that its pattern is malformed, unless it was used
before. -/
def noticed (before : List Inquiry) (i : Inquiry) : List String :=
  match i.pattern? with
  | some pattern => if pattern ∈ patternsAsked before then [] else (notice? pattern).toList
  | none => []

theorem patternsAsked_concat (before : List Inquiry) (i : Inquiry) :
    patternsAsked (before ++ [i]) = patternsAsked before ++ i.pattern?.toList := by
  rw [patternsAsked, List.filterMap_append, patternsAsked]
  cases hpattern : i.pattern? <;> simp [hpattern]

/-- The patterns that are noticed, each at its first use. -/
theorem filterMap_notice?_concat (before : List Inquiry) (i : Inquiry) :
    (patternsAsked (before ++ [i])).eraseDups.filterMap notice? =
      (patternsAsked before).eraseDups.filterMap notice? ++ noticed before i := by
  rw [patternsAsked_concat, noticed]
  cases i.pattern? with
  | none => simp
  | some pattern =>
    rw [Option.toList_some, eraseDups_concat]
    dsimp only
    split
    · exact (List.append_nil _).symm
    · rw [List.filterMap_append]
      cases hnotice : notice? pattern <;> simp [hnotice]

/-- **What one more question changes**: the reply is that of a new matcher, and its pattern is
remembered and noticed unless it was used before. -/
theorem put_of_remembers {before : List Inquiry} (h : m.Remembers (patternsAsked before))
    (i : Inquiry) : (m.put i).answer = (put {} i).answer ∧
      (m.put i).matcher.Remembers (patternsAsked (before ++ [i])) ∧
      (m.put i).warnings = noticed before i := by
  obtain ⟨target, spec, path⟩ := i
  rw [patternsAsked_concat, noticed]
  have hsame : m.Remembers (patternsAsked before ++ []) := (List.append_nil _).symm ▸ h
  cases target with
  | none => exact ⟨rfl, hsame, rfl⟩
  | some heading =>
    cases spec with
    | literal text => exact ⟨rfl, hsame, rfl⟩
    | expr source e => exact ⟨rfl, hsame, rfl⟩
    | pattern text =>
      obtain ⟨hresult, hmatcher, hnoticed⟩ := find_of_remembers h (anchored text)
      have hnew := (find_of_remembers remembers_empty (anchored text)).1
      refine ⟨?_, hmatcher, hnoticed⟩
      simp only [put, Matcher.ask]
      rw [hresult, hnew]

/-- A matcher remembers the patterns it was asked about. -/
theorem remembers_after (inquiries : List Inquiry) :
    (after {} inquiries).Remembers (patternsAsked inquiries) := by
  induction inquiries using List.reverseRecOn with
  | nil => exact remembers_empty
  | append_singleton before i ih =>
    rw [after, List.foldl_concat]
    exact (put_of_remembers ih i).2.1

theorem replies_concat (before : List Inquiry) (i : Inquiry) :
    ∀ m : Matcher, m.replies (before ++ [i]) = m.replies before ++ [(m.after before).put i] := by
  induction before with
  | nil => exact fun _ => rfl
  | cons first before ih => exact fun m => congrArg (m.put first :: ·) (ih _)

end Matcher

/-- **What is seen of the memory of a matcher** that is asked questions in a row. Each answer is
that of a new matcher. What is remembered are the patterns of the questions about headings, without
repetitions, in the order of their first use, each with what it compiles to (but for patterns whose
use is a fault). What is noticed are those of them that are malformed, each once, at its first use.
-/
structure Transparent (inquiries : List Inquiry) : Prop where
  answers : (Matcher.replies {} inquiries).map (·.answer) =
    inquiries.map fun i => (Matcher.put {} i).answer
  remembered : (Matcher.after {} inquiries).cache =
    (patternsAsked inquiries).eraseDups.filterMap Matcher.remembered?
  compiled : (∀ p ∈ patternsAsked inquiries, ∀ fault, ¬ Unusable p fault) →
    (Matcher.after {} inquiries).cache =
      (patternsAsked inquiries).eraseDups.map fun p => (p, (Regex.compile p).toOption)
  notices : (Matcher.replies {} inquiries).flatMap (·.warnings) =
    (patternsAsked inquiries).eraseDups.filterMap Matcher.notice?
  first : ∀ before i behind, inquiries = before ++ i :: behind →
    (Matcher.put (Matcher.after {} before) i).warnings = Matcher.noticed before i

theorem Matcher.remembered?_of_usable {pattern : String}
    (h : ∀ fault, ¬ Unusable pattern fault) :
    Matcher.remembered? pattern = some (pattern, (Regex.compile pattern).toOption) := by
  unfold Matcher.remembered?
  cases hcompile : Regex.compile pattern with
  | ok p => rfl
  | error e =>
    cases e with
    | malformed what place => rfl
    | _ => exact absurd ⟨_, hcompile, rfl⟩ (h _)

/-- **Nothing but the notices tells** that a matcher remembers patterns. -/
theorem transparent_replies (inquiries : List Inquiry) : Transparent inquiries := by
  have hremembers := Matcher.remembers_after inquiries
  refine ⟨?_, hremembers, fun husable => hremembers.trans ?_, ?_, fun before i _ _ =>
    (Matcher.put_of_remembers (Matcher.remembers_after before) i).2.2⟩
  · induction inquiries using List.reverseRecOn with
    | nil => rfl
    | append_singleton before i ih =>
      have hbefore := Matcher.remembers_after before
      rw [Matcher.replies_concat, List.map_append, List.map_append, ih hbefore]
      exact congrArg (_ ++ [·]) (Matcher.put_of_remembers hbefore i).1
  · rw [← List.filterMap_eq_map]
    refine List.filterMap_congr fun p hp => ?_
    exact Matcher.remembered?_of_usable (husable p (List.mem_eraseDups.1 hp))
  · induction inquiries using List.reverseRecOn with
    | nil => rfl
    | append_singleton before i ih =>
      have hbefore := Matcher.remembers_after before
      rw [Matcher.replies_concat, List.flatMap_append, ih hbefore, List.flatMap_singleton,
        (Matcher.put_of_remembers hbefore i).2.2, Matcher.filterMap_notice?_concat]

/-- A malformed pattern in three questions, the second one about the part before the first heading:
it is noticed once and remembered once. -/
example :
    let heading : Heading := ⟨1, "A", 1, 1, "a"⟩
    let asked : List Inquiry := [⟨some heading, .pattern "# A(", "a.md"⟩,
      ⟨none, .pattern "# B(", "a.md"⟩, ⟨some heading, .pattern "^# A(", "b.md"⟩]
    (Matcher.replies {} asked).map (·.warnings.length) = [1, 0, 0] ∧
      (Matcher.after {} asked).cache.map (·.1) = ["^# A($"] := by
  decide +kernel

end Outline
